namespace Switchboard.Text

def split [DecidableEq α] (sep : α) : List α → List (List α)
  | [] => [[]]
  | c :: rest =>
    if c = sep then [] :: split sep rest
    else match split sep rest with
      | [] => [[c]]
      | piece :: more => (c :: piece) :: more

def cut [DecidableEq α] (sep : α) : List α → Option (List α × List α)
  | [] => none
  | c :: rest =>
    if c = sep then some ([], rest)
    else (cut sep rest).map fun (before, after) => (c :: before, after)

def join (sep : α) : List (List α) → List α
  | [] => []
  | [piece] => piece
  | piece :: more => piece ++ sep :: join sep more

def occursIn [BEq α] (word : List α) : List α → Bool
  | [] => word.isEmpty
  | c :: rest => word.isPrefixOf (c :: rest) || occursIn word rest

def fields (sep : Char) (s : String) : List String :=
  (split sep s.toList).map String.ofList

def cutString (sep : Char) (s : String) : Option (String × String) :=
  (cut sep s.toList).map fun (before, after) => (String.ofList before, String.ofList after)

theorem occursIn_iff [DecidableEq α] {word s : List α} : occursIn word s = true ↔ word <:+: s := by
  induction s with
  | nil => simp [occursIn]
  | cons c rest ih => simp [occursIn, ih, List.infix_cons_iff]

theorem split_nonempty [DecidableEq α] (sep : α) (s : List α) : split sep s ≠ [] := by
  cases s with
  | nil => simp [split]
  | cons c rest =>
    rw [split]
    split
    · simp
    · split <;> simp

theorem join_split [DecidableEq α] (sep : α) (s : List α) : join sep (split sep s) = s := by
  induction s with
  | nil => rfl
  | cons c rest ih =>
    rw [split]
    by_cases same : c = sep
    · rw [if_pos same]
      cases cutRest : split sep rest with
      | nil => exact absurd cutRest (split_nonempty sep rest)
      | cons piece more => rw [join, ← cutRest, ih, same]; rfl; simp
    · rw [if_neg same]
      cases cutRest : split sep rest with
      | nil => exact absurd cutRest (split_nonempty sep rest)
      | cons piece more =>
        rw [cutRest] at ih
        cases more with
        | nil => simpa [join] using ih
        | cons next more => simpa [join] using ih

theorem cut_parts [DecidableEq α] {sep : α} {s before after : List α}
    (h : cut sep s = some (before, after)) : s = before ++ sep :: after ∧ sep ∉ before := by
  induction s generalizing before with
  | nil => simp [cut] at h
  | cons c rest ih =>
    rw [cut] at h
    split at h
    · next same =>
      cases h
      exact ⟨by rw [same]; rfl, by simp⟩
    · next other =>
      obtain ⟨⟨front, back⟩, found, eq⟩ := Option.map_eq_some_iff.1 h
      cases eq
      obtain ⟨whole, absent⟩ := ih found
      exact ⟨by rw [whole]; rfl, by simp [absent, Ne.symm other]⟩

end Switchboard.Text
