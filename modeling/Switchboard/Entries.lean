namespace Switchboard

abbrev Entries (α : Type) := List (String × α)

namespace Entries

def find (name : String) : Entries α → Option α
  | [] => none
  | (key, value) :: rest => if key = name then some value else find name rest

def put (name : String) (value : α) : Entries α → Entries α
  | [] => [(name, value)]
  | (key, old) :: rest =>
    if key = name then (key, value) :: rest else (key, old) :: put name value rest

-- later pairs win over earlier ones and over what was there
def putAll (entries : Entries α) (pairs : List (String × α)) : Entries α :=
  pairs.foldl (fun acc pair => put pair.1 pair.2 acc) entries

def ofPairs (pairs : List (String × α)) : Entries α :=
  putAll [] pairs

def names (entries : Entries α) : List String :=
  entries.map Prod.fst

def has (name : String) (entries : Entries α) : Bool :=
  (find name entries).isSome

@[simp] theorem find_put_same (name : String) (value : α) (entries : Entries α) :
    find name (put name value entries) = some value := by
  induction entries with
  | nil => simp [put, find]
  | cons head rest ih =>
    obtain ⟨key, old⟩ := head
    by_cases same : key = name <;> simp [put, find, same, ih]

theorem find_put_other {name other : String} (different : other ≠ name) (value : α)
    (entries : Entries α) : find other (put name value entries) = find other entries := by
  induction entries with
  | nil => simp [put, find, Ne.symm different]
  | cons head rest ih =>
    obtain ⟨key, old⟩ := head
    by_cases same : key = name
    · subst same
      simp [put, find, Ne.symm different]
    · simp [put, find, same, ih]

theorem names_put (name : String) (value : α) (entries : Entries α) :
    names (put name value entries) =
      if name ∈ names entries then names entries else names entries ++ [name] := by
  induction entries with
  | nil => simp [put, names]
  | cons head rest ih =>
    obtain ⟨key, old⟩ := head
    by_cases same : key = name
    · simp [put, names, same]
    · simp only [names, put, if_neg same, List.map_cons, List.mem_cons] at ih ⊢
      by_cases inside : name ∈ rest.map Prod.fst
      · simp [ih, inside]
      · simp [ih, inside, Ne.symm same]

theorem nodup_put {entries : Entries α} (distinct : (names entries).Nodup) (name : String)
    (value : α) : (names (put name value entries)).Nodup := by
  rw [names_put]
  split
  · exact distinct
  · next absent =>
    rw [List.nodup_append]
    refine ⟨distinct, by simp, ?_⟩
    intro left present right single equal
    simp only [List.mem_singleton] at single
    exact absent (single ▸ equal ▸ present)

end Entries
end Switchboard
