import Mathlib
import Switchboard.Proofs.Bookkeeping

namespace Switchboard.Context

-- the two objects in which a path can begin
inductive Root where
  | vars
  | args
deriving DecidableEq

def object (c : Context) : Root → Fields
  | .vars => c.vars
  | .args => c.args

def root (path : String) : Root :=
  if (segments path).head? = some argsName then .args else .vars

def trail (path : String) : List String :=
  match root path with
  | .vars => segments path
  | .args => (segments path).tail

def stored (c : Context) (root : Root) (names : List String) : Option Json :=
  navigate names (.object (c.object root))

-- the object that writing finds at the end of names: an empty one where no object stands
def within : List String → Fields → Fields
  | [], fields => fields
  | name :: rest, fields => within rest (branch name fields)

theorem segments_nonempty (path : String) : segments path ≠ [] := by
  simp [segments, Text.fields, Text.split_nonempty]

theorem segments_args {path : String} (alone : segments path = [argsName]) : path = argsName := by
  obtain ⟨piece, pieces, named⟩ := List.map_eq_singleton_iff.mp alone
  have whole := Text.join_split '.' path.toList
  rw [pieces] at whole
  rw [← named, ← String.toList_inj, String.toList_ofList]
  exact whole.symm

theorem trail_nonempty {path : String} (other : path ≠ argsName) : trail path ≠ [] := by
  unfold trail root
  cases pieces : segments path with
  | nil => exact absurd pieces (segments_nonempty path)
  | cons name rest =>
    by_cases args : name = argsName
    · subst args
      intro empty
      have alone : rest = [] := by simpa using empty
      exact other (segments_args (alone ▸ pieces))
    · simp [args]

section
variable (c : Context) {path : String}

theorem get_stored (other : path ≠ argsName) : c.get path = c.stored (root path) (trail path) := by
  have longer := trail_nonempty other
  unfold get stored
  unfold trail root at *
  cases pieces : segments path with
  | nil => exact absurd pieces (segments_nonempty path)
  | cons name rest =>
    rw [pieces] at longer
    by_cases args : name = argsName
    · subst args
      have more : rest ≠ [] := by simpa using longer
      simp [more, object]
    · simp [args, object]

-- Writing changes the object in which the path begins, and nothing else.
theorem set_object (other : path ≠ argsName) (value : Json) (r : Root) :
    (c.set path value).object r =
      if r = root path then assign (trail path) value (c.object r) else c.object r := by
  have longer := trail_nonempty other
  unfold set
  unfold trail root at *
  cases pieces : segments path with
  | nil => exact absurd pieces (segments_nonempty path)
  | cons name rest =>
    rw [pieces] at longer
    by_cases args : name = argsName
    · subst args
      have more : rest ≠ [] := by simpa using longer
      cases r <;> simp [more, object]
    · cases r <;> simp [args, object]

-- Behind a name that no array stands under, names lead on in the object that writing finds there.
theorem navigate_branch {name : String} {rest : List String} (more : rest ≠ []) (fields : Fields)
    (no_array : ∀ items, navigate [name] (.object fields) ≠ some (.array items)) :
    navigate rest (.object (branch name fields)) = navigate (name :: rest) (.object fields) := by
  obtain ⟨next, rest, rfl⟩ := List.exists_cons_of_ne_nil more
  cases found : Entries.find name fields with
  | none => simp [navigate, member, branch, found, Entries.find]
  | some value =>
    cases value with
    | array items => exact absurd (by simp [navigate, member, found]) (no_array items)
    | object inner => simp [navigate, member, branch, found]
    | _ => simp [navigate, member, branch, found, Entries.find]

theorem assign_cons {name : String} {rest : List String} (more : rest ≠ []) (value : Json) (fields : Fields) :
    assign (name :: rest) value fields =
      Entries.put name (.object (assign rest value (branch name fields))) fields := by
  obtain ⟨next, rest, rfl⟩ := List.exists_cons_of_ne_nil more
  rfl

-- A value is found at the end of its path, and what names lead to in it behind the path.
theorem navigate_assign_below {names : List String} (longer : names ≠ []) (rest : List String) (value : Json)
    (fields : Fields) : navigate (names ++ rest) (.object (assign names value fields)) = navigate rest value := by
  induction names generalizing fields with
  | nil => exact absurd rfl longer
  | cons name names ih =>
    cases names with
    | nil => simp [assign, navigate, member]
    | cons next names =>
      rw [assign_cons (by simp)]
      simpa [navigate, member] using ih (by simp) (branch name fields)

-- Names that part from those of the path lead to what they led to before, unless both came through an array.
theorem navigate_assign_beside {names others : List String} (value : Json) (fields : Fields)
    (not_before : ¬ others <+: names) (not_behind : ¬ names <+: others)
    (no_array : ∀ front, front ≠ [] → front <+: names → front <+: others →
      ∀ items, navigate front (.object fields) ≠ some (.array items)) :
    navigate others (.object (assign names value fields)) = navigate others (.object fields) := by
  induction names generalizing others fields with
  | nil => exact absurd List.nil_prefix not_behind
  | cons name names ih =>
    cases others with
    | nil => exact absurd List.nil_prefix not_before
    | cons other others =>
      by_cases same : other = name
      · subst same
        have apart : ¬ others <+: names ∧ ¬ names <+: others := by simpa using And.intro not_before not_behind
        have more : others ≠ [] := by rintro rfl; exact apart.1 List.nil_prefix
        obtain ⟨next, names, rfl⟩ := List.exists_cons_of_ne_nil (show names ≠ [] by
          rintro rfl; exact apart.2 List.nil_prefix)
        have here : ∀ items, navigate [other] (.object fields) ≠ some (.array items) :=
          no_array [other] (by simp) (by simp) (by simp)
        have inner : navigate others (.object (assign (next :: names) value (branch other fields))) =
            navigate others (.object (branch other fields)) := by
          refine ih (branch other fields) apart.1 apart.2 fun front some_front before before' items => ?_
          rw [navigate_branch some_front fields here]
          exact no_array (other :: front) (by simp) (by simpa using before) (by simpa using before') items
        rw [assign_cons (by simp), ← navigate_branch more fields here, ← inner]
        simp [navigate, member]
      · cases names with
        | nil => simp [assign, navigate, member, Entries.find_put_other same]
        | cons next names => simp [assign, navigate, member, Entries.find_put_other same]

-- On the way there are objects, each with one more entry or one entry changed.
theorem navigate_assign_way (front : List String) (name : String) (back : List String) (value : Json)
    (fields : Fields) : ∃ inner, navigate front (.object (assign (front ++ name :: back) value fields)) =
      some (.object (Entries.put name inner (within front fields))) := by
  induction front generalizing fields with
  | nil =>
    cases back with
    | nil => exact ⟨value, rfl⟩
    | cons next back => exact ⟨_, rfl⟩
  | cons first front ih =>
    obtain ⟨inner, found⟩ := ih (branch first fields)
    refine ⟨inner, ?_⟩
    rw [List.cons_append, assign_cons (by simp)]
    simpa [navigate, member, within] using found

structure Assigned (c : Context) (path : String) (value : Json) (after : Context) : Prop where
  itself : after.get path = some value
  below : ∀ q rest, q ≠ argsName → root q = root path → trail q = trail path ++ rest →
    after.get q = navigate rest value
  elsewhere : ∀ q, q ≠ argsName → root q ≠ root path → after.get q = c.get q
  beside : ∀ q, q ≠ argsName → root q = root path → ¬ trail q <+: trail path → ¬ trail path <+: trail q →
    (∀ front, front ≠ [] → front <+: trail path → front <+: trail q →
      ∀ items, c.stored (root path) front ≠ some (.array items)) →
    after.get q = c.get q
  depth : after.depth = c.depth
  untouched : ∀ r, r ≠ root path → after.object r = c.object r
  way : ∀ front name back, trail path = front ++ name :: back →
    let old := within front (c.object (root path))
    ∃ fields, after.stored (root path) front = some (.object fields) ∧
      Entries.names fields = (if name ∈ Entries.names old then Entries.names old else Entries.names old ++ [name]) ∧
      ∀ other, other ≠ name → Entries.find other fields = Entries.find other old

theorem set_assigned (c : Context) {path : String} (other : path ≠ argsName) (value : Json) :
    Assigned c path value (c.set path value) := by
  have longer := trail_nonempty other
  have written : (c.set path value).object (root path) = assign (trail path) value (c.object (root path)) := by
    rw [set_object c other, if_pos rfl]
  have below (q : String) (rest : List String) (other' : q ≠ argsName) (same : root q = root path)
      (behind : trail q = trail path ++ rest) : (c.set path value).get q = navigate rest value := by
    rw [get_stored _ other', stored, same, written, behind]
    exact navigate_assign_below longer rest value _
  refine ⟨below path [] other rfl (by simp), below, ?_, ?_, c.set_depth path value, ?_, ?_⟩
  · intro q other' apart
    rw [get_stored _ other', get_stored _ other', stored, stored, set_object c other, if_neg apart]
  · intro q other' same not_before not_behind no_array
    rw [get_stored _ other', get_stored _ other', stored, stored, same, written]
    exact navigate_assign_beside value _ not_before not_behind no_array
  · intro r apart
    rw [set_object c other, if_neg apart]
  · intro front name back whole old
    obtain ⟨inner, found⟩ := navigate_assign_way front name back value (c.object (root path))
    refine ⟨Entries.put name inner old, ?_, Entries.names_put name inner old, ?_⟩
    · rw [stored, written, whole]
      exact found
    · intro other different
      exact Entries.find_put_other different inner old

-- A path through a list, beside which a field of the same object is kept.
theorem set_assigned_in_list :
    let fields : Fields := [("list", .array [.bool true]), ("k", .string "v")]
    let c : Context := { vars := [("a", .object fields)], args := [("a", .null)], depth := 2 }
    let after := c.set "a.list.x" (.array [.null])
    "a.list.x" ≠ argsName ∧ Assigned c "a.list.x" (.array [.null]) after ∧
      after.get "a.list.x.0" = some .null ∧ after.get "a.k" = some (.string "v") ∧
      after.get "args.a" = some .null := by
  intro fields c after
  have other : "a.list.x" ≠ argsName := by decide
  have assigned : Assigned c "a.list.x" (.array [.null]) after := set_assigned c other _
  have way : trail "a.list.x" = ["a", "list", "x"] := by decide
  have beside : trail "a.k" = ["a", "k"] := by decide
  refine ⟨other, assigned, ?_, ?_, ?_⟩
  · have inside : navigate ["0"] (.array [.null]) = some .null := by cbv
    exact (assigned.below "a.list.x.0" ["0"] (by decide) (by decide) (by decide)).trans inside
  · refine assigned.beside "a.k" (by decide) (by decide) ?_ ?_ ?_
    · simp [way, beside]
    · simp [way, beside]
    · rw [way, beside]
      intro front some_front before before' items
      rcases List.prefix_cons_iff.mp before' with none | ⟨rest, rfl, inside⟩
      · exact absurd none some_front
      · have shared : rest = [] := by
          rcases List.prefix_cons_iff.mp inside with none | ⟨_, rfl, _⟩
          · exact none
          · simp at before
        subst shared
        have begins : root "a.list.x" = .vars := by decide
        have object : c.stored .vars ["a"] = some (.object fields) := rfl
        simp [begins, object]
  · exact assigned.elsewhere "args.a" (by decide) (by decide)

-- What was read through the list is lost.
example :
    let fields : Fields := [("list", .array [.bool true])]
    let c : Context := { vars := [("a", .object fields)] }
    c.get "a.list.0" = some (.bool true) ∧ (c.set "a.list.x" .null).get "a.list.0" = none := by
  cbv

end

end Switchboard.Context
