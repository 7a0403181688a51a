import Mathlib.Logic.Function.Iterate
import Switchboard.Proofs.JsonText
import Switchboard.Reply

namespace Switchboard

namespace Json

def isScalar : Json → Bool
  | .array _ | .object _ => false
  | _ => true

-- Every number has a text, even one that JSON has none for.
theorem render_number (n : Number) : (Json.number n).render ≠ "" := by
  intro none
  have written : chars (.number n) = [] := by simpa [render] using congrArg String.toList none
  have longer := writeNumber_longer n []
  rw [chars, write] at written
  simp [written] at longer

end Json

namespace Reply

inductive Made : Json → Reply → Prop where
  | nothing {v} : v.isScalar = true → Made v .empty
  | said {v content} : v.isScalar = true → content ≠ "" → Made v (.text content)
  | wrapped {items} : Made (.array items) (.structured [("response", .number (.int 200)), ("data", .array items)])
  | kept {fields} : Entries.has "response" fields = true → Made (.object fields) (.structured fields)
  | added {fields} : Entries.has "response" fields = false →
    Made (.object fields) (.structured (("response", .number (.int 200)) :: fields))

theorem has_first (value : Json) (fields : Fields) : Entries.has "response" (("response", value) :: fields) = true := by
  simp [Entries.has, Entries.find]

theorem normalize_kept {fields : Fields} (present : Entries.has "response" fields = true) :
    normalize (.object fields) = .structured fields := by
  simp only [normalize, statusField, present, if_true]

theorem normalize_added {fields : Fields} (absent : Entries.has "response" fields = false) :
    normalize (.object fields) = .structured (("response", .number (.int 200)) :: fields) := by
  simp only [normalize, statusField, absent, Bool.false_eq_true, if_false]
  rfl

theorem normalize_made (v : Json) : Made v (normalize v) := by
  cases v with
  | null => exact .nothing rfl
  | bool b =>
    cases b with
    | false => exact .nothing rfl
    | true => exact .said rfl (by decide)
  | number n =>
    unfold normalize
    dsimp only
    split
    · exact .said rfl (Json.render_number n)
    · exact .nothing rfl
  | string s =>
    unfold normalize
    dsimp only
    split
    · exact .nothing rfl
    · next full => exact .said rfl full
  | array items => exact .wrapped
  | object fields =>
    cases present : Entries.has "response" fields with
    | true =>
      rw [normalize_kept present]
      exact .kept present
    | false =>
      rw [normalize_added present]
      exact .added present

section
variable {v : Json} {r : Reply}

theorem Made.status (made : Made v r) {fields : Fields} (same : r = .structured fields) :
    Entries.has "response" fields = true := by
  cases made with
  | kept present =>
    cases same
    exact present
  | wrapped | added =>
    cases same
    exact has_first _ _
  | _ => cases same

theorem Made.again (made : Made v r) : normalize r.value = r := by
  cases r with
  | empty => rfl
  | structured fields => exact normalize_kept (made.status rfl)
  | text content =>
    cases made with
    | said _ full => simp only [value, normalize, if_neg full]

theorem normalize_again (v : Json) : normalize (normalize v).value = normalize v :=
  (normalize_made v).again

-- A structured reply succeeds with the one status that says so, as an integer.
theorem isFailure_structured {fields : Fields} : (structured fields).isFailure = true ↔
    Entries.find "response" fields ≠ some (.number (.int 200)) := by
  unfold isFailure status? statusField
  dsimp only
  split
  · next n found =>
    rw [found]
    split <;> simp [Status.code] <;> omega
  · next other => simpa using other 200

theorem Made.failing (made : Made v r) : r.isFailure = true ↔ ∃ fields status,
    v = .object fields ∧ Entries.find "response" fields = some status ∧ status ≠ .number (.int 200) := by
  cases made with
  | kept present =>
    obtain ⟨status, found⟩ := Option.isSome_iff_exists.mp present
    simp [isFailure_structured, found]
  | added absent =>
    have missing := Option.isSome_eq_false_iff.mp absent
    simp only [Option.isNone_iff_eq_none] at missing
    simp [isFailure_structured, Entries.find, missing]
  | wrapped => simp [isFailure_structured, Entries.find]
  | nothing scalar | said scalar =>
    refine iff_of_false Bool.false_ne_true ?_
    rintro ⟨fields, _, rfl, _⟩
    cases scalar

theorem Made.structured (made : Made v r) : (∃ fields, r = .structured fields) ↔ v.isScalar = false := by
  cases made with
  | nothing scalar | said scalar => simp [scalar]
  | _ => simp [Json.isScalar]

end

structure Becomes (v : Json) (r : Reply) : Prop where
  again : normalize r.value = r
  passed : ∀ levels : Nat, (fun s => normalize s.value)^[levels] r = r
  structured : (∃ fields, r = .structured fields) ↔ (∃ items, v = .array items) ∨ ∃ fields, v = .object fields
  status : ∀ fields, r = .structured fields → Entries.has "response" fields = true
  kept : ∀ fields, v = .object fields → Entries.has "response" fields = true → r = .structured fields
  added : ∀ fields, v = .object fields → Entries.has "response" fields = false →
    r = .structured (("response", .number (.int 200)) :: fields)
  wrapped : ∀ items, v = .array items → r = .structured [("response", .number (.int 200)), ("data", .array items)]
  failing : r.isFailure = true ↔
    ∃ fields status, v = .object fields ∧ Entries.find "response" fields = some status ∧ status ≠ .number (.int 200)
  full : r ≠ .text ""

-- Once is enough: what a reply is, and whether it fails, stays with it at every further level.
theorem normalization_settles (v : Json) : Becomes v (normalize v) := by
  have made := normalize_made v
  refine ⟨made.again, fun levels => Function.iterate_fixed made.again levels, ?_, fun _ => made.status, ?_, ?_, ?_,
    made.failing, ?_⟩
  · rw [made.structured]
    cases v <;> simp [Json.isScalar]
  · rintro fields rfl present
    exact normalize_kept present
  · rintro fields rfl absent
    exact normalize_added absent
  · rintro items rfl
    rfl
  · intro silent
    rw [silent] at made
    cases made with
    | said _ full => exact full rfl

-- A status that is no integer fails, at every level.
example : (normalize (.object [("x", .null), ("response", .string "200")])).isFailure = true := by rfl

end Reply
end Switchboard
