import Mathlib.Data.List.DropRight
import Switchboard.Request.Envelope

namespace Switchboard

namespace Text

section
variable {p : Char → Bool} {s before after : List Char}

theorem trimWhere_nil_iff : trimWhere p s = [] ↔ ∀ c ∈ s, p c = true := by
  constructor
  · intro empty
    have dropped : s.dropWhile p = [] := by
      have all := List.rdropWhile_eq_nil_iff.mp (show (s.dropWhile p).rdropWhile p = [] from empty)
      rw [← List.dropWhile_idempotent, List.dropWhile_eq_nil_iff]
      exact all
    exact List.dropWhile_eq_nil_iff.mp dropped
  · intro blank
    rw [trimWhere, List.dropWhile_eq_nil_iff.mpr blank]
    rfl

theorem trimWhere_subset (p : Char → Bool) (s : List Char) : trimWhere p s ⊆ s := by
  intro c present
  have kept := (List.dropWhile_suffix p).subset (List.mem_reverse.mp present)
  exact (List.dropWhile_suffix p).subset (List.mem_reverse.mp kept)

theorem trimWhere_front (p : Char → Bool) (s : List Char) : trimWhere p (s.dropWhile p) = trimWhere p s := by
  rw [trimWhere, List.dropWhile_idempotent]
  rfl

theorem trimWhere_append (blank : ∀ c ∈ after, p c = true) : trimWhere p (s ++ after) = trimWhere p s := by
  have gone : after.reverse.dropWhile p = [] := List.dropWhile_eq_nil_iff.mpr (by simpa using blank)
  unfold trimWhere
  rw [List.dropWhile_append]
  split
  · next empty =>
    rw [List.isEmpty_iff.mp empty, List.dropWhile_eq_nil_iff.mpr blank]
  · rw [List.reverse_append, List.dropWhile_append, gone]
    rfl

theorem trimWhere_back (p : Char → Bool) (s : List Char) : trimWhere p (s.rdropWhile p) = trimWhere p s := by
  have whole : s.rdropWhile p ++ (s.reverse.takeWhile p).reverse = s := by
    rw [List.rdropWhile, ← List.reverse_append, List.takeWhile_append_dropWhile, List.reverse_reverse]
  have blank : ∀ c ∈ (s.reverse.takeWhile p).reverse, p c = true := by
    intro c present
    exact List.mem_takeWhile_imp (List.mem_reverse.mp present)
  rw [← trimWhere_append blank, whole]

theorem dropWhile_solid {sep : Char} (solid : p sep = false) (before after : List Char) :
    (before ++ sep :: after).dropWhile p = before.dropWhile p ++ sep :: after := by
  rw [List.dropWhile_append]
  split
  · next empty =>
    rw [List.isEmpty_iff.mp empty, List.dropWhile_cons_of_neg (by simp [solid]), List.nil_append]
  · rfl

theorem trimWhere_cut {sep : Char} (solid : p sep = false) (before after : List Char) :
    trimWhere p (before ++ sep :: after) = before.dropWhile p ++ sep :: after.rdropWhile p := by
  have turned : (before.dropWhile p ++ sep :: after).reverse =
      after.reverse ++ sep :: (before.dropWhile p).reverse := by simp
  rw [trimWhere, dropWhile_solid solid, turned, dropWhile_solid solid]
  simp [List.rdropWhile]

theorem cut_append {sep : Char} (absent : sep ∉ before) : cut sep (before ++ sep :: after) = some (before, after) := by
  induction before with
  | nil => simp [cut]
  | cons c before ih =>
    rw [List.mem_cons, not_or] at absent
    rw [List.cons_append, cut, if_neg (Ne.symm absent.1), ih absent.2]
    rfl

theorem cut_absent {sep : Char} (absent : sep ∉ s) : cut sep s = none := by
  cases found : cut sep s with
  | none => rfl
  | some parts =>
    rw [(cut_parts found).1] at absent
    simp at absent

end

end Text

namespace Envelope
open Text

def Blank (s : List Char) : Prop := ∀ c ∈ s, isBlank c = true

-- a label and a payload with a comma between them, and the entry that they make
inductive Labelled : List Char → BatchEntry → Prop where
  | pair {label encoded} : ',' ∉ label → ¬ Blank label → ¬ Blank encoded →
    Labelled (label ++ ',' :: encoded)
      ⟨String.ofList (trimWhere isBlank label), String.ofList (trimWhere isBlank encoded)⟩

-- what is no entry: no comma, no label before the first one, or no payload behind it
inductive Void : List Char → Prop where
  | whole {piece} : ',' ∉ piece → Void piece
  | label {label encoded} : Blank label → Void (label ++ ',' :: encoded)
  | payload {label encoded} : ',' ∉ label → Blank encoded → Void (label ++ ',' :: encoded)

theorem piece_plain {piece : List Char} (plain : ',' ∉ piece) : entry? piece = none := by
  have trimmed : ',' ∉ trimWhere isBlank piece := fun present => plain (trimWhere_subset _ _ present)
  rw [ entry?, cut_absent trimmed]

theorem piece_comma {label encoded : List Char} (first : ',' ∉ label) :
    entry? (label ++ ',' :: encoded) =
      if trimWhere isBlank label = [] ∨ trimWhere isBlank encoded = [] then none
      else some ⟨String.ofList (trimWhere isBlank label), String.ofList (trimWhere isBlank encoded)⟩ := by
  have front : ',' ∉ label.dropWhile isBlank := fun present => first ((List.dropWhile_suffix _).subset present)
  rw [ entry?, trimWhere_cut (by decide), cut_append front]
  dsimp only
  rw [trimWhere_front, trimWhere_back]

theorem blank_first {label : List Char} (blank : Blank label) : ',' ∉ label := by
  intro present
  have wrong := blank _ present
  revert wrong
  decide

theorem piece_void {piece : List Char} (void : Void piece) : entry? piece = none := by
  cases void with
  | whole plain => exact piece_plain plain
  | label blank => rw [piece_comma (blank_first blank), if_pos (.inl (trimWhere_nil_iff.mpr blank))]
  | payload first blank => rw [piece_comma first, if_pos (.inr (trimWhere_nil_iff.mpr blank))]

theorem piece_labelled {piece : List Char} {entry : BatchEntry} :
    entry? piece = some entry ↔ Labelled piece entry := by
  constructor
  · intro found
    by_cases comma : ',' ∈ piece
    · obtain ⟨label, encoded, whole, first⟩ := List.eq_append_cons_of_mem comma
      rw [whole, piece_comma first] at found
      split at found
      · cases found
      · next full =>
        cases found
        rw [not_or, trimWhere_nil_iff, trimWhere_nil_iff] at full
        rw [whole]
        exact .pair first full.1 full.2
    · rw [piece_plain comma] at found
      cases found
  · intro labelled
    cases labelled with
    | pair first label payload =>
      rw [piece_comma first, if_neg]
      rw [not_or, trimWhere_nil_iff, trimWhere_nil_iff]
      exact ⟨label, payload⟩

theorem entries_without {front back : List (List Char)} {piece : List Char} (void : Void piece)
    {envelope : String} (pieces : split ';' envelope.toList = front ++ piece :: back) :
    entries envelope = ((front ++ back).filterMap entry?).take maxEntries := by
  rw [entries, pieces, List.filterMap_append, List.filterMap_cons_none (piece_void void),
    ← List.filterMap_append]

end Envelope
end Switchboard
