import Switchboard.Proofs.Envelopes
import Switchboard.Proofs.Locations

namespace Switchboard

namespace Text

theorem split_join [DecidableEq α] {sep : α} {pieces : List (List α)} (some_piece : pieces ≠ [])
    (whole : ∀ piece ∈ pieces, sep ∉ piece) : split sep (join sep pieces) = pieces := by
  induction pieces with
  | nil => exact absurd rfl some_piece
  | cons piece more ih =>
    have first := split_none (whole piece (by simp))
    cases more with
    | nil => exact first
    | cons next more =>
      have others := ih (by simp) fun other present => whole other (by simp [present])
      rw [join, split_append, first, others, List.singleton_append]
      simp

theorem split_whole [DecidableEq α] {sep : α} (s : List α) : ∀ piece ∈ split sep s, sep ∉ piece := by
  induction s with
  | nil => simp [split]
  | cons c s ih =>
    intro piece present
    rw [split] at present
    split at present
    · rcases List.mem_cons.mp present with rfl | later
      · simp
      · exact ih piece later
    · next other =>
      split at present
      · rcases List.mem_singleton.mp present with rfl
        simp [Ne.symm other]
      · next first more cut =>
        rcases List.mem_cons.mp present with rfl | later
        · have inside := ih first (by simp [cut])
          simp [Ne.symm other, inside]
        · exact ih piece (by simp [cut, later])

section
variable {p : Char → Bool} {s front back : List Char}

def Trimmed (p : Char → Bool) (s : List Char) : Prop :=
  (∀ c ∈ s.head?, p c = false) ∧ ∀ c ∈ s.getLast?, p c = false

theorem dropWhile_stops (p : Char → Bool) (s : List Char) : ∀ c ∈ (s.dropWhile p).head?, p c = false := by
  intro c first
  have stops := List.head?_dropWhile_not p s
  rw [Option.mem_def.mp first] at stops
  exact stops

theorem trimWhere_trimmed (p : Char → Bool) (s : List Char) : Trimmed p (trimWhere p s) := by
  unfold trimWhere
  constructor
  · intro c first
    rw [List.head?_reverse] at first
    -- what is left of a row of characters ends as the row does
    obtain ⟨dropped, parts⟩ := List.dropWhile_suffix p (l := (s.dropWhile p).reverse)
    have begins : (s.dropWhile p).head? = some c := by
      rw [← List.getLast?_reverse, ← parts, List.getLast?_append, Option.mem_def.mp first]
      rfl
    exact dropWhile_stops p s c begins
  · intro c last
    rw [List.getLast?_reverse] at last
    exact dropWhile_stops p _ c last

theorem trimWhere_self (trimmed : Trimmed p s) : trimWhere p s = s := by
  have keeps {s : List Char} (first : ∀ c ∈ s.head?, p c = false) : s.dropWhile p = s := by
    cases s with
    | nil => rfl
    | cons c s => rw [List.dropWhile_cons_of_neg (by simp [first c rfl])]
  obtain ⟨first, last⟩ := trimmed
  rw [trimWhere, keeps first, keeps (by simpa using last), List.reverse_reverse]

theorem trimWhere_around (blank : ∀ c ∈ front, p c = true) (s : List Char) (blank' : ∀ c ∈ back, p c = true) :
    trimWhere p (front ++ s ++ back) = trimWhere p s := by
  rw [trimWhere_append blank', trimWhere, List.dropWhile_append_of_pos blank]
  rfl

end
end Text

namespace Envelope
open Text

-- a part of an entry as it can stand there: something, without blanks around it and without a semicolon
structure Part (s : String) : Prop where
  full : s ≠ ""
  trimmed : Trimmed isBlank s.toList
  whole : ';' ∉ s.toList

-- an entry that an envelope can carry; only payloads may hold commas
structure Proper (entry : BatchEntry) : Prop where
  label : Part entry.label
  encoded : Part entry.encoded
  comma : ',' ∉ entry.label.toList

def writeEntry (entry : BatchEntry) : List Char :=
  entry.label.toList ++ ',' :: entry.encoded.toList

def write (entries : List BatchEntry) : String :=
  String.ofList (join ';' (entries.map writeEntry))

-- Pieces that carry these entries in this order: blanks around the parts of each, and between them pieces that
-- say nothing.
inductive Carries : List (List Char) → List BatchEntry → Prop where
  | nil : Carries [] []
  | entry {entry front before after back pieces entries} :
    Blank front → Blank before → Blank after → Blank back → Carries pieces entries →
    Carries ((front ++ entry.label.toList ++ before ++ ',' :: (after ++ entry.encoded.toList ++ back)) :: pieces)
      (entry :: entries)
  | void {piece pieces entries} :
    Void piece → ';' ∉ piece → Carries pieces entries → Carries (piece :: pieces) entries

theorem Part.shown {s : String} (part : Part s) {front back : List Char} (blank : Blank front)
    (blank' : Blank back) : trimWhere isBlank (front ++ s.toList ++ back) = s.toList := by
  rw [trimWhere_around blank s.toList blank', trimWhere_self part.trimmed]

theorem Part.nonempty {s : String} (part : Part s) : s.toList ≠ [] := by
  intro empty
  exact part.full (String.toList_inj.mp (by rw [empty]; rfl))

theorem blank_free {s : List Char} (blank : Blank s) {c : Char} (solid : isBlank c = false) : c ∉ s := by
  intro present
  rw [blank c present] at solid
  cases solid

theorem entry_read {entry : BatchEntry} (proper : Proper entry) {front before after back : List Char}
    (blank : Blank front) (blank₁ : Blank before) (blank₂ : Blank after) (blank₃ : Blank back) :
    entry? (front ++ entry.label.toList ++ before ++ ',' :: (after ++ entry.encoded.toList ++ back)) =
      some entry := by
  have first : ',' ∉ front ++ entry.label.toList ++ before := by
    simp [blank_free blank, blank_free blank₁, proper.comma, show isBlank ',' = false from by decide]
  rw [piece_comma first, proper.label.shown blank blank₁, proper.encoded.shown blank₂ blank₃,
    if_neg (by simp [proper.label.nonempty, proper.encoded.nonempty])]
  simp

section
variable {pieces : List (List Char)} {written : List BatchEntry}

theorem Carries.read (carries : Carries pieces written) (proper : ∀ entry ∈ written, Proper entry) :
    pieces.filterMap entry? = written := by
  induction carries with
  | nil => rfl
  | entry blank blank₁ blank₂ blank₃ _ ih =>
    rw [List.forall_mem_cons] at proper
    rw [List.filterMap_cons_some (entry_read proper.1 blank blank₁ blank₂ blank₃), ih proper.2]
  | void void _ _ ih => rw [List.filterMap_cons_none (piece_void void), ih proper]

theorem Carries.whole (carries : Carries pieces written) (proper : ∀ entry ∈ written, Proper entry) :
    ∀ piece ∈ pieces, ';' ∉ piece := by
  induction carries with
  | nil => simp
  | entry blank blank₁ blank₂ blank₃ _ ih =>
    rw [List.forall_mem_cons] at proper ⊢
    refine ⟨?_, ih proper.2⟩
    simp [blank_free blank, blank_free blank₁, blank_free blank₂, blank_free blank₃, proper.1.label.whole,
      proper.1.encoded.whole, show isBlank ';' = false from by decide]
  | void _ whole _ ih =>
    rw [List.forall_mem_cons]
    exact ⟨whole, ih proper⟩

theorem Carries.entries (carries : Carries pieces written) (proper : ∀ entry ∈ written, Proper entry) :
    entries (String.ofList (join ';' pieces)) = written.take maxEntries := by
  rw [Envelope.entries, String.toList_ofList]
  by_cases empty : pieces = []
  · subst empty
    cases carries
    rfl
  · rw [split_join empty (carries.whole proper), carries.read proper]

end

theorem write_carries (written : List BatchEntry) : Carries (written.map writeEntry) written := by
  have none : Blank [] := by simp [Blank]
  induction written with
  | nil => exact .nil
  | cons entry more ih => simpa [writeEntry] using Carries.entry none none none none ih

theorem entry_proper {piece : List Char} {entry : BatchEntry} (whole : ';' ∉ piece)
    (reads : entry? piece = some entry) : Proper entry := by
  have part {s : List Char} (full : ¬ Blank s) (whole : ';' ∉ s) : Part (String.ofList (trimWhere isBlank s)) := by
    refine ⟨?_, ?_, ?_⟩
    · intro empty
      have none := congrArg String.toList empty
      rw [String.toList_ofList] at none
      exact full (trimWhere_nil_iff.mp none)
    · rw [String.toList_ofList]
      exact trimWhere_trimmed isBlank s
    · rw [String.toList_ofList]
      exact fun present => whole (trimWhere_subset _ _ present)
  cases piece_labelled.mp reads with
  | @pair label encoded first full full' =>
    simp only [List.mem_append, List.mem_cons, not_or] at whole
    refine ⟨part full whole.1, part full' whole.2.2, ?_⟩
    rw [String.toList_ofList]
    exact fun present => first (trimWhere_subset _ _ present)

-- Reading gives back what was written, up to the number that counts; blanks and pieces that say nothing make
-- no difference; and what is read from any text is as it has to be to be written.
theorem envelopes_read_back :
    (∀ written, (∀ entry ∈ written, Proper entry) → entries (write written) = written.take 256) ∧
    (∀ written pieces, (∀ entry ∈ written, Proper entry) → Carries pieces written →
      entries (String.ofList (join ';' pieces)) = entries (write written)) ∧
    ∀ text, ∀ entry ∈ entries text, Proper entry := by
  refine ⟨?_, ?_, ?_⟩
  · intro written proper
    exact (write_carries written).entries proper
  · intro written pieces proper carries
    exact (carries.entries proper).trans ((write_carries written).entries proper).symm
  · intro text entry present
    obtain ⟨piece, inside, reads⟩ := List.mem_filterMap.mp (List.mem_of_mem_take present)
    exact entry_proper (split_whole text.toList piece inside) reads

-- Two entries, the first with blanks around its parts, and between them a piece without a comma and one whose
-- label is blank.
theorem envelopes_read_back_loose :
    let written : List BatchEntry := [⟨"a", "Zj1t"⟩, ⟨"b", "x,y"⟩]
    let pieces := [" a , Zj1t ".toList, "x".toList, " ,y".toList, "b,x,y".toList]
    (∀ entry ∈ written, Proper entry) ∧ Carries pieces written ∧ entries (write written) = written ∧
      entries (String.ofList (join ';' pieces)) = written := by
  intro written pieces
  have proper : ∀ entry ∈ written, Proper entry := by
    simp only [written, List.forall_mem_cons]
    refine ⟨⟨⟨?_, ?_, ?_⟩, ⟨?_, ?_, ?_⟩, ?_⟩, ⟨⟨?_, ?_, ?_⟩, ⟨?_, ?_, ?_⟩, ?_⟩, by simp⟩ <;>
      simp [Trimmed] <;> decide
  have blank : Blank [' '] := by simp [Blank, isBlank]
  have none : Blank [] := by simp [Blank]
  have last : Carries ["b,x,y".toList] [⟨"b", "x,y"⟩] :=
    @Carries.entry ⟨"b", "x,y"⟩ [] [] [] [] [] [] none none none none .nil
  have between : Carries ["x".toList, " ,y".toList, "b,x,y".toList] [⟨"b", "x,y"⟩] :=
    .void (.whole (by decide)) (by decide) (.void (@Void.label [' '] ['y'] blank) (by decide) last)
  have carries : Carries pieces written :=
    @Carries.entry ⟨"a", "Zj1t"⟩ [' '] [' '] [' '] [' '] _ _ blank blank blank blank between
  have plain := envelopes_read_back.1 written proper
  exact ⟨proper, carries, plain, (envelopes_read_back.2.1 written pieces proper carries).trans plain⟩

end Envelope
end Switchboard
