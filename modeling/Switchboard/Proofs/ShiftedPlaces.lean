import Switchboard.Proofs.ErrorPlaces
import Switchboard.Proofs.StoredArtifacts
import Switchboard.Proofs.StrippedTexts

namespace Switchboard.Source

-- The characters of a text, each with whether it is part of a block comment.
abbrev Marked := List (Char × Bool)

def marked : List Char → Marked
  | [] => []
  | '/' :: '*' :: rest =>
    match _found : afterClosing rest with
    | some after => ('/' :: '*' :: rest.take (rest.length - after.length)).map (·, true) ++ marked after
    | none => ('/' :: '*' :: rest).map (·, false)
  | c :: rest => (c, false) :: marked rest
termination_by s => s.length
decreasing_by
  · have := afterClosing_shorter _found
    simp only [List.length_cons]
    omega
  · simp

def kept (m : Marked) : List Char := (m.filter fun p => !p.2).map Prod.fst
def removed (m : Marked) : List Char := (m.filter fun p => p.2).map Prod.fst

theorem kept_append (front back : Marked) : kept (front ++ back) = kept front ++ kept back := by
  simp [kept]

theorem kept_plain (s : List Char) : kept (s.map (·, false)) = s := by
  induction s with
  | nil => rfl
  | cons c s ih => exact congrArg (c :: ·) ih

theorem kept_comment (s : List Char) : kept (s.map (·, true)) = [] := by
  induction s with
  | nil => rfl
  | cons c s ih => exact ih

theorem kept_reverse (m : Marked) : kept m.reverse = (kept m).reverse := by
  rw [kept, kept, List.filter_reverse, List.map_reverse]

theorem removed_reverse (m : Marked) : removed m.reverse = (removed m).reverse := by
  rw [removed, removed, List.filter_reverse, List.map_reverse]

theorem marked_text (s : List Char) : (marked s).map Prod.fst = s := by
  fun_induction marked s with
  | case1 => rfl
  | case2 rest after closes ih =>
    obtain ⟨comment, whole⟩ := afterClosing_suffix closes
    rw [List.map_append, ih, List.map_map, ← whole]
    simp [Function.comp_def]
  | case3 rest => simp [Function.comp_def]
  | case4 c rest _ ih => rw [List.map_cons, ih]

theorem marked_kept (s : List Char) : kept (marked s) = stripComments s := by
  fun_induction marked s with
  | case1 => exact strip_nil.symm
  | case2 rest after closes ih =>
    rw [kept_append, ih, strip_comment closes, kept_comment, List.nil_append]
  | case3 rest unclosed =>
    rw [strip_open (afterClosing_none.mp unclosed), kept_plain]
  | case4 c rest other ih =>
    rw [strip_cons, ← ih]
    · rfl
    · intro slash star
      obtain ⟨more, same⟩ := List.head?_eq_some_iff.mp star
      exact other more slash same

theorem kept_split {m : Marked} {front : List Char} {c : Char} {back : List Char}
    (whole : kept m = front ++ c :: back) :
    ∃ before after, m = before ++ (c, false) :: after ∧ kept before = front ∧ kept after = back := by
  induction m generalizing front with
  | nil => cases front <;> cases whole
  | cons p m ih =>
    obtain ⟨d, gone⟩ := p
    cases gone with
    | true =>
      obtain ⟨before, after, rfl, first, second⟩ := ih whole
      exact ⟨(d, true) :: before, after, rfl, first, second⟩
    | false =>
      have step : d :: kept m = front ++ c :: back := whole
      obtain ⟨rfl, same⟩ | ⟨front, rfl, later⟩ := List.cons_eq_append_iff.mp step
      · cases same
        exact ⟨[], m, rfl, rfl, rfl⟩
      · obtain ⟨before, after, rfl, first, second⟩ := ih later
        exact ⟨(d, false) :: before, after, rfl, by rw [← first]; rfl, second⟩

theorem count_parts (m : Marked) (c : Char) :
    (m.map Prod.fst).count c = (kept m).count c + (removed m).count c := by
  induction m with
  | nil => rfl
  | cons p m ih =>
    obtain ⟨d, gone⟩ := p
    cases gone with
    | true =>
      show (d :: m.map Prod.fst).count c = (kept m).count c + (d :: removed m).count c
      rw [List.count_cons, List.count_cons, ih, Nat.add_assoc]
    | false =>
      show (d :: m.map Prod.fst).count c = (d :: kept m).count c + (removed m).count c
      rw [List.count_cons, List.count_cons, ih, Nat.add_right_comm]

-- the last line, from its end on
def lastLine (m : Marked) : Marked := m.reverse.takeWhile fun p => p.1 ≠ '\n'

-- What is removed holds no line break, and nothing of it stands on the last line.
structure Undisturbed (m : Marked) : Prop where
  lines : '\n' ∉ removed m
  last : ∀ p ∈ lastLine m, p.2 = false

theorem kept_line {m : Marked} (lines : '\n' ∉ removed m) :
    (kept m).takeWhile (· ≠ '\n') = kept (m.takeWhile fun p => p.1 ≠ '\n') := by
  induction m with
  | nil => rfl
  | cons p m ih =>
    obtain ⟨d, gone⟩ := p
    cases gone with
    | true =>
      have others : '\n' ∉ d :: removed m := lines
      rw [List.mem_cons, not_or] at others
      rw [List.takeWhile_cons_of_pos (by simpa using Ne.symm others.1)]
      exact ih others.2
    | false =>
      have further := ih lines
      by_cases newline : d = '\n'
      · subst newline
        rfl
      · rw [List.takeWhile_cons_of_pos (by simpa using newline)]
        show (d :: kept m).takeWhile _ = d :: kept _
        rw [List.takeWhile_cons_of_pos (by simpa using newline), further]

theorem last_line_length (m : Marked) :
    ((m.map Prod.fst).reverse.takeWhile (· ≠ '\n')).length = (lastLine m).length := by
  rw [← List.map_reverse, List.takeWhile_map, List.length_map]
  rfl

theorem kept_last_line {m : Marked} (lines : '\n' ∉ removed m) :
    (kept m).reverse.takeWhile (· ≠ '\n') = kept (lastLine m) := by
  have mixed : '\n' ∉ removed m.reverse := by rwa [removed_reverse, List.mem_reverse]
  rw [← kept_reverse, kept_line mixed]
  rfl

theorem advance_kept_iff (m : Marked) :
    ({} : Place).advanceAll (kept m) = ({} : Place).advanceAll (m.map Prod.fst) ↔ Undisturbed m := by
  rw [Place.advanceAll_counts, Place.advanceAll_counts, Place.mk.injEq, count_parts, last_line_length]
  constructor
  · rintro ⟨line, column⟩
    have lines : '\n' ∉ removed m := List.count_eq_zero.mp (by omega)
    rw [kept_last_line lines] at column
    refine ⟨lines, ?_⟩
    have full : ((lastLine m).filter fun p => !p.2).length = (lastLine m).length := by
      have short : (kept (lastLine m)).length = (lastLine m).length := by omega
      rwa [kept, List.length_map] at short
    intro p present
    simpa using List.length_filter_eq_length_iff.mp full p present
  · rintro ⟨lines, last⟩
    have all : (lastLine m).filter (fun p => !p.2) = lastLine m := by
      rw [List.filter_eq_self]
      intro p present
      simp [last p present]
    rw [kept_last_line lines, List.count_eq_zero.mpr lines]
    refine ⟨by omega, ?_⟩
    rw [kept, all, List.length_map]

-- On the same line the characters that are kept lead no further than all of them.
theorem advance_kept_column {m : Marked} (lines : '\n' ∉ removed m) :
    (({} : Place).advanceAll (kept m)).column ≤ (({} : Place).advanceAll (m.map Prod.fst)).column := by
  have fewer : (kept (lastLine m)).length ≤ (lastLine m).length := by
    rw [kept, List.length_map]
    exact List.length_filter_le _ _
  rw [Place.advanceAll_counts, Place.advanceAll_counts, last_line_length, kept_last_line lines]
  exact Nat.add_le_add_left fewer 1

-- What is told of a place is exact for one behind it only if the two are one, and can be told.
theorem Place.told_iff {p q : Place} (lines : p.line ≤ q.line)
    (columns : p.line = q.line → p.column ≤ q.column) : p.position.place = q ↔ p = q ∧ q.Fits := by
  obtain ⟨pl, pc⟩ := p
  obtain ⟨ql, qc⟩ := q
  simp only [Place.position, Position.place, Place.Fits, Place.mk.injEq, UInt32.toNat_ofNat'] at *
  omega

-- what an error about the stripped text tells: the place there at which what is wrong begins, which in the text
-- itself is as many lines further on as the comments before it have line breaks
structure Shifted (s : List Char) (e : SourceError) (before : Marked) (start : Char) (after : Marked) : Prop where
  text : marked s = before ++ (start, false) :: after
  offends : Offends e (start :: kept after)
  told : e.position = (placeAt (stripComments s) (kept before).length).position
  line : (placeAt s before.length).line =
    (placeAt (stripComments s) (kept before).length).line + (removed before).count '\n'
  exact_iff : e.position.place = placeAt s before.length ↔ Undisturbed before ∧ (placeAt s before.length).Fits

theorem parse_error_shifted {s : List Char} {e : SourceError}
    (refused : parse (String.ofList (stripComments s)) = .error e) :
    ∃ before start after, Shifted s e before start after := by
  obtain ⟨front, start, rest, whole, told, offends⟩ := parse_error_place refused
  rw [String.toList_ofList] at whole told
  obtain ⟨before, after, text, rfl, rfl⟩ := kept_split ((marked_kept s).trans whole)
  -- both places are those that the characters before lead to
  have here : placeAt (stripComments s) (kept before).length = ({} : Place).advanceAll (kept before) := by
    rw [whole, placeAt_length]
  have there : placeAt s before.length = ({} : Place).advanceAll (before.map Prod.fst) := by
    have source : s = before.map Prod.fst ++ start :: after.map Prod.fst := by
      rw [← marked_text s, text, List.map_append, List.map_cons]
    have place := placeAt_length (before.map Prod.fst) (start :: after.map Prod.fst)
    rwa [← source, List.length_map] at place
  have line : (({} : Place).advanceAll (before.map Prod.fst)).line =
      (({} : Place).advanceAll (kept before)).line + (removed before).count '\n' := by
    rw [Place.advanceAll_counts, Place.advanceAll_counts, count_parts, Nat.add_assoc]
  refine ⟨before, start, after, text, offends, told, by rw [here, there, line], ?_⟩
  rw [told, here, there, ← advance_kept_iff]
  refine Place.told_iff (by omega) fun same => advance_kept_column ?_
  exact List.count_eq_zero.mp (by omega)

end Switchboard.Source

namespace Switchboard.ProgramCache
open Source

theorem text_of_bytes {content : ByteArray} {code : String} (text : String.fromUTF8? content = some code) :
    content = code.toUTF8 := by
  unfold String.fromUTF8? at text
  split at text <;> cases text
  rfl

variable {c : ProgramCache} {path p : FunctionPath} {e : SourceError}

theorem compiledFrom_unparsed {place : String} {content : ByteArray}
    (refused : compiledFrom place path content = .error (.parse p e)) :
    p = path ∧ ∃ code : String, content = code.toUTF8 ∧
      parse (String.ofList (stripComments code.toList)) = .error e := by
  unfold compiledFrom at refused
  split at refused
  · cases refused
  · next code text =>
    split at refused <;> cases refused
    next failed => exact ⟨rfl, code, text_of_bytes text, failed⟩

-- Only the text of the source can make a lookup fail with an error of the reader.
theorem resolve_unparsed (fails : (c.resolve path).1 = .error (.parse p e)) :
    p = path ∧ ∃ (code : String) (changed : Time), c.Sourced path code.toUTF8 changed ∧
      parse (String.ofList (stripComments code.toList)) = .error e := by
  unfold resolve at fails
  have fetches := fetch_fetching { c with asked := path :: c.asked } path
  generalize fetch { c with asked := path :: c.asked } path = fetched at fetches fails
  cases fetches with
  | lost failed =>
    unfold fingerprint at failed
    dsimp only at failed
    split at failed <;> cases failed <;> cases fails
  | loaded => cases fails
  | refused sourced _ refused =>
    cases fails
    obtain ⟨same, code, rfl, failed⟩ := compiledFrom_unparsed refused
    exact ⟨same, code, _, sourced, failed⟩
  | compiled => cases fails

-- The error of a lookup tells, in its message too, the line and column in the stripped source at which what is
-- wrong begins, modulo 2 ^ 32. They are those in the source itself exactly where they have 32 bits, the comments
-- before hold no line break and none of them stands on the same line.
theorem positions_shifted (fails : (c.resolve path).1 = .error (.parse p e)) :
    p = path ∧ ∃ (code : String) (changed : Time), c.Sourced path code.toUTF8 changed ∧
      (∃ front back, e.message = front ++ e.position.render ++ back) ∧
      ∃ before start after, Shifted code.toList e before start after := by
  obtain ⟨same, code, changed, sourced, refused⟩ := resolve_unparsed fails
  exact ⟨same, code, changed, sourced, message_position e, parse_error_shifted refused⟩

-- A parenthesis on the third line, behind a comment that goes over two lines: the second line is told.
theorem positions_shifted_line :
    let code := "/* note\n */\n(set x"
    let c := sourceOnly code ⟨5, 0⟩
    let e : SourceError := .scan ⟨.openExpression, ⟨2, 1⟩⟩
    (c.resolve ⟨"a"⟩).1 = .error (.parse ⟨"a"⟩ e) ∧ code.toList.drop 12 = "(set x".toList ∧
      placeAt code.toList 12 = ⟨3, 1⟩ ∧
      ∃ (source : String) (changed : Time), c.Sourced ⟨"a"⟩ source.toUTF8 changed ∧
        (∃ front back, e.message = front ++ e.position.render ++ back) ∧
        ∃ before start after, Shifted source.toList e before start after := by
  intro code c e
  have compiles : compileText ⟨"a"⟩ code = .error (.parse ⟨"a"⟩ e) := by cbv
  have fails : (c.resolve ⟨"a"⟩).1 = .error (.parse ⟨"a"⟩ e) := by
    have sourced := sourceOnly_sourced code ⟨5, 0⟩
    unfold resolve fetch
    rw [asked_fingerprint, sourced.fingerprint]
    dsimp only
    rw [asked_load, sourceOnly_missing code ⟨5, 0⟩]
    dsimp only
    rw [asked_compile, sourced.compile, compiles]
  exact ⟨fails, by decide, by decide, (positions_shifted fails).2⟩

end Switchboard.ProgramCache
