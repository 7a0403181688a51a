import Switchboard.Proofs.Numerals

namespace Switchboard.Json
open Tree

-- how a character of a string comes back: itself, or the code unit that was written for it
def pieceOf (c : Char) : Piece :=
  if c.toNat < 0x20 ∧ c ∉ ['\x08', '\t', '\n', '\x0c', '\r'] then .unit c.toNat else .char c

def piecesOf (s : String) : List Piece := s.toList.map pieceOf

theorem codeUnit_hex {n : Nat} (small : n < 0x20) :
    codeUnit '0' '0' (Text.hexDigit (n / 16)) (Text.hexDigit (n % 16)) = some n := by
  revert n
  decide

theorem readPieces_short {e d : Char} (simple : simpleEscape e = some d) (more : List Char) :
    readPieces ('\\' :: e :: more) = (readPieces more).map fun r => (.char d :: r.1, r.2) := by
  rw [readPieces]
  · rw [simple]
    cases readPieces more <;> rfl
  · intro _ _ _ _ _ same
    subst same
    cases simple

theorem readPieces_escaped (c : Char) (more : List Char) :
    readPieces (escaped c ++ more) = (readPieces more).map fun r => (pieceOf c :: r.1, r.2) := by
  by_cases quote : c = '"'
  · subst quote
    exact readPieces_short (e := '"') rfl more
  by_cases slash : c = '\\'
  · subst slash
    exact readPieces_short (e := '\\') rfl more
  by_cases backspace : c = '\x08'
  · subst backspace
    exact readPieces_short (e := 'b') rfl more
  by_cases tab : c = '\t'
  · subst tab
    exact readPieces_short (e := 't') rfl more
  by_cases newline : c = '\n'
  · subst newline
    exact readPieces_short (e := 'n') rfl more
  by_cases feed : c = '\x0c'
  · subst feed
    exact readPieces_short (e := 'f') rfl more
  by_cases carriage : c = '\r'
  · subst carriage
    exact readPieces_short (e := 'r') rfl more
  unfold escaped
  rw [if_neg quote, if_neg slash, if_neg backspace, if_neg tab, if_neg newline, if_neg feed,
    if_neg carriage]
  by_cases control : c.toNat < 0x20
  · have unit : pieceOf c = .unit c.toNat := by
      simp [pieceOf, control, backspace, tab, newline, feed, carriage]
    rw [if_pos control, unit]
    simp only [List.cons_append, List.nil_append]
    rw [readPieces, codeUnit_hex control]
    cases readPieces more <;> rfl
  · have char : pieceOf c = .char c := by simp [pieceOf, control]
    rw [if_neg control, List.singleton_append, readPieces, char]
    · simp [slash, control]
    · exact fun same => quote same
    · rintro _ _ _ _ _ same _
      exact slash same
    · rintro _ _ same _
      exact slash same

theorem readPieces_written (cs : List Char) (rest : List Char) :
    readPieces (cs.flatMap escaped ++ '"' :: rest) = some (cs.map pieceOf, rest) := by
  induction cs with
  | nil => rfl
  | cons c cs ih =>
    rw [List.flatMap_cons, List.append_assoc, readPieces_escaped, ih]
    rfl

theorem plain_pieceOf (cs : List Char) : plain (cs.map pieceOf) = some cs := by
  induction cs with
  | nil => rfl
  | cons c cs ih =>
    rw [List.map_cons]
    by_cases control : c.toNat < 0x20 ∧ c ∉ ['\x08', '\t', '\n', '\x0c', '\r']
    · have high : ¬ (0xD800 ≤ c.toNat ∧ c.toNat ≤ 0xDBFF) := by omega
      have low : ¬ (0xDC00 ≤ c.toNat ∧ c.toNat ≤ 0xDFFF) := by omega
      rw [show pieceOf c = .unit c.toNat from if_pos control, plain.eq_def]
      simp only [if_neg high, if_neg low, ih, Option.map_some, Char.ofNat_toNat]
    · rw [show pieceOf c = .char c from if_neg control, plain, ih]
      rfl

theorem plainString_piecesOf (s : String) : plainString (piecesOf s) = some s := by
  simp [plainString, piecesOf, plain_pieceOf]

mutual

-- the shape in which a value is read back
def treeOf : Json → Tree
  | .null => .null
  | .bool b => .bool b
  | .number n => (numeralOf n).elim .null .number
  | .string s => .string (piecesOf s)
  | .array items => .array (treesOf items)
  | .object fields => .object (fieldTrees fields)

def treesOf : List Json → List Tree
  | [] => []
  | item :: items => treeOf item :: treesOf items

def fieldTrees : List (String × Json) → List (List Piece × Tree)
  | [] => []
  | (name, value) :: fields => (piecesOf name, treeOf value) :: fieldTrees fields

end

theorem writeNumber_longer (n : Number) (rest : List Char) :
    rest.length < (writeNumber n rest).length := by
  by_cases written : Number.Written n
  · obtain ⟨m, text, spelled, writes⟩ := writeNumber_spelled written
    obtain ⟨c, more, rfl, _⟩ := spelled.head
    rw [writes]
    unfold signed
    split <;> simp <;> omega
  · cases n with
    | int n => exact absurd trivial written
    | float x =>
      have infinite : Decimal.Binary.ofFloat? x = none := by simpa [Number.Written] using written
      simp [writeNumber, infinite]
      omega

theorem writeString_longer (s : String) (rest : List Char) :
    rest.length < (writeString s rest).length := by
  simp [writeString]
  omega

mutual

theorem write_longer : ∀ (v : Json) (rest : List Char), rest.length < (write v rest).length
  | .null, rest => by simp [write]; omega
  | .bool true, rest => by simp [write]; omega
  | .bool false, rest => by simp [write]; omega
  | .number n, rest => by rw [write]; exact writeNumber_longer n rest
  | .string s, rest => by rw [write]; exact writeString_longer s rest
  | .array items, rest => by
    have inner := writeItems_longer items (']' :: rest)
    simp only [write, List.length_cons] at inner ⊢
    omega
  | .object fields, rest => by
    have inner := writeFields_longer fields ('\x7d' :: rest)
    simp only [write, List.length_cons] at inner ⊢
    omega

theorem writeItems_longer : ∀ (items : List Json) (rest : List Char),
    rest.length ≤ (writeItems items rest).length
  | [], rest => by simp [writeItems]
  | item :: items, rest => by
    have first := write_longer item (writeMoreItems items rest)
    have more := writeMoreItems_longer items rest
    rw [writeItems]
    omega

theorem writeMoreItems_longer : ∀ (items : List Json) (rest : List Char),
    rest.length ≤ (writeMoreItems items rest).length
  | [], rest => by simp [writeMoreItems]
  | item :: items, rest => by
    have first := write_longer item (writeMoreItems items rest)
    have more := writeMoreItems_longer items rest
    rw [writeMoreItems, List.length_cons]
    omega

theorem writeFields_longer : ∀ (fields : List (String × Json)) (rest : List Char),
    rest.length ≤ (writeFields fields rest).length
  | [], rest => by simp [writeFields]
  | (name, value) :: fields, rest => by
    have key := writeString_longer name (':' :: write value (writeMoreFields fields rest))
    have first := write_longer value (writeMoreFields fields rest)
    have more := writeMoreFields_longer fields rest
    rw [List.length_cons] at key
    rw [writeFields]
    omega

theorem writeMoreFields_longer : ∀ (fields : List (String × Json)) (rest : List Char),
    rest.length ≤ (writeMoreFields fields rest).length
  | [], rest => by simp [writeMoreFields]
  | (name, value) :: fields, rest => by
    have key := writeString_longer name (':' :: write value (writeMoreFields fields rest))
    have first := write_longer value (writeMoreFields fields rest)
    have more := writeMoreFields_longer fields rest
    rw [List.length_cons] at key
    rw [writeMoreFields, List.length_cons]
    omega

end

theorem skipSpace_head {c : Char} (solid : isSpace c = false) (cs : List Char) :
    skipSpace (c :: cs) = c :: cs := by
  simp [skipSpace, solid]

theorem digit_solid {c : Char} (head : c = '-' ∨ c.isDigit = true) :
    isSpace c = false ∧ c ∉ ['n', 't', 'f', '"', '[', ']', '\x7b'] := by
  rcases head with rfl | digit
  · decide
  · refine ⟨?_, ?_⟩
    · simp only [isSpace, Bool.or_eq_false_iff, beq_eq_false_iff_ne]
      refine ⟨⟨⟨?_, ?_⟩, ?_⟩, ?_⟩ <;> (rintro rfl; cases digit)
    · simp only [List.mem_cons, List.not_mem_nil, or_false]
      rintro (rfl | rfl | rfl | rfl | rfl | rfl | rfl) <;> cases digit

theorem readValue_number {c : Char} (head : c = '-' ∨ c.isDigit = true) (fuel : Nat) (cs : List Char) :
    readValue (fuel + 1) (c :: cs) = (readNumeric (c :: cs)).map fun (n, rest) => (.number n, rest) := by
  obtain ⟨space, other⟩ := digit_solid head
  simp only [List.mem_cons, List.not_mem_nil, or_false, not_or] at other
  rw [readValue, skipSpace_head space]
  split <;> first
    | rfl
    | next same => cases same; simp at other

theorem writeNumber_unwritten {n : Number} (unwritten : ¬ Number.Written n) (rest : List Char) :
    writeNumber n rest = 'n' :: 'u' :: 'l' :: 'l' :: rest ∧ numeralOf n = none := by
  cases n with
  | int n => exact absurd trivial unwritten
  | float x =>
    have infinite : Decimal.Binary.ofFloat? x = none := by simpa [Number.Written] using unwritten
    have text (rest : List Char) : writeNumber (.float x) rest = 'n' :: 'u' :: 'l' :: 'l' :: rest := by
      simp [writeNumber, infinite]
    exact ⟨text rest, by rw [numeralOf, text]; rfl⟩

-- No value begins with a space or with the end of an array.
theorem write_head (v : Json) (rest : List Char) :
    ∃ c more, write v rest = c :: more ∧ isSpace c = false ∧ c ≠ ']' := by
  cases v with
  | null => exact ⟨'n', _, rfl, by decide, by decide⟩
  | bool b =>
    cases b with
    | true => exact ⟨'t', _, rfl, by decide, by decide⟩
    | false => exact ⟨'f', _, rfl, by decide, by decide⟩
  | number n =>
    rw [write]
    by_cases written : Number.Written n
    · obtain ⟨c, more, text, head⟩ := writeNumber_head written rest
      obtain ⟨space, other⟩ := digit_solid head
      simp only [List.mem_cons, List.not_mem_nil, or_false, not_or] at other
      exact ⟨c, more, text, space, other.2.2.2.2.2.1⟩
    · exact ⟨'n', _, (writeNumber_unwritten written rest).1, by decide, by decide⟩
  | string s => exact ⟨'"', _, rfl, by decide, by decide⟩
  | array items => exact ⟨'[', _, rfl, by decide, by decide⟩
  | object fields => exact ⟨'\x7b', _, rfl, by decide, by decide⟩

theorem readValue_string (fuel : Nat) (s : String) (rest : List Char) :
    readValue (fuel + 1) (writeString s rest) = some (.string (piecesOf s), rest) := by
  rw [writeString, readValue, skipSpace_head (by decide)]
  simp only [readPieces_written, Option.map_some]
  rfl

theorem readValue_writeNumber (n : Number) {rest : List Char} (stops : Stops rest) (fuel : Nat) :
    readValue (fuel + 1) (writeNumber n rest) = some ((numeralOf n).elim .null .number, rest) := by
  by_cases written : Number.Written n
  · obtain ⟨m, numeral, reads⟩ := readNumeric_write written
    obtain ⟨c, more, text, head⟩ := writeNumber_head written rest
    have read := reads rest stops
    rw [text] at read ⊢
    rw [readValue_number head, read, numeral]
    rfl
  · obtain ⟨text, numeral⟩ := writeNumber_unwritten written rest
    rw [text, numeral]
    rfl

-- what stands behind the items of an array, and behind the fields of an object
theorem stops_moreItems (items : List Json) (rest : List Char) :
    Stops (writeMoreItems items (']' :: rest)) := by
  intro c head
  cases items with
  | nil =>
    cases head
    exact .inr (.inl rfl)
  | cons item items =>
    cases head
    exact .inl rfl

theorem stops_moreFields (fields : List (String × Json)) (rest : List Char) :
    Stops (writeMoreFields fields ('\x7d' :: rest)) := by
  intro c head
  cases fields with
  | nil =>
    cases head
    exact .inr (.inr rfl)
  | cons field fields =>
    obtain ⟨name, value⟩ := field
    cases head
    exact .inl rfl

-- Two units of fuel for each character are enough: one for the value, one for its place in a row.
mutual

theorem readValue_write : ∀ (v : Json) (rest : List Char) (fuel : Nat), Stops rest →
    2 * (write v rest).length ≤ fuel → readValue fuel (write v rest) = some (treeOf v, rest)
  | v, rest, 0, _, enough => by
    have := write_longer v rest
    omega
  | .null, rest, fuel + 1, _, _ => rfl
  | .bool true, rest, fuel + 1, _, _ => rfl
  | .bool false, rest, fuel + 1, _, _ => rfl
  | .number n, rest, fuel + 1, stops, _ => by
    rw [write, treeOf]
    exact readValue_writeNumber n stops fuel
  | .string s, rest, fuel + 1, _, _ => by
    rw [write, treeOf]
    exact readValue_string fuel s rest
  | .array [], rest, fuel + 1, _, _ => rfl
  | .array (item :: items), rest, fuel + 1, _, enough => by
    obtain ⟨c, more, text, space, open_⟩ := write_head item (writeMoreItems items (']' :: rest))
    have inner := readItems_write (item :: items) rest fuel (by simp) (by
      simp only [write, List.length_cons] at enough
      omega)
    rw [write, readValue, skipSpace_head (by decide)]
    simp only
    rw [writeItems, text] at inner ⊢
    rw [skipSpace_head space, treeOf]
    -- no item begins with the bracket that would end the array
    split
    · next same => exact absurd (List.cons.inj same).1 open_
    · rw [inner]
      rfl
  | .object [], rest, fuel + 1, _, _ => rfl
  | .object ((name, value) :: fields), rest, fuel + 1, _, enough => by
    have inner := readFields_write ((name, value) :: fields) rest fuel (by simp) (by
      simp only [write, List.length_cons] at enough
      omega)
    rw [write, readValue, skipSpace_head (by decide)]
    simp only
    rw [writeFields, writeString] at inner ⊢
    rw [skipSpace_head (by decide), treeOf]
    split
    · next same => cases same
    · rw [inner]
      rfl

theorem readItems_write : ∀ (items : List Json) (rest : List Char) (fuel : Nat), items ≠ [] →
    2 * (writeItems items (']' :: rest)).length + 1 ≤ fuel →
    readItems fuel (writeItems items (']' :: rest)) = some (treesOf items, rest)
  | [], _, _, nonempty, _ => absurd rfl nonempty
  | item :: items, rest, 0, _, enough => by omega
  | item :: items, rest, fuel + 1, _, enough => by
    have stops := stops_moreItems items rest
    rw [writeItems] at enough ⊢
    have first := readValue_write item (writeMoreItems items (']' :: rest)) fuel stops (by omega)
    rw [readItems, first]
    cases items with
    | nil => rfl
    | cons next items =>
      have longer := write_longer item (writeMoreItems (next :: items) (']' :: rest))
      have others := readItems_write (next :: items) rest fuel (by simp) (by
        simp only [writeMoreItems, writeItems, List.length_cons] at enough longer ⊢
        omega)
      rw [writeItems] at others
      simp only [writeMoreItems, Option.bind_eq_bind, Option.bind_some, skipSpace_head (c := ',') rfl]
      rw [others]
      rfl

theorem readFields_write : ∀ (fields : List (String × Json)) (rest : List Char) (fuel : Nat), fields ≠ [] →
    2 * (writeFields fields ('\x7d' :: rest)).length + 1 ≤ fuel →
    readFields fuel (writeFields fields ('\x7d' :: rest)) = some (fieldTrees fields, rest)
  | [], _, _, nonempty, _ => absurd rfl nonempty
  | (name, value) :: fields, rest, 0, _, enough => by omega
  | (name, value) :: fields, rest, fuel + 1, _, enough => by
    have stops := stops_moreFields fields rest
    have key := writeString_longer name (':' :: write value (writeMoreFields fields ('\x7d' :: rest)))
    rw [writeFields] at enough ⊢
    rw [List.length_cons] at key
    have first := readValue_write value (writeMoreFields fields ('\x7d' :: rest)) fuel stops (by omega)
    rw [writeString, readFields, skipSpace_head (by decide)]
    simp only [readPieces_written, Option.bind_eq_bind, Option.bind_some, skipSpace_head (c := ':') rfl]
    rw [first]
    cases fields with
    | nil => rfl
    | cons next fields =>
      obtain ⟨name', value'⟩ := next
      have longer := write_longer value (writeMoreFields ((name', value') :: fields) ('\x7d' :: rest))
      have others := readFields_write ((name', value') :: fields) rest fuel (by simp) (by
        simp only [writeMoreFields, writeFields, List.length_cons] at enough longer key ⊢
        omega)
      rw [writeFields] at others
      simp only [writeMoreFields, Option.bind_some, skipSpace_head (c := ',') rfl]
      rw [others]
      rfl

end

theorem read_chars (v : Json) : Tree.read (chars v) = some (treeOf v) := by
  unfold Tree.read chars
  rw [readValue_write v [] _ (fun c same => by cases same) (by omega)]
  rfl

theorem read_render (v : Json) : Json.read v.render = Tree.value maxOpen (treeOf v) := by
  unfold Json.read readChars render
  rw [String.toList_ofList, read_chars]
  rfl

end Switchboard.Json
