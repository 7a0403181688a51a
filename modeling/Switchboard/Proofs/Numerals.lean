import Switchboard.Json.Printer
import Switchboard.Json.Reader

namespace Switchboard

namespace Decimal

structure Row (ds : List Char) : Prop where
  nonempty : ds ≠ []
  digits : ∀ c ∈ ds, c.isDigit = true

-- a row of digits with no zero in front of others
structure Whole (ds : List Char) : Prop extends Row ds where
  proper : ∀ more, ds = '0' :: more → more = []

theorem digits_small {n : Nat} (small : n < 10) : digits n = [Char.ofNat (48 + n)] := by
  rw [digits, if_pos small, Nat.mod_eq_of_lt small]
  rfl

theorem digits_large {n : Nat} (large : ¬ n < 10) :
    digits n = digits (n / 10) ++ [Char.ofNat (48 + n % 10)] := by
  rw [digits, if_neg large]

theorem digit_char {d : Nat} (small : d < 10) :
    (Char.ofNat (48 + d)).isDigit = true ∧ digitValue (Char.ofNat (48 + d)) = d ∧
      (Char.ofNat (48 + d) = '0' → d = 0) := by
  revert d
  decide

theorem digits_whole (n : Nat) : Whole (digits n) := by
  induction n using Nat.strongRecOn with
  | ind n ih =>
    by_cases small : n < 10
    · rw [digits_small small]
      refine ⟨⟨by simp, ?_⟩, ?_⟩
      · intro c present
        rw [List.mem_singleton] at present
        exact present ▸ (digit_char small).1
      · intro more same
        exact (List.cons.inj same).2.symm
    · rw [digits_large small]
      have front := ih (n / 10) (Nat.div_lt_self (by omega) (by decide))
      refine ⟨⟨by simp, ?_⟩, ?_⟩
      · intro c present
        rcases List.mem_append.mp present with inside | last
        · exact front.digits c inside
        · rw [List.mem_singleton] at last
          exact last ▸ (digit_char (Nat.mod_lt n (by decide))).1
      · intro more same
        -- a leading zero would leave nothing for the digits in front of the last
        cases lead : digits (n / 10) with
        | nil => exact absurd lead front.nonempty
        | cons c rest =>
          rw [lead] at same front
          obtain ⟨rfl, _⟩ := List.cons.inj same
          have alone := front.proper rest rfl
          subst alone
          by_cases tens : n / 10 < 10
          · rw [digits_small tens] at lead
            have zero := (digit_char tens).2.2 (List.cons.inj lead).1
            omega
          · rw [digits_large tens] at lead
            have length := congrArg List.length lead
            have := List.length_pos_iff.mpr (ih (n / 10 / 10) (by omega)).nonempty
            simp only [List.length_append, List.length_cons, List.length_nil] at length
            omega

theorem appendDigits_append (n : Nat) (front back : List Char) :
    appendDigits n (front ++ back) = appendDigits (appendDigits n front) back := by
  simp [appendDigits]

theorem appendDigits_digits (n : Nat) : appendDigits 0 (digits n) = n := by
  induction n using Nat.strongRecOn with
  | ind n ih =>
    by_cases small : n < 10
    · rw [digits_small small]
      simp [appendDigits, (digit_char small).2.1]
    · rw [digits_large small, appendDigits_append, ih (n / 10) (by omega)]
      have last := (digit_char (Nat.mod_lt n (by decide))).2.1
      simp only [appendDigits, List.foldl_cons, List.foldl_nil, last]
      omega

theorem zero_whole : Whole ['0'] :=
  ⟨⟨by simp, by simp⟩, by rintro more ⟨⟩; rfl⟩

theorem digits_lead {n : Nat} (nonzero : n ≠ 0) (more : List Char) : digits n ≠ '0' :: more := by
  intro lead
  have alone := (digits_whole n).proper more lead
  have number := appendDigits_digits n
  rw [lead, alone] at number
  exact nonzero number.symm

theorem Row.whole {ds : List Char} (row : Row ds) (lead : ∀ more, ds ≠ '0' :: more) : Whole ds :=
  ⟨row, fun more same => absurd same (lead more)⟩

theorem Row.append {front back : List Char} (row : Row front) (digits : ∀ c ∈ back, c.isDigit = true) :
    Row (front ++ back) := by
  refine ⟨by simp [row.nonempty], ?_⟩
  intro c present
  rcases List.mem_append.mp present with first | second
  · exact row.digits c first
  · exact digits c second

theorem zeros_digits (n : Nat) : ∀ c ∈ zeros n, c.isDigit = true := by
  intro c present
  rw [zeros, List.mem_replicate] at present
  exact present.2 ▸ by decide

section
variable {ds : List Char}

theorem Row.drop (row : Row ds) {point : Nat} (inside : point < ds.length) : Row (ds.drop point) :=
  ⟨by simp [inside], fun c present => row.digits c (List.mem_of_mem_drop present)⟩

theorem Row.behind (row : Row ds) (n : Nat) : Row (zeros n ++ ds) := by
  refine ⟨by simp [row.nonempty], ?_⟩
  intro c present
  rcases List.mem_append.mp present with zero | digit
  · exact zeros_digits n c zero
  · exact row.digits c digit

theorem Row.grown (row : Row ds) (lead : ∀ more, ds ≠ '0' :: more) (n : Nat) : Whole (ds ++ zeros n) := by
  apply (row.append (zeros_digits n)).whole
  intro more same
  cases ds with
  | nil => exact absurd rfl row.nonempty
  | cons c rest => exact lead rest (by rw [(List.cons.inj same).1])

theorem Row.take (row : Row ds) (lead : ∀ more, ds ≠ '0' :: more) {point : Nat} (positive : 0 < point) :
    Whole (ds.take point) := by
  refine Row.whole ⟨?_, fun c present => row.digits c (List.mem_of_mem_take present)⟩ ?_
  · simp [row.nonempty, Nat.ne_of_gt positive]
  · intro more same
    rw [← List.take_append_drop point ds, same] at lead
    exact lead _ rfl

end

end Decimal

namespace Json
open Decimal

-- what may stand behind a value: the end, or what goes on around it
def Stops (rest : List Char) : Prop :=
  ∀ c ∈ rest.head?, c = ',' ∨ c = ']' ∨ c = '\x7d'

namespace Tree

def Digitless (rest : List Char) : Prop :=
  ∀ c ∈ rest.head?, c.isDigit = false

theorem Stops.digitless {rest : List Char} (stops : Stops rest) : Digitless rest := by
  intro c head
  rcases stops c head with rfl | rfl | rfl <;> decide

theorem takeRow {ds rest : List Char} (row : Row ds) (ends : Digitless rest) :
    (ds ++ rest).takeWhile Char.isDigit = ds ∧ (ds ++ rest).dropWhile Char.isDigit = rest := by
  rw [List.takeWhile_append_of_pos row.digits, List.dropWhile_append_of_pos row.digits]
  cases rest with
  | nil => simp
  | cons c rest => simp [ends c rfl]

theorem readWhole_row {ds rest : List Char} (whole : Whole ds) (ends : Digitless rest) :
    readWhole (ds ++ rest) = some (ds, rest) := by
  obtain ⟨taken, left⟩ := takeRow whole.toRow ends
  unfold readWhole
  rw [taken, left]
  split
  · next none => exact absurd rfl whole.nonempty
  · next d more => cases whole.proper _ rfl
  · rfl

-- the texts of a fraction and of a power of ten, which may both be missing
inductive Fractional : List Char → List Char → Prop where
  | none : Fractional [] []
  | some : Row ds → Fractional ds ('.' :: ds)

inductive Powered : Option Int → List Char → Prop where
  | none : Powered none []
  | plus : Row ds → Powered (some (digitsValue ds)) ('e' :: '+' :: ds)
  | minus : Row ds → Powered (some (-(digitsValue ds : Int))) ('e' :: '-' :: ds)

theorem readFraction_text {ds text rest : List Char} (fraction : Fractional ds text)
    (ends : Digitless rest) (point : rest.head? ≠ some '.') :
    readFraction (text ++ rest) = some (ds, rest) := by
  cases fraction with
  | none =>
    cases rest with
    | nil => rfl
    | cons c rest =>
      rw [List.nil_append, readFraction]
      intro _ same
      cases same
      exact point rfl
  | some row =>
    obtain ⟨taken, left⟩ := takeRow row ends
    rw [List.cons_append, readFraction, taken, left]
    split
    · exact absurd rfl row.nonempty
    · rfl

theorem readPower_text {e : Option Int} {text rest : List Char} (power : Powered e text)
    (stops : Stops rest) : readPower (text ++ rest) = some (e, rest) := by
  have signed {ds : List Char} (row : Row ds) := takeRow row (Stops.digitless stops)
  cases power with
  | none =>
    cases rest with
    | nil => rfl
    | cons c rest =>
      have other : ¬ (c = 'e' ∨ c = 'E') := by
        rcases stops c rfl with rfl | rfl | rfl <;> decide
      simp only [List.nil_append, readPower, if_neg other]
  | plus row =>
    obtain ⟨taken, left⟩ := signed row
    simp only [List.cons_append, readPower, takeSign, taken, left, true_or, if_true]
    split
    · exact absurd rfl row.nonempty
    · rfl
  | minus row =>
    obtain ⟨taken, left⟩ := signed row
    simp only [List.cons_append, readPower, takeSign, taken, left, true_or, if_true]
    split
    · exact absurd rfl row.nonempty
    · rfl

inductive Spelled : Numeric → List Char → Prop where
  | parts : Whole ds → Fractional fs fraction → Powered e power →
    Spelled ⟨negative, ds, fs, e⟩ (ds ++ fraction ++ power)

def readUnsigned (negative : Bool) (cs : List Char) : Option (Numeric × List Char) := do
  let (whole, rest) ← readWhole cs
  let (fraction, rest) ← readFraction rest
  let (exponent, rest) ← readPower rest
  some (⟨negative, whole, fraction, exponent⟩, rest)

theorem readNumeric_digit {c : Char} (digit : c.isDigit = true) (cs : List Char) :
    readNumeric (c :: cs) = readUnsigned false (c :: cs) := by
  have plain : c ≠ '-' := by
    intro same
    subst same
    cases digit
  unfold readNumeric
  split
  next negative rest lead =>
    split at lead
    · next same =>
      cases same
      exact absurd rfl plain
    · cases lead
      rfl

theorem readUnsigned_spelled {n : Numeric} {text rest : List Char} (spelled : Spelled n text)
    (stops : Stops rest) : readUnsigned n.negative (text ++ rest) = some (n, rest) := by
  have free := Stops.digitless stops
  cases spelled with
  | @parts ds fs fraction e power negative whole isFraction isPower =>
    have afterPower : Digitless (power ++ rest) ∧ (power ++ rest).head? ≠ some '.' := by
      cases isPower with
      | none =>
        refine ⟨free, ?_⟩
        intro point
        rcases stops '.' point with same | same | same <;> cases same
      | plus => exact ⟨by rintro _ ⟨⟩; decide, by simp⟩
      | minus => exact ⟨by rintro _ ⟨⟩; decide, by simp⟩
    have afterWhole : Digitless (fraction ++ (power ++ rest)) := by
      cases isFraction with
      | none => exact afterPower.1
      | some => rintro _ ⟨⟩; decide
    unfold readUnsigned
    rw [List.append_assoc, List.append_assoc, readWhole_row whole afterWhole]
    simp only [Option.bind_eq_bind, Option.bind_some,
      readFraction_text isFraction afterPower.1 afterPower.2, readPower_text isPower stops]

theorem Spelled.head {n : Numeric} {text : List Char} (spelled : Spelled n text) :
    ∃ c more, text = c :: more ∧ c.isDigit = true := by
  cases spelled with
  | @parts ds fs fraction e power negative whole =>
    cases digits : ds with
    | nil => exact absurd digits whole.nonempty
    | cons c more => exact ⟨c, more ++ fraction ++ power, by simp, whole.digits c (by simp [digits])⟩

def signed (negative : Bool) (text : List Char) : List Char :=
  if negative then '-' :: text else text

theorem readNumeric_spelled {n : Numeric} {text rest : List Char} (spelled : Spelled n text)
    (stops : Stops rest) : readNumeric (signed n.negative text ++ rest) = some (n, rest) := by
  have unsigned := readUnsigned_spelled spelled stops
  obtain ⟨c, more, rfl, digit⟩ := spelled.head
  cases sign : n.negative with
  | true =>
    rw [sign] at unsigned
    exact unsigned
  | false =>
    rw [sign] at unsigned
    exact (readNumeric_digit digit _).trans unsigned

end Tree

-- However its digits are laid out, a number has the form of a numeral.
open Tree in
theorem place_spelled (negative : Bool) (d : Scaled) :
    ∃ n, n.negative = negative ∧ Spelled n (layout.place d) := by
  have row := (digits_whole d.coefficient).toRow
  have tail : Fractional ['0'] layout.whole := .some ⟨by simp, by simp⟩
  unfold Layout.place
  dsimp only
  split
  · exact ⟨⟨negative, ['0'], ['0'], none⟩, rfl, by simpa using Spelled.parts zero_whole tail .none⟩
  · next nonzero =>
    have lead := digits_lead nonzero
    generalize digits d.coefficient = ds at row lead
    -- written out as a whole number, with the point between the digits or with zeros in front; or with a power of ten
    split
    · split
      · have whole := row.grown lead d.exponent.toNat
        exact ⟨⟨negative, _, _, none⟩, rfl, by simpa using Spelled.parts whole tail .none⟩
      · split
        · generalize cut : ((ds.length : Int) - 1 + d.exponent + 1).toNat = point
          have bounds : 0 < point ∧ point < ds.length := by omega
          have whole := row.take lead bounds.1
          have fraction := row.drop bounds.2
          exact ⟨⟨negative, _, _, none⟩, rfl, by simpa using Spelled.parts whole (.some fraction) .none⟩
        · have fraction := row.behind (-((ds.length : Int) - 1 + d.exponent) - 1).toNat
          exact ⟨⟨negative, ['0'], _, none⟩, rfl, by
            simpa using Spelled.parts zero_whole (.some fraction) .none⟩
    · have power : ∃ e, Powered e ('e' :: (if (ds.length : Int) - 1 + d.exponent < 0 then '-' else '+') ::
          digits ((ds.length : Int) - 1 + d.exponent).natAbs) := by
        split
        · exact ⟨_, .minus (digits_whole _).toRow⟩
        · exact ⟨_, .plus (digits_whole _).toRow⟩
      obtain ⟨e, power⟩ := power
      cases ds with
      | nil => exact absurd rfl row.nonempty
      | cons c rest =>
        have single : Whole [c] := row.take lead Nat.one_pos
        cases rest with
        | nil => exact ⟨⟨negative, [c], [], e⟩, rfl, by simpa using Spelled.parts single .none power⟩
        | cons second others =>
          have inside : 1 < (c :: second :: others).length := by simp
          have fraction : Row (second :: others) := row.drop inside
          exact ⟨⟨negative, [c], _, e⟩, rfl, by simpa using Spelled.parts single (.some fraction) power⟩

def Number.Written : Number → Prop
  | .int _ => True
  | .float x => (Decimal.Binary.ofFloat? x).isSome = true

def numeralOf (n : Number) : Option Numeric :=
  (Tree.readNumeric (writeNumber n [])).map Prod.fst

theorem writeNumber_spelled {n : Number} (written : Number.Written n) :
    ∃ m text, Tree.Spelled m text ∧ ∀ rest, writeNumber n rest = Tree.signed m.negative text ++ rest := by
  cases n with
  | int n =>
    refine ⟨⟨decide (n < 0), digits n.natAbs, [], none⟩, digits n.natAbs ++ [] ++ [],
      .parts (digits_whole _) .none .none, ?_⟩
    intro rest
    unfold writeNumber writeInt Tree.signed
    by_cases negative : n < 0 <;> simp [negative]
  | float x =>
    obtain ⟨b, finite⟩ := Option.isSome_iff_exists.mp written
    obtain ⟨m, sign, spelled⟩ := place_spelled b.negative (shortest layout.tie b.mantissa b.exponent)
    refine ⟨m, _, spelled, ?_⟩
    intro rest
    simp only [writeNumber, finite, Layout.render, sign, Tree.signed]

theorem readNumeric_write {n : Number} (written : Number.Written n) :
    ∃ m, numeralOf n = some m ∧
      ∀ rest, Stops rest → Tree.readNumeric (writeNumber n rest) = some (m, rest) := by
  obtain ⟨m, text, spelled, writes⟩ := writeNumber_spelled written
  have reads (rest : List Char) (stops : Stops rest) :
      Tree.readNumeric (writeNumber n rest) = some (m, rest) := by
    rw [writes]
    exact Tree.readNumeric_spelled spelled stops
  exact ⟨m, by rw [numeralOf, reads [] (fun c same => by cases same)]; rfl, reads⟩

theorem writeNumber_head {n : Number} (written : Number.Written n) (rest : List Char) :
    ∃ c more, writeNumber n rest = c :: more ∧ (c = '-' ∨ c.isDigit = true) := by
  obtain ⟨m, text, spelled, writes⟩ := writeNumber_spelled written
  obtain ⟨c, more, rfl, digit⟩ := spelled.head
  rw [writes]
  unfold Tree.signed
  split
  · exact ⟨'-', _, rfl, .inl rfl⟩
  · exact ⟨c, _, rfl, .inr digit⟩

theorem numeralOf_int (n : Int) : numeralOf (.int n) = some ⟨decide (n < 0), digits n.natAbs, [], none⟩ := by
  have spelled : Tree.Spelled ⟨decide (n < 0), digits n.natAbs, [], none⟩ (digits n.natAbs ++ [] ++ []) :=
    .parts (digits_whole _) .none .none
  have stops : Stops [] := fun c same => by cases same
  have reads := Tree.readNumeric_spelled spelled stops
  have writes : writeNumber (.int n) [] = Tree.signed (decide (n < 0)) (digits n.natAbs ++ [] ++ []) ++ [] := by
    unfold writeNumber writeInt Tree.signed
    by_cases negative : n < 0 <;> simp [negative]
  rw [numeralOf, writes, reads]
  rfl

namespace Tree

theorem takeDigits_append (n : Nat) (front back : List Char) :
    takeDigits n (front ++ back) =
      if (takeDigits n front).2 = [] then takeDigits (takeDigits n front).1 back
      else ((takeDigits n front).1, (takeDigits n front).2 ++ back) := by
  induction front generalizing n with
  | nil => rfl
  | cons d front ih =>
    rw [List.cons_append, takeDigits, takeDigits]
    split
    · exact ih _
    · simp

theorem takeDigits_digits (n : Nat) :
    (n < twoTo 64 → takeDigits 0 (digits n) = (n, [])) ∧
      (twoTo 64 ≤ n → (takeDigits 0 (digits n)).2 ≠ []) := by
  induction n using Nat.strongRecOn with
  | ind n ih =>
    have bound : 10 < twoTo 64 := by decide
    by_cases small : n < 10
    · rw [digits_small small, takeDigits, Nat.zero_mul, Nat.zero_add, (digit_char small).2.1]
      exact ⟨fun fits => by simp [fits, takeDigits], fun _ => by omega⟩
    · obtain ⟨fit, overflow⟩ := ih (n / 10) (by omega)
      rw [digits_large small, takeDigits_append]
      have value : n / 10 * 10 + digitValue (Char.ofNat (48 + n % 10)) = n := by
        rw [(digit_char (Nat.mod_lt n (by decide))).2.1]
        omega
      by_cases front : n / 10 < twoTo 64
      · rw [fit front, if_pos rfl, takeDigits]
        dsimp only
        rw [value]
        exact ⟨fun fits => by simp [fits, takeDigits], fun large => by simp [Nat.not_lt.mpr large]⟩
      · rw [if_neg (overflow (Nat.not_lt.mp front))]
        exact ⟨fun fits => absurd fits (by omega), fun _ => by simp⟩

theorem floatOf_float {m : Numeric} {n : Number} (reads : floatOf m = some n) : ∃ x, n = .float x := by
  unfold floatOf at reads
  obtain ⟨_, _, same⟩ := Option.map_eq_some_iff.mp reads
  exact ⟨_, same.symm⟩

theorem numberOf_nat (n : Nat) :
    (n < twoTo 64 → numberOf ⟨false, digits n, [], none⟩ = some (.int n)) ∧
      (twoTo 64 ≤ n → ∀ k, numberOf ⟨false, digits n, [], none⟩ ≠ some (.int k)) := by
  obtain ⟨fit, overflow⟩ := takeDigits_digits n
  refine ⟨?_, ?_⟩
  · intro fits
    simp [numberOf, fit fits]
  · intro large k reads
    unfold numberOf at reads
    simp only [true_and, overflow large, if_false] at reads
    obtain ⟨x, same⟩ := floatOf_float reads
    cases same

theorem numberOf_int {n : Int} (low : -(twoTo 63 : Int) ≤ n) (high : n < twoTo 64) :
    numberOf ⟨decide (n < 0), digits n.natAbs, [], none⟩ = some (.int n) := by
  by_cases negative : n < 0
  · have size : n.natAbs < twoTo 64 := by
      have : twoTo 63 < twoTo 64 := by decide
      omega
    have range : 0 < n.natAbs ∧ n.natAbs ≤ twoTo 63 := by omega
    have whole : (-(n.natAbs : Int)) = n := by omega
    simp only [numberOf, (takeDigits_digits n.natAbs).1 size, decide_eq_true negative, range, and_self, whole,
      if_true]
  · have size : n.natAbs < twoTo 64 := by omega
    have whole : (n.natAbs : Int) = n := by omega
    have reads := (numberOf_nat n.natAbs).1 size
    rw [whole] at reads
    simpa [negative] using reads

end Tree
end Json
end Switchboard
