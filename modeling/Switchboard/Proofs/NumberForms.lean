import Switchboard.Proofs.BinaryFractions
import Switchboard.Proofs.Numerals
import Switchboard.Source.Parser

namespace Switchboard
open Decimal

theorem digits_plain (n : Nat) : ∀ c ∈ digits n, c ≠ '.' ∧ c ≠ 'e' := by
  intro c present
  have digit := (digits_whole n).digits c present
  constructor <;> (rintro rfl; cases digit)

theorem writeInt_plain (n : Int) : ∀ c ∈ Json.writeInt n [], c ≠ '.' ∧ c ≠ 'e' := by
  intro c present
  unfold Json.writeInt at present
  rw [List.append_nil] at present
  split at present
  · rcases List.mem_cons.mp present with rfl | digit
    · decide
    · exact digits_plain _ c digit
  · exact digits_plain _ c present

theorem place_marked (d : Scaled) : ∃ c ∈ Json.layout.place d, c = '.' ∨ c = 'e' := by
  unfold Layout.place
  dsimp only
  split
  · exact ⟨'.', by simp [Json.layout], .inl rfl⟩
  · split
    · split
      · exact ⟨'.', by simp [Json.layout], .inl rfl⟩
      · split
        · exact ⟨'.', by simp, .inl rfl⟩
        · exact ⟨'.', by simp, .inl rfl⟩
    · exact ⟨'e', by simp, .inr rfl⟩

theorem render_marked (b : Binary) : ∃ c ∈ Json.layout.render b, c = '.' ∨ c = 'e' := by
  obtain ⟨c, present, marked⟩ := place_marked (shortest Json.layout.tie b.mantissa b.exponent)
  unfold Layout.render
  dsimp only
  split
  · exact ⟨c, List.mem_cons_of_mem _ present, marked⟩
  · exact ⟨c, present, marked⟩

theorem Entries.find_present {entries : Entries α} (distinct : (names entries).Nodup) {name : String} {value : α}
    (present : (name, value) ∈ entries) : find name entries = some value := by
  induction entries with
  | nil => cases present
  | cons entry entries ih =>
    obtain ⟨key, first⟩ := entry
    rw [names, List.map_cons, List.nodup_cons] at distinct
    rcases List.mem_cons.mp present with same | later
    · cases same
      rw [find, if_pos rfl]
    · have other : key ≠ name := by
        rintro rfl
        exact distinct.1 (List.mem_map.mpr ⟨_, later, rfl⟩)
      rw [find, if_neg other]
      exact ih distinct.2 later

namespace Json

theorem write_int_ne_float (n : Int) {x : Float} {b : Binary} (finite : Binary.ofFloat? x = some b) :
    chars (.number (.int n)) ≠ chars (.number (.float x)) := by
  intro same
  obtain ⟨c, present, marked⟩ := render_marked b
  rw [chars, chars, write, write, writeNumber, writeNumber, finite] at same
  have plain := writeInt_plain n c (by simp [same, present])
  rcases marked with rfl | rfl
  · exact plain.1 rfl
  · exact plain.2 rfl

theorem writeString_append (s : String) (front back : List Char) :
    writeString s (front ++ back) = writeString s front ++ back := by
  simp [writeString]

theorem writeNumber_append (n : Number) (front back : List Char) :
    writeNumber n (front ++ back) = writeNumber n front ++ back := by
  unfold writeNumber writeInt
  split
  · split <;> simp
  · split <;> simp

mutual

theorem write_append : ∀ (v : Json) (front back : List Char), write v (front ++ back) = write v front ++ back
  | .null, front, back => by simp [write]
  | .bool true, front, back => by simp [write]
  | .bool false, front, back => by simp [write]
  | .number n, front, back => by rw [write, write, writeNumber_append]
  | .string s, front, back => by rw [write, write, writeString_append]
  | .array items, front, back => by
    rw [write, write, ← List.cons_append, writeItems_append, List.cons_append]
  | .object fields, front, back => by
    rw [write, write, ← List.cons_append, writeFields_append, List.cons_append]

theorem writeItems_append : ∀ (items : List Json) (front back : List Char),
    writeItems items (front ++ back) = writeItems items front ++ back
  | [], front, back => by rw [writeItems, writeItems]
  | item :: items, front, back => by
    rw [writeItems, writeItems, writeMoreItems_append, write_append]

theorem writeMoreItems_append : ∀ (items : List Json) (front back : List Char),
    writeMoreItems items (front ++ back) = writeMoreItems items front ++ back
  | [], front, back => by rw [writeMoreItems, writeMoreItems]
  | item :: items, front, back => by
    rw [writeMoreItems, writeMoreItems, writeMoreItems_append, write_append, List.cons_append]

theorem writeFields_append : ∀ (fields : List (String × Json)) (front back : List Char),
    writeFields fields (front ++ back) = writeFields fields front ++ back
  | [], front, back => by rw [writeFields, writeFields]
  | (name, value) :: fields, front, back => by
    rw [writeFields, writeFields, writeMoreFields_append, write_append, ← List.cons_append, writeString_append]

theorem writeMoreFields_append : ∀ (fields : List (String × Json)) (front back : List Char),
    writeMoreFields fields (front ++ back) = writeMoreFields fields front ++ back
  | [], front, back => by rw [writeMoreFields, writeMoreFields]
  | (name, value) :: fields, front, back => by
    rw [writeMoreFields, writeMoreFields, writeMoreFields_append, write_append, ← List.cons_append,
      writeString_append, List.cons_append]

end

theorem writeMoreItems_around (front back : List Json) (v : Json) (rest : List Char) :
    writeMoreItems (front ++ v :: back) rest =
      writeMoreItems front [] ++ ',' :: write v (writeMoreItems back rest) := by
  induction front with
  | nil => rfl
  | cons item front ih =>
    rw [List.cons_append, writeMoreItems, ih, write_append]
    rfl

theorem writeMoreFields_around (front back : List (String × Json)) (name : String) (v : Json) (rest : List Char) :
    writeMoreFields (front ++ (name, v) :: back) rest =
      writeMoreFields front [] ++ ',' :: writeString name (':' :: write v (writeMoreFields back rest)) := by
  induction front with
  | nil => rfl
  | cons field front ih =>
    obtain ⟨key, value⟩ := field
    rw [List.cons_append, writeMoreFields, ih, write_append, ← List.cons_append, writeString_append]
    rfl

theorem write_array_around (front back : List Json) (rest : List Char) :
    ∃ before, ∀ v, write (.array (front ++ v :: back)) rest =
      before ++ write v (writeMoreItems back (']' :: rest)) := by
  cases front with
  | nil => exact ⟨['['], fun v => rfl⟩
  | cons item front =>
    refine ⟨'[' :: write item (writeMoreItems front []) ++ [','], fun v => ?_⟩
    rw [List.cons_append, write, writeItems, writeMoreItems_around, write_append]
    simp

theorem write_object_around (front back : List (String × Json)) (name : String) (rest : List Char) :
    ∃ before, ∀ v, write (.object (front ++ (name, v) :: back)) rest =
      before ++ write v (writeMoreFields back ('\x7d' :: rest)) := by
  have key (more : List Char) : writeString name (':' :: more) = writeString name [':'] ++ more :=
    writeString_append name [':'] more
  cases front with
  | nil =>
    refine ⟨'\x7b' :: writeString name [':'], fun v => ?_⟩
    rw [List.nil_append, write, writeFields, key]
    rfl
  | cons field front =>
    obtain ⟨first, value⟩ := field
    refine ⟨'\x7b' :: writeString first (':' :: write value (writeMoreFields front [])) ++
      ',' :: writeString name [':'], fun v => ?_⟩
    rw [List.cons_append, write, writeFields, writeMoreFields_around, write_append, ← List.cons_append,
      writeString_append, key]
    simp

-- A place in a document. What stands beside it is equal to itself, and no field's name comes twice.
inductive Within : (Json → Json) → Prop where
  | here : Within fun v => v
  | item {place front back} : Within place → (∀ v ∈ front ++ back, v.same v = true) →
    Within fun v => .array (front ++ place v :: back)
  | field {place front name back} : Within place → (∀ field ∈ front ++ back, field.2.same field.2 = true) →
    ((front ++ back).map Prod.fst).Nodup → name ∉ (front ++ back).map Prod.fst →
    Within fun v => .object (front ++ (name, place v) :: back)

theorem Within.writes {place : Json → Json} (within : Within place) :
    ∀ rest, ∃ before after, ∀ v, write (place v) rest = before ++ write v after := by
  induction within with
  | here => exact fun rest => ⟨[], rest, fun v => rfl⟩
  | @item place front back _ _ ih =>
    intro rest
    obtain ⟨outer, around⟩ := write_array_around front back rest
    obtain ⟨before, after, inner⟩ := ih (writeMoreItems back (']' :: rest))
    exact ⟨outer ++ before, after, fun v => by rw [around, inner, List.append_assoc]⟩
  | @field place front name back _ _ _ _ ih =>
    intro rest
    obtain ⟨outer, around⟩ := write_object_around front back name rest
    obtain ⟨before, after, inner⟩ := ih (writeMoreFields back ('\x7d' :: rest))
    exact ⟨outer ++ before, after, fun v => by rw [around, inner, List.append_assoc]⟩

theorem Within.render_iff {place : Json → Json} (within : Within place) (a b : Json) :
    render (place a) = render (place b) ↔ chars a = chars b := by
  obtain ⟨before, after, writes⟩ := within.writes []
  have alone (v : Json) : write v after = chars v ++ after := write_append v [] after
  rw [render, render, String.ofList_inj, chars, chars, writes, writes, alone, alone, List.append_cancel_left_eq,
    List.append_cancel_right_eq]

theorem sameItems_around {front back : List Json} (steady : ∀ v ∈ front ++ back, v.same v = true) (v w : Json) :
    same.sameItems (front ++ v :: back) (front ++ w :: back) = v.same w := by
  have reflexive : ∀ items : List Json, (∀ v ∈ items, v.same v = true) → same.sameItems items items = true := by
    intro items
    induction items with
    | nil => simp [same.sameItems]
    | cons item items ih =>
      intro steady
      simp [same.sameItems, steady item (by simp), ih fun v present => steady v (by simp [present])]
  induction front with
  | nil => simp [same.sameItems, reflexive back fun v present => steady v (by simp [present])]
  | cons item front ih =>
    simp [same.sameItems, steady item (by simp), ih fun v present => steady v (by simp_all)]

theorem sameFields_iff {fields other : List (String × Json)} : same.sameFields fields other = true ↔
    ∀ field ∈ fields, ∃ found, Entries.find field.1 other = some found ∧ field.2.same found = true := by
  induction fields with
  | nil => simp [same.sameFields]
  | cons field fields ih =>
    obtain ⟨name, value⟩ := field
    rw [same.sameFields, Bool.and_eq_true, ih, List.forall_mem_cons]
    cases Entries.find name other <;> simp

theorem sameFields_around {front back : List (String × Json)} {name : String}
    (steady : ∀ field ∈ front ++ back, field.2.same field.2 = true)
    (distinct : ((front ++ back).map Prod.fst).Nodup) (new : name ∉ (front ++ back).map Prod.fst) (v w : Json) :
    same.sameFields (front ++ (name, v) :: back) (front ++ (name, w) :: back) = v.same w := by
  have names : ((front ++ (name, w) :: back).map Prod.fst).Nodup := by
    rw [List.map_append, List.map_cons, List.perm_middle.nodup_iff, List.nodup_cons, ← List.map_append]
    exact ⟨new, distinct⟩
  have own : Entries.find name (front ++ (name, w) :: back) = some w := Entries.find_present names (by simp)
  rw [Bool.eq_iff_iff, sameFields_iff]
  constructor
  · intro all
    obtain ⟨found, lookup, same⟩ := all (name, v) (by simp)
    rw [own] at lookup
    cases lookup
    exact same
  · rintro same ⟨key, value⟩ present
    rcases List.mem_append.mp present with before | after
    · exact ⟨value, Entries.find_present names (by simp [before]), steady _ (by simp [before])⟩
    · rcases List.mem_cons.mp after with here | behind
      · cases here
        exact ⟨w, own, same⟩
      · exact ⟨value, Entries.find_present names (by simp [behind]), steady _ (by simp [behind])⟩

theorem Within.same_eq {place : Json → Json} (within : Within place) (v w : Json) :
    (place v).same (place w) = v.same w := by
  induction within with
  | here => rfl
  | item _ steady ih => rw [same, sameItems_around steady, ih]
  | field _ steady distinct new ih =>
    rw [same, sameFields_around steady distinct new, ih]
    simp

theorem Within.text_eq {place : Json → Json} (within : Within place) (n : Number) :
    (place (.number n)).text = render (place (.number n)) := by
  cases within <;> rfl

-- Wherever the two stand, they are equal, are written alike and are printed alike.
structure Alike (place : Json → Json) (m n : Number) : Prop where
  same : (place (.number m)).same (place (.number n)) = true
  written : render (place (.number m)) = render (place (.number n))
  printed : (place (.number m)).text = (place (.number n)).text

structure Unlike (place : Json → Json) (m n : Number) : Prop where
  same : (place (.number m)).same (place (.number n)) = false
  written : render (place (.number m)) ≠ render (place (.number n))
  printed : (place (.number m)).text ≠ (place (.number n)).text

variable {place : Json → Json} {m n : Number}

theorem Within.alike (within : Within place) (same : m.same n = true)
    (written : chars (.number m) = chars (.number n)) : Alike place m n := by
  have texts := (within.render_iff (.number m) (.number n)).mpr written
  refine ⟨?_, texts, ?_⟩
  · rw [within.same_eq, Json.same, same]
  · rw [within.text_eq, within.text_eq, texts]

theorem Within.unlike (within : Within place) (different : m.same n = false)
    (written : chars (.number m) ≠ chars (.number n)) : Unlike place m n := by
  have texts : render (place (.number m)) ≠ render (place (.number n)) :=
    mt (within.render_iff (.number m) (.number n)).mp written
  refine ⟨?_, texts, ?_⟩
  · rw [within.same_eq, Json.same, different]
  · rwa [within.text_eq, within.text_eq]

end Json

-- A whole number that is too large for a result to be an integer, and not too large for a literal.
def Parted (v : ℚ) : Prop := ∃ n : Int, v = n ∧ 2 ^ 53 ≤ n.natAbs ∧ -2 ^ 63 ≤ n ∧ n ≤ 2 ^ 63

-- what a literal and a result of one value come to
inductive Forms (v : ℚ) : Number → Number → Prop where
  | whole {n : Int} : v = n → n.natAbs < 2 ^ 53 → Forms v (.int n) (.int n)
  | parted {n : Int} {x : Float} {b : Binary} : v = n → 2 ^ 53 ≤ n.natAbs → -2 ^ 63 ≤ n → n ≤ 2 ^ 63 →
    Binary.ofFloat? x = some b → Forms v (.int (min n (2 ^ 63 - 1))) (.float x)
  | other {x : Float} {b : Binary} : ¬ Parted v → Binary.ofFloat? x = some b → Forms v (.float x) (.float x)

section
variable {x y : Float} {b c : Binary}

theorem same_fraction (finite : Binary.ofFloat? x = some b) (finite' : Binary.ofFloat? y = some c)
    (same : b.value = c.value) (nonzero : b.value ≠ 0) : x = y := by
  obtain rfl := Binary.normal_ext (Binary.ofFloat?_normal finite).1 (Binary.ofFloat?_normal finite').1 nonzero same
  exact Binary.ofFloat?_injective finite finite'

theorem forms_given (finite : Binary.ofFloat? x = some b) (finite' : Binary.ofFloat? y = some c)
    (same : b.value = c.value) : ∃ literal computed, Source.literalNumber x = .number literal ∧
      Number.ofFloat? y = some computed ∧ Forms b.value literal computed := by
  have whole : c.toInt? = b.toInt? := by
    refine Option.ext fun n => ?_
    rw [Binary.toInt?_eq_some_iff, Binary.toInt?_eq_some_iff, same]
  unfold Source.literalNumber Number.ofFloat?
  rw [finite, finite']
  dsimp only
  rw [whole]
  cases value : b.toInt? with
  | none =>
    rw [Binary.toInt?_eq_none_iff] at value
    obtain rfl := same_fraction finite finite' same (by simpa using value 0)
    exact ⟨_, _, rfl, rfl, .other (fun ⟨n, here, _⟩ => value n here) finite⟩
  | some n =>
    rw [Binary.toInt?_eq_some_iff] at value
    have powers : twoTo 53 = 2 ^ 53 ∧ twoTo 63 = 2 ^ 63 := ⟨rfl, rfl⟩
    simp only [powers]
    by_cases small : n.natAbs < 2 ^ 53
    · have range : -((2 ^ 63 : Nat) : Int) ≤ n ∧ n ≤ ((2 ^ 63 : Nat) : Int) := by omega
      have least : min n (((2 ^ 63 : Nat) : Int) - 1) = n := by omega
      rw [if_pos small, if_pos range, least]
      exact ⟨_, _, rfl, rfl, .whole value small⟩
    · rw [if_neg small]
      by_cases range : -((2 ^ 63 : Nat) : Int) ≤ n ∧ n ≤ ((2 ^ 63 : Nat) : Int)
      · rw [if_pos range]
        exact ⟨_, _, rfl, rfl, .parted value (by omega) (by omega) (by omega) finite'⟩
      · rw [if_neg range]
        have nonzero : b.value ≠ 0 := by
          rw [value, Int.cast_ne_zero]
          omega
        obtain rfl := same_fraction finite finite' same nonzero
        refine ⟨_, _, rfl, rfl, .other ?_ finite⟩
        rintro ⟨k, here, _, low, high⟩
        rw [value, Int.cast_inj] at here
        omega

namespace Forms
variable {v : ℚ} {literal computed : Number}

theorem eq_iff (forms : Forms v literal computed) : literal = computed ↔ ¬ Parted v := by
  cases forms with
  | whole value small =>
    refine iff_of_true rfl ?_
    rintro ⟨k, here, large, _⟩
    rw [value, Int.cast_inj] at here
    omega
  | parted value large low high =>
    exact iff_of_false (by simp) (not_not_intro ⟨_, value, large, low, high⟩)
  | other unparted => exact iff_of_true rfl unparted

theorem computed_exact (forms : Forms v literal computed) (n : Int) (int : computed = .int n) : v = n := by
  cases forms with
  | whole value => cases int; exact value
  | parted | other => cases int

-- Only the largest of them all is not what its literal stands for.
theorem literal_exact (forms : Forms v literal computed) (n : Int) (int : literal = .int n) :
    v = n ↔ v ≠ 2 ^ 63 := by
  cases forms with
  | whole value small =>
    cases int
    refine iff_of_true value ?_
    rw [value]
    norm_cast
    omega
  | @parted k _ _ value large low high =>
    cases int
    have largest : (2 ^ 63 : ℚ) = ((2 ^ 63 : Int) : ℚ) := by norm_num
    rw [value, largest, Ne, Int.cast_inj, Int.cast_inj]
    omega
  | other => cases int

theorem alike (forms : Forms v literal computed) (unparted : ¬ Parted v) {place : Json → Json}
    (within : Json.Within place) : Json.Alike place literal computed := by
  obtain rfl := forms.eq_iff.mpr unparted
  refine within.alike ?_ rfl
  cases forms with
  | whole => simp [Number.same]
  | other _ finite => exact Binary.finite_equal finite

theorem unlike (forms : Forms v literal computed) (parted : Parted v) {place : Json → Json}
    (within : Json.Within place) : Json.Unlike place literal computed := by
  cases forms with
  | whole value small => exact absurd parted ((Forms.whole value small).eq_iff.mp rfl)
  | parted _ _ _ _ finite => exact within.unlike rfl (Json.write_int_ne_float _ finite)
  | other unparted => exact absurd parted unparted

end Forms

-- A literal and a result of one value are one number, which stands for that value if it is an integer, unless the
-- value is a whole number of at least 2^53 in size and within the integers of 64 bits, or 2^63: then they are two
-- numbers, and in every document they are unequal and have different texts. Only 2^63 itself is also missed.
theorem numbers_agree (finite : Binary.ofFloat? x = some b) (finite' : Binary.ofFloat? y = some c)
    (same : b.value = c.value) : ∃ literal computed, Source.literalNumber x = .number literal ∧
      Number.ofFloat? y = some computed ∧
      (literal = computed ↔ ¬ Parted b.value) ∧
      (∀ n, computed = .int n → b.value = n) ∧
      (∀ n, literal = .int n → (b.value = n ↔ b.value ≠ 2 ^ 63)) ∧
      ∀ place, Json.Within place → (¬ Parted b.value → Json.Alike place literal computed) ∧
        (Parted b.value → Json.Unlike place literal computed) := by
  obtain ⟨literal, computed, reads, computes, forms⟩ := forms_given finite finite' same
  refine ⟨literal, computed, reads, computes, forms.eq_iff, forms.computed_exact, forms.literal_exact, ?_⟩
  intro place within
  exact ⟨fun unparted => forms.alike unparted within, fun parted => forms.unlike parted within⟩

-- 2^53, which is an integer as a literal only, and 2^63, whose literal is the integer below it
theorem numbers_agree_not :
    let x := Float.ofBits 0x4340000000000000
    let y := Float.ofBits 0x43E0000000000000
    let b : Binary := ⟨false, 2 ^ 52, 1⟩
    let c : Binary := ⟨false, 2 ^ 52, 11⟩
    (Binary.ofFloat? x = some b ∧ b.value = 2 ^ 53 ∧
      Source.literalNumber x = .number (.int (2 ^ 53)) ∧ Number.ofFloat? x = some (.float x) ∧
      Json.Unlike (fun v => .array [v]) (.int (2 ^ 53)) (.float x)) ∧
    (Binary.ofFloat? y = some c ∧ c.value = 2 ^ 63 ∧
      Source.literalNumber y = .number (.int (2 ^ 63 - 1)) ∧ Number.ofFloat? y = some (.float y) ∧
      Json.Unlike (fun v => .array [v]) (.int (2 ^ 63 - 1)) (.float y)) := by
  intro x y b c
  have alone : Json.Within fun v => .array ([] ++ v :: []) := .item .here (by simp)
  have finite : Binary.ofFloat? x = some b := by decide +kernel
  have finite' : Binary.ofFloat? y = some c := by decide +kernel
  have whole : b.toInt? = some (2 ^ 53) := by decide +kernel
  have whole' : c.toInt? = some (2 ^ 63) := by decide +kernel
  have value : b.value = 2 ^ 53 := by norm_num [b, Binary.value, Binary.signed]
  have value' : c.value = 2 ^ 63 := by norm_num [c, Binary.value, Binary.signed]
  have reads : Source.literalNumber x = .number (.int (2 ^ 53)) := by
    simp only [Source.literalNumber, finite, whole]
    rfl
  have reads' : Source.literalNumber y = .number (.int (2 ^ 63 - 1)) := by
    simp only [Source.literalNumber, finite', whole']
    rfl
  have computes : Number.ofFloat? x = some (.float x) := by
    simp only [Number.ofFloat?, finite, whole]
    exact if_neg (by decide)
  have computes' : Number.ofFloat? y = some (.float y) := by
    simp only [Number.ofFloat?, finite', whole']
    exact if_neg (by decide)
  have parted : Parted b.value := ⟨2 ^ 53, by rw [value]; norm_num, by decide, by decide, by decide⟩
  have parted' : Parted c.value := ⟨2 ^ 63, by rw [value']; norm_num, by decide, by decide, by decide⟩
  obtain ⟨literal, computed, read, compute, _, _, _, forms⟩ := numbers_agree finite finite rfl
  obtain ⟨literal', computed', read', compute', _, _, _, forms'⟩ := numbers_agree finite' finite' rfl
  cases reads.symm.trans read
  cases computes.symm.trans compute
  cases reads'.symm.trans read'
  cases computes'.symm.trans compute'
  exact ⟨⟨finite, value, reads, computes, (forms _ alone).2 parted⟩,
    ⟨finite', value', reads', computes', (forms' _ alone).2 parted'⟩⟩

end
end Switchboard
