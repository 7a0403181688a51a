import Switchboard.Proofs.Documents

namespace Switchboard

namespace Entries

theorem put_new {name : String} {entries : Entries α} (absent : name ∉ names entries) (value : α) :
    put name value entries = entries ++ [(name, value)] := by
  induction entries with
  | nil => rfl
  | cons head rest ih =>
    obtain ⟨key, old⟩ := head
    simp only [names, List.map_cons, List.mem_cons, not_or] at absent
    rw [put, if_neg (Ne.symm absent.1), ih absent.2, List.cons_append]

theorem putAll_new (pairs : Entries α) : ∀ entries : Entries α, (names (entries ++ pairs)).Nodup →
    putAll entries pairs = entries ++ pairs := by
  induction pairs with
  | nil => simp [putAll]
  | cons pair pairs ih =>
    intro entries distinct
    have absent : pair.1 ∉ names entries := by
      intro present
      simp only [names, List.map_append, List.map_cons, List.nodup_append] at distinct
      exact distinct.2.2 _ present _ List.mem_cons_self rfl
    have step : putAll entries (pair :: pairs) = putAll (entries ++ [pair]) pairs := by
      rw [putAll, List.foldl_cons, put_new absent]
      rfl
    rw [step, ih _ (by simpa using distinct), List.append_assoc, List.singleton_append]

theorem ofPairs_distinct {pairs : Entries α} (distinct : (names pairs).Nodup) : ofPairs pairs = pairs :=
  putAll_new pairs [] distinct

end Entries

namespace Json
open Tree

-- JSON values proper: integers that 64 bits hold, and objects in which no name comes twice
inductive Proper : Json → Prop where
  | null : Proper .null
  | bool (b : Bool) : Proper (.bool b)
  | string (s : String) : Proper (.string s)
  | int {n : Int} : -(twoTo 63 : Int) ≤ n → n < twoTo 64 → Proper (.number (.int n))
  | float (x : Float) : Proper (.number (.float x))
  | array {items : List Json} : (∀ item ∈ items, Proper item) → Proper (.array items)
  | object {fields : List (String × Json)} : (Entries.names fields).Nodup → (∀ field ∈ fields, Proper field.2) →
    Proper (.object fields)

mutual

def floats : Json → List Float
  | .number (.float x) => [x]
  | .array items => itemsFloats items
  | .object fields => fieldsFloats fields
  | _ => []

def itemsFloats : List Json → List Float
  | [] => []
  | item :: items => item.floats ++ itemsFloats items

def fieldsFloats : List (String × Json) → List Float
  | [] => []
  | (_, value) :: fields => value.floats ++ fieldsFloats fields

end

-- the reader gives these numbers back from their texts
def FloatsReadBack (xs : List Float) : Prop := ∀ x ∈ xs, ReadsBack (.number (.float x))

theorem floatsReadBack_append {xs ys : List Float} (read : FloatsReadBack (xs ++ ys)) :
    FloatsReadBack xs ∧ FloatsReadBack ys :=
  ⟨fun x present => read x (List.mem_append_left ys present),
    fun y present => read y (List.mem_append_right xs present)⟩

mutual

theorem Proper.kept : ∀ {v : Json}, v.Proper → FloatsReadBack v.floats → Kept v
  | .null, _, _ => kept_null
  | .bool b, _, _ => kept_bool b
  | .string s, _, _ => kept_string s
  | .number (.int _), .int low high, _ => kept_int low high
  | .number (.float x), _, read => kept_float (read x (by simp [floats]))
  | .array items, .array held, read => fun
    | 0 => by simp [treeOf, Tree.value, opens]
    | room + 1 => by
      have inner := values_kept items held read room
      rw [treeOf, Tree.value, inner, opens, Nat.add_comm 1]
      simp only [Nat.add_le_add_iff_right]
      split <;> rfl
  | .object fields, .object distinct held, read => fun
    | 0 => by simp [treeOf, Tree.value, opens]
    | room + 1 => by
      have inner := valueFields_kept fields held read room
      rw [treeOf, Tree.value, inner, opens, Nat.add_comm 1]
      simp only [Nat.add_le_add_iff_right]
      split
      · rw [Option.map_some, Entries.ofPairs_distinct distinct]
      · rfl

theorem values_kept : ∀ (items : List Json), (∀ item ∈ items, item.Proper) → FloatsReadBack (itemsFloats items) →
    ∀ room, values room (treesOf items) = if itemsOpens items ≤ room then some items else none
  | [], _, _, room => by simp [treesOf, values, itemsOpens]
  | item :: items, held, read, room => by
    obtain ⟨first, others⟩ := floatsReadBack_append read
    have head := (held item List.mem_cons_self).kept first room
    have tail := values_kept items (fun item present => held item (List.mem_cons_of_mem _ present)) others room
    rw [treesOf, values, head, tail]
    exact Source.Document.fits_cons _ _ _ _ _

theorem valueFields_kept : ∀ (fields : List (String × Json)), (∀ field ∈ fields, field.2.Proper) →
    FloatsReadBack (fieldsFloats fields) → ∀ room, valueFields room (fieldTrees fields) =
      if fieldsOpens fields ≤ room then some fields else none
  | [], _, _, room => by simp [fieldTrees, valueFields, fieldsOpens]
  | (name, value) :: fields, held, read, room => by
    obtain ⟨first, others⟩ := floatsReadBack_append read
    have head := (held (name, value) List.mem_cons_self).kept first room
    have tail := valueFields_kept fields (fun field present => held field (List.mem_cons_of_mem _ present))
      others room
    have pair : ((Tree.value room (treeOf value)).map fun v => (name, v)) =
        if value.opens ≤ room then some (name, value) else none := by
      rw [head]
      split <;> rfl
    have parts := Source.Document.fits_cons value.opens (fieldsOpens fields) room (name, value) fields
    rw [← pair, ← tail] at parts
    rw [fieldsOpens, ← parts, fieldTrees, valueFields]
    cases Tree.value room (treeOf value) <;> simp [plainString_piecesOf]

end

end Json

namespace Source

mutual

theorem toJson_opens : ∀ e : Expr, e.toJson.opens = e.opens
  | .literal value => by simp [Expr.toJson, Json.opens, Json.fieldsOpens, Expr.opens]
  | .variable path => by simp [Expr.toJson, Json.opens, Json.fieldsOpens, Expr.opens]
  | .call operator args => by
    have inner := listToJson_opens args
    simp only [Expr.toJson, Json.opens, Json.fieldsOpens, Json.itemsOpens, Expr.opens, inner]
    omega
  | .array items => by
    have inner := listToJson_opens items
    simp only [Expr.toJson, Json.opens, Json.fieldsOpens, Expr.opens, inner]
    omega
  | .object entries => by
    have inner := entriesToJson_opens entries
    simp only [Expr.toJson, Json.opens, Json.fieldsOpens, Expr.opens, inner]
    omega

theorem listToJson_opens : ∀ es : List Expr, Json.itemsOpens (Expr.listToJson es) = Expr.listOpens es
  | [] => rfl
  | e :: es => by rw [Expr.listToJson, Json.itemsOpens, Expr.listOpens, toJson_opens e, listToJson_opens es]

theorem entriesToJson_opens : ∀ entries : List (String × Expr),
    Json.itemsOpens (Expr.entriesToJson entries) = Expr.entryOpens entries
  | [] => rfl
  | (key, value) :: entries => by
    have head := toJson_opens value
    have tail := entriesToJson_opens entries
    simp only [Expr.entriesToJson, Json.itemsOpens, Json.opens, Expr.entryOpens, head, tail]
    omega

end

theorem programToJson_opens (program : Program) : (programToJson program).opens = programOpens program := by
  have nodes : Json.itemsOpens (program.map Node.toJson) = nodesOpens program := by
    induction program with
    | nil => rfl
    | cons node nodes ih =>
      have head : node.toJson.opens = node.opens := by
        cases node with
        | text content => rfl
        | template expr =>
          simp only [Node.toJson, Json.opens, Json.fieldsOpens, Node.opens, toJson_opens]
          omega
      rw [List.map_cons, Json.itemsOpens, nodesOpens, head, ih]
  rw [programToJson, Json.opens, nodes, programOpens]

-- so many calls in each other, the innermost without arguments
inductive NestedCalls : Nat → Expr → Prop where
  | one (operator : String) : NestedCalls 1 (.call operator [])
  | more {k : Nat} {inner : Expr} (operator : String) : NestedCalls k inner →
    NestedCalls (k + 1) (.call operator [inner])

theorem NestedCalls.opens {k : Nat} {e : Expr} (nested : NestedCalls k e) : e.opens = 3 * k := by
  induction nested with
  | one operator => rfl
  | more operator _ ih =>
    simp only [Expr.opens, Expr.listOpens, ih]
    omega

theorem NestedCalls.positive {k : Nat} {e : Expr} (nested : NestedCalls k e) : 1 ≤ k := by
  cases nested <;> omega

end Source

namespace Artifact
open Source

-- The fingerprint is an object of its own, beside the program.
theorem toJson_opens (a : Artifact) : a.toJson.opens = 1 + max 1 (programOpens a.program) := by
  simp only [toJson, natural, Json.opens, Json.fieldsOpens, programToJson_opens]
  omega

theorem programOpens_lt (a : Artifact) : programOpens a.program < Json.maxOpen ↔ a.toJson.opens ≤ Json.maxOpen := by
  have room : 2 ≤ Json.maxOpen := by decide
  rw [toJson_opens]
  omega

structure RoundTrip (a : Artifact) : Prop where
  fits : a.toJson.opens ≤ 127 → ofBytes a.toBytes = some a
  deep : 127 < a.toJson.opens → ofBytes a.toBytes = none
  calls : ∀ k e, NestedCalls k e → a.program = [.template e] →
    a.toJson.opens = 3 * k + 3 ∧ (ofBytes a.toBytes = some a ↔ k ≤ 41)

-- The bounds are those of the machine words that an artifact is made of.
theorem artifact_round_trip (a : Artifact) (version : a.version < twoTo 32)
    (secs : a.fingerprint.secs < twoTo 64) (nanos : a.fingerprint.nanos < twoTo 32)
    (held : ∀ v ∈ literals a.program, v.Proper)
    (floats : ∀ v ∈ literals a.program, Json.FloatsReadBack v.floats) : RoundTrip a := by
  obtain ⟨back, nothing⟩ := ofBytes_toBytes a fun v present => (held v present).kept (floats v present)
  have limit := a.programOpens_lt
  have fits : a.toJson.opens ≤ 127 → ofBytes a.toBytes = some a := fun few =>
    back ⟨version, ⟨secs, nanos⟩, limit.mpr few⟩
  have deep : 127 < a.toJson.opens → ofBytes a.toBytes = none := fun many =>
    nothing fun readable => Nat.not_le_of_lt many (limit.mp readable.open_)
  refine ⟨fits, deep, ?_⟩
  intro k e nested whole
  have counted : a.toJson.opens = 3 * k + 3 := by
    rw [toJson_opens, whole, programOpens, nodesOpens, nodesOpens, Node.opens, nested.opens]
    have := nested.positive
    omega
  refine ⟨counted, ?_, fun few => fits (by omega)⟩
  intro same
  refine Nat.not_lt.mp fun many => ?_
  have none := deep (by omega)
  cases none.symm.trans same

-- an artifact whose literals look like parts of its own document
def lookalike : Artifact where
  version := 1
  fingerprint := ⟨1700000000, 5⟩
  program := [
    .text "kind",
    .template (.call "set" [
      .literal (.object [("kind", .string "call"), ("data", .array [.string "f", .array []])]),
      .object [("x", .literal (.number (.int (-1)))), ("x", .array [.variable "a.b", .literal .null])]])]

theorem artifact_round_trip_lookalike : lookalike.version < twoTo 32 ∧
    lookalike.fingerprint.secs < twoTo 64 ∧ lookalike.fingerprint.nanos < twoTo 32 ∧
    (∀ v ∈ literals lookalike.program, v.Proper) ∧
    (∀ v ∈ literals lookalike.program, Json.FloatsReadBack v.floats) ∧
    RoundTrip lookalike ∧ lookalike.toJson.opens = 12 ∧ ofBytes lookalike.toBytes = some lookalike := by
  have version : lookalike.version < twoTo 32 := by decide
  have secs : lookalike.fingerprint.secs < twoTo 64 := by decide
  have nanos : lookalike.fingerprint.nanos < twoTo 32 := by decide
  have written : literals lookalike.program =
      [.object [("kind", .string "call"), ("data", .array [.string "f", .array []])],
        .number (.int (-1)), .null] := rfl
  have held : ∀ v ∈ literals lookalike.program, v.Proper := by
    rw [written]
    have empty : Json.Proper (.array []) := .array (by simp)
    have items : ∀ item ∈ [Json.string "f", .array []], item.Proper := by
      simpa using ⟨Json.Proper.string "f", empty⟩
    have object : Json.Proper (.object [("kind", .string "call"), ("data", .array [.string "f", .array []])]) :=
      .object (by decide) (by simpa using ⟨Json.Proper.string "call", Json.Proper.array items⟩)
    have int : Json.Proper (.number (.int (-1))) := .int (by decide) (by decide)
    simpa using ⟨object, int, Json.Proper.null⟩
  have floats : ∀ v ∈ literals lookalike.program, Json.FloatsReadBack v.floats := by
    rw [written]
    simp [Json.floats, Json.itemsFloats, Json.fieldsFloats, Json.FloatsReadBack]
  have back := artifact_round_trip lookalike version secs nanos held floats
  have depth : lookalike.toJson.opens = 12 := by decide
  exact ⟨version, secs, nanos, held, floats, back, depth, back.fits (by rw [depth]; decide)⟩

end Artifact
end Switchboard
