import Switchboard.Cache.Artifact
import Switchboard.Proofs.JsonText

namespace Switchboard

namespace Json
open Tree

mutual

-- how many arrays and objects are open at once in the text of a value
def opens : Json → Nat
  | .array items => 1 + itemsOpens items
  | .object fields => 1 + fieldsOpens fields
  | _ => 0

def itemsOpens : List Json → Nat
  | [] => 0
  | item :: items => max item.opens (itemsOpens items)

def fieldsOpens : List (String × Json) → Nat
  | [] => 0
  | (_, value) :: fields => max value.opens (fieldsOpens fields)

end

-- The reader gives a value back wherever there is room for it.
def Kept (v : Json) : Prop :=
  ∀ room, Tree.value room (treeOf v) = if v.opens ≤ room then some v else none

theorem kept_null : Kept .null := fun _ => by simp [treeOf, Tree.value, opens]

theorem kept_bool (b : Bool) : Kept (.bool b) := fun _ => by simp [treeOf, Tree.value, opens]

theorem kept_string (s : String) : Kept (.string s) := fun _ => by
  simp [treeOf, Tree.value, opens, plainString_piecesOf]

theorem kept_int {n : Int} (low : -(twoTo 63 : Int) ≤ n) (high : n < twoTo 64) : Kept (.number (.int n)) :=
  fun _ => by simp [treeOf, Tree.value, opens, numeralOf_int, numberOf_int low high]

def ReadsBack (v : Json) : Prop := Json.read v.render = some v

theorem kept_float {x : Float} (reads : ReadsBack (.number (.float x))) : Kept (.number (.float x)) := by
  intro room
  unfold ReadsBack at reads
  rw [read_render] at reads
  cases numeral : numeralOf (.float x) with
  | none => simp [treeOf, numeral, Tree.value] at reads
  | some m =>
    simp only [treeOf, numeral, Option.elim_some, Tree.value] at reads ⊢
    simpa [opens] using reads

end Json

namespace Source

mutual

def Expr.literals : Expr → List Json
  | .literal value => [value]
  | .variable _ => []
  | .call _ args => Expr.listLiterals args
  | .array items => Expr.listLiterals items
  | .object entries => Expr.entryLiterals entries

def Expr.listLiterals : List Expr → List Json
  | [] => []
  | item :: items => item.literals ++ Expr.listLiterals items

def Expr.entryLiterals : List (String × Expr) → List Json
  | [] => []
  | (_, value) :: entries => value.literals ++ Expr.entryLiterals entries

end

mutual

def Expr.opens : Expr → Nat
  | .literal value => 1 + value.opens
  | .variable _ => 1
  | .call _ args => 3 + Expr.listOpens args
  | .array items => 2 + Expr.listOpens items
  | .object entries => 2 + Expr.entryOpens entries

def Expr.listOpens : List Expr → Nat
  | [] => 0
  | item :: items => max item.opens (Expr.listOpens items)

def Expr.entryOpens : List (String × Expr) → Nat
  | [] => 0
  | (_, value) :: entries => max (1 + value.opens) (Expr.entryOpens entries)

end

def Node.literals : Node → List Json
  | .text _ => []
  | .template expr => expr.literals

def Node.opens : Node → Nat
  | .text _ => 1
  | .template expr => 1 + expr.opens

def literals (program : Program) : List Json := program.flatMap Node.literals

def nodesOpens : Program → Nat
  | [] => 0
  | node :: nodes => max node.opens (nodesOpens nodes)

def programOpens (program : Program) : Nat := 1 + nodesOpens program

namespace Document
open Json (Tree treeOf treesOf piecesOf Kept plainString_piecesOf)

theorem readChoice_object (tags : List String) (tagName contentName tag : String) (room : Nat)
    (kept : Bool) (content : Json) :
    readChoice tags tagName contentName room kept
      (treeOf (.object [(tagName, .string tag), (contentName, content)])) =
        some ⟨tag, treeOf content, kept⟩ := by
  simp [treeOf, Json.fieldTrees, readChoice, readNames, readTag, plainString_piecesOf]

-- an entry of an object, as it is read inside `readEntries`
def readEntry (room : Nat) (kept : Bool) : Tree → Option (String × Expr)
  | .array [key, value] => do
    let key ← readString key
    let value ← readExpr room kept value
    some (key, value)
  | _ => none

theorem readEntries_succ (room : Nat) (kept : Bool) (trees : List Tree) :
    readEntries (room + 1) kept trees = trees.mapM (readEntry room kept) := by
  rw [readEntries]
  rfl

-- a pair of which both parts fit, or nothing
theorem fits_cons (a b room : Nat) (x : α) (xs : List α) :
    ((if a ≤ room then some x else none).bind fun y =>
      (if b ≤ room then some xs else none).bind fun ys => some (y :: ys)) =
        if max a b ≤ room then some (x :: xs) else none := by
  by_cases left : a ≤ room <;> by_cases right : b ≤ room <;>
    simp [left, right, Nat.max_le]

mutual

theorem readExpr_toJson : ∀ (e : Expr) (room : Nat) (kept : Bool), (∀ v ∈ e.literals, Kept v) →
    readExpr room kept (treeOf e.toJson) = if e.opens ≤ room then some e else none
  | .literal value, 0, kept, _ => by simp [readExpr, Expr.opens]
  | .literal value, room + 1, kept, reads => by
    have same := reads value (by simp [Expr.literals]) room
    rw [Expr.toJson, readExpr, readChoice_object, Expr.opens, Nat.add_comm 1]
    simp only [Option.bind_eq_bind, Option.bind_some, same, Nat.add_le_add_iff_right]
    split <;> rfl
  | .variable path, 0, kept, _ => by simp [readExpr, Expr.opens]
  | .variable path, room + 1, kept, _ => by
    rw [Expr.toJson, readExpr, readChoice_object]
    simp [Expr.opens, treeOf, readString, plainString_piecesOf]
  | .call operator args, 0, kept, _ => by simp [readExpr, Expr.opens]
  | .call operator args, 1, kept, _ => by
    rw [Expr.toJson, readExpr, readChoice_object, if_neg (by rw [Expr.opens]; omega)]
    rfl
  | .call operator args, 2, kept, _ => by
    rw [Expr.toJson, readExpr, readChoice_object, if_neg (by rw [Expr.opens]; omega)]
    rfl
  -- open are the object of the call, the array of its content and the array of its arguments
  | .call operator args, room + 3, kept, reads => by
    have inner := readExprs_toJson args room kept reads
    rw [Expr.toJson, readExpr, readChoice_object, Expr.opens, Nat.add_comm 3]
    simp only [treeOf, treesOf, Option.bind_eq_bind, Option.bind_some, readString, plainString_piecesOf,
      inner, Nat.add_le_add_iff_right]
    split <;> rfl
  | .array items, 0, kept, _ => by simp [readExpr, Expr.opens]
  | .array items, 1, kept, _ => by
    rw [Expr.toJson, readExpr, readChoice_object, if_neg (by rw [Expr.opens]; omega)]
    rfl
  | .array items, room + 2, kept, reads => by
    have inner := readExprs_toJson items room kept reads
    rw [Expr.toJson, readExpr, readChoice_object, Expr.opens, Nat.add_comm 2]
    simp only [treeOf, Option.bind_eq_bind, Option.bind_some, inner, Nat.add_le_add_iff_right]
    split <;> rfl
  | .object entries, 0, kept, _ => by simp [readExpr, Expr.opens]
  | .object entries, 1, kept, _ => by
    rw [Expr.toJson, readExpr, readChoice_object, if_neg (by rw [Expr.opens]; omega)]
    rfl
  | .object [], 2, kept, _ => by
    rw [Expr.toJson, readExpr, readChoice_object]
    simp [Expr.opens, Expr.entryOpens, treeOf, treesOf, Expr.entriesToJson, readEntries]
  | .object ((key, value) :: entries), 2, kept, _ => by
    rw [Expr.toJson, readExpr, readChoice_object,
      if_neg (by rw [Expr.opens, Expr.entryOpens]; omega)]
    simp [treeOf, treesOf, Expr.entriesToJson, readEntries]
  | .object entries, room + 3, kept, reads => by
    have inner := readEntries_toJson entries room kept reads
    rw [Expr.toJson, readExpr, readChoice_object, Expr.opens, Nat.add_comm 2]
    simp only [treeOf, Option.bind_eq_bind, Option.bind_some, readEntries_succ, inner,
      Nat.add_le_add_iff_right]
    split <;> rfl

theorem readExprs_toJson : ∀ (es : List Expr) (room : Nat) (kept : Bool),
    (∀ v ∈ Expr.listLiterals es, Kept v) →
    readExprs room kept (treesOf (Expr.listToJson es)) =
      if Expr.listOpens es ≤ room then some es else none
  | [], room, kept, _ => by simp [readExprs, Expr.listToJson, treesOf, Expr.listOpens]
  | e :: es, room, kept, reads => by
    have first := readExpr_toJson e room kept fun v present => reads v (by simp [Expr.listLiterals, present])
    have others := readExprs_toJson es room kept fun v present => reads v (by simp [Expr.listLiterals, present])
    rw [readExprs] at others ⊢
    rw [Expr.listToJson, treesOf, List.mapM_cons, first, others]
    exact fits_cons _ _ _ _ _

theorem readEntries_toJson : ∀ (entries : List (String × Expr)) (room : Nat) (kept : Bool),
    (∀ v ∈ Expr.entryLiterals entries, Kept v) →
    (treesOf (Expr.entriesToJson entries)).mapM (readEntry room kept) =
      if Expr.entryOpens entries ≤ room + 1 then some entries else none
  | [], room, kept, _ => by simp [Expr.entriesToJson, treesOf, Expr.entryOpens]
  | (key, value) :: entries, room, kept, reads => by
    have first := readExpr_toJson value room kept fun v present =>
      reads v (by simp [Expr.entryLiterals, present])
    have others := readEntries_toJson entries room kept fun v present =>
      reads v (by simp [Expr.entryLiterals, present])
    have entry : readEntry room kept (treeOf (.array [.string key, value.toJson])) =
        if 1 + value.opens ≤ room + 1 then some (key, value) else none := by
      simp only [treeOf, treesOf, readEntry, readString, plainString_piecesOf, Option.bind_eq_bind,
        Option.bind_some, first, Nat.add_comm 1, Nat.add_le_add_iff_right]
      split <;> rfl
    rw [Expr.entriesToJson, treesOf, List.mapM_cons, entry, others]
    exact fits_cons _ _ _ _ _

end

theorem readNode_toJson (node : Node) (room : Nat) (reads : ∀ v ∈ node.literals, Kept v) :
    readNode room (treeOf node.toJson) = if node.opens ≤ room then some node else none := by
  cases room with
  | zero => cases node <;> simp [readNode, Node.opens]
  | succ room =>
    cases node with
    | text content =>
      rw [Node.toJson, readNode, readChoice_object]
      simp [Node.opens, treeOf, readString, plainString_piecesOf]
    | template expr =>
      rw [Node.toJson, readNode, readChoice_object, Node.opens, Nat.add_comm 1]
      simp only [Option.bind_eq_bind, Option.bind_some, readExpr_toJson expr room false reads,
        Nat.add_le_add_iff_right]
      split <;> rfl

theorem readNodes_toJson (program : Program) (room : Nat) (reads : ∀ v ∈ literals program, Kept v) :
    (treesOf (program.map Node.toJson)).mapM (readNode room) =
      if nodesOpens program ≤ room then some program else none := by
  induction program with
  | nil => simp [treesOf, nodesOpens]
  | cons node nodes ih =>
    have first := readNode_toJson node room fun v present => reads v (by simp [literals, present])
    have others := ih fun v present => reads v (by
      simp only [literals, List.mem_flatMap, List.mem_cons] at present ⊢
      obtain ⟨n, member, inside⟩ := present
      exact ⟨n, .inr member, inside⟩)
    rw [List.map_cons, treesOf, List.mapM_cons, first, others]
    exact fits_cons _ _ _ _ _

theorem readProgram_toJson (program : Program) (room : Nat) (reads : ∀ v ∈ literals program, Kept v) :
    readProgram room (treeOf (programToJson program)) =
      if programOpens program ≤ room then some program else none := by
  cases room with
  | zero =>
    have : ¬ programOpens program ≤ 0 := by simp [programOpens]
    rw [if_neg this]
    rfl
  | succ room =>
    have inner := readNodes_toJson program room reads
    rw [programToJson, treeOf, readProgram, inner, programOpens, Nat.add_comm 1]
    simp only [Nat.add_le_add_iff_right]

end Document
end Source

namespace Artifact
open Json (Tree treeOf piecesOf plainString_piecesOf)

theorem readNatural_natural (n : Nat) {bound : Nat} (held : bound ≤ twoTo 64) :
    readNatural bound (treeOf (natural n)) = if n < bound then some n else none := by
  have numeral : Json.numeralOf (.int (n : Int)) = some ⟨false, Decimal.digits n, [], none⟩ := by
    rw [Json.numeralOf_int]
    simp [show ¬ ((n : Int) < 0) by omega]
  obtain ⟨exact_, overflow⟩ := Json.Tree.numberOf_nat n
  simp only [natural, treeOf, numeral, Option.elim_some, readNatural]
  by_cases size : n < twoTo 64
  · rw [exact_ size]
    by_cases fits : n < bound <;> simp [fits]
  · have large : ¬ n < bound := by omega
    rw [if_neg large]
    split
    · next k same => exact absurd same (overflow (Nat.not_lt.mp size) k)
    · rfl

theorem readFingerprint_toJson (f : Fingerprint) :
    readFingerprint (treeOf (.object [("secs", natural f.secs), ("nanos", natural f.nanos)])) =
      if f.secs < twoTo 64 ∧ f.nanos < twoTo 32 then some f else none := by
  have parts : record ["secs", "nanos"]
      (treeOf (.object [("secs", natural f.secs), ("nanos", natural f.nanos)])) =
        some [treeOf (natural f.secs), treeOf (natural f.nanos)] := by
    simp [treeOf, Json.fieldTrees, record, Source.Document.readNames, field, plainString_piecesOf]
  rw [readFingerprint, parts]
  simp only [Option.bind_eq_bind, Option.bind_some, readNatural_natural _ (Nat.le_refl _),
    readNatural_natural _ (show twoTo 32 ≤ twoTo 64 by decide)]
  by_cases secs : f.secs < twoTo 64 <;> by_cases nanos : f.nanos < twoTo 32 <;> simp [secs, nanos]

structure Readable (a : Artifact) : Prop where
  version : a.version < twoTo 32
  fingerprint : a.fingerprint.secs < twoTo 64 ∧ a.fingerprint.nanos < twoTo 32
  open_ : Source.programOpens a.program < Json.maxOpen

theorem fromUTF8?_toUTF8 (s : String) : String.fromUTF8? s.toUTF8 = some s := by
  unfold String.fromUTF8?
  exact dif_pos s.isValidUTF8

theorem ofBytes_toBytes (a : Artifact) (reads : ∀ v ∈ Source.literals a.program, Json.Kept v) :
    (a.Readable → ofBytes a.toBytes = some a) ∧ (¬ a.Readable → ofBytes a.toBytes = none) := by
  have parts : record ["version", "fingerprint", "nodes"] (treeOf a.toJson) =
      some [treeOf (natural a.version), treeOf (.object [("secs", natural a.fingerprint.secs),
        ("nanos", natural a.fingerprint.nanos)]), treeOf (Source.programToJson a.program)] := by
    simp [toJson, treeOf, Json.fieldTrees, record, Source.Document.readNames, field, plainString_piecesOf]
  have text : Tree.read a.toJson.render.toList = some (treeOf a.toJson) := by
    rw [Json.render, String.toList_ofList, Json.read_chars]
  have decoded : ofBytes a.toBytes =
      (if a.version < twoTo 32 then some a.version else none).bind fun version =>
        (if a.fingerprint.secs < twoTo 64 ∧ a.fingerprint.nanos < twoTo 32 then some a.fingerprint
          else none).bind fun fingerprint =>
            (if Source.programOpens a.program ≤ Json.maxOpen - 1 then some a.program else none).bind
              fun program => some ⟨version, fingerprint, program⟩ := by
    rw [ofBytes, toBytes, fromUTF8?_toUTF8]
    simp only [Option.bind_eq_bind, Option.bind_some, text, ofTree, parts,
      readNatural_natural _ (show twoTo 32 ≤ twoTo 64 by decide), readFingerprint_toJson,
      Source.Document.readProgram_toJson _ _ reads]
  rw [decoded]
  refine ⟨?_, ?_⟩
  · rintro ⟨version, fingerprint, open_⟩
    rw [if_pos version, if_pos fingerprint, if_pos (by omega)]
    rfl
  · intro unreadable
    by_cases version : a.version < twoTo 32
    · by_cases fingerprint : a.fingerprint.secs < twoTo 64 ∧ a.fingerprint.nanos < twoTo 32
      · have deep : ¬ Source.programOpens a.program ≤ Json.maxOpen - 1 := by
          intro fits
          exact unreadable ⟨version, fingerprint, Nat.lt_of_le_of_lt fits (by decide)⟩
        rw [if_pos version, if_pos fingerprint, if_neg deep]
        rfl
      · rw [if_pos version, if_neg fingerprint]
        rfl
    · rw [if_neg version]
      rfl

end Artifact
end Switchboard
