import Switchboard.Json.Reader
import Switchboard.Source.Expr

namespace Switchboard.Source

mutual

def Expr.toJson : Expr → Json
  | .literal value => .object [("kind", .string "literal"), ("data", value)]
  | .variable path => .object [("kind", .string "ident"), ("data", .string path)]
  | .call operator args =>
    .object [("kind", .string "call"), ("data", .array [.string operator, .array (Expr.listToJson args)])]
  | .array items => .object [("kind", .string "array"), ("data", .array (Expr.listToJson items))]
  | .object entries => .object [("kind", .string "object"), ("data", .array (Expr.entriesToJson entries))]

def Expr.listToJson : List Expr → List Json
  | [] => []
  | item :: items => item.toJson :: Expr.listToJson items

def Expr.entriesToJson : List (String × Expr) → List Json
  | [] => []
  | (key, value) :: entries => .array [.string key, value.toJson] :: Expr.entriesToJson entries

end

def Node.toJson : Node → Json
  | .text content => .object [("type", .string "text"), ("value", .string content)]
  | .template expr => .object [("type", .string "template"), ("value", expr.toJson)]

def programToJson (program : Program) : Json :=
  .array (program.map Node.toJson)

namespace Document
open Json (Tree Piece)

def readString : Tree → Option String
  | .string pieces => Tree.plainString pieces
  | _ => none

-- in the order in which a place counts them
def exprTags : List String := ["literal", "ident", "call", "array", "object"]
def nodeTags : List String := ["text", "template"]

-- As a field, a tag is a string, or an object that maps it to nothing.
def readTag (room : Nat) (kept : Bool) : Tree → Option String
  | .string pieces => Tree.plainString pieces
  | .object [(name, .null)] => if 0 < room then Tree.plainString name else none
  | .object [(name, .object [])] => if 0 < room ∧ kept then Tree.plainString name else none
  | _ => none

-- In front of its content in an array, it is a string, or in what was kept also its place.
def readFirst (tags : List String) (kept : Bool) : Tree → Option String
  | .string pieces => Tree.plainString pieces
  | .number n =>
    match Tree.numberOf n with
    | some (.int (.ofNat place)) => if kept then tags[place]? else none
    | _ => none
  | _ => none

def readNames : List (List Piece × Tree) → Option (List (String × Tree))
  | [] => some []
  | (name, tree) :: rest => do
    let name ← Tree.plainString name
    let rest ← readNames rest
    some ((name, tree) :: rest)

structure Choice where
  tag : String
  content : Tree
  kept : Bool

-- A content that comes before its tag has to be kept until the tag is known, and so has to be a
-- readable value as a whole. `room` is what may still be opened inside.
def readChoice (tags : List String) (tagName contentName : String) (room : Nat) (kept : Bool) :
    Tree → Option Choice
  | .array [tag, content] => (readFirst tags kept tag).map fun tag => ⟨tag, content, kept⟩
  | .object fields => do
    let fields ← readNames fields
    match fields.filter fun field => field.1 == tagName || field.1 == contentName with
    | [(first, left), (second, right)] =>
      if first = tagName ∧ second = contentName then
        (readTag room kept left).map fun tag => ⟨tag, right, kept⟩
      else if first = contentName ∧ second = tagName then
        (Tree.value room left).bind fun _ => (readTag room kept right).map fun tag => ⟨tag, left, true⟩
      else none
    | _ => none
  | _ => none

mutual

-- `room` is the number of arrays and objects that may still be opened.
def readExpr : Nat → Bool → Tree → Option Expr
  | 0, _, _ => none
  | room + 1, kept, tree => do
    let choice ← readChoice exprTags "kind" "data" room kept tree
    match choice.tag with
    | "literal" => (Tree.value room choice.content).map .literal
    | "ident" => (readString choice.content).map .variable
    | "call" =>
      match room, choice.content with
      | room + 2, .array [operator, .array args] => do
        let operator ← readString operator
        let args ← readExprs room choice.kept args
        some (.call operator args)
      | _, _ => none
    | "array" =>
      match room, choice.content with
      | room + 1, .array items => (readExprs room choice.kept items).map .array
      | _, _ => none
    | "object" =>
      match room, choice.content with
      | room + 1, .array entries => (readEntries room choice.kept entries).map .object
      | _, _ => none
    | _ => none

def readExprs : Nat → Bool → List Tree → Option (List Expr)
  | room, kept, trees => trees.mapM (readExpr room kept)

def readEntries : Nat → Bool → List Tree → Option (List (String × Expr))
  | 0, _, trees => if trees.isEmpty then some [] else none
  | room + 1, kept, trees => trees.mapM fun entry =>
    match entry with
    | .array [key, value] => do
      let key ← readString key
      let value ← readExpr room kept value
      some (key, value)
    | _ => none

end

def readNode : Nat → Tree → Option Node
  | 0, _ => none
  | room + 1, tree => do
    let choice ← readChoice nodeTags "type" "value" room false tree
    match choice.tag with
    | "text" => (readString choice.content).map .text
    | "template" => (readExpr room choice.kept choice.content).map .template
    | _ => none

def readProgram : Nat → Tree → Option Program
  | room + 1, .array nodes => nodes.mapM (readNode room)
  | _, _ => none

end Document

def programOfChars (cs : List Char) : Option Program :=
  (Json.Tree.read cs).bind (Document.readProgram Json.maxOpen)

end Switchboard.Source
