import Mathlib
import Switchboard.Proofs.Lexemes

namespace Switchboard.Source

-- A line and a column as they are, however large.
structure Place where
  line : Nat := 1
  column : Nat := 1
deriving DecidableEq, Repr

namespace Place

def advance (p : Place) (c : Char) : Place :=
  if c = '\n' then ⟨p.line + 1, 1⟩ else ⟨p.line, p.column + 1⟩

def advanceAll (p : Place) (cs : List Char) : Place :=
  cs.foldl advance p

def position (p : Place) : Position := ⟨p.line, p.column⟩

def Fits (p : Place) : Prop :=
  p.line < 2 ^ 32 ∧ p.column < 2 ^ 32

def Before (p q : Place) : Prop :=
  p.line < q.line ∨ (p.line = q.line ∧ p.column < q.column)

theorem Before.trans {p q r : Place} (first : p.Before q) (second : q.Before r) : p.Before r := by
  unfold Before at *
  omega

theorem advanceAll_append (p : Place) (first second : List Char) :
    p.advanceAll (first ++ second) = (p.advanceAll first).advanceAll second := by
  simp [advanceAll]

theorem position_advance (p : Place) (c : Char) : (p.advance c).position = p.position.advance c := by
  unfold advance Position.advance position
  split <;> simp [UInt32.ofNat_add]

theorem position_advanceAll (p : Place) (cs : List Char) :
    (p.advanceAll cs).position = p.position.advanceAll cs := by
  induction cs generalizing p with
  | nil => rfl
  | cons c cs ih =>
    have rest := ih (p.advance c)
    rw [position_advance] at rest
    exact rest

theorem advanceAll_counts (cs : List Char) :
    ({} : Place).advanceAll cs = ⟨1 + cs.count '\n', 1 + (cs.reverse.takeWhile (· ≠ '\n')).length⟩ := by
  induction cs using List.reverseRecOn with
  | nil => rfl
  | append_singleton cs c ih =>
    rw [advanceAll_append, ih]
    by_cases newline : c = '\n'
    · simp [advanceAll, advance, newline, Nat.add_assoc]
    · simp [advanceAll, advance, newline, Nat.add_comm]

end Place

namespace Position

-- the place that a position stands for, if its counts have not begun again
def place (p : Position) : Place := ⟨p.line, p.column⟩

def Before (p q : Position) : Prop := p.place.Before q.place

-- Whether counting a character goes beyond 32 bits: a build that checks its additions panics there.
def overflows (p : Position) (c : Char) : Bool :=
  (if c = '\n' then p.line else p.column) + 1 == 0

-- The counts stay within 32 bits on the way through a text.
def counts (p : Position) : List Char → Bool
  | [] => true
  | c :: cs => !p.overflows c && (p.advance c).counts cs

end Position

def placeAt (source : List Char) (offset : Nat) : Place :=
  let before := source.take offset
  ⟨1 + before.count '\n', 1 + (before.reverse.takeWhile (· ≠ '\n')).length⟩

theorem placeAt_eq (source : List Char) (offset : Nat) :
    placeAt source offset = ({} : Place).advanceAll (source.take offset) :=
  (Place.advanceAll_counts _).symm

theorem placeAt_length (before after : List Char) :
    placeAt (before ++ after) before.length = ({} : Place).advanceAll before := by
  rw [placeAt_eq, List.take_left]

theorem position_placeAt (before after : List Char) :
    (placeAt (before ++ after) before.length).position = ({} : Position).advanceAll before := by
  rw [placeAt_length, Place.position_advanceAll]
  rfl

theorem Place.Fits.place {p : Place} (fits : p.Fits) : p.position.place = p := by
  obtain ⟨line, column⟩ := fits
  simp only [Place.position, Position.place, UInt32.toNat_ofNat_of_lt' line, UInt32.toNat_ofNat_of_lt' column]

-- A token with how many characters stand in front of it.
abbrev Placed := Nat × Token

-- the texts, and what stands from each outermost opening parenthesis to the one that closes it; `depth` counts
-- the open ones, the first of which stands at `start`
def pieces (source : List Char) : Nat → Nat → List Placed → List (List Char)
  | _, _, [] => []
  | depth, start, (offset, token) :: more =>
    match token.kind, depth with
    | .text content, _ => content.toList :: pieces source depth start more
    | .parenOpen, 0 => pieces source 1 offset more
    | .parenOpen, _ => pieces source (depth + 1) start more
    | .parenClose, 1 => source.extract start (offset + 1) :: pieces source 0 start more
    | .parenClose, _ => pieces source (depth - 1) start more
    | _, _ => pieces source depth start more

section
variable {source before s : List Char} {depth : Nat} {lexemes : List Lexeme}

end

structure Stands (source : List Char) (p : Placed) : Prop where
  inside : p.1 < source.length
  position : p.2.position.place = placeAt source p.1
  leads : p.2.kind.Leads (source.drop p.1)

structure Ended (source : List Char) (placed : List Placed) (last : Position) : Prop where
  position : last.place = placeAt source source.length
  behind : ∀ p ∈ placed, p.2.position.Before last

section
variable {source : List Char} {depth : Nat} {lexemes : List Lexeme}

end

end Switchboard.Source
