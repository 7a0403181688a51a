namespace Switchboard.Source

-- The counts have 32 bits; one that grows beyond them begins again at zero.
structure Position where
  line : UInt32 := 1
  column : UInt32 := 1
deriving DecidableEq, Repr, Inhabited

instance countOfNat : Coe Nat UInt32 := ⟨UInt32.ofNat⟩
instance natOfCount : Coe UInt32 Nat := ⟨UInt32.toNat⟩

namespace Position

def advance (p : Position) (c : Char) : Position :=
  if c = '\n' then ⟨p.line + 1, 1⟩ else ⟨p.line, p.column + 1⟩

def advanceAll (p : Position) (cs : List Char) : Position :=
  cs.foldl advance p

def render (p : Position) : String :=
  toString p.line ++ ":" ++ toString p.column

theorem advanceAll_append (p : Position) (first second : List Char) :
    p.advanceAll (first ++ second) = (p.advanceAll first).advanceAll second := by
  simp [advanceAll]

end Position
end Switchboard.Source
