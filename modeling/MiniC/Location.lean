/-!
# `MiniC.Location` — places in a source text

A place is a line and a column, both counted from 1.  Every character takes one column, whatever
its width, and only a line feed begins a new line.
-/

namespace MiniC

/-- A line and a column of a source text, both counted from 1. -/
structure Location where
  line : Nat
  column : Nat
deriving DecidableEq, Repr, Inhabited

namespace Location

/-- Where every text begins. -/
def start : Location := ⟨1, 1⟩

/-- The place behind the character `c` that stands at `place`. -/
def step (place : Location) (c : Char) : Location :=
  if c = '\n' then ⟨place.line + 1, 1⟩ else ⟨place.line, place.column + 1⟩

/-- The place behind a text that begins at `place`. -/
def advance (place : Location) (text : List Char) : Location :=
  text.foldl step place

@[simp] theorem advance_nil (place : Location) : place.advance [] = place := rfl

@[simp] theorem advance_cons (place : Location) (c : Char) (text : List Char) :
    place.advance (c :: text) = (place.step c).advance text := rfl

/-- Walking over two texts is walking over one and then over the other. -/
theorem advance_append (place : Location) (first second : List Char) :
    place.advance (first ++ second) = (place.advance first).advance second := by
  simp [advance]

/-- The place as it stands in a message. -/
def describe (place : Location) : String :=
  s!"line {place.line}, column {place.column}"

end Location

end MiniC
