import MiniC.CType

/-!
# `MiniC.Format` — format strings of `printf` and `scanf`

A format string is plain text with conversion specifiers in it: a percent sign, any run of
modifiers, and the character of a conversion.  Two percent signs stand for one and take no
argument.

## Contents
- `Conversion`, `acceptsValue`, `acceptsTarget`: what a conversion takes when printing and reading.
- `FormatSpec.ofText`: the specifiers of a format string, or why it is refused.
-/

namespace MiniC

/-- What a conversion converts. -/
inductive Conversion
  | integer | char | floating | string | pointer
deriving DecidableEq, Repr

namespace Conversion

/-- The conversion that a specifier ending in `c` asks for. -/
def ofChar? (c : Char) : Option Conversion :=
  if c ∈ ['d', 'i', 'u', 'o', 'x', 'X'] then some integer
  else if c = 'c' then some char
  else if c ∈ ['f', 'F', 'e', 'E', 'g', 'G'] then some floating
  else if c = 's' then some string
  else if c = 'p' then some pointer
  else none

/-- The conversion in a message. -/
def describe : Conversion → String
  | integer => "integer"
  | char => "character"
  | floating => "floating-point"
  | string => "string"
  | pointer => "pointer"

/-- Whether a value of type `t` may be printed by the conversion. -/
def acceptsValue (conversion : Conversion) (t : CType) : Bool :=
  t.isUnknown ||
    match conversion with
    | integer | char => t.isIntegral
    | floating => t.isFloating
    | string => t.decayed.base == .char && t.decayed.pointers == 1
    | pointer => t.decayed.isPointer

/-- Whether the conversion may read into a variable of type `target`. -/
def acceptsTarget (conversion : Conversion) (target : CType) : Bool :=
  target.isUnknown ||
    match conversion with
    | integer => target.isIntegral
    | char | string => target == .plain .char
    | floating => target.isFloating
    | pointer => target.isPointer

end Conversion

/-- A conversion specifier and the text it is written with. -/
structure FormatSpec where
  conversion : Conversion
  text : String
deriving DecidableEq, Repr

/-- Why a format string is refused. -/
inductive FormatError
  | unknownConversion (text : String)
  | incomplete (text : String)
deriving DecidableEq, Repr

/-- What a message says about the refused format string. -/
def FormatError.message : FormatError → String
  | unknownConversion text => s!"unknown conversion '{text}'"
  | incomplete text => s!"incomplete conversion '{text}' at end of format"

namespace FormatSpec

/-- Whether `c` may stand between the percent sign and the conversion character. -/
def isModifier (c : Char) : Bool :=
  c.isDigit || c ∈ ['-', '+', ' ', '#', '.', 'h', 'l', 'L']

/-- The specifiers of a format text, in order. -/
def ofChars : List Char → Except FormatError (List FormatSpec)
  | [] => .ok []
  | '%' :: '%' :: rest => ofChars rest
  | '%' :: behind =>
    let modifiers := behind.takeWhile isModifier
    match h : behind.dropWhile isModifier with
    | [] => .error (.incomplete (.ofList ('%' :: modifiers)))
    | c :: rest =>
      let text := String.ofList ('%' :: modifiers ++ [c])
      match Conversion.ofChar? c with
      | none => .error (.unknownConversion text)
      | some conversion =>
        have shorter : rest.length < behind.length := by
          have hle : (behind.dropWhile isModifier).length ≤ behind.length :=
            (List.dropWhile_suffix isModifier).length_le
          rw [h] at hle
          exact hle
        (ofChars rest).map (⟨conversion, text⟩ :: ·)
  | _ :: rest => ofChars rest
termination_by text => text.length
decreasing_by all_goals simp only [List.length_cons]; omega

/-- The specifiers of a format string, in order, or what is wrong with the first bad one. -/
def ofText (text : String) : Except FormatError (List FormatSpec) := ofChars text.toList

end FormatSpec

end MiniC
