/-!
# `MiniC.CType` — types, promotion and assignment compatibility

A type is a base, a number of pointer levels and at most one array level.  The type `unknown`
stands for the type of an expression that was already complained about: every check lets it pass,
so one mistake is reported once.

The arithmetic bases are ordered `char < short < int < long < float < double`.  Arithmetic on two
numbers has the type of the higher one, and a number may be stored where a number of equal or
higher rank is expected.

## Contents
- `BaseType`, `CType` and their texts.
- `rank?` and the classes `isNumeric`, `isIntegral`, `isFloating`.
- The level operations `withPointer`, `withArray`, `deref?`, `element?`, `addressOf`, `decayed`.
- `accepts`: what may be stored where; `promote`: the type of an arithmetic operation.
-/

namespace MiniC

/-- The bases of types. -/
inductive BaseType
  | void | char | short | int | long | float | double
  | struct (name : String)
  | unknown
deriving DecidableEq, Repr, Inhabited

namespace BaseType

/-- The place of an arithmetic base in the order of promotion. -/
def rank? : BaseType → Option Nat
  | char => some 0
  | short => some 1
  | int => some 2
  | long => some 3
  | float => some 4
  | double => some 5
  | void | struct _ | unknown => none

/-- The base as it stands in a message. -/
def describe : BaseType → String
  | void => "void"
  | char => "char"
  | short => "short"
  | int => "int"
  | long => "long"
  | float => "float"
  | double => "double"
  | struct name => s!"struct {name}"
  | unknown => "<unknown>"

end BaseType

/-- A base with pointer levels below and perhaps an array level on top. -/
structure CType where
  base : BaseType
  pointers : Nat
  isArray : Bool
deriving DecidableEq, Repr, Inhabited

namespace CType

/-- A base without pointer and array levels. -/
def plain (base : BaseType) : CType := ⟨base, 0, false⟩

/-- The type of what was already complained about. -/
def unknown : CType := plain .unknown

/-- The type of truth values and sizes. -/
def int : CType := plain .int

/-! ## Levels -/

/-- A pointer to the type. -/
def withPointer (t : CType) : CType := { t with pointers := t.pointers + 1 }

/-- An array of the type. -/
def withArray (t : CType) : CType := { t with isArray := true }

/-- What a pointer points to. -/
def deref? (t : CType) : Option CType :=
  if t.pointers = 0 then none else some { t with pointers := t.pointers - 1 }

/-- What an index selects from: an element of an array, or what a pointer points to. -/
def element? (t : CType) : Option CType :=
  if t.isArray then some { t with isArray := false } else t.deref?

/-- An array as a pointer to its first element. -/
def decayed (t : CType) : CType :=
  if t.isArray then ⟨t.base, t.pointers + 1, false⟩ else t

/-- The type of an address.  The address of an array is that of its first element. -/
def addressOf (t : CType) : CType :=
  if t.isArray then t.decayed else t.withPointer

/-! ## Classes -/

/-- Whether the base of the type is unknown. -/
def isUnknown (t : CType) : Bool := t.base == .unknown

/-- Whether the type has a pointer level. -/
def isPointer (t : CType) : Bool := t.pointers != 0

/-- Whether the type has neither a pointer level nor an array level. -/
def isScalar (t : CType) : Bool := t.pointers == 0 && !t.isArray

/-- Whether the type is plain `void`. -/
def isVoid (t : CType) : Bool := t.base == .void && t.isScalar

/-- The place of a numeric type in the order of promotion. -/
def rank? (t : CType) : Option Nat := if t.isScalar then t.base.rank? else none

/-- Whether the type is an arithmetic one. -/
def isNumeric (t : CType) : Bool := t.rank?.isSome

/-- Whether the type is that of whole numbers. -/
def isIntegral (t : CType) : Bool := t.rank?.any (· ≤ 3)

/-- Whether the type is `float` or `double`. -/
def isFloating (t : CType) : Bool := t.rank?.any (4 ≤ ·)

/-- The struct that a value of the type is, if it is one. -/
def structName? (t : CType) : Option String :=
  match t.base with
  | .struct name => if t.isScalar then some name else none
  | _ => none

/-- Whether the type is `void*`. -/
def isVoidPointer (t : CType) : Bool := t.base == .void && t.pointers == 1

/-! ## Compatibility and promotion -/

/-- Whether two types without array levels are compatible as pointers: they are the same, or both
are pointers and one of them is `void*`. -/
def pointerCompatible (target source : CType) : Bool :=
  target == source ||
    (target.isPointer && source.isPointer && (target.isVoidPointer || source.isVoidPointer))

/-- Whether a value of type `source` may be stored where `target` is expected. -/
def accepts (target source : CType) : Bool :=
  if target.isUnknown || source.isUnknown || target == source then true
  else
    match target.rank?, source.rank? with
    | some high, some low => low ≤ high
    | _, _ => target.decayed.pointerCompatible source.decayed

/-- The type of an arithmetic operation: that of the operand of higher rank, and unknown unless
both are numbers. -/
def promote (left right : CType) : CType :=
  match left.rank?, right.rank? with
  | some l, some r => if r ≤ l then left else right
  | _, _ => unknown

/-! ## Text -/

/-- The type as it stands in a message: the base, a star for each pointer level, and `[]` for an
array level. -/
def describe (t : CType) : String :=
  t.base.describe ++ String.ofList (List.replicate t.pointers '*') ++
    (if t.isArray then "[]" else "")

end CType

end MiniC
