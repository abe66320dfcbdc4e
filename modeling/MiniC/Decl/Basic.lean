import MiniC.Expr.Basic

/-!
# `MiniC.Decl.Basic` — the syntax trees of declarations

Declarations of variables, definitions of structs, and the headers of functions, with every token
they were read from.
-/

namespace MiniC

/-! ## Variables -/

/-- The brackets behind a declared name. -/
structure ArraySuffix where
  opening : Token
  size : Slot
  closing : Slot
deriving DecidableEq, Repr

/-- One variable of a declaration, and its initial value behind a `=`. -/
structure Declarator where
  stars : List Token
  name : Slot
  array : Option ArraySuffix
  init : Option (Token × Expr)
deriving DecidableEq

/-- A declaration of one or more variables. -/
structure Declaration where
  qualifiers : List Token
  spec : TypeSpec
  first : Declarator
  others : List (Token × Declarator)
  semicolon : Slot
deriving DecidableEq

/-! ## Structs -/

/-- One field of a struct. -/
structure Field where
  qualifiers : List Token
  spec : TypeSpec
  stars : List Token
  name : Slot
  array : Option ArraySuffix
  semicolon : Slot
deriving DecidableEq, Repr

/-- A definition of a struct. -/
structure StructDecl where
  keyword : Token
  name : Token
  opening : Token
  fields : List Field
  closing : Slot
  semicolon : Slot
deriving DecidableEq, Repr

/-! ## Functions -/

/-- The brackets behind the name of a parameter; they may be empty. -/
structure ParamArray where
  opening : Token
  size : Option Token
  closing : Slot
deriving DecidableEq, Repr

/-- One parameter of a function. -/
structure Param where
  qualifiers : List Token
  spec : TypeSpec
  stars : List Token
  name : Slot
  array : Option ParamArray
deriving DecidableEq, Repr

/-- What stands between the parentheses of a header. -/
inductive Params
  | none
  | void (word : Token)
  | list (first : Param) (others : List (Token × Param))
deriving DecidableEq, Repr

/-- The header of a function, up to its closing parenthesis. -/
structure Header where
  qualifiers : List Token
  spec : TypeSpec
  stars : List Token
  name : Slot
  opening : Slot
  params : Params
  closing : Slot
deriving DecidableEq, Repr

end MiniC
