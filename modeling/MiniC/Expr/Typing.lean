import MiniC.Check.Finding
import MiniC.Expr.Basic

/-!
# `MiniC.Expr.Typing` — the types of expressions

An expression is typed under the symbols in force; it declares nothing.  A part that breaks a rule
is reported and gets the type `unknown`, which every rule further out lets pass.

## Contents
- `TypeSpec.resolve`: the base type that a type specifier names.
- One function per rule: `dereference`, `numericOperand`, `arithmetic`, `compared`, `indexed`,
  `memberType`, `callType`.
- `Expr.typing`: the type of an expression, from the types of its parts.
-/

namespace MiniC

/-! ## Type specifiers -/

/-- The base type that a run of type words stands for.  The signs make no difference. -/
def BaseType.ofWords (words : List TypeWord) : BaseType :=
  if .void ∈ words then .void
  else if .double ∈ words then .double
  else if .float ∈ words then .float
  else if .char ∈ words then .char
  else if .short ∈ words then .short
  else if .long ∈ words then .long
  else .int

/-- The type word that a token is. -/
def Token.typeWord? (token : Token) : Option TypeWord :=
  match token.kind with
  | .keyword (.type word) => some word
  | _ => none

/-- The base type that a type specifier names.  A struct has to be declared before, or be the one
whose fields are being declared. -/
def TypeSpec.resolve (σ : Symbols) (enclosing : Option String) : TypeSpec → Finding BaseType
  | words first rest => pure (.ofWords ((first :: rest).filterMap Token.typeWord?))
  | struct _ name => do
      let name ← name.get
      let known := (σ.struct? name.lexeme).isSome || enclosing == some name.lexeme
      Finding.complain known (.undeclaredStruct name.lexeme) name
      pure (.struct name.lexeme)
  | missing hole => .stop hole

/-- A pointer with a level for each star. -/
def CType.withStars (t : CType) (stars : List Token) : CType :=
  stars.foldl (fun t _ => t.withPointer) t

theorem CType.base_withStars (t : CType) (stars : List Token) :
    (t.withStars stars).base = t.base := by
  unfold withStars
  induction stars generalizing t with
  | nil => rfl
  | cons star stars ih => exact ih t.withPointer

/-! ## Rules -/

/-- The type of a literal. -/
def CType.ofLiteral : Literal → CType
  | .int => .int
  | .float => .plain .float
  | .char => .plain .char
  | .string => (CType.plain .char).withPointer

/-- What the operator `*` yields. -/
def dereference (t : CType) (star : Token) : Finding CType :=
  if t.isUnknown then pure t
  else
    match t.decayed.deref? with
    | some target => pure target
    | none => do
        Finding.report (.notDereferenceable t) star
        pure .unknown

/-- What an operator on one number yields. -/
def numericOperand (operator : Token) (t : CType) : Finding CType :=
  if Need.numeric.mayBeMet t then pure t
  else do
    Finding.report (.operandNotNumeric operator.lexeme t) operator
    pure .unknown

/-- What an operator on two operands yields if its result is a number of their kind. -/
def arithmetic (operator : Token) (left right : CType) : Finding CType :=
  let need := if operator.kind == .operator .percent then Need.integer else Need.numeric
  if left.isUnknown || right.isUnknown then pure .unknown
  else if need.isMet left && need.isMet right then pure (left.promote right)
  else do
    Finding.report (.operands operator.lexeme need left right) operator
    pure .unknown

/-- What an operator on two operands yields if its result is a truth value. -/
def compared (need : Need) (operator : Token) (left right : CType) : Finding CType := do
  Finding.complain (need.mayBeMet left && need.mayBeMet right)
    (.operands operator.lexeme need left right) operator
  pure .int

/-- What a binary operator yields. -/
def operated (tier : Tier) (operator : Token) (left right : CType) : Finding CType :=
  match tier with
  | .logical => compared .integer operator left right
  | .relational => compared .numeric operator left right
  | .additive | .multiplicative => arithmetic operator left right

/-- What a subscript yields. -/
def indexed (opening : Token) (base index : CType) (indexSite : Option Token) :
    Finding CType := do
  Finding.complain (Need.integer.mayBeMet index) (.indexNotInteger index) indexSite
  if base.isUnknown then pure base
  else
    match base.element? with
    | some element => pure element
    | none => do
        Finding.report (.notSubscriptable base) opening
        pure .unknown

/-- The type of a field of a value.  A struct that is not declared was complained about where its
name was written. -/
def fieldType (σ : Symbols) (target : CType) (field : Token) : Finding CType :=
  match target.structName? with
  | none => do
      Finding.report (.memberOfNonStruct field.lexeme target) field
      pure .unknown
  | some name =>
    match σ.struct? name with
    | none => pure .unknown
    | some struct =>
      match struct.field? field.lexeme with
      | some type => pure type
      | none => do
          Finding.report (.noSuchField name field.lexeme) field
          pure .unknown

/-- What a member access yields. -/
def memberType (σ : Symbols) (access : Access) (operator : Token) (base : CType) (field : Token) :
    Finding CType :=
  if base.isUnknown then pure base
  else
    match access with
    | .through =>
      match base.decayed.deref? with
      | some target => fieldType σ target field
      | none => do
          Finding.report (.arrowOnNonPointer base) operator
          pure .unknown
    | .direct =>
      if base.isPointer then do
        Finding.report (.dotOnPointer base) operator
        pure .unknown
      else fieldType σ base field

/-! ## Calls -/

/-- An argument of a call: its type, and where it begins. -/
structure Argument where
  type : CType
  site : Option Token
deriving DecidableEq, Repr

/-- The functions that may be called without a declaration. -/
def builtins : List String := ["printf", "scanf"]

/-- Check arguments against parameters, the first of them at `position`. -/
def checkArguments (function : String) (position : Nat) :
    List Parameter → List Argument → Finding Unit
  | parameter :: parameters, argument :: arguments => do
      Finding.complain (parameter.type.accepts argument.type)
        (.argumentType position function parameter.type argument.type) argument.site
      checkArguments function (position + 1) parameters arguments
  | _, _ => pure ()

/-- What a call yields, given the finding on its arguments.  An undeclared function is reported
before its arguments are looked at, all else after the closing parenthesis. -/
def callType (σ : Symbols) (name : Token) (arguments : Finding (List Argument))
    (closing : Slot) : Finding CType :=
  if name.lexeme ∈ builtins then do
    let _ ← arguments
    closing.require
    pure .int
  else
    match σ.function? name.lexeme with
    | none => do
        Finding.report (.undeclaredFunction name.lexeme) name
        let _ ← arguments
        closing.require
        pure .unknown
    | some function => do
        let given ← arguments
        closing.require
        Finding.complain (given.length == function.parameters.length)
          (.argumentCount function.name function.parameters.length given.length) name
        checkArguments function.name 1 function.parameters given
        pure function.returns

/-! ## Expressions -/

mutual

/-- The type of an expression. -/
def Expr.typing (σ : Symbols) : Expr → Finding CType
  | .literal class_ _ => pure (.ofLiteral class_)
  | .var name =>
    match σ.var? name.lexeme with
    | some v => pure v.type
    | none => do
        Finding.report (.undeclaredVariable name.lexeme) name
        pure .unknown
  | .emptyCall name _ closing => callType σ name (pure []) closing
  | .call name _ first others closing =>
    let arguments := do
      let type ← first.typing σ
      let rest ← others.typing σ
      pure (⟨type, first.lead⟩ :: rest)
    callType σ name arguments closing
  | .deref star operand => do
      let type ← operand.typing σ
      dereference type star
  | .address _ operand => do
      let type ← operand.typing σ
      pure (if type.isUnknown then type else type.addressOf)
  | .unary operator operand => do
      let type ← operand.typing σ
      numericOperand operator type
  | .stepped operand operator => do
      let type ← operand.typing σ
      numericOperand operator type
  | .index base opening subscript closing => do
      let baseType ← base.typing σ
      let indexType ← subscript.typing σ
      closing.require
      indexed opening baseType indexType subscript.lead
  | .member base access operator field => do
      let baseType ← base.typing σ
      let field ← field.get
      memberType σ access operator baseType field
  | .binary tier left operator right => do
      let leftType ← left.typing σ
      let rightType ← right.typing σ
      operated tier operator leftType rightType
  | .conditional condition _ first colon second => do
      let _ ← condition.typing σ
      let firstType ← first.typing σ
      colon.require
      let secondType ← second.typing σ
      Finding.complain (firstType.accepts secondType) (.branches firstType secondType)
        second.lead
      pure firstType
  | .group _ inner closing => do
      let type ← inner.typing σ
      closing.require
      pure type
  | .sizeofType _ opening spec _ closing => do
      opening.require
      let _ ← spec.resolve σ none
      closing.require
      pure .int
  | .sizeofExpr _ opening operand closing => do
      opening.require
      let _ ← operand.typing σ
      closing.require
      pure .int
  | .missing hole => .stop hole

/-- The types of arguments. -/
def Trail.typing (σ : Symbols) : Trail → Finding (List Argument)
  | .nil => pure []
  | .cons _ argument rest => do
      let type ← argument.typing σ
      let others ← rest.typing σ
      pure (⟨type, argument.lead⟩ :: others)

end

end MiniC
