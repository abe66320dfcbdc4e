import MiniC.Syntax.TypeSpec

/-!
# `MiniC.Expr.Basic` — the syntax trees of expressions

A tree keeps every token it was read from, so a part of it has a place to be complained about.
Where the text does not go on as the grammar asks, the tree has a hole.

## Contents
- `Tier`: the levels of the binary operators; `Access`: the two ways to a member.
- `Expr` and `Trail`, the arguments behind the first.
- `Expr.lead`: the first token of an expression.
-/

namespace MiniC

/-- The levels of the binary operators, the loosest first. -/
inductive Tier
  | logical | relational | additive | multiplicative
deriving DecidableEq, Repr

/-- How many levels bind tighter. -/
def Tier.rank : Tier → Nat
  | logical => 3
  | relational => 2
  | additive => 1
  | multiplicative => 0

@[simp] theorem Tier.rank_logical : rank .logical = 3 := rfl

@[simp] theorem Tier.rank_relational : rank .relational = 2 := rfl

@[simp] theorem Tier.rank_additive : rank .additive = 1 := rfl

@[simp] theorem Tier.rank_multiplicative : rank .multiplicative = 0 := rfl

theorem Tier.rank_le (tier : Tier) : tier.rank ≤ 3 := by
  cases tier <;> decide

/-- The kinds of the operators of a level. -/
def Tier.has : Tier → Kind → Bool
  | logical, .operator o => o ∈ [.andAnd, .orOr]
  | relational, .operator o =>
      o ∈ [.equal, .notEqual, .less, .lessEqual, .greater, .greaterEqual]
  | additive, .operator o => o ∈ [.plus, .minus]
  | multiplicative, .operator o => o ∈ [.star, .slash, .percent]
  | _, _ => false

/-- How a member is reached: of a struct at hand, or through a pointer. -/
inductive Access
  | direct | through
deriving DecidableEq, Repr

/-- How a member is reached by an operator of the kind. -/
def Kind.access? : Kind → Option Access
  | punct .dot => some .direct
  | punct .arrow => some .through
  | _ => none

mutual
/-- An expression. -/
inductive Expr
  | literal (class_ : Literal) (token : Token)
  | var (name : Token)
  | emptyCall (name opening : Token) (closing : Slot)
  | call (name opening : Token) (first : Expr) (others : Trail) (closing : Slot)
  | deref (star : Token) (operand : Expr)
  | address (ampersand : Token) (operand : Expr)
  /-- The operators in front of a number: `!`, `-`, `++` and `--`. -/
  | unary (operator : Token) (operand : Expr)
  /-- `++` or `--` behind a variable. -/
  | stepped (operand : Expr) (operator : Token)
  | index (base : Expr) (opening : Token) (subscript : Expr) (closing : Slot)
  | member (base : Expr) (access : Access) (operator : Token) (field : Slot)
  | binary (tier : Tier) (left : Expr) (operator : Token) (right : Expr)
  | conditional (condition : Expr) (question : Token) (first : Expr) (colon : Slot)
      (second : Expr)
  | group (opening : Token) (inner : Expr) (closing : Slot)
  | sizeofType (keyword : Token) (opening : Slot) (spec : TypeSpec) (stars : List Token)
      (closing : Slot)
  | sizeofExpr (keyword : Token) (opening : Slot) (operand : Expr) (closing : Slot)
  | missing (hole : Hole)

/-- Arguments, each behind a comma. -/
inductive Trail
  | nil
  | cons (comma : Token) (argument : Expr) (rest : Trail)
end

deriving instance DecidableEq for Expr, Trail

/-- The first token of an expression. -/
def Expr.lead : Expr → Option Token
  | literal _ token => token
  | var name => name
  | emptyCall name _ _ => name
  | call name _ _ _ _ => name
  | deref star _ => star
  | address ampersand _ => ampersand
  | unary operator _ => operator
  | stepped operand _ => operand.lead
  | index base _ _ _ => base.lead
  | member base _ _ _ => base.lead
  | binary _ left _ _ => left.lead
  | conditional condition _ _ _ _ => condition.lead
  | group opening _ _ => opening
  | sizeofType keyword _ _ _ _ => keyword
  | sizeofExpr keyword _ _ _ => keyword
  | missing hole => hole.found?

end MiniC
