import MiniC.Expr.Read

/-!
# `MiniC.Proofs.Expression.Trees` — the trees that the grammar of expressions allows

A tree of the grammar is one without holes whose tokens are of the kinds that its form asks for,
and whose parts bind tightly enough for where they stand.  How tightly is told by levels: an
element binds tightest, then an element with a subscript behind it, the operators tier by tier,
and last the conditional.

Accesses and steps go with the element they stand behind.  An access chain can only stand behind
a variable or a group, and there it takes every subscript; so a subscript belongs to a whole
element only if that element has no chain at its end.  A step can only stand behind a variable
with its chain.

## Contents
- `tokens`: the text of a tree, token by token.
- `Expr.level`, `isPath`, `isRooted`, `takesStep`, `endsInPath`: what may stand where.
- `Expr.Grammatical`: **the trees of the grammar.**
-/

namespace MiniC

/-! ## Tokens -/

/-- The token of a slot, if there is one. -/
def Slot.tokens : Slot → List Token
  | found token => [token]
  | missing _ => []

/-- The tokens of a type specifier. -/
def TypeSpec.tokens : TypeSpec → List Token
  | words first rest => first :: rest
  | struct keyword name => keyword :: name.tokens
  | missing _ => []

mutual

/-- The tokens of an expression, in the order of the text. -/
def Expr.tokens : Expr → List Token
  | .literal _ token => [token]
  | .var name => [name]
  | .emptyCall name opening closing => name :: opening :: closing.tokens
  | .call name opening first others closing =>
      name :: opening :: (first.tokens ++ (others.tokens ++ closing.tokens))
  | .deref star operand => star :: operand.tokens
  | .address ampersand operand => ampersand :: operand.tokens
  | .unary operator operand => operator :: operand.tokens
  | .stepped operand operator => operand.tokens ++ [operator]
  | .index base opening subscript closing =>
      base.tokens ++ opening :: (subscript.tokens ++ closing.tokens)
  | .member base _ operator field => base.tokens ++ operator :: field.tokens
  | .binary _ left operator right => left.tokens ++ operator :: right.tokens
  | .conditional condition question first colon second =>
      condition.tokens ++ question :: (first.tokens ++ (colon.tokens ++ second.tokens))
  | .group opening inner closing => opening :: (inner.tokens ++ closing.tokens)
  | .sizeofType keyword opening spec stars closing =>
      keyword :: (opening.tokens ++ (spec.tokens ++ (stars ++ closing.tokens)))
  | .sizeofExpr keyword opening operand closing =>
      keyword :: (opening.tokens ++ (operand.tokens ++ closing.tokens))
  | .missing _ => []

/-- The tokens of arguments, with their commas. -/
def Trail.tokens : Trail → List Token
  | .nil => []
  | .cons comma argument rest => comma :: (argument.tokens ++ rest.tokens)

end

/-! ## Levels -/

/-- The level of the operations of a tier. -/
def Tier.level (tier : Tier) : Nat := tier.rank + 2

namespace Expr

/-- Whether the expression is a variable or a group with accesses behind it. -/
def isPath : Expr → Bool
  | var _ => true
  | group _ _ _ => true
  | index base _ _ _ => base.isPath
  | member base _ _ _ => base.isPath
  | _ => false

/-- Whether the expression is a variable with accesses behind it. -/
def isRooted : Expr → Bool
  | var _ => true
  | index base _ _ _ => base.isRooted
  | member base _ _ _ => base.isRooted
  | _ => false

/-- Whether a step may stand behind the expression. -/
def takesStep : Expr → Bool
  | stepped _ _ => true
  | e => e.isRooted

/-- Whether an access behind the expression would go with a chain at its end. -/
def endsInPath : Expr → Bool
  | deref _ operand => operand.endsInPath
  | address _ operand => operand.endsInPath
  | unary _ operand => operand.endsInPath
  | e => e.isPath

/-- How loosely the expression binds: 0 for an element, 1 for an element with a subscript behind
it, then the levels of the tiers, and 6 for a conditional. -/
def level : Expr → Nat
  | index base _ _ _ => if base.isPath then 0 else 1
  | binary tier _ _ _ => tier.level
  | conditional _ _ _ _ _ => 6
  | _ => 0

end Expr

/-! ## The trees of the grammar -/

/-- Whether the slot is filled with a token of the kind. -/
def Slot.Holds (slot : Slot) (kind : Kind) : Prop := ∃ t, slot = .found t ∧ t.kind = kind

/-- Whether the operator may stand in front of a number. -/
def Kind.isSign (kind : Kind) : Bool :=
  kind == .operator .bang || kind == .operator .minus || kind.isStep

/-- Whether the type specifier is one of the grammar. -/
def TypeSpec.Grammatical : TypeSpec → Prop
  | words first rest => first.kind.isTypeWord = true ∧ ∀ t ∈ rest, t.kind.isTypeWord = true
  | struct keyword name => keyword.kind = .keyword .kwStruct ∧ name.Holds .ident
  | missing _ => False

/-- Whether a subscript behind the expression is one of it: a chain goes on, or an element that
does not end in a chain is complete. -/
def Expr.TakesSubscript (base : Expr) : Prop :=
  base.isPath = true ∨ base.level = 0 ∧ base.endsInPath = false

mutual

/-- Whether the expression is a tree of the grammar. -/
def Expr.Grammatical : Expr → Prop
  | .literal class_ token => token.kind = .literal class_
  | .var name => name.kind = .ident
  | .emptyCall name opening closing =>
      (name.kind = .ident ∨ name.kind = .keyword .kwMain) ∧ opening.kind = .punct .lparen ∧
        closing.Holds (.punct .rparen)
  | .call name opening first others closing =>
      (name.kind = .ident ∨ name.kind = .keyword .kwMain) ∧ opening.kind = .punct .lparen ∧
        first.Grammatical ∧ others.Grammatical ∧ closing.Holds (.punct .rparen)
  | .deref star operand =>
      star.kind = .operator .star ∧ operand.level = 0 ∧ operand.Grammatical
  | .address ampersand operand =>
      ampersand.kind = .operator .amp ∧ operand.level = 0 ∧ operand.Grammatical
  | .unary operator operand =>
      operator.kind.isSign = true ∧ operand.level = 0 ∧ operand.Grammatical
  | .stepped operand operator =>
      operator.kind.isStep = true ∧ operand.takesStep = true ∧ operand.Grammatical
  | .index base opening subscript closing =>
      base.TakesSubscript ∧ base.Grammatical ∧ opening.kind = .punct .lbracket ∧
        subscript.Grammatical ∧ closing.Holds (.punct .rbracket)
  | .member base access operator field =>
      base.isPath = true ∧ base.Grammatical ∧ operator.kind.access? = some access ∧
        field.Holds .ident
  | .binary tier left operator right =>
      left.level ≤ tier.level ∧ left.Grammatical ∧ tier.has operator.kind = true ∧
        right.level < tier.level ∧ right.Grammatical
  | .conditional condition question first colon second =>
      condition.level < 6 ∧ condition.Grammatical ∧ question.kind = .punct .question ∧
        first.Grammatical ∧ colon.Holds (.punct .colon) ∧ second.Grammatical
  | .group opening inner closing =>
      opening.kind = .punct .lparen ∧ inner.Grammatical ∧ closing.Holds (.punct .rparen)
  | .sizeofType keyword opening spec stars closing =>
      keyword.kind = .keyword .kwSizeof ∧ opening.Holds (.punct .lparen) ∧ spec.Grammatical ∧
        (∀ star ∈ stars, star.kind = .operator .star) ∧ closing.Holds (.punct .rparen)
  | .sizeofExpr keyword opening operand closing =>
      keyword.kind = .keyword .kwSizeof ∧ opening.Holds (.punct .lparen) ∧
        operand.Grammatical ∧ closing.Holds (.punct .rparen)
  | .missing _ => False

/-- Whether the arguments are trees of the grammar. -/
def Trail.Grammatical : Trail → Prop
  | .nil => True
  | .cons comma argument rest =>
      comma.kind = .punct .comma ∧ argument.Grammatical ∧ rest.Grammatical

end

end MiniC
