import MiniC.Expr.Basic

/-!
# `MiniC.Expr.Read` — reading expressions

One reader per level of the grammar.  A reader that goes down a level keeps its cursor, and one
that goes back up to `expression` has taken a token before, so the recursion ends.

```text
expression     ::= logical ("?" expression ":" expression)?
logical        ::= relational (("&&" | "||") relational)*
relational     ::= additive (("==" | "!=" | "<" | "<=" | ">" | ">=") additive)*
additive       ::= multiplicative (("+" | "-") multiplicative)*
multiplicative ::= factor (("*" | "/" | "%") factor)*
factor         ::= element ("[" expression "]")?
element        ::= ("*" | "&" | "!" | "-" | "++" | "--") element
                 | (identifier | "main") "(" (expression ("," expression)*)? ")"
                 | identifier access* ("++" | "--")*
                 | literal
                 | "(" expression ")" access*
                 | "sizeof" "(" (typeSpec stars | expression) ")"
access         ::= "[" expression "]" | "." identifier | "->" identifier
```
-/

namespace MiniC

namespace Cursor

mutual

/-- Read an expression. -/
def expression (c : Cursor) : Parsed Expr c.residue :=
  have := c.residue_le_size
  (operation .logical c).andThen fun condition c₁ _ =>
  match c₁.take? (· == .punct .question) with
  | none => .here condition c₁
  | some taken =>
    taken.andThen fun question c₂ _ =>
    (expression c₂).atMost.andThen fun first c₃ _ =>
    (c₃.expect (.punct .colon) .ternaryColon).atMost.andThen fun colon c₄ _ =>
    (expression c₄).atMost.map (.conditional condition question first colon ·)
termination_by 16 * c.size + 10

/-- Read operands of one level and the operators between them. -/
def operation (tier : Tier) (c : Cursor) : Parsed Expr c.residue :=
  have := c.residue_le_size
  (operand tier c).andThen fun first c₁ _ => operations tier first c₁
termination_by 16 * c.size + 2 * tier.rank + 3

/-- Read one operand of a level: an operation of the next tighter one. -/
def operand (tier : Tier) (c : Cursor) : Parsed Expr c.residue :=
  match tier with
  | .logical => operation .relational c
  | .relational => operation .additive c
  | .additive => operation .multiplicative c
  | .multiplicative => factor c
termination_by 16 * c.size + 2 * tier.rank + 2

/-- Read the operators of a level that follow `left`, with their right operands. -/
def operations (tier : Tier) (left : Expr) (c : Cursor) : Parsed Expr c.size :=
  match c.take? tier.has with
  | none => .here left c
  | some taken =>
    have := tier.rank_le
    taken.andThen fun operator c₁ _ =>
    (operand tier c₁).atMost.andThen fun right c₂ _ =>
    operations tier (.binary tier left operator right) c₂
termination_by 16 * c.size + 2

/-- Read an element, and a subscript behind it. -/
def factor (c : Cursor) : Parsed Expr c.residue :=
  have := c.residue_le_size
  (element c).andThen fun base c₁ _ =>
  match c₁.take? (· == .punct .lbracket) with
  | none => .here base c₁
  | some taken => taken.andThen fun opening c₂ _ => (subscript base opening c₂).atMost
termination_by 16 * c.size + 1

/-- Read what stands behind the opening bracket of a subscript of `base`. -/
def subscript (base : Expr) (opening : Token) (c : Cursor) : Parsed Expr c.residue :=
  (expression c).andThen fun index c₁ _ =>
  (c₁.expect (.punct .rbracket) .indexEnd).atMost.map (.index base opening index ·)
termination_by 16 * c.size + 11

/-- Read the subscripts and member accesses that follow `base`. -/
def accesses (base : Expr) (c : Cursor) : Parsed Expr c.size :=
  match c.take? (· == .punct .lbracket) with
  | some taken =>
    taken.andThen fun opening c₁ _ =>
    (subscript base opening c₁).atMost.andThen fun base c₂ _ => accesses base c₂
  | none =>
    match c.take? (·.access?.isSome) with
    | none => .here base c
    | some taken =>
      taken.andThen fun operator c₁ _ =>
      (c₁.identifier .memberName).atMost.andThen fun field c₂ _ =>
      accesses (.member base (operator.kind.access?.getD .direct) operator field) c₂
termination_by 16 * c.size + 12

/-- Read what stands behind the opening parenthesis of a call of `name`. -/
def call (name opening : Token) (c : Cursor) : Parsed Expr c.residue :=
  if c.sees (· == .punct .rparen) then
    (c.expect (.punct .rparen) .argumentsEnd).map (.emptyCall name opening ·)
  else
    have := c.residue_le_size
    (expression c).andThen fun first c₁ _ =>
    (trail c₁).andThen fun others c₂ _ =>
    (c₂.expect (.punct .rparen) .argumentsEnd).atMost.map (.call name opening first others ·)
termination_by 16 * c.size + 12

/-- Read arguments that each follow a comma. -/
def trail (c : Cursor) : Parsed Trail c.size :=
  match c.take? (· == .punct .comma) with
  | none => .here .nil c
  | some taken =>
    taken.andThen fun comma c₁ _ =>
    (expression c₁).atMost.andThen fun argument c₂ _ => (trail c₂).map (.cons comma argument ·)
termination_by 16 * c.size + 11

/-- Read the operand of a `sizeof`, in its parentheses. -/
def sizeofOperand (keyword : Token) (c : Cursor) : Parsed Expr c.residue :=
  have := c.residue_le_size
  (c.expect (.punct .lparen) .sizeofStart).andThen fun opening c₁ _ =>
  if c₁.sees Kind.startsTypeSpec then
    c₁.typeSpec.atMost.andThen fun spec c₂ _ =>
    c₂.stars.parsed.andThen fun stars c₃ _ =>
    (c₃.expect (.punct .rparen) .sizeofEnd).atMost.map (.sizeofType keyword opening spec stars ·)
  else
    (expression c₁).atMost.andThen fun operand c₂ _ =>
    (c₂.expect (.punct .rparen) .sizeofEnd).atMost.map (.sizeofExpr keyword opening operand ·)
termination_by 16 * c.size + 12

/-- Read a variable, a literal, a call, a group, `sizeof`, or an operator in front of an
element. -/
def element (c : Cursor) : Parsed Expr c.residue :=
  match c with
  | .reading (t :: ts) =>
    have := size_reading ts
    match t.kind with
    | .operator .star => (element (.reading ts)).atMost.map (.deref t)
    | .operator .amp => (element (.reading ts)).atMost.map (.address t)
    | .operator .bang | .operator .minus | .operator .plusPlus | .operator .minusMinus =>
      (element (.reading ts)).atMost.map (.unary t)
    | .keyword .kwSizeof => (sizeofOperand t (.reading ts)).atMost
    | .literal class_ => .here (.literal class_ t) (.reading ts)
    | .punct .lparen =>
      (expression (.reading ts)).atMost.andThen fun inner c₁ _ =>
      (c₁.expect (.punct .rparen) .groupEnd).atMost.andThen fun closing c₂ _ =>
      accesses (.group t inner closing) c₂
    | .ident =>
      match (Cursor.reading ts).take? (· == .punct .lparen) with
      | some taken => taken.andThen fun opening c₁ _ => (call t opening c₁).atMost
      | none =>
        (accesses (.var t) (.reading ts)).andThen fun path c₁ _ =>
        (c₁.takeWhile Kind.isStep).parsed.map (·.foldl .stepped path)
    | .keyword .kwMain =>
      match (Cursor.reading ts).take? (· == .punct .lparen) with
      | some taken => taken.andThen fun opening c₁ _ => (call t opening c₁).atMost
      | none => (Cursor.reading (t :: ts)).lacking .expression .missing
    | _ => (Cursor.reading (t :: ts)).lacking .expression .missing
  | c => c.lacking .expression .missing
termination_by 16 * c.size

end

end Cursor

end MiniC
