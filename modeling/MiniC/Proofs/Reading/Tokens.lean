import MiniC.Proofs.Expression.Trees
import MiniC.Stmt.Basic

/-!
# `MiniC.Proofs.Reading.Tokens` — the text of declarations and statements

A tree keeps every token it was read from, and so has a text: its tokens in order.  A hole has no
text.

## Contents
- `tokens` of every kind of tree, up to `Stmts.tokens`.
-/

namespace MiniC

/-! ## Declarations -/

/-- The tokens of the brackets behind a declared name. -/
def ArraySuffix.tokens (suffix : ArraySuffix) : List Token :=
  suffix.opening :: (suffix.size.tokens ++ suffix.closing.tokens)

/-- The tokens of an initial value, with the sign in front of it. -/
def initTokens (init : Option (Token × Expr)) : List Token :=
  init.elim [] fun init => init.1 :: init.2.tokens

/-- The tokens of a declared variable. -/
def Declarator.tokens (d : Declarator) : List Token :=
  d.stars ++ (d.name.tokens ++ (d.array.elim [] ArraySuffix.tokens ++ initTokens d.init))

/-- The tokens of a declaration. -/
def Declaration.tokens (d : Declaration) : List Token :=
  d.qualifiers ++ (d.spec.tokens ++ (d.first.tokens ++
    ((d.others.flatMap fun other => other.1 :: other.2.tokens) ++ d.semicolon.tokens)))

/-- The tokens of a field. -/
def Field.tokens (f : Field) : List Token :=
  f.qualifiers ++ (f.spec.tokens ++ (f.stars ++ (f.name.tokens ++
    (f.array.elim [] ArraySuffix.tokens ++ f.semicolon.tokens))))

/-- The tokens of the definition of a struct. -/
def StructDecl.tokens (s : StructDecl) : List Token :=
  s.keyword :: s.name :: s.opening :: (s.fields.flatMap Field.tokens ++
    (s.closing.tokens ++ s.semicolon.tokens))

/-- The tokens of the brackets behind the name of a parameter. -/
def ParamArray.tokens (array : ParamArray) : List Token :=
  array.opening :: (array.size.toList ++ array.closing.tokens)

/-- The tokens of a parameter. -/
def Param.tokens (p : Param) : List Token :=
  p.qualifiers ++ (p.spec.tokens ++ (p.stars ++ (p.name.tokens ++
    p.array.elim [] ParamArray.tokens)))

/-- The tokens of parameters. -/
def Params.tokens : Params → List Token
  | none => []
  | void word => [word]
  | list first others => first.tokens ++ others.flatMap fun other => other.1 :: other.2.tokens

/-- The tokens of a header in front of its parameter list. -/
def Header.typeTokens (h : Header) : List Token :=
  h.qualifiers ++ (h.spec.tokens ++ (h.stars ++ h.name.tokens))

/-- The tokens of a header. -/
def Header.tokens (h : Header) : List Token :=
  h.typeTokens ++ (h.opening.tokens ++ (h.params.tokens ++ h.closing.tokens))

/-! ## Parts of statements -/

/-- The tokens of something that can be written to. -/
def Place.tokens (p : Place) : List Token := p.stars ++ p.path.tokens

/-- The tokens of an assignment. -/
def Assignment.tokens : Assignment → List Token
  | stepBefore operator place => operator :: place.tokens
  | stepAfter place operator => place.tokens ++ [operator]
  | store place sign value => place.tokens ++ sign :: value.tokens
  | update place operator value => place.tokens ++ operator :: value.tokens
  | missing place _ => place.tokens

/-- The tokens of a condition. -/
def Condition.tokens (c : Condition) : List Token :=
  c.opening.tokens ++ (c.test.tokens ++ c.closing.tokens)

/-- The tokens of the first part of the header of a `for`. -/
def ForInit.tokens : ForInit → List Token
  | none semicolon => [semicolon]
  | declaration d => d.tokens
  | assignment a semicolon => a.tokens ++ semicolon.tokens

/-! ## Statements -/

mutual

/-- The tokens of a statement. -/
def Stmt.tokens : Stmt → List Token
  | .blank token => [token]
  | .struct definition => definition.tokens
  | .declaration d => d.tokens
  | .prototype header semicolon => header.tokens ++ [semicolon]
  | .function header body => header.tokens ++ body.tokens
  | .ifThen keyword condition body => keyword :: (condition.tokens ++ body.tokens)
  | .ifElse keyword condition body elseWord alternative =>
      keyword :: (condition.tokens ++ (body.tokens ++ elseWord :: alternative.tokens))
  | .whileLoop keyword condition body => keyword :: (condition.tokens ++ body.tokens)
  | .doWhile keyword body whileWord condition semicolon =>
      keyword :: (body.tokens ++ (whileWord.tokens ++ (condition.tokens ++ semicolon.tokens)))
  | .forLoop keyword opening init test semicolon update closing body =>
      keyword :: (opening.tokens ++ (init.tokens ++ (test.elim [] Expr.tokens ++
        (semicolon.tokens ++ (update.elim [] Assignment.tokens ++
          (closing.tokens ++ body.tokens))))))
  | .switch keyword opening subject closing bodyStart clauses bodyEnd =>
      keyword :: (opening.tokens ++ (subject.tokens ++ (closing.tokens ++
        (bodyStart.tokens ++ (clauses.tokens ++ bodyEnd.tokens)))))
  | .exit keyword semicolon => [keyword, semicolon]
  | .exitWith keyword value semicolon => keyword :: (value.tokens ++ semicolon.tokens)
  | .jump keyword semicolon => keyword :: semicolon.tokens
  | .block opening body closing => opening :: (body.tokens ++ closing.tokens)
  | .call call semicolon => call.tokens ++ semicolon.tokens
  | .printf name opening format arguments closing semicolon =>
      name :: (opening.tokens ++ (format.tokens ++ (arguments.tokens ++
        (closing.tokens ++ semicolon.tokens))))
  | .scanf name opening format arguments closing semicolon =>
      name :: (opening.tokens ++ (format.tokens ++ (arguments.tokens ++
        (closing.tokens ++ semicolon.tokens))))
  | .assignment a semicolon => a.tokens ++ semicolon.tokens
  | .missing _ => []

/-- The tokens of statements. -/
def Stmts.tokens : Stmts → List Token
  | .nil => []
  | .cons first rest => first.tokens ++ rest.tokens

/-- The tokens of the body of a switch. -/
def Clauses.tokens : Clauses → List Token
  | .nil => []
  | .case keyword value colon rest =>
      keyword :: (value.tokens ++ (colon.tokens ++ rest.tokens))
  | .default keyword colon rest => keyword :: (colon.tokens ++ rest.tokens)
  | .stmt first rest => first.tokens ++ rest.tokens

end

end MiniC
