import MiniC.Decl.Basic
import MiniC.Expr.Read

/-!
# `MiniC.Decl.Read` — reading declarations

```text
declaration ::= qualifier* typeSpec declarator ("," declarator)* ";"
declarator  ::= stars identifier array? ("=" expression)?
array       ::= "[" (int | identifier) "]"
structDecl  ::= "struct" identifier "{" field* "}" ";"
field       ::= qualifier* typeSpec stars identifier array? ";"
header      ::= qualifier* typeSpec stars (identifier | "main") "(" params ")"
params      ::= ε | "void" | param ("," param)*
param       ::= qualifier* typeSpec stars identifier ("[" int? "]")?
```

Where a type specifier stands, `startsFunction` looks ahead whether a header or a declaration
begins.  A faulty field ends at the next recovery point, and the fields go on behind it.
-/

namespace MiniC

/-- Whether a token of the kind may name a function. -/
def Kind.namesFunction (kind : Kind) : Bool := kind == .ident || kind == .keyword .kwMain

namespace Cursor

/-! ## Variables -/

/-- Read the brackets behind a declared name, if there are any.  A named size is a constant that
a directive defines. -/
def arraySuffix (c : Cursor) : Parsed (Option ArraySuffix) c.size :=
  match c.take? (· == .punct .lbracket) with
  | none => .here none c
  | some taken =>
    taken.andThen fun opening c₁ _ =>
    (c₁.demand (fun kind => kind == .literal .int || kind == .ident) .arraySize).atMost.andThen
      fun size c₂ _ =>
    (c₂.expect (.punct .rbracket) .arraySizeEnd).atMost.map (some ⟨opening, size, ·⟩)

/-- Read an initial value, if there is one. -/
def initializer (c : Cursor) : Parsed (Option (Token × Expr)) c.size :=
  match c.take? (· == .operator .assign) with
  | none => .here none c
  | some taken =>
    taken.andThen fun sign c₁ _ => c₁.expression.atMost.map fun value => some (sign, value)

/-- Read one declared variable. -/
def declarator (c : Cursor) : Parsed Declarator c.size :=
  c.stars.parsed.andThen fun stars c₁ _ =>
  (c₁.identifier .declaredName).atMost.andThen fun name c₂ _ =>
  c₂.arraySuffix.andThen fun array c₃ _ =>
  c₃.initializer.map (⟨stars, name, array, ·⟩)

/-- Read a declaration of variables. -/
def declaration (c : Cursor) : Parsed Declaration c.residue :=
  c.qualifiers.before fun qualifiers c₁ =>
  c₁.typeSpec.andThen fun spec c₂ _ =>
  c₂.declarator.andThen fun first c₃ _ =>
  (c₃.commaSeparated declarator).andThen fun others c₄ _ =>
  (c₄.expect (.punct .semicolon) .declarationEnd).atMost.map
    (⟨qualifiers, spec, first, others, ·⟩)

/-! ## Structs -/

/-- Read a field of a struct. -/
def field (c : Cursor) : Parsed Field c.residue :=
  c.qualifiers.before fun qualifiers c₁ =>
  c₁.typeSpec.andThen fun spec c₂ _ =>
  c₂.stars.parsed.andThen fun stars c₃ _ =>
  (c₃.identifier .fieldName).atMost.andThen fun name c₄ _ =>
  c₄.arraySuffix.andThen fun array c₅ _ =>
  (c₅.expect (.punct .semicolon) .fieldEnd).atMost.map (⟨qualifiers, spec, stars, name, array, ·⟩)

/-- Read fields as long as declarations begin. -/
def fields (c : Cursor) : Parsed (List Field) c.size :=
  c.recovering Kind.startsDeclaration field

/-- Read the definition of a struct, if one begins here: `struct`, a name and a brace. -/
def structDecl? (c : Cursor) : Option (Parsed StructDecl c.residue) := do
  let keyword ← c.take? (· == .keyword .kwStruct)
  let name ← keyword.next.take? (· == .ident)
  let opening ← name.next.take? (· == .punct .lbrace)
  let definition :=
    opening.next.fields.andThen fun fields c₁ _ =>
    (c₁.expect (.punct .rbrace) .fieldsEnd).atMost.andThen fun closing c₂ _ =>
    (c₂.expect (.punct .semicolon) .structEnd).atMost.map
      (StructDecl.mk keyword.token name.token opening.token fields closing ·)
  some (keyword.opening (name.within (opening.within definition)))

/-! ## Functions -/

/-- Look past qualifiers, a type specifier and stars for a name and an opening parenthesis. -/
def startsFunction (ts : List Token) : Bool :=
  let typed := ts.dropWhile (·.kind.isQualifier)
  let starred : List Token :=
    match typed with
    | t :: rest =>
      if t.kind == .keyword .kwStruct then rest.drop 1 else typed.dropWhile (·.kind.isTypeWord)
    | [] => []
  match starred.dropWhile (·.kind == .operator .star) with
  | name :: opening :: _ => name.kind.namesFunction && opening.kind == .punct .lparen
  | _ => false

/-- Read the brackets behind the name of a parameter, if there are any. -/
def paramArray (c : Cursor) : Parsed (Option ParamArray) c.size :=
  match c.take? (· == .punct .lbracket) with
  | none => .here none c
  | some taken =>
    taken.andThen fun opening c₁ _ =>
    (c₁.optional (· == .literal .int)).andThen fun size c₂ _ =>
    (c₂.expect (.punct .rbracket) .arrayParameterEnd).atMost.map (some ⟨opening, size, ·⟩)

/-- Read a parameter. -/
def param (c : Cursor) : Parsed Param c.size :=
  c.qualifiers.parsed.andThen fun qualifiers c₁ _ =>
  c₁.typeSpec.atMost.andThen fun spec c₂ _ =>
  c₂.stars.parsed.andThen fun stars c₃ _ =>
  (c₃.identifier .parameterName).atMost.andThen fun name c₄ _ =>
  c₄.paramArray.map (⟨qualifiers, spec, stars, name, ·⟩)

/-- Read a `void` that stands right in front of a closing parenthesis. -/
def loneVoid? (c : Cursor) : Option (Taken c) := do
  let word ← c.take? (· == .keyword (.type .void))
  if word.next.sees (· == .punct .rparen) then some word else none

/-- A lone `void` is a `void` with a closing parenthesis behind it. -/
theorem loneVoid?_eq_some {c : Cursor} {taken : Taken c} :
    c.loneVoid? = some taken ↔
      c.take? (· == .keyword (.type .void)) = some taken ∧
        taken.next.sees (· == .punct .rparen) = true := by
  simp only [loneVoid?, Option.bind_eq_bind, Option.bind_eq_some_iff]
  constructor
  · rintro ⟨word, hword, hclosing⟩
    by_cases hsees : word.next.sees (· == .punct .rparen) = true
    · rw [if_pos hsees] at hclosing
      obtain rfl := Option.some.inj hclosing
      exact ⟨hword, hsees⟩
    · rw [if_neg hsees] at hclosing
      cases hclosing
  · rintro ⟨hword, hsees⟩
    exact ⟨taken, hword, if_pos hsees⟩

/-- Read what stands between the parentheses of a header.  A lone `void` stands for nothing. -/
def params (c : Cursor) : Parsed Params c.size :=
  if c.sees (· == .punct .rparen) then .here .none c
  else
    match c.loneVoid? with
    | some taken => taken.andThen fun word c₁ _ => .here (.void word) c₁
    | none =>
      c.param.andThen fun first c₁ _ =>
      (c₁.commaSeparated param).map (.list first ·)

/-- Read the header of a function. -/
def header (c : Cursor) : Parsed Header c.residue :=
  c.qualifiers.before fun qualifiers c₁ =>
  c₁.typeSpec.andThen fun spec c₂ _ =>
  c₂.stars.parsed.andThen fun stars c₃ _ =>
  (c₃.demand Kind.namesFunction .functionName).atMost.andThen fun name c₄ _ =>
  (c₄.expect (.punct .lparen) .parametersStart).atMost.andThen fun opening c₅ _ =>
  c₅.params.andThen fun params c₆ _ =>
  (c₆.expect (.punct .rparen) .parametersEnd).atMost.map
    (⟨qualifiers, spec, stars, name, opening, params, ·⟩)

end Cursor

end MiniC
