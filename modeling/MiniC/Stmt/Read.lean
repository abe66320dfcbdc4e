import MiniC.Decl.Read
import MiniC.Stmt.Basic

/-!
# `MiniC.Stmt.Read` — reading statements and programs

```text
program    ::= (structDecl | function | declaration | directive)*
function   ::= header (block | ";")
block      ::= "{" statement* "}"
statement  ::= structDecl | function | declaration | directive | ";" | block
             | "if" condition statement ("else" statement)?
             | "while" condition statement
             | "do" statement "while" condition ";"
             | "for" "(" (";" | declaration | assignment ";") expression? ";" assignment? ")"
               statement
             | "switch" "(" expression ")" "{" (label | statement)* "}"
             | "return" expression? ";" | ("break" | "continue") ";"
             | "printf" "(" expression ("," expression)* ")" ";"
             | "scanf" "(" string ("," expression)* ")" ";"
             | call ";" | assignment ";"
label      ::= "case" (int | char) ":" | "default" ":"
condition  ::= "(" expression ")"
assignment ::= ("++" | "--") place | place ("++" | "--" | operator expression)
place      ::= stars identifier access*
```

Every sequence of statements is a place of recovery: a faulty statement ends behind the next `;`
or `}`, and the sequence goes on there.
-/

namespace MiniC

/-- A variable that is named by a token, or missing. -/
def Slot.asVar : Slot → Expr
  | .found token => .var token
  | .missing hole => .missing hole

namespace Cursor

/-! ## Assignments -/

/-- Read something that can be written to. -/
def place (c : Cursor) : Parsed Place c.residue :=
  c.stars.before fun stars c₁ =>
  (c₁.identifier .assignmentTarget).andThen fun name c₂ _ =>
  (accesses name.asVar c₂).map (⟨stars, ·⟩)

/-- Read the operator that writes to `place`, and what it writes. -/
def writing (place : Place) (c : Cursor) : Parsed Assignment c.size :=
  match c.take? Kind.isStep with
  | some taken => taken.andThen fun operator c₁ _ => .here (.stepAfter place operator) c₁
  | none =>
    match c.take? (· == .operator .assign) with
    | some taken => taken.andThen fun sign c₁ _ => c₁.expression.atMost.map (.store place sign)
    | none =>
      match c.take? Kind.isUpdate with
      | some taken =>
        taken.andThen fun operator c₁ _ => c₁.expression.atMost.map (.update place operator)
      | none =>
        let name := (place.path.lead.map Token.lexeme).getD ""
        (c.lacking (.assignmentOperator name) (.missing place)).atMost

/-- Read an assignment, without a semicolon. -/
def assignment (c : Cursor) : Parsed Assignment c.residue :=
  match c.take? Kind.isStep with
  | some taken =>
    taken.opens fun operator c₁ _ => (c₁.place.map (.stepBefore operator)).atMost
  | none => c.place.andThen fun place c₁ _ => c₁.writing place

/-! ## Parts of control statements -/

/-- Read a condition in parentheses. -/
def condition (c : Cursor) (ruled : Ruled) : Parsed Condition c.residue :=
  (c.expect (.punct .lparen) (.conditionStart ruled)).andThen fun opening c₁ _ =>
  c₁.expression.atMost.andThen fun test c₂ _ =>
  (c₂.expect (.punct .rparen) .conditionEnd).atMost.map (⟨opening, test, ·⟩)

/-- Read the first part of the header of a `for`. -/
def forInit (c : Cursor) : Parsed ForInit c.size :=
  match c.take? (· == .punct .semicolon) with
  | some taken => taken.andThen fun semicolon c₁ _ => .here (.none semicolon) c₁
  | none =>
    if c.sees Kind.startsDeclaration then c.declaration.atMost.map .declaration
    else
      c.assignment.atMost.andThen fun assignment c₁ _ =>
      (c₁.expect (.punct .semicolon) .assignmentEnd).atMost.map (.assignment assignment)

/-- Read an expression, unless the mark that ends its part is already there. -/
def expressionUnless (c : Cursor) (mark : Kind) : Parsed (Option Expr) c.size :=
  if c.sees (· == mark) then .here none c else c.expression.atMost.map some

/-- Read an assignment, unless the mark that ends its part is already there. -/
def assignmentUnless (c : Cursor) (mark : Kind) : Parsed (Option Assignment) c.size :=
  if c.sees (· == mark) then .here none c else c.assignment.atMost.map some

/-! ## Simple statements -/

/-- Read what stands behind a `return`. -/
def exit (keyword : Token) (c : Cursor) : Parsed Stmt c.size :=
  match c.take? (· == .punct .semicolon) with
  | some taken => taken.andThen fun semicolon c₁ _ => .here (.exit keyword semicolon) c₁
  | none =>
    c.expression.atMost.andThen fun value c₁ _ =>
    (c₁.expect (.punct .semicolon) .returnEnd).atMost.map (.exitWith keyword value)

/-- Read what stands behind a `printf`. -/
def printf (name : Token) (c : Cursor) : Parsed Stmt c.size :=
  (c.expect (.punct .lparen) .printfStart).atMost.andThen fun opening c₁ _ =>
  c₁.expression.atMost.andThen fun format c₂ _ =>
  c₂.trail.andThen fun arguments c₃ _ =>
  (c₃.expect (.punct .rparen) .printfArgumentsEnd).atMost.andThen fun closing c₄ _ =>
  (c₄.expect (.punct .semicolon) .printfEnd).atMost.map
    (.printf name opening format arguments closing)

/-- Read what stands behind a `scanf`. -/
def scanf (name : Token) (c : Cursor) : Parsed Stmt c.size :=
  (c.expect (.punct .lparen) .scanfStart).atMost.andThen fun opening c₁ _ =>
  (c₁.expect (.literal .string) .scanfFormat).atMost.andThen fun format c₂ _ =>
  c₂.trail.andThen fun arguments c₃ _ =>
  (c₃.expect (.punct .rparen) .scanfArgumentsEnd).atMost.andThen fun closing c₄ _ =>
  (c₄.expect (.punct .semicolon) .scanfEnd).atMost.map
    (.scanf name opening format arguments closing)

/-- Read a call of `name` that stands as a statement, behind its opening parenthesis. -/
def callStatement (name opening : Token) (c : Cursor) : Parsed Stmt c.size :=
  (c.call name opening).atMost.andThen fun call c₁ _ =>
  (c₁.expect (.punct .semicolon) .callStatementEnd).atMost.map (.call call)

/-- Read an assignment that stands as a statement. -/
def assignmentStatement (c : Cursor) : Parsed Stmt c.residue :=
  c.assignment.andThen fun assignment c₁ _ =>
  (c₁.expect (.punct .semicolon) .assignmentEnd).atMost.map (.assignment assignment)

/-- Read a statement that begins with the identifier `name`. -/
def named (name : Token) (ts : List Token) : Parsed Stmt ts.length :=
  if name.lexeme = "printf" then (Cursor.reading ts).printf name
  else if name.lexeme = "scanf" then (Cursor.reading ts).scanf name
  else
    match (Cursor.reading ts).take? (· == .punct .lparen) with
    | some taken => taken.andThen fun opening c₁ _ => c₁.callStatement name opening
    | none => (Cursor.reading (name :: ts)).assignmentStatement

/-! ## Statements

The tokens that are unread decide whether a function begins or a declaration: `looks` is asked,
which is `startsFunction` unless it is told otherwise. -/

mutual

/-- Read a statement. -/
def statement (looks : List Token → Bool := startsFunction) (c : Cursor) : Parsed Stmt c.residue :=
  match c with
  | .reading (t :: ts) =>
    if t.kind.startsDeclaration then declared looks (.reading (t :: ts))
    else
      match t.kind with
      | .keyword .kwIf =>
        ((Cursor.reading ts).condition .ifElse).atMost.andThen fun condition c₁ _ =>
        (statement looks c₁).atMost.andThen fun body c₂ _ =>
        match c₂.take? (· == .keyword .kwElse) with
        | none => .here (.ifThen t condition body) c₂
        | some taken =>
          taken.andThen fun elseWord c₃ _ =>
          (statement looks c₃).atMost.map (.ifElse t condition body elseWord ·)
      | .keyword .kwWhile =>
        ((Cursor.reading ts).condition .whileLoop).atMost.andThen fun condition c₁ _ =>
        (statement looks c₁).atMost.map (.whileLoop t condition ·)
      | .keyword .kwDo =>
        (statement looks (.reading ts)).atMost.andThen fun body c₁ _ =>
        (c₁.expect (.keyword .kwWhile) .loopWord).atMost.andThen fun whileWord c₂ _ =>
        (c₂.condition .doWhile).atMost.andThen fun condition c₃ _ =>
        (c₃.expect (.punct .semicolon) .doWhileEnd).atMost.map
          (.doWhile t body whileWord condition ·)
      | .keyword .kwFor =>
        ((Cursor.reading ts).expect (.punct .lparen) .forStart).atMost.andThen
          fun opening c₁ _ =>
        c₁.forInit.andThen fun init c₂ _ =>
        (c₂.expressionUnless (.punct .semicolon)).andThen fun test c₃ _ =>
        (c₃.expect (.punct .semicolon) .forConditionEnd).atMost.andThen fun semicolon c₄ _ =>
        (c₄.assignmentUnless (.punct .rparen)).andThen fun update c₅ _ =>
        (c₅.expect (.punct .rparen) .forClausesEnd).atMost.andThen fun closing c₆ _ =>
        (statement looks c₆).atMost.map (.forLoop t opening init test semicolon update closing ·)
      | .keyword .kwSwitch =>
        ((Cursor.reading ts).expect (.punct .lparen) .switchStart).atMost.andThen
          fun opening c₁ _ =>
        c₁.expression.atMost.andThen fun subject c₂ _ =>
        (c₂.expect (.punct .rparen) .switchSubjectEnd).atMost.andThen fun closing c₃ _ =>
        (c₃.expect (.punct .lbrace) .switchBodyStart).atMost.andThen fun bodyStart c₄ _ =>
        (clauses looks c₄).andThen fun clauses c₅ _ =>
        (c₅.expect (.punct .rbrace) .switchBodyEnd).atMost.map
          (.switch t opening subject closing bodyStart clauses ·)
      | .keyword .kwReturn => (Cursor.reading ts).exit t
      | .keyword .kwBreak | .keyword .kwContinue =>
        ((Cursor.reading ts).expect (.punct .semicolon) (.jumpEnd t.lexeme)).atMost.map
          (.jump t)
      | .keyword .kwCase | .keyword .kwDefault =>
        (Cursor.reading (t :: ts)).lacking .switchAroundLabel .missing
      | .keyword .kwMain =>
        match (Cursor.reading ts).take? (· == .punct .lparen) with
        | some taken => taken.andThen fun opening c₁ _ => c₁.callStatement t opening
        | none => (Cursor.reading (t :: ts)).lacking .statement .missing
      | .punct .lbrace => block looks (.reading (t :: ts))
      | .punct .semicolon | .directive => .here (.blank t) (.reading ts)
      | .ident => named t ts
      | .operator .star | .operator .plusPlus | .operator .minusMinus =>
        (Cursor.reading (t :: ts)).assignmentStatement
      | _ => (Cursor.reading (t :: ts)).lacking .statement .missing
  | c => c.lacking .statement .missing
termination_by 8 * c.size + 5
decreasing_by
  all_goals
    simp only [size_reading, List.length_cons] at *
    omega

/-- Read a definition of a struct, a function or a declaration. -/
def declared (looks : List Token → Bool := startsFunction) (c : Cursor) : Parsed Stmt c.residue :=
  match c.structDecl? with
  | some definition => definition.map .struct
  | none => if looks c.unread then function looks c else c.declaration.map .declaration
termination_by 8 * c.size + 4

/-- Read a definition or a prototype of a function. -/
def function (looks : List Token → Bool := startsFunction) (c : Cursor) : Parsed Stmt c.residue :=
  have := c.residue_le_size
  c.header.andThen fun header c₁ _ =>
  match c₁.take? (· == .punct .semicolon) with
  | some taken => taken.andThen fun semicolon c₂ _ => .here (.prototype header semicolon) c₂
  | none => (block looks c₁).atMost.map (.function header ·)
termination_by 8 * c.size + 3

/-- Read a block. -/
def block (looks : List Token → Bool := startsFunction) (c : Cursor) : Parsed Stmt c.residue :=
  match c.take? (· == .punct .lbrace) with
  | none => c.lacking (.token (.punct .lbrace) .blockStart) .missing
  | some taken =>
    taken.opens fun opening c₁ _ =>
    (statements looks c₁).andThen fun body c₂ _ =>
    (c₂.expect (.punct .rbrace) .blockEnd).atMost.map (.block opening body ·)
termination_by 8 * c.size + 2

/-- Read statements up to a closing brace or the end. -/
def statements (looks : List Token → Bool := startsFunction) (c : Cursor) : Parsed Stmts c.size :=
  match c with
  | .reading (t :: ts) =>
    if t.kind == .punct .rbrace then .here .nil (.reading (t :: ts))
    else
      ((statement looks (.reading (t :: ts))).andThen fun first c₁ _ =>
        (statements looks c₁.mend).map (.cons first ·)).atMost
  | c => .here .nil c
termination_by 8 * c.size + 6
decreasing_by
  all_goals
    simp only [size_mend, size_reading, residue_cons, List.length_cons] at *
    omega

/-- Read the body of a switch up to a closing brace or the end. -/
def clauses (looks : List Token → Bool := startsFunction) (c : Cursor) : Parsed Clauses c.size :=
  match c with
  | .reading (t :: ts) =>
    match t.kind with
    | .punct .rbrace => .here .nil (.reading (t :: ts))
    | .keyword .kwCase =>
      (((Cursor.reading ts).demand (fun kind => kind == .literal .int || kind == .literal .char)
          .caseConstant).atMost.andThen fun value c₁ _ =>
        (c₁.expect (.punct .colon) .caseValueEnd).atMost.andThen fun colon c₂ _ =>
        (clauses looks c₂.mend).map (.case t value colon ·)).weaken (Nat.le_succ _)
    | .keyword .kwDefault =>
      (((Cursor.reading ts).expect (.punct .colon) .defaultEnd).atMost.andThen fun colon c₁ _ =>
        (clauses looks c₁.mend).map (.default t colon ·)).weaken (Nat.le_succ _)
    | _ =>
      ((statement looks (.reading (t :: ts))).andThen fun first c₁ _ =>
        (clauses looks c₁.mend).map (.stmt first ·)).atMost
  | c => .here .nil c
termination_by 8 * c.size + 6
decreasing_by
  all_goals
    simp only [size_mend, size_reading, residue_cons, List.length_cons] at *
    omega

end

/-! ## Programs -/

/-- Read a part of a program at global scope. -/
def item (looks : List Token → Bool := startsFunction) (c : Cursor) : Parsed Stmt c.residue :=
  match c with
  | .reading (t :: ts) =>
    if t.kind == .directive then .here (.blank t) (.reading ts)
    else if t.kind.startsDeclaration then (Cursor.reading (t :: ts)).declared looks
    else (Cursor.reading (t :: ts)).lacking .declaration .missing
  | c => c.lacking .declaration .missing

/-- Read the parts of a program to the end. -/
def items (looks : List Token → Bool := startsFunction) (c : Cursor) :
    Parsed (List Stmt) c.size :=
  c.recovering (fun _ => true) (item looks)

end Cursor

end MiniC
