import MiniC.Decl.Read
import MiniC.Proofs.Grammar.Form

/-!
# `MiniC.Proofs.Grammar.Plan` — how the grammar is read

A plan is a form with decisions: at every choice and repetition it says which shapes must lie
ahead for the first alternative, or for one more part, to be tried.  No decision looks further
than three tokens ahead, but for the one that tells a function from a variable.  A plan also says
where reading recovers from a fault.

## Contents
- Decisions: `sees`, `seesStruct`, `seesFunction`, `seesHeader`, `seesCall`.
- `Plan`, `Rule.plan`: the plan of each rule.
- `find_statement_of_kind`, `find_statement_of_builtin`, …: which statement is tried, told from
  the token that it begins with.
- `Plan.form`, with `form_plan`: **without its decisions, the plan of a rule is its form.**
-/

namespace MiniC

/-! ## Decisions -/

/-- The shapes of tokens. -/
abbrev shapes (ts : List Token) : List Shape := ts.map Token.shape

/-- Whether a token of a kind that satisfies `p` lies ahead. -/
def sees (p : Kind → Bool) (ahead : List Shape) : Bool := ahead.head?.any (p ·.kind)

@[simp] theorem sees_nil (p : Kind → Bool) : sees p [] = false := rfl

@[simp] theorem sees_cons (p : Kind → Bool) (shape : Shape) (ahead : List Shape) :
    sees p (shape :: ahead) = p shape.kind := rfl

/-- Whether no token of the kind lies ahead. -/
def seesNo (kind : Kind) (ahead : List Shape) : Bool := !sees (· == kind) ahead

/-- Whether an identifier that names a built-in call lies ahead. -/
def seesBuiltin (call : FormatCall) (ahead : List Shape) : Bool :=
  ahead.head?.any (·.builtin == some call)

/-- Whether a struct is defined ahead: `struct`, a name and a brace. -/
def seesStruct : List Shape → Bool
  | word :: name :: opening :: _ =>
      word.kind == .keyword .kwStruct && name.kind == .ident && opening.kind == .punct .lbrace
  | _ => false

/-- Whether a name and a parenthesis lie ahead, behind all that may stand in front of the name of
a function. -/
def seesFunction (ahead : List Shape) : Bool :=
  Cursor.startsFunction (ahead.map fun shape => ⟨shape.kind, "", .start⟩)

/-- Whether the header of a function lies ahead. -/
def seesHeader (ahead : List Shape) : Bool :=
  sees Kind.startsDeclaration ahead && seesFunction ahead

/-- Whether a function is called ahead: a name and a parenthesis. -/
def seesCall : List Shape → Bool
  | name :: opening :: _ => name.kind.namesFunction && opening.kind == .punct .lparen
  | _ => false

/-- Whether a lone `void` lies ahead: the word and a closing parenthesis. -/
def seesLoneVoid : List Shape → Bool
  | word :: closing :: _ =>
      word.kind == .keyword (.type .void) && closing.kind == .punct .rparen
  | _ => false

/-- Whether the kind opens an element of an access chain. -/
def Kind.opensAccess (kind : Kind) : Bool := kind == .punct .lbracket || kind.access?.isSome

/-- Whether a statement may begin with the kind. -/
def Kind.opensStatement (kind : Kind) : Bool :=
  kind.startsDeclaration || kind.namesFunction || kind == .operator .star || kind.isStep ||
    kind ∈ [.keyword .kwIf, .keyword .kwWhile, .keyword .kwDo, .keyword .kwFor,
      .keyword .kwSwitch, .keyword .kwReturn, .keyword .kwBreak, .keyword .kwContinue,
      .punct .lbrace, .punct .semicolon, .directive]

section

variable {t : Token} {ts : List Token}

theorem not_seesStruct_of_kind (h : t.kind ≠ .keyword .kwStruct) :
    seesStruct (shapes (t :: ts)) = false := by
  match ts with
  | [] => rfl
  | [_] => rfl
  | _ :: _ :: _ => simp [seesStruct, h]

theorem not_seesHeader_of_kind (h : t.kind.startsDeclaration = false) :
    seesHeader (shapes (t :: ts)) = false := by
  simp [seesHeader, h]

theorem not_seesCall (h : sees (· == .punct .lparen) (shapes ts) = false) :
    seesCall (t.shape :: shapes ts) = false := by
  cases ts with
  | nil => rfl
  | cons opening ts =>
      have hopening : (opening.kind == .punct .lparen) = false := h
      simp [seesCall, hopening]

theorem not_seesCall_of_kind (h : t.kind.namesFunction = false) :
    seesCall (t.shape :: shapes ts) = false := by
  cases ts <;> simp [seesCall, h]

theorem builtin_shape (h : t.kind ≠ .ident) : t.shape.builtin = none := if_neg h

end

/-! ## Plans -/

/-- How a part of a program is read. -/
inductive Plan
  | empty
  | token (p : Shape → Bool)
  | rule (n : Rule)
  | seq (first second : Plan)
  /-- The first alternative if `ahead` holds of what lies ahead, else the second. -/
  | choice (ahead : List Shape → Bool) (first second : Plan)
  /-- Parts as long as `ahead` holds of what lies ahead. -/
  | many (ahead : List Shape → Bool) (part : Plan)
  /-- The same, but behind a faulty part reading goes on at the recovery point. -/
  | recover (ahead : List Shape → Bool) (part : Plan)
  | barring (p : Shape → Bool) (part : Plan)

namespace Plan

/-- A plan without its decisions. -/
def form : Plan → Form
  | empty => .empty
  | token p => .token p
  | rule n => .rule n
  | seq first second => .seq first.form second.form
  | choice _ first second => .choice first.form second.form
  | many _ part => .many part.form
  | recover _ part => .many part.form
  | barring p part => .barring p part.form

/-- A token of a kind that satisfies `p`. -/
def kind (p : Kind → Bool) : Plan := token (p ·.kind)

/-- A keyword. -/
def word (k : Keyword) : Plan := kind (· == .keyword k)

/-- An operator. -/
def sign (o : Operator) : Plan := kind (· == .operator o)

/-- A punctuation mark. -/
def mark (m : Punct) : Plan := kind (· == .punct m)

/-- A literal. -/
def literal (class_ : Literal) : Plan := kind (· == .literal class_)

/-- An identifier. -/
def ident : Plan := kind (· == .ident)

/-- A part that is there if `ahead` holds of what lies ahead. -/
def opt (ahead : List Shape → Bool) (part : Plan) : Plan := choice ahead part empty

/-- Tokens as long as their kinds satisfy `p`. -/
def run (p : Kind → Bool) : Plan := many (sees p) (kind p)

/-- Parts, each of which follows a token that satisfies `separator`. -/
def further (part : Plan) (separator : Kind → Bool) : Plan :=
  many (sees separator) (seq (kind separator) part)

/-- One part or more, with tokens that satisfy `separator` in between. -/
def list (part : Plan) (separator : Kind → Bool) : Plan := seq part (further part separator)

/-- One part or more, with commas in between. -/
def commaList (part : Plan) : Plan := list part (· == .punct .comma)

/-- The first alternative whose condition holds of what lies ahead. -/
def select (default : Plan) : List ((List Shape → Bool) × Plan) → Plan
  | [] => default
  | (ahead, part) :: rest => choice ahead part (select default rest)

/-- The operands of a level. -/
def operand : Tier → Plan
  | .logical => rule (.operation .relational)
  | .relational => rule (.operation .additive)
  | .additive => rule (.operation .multiplicative)
  | .multiplicative => rule .factor

/-- Elements of an access chain. -/
def accesses : Plan := many (sees Kind.opensAccess) (rule .accessChain)

/-- The call of a function as a statement. -/
def callStatement : Plan :=
  barring (·.builtin.isSome) (seq (rule .functionCall) (mark .semicolon))

/-- An assignment as a statement. -/
def assignmentStatement : Plan :=
  barring (·.builtin.isSome) (seq (rule .assignment) (mark .semicolon))

/-- The statements, and what must lie ahead for each to be tried. -/
def statements : List ((List Shape → Bool) × Plan) :=
  [(seesStruct, rule .structDecl), (seesHeader, rule .functionDecl),
    (sees Kind.startsDeclaration, rule .declaration),
    (sees (· == .keyword .kwIf), rule .ifElse),
    (sees (· == .keyword .kwWhile), rule .whileLoop),
    (sees (· == .keyword .kwDo), rule .doWhile),
    (sees (· == .keyword .kwFor), rule .forLoop),
    (sees (· == .keyword .kwSwitch), rule .switch),
    (seesBuiltin .printf, rule .printf), (seesBuiltin .scanf, rule .scanf),
    (sees (· == .keyword .kwReturn), rule .exit),
    (sees (· == .keyword .kwBreak), seq (word .kwBreak) (mark .semicolon)),
    (sees (· == .keyword .kwContinue), seq (word .kwContinue) (mark .semicolon)),
    (seesCall, callStatement),
    (sees fun k => k == .ident || k == .operator .star || k.isStep, assignmentStatement),
    (sees (· == .punct .lbrace), rule .block),
    (sees (· == .punct .semicolon), mark .semicolon)]

/-- What a statement may write, behind the place it writes to. -/
def writing : Plan :=
  choice (sees Kind.isAssign) (seq (kind Kind.isAssign) (rule .expression)) (kind Kind.isStep)

/-- What stands in front of the name of a function, of a field or of a parameter. -/
def typed (behind : Plan) : Plan :=
  seq (run Kind.isQualifier) <| seq (rule .typeSpec) <| seq (run (· == .operator .star)) behind

/-- A function up to the closing parenthesis of its header. -/
def header (behind : Plan) : Plan :=
  typed <| seq (kind Kind.namesFunction) <| seq (mark .lparen) <|
    seq (opt (seesNo (.punct .rparen)) (rule .params)) <| seq (mark .rparen) behind

/-- A condition in parentheses. -/
def condition (behind : Plan) : Plan :=
  seq (mark .lparen) <| seq (rule .expression) <| seq (mark .rparen) behind

/-- The brackets behind the name of a parameter, if there are any. -/
def paramArray : Plan :=
  opt (sees (· == .punct .lbracket)) <|
    seq (mark .lbracket) <|
      seq (opt (sees (· == .literal .int)) (literal .int)) (mark .rbracket)

/-- An initial value, if there is one. -/
def initializer : Plan :=
  opt (sees (· == .operator .assign)) (seq (sign .assign) (rule .expression))

/-- What stands behind the opening parenthesis of a call. -/
def callEnd : Plan :=
  seq (opt (seesNo (.punct .rparen)) (commaList (rule .expression))) (mark .rparen)

/-- The operand of a `sizeof`, in its parentheses. -/
def sizeofOperand : Plan :=
  seq (mark .lparen) <|
    seq (choice (sees Kind.startsTypeSpec) (seq (rule .typeSpec) (run (· == .operator .star)))
      (rule .expression)) (mark .rparen)

/-- An expression in brackets. -/
def subscript : Plan := seq (mark .lbracket) (seq (rule .expression) (mark .rbracket))

/-- A variable, and what is reached from it. -/
def nameChain : Plan := seq ident (seq accesses (run Kind.isStep))

/-- An expression in parentheses, and what is reached from it. -/
def groupChain : Plan :=
  seq (mark .lparen) (seq (rule .expression) (seq (mark .rparen) accesses))

/-- An element that begins neither with an operator nor with a call. -/
def plainElement : Plan :=
  choice (sees (· == .ident)) nameChain <|
  choice (sees Kind.isLiteral) (kind Kind.isLiteral) <|
  choice (sees (· == .punct .lparen)) groupChain (seq (word .kwSizeof) sizeofOperand)

/-- The first part of the header of a `for`. -/
def forInit : Plan :=
  choice (sees (· == .punct .semicolon)) (mark .semicolon) <|
    choice (sees Kind.startsDeclaration) (rule .declaration)
      (seq (rule .assignment) (mark .semicolon))

/-- A part of a program at global scope. -/
def item : Plan :=
  select (kind (· == .directive))
    [(seesStruct, rule .structDecl), (seesHeader, rule .functionDecl),
      (sees Kind.startsDeclaration, rule .declaration)]

/-- A label or a statement in the body of a switch. -/
def clause : Plan :=
  choice (sees (· == .keyword .kwCase)) (seq (word .kwCase)
    (seq (choice (sees (· == .literal .int)) (literal .int) (literal .char)) (mark .colon))) <|
  choice (sees (· == .keyword .kwDefault)) (seq (word .kwDefault) (mark .colon))
    (rule .statement)

end Plan

open Plan in
/-- The statement that a token of the kind opens, whatever stands behind it. -/
def Kind.statement? : Kind → Option Plan
  | keyword .kwIf => some (rule .ifElse)
  | keyword .kwWhile => some (rule .whileLoop)
  | keyword .kwDo => some (rule .doWhile)
  | keyword .kwFor => some (rule .forLoop)
  | keyword .kwSwitch => some (rule .switch)
  | keyword .kwReturn => some (rule .exit)
  | keyword .kwBreak => some (seq (word .kwBreak) (mark .semicolon))
  | keyword .kwContinue => some (seq (word .kwContinue) (mark .semicolon))
  | operator .star => some assignmentStatement
  | operator .plusPlus => some assignmentStatement
  | operator .minusMinus => some assignmentStatement
  | punct .lbrace => some (rule .block)
  | punct .semicolon => some (mark .semicolon)
  | _ => none

/-- The statement that a built-in call opens. -/
def FormatCall.rule : FormatCall → Rule
  | printf => .printf
  | scanf => .scanf

/-! ## Which statement is tried -/

section

variable {t : Token} {ts : List Token}

/-- Which statement is tried when no declaration begins. -/
theorem find_statement (h : t.kind.startsDeclaration = false) :
    Plan.statements.find? (·.1 (shapes (t :: ts))) =
      (Plan.statements.drop 3).find? (·.1 (shapes (t :: ts))) := by
  have hstruct : t.kind ≠ .keyword .kwStruct := by
    intro hkind
    rw [hkind] at h
    cases h
  have hno : seesStruct (shapes (t :: ts)) = false := not_seesStruct_of_kind hstruct
  have hno' : seesHeader (shapes (t :: ts)) = false := not_seesHeader_of_kind h
  simp only [shapes, List.map_cons] at hno hno'
  simp [Plan.statements, hno, hno', h]

theorem find_statement_of_kind {P : Plan} (h : t.kind.statement? = some P) :
    (Plan.statements.find? (·.1 (shapes (t :: ts)))).map Prod.snd = some P := by
  unfold Kind.statement? at h
  split at h
  case h_14 => cases h
  all_goals
    next hkind =>
      cases h
      have hfree : t.shape.builtin = none := builtin_shape (by simp [hkind])
      have hcall : seesCall (t.shape :: shapes ts) = false :=
        not_seesCall_of_kind (by rw [hkind]; rfl)
      rw [find_statement (by rw [hkind]; rfl)]
      simp [Plan.statements, hkind, hfree, hcall, seesBuiltin, Kind.isStep]

theorem find_statement_of_builtin {call : FormatCall} (h : t.shape.builtin = some call) :
    (Plan.statements.find? (·.1 (shapes (t :: ts)))).map Prod.snd = some (.rule call.rule) := by
  have hkind : t.kind = .ident := Decidable.byContradiction fun hkind => by
    rw [builtin_shape hkind] at h
    cases h
  rw [find_statement (by rw [hkind]; rfl)]
  cases call <;> simp [Plan.statements, hkind, h, seesBuiltin, FormatCall.rule]

theorem find_statement_of_call (hname : t.kind.namesFunction = true)
    (hfree : t.shape.builtin = none) (hcall : seesCall (shapes (t :: ts)) = true) :
    (Plan.statements.find? (·.1 (shapes (t :: ts)))).map Prod.snd = some .callStatement := by
  have hcall' : seesCall (t.shape :: shapes ts) = true := hcall
  simp only [Kind.namesFunction, Bool.or_eq_true, beq_iff_eq] at hname
  rcases hname with hkind | hkind <;>
  · rw [find_statement (by rw [hkind]; rfl)]
    simp [Plan.statements, hkind, hfree, hcall', seesBuiltin]

theorem find_statement_of_name (hkind : t.kind = .ident) (hfree : t.shape.builtin = none)
    (hcall : seesCall (shapes (t :: ts)) = false) :
    (Plan.statements.find? (·.1 (shapes (t :: ts)))).map Prod.snd =
      some .assignmentStatement := by
  have hcall' : seesCall (t.shape :: shapes ts) = false := hcall
  rw [find_statement (by rw [hkind]; rfl)]
  simp [Plan.statements, hkind, hfree, hcall', seesBuiltin]

theorem find_statement_of_directive (hkind : t.kind = .directive) :
    Plan.statements.find? (·.1 (shapes (t :: ts))) = none := by
  have hfree : t.shape.builtin = none := builtin_shape (by simp [hkind])
  have hcall : seesCall (t.shape :: shapes ts) = false :=
    not_seesCall_of_kind (by rw [hkind]; rfl)
  rw [find_statement (by rw [hkind]; rfl)]
  simp [Plan.statements, hkind, hfree, hcall, seesBuiltin, Kind.isStep]

end

open Plan in
/-- How each rule is read. -/
def Rule.plan : Rule → Plan
  | program => recover (sees fun _ => true) item
  | structDecl =>
      seq (word .kwStruct) <| seq ident <| seq (mark .lbrace) <|
        seq (recover (sees Kind.startsDeclaration) (rule field)) <|
          seq (mark .rbrace) (mark .semicolon)
  | field => typed <| seq ident <| seq (rule arrayOpt) (mark .semicolon)
  | functionDecl =>
      header <| choice (seesNo (.punct .semicolon)) (rule block) (mark .semicolon)
  | params => choice seesLoneVoid (word (.type .void)) (commaList (rule param))
  | param => typed <| seq ident paramArray
  | declaration => typed <| seq (commaList (rule declarator)) (mark .semicolon)
  | declarator =>
      seq (run (· == .operator .star)) <| seq ident <| seq (rule arrayOpt) initializer
  | arrayOpt =>
      opt (sees (· == .punct .lbracket)) <|
        seq (mark .lbracket) <|
          seq (choice (sees (· == .literal .int)) (literal .int) ident) (mark .rbracket)
  | typeSpec =>
      choice (sees Kind.isTypeWord) (seq (kind Kind.isTypeWord) (run Kind.isTypeWord))
        (seq (word .kwStruct) ident)
  | statement => select (kind (· == .directive)) statements
  | block =>
      seq (mark .lbrace) <| seq (recover (sees (· != .punct .rbrace)) (rule statement))
        (mark .rbrace)
  | body => choice (sees (· == .punct .lbrace)) (rule block) (rule statement)
  | ifElse =>
      seq (word .kwIf) <| condition <| seq (rule body) <|
        opt (sees (· == .keyword .kwElse)) (seq (word .kwElse) (rule body))
  | whileLoop => seq (word .kwWhile) (condition (rule body))
  | doWhile =>
      seq (word .kwDo) <| seq (rule body) <| seq (word .kwWhile) <| condition (mark .semicolon)
  | forLoop =>
      seq (word .kwFor) <| seq (mark .lparen) <| seq forInit <|
        seq (opt (seesNo (.punct .semicolon)) (rule expression)) <| seq (mark .semicolon) <|
        seq (opt (seesNo (.punct .rparen)) (rule assignment)) <| seq (mark .rparen) (rule body)
  | switch =>
      seq (word .kwSwitch) <| condition <| seq (mark .lbrace) <|
        seq (recover (sees (· != .punct .rbrace)) clause) (mark .rbrace)
  | printf =>
      seq (token (·.builtin == some .printf)) <| seq (mark .lparen) <|
        seq (commaList (rule expression)) <| seq (mark .rparen) (mark .semicolon)
  | scanf =>
      seq (token (·.builtin == some .scanf)) <| seq (mark .lparen) <| seq (literal .string) <|
        seq (further (rule expression) (· == .punct .comma)) <|
        seq (mark .rparen) (mark .semicolon)
  | exit =>
      seq (word .kwReturn) <| seq (opt (seesNo (.punct .semicolon)) (rule expression))
        (mark .semicolon)
  | assignment =>
      choice (sees Kind.isStep) (seq (kind Kind.isStep) (rule lvalue)) <|
        seq (rule lvalue) writing
  | lvalue => seq (run (· == .operator .star)) (seq ident accesses)
  | expression =>
      seq (rule (operation .logical)) <| opt (sees (· == .punct .question)) <|
        seq (mark .question) <| seq (rule expression) <| seq (mark .colon) (rule expression)
  | operation tier => list (operand tier) tier.has
  | factor => seq (rule element) (opt (sees (· == .punct .lbracket)) subscript)
  | element =>
      choice (sees Kind.isUnary) (seq (kind Kind.isUnary) (rule element)) <|
      choice seesCall (rule functionCall) plainElement
  | accessChain =>
      choice (sees (· == .punct .lbracket)) subscript <|
      choice (sees (· == .punct .dot)) (seq (mark .dot) ident) (seq (mark .arrow) ident)
  | functionCall => seq (kind Kind.namesFunction) (seq (mark .lparen) callEnd)

/-- **Without its decisions, the plan of a rule is its form.** -/
theorem form_plan (n : Rule) : n.plan.form = n.form := by
  cases n with
  | operation tier => cases tier <;> rfl
  | _ => rfl

theorem derives_plan {n : Rule} {w : List Token} : Derives (.rule n) w ↔ Derives n.plan.form w := by
  rw [derives_rule, form_plan]

end MiniC
