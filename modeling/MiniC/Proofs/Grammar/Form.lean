import MiniC.Check.Fault
import MiniC.Expr.Basic

/-!
# `MiniC.Proofs.Grammar.Form` — the grammar of programs

The grammar is data: every rule has a form, built from tokens, rules, sequence, choice and
repetition.  It says nothing of how a text is read.  A token is seen by its shape alone, that is,
by its kind and by whether an identifier is spelled `printf` or `scanf`.

## Contents
- `Shape`: what the grammar sees of a token.
- `Rule`, `Form`, `Rule.form`: **the grammar.**
- `Derives`: which token sequences a form stands for, with one lemma per way to build a form.
-/

namespace MiniC

/-! ## Shapes -/

/-- What the grammar sees of a token. -/
structure Shape where
  kind : Kind
  /-- The call that an identifier is reserved for in front of a statement. -/
  builtin : Option FormatCall
deriving DecidableEq, Repr

/-- The call that an identifier with the given text is reserved for. -/
def FormatCall.ofName? (name : String) : Option FormatCall :=
  if name = "printf" then some .printf else if name = "scanf" then some .scanf else none

/-- The shape of a token. -/
def Token.shape (t : Token) : Shape :=
  ⟨t.kind, if t.kind = .ident then FormatCall.ofName? t.lexeme else none⟩

@[simp] theorem Token.kind_shape (t : Token) : t.shape.kind = t.kind := rfl

/-! ## The grammar -/

/-- The nonterminals. -/
inductive Rule
  -- Declarations
  | program | structDecl | field | functionDecl | params | param | declaration | declarator
  | arrayOpt | typeSpec
  -- Statements
  | statement | block | body | ifElse | whileLoop | doWhile | forLoop | switch
  | printf | scanf | exit | assignment | lvalue
  -- Expressions
  | expression
  /-- `logical`, `relational`, `arithmetic` and `term`. -/
  | operation (tier : Tier)
  | factor | element | accessChain | functionCall
deriving DecidableEq, Repr

/-- What a part of a program looks like. -/
inductive Form
  | empty
  | token (p : Shape → Bool)
  | rule (n : Rule)
  | seq (first second : Form)
  | choice (first second : Form)
  | many (part : Form)
  /-- A part that does not begin with a token that satisfies `p`. -/
  | barring (p : Shape → Bool) (part : Form)

namespace Form

/-- A token of a kind that satisfies `p`. -/
def kind (p : Kind → Bool) : Form := token (p ·.kind)

/-- A keyword. -/
def word (k : Keyword) : Form := kind (· == .keyword k)

/-- An operator. -/
def sign (o : Operator) : Form := kind (· == .operator o)

/-- A punctuation mark. -/
def mark (m : Punct) : Form := kind (· == .punct m)

/-- A literal. -/
def literal (class_ : Literal) : Form := kind (· == .literal class_)

/-- An identifier. -/
def ident : Form := kind (· == .ident)

/-- An identifier that names one of the calls with a format string. -/
def builtin (call : FormatCall) : Form := token (·.builtin == some call)

/-- A part that may be missing. -/
def opt (part : Form) : Form := choice part empty

/-- One part or more, with tokens that satisfy `separator` in between. -/
def list (part : Form) (separator : Kind → Bool) : Form :=
  seq part (many (seq (kind separator) part))

/-- One part or more, with commas in between. -/
def commaList (part : Form) : Form := list part (· == .punct .comma)

/-- `qualifier*`. -/
def qualifiers : Form := many (kind Kind.isQualifier)

/-- `ptr`, that is, `'*'*`. -/
def stars : Form := many (sign .star)

/-- `ID | MAIN`. -/
def functionName : Form := kind fun k => k == .ident || k == .keyword .kwMain

/-- The operands of a level: operations of the next tighter one, or factors. -/
def operand : Tier → Form
  | .logical => rule (.operation .relational)
  | .relational => rule (.operation .additive)
  | .additive => rule (.operation .multiplicative)
  | .multiplicative => rule .factor

end Form

/-- Whether the kind is an operator in front of an element: `*`, `&`, `!`, `-`, `++` or `--`. -/
def Kind.isUnary : Kind → Bool
  | operator o => o ∈ [.star, .amp, .bang, .minus, .plusPlus, .minusMinus]
  | _ => false

/-- Whether the kind is that of a literal. -/
def Kind.isLiteral : Kind → Bool
  | literal _ => true
  | _ => false

/-- Whether the kind is an operator that stores the value behind it. -/
def Kind.isAssign (kind : Kind) : Bool := kind == .operator .assign || kind.isUpdate

open Form in
/-- **The grammar.** -/
def Rule.form : Rule → Form
  -- { structDecl | functionDecl | declaration | directive }*
  | program =>
      many <| choice (rule structDecl) <| choice (rule functionDecl) <|
        choice (rule declaration) (kind (· == .directive))
  -- STRUCT ID '{' { field }* '}' ';'
  | structDecl =>
      seq (word .kwStruct) <| seq ident <| seq (mark .lbrace) <| seq (many (rule field)) <|
        seq (mark .rbrace) (mark .semicolon)
  -- qualifier* typeSpec ptr ID arrayOpt ';'
  | field =>
      seq qualifiers <| seq (rule typeSpec) <| seq stars <| seq ident <| seq (rule arrayOpt)
        (mark .semicolon)
  -- qualifier* typeSpec ptr (ID | MAIN) '(' params? ')' (block | ';')
  | functionDecl =>
      seq qualifiers <| seq (rule typeSpec) <| seq stars <| seq functionName <|
        seq (mark .lparen) <| seq (opt (rule params)) <| seq (mark .rparen) <|
          choice (rule block) (mark .semicolon)
  -- VOID | param (',' param)*
  | params => choice (word (.type .void)) (commaList (rule param))
  -- qualifier* typeSpec ptr ID ('[' INT? ']')?
  | param =>
      seq qualifiers <| seq (rule typeSpec) <| seq stars <| seq ident <|
        opt (seq (mark .lbracket) (seq (opt (literal .int)) (mark .rbracket)))
  -- qualifier* typeSpec ptr declarator (',' declarator)* ';'
  | declaration =>
      seq qualifiers <| seq (rule typeSpec) <| seq stars <|
        seq (commaList (rule declarator)) (mark .semicolon)
  -- ptr ID arrayOpt ('=' expression)?
  | declarator =>
      seq stars <| seq ident <| seq (rule arrayOpt) <|
        opt (seq (sign .assign) (rule expression))
  -- ('[' (INT | ID) ']')?
  | arrayOpt =>
      opt (seq (mark .lbracket) (seq (choice (literal .int) ident) (mark .rbracket)))
  -- { type word }+ | STRUCT ID
  | typeSpec =>
      choice (seq (kind Kind.isTypeWord) (many (kind Kind.isTypeWord)))
        (seq (word .kwStruct) ident)
  -- An identifier that names a built-in call opens no other statement than that call.
  | statement =>
      choice (rule structDecl) <| choice (rule functionDecl) <| choice (rule declaration) <|
      choice (rule ifElse) <| choice (rule whileLoop) <| choice (rule doWhile) <|
      choice (rule forLoop) <| choice (rule switch) <| choice (rule printf) <|
      choice (rule scanf) <| choice (rule exit) <|
      choice (seq (word .kwBreak) (mark .semicolon)) <|
      choice (seq (word .kwContinue) (mark .semicolon)) <|
      choice (barring (·.builtin.isSome) (seq (rule functionCall) (mark .semicolon))) <|
      choice (barring (·.builtin.isSome) (seq (rule assignment) (mark .semicolon))) <|
      choice (rule block) <| choice (mark .semicolon) (kind (· == .directive))
  -- '{' statement* '}'
  | block => seq (mark .lbrace) (seq (many (rule statement)) (mark .rbrace))
  -- block | statement
  | body => choice (rule block) (rule statement)
  -- IF '(' expression ')' body (ELSE body)?
  | ifElse =>
      seq (word .kwIf) <| seq (mark .lparen) <| seq (rule expression) <| seq (mark .rparen) <|
        seq (rule body) (opt (seq (word .kwElse) (rule body)))
  -- WHILE '(' expression ')' body
  | whileLoop =>
      seq (word .kwWhile) <| seq (mark .lparen) <| seq (rule expression) <|
        seq (mark .rparen) (rule body)
  -- DO body WHILE '(' expression ')' ';'
  | doWhile =>
      seq (word .kwDo) <| seq (rule body) <| seq (word .kwWhile) <| seq (mark .lparen) <|
        seq (rule expression) <| seq (mark .rparen) (mark .semicolon)
  -- FOR '(' (';' | declaration | assignment ';') expression? ';' assignment? ')' body
  | forLoop =>
      seq (word .kwFor) <| seq (mark .lparen) <|
        seq (choice (mark .semicolon) <| choice (rule declaration)
          (seq (rule assignment) (mark .semicolon))) <|
        seq (opt (rule expression)) <| seq (mark .semicolon) <|
        seq (opt (rule assignment)) <| seq (mark .rparen) (rule body)
  -- SWITCH '(' expression ')' '{' { CASE (INT | CHAR) ':' | DEFAULT ':' | statement }* '}'
  | switch =>
      seq (word .kwSwitch) <| seq (mark .lparen) <| seq (rule expression) <|
        seq (mark .rparen) <| seq (mark .lbrace) <|
        seq (many <|
          choice (seq (word .kwCase)
            (seq (choice (literal .int) (literal .char)) (mark .colon))) <|
          choice (seq (word .kwDefault) (mark .colon)) (rule statement))
        (mark .rbrace)
  -- "printf" '(' expression (',' expression)* ')' ';'
  | printf =>
      seq (builtin .printf) <| seq (mark .lparen) <|
        seq (commaList (rule expression)) <| seq (mark .rparen) (mark .semicolon)
  -- "scanf" '(' STRING (',' expression)* ')' ';'
  | scanf =>
      seq (builtin .scanf) <| seq (mark .lparen) <| seq (literal .string) <|
        seq (many (seq (mark .comma) (rule expression))) <|
        seq (mark .rparen) (mark .semicolon)
  -- RETURN expression? ';'
  | exit => seq (word .kwReturn) (seq (opt (rule expression)) (mark .semicolon))
  -- ('++' | '--') lvalue | lvalue (assignOp expression | '++' | '--')
  | assignment =>
      choice (seq (kind Kind.isStep) (rule lvalue))
        (seq (rule lvalue)
          (choice (seq (kind Kind.isAssign) (rule expression)) (kind Kind.isStep)))
  -- '*'* ID accessChain*
  | lvalue => seq stars (seq ident (many (rule accessChain)))
  -- logical ('?' expression ':' expression)?
  | expression =>
      seq (rule (operation .logical)) <|
        opt (seq (mark .question)
          (seq (rule expression) (seq (mark .colon) (rule expression))))
  -- operand (operator operand)*
  | operation tier => list (operand tier) tier.has
  -- element ('[' expression ']')?
  | factor =>
      seq (rule element)
        (opt (seq (mark .lbracket) (seq (rule expression) (mark .rbracket))))
  -- unaryOp element | functionCall | ID accessChain* ('++' | '--')* | literal
  -- | '(' expression ')' accessChain* | SIZEOF '(' (typeSpec ptr | expression) ')'
  | element =>
      choice (seq (kind Kind.isUnary) (rule element)) <|
      choice (rule functionCall) <|
      choice (seq ident (seq (many (rule accessChain)) (many (kind Kind.isStep)))) <|
      choice (kind Kind.isLiteral) <|
      choice (seq (mark .lparen)
        (seq (rule expression) (seq (mark .rparen) (many (rule accessChain)))))
        (seq (word .kwSizeof) (seq (mark .lparen)
          (seq (choice (seq (rule typeSpec) stars) (rule expression)) (mark .rparen))))
  -- '[' expression ']' | '.' ID | '->' ID
  | accessChain =>
      choice (seq (mark .lbracket) (seq (rule expression) (mark .rbracket)))
        (choice (seq (mark .dot) ident) (seq (mark .arrow) ident))
  -- (ID | MAIN) '(' [expression (',' expression)*] ')'
  | functionCall =>
      seq functionName <| seq (mark .lparen) <|
        seq (opt (commaList (rule expression))) (mark .rparen)

/-! ## Derivations -/

/-- The token sequences that a form stands for. -/
inductive Derives : Form → List Token → Prop
  | empty : Derives .empty []
  | token {p : Shape → Bool} {t : Token} : p t.shape = true → Derives (.token p) [t]
  | rule {n : Rule} {w : List Token} : Derives n.form w → Derives (.rule n) w
  | seq {a b : Form} {u v : List Token} :
      Derives a u → Derives b v → Derives (.seq a b) (u ++ v)
  | first {a b : Form} {w : List Token} : Derives a w → Derives (.choice a b) w
  | second {a b : Form} {w : List Token} : Derives b w → Derives (.choice a b) w
  | done {a : Form} : Derives (.many a) []
  | more {a : Form} {u v : List Token} :
      Derives a u → Derives (.many a) v → Derives (.many a) (u ++ v)
  | barring {p : Shape → Bool} {a : Form} {w : List Token} :
      (∀ t ∈ w.head?, p t.shape = false) → Derives a w → Derives (.barring p a) w

variable {a b : Form} {n : Rule} {p : Shape → Bool} {w : List Token}

theorem derives_empty : Derives .empty w ↔ w = [] := by
  constructor
  · rintro ⟨⟩
    rfl
  · rintro rfl
    exact .empty

theorem derives_token : Derives (.token p) w ↔ ∃ t, w = [t] ∧ p t.shape = true := by
  constructor
  · rintro (_ | ht)
    exact ⟨_, rfl, ht⟩
  · rintro ⟨t, rfl, ht⟩
    exact .token ht

theorem derives_rule : Derives (.rule n) w ↔ Derives n.form w := by
  constructor
  · rintro (_ | _ | h)
    exact h
  · exact .rule

theorem derives_seq :
    Derives (.seq a b) w ↔ ∃ u v, w = u ++ v ∧ Derives a u ∧ Derives b v := by
  constructor
  · rintro (_ | _ | _ | ⟨hu, hv⟩)
    exact ⟨_, _, rfl, hu, hv⟩
  · rintro ⟨u, v, rfl, hu, hv⟩
    exact .seq hu hv

theorem derives_token_seq :
    Derives (.seq (.token p) b) w ↔ ∃ t v, w = t :: v ∧ p t.shape = true ∧ Derives b v := by
  rw [derives_seq]
  constructor
  · rintro ⟨u, v, rfl, hu, hv⟩
    obtain ⟨t, rfl, ht⟩ := derives_token.1 hu
    exact ⟨t, v, rfl, ht, hv⟩
  · rintro ⟨t, v, rfl, ht, hv⟩
    exact ⟨[t], v, rfl, .token ht, hv⟩

theorem derives_choice : Derives (.choice a b) w ↔ Derives a w ∨ Derives b w := by
  constructor
  · intro h
    cases h with
    | first h => exact .inl h
    | second h => exact .inr h
  · exact fun h => h.elim .first .second

theorem derives_opt : Derives (.opt a) w ↔ Derives a w ∨ w = [] := by
  rw [Form.opt, derives_choice, derives_empty]

theorem derives_barring :
    Derives (.barring p a) w ↔ (∀ t ∈ w.head?, p t.shape = false) ∧ Derives a w := by
  constructor
  · intro h
    cases h with
    | barring hp h => exact ⟨hp, h⟩
  · exact fun ⟨hp, h⟩ => .barring hp h

theorem derives_many_token :
    Derives (.many (.token p)) w ↔ ∀ t ∈ w, p t.shape = true := by
  constructor
  · intro h
    generalize hf : Form.many (.token p) = f at h
    induction h with
    | more hu _ _ ih =>
        cases hf
        obtain ⟨t, rfl, ht⟩ := derives_token.1 hu
        simpa [ht] using ih rfl
    | done => simp
    | _ => cases hf
  · intro h
    induction w with
    | nil => exact .done
    | cons t w ih =>
        simp only [List.mem_cons, forall_eq_or_imp] at h
        exact .more (.token h.1) (ih h.2)

theorem Derives.many_append {u v : List Token} (hu : Derives (.many a) u)
    (hv : Derives (.many a) v) : Derives (.many a) (u ++ v) := by
  generalize hf : Form.many a = f at hu
  induction hu with
  | done =>
      cases hf
      exact hv
  | more hu _ _ ih =>
      cases hf
      rw [List.append_assoc]
      exact .more hu (ih rfl)
  | _ => cases hf

theorem Derives.many_one {u : List Token} (hu : Derives a u) : Derives (.many a) u := by
  rw [← List.append_nil u]
  exact .more hu .done

end MiniC
