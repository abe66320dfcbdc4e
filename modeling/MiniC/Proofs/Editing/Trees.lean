import MiniC.Proofs.Editing.Edition
import MiniC.Stmt.Basic
import Mathlib.Data.List.Forall2
import Mathlib.Data.Option.Defs

/-!
# `MiniC.Proofs.Editing.Trees` — the syntax trees of two editions

The trees of two editions have the same shape, and each token of the one stands where the edited
token stands in the other.  Which tokens are names is told by the place in the tree: there they
were read as names from the text.  Where a tree keeps a token whose lexeme means something else,
an operator or the value of a label, that token keeps its lexeme.

## Contents
- `Slot.All`, `Edition.slot`.
- `Expr.Edited`, `Trail.Edited`: **an expression in two editions**, with `Expr.Edited.lead`.
- `Declarator.Edited`, `StructDecl.Edited`, `Header.Edited`, …: declarations in two editions.
- `Stmt.Edited`, `Stmts.Edited`, `Clauses.Edited`: **statements in two editions**.
-/

namespace MiniC

/-- The token of a slot satisfies `P`, if there is one. -/
def Slot.All (P : Token → Prop) (slot : Slot) : Prop := ∀ t, slot = .found t → P t

theorem Slot.All.of_found {P : Token → Prop} {t : Token} (h : (Slot.found t).All P) : P t :=
  h t rfl

/-- A slot in an edition. -/
def Edition.slot (E : Edition) : Slot → Slot
  | .found t => .found (E.token t)
  | .missing hole => .missing (E.hole hole)

variable (E : Edition)

/-! ## Expressions -/

/-- A type specifier in two editions. -/
inductive TypeSpec.Edited : TypeSpec → TypeSpec → Prop
  | words {first : Token} {rest : List Token} :
      Edited (.words first rest) (.words (E.token first) (rest.map E.token))
  | struct {keyword : Token} {name : Slot} :
      name.All E.Names → Edited (.struct keyword name) (.struct (E.token keyword) (E.slot name))
  | missing {hole : Hole} : Edited (.missing hole) (.missing (E.hole hole))

mutual

/-- An expression in two editions. -/
inductive Expr.Edited : Expr → Expr → Prop
  | literal {class_ : Literal} {t : Token} :
      Expr.Edited (.literal class_ t) (.literal class_ (E.token t))
  | var {name : Token} : E.Names name → Expr.Edited (.var name) (.var (E.token name))
  | emptyCall {name opening : Token} {closing : Slot} :
      E.Names name →
      Expr.Edited (.emptyCall name opening closing)
        (.emptyCall (E.token name) (E.token opening) (E.slot closing))
  | call {name opening : Token} {first first' : Expr} {others others' : Trail} {closing : Slot} :
      E.Names name → Expr.Edited first first' → Trail.Edited others others' →
      Expr.Edited (.call name opening first others closing)
        (.call (E.token name) (E.token opening) first' others' (E.slot closing))
  | deref {star : Token} {operand operand' : Expr} :
      Expr.Edited operand operand' →
      Expr.Edited (.deref star operand) (.deref (E.token star) operand')
  | address {ampersand : Token} {operand operand' : Expr} :
      Expr.Edited operand operand' →
      Expr.Edited (.address ampersand operand) (.address (E.token ampersand) operand')
  | unary {operator : Token} {operand operand' : Expr} :
      Edition.Fixed operator → Expr.Edited operand operand' →
      Expr.Edited (.unary operator operand) (.unary (E.token operator) operand')
  | stepped {operand operand' : Expr} {operator : Token} :
      Expr.Edited operand operand' → Edition.Fixed operator →
      Expr.Edited (.stepped operand operator) (.stepped operand' (E.token operator))
  | index {base base' subscript subscript' : Expr} {opening : Token} {closing : Slot} :
      Expr.Edited base base' → Expr.Edited subscript subscript' →
      Expr.Edited (.index base opening subscript closing)
        (.index base' (E.token opening) subscript' (E.slot closing))
  | member {base base' : Expr} {access : Access} {operator : Token} {field : Slot} :
      Expr.Edited base base' → field.All E.Names →
      Expr.Edited (.member base access operator field)
        (.member base' access (E.token operator) (E.slot field))
  | binary {tier : Tier} {left left' right right' : Expr} {operator : Token} :
      Expr.Edited left left' → Edition.Fixed operator → Expr.Edited right right' →
      Expr.Edited (.binary tier left operator right) (.binary tier left' (E.token operator) right')
  | conditional {condition condition' first first' second second' : Expr} {question : Token}
      {colon : Slot} :
      Expr.Edited condition condition' → Expr.Edited first first' → Expr.Edited second second' →
      Expr.Edited (.conditional condition question first colon second)
        (.conditional condition' (E.token question) first' (E.slot colon) second')
  | group {opening : Token} {inner inner' : Expr} {closing : Slot} :
      Expr.Edited inner inner' →
      Expr.Edited (.group opening inner closing) (.group (E.token opening) inner' (E.slot closing))
  | sizeofType {keyword : Token} {opening : Slot} {spec spec' : TypeSpec} {stars : List Token}
      {closing : Slot} :
      spec.Edited E spec' →
      Expr.Edited (.sizeofType keyword opening spec stars closing)
        (.sizeofType (E.token keyword) (E.slot opening) spec' (stars.map E.token)
          (E.slot closing))
  | sizeofExpr {keyword : Token} {opening : Slot} {operand operand' : Expr} {closing : Slot} :
      Expr.Edited operand operand' →
      Expr.Edited (.sizeofExpr keyword opening operand closing)
        (.sizeofExpr (E.token keyword) (E.slot opening) operand' (E.slot closing))
  | missing {hole : Hole} : Expr.Edited (.missing hole) (.missing (E.hole hole))

/-- Arguments in two editions. -/
inductive Trail.Edited : Trail → Trail → Prop
  | nil : Trail.Edited .nil .nil
  | cons {comma : Token} {argument argument' : Expr} {rest rest' : Trail} :
      Expr.Edited argument argument' → Trail.Edited rest rest' →
      Trail.Edited (.cons comma argument rest) (.cons (E.token comma) argument' rest')

end

/-! ## Declarations -/

/-- The brackets behind a declared name, in an edition. -/
def Edition.arraySuffix (suffix : ArraySuffix) : ArraySuffix :=
  ⟨E.token suffix.opening, E.slot suffix.size, E.slot suffix.closing⟩

/-- The brackets behind the name of a parameter, in an edition. -/
def Edition.paramArray (suffix : ParamArray) : ParamArray :=
  ⟨E.token suffix.opening, suffix.size.map E.token, E.slot suffix.closing⟩

/-- A declared variable in two editions. -/
inductive Declarator.Edited : Declarator → Declarator → Prop
  | plain {stars : List Token} {name : Slot} {array : Option ArraySuffix} :
      name.All E.Names →
      Edited ⟨stars, name, array, none⟩
        ⟨stars.map E.token, E.slot name, array.map E.arraySuffix, none⟩
  | init {stars : List Token} {name : Slot} {array : Option ArraySuffix} {sign : Token}
      {value value' : Expr} :
      name.All E.Names → value.Edited E value' →
      Edited ⟨stars, name, array, some (sign, value)⟩
        ⟨stars.map E.token, E.slot name, array.map E.arraySuffix, some (E.token sign, value')⟩

/-- A declaration of variables in two editions. -/
inductive Declaration.Edited : Declaration → Declaration → Prop
  | mk {qualifiers : List Token} {spec spec' : TypeSpec} {first first' : Declarator}
      {others others' : List (Token × Declarator)} {semicolon : Slot} :
      spec.Edited E spec' → first.Edited E first' →
      List.Forall₂ (fun d d' => Declarator.Edited E d.2 d'.2) others others' →
      Edited ⟨qualifiers, spec, first, others, semicolon⟩
        ⟨qualifiers.map E.token, spec', first', others', E.slot semicolon⟩

/-- A field of a struct in two editions. -/
inductive Field.Edited : Field → Field → Prop
  | mk {qualifiers : List Token} {spec spec' : TypeSpec} {stars : List Token} {name : Slot}
      {array : Option ArraySuffix} {semicolon : Slot} :
      spec.Edited E spec' → name.All E.Names →
      Edited ⟨qualifiers, spec, stars, name, array, semicolon⟩
        ⟨qualifiers.map E.token, spec', stars.map E.token, E.slot name,
          array.map E.arraySuffix, E.slot semicolon⟩

/-- A definition of a struct in two editions. -/
inductive StructDecl.Edited : StructDecl → StructDecl → Prop
  | mk {keyword name opening : Token} {fields fields' : List Field} {closing semicolon : Slot} :
      E.Names name → List.Forall₂ (Field.Edited E) fields fields' →
      Edited ⟨keyword, name, opening, fields, closing, semicolon⟩
        ⟨E.token keyword, E.token name, E.token opening, fields', E.slot closing,
          E.slot semicolon⟩

/-- A parameter in two editions. -/
inductive Param.Edited : Param → Param → Prop
  | mk {qualifiers : List Token} {spec spec' : TypeSpec} {stars : List Token} {name : Slot}
      {array : Option ParamArray} :
      spec.Edited E spec' → name.All E.Names →
      Edited ⟨qualifiers, spec, stars, name, array⟩
        ⟨qualifiers.map E.token, spec', stars.map E.token, E.slot name,
          array.map E.paramArray⟩

/-- What stands between the parentheses of a header, in two editions. -/
inductive Params.Edited : Params → Params → Prop
  | none : Edited .none .none
  | void {word : Token} : Edited (.void word) (.void (E.token word))
  | list {first first' : Param} {others others' : List (Token × Param)} :
      first.Edited E first' → List.Forall₂ (fun p p' => Param.Edited E p.2 p'.2) others others' →
      Edited (.list first others) (.list first' others')

/-- The header of a function in two editions. -/
inductive Header.Edited : Header → Header → Prop
  | mk {qualifiers : List Token} {spec spec' : TypeSpec} {stars : List Token}
      {name opening closing : Slot} {params params' : Params} :
      spec.Edited E spec' → name.All E.Names → params.Edited E params' →
      Edited ⟨qualifiers, spec, stars, name, opening, params, closing⟩
        ⟨qualifiers.map E.token, spec', stars.map E.token, E.slot name, E.slot opening, params',
          E.slot closing⟩

/-! ## Statements -/

/-- Something that can be written to, in two editions: a path that begins with a name, or
nothing. -/
inductive Place.Edited : Place → Place → Prop
  | named {stars : List Token} {path path' : Expr} {name : Token} :
      path.Edited E path' → path.lead = some name → E.Names name →
      Edited ⟨stars, path⟩ ⟨stars.map E.token, path'⟩
  | missing {stars : List Token} {hole : Hole} :
      Edited ⟨stars, .missing hole⟩ ⟨stars.map E.token, .missing (E.hole hole)⟩

/-- An assignment in two editions. -/
inductive Assignment.Edited : Assignment → Assignment → Prop
  | stepBefore {operator : Token} {place place' : Place} :
      Edition.Fixed operator → place.Edited E place' →
      Edited (.stepBefore operator place) (.stepBefore (E.token operator) place')
  | stepAfter {place place' : Place} {operator : Token} :
      place.Edited E place' → Edition.Fixed operator →
      Edited (.stepAfter place operator) (.stepAfter place' (E.token operator))
  | store {place place' : Place} {sign : Token} {value value' : Expr} :
      place.Edited E place' → value.Edited E value' →
      Edited (.store place sign value) (.store place' (E.token sign) value')
  | update {place place' : Place} {operator : Token} {value value' : Expr} :
      place.Edited E place' → Edition.Fixed operator → value.Edited E value' →
      Edited (.update place operator value) (.update place' (E.token operator) value')
  | missing {place place' : Place} {hole : Hole} :
      place.Edited E place' → Edited (.missing place hole) (.missing place' (E.hole hole))

/-- A condition in two editions. -/
inductive Condition.Edited : Condition → Condition → Prop
  | mk {opening closing : Slot} {test test' : Expr} :
      test.Edited E test' →
      Edited ⟨opening, test, closing⟩ ⟨E.slot opening, test', E.slot closing⟩

/-- The first part of the header of a `for`, in two editions. -/
inductive ForInit.Edited : ForInit → ForInit → Prop
  | none {semicolon : Token} : Edited (.none semicolon) (.none (E.token semicolon))
  | declaration {d d' : Declaration} :
      d.Edited E d' → Edited (.declaration d) (.declaration d')
  | assignment {a a' : Assignment} {semicolon : Slot} :
      a.Edited E a' → Edited (.assignment a semicolon) (.assignment a' (E.slot semicolon))

mutual

/-- A statement in two editions. -/
inductive Stmt.Edited : Stmt → Stmt → Prop
  | blank {t : Token} : Stmt.Edited (.blank t) (.blank (E.token t))
  | struct {s s' : StructDecl} : s.Edited E s' → Stmt.Edited (.struct s) (.struct s')
  | declaration {d d' : Declaration} :
      d.Edited E d' → Stmt.Edited (.declaration d) (.declaration d')
  | prototype {header header' : Header} {semicolon : Token} :
      header.Edited E header' →
      Stmt.Edited (.prototype header semicolon) (.prototype header' (E.token semicolon))
  | function {header header' : Header} {body body' : Stmt} :
      header.Edited E header' → Stmt.Edited body body' →
      Stmt.Edited (.function header body) (.function header' body')
  | ifThen {keyword : Token} {condition condition' : Condition} {body body' : Stmt} :
      condition.Edited E condition' → Stmt.Edited body body' →
      Stmt.Edited (.ifThen keyword condition body) (.ifThen (E.token keyword) condition' body')
  | ifElse {keyword elseWord : Token} {condition condition' : Condition}
      {body body' alternative alternative' : Stmt} :
      condition.Edited E condition' → Stmt.Edited body body' →
      Stmt.Edited alternative alternative' →
      Stmt.Edited (.ifElse keyword condition body elseWord alternative)
        (.ifElse (E.token keyword) condition' body' (E.token elseWord) alternative')
  | whileLoop {keyword : Token} {condition condition' : Condition} {body body' : Stmt} :
      condition.Edited E condition' → Stmt.Edited body body' →
      Stmt.Edited (.whileLoop keyword condition body)
        (.whileLoop (E.token keyword) condition' body')
  | doWhile {keyword : Token} {whileWord semicolon : Slot} {condition condition' : Condition}
      {body body' : Stmt} :
      Stmt.Edited body body' → condition.Edited E condition' →
      Stmt.Edited (.doWhile keyword body whileWord condition semicolon)
        (.doWhile (E.token keyword) body' (E.slot whileWord) condition' (E.slot semicolon))
  | forLoop {keyword : Token} {opening semicolon closing : Slot} {init init' : ForInit}
      {test test' : Option Expr} {update update' : Option Assignment} {body body' : Stmt} :
      init.Edited E init' → Option.Rel (Expr.Edited E) test test' →
      Option.Rel (Assignment.Edited E) update update' → Stmt.Edited body body' →
      Stmt.Edited (.forLoop keyword opening init test semicolon update closing body)
        (.forLoop (E.token keyword) (E.slot opening) init' test' (E.slot semicolon) update'
          (E.slot closing) body')
  | switch {keyword : Token} {opening closing bodyStart bodyEnd : Slot}
      {subject subject' : Expr} {clauses clauses' : Clauses} :
      subject.Edited E subject' → Clauses.Edited clauses clauses' →
      Stmt.Edited (.switch keyword opening subject closing bodyStart clauses bodyEnd)
        (.switch (E.token keyword) (E.slot opening) subject' (E.slot closing) (E.slot bodyStart)
          clauses' (E.slot bodyEnd))
  | exit {keyword semicolon : Token} :
      Stmt.Edited (.exit keyword semicolon) (.exit (E.token keyword) (E.token semicolon))
  | exitWith {keyword : Token} {value value' : Expr} {semicolon : Slot} :
      value.Edited E value' →
      Stmt.Edited (.exitWith keyword value semicolon)
        (.exitWith (E.token keyword) value' (E.slot semicolon))
  | jump {keyword : Token} {semicolon : Slot} :
      Edition.Fixed keyword →
      Stmt.Edited (.jump keyword semicolon) (.jump (E.token keyword) (E.slot semicolon))
  | block {opening : Token} {body body' : Stmts} {closing : Slot} :
      Stmts.Edited body body' →
      Stmt.Edited (.block opening body closing) (.block (E.token opening) body' (E.slot closing))
  | call {call call' : Expr} {semicolon : Slot} :
      call.Edited E call' → Stmt.Edited (.call call semicolon) (.call call' (E.slot semicolon))
  | printf {name : Token} {opening closing semicolon : Slot} {format format' : Expr}
      {arguments arguments' : Trail} :
      format.Edited E format' → arguments.Edited E arguments' →
      Stmt.Edited (.printf name opening format arguments closing semicolon)
        (.printf (E.token name) (E.slot opening) format' arguments' (E.slot closing)
          (E.slot semicolon))
  | scanf {name : Token} {opening format closing semicolon : Slot}
      {arguments arguments' : Trail} :
      format.All Edition.Fixed → arguments.Edited E arguments' →
      Stmt.Edited (.scanf name opening format arguments closing semicolon)
        (.scanf (E.token name) (E.slot opening) (E.slot format) arguments' (E.slot closing)
          (E.slot semicolon))
  | assignment {a a' : Assignment} {semicolon : Slot} :
      a.Edited E a' → Stmt.Edited (.assignment a semicolon) (.assignment a' (E.slot semicolon))
  | missing {hole : Hole} : Stmt.Edited (.missing hole) (.missing (E.hole hole))

/-- Statements in sequence, in two editions. -/
inductive Stmts.Edited : Stmts → Stmts → Prop
  | nil : Stmts.Edited .nil .nil
  | cons {first first' : Stmt} {rest rest' : Stmts} :
      Stmt.Edited first first' → Stmts.Edited rest rest' →
      Stmts.Edited (.cons first rest) (.cons first' rest')

/-- The body of a switch in two editions. -/
inductive Clauses.Edited : Clauses → Clauses → Prop
  | nil : Clauses.Edited .nil .nil
  | case {keyword : Token} {value colon : Slot} {rest rest' : Clauses} :
      value.All Edition.Fixed → Clauses.Edited rest rest' →
      Clauses.Edited (.case keyword value colon rest)
        (.case (E.token keyword) (E.slot value) (E.slot colon) rest')
  | default {keyword : Token} {colon : Slot} {rest rest' : Clauses} :
      Clauses.Edited rest rest' →
      Clauses.Edited (.default keyword colon rest) (.default (E.token keyword) (E.slot colon) rest')
  | stmt {first first' : Stmt} {rest rest' : Clauses} :
      Stmt.Edited first first' → Clauses.Edited rest rest' →
      Clauses.Edited (.stmt first rest) (.stmt first' rest')

end

/-! ## The first token -/

variable {E}

theorem Edition.found?_hole (hole : Hole) : (E.hole hole).found? = hole.found?.map E.token :=
  List.head?_map

/-- Editing an expression edits its first token. -/
theorem Expr.Edited.lead : ∀ {e e' : Expr}, e.Edited E e' → e'.lead = e.lead.map E.token
  | _, _, .literal => rfl
  | _, _, .var _ => rfl
  | _, _, .emptyCall _ => rfl
  | _, _, .call _ _ _ => rfl
  | _, _, .deref _ => rfl
  | _, _, .address _ => rfl
  | _, _, .unary _ _ => rfl
  | _, _, .stepped operand _ => operand.lead
  | _, _, .index base _ => base.lead
  | _, _, .member base _ => base.lead
  | _, _, .binary left _ _ => left.lead
  | _, _, .conditional condition _ _ => condition.lead
  | _, _, .group _ => rfl
  | _, _, .sizeofType _ => rfl
  | _, _, .sizeofExpr _ => rfl
  | _, _, @Expr.Edited.missing _ hole => Edition.found?_hole hole

theorem Stmts.Edited.ofList {parts parts' : List Stmt}
    (h : List.Forall₂ (Stmt.Edited E) parts parts') :
    (Stmts.ofList parts).Edited E (Stmts.ofList parts') := by
  induction h with
  | nil => exact .nil
  | cons hfirst _ ih => exact .cons hfirst ih

end MiniC
