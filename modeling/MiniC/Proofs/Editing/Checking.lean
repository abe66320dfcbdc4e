import MiniC.Proofs.Editing.Typing
import Mathlib.Tactic.NthRewrite

/-!
# `MiniC.Proofs.Editing.Checking` — declarations and statements checked in two editions

## Contents
- `Declaration.Edited.check`, `StructDecl.Edited.check`, `Header.Edited.check`: declarations.
- `Place.Edited.target`, `Assignment.Edited.check`: what is written to.
- `Stmt.Edited.check`, `Stmts.Edited.check`, `Clauses.Edited.check`: **two editions of a program
  are checked with the same findings**.
-/

namespace MiniC

variable {E : Edition} {σ σ' : Symbols}

/-! ## Variables -/

/-- The size and the bracket of an array are there in both editions or in neither. -/
theorem edited_arraySuffix_check (suffix : ArraySuffix) :
    suffix.check.Edited E Eq (E.arraySuffix suffix).check :=
  (edited_require suffix.size).bind fun _ _ _ => edited_require suffix.closing

/-- An array of an edited type is the edited array. -/
theorem edited_withSuffix (t : CType) (array : Option ArraySuffix) :
    (t.withSuffix array).Edited E (E.type · = ·)
      ((E.type t).withSuffix (array.map E.arraySuffix)) := by
  cases array with
  | none => exact .pure rfl
  | some suffix => exact (edited_arraySuffix_check suffix).bind fun _ _ _ => .pure rfl

/-- The type of a name with stars in front of it and brackets behind. -/
theorem edited_declaredType (base : BaseType) (stars : List Token) (array : Option ArraySuffix) :
    (((CType.plain base).withStars stars).withSuffix array).Edited E (E.type · = ·)
      (((CType.plain (E.base base)).withStars (stars.map E.token)).withSuffix
        (array.map E.arraySuffix)) := by
  rw [← Edition.type_plain, type_withStars]
  exact edited_withSuffix _ array

/-- A name is declared in one edition iff its other spelling is in the other. -/
theorem edited_declareVariable_at {name : Token} (hname : E.Names name) (type : CType)
    (isConst : Bool) :
    (declareVariable name type isConst).Edited E Eq
      (declareVariable (E.token name) (E.type type) isConst) := by
  refine .register (edited_declareVariable ?_) name
  exact ⟨hname.lexeme, rfl, rfl⟩

/-- Whether something is constant is told by kinds of tokens, which an edition keeps. -/
theorem hasConst_map (qualifiers : List Token) :
    hasConst (qualifiers.map E.token) = hasConst qualifiers := by
  rw [hasConst, List.any_map]
  rfl

/-- A variable of type void is one in both editions, reported by its own name. -/
theorem edited_voidVariable {name : Token} (hname : E.Names name) (type : CType) :
    (Finding.complain (!type.isVoid) (.voidVariable name.lexeme) (some name)).Edited E Eq
      (.complain (!(E.type type).isVoid) (.voidVariable (E.token name).lexeme)
        (some (E.token name))) := by
  rw [hname.lexeme]
  exact .complain (congrArg (!·) Edition.isVoid_type) (.voidVariable name.lexeme) (some name)

/-- A declarator with and without an initial value: only the value is treated apart. -/
theorem Declarator.Edited.check (base : BaseType) (isConst : Bool) {d d' : Declarator}
    (h : d.Edited E d') :
    (d.check base isConst).Edited E Eq (d'.check (E.base base) isConst) := by
  -- all but the initial value
  have hdeclare : ∀ {stars : List Token} {name : Slot} {array : Option ArraySuffix}
      {init init' : Option (Token × Expr)}, name.All E.Names →
      (∀ (t : Token) (type : CType), E.Names t →
        (checkInitializer t type init).Edited E Eq
          (checkInitializer (E.token t) (E.type type) init')) →
      (Declarator.check base isConst ⟨stars, name, array, init⟩).Edited E Eq
        (Declarator.check (E.base base) isConst
          ⟨stars.map E.token, E.slot name, array.map E.arraySuffix, init'⟩) := by
    intro stars name array init init' hname hinit
    refine (Check.Edited.lift (edited_get hname)).bind ?_
    rintro t _ ⟨rfl, ht⟩
    refine (Check.Edited.lift (edited_declaredType base stars array)).bind ?_
    rintro type _ rfl
    exact (Check.Edited.lift (edited_voidVariable ht type)).bind fun _ _ _ =>
      (edited_declareVariable_at ht type isConst).bind fun _ _ _ => hinit t type ht
  cases h with
  | plain hname => exact hdeclare hname fun _ _ _ => .pure rfl
  | @init _ _ _ _ value value' hname hvalue =>
      refine hdeclare hname fun t type ht => ?_
      refine (Check.Edited.reading fun _ _ hσ => hvalue.typing hσ).bind ?_
      rintro found _ rfl
      have hcomplain : (Finding.complain (type.accepts found) (.initialValue t.lexeme type found)
          value.lead).Edited E Eq (.complain ((E.type type).accepts (E.type found))
            (.initialValue (E.token t).lexeme (E.type type) (E.type found)) value'.lead) := by
        rw [ht.lexeme, hvalue.lead]
        exact .complain Edition.type_accepts (.initialValue t.lexeme type found) value.lead
      exact .lift hcomplain

/-- The declarators of a line, one after the other in both editions. -/
theorem edited_checkDeclarators (base : BaseType) (isConst : Bool) {ds ds' : List Declarator}
    (h : List.Forall₂ (Declarator.Edited E) ds ds') :
    (checkDeclarators base isConst ds).Edited E Eq
      (checkDeclarators (E.base base) isConst ds') := by
  induction h with
  | nil => exact .pure rfl
  | cons hd _ ih => exact (hd.check base isConst).bind fun _ _ _ => ih

/-- A declaration resolves its type once, for all its declarators. -/
theorem Declaration.Edited.check {d d' : Declaration} (h : d.Edited E d') :
    d.check.Edited E Eq d'.check := by
  cases h with
  | @mk qualifiers _ _ first first' others others' semicolon hspec hfirst hothers =>
      refine (Check.Edited.reading fun _ _ hσ => edited_resolve hσ none hspec).bind ?_
      rintro base _ rfl
      have hothers' : List.Forall₂ (Declarator.Edited E) (others.map (·.2))
          (others'.map (·.2)) := by
        rwa [List.forall₂_map_left_iff, List.forall₂_map_right_iff]
      have hall := edited_checkDeclarators base (hasConst qualifiers) (hothers'.cons hfirst)
      -- whether a variable is constant is told from the kinds of its qualifiers
      nth_rewrite 2 [← hasConst_map (E := E)] at hall
      exact hall.bind fun _ _ _ => .require semicolon

/-! ## Structs -/

/-- A field is new in one edition iff it is in the other, as different names stay different. -/
theorem edited_admit {struct struct' : StructDef} (hstruct : struct.Edited E struct')
    {name : Token} (hname : E.Names name) (type : CType) :
    Finding.Edited E (StructDef.Edited E) ( struct.admit name type)
      ( struct'.admit (E.token name) (E.type type)) := by
  have hfound : (struct'.field? (E.token name).lexeme).isSome =
      (struct.field? name.lexeme).isSome := by
    rw [hname.lexeme, hstruct.field?, Option.isSome_map]
  unfold StructDef.admit
  by_cases hold : (struct.field? name.lexeme).isSome = true
  · rw [StructDef.tryField_of_known hold, StructDef.tryField_of_known (hfound.trans hold),
      hname.lexeme, hstruct.name]
    exact .reporting hstruct
  · have hold' : ¬(struct'.field? (E.token name).lexeme).isSome = true := hfound ▸ hold
    rw [StructDef.tryField_of_new hold, StructDef.tryField_of_new hold']
    refine .pure ⟨hstruct.declared, hstruct.name, ?_⟩
    rw [hname.lexeme, hstruct.fields, List.map_append]
    rfl

/-- A field finds the struct around it under the other name. -/
theorem Field.Edited.check (hσ : σ.Edited E σ') {struct struct' : StructDef}
    (hstruct : struct.Edited E struct') {field field' : Field} (h : field.Edited E field') :
    (field.check σ struct).Edited E (StructDef.Edited E) (field'.check σ' struct') := by
  cases h with
  | @mk qualifiers spec spec' stars name array semicolon hspec hname =>
      have hresolve := edited_resolve hσ (some struct.name) hspec
      rw [Option.map_some, ← hstruct.name] at hresolve
      refine hresolve.bind ?_
      rintro base _ rfl
      refine (edited_get hname).bind ?_
      rintro t _ ⟨rfl, ht⟩
      refine (edited_declaredType base stars array).bind ?_
      rintro type _ rfl
      exact (edited_require semicolon).bind fun _ _ _ => edited_admit hstruct ht type

/-- The struct grows by the same fields in both editions, each under its own spelling. -/
theorem edited_checkFields (hσ : σ.Edited E σ') {struct struct' : StructDef}
    (hstruct : struct.Edited E struct') {fields fields' : List Field}
    (h : List.Forall₂ (Field.Edited E) fields fields') :
    (checkFields σ struct fields).Edited E (StructDef.Edited E)
      (checkFields σ' struct' fields') := by
  induction h generalizing struct struct' with
  | nil => exact .pure hstruct
  | cons hfield _ ih =>
      exact ((hfield.check hσ hstruct).settledWith hstruct).bind fun _ _ hextended => ih hextended

/-- A struct is collected from no fields at all and then registered. -/
theorem StructDecl.Edited.check {s s' : StructDecl} (h : s.Edited E s') :
    s.check.Edited E Eq s'.check := by
  cases h with
  | @mk keyword name opening fields fields' closing semicolon hname hfields =>
      have hempty : StructDef.Edited E ⟨name.lexeme, name.location.line, []⟩
          ⟨(E.token name).lexeme, (E.token name).location.line, []⟩ :=
        ⟨⟨name, hname, rfl, rfl, rfl⟩, hname.lexeme, rfl⟩
      refine (Check.Edited.reading fun _ _ hσ => edited_checkFields hσ hempty hfields).bind ?_
      intro struct struct' hstruct
      exact (Check.Edited.register (edited_declareStruct hstruct) name).bind fun _ _ _ =>
        (Check.Edited.require closing).bind fun _ _ _ => .require semicolon

/-! ## Functions -/

/-- A parameter with brackets is an array in both editions. -/
theorem edited_withParamArray (t : CType) (array : Option ParamArray) :
    (t.withParamArray array).Edited E (E.type · = ·)
      ((E.type t).withParamArray (array.map E.paramArray)) := by
  cases array with
  | none => exact .pure rfl
  | some suffix => exact (edited_require suffix.closing).bind fun _ _ _ => .pure rfl

/-- A parameter is declared like a variable, and handed on with its type. -/
theorem Param.Edited.check {p p' : Param} (h : p.Edited E p') :
    p.check.Edited E (E.parameter · = ·) p'.check := by
  cases h with
  | @mk qualifiers _ _ stars name array hspec hname =>
      refine (Check.Edited.reading fun _ _ hσ => edited_resolve hσ none hspec).bind ?_
      rintro base _ rfl
      refine (Check.Edited.lift (edited_get hname)).bind ?_
      rintro t _ ⟨rfl, ht⟩
      have htype := edited_withParamArray (E := E) ((CType.plain base).withStars stars) array
      rw [← type_withStars, Edition.type_plain] at htype
      refine (Check.Edited.lift htype).bind ?_
      rintro type _ rfl
      have hdeclare := edited_declareVariable_at ht type (hasConst qualifiers)
      nth_rewrite 2 [← hasConst_map (E := E)] at hdeclare
      refine hdeclare.bind fun _ _ _ => .pure ?_
      rw [ht.lexeme]
      rfl

/-- Parameters are collected in their order. -/
theorem edited_checkParams {ps ps' : List Param} (h : List.Forall₂ (Param.Edited E) ps ps') :
    (checkParams ps).Edited E (List.map E.parameter · = ·) (checkParams ps') := by
  induction h with
  | nil => exact .pure rfl
  | cons hp _ ih =>
      refine hp.check.bind ?_
      rintro first _ rfl
      refine ih.bind ?_
      rintro others _ rfl
      exact .pure rfl

theorem Params.Edited.toList {ps ps' : Params} (h : ps.Edited E ps') :
    List.Forall₂ (Param.Edited E) ps.toList ps'.toList := by
  cases h with
  | none => exact .nil
  | void => exact .nil
  | list hfirst hothers =>
      refine .cons hfirst ?_
      rwa [List.forall₂_map_left_iff, List.forall₂_map_right_iff]

/-- The function around a statement, in an edition. -/
def Edition.enclosing (E : Edition) (f : Enclosing) : Enclosing := ⟨E.name f.name, E.type f.returns⟩

/-- A header registers the edited function, and what is around the body is edited too. -/
theorem Header.Edited.check (defined : Bool) {h h' : Header} (hh : h.Edited E h') :
    (h.check defined).Edited E (E.enclosing · = ·) (h'.check defined) := by
  cases hh with
  | @mk qualifiers _ _ stars name opening closing params params' hspec hname hparams =>
      refine (Check.Edited.reading fun _ _ hσ => edited_resolve hσ none hspec).bind ?_
      rintro base _ rfl
      refine (Check.Edited.lift (edited_get hname)).bind ?_
      rintro t _ ⟨rfl, ht⟩
      refine (Check.Edited.require opening).bind fun _ _ _ => ?_
      refine (edited_checkParams hparams.toList).bind ?_
      rintro parameters _ rfl
      refine (Check.Edited.require closing).bind fun _ _ _ => ?_
      have hreturns : (CType.plain (E.base base)).withStars (stars.map E.token) =
          E.type ((CType.plain base).withStars stars) := type_withStars (.plain base) stars
      refine (Check.Edited.register (edited_declareFunction ?_) t).bind fun _ _ _ => .pure ?_
      · exact ⟨⟨t, ht, rfl, rfl, rfl⟩, ht.lexeme, hreturns, rfl, rfl⟩
      · rw [ht.lexeme, hreturns]
        rfl

/-! ## Assignments -/

/-- What an assignment writes to, in an edition. -/
def Edition.target (E : Edition) (t : Target) : Target :=
  ⟨E.name t.name, E.type t.type, t.isConst, t.site.map E.token⟩

/-- Stars in front of a place take an edited type to an edited type. -/
theorem edited_dereferenceAll (t : CType) (stars : List Token) :
    (dereferenceAll t stars).Edited E (E.type · = ·)
      (dereferenceAll (E.type t) (stars.map E.token)) := by
  induction stars generalizing t with
  | nil => exact .pure rfl
  | cons star outer ih =>
      refine (edited_dereference t star).bind ?_
      rintro inner _ rfl
      exact ih inner

/-- Whether a name stands for a constant. -/
theorem isFrozen_edited (hσ : σ.Edited E σ') (name : String) (stars : List Token) :
    (σ'.var? (E.name name)).any (·.isFrozen (stars.map E.token)) =
      (σ.var? name).any (·.isFrozen stars) := by
  rcases hσ.var? name with ⟨hnone, hnone'⟩ | ⟨v, v', hsome, hsome', hv⟩
  · rw [hnone, hnone']
    rfl
  · rw [hsome, hsome', Option.any_some, Option.any_some, Variable.isFrozen, Variable.isFrozen,
      hv.isConst, hv.type, Edition.isPointer_type, List.isEmpty_map]

/-- A place is typed by its path and judged by the variable it begins with. -/
theorem Place.Edited.target (hσ : σ.Edited E σ') {p p' : Place} (h : p.Edited E p') :
    (p.target σ).Edited E (E.target · = ·) (p'.target σ') := by
  cases h with
  | @named stars path path' name hpath hlead hname =>
      refine (hpath.typing hσ).bind ?_
      rintro pathType _ rfl
      have hstars := edited_dereferenceAll (E := E) pathType stars.reverse
      rw [List.map_reverse] at hstars
      refine hstars.bind ?_
      rintro type _ rfl
      refine .pure ?_
      rw [hpath.lead, hlead]
      simp only [Option.map_some, Option.getD_some, hname.lexeme, isFrozen_edited hσ]
      rfl
  | missing => exact .stop _

/-- A write to a constant is reported by the name of the constant. -/
theorem edited_checkWritable (t : Target) :
    t.checkWritable.Edited E Eq (E.target t).checkWritable :=
  .complain rfl (.assignedConst t.name) t.site

/-- A step asks for the same of both types; its operator is no name. -/
theorem edited_checkStep (t : Target) {operator : Token} (hoperator : Edition.Fixed operator) :
    (t.checkStep operator).Edited E Eq ((E.target t).checkStep (E.token operator)) := by
  refine (edited_checkWritable t).bind fun _ _ _ => ?_
  rw [hoperator.lexeme]
  exact .complain Edition.mayBeMet_type (.operandNotNumeric operator.lexeme t.type) t.site

/-- A store asks whether the type takes the value, in both editions alike. -/
theorem edited_checkStore (t : Target) (value : CType) (site : Option Token) :
    (t.checkStore value site).Edited E Eq
      ((E.target t).checkStore (E.type value) (site.map E.token)) := by
  refine (edited_checkWritable t).bind fun _ _ _ => ?_
  show Finding.Edited E Eq _ (if t.type.isArray then _ else _)
  split
  · exact .report (.assignedArray t.name) site
  · exact .complain Edition.type_accepts (.assignedValue t.name t.type value) site

/-- An update asks for the same of both types; its operator is no name. -/
theorem edited_checkUpdate (t : Target) {operator : Token} (hoperator : Edition.Fixed operator)
    (value : CType) :
    (t.checkUpdate operator value).Edited E Eq
      ((E.target t).checkUpdate (E.token operator) (E.type value)) := by
  refine (edited_checkWritable t).bind fun _ _ _ => ?_
  have hneed : (E.token operator).updateNeed = operator.updateNeed := rfl
  have htype : (E.target t).type = E.type t.type := rfl
  simp only [hneed, htype, Edition.isUnknown_type, Edition.isMet_type, hoperator.lexeme]
  split
  · exact .pure rfl
  · split
    · exact .complain Edition.type_accepts (.assignedValue t.name t.type value) (some operator)
    · exact .report (.updateOperands operator.lexeme _ t.type value) (some operator)

/-- An assignment finds its target first, then what is written there. -/
theorem Assignment.Edited.check (hσ : σ.Edited E σ') {a a' : Assignment} (h : a.Edited E a') :
    (a.check σ).Edited E Eq (a'.check σ') := by
  cases h with
  | stepBefore hoperator hplace =>
      refine (hplace.target hσ).bind ?_
      rintro target _ rfl
      exact edited_checkStep target hoperator
  | stepAfter hplace hoperator =>
      refine (hplace.target hσ).bind ?_
      rintro target _ rfl
      exact edited_checkStep target hoperator
  | store hplace hvalue =>
      refine (hplace.target hσ).bind ?_
      rintro target _ rfl
      refine (hvalue.typing hσ).bind ?_
      rintro found _ rfl
      rw [hvalue.lead]
      exact edited_checkStore target found _
  | update hplace hoperator hvalue =>
      refine (hplace.target hσ).bind ?_
      rintro target _ rfl
      refine (hvalue.typing hσ).bind ?_
      rintro found _ rfl
      exact edited_checkUpdate target hoperator found
  | missing hplace => exact (hplace.target hσ).bind fun _ _ _ => .stop _

/-! ## Format strings -/

/-- A printed argument is compared by its type, in which only a struct has another name. -/
theorem edited_checkPrinted (spec : FormatSpec) (argument : Argument) :
    (checkPrinted spec argument).Edited E Eq (checkPrinted spec (E.argument argument)) :=
  .complain Edition.acceptsValue_type (.formatArgument .printf spec argument.type) argument.site

/-- A scanned argument is compared by what it points to. -/
theorem edited_checkScanned (spec : FormatSpec) (argument : Argument) :
    (checkScanned spec argument).Edited E Eq (checkScanned spec (E.argument argument)) := by
  have htype : (E.argument argument).type = E.type argument.type := rfl
  unfold checkScanned
  rw [htype, Edition.isUnknown_type, Edition.type_element?]
  split
  · exact .pure rfl
  · cases argument.type.element? with
    | none => exact .report (.scanfNotAddress argument.type) argument.site
    | some target =>
        exact .complain Edition.acceptsTarget_type (.formatArgument .scanf spec argument.type)
          argument.site

/-- An argument of either call. -/
theorem edited_checkArgument (call : FormatCall) (spec : FormatSpec) (argument : Argument) :
    (call.checkArgument spec argument).Edited E Eq
      (call.checkArgument spec (E.argument argument)) := by
  cases call with
  | printf => exact edited_checkPrinted spec argument
  | scanf => exact edited_checkScanned spec argument

/-- The same specifiers meet the edited arguments. -/
theorem edited_formatArguments (call : FormatCall) (specs : List FormatSpec)
    (arguments : List Argument) :
    (call.checkArguments specs arguments).Edited E Eq
      (call.checkArguments specs (arguments.map E.argument)) := by
  induction specs generalizing arguments with
  | nil => exact .pure rfl
  | cons spec specs ih =>
      cases arguments with
      | nil => exact .pure rfl
      | cons argument arguments =>
          exact (edited_checkArgument call spec argument).bind fun _ _ _ => ih arguments

/-- A format text is no name, so both editions read the same specifiers from it. -/
theorem edited_formatCheck (call : FormatCall) {format : Token} (hformat : Edition.Fixed format)
    (arguments : List Argument) :
    (call.check format arguments).Edited E Eq
      (call.check (E.token format) (arguments.map E.argument)) := by
  unfold FormatCall.check
  rw [hformat.lexeme, List.length_map]
  cases FormatSpec.ofText (unquoted format.lexeme) with
  | error error => exact .report (.formatString call error) (some format)
  | ok specs =>
      exact (Finding.Edited.complain rfl (.formatCount call specs.length arguments.length)
        (some format)).bind fun _ _ _ => edited_formatArguments call specs arguments

/-- Whether an expression is a format text is told by the kind of its first token. -/
theorem Expr.Edited.formatToken? {e e' : Expr} (h : e.Edited E e') :
    e'.formatToken? = e.formatToken?.map E.token := by
  rw [Expr.formatToken?, Expr.formatToken?, h.lead, Option.filter_map]
  rfl

/-! ## Conditions and jumps -/

/-- A test decides in one edition iff it does in the other. -/
theorem edited_checkTest (hσ : σ.Edited E σ') (ruled : Ruled) {test test' : Expr}
    (h : test.Edited E test') :
    (checkTest σ ruled test).Edited E Eq (checkTest σ' ruled test') := by
  refine (h.typing hσ).bind ?_
  rintro found _ rfl
  rw [h.lead]
  refine .complain ?_ (.condition ruled found) test.lead
  rw [CType.decides, CType.decides, Edition.isUnknown_type, Edition.isNumeric_type,
    Edition.type_decayed, Edition.isPointer_type]

/-- A test in its parentheses. -/
theorem Condition.Edited.check (hσ : σ.Edited E σ') (ruled : Ruled) {c c' : Condition}
    (h : c.Edited E c') : (c.check σ ruled).Edited E Eq (c'.check σ' ruled) := by
  cases h with
  | @mk opening closing test test' htest =>
      exact (edited_require opening).bind fun _ _ _ =>
        (edited_checkTest hσ ruled htest).bind fun _ _ _ => edited_require closing

/-- The subject of a switch is an integer in both editions or in neither. -/
theorem edited_checkSubject (hσ : σ.Edited E σ') {subject subject' : Expr}
    (h : subject.Edited E subject') :
    (checkSubject σ subject).Edited E Eq (checkSubject σ' subject') := by
  refine (h.typing hσ).bind ?_
  rintro found _ rfl
  rw [h.lead]
  exact .complain Edition.mayBeMet_type (.switchSubject found) subject.lead

/-- What is around a statement, in an edition. -/
def Edition.context (E : Edition) (context : Context) : Context :=
  { context with function := context.function.map E.enclosing }

/-- A return without a value is judged by the edited function around it. -/
theorem edited_checkExit (context : Context) (keyword : Token) :
    (context.checkExit keyword).Edited E Eq ((E.context context).checkExit (E.token keyword)) := by
  obtain ⟨function, inLoop, inSwitch⟩ := context
  cases function with
  | none => exact .pure rfl
  | some f =>
      refine .complain ?_ (.missingResult f.name f.returns) (some keyword)
      show ((E.type f.returns).isVoid || (E.type f.returns).isUnknown) = _
      rw [Edition.isVoid_type, Edition.isUnknown_type]

/-- A return with a value is judged by the edited function around it. -/
theorem edited_checkResult (context : Context) (found : CType) (site : Option Token) :
    (context.checkResult found site).Edited E Eq
      ((E.context context).checkResult (E.type found) (site.map E.token)) := by
  obtain ⟨function, inLoop, inSwitch⟩ := context
  cases function with
  | none => exact .pure rfl
  | some f =>
      show Finding.Edited E Eq (if f.returns.isVoid then _ else _)
        (if (E.type f.returns).isVoid then _ else _)
      rw [Edition.isVoid_type]
      split
      · exact .report (.resultOfVoid f.name) site
      · exact .complain Edition.type_accepts (.resultType f.name f.returns found) site

/-- A jump is judged by what is around it; its word is no name. -/
theorem edited_checkJump (context : Context) {keyword : Token}
    (hkeyword : Edition.Fixed keyword) :
    (context.checkJump keyword).Edited E Eq
      ((E.context context).checkJump (E.token keyword)) := by
  unfold Context.checkJump
  rw [hkeyword.lexeme]
  exact .complain rfl (.misplacedJump keyword.lexeme _) (some keyword)

/-- The first part of a for header: nothing, a declaration or an assignment. -/
theorem ForInit.Edited.check {i i' : ForInit} (h : i.Edited E i') :
    i.check.Edited E Eq i'.check := by
  cases h with
  | none => exact .pure rfl
  | declaration hd => exact hd.check
  | assignment ha =>
      exact (Check.Edited.reading fun _ _ hσ => ha.check hσ).bind fun _ _ _ => .require _

theorem edited_checkForTest {test test' : Option Expr} (h : Option.Rel (Expr.Edited E) test test') :
    (checkForTest test).Edited E Eq (checkForTest test') := by
  cases h with
  | none => exact .pure rfl
  | some htest => exact .reading fun _ _ hσ => edited_checkTest hσ .forLoop htest

theorem edited_checkForUpdate {update update' : Option Assignment}
    (h : Option.Rel (Assignment.Edited E) update update') :
    (checkForUpdate update).Edited E Eq (checkForUpdate update') := by
  cases h with
  | none => exact .pure rfl
  | some ha => exact .reading fun _ _ hσ => ha.check hσ

/-! ## Statements -/

mutual

/-- **A statement is checked alike in two editions, in contexts that are editions of each other.**
Parts are compared in the order of their tokens, so that the symbols in front of each part are
edited too. -/
theorem Stmt.Edited.check (context : Context) : ∀ {s s' : Stmt}, s.Edited E s' →
    (s.check context).Edited E Eq (s'.check (E.context context))
  | _, _, .blank => .pure rfl
  | _, _, .struct hs => hs.check
  | _, _, .declaration hd => hd.check
  | _, _, .prototype hheader =>
      .inScope ((hheader.check false).bind fun _ _ _ => .pure rfl)
  | _, _, .function hheader hbody => by
      refine .inScope ((hheader.check true).bind ?_)
      rintro f _ rfl
      exact hbody.check (.body f)
  | _, _, .ifThen hcondition hbody =>
      (Check.Edited.reading fun _ _ hσ => hcondition.check hσ .ifElse).bind
        fun _ _ _ => .inScope (hbody.check context)
  | _, _, .ifElse hcondition hbody halternative =>
      (Check.Edited.reading fun _ _ hσ => hcondition.check hσ .ifElse).bind fun _ _ _ =>
        (Check.Edited.inScope (hbody.check context)).bind fun _ _ _ =>
          .inScope (halternative.check context)
  | _, _, .whileLoop hcondition hbody =>
      (Check.Edited.reading fun _ _ hσ => hcondition.check hσ .whileLoop).bind
        fun _ _ _ => .inScope (hbody.check context.loop)
  | _, _, .doWhile hbody hcondition =>
      (Check.Edited.inScope (hbody.check context.loop)).bind fun _ _ _ =>
        (Check.Edited.require _).bind fun _ _ _ =>
          (Check.Edited.reading fun _ _ hσ => hcondition.check hσ .doWhile).bind
            fun _ _ _ => .require _
  | _, _, .forLoop hinit htest hupdate hbody =>
      (Check.Edited.require _).bind fun _ _ _ => .inScope <|
        hinit.check.bind fun _ _ _ => (edited_checkForTest htest).bind fun _ _ _ =>
          (Check.Edited.require _).bind fun _ _ _ =>
            (edited_checkForUpdate hupdate).bind fun _ _ _ =>
              (Check.Edited.require _).bind fun _ _ _ => .inScope (hbody.check context.loop)
  | _, _, .switch hsubject hclauses =>
      (Check.Edited.require _).bind fun _ _ _ =>
        (Check.Edited.reading fun _ _ hσ => edited_checkSubject hσ hsubject).bind fun _ _ _ =>
          (Check.Edited.require _).bind fun _ _ _ => (Check.Edited.require _).bind fun _ _ _ =>
            (Check.Edited.inScope (hclauses.check context.switch [] false)).bind
              fun _ _ _ => .require _
  | _, _, .exit => .lift (edited_checkExit context _)
  | _, _, @Stmt.Edited.exitWith _ _ value _ _ hvalue => by
      refine (Check.Edited.reading fun _ _ hσ => hvalue.typing hσ).bind ?_
      rintro found _ rfl
      rw [hvalue.lead]
      exact (Check.Edited.lift (edited_checkResult context found value.lead)).bind
        fun _ _ _ => .require _
  | _, _, .jump hkeyword =>
      (Check.Edited.lift (edited_checkJump context hkeyword)).bind fun _ _ _ => .require _
  | _, _, .block hbody =>
      (Check.Edited.inScope (hbody.check context)).bind fun _ _ _ => .require _
  | _, _, .call hcall =>
      (Check.Edited.reading fun _ _ hσ => hcall.typing hσ).bind fun _ _ _ => .require _
  | _, _, @Stmt.Edited.printf _ _ _ _ _ format _ _ _ hformat harguments => by
      refine (Check.Edited.require _).bind fun _ _ _ => ?_
      refine (Check.Edited.reading fun _ _ hσ => hformat.typing hσ).bind fun _ _ _ => ?_
      refine (Check.Edited.reading fun _ _ hσ => harguments.typing hσ).bind ?_
      rintro given _ rfl
      refine (Check.Edited.require _).bind fun _ _ _ => (Check.Edited.require _).bind
        fun _ _ _ => ?_
      rw [hformat.formatToken?]
      cases htoken : format.formatToken? with
      | none => exact .pure rfl
      | some token =>
          -- a format is a string, so its lexeme is kept
          have hkind := (Option.filter_eq_some_iff.1 htoken).2
          exact .lift (edited_formatCheck .printf (.of_kind (eq_of_beq hkind) nofun) given)
  | _, _, .scanf hformat harguments => by
      refine (Check.Edited.require _).bind fun _ _ _ => ?_
      refine (Check.Edited.lift (edited_get hformat)).bind ?_
      rintro token _ ⟨rfl, htoken⟩
      refine (Check.Edited.reading fun _ _ hσ => harguments.typing hσ).bind ?_
      rintro given _ rfl
      exact (Check.Edited.require _).bind fun _ _ _ => (Check.Edited.require _).bind
        fun _ _ _ => .lift (edited_formatCheck .scanf htoken given)
  | _, _, .assignment ha =>
      (Check.Edited.reading fun _ _ hσ => ha.check hσ).bind fun _ _ _ => .require _
  | _, _, .missing => .lift (.stop _)

/-- Statements one after the other, each settled before the next. -/
theorem Stmts.Edited.check (context : Context) : ∀ {s s' : Stmts}, s.Edited E s' →
    (s.check context).Edited E Eq (s'.check (E.context context))
  | _, _, .nil => .pure rfl
  | _, _, .cons hfirst hrest =>
      (hfirst.check context).settled.bind fun _ _ _ => hrest.check context

/-- Labels are constants and no names, so the labels that were seen are the same in both editions.
-/
theorem Clauses.Edited.check (context : Context) (seen : List String) (hasDefault : Bool) :
    ∀ {c c' : Clauses}, c.Edited E c' →
      (c.check context seen hasDefault).Edited E Eq
        (c'.check (E.context context) seen hasDefault)
  | _, _, .nil => .pure rfl
  | _, _, @Clauses.Edited.case _ _ (.missing hole) _ _ _ _ hrest =>
      (Check.Edited.lift (.stop hole)).settled.bind
        fun _ _ _ => hrest.check context seen hasDefault
  | _, _, @Clauses.Edited.case _ _ (.found value) _ _ _ hvalue hrest => by
      have hcomplain : (Finding.complain (value.lexeme ∉ seen) (.duplicateCase value.lexeme)
          (some value)).Edited E Eq (.complain ((E.token value).lexeme ∉ seen)
            (.duplicateCase (E.token value).lexeme) (some (E.token value))) := by
        rw [hvalue.of_found.lexeme]
        exact .complain rfl (.duplicateCase value.lexeme) (some value)
      refine (Check.Edited.lift hcomplain).bind fun _ _ _ => ?_
      refine (Check.Edited.lift (edited_require _)).settled.bind fun _ _ _ => ?_
      show Check.Edited E Eq _ (Clauses.check _ ((E.token value).lexeme :: seen) hasDefault _)
      rw [hvalue.of_found.lexeme]
      exact hrest.check context (value.lexeme :: seen) hasDefault
  | _, _, @Clauses.Edited.default _ keyword _ _ _ hrest =>
      (Check.Edited.lift (.complain rfl .duplicateDefault (some keyword))).bind fun _ _ _ =>
        (Check.Edited.lift (edited_require _)).settled.bind
          fun _ _ _ => hrest.check context seen true
  | _, _, .stmt hfirst hrest =>
      (hfirst.check context).settled.bind fun _ _ _ => hrest.check context seen hasDefault

end

end MiniC
