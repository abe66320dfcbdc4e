import MiniC.Proofs.Names.Checking

/-!
# `MiniC.Proofs.Names.Declarations` — declarations go through their steps

What a declaration declares is told from its tree alone: the base type that its type specifier
names, the types of its variables, the struct, the parameters.  So checking a declaration without
holes goes through its steps.

The type of a function is looked at inside the region of its parameters.  Nothing is declared
there yet, so it might as well be looked at in front.

## Contents
- `outcome_resolve`, `withSuffix_eq`, `withParamArray_eq`: the types in declarations.
- `takes_declarator`, `takes_declaration`: variables.
- `looks_checkFields`, `takes_structDecl`: structs.
- `takes_param`, `takes_headed`: **a function declares its parameters in a region of its own.**
-/

namespace MiniC

/-! ## Types -/

theorem Finding.outcome_complain_bind {α : Type} (fine : Bool) (fault : Fault)
    (site : Option Token) (next : Finding α) :
    (Finding.complain fine fault site >>= fun _ => next).outcome = next.outcome := by
  cases fine <;> rfl

/-- The base type that a type specifier names does not depend on the symbols. -/
theorem outcome_resolve {spec : TypeSpec} (h : spec.trace = .clear) (enclosing : Option String)
    (σ : Symbols) : (spec.resolve σ enclosing).outcome = .ok spec.base := by
  cases spec with
  | words first rest => rfl
  | struct keyword name =>
      obtain ⟨token, rfl⟩ := Slot.exists_of_clear h
      exact Finding.outcome_complain_bind _ _ _ (pure (BaseType.struct token.lexeme))
  | missing hole => exact nomatch congrArg Trace.stop h

/-- Brackets without holes only make an array. -/
theorem withSuffix_eq {array : Option ArraySuffix}
    (h : array.elim .clear ArraySuffix.trace = .clear) (t : CType) :
    t.withSuffix array = pure (t.bracketed array.isSome) := by
  cases array with
  | none => rfl
  | some suffix =>
      obtain ⟨opening, size, closing⟩ := suffix
      obtain ⟨hsize, hclosing⟩ := Trace.andThen_eq_clear.1 h
      obtain ⟨size, rfl⟩ := Slot.exists_of_clear hsize
      obtain ⟨closing, rfl⟩ := Slot.exists_of_clear hclosing
      rfl

/-- The same for the brackets of a parameter. -/
theorem withParamArray_eq {array : Option ParamArray}
    (h : array.elim .clear (·.closing.trace) = .clear) (t : CType) :
    t.withParamArray array = pure (t.bracketed array.isSome) := by
  cases array with
  | none => rfl
  | some suffix =>
      obtain ⟨opening, size, closing⟩ := suffix
      obtain ⟨closing, rfl⟩ := Slot.exists_of_clear h
      rfl

theorem takes_resolve {spec : TypeSpec} (h : spec.trace = .clear) :
    (Check.reading fun σ => spec.resolve σ none).Takes spec.steps spec.tokens spec.base := by
  have hwords : ∀ σ, complaints σ (plain spec.tokens) = complaints σ [] :=
    fun _ => complaints_plain _
  exact (Check.Takes.look ((looks_resolve h none).of_words hwords)
    (outcome_resolve h none)).of_eq rfl (map_token_plain _).symm

/-! ## Variables -/

theorem map_token_initWords (init : Option (Token × Expr)) :
    (initWords init).map Word.token = initTokens init := by
  cases init with
  | none => rfl
  | some init => simp [initWords, initTokens]

theorem onlyLooks_initializer (name : Token) (type : CType) {init : Option (Token × Expr)}
    (h : init.elim .clear (·.2.trace) = .clear) :
    (checkInitializer name type init).OnlyLooks (initWords init) := by
  cases init with
  | none => exact .reading (.pure ())
  | some init =>
      exact ((Check.OnlyLooks.reading (looks_typing init.2 h)).bind_quiet fun _ =>
        .complain _ rfl _).of_words fun _ => by simp [initWords]

/-- A variable is declared at its name, in front of its initial value. -/
theorem takes_declarator (base : BaseType) (isConst : Bool) {d : Declarator}
    (h : d.trace = .clear) :
    (d.check base isConst).Takes (d.steps base isConst) d.tokens () := by
  obtain ⟨stars, name, array, init⟩ := d
  obtain ⟨hname, harray, hinit⟩ := by
    simpa only [Declarator.trace, Trace.andThen_eq_clear] using h
  obtain ⟨name, rfl⟩ := Slot.exists_of_clear hname
  let d : Declarator := ⟨stars, .found name, array, init⟩
  have hcheck : d.check base isConst = (do
      Finding.complain (!(d.type base).isVoid) (.voidVariable name.lexeme) name
      declareVariable name (d.type base) isConst
      checkInitializer name (d.type base) init : Check Unit) := by
    simp only [d, Declarator.check, withSuffix_eq harray]
    rfl
  have hvoid : (Finding.complain (!(d.type base).isVoid) (.voidVariable name.lexeme) name).Quiet :=
    .complain _ rfl _
  have hinitial := (Check.Takes.of_looks (onlyLooks_initializer name (d.type base) hinit)).passes
    (array.elim [] ArraySuffix.tokens)
  have htakes := ((Check.Takes.look_unit (.quiet hvoid)).seq
    ((Check.Takes.declare name (d.type base) isConst).seq hinitial)).passes stars
  show (d.check base isConst).Takes (d.steps base isConst) d.tokens ()
  rw [hcheck]
  refine htakes.of_eq ?_ ?_
  · simp [d, Declarator.steps, Slot.tokens]
  · rw [map_token_initWords]
    simp [d, Declarator.tokens, Slot.tokens]

/-- Variables behind commas. -/
theorem takes_declarators (base : BaseType) (isConst : Bool)
    {others : List (Token × Declarator)}
    (h : Trace.all (others.map (·.2.trace)) = .clear) :
    (checkDeclarators base isConst (others.map (·.2))).Takes
      (others.flatMap fun other => .pass other.1 :: other.2.steps base isConst)
      (others.flatMap fun other => other.1 :: other.2.tokens) () := by
  induction others with
  | nil => exact .pure ()
  | cons other others ih =>
      obtain ⟨hother, hothers⟩ := Trace.andThen_eq_clear.1 h
      exact ((takes_declarator base isConst hother).bind (ih hothers)).passes [other.1]

theorem takes_declaration {d : Declaration} (h : d.trace = .clear) :
    d.check.Takes d.steps d.tokens () := by
  obtain ⟨hspec, hvariables, hsemicolon⟩ := by
    simpa only [Declaration.trace, Trace.andThen_eq_clear] using h
  obtain ⟨hfirst, hothers⟩ := Trace.andThen_eq_clear.1 hvariables
  have hdeclared := (takes_declarator d.spec.base (hasConst d.qualifiers) hfirst).seq
    (takes_declarators d.spec.base (hasConst d.qualifiers) hothers)
  refine (((takes_resolve hspec).bind (hdeclared.seq (.require hsemicolon))).passes
    d.qualifiers).of_eq ?_ ?_
  · simp only [Declaration.steps, List.append_assoc]
  · simp only [Declaration.tokens, List.append_assoc]

/-! ## Structs -/

theorem quiet_admit (struct : StructDef) (name : Token) (type : CType) :
    Finding.Quiet ( struct.admit name type) := by
  unfold StructDef.admit
  by_cases hknown : (struct.field? name.lexeme).isSome = true
  · rw [StructDef.tryField_of_known hknown]
    exact (Finding.Quiet.report rfl _).bind fun _ => .pure _
  · rw [StructDef.tryField_of_new hknown]
    exact .pure _

/-- A field looks up no variable, and what it adds does not depend on the symbols. -/
theorem looks_field {field : Field} (h : field.trace = .clear) (struct : StructDef) :
    Looks (fun σ => field.check σ struct) [] ∧
      ∃ extended, ∀ σ, (field.check σ struct).outcome = .ok extended := by
  obtain ⟨qualifiers, spec, stars, name, array, semicolon⟩ := field
  obtain ⟨hspec, hname, harray, hsemicolon⟩ := by
    simpa only [Field.trace, Trace.andThen_eq_clear] using h
  obtain ⟨name, rfl⟩ := Slot.exists_of_clear hname
  obtain ⟨semicolon, rfl⟩ := Slot.exists_of_clear hsemicolon
  let extend (base : BaseType) : Finding StructDef :=
    struct.admit name (((CType.plain base).withStars stars).bracketed array.isSome)
  have hcheck : ∀ σ, Field.check σ struct
      ⟨qualifiers, spec, stars, .found name, array, .found semicolon⟩ =
        spec.resolve σ (some struct.name) >>= extend := by
    intro σ
    simp only [Field.check, withSuffix_eq harray]
    rfl
  obtain ⟨extended, hextended⟩ := ( quiet_admit struct name
    (((CType.plain spec.base).withStars stars).bracketed array.isSome)).whole
  simp only [hcheck]
  refine ⟨(looks_resolve hspec (some struct.name)).bind_quiet fun base => quiet_admit _ _ _,
    extended, fun σ => ?_⟩
  rw [Finding.bind_eq, Finding.andThen, outcome_resolve hspec]
  exact hextended

/-- Without a hole there is nothing to recover from. -/
theorem Looks.settledWith_eq {α : Type} {f : Symbols → Finding α} {words : List Word}
    (h : Looks f words) (default : α) (σ : Symbols) : (f σ).settledWith default = f σ := by
  obtain ⟨a, ha⟩ := h.whole σ
  rw [Finding.settledWith, ha]
  exact Finding.ext rfl ha.symm

/-- Fields look up no variables, and what they add does not depend on the symbols. -/
theorem looks_checkFields {fields : List Field}
    (h : Trace.all (fields.map (·.trace.settled)) = .clear) (struct : StructDef) :
    Looks (fun σ => checkFields σ struct fields) [] ∧
      ∃ whole, ∀ σ, (checkFields σ struct fields).outcome = .ok whole := by
  induction fields generalizing struct with
  | nil => exact ⟨.pure struct, struct, fun _ => rfl⟩
  | cons field fields ih =>
      obtain ⟨hfield, hfields⟩ :=
        (@Trace.andThen_eq_clear field.trace.settled (Trace.all _)).1 h
      obtain ⟨hlooks, extended, hextended⟩ := looks_field (Trace.settled_eq_clear.1 hfield) struct
      obtain ⟨-, whole, hwhole⟩ := ih hfields extended
      have hcheck : ∀ σ, checkFields σ struct (field :: fields) =
          field.check σ struct >>= fun extended => checkFields σ extended fields := by
        intro σ
        rw [checkFields, hlooks.settledWith_eq struct σ]
      simp only [hcheck]
      refine ⟨hlooks.bind fun extended => (ih hfields extended).1, whole, fun σ => ?_⟩
      rw [Finding.bind_eq, Finding.andThen, hextended]
      exact hwhole σ

theorem takes_structDecl {s : StructDecl} (h : s.trace = .clear) :
    s.check.Takes s.steps s.tokens () := by
  obtain ⟨hfields, hclosing, hsemicolon⟩ := by
    simpa only [StructDecl.trace, Trace.andThen_eq_clear] using h
  let start : StructDef := ⟨s.name.lexeme, s.name.location.line, []⟩
  let head : List Token := s.keyword :: s.name :: s.opening :: s.fields.flatMap Field.tokens
  obtain ⟨hlooks, whole, hwhole⟩ := looks_checkFields hfields start
  have hstruct : s.struct = whole := by
    show (checkFields .empty start s.fields).outcome.toOption.getD start = whole
    rw [hwhole]
    rfl
  have hwords : Looks (fun σ => checkFields σ start s.fields) (plain head) :=
    hlooks.of_words fun _ => complaints_plain _
  have hdeclared : (Check.register (·.tryStruct s.struct) s.name).Takes
      [.struct s.name s.struct] [] () := .register (fun _ => rfl) trivial fun _ => rfl
  rw [← hstruct] at hwhole
  refine ((Check.Takes.look hwords hwhole).bind (hdeclared.seq ((Check.Takes.require hclosing).seq
    (.require hsemicolon)))).of_eq ?_ ?_
  · simp only [StructDecl.steps, passing, List.map_append]
    rfl
  · simp only [StructDecl.tokens, map_token_plain]
    simp [head]

/-! ## Functions -/

/-- A parameter is declared at its name. -/
theorem takes_param {p : Param} (h : p.trace = .clear) :
    p.check.Takes p.steps p.tokens ⟨p.name.lexeme, p.type⟩ := by
  obtain ⟨qualifiers, spec, stars, name, array⟩ := p
  obtain ⟨hspec, hname, harray⟩ := by
    simpa only [Param.trace, Trace.andThen_eq_clear] using h
  obtain ⟨name, rfl⟩ := Slot.exists_of_clear hname
  let p : Param := ⟨qualifiers, spec, stars, .found name, array⟩
  let typed (base : BaseType) : CType :=
    ((CType.plain base).withStars stars).bracketed array.isSome
  have hcheck : p.check = (do
      let base ← Check.reading fun σ => spec.resolve σ none
      declareVariable name (typed base) (hasConst qualifiers)
      pure ⟨name.lexeme, typed base⟩ : Check Parameter) := by
    simp only [p, Param.check, withParamArray_eq harray]
    rfl
  have hdeclared := (Check.Takes.declare name p.type (hasConst qualifiers)).seq
    (.passing (⟨name.lexeme, p.type⟩ : Parameter) (array.elim [] ParamArray.tokens))
  show p.check.Takes p.steps p.tokens ⟨name.lexeme, p.type⟩
  rw [hcheck]
  exact (((takes_resolve hspec).bind (hdeclared.passes stars)).passes qualifiers).of_eq rfl rfl

/-- Parameters behind commas. -/
theorem takes_others {others : List (Token × Param)}
    (h : Trace.all (others.map (·.2.trace)) = .clear) :
    (checkParams (others.map (·.2))).Takes
      (others.flatMap fun other => .pass other.1 :: other.2.steps)
      (others.flatMap fun other => other.1 :: other.2.tokens)
      (others.map fun other => ⟨other.2.name.lexeme, other.2.type⟩) := by
  induction others with
  | nil => exact .pure []
  | cons other others ih =>
      obtain ⟨hother, hothers⟩ := Trace.andThen_eq_clear.1 h
      have hrest := (ih hothers).map fun rest =>
        (⟨other.2.name.lexeme, other.2.type⟩ : Parameter) :: rest
      exact (((takes_param hother).bind hrest).passes [other.1]).of_eq
        (by simp [passing]) (by simp)

theorem takes_params {ps : Params} (h : ps.trace = .clear) :
    (checkParams ps.toList).Takes ps.steps ps.tokens
      (ps.toList.map fun p => ⟨p.name.lexeme, p.type⟩) := by
  cases ps with
  | none => exact .pure []
  | void word => exact .passing [] [word]
  | list first others =>
      obtain ⟨hfirst, hothers⟩ := Trace.andThen_eq_clear.1 h
      have hrest := (takes_others hothers).map fun rest =>
        (⟨first.name.lexeme, first.type⟩ : Parameter) :: rest
      simp only [Params.toList, List.map_cons, List.map_map]
      refine (((takes_param hfirst).bind hrest).of_eq ?_ ?_)
      · simp [Params.steps]
      · simp [Params.tokens]

/-- Nothing is declared where a scope was just opened, so a look might as well be in front. -/
theorem Looks.inScope_reading {α β : Type} {f : Symbols → Finding α} {words : List Word}
    (h : Looks f words) (next : α → Check β) :
    Check.inScope (Check.reading f >>= next) =
      Check.reading f >>= fun a => Check.inScope (next a) := by
  funext σ
  obtain ⟨a, ha⟩ := h.whole σ
  have henter : f σ.enter = f σ := h.alike _ _ (.enter σ)
  simp only [Check.inScope, Check.bind_run, Check.reading, henter, ha]

/-- **A function declares its parameters in a region of its own,** which begins behind its name,
and itself behind them. -/
theorem takes_headed {h : Header} (hclear : h.trace = .clear) (defined : Bool)
    {next : Enclosing → Check Unit} {steps : List Step} {text : List Token}
    (hnext : (next h.enclosing).Takes steps text ()) :
    (Check.inScope (h.check defined >>= next)).Takes
      (h.typeSteps ++ region (h.paramSteps defined ++ steps)) (h.tokens ++ text) () := by
  obtain ⟨qualifiers, spec, stars, name, opening, params, closing⟩ := h
  obtain ⟨hspec, hname, hopening, hparams, hclosing⟩ := by
    simpa only [Header.trace, Trace.andThen_eq_clear] using hclear
  obtain ⟨name, rfl⟩ := Slot.exists_of_clear hname
  let h : Header := ⟨qualifiers, spec, stars, .found name, opening, params, closing⟩
  let returned (base : BaseType) : CType := (CType.plain base).withStars stars
  let declared (base : BaseType) (parameters : List Parameter) : Check Unit :=
    Check.register (·.tryFunction
      ⟨name.lexeme, returned base, parameters, name.location.line, defined⟩) name
  let behindType (base : BaseType) : Check Unit := do
    opening.require
    let parameters ← checkParams params.toList
    closing.require
    declared base parameters
    next ⟨name.lexeme, returned base⟩
  have hcheck : h.check defined >>= next =
      (Check.reading fun σ => spec.resolve σ none) >>= behindType := by
    simp only [h, Header.check, bind_assoc, pure_bind]
    rfl
  let parameters : List Parameter := params.toList.map fun p => ⟨p.name.lexeme, p.type⟩
  have hdeclared : (declared spec.base parameters).Takes
      [.function name ⟨name.lexeme, returned spec.base, parameters, name.location.line, defined⟩]
      [] () := .register (fun _ => rfl) trivial fun _ => rfl
  have hbehind : (behindType spec.base).Takes (h.paramSteps defined ++ steps)
      (opening.tokens ++ (params.tokens ++ closing.tokens) ++ text) () := by
    refine ((Check.Takes.require hopening).seq ((takes_params hparams).bind
      ((Check.Takes.require hclosing).seq (hdeclared.seq hnext)))).of_eq ?_ ?_
    · simp [h, Header.paramSteps, Slot.tokens, Header.enclosing, parameters, returned, Slot.lexeme]
    · simp
  show (Check.inScope (h.check defined >>= next)).Takes
    (h.typeSteps ++ region (h.paramSteps defined ++ steps)) (h.tokens ++ text) ()
  rw [hcheck, (looks_resolve hspec none).inScope_reading]
  refine (((takes_resolve hspec).bind (hbehind.region.passes (stars ++ [name]))).passes
    qualifiers).of_eq ?_ ?_
  · simp only [h, Header.typeSteps, Slot.tokens, List.append_assoc]
  · simp [h, Header.tokens, Header.typeTokens, Slot.tokens]

end MiniC
