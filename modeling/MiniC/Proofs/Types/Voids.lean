import MiniC.Proofs.Checking.Faults
import MiniC.Proofs.Names.Resolution
import MiniC.Proofs.Types.Carrying
import MiniC.Proofs.Types.Resolved

/-!
# `MiniC.Proofs.Types.Voids` — which names of type void are complained about

A name enters a scope in one of two ways.  A declared variable is complained about in front of its
declaration if its type is plain `void`.  A parameter is declared without a look at its type: of a
parameter list only the lone `void` is left out, by the reader.  So whatever has type void in the
course of an analysis was complained about, or a header of the program has a parameter of that
name and type.

## Contents
- `Complained`: the complaint about a variable of type void.
- `Param.Declares`, `Param.Gives`: what a parameter declares, and what it adds to its function.
- `VoidsKnown`, with `Declaration.preserves_voids`, `Header.preserves_voids`: every variable of type
  void is complained about, or known beforehand.
- `Param.finds_declarative`: **the check of a parameter does not ask whether its type is void.**
- `TokenStream.ReportsVoids`, `voids_reported`: **every declared variable of type void is
  reported, no parameter is.**
-/

namespace MiniC

open Check (Course)

/-! ## Where names of type void come from -/

/-- It was found that the variable is declared void, at a name where it is declared. -/
def Complained (found : List Issue) (v : Variable) : Prop :=
  ∃ name : Token, name.lexeme = v.name ∧ name.location.line = v.line ∧
    .fault (.voidVariable v.name) (some name) ∈ found

namespace Param

/-- The variable is the one that a parameter declares. -/
def Declares (p : Param) (v : Variable) : Prop :=
  ∃ name, p.name = .found name ∧
    v = ⟨name.lexeme, p.type, hasConst p.qualifiers, name.location.line⟩

/-- The parameter of a function is the one that a parameter stands for. -/
def Gives (p : Param) (parameter : Parameter) : Prop :=
  ∃ name, p.name = .found name ∧ parameter = ⟨name.lexeme, p.type⟩

end Param

/-- Every variable of type void is complained about or is one of those that are known as `K`, and
every parameter of a function is known as `G`. -/
structure VoidsKnown (K : Variable → Prop) (G : Parameter → Prop) (moment : Moment) : Prop where
  bound : ∀ v ∈ moment.symbols.scopes.flatten, v.type.isVoid = true →
    Complained moment.found v ∨ K v
  functions : ∀ f ∈ moment.symbols.functions, ∀ parameter ∈ f.parameters, G parameter

theorem Complained.more {found : List Issue} {v : Variable} (h : Complained found v)
    (more : List Issue) : Complained (found ++ more) v := by
  obtain ⟨name, hname, hline, hmem⟩ := h
  exact ⟨name, hname, hline, List.mem_append_left _ hmem⟩

section Known

variable {K : Variable → Prop} {G : Parameter → Prop}

theorem lasting_voids : Lasting (VoidsKnown K G) where
  issues h more :=
    ⟨fun v hv hvoid => (h.bound v hv hvoid).imp_left (·.more more), h.functions⟩
  enter h := ⟨h.bound, h.functions⟩
  leave {σ _} h := by
    refine ⟨fun v hv => h.bound v ?_, h.functions⟩
    obtain ⟨scope, hscope, hv⟩ := List.mem_flatten.1 hv
    exact List.mem_flatten_of_mem (List.mem_of_mem_tail hscope) hv

variable {σ : Symbols} {found : List Issue}

/-! ## What declarations add -/

theorem VoidsKnown.declareVariable (h : VoidsKnown K G ⟨σ, none, found⟩) {v : Variable}
    {σ' : Symbols} (hv : v.type.isVoid = true → Complained found v ∨ K v)
    (hdeclared : σ.tryVariable v = (σ', .ok ())) : VoidsKnown K G ⟨σ', none, found⟩ := by
  obtain ⟨scopes, functions, structs⟩ := σ
  cases scopes with
  | nil => cases hdeclared
  | cons scope outer =>
      by_cases hknown : (scope.find? v.name).isSome = true
      · rw [Symbols.tryVariable_of_known hknown] at hdeclared
        cases hdeclared
      · rw [Symbols.tryVariable_of_new hknown] at hdeclared
        cases hdeclared
        exact ⟨List.forall_mem_cons.2 ⟨hv, h.bound⟩, h.functions⟩

/-- A function that is declared is new, takes the place of its prototype, or leaves all as it
was. -/
theorem declareFunction_functions {f : Function} {σ' : Symbols}
    (hdeclared : σ.tryFunction f = (σ', .ok ())) :
    σ'.scopes = σ.scopes ∧ ∀ g ∈ σ'.functions, g = f ∨ g ∈ σ.functions := by
  have hdeclares := σ.declaresFunction f
  rw [hdeclared] at hdeclares
  cases hdeclares with
  | first => exact ⟨rfl, fun g hg => List.mem_cons.1 hg⟩
  | announced => exact ⟨rfl, fun g hg => .inr hg⟩
  | defined =>
      refine ⟨rfl, fun g hg => ?_⟩
      obtain ⟨known, hknown, rfl⟩ := List.mem_map.1 hg
      by_cases hsame : (known.name == f.name) = true
      · exact .inl (if_pos hsame)
      · rw [if_neg hsame]
        exact .inr hknown

theorem VoidsKnown.declareFunction (h : VoidsKnown K G ⟨σ, none, found⟩) {f : Function}
    {σ' : Symbols} (hf : ∀ parameter ∈ f.parameters, G parameter)
    (hdeclared : σ.tryFunction f = (σ', .ok ())) : VoidsKnown K G ⟨σ', none, found⟩ := by
  obtain ⟨hscopes, hfunctions⟩ := declareFunction_functions hdeclared
  refine ⟨?_, fun g hg => ?_⟩
  · rw [hscopes]
    exact h.bound
  · rcases hfunctions g hg with rfl | hold
    · exact hf
    · exact h.functions g hold

theorem VoidsKnown.declareStruct (h : VoidsKnown K G ⟨σ, none, found⟩) {s : StructDef}
    {σ' : Symbols} (hdeclared : σ.tryStruct s = (σ', .ok ())) :
    VoidsKnown K G ⟨σ', none, found⟩ := by
  by_cases hknown : (σ.struct? s.name).isSome = true
  · rw [Symbols.tryStruct_of_known hknown] at hdeclared
    cases hdeclared
  · rw [Symbols.tryStruct_of_new hknown] at hdeclared
    cases hdeclared
    exact ⟨h.bound, h.functions⟩

/-! ## Declared variables -/

/-- A complaint is found where it is due. -/
theorem mem_complain {fine : Bool} {fault : Fault} {site : Option Token} (h : fine = false) :
    .fault fault site ∈ (Finding.complain fine fault site).issues := by
  rw [h]
  exact List.mem_singleton_self _

open Check.Course.Preserves (look thenDo)

/-- The complaint about the type comes in front of the declaration. -/
theorem Declarator.preserves_voids (base : BaseType) (isConst : Bool) (d : Declarator) :
    (d.course base isConst).Preserves (VoidsKnown K G) := by
  intro σ found hσ
  refine (look lasting_voids _ σ found hσ).bind fun name σ₁ found₁ hσ₁ _ => ?_
  refine (look lasting_voids _ σ₁ found₁ hσ₁).bind fun type σ₂ found₂ hσ₂ _ => ?_
  have hcomplaint : (Course.lift
      (Finding.complain (!type.isVoid) (.voidVariable name.lexeme) name)).Carries
        (VoidsKnown K G) σ₂ found₂ fun _ found =>
          type.isVoid = true → .fault (.voidVariable name.lexeme) (some name) ∈ found := by
    refine .reading lasting_voids hσ₂ fun _ _ hvoid => ?_
    exact List.mem_append_right _ (mem_complain (congrArg (!·) hvoid))
  refine hcomplaint.bind fun _ σ₃ found₃ hσ₃ hfound => ?_
  have hregistered : (Course.register
      (·.tryVariable ⟨name.lexeme, type, isConst, name.location.line⟩) name).Carries
        (VoidsKnown K G) σ₃ found₃ fun _ _ => True :=
    .register lasting_voids hσ₃ (Symbols.careful_tryVariable _) name fun σ' =>
      hσ₃.declareVariable fun hvoid => .inl ⟨name, rfl, rfl, hfound hvoid⟩
  refine hregistered.thenDo fun σ₄ found₄ hσ₄ => ?_
  -- the initial value declares nothing
  cases d.init with
  | none => exact look lasting_voids _ σ₄ found₄ hσ₄
  | some init =>
      exact Check.Course.Preserves.bind (look lasting_voids _) (fun _ => look lasting_voids _)
        σ₄ found₄ hσ₄

theorem preserves_voids_declarators (base : BaseType) (isConst : Bool) (ds : List Declarator) :
    (declaratorsCourse base isConst ds).Preserves (VoidsKnown K G) := by
  induction ds with
  | nil => exact look lasting_voids _
  | cons d rest ih => exact thenDo (d.preserves_voids base isConst) ih

theorem Declaration.preserves_voids (d : Declaration) :
    d.course.Preserves (VoidsKnown K G) :=
  .bind (look lasting_voids _) fun base =>
    thenDo (preserves_voids_declarators base _ _) (look lasting_voids _)

/-- While the fields of a struct are checked, the symbols stay as they are. -/
theorem symbols_of_fieldMoments (σ : Symbols) (fs : List Field) (struct : StructDef) :
    ∀ moment ∈ fieldMoments σ struct fs, moment.symbols = σ := by
  induction fs generalizing struct with
  | nil =>
      intro moment hmoment
      rw [List.mem_singleton.1 hmoment]
  | cons field rest ih =>
      intro moment hmoment
      rcases mem_fieldMoments_cons.1 hmoment with rfl | ⟨extended, -, later, hlater, rfl⟩
      · rfl
      · exact ih extended later hlater

theorem preserves_voids_fields (struct : StructDef) (fs : List Field) :
    (Course.fields struct fs).Preserves (VoidsKnown K G) := by
  intro σ found hσ
  refine ⟨fun moment hmoment => ?_, lasting_voids.issues hσ _, fun _ _ => trivial⟩
  have hmore := lasting_voids.issues hσ moment.found
  rw [← symbols_of_fieldMoments σ fs struct moment hmoment] at hmore
  exact ⟨hmore.bound, hmore.functions⟩

theorem StructDecl.preserves_voids (s : StructDecl) : s.course.Preserves (VoidsKnown K G) := by
  refine .bind (preserves_voids_fields _ s.fields) fun struct => ?_
  have hregistered : (Course.register (·.tryStruct struct) s.name).Preserves
      (VoidsKnown K G) := fun σ found hσ =>
    .register lasting_voids hσ (Symbols.careful_tryStruct struct) s.name fun σ' =>
      hσ.declareStruct
  exact thenDo hregistered (thenDo (look lasting_voids _) (look lasting_voids _))

/-! ## Parameters -/

/-- A type specifier that has a base type has the one that it names. -/
theorem yields_resolve (σ : Symbols) (enclosing : Option String) (spec : TypeSpec) :
    (spec.resolve σ enclosing).Yields (· = spec.base) := by
  cases spec with
  | words first rest => exact .pure rfl
  | struct keyword name =>
      cases name with
      | found token =>
          rw [TypeSpec.resolve, Slot.get, pure_bind]
          exact .behind fun _ => .pure rfl
      | missing hole => exact .stop hole
  | missing hole => exact .stop hole

theorem yields_get (slot : Slot) : slot.get.Yields fun name => slot = .found name := by
  cases slot with
  | found token => exact .pure rfl
  | missing hole => exact .stop hole

theorem yields_withParamArray (t : CType) (array : Option ParamArray) :
    (t.withParamArray array).Yields (· = t.bracketed array.isSome) := by
  cases array with
  | none => exact .pure rfl
  | some suffix => exact .behind fun _ => .pure rfl

/-- What a parameter declares and what it adds to its function are known. -/
def Param.Known (K : Variable → Prop) (G : Parameter → Prop) (p : Param) : Prop :=
  (∀ v, p.Declares v → K v) ∧ ∀ parameter, p.Gives parameter → G parameter

/-- Of a parameter it has to be known beforehand, as there is no look at its type. -/
theorem Param.carries_voids {p : Param} (hp : p.Known K G) (hσ : VoidsKnown K G ⟨σ, none, found⟩) :
    p.course.Carries (VoidsKnown K G) σ found fun parameter _ => G parameter := by
  refine Check.Course.Carries.bind
    (.yielding lasting_voids hσ (yields_resolve σ none p.spec)) fun base σ₁ found₁ hσ₁ hbase => ?_
  subst hbase
  refine Check.Course.Carries.bind
    (.yielding lasting_voids hσ₁ (yields_get p.name)) fun name σ₂ found₂ hσ₂ hname => ?_
  refine Check.Course.Carries.bind
    (.yielding lasting_voids hσ₂ (yields_withParamArray _ _)) fun type σ₃ found₃ hσ₃ htype => ?_
  have htype : type = p.type := htype
  subst htype
  have hregistered : (Course.register
      (·.tryVariable ⟨name.lexeme, p.type, hasConst p.qualifiers, name.location.line⟩)
        name).Carries (VoidsKnown K G) σ₃ found₃ fun _ _ => True :=
    .register lasting_voids hσ₃ (Symbols.careful_tryVariable _) name fun σ' =>
      hσ₃.declareVariable fun _ => .inr (hp.1 _ ⟨name, hname, rfl⟩)
  refine hregistered.thenDo fun σ₄ found₄ hσ₄ => ?_
  exact .yielding lasting_voids hσ₄ (.pure (hp.2 _ ⟨name, hname, rfl⟩))

theorem carries_voids_params {ps : List Param} (hps : ∀ p ∈ ps, p.Known K G)
    (hσ : VoidsKnown K G ⟨σ, none, found⟩) :
    (paramsCourse ps).Carries (VoidsKnown K G) σ found fun parameters _ =>
      ∀ parameter ∈ parameters, G parameter := by
  induction ps generalizing σ found with
  | nil => exact .yielding lasting_voids hσ (.pure nofun)
  | cons p rest ih =>
      obtain ⟨hp, hrest⟩ := List.forall_mem_cons.1 hps
      refine (p.carries_voids hp hσ).bind fun first σ₁ found₁ hσ₁ hfirst => ?_
      refine (ih hrest hσ₁).bind fun others σ₂ found₂ hσ₂ hothers => ?_
      exact .yielding lasting_voids hσ₂ (.pure (List.forall_mem_cons.2 ⟨hfirst, hothers⟩))

theorem Header.preserves_voids {h : Header} (hparams : ∀ p ∈ h.params.toList, p.Known K G)
    (defined : Bool) : (h.course defined).Preserves (VoidsKnown K G) := by
  intro σ found hσ
  refine (look lasting_voids _ σ found hσ).bind fun base σ₁ found₁ hσ₁ _ => ?_
  refine (look lasting_voids _ σ₁ found₁ hσ₁).bind fun name σ₂ found₂ hσ₂ _ => ?_
  refine (look lasting_voids _ σ₂ found₂ hσ₂).thenDo fun σ₃ found₃ hσ₃ => ?_
  refine (carries_voids_params hparams hσ₃).bind fun parameters σ₄ found₄ hσ₄ hgiven => ?_
  refine (look lasting_voids _ σ₄ found₄ hσ₄).thenDo fun σ₅ found₅ hσ₅ => ?_
  have hregistered : (Course.register
      (·.tryFunction ⟨name.lexeme, (CType.plain base).withStars h.stars, parameters,
        name.location.line, defined⟩) name).Carries (VoidsKnown K G) σ₅ found₅
        fun _ _ => True :=
    .register lasting_voids hσ₅ (Symbols.careful_tryFunction _) name fun σ' =>
      hσ₅.declareFunction hgiven
  exact hregistered.thenDo fun σ₆ found₆ hσ₆ => look lasting_voids _ σ₆ found₆ hσ₆

/-- Of the parts of a program only headers have parameters to know of. -/
theorem Declaring.preserves_voids {part : Declaring} (hparams : ∀ p ∈ part.params, p.Known K G) :
    part.Preserves (VoidsKnown K G) := by
  cases part with
  | declaration d => exact d.preserves_voids
  | struct s => exact s.preserves_voids
  | function h defined => exact Header.preserves_voids hparams defined

end Known

/-! ## What the check of a parameter finds -/

/-- Whether a fault is about a struct that is not declared or about a refused declaration. -/
def Fault.isDeclarative : Fault → Bool
  | undeclaredStruct _ | refused _ => true
  | _ => false

/-- **The check of a parameter does not ask whether its type is void:** all that it may complain
about is a struct that is not declared, and a declaration that is refused. -/
theorem Param.finds_declarative (p : Param) :
    p.check.Finds (fun cause => cause.isDeclarative = true) fun _ => True := by
  have hspec : ∀ σ, (p.spec.resolve σ none).Finds (fun cause => cause.isDeclarative = true)
      fun _ => True := by
    intro σ
    cases p.spec with
    | words first rest => exact .pure trivial
    | struct keyword name =>
        refine (Finding.Finds.get name).seq fun token => ?_
        exact Finding.Finds.seq (.complain _ rfl rfl) fun _ => .pure trivial
    | missing hole => exact .stop hole
  have harray : ∀ t : CType, (t.withParamArray p.array).Finds
      (fun cause => cause.isDeclarative = true) fun _ => True := by
    intro t
    cases p.array with
    | none => exact .pure trivial
    | some suffix => exact (Finding.Finds.require suffix.closing).seq fun _ => .pure trivial
  have hdeclared : ∀ name t, (declareVariable name t (hasConst p.qualifiers)).Finds
      (fun cause => cause.isDeclarative = true) fun _ => True := by
    intro name t σ
    rcases declareVariable_cases name t (hasConst p.qualifiers) σ with
      ⟨refusal, hrefused⟩ | ⟨scope, outer, -, hdeclared⟩
    · rw [hrefused]
      exact .report rfl rfl
    · rw [hdeclared]
      exact .pure trivial
  exact (Check.Finds.reading hspec).seq fun _ => (Check.Finds.get p.name).seq fun name =>
    (Check.Finds.lift (harray _)).seq fun t => (hdeclared name t).seq fun _ => .pure trivial

/-! ## Analyses -/

/-- The parameters in the headers of the program that the rest of a stream holds. -/
def TokenStream.params (stream : TokenStream) : List Param :=
  stream.program.declaring.flatMap Declaring.params

/-- In the course of an analysis every variable of type void is complained about or a parameter. -/
theorem TokenStream.carries_voids (stream : TokenStream) :
    (Course.inScope (stream.program.course .global)).Carries
      (VoidsKnown (fun v => ∃ p ∈ stream.params, p.Declares v)
        (fun parameter => ∃ p ∈ stream.params, p.Gives parameter)) .empty [] fun _ _ => True := by
  have hstatements := stream.program.preserves (lasting_voids
      (K := fun v => ∃ p ∈ stream.params, p.Declares v)
      (G := fun parameter => ∃ p ∈ stream.params, p.Gives parameter)) .global
    fun part hpart => Declaring.preserves_voids fun p hp => by
      have hmem : p ∈ stream.params := List.mem_flatMap.2 ⟨part, hpart, hp⟩
      exact ⟨fun v hv => ⟨p, hmem, hv⟩, fun parameter hgiven => ⟨p, hmem, hgiven⟩⟩
  exact Check.Course.Preserves.inScope lasting_voids hstatements _ _ ⟨nofun, nofun⟩

/-- A complaint that was found is among the diagnostics. -/
theorem Complained.diagnostic {stream : TokenStream} {v : Variable}
    (h : Complained stream.issues v) :
    ∃ d ∈ stream.analyze.diagnostics, d.severity = .semantic ∧
      d.message = s!"Variable '{v.name}' declared void" ∧ d.location.line = v.line := by
  obtain ⟨name, -, hline, hmem⟩ := h
  exact ⟨_, List.mem_map_of_mem hmem, rfl, rfl, hline⟩

/-- A variable of type void that is in scope at a moment of an analysis is reported, or a header of
the program declares it as a parameter. -/
theorem TokenStream.void_reported {stream : TokenStream} {moment : Moment}
    (hmoment : moment ∈ stream.moments) {v : Variable}
    (hv : v ∈ moment.symbols.scopes.flatten) (hvoid : v.type.isVoid = true) :
    (∃ d ∈ stream.analyze.diagnostics, d.severity = .semantic ∧
      d.message = s!"Variable '{v.name}' declared void" ∧ d.location.line = v.line) ∨
    ∃ p ∈ stream.params, p.Declares v := by
  rcases (stream.carries_voids.moments moment hmoment).bound v hv hvoid with hfound | hparam
  · -- what was found until then stands at the front of what is found in the end
    obtain ⟨later, hissues⟩ := Check.Course.prefix_of_moments _ _ moment hmoment
    have hreported : Complained stream.issues v := by
      have hmore : Complained (moment.found ++ later) v := hfound.more later
      rwa [hissues] at hmore
    exact .inl hreported.diagnostic
  · exact .inr hparam

/-- An analysis that reports the names of type void, those of parameters apart. -/
structure TokenStream.ReportsVoids (stream : TokenStream) : Prop where
  /-- A declaration complains about every variable that it declares void. -/
  declarations : ∀ (d : Declaration) (σ : Symbols), ∀ v ∈ (d.check σ).1.scopes.flatten,
    v.type.isVoid = true → v ∈ σ.scopes.flatten ∨ Complained (d.check σ).2.issues v
  /-- At every moment a variable in scope that has the type void is reported in the line of its
  name, or it is a parameter in a header of the program. -/
  moments : ∀ moment ∈ stream.moments, ∀ v ∈ moment.symbols.scopes.flatten,
    v.type.isVoid = true →
      (∃ d ∈ stream.analyze.diagnostics, d.severity = .semantic ∧
        d.message = s!"Variable '{v.name}' declared void" ∧ d.location.line = v.line) ∨
      ∃ p ∈ stream.params, p.Declares v
  /-- The parameters of functions are those of headers. -/
  functions : ∀ f ∈ stream.analyze.symbols.functions, ∀ parameter ∈ f.parameters,
    ∃ p ∈ stream.params, p.Gives parameter
  /-- If no parameter is void, an analysis without diagnostics never has a variable of type void,
  and registers no function that takes one. -/
  clean : (∀ p ∈ stream.params, p.type.isVoid = false) → stream.analyze.diagnostics = [] →
    (∀ moment ∈ stream.moments, ∀ v ∈ moment.symbols.scopes.flatten, v.type.isVoid = false) ∧
      ∀ f ∈ stream.analyze.symbols.functions, ∀ parameter ∈ f.parameters,
        parameter.type.isVoid = false
  /-- The check of a parameter never says anything about the type void. -/
  params : ∀ p ∈ stream.params, ∀ (σ : Symbols) (cause : Fault) (site : Option Token),
    .fault cause site ∈ (p.check σ).2.issues → cause.isDeclarative = true

/-- **Every declared variable of type void is reported, no parameter is.**  A declaration complains
about every variable that it declares void.  So at every moment of an analysis a variable in scope
that has the type void is reported in the line of its name, or it is a parameter in a header of
the program; and the parameters of functions are those of headers.

In a program none of whose parameters is void, an analysis without diagnostics therefore never has
a variable of type void, and registers no function that takes one.  The check of a parameter
itself never says anything about the type void. -/
theorem voids_reported (tokens : List Token) : (TokenStream.ofTokens tokens).ReportsVoids := by
  generalize TokenStream.ofTokens tokens = stream
  have hfunctions : ∀ f ∈ stream.analyze.symbols.functions, ∀ parameter ∈ f.parameters,
      ∃ p ∈ stream.params, p.Gives parameter := stream.carries_voids.behind.functions
  constructor
  case declarations =>
    intro d σ v hv hvoid
    have hdeclared := d.preserves_voids (K := (· ∈ σ.scopes.flatten)) (G := fun _ => True) σ []
      ⟨fun v hv _ => .inr hv, fun _ _ _ _ => trivial⟩
    exact (hdeclared.behind.bound v hv hvoid).symm
  case moments => exact fun moment hmoment v => TokenStream.void_reported hmoment
  case functions => exact hfunctions
  case clean =>
    intro hparams hclean
    constructor
    · intro moment hmoment v hv
      cases hvoid : v.type.isVoid with
      | false => rfl
      | true =>
          rcases TokenStream.void_reported hmoment hv hvoid with ⟨d, hd, -⟩ | ⟨p, hp, name, -, rfl⟩
          · rw [hclean] at hd
            cases hd
          · exact hvoid.symm.trans (hparams p hp)
    · intro f hf parameter hparameter
      obtain ⟨p, hp, name, -, rfl⟩ := hfunctions f hf parameter hparameter
      exact hparams p hp
  case params =>
    intro p _ σ cause site hissue
    exact ((p.finds_declarative σ).faults cause site hissue).1

/-- `void g(void *p);` -/
def pointerParameter : List Token :=
  [⟨.keyword (.type .void), "void", ⟨1, 1⟩⟩, ⟨.ident, "g", ⟨1, 6⟩⟩, ⟨.punct .lparen, "(", ⟨1, 7⟩⟩,
    ⟨.keyword (.type .void), "void", ⟨1, 8⟩⟩, ⟨.operator .star, "*", ⟨1, 13⟩⟩,
    ⟨.ident, "p", ⟨1, 14⟩⟩, ⟨.punct .rparen, ")", ⟨1, 15⟩⟩, ⟨.punct .semicolon, ";", ⟨1, 16⟩⟩]

/-- A pointer to void is not void, and nothing else is declared. -/
theorem pointerParameter_clean :
    let stream := TokenStream.ofTokens pointerParameter
    stream.params.map Param.type = [⟨.void, 1, false⟩] ∧ stream.analyze.diagnostics = [] ∧
      ∀ moment ∈ stream.moments, ∀ v ∈ moment.symbols.scopes.flatten, v.type.isVoid = false := by
  intro stream
  have hparams : stream.params.map Param.type = [⟨.void, 1, false⟩] := by decide +kernel
  have hnone : ∀ p ∈ stream.params, p.type.isVoid = false := by decide +kernel
  have hclean : stream.analyze.diagnostics = [] := by decide +kernel
  exact ⟨hparams, hclean, ((voids_reported pointerParameter).clean hnone hclean).1⟩

/-- `void f(void x);` -/
def voidParameter : List Token :=
  [⟨.keyword (.type .void), "void", ⟨1, 1⟩⟩, ⟨.ident, "f", ⟨1, 6⟩⟩, ⟨.punct .lparen, "(", ⟨1, 7⟩⟩,
    ⟨.keyword (.type .void), "void", ⟨1, 8⟩⟩, ⟨.ident, "x", ⟨1, 13⟩⟩,
    ⟨.punct .rparen, ")", ⟨1, 14⟩⟩, ⟨.punct .semicolon, ";", ⟨1, 15⟩⟩]

/-- **A parameter of type void is declared without a word.**  It is in scope, and its function is
registered with it. -/
theorem voidParameter_unreported :
    let stream := TokenStream.ofTokens voidParameter
    stream.analyze.diagnostics = [] ∧
      (∃ moment ∈ stream.moments, ∃ v ∈ moment.symbols.scopes.flatten,
        v.name = "x" ∧ v.type.isVoid = true) ∧
      ∃ f ∈ stream.analyze.symbols.functions, ∃ parameter ∈ f.parameters,
        f.name = "f" ∧ parameter.type.isVoid = true :=
  ⟨by decide +kernel, by decide +kernel, by decide +kernel⟩

end MiniC
