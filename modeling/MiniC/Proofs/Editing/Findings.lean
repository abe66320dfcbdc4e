import MiniC.Proofs.Editing.Trees
import MiniC.Stmt.Check
import Mathlib.Data.Prod.Basic

/-!
# `MiniC.Proofs.Editing.Findings` — checks run side by side on two editions

Under the symbols of two editions the same names are declared, so every look-up finds something in
both or in neither, and what is declared in one is declared in the other.  That two checks find the
same is kept by every way to put checks together, with one lemma for each.

## Contents
- `Function.renamed`, `Function.onLine`, …: what another edition makes of what is declared.
- `Symbols.Edited`: symbols in two editions, with the look-ups and the declarations.
- `Finding.Edited`, `Check.Edited`: **findings and checks in two editions**, with `bind`,
  `report`, `register`, `inScope`, ….
-/

namespace MiniC

variable (E : Edition)

/-! ## Symbols -/

/-- The token at which a name was declared: its line is the line of the declaration. -/
def Edition.Declared (name : String) (line line' : Nat) : Prop :=
  ∃ t, E.Names t ∧ t.lexeme = name ∧ line = t.location.line ∧ line' = (E.place t.location).line

/-- A parameter with other names. -/
def Parameter.renamed (name : String → String) (p : Parameter) : Parameter :=
  ⟨name p.name, p.type.renamed name⟩

/-- A function with other names, also in its types. -/
def Function.renamed (name : String → String) (f : Function) : Function :=
  { f with
    name := name f.name
    returns := f.returns.renamed name
    parameters := f.parameters.map (Parameter.renamed name) }

/-- A struct with other names, also in the types of its fields. -/
def StructDef.renamed (name : String → String) (s : StructDef) : StructDef :=
  { s with
    name := name s.name
    fields := s.fields.map (Prod.map name (CType.renamed name)) }

/-- A function declared on another line. -/
def Function.onLine (line : Nat) (f : Function) : Function := { f with line := line }

/-- A struct declared on another line. -/
def StructDef.onLine (line : Nat) (s : StructDef) : StructDef := { s with line := line }

/-- A parameter in an edition. -/
def Edition.parameter (p : Parameter) : Parameter := p.renamed E.name

/-- A variable in two editions. -/
structure Variable.Edited (v v' : Variable) : Prop where
  name : v'.name = E.name v.name
  type : v'.type = E.type v.type
  isConst : v'.isConst = v.isConst

/-- A function in two editions. -/
structure Function.Edited (f f' : Function) : Prop where
  declared : E.Declared f.name f.line f'.line
  name : f'.name = E.name f.name
  returns : f'.returns = E.type f.returns
  parameters : f'.parameters = f.parameters.map E.parameter
  defined : f'.defined = f.defined

/-- A struct in two editions. -/
structure StructDef.Edited (s s' : StructDef) : Prop where
  declared : E.Declared s.name s.line s'.line
  name : s'.name = E.name s.name
  fields : s'.fields = s.fields.map (Prod.map E.name E.type)

/-- Symbols in two editions. -/
structure Symbols.Edited (σ σ' : Symbols) : Prop where
  scopes : List.Forall₂ (List.Forall₂ (Variable.Edited E)) σ.scopes σ'.scopes
  functions : List.Forall₂ (Function.Edited E) σ.functions σ'.functions
  structs : List.Forall₂ (StructDef.Edited E) σ.structs σ'.structs

variable {E}

/-- Beside its names, only the line of a function may be another one. -/
theorem Function.Edited.eq_onLine {f f' : Function} (h : f.Edited E f') :
    f' = (f.renamed E.name).onLine f'.line := by
  rw [Function.onLine, Function.renamed, Function.mk.injEq]
  exact ⟨h.name, h.returns, h.parameters, rfl, h.defined⟩

/-- Beside its names, only the line of a struct may be another one. -/
theorem StructDef.Edited.eq_onLine {s s' : StructDef} (h : s.Edited E s') :
    s' = (s.renamed E.name).onLine s'.line := by
  rw [StructDef.onLine, StructDef.renamed, StructDef.mk.injEq]
  exact ⟨h.name, rfl, h.fields⟩

section Lookup

variable {α : Type} {R : α → α → Prop} {key : α → String} {l l' : List α}

/-- A name is found in two editions or in neither. -/
theorem edited_find? (hkey : ∀ a a', R a a' → key a' = E.name (key a)) (h : List.Forall₂ R l l')
    (name : String) :
    (l.find? (key · == name) = none ∧ l'.find? (key · == E.name name) = none) ∨
      ∃ a a', l.find? (key · == name) = some a ∧ l'.find? (key · == E.name name) = some a' ∧
        R a a' := by
  induction h with
  | nil => exact .inl ⟨rfl, rfl⟩
  | @cons a a' l l' ha _ ih =>
      rw [List.find?_cons, List.find?_cons, hkey a a' ha, Edition.name_beq]
      cases key a == name with
      | true => exact .inr ⟨a, a', rfl, rfl, ha⟩
      | false => exact ih

/-- What is known in one text is known in the other. -/
theorem isSome_edited {o o' : Option α}
    (h : (o = none ∧ o' = none) ∨ ∃ a a', o = some a ∧ o' = some a' ∧ R a a') :
    o'.isSome = o.isSome := by
  rcases h with ⟨hnone, hnone'⟩ | ⟨_, _, hsome, hsome', _⟩
  · rw [hnone, hnone']
  · rw [hsome, hsome']
    rfl

end Lookup

theorem forall₂_tail {α : Type} {R : α → α → Prop} {l l' : List α} (h : List.Forall₂ R l l') :
    List.Forall₂ R l.tail l'.tail := by
  cases h with
  | nil => exact .nil
  | cons _ htail => exact htail

/-- A field is found under its other name, with the edited type. -/
theorem StructDef.Edited.field? {s s' : StructDef} (h : s.Edited E s') (name : String) :
    s'.field? (E.name name) = (s.field? name).map E.type := by
  rw [StructDef.field?, StructDef.field?, h.fields]
  induction s.fields with
  | nil => rfl
  | cons field fields ih =>
      rw [List.map_cons, Prod.map, List.lookup_cons, List.lookup_cons, Edition.name_beq]
      cases name == field.1 with
      | true => rfl
      | false => exact ih

namespace Symbols.Edited

variable {σ σ' : Symbols}

/-- A variable is found under its other name, or in neither text. -/
theorem var? (h : σ.Edited E σ') (name : String) :
    (σ.var? name = none ∧ σ'.var? (E.name name) = none) ∨
      ∃ v v', σ.var? name = some v ∧ σ'.var? (E.name name) = some v' ∧ v.Edited E v' := by
  obtain ⟨scopes, functions, structs⟩ := σ
  obtain ⟨scopes', functions', structs'⟩ := σ'
  obtain ⟨hscopes : List.Forall₂ _ scopes scopes', -, -⟩ := h
  unfold Symbols.var? Scopes.find?
  induction hscopes with
  | nil => exact .inl ⟨rfl, rfl⟩
  | @cons scope scope' outer outer' hscope _ ih =>
      rw [List.findSome?_cons, List.findSome?_cons]
      rcases edited_find? (fun _ _ hv => hv.name) hscope name with
        ⟨hnone, hnone'⟩ | ⟨v, v', hsome, hsome', hv⟩
      · rw [Scope.find?, Scope.find?, hnone, hnone']
        exact ih
      · rw [Scope.find?, Scope.find?, hsome, hsome']
        exact .inr ⟨v, v', rfl, rfl, hv⟩

/-- So is a function, -/
theorem function? (h : σ.Edited E σ') (name : String) :
    (σ.function? name = none ∧ σ'.function? (E.name name) = none) ∨
      ∃ f f', σ.function? name = some f ∧ σ'.function? (E.name name) = some f' ∧
        f.Edited E f' :=
  edited_find? (fun _ _ hf => hf.name) h.functions name

/-- and a struct. -/
theorem struct? (h : σ.Edited E σ') (name : String) :
    (σ.struct? name = none ∧ σ'.struct? (E.name name) = none) ∨
      ∃ s s', σ.struct? name = some s ∧ σ'.struct? (E.name name) = some s' ∧
        s.Edited E s' :=
  edited_find? (fun _ _ hs => hs.name) h.structs name

theorem enter (h : σ.Edited E σ') : σ.enter.Edited E σ'.enter :=
  ⟨.cons .nil h.scopes, h.functions, h.structs⟩

theorem leave (h : σ.Edited E σ') : σ.leave.Edited E σ'.leave :=
  ⟨forall₂_tail h.scopes, h.functions, h.structs⟩

theorem depth (h : σ.Edited E σ') : σ'.depth = σ.depth := h.scopes.length_eq.symm

end Symbols.Edited

/-! ## Declarations -/

variable (E) in
/-- Declaring something in two editions: both times it succeeds, or it is refused for the same
reason. -/
def EditedDeclaration (declare declare' : Symbols → Attempt Symbols) : Prop :=
  ∀ σ σ', σ.Edited E σ' → (declare σ).1.Edited E (declare' σ').1 ∧
    (declare' σ').2 = (declare σ).2.mapError E.refusal

/-- A variable is new in the innermost scope of one text iff it is in the other. -/
theorem edited_declareVariable {v v' : Variable} (hv : v.Edited E v') :
    EditedDeclaration E (·.tryVariable v) (·.tryVariable v') := by
  rintro ⟨scopes, functions, structs⟩ ⟨scopes', functions', structs'⟩
    ⟨hscopes, hfunctions, hstructs⟩
  cases hscopes with
  | nil =>
      refine ⟨⟨.nil, hfunctions, hstructs⟩, ?_⟩
      show Except.error (Refusal.noOpenScope v'.name) = _
      rw [hv.name]
      rfl
  | @cons scope scope' outer outer' hscope houter =>
      have hfound : (scope'.find? v'.name).isSome = (scope.find? v.name).isSome := by
        rw [hv.name]
        exact isSome_edited (edited_find? (fun _ _ hw => hw.name) hscope v.name)
      simp only [Symbols.tryVariable, Scopes.tryDeclare, hfound]
      split
      next =>
        refine ⟨⟨.cons hscope houter, hfunctions, hstructs⟩, ?_⟩
        rw [hv.name]
        rfl
      next => exact ⟨⟨.cons (.cons hv hscope) houter, hfunctions, hstructs⟩, rfl⟩

/-- Signatures are edited along with their types. -/
theorem Function.Edited.signature {f f' : Function} (h : f.Edited E f') :
    f'.signature = Prod.map E.type (List.map E.type) f.signature := by
  have htypes : (f.parameters.map E.parameter).map Parameter.type =
      (f.parameters.map Parameter.type).map E.type := by
    rw [List.map_map, List.map_map]
    rfl
  rw [Function.signature, h.returns, h.parameters, htypes]
  rfl

/-- Signatures differ in both editions or in neither. -/
theorem Function.Edited.signature_bne {f f' g g' : Function} (hf : f.Edited E f')
    (hg : g.Edited E g') : (f'.signature != g'.signature) = (f.signature != g.signature) := by
  -- different names stay different, and so do different types
  have hinjective : Function.Injective (Prod.map E.type (List.map E.type)) :=
    Edition.type_injective.prodMap (List.map_injective_iff.2 Edition.type_injective)
  rw [hf.signature, hg.signature, Bool.eq_iff_iff, bne_iff_ne, bne_iff_ne, hinjective.ne_iff]

theorem Symbols.Edited.replaceFunction {σ σ' : Symbols} (h : σ.Edited E σ') {f f' : Function}
    (hf : f.Edited E f') : (σ.replaceFunction f).Edited E (σ'.replaceFunction f') := by
  refine ⟨h.scopes, ?_, h.structs⟩
  show List.Forall₂ _ (σ.functions.map _) (σ'.functions.map _)
  rw [List.forall₂_map_left_iff, List.forall₂_map_right_iff]
  refine h.functions.imp fun g g' hg => ?_
  rw [hg.name, hf.name, Edition.name_beq]
  split
  · exact hf
  · exact hg

/-- A function is compared with the one of its name, whose signature is the same iff it was. -/
theorem edited_declareFunction {f f' : Function} (hf : f.Edited E f') :
    EditedDeclaration E (·.tryFunction f) (·.tryFunction f') := by
  intro σ σ' h
  simp only [Symbols.tryFunction, hf.name, hf.defined]
  rcases h.function? f.name with ⟨hnone, hnone'⟩ | ⟨g, g', hsome, hsome', hg⟩
  · rw [hnone, hnone']
    exact ⟨⟨h.scopes, .cons hf h.functions, h.structs⟩, rfl⟩
  · rw [hsome, hsome']
    simp only [hg.defined, hg.signature_bne hf]
    -- two definitions are refused, then two signatures; else a definition replaces its prototype
    split
    next => exact ⟨h, rfl⟩
    next =>
      split
      next => exact ⟨h, rfl⟩
      next =>
        split
        next => exact ⟨h.replaceFunction hf, rfl⟩
        next => exact ⟨h, rfl⟩

/-- A struct is new in one text iff it is in the other. -/
theorem edited_declareStruct {s s' : StructDef} (hs : s.Edited E s') :
    EditedDeclaration E (·.tryStruct s) (·.tryStruct s') := by
  intro σ σ' h
  simp only [Symbols.tryStruct, hs.name, isSome_edited (h.struct? s.name)]
  split
  next => exact ⟨h, rfl⟩
  next => exact ⟨⟨h.scopes, h.functions, .cons hs h.structs⟩, rfl⟩

/-! ## Findings -/

section Findings

variable {α α' β β' : Type} {A : α → α' → Prop} {B : β → β' → Prop}

variable (E) in
/-- A finding in two editions: the same issues, and values that are related or the same hole. -/
inductive Finding.Edited (A : α → α' → Prop) : Finding α → Finding α' → Prop
  | done {issues : List Issue} {a : α} {a' : α'} :
      A a a' → Edited A ⟨issues, .ok a⟩ ⟨issues.map E.issue, .ok a'⟩
  | stopped {issues : List Issue} {hole : Hole} :
      Edited A ⟨issues, .error hole⟩ ⟨issues.map E.issue, .error (E.hole hole)⟩

namespace Finding.Edited

variable {f : Finding α} {f' : Finding α'} {next : α → Finding β} {next' : α' → Finding β'}

theorem pure {a : α} {a' : α'} (h : A a a') : Edited E A (pure a) (pure a') :=
  @Finding.Edited.done E _ _ A [] _ _ h

theorem stop (hole : Hole) : Edited E A (.stop hole) (.stop (E.hole hole)) :=
  @Finding.Edited.stopped E _ _ A [] hole

/-- Issues in front of a finding. -/
theorem behind (h : f.Edited E A f') (before : List Issue) :
    Edited E A ⟨before ++ f.issues, f.outcome⟩
      ⟨before.map E.issue ++ f'.issues, f'.outcome⟩ := by
  cases h with
  | done ha =>
      rw [← List.map_append]
      exact .done ha
  | stopped =>
      rw [← List.map_append]
      exact .stopped

/-- A finding behind another, if the values in front correspond. -/
theorem bind (h : f.Edited E A f') (hnext : ∀ a a', A a a' → (next a).Edited E B (next' a')) :
    (f >>= next).Edited E B (f' >>= next') := by
  cases h with
  | @done issues a a' ha => exact (hnext a a' ha).behind issues
  | stopped => exact .stopped

theorem report (fault : Fault) (site : Option Token) :
    Edited E Eq (.report fault site) (.report (E.fault fault) (site.map E.token)) :=
  @Finding.Edited.done E _ _ Eq [.fault fault site] _ _ rfl

/-- A complaint is made in both texts or in neither. -/
theorem complain {fine fine' : Bool} (hfine : fine' = fine) (fault : Fault)
    (site : Option Token) :
    Edited E Eq (.complain fine fault site)
      (.complain fine' (E.fault fault) (site.map E.token)) := by
  rw [hfine]
  cases fine with
  | true => exact pure rfl
  | false => exact report fault site

/-- A report, and a value that stands for what was reported. -/
theorem reporting {fault : Fault} {site : Option Token} {a : α} {a' : α'} (h : A a a') :
    Edited E A (do Finding.report fault site; Pure.pure a)
      (do Finding.report (E.fault fault) (site.map E.token); Pure.pure a') :=
  (report fault site).bind fun _ _ _ => pure h

/-- A hole is reported as the edited one. -/
theorem settledWith {a : α} {a' : α'} (h : f.Edited E A f') (ha : A a a') :
    (f.settledWith a).Edited E A (f'.settledWith a') := by
  cases h with
  | done hb => exact .done hb
  | @stopped issues hole =>
      have hsettled : (Finding.mk (issues ++ [Issue.missing hole]) (.ok a)).Edited E A
          ⟨(issues ++ [Issue.missing hole]).map E.issue, .ok a'⟩ := .done ha
      rwa [List.map_append] at hsettled

/-- The issues are the edited ones, in their order. -/
theorem issues (h : f.Edited E A f') : f'.issues = f.issues.map E.issue := by
  cases h <;> rfl

end Finding.Edited

/-- A token that must be there is found, edited, or missing in both. -/
theorem edited_get {slot : Slot} {P : Token → Prop} (h : slot.All P) :
    slot.get.Edited E (fun t t' => t' = E.token t ∧ P t) (E.slot slot).get := by
  cases slot with
  | found t => exact .pure ⟨rfl, h.of_found⟩
  | missing hole => exact .stop hole

theorem edited_require (slot : Slot) : slot.require.Edited E Eq (E.slot slot).require := by
  cases slot with
  | found t => exact .pure rfl
  | missing hole => exact .stop hole

end Findings

/-! ## Checks -/

section Checks

variable {α α' β β' : Type} {A : α → α' → Prop} {B : β → β' → Prop}

variable (E) in
/-- A check in two editions: under symbols of both it leaves symbols of both and finds the same. -/
def Check.Edited (A : α → α' → Prop) (m : Check α) (m' : Check α') : Prop :=
  ∀ σ σ', σ.Edited E σ' → (m σ).1.Edited E (m' σ').1 ∧ (m σ).2.Edited E A (m' σ').2

namespace Check.Edited

variable {m : Check α} {m' : Check α'} {next : α → Check β} {next' : α' → Check β'}

theorem pure {a : α} {a' : α'} (h : A a a') : Edited E A (pure a) (pure a') :=
  fun _ _ hσ => ⟨hσ, .pure h⟩

/-- A check behind another, under the symbols that the first has left. -/
theorem bind (h : m.Edited E A m') (hnext : ∀ a a', A a a' → (next a).Edited E B (next' a')) :
    (m >>= next).Edited E B (m' >>= next') := by
  intro σ σ' hσ
  obtain ⟨hσ₁, hfirst⟩ := h σ σ' hσ
  rw [Check.bind_run, Check.bind_run]
  generalize m σ = first at *
  generalize m' σ' = first' at *
  obtain ⟨σ₁, found⟩ := first
  obtain ⟨σ₁', found'⟩ := first'
  cases hfirst with
  | @done issues a a' ha =>
      obtain ⟨hσ₂, hsecond⟩ := hnext a a' ha σ₁ σ₁' hσ₁
      exact ⟨hσ₂, hsecond.behind issues⟩
  | stopped => exact ⟨hσ₁, .stopped⟩

theorem reading {f : Symbols → Finding α} {f' : Symbols → Finding α'}
    (h : ∀ σ σ', σ.Edited E σ' → (f σ).Edited E A (f' σ')) :
    Edited E A (.reading f) (.reading f') :=
  fun σ σ' hσ => ⟨hσ, h σ σ' hσ⟩

theorem lift {f : Finding α} {f' : Finding α'} (h : f.Edited E A f') :
    Edited E A (.lift f) (.lift f') :=
  fun _ _ hσ => ⟨hσ, h⟩

/-- A declaration is refused in both texts for the same cause, with the names edited. -/
theorem register {declare declare' : Symbols → Attempt Symbols}
    (h : EditedDeclaration E declare declare') (name : Token) :
    Edited E Eq (.register declare name) (.register declare' (E.token name)) := by
  intro σ σ' hσ
  obtain ⟨hσ₁, hanswer⟩ := h σ σ' hσ
  unfold Check.register
  generalize declare σ = attempt at hσ₁ hanswer ⊢
  generalize declare' σ' = attempt' at hσ₁ hanswer ⊢
  obtain ⟨σ₁, answer⟩ := attempt
  obtain ⟨σ₁', answer'⟩ := attempt'
  obtain rfl : answer' = answer.mapError E.refusal := hanswer
  cases answer with
  | ok _ => exact ⟨hσ₁, .pure rfl⟩
  | error refusal => exact ⟨hσ₁, .report (.refused refusal) (some name)⟩

/-- Scopes are opened and closed alike. -/
theorem inScope (h : m.Edited E A m') : (Check.inScope m).Edited E A (Check.inScope m') := by
  intro σ σ' hσ
  obtain ⟨hσ₁, hfound⟩ := h _ _ hσ.enter
  exact ⟨hσ₁.leave, hfound⟩

theorem settled {m m' : Check Unit} (h : m.Edited E Eq m') :
    m.settled.Edited E Eq m'.settled := by
  intro σ σ' hσ
  obtain ⟨hσ₁, hfound⟩ := h σ σ' hσ
  exact ⟨hσ₁, hfound.settledWith rfl⟩

theorem require (slot : Slot) :
    Edited E Eq (liftM slot.require : Check Unit) (liftM (E.slot slot).require : Check Unit) :=
  .lift (edited_require slot)

end Check.Edited

end Checks

end MiniC
