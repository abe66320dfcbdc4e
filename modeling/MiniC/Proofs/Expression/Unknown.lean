import Mathlib.Data.List.Forall2
import MiniC.Proofs.Checking.Parts
import MiniC.Proofs.Names.Looks
import MiniC.Proofs.Reading.Expr

/-!
# `MiniC.Proofs.Expression.Unknown` — the unknown type causes no further complaints

A variable whose type is unknown may stand wherever a variable of any type may.  So let the types
of some variables be blurred, that is, replaced by the unknown type.  Then an expression is read
and checked as before, up to two differences: its type may be unknown, and complaints may be
missing.  No complaint is made at a place where there was none.

`Milder` says this of two findings.  It is kept by every way to put findings together, so each
rule for types needs one lemma: if one of its operands is blurred, either the rule gives up
without a complaint, or it asks no more of the unknown type than of any other.

## Contents
- `CType.Blurs`, `Variable.Blurs`, `Symbols.Blurs`, `Argument.Blurs`.
- `Finding.sites`, `Finding.Milder`, with one lemma for each combinator of findings.
- One lemma for each rule, up to `milder_typing`.
- `expression_blurred`: **what is unknown is not complained of further out.**
-/

namespace MiniC

open Cursor (reading)

/-! ## Blurred types -/

/-- A type, or unknown in its place. -/
def CType.Blurs (t t' : CType) : Prop := t' = t ∨ t' = .unknown

theorem CType.Blurs.refl (t : CType) : t.Blurs t := .inl rfl

/-- A variable that may have lost its type. -/
structure Variable.Blurs (v v' : Variable) : Prop where
  type : v.type.Blurs v'.type
  same : v' = { v with type := v'.type }

/-- Symbols in which some variables may have lost their types. -/
structure Symbols.Blurs (σ σ' : Symbols) : Prop where
  scopes : List.Forall₂ (List.Forall₂ Variable.Blurs) σ.scopes σ'.scopes
  functions : σ'.functions = σ.functions
  structs : σ'.structs = σ.structs

/-- An argument that may have lost its type. -/
structure Argument.Blurs (a a' : Argument) : Prop where
  type : a.type.Blurs a'.type
  site : a'.site = a.site

theorem Variable.Blurs.name {v v' : Variable} (h : v.Blurs v') : v'.name = v.name := by
  rw [h.same]

/-- A name is found in both scopes or in neither. -/
theorem Variable.Blurs.find? {scope scope' : Scope} (h : List.Forall₂ Variable.Blurs scope scope')
    (name : String) :
    (scope.find? name = none ∧ scope'.find? name = none) ∨
      ∃ v v', scope.find? name = some v ∧ scope'.find? name = some v' ∧ v.Blurs v' := by
  unfold Scope.find?
  induction h with
  | nil => exact .inl ⟨rfl, rfl⟩
  | @cons v v' scope scope' hv _ ih =>
      rw [List.find?_cons, List.find?_cons, hv.name]
      cases v.name == name with
      | true => exact .inr ⟨v, v', rfl, rfl, hv⟩
      | false => exact ih

namespace Symbols.Blurs

variable {σ σ' : Symbols}

/-- A name stands for a variable in both symbols or in neither. -/
theorem var? (h : σ.Blurs σ') (name : String) :
    (σ.var? name = none ∧ σ'.var? name = none) ∨
      ∃ v v', σ.var? name = some v ∧ σ'.var? name = some v' ∧ v.Blurs v' := by
  have hscopes := h.scopes
  unfold Symbols.var? Scopes.find?
  generalize σ.scopes = scopes at hscopes
  generalize σ'.scopes = scopes' at hscopes
  induction hscopes with
  | nil => exact .inl ⟨rfl, rfl⟩
  | @cons scope scope' outer outer' hscope _ ih =>
      rw [List.findSome?_cons, List.findSome?_cons]
      rcases Variable.Blurs.find? hscope name with
        ⟨hnone, hnone'⟩ | ⟨v, v', hsome, hsome', hv⟩
      · rw [hnone, hnone']
        exact ih
      · rw [hsome, hsome']
        exact .inr ⟨v, v', rfl, rfl, hv⟩

theorem function? (h : σ.Blurs σ') (name : String) : σ'.function? name = σ.function? name := by
  rw [Symbols.function?, h.functions]
  rfl

theorem struct? (h : σ.Blurs σ') (name : String) : σ'.struct? name = σ.struct? name := by
  rw [Symbols.struct?, h.structs]
  rfl

end Symbols.Blurs

/-! ## Milder findings -/

/-- Where an issue is a fault, its token. -/
def Issue.faultSite? : Issue → Option (Option Token)
  | missing _ => none
  | fault _ site => some site

namespace Finding

variable {α α' β β' : Type}

/-- The tokens at which faults were found. -/
def sites (f : Finding α) : List (Option Token) := f.issues.filterMap Issue.faultSite?

/-- A finding that complains at fewer places than another, and otherwise ends as that one does,
with values that are related. -/
structure Milder (R : α → α' → Prop) (f : Finding α) (f' : Finding α') : Prop where
  sites : f'.sites.Sublist f.sites
  ends : (∃ hole, f.outcome = .error hole ∧ f'.outcome = .error hole) ∨
    ∃ a a', f.outcome = .ok a ∧ f'.outcome = .ok a' ∧ R a a'

namespace Milder

variable {R : α → α' → Prop} {S : β → β' → Prop} {f : Finding α} {f' : Finding α'}
variable {next : α → Finding β} {next' : α' → Finding β'} {fault fault' : Fault}

theorem pure {a : α} {a' : α'} (h : R a a') : Milder R (Pure.pure a) (Pure.pure a') :=
  ⟨.refl _, .inr ⟨a, a', rfl, rfl, h⟩⟩

theorem refl {R : α → α → Prop} (hR : ∀ a, R a a) (f : Finding α) : Milder R f f := by
  refine ⟨.refl _, ?_⟩
  cases h : f.outcome with
  | error hole => exact .inl ⟨hole, rfl, rfl⟩
  | ok a => exact .inr ⟨a, a, rfl, rfl, hR a⟩

/-- Where nothing is found, whatever else was found in its place. -/
theorem of_whole {a' : α'} (h : ∃ a, f.outcome = .ok a) (hR : ∀ a, R a a') :
    Milder R f (Pure.pure a') := by
  obtain ⟨a, ha⟩ := h
  exact ⟨List.nil_sublist _, .inr ⟨a, a', ha, rfl, hR a⟩⟩

theorem bind (hf : Milder R f f') (hnext : ∀ a a', R a a' → Milder S (next a) (next' a')) :
    Milder S (f >>= next) (f' >>= next') := by
  obtain ⟨issues, outcome⟩ := f
  obtain ⟨issues', outcome'⟩ := f'
  obtain ⟨hsites, ⟨hole, rfl, rfl⟩ | ⟨a, a', rfl, rfl, ha⟩⟩ := hf
  · exact ⟨hsites, .inl ⟨hole, rfl, rfl⟩⟩
  · refine ⟨?_, (hnext a a' ha).ends⟩
    show ((issues' ++ (next' a').issues).filterMap _).Sublist
      ((issues ++ (next a).issues).filterMap _)
    rw [List.filterMap_append, List.filterMap_append]
    exact hsites.append (hnext a a' ha).sites

/-- What is not complained of is not complained of in the milder finding. -/
theorem complain {fine fine' : Bool} (h : fine = true → fine' = true) (site : Option Token) :
    Milder Eq (Finding.complain fine fault site) (Finding.complain fine' fault' site) := by
  cases fine with
  | true => rw [h rfl]; exact refl (fun _ => rfl) _
  | false =>
      cases fine' with
      | true => exact of_whole ⟨(), rfl⟩ fun _ => rfl
      | false => exact ⟨.refl _, .inr ⟨(), (), rfl, rfl, rfl⟩⟩

/-- The same in front of both. -/
theorem behind {f : Finding α} {next : α → Finding β} {next' : α → Finding β'}
    (hnext : ∀ a, Milder S (next a) (next' a)) : Milder S (f >>= next) (f >>= next') :=
  (refl (fun _ => rfl) f).bind fun a _ h => h ▸ hnext a

end Milder

end Finding

open Finding (Milder)

/-! ## Rules for types -/

section Rules

variable {σ σ' : Symbols} {t t' left left' right right' : CType}

theorem milder_dereference (h : t.Blurs t') (star : Token) :
    Milder CType.Blurs (dereference t star) (dereference t' star) := by
  rcases h with rfl | rfl
  · exact .refl .refl _
  · exact .of_whole (quiet_dereference t star).whole fun _ => .inr rfl

theorem milder_numericOperand (operator : Token) (h : t.Blurs t') :
    Milder CType.Blurs (numericOperand operator t) (numericOperand operator t') := by
  rcases h with rfl | rfl
  · exact .refl .refl _
  · exact .of_whole (quiet_numericOperand operator t).whole fun _ => .inr rfl

/-- The unknown type meets every need. -/
theorem mayBeMet_blurs (need : Need) (h : t.Blurs t') (hmet : need.mayBeMet t = true) :
    need.mayBeMet t' = true := by
  rcases h with rfl | rfl
  · exact hmet
  · rfl

/-- The unknown type is accepted everywhere, and accepts everything. -/
theorem accepts_blurs (hleft : left.Blurs left') (hright : right.Blurs right')
    (haccepts : left.accepts right = true) : left'.accepts right' = true := by
  rcases hleft with rfl | rfl
  · rcases hright with rfl | rfl
    · exact haccepts
    · simp [CType.accepts, CType.isUnknown, CType.unknown, CType.plain]
  · simp [CType.accepts, CType.isUnknown, CType.unknown, CType.plain]

theorem milder_compared (need : Need) (operator : Token) (hleft : left.Blurs left')
    (hright : right.Blurs right') :
    Milder CType.Blurs (compared need operator left right)
      (compared need operator left' right') := by
  refine (Milder.complain (fun hmet => ?_) _).bind fun _ _ _ => .pure (.refl _)
  rw [Bool.and_eq_true] at hmet ⊢
  exact ⟨mayBeMet_blurs need hleft hmet.1, mayBeMet_blurs need hright hmet.2⟩

theorem milder_arithmetic (operator : Token) (hleft : left.Blurs left')
    (hright : right.Blurs right') :
    Milder CType.Blurs (arithmetic operator left right) (arithmetic operator left' right') := by
  have hwhole : ∃ t, (arithmetic operator left right).outcome = .ok t :=
    (quiet_operated .additive operator left right).whole
  have hunknown : left' = .unknown ∨ right' = .unknown →
      arithmetic operator left' right' = pure .unknown := by
    intro h
    refine if_pos ?_
    rcases h with rfl | rfl
    · rfl
    · exact Bool.or_true _
  rcases hleft with rfl | hleft
  · rcases hright with rfl | hright
    · exact .refl .refl _
    · rw [hunknown (.inr hright)]
      exact .of_whole hwhole fun _ => .inr rfl
  · rw [hunknown (.inl hleft)]
    exact .of_whole hwhole fun _ => .inr rfl

theorem milder_operated (tier : Tier) (operator : Token) (hleft : left.Blurs left')
    (hright : right.Blurs right') :
    Milder CType.Blurs (operated tier operator left right)
      (operated tier operator left' right') := by
  cases tier with
  | logical => exact milder_compared _ operator hleft hright
  | relational => exact milder_compared _ operator hleft hright
  | additive => exact milder_arithmetic operator hleft hright
  | multiplicative => exact milder_arithmetic operator hleft hright

theorem milder_indexed (opening : Token) (hbase : left.Blurs left') (hindex : right.Blurs right')
    (site : Option Token) :
    Milder CType.Blurs (indexed opening left right site) (indexed opening left' right' site) := by
  refine (Milder.complain (mayBeMet_blurs .integer hindex) _).bind fun _ _ _ => ?_
  rcases hbase with rfl | rfl
  · exact .refl .refl _
  · show Milder CType.Blurs _ (pure .unknown)
    refine .of_whole ?_ fun _ => .inr rfl
    split
    · exact ⟨_, rfl⟩
    · split <;> exact ⟨_, rfl⟩

theorem fieldType_blurs (h : σ.Blurs σ') (target : CType) (field : Token) :
    fieldType σ' target field = fieldType σ target field := by
  simp only [fieldType, h.struct?]

theorem milder_memberType (h : σ.Blurs σ') (access : Access) (operator : Token)
    (hbase : t.Blurs t') (field : Token) :
    Milder CType.Blurs (memberType σ access operator t field)
      (memberType σ' access operator t' field) := by
  rcases hbase with rfl | rfl
  · have hsame : memberType σ' access operator t' field =
        memberType σ access operator t' field := by
      simp only [memberType, fieldType_blurs h]
    rw [hsame]
    exact .refl .refl _
  · exact .of_whole (quiet_memberType σ access operator t field).whole fun _ => .inr rfl

theorem milder_checkArguments (function : String) (position : Nat) (parameters : List Parameter)
    {given given' : List Argument} (h : List.Forall₂ Argument.Blurs given given') :
    Milder Eq (checkArguments function position parameters given)
      (checkArguments function position parameters given') := by
  induction parameters generalizing position given given' with
  | nil => exact .pure rfl
  | cons parameter parameters ih =>
      cases h with
      | nil => exact .pure rfl
      | @cons a a' given given' ha hgiven =>
          have haccepts := accepts_blurs (.refl parameter.type) ha.type
          rw [checkArguments, checkArguments, ha.site]
          exact (Milder.complain haccepts _).bind fun _ _ _ => ih _ hgiven

theorem milder_callType (h : σ.Blurs σ') (name : Token)
    {arguments arguments' : Finding (List Argument)}
    (harguments : Milder (List.Forall₂ Argument.Blurs) arguments arguments') (closing : Slot) :
    Milder CType.Blurs (callType σ name arguments closing)
      (callType σ' name arguments' closing) := by
  unfold callType
  rw [h.function?]
  split
  · exact harguments.bind fun _ _ _ => .behind fun _ => .pure (.refl _)
  · split
    · exact .behind fun _ => harguments.bind fun _ _ _ => .behind fun _ => .pure (.refl _)
    · refine harguments.bind fun given given' hgiven => .behind fun _ => ?_
      rw [hgiven.length_eq]
      exact .behind fun _ => (milder_checkArguments _ _ _ hgiven).bind fun _ _ _ =>
        .pure (.refl _)

theorem resolve_blurs (h : σ.Blurs σ') (spec : TypeSpec) (enclosing : Option String) :
    spec.resolve σ' enclosing = spec.resolve σ enclosing := by
  cases spec with
  | struct _ name => simp only [TypeSpec.resolve, h.struct?]
  | _ => rfl

end Rules

/-! ## Expressions -/

section Expressions

variable {σ σ' : Symbols}

theorem milder_var (h : σ.Blurs σ') (name : Token) :
    Milder CType.Blurs ((Expr.var name).typing σ) ((Expr.var name).typing σ') := by
  simp only [Expr.typing]
  rcases h.var? name.lexeme with ⟨hnone, hnone'⟩ | ⟨v, v', hsome, hsome', hv⟩
  · rw [hnone, hnone']
    exact .refl .refl _
  · rw [hsome, hsome']
    exact .pure hv.type

mutual

/-- Where the types of variables are blurred, an expression is found milder. -/
theorem milder_typing (h : σ.Blurs σ') : ∀ e : Expr,
    Milder CType.Blurs (e.typing σ) (e.typing σ')
  | .literal _ _ => .pure (.refl _)
  | .var name => milder_var h name
  | .emptyCall name _ closing => milder_callType h name (.pure .nil) closing
  | .call name _ first others closing => by
      refine milder_callType h name ((milder_typing h first).bind fun _ _ htype =>
        (milder_trail h others).bind fun _ _ hrest => ?_) closing
      exact .pure (.cons ⟨htype, rfl⟩ hrest)
  | .deref star operand =>
      (milder_typing h operand).bind fun _ _ htype => milder_dereference htype star
  | .address _ operand => by
      refine (milder_typing h operand).bind fun _ _ htype => .pure ?_
      rcases htype with rfl | rfl
      · exact .refl _
      · exact .inr rfl
  | .unary operator operand =>
      (milder_typing h operand).bind fun _ _ htype => milder_numericOperand operator htype
  | .stepped operand operator =>
      (milder_typing h operand).bind fun _ _ htype => milder_numericOperand operator htype
  | .index base opening subscript _ =>
      (milder_typing h base).bind fun _ _ hbase =>
        (milder_typing h subscript).bind fun _ _ hindex =>
          .behind fun _ => milder_indexed opening hbase hindex subscript.lead
  | .member base access operator _ =>
      (milder_typing h base).bind fun _ _ hbase =>
        .behind fun field => milder_memberType h access operator hbase field
  | .binary tier left operator right =>
      (milder_typing h left).bind fun _ _ hleft => (milder_typing h right).bind fun _ _ hright =>
        milder_operated tier operator hleft hright
  | .conditional condition _ first _ second =>
      (milder_typing h condition).bind fun _ _ _ => (milder_typing h first).bind fun _ _ hfirst =>
        .behind fun _ => (milder_typing h second).bind fun _ _ hsecond =>
          (Milder.complain (accepts_blurs hfirst hsecond) second.lead).bind fun _ _ _ =>
            .pure hfirst
  | .group _ inner _ =>
      (milder_typing h inner).bind fun _ _ htype => .behind fun _ => .pure htype
  | .sizeofType _ _ spec _ _ => by
      simp only [Expr.typing, resolve_blurs h spec none]
      exact .refl .refl _
  | .sizeofExpr _ _ operand _ =>
      .behind fun _ => (milder_typing h operand).bind fun _ _ _ => .behind fun _ =>
        .pure (.refl _)
  | .missing hole => .refl .refl (.stop hole)

/-- Where the types of variables are blurred, arguments are found milder. -/
theorem milder_trail (h : σ.Blurs σ') : ∀ arguments : Trail,
    Milder (List.Forall₂ Argument.Blurs) (arguments.typing σ) (arguments.typing σ')
  | .nil => .pure .nil
  | .cons _ argument rest =>
      (milder_typing h argument).bind fun _ _ htype => (milder_trail h rest).bind fun _ _ hrest =>
        .pure (.cons ⟨htype, rfl⟩ hrest)

end

end Expressions

/-! ## The theorem -/

/-- Where the semantic diagnostics of issues lie, if the input ends at `stop`. -/
def semanticLocations (stop : Location) (issues : List Issue) : List Location :=
  ((issues.map (·.diagnostic stop)).filter (·.severity == .semantic)).map (·.location)

theorem semanticLocations_eq {α : Type} (stop : Location) (f : Finding α) :
    semanticLocations stop f.issues =
      f.sites.map fun site => (site.map Token.location).getD stop := by
  rw [semanticLocations, Finding.sites]
  induction f.issues with
  | nil => rfl
  | cons issue issues ih =>
      cases issue with
      | missing hole =>
          rw [List.map_cons, List.filter_cons_of_neg Bool.false_ne_true, ih]
          rfl
      | fault cause site =>
          rw [List.map_cons, List.filter_cons_of_pos rfl, List.map_cons, ih]
          rfl

/-- **What is unknown is not complained of further out.**  Under symbols in which some variables
have lost their types, an expression ends as it ends under the others: at the same hole, or at the
same token and with the same type or the unknown one.  The places of the semantic diagnostics are
a part of those that there are under the others, in the same order. -/
theorem expression_blurred {σ σ' : Symbols} (h : σ.Blurs σ') (tokens : List Token)
    (stop : Location) :
    let e := (reading tokens).expression
    let first := e.checked (·.typing σ)
    let second := e.checked (·.typing σ')
    ((∃ hole, e.next.hole? = some hole ∧ first.outcome = .error hole ∧
          second.outcome = .error hole) ∨
        ∃ t t' rest, e.next = reading rest ∧ first.outcome = .ok (t, reading rest) ∧
          second.outcome = .ok (t', reading rest) ∧ (t' = t ∨ t' = .unknown)) ∧
      (semanticLocations stop second.issues).Sublist (semanticLocations stop first.issues) := by
  intro e first second
  have hmilder := milder_typing h e.tree
  refine ⟨?_, ?_⟩
  · simp only [first, second, Parsed.outcome_checked]
    -- reading decides which of the two ends it is, and the checks agree with it
    rcases Parsed.checked_ends (·.typing σ) (tracks_expression (reading tokens))
      (leaves_typing e.tree) with ⟨hole, hhole, houtcome⟩ | ⟨t, rest, hrest, houtcome⟩
    · rcases hmilder.ends with ⟨hole', hfirst, hsecond⟩ | ⟨_, _, hfirst, -, -⟩
      · obtain rfl : hole = hole' := Except.error.inj (houtcome.symm.trans hfirst)
        exact .inl ⟨hole, hhole, by rw [hfirst]; rfl, by rw [hsecond]; rfl⟩
      · exact nomatch houtcome.symm.trans hfirst
    · rcases hmilder.ends with ⟨_, hfirst, -⟩ | ⟨t₁, t', hfirst, hsecond, hblurs⟩
      · exact nomatch houtcome.symm.trans hfirst
      · exact .inr ⟨t₁, t', rest, hrest, by rw [hfirst, hrest]; rfl, by rw [hsecond, hrest]; rfl,
          hblurs⟩
  · rw [Parsed.issues_checked, Parsed.issues_checked, semanticLocations_eq, semanticLocations_eq]
    exact hmilder.sites.map _

/-- `s + 1 - n` -/
def mixedSum : List Token :=
  [⟨.ident, "s", ⟨1, 1⟩⟩, ⟨.operator .plus, "+", ⟨1, 3⟩⟩, ⟨.literal .int, "1", ⟨1, 5⟩⟩,
    ⟨.operator .minus, "-", ⟨1, 7⟩⟩, ⟨.ident, "n", ⟨1, 9⟩⟩]

/-- Symbols in which `s` alone is declared. -/
def onlyS (type : CType) : Symbols := ⟨[[⟨"s", type, false, 1⟩]], [], []⟩

/-- As a struct `s` may not be added to a number, as something unknown it may; that `n` is not
declared is said in either case. -/
theorem mixedSum_blurred :
    let e := (reading mixedSum).expression
    let structS := onlyS (.plain (.struct "S"))
    structS.Blurs (onlyS .unknown) ∧
      (semanticLocations ⟨1, 10⟩ (e.checked (·.typing (onlyS .unknown))).issues).Sublist
        (semanticLocations ⟨1, 10⟩ (e.checked (·.typing structS)).issues) ∧
      semanticLocations ⟨1, 10⟩ (e.checked (·.typing structS)).issues = [⟨1, 3⟩, ⟨1, 9⟩] ∧
      semanticLocations ⟨1, 10⟩ (e.checked (·.typing (onlyS .unknown))).issues = [⟨1, 9⟩] := by
  have hblurs : (onlyS (.plain (.struct "S"))).Blurs (onlyS .unknown) :=
    ⟨.cons (.cons ⟨.inr rfl, rfl⟩ .nil) .nil, rfl, rfl⟩
  exact ⟨hblurs, (expression_blurred hblurs mixedSum ⟨1, 10⟩).2, by decide +kernel,
    by decide +kernel⟩

end MiniC
