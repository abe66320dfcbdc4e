import MiniC.Proofs.Types.Course

/-!
# `MiniC.Proofs.Types.Settled` — types whose structs are known or complained about

A type is settled if it is not unknown, and if the struct it mentions is declared or was
complained about.  What is settled stays so: no struct is ever forgotten, and no complaint taken
back.  If all that is declared has settled types, then an expression has the type unknown or one
that mentions no other struct; so an access to a member of a struct that is not declared may stay
silent, as the struct was complained about before.

## Contents
- `Reported`, `Symbols.Knows`, `CType.Settled`: settled types.
- `Symbols.types`, `Symbols.Settled`; `Later`: what settled types stay settled under.
- `Finding.Yields`, `Expr.typing_mentions`: the structs that the type of an expression mentions.
- `silent_reported`: **who stays silent about a struct knows of a complaint.**
-/

namespace MiniC

/-! ## Settled types -/

/-- Whether it was complained that a struct is not declared. -/
def Reported (found : List Issue) (name : String) : Prop :=
  ∃ site, Issue.fault (.undeclaredStruct name) site ∈ found

/-- Whether a struct is declared, or was complained about, or is the one that is allowed as if it
were declared. -/
def Symbols.Knows (σ : Symbols) (found : List Issue) (allowed : Option String) (name : String) :
    Prop :=
  (σ.struct? name).isSome = true ∨ Reported found name ∨ allowed = some name

/-- A type that is not unknown, and whose struct is known. -/
def CType.Settled (σ : Symbols) (found : List Issue) (allowed : Option String) (t : CType) :
    Prop :=
  t.base ≠ .unknown ∧ ∀ name, t.base = .struct name → σ.Knows found allowed name

/-- What a function returns and takes. -/
def Function.types (f : Function) : List CType := f.returns :: f.parameters.map Parameter.type

/-- The types of the fields of a struct. -/
def StructDef.types (s : StructDef) : List CType := s.fields.map Prod.snd

/-- The types of the functions and the structs that are declared. -/
def Symbols.registered (σ : Symbols) : List CType :=
  σ.functions.flatMap Function.types ++ σ.structs.flatMap StructDef.types

/-- The types of all that is declared. -/
def Symbols.types (σ : Symbols) : List CType :=
  σ.scopes.flatten.map Variable.type ++ σ.registered

/-- Symbols of settled types. -/
def Symbols.Settled (σ : Symbols) (found : List Issue) : Prop :=
  ∀ t ∈ σ.types, t.Settled σ found none

/-- A struct that is being declared, with fields of settled types.  They may mention the struct
itself. -/
def StructDef.Growing (σ : Symbols) (found : List Issue) (s : StructDef) : Prop :=
  ∀ field ∈ s.fields, field.2.Settled σ found (some s.name)

/-- A moment at which all types are settled. -/
structure Moment.Settled (moment : Moment) : Prop where
  symbols : moment.symbols.Settled moment.found
  struct : ∀ s, moment.struct = some s → s.Growing moment.symbols moment.found

/-! ## What settled types stay settled under -/

/-- Symbols and issues that come later than others: every struct that was known is known. -/
def Later (σ : Symbols) (found : List Issue) (σ' : Symbols) (found' : List Issue) : Prop :=
  ∀ allowed name, σ.Knows found allowed name → σ'.Knows found' allowed name

section Later

variable {σ σ' σ'' : Symbols} {found found' found'' more : List Issue} {allowed : Option String}
  {t : CType}

theorem Later.refl : Later σ found σ found := fun _ _ h => h

theorem Later.trans (h : Later σ found σ' found') (h' : Later σ' found' σ'' found'') :
    Later σ found σ'' found'' :=
  fun allowed name hknows => h' allowed name (h allowed name hknows)

/-- Structs are declared and issues are found, and none is lost. -/
theorem Later.of_structs
    (hstructs : ∀ name, (σ.struct? name).isSome = true → (σ'.struct? name).isSome = true)
    (hfound : found ⊆ found') : Later σ found σ' found' := by
  rintro allowed name (hdeclared | ⟨site, hreported⟩ | hallowed)
  · exact .inl (hstructs name hdeclared)
  · exact .inr (.inl ⟨site, hfound hreported⟩)
  · exact .inr (.inr hallowed)

theorem Later.issues : Later σ found σ (found ++ more) :=
  .of_structs (fun _ h => h) (List.subset_append_left _ _)

theorem CType.Settled.later (h : t.Settled σ found allowed) (hlater : Later σ found σ' found') :
    t.Settled σ' found' allowed :=
  ⟨h.1, fun name hname => hlater allowed name (h.2 name hname)⟩

theorem Symbols.Settled.later (h : σ.Settled found) (hlater : Later σ found σ' found')
    (htypes : σ'.types ⊆ σ.types) : σ'.Settled found' :=
  fun t ht => (h t (htypes ht)).later hlater

theorem Symbols.Settled.issues (h : σ.Settled found) : σ.Settled (found ++ more) :=
  h.later .issues (List.Subset.refl _)

/-- A scope that was just opened has no variables. -/
theorem Symbols.Settled.enter (h : σ.Settled found) : σ.enter.Settled found := h

/-- The variables of a scope are forgotten, and nothing else. -/
theorem Symbols.Settled.leave (h : σ.Settled found) : σ.leave.Settled found := by
  refine h.later .refl fun t ht => ?_
  rcases List.mem_append.1 ht with hvariable | hregistered
  · obtain ⟨v, hv, rfl⟩ := List.mem_map.1 hvariable
    obtain ⟨scope, hscope, hv⟩ := List.mem_flatten.1 hv
    exact List.mem_append_left _ (List.mem_map_of_mem
      (List.mem_flatten_of_mem (List.mem_of_mem_tail hscope) hv))
  · exact List.mem_append_right _ hregistered

end Later

/-! ## Types in the symbols -/

section Lookups

variable {σ : Symbols} {name : String}

theorem mem_types_of_var? {v : Variable} (h : σ.var? name = some v) : v.type ∈ σ.types := by
  obtain ⟨scope, hscope, hv⟩ := List.exists_of_findSome?_eq_some h
  exact List.mem_append_left _ (List.mem_map_of_mem
    (List.mem_flatten_of_mem hscope (List.mem_of_find?_eq_some hv)))

theorem mem_types_of_function? {f : Function} (h : σ.function? name = some f) :
    f.returns ∈ σ.types :=
  List.mem_append_right _ (List.mem_append_left _ (List.mem_flatMap.2
    ⟨f, List.mem_of_find?_eq_some h, List.mem_cons_self⟩))

theorem mem_types_of_field? {s : StructDef} (h : σ.struct? name = some s) {field : String}
    {t : CType} (ht : s.field? field = some t) : t ∈ σ.types := by
  have hfield : t ∈ s.types := by
    obtain ⟨before, after, hfields, -⟩ := List.lookup_eq_some_iff.1 ht
    rw [StructDef.types, hfields]
    exact List.mem_map_of_mem (List.mem_append_right _ List.mem_cons_self)
  exact List.mem_append_right _ (List.mem_append_right _ (List.mem_flatMap.2
    ⟨s, List.mem_of_find?_eq_some h, hfield⟩))

end Lookups

/-! ## Values of findings -/

/-- The value of a finding satisfies `P`, if there is one. -/
def Finding.Yields {α : Type} (P : α → Prop) (f : Finding α) : Prop :=
  ∀ a, f.outcome = .ok a → P a

namespace Finding.Yields

variable {α β : Type} {P : α → Prop} {Q : β → Prop} {f : Finding α} {next : α → Finding β}

theorem pure {a : α} (h : P a) : (Pure.pure a : Finding α).Yields P := by
  rintro _ ⟨⟩
  exact h

theorem stop (hole : Hole) : (Finding.stop hole : Finding α).Yields P := nofun

theorem bind (hf : f.Yields P) (hnext : ∀ a, P a → (next a).Yields Q) :
    (f >>= next).Yields Q := by
  intro b hb
  obtain ⟨a, ha, hb, -⟩ := Finding.ok_of_bind hb
  exact hnext a (hf a ha) b hb

/-- What is found first does not matter. -/
theorem behind (hnext : ∀ a, (next a).Yields Q) : (f >>= next).Yields Q :=
  bind (P := fun _ => True) (fun _ _ => trivial) fun a _ => hnext a

end Finding.Yields

/-! ## The structs that the type of an expression mentions -/

/-- Every struct that a type mentions satisfies `K`. -/
def CType.Mentions (K : String → Prop) (t : CType) : Prop := ∀ name, t.base = .struct name → K name

section Mentions

variable {K : String → Prop} {s t : CType}

theorem mentions_of_base (h : t.base = s.base) (hs : s.Mentions K) : t.Mentions K := by
  unfold CType.Mentions
  rwa [h]

theorem mentions_unknown : CType.unknown.Mentions K := nofun

theorem mentions_int : CType.int.Mentions K := nofun

theorem base_decayed : t.decayed.base = t.base := by
  unfold CType.decayed
  split <;> rfl

theorem base_deref? (h : t.deref? = some s) : s.base = t.base := by
  unfold CType.deref? at h
  split at h
  · cases h
  · cases h
    rfl

theorem base_element? (h : t.element? = some s) : s.base = t.base := by
  unfold CType.element? at h
  split at h
  · cases h
    rfl
  · exact base_deref? h

theorem base_addressOf : t.addressOf.base = t.base := by
  unfold CType.addressOf
  split
  · exact base_decayed
  · rfl

theorem mentions_promote (hs : s.Mentions K) (ht : t.Mentions K) : (s.promote t).Mentions K := by
  unfold CType.promote
  split
  · split
    · exact hs
    · exact ht
  · exact mentions_unknown

end Mentions

section Typing

variable {σ : Symbols} {K : String → Prop}

theorem dereference_mentions {t : CType} (ht : t.Mentions K) (star : Token) :
    (dereference t star).Yields (·.Mentions K) := by
  unfold dereference
  split
  · exact .pure ht
  · split
    next target htarget =>
      exact .pure (mentions_of_base ((base_deref? htarget).trans base_decayed) ht)
    next => exact .behind fun _ => .pure mentions_unknown

theorem numericOperand_mentions {t : CType} (ht : t.Mentions K) (operator : Token) :
    (numericOperand operator t).Yields (·.Mentions K) := by
  unfold numericOperand
  split
  · exact .pure ht
  · exact .behind fun _ => .pure mentions_unknown

theorem operated_mentions {left right : CType} (hleft : left.Mentions K)
    (hright : right.Mentions K) (tier : Tier) (operator : Token) :
    (operated tier operator left right).Yields (·.Mentions K) := by
  have harithmetic : (arithmetic operator left right).Yields (·.Mentions K) := by
    unfold arithmetic
    generalize (if operator.kind == .operator .percent then Need.integer else Need.numeric) = need
    dsimp only
    split
    · exact .pure mentions_unknown
    · split
      · exact .pure (mentions_promote hleft hright)
      · exact .behind fun _ => .pure mentions_unknown
  cases tier with
  | logical | relational => exact .behind fun _ => .pure mentions_int
  | additive | multiplicative => exact harithmetic

theorem indexed_mentions {base : CType} (hbase : base.Mentions K) (opening : Token)
    (index : CType) (site : Option Token) :
    (indexed opening base index site).Yields (·.Mentions K) := by
  refine .behind fun _ => ?_
  split
  · exact .pure hbase
  · split
    next element helement => exact .pure (mentions_of_base (base_element? helement) hbase)
    next => exact .behind fun _ => .pure mentions_unknown

variable (hσ : ∀ t ∈ σ.types, t.Mentions K)
include hσ

theorem fieldType_mentions (target : CType) (field : Token) :
    (fieldType σ target field).Yields (·.Mentions K) := by
  unfold fieldType
  split
  · exact .behind fun _ => .pure mentions_unknown
  · split
    · exact .pure mentions_unknown
    next s hs =>
      split
      next t ht => exact .pure (hσ t (mem_types_of_field? hs ht))
      next => exact .behind fun _ => .pure mentions_unknown

theorem memberType_mentions {base : CType} (hbase : base.Mentions K) (access : Access)
    (operator field : Token) :
    (memberType σ access operator base field).Yields (·.Mentions K) := by
  unfold memberType
  split
  · exact .pure hbase
  · split
    · split
      · exact fieldType_mentions hσ _ field
      · exact .behind fun _ => .pure mentions_unknown
    · split
      · exact .behind fun _ => .pure mentions_unknown
      · exact fieldType_mentions hσ _ field

theorem callType_mentions (name : Token) (arguments : Finding (List Argument)) (closing : Slot) :
    (callType σ name arguments closing).Yields (·.Mentions K) := by
  unfold callType
  split
  · exact .behind fun _ => .behind fun _ => .pure mentions_int
  · split
    · exact .behind fun _ => .behind fun _ => .behind fun _ => .pure mentions_unknown
    next f hf =>
      exact .behind fun _ => .behind fun _ => .behind fun _ => .behind fun _ =>
        .pure (hσ _ (mem_types_of_function? hf))

/-- An expression has a type that mentions no struct but those that something declared has. -/
theorem Expr.typing_mentions (e : Expr) : (e.typing σ).Yields (·.Mentions K) := by
  cases e with
  | literal class_ _ =>
      refine .pure fun name hname => ?_
      cases class_ <;> cases hname
  | var name =>
      rw [Expr.typing]
      split
      next v hv => exact .pure (hσ _ (mem_types_of_var? hv))
      next => exact .behind fun _ => .pure mentions_unknown
  | emptyCall name _ closing => exact callType_mentions hσ name _ closing
  | call name _ first others closing => exact callType_mentions hσ name _ closing
  | deref star operand =>
      exact operand.typing_mentions.bind fun _ ht => dereference_mentions ht star
  | address _ operand =>
      refine operand.typing_mentions.bind fun t ht => .pure ?_
      split
      · exact ht
      · exact mentions_of_base base_addressOf ht
  | unary operator operand | stepped operand operator =>
      exact operand.typing_mentions.bind fun _ ht => numericOperand_mentions ht operator
  | index base opening subscript closing =>
      exact base.typing_mentions.bind fun _ ht => .behind fun _ => .behind fun _ =>
        indexed_mentions ht opening _ _
  | member base access operator field =>
      exact base.typing_mentions.bind fun _ ht => .behind fun field =>
        memberType_mentions hσ ht access operator field
  | binary tier left operator right =>
      exact left.typing_mentions.bind fun _ hleft => right.typing_mentions.bind fun _ hright =>
        operated_mentions hleft hright tier operator
  | conditional _ _ first _ second =>
      exact .behind fun _ => first.typing_mentions.bind fun _ ht => .behind fun _ =>
        .behind fun _ => .behind fun _ => .pure ht
  | group _ inner _ =>
      exact inner.typing_mentions.bind fun _ ht => .behind fun _ => .pure ht
  | sizeofType _ _ _ _ _ | sizeofExpr _ _ _ _ =>
      exact .behind fun _ => .behind fun _ => .behind fun _ => .pure mentions_int
  | missing hole => exact .stop hole

end Typing

/-! ## Silence -/

theorem reporting_ne_pure {fault : Fault} {site : Option Token} {t : CType} :
    (do Finding.report fault site; pure t : Finding CType) ≠ pure .unknown :=
  fun h => nomatch congrArg Finding.issues h

theorem silent_fieldType {σ : Symbols} {found : List Issue} (hσ : σ.Settled found)
    {target : CType} {field : Token} (hsilent : fieldType σ target field = pure .unknown) :
    ∃ name, target.base = .struct name ∧ σ.struct? name = none := by
  unfold fieldType at hsilent
  split at hsilent
  · exact absurd hsilent reporting_ne_pure
  next name hname =>
    have hbase : target.base = .struct name := by
      obtain ⟨base, _, _⟩ := target
      unfold CType.structName? at hname
      split at hname
      next hstruct =>
        split at hname
        · cases hname
          exact hstruct
        · cases hname
      next => cases hname
    split at hsilent
    next hnone => exact ⟨name, hbase, hnone⟩
    next s hs =>
      split at hsilent
      next t ht =>
        -- a field is never of the type unknown
        have hunknown : t = .unknown := by
          have houtcome := congrArg Finding.outcome hsilent
          simpa using houtcome
        exact absurd (congrArg CType.base hunknown) (hσ t (mem_types_of_field? hs ht)).1
      next => exact absurd hsilent reporting_ne_pure

/-- **Who stays silent about a struct knows of a complaint:** if an access to a member of a value
whose type is known yields the type unknown and reports nothing, then the value is of a struct
that is not declared, and that was complained about. -/
theorem silent_reported {σ : Symbols} {found : List Issue} (hσ : σ.Settled found) {base : Expr}
    {t : CType} (ht : (base.typing σ).outcome = .ok t) (hknown : t.base ≠ .unknown)
    {access : Access} {operator field : Token}
    (hsilent : memberType σ access operator t field = pure .unknown) :
    ∃ name, t.base = .struct name ∧ σ.struct? name = none ∧ Reported found name := by
  -- the struct of the value is one that something declared mentions
  have hmentions : t.Mentions (σ.Knows found none) :=
    base.typing_mentions (fun u hu => (hσ u hu).2) t ht
  -- all other ways to yield the type unknown report something
  have hstruct : ∃ name, t.base = .struct name ∧ σ.struct? name = none := by
    unfold memberType at hsilent
    rw [if_neg (by simpa [CType.isUnknown] using hknown)] at hsilent
    cases access with
    | through =>
        dsimp only at hsilent
        split at hsilent
        next target htarget =>
          obtain ⟨name, hname, hnone⟩ := silent_fieldType hσ hsilent
          exact ⟨name, base_decayed.symm.trans ((base_deref? htarget).symm.trans hname), hnone⟩
        next => exact absurd hsilent reporting_ne_pure
    | direct =>
        dsimp only at hsilent
        split at hsilent
        · exact absurd hsilent reporting_ne_pure
        · exact silent_fieldType hσ hsilent
  obtain ⟨name, hname, hnone⟩ := hstruct
  rcases hmentions name hname with hdeclared | hreported | hallowed
  · rw [hnone] at hdeclared
    cases hdeclared
  · exact ⟨name, hname, hnone, hreported⟩
  · cases hallowed

end MiniC
