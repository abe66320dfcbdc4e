import MiniC.Proofs.Checking.Leaves

/-!
# `MiniC.Proofs.Checking.Faults` — the faults that a check reports

Every fault is reported at a token of the tree; only a hole can be at the end of the input.  An
expression is complained about at its first token, which it has if it was given a type, so the
induction carries this along with what is found: `Finds` says of which faults a finding may report,
that each is at a token, and what is true of the value.

Which faults a part may report is a parameter.  Writes to constants are reported by assignments
alone, exits that are out of place by `return`, `break` and `continue`, and repeated labels in the
body of a switch; for all other parts the `Common` faults are enough.  None of these holds a type
against one that accepts it: such a complaint is made behind a test of the two.

## Contents
- `Fault.isConstWrite`, `Fault.isExit`, `Fault.isLabel`; `Fault.mismatch?`, `Fault.isUnfounded`;
  `Ordinary`, `Common`, `Exiting`.
- `Finding.Finds`, `Check.Finds`, with one lemma for each combinator.
- One lemma for each check, up to `finds_stmt`: **every fault is reported at a token,** and
  founded.
-/

namespace MiniC

/-- Whether a fault is a write to a constant. -/
def Fault.isConstWrite : Fault → Bool
  | assignedConst _ => true
  | _ => false

/-- Whether a fault is about a `return`, a `break` or a `continue`: that the function around it
gives back nothing or something else, or that there is nothing to jump out of. -/
def Fault.isExit : Fault → Bool
  | missingResult _ _ => true
  | resultOfVoid _ => true
  | resultType _ _ _ => true
  | misplacedJump _ _ => true
  | _ => false

/-- Whether a fault is about a label of a switch: that it was there before. -/
def Fault.isLabel : Fault → Bool
  | duplicateCase _ => true
  | duplicateDefault => true
  | _ => false

/-- The types that a fault holds against each other: the one that was expected and the one that was
found, or those of the branches of a conditional. -/
def Fault.mismatch? : Fault → Option (CType × CType)
  | branches first second => some (first, second)
  | argumentType _ _ expected found => some (expected, found)
  | initialValue _ expected found => some (expected, found)
  | assignedValue _ expected found => some (expected, found)
  | resultType _ expected found => some (expected, found)
  | _ => none

/-- Whether a fault holds a type against another that accepts it. -/
def Fault.isUnfounded (cause : Fault) : Bool :=
  cause.mismatch?.any fun types => types.1.accepts types.2

/-- All founded faults are among those allowed, but perhaps writes to constants. -/
def Ordinary (allowed : Fault → Prop) : Prop :=
  ∀ cause : Fault, (cause.isConstWrite || cause.isUnfounded) = false → allowed cause

/-- All founded faults are among those allowed, but perhaps writes to constants, exits and
labels. -/
def Common (allowed : Fault → Prop) : Prop :=
  ∀ cause : Fault,
    (cause.isConstWrite || cause.isExit || cause.isLabel || cause.isUnfounded) = false →
      allowed cause

/-- All founded exits are among the faults allowed. -/
def Exiting (allowed : Fault → Prop) : Prop :=
  ∀ cause : Fault, cause.isExit = true → cause.isUnfounded = false → allowed cause

/-- Common faults are allowed where all ordinary ones are, -/
theorem Ordinary.common {allowed : Fault → Prop} (h : Ordinary allowed) : Common allowed := by
  intro cause hcause
  simp only [Bool.or_eq_false_iff] at hcause
  obtain ⟨⟨⟨hconst, -⟩, -⟩, hfounded⟩ := hcause
  exact h cause (Bool.or_eq_false_iff.2 ⟨hconst, hfounded⟩)

/-- and so are those of exits. -/
theorem Ordinary.exiting {allowed : Fault → Prop} (h : Ordinary allowed) : Exiting allowed := by
  intro cause hexit hfounded
  refine h cause (Bool.or_eq_false_iff.2 ⟨?_, hfounded⟩)
  cases cause <;> first | rfl | exact nomatch hexit

/-! ## Findings -/

/-- A finding that reports allowed faults, each at a token, and whose value is a good one. -/
structure Finding.Finds {α : Type} (f : Finding α) (allowed : Fault → Prop) (good : α → Prop) :
    Prop where
  faults : ∀ cause site, .fault cause site ∈ f.issues → allowed cause ∧ site.isSome = true
  value : ∀ a, f.outcome = .ok a → good a

namespace Finding.Finds

variable {α β : Type} {f : Finding α} {next : α → Finding β} {allowed : Fault → Prop}
variable {good better : α → Prop} {last : β → Prop} {fault : Fault} {site : Option Token}

theorem pure {a : α} (h : good a) : (Pure.pure a : Finding α).Finds allowed good := by
  refine ⟨fun _ _ hissue => ?_, fun b hb => ?_⟩
  · cases hissue
  · cases hb
    exact h

theorem stop (hole : Hole) : (Finding.stop hole : Finding α).Finds allowed good :=
  ⟨fun _ _ hissue => (nomatch hissue), fun _ hvalue => (nomatch hvalue)⟩

/-- A fault that is allowed may be reported, at a token. -/
theorem report (hallowed : allowed fault) (hsite : site.isSome = true) :
    (Finding.report fault site).Finds allowed fun _ => True := by
  refine ⟨fun cause place hissue => ?_, fun _ _ => trivial⟩
  cases List.mem_singleton.1 hissue
  exact ⟨hallowed, hsite⟩

theorem complain (fine : Bool) (hallowed : allowed fault) (hsite : site.isSome = true) :
    (Finding.complain fine fault site).Finds allowed fun _ => True := by
  cases fine with
  | true => exact pure trivial
  | false => exact report hallowed hsite

/-- A complaint that is made only if it is allowed. -/
theorem judge {fine : Bool} (hallowed : fine = false → allowed fault) (hsite : site.isSome = true) :
    (Finding.complain fine fault site).Finds allowed fun _ => True := by
  cases fine with
  | true => exact pure trivial
  | false => exact report (hallowed rfl) hsite

/-- A finding behind another, for the values that the first may have. -/
theorem bind (hf : f.Finds allowed good) (hnext : ∀ a, good a → (next a).Finds allowed last) :
    (f >>= next).Finds allowed last := by
  obtain ⟨issues, hole | a⟩ := f
  · exact ⟨hf.faults, fun _ hvalue => nomatch hvalue⟩
  · have hsecond := hnext a (hf.value a rfl)
    refine ⟨fun cause site hissue => ?_, hsecond.value⟩
    rcases List.mem_append.1 hissue with hissue | hissue
    · exact hf.faults cause site hissue
    · exact hsecond.faults cause site hissue

/-- What is found behind a part whose value says nothing. -/
theorem seq (hf : f.Finds allowed fun _ => True) (hnext : ∀ a, (next a).Finds allowed last) :
    (f >>= next).Finds allowed last :=
  hf.bind fun a _ => hnext a

/-- Less may be said of the value. -/
theorem mono (hf : f.Finds allowed good) (h : ∀ a, good a → better a) :
    f.Finds allowed better :=
  ⟨hf.faults, fun a ha => h a (hf.value a ha)⟩

theorem get (slot : Slot) : slot.get.Finds allowed fun _ => True := by
  cases slot with
  | found token => exact pure trivial
  | missing hole => exact stop hole

theorem require (slot : Slot) : slot.require.Finds allowed fun _ => True :=
  (get slot).seq fun _ => pure trivial

/-- A hole that is reported is no fault. Nothing is known of the default. -/
theorem settledWith (hf : f.Finds allowed good) (default : α) :
    (f.settledWith default).Finds allowed fun _ => True := by
  refine ⟨fun cause site hissue => ?_, fun _ _ => trivial⟩
  obtain ⟨issues, hole | a⟩ := f
  · rcases List.mem_append.1 hissue with hissue | hissue
    · exact hf.faults cause site hissue
    · cases List.mem_singleton.1 hissue
  · exact hf.faults cause site hissue

/-- A finding is silent on what none of the allowed faults is about. -/
theorem filter_eq_nil {about : Issue → Bool} (h : f.Finds allowed good)
    (hmissing : ∀ hole, about (.missing hole) = false)
    (hfault : ∀ cause site, allowed cause → about (.fault cause site) = false) :
    f.issues.filter about = [] := by
  refine List.filter_eq_nil_iff.2 fun issue hissue => ?_
  cases issue with
  | missing hole => exact Bool.eq_false_iff.1 (hmissing hole)
  | fault cause site => exact Bool.eq_false_iff.1 (hfault cause site (h.faults cause site hissue).1)

end Finding.Finds

/-! ## Expressions -/

section Expressions

variable {σ : Symbols} {allowed : Fault → Prop}

/-- A struct that is named may be undeclared. -/
theorem finds_resolve (h : Common allowed) (spec : TypeSpec) (enclosing : Option String) :
    (spec.resolve σ enclosing).Finds allowed fun _ => True := by
  cases spec with
  | words first rest => exact .pure trivial
  | struct keyword name =>
      exact (Finding.Finds.get name).seq fun _ =>
        (Finding.Finds.complain _ (h _ (by rfl)) (by rfl)).seq fun _ => .pure trivial
  | missing hole => exact .stop hole

/-- A fault, and the type that is taken instead. -/
theorem finds_unknown {fault : Fault} (hallowed : allowed fault) (token : Token) (t : CType) :
    (do Finding.report fault token; pure t : Finding CType).Finds allowed fun _ => True :=
  (Finding.Finds.report hallowed (by rfl)).seq fun _ => .pure trivial

/-- A star may find no pointer. -/
theorem finds_dereference (h : Common allowed) (t : CType) (star : Token) :
    (dereference t star).Finds allowed fun _ => True := by
  unfold dereference
  split
  · exact .pure trivial
  · split
    · exact .pure trivial
    · exact finds_unknown (h _ (by rfl)) _ _

/-- An operand may not be numeric. -/
theorem finds_numericOperand (h : Common allowed) (operator : Token) (t : CType) :
    (numericOperand operator t).Finds allowed fun _ => True := by
  unfold numericOperand
  split
  · exact .pure trivial
  · exact finds_unknown (h _ (by rfl)) _ _

/-- Operands may not go together. -/
theorem finds_operated (h : Common allowed) (tier : Tier) (operator : Token)
    (left right : CType) : (operated tier operator left right).Finds allowed fun _ => True := by
  have hcompared : ∀ need, (compared need operator left right).Finds allowed fun _ => True :=
    fun need => (Finding.Finds.complain _ (h _ (by rfl)) (by rfl)).seq fun _ => .pure trivial
  have harithmetic : (arithmetic operator left right).Finds allowed fun _ => True := by
    simp only [arithmetic]
    generalize (if operator.kind == .operator .percent then Need.integer else Need.numeric) = need
    split
    · exact .pure trivial
    · split
      · exact .pure trivial
      · exact finds_unknown (h _ (by rfl)) _ _
  cases tier with
  | logical => exact hcompared _
  | relational => exact hcompared _
  | additive => exact harithmetic
  | multiplicative => exact harithmetic

/-- An index may be no integer, its base without elements. -/
theorem finds_indexed (h : Common allowed) (opening : Token) (base index : CType)
    {site : Option Token} (hsite : site.isSome = true) :
    (indexed opening base index site).Finds allowed fun _ => True := by
  refine (Finding.Finds.complain _ (h _ (by rfl)) hsite).seq fun _ => ?_
  split
  · exact .pure trivial
  · split
    · exact .pure trivial
    · exact finds_unknown (h _ (by rfl)) _ _

/-- There may be no struct, or no such field in it. -/
theorem finds_fieldType (h : Common allowed) (target : CType) (field : Token) :
    (fieldType σ target field).Finds allowed fun _ => True := by
  unfold fieldType
  split
  · exact finds_unknown (h _ (by rfl)) _ _
  · split
    · exact .pure trivial
    · split
      · exact .pure trivial
      · exact finds_unknown (h _ (by rfl)) _ _

/-- A dot or an arrow may be applied to the wrong thing. -/
theorem finds_memberType (h : Common allowed) (access : Access) (operator : Token)
    (base : CType) (field : Token) :
    (memberType σ access operator base field).Finds allowed fun _ => True := by
  unfold memberType
  split
  · exact .pure trivial
  · split
    · split
      · exact finds_fieldType h _ _
      · exact finds_unknown (h _ (by rfl)) _ _
    · split
      · exact finds_unknown (h _ (by rfl)) _ _
      · exact finds_fieldType h _ _

/-- Arguments that are at tokens. -/
def Placed (arguments : List Argument) : Prop := ∀ argument ∈ arguments, argument.site.isSome = true

theorem Placed.nil : Placed [] := List.forall_mem_nil _

theorem Placed.cons (type : CType) {site : Option Token} {rest : List Argument}
    (hsite : site.isSome = true) (hrest : Placed rest) : Placed (⟨type, site⟩ :: rest) :=
  List.forall_mem_cons.2 ⟨hsite, hrest⟩

/-- Arguments may not fit, each at its own token. -/
theorem finds_checkArguments (h : Common allowed) (function : String) (position : Nat)
    (parameters : List Parameter) {arguments : List Argument} (hplaced : Placed arguments) :
    (checkArguments function position parameters arguments).Finds allowed fun _ => True := by
  induction parameters generalizing position arguments with
  | nil => exact .pure trivial
  | cons parameter parameters ih =>
      cases arguments with
      | nil => exact .pure trivial
      | cons argument arguments =>
          obtain ⟨hsite, hrest⟩ := List.forall_mem_cons.1 hplaced
          exact (Finding.Finds.judge (fun hfine => h _ (by exact hfine)) hsite).seq fun _ =>
            ih _ hrest

/-- A function may be undeclared, or called with another number of arguments. -/
theorem finds_callType (h : Common allowed) {name : Token}
    {arguments : Finding (List Argument)} {closing : Slot}
    (harguments : arguments.Finds allowed Placed) :
    (callType σ name arguments closing).Finds allowed fun _ => True := by
  have hclosed : ∀ t : CType,
      (do let _ ← arguments; closing.require; pure t : Finding CType).Finds allowed
        fun _ => True :=
    fun t => harguments.bind fun _ _ => (Finding.Finds.require closing).seq fun _ => .pure trivial
  unfold callType
  split
  · exact hclosed _
  · split
    · exact (Finding.Finds.report (h _ (by rfl)) (by rfl)).seq fun _ => hclosed _
    · exact harguments.bind fun given hplaced => (Finding.Finds.require closing).seq fun _ =>
        (Finding.Finds.complain _ (h _ (by rfl)) (by rfl)).seq fun _ =>
          (finds_checkArguments h _ _ _ hplaced).seq fun _ => .pure trivial

mutual

/-- An expression reports ordinary faults, each at a token, and has a first token if it has a
type. -/
theorem finds_typing (h : Common allowed) :
    ∀ e : Expr, (e.typing σ).Finds allowed fun _ => e.lead.isSome = true
  | .literal _ _ => .pure rfl
  | .var name => by
      simp only [Expr.typing]
      split
      · exact .pure rfl
      · exact (finds_unknown (h _ (by rfl)) _ _).mono fun _ _ => rfl
  | .emptyCall _ _ _ =>
      (finds_callType h (.pure .nil)).mono fun _ _ => rfl
  | .call _ _ first others _ => by
      have harguments := (finds_typing h first).bind fun type hlead =>
        (finds_trail h others).bind fun rest hrest => .pure (Placed.cons type hlead hrest)
      exact (finds_callType h harguments).mono fun _ _ => rfl
  | .deref _ operand =>
      (finds_typing h operand).bind fun _ _ => (finds_dereference h _ _).mono fun _ _ => rfl
  | .address _ operand => (finds_typing h operand).bind fun _ _ => .pure rfl
  | .unary _ operand =>
      (finds_typing h operand).bind fun _ _ => (finds_numericOperand h _ _).mono fun _ _ => rfl
  | .stepped operand _ =>
      (finds_typing h operand).bind fun _ hlead =>
        (finds_numericOperand h _ _).mono fun _ _ => hlead
  | .index base _ subscript closing =>
      (finds_typing h base).bind fun _ hlead => (finds_typing h subscript).bind fun _ hsite =>
        (Finding.Finds.require closing).seq fun _ =>
          (finds_indexed h _ _ _ hsite).mono fun _ _ => hlead
  | .member base _ _ field =>
      (finds_typing h base).bind fun _ hlead => (Finding.Finds.get field).seq fun _ =>
        (finds_memberType h _ _ _ _).mono fun _ _ => hlead
  | .binary _ left _ right =>
      (finds_typing h left).bind fun _ hlead => (finds_typing h right).bind fun _ _ =>
        (finds_operated h _ _ _ _).mono fun _ _ => hlead
  | .conditional condition _ first colon second =>
      (finds_typing h condition).bind fun _ hlead => (finds_typing h first).bind fun _ _ =>
        (Finding.Finds.require colon).seq fun _ => (finds_typing h second).bind fun _ hsite =>
          (Finding.Finds.judge (fun hfine => h _ (by exact hfine)) hsite).seq fun _ => .pure hlead
  | .group _ inner closing =>
      (finds_typing h inner).bind fun _ _ =>
        (Finding.Finds.require closing).seq fun _ => .pure rfl
  | .sizeofType _ opening spec _ closing =>
      (Finding.Finds.require opening).seq fun _ => (finds_resolve h spec none).seq fun _ =>
        (Finding.Finds.require closing).seq fun _ => .pure rfl
  | .sizeofExpr _ opening operand closing =>
      (Finding.Finds.require opening).seq fun _ => (finds_typing h operand).bind fun _ _ =>
        (Finding.Finds.require closing).seq fun _ => .pure rfl
  | .missing hole => .stop hole

/-- Further arguments, each placed at its first token. -/
theorem finds_trail (h : Common allowed) :
    ∀ arguments : Trail, (arguments.typing σ).Finds allowed Placed
  | .nil => .pure .nil
  | .cons _ argument rest =>
      (finds_typing h argument).bind fun _ hlead => (finds_trail h rest).bind fun _ hrest =>
        .pure (.cons _ hlead hrest)

end

end Expressions

/-! ## Checks -/

/-- A check that reports allowed faults, each at a token, and whose value is a good one. -/
def Check.Finds {α : Type} (m : Check α) (allowed : Fault → Prop) (good : α → Prop) : Prop :=
  ∀ σ, (m σ).2.Finds allowed good

namespace Check.Finds

variable {α β : Type} {m : Check α} {next : α → Check β} {allowed : Fault → Prop}
variable {good : α → Prop} {last : β → Prop} {fault : Fault} {site : Option Token}

theorem reading {f : Symbols → Finding α} (h : ∀ σ, (f σ).Finds allowed good) :
    (Check.reading f).Finds allowed good := h

theorem lift {f : Finding α} (h : f.Finds allowed good) : (Check.lift f).Finds allowed good :=
  fun _ => h

theorem pure {a : α} (h : good a) : (Pure.pure a : Check α).Finds allowed good :=
  lift (.pure h)

/-- A check behind another, for the values that the first may have. -/
theorem bind (hm : m.Finds allowed good) (hnext : ∀ a, good a → (next a).Finds allowed last) :
    (m >>= next).Finds allowed last := by
  intro σ
  rw [Check.Leaves.run_bind]
  exact (hm σ).bind fun a ha => hnext a ha _

/-- What is found behind a part whose value says nothing. -/
theorem seq (hm : m.Finds allowed fun _ => True) (hnext : ∀ a, (next a).Finds allowed last) :
    (m >>= next).Finds allowed last :=
  hm.bind fun a _ => hnext a

theorem inScope (h : m.Finds allowed good) : (Check.inScope m).Finds allowed good :=
  fun σ => h σ.enter

/-- A statement that is broken off is settled without a fault. -/
theorem settled {m : Check Unit} {good : Unit → Prop} (h : m.Finds allowed good) :
    m.settled.Finds allowed fun _ => True :=
  fun σ => (h σ).settledWith ()

/-- A refused declaration is reported at its name. -/
theorem register (h : Common allowed) (declare : Symbols → Attempt Symbols)
    (name : Token) : (Check.register declare name).Finds allowed fun _ => True := by
  intro σ
  rcases hdeclare : declare σ with ⟨σ', refusal | _⟩
  · rw [Check.register_of_refused hdeclare]
    exact .report (h _ (by rfl)) (by rfl)
  · rw [Check.register_of_accepted hdeclare]
    exact .pure trivial

theorem get (slot : Slot) : (Check.lift slot.get).Finds allowed fun _ => True := lift (.get slot)

theorem require (slot : Slot) : (Check.lift slot.require).Finds allowed fun _ => True :=
  lift (.require slot)

theorem complain (fine : Bool) (hallowed : allowed fault) (hsite : site.isSome = true) :
    (Check.lift (Finding.complain fine fault site)).Finds allowed fun _ => True :=
  lift (.complain fine hallowed hsite)

end Check.Finds

/-! ## Declarations -/

section Declarations

variable {allowed : Fault → Prop}

theorem finds_withSuffix (t : CType) (array : Option ArraySuffix) :
    (t.withSuffix array).Finds allowed fun _ => True := by
  cases array with
  | none => exact .pure trivial
  | some suffix =>
      have hsuffix : suffix.check.Finds allowed fun _ => True :=
        (Finding.Finds.require suffix.size).seq fun _ => .require suffix.closing
      exact hsuffix.seq fun _ => .pure trivial

/-- An initial value may not fit. -/
theorem finds_checkInitializer (h : Common allowed) (name : Token) (type : CType)
    (init : Option (Token × Expr)) :
    (checkInitializer name type init).Finds allowed fun _ => True := by
  cases init with
  | none => exact .pure trivial
  | some sign =>
      exact (Check.Finds.reading fun _ => finds_typing h sign.2).bind fun _ hsite =>
        .lift (.judge (fun hfine => h _ (by exact hfine)) hsite)

/-- A variable may be of type void or declared before. -/
theorem finds_declarator (h : Common allowed) (base : BaseType) (isConst : Bool)
    (d : Declarator) : (d.check base isConst).Finds allowed fun _ => True :=
  (Check.Finds.get d.name).seq fun name =>
    (Check.Finds.lift (finds_withSuffix _ d.array)).seq fun type =>
      (Check.Finds.complain _ (h _ (by rfl)) (by rfl)).seq fun _ =>
        (Check.Finds.register h _ name).seq fun _ => finds_checkInitializer h name type d.init

theorem finds_checkDeclarators (h : Common allowed) (base : BaseType) (isConst : Bool)
    (ds : List Declarator) : (checkDeclarators base isConst ds).Finds allowed fun _ => True := by
  induction ds with
  | nil => exact .pure trivial
  | cons d ds ih => exact (finds_declarator h base isConst d).seq fun _ => ih

/-- A type and the variables declared with it. -/
theorem finds_declaration (h : Common allowed) (d : Declaration) :
    d.check.Finds allowed fun _ => True :=
  (Check.Finds.reading fun _ => finds_resolve h d.spec none).seq fun _ =>
    (finds_checkDeclarators h _ _ _).seq fun _ => .require d.semicolon

/-- A field may be there already. -/
theorem finds_field (h : Common allowed) (σ : Symbols) (struct : StructDef) (f : Field) :
    (f.check σ struct).Finds allowed fun _ => True := by
  have hadmit : ∀ name type,
      Finding.Finds ( struct.admit name type) allowed fun _ => True := by
    intro name type
    unfold StructDef.admit
    by_cases hknown : (struct.field? name.lexeme).isSome = true
    · rw [StructDef.tryField_of_known hknown]
      exact (Finding.Finds.report (h _ (by rfl)) (by rfl)).seq fun _ => .pure trivial
    · rw [StructDef.tryField_of_new hknown]
      exact .pure trivial
  exact (finds_resolve h f.spec _).seq fun _ => (Finding.Finds.get f.name).seq fun _ =>
    (finds_withSuffix _ f.array).seq fun _ =>
      (Finding.Finds.require f.semicolon).seq fun _ => hadmit _ _

theorem finds_checkFields (h : Common allowed) (σ : Symbols) (struct : StructDef)
    (fields : List Field) : (checkFields σ struct fields).Finds allowed fun _ => True := by
  induction fields generalizing struct with
  | nil => exact .pure trivial
  | cons f fields ih => exact ((finds_field h σ struct f).settledWith struct).seq fun _ => ih _

/-- A struct may be declared before. -/
theorem finds_structDecl (h : Common allowed) (s : StructDecl) :
    s.check.Finds allowed fun _ => True :=
  (Check.Finds.reading fun σ => finds_checkFields h σ _ s.fields).seq fun _ =>
    (Check.Finds.register h _ _).seq fun _ =>
      (Check.Finds.require s.closing).seq fun _ => .require s.semicolon

/-- A parameter is declared like a variable. -/
theorem finds_param (h : Common allowed) (p : Param) : p.check.Finds allowed fun _ => True := by
  have harray : ∀ t : CType, (t.withParamArray p.array).Finds allowed fun _ => True := by
    intro t
    cases p.array with
    | none => exact .pure trivial
    | some suffix => exact (Finding.Finds.require suffix.closing).seq fun _ => .pure trivial
  exact (Check.Finds.reading fun _ => finds_resolve h p.spec none).seq fun _ =>
    (Check.Finds.get p.name).seq fun _ => (Check.Finds.lift (harray _)).seq fun _ =>
      (Check.Finds.register h _ _).seq fun _ => .pure trivial

theorem finds_checkParams (h : Common allowed) (ps : List Param) :
    (checkParams ps).Finds allowed fun _ => True := by
  induction ps with
  | nil => exact .pure trivial
  | cons p ps ih => exact (finds_param h p).seq fun _ => ih.seq fun _ => .pure trivial

/-- A function may be declared before with another signature. -/
theorem finds_header (h : Common allowed) (header : Header) (defined : Bool) :
    (header.check defined).Finds allowed fun _ => True :=
  (Check.Finds.reading fun _ => finds_resolve h header.spec none).seq fun _ =>
    (Check.Finds.get header.name).seq fun _ => (Check.Finds.require header.opening).seq fun _ =>
      (finds_checkParams h _).seq fun _ => (Check.Finds.require header.closing).seq fun _ =>
        (Check.Finds.register h _ _).seq fun _ => .pure trivial

end Declarations

/-! ## Parts of statements -/

section Parts

variable {σ : Symbols} {allowed : Fault → Prop}

theorem finds_dereferenceAll (h : Common allowed) (t : CType) (stars : List Token) :
    (dereferenceAll t stars).Finds allowed fun _ => True := by
  induction stars generalizing t with
  | nil => exact .pure trivial
  | cons star stars ih => exact (finds_dereference h t star).seq fun _ => ih _

/-- What a place stands for is named by the first token of its path. -/
def Place.Targets (σ : Symbols) (p : Place) (target : Target) : Prop :=
  ∃ token type, p.path.lead = some token ∧
    target = ⟨token.lexeme, type, (σ.var? token.lexeme).any (·.isFrozen p.stars), some token⟩

/-- A place that has a target begins with a token. -/
theorem Place.Targets.site {p : Place} {target : Target} (h : p.Targets σ target) :
    target.site.isSome = true := by
  obtain ⟨token, type, -, rfl⟩ := h
  rfl

/-- Faults of its path and its stars, and the target that a place stands for. -/
theorem finds_target (h : Common allowed) (p : Place) :
    (p.target σ).Finds allowed (p.Targets σ) :=
  (finds_typing h p.path).bind fun _ hlead =>
    (finds_dereferenceAll h _ _).seq fun type => by
      obtain ⟨token, htoken⟩ := Option.isSome_iff_exists.1 hlead
      refine .pure ⟨token, type, htoken, ?_⟩
      rw [htoken]
      rfl

/-! What is said of a value that is stored, beside a write to a constant. -/

/-- A target may not be numeric. Whether it may be written to is asked apart, here and below. -/
theorem finds_checkStep (h : Common allowed) {t : Target} (hsite : t.site.isSome = true)
    (hwritable : t.checkWritable.Finds allowed fun _ => True) (operator : Token) :
    (t.checkStep operator).Finds allowed fun _ => True :=
  hwritable.seq fun _ => .complain _ (h _ (by rfl)) hsite

/-- A value may not fit, or the target be an array. -/
theorem finds_checkStore (h : Common allowed) {t : Target}
    (hwritable : t.checkWritable.Finds allowed fun _ => True) (value : CType)
    {site : Option Token} (hsite : site.isSome = true) :
    (t.checkStore value site).Finds allowed fun _ => True := by
  refine hwritable.seq fun _ => ?_
  split
  · exact .report (h _ (by rfl)) hsite
  · exact .judge (fun hfine => h _ (by exact hfine)) hsite

/-- Operands may not go together, or the value not fit. -/
theorem finds_checkUpdate (h : Common allowed) {t : Target}
    (hwritable : t.checkWritable.Finds allowed fun _ => True) (operator : Token)
    (value : CType) : (t.checkUpdate operator value).Finds allowed fun _ => True := by
  refine hwritable.seq fun _ => ?_
  split
  · exact .pure trivial
  · dsimp only
    split
    · exact .judge (fun hfine => h _ (by exact hfine)) (by rfl)
    · exact .report (h _ (by rfl)) (by rfl)

/-- An assignment may report a write to a constant. -/
theorem finds_assignment (h : Common allowed) (hconst : ∀ name, allowed (.assignedConst name))
    (a : Assignment) : (a.check σ).Finds allowed fun _ => True := by
  have hwritable : ∀ {t : Target}, t.site.isSome = true →
      t.checkWritable.Finds allowed fun _ => True := fun hsite => .complain _ (hconst _) hsite
  cases a with
  | stepBefore operator place =>
      exact (finds_target h place).bind fun _ ht => finds_checkStep h ht.site (hwritable ht.site) _
  | stepAfter place operator =>
      exact (finds_target h place).bind fun _ ht => finds_checkStep h ht.site (hwritable ht.site) _
  | store place sign value =>
      exact (finds_target h place).bind fun _ ht => (finds_typing h value).bind fun _ hsite =>
        finds_checkStore h (hwritable ht.site) _ hsite
  | update place operator value =>
      exact (finds_target h place).bind fun _ ht => (finds_typing h value).bind fun _ _ =>
        finds_checkUpdate h (hwritable ht.site) _ _
  | missing place hole => exact (finds_target h place).bind fun _ _ => .stop hole

/-- Arguments may not fit their specifiers. -/
theorem finds_formatArguments (h : Common allowed) (call : FormatCall)
    (specs : List FormatSpec) {arguments : List Argument} (hplaced : Placed arguments) :
    (call.checkArguments specs arguments).Finds allowed fun _ => True := by
  have hargument : ∀ spec {argument : Argument}, argument.site.isSome = true →
      (call.checkArgument spec argument).Finds allowed fun _ => True := by
    intro spec argument hsite
    cases call with
    | printf => exact .complain _ (h _ (by rfl)) hsite
    | scanf =>
        simp only [FormatCall.checkArgument, checkScanned]
        split
        · exact .pure trivial
        · split
          · exact .report (h _ (by rfl)) hsite
          · exact .complain _ (h _ (by rfl)) hsite
  induction specs generalizing arguments with
  | nil => exact .pure trivial
  | cons spec specs ih =>
      cases arguments with
      | nil => exact .pure trivial
      | cons argument arguments =>
          obtain ⟨hsite, hrest⟩ := List.forall_mem_cons.1 hplaced
          exact (hargument _ hsite).seq fun _ => ih hrest

/-- A format may be malformed, or ask for another number of arguments. -/
theorem finds_format (h : Common allowed) (call : FormatCall) (format : Token)
    {arguments : List Argument} (hplaced : Placed arguments) :
    (call.check format arguments).Finds allowed fun _ => True := by
  unfold FormatCall.check
  split
  · exact .report (h _ (by rfl)) (by rfl)
  · exact (Finding.Finds.complain _ (h _ (by rfl)) (by rfl)).seq fun _ =>
      finds_formatArguments h _ _ hplaced

/-- A test may decide nothing. -/
theorem finds_checkTest (h : Common allowed) (ruled : Ruled) (test : Expr) :
    (checkTest σ ruled test).Finds allowed fun _ => True :=
  (finds_typing h test).bind fun _ hsite => .complain _ (h _ (by rfl)) hsite

theorem finds_condition (h : Common allowed) (ruled : Ruled) (c : Condition) :
    (c.check σ ruled).Finds allowed fun _ => True :=
  (Finding.Finds.require c.opening).seq fun _ =>
    (finds_checkTest h ruled c.test).seq fun _ => .require c.closing

/-- The subject of a switch may be no integer. -/
theorem finds_checkSubject (h : Common allowed) (subject : Expr) :
    (checkSubject σ subject).Finds allowed fun _ => True :=
  (finds_typing h subject).bind fun _ hsite => .complain _ (h _ (by rfl)) hsite

/-- A function that returns a value needs one. -/
theorem finds_checkExit (h : Exiting allowed) (context : Context) (keyword : Token) :
    (context.checkExit keyword).Finds allowed fun _ => True := by
  unfold Context.checkExit
  split
  · exact .pure trivial
  · exact .complain _ (h _ (by rfl) (by rfl)) (by rfl)

/-- A function of type void has no value to return, and others only values that fit. -/
theorem finds_checkResult (h : Exiting allowed) (context : Context) (found : CType)
    {site : Option Token} (hsite : site.isSome = true) :
    (context.checkResult found site).Finds allowed fun _ => True := by
  unfold Context.checkResult
  split
  · exact .pure trivial
  · split
    · exact .report (h _ (by rfl) (by rfl)) hsite
    · exact .judge (fun hfine => h _ (by rfl) (by exact hfine)) hsite

theorem finds_checkForTest (h : Common allowed) (test : Option Expr) :
    (checkForTest test).Finds allowed fun _ => True := by
  cases test with
  | none => exact .pure trivial
  | some test => exact .reading fun _ => finds_checkTest h .forLoop test

end Parts

/-! ## Statements -/

section Statements

variable {allowed : Fault → Prop}

/-- The value of a return is typed like any other, then compared with the function around. -/
theorem finds_exitWith (h : Common allowed) (hexit : Exiting allowed) (context : Context)
    (keyword : Token) (value : Expr) (semicolon : Slot) :
    ((Stmt.exitWith keyword value semicolon).check context).Finds allowed fun _ => True :=
  (Check.Finds.reading fun _ => finds_typing h value).bind fun _ hsite =>
    (Check.Finds.lift (finds_checkResult hexit context _ hsite)).seq fun _ => .require semicolon

theorem finds_call (h : Common allowed) (context : Context) (call : Expr) (semicolon : Slot) :
    ((Stmt.call call semicolon).check context).Finds allowed fun _ => True :=
  (Check.Finds.reading fun _ => finds_typing h call).bind fun _ _ => .require semicolon

/-- A call of `printf`, whose format may be any expression. -/
theorem finds_printf (h : Common allowed) (context : Context) (name : Token) (opening : Slot)
    (format : Expr) (arguments : Trail) (closing semicolon : Slot) :
    ((Stmt.printf name opening format arguments closing semicolon).check context).Finds allowed
      fun _ => True := by
  refine (Check.Finds.require opening).seq fun _ =>
    (Check.Finds.reading fun _ => finds_typing h format).bind fun _ _ =>
      (Check.Finds.reading fun _ => finds_trail h arguments).bind fun given hplaced =>
        (Check.Finds.require closing).seq fun _ => (Check.Finds.require semicolon).seq fun _ => ?_
  split
  · exact .lift (finds_format h .printf _ hplaced)
  · exact .pure trivial

/-- A call of `scanf`, whose format is a token. -/
theorem finds_scanf (h : Common allowed) (context : Context) (name : Token) (opening : Slot)
    (format : Slot) (arguments : Trail) (closing semicolon : Slot) :
    ((Stmt.scanf name opening format arguments closing semicolon).check context).Finds allowed
      fun _ => True :=
  (Check.Finds.require opening).seq fun _ => (Check.Finds.get format).seq fun token =>
    (Check.Finds.reading fun _ => finds_trail h arguments).bind fun _ hplaced =>
      (Check.Finds.require closing).seq fun _ => (Check.Finds.require semicolon).seq fun _ =>
        .lift (finds_format h .scanf token hplaced)

/-- The first part of a `for` may write to a constant. -/
theorem finds_forInit (h : Common allowed) (hconst : ∀ name, allowed (.assignedConst name))
    (init : ForInit) : init.check.Finds allowed fun _ => True := by
  cases init with
  | none semicolon => exact .pure trivial
  | declaration d => exact finds_declaration h d
  | assignment a semicolon =>
      exact (Check.Finds.reading fun _ => finds_assignment h hconst a).seq fun _ =>
        .require semicolon

/-- So may the last part. -/
theorem finds_checkForUpdate (h : Common allowed) (hconst : ∀ name, allowed (.assignedConst name))
    (update : Option Assignment) : (checkForUpdate update).Finds allowed fun _ => True := by
  cases update with
  | none => exact .pure trivial
  | some a => exact .reading fun _ => finds_assignment h hconst a

/-- Any fault whatever. -/
theorem ordinary_any : Ordinary fun _ => True := fun _ _ => trivial

theorem common_any : Common fun _ => True := ordinary_any.common

/-- A fault that holds no type against one that accepts it. -/
def Founded (cause : Fault) : Prop := cause.isUnfounded = false

theorem ordinary_founded : Ordinary Founded := fun _ h => (Bool.or_eq_false_iff.1 h).2

theorem common_founded : Common Founded := ordinary_founded.common

theorem founded_const (name : String) : Founded (.assignedConst name) := rfl

mutual

/-- **Every fault of a statement is reported at a token,** and no type is held against one that
accepts it. -/
theorem finds_stmt (context : Context) :
    ∀ s : Stmt, (s.check context).Finds Founded fun _ => True
  | .blank _ => .pure trivial
  | .struct definition => finds_structDecl common_founded definition
  | .declaration d => finds_declaration common_founded d
  | .prototype header _ =>
      .inScope ((finds_header common_founded header false).seq fun _ => .pure trivial)
  | .function header body =>
      .inScope ((finds_header common_founded header true).seq fun f => finds_stmt (.body f) body)
  | .ifThen _ condition body =>
      (Check.Finds.reading fun _ => finds_condition common_founded .ifElse condition).seq fun _ =>
        .inScope (finds_stmt context body)
  | .ifElse _ condition body _ alternative =>
      (Check.Finds.reading fun _ => finds_condition common_founded .ifElse condition).seq fun _ =>
        (Check.Finds.inScope (finds_stmt context body)).seq fun _ =>
          .inScope (finds_stmt context alternative)
  | .whileLoop _ condition body =>
      (Check.Finds.reading fun _ => finds_condition common_founded .whileLoop condition).seq
        fun _ => .inScope (finds_stmt context.loop body)
  | .doWhile _ body whileWord condition semicolon =>
      (Check.Finds.inScope (finds_stmt context.loop body)).seq fun _ =>
        (Check.Finds.require whileWord).seq fun _ =>
          (Check.Finds.reading fun _ => finds_condition common_founded .doWhile condition).seq
            fun _ => .require semicolon
  | .forLoop _ opening init test semicolon update closing body =>
      (Check.Finds.require opening).seq fun _ =>
        .inScope ((finds_forInit common_founded founded_const init).seq fun _ =>
          (finds_checkForTest common_founded test).seq fun _ =>
            (Check.Finds.require semicolon).seq fun _ =>
              (finds_checkForUpdate common_founded founded_const update).seq fun _ =>
                (Check.Finds.require closing).seq fun _ =>
                  .inScope (finds_stmt context.loop body))
  | .switch _ opening subject closing bodyStart clauses bodyEnd =>
      (Check.Finds.require opening).seq fun _ =>
        (Check.Finds.reading fun _ => finds_checkSubject common_founded subject).seq fun _ =>
          (Check.Finds.require closing).seq fun _ => (Check.Finds.require bodyStart).seq fun _ =>
            (Check.Finds.inScope (finds_clauses context.switch [] false clauses)).seq fun _ =>
              .require bodyEnd
  | .exit keyword _ => .lift (finds_checkExit ordinary_founded.exiting context keyword)
  | .exitWith keyword value semicolon =>
      finds_exitWith common_founded ordinary_founded.exiting context keyword value semicolon
  | .jump _ semicolon =>
      (Check.Finds.complain _ (by rfl) (by rfl)).seq fun _ => .require semicolon
  | .block _ body closing =>
      (Check.Finds.inScope (finds_stmts context body)).seq fun _ => .require closing
  | .call call semicolon => finds_call common_founded context call semicolon
  | .printf name opening format arguments closing semicolon =>
      finds_printf common_founded context name opening format arguments closing semicolon
  | .scanf name opening format arguments closing semicolon =>
      finds_scanf common_founded context name opening format arguments closing semicolon
  | .assignment a semicolon =>
      (Check.Finds.reading fun _ => finds_assignment common_founded founded_const a).seq fun _ =>
        .require semicolon
  | .missing hole => .lift (.stop hole)

/-- Statements one after the other. -/
theorem finds_stmts (context : Context) :
    ∀ ss : Stmts, (ss.check context).Finds Founded fun _ => True
  | .nil => .pure trivial
  | .cons first rest => (finds_stmt context first).settled.seq fun _ => finds_stmts context rest

/-- Labels may be there twice, and so may the default. -/
theorem finds_clauses (context : Context) (seen : List String) (hasDefault : Bool) :
    ∀ cs : Clauses, (cs.check context seen hasDefault).Finds Founded fun _ => True
  | .nil => .pure trivial
  | .case _ (.missing hole) _ rest => by
      have hlabel : (Check.lift (Finding.stop hole : Finding Unit)).Finds Founded
          fun _ => True := .lift (.stop hole)
      exact hlabel.settled.seq fun _ => finds_clauses context seen hasDefault rest
  | .case _ (.found value) colon rest =>
      (Check.Finds.complain _ (by rfl) (by rfl)).seq fun _ =>
        (Check.Finds.require colon).settled.seq fun _ => finds_clauses context _ hasDefault rest
  | .default _ colon rest =>
      (Check.Finds.complain _ (by rfl) (by rfl)).seq fun _ =>
        (Check.Finds.require colon).settled.seq fun _ => finds_clauses context seen true rest
  | .stmt first rest =>
      (finds_stmt context first).settled.seq fun _ => finds_clauses context seen hasDefault rest

end

end Statements

end MiniC
