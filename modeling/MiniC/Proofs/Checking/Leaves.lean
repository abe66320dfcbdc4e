import MiniC.Proofs.Reading.Trace
import MiniC.Stmt.Check

/-!
# `MiniC.Proofs.Checking.Leaves` — what a check leaves behind

Three things are true of every check, whatever it finds wrong and wherever it stops.  The holes it
reports, and the one it stops at, are those of the tree: symbols and context make no difference.
The scopes around it are as they were, and the innermost one has lost nothing.  And as long as a
scope is open no declaration is refused for want of one.  `Leaves` says all three of a check, and
is kept by every way to put checks together.

## Contents
- `Finding.trace`; `Finding.Leaves`, with one lemma for each combinator of findings.
- `Symbols.Keeps`, and the declarations that keep the symbols.
- `Check.Leaves`, with one lemma for each combinator of checks.
- One lemma for each check of a kind of tree, up to `leaves_stmt`.
-/

namespace MiniC

/-! ## Issues -/

/-- The hole that an issue is about. -/
def Issue.hole? : Issue → Option Hole
  | missing hole => some hole
  | fault _ _ => none

/-- Whether a refusal blames that no scope is open. -/
def Refusal.blamesScope : Refusal → Bool
  | noOpenScope _ => true
  | _ => false

/-- Whether a fault is that no scope is open. -/
def Fault.blamesScope : Fault → Bool
  | refused refusal => refusal.blamesScope
  | _ => false

/-- Whether an issue is that no scope is open. -/
def Issue.blamesScope : Issue → Bool
  | missing _ => false
  | fault cause _ => cause.blamesScope

/-! ## Findings -/

/-- The holes that were found. -/
def Finding.trace {α : Type} (f : Finding α) : Trace where
  reported := f.issues.filterMap Issue.hole?
  stop :=
    match f.outcome with
    | .ok _ => none
    | .error hole => some hole

/-- A finding that does not stop has a value. -/
theorem Finding.exists_ok {α : Type} {f : Finding α} (h : f.trace.stop = none) :
    ∃ a, f.outcome = .ok a := by
  obtain ⟨issues, hole | a⟩ := f
  · cases h
  · exact ⟨a, rfl⟩

/-- A finding that stops ends in the hole where it stops. -/
theorem Finding.outcome_error {α : Type} {f : Finding α} {hole : Hole}
    (h : f.trace.stop = some hole) : f.outcome = .error hole := by
  obtain ⟨issues, hole | a⟩ := f
  · cases h
    rfl
  · cases h

/-- What is found behind has holes of its own, the same ones whatever the value in front. -/
theorem Finding.trace_bind {α β : Type} {f : Finding α} {next : α → Finding β} {t : Trace}
    (h : ∀ a, (next a).trace = t) : (f >>= next).trace = f.trace.andThen t := by
  obtain ⟨issues, hole | a⟩ := f
  · rfl
  · obtain rfl := h a
    simp [Finding.trace, Finding.bind_eq, Finding.andThen, Trace.andThen, List.filterMap_append]

/-- When a part is settled, the hole it stopped at is reported as well. -/
theorem Finding.trace_settledWith {α : Type} (f : Finding α) (default : α) :
    (f.settledWith default).trace = f.trace.settled := by
  obtain ⟨issues, hole | a⟩ := f <;>
    simp [Finding.trace, Finding.settledWith, Trace.settled, Issue.hole?]

/-- A finding on a part of the tree with the trace `t`. -/
structure Finding.Leaves {α : Type} (f : Finding α) (t : Trace) : Prop where
  trace : f.trace = t
  blameless : ∀ issue ∈ f.issues, issue.blamesScope = false

namespace Finding.Leaves

variable {α β : Type} {f : Finding α} {next : α → Finding β} {s t : Trace} {fault : Fault}

theorem pure (a : α) : (Pure.pure a : Finding α).Leaves .clear :=
  ⟨rfl, by simp⟩

/-- A stop is the hole of a part that is missing. -/
theorem stop (hole : Hole) : (Finding.stop hole : Finding α).Leaves (.stopped hole) :=
  ⟨rfl, by simp [Finding.stop]⟩

theorem report (h : fault.blamesScope = false) (site : Option Token) :
    (Finding.report fault site).Leaves .clear :=
  ⟨rfl, by simp [Finding.report, Issue.blamesScope, h]⟩

/-- A fault is no hole, whether it is reported or not. -/
theorem complain (fine : Bool) (h : fault.blamesScope = false) (site : Option Token) :
    (Finding.complain fine fault site).Leaves .clear := by
  cases fine with
  | true => exact pure ()
  | false => exact report h site

/-- Holes in front, then holes behind, unless the part in front stops. -/
theorem bind (hf : f.Leaves s) (hnext : ∀ a, (next a).Leaves t) :
    (f >>= next).Leaves (s.andThen t) := by
  refine ⟨?_, ?_⟩
  · rw [Finding.trace_bind fun a => (hnext a).trace, hf.trace]
  · have hblameless := hf.blameless
    obtain ⟨issues, hole | a⟩ := f
    · exact hblameless
    · intro issue hissue
      rcases List.mem_append.1 hissue with hissue | hissue
      · exact hblameless issue hissue
      · exact (hnext a).blameless issue hissue

/-- What is found behind a part without holes. -/
theorem bind_of_clear (hf : f.Leaves .clear) (hnext : ∀ a, (next a).Leaves t) :
    (f >>= next).Leaves t :=
  hf.bind hnext

/-- What is found in front of a part without holes. -/
theorem bind_clear (hf : f.Leaves s) (hnext : ∀ a, (next a).Leaves .clear) :
    (f >>= next).Leaves s := by
  rw [← s.andThen_clear]
  exact hf.bind hnext

/-- A token that must be there: its absence is the one hole. -/
theorem get (slot : Slot) : slot.get.Leaves slot.trace := by
  cases slot with
  | found token => exact pure token
  | missing hole => exact stop hole

theorem require (slot : Slot) : slot.require.Leaves slot.trace :=
  (get slot).bind_clear fun _ => pure ()

/-- A part that is settled goes on with a default value, and leaves no stop. -/
theorem settledWith (hf : f.Leaves s) (default : α) :
    (f.settledWith default).Leaves s.settled := by
  refine ⟨?_, ?_⟩
  · rw [Finding.trace_settledWith, hf.trace]
  · have hblameless := hf.blameless
    obtain ⟨issues, hole | a⟩ := f
    · intro issue hissue
      rcases List.mem_append.1 hissue with hissue | hissue
      · exact hblameless issue hissue
      · rw [List.mem_singleton.1 hissue]
        rfl
    · exact hblameless

end Finding.Leaves

/-! ## Expressions -/

section Expressions

variable {σ : Symbols}

/-- A struct that is not defined is a fault; only its missing name is a hole. -/
theorem leaves_resolve (spec : TypeSpec) (enclosing : Option String) :
    (spec.resolve σ enclosing).Leaves spec.trace := by
  cases spec with
  | words first rest => exact .pure _
  | struct keyword name =>
      exact (Finding.Leaves.get name).bind_clear fun _ =>
        (Finding.Leaves.complain _ (by rfl) _).bind_of_clear fun _ => .pure _
  | missing hole => exact .stop hole

/-- A star finds at most a fault. -/
theorem leaves_dereference (t : CType) (star : Token) : (dereference t star).Leaves .clear := by
  unfold dereference
  split
  · exact .pure _
  · split
    · exact .pure _
    · exact (Finding.Leaves.report (by rfl) _).bind_of_clear fun _ => .pure _

/-- An operand of a sign or of a step finds at most a fault. -/
theorem leaves_numericOperand (operator : Token) (t : CType) :
    (numericOperand operator t).Leaves .clear := by
  unfold numericOperand
  split
  · exact .pure _
  · exact (Finding.Leaves.report (by rfl) _).bind_of_clear fun _ => .pure _

/-- An operator finds at most a fault in its operands, in each tier. -/
theorem leaves_operated (tier : Tier) (operator : Token) (left right : CType) :
    (operated tier operator left right).Leaves .clear := by
  have harithmetic : (arithmetic operator left right).Leaves .clear := by
    simp only [arithmetic]
    generalize (if operator.kind == .operator .percent then Need.integer else Need.numeric) = need
    split
    · exact .pure _
    · split
      · exact .pure _
      · exact (Finding.Leaves.report (by rfl) _).bind_of_clear fun _ => .pure _
  cases tier with
  | logical => exact (Finding.Leaves.complain _ (by rfl) _).bind_of_clear fun _ => .pure _
  | relational => exact (Finding.Leaves.complain _ (by rfl) _).bind_of_clear fun _ => .pure _
  | additive => exact harithmetic
  | multiplicative => exact harithmetic

/-- An index finds at most faults: in itself and in what it is applied to. -/
theorem leaves_indexed (opening : Token) (base index : CType) (site : Option Token) :
    (indexed opening base index site).Leaves .clear := by
  refine (Finding.Leaves.complain _ (by rfl) _).bind_of_clear fun _ => ?_
  split
  · exact .pure _
  · split
    · exact .pure _
    · exact (Finding.Leaves.report (by rfl) _).bind_of_clear fun _ => .pure _

/-- A field finds at most a fault: no struct, or no such field in it. -/
theorem leaves_fieldType (target : CType) (field : Token) :
    (fieldType σ target field).Leaves .clear := by
  unfold fieldType
  split
  · exact (Finding.Leaves.report (by rfl) _).bind_of_clear fun _ => .pure _
  · split
    · exact .pure _
    · split
      · exact .pure _
      · exact (Finding.Leaves.report (by rfl) _).bind_of_clear fun _ => .pure _

/-- A member selected by a dot or an arrow finds at most a fault. -/
theorem leaves_memberType (access : Access) (operator : Token) (base : CType) (field : Token) :
    (memberType σ access operator base field).Leaves .clear := by
  unfold memberType
  split
  · exact .pure _
  · split
    · split
      · exact leaves_fieldType _ _
      · exact (Finding.Leaves.report (by rfl) _).bind_of_clear fun _ => .pure _
    · split
      · exact (Finding.Leaves.report (by rfl) _).bind_of_clear fun _ => .pure _
      · exact leaves_fieldType _ _

/-- Arguments are compared with the parameters one by one, faults only. -/
theorem leaves_checkArguments (function : String) (position : Nat) (parameters : List Parameter)
    (arguments : List Argument) :
    (checkArguments function position parameters arguments).Leaves .clear := by
  induction parameters generalizing position arguments with
  | nil => exact .pure _
  | cons parameter parameters ih =>
      cases arguments with
      | nil => exact .pure _
      | cons argument arguments =>
          exact (Finding.Leaves.complain _ (by rfl) _).bind_of_clear fun _ => ih _ _

/-- A call is checked up to its closing parenthesis, whatever is called. -/
theorem leaves_callType {name : Token} {arguments : Finding (List Argument)} {closing : Slot}
    {t : Trace} (h : arguments.Leaves t) :
    (callType σ name arguments closing).Leaves (t.andThen closing.trace) := by
  unfold callType
  split
  · exact h.bind fun _ => (Finding.Leaves.require closing).bind_clear fun _ => .pure _
  · split
    · exact (Finding.Leaves.report (by rfl) _).bind_of_clear fun _ =>
        h.bind fun _ => (Finding.Leaves.require closing).bind_clear fun _ => .pure _
    · exact h.bind fun _ => (Finding.Leaves.require closing).bind_clear fun _ =>
        (Finding.Leaves.complain _ (by rfl) _).bind_of_clear fun _ =>
          (leaves_checkArguments _ _ _ _).bind_of_clear fun _ => .pure _

mutual

/-- **An expression is typed up to its first hole, whatever the symbols.** Subtrees are typed in the
order of their tokens, and what is concluded from their types adds faults only. -/
theorem leaves_typing : ∀ e : Expr, (e.typing σ).Leaves e.trace
  | .literal _ _ => .pure _
  | .var name => by
      simp only [Expr.typing]
      split
      · exact .pure _
      · exact (Finding.Leaves.report (by rfl) _).bind_of_clear fun _ => .pure _
  | .emptyCall _ _ _ => leaves_callType (.pure _)
  | .call _ _ first others _ => by
      have harguments := (leaves_typing first).bind fun type =>
        (leaves_trail others).bind_clear fun rest =>
          .pure (⟨type, first.lead⟩ :: rest : List Argument)
      rw [Expr.trace, ← Trace.andThen_assoc]
      exact leaves_callType harguments
  | .deref _ operand => (leaves_typing operand).bind_clear fun _ => leaves_dereference _ _
  | .address _ operand => (leaves_typing operand).bind_clear fun _ => .pure _
  | .unary _ operand => (leaves_typing operand).bind_clear fun _ => leaves_numericOperand _ _
  | .stepped operand _ => (leaves_typing operand).bind_clear fun _ => leaves_numericOperand _ _
  | .index base _ subscript closing =>
      (leaves_typing base).bind fun _ => (leaves_typing subscript).bind fun _ =>
        (Finding.Leaves.require closing).bind_clear fun _ => leaves_indexed _ _ _ _
  | .member base _ _ field =>
      (leaves_typing base).bind fun _ =>
        (Finding.Leaves.get field).bind_clear fun _ => leaves_memberType _ _ _ _
  | .binary _ left _ right =>
      (leaves_typing left).bind fun _ =>
        (leaves_typing right).bind_clear fun _ => leaves_operated _ _ _ _
  | .conditional condition _ first colon second =>
      (leaves_typing condition).bind fun _ => (leaves_typing first).bind fun _ =>
        (Finding.Leaves.require colon).bind fun _ => (leaves_typing second).bind_clear fun _ =>
          (Finding.Leaves.complain _ (by rfl) _).bind_of_clear fun _ => .pure _
  | .group _ inner closing =>
      (leaves_typing inner).bind fun _ =>
        (Finding.Leaves.require closing).bind_clear fun _ => .pure _
  | .sizeofType _ opening spec _ closing =>
      (Finding.Leaves.require opening).bind fun _ => (leaves_resolve spec none).bind fun _ =>
        (Finding.Leaves.require closing).bind_clear fun _ => .pure _
  | .sizeofExpr _ opening operand closing =>
      (Finding.Leaves.require opening).bind fun _ => (leaves_typing operand).bind fun _ =>
        (Finding.Leaves.require closing).bind_clear fun _ => .pure _
  | .missing hole => .stop hole

/-- Further arguments are typed one after the other. -/
theorem leaves_trail : ∀ arguments : Trail, (arguments.typing σ).Leaves arguments.trace
  | .nil => .pure _
  | .cons _ argument rest =>
      (leaves_typing argument).bind fun _ => (leaves_trail rest).bind_clear fun _ => .pure _

end

end Expressions

/-! ## Symbols -/

/-- What every check leaves as it was: how many scopes are open, all scopes but the innermost, and
what was declared in the innermost one. -/
structure Symbols.Keeps (σ σ' : Symbols) : Prop where
  depth : σ'.depth = σ.depth
  outer : σ'.scopes.tail = σ.scopes.tail
  inner : ∀ name v, (σ.scopes.headD []).find? name = some v →
    (σ'.scopes.headD []).find? name = some v

namespace Symbols.Keeps

variable {σ σ₁ σ₂ : Symbols}

/-- A check that declares nothing keeps the symbols. -/
theorem refl (σ : Symbols) : σ.Keeps σ := ⟨rfl, rfl, fun _ _ h => h⟩

/-- Two checks in a row keep what each of them keeps. -/
theorem trans (h₁ : σ.Keeps σ₁) (h₂ : σ₁.Keeps σ₂) : σ.Keeps σ₂ :=
  ⟨h₂.depth.trans h₁.depth, h₂.outer.trans h₁.outer,
    fun name v h => h₂.inner name v (h₁.inner name v h)⟩

/-- Functions and structs may be registered, since only the scopes count. -/
theorem of_scopes (h : σ₁.scopes = σ.scopes) : σ.Keeps σ₁ :=
  ⟨congrArg List.length h, congrArg List.tail h, fun _ _ hv => h ▸ hv⟩

/-- A scope that was opened is closed again with all that was declared in it. -/
theorem leave (h : σ.enter.Keeps σ₁) : σ.Keeps σ₁.leave := of_scopes h.outer

end Symbols.Keeps

/-- A declaration keeps all that was declared, and is not refused for want of a scope. -/
structure Keeping (declare : Symbols → Attempt Symbols) : Prop where
  keeps : ∀ σ : Symbols, σ.Keeps (declare σ).1
  blameless : ∀ σ refusal, 0 < σ.depth → (declare σ).2 = .error refusal →
    refusal.blamesScope = false

/-- A new variable is put into the innermost scope, where no other of its name is. -/
theorem keeping_declareVariable (v : Variable) : Keeping (·.tryVariable v) := by
  refine ⟨fun σ => ?_, fun σ refusal hopen h => ?_⟩
  · obtain ⟨scopes, functions, structs⟩ := σ
    cases scopes with
    | nil => exact .refl _
    | cons scope outer =>
        by_cases hsome : (scope.find? v.name).isSome = true
        · rw [Symbols.tryVariable_of_known hsome]
          exact .refl _
        · rw [Symbols.tryVariable_of_new hsome]
          refine ⟨rfl, rfl, fun name w hw => ?_⟩
          -- a name that is found in the scope already is not the new one
          have hname : v.name ≠ name := by
            rintro rfl
            exact hsome (Option.isSome_iff_exists.2 ⟨w, hw⟩)
          have hskip : (v.name == name) = false := by simpa using hname
          show List.find? _ (v :: scope) = some w
          rw [List.find?_cons, hskip]
          exact hw
  · obtain ⟨scopes, functions, structs⟩ := σ
    cases scopes with
    | nil => exact absurd hopen (Nat.lt_irrefl 0)
    | cons scope outer =>
        by_cases hsome : (scope.find? v.name).isSome = true
        · rw [Symbols.tryVariable_of_known hsome] at h
          cases h
          rfl
        · rw [Symbols.tryVariable_of_new hsome] at h
          cases h

/-- A function is put into the registry of functions, beside the scopes. -/
theorem keeping_declareFunction (f : Function) : Keeping (·.tryFunction f) := by
  refine ⟨fun σ => .of_scopes ?_, fun σ refusal hopen h => ?_⟩
  · have hdeclares := σ.declaresFunction f
    generalize σ.tryFunction f = attempt at hdeclares
    cases hdeclares <;> rfl
  · have hdeclares := σ.declaresFunction f
    generalize σ.tryFunction f = attempt at hdeclares h
    cases hdeclares <;> cases h <;> rfl

/-- A struct is put into the registry of structs, beside the scopes. -/
theorem keeping_declareStruct (struct : StructDef) : Keeping (·.tryStruct struct) := by
  refine ⟨fun σ => .of_scopes ?_, fun σ refusal hopen h => ?_⟩
  · by_cases hknown : (σ.struct? struct.name).isSome = true
    · rw [Symbols.tryStruct_of_known hknown]
    · rw [Symbols.tryStruct_of_new hknown]
  · by_cases hknown : (σ.struct? struct.name).isSome = true
    · rw [Symbols.tryStruct_of_known hknown] at h
      cases h
      rfl
    · rw [Symbols.tryStruct_of_new hknown] at h
      cases h

/-! ## Checks -/

/-- A check of a part of the tree with the trace `t`. -/
structure Check.Leaves {α : Type} (m : Check α) (t : Trace) : Prop where
  trace : ∀ σ, (m σ).2.trace = t
  keeps : ∀ σ : Symbols, σ.Keeps (m σ).1
  blameless : ∀ σ, 0 < σ.depth → ∀ issue ∈ (m σ).2.issues, issue.blamesScope = false

namespace Check.Leaves

variable {α β : Type} {m : Check α} {next : α → Check β} {s t : Trace} {fault : Fault}

/-- A check that only reads the symbols leaves what its finding leaves. -/
theorem reading {f : Symbols → Finding α} (h : ∀ σ, (f σ).Leaves t) : (Check.reading f).Leaves t :=
  ⟨fun σ => (h σ).trace, .refl, fun σ _ => (h σ).blameless⟩

theorem lift {f : Finding α} (h : f.Leaves t) : (Check.lift f).Leaves t := reading fun _ => h

theorem pure (a : α) : (Pure.pure a : Check α).Leaves .clear := lift (.pure a)

/-- A refused declaration is a fault, and only a missing scope would be blamed on scopes. -/
theorem register {declare : Symbols → Attempt Symbols} (h : Keeping declare)
    (name : Token) : (Check.register declare name).Leaves .clear := by
  refine ⟨fun σ => ?_, fun σ => ?_, fun σ hopen => ?_⟩
  · unfold Check.register
    rcases declare σ with ⟨σ', refusal | _⟩ <;> rfl
  · have hkeeps := h.keeps σ
    unfold Check.register
    generalize declare σ = attempt at hkeeps ⊢
    rcases attempt with ⟨σ', refusal | _⟩ <;> exact hkeeps
  · have hblameless := h.blameless σ
    unfold Check.register
    generalize declare σ = attempt at hblameless ⊢
    rcases attempt with ⟨σ', refusal | _⟩
    · have hcause : (Fault.refused refusal).blamesScope = false := hblameless refusal hopen rfl
      exact (Finding.Leaves.report hcause _).blameless
    · exact (Finding.Leaves.pure ()).blameless

/-- A scope is opened for the part and closed behind it, so a scope is open throughout. -/
theorem inScope (h : m.Leaves t) : (Check.inScope m).Leaves t :=
  ⟨fun σ => h.trace σ.enter, fun σ => (h.keeps σ.enter).leave,
    fun σ _ => h.blameless σ.enter (Nat.succ_pos _)⟩

/-- What a check finds while a scope is open. -/
theorem finding (h : m.Leaves t) {σ : Symbols} (hopen : 0 < σ.depth) : (m σ).2.Leaves t :=
  ⟨h.trace σ, h.blameless σ hopen⟩

/-- A statement that is broken off is settled before the next. -/
theorem settled {m : Check Unit} (h : m.Leaves t) : (Check.settled m).Leaves t.settled :=
  ⟨fun σ => ((m σ).2.trace_settledWith ()).trans (congrArg Trace.settled (h.trace σ)), h.keeps,
    fun _ hopen => ((h.finding hopen).settledWith ()).blameless⟩

/-- Under given symbols two findings are put together as findings are. -/
theorem run_bind (m : Check α) (next : α → Check β) (σ : Symbols) :
    ((m >>= next) σ).2 = (m σ).2 >>= fun a => (next a (m σ).1).2 := by
  rw [Check.bind_run, Finding.bind_eq, Finding.andThen]
  split <;> rfl

/-- The second check runs under the symbols that the first has left, and a scope is still open. -/
theorem bind (hm : m.Leaves s) (hnext : ∀ a, (next a).Leaves t) :
    (m >>= next).Leaves (s.andThen t) := by
  refine ⟨fun σ => ?_, fun σ => ?_, fun σ hopen => ?_⟩
  · rw [run_bind, Finding.trace_bind fun a => (hnext a).trace _, hm.trace]
  · rw [Check.bind_run]
    split
    · exact hm.keeps σ
    · exact (hm.keeps σ).trans ((hnext _).keeps _)
  -- the second check finds a scope open, as the first has kept them
  · have hopen₁ : 0 < (m σ).1.depth := by rwa [(hm.keeps σ).depth]
    rw [run_bind]
    exact ((hm.finding hopen).bind fun a => (hnext a).finding hopen₁).blameless

theorem bind_of_clear (hm : m.Leaves .clear) (hnext : ∀ a, (next a).Leaves t) :
    (m >>= next).Leaves t :=
  hm.bind hnext

theorem bind_clear (hm : m.Leaves s) (hnext : ∀ a, (next a).Leaves .clear) :
    (m >>= next).Leaves s := by
  rw [← s.andThen_clear]
  exact hm.bind hnext

theorem get (slot : Slot) : (Check.lift slot.get).Leaves slot.trace := lift (.get slot)

theorem require (slot : Slot) : (Check.lift slot.require).Leaves slot.trace :=
  lift (.require slot)

theorem complain (fine : Bool) (h : fault.blamesScope = false) (site : Option Token) :
    (Check.lift (Finding.complain fine fault site)).Leaves .clear :=
  lift (.complain fine h site)

end Check.Leaves

/-! ## Declarations -/

/-- The brackets of an array: its size, then the closing bracket. -/
theorem leaves_withSuffix (t : CType) (array : Option ArraySuffix) :
    (t.withSuffix array).Leaves (array.elim .clear ArraySuffix.trace) := by
  cases array with
  | none => exact .pure _
  | some suffix =>
      refine Finding.Leaves.bind_clear ?_ fun _ => .pure _
      exact (Finding.Leaves.require suffix.size).bind fun _ => .require suffix.closing

/-- A declared name finds at most that it was declared before. -/
theorem leaves_declareVariable (name : Token) (type : CType) (isConst : Bool) :
    (declareVariable name type isConst).Leaves .clear :=
  .register (keeping_declareVariable _) name

/-- An initial value is typed, then compared with the type of the variable. -/
theorem leaves_checkInitializer (name : Token) (type : CType) (init : Option (Token × Expr)) :
    (checkInitializer name type init).Leaves (init.elim .clear (·.2.trace)) := by
  cases init with
  | none => exact .pure _
  | some sign =>
      exact (Check.Leaves.reading fun _ => leaves_typing sign.2).bind_clear fun _ =>
        .complain _ (by rfl) _

/-- A name, its brackets and its initial value, in this order. -/
theorem leaves_declarator (base : BaseType) (isConst : Bool) (d : Declarator) :
    (d.check base isConst).Leaves d.trace :=
  (Check.Leaves.get d.name).bind fun name =>
    (Check.Leaves.lift (leaves_withSuffix _ d.array)).bind fun type =>
      (Check.Leaves.complain _ (by rfl) _).bind_of_clear fun _ =>
        (leaves_declareVariable name _ _).bind_of_clear fun _ =>
          leaves_checkInitializer name type d.init

/-- The declarators of a line one after the other; a stop in one is the stop of the line. -/
theorem leaves_checkDeclarators (base : BaseType) (isConst : Bool) (ds : List Declarator) :
    (checkDeclarators base isConst ds).Leaves (Trace.all (ds.map Declarator.trace)) := by
  induction ds with
  | nil => exact .pure _
  | cons d ds ih => exact (leaves_declarator base isConst d).bind fun _ => ih

/-- A type, its declarators, and the semicolon. -/
theorem leaves_declaration (d : Declaration) : d.check.Leaves d.trace := by
  have hall : ∀ base, (checkDeclarators base (hasConst d.qualifiers)
      (d.first :: d.others.map (·.2))).Leaves
        (Trace.all (d.first.trace :: d.others.map (·.2.trace))) := by
    intro base
    have h := leaves_checkDeclarators base (hasConst d.qualifiers) (d.first :: d.others.map (·.2))
    rw [List.map_cons, List.map_map] at h
    exact h
  exact (Check.Leaves.reading fun _ => leaves_resolve d.spec none).bind fun base =>
    (hall base).bind fun _ => .require d.semicolon

/-- A field finds at most that there is one of its name. -/
theorem leaves_admit (struct : StructDef) (name : Token) (type : CType) :
    Finding.Leaves ( struct.admit name type) .clear := by
  unfold StructDef.admit
  by_cases hknown : (struct.field? name.lexeme).isSome = true
  · rw [StructDef.tryField_of_known hknown]
    exact (Finding.Leaves.report (by rfl) _).bind_of_clear fun _ => .pure _
  · rw [StructDef.tryField_of_new hknown]
    exact .pure _

/-- A field is checked to its semicolon, and is admitted only then. -/
theorem leaves_field (σ : Symbols) (struct : StructDef) (f : Field) :
    (f.check σ struct).Leaves f.trace :=
  (leaves_resolve f.spec _).bind fun _ => (Finding.Leaves.get f.name).bind fun _ =>
    (leaves_withSuffix _ f.array).bind fun _ =>
      (Finding.Leaves.require f.semicolon).bind_clear fun _ => leaves_admit _ _ _

/-- A field that is broken off is settled, and the next one is read. -/
theorem leaves_checkFields (σ : Symbols) (struct : StructDef) (fields : List Field) :
    (checkFields σ struct fields).Leaves (Trace.all (fields.map (·.trace.settled))) := by
  induction fields generalizing struct with
  | nil => exact .pure _
  | cons f fields ih => exact ((leaves_field σ struct f).settledWith struct).bind fun _ => ih _

/-- The fields, the registration of the struct, the brace and the semicolon. -/
theorem leaves_structDecl (s : StructDecl) : s.check.Leaves s.trace :=
  (Check.Leaves.reading fun σ => leaves_checkFields σ _ s.fields).bind fun _ =>
    (Check.Leaves.register (keeping_declareStruct _) _).bind_of_clear fun _ =>
      (Check.Leaves.require s.closing).bind fun _ => .require s.semicolon

/-- The brackets of a parameter, which have no size to ask for. -/
theorem leaves_withParamArray (t : CType) (array : Option ParamArray) :
    (t.withParamArray array).Leaves (array.elim .clear (·.closing.trace)) := by
  cases array with
  | none => exact .pure _
  | some suffix => exact (Finding.Leaves.require suffix.closing).bind_clear fun _ => .pure _

/-- A parameter: its type, its name, its brackets. -/
theorem leaves_param (p : Param) : p.check.Leaves p.trace :=
  (Check.Leaves.reading fun _ => leaves_resolve p.spec none).bind fun _ =>
    (Check.Leaves.get p.name).bind fun _ =>
      (Check.Leaves.lift (leaves_withParamArray _ p.array)).bind_clear fun _ =>
        (leaves_declareVariable _ _ _).bind_of_clear fun _ => .pure _

/-- Parameters one after the other. -/
theorem leaves_checkParams (ps : List Param) :
    (checkParams ps).Leaves (Trace.all (ps.map Param.trace)) := by
  induction ps with
  | nil => exact .pure _
  | cons p ps ih => exact (leaves_param p).bind fun _ => ih.bind_clear fun _ => .pure _

/-- A list of parameters, an empty one or the word void: the checks differ in nothing. -/
theorem leaves_params (ps : Params) : (checkParams ps.toList).Leaves ps.trace := by
  have h := leaves_checkParams ps.toList
  cases ps with
  | none => exact h
  | void word => exact h
  | list first others =>
      rw [Params.toList, List.map_cons, List.map_map] at h
      exact h

/-- The header of a function is registered behind its closing parenthesis, with or without a body.
-/
theorem leaves_header (h : Header) (defined : Bool) : (h.check defined).Leaves h.trace :=
  (Check.Leaves.reading fun _ => leaves_resolve h.spec none).bind fun _ =>
    (Check.Leaves.get h.name).bind fun _ => (Check.Leaves.require h.opening).bind fun _ =>
      (leaves_params h.params).bind fun _ => (Check.Leaves.require h.closing).bind_clear fun _ =>
        (Check.Leaves.register (keeping_declareFunction _) _).bind_of_clear fun _ => .pure _

/-! ## Parts of statements -/

section Parts

variable {σ : Symbols}

/-- Stars in front of a place, from the innermost to the outermost. -/
theorem leaves_dereferenceAll (t : CType) (stars : List Token) :
    (dereferenceAll t stars).Leaves .clear := by
  induction stars generalizing t with
  | nil => exact .pure _
  | cons star stars ih => exact (leaves_dereference t star).bind_of_clear fun _ => ih _

/-- A place has the holes of its path; the stars in front add faults only. -/
theorem leaves_target (p : Place) : (p.target σ).Leaves p.path.trace :=
  (leaves_typing p.path).bind_clear fun _ =>
    (leaves_dereferenceAll _ _).bind_of_clear fun _ => .pure _

theorem leaves_checkWritable (t : Target) : t.checkWritable.Leaves .clear := .complain _ (by rfl) _

theorem leaves_checkStep (t : Target) (operator : Token) : (t.checkStep operator).Leaves .clear :=
  (leaves_checkWritable t).bind_of_clear fun _ => .complain _ (by rfl) _

/-- A value that is stored finds at most a fault: a constant, an array, a type that does not fit. -/
theorem leaves_checkStore (t : Target) (value : CType) (site : Option Token) :
    (t.checkStore value site).Leaves .clear := by
  refine (leaves_checkWritable t).bind_of_clear fun _ => ?_
  split
  · exact .report (by rfl) _
  · exact .complain _ (by rfl) _

/-- An update finds at most a fault, in the operands or in what comes of them. -/
theorem leaves_checkUpdate (t : Target) (operator : Token) (value : CType) :
    (t.checkUpdate operator value).Leaves .clear := by
  refine (leaves_checkWritable t).bind_of_clear fun _ => ?_
  split
  · exact .pure _
  · dsimp only
    split
    · exact .complain _ (by rfl) _
    · exact .report (by rfl) _

/-- A place, then a value. Only a missing operator stops behind the place. -/
theorem leaves_assignment (a : Assignment) : (a.check σ).Leaves a.trace := by
  cases a with
  | stepBefore operator place =>
      exact (leaves_target place).bind_clear fun _ => leaves_checkStep _ _
  | stepAfter place operator =>
      exact (leaves_target place).bind_clear fun _ => leaves_checkStep _ _
  | store place sign value =>
      exact (leaves_target place).bind fun _ =>
        (leaves_typing value).bind_clear fun _ => leaves_checkStore _ _ _
  | update place operator value =>
      exact (leaves_target place).bind fun _ =>
        (leaves_typing value).bind_clear fun _ => leaves_checkUpdate _ _ _
  | missing place hole => exact (leaves_target place).bind fun _ => .stop hole

/-- Specifiers and arguments are compared pair by pair, faults only. -/
theorem leaves_formatArguments (call : FormatCall) (specs : List FormatSpec)
    (arguments : List Argument) : (call.checkArguments specs arguments).Leaves .clear := by
  have hargument : ∀ spec argument, (call.checkArgument spec argument).Leaves .clear := by
    intro spec argument
    cases call with
    | printf => exact .complain _ (by rfl) _
    | scanf =>
        simp only [FormatCall.checkArgument, checkScanned]
        split
        · exact .pure _
        · split
          · exact .report (by rfl) _
          · exact .complain _ (by rfl) _
  induction specs generalizing arguments with
  | nil => exact .pure _
  | cons spec specs ih =>
      cases arguments with
      | nil => exact .pure _
      | cons argument arguments => exact (hargument _ _).bind_of_clear fun _ => ih _

/-- A format text finds at most faults, be they in the text, the count or the arguments. -/
theorem leaves_format (call : FormatCall) (format : Token) (arguments : List Argument) :
    (call.check format arguments).Leaves .clear := by
  unfold FormatCall.check
  split
  · exact .report (by rfl) _
  · exact (Finding.Leaves.complain _ (by rfl) _).bind_of_clear fun _ => leaves_formatArguments _ _ _

/-- A test is typed, and may decide or not. -/
theorem leaves_checkTest (ruled : Ruled) (test : Expr) :
    (checkTest σ ruled test).Leaves test.trace :=
  (leaves_typing test).bind_clear fun _ => .complain _ (by rfl) _

/-- A test in its parentheses. -/
theorem leaves_condition (ruled : Ruled) (c : Condition) : (c.check σ ruled).Leaves c.trace :=
  (Finding.Leaves.require c.opening).bind fun _ =>
    (leaves_checkTest ruled c.test).bind fun _ => .require c.closing

/-- The subject of a switch is typed, and may be an integer or not. -/
theorem leaves_checkSubject (subject : Expr) : (checkSubject σ subject).Leaves subject.trace :=
  (leaves_typing subject).bind_clear fun _ => .complain _ (by rfl) _

/-- A return without a value finds at most a fault, outside a function nothing. -/
theorem leaves_checkExit (context : Context) (keyword : Token) :
    (context.checkExit keyword).Leaves .clear := by
  unfold Context.checkExit
  split
  · exact .pure _
  · exact .complain _ (by rfl) _

/-- A return with a value finds at most a fault, outside a function nothing. -/
theorem leaves_checkResult (context : Context) (found : CType) (site : Option Token) :
    (context.checkResult found site).Leaves .clear := by
  unfold Context.checkResult
  split
  · exact .pure _
  · split
    · exact .report (by rfl) _
    · exact .complain _ (by rfl) _

end Parts

/-- The first part of a for header: nothing, a declaration or an assignment. -/
theorem leaves_forInit (init : ForInit) : init.check.Leaves init.trace := by
  cases init with
  | none semicolon => exact .pure _
  | declaration d => exact leaves_declaration d
  | assignment a semicolon =>
      exact (Check.Leaves.reading fun _ => leaves_assignment a).bind fun _ => .require semicolon

theorem leaves_checkForTest (test : Option Expr) :
    (checkForTest test).Leaves (test.elim .clear Expr.trace) := by
  cases test with
  | none => exact .pure _
  | some test => exact .reading fun _ => leaves_checkTest .forLoop test

theorem leaves_checkForUpdate (update : Option Assignment) :
    (checkForUpdate update).Leaves (update.elim .clear Assignment.trace) := by
  cases update with
  | none => exact .pure _
  | some a => exact .reading fun _ => leaves_assignment a

/-! ## Statements -/

mutual

/-- **A statement is checked up to its first hole, in whatever context.** -/
theorem leaves_stmt (context : Context) : ∀ s : Stmt, (s.check context).Leaves s.trace
  | .blank _ => .pure _
  | .struct definition => leaves_structDecl definition
  | .declaration d => leaves_declaration d
  | .prototype header _ => .inScope ((leaves_header header false).bind_clear fun _ => .pure _)
  | .function header body =>
      .inScope ((leaves_header header true).bind fun f => leaves_stmt (.body f) body)
  | .ifThen _ condition body =>
      (Check.Leaves.reading fun _ => leaves_condition .ifElse condition).bind fun _ =>
        .inScope (leaves_stmt context body)
  | .ifElse _ condition body _ alternative =>
      (Check.Leaves.reading fun _ => leaves_condition .ifElse condition).bind fun _ =>
        (Check.Leaves.inScope (leaves_stmt context body)).bind fun _ =>
          .inScope (leaves_stmt context alternative)
  | .whileLoop _ condition body =>
      (Check.Leaves.reading fun _ => leaves_condition .whileLoop condition).bind fun _ =>
        .inScope (leaves_stmt context.loop body)
  | .doWhile _ body whileWord condition semicolon =>
      (Check.Leaves.inScope (leaves_stmt context.loop body)).bind fun _ =>
        (Check.Leaves.require whileWord).bind fun _ =>
          (Check.Leaves.reading fun _ => leaves_condition .doWhile condition).bind fun _ =>
            .require semicolon
  | .forLoop _ opening init test semicolon update closing body =>
      (Check.Leaves.require opening).bind fun _ =>
        .inScope ((leaves_forInit init).bind fun _ => (leaves_checkForTest test).bind fun _ =>
          (Check.Leaves.require semicolon).bind fun _ =>
            (leaves_checkForUpdate update).bind fun _ =>
              (Check.Leaves.require closing).bind fun _ =>
                .inScope (leaves_stmt context.loop body))
  | .switch _ opening subject closing bodyStart clauses bodyEnd =>
      (Check.Leaves.require opening).bind fun _ =>
        (Check.Leaves.reading fun _ => leaves_checkSubject subject).bind fun _ =>
          (Check.Leaves.require closing).bind fun _ =>
            (Check.Leaves.require bodyStart).bind fun _ =>
              (Check.Leaves.inScope (leaves_clauses context.switch [] false clauses)).bind
                fun _ => .require bodyEnd
  | .exit keyword _ => .lift (leaves_checkExit context keyword)
  | .exitWith _ value semicolon =>
      (Check.Leaves.reading fun _ => leaves_typing value).bind fun _ =>
        (Check.Leaves.lift (leaves_checkResult context _ _)).bind_of_clear fun _ =>
          .require semicolon
  | .jump _ semicolon =>
      (Check.Leaves.complain _ (by rfl) _).bind_of_clear fun _ => .require semicolon
  | .block _ body closing =>
      (Check.Leaves.inScope (leaves_stmts context body)).bind fun _ => .require closing
  | .call call semicolon =>
      (Check.Leaves.reading fun _ => leaves_typing call).bind fun _ => .require semicolon
  | .printf _ opening format arguments closing semicolon => by
      refine (Check.Leaves.require opening).bind fun _ =>
        (Check.Leaves.reading fun _ => leaves_typing format).bind fun _ =>
          (Check.Leaves.reading fun _ => leaves_trail arguments).bind fun given =>
            (Check.Leaves.require closing).bind fun _ =>
              (Check.Leaves.require semicolon).bind_clear fun _ => ?_
      split
      · exact .lift (leaves_format .printf _ given)
      · exact .pure _
  | .scanf _ opening format arguments closing semicolon =>
      (Check.Leaves.require opening).bind fun _ => (Check.Leaves.get format).bind fun token =>
        (Check.Leaves.reading fun _ => leaves_trail arguments).bind fun given =>
          (Check.Leaves.require closing).bind fun _ =>
            (Check.Leaves.require semicolon).bind_clear fun _ =>
              .lift (leaves_format .scanf token given)
  | .assignment a semicolon =>
      (Check.Leaves.reading fun _ => leaves_assignment a).bind fun _ => .require semicolon
  | .missing hole => .lift (.stop hole)

/-- A statement that is broken off is settled, and the next one is checked. -/
theorem leaves_stmts (context : Context) : ∀ ss : Stmts, (ss.check context).Leaves ss.trace
  | .nil => .pure _
  | .cons first rest => (leaves_stmt context first).settled.bind fun _ => leaves_stmts context rest

/-- Labels and statements of a switch, each settled by itself. Which labels were seen makes a
difference to faults only. -/
theorem leaves_clauses (context : Context) (seen : List String) (hasDefault : Bool) :
    ∀ cs : Clauses, (cs.check context seen hasDefault).Leaves cs.trace
  | .nil => .pure _
  | .case _ (.missing hole) _ rest => by
      have hlabel : (Check.lift (Finding.stop hole : Finding Unit)).Leaves (.stopped hole) :=
        .lift (.stop hole)
      exact hlabel.settled.bind fun _ => leaves_clauses context seen hasDefault rest
  | .case _ (.found value) colon rest =>
      (Check.Leaves.complain _ (by rfl) _).bind_of_clear fun _ =>
        (Check.Leaves.require colon).settled.bind fun _ => leaves_clauses context _ hasDefault rest
  | .default _ colon rest =>
      (Check.Leaves.complain _ (by rfl) _).bind_of_clear fun _ =>
        (Check.Leaves.require colon).settled.bind fun _ => leaves_clauses context seen true rest
  | .stmt first rest =>
      (leaves_stmt context first).settled.bind fun _ => leaves_clauses context seen hasDefault rest

end

end MiniC
