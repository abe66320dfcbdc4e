import MiniC.Proofs.Types.Settled

/-!
# `MiniC.Proofs.Types.Carrying` — what declarations carry on, an analysis carries on

Only declarations of variables, definitions of structs and headers of functions change the symbols;
apart from them, scopes are opened and closed and issues are added.  So what is true of a moment,
and broken by none of these, is true of every moment of an analysis, whatever the statements around
the declarations are.

## Contents
- `Lasting`: what scopes and more issues do not break.
- `Check.Course.Carries`, `Check.Course.Preserves`, with one lemma for each way to put checks
  together.
- `Declaring`, `Stmt.declaring`: the parts of a statement that declare names.
- `Stmt.preserves`: **a statement preserves what its declarations preserve.**
-/

namespace MiniC

open Check (Course)

/-! ## Invariants along a course -/

/-- Opening and closing scopes does not break the invariant, and more issues do not. -/
structure Lasting (J : Moment → Prop) : Prop where
  issues : ∀ {moment}, J moment → ∀ more, J { moment with found := moment.found ++ more }
  enter : ∀ {σ found}, J ⟨σ, none, found⟩ → J ⟨σ.enter, none, found⟩
  leave : ∀ {σ found}, J ⟨σ, none, found⟩ → J ⟨σ.leave, none, found⟩

section Carries

variable {α β : Type} {J : Moment → Prop}

/-- The invariant holds at every moment of the check and behind it, and the value of the check
satisfies `A` together with what was found until then. -/
structure Check.Course.Carries {m : Check α} (course : m.Course) (J : Moment → Prop)
    (σ : Symbols) (found : List Issue) (A : α → List Issue → Prop) : Prop where
  moments : ∀ moment ∈ course.moments σ, J (moment.behind found)
  behind : J ⟨(m σ).1, none, found ++ (m σ).2.issues⟩
  value : ∀ a, (m σ).2.outcome = .ok a → A a (found ++ (m σ).2.issues)

/-- The check carries the invariant on wherever it holds. -/
def Check.Course.Preserves {m : Check α} (course : m.Course) (J : Moment → Prop) : Prop :=
  ∀ (σ : Symbols) (found : List Issue), J ⟨σ, none, found⟩ →
    course.Carries J σ found fun _ _ => True

variable {σ : Symbols} {found : List Issue} {A : α → List Issue → Prop}
  {B : β → List Issue → Prop}

theorem carried_ends {m : Check α} (hJ : Lasting J) (hσ : J ⟨σ, none, found⟩)
    (hbehind : J ⟨(m σ).1, none, found ++ (m σ).2.issues⟩) :
    ∀ moment ∈ m.ends σ, J (moment.behind found) :=
  List.forall_mem_cons.2 ⟨hJ.issues hσ [], List.forall_mem_singleton.2 hbehind⟩

namespace Check.Course.Carries

theorem reading (hJ : Lasting J) (hσ : J ⟨σ, none, found⟩) {f : Symbols → Finding α}
    (h : ∀ a, (f σ).outcome = .ok a → A a (found ++ (f σ).issues)) :
    (Course.reading f).Carries J σ found A where
  moments := carried_ends hJ hσ (hJ.issues hσ _)
  behind := hJ.issues hσ _
  value := h

/-- A check that yields a value satisfying `P` if it yields one. -/
theorem yielding (hJ : Lasting J) (hσ : J ⟨σ, none, found⟩) {f : Symbols → Finding α}
    {P : α → Prop} (h : (f σ).Yields P) :
    (Course.reading f).Carries J σ found fun a _ => P a :=
  reading hJ hσ h

/-- A declaration keeps the invariant if it does so where it is accepted. -/
theorem register (hJ : Lasting J) (hσ : J ⟨σ, none, found⟩)
    {declare : Symbols → Attempt Symbols} (hcareful : Careful declare) (name : Token)
    (h : ∀ σ', declare σ = (σ', .ok ()) → J ⟨σ', none, found⟩) :
    (Course.register declare name).Carries J σ found fun _ _ => True := by
  have hbehind : J ⟨(Check.register declare name σ).1, none,
      found ++ (Check.register declare name σ).2.issues⟩ := by
    rcases hcareful.refused_or_accepted σ with ⟨refusal, hrefused⟩ | ⟨σ', haccepted⟩
    · rw [Check.register_of_refused hrefused]
      exact hJ.issues hσ _
    · rw [Check.register_of_accepted haccepted]
      exact hJ.issues (h σ' haccepted) _
  exact ⟨carried_ends hJ hσ hbehind, hbehind, fun _ _ => trivial⟩

theorem bind {m : Check α} {next : α → Check β} {first : m.Course} {rest : ∀ a, (next a).Course}
    (hfirst : first.Carries J σ found A)
    (hrest : ∀ a σ₁ found₁, J ⟨σ₁, none, found₁⟩ → A a found₁ →
      (rest a).Carries J σ₁ found₁ B) :
    (first.bind rest).Carries J σ found B := by
  obtain ⟨hmoments, hbehind, hvalue⟩ := hfirst
  have hall : ∀ moment ∈ (first.bind rest).moments σ, J (moment.behind found) := by
    intro moment hmoment
    rcases mem_moments_bind.1 hmoment with hmem | ⟨a, houtcome, later, hlater, rfl⟩
    · exact hmoments moment hmem
    · have hcarried := (hrest a _ _ hbehind (hvalue a houtcome)).moments later hlater
      rwa [Moment.behind, List.append_assoc] at hcarried
  -- behind both checks
  have hend : J ⟨((m >>= next) σ).1, none, found ++ ((m >>= next) σ).2.issues⟩ ∧
      ∀ b, ((m >>= next) σ).2.outcome = .ok b → B b (found ++ ((m >>= next) σ).2.issues) := by
    rw [Check.bind_run]
    cases houtcome : (m σ).2.outcome with
    | error hole => exact ⟨hbehind, fun b hb => by cases hb⟩
    | ok a =>
        have hcarried := hrest a _ _ hbehind (hvalue a houtcome)
        simp only [← List.append_assoc]
        exact ⟨hcarried.behind, hcarried.value⟩
  exact ⟨hall, hend.1, hend.2⟩

/-- Whatever the first check yields, the next one begins where the invariant holds. -/
theorem thenDo {m : Check α} {m' : Check β} {first : m.Course} {rest : m'.Course}
    (hfirst : first.Carries J σ found A)
    (hrest : ∀ σ₁ found₁, J ⟨σ₁, none, found₁⟩ → rest.Carries J σ₁ found₁ B) :
    (first.thenDo rest).Carries J σ found B :=
  hfirst.bind fun _ σ₁ found₁ hσ₁ _ => hrest σ₁ found₁ hσ₁

end Check.Course.Carries

namespace Check.Course.Preserves

theorem look (hJ : Lasting J) (f : Symbols → Finding α) : (Course.reading f).Preserves J :=
  fun _ _ hσ => .reading hJ hσ fun _ _ => trivial

theorem bind {m : Check α} {next : α → Check β} {first : m.Course} {rest : ∀ a, (next a).Course}
    (hfirst : first.Preserves J) (hrest : ∀ a, (rest a).Preserves J) :
    (first.bind rest).Preserves J :=
  fun σ found hσ => (hfirst σ found hσ).bind fun a σ₁ found₁ hσ₁ _ => hrest a σ₁ found₁ hσ₁

theorem thenDo {m : Check α} {m' : Check β} {first : m.Course} {rest : m'.Course}
    (hfirst : first.Preserves J) (hrest : rest.Preserves J) : (first.thenDo rest).Preserves J :=
  hfirst.bind fun _ => hrest

theorem inScope (hJ : Lasting J) {m : Check α} {inner : m.Course} (h : inner.Preserves J) :
    inner.inScope.Preserves J := by
  intro σ found hσ
  have hinner := h σ.enter found (hJ.enter hσ)
  exact ⟨hinner.moments, hJ.leave hinner.behind, fun _ _ => trivial⟩

theorem goesOn (hJ : Lasting J) {m : Check Unit} {inner : m.Course} (h : inner.Preserves J) :
    inner.settled.Preserves J := by
  intro σ found hσ
  obtain ⟨more, hmore⟩ := (m σ).2.issues_settledWith ()
  have hinner := h σ found hσ
  refine ⟨hinner.moments, ?_, fun _ _ => trivial⟩
  show J ⟨(m σ).1, none, found ++ ((m σ).2.settledWith ()).issues⟩
  rw [hmore, ← List.append_assoc]
  exact hJ.issues hinner.behind more

end Check.Course.Preserves

end Carries

/-! ## Parts that declare names -/

/-- A part of a program that declares names. -/
inductive Declaring
  | declaration (d : Declaration)
  | struct (s : StructDecl)
  | function (h : Header) (defined : Bool)

/-- The part carries the invariant on wherever it holds. -/
def Declaring.Preserves (J : Moment → Prop) : Declaring → Prop
  | declaration d => d.course.Preserves J
  | struct s => s.course.Preserves J
  | function h defined => (h.course defined).Preserves J

/-- The parameters that the part declares. -/
def Declaring.params : Declaring → List Param
  | declaration _ => []
  | struct _ => []
  | function h _ => h.params.toList

/-- The parts of a program that declare names, among the first part of the header of a `for`. -/
def ForInit.declaring : ForInit → List Declaring
  | declaration d => [.declaration d]
  | none _ | assignment _ _ => []

mutual

/-- The parts of a statement that declare names, those in its body included. -/
def Stmt.declaring : Stmt → List Declaring
  | .struct definition => [.struct definition]
  | .declaration d => [.declaration d]
  | .prototype header _ => [.function header false]
  | .function header body => .function header true :: body.declaring
  | .ifThen _ _ body => body.declaring
  | .ifElse _ _ body _ alternative => body.declaring ++ alternative.declaring
  | .whileLoop _ _ body => body.declaring
  | .doWhile _ body _ _ _ => body.declaring
  | .forLoop _ _ init _ _ _ _ body => init.declaring ++ body.declaring
  | .switch _ _ _ _ _ clauses _ => clauses.declaring
  | .block _ body _ => body.declaring
  | .blank _ | .exit _ _ | .exitWith _ _ _ | .jump _ _ | .call _ _ | .printf _ _ _ _ _ _
  | .scanf _ _ _ _ _ _ | .assignment _ _ | .missing _ => []

/-- The parts of statements that declare names. -/
def Stmts.declaring : Stmts → List Declaring
  | .nil => []
  | .cons first rest => first.declaring ++ rest.declaring

/-- The parts of the body of a switch that declare names. -/
def Clauses.declaring : Clauses → List Declaring
  | .nil => []
  | .case _ _ _ rest | .default _ _ rest => rest.declaring
  | .stmt first rest => first.declaring ++ rest.declaring

end

/-! ## Statements -/

section Statements

variable {J : Moment → Prop}

open Check.Course.Preserves (look thenDo inScope goesOn)

theorem ForInit.preserves (hJ : Lasting J) (init : ForInit)
    (h : ∀ part ∈ init.declaring, part.Preserves J) : init.course.Preserves J := by
  cases init with
  | none _ => exact look hJ _
  | declaration d => exact h _ List.mem_cons_self
  | assignment a semicolon => exact thenDo (look hJ _) (look hJ _)

theorem preserves_test (hJ : Lasting J) (test : Option Expr) :
    (testCourse test).Preserves J := by
  cases test <;> exact look hJ _

theorem preserves_update (hJ : Lasting J) (update : Option Assignment) :
    (updateCourse update).Preserves J := by
  cases update <;> exact look hJ _

mutual

/-- **A statement preserves what its declarations preserve.** -/
theorem Stmt.preserves (hJ : Lasting J) (context : Context) : ∀ s : Stmt,
    (∀ part ∈ s.declaring, part.Preserves J) → (s.course context).Preserves J
  | .blank _, _ | .exit _ _, _ | .missing _, _ => look hJ _
  | .struct _, h | .declaration _, h => h _ List.mem_cons_self
  | .prototype header _, h => by
      have hheader : (header.course false).Preserves J := h _ List.mem_cons_self
      exact inScope hJ (hheader.bind fun _ => look hJ _)
  | .function header body, h => by
      obtain ⟨hheader, hbody⟩ := List.forall_mem_cons.1 h
      have hheader : (header.course true).Preserves J := hheader
      exact inScope hJ (hheader.bind fun f => body.preserves hJ (.body f) hbody)
  | .ifThen _ _ body, h => thenDo (look hJ _) (inScope hJ (body.preserves hJ context h))
  | .ifElse _ _ body _ alternative, h => by
      obtain ⟨hbody, halternative⟩ := List.forall_mem_append.1 h
      exact thenDo (look hJ _) (thenDo (inScope hJ (body.preserves hJ context hbody))
        (inScope hJ (alternative.preserves hJ context halternative)))
  | .whileLoop _ _ body, h =>
      thenDo (look hJ _) (inScope hJ (body.preserves hJ context.loop h))
  | .doWhile _ body _ _ _, h =>
      thenDo (inScope hJ (body.preserves hJ context.loop h))
        (thenDo (look hJ _) (thenDo (look hJ _) (look hJ _)))
  | .forLoop _ _ init test _ update _ body, h => by
      obtain ⟨hinit, hbody⟩ := List.forall_mem_append.1 h
      have hinner := inScope hJ (body.preserves hJ context.loop hbody)
      exact thenDo (look hJ _) <| inScope hJ <| thenDo (init.preserves hJ hinit) <|
        thenDo (preserves_test hJ test) <| thenDo (look hJ _) <|
        thenDo (preserves_update hJ update) <| thenDo (look hJ _) hinner
  | .switch _ _ _ _ _ clauses _, h =>
      thenDo (look hJ _) <| thenDo (look hJ _) <| thenDo (look hJ _) <| thenDo (look hJ _) <|
        thenDo (inScope hJ (clauses.preserves hJ context.switch [] false h)) (look hJ _)
  | .exitWith _ _ _, _ => .bind (look hJ _) fun _ => thenDo (look hJ _) (look hJ _)
  | .jump _ _, _ | .assignment _ _, _ => thenDo (look hJ _) (look hJ _)
  | .block _ body _, h => thenDo (inScope hJ (body.preserves hJ context h)) (look hJ _)
  | .call _ _, _ => .bind (look hJ _) fun _ => look hJ _
  | .printf _ _ format _ _ _, _ => by
      refine thenDo (look hJ _) (.bind (look hJ _) fun _ => .bind (look hJ _) fun given => ?_)
      refine thenDo (look hJ _) (thenDo (look hJ _) ?_)
      cases format.formatToken? <;> exact look hJ _
  | .scanf _ _ _ _ _ _, _ =>
      thenDo (look hJ _) <| .bind (look hJ _) fun _ => .bind (look hJ _) fun _ =>
        thenDo (look hJ _) (thenDo (look hJ _) (look hJ _))

theorem Stmts.preserves (hJ : Lasting J) (context : Context) : ∀ ss : Stmts,
    (∀ part ∈ ss.declaring, part.Preserves J) → (ss.course context).Preserves J
  | .nil, _ => look hJ _
  | .cons first rest, h => by
      obtain ⟨hfirst, hrest⟩ := List.forall_mem_append.1 h
      exact thenDo (goesOn hJ (first.preserves hJ context hfirst))
        (rest.preserves hJ context hrest)

theorem Clauses.preserves (hJ : Lasting J) (context : Context) (seen : List String)
    (hasDefault : Bool) : ∀ cs : Clauses,
    (∀ part ∈ cs.declaring, part.Preserves J) → (cs.course context seen hasDefault).Preserves J
  | .nil, _ => look hJ _
  | .case _ (.missing _) _ rest, h =>
      thenDo (goesOn hJ (look hJ _)) (rest.preserves hJ context seen hasDefault h)
  | .case _ (.found value) _ rest, h =>
      thenDo (look hJ _) <| thenDo (goesOn hJ (look hJ _)) <|
        rest.preserves hJ context (value.lexeme :: seen) hasDefault h
  | .default _ _ rest, h =>
      thenDo (look hJ _) <| thenDo (goesOn hJ (look hJ _)) <|
        rest.preserves hJ context seen true h
  | .stmt first rest, h => by
      obtain ⟨hfirst, hrest⟩ := List.forall_mem_append.1 h
      exact thenDo (goesOn hJ (first.preserves hJ context hfirst))
        (rest.preserves hJ context seen hasDefault hrest)

end

end Statements

end MiniC
