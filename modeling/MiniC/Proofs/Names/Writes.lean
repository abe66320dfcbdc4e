import MiniC.Proofs.Checking.Faults
import MiniC.Proofs.Names.Resolution

/-!
# `MiniC.Proofs.Names.Writes` — writes to constants

A variable is written to by an assignment: `=`, a compound operator, or a step `++` or `--` on a
place.  Assignments are no expressions, they stand as statements and in the header of a `for`.
On the way through a program each of them is a step of its own, and it is complained of if the
name of its place stands for a constant there.  No other step complains of a write, whatever it
looks at: the operators `++` and `--` of an expression ask for a number, and not whether it may
change.

## Contents
- `Stmt.assignments`: the assignments of a program, in order.
- `Step.Harmless`, `Performs`: steps of assignments, among others that complain of no write.
- `performs_stmt`: the steps of a statement perform its assignments.
- `Assignment.blames`: when an assignment is complained of.
- `const_writes_reported`: **writes to constants are reported at the assignments of a program,**
  and nowhere else.
- `constStep_unreported`: a constant that an expression steps.
-/

namespace MiniC

/-! ## Assignments -/

/-- What an assignment writes to. -/
def Assignment.place : Assignment → Place
  | stepBefore _ place => place
  | stepAfter place _ => place
  | store place _ _ => place
  | update place _ _ => place
  | missing place _ => place

/-- The assignment in the first part of the header of a `for`. -/
def ForInit.assignments : ForInit → List Assignment
  | assignment a _ => [a]
  | _ => []

mutual

/-- The assignments of a statement, in order. -/
def Stmt.assignments : Stmt → List Assignment
  | .function _ body => body.assignments
  | .ifThen _ _ body => body.assignments
  | .ifElse _ _ body _ alternative => body.assignments ++ alternative.assignments
  | .whileLoop _ _ body => body.assignments
  | .doWhile _ body _ _ _ => body.assignments
  | .forLoop _ _ init _ _ update _ body =>
      init.assignments ++ (update.toList ++ body.assignments)
  | .switch _ _ _ _ _ clauses _ => clauses.assignments
  | .block _ body _ => body.assignments
  | .assignment a _ => [a]
  | _ => []

/-- The assignments of statements. -/
def Stmts.assignments : Stmts → List Assignment
  | .nil => []
  | .cons first rest => first.assignments ++ rest.assignments

/-- The assignments in the body of a switch. -/
def Clauses.assignments : Clauses → List Assignment
  | .nil => []
  | .case _ _ _ rest => rest.assignments
  | .default _ _ rest => rest.assignments
  | .stmt first rest => first.assignments ++ rest.assignments

end

/-- The step that an assignment is. -/
def Assignment.step (a : Assignment) : Step := .look a.words fun σ => (a.check σ).issues

/-! ## Steps that complain of no write -/

/-- Whether an issue is a write to a constant. -/
def Issue.isConstWrite : Issue → Bool
  | missing _ => false
  | fault cause _ => cause.isConstWrite

/-- A fault that is no write to a constant. -/
def Innocent (cause : Fault) : Prop := cause.isConstWrite = false

theorem ordinary_innocent : Ordinary Innocent := fun _ h => (Bool.or_eq_false_iff.1 h).1

theorem common_innocent : Common Innocent := ordinary_innocent.common

theorem Finding.Finds.innocent {α : Type} {f : Finding α} {good : α → Prop}
    (h : f.Finds Innocent good) : ∀ issue ∈ f.issues, issue.isConstWrite = false := by
  intro issue hissue
  cases issue with
  | missing hole => rfl
  | fault cause site => exact (h.faults cause site hissue).1

/-- A step that never complains of a write to a constant. -/
def Step.Harmless (step : Step) : Prop :=
  ∀ σ, ∀ issue ∈ (step.run σ).2, issue.isConstWrite = false

namespace Step.Harmless

theorem look {α : Type} {f : Symbols → Finding α} {good : α → Prop}
    (h : ∀ σ, (f σ).Finds Innocent good) (words : List Word) :
    (Step.look words fun σ => (f σ).issues).Harmless :=
  fun σ => (h σ).innocent

theorem declare (name : Token) (type : CType) (isConst : Bool) :
    (Step.declare name type isConst).Harmless :=
  fun σ => (Check.Finds.register common_innocent
    (·.tryVariable ⟨name.lexeme, type, isConst, name.location.line⟩) name σ).innocent

theorem function (name : Token) (f : Function) : (Step.function name f).Harmless :=
  fun σ => (Check.Finds.register common_innocent (·.tryFunction f) name σ).innocent

theorem struct (name : Token) (s : StructDef) : (Step.struct name s).Harmless :=
  fun σ => (Check.Finds.register common_innocent (·.tryStruct s) name σ).innocent

end Step.Harmless

/-! ## Steps that perform assignments -/

/-- Steps that are those of assignments, in order, among others that complain of no write. -/
inductive Performs : List Step → List Assignment → Prop
  | nil : Performs [] []
  | write {a : Assignment} {steps : List Step} {as : List Assignment} (whole : a.trace = .clear)
      (rest : Performs steps as) : Performs (a.step :: steps) (a :: as)
  | other {step : Step} {steps : List Step} {as : List Assignment} (harmless : step.Harmless)
      (rest : Performs steps as) : Performs (step :: steps) as

namespace Performs

variable {steps more : List Step} {as bs : List Assignment}

theorem append (h : Performs steps as) (hmore : Performs more bs) :
    Performs (steps ++ more) (as ++ bs) := by
  induction h with
  | nil => exact hmore
  | write whole _ ih => exact .write whole ih
  | other harmless _ ih => exact .other harmless ih

/-- Steps that perform nothing, behind steps. -/
theorem before_quiet (h : Performs steps as) (hmore : Performs more []) :
    Performs (steps ++ more) as := by
  have happend := h.append hmore
  rwa [List.append_nil] at happend

/-- Steps that perform nothing, in front of steps. -/
theorem behind_quiet (h : Performs steps []) (hmore : Performs more bs) :
    Performs (steps ++ more) bs :=
  h.append hmore

theorem one {step : Step} (h : step.Harmless) : Performs [step] [] := .other h .nil

theorem passes (token : Token) (h : Performs steps as) : Performs (.pass token :: steps) as :=
  .other (fun _ _ hissue => nomatch hissue) h

theorem passing (tokens : List Token) : Performs (passing tokens) [] := by
  induction tokens with
  | nil => exact .nil
  | cons token tokens ih => exact .passes token ih

theorem region (h : Performs steps as) : Performs (region steps) as :=
  .other (fun _ _ hissue => nomatch hissue)
    (h.before_quiet (.one fun _ _ hissue => nomatch hissue))

theorem bodied (h : Performs steps as) (isBlock : Bool) : Performs (bodied isBlock steps) as := by
  cases isBlock with
  | true => exact h
  | false => exact h.region

theorem flatMap {α : Type} {f : α → List Step} (h : ∀ x, Performs (f x) []) (xs : List α) :
    Performs (xs.flatMap f) [] := by
  induction xs with
  | nil => exact .nil
  | cons x xs ih => exact (h x).behind_quiet ih

end Performs

/-! ## Declarations -/

theorem performs_typeSpec (spec : TypeSpec) : Performs spec.steps [] :=
  .one (.look (fun _ => finds_resolve common_innocent spec none) _)

theorem performs_declarator (base : BaseType) (isConst : Bool) (d : Declarator) :
    Performs (d.steps base isConst) [] := by
  refine (Performs.passing d.stars).behind_quiet (.flatMap (fun name => ?_) _)
  have hvoid : (Finding.complain (!(d.type base).isVoid) (.voidVariable name.lexeme) name).Finds
      Innocent fun _ => True := .complain _ rfl rfl
  have hinitial : ∀ σ, ((checkInitializer name (d.type base) d.init) σ).2.Finds Innocent
      fun _ => True := finds_checkInitializer common_innocent name (d.type base) d.init
  exact .other (.look (fun _ => hvoid) _) (.other (.declare _ _ _)
    ((Performs.passing _).behind_quiet (.one (.look hinitial _))))

theorem performs_declaration (d : Declaration) : Performs d.steps [] := by
  have hothers : Performs (d.others.flatMap fun other =>
      .pass other.1 :: other.2.steps d.spec.base (hasConst d.qualifiers)) [] :=
    .flatMap (fun other : Token × Declarator => .passes other.1 (performs_declarator _ _ other.2)) _
  exact (Performs.passing _).behind_quiet ((performs_typeSpec d.spec).behind_quiet
    ((performs_declarator _ _ d.first).behind_quiet (hothers.behind_quiet (.passing _))))

theorem performs_structDecl (s : StructDecl) : Performs s.steps [] :=
  .other (.look (fun σ => finds_checkFields common_innocent σ _ s.fields) _)
    (.other (.struct _ _) (.passing _))

theorem performs_param (p : Param) : Performs p.steps [] := by
  have hdeclare : Performs
      (p.name.tokens.map fun name => .declare name p.type (hasConst p.qualifiers)) [] := by
    induction p.name.tokens with
    | nil => exact .nil
    | cons name names ih => exact .other (.declare _ _ _) ih
  exact (Performs.passing _).behind_quiet ((performs_typeSpec p.spec).behind_quiet
    ((Performs.passing _).behind_quiet (hdeclare.behind_quiet (.passing _))))

theorem performs_params (ps : Params) : Performs ps.steps [] := by
  cases ps with
  | none => exact .nil
  | void word => exact .passes word .nil
  | list first others =>
      exact (performs_param first).behind_quiet
        (.flatMap (fun other => .passes other.1 (performs_param other.2)) others)

theorem performs_typeSteps (h : Header) : Performs h.typeSteps [] :=
  (Performs.passing _).behind_quiet ((performs_typeSpec h.spec).behind_quiet (.passing _))

theorem performs_paramSteps (h : Header) (defined : Bool) : Performs (h.paramSteps defined) [] := by
  refine (Performs.passing _).behind_quiet ((performs_params h.params).behind_quiet
    ((Performs.passing _).behind_quiet ?_))
  induction h.name.tokens with
  | nil => exact .nil
  | cons name names ih => exact .other (.function _ _) ih

/-! ## Statements -/

theorem performs_condition (c : Condition) (ruled : Ruled) : Performs (c.steps ruled) [] :=
  .one (.look (fun _ => finds_condition common_innocent ruled c) _)

theorem performs_forInit {init : ForInit} (h : init.trace = .clear) :
    Performs init.steps init.assignments := by
  cases init with
  | none semicolon => exact .passes semicolon .nil
  | declaration d => exact performs_declaration d
  | assignment a semicolon => exact .write (Trace.andThen_eq_clear.1 h).1 (.passing _)

theorem performs_test (test : Option Expr) : Performs (testSteps test) [] :=
  .one (.look (finds_checkForTest common_innocent test) _)

theorem performs_update {update : Option Assignment}
    (h : update.elim .clear Assignment.trace = .clear) :
    Performs (updateSteps update) update.toList := by
  cases update with
  | none => exact .one fun _ _ hissue => nomatch hissue
  | some a => exact .write h .nil

mutual

/-- **The steps of a statement without holes perform its assignments.** -/
theorem performs_stmt (context : Context) : ∀ s : Stmt, s.trace = .clear →
    Performs (s.steps context) s.assignments
  | .blank token, _ => .passes token .nil
  | .struct definition, _ => performs_structDecl definition
  | .declaration d, _ => performs_declaration d
  | .prototype header semicolon, _ =>
      (performs_typeSteps header).behind_quiet
        ((performs_paramSteps header false).region.behind_quiet (.passes semicolon .nil))
  | .function header body, h => by
      obtain ⟨-, hbody⟩ := Trace.andThen_eq_clear.1 h
      exact (performs_typeSteps header).behind_quiet
        ((performs_paramSteps header true).behind_quiet
          (performs_stmt (.body header.enclosing) body hbody)).region
  | .ifThen keyword condition body, h => by
      obtain ⟨-, hbody⟩ := Trace.andThen_eq_clear.1 h
      exact .passes keyword ((performs_condition condition .ifElse).behind_quiet
        ((performs_stmt context body hbody).bodied _))
  | .ifElse keyword condition body elseWord alternative, h => by
      obtain ⟨-, hbody, halternative⟩ := by
        simpa only [Stmt.trace, Trace.andThen_eq_clear] using h
      exact .passes keyword ((performs_condition condition .ifElse).behind_quiet
        (((performs_stmt context body hbody).bodied _).append
          (.passes elseWord ((performs_stmt context alternative halternative).bodied _))))
  | .whileLoop keyword condition body, h => by
      obtain ⟨-, hbody⟩ := Trace.andThen_eq_clear.1 h
      exact .passes keyword ((performs_condition condition .whileLoop).behind_quiet
        ((performs_stmt context.loop body hbody).bodied _))
  | .doWhile keyword body whileWord condition semicolon, h => by
      obtain ⟨hbody, -, -, -⟩ := by simpa only [Stmt.trace, Trace.andThen_eq_clear] using h
      exact .passes keyword (((performs_stmt context.loop body hbody).bodied _).before_quiet
        ((Performs.passing _).behind_quiet
          ((performs_condition condition .doWhile).behind_quiet (.passing _))))
  | .forLoop keyword opening init test semicolon update closing body, h => by
      obtain ⟨-, hinit, -, -, hupdate, -, hbody⟩ := by
        simpa only [Stmt.trace, Trace.andThen_eq_clear] using h
      have hbehind := (performs_update hupdate).append
        ((Performs.passing closing.tokens).behind_quiet
          ((performs_stmt context.loop body hbody).bodied body.isBlock))
      have hheader := (performs_forInit hinit).append ((performs_test test).behind_quiet
        ((Performs.passing semicolon.tokens).behind_quiet hbehind))
      exact .passes keyword ((Performs.passing _).behind_quiet hheader.region)
  | .switch keyword opening subject closing bodyStart clauses bodyEnd, h => by
      obtain ⟨-, -, -, -, hclauses, -⟩ := by
        simpa only [Stmt.trace, Trace.andThen_eq_clear] using h
      have hsubject : (Step.look subject.words fun σ => (checkSubject σ subject).issues).Harmless :=
        .look (fun _ => finds_checkSubject common_innocent subject) _
      have hbody := (performs_clauses context.switch [] false clauses hclauses).region
      exact .passes keyword ((Performs.passing _).behind_quiet (.other hsubject
        ((Performs.passing _).behind_quiet ((Performs.passing _).behind_quiet
          (hbody.before_quiet (.passing _))))))
  | .exit keyword semicolon, _ =>
      .other (.look (fun _ => finds_checkExit ordinary_innocent.exiting context keyword) _)
        (.passes semicolon .nil)
  | .exitWith keyword value semicolon, _ =>
      .one (.look (finds_exitWith common_innocent ordinary_innocent.exiting context keyword value
        semicolon) _)
  | .jump keyword semicolon, _ => by
      have hjump : (context.checkJump keyword).Finds Innocent fun _ => True := .complain _ rfl rfl
      exact .other (.look (fun _ => hjump) _) (.passing _)
  | .block opening body closing, h => by
      obtain ⟨hbody, -⟩ := Trace.andThen_eq_clear.1 h
      exact .passes opening ((performs_stmts context body hbody).region.before_quiet (.passing _))
  | .call call semicolon, _ =>
      .one (.look (finds_call common_innocent context call semicolon) _)
  | .printf name opening format arguments closing semicolon, _ =>
      .one (.look (finds_printf common_innocent context name opening format arguments closing
        semicolon) _)
  | .scanf name opening format arguments closing semicolon, _ =>
      .one (.look (finds_scanf common_innocent context name opening format arguments closing
        semicolon) _)
  | .assignment a semicolon, h => .write (Trace.andThen_eq_clear.1 h).1 (.passing _)
  | .missing _, h => nomatch congrArg Trace.stop h

theorem performs_stmts (context : Context) : ∀ ss : Stmts, ss.trace = .clear →
    Performs (ss.steps context) ss.assignments
  | .nil, _ => .nil
  | .cons first rest, h => by
      obtain ⟨hfirst, hrest⟩ := Trace.andThen_eq_clear.1 h
      exact (performs_stmt context first (Trace.settled_eq_clear.1 hfirst)).append
        (performs_stmts context rest hrest)

theorem performs_clauses (context : Context) (seen : List String) (hasDefault : Bool) :
    ∀ cs : Clauses, cs.trace = .clear →
      Performs (cs.steps context seen hasDefault) cs.assignments
  | .nil, _ => .nil
  | .case keyword value colon rest, h => by
      obtain ⟨hlabel, hrest⟩ := Trace.andThen_eq_clear.1 h
      obtain ⟨hvalue, -⟩ := Trace.andThen_eq_clear.1 (Trace.settled_eq_clear.1 hlabel)
      obtain ⟨value, rfl⟩ := Slot.exists_of_clear hvalue
      have hnew : (Finding.complain (value.lexeme ∉ seen) (.duplicateCase value.lexeme)
          value).Finds Innocent fun _ => True := .complain _ rfl rfl
      refine .other (fun σ => ?_) ((Performs.passing _).behind_quiet
        (performs_clauses context _ hasDefault rest hrest))
      simpa [Step.run, Slot.tokens] using hnew.innocent
  | .default keyword colon rest, h => by
      obtain ⟨-, hrest⟩ := Trace.andThen_eq_clear.1 h
      have hnew : (Finding.complain (!hasDefault) .duplicateDefault keyword).Finds Innocent
          fun _ => True := .complain _ rfl rfl
      exact .other (.look (fun _ => hnew) _) ((Performs.passing _).behind_quiet
        (performs_clauses context seen true rest hrest))
  | .stmt first rest, h => by
      obtain ⟨hfirst, hrest⟩ := Trace.andThen_eq_clear.1 h
      exact (performs_stmt context first (Trace.settled_eq_clear.1 hfirst)).append
        (performs_clauses context seen hasDefault rest hrest)

end

/-! ## What is complained of -/

/-- An assignment is found to be a write to the constant that it is found to be. -/
def Finding.Blames (f : Finding Unit) (σ : Symbols) (p : Place) : Prop :=
  ∀ name site, .fault (.assignedConst name) site ∈ f.issues ↔
    ∃ token v, p.path.lead = some token ∧ σ.var? token.lexeme = some v ∧
      v.isFrozen p.stars = true ∧ name = token.lexeme ∧ site = some token

section

variable {σ : Symbols} {p : Place} {t : Target}

/-- A check of a target that complains of a write first, and else of other things. -/
theorem Place.Targets.blames (h : p.Targets σ t) {f : Finding Unit} {others : List Issue}
    (hissues : f.issues = t.checkWritable.issues ++ others)
    (hothers : ∀ issue ∈ others, issue.isConstWrite = false) : f.Blames σ p := by
  obtain ⟨token, type, hlead, rfl⟩ := h
  intro name site
  have hother : .fault (.assignedConst name) site ∉ others := fun hmem => by
    cases hothers _ hmem
  rw [hissues, List.mem_append, or_iff_left hother, Target.checkWritable]
  constructor
  · intro hmem
    cases hvar : σ.var? token.lexeme with
    | none =>
        rw [hvar] at hmem
        cases hmem
    | some v =>
        rw [hvar, Option.any_some] at hmem
        cases hfrozen : v.isFrozen p.stars with
        | false =>
            rw [hfrozen] at hmem
            cases hmem
        | true =>
            rw [hfrozen] at hmem
            cases List.mem_singleton.1 hmem
            exact ⟨token, v, hlead, hvar, hfrozen, rfl, rfl⟩
  · rintro ⟨token', v, hlead', hvar, hfrozen, rfl, rfl⟩
    obtain rfl := Option.some.inj (hlead.symm.trans hlead')
    rw [hvar, Option.any_some, hfrozen]
    exact List.mem_singleton_self _

/-- What is looked at in front of a write does not complain of one. -/
theorem Finding.Blames.behind {α : Type} {f : Finding α} {next : α → Finding Unit} {a : α}
    (houtcome : f.outcome = .ok a) {good : α → Prop} (hf : f.Finds Innocent good)
    (h : (next a).Blames σ p) : (f >>= next).Blames σ p := by
  obtain ⟨issues, hole | b⟩ := f
  · cases houtcome
  · cases houtcome
    intro name site
    have hfront : .fault (.assignedConst name) site ∉ issues := fun hmem => by
      cases hf.innocent _ hmem
    show _ ∈ issues ++ (next a).issues ↔ _
    rw [List.mem_append, or_iff_right hfront]
    exact h name site

end

/-- A target is checked as one that is no constant is, beside the complaint that it is one. -/
theorem Target.freed_writable (t : Target) :
    { t with isConst := false }.checkWritable.Finds Innocent fun _ => True := .pure trivial

/-- **An assignment without holes is complained of if its name stands for a constant.** -/
theorem Assignment.blames {a : Assignment} (h : a.trace = .clear) (σ : Symbols) :
    (a.check σ).Blames σ a.place := by
  -- What is found at the target, beside a complaint, is found at one that is no constant too.
  have hstep : ∀ (place : Place) (operator : Token), place.path.trace = .clear →
      (place.target σ >>= fun target => target.checkStep operator).Blames σ place := by
    intro place operator hplace
    obtain ⟨t, ht⟩ := (looks_target hplace).whole σ
    have htargets := (finds_target common_innocent place).value t ht
    have hinnocent := (finds_checkStep common_innocent (t := { t with isConst := false })
      htargets.site t.freed_writable operator).innocent
    refine .behind ht (finds_target common_innocent place) (htargets.blames ?_ hinnocent)
    cases hconst : t.isConst <;> simp only [Target.checkStep, Target.checkWritable, hconst] <;> rfl
  cases a with
  | stepBefore operator place => exact hstep place operator h
  | stepAfter place operator => exact hstep place operator h
  | store place sign value =>
      obtain ⟨hplace, hvalue⟩ := Trace.andThen_eq_clear.1 h
      obtain ⟨t, ht⟩ := (looks_target hplace).whole σ
      obtain ⟨found, hfound⟩ := (looks_typing value hvalue).whole σ
      have htargets := (finds_target common_innocent place).value t ht
      have htyping := finds_typing (σ := σ) common_innocent value
      have hinnocent := (finds_checkStore common_innocent (t := { t with isConst := false })
        t.freed_writable found (htyping.value found hfound)).innocent
      refine .behind ht (finds_target common_innocent place)
        (.behind hfound htyping (htargets.blames ?_ hinnocent))
      cases hconst : t.isConst <;> simp only [Target.checkStore, Target.checkWritable, hconst] <;>
        rfl
  | update place operator value =>
      obtain ⟨hplace, hvalue⟩ := Trace.andThen_eq_clear.1 h
      obtain ⟨t, ht⟩ := (looks_target hplace).whole σ
      obtain ⟨found, hfound⟩ := (looks_typing value hvalue).whole σ
      have htargets := (finds_target common_innocent place).value t ht
      have hinnocent := (finds_checkUpdate common_innocent (t := { t with isConst := false })
        t.freed_writable operator found).innocent
      refine .behind ht (finds_target common_innocent place)
        (.behind hfound (finds_typing common_innocent value) (htargets.blames ?_ hinnocent))
      cases hconst : t.isConst <;> simp only [Target.checkUpdate, Target.checkWritable, hconst] <;>
        rfl
  | missing place hole =>
      obtain ⟨-, hhole⟩ := Trace.andThen_eq_clear.1 h
      exact nomatch congrArg Trace.stop hhole

/-! ## Runs -/

/-- What is found at a step is found on the way. -/
theorem mem_runSteps {steps before after : List Step} {step : Step}
    (hsplit : steps = before ++ step :: after) (σ : Symbols) :
    ∀ issue ∈ (step.run (runSteps before σ).1).2, issue ∈ (runSteps steps σ).2 := by
  intro issue hissue
  rw [hsplit, runSteps_append, runSteps_cons]
  exact List.mem_append_right _ (List.mem_append_left _ hissue)

/-- A write to a constant that is complained of on the way is one of the assignments. -/
theorem Performs.exists_write {steps : List Step} {as : List Assignment} (h : Performs steps as)
    (σ : Symbols) {issue : Issue} (hissue : issue ∈ (runSteps steps σ).2)
    (hwrite : issue.isConstWrite = true) :
    ∃ a ∈ as, a.trace = .clear ∧ ∃ before after, steps = before ++ a.step :: after ∧
      issue ∈ (a.check (runSteps before σ).1).issues := by
  induction h generalizing σ with
  | nil => cases hissue
  | @write a steps as whole rest ih =>
      rw [runSteps_cons, List.mem_append] at hissue
      rcases hissue with hhere | hbehind
      · exact ⟨a, List.mem_cons_self, whole, [], steps, rfl, hhere⟩
      · obtain ⟨b, hb, hclear, before, after, rfl, hfound⟩ := ih _ hbehind
        exact ⟨b, List.mem_cons_of_mem a hb, hclear, a.step :: before, after, rfl, hfound⟩
  | @other step steps as harmless rest ih =>
      rw [runSteps_cons, List.mem_append] at hissue
      rcases hissue with hhere | hbehind
      · rw [harmless σ issue hhere] at hwrite
        cases hwrite
      · obtain ⟨b, hb, hclear, before, after, rfl, hfound⟩ := ih _ hbehind
        exact ⟨b, hb, hclear, step :: before, after, rfl, hfound⟩

/-! ## Writes of a program -/

/-- **Writes to constants are reported at the assignments of a program.**  If there are no syntax
errors, the assignments are steps of the program, in order.  An assignment whose name stands for a
constant is reported as a write to it; and whatever is reported as one is such an assignment. -/
theorem const_writes_reported (tokens : List Token)
    (h : ∀ d ∈ (TokenStream.ofTokens tokens).analyze.diagnostics, d.severity ≠ .syntactic) :
    let stream := TokenStream.ofTokens tokens
    let steps := stream.program.programSteps
    Performs steps stream.program.assignments ∧
      (∀ before (a : Assignment) after, a.trace = .clear → steps = before ++ a.step :: after →
        ∀ token v, a.place.path.lead = some token → Resolves before token.lexeme v →
          v.isFrozen a.place.stars = true →
            ⟨.semantic, (Fault.assignedConst token.lexeme).message, token.location⟩ ∈
              stream.analyze.diagnostics) ∧
      ∀ name site, .fault (.assignedConst name) site ∈ stream.issues →
        ∃ before a after, a ∈ stream.program.assignments ∧ steps = before ++ a.step :: after ∧
          ∃ token v, a.place.path.lead = some token ∧ Resolves before token.lexeme v ∧
            v.isFrozen a.place.stars = true ∧ name = token.lexeme ∧ site = some token := by
  intro stream steps
  have hholes : stream.holes = [] := TokenStream.holes_eq_nil h
  have htakes := TokenStream.takes_program hholes
  have hbalanced : Balanced (stream.program.steps .global) :=
    (takes_stmts .global stream.program (TokenStream.trace_program hholes)).balanced
  have hissues : stream.issues = (runSteps steps .empty).2 :=
    congrArg (·.2.issues) (htakes.run .empty)
  have hperforms : Performs steps stream.program.assignments :=
    (performs_stmts .global stream.program (TokenStream.trace_program hholes)).region
  refine ⟨hperforms, ?_, ?_⟩
  · intro before a after hclear hsplit token v hlead hv hfrozen
    have hscoped : Scoped before (runSteps before .empty).1 := (scoped_before hbalanced hsplit).1
    have hfault : .fault (.assignedConst token.lexeme) (some token) ∈
        (a.check (runSteps before .empty).1).issues :=
      (a.blames hclear _ _ _).2 ⟨token, v, hlead, hscoped.var?_iff.2 hv, hfrozen, rfl, rfl⟩
    rw [TokenStream.diagnostics_analyze, hissues]
    exact List.mem_map_of_mem (mem_runSteps hsplit .empty _ hfault)
  · intro name site hfault
    rw [hissues] at hfault
    obtain ⟨a, ha, hclear, before, after, hsplit, hfound⟩ :=
      hperforms.exists_write .empty hfault rfl
    have hscoped : Scoped before (runSteps before .empty).1 := (scoped_before hbalanced hsplit).1
    obtain ⟨token, v, hlead, hv, hfrozen, hname, hsite⟩ := (a.blames hclear _ _ _).1 hfound
    exact ⟨before, a, after, ha, hsplit, token, v, hlead, hscoped.var?_iff.1 hv, hfrozen, hname,
      hsite⟩

/-- In `shadowing` the parameter `x` is written to, which is a constant. -/
theorem shadowing_written :
    Performs (TokenStream.ofTokens shadowing).program.programSteps
        (TokenStream.ofTokens shadowing).program.assignments ∧
      (TokenStream.ofTokens shadowing).program.assignments.map (·.place.path.lead) =
        [some ⟨.ident, "x", ⟨3, 3⟩⟩] :=
  ⟨(const_writes_reported shadowing (by decide +kernel)).1, by decide +kernel⟩

/-- `const int x = 1;` -/
def constDeclared : Declaration where
  qualifiers := [⟨.keyword (.qualifier .const), "const", ⟨1, 1⟩⟩]
  spec := .words ⟨.keyword (.type .int), "int", ⟨1, 7⟩⟩ []
  first := ⟨[], .found ⟨.ident, "x", ⟨1, 11⟩⟩, none,
    some (⟨.operator .assign, "=", ⟨1, 13⟩⟩, .literal .int ⟨.literal .int, "1", ⟨1, 15⟩⟩)⟩
  others := []
  semicolon := .found ⟨.punct .semicolon, ";", ⟨1, 16⟩⟩

/-- `int y = x++;` -/
def stepDeclared : Declaration where
  qualifiers := []
  spec := .words ⟨.keyword (.type .int), "int", ⟨1, 18⟩⟩ []
  first := ⟨[], .found ⟨.ident, "y", ⟨1, 22⟩⟩, none,
    some (⟨.operator .assign, "=", ⟨1, 24⟩⟩, .stepped (.var ⟨.ident, "x", ⟨1, 26⟩⟩)
      ⟨.operator .plusPlus, "++", ⟨1, 27⟩⟩)⟩
  others := []
  semicolon := .found ⟨.punct .semicolon, ";", ⟨1, 29⟩⟩

/-- **A constant that an expression steps is not complained of:** the value of `y` is `x++`, where
`x` is a constant and no pointer, and nothing at all is reported. -/
theorem constStep_unreported :
    let stream := TokenStream.ofTokens (constDeclared.tokens ++ stepDeclared.tokens)
    stream.parts = [.declaration constDeclared, .declaration stepDeclared] ∧
      (constDeclared.check Symbols.empty.enter).1.var? "x" = some ⟨"x", .int, true, 1⟩ ∧
      stepDeclared.first.init.map (·.2) = some (.stepped (.var ⟨.ident, "x", ⟨1, 26⟩⟩)
        ⟨.operator .plusPlus, "++", ⟨1, 27⟩⟩) ∧
      stream.analyze.diagnostics = [] :=
  ⟨by decide +kernel, by decide +kernel, rfl, by decide +kernel⟩

end MiniC
