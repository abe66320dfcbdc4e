import MiniC.Proofs.Checking.Faults
import MiniC.Proofs.Names.Resolution

/-!
# `MiniC.Proofs.Exits` — exits follow what is around them

A `break`, a `continue` and a `return` are exits: each leaves something that is around it.  What is
around it are the bodies that it lies in, the innermost first: of loops, of switches and of
functions.  Bodies outside of the innermost function do not count.

A check is told of these bodies by a context, which is made anew for each of them.  Here the exits
of a program are listed by going through its tree with the bodies themselves.  The complaints about
exits are those of the list, in order: one for each exit that is faulty where it stands, and none
for any other.

## Contents
- `Body`, with the context that bodies make up.
- `Exit`, `Exit.Faulty`: the rules for exits; `exits` of a program.
- `ExitReports`: complaints about exits, one exit after the other.
- `Finding.Watches`, `Check.Watches`, with one lemma for each combinator of checks, up to
  `watches_stmt`.
- `exits_reported`: **exits are reported by the bodies that they lie in.**
-/

namespace MiniC

/-! ## Bodies -/

/-- A body that an exit can lie in. -/
inductive Body
  | loop
  | switch
  | function (f : Enclosing)
deriving DecidableEq

namespace Body

/-- The function whose body it is. -/
def function? : Body → Option Enclosing
  | function f => some f
  | _ => none

/-- The innermost function whose body is among those around. -/
def innermost? (around : List Body) : Option Enclosing := around.findSome? function?

/-- The bodies within the innermost function. -/
def within (around : List Body) : List Body := around.takeWhile (·.function?.isNone)

/-- What a check is told of the bodies around a statement. -/
def context (around : List Body) : Context where
  function := innermost? around
  inLoop := loop ∈ within around
  inSwitch := switch ∈ within around

section

variable (around : List Body) (f : Enclosing)

@[simp] theorem innermost?_loop : innermost? (loop :: around) = innermost? around := rfl

@[simp] theorem innermost?_switch : innermost? (switch :: around) = innermost? around := rfl

@[simp] theorem innermost?_function : innermost? (function f :: around) = some f := rfl

@[simp] theorem within_loop : within (loop :: around) = loop :: within around := rfl

@[simp] theorem within_switch : within (switch :: around) = switch :: within around := rfl

@[simp] theorem within_function : within (function f :: around) = [] := rfl

theorem context_loop : context (loop :: around) = (context around).loop := by
  simp [context, Context.loop]

theorem context_switch : context (switch :: around) = (context around).switch := by
  simp [context, Context.switch]

/-- What is outside of a function is forgotten in it. -/
theorem context_function : context (function f :: around) = .body f := by
  simp [context, Context.body]

end

end Body

/-! ## Exits -/

/-- How an exit is written. -/
inductive ExitForm
  /-- `break` or `continue`. -/
  | jump (keyword : Token)
  /-- A `return` without a value. -/
  | bare (keyword : Token)
  /-- A `return` with a value. -/
  | result (value : Expr)

/-- An exit, with the bodies that it lies in and the symbols in force. -/
structure Exit where
  form : ExitForm
  around : List Body
  symbols : Symbols

open Body (innermost? within context)

/-- When an exit is faulty, with the fault and its place. -/
inductive Exit.Faulty : Exit → Fault → Option Token → Prop
  /-- A `break` lies in no loop and in no switch of the innermost function. -/
  | misplacedBreak {keyword : Token} {around : List Body} {σ : Symbols}
      (word : keyword.kind = .keyword .kwBreak) (noLoop : .loop ∉ within around)
      (noSwitch : .switch ∉ within around) :
      Faulty ⟨.jump keyword, around, σ⟩ (.misplacedJump keyword.lexeme true) keyword
  /-- A `continue` lies in no loop of the innermost function. -/
  | misplacedContinue {keyword : Token} {around : List Body} {σ : Symbols}
      (word : keyword.kind ≠ .keyword .kwBreak) (noLoop : .loop ∉ within around) :
      Faulty ⟨.jump keyword, around, σ⟩ (.misplacedJump keyword.lexeme false) keyword
  /-- The innermost function has a result, and the `return` gives none. -/
  | missingResult {keyword : Token} {around : List Body} {σ : Symbols} {f : Enclosing}
      (enclosed : innermost? around = some f) (returns : f.returns.isVoid = false) :
      Faulty ⟨.bare keyword, around, σ⟩ (.missingResult f.name f.returns) keyword
  /-- The innermost function has no result, and the `return` gives one. -/
  | resultOfVoid {value : Expr} {around : List Body} {σ : Symbols} {f : Enclosing}
      (enclosed : innermost? around = some f) (returns : f.returns.isVoid = true) :
      Faulty ⟨.result value, around, σ⟩ (.resultOfVoid f.name) value.lead
  /-- The innermost function has a result, which does not accept the value of the `return`. -/
  | wrongResult {value : Expr} {around : List Body} {σ : Symbols} {f : Enclosing} {t : CType}
      (enclosed : innermost? around = some f) (returns : f.returns.isVoid = false)
      (typed : (value.typing σ).outcome = .ok t) (refused : f.returns.accepts t = false) :
      Faulty ⟨.result value, around, σ⟩ (.resultType f.name f.returns t) value.lead

mutual

/-- The exits of a statement that lies in the bodies `around`, under the symbols in front of it. -/
def Stmt.exits (around : List Body) (σ : Symbols) : Stmt → List Exit
  | .function header body =>
      body.exits (.function header.enclosing :: around) (header.check true σ.enter).1
  | .ifThen _ _ body => body.exits around σ.enter
  | .ifElse _ _ body _ alternative =>
      body.exits around σ.enter ++
        alternative.exits around (Check.inScope (body.check (context around)) σ).1.enter
  | .whileLoop _ _ body => body.exits (.loop :: around) σ.enter
  | .doWhile _ body _ _ _ => body.exits (.loop :: around) σ.enter
  | .forLoop _ _ init _ _ _ _ body =>
      body.exits (.loop :: around) (init.check σ.enter).1.enter
  | .switch _ _ _ _ _ clauses _ => clauses.exits (.switch :: around) σ.enter
  | .block _ body _ => body.exits around σ.enter
  | .exit keyword _ => [⟨.bare keyword, around, σ⟩]
  | .exitWith _ value _ => [⟨.result value, around, σ⟩]
  | .jump keyword _ => [⟨.jump keyword, around, σ⟩]
  | _ => []

/-- The exits of statements. -/
def Stmts.exits (around : List Body) (σ : Symbols) : Stmts → List Exit
  | .nil => []
  | .cons first rest =>
      first.exits around σ ++ rest.exits around (first.check (context around) σ).1

/-- The exits in the body of a switch. -/
def Clauses.exits (around : List Body) (σ : Symbols) : Clauses → List Exit
  | .nil => []
  | .case _ _ _ rest => rest.exits around σ
  | .default _ _ rest => rest.exits around σ
  | .stmt first rest =>
      first.exits around σ ++ rest.exits around (first.check (context around) σ).1

end

/-! ## Complaints about exits -/

/-- Whether an issue is about an exit. -/
def Issue.isExit : Issue → Bool
  | missing _ => false
  | fault cause _ => cause.isExit

/-- What is reported of an exit.  It lies in a function and its value, if there is one, has a
type; and there is one complaint if it is faulty, and none if it is not. -/
structure Exit.Reports (e : Exit) (issues : List Issue) : Prop where
  enclosed : ∃ f, innermost? e.around = some f
  typed : ∀ value, e.form = .result value → ∃ t, (value.typing e.symbols).outcome = .ok t
  faulty : ∀ fault site, e.Faulty fault site → issues = [.fault fault site]
  faultless : (∀ fault site, ¬e.Faulty fault site) → issues = []

/-- The complaints about exits, one exit after the other. -/
inductive ExitReports : List Exit → List Issue → Prop
  | nil : ExitReports [] []
  | cons {e : Exit} {es : List Exit} {now later : List Issue} (first : e.Reports now)
      (rest : ExitReports es later) : ExitReports (e :: es) (now ++ later)

theorem ExitReports.append {es fs : List Exit} {issues more : List Issue}
    (h : ExitReports es issues) (hmore : ExitReports fs more) :
    ExitReports (es ++ fs) (issues ++ more) := by
  induction h with
  | nil => exact hmore
  | cons first _ ih =>
      rw [List.append_assoc]
      exact .cons first ih

theorem ExitReports.one {e : Exit} {issues : List Issue} (h : e.Reports issues) :
    ExitReports [e] issues := by
  rw [← issues.append_nil]
  exact .cons h .nil

/-- A complaint is what is reported of an exit, if it is made just when the exit is faulty. -/
theorem Exit.Reports.of_complain {e : Exit} {fine : Bool} {fault : Fault} {site : Option Token}
    (hexit : fault.isExit = true) (henclosed : ∃ f, innermost? e.around = some f)
    (htyped : ∀ value, e.form = .result value → ∃ t, (value.typing e.symbols).outcome = .ok t)
    (h : ∀ cause place, e.Faulty cause place ↔ fine = false ∧ cause = fault ∧ place = site) :
    e.Reports ((Finding.complain fine fault site).issues.filter Issue.isExit) := by
  cases fine with
  | true =>
      refine ⟨henclosed, htyped, fun cause place hfaulty => ?_, fun _ => rfl⟩
      exact nomatch ((h cause place).1 hfaulty).1
  | false =>
      have hissues : (Finding.complain false fault site).issues.filter Issue.isExit =
          [.fault fault site] := List.filter_cons_of_pos hexit
      rw [hissues]
      refine ⟨henclosed, htyped, fun cause place hfaulty => ?_, fun hnone => ?_⟩
      · obtain ⟨-, rfl, rfl⟩ := (h cause place).1 hfaulty
        rfl
      · exact absurd ((h fault site).2 ⟨rfl, rfl, rfl⟩) (hnone fault site)

section Rules

variable {around : List Body} {f : Enclosing} (hin : innermost? around = some f) (σ : Symbols)
include hin

theorem reports_jump (keyword : Token) :
    Exit.Reports ⟨.jump keyword, around, σ⟩
      (((context around).checkJump keyword).issues.filter Issue.isExit) := by
  refine .of_complain rfl ⟨f, hin⟩ (fun _ hform => nomatch hform) fun cause place => ?_
  by_cases hword : keyword.kind = .keyword .kwBreak
  · simp only [context, hword, BEq.rfl, Bool.true_and, Bool.or_eq_false_iff,
      decide_eq_false_iff_not]
    constructor
    · intro hfaulty
      cases hfaulty with
      | misplacedBreak _ hloop hswitch => exact ⟨⟨hloop, hswitch⟩, rfl, rfl⟩
      | misplacedContinue hother _ => exact absurd hword hother
    · rintro ⟨⟨hloop, hswitch⟩, rfl, rfl⟩
      exact .misplacedBreak hword hloop hswitch
  · have hkind : (keyword.kind == .keyword .kwBreak) = false := by simpa using hword
    simp only [context, hkind, Bool.false_and, Bool.or_false, decide_eq_false_iff_not]
    constructor
    · intro hfaulty
      cases hfaulty with
      | misplacedBreak hbreak _ _ => exact absurd hbreak hword
      | misplacedContinue _ hloop => exact ⟨hloop, rfl, rfl⟩
    · rintro ⟨hloop, rfl, rfl⟩
      exact .misplacedContinue hword hloop

/-- The type of a header is known, so a `return` without a value is faulty unless it is void. -/
theorem reports_exit (hknown : f.returns.isUnknown = false) (keyword : Token) :
    Exit.Reports ⟨.bare keyword, around, σ⟩
      (((context around).checkExit keyword).issues.filter Issue.isExit) := by
  simp only [Context.checkExit, context, hin, hknown, Bool.or_false]
  refine .of_complain rfl ⟨f, hin⟩ (fun _ hform => nomatch hform) fun cause place => ?_
  constructor
  · intro hfaulty
    cases hfaulty with
    | missingResult henclosed hreturns =>
        cases hin.symm.trans henclosed
        exact ⟨hreturns, rfl, rfl⟩
  · rintro ⟨hreturns, rfl, rfl⟩
    exact .missingResult hin hreturns

theorem reports_exitWith {value : Expr} {t : CType} (ht : (value.typing σ).outcome = .ok t) :
    Exit.Reports ⟨.result value, around, σ⟩
      (((context around).checkResult t value.lead).issues.filter Issue.isExit) := by
  have htyped : ∀ v, ExitForm.result value = .result v → ∃ t, (v.typing σ).outcome = .ok t := by
    rintro _ ⟨⟩
    exact ⟨t, ht⟩
  simp only [Context.checkResult, context, hin]
  cases hvoid : f.returns.isVoid with
  | true =>
      have hreport : Finding.report (.resultOfVoid f.name) value.lead =
          Finding.complain false (.resultOfVoid f.name) value.lead := rfl
      rw [if_pos rfl, hreport]
      refine .of_complain rfl ⟨f, hin⟩ htyped fun cause place => ?_
      constructor
      · intro hfaulty
        cases hfaulty with
        | resultOfVoid henclosed _ =>
            cases hin.symm.trans henclosed
            exact ⟨rfl, rfl, rfl⟩
        | wrongResult henclosed hreturns _ _ =>
            cases hin.symm.trans henclosed
            exact nomatch hvoid.symm.trans hreturns
      · rintro ⟨-, rfl, rfl⟩
        exact .resultOfVoid hin hvoid
  | false =>
      refine .of_complain rfl ⟨f, hin⟩ htyped fun cause place => ?_
      constructor
      · intro hfaulty
        cases hfaulty with
        | resultOfVoid henclosed hreturns =>
            cases hin.symm.trans henclosed
            exact nomatch hvoid.symm.trans hreturns
        | wrongResult henclosed _ htype hrefused =>
            cases hin.symm.trans henclosed
            cases ht.symm.trans htype
            exact ⟨hrefused, rfl, rfl⟩
      · rintro ⟨hrefused, rfl, rfl⟩
        exact .wrongResult hin hvoid ht hrefused

end Rules

/-! ## Findings and checks -/

/-- A fault that is not about an exit. -/
def ExitFree (cause : Fault) : Prop := cause.isExit = false

theorem common_exitFree : Common ExitFree := by
  intro cause hcause
  simp only [Bool.or_eq_false_iff] at hcause
  exact hcause.1.1.2

theorem exitFree_const (name : String) : ExitFree (.assignedConst name) := rfl

/-- A finding on a part without holes that complains of the exits `exits`, and of no other. -/
structure Finding.Watches {α : Type} (f : Finding α) (exits : List Exit) : Prop where
  whole : ∃ a, f.outcome = .ok a
  reports : ExitReports exits (f.issues.filter Issue.isExit)

namespace Finding.Watches

variable {α β : Type} {f : Finding α} {next : α → Finding β} {exits more : List Exit}

/-- A part that has no exit in it. -/
theorem sober {good : α → Prop} (htrace : f.trace = .clear) (hfinds : f.Finds ExitFree good) :
    f.Watches [] := by
  have hnone : f.issues.filter Issue.isExit = [] :=
    hfinds.filter_eq_nil (fun _ => rfl) fun _ _ hfree => hfree
  exact ⟨Finding.exists_ok (congrArg Trace.stop htrace), hnone ▸ .nil⟩

/-- A part that is an exit. -/
theorem one {e : Exit} (htrace : f.trace = .clear)
    (h : e.Reports (f.issues.filter Issue.isExit)) : f.Watches [e] :=
  ⟨Finding.exists_ok (congrArg Trace.stop htrace), .one h⟩

theorem bind (hf : f.Watches exits) (hnext : ∀ a, f.outcome = .ok a → (next a).Watches more) :
    (f >>= next).Watches (exits ++ more) := by
  obtain ⟨issues, outcome⟩ := f
  obtain ⟨⟨a, rfl⟩, hreports⟩ := hf
  refine ⟨(hnext a rfl).whole, ?_⟩
  show ExitReports _ ((issues ++ (next a).issues).filter Issue.isExit)
  rw [List.filter_append]
  exact hreports.append (hnext a rfl).reports

theorem settledWith (hf : f.Watches exits) (default : α) :
    (f.settledWith default).Watches exits := by
  obtain ⟨issues, outcome⟩ := f
  obtain ⟨⟨a, rfl⟩, hreports⟩ := hf
  exact ⟨⟨a, rfl⟩, hreports⟩

end Finding.Watches

/-- A check of a part without holes that complains of its exits, and of no other.  Which exits
these are depends on the symbols, as those in force are kept with each exit. -/
def Check.Watches {α : Type} (m : Check α) (exits : Symbols → List Exit) : Prop :=
  ∀ σ, (m σ).2.Watches (exits σ)

namespace Check.Watches

variable {α β : Type} {m : Check α} {next : α → Check β} {exits more : Symbols → List Exit}

/-- A part that has no exit in it. -/
theorem sober {good : α → Prop} (hleaves : m.Leaves .clear) (hfinds : m.Finds ExitFree good) :
    m.Watches fun _ => [] :=
  fun σ => .sober (hleaves.trace σ) (hfinds σ)

theorem pure (a : α) : (Pure.pure a : Check α).Watches fun _ => [] := by
  have hfinds : (Pure.pure a : Check α).Finds ExitFree fun _ => True := .pure trivial
  exact sober (.pure a) hfinds

theorem reading {f : Symbols → Finding α} {good : α → Prop} (hleaves : ∀ σ, (f σ).Leaves .clear)
    (hfinds : ∀ σ, (f σ).Finds ExitFree good) : (Check.reading f).Watches fun _ => [] :=
  sober (.reading hleaves) (.reading hfinds)

theorem require {slot : Slot} (h : slot.trace = .clear) :
    (Check.lift slot.require).Watches fun _ => [] :=
  sober (h ▸ .require slot) (.require slot)

theorem bind (hm : m.Watches exits) (hnext : ∀ a, (next a).Watches more) :
    (m >>= next).Watches fun σ => exits σ ++ more (m σ).1 := by
  intro σ
  rw [Check.Leaves.run_bind]
  exact (hm σ).bind fun a _ => hnext a _

/-- Behind a part without exits that declares nothing. -/
theorem behind (hm : m.Watches fun _ => []) (hsame : ∀ σ, (m σ).1 = σ)
    (hnext : ∀ a, (next a).Watches exits) : (m >>= next).Watches exits := by
  intro σ
  have hboth : ((m >>= next) σ).2.Watches (exits (m σ).1) := hm.bind hnext σ
  rwa [hsame σ] at hboth

/-- In front of a part without exits. -/
theorem before (hm : m.Watches exits) (hnext : ∀ a, (next a).Watches fun _ => []) :
    (m >>= next).Watches exits := by
  have hboth := hm.bind hnext
  simpa only [List.append_nil] using hboth

theorem inScope (h : m.Watches exits) : (Check.inScope m).Watches fun σ => exits σ.enter :=
  fun σ => h σ.enter

theorem settled {m : Check Unit} (h : m.Watches exits) : m.settled.Watches exits :=
  fun σ => (h σ).settledWith ()

end Check.Watches

/-! ## Statements -/

/-- The value of a header without holes is the function whose header it is. -/
theorem value_header {h : Header} (hclear : h.trace = .clear) (defined : Bool) :
    (h.check defined).Finds (fun _ => True) (· = h.enclosing) := by
  obtain ⟨hspec, hname, -⟩ := by
    simpa only [Header.trace, Trace.andThen_eq_clear] using hclear
  have hbase : ∀ σ, (h.spec.resolve σ none).Finds (fun _ => True) (· = h.spec.base) := fun σ =>
    ⟨(finds_resolve common_any h.spec none).faults, fun base hvalue =>
      Except.ok.inj (hvalue.symm.trans (outcome_resolve hspec none σ))⟩
  have hlexeme : h.name.get.Finds (fun _ => True) (·.lexeme = h.name.lexeme) := by
    obtain ⟨name, hname⟩ := Slot.exists_of_clear hname
    rw [hname]
    exact .pure rfl
  refine (Check.Finds.reading hbase).bind fun base hbase => (Check.Finds.lift hlexeme).bind
    fun name hname => (Check.Finds.require h.opening).seq fun _ =>
      (finds_checkParams common_any _).seq fun _ => (Check.Finds.require h.closing).seq fun _ =>
        (Check.Finds.register common_any _ _).seq fun _ => .pure ?_
  rw [hbase, hname, Header.enclosing]

/-- The words of a type specifier stand for a known type, and so does the name of a struct. -/
theorem TypeSpec.base_ne_unknown {spec : TypeSpec} (h : spec.trace = .clear) :
    spec.base ≠ .unknown := by
  cases spec with
  | words first rest =>
      simp only [TypeSpec.base, BaseType.ofWords]
      repeat' split
      all_goals exact BaseType.noConfusion
  | struct keyword name =>
      obtain ⟨token, rfl⟩ := Slot.exists_of_clear h
      exact BaseType.noConfusion
  | missing hole => exact nomatch congrArg Trace.stop h

theorem known_header {h : Header} (hclear : h.trace = .clear) :
    h.enclosing.returns.isUnknown = false := by
  obtain ⟨hspec, -⟩ := Trace.andThen_eq_clear.1 hclear
  have hbase : h.enclosing.returns.base = h.spec.base := CType.base_withStars _ _
  rw [CType.isUnknown, hbase]
  simpa using TypeSpec.base_ne_unknown hspec

/-- A function whose type is known is around. -/
def Grounded (around : List Body) : Prop :=
  ∃ f, innermost? around = some f ∧ f.returns.isUnknown = false

theorem Grounded.function {h : Header} (hclear : h.trace = .clear) (around : List Body) :
    Grounded (.function h.enclosing :: around) :=
  ⟨h.enclosing, rfl, known_header hclear⟩

variable {around : List Body}

/-- A function is watched as its body is. -/
theorem watches_function (context : Context) {header : Header} {body : Stmt}
    (hheader : header.trace = .clear)
    (hbody : (body.check (.body header.enclosing)).Watches
      (body.exits (.function header.enclosing :: around))) :
    ((Stmt.function header body).check context).Watches
      ((Stmt.function header body).exits around) := by
  have hsober : (header.check true).Watches fun _ => [] :=
    .sober (hheader ▸ leaves_header header true) (finds_header common_exitFree header true)
  have hin : (header.check true >>= fun f => body.check (.body f)).Watches fun σ =>
      body.exits (.function header.enclosing :: around) (header.check true σ).1 := by
    intro σ
    rw [Check.Leaves.run_bind]
    refine (hsober σ).bind fun f hf => ?_
    obtain rfl := (value_header hheader true σ).value f hf
    exact hbody _
  exact hin.inScope

/-- Statements that have no exits in them. -/
def Stmt.Exitless : Stmt → Prop
  | .blank _ | .struct _ | .declaration _ | .prototype _ _ | .call _ _ | .printf _ _ _ _ _ _
  | .scanf _ _ _ _ _ _ | .assignment _ _ => True
  | _ => False

/-- A statement with no exit in it reports common faults and writes to constants. -/
theorem finds_exitless {allowed : Fault → Prop} (h : Common allowed)
    (hconst : ∀ name, allowed (.assignedConst name)) (context : Context) {s : Stmt}
    (hs : s.Exitless) : (s.check context).Finds allowed fun _ => True := by
  cases s with
  | blank token => exact .pure trivial
  | struct definition => exact finds_structDecl h definition
  | declaration d => exact finds_declaration h d
  | prototype header semicolon =>
      exact .inScope ((finds_header h header false).seq fun _ => .pure trivial)
  | call call semicolon => exact finds_call h context call semicolon
  | printf name opening format arguments closing semicolon =>
      exact finds_printf h context name opening format arguments closing semicolon
  | scanf name opening format arguments closing semicolon =>
      exact finds_scanf h context name opening format arguments closing semicolon
  | assignment a semicolon =>
      exact (Check.Finds.reading fun _ => finds_assignment h hconst a).seq fun _ =>
        .require semicolon
  | _ => exact hs.elim

theorem exits_exitless (σ : Symbols) {s : Stmt} (hs : s.Exitless) : s.exits around σ = [] := by
  cases s <;> first | rfl | exact hs.elim

theorem watches_exitless (context : Context) {s : Stmt} (hs : s.Exitless) (h : s.trace = .clear) :
    (s.check context).Watches (s.exits around) := by
  intro σ
  show (s.check context σ).2.Watches (s.exits around σ)
  rw [exits_exitless σ hs]
  exact .sober (h ▸ (leaves_stmt context s).trace σ)
    (finds_exitless common_exitFree exitFree_const context hs σ)

/-- What stands behind a token that is asked for. -/
theorem Check.Watches.past {β : Type} {slot : Slot} {next : Unit → Check β}
    {exits : Symbols → List Exit} (h : slot.trace = .clear)
    (hnext : ∀ a, (next a).Watches exits) : (Check.lift slot.require >>= next).Watches exits :=
  (Check.Watches.require h).behind (fun _ => rfl) hnext

theorem watches_condition {c : Condition} (h : c.trace = .clear) (ruled : Ruled) :
    (Check.reading fun σ => c.check σ ruled).Watches fun _ => [] :=
  .reading (fun _ => h ▸ leaves_condition ruled c) fun _ => finds_condition common_exitFree ruled c

theorem watches_subject {subject : Expr} (h : subject.trace = .clear) :
    (Check.reading fun σ => checkSubject σ subject).Watches fun _ => [] :=
  .reading (fun _ => h ▸ leaves_checkSubject subject) fun _ =>
    finds_checkSubject common_exitFree subject

theorem watches_test {test : Option Expr} (h : test.elim .clear Expr.trace = .clear) :
    (checkForTest test).Watches fun _ => [] :=
  .sober (h ▸ leaves_checkForTest test) (finds_checkForTest common_exitFree test)

theorem same_checkForTest (test : Option Expr) (σ : Symbols) : (checkForTest test σ).1 = σ := by
  cases test <;> rfl

theorem watches_update {update : Option Assignment}
    (h : update.elim .clear Assignment.trace = .clear) :
    (checkForUpdate update).Watches fun _ => [] :=
  .sober (h ▸ leaves_checkForUpdate update)
    (finds_checkForUpdate common_exitFree exitFree_const update)

theorem same_checkForUpdate (update : Option Assignment) (σ : Symbols) :
    (checkForUpdate update σ).1 = σ := by
  cases update <;> rfl

/-- Behind a label, which may be there already. -/
theorem watches_label {fine : Bool} {fault : Fault} {site : Token} {colon : Slot}
    {next : Check Unit} {exits : Symbols → List Exit} (hfault : ExitFree fault)
    (hblame : fault.blamesScope = false) (hcolon : colon.trace = .clear)
    (hnext : next.Watches exits) :
    (Check.lift (Finding.complain fine fault site) >>= fun _ =>
      (Check.lift colon.require).settled >>= fun _ => next).Watches exits := by
  have hnew : (Check.lift (Finding.complain fine fault site)).Watches fun _ => [] :=
    .sober (.complain _ hblame _) (.complain _ hfault rfl)
  exact hnew.behind (fun _ => rfl) fun _ =>
    (Check.Watches.require hcolon).settled.behind (fun _ => rfl) fun _ => hnext

theorem watches_exitWith (hin : Grounded around) (keyword : Token) {value : Expr}
    {semicolon : Slot} (hvalue : value.trace = .clear) (hsemicolon : semicolon.trace = .clear) :
    ((Stmt.exitWith keyword value semicolon).check (context around)).Watches
      ((Stmt.exitWith keyword value semicolon).exits around) := by
  intro σ
  obtain ⟨f, hinnermost, -⟩ := hin
  have htyping : (value.typing σ).Watches [] :=
    .sober (hvalue ▸ (leaves_typing value).trace) (finds_typing common_exitFree value)
  have hrun : ((Stmt.exitWith keyword value semicolon).check (context around) σ).2 =
      value.typing σ >>= fun t => (context around).checkResult t value.lead >>= fun _ =>
        semicolon.require := by
    simp only [Stmt.check, Check.Leaves.run_bind]
    rfl
  have hsemicolon : semicolon.require.Watches [] :=
    .sober (hsemicolon ▸ (Finding.Leaves.require semicolon).trace) (.require semicolon)
  rw [hrun]
  refine htyping.bind fun t ht => ?_
  have hresult : ((context around).checkResult t value.lead).Watches
      [⟨.result value, around, σ⟩] :=
    .one (leaves_checkResult _ _ _).trace (reports_exitWith hinnermost σ ht)
  exact hresult.bind fun _ _ => hsemicolon

mutual

/-- **A statement without holes complains of its exits,** and of no other. -/
theorem watches_stmt (around : List Body) (hin : Grounded around) :
    ∀ s : Stmt, s.trace = .clear → (s.check (context around)).Watches (s.exits around)
  | .blank _, h => watches_exitless _ trivial h
  | .struct _, h => watches_exitless _ trivial h
  | .declaration _, h => watches_exitless _ trivial h
  | .prototype _ _, h => watches_exitless _ trivial h
  | .function header body, h => by
      obtain ⟨hheader, hbody⟩ := Trace.andThen_eq_clear.1 h
      have hwatches := watches_stmt (.function header.enclosing :: around)
        (.function hheader around) body hbody
      rw [Body.context_function] at hwatches
      exact watches_function _ hheader hwatches
  | .ifThen _ condition body, h => by
      obtain ⟨hcondition, hbody⟩ := Trace.andThen_eq_clear.1 h
      exact (watches_condition hcondition .ifElse).behind (fun _ => rfl) fun _ =>
        (watches_stmt around hin body hbody).inScope
  | .ifElse _ condition body _ alternative, h => by
      obtain ⟨hcondition, hbody, halternative⟩ := by
        simpa only [Stmt.trace, Trace.andThen_eq_clear] using h
      exact (watches_condition hcondition .ifElse).behind (fun _ => rfl) fun _ =>
        (watches_stmt around hin body hbody).inScope.bind fun _ =>
          (watches_stmt around hin alternative halternative).inScope
  | .whileLoop _ condition body, h => by
      obtain ⟨hcondition, hbody⟩ := Trace.andThen_eq_clear.1 h
      have hwatches := watches_stmt (.loop :: around) hin body hbody
      rw [Body.context_loop] at hwatches
      exact (watches_condition hcondition .whileLoop).behind (fun _ => rfl)
        fun _ => hwatches.inScope
  | .doWhile _ body whileWord condition semicolon, h => by
      obtain ⟨hbody, hword, hcondition, hsemicolon⟩ := by
        simpa only [Stmt.trace, Trace.andThen_eq_clear] using h
      have hwatches := watches_stmt (.loop :: around) hin body hbody
      rw [Body.context_loop] at hwatches
      exact hwatches.inScope.before fun _ => .past hword fun _ =>
        (watches_condition hcondition .doWhile).behind (fun _ => rfl) fun _ => .require hsemicolon
  | .forLoop _ opening init test semicolon update closing body, h => by
      obtain ⟨hopening, hinit, htest, hsemicolon, hupdate, hclosing, hbody⟩ := by
        simpa only [Stmt.trace, Trace.andThen_eq_clear] using h
      have hwatches := watches_stmt (.loop :: around) hin body hbody
      rw [Body.context_loop] at hwatches
      have hinit : init.check.Watches fun _ => [] :=
        .sober (hinit ▸ leaves_forInit init) (finds_forInit common_exitFree exitFree_const init)
      have hheader := hinit.bind fun _ => (watches_test htest).behind (same_checkForTest test)
        fun _ => .past hsemicolon fun _ =>
          (watches_update hupdate).behind (same_checkForUpdate update) fun _ =>
            .past hclosing fun _ => hwatches.inScope
      exact .past hopening fun _ => hheader.inScope
  | .switch _ opening subject closing bodyStart clauses bodyEnd, h => by
      obtain ⟨hopening, hsubject, hclosing, hstart, hclauses, hend⟩ := by
        simpa only [Stmt.trace, Trace.andThen_eq_clear] using h
      have hwatches := watches_clauses (.switch :: around) hin [] false clauses hclauses
      rw [Body.context_switch] at hwatches
      exact .past hopening fun _ => (watches_subject hsubject).behind (fun _ => rfl) fun _ =>
        .past hclosing fun _ => .past hstart fun _ => hwatches.inScope.before fun _ =>
          .require hend
  | .exit keyword _, _ => fun σ => by
      obtain ⟨f, hinnermost, hknown⟩ := hin
      exact .one (leaves_checkExit _ keyword).trace (reports_exit hinnermost σ hknown keyword)
  | .exitWith keyword value semicolon, h => by
      obtain ⟨hvalue, hsemicolon⟩ := Trace.andThen_eq_clear.1 h
      exact watches_exitWith hin keyword hvalue hsemicolon
  | .jump keyword semicolon, h => by
      obtain ⟨f, hinnermost, -⟩ := hin
      have hjump : (Check.lift ((context around).checkJump keyword)).Watches fun σ =>
          [⟨.jump keyword, around, σ⟩] := fun σ =>
        .one (Finding.Leaves.complain _ rfl _).trace (reports_jump hinnermost σ keyword)
      exact hjump.before fun _ => .require h
  | .block _ body closing, h => by
      obtain ⟨hbody, hclosing⟩ := Trace.andThen_eq_clear.1 h
      exact (watches_stmts around hin body hbody).inScope.before fun _ => .require hclosing
  | .call _ _, h => watches_exitless _ trivial h
  | .printf _ _ _ _ _ _, h => watches_exitless _ trivial h
  | .scanf _ _ _ _ _ _, h => watches_exitless _ trivial h
  | .assignment _ _, h => watches_exitless _ trivial h
  | .missing _, h => nomatch congrArg Trace.stop h

theorem watches_stmts (around : List Body) (hin : Grounded around) :
    ∀ ss : Stmts, ss.trace = .clear → (ss.check (context around)).Watches (ss.exits around)
  | .nil, _ => .pure ()
  | .cons first rest, h => by
      obtain ⟨hfirst, hrest⟩ := Trace.andThen_eq_clear.1 h
      exact (watches_stmt around hin first (Trace.settled_eq_clear.1 hfirst)).settled.bind fun _ =>
        watches_stmts around hin rest hrest

theorem watches_clauses (around : List Body) (hin : Grounded around) (seen : List String)
    (hasDefault : Bool) : ∀ cs : Clauses, cs.trace = .clear →
      (cs.check (context around) seen hasDefault).Watches (cs.exits around)
  | .nil, _ => .pure ()
  | .case _ value colon rest, h => by
      obtain ⟨hlabel, hrest⟩ := Trace.andThen_eq_clear.1 h
      obtain ⟨hvalue, hcolon⟩ := Trace.andThen_eq_clear.1 (Trace.settled_eq_clear.1 hlabel)
      obtain ⟨value, rfl⟩ := Slot.exists_of_clear hvalue
      exact watches_label rfl rfl hcolon
        (watches_clauses around hin _ hasDefault rest hrest)
  | .default keyword colon rest, h => by
      obtain ⟨hcolon, hrest⟩ := Trace.andThen_eq_clear.1 h
      exact watches_label rfl rfl (Trace.settled_eq_clear.1 hcolon)
        (watches_clauses around hin seen true rest hrest)
  | .stmt first rest, h => by
      obtain ⟨hfirst, hrest⟩ := Trace.andThen_eq_clear.1 h
      exact (watches_stmt around hin first (Trace.settled_eq_clear.1 hfirst)).settled.bind fun _ =>
        watches_clauses around hin seen hasDefault rest hrest

end

/-! ## Programs -/

/-- What can stand outside of all functions, if the text goes on there as it has to. -/
def Stmt.Global : Stmt → Prop
  | .blank _ | .struct _ | .declaration _ | .prototype _ _ | .function _ _ | .missing _ => True
  | _ => False

theorem Cursor.global_declared (c : Cursor) : c.declared.tree.Global := by
  rw [declared]
  split
  · exact trivial
  · split
    · rw [function, Parsed.tree_andThen]
      split <;> exact trivial
    · exact trivial

theorem Cursor.global_item (c : Cursor) : c.item.tree.Global := by
  match c with
  | .broken _ _ => exact trivial
  | .reading [] => exact trivial
  | .reading (_ :: _) =>
      exact item_cases (p := fun r => r.tree.Global) (fun _ => trivial)
        (fun _ => global_declared _) fun _ _ => trivial

/-- What is true of all that a reader yields is true of what it yields again and again. -/
theorem Cursor.forall_recovering {α : Type} {p : α → Prop} (begins : Kind → Bool)
    {read : (c : Cursor) → Parsed α c.residue} (h : ∀ c, p (read c).tree) (c : Cursor) :
    ∀ a ∈ (c.recovering begins read).tree, p a := by
  rcases c with (_ | ⟨t, ts⟩) | ⟨hole, after⟩
  · rw [recovering_nil]
    exact List.forall_mem_nil _
  · have hle := (read (.reading (t :: ts))).le
    have hrest := forall_recovering begins h (read (.reading (t :: ts))).next.mend
    rw [recovering]
    split
    · exact List.forall_mem_cons.2 ⟨h _, hrest⟩
    · exact List.forall_mem_nil _
  · rw [recovering_broken]
    exact List.forall_mem_nil _
termination_by c.size
decreasing_by
  simp only [size_mend, size_reading, residue_cons, List.length_cons] at *
  omega

theorem watches_global {s : Stmt} (hs : s.Global) (h : s.trace = .clear) :
    (s.check .global).Watches (s.exits []) := by
  cases s with
  | blank _ => exact watches_exitless _ trivial h
  | struct _ => exact watches_exitless _ trivial h
  | declaration _ => exact watches_exitless _ trivial h
  | prototype _ _ => exact watches_exitless _ trivial h
  | function header body =>
      obtain ⟨hheader, hbody⟩ := Trace.andThen_eq_clear.1 h
      have hwatches := watches_stmt _ (.function hheader []) body hbody
      rw [Body.context_function] at hwatches
      exact watches_function _ hheader hwatches
  | missing _ => exact nomatch congrArg Trace.stop h
  | _ => exact hs.elim

theorem watches_program {parts : List Stmt} (hparts : ∀ s ∈ parts, s.Global)
    (h : (Stmts.ofList parts).trace = .clear) :
    ((Stmts.ofList parts).check .global).Watches ((Stmts.ofList parts).exits []) := by
  induction parts with
  | nil => exact .pure ()
  | cons first rest ih =>
      obtain ⟨hglobal, hrest⟩ := List.forall_mem_cons.1 hparts
      obtain ⟨hfirst, hclear⟩ := Trace.andThen_eq_clear.1 h
      exact (watches_global hglobal (Trace.settled_eq_clear.1 hfirst)).settled.bind fun _ =>
        ih hrest hclear

/-- **Exits are reported by the bodies that they lie in.**  If there are no syntax errors, then
the diagnostics about exits are those of the exits of the program, in order: one for each exit that
is faulty where it stands, and none for any other. -/
theorem exits_reported (tokens : List Token)
    (h : ∀ d ∈ (TokenStream.ofTokens tokens).analyze.diagnostics, d.severity ≠ .syntactic) :
    let stream := TokenStream.ofTokens tokens
    stream.analyze.diagnostics = stream.issues.map (·.diagnostic stream.stop.location) ∧
      ExitReports (stream.program.exits [] Symbols.empty.enter)
        (stream.issues.filter Issue.isExit) := by
  intro stream
  have hclear : stream.program.trace = .clear :=
    TokenStream.trace_program (TokenStream.holes_eq_nil h)
  have hparts : ∀ s ∈ stream.parts, s.Global :=
    Cursor.forall_recovering _ Cursor.global_item (.reading stream.body)
  exact ⟨TokenStream.diagnostics_analyze stream,
    ((watches_program hparts hclear).inScope .empty).reports⟩

/-- A function in a loop of another one:

```text
int f() {
  while (1) {
    void g() { break; return; }
    continue;
  }
  return;
}
```
-/
def nestedExits : List Token :=
  [⟨.keyword (.type .int), "int", ⟨1, 1⟩⟩, ⟨.ident, "f", ⟨1, 5⟩⟩, ⟨.punct .lparen, "(", ⟨1, 6⟩⟩,
    ⟨.punct .rparen, ")", ⟨1, 7⟩⟩, ⟨.punct .lbrace, "\x7b", ⟨1, 9⟩⟩,
    ⟨.keyword .kwWhile, "while", ⟨2, 3⟩⟩, ⟨.punct .lparen, "(", ⟨2, 9⟩⟩,
    ⟨.literal .int, "1", ⟨2, 10⟩⟩, ⟨.punct .rparen, ")", ⟨2, 11⟩⟩,
    ⟨.punct .lbrace, "\x7b", ⟨2, 13⟩⟩,
    ⟨.keyword (.type .void), "void", ⟨3, 5⟩⟩, ⟨.ident, "g", ⟨3, 10⟩⟩,
    ⟨.punct .lparen, "(", ⟨3, 11⟩⟩, ⟨.punct .rparen, ")", ⟨3, 12⟩⟩,
    ⟨.punct .lbrace, "\x7b", ⟨3, 14⟩⟩, ⟨.keyword .kwBreak, "break", ⟨3, 16⟩⟩,
    ⟨.punct .semicolon, ";", ⟨3, 21⟩⟩, ⟨.keyword .kwReturn, "return", ⟨3, 23⟩⟩,
    ⟨.punct .semicolon, ";", ⟨3, 29⟩⟩, ⟨.punct .rbrace, "\x7d", ⟨3, 31⟩⟩,
    ⟨.keyword .kwContinue, "continue", ⟨4, 5⟩⟩, ⟨.punct .semicolon, ";", ⟨4, 13⟩⟩,
    ⟨.punct .rbrace, "\x7d", ⟨5, 3⟩⟩,
    ⟨.keyword .kwReturn, "return", ⟨6, 3⟩⟩, ⟨.punct .semicolon, ";", ⟨6, 9⟩⟩,
    ⟨.punct .rbrace, "\x7d", ⟨7, 1⟩⟩]

/-- The loop of `f` is none for `g`, so the `break` is out of place; and `g` gives nothing back,
but `f` has to. -/
theorem nestedExits_reported :
    (TokenStream.ofTokens nestedExits).analyze.diagnostics.map Diagnostic.message =
        ["'break' outside of loop or switch", "Function 'f' must return a value of type int"] ∧
      ((TokenStream.ofTokens nestedExits).program.exits [] Symbols.empty.enter).length = 4 ∧
      ExitReports ((TokenStream.ofTokens nestedExits).program.exits [] Symbols.empty.enter)
        ((TokenStream.ofTokens nestedExits).issues.filter Issue.isExit) :=
  ⟨by decide +kernel, by decide +kernel,
    (exits_reported nestedExits (by decide +kernel)).2⟩

end MiniC
