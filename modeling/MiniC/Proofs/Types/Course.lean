import MiniC.Stmt.Check

/-!
# `MiniC.Proofs.Types.Course` — the moments of a check

A check goes through moments: the symbols of the moment, the struct whose fields are being
declared, and what was found so far.  What they are is told from how the check is put together.
Symbols change only where a name is declared and where a scope is opened or closed, so it is
enough to know the moments before and behind every look at the symbols and every declaration.

## Contents
- `Moment`.
- `Check.Course`: **how a check is put together,** with `moments` and `prefix_of_moments`.
- `Declaration.course`, `Header.course`, `Stmt.course`, …: one for each check that declares names.
-/

namespace MiniC

/-- A moment of a check. -/
structure Moment where
  symbols : Symbols
  /-- The struct whose fields are being declared, with the fields so far. -/
  struct : Option StructDef
  /-- What was found so far. -/
  found : List Issue

/-- A moment of a check that begins when some issues were found already. -/
def Moment.behind (before : List Issue) (moment : Moment) : Moment :=
  { moment with found := before ++ moment.found }

/-! ## Courses -/

/-- How a check is put together from looks at the symbols and declarations of names. -/
inductive Check.Course : {α : Type} → Check α → Type 1
  | reading {α : Type} (f : Symbols → Finding α) : Course (.reading f)
  /-- The fields of a struct are checked one after the other. -/
  | fields (struct : StructDef) (fs : List Field) :
      Course (.reading fun σ => checkFields σ struct fs)
  | register (declare : Symbols → Attempt Symbols) (name : Token) :
      Course (.register declare name)
  | bind {α β : Type} {m : Check α} {next : α → Check β} :
      Course m → (∀ a, Course (next a)) → Course (m >>= next)
  | inScope {α : Type} {m : Check α} : Course m → Course (.inScope m)
  | settled {m : Check Unit} : Course m → Course m.settled

/-- The moments before and behind a check that is done in one. -/
def Check.ends {α : Type} (m : Check α) (σ : Symbols) : List Moment :=
  [⟨σ, none, []⟩, ⟨(m σ).1, none, (m σ).2.issues⟩]

/-- The moments before every field of a struct, and behind the last one. -/
def fieldMoments (σ : Symbols) (struct : StructDef) : List Field → List Moment
  | [] => [⟨σ, some struct, []⟩]
  | field :: rest =>
    let found := (field.check σ struct).settledWith struct
    let later :=
      match found.outcome with
      | .ok extended => fieldMoments σ extended rest
      | .error _ => []
    ⟨σ, some struct, []⟩ :: later.map (·.behind found.issues)

namespace Check.Course

/-- The moments that a check goes through if it begins with the given symbols. -/
def moments : {α : Type} → {m : Check α} → m.Course → Symbols → List Moment
  | _, _, reading f, σ => (Check.reading f).ends σ
  | _, _, fields struct fs, σ => fieldMoments σ struct fs
  | _, _, register declare name, σ => (Check.register declare name).ends σ
  | _, _, bind (m := m) first rest, σ =>
    let later :=
      match (m σ).2.outcome with
      | .ok a => (rest a).moments (m σ).1
      | .error _ => []
    first.moments σ ++ later.map (·.behind (m σ).2.issues)
  | _, _, inScope inner, σ => inner.moments σ.enter
  | _, _, settled inner, σ => inner.moments σ

/-- The course of a check that does not look at the symbols. -/
def lift {α : Type} (f : Finding α) : (liftM f : Check α).Course := reading fun _ => f

/-- The course of a check that finds nothing. -/
def done {α : Type} (a : α) : (pure a : Check α).Course := reading fun _ => pure a

/-- One check behind another. -/
def thenDo {α β : Type} {m : Check α} {m' : Check β} (first : m.Course) (rest : m'.Course) :
    (m >>= fun _ => m').Course :=
  first.bind fun _ => rest

end Check.Course

/-- A moment of a check that consists of two is one of the first, or one of the second behind
the first. -/
theorem Check.Course.mem_moments_bind {α β : Type} {m : Check α} {next : α → Check β}
    {first : m.Course} {rest : ∀ a, (next a).Course} {σ : Symbols} {moment : Moment} :
    moment ∈ (first.bind rest).moments σ ↔ moment ∈ first.moments σ ∨
      ∃ a, (m σ).2.outcome = .ok a ∧
        ∃ later ∈ (rest a).moments (m σ).1, later.behind (m σ).2.issues = moment := by
  rw [moments, List.mem_append]
  cases (m σ).2.outcome with
  | error hole => simp
  | ok a => simp

/-- A moment of the fields of a struct is before the first, or behind it. -/
theorem mem_fieldMoments_cons {σ : Symbols} {struct : StructDef} {field : Field}
    {rest : List Field} {moment : Moment} :
    moment ∈ fieldMoments σ struct (field :: rest) ↔ moment = ⟨σ, some struct, []⟩ ∨
      ∃ extended, ((field.check σ struct).settledWith struct).outcome = .ok extended ∧
        ∃ later ∈ fieldMoments σ extended rest,
          later.behind ((field.check σ struct).settledWith struct).issues = moment := by
  rw [fieldMoments, List.mem_cons]
  cases ((field.check σ struct).settledWith struct).outcome with
  | error hole => simp
  | ok extended => simp

theorem Finding.issues_settledWith {α : Type} (f : Finding α) (default : α) :
    ∃ more, (f.settledWith default).issues = f.issues ++ more := by
  obtain ⟨issues, hole | _⟩ := f
  · exact ⟨[.missing hole], rfl⟩
  · exact ⟨[], (List.append_nil issues).symm⟩

theorem prefix_of_fieldMoments (σ : Symbols) (fs : List Field) (struct : StructDef) :
    ∀ moment ∈ fieldMoments σ struct fs,
      moment.found <+: (checkFields σ struct fs).issues := by
  induction fs generalizing struct with
  | nil =>
      intro moment hmoment
      rw [List.mem_singleton.1 hmoment]
      exact List.nil_prefix
  | cons field rest ih =>
      intro moment hmoment
      rw [checkFields, Finding.bind_eq, Finding.andThen]
      rcases mem_fieldMoments_cons.1 hmoment with rfl | ⟨extended, houtcome, later, hlater, rfl⟩
      · exact List.nil_prefix
      · rw [houtcome]
        exact (List.prefix_append_right_inj _).2 (ih extended later hlater)

theorem Check.prefix_of_ends {α : Type} (m : Check α) (σ : Symbols) :
    ∀ moment ∈ m.ends σ, moment.found <+: (m σ).2.issues :=
  List.forall_mem_cons.2
    ⟨List.nil_prefix, List.forall_mem_singleton.2 (List.prefix_refl _)⟩

/-- **What was found so far** stands at the front of what a check finds. -/
theorem Check.Course.prefix_of_moments {α : Type} {m : Check α} (course : m.Course)
    (σ : Symbols) : ∀ moment ∈ course.moments σ, moment.found <+: (m σ).2.issues := by
  induction course generalizing σ with
  | reading f => exact Check.prefix_of_ends _ σ
  | fields struct fs => exact prefix_of_fieldMoments σ fs struct
  | register declare name => exact Check.prefix_of_ends _ σ
  | @bind α β m next first rest ihfirst ihrest =>
      intro moment hmoment
      rw [Check.bind_run]
      rcases mem_moments_bind.1 hmoment with hfirst | ⟨a, houtcome, later, hlater, rfl⟩
      · have hfront := ihfirst σ moment hfirst
        cases (m σ).2.outcome with
        | error hole => exact hfront
        | ok a => exact hfront.trans (List.prefix_append _ _)
      · rw [houtcome]
        exact (List.prefix_append_right_inj _).2 (ihrest a _ later hlater)
  | inScope inner ih => exact ih σ.enter
  | @settled m inner ih =>
      intro moment hmoment
      -- the hole at which the check stopped is reported last
      obtain ⟨more, hmore⟩ := (m σ).2.issues_settledWith ()
      exact (ih σ moment hmoment).trans ⟨more, hmore.symm⟩

/-! ## Declarations -/

open Check (Course)
open Check.Course (lift done)

/-- The course of the check of an initial value. -/
def initializerCourse (name : Token) (type : CType) :
    (init : Option (Token × Expr)) → (checkInitializer name type init).Course
  | none => done ()
  | some (_, value) => .bind (.reading value.typing) fun _ => lift _

def Declarator.course (base : BaseType) (isConst : Bool) (d : Declarator) :
    (d.check base isConst).Course :=
  .bind (lift _) fun name => .bind (lift _) fun type => .thenDo (lift _) <|
    .thenDo (.register _ name) (initializerCourse name type d.init)

def declaratorsCourse (base : BaseType) (isConst : Bool) :
    (ds : List Declarator) → (checkDeclarators base isConst ds).Course
  | [] => done ()
  | d :: rest => .thenDo (d.course base isConst) (declaratorsCourse base isConst rest)

def Declaration.course (d : Declaration) : d.check.Course :=
  .bind (.reading _) fun base =>
    .thenDo (declaratorsCourse base (hasConst d.qualifiers) (d.first :: d.others.map (·.2)))
      (lift _)

def StructDecl.course (s : StructDecl) : s.check.Course :=
  .bind (.fields ⟨s.name.lexeme, s.name.location.line, []⟩ s.fields) fun struct =>
    .thenDo (.register (·.tryStruct struct) s.name) (.thenDo (lift _) (lift _))

def Param.course (p : Param) : p.check.Course :=
  .bind (.reading _) fun _ => .bind (lift _) fun name => .bind (lift _) fun type =>
    .thenDo (.register _ name) (done (Parameter.mk name.lexeme type))

def paramsCourse : (ps : List Param) → (checkParams ps).Course
  | [] => done []
  | p :: rest => .bind p.course fun _ => .bind (paramsCourse rest) fun _ => done _

def Header.course (h : Header) (defined : Bool) : (h.check defined).Course :=
  .bind (.reading _) fun _ => .bind (lift _) fun name => .thenDo (lift _) <|
    .bind (paramsCourse h.params.toList) fun _ => .thenDo (lift _) <|
      .thenDo (.register _ name) (done _)

/-! ## Statements -/

def ForInit.course : (init : ForInit) → init.check.Course
  | none _ => done ()
  | declaration d => d.course
  | assignment _ _ => .thenDo (.reading _) (lift _)

def testCourse : (test : Option Expr) → (checkForTest test).Course
  | none => done ()
  | some _ => .reading _

def updateCourse : (update : Option Assignment) → (checkForUpdate update).Course
  | none => done ()
  | some _ => .reading _

mutual

/-- The course of the check of a statement. -/
def Stmt.course (context : Context) : (s : Stmt) → (s.check context).Course
  | .blank _ => done ()
  | .struct definition => definition.course
  | .declaration d => d.course
  | .prototype header _ => .inScope (.bind (header.course false) fun _ => done ())
  | .function header body =>
    .inScope (.bind (header.course true) fun f => body.course (.body f))
  | .ifThen _ _ body => .thenDo (.reading _) (.inScope (body.course context))
  | .ifElse _ _ body _ alternative =>
    .thenDo (.reading _) <| .thenDo (.inScope (body.course context))
      (.inScope (alternative.course context))
  | .whileLoop _ _ body => .thenDo (.reading _) (.inScope (body.course context.loop))
  | .doWhile _ body _ _ _ =>
    .thenDo (.inScope (body.course context.loop)) <| .thenDo (lift _) <|
      .thenDo (.reading _) (lift _)
  | .forLoop _ _ init test _ update _ body =>
    .thenDo (lift _) <| .inScope <| .thenDo init.course <| .thenDo (testCourse test) <|
      .thenDo (lift _) <| .thenDo (updateCourse update) <| .thenDo (lift _)
        (.inScope (body.course context.loop))
  | .switch _ _ _ _ _ clauses _ =>
    .thenDo (lift _) <| .thenDo (.reading _) <| .thenDo (lift _) <| .thenDo (lift _) <|
      .thenDo (.inScope (clauses.course context.switch [] false)) (lift _)
  | .exit _ _ => lift _
  | .exitWith _ _ _ => .bind (.reading _) fun _ => .thenDo (lift _) (lift _)
  | .jump _ _ => .thenDo (lift _) (lift _)
  | .block _ body _ => .thenDo (.inScope (body.course context)) (lift _)
  | .call _ _ => .bind (.reading _) fun _ => lift _
  | .printf _ _ format _ _ _ =>
    .thenDo (lift _) <| .bind (.reading _) fun _ => .bind (.reading _) fun given =>
      .thenDo (lift _) <| .thenDo (lift _) <|
        match format.formatToken? with
        | some token => lift (FormatCall.printf.check token given)
        | none => done ()
  | .scanf _ _ _ _ _ _ =>
    .thenDo (lift _) <| .bind (lift _) fun _ => .bind (.reading _) fun _ =>
      .thenDo (lift _) <| .thenDo (lift _) (lift _)
  | .assignment _ _ => .thenDo (.reading _) (lift _)
  | .missing _ => lift _

/-- The course of the check of statements in sequence. -/
def Stmts.course (context : Context) : (ss : Stmts) → (ss.check context).Course
  | .nil => done ()
  | .cons first rest => .thenDo (.settled (first.course context)) (rest.course context)

/-- The course of the check of the body of a switch. -/
def Clauses.course (context : Context) (seen : List String) (hasDefault : Bool) :
    (cs : Clauses) → (cs.check context seen hasDefault).Course
  | .nil => done ()
  | .case _ (.missing _) _ rest =>
    .thenDo (.settled (lift _)) (rest.course context seen hasDefault)
  | .case _ (.found value) _ rest =>
    .thenDo (lift _) <| .thenDo (.settled (lift _))
      (rest.course context (value.lexeme :: seen) hasDefault)
  | .default _ _ rest =>
    .thenDo (lift _) <| .thenDo (.settled (lift _)) (rest.course context seen true)
  | .stmt first rest =>
    .thenDo (.settled (first.course context)) (rest.course context seen hasDefault)

end

end MiniC
