import Mathlib.Algebra.Ring.Nat
import MiniC.Analysis
import MiniC.Proofs.Types.Course

/-!
# `MiniC.Proofs.Collecting` — reporting to a collector on the way

An analysis is told as finding its diagnostics first and reporting them at the end.  Here is one
that holds the collector all along and reports every problem where it stands: the scanner reports
before it cuts the next piece, and each step of a check before the next step is taken.  It is led
by what it reads and by the symbols alone, and adds to the collector what the other one adds.

So a collector is only ever added to.  What it held before stays in front, whichever sources
were analysed with it, and its counts are sums over the sources.

## Contents
- `Collector.note`: reporting an issue of a program.
- `lexInto`, `Check.Course.reportInto`, `analyzeReporting`: the analysis that reports on its way,
  with `analyzeReporting_eq`.
- `AppendsAnalysis`: what an analysis adds to the records, to the sink and to the counts.
- `analysis_appends`: **an analysis adds its diagnostics to a collector,** and nothing else.
-/

namespace MiniC

variable {σ : Type}

/-! ## Collectors -/

namespace Collector

theorem reportAll_append (c : Collector σ) (ds es : List Diagnostic) :
    c.reportAll (ds ++ es) = (c.reportAll ds).reportAll es :=
  List.foldl_append

/-- Report an issue, placed at `stop` if it is at no token. -/
def note (c : Collector σ) (stop : Location) (issue : Issue) : Collector σ :=
  c.report (issue.diagnostic stop)

/-- Report issues, one after the other. -/
def noteAll (c : Collector σ) (stop : Location) (issues : List Issue) : Collector σ :=
  issues.foldl (·.note stop ·) c

theorem noteAll_eq (c : Collector σ) (stop : Location) (issues : List Issue) :
    c.noteAll stop issues = c.reportAll (issues.map (·.diagnostic stop)) := by
  rw [reportAll, List.foldl_map]
  rfl

theorem noteAll_singleton (c : Collector σ) (stop : Location) (issue : Issue) :
    c.noteAll stop [issue] = c.note stop issue := rfl

theorem noteAll_append (c : Collector σ) (stop : Location) (first second : List Issue) :
    c.noteAll stop (first ++ second) = (c.noteAll stop first).noteAll stop second :=
  List.foldl_append

end Collector

/-! ## Scanning -/

/-- Cut a text that begins at `place` into tokens, and report what is wrong with a piece before the
next one is cut. -/
def lexInto (place : Location) (text : List Char) (c : Collector σ) : List Token × Collector σ :=
  match text with
  | [] => ([.endOfFile place], c)
  | first :: cs =>
    let next := Segment.piece first cs
    let segment : Segment := ⟨first :: next.2.taken, next.1⟩
    let c₁ := (Segment.diagnostic? (place, segment)).elim c c.report
    let (tokens, c₂) := lexInto (place.advance segment.text) next.2.rest c₁
    ((Segment.token? (place, segment)).toList ++ tokens, c₂)
termination_by text.length
decreasing_by
  have h := (Segment.piece first cs).2.length_rest_le
  simp only [List.length_cons]
  omega

/-- Scanning with a collector yields the tokens of the segments, and has reported their faults. -/
theorem lexInto_eq (place : Location) (text : List Char) (c : Collector σ) :
    lexInto place text c =
      ((Segment.placed place (Segment.segments text)).filterMap Segment.token? ++
          [.endOfFile (place.advance text)],
        c.reportAll ((Segment.placed place (Segment.segments text)).filterMap
          Segment.diagnostic?)) := by
  induction text using Segment.segments.induct generalizing place c with
  | case1 =>
      rw [lexInto, Segment.segments]
      rfl
  | case2 first cs next ih =>
      have hwhole : place.advance (first :: cs) =
          (place.advance (first :: next.2.taken)).advance next.2.rest := by
        rw [← Location.advance_append, List.cons_append]
        exact congrArg (fun cs => place.advance (first :: cs)) next.2.whole.symm
      rw [lexInto, Segment.segments, Segment.placed, List.filterMap_cons, List.filterMap_cons, ih,
        hwhole]
      cases Segment.token? (place, ⟨first :: next.2.taken, next.1⟩) <;>
        cases Segment.diagnostic? (place, ⟨first :: next.2.taken, next.1⟩) <;> rfl

/-! ## Checking -/

/-- What a check that reports on its way leaves: the symbols, the collector, and the outcome. -/
structure Reporting (σ α : Type) where
  symbols : Symbols
  collector : Collector σ
  outcome : Except Hole α

/-- What a check leaves whose issues were reported to a collector. -/
def Check.reported {α : Type} (m : Check α) (stop : Location) (s : Symbols) (c : Collector σ) :
    Reporting σ α :=
  ⟨(m s).1, c.noteAll stop (m s).2.issues, (m s).2.outcome⟩

/-- Check the fields of a struct one after the other, each reported before the next is looked at. -/
def fieldsInto (stop : Location) (s : Symbols) (struct : StructDef) (c : Collector σ) :
    List Field → Collector σ × Except Hole StructDef
  | [] => (c, .ok struct)
  | field :: rest =>
    let found := field.check s struct
    let c₁ := c.noteAll stop found.issues
    match found.outcome with
    | .ok extended => fieldsInto stop s extended c₁ rest
    | .error hole => fieldsInto stop s struct (c₁.note stop (.missing hole)) rest

theorem fieldsInto_eq (stop : Location) (s : Symbols) (struct : StructDef) (c : Collector σ)
    (fs : List Field) :
    fieldsInto stop s struct c fs =
      (c.noteAll stop (checkFields s struct fs).issues, (checkFields s struct fs).outcome) := by
  induction fs generalizing struct c with
  | nil => rfl
  | cons field rest ih =>
      rw [fieldsInto, checkFields, Finding.bind_eq, Finding.andThen, Finding.settledWith]
      cases (field.check s struct).outcome with
      | error hole =>
          simp only [ih, Collector.noteAll_append, Collector.noteAll_singleton]
      | ok extended => simp only [ih, Collector.noteAll_append]

/-- Follow the course of a check, and report at every step what is found there. -/
def Check.Course.reportInto (stop : Location) :
    {α : Type} → {m : Check α} → m.Course → Symbols → Collector σ → Reporting σ α
  | _, _, reading f, s, c => ⟨s, c.noteAll stop (f s).issues, (f s).outcome⟩
  | _, _, fields struct fs, s, c =>
    let (c₁, outcome) := fieldsInto stop s struct c fs
    ⟨s, c₁, outcome⟩
  | _, _, register declare name, s, c =>
    let (s₁, answer) := declare s
    match answer with
    | .ok () => ⟨s₁, c, .ok ()⟩
    | .error refusal => ⟨s₁, c.note stop (.fault (.refused refusal) name), .ok ()⟩
  | _, _, bind first rest, s, c =>
    let r := first.reportInto stop s c
    match r.outcome with
    | .error hole => ⟨r.symbols, r.collector, .error hole⟩
    | .ok a => (rest a).reportInto stop r.symbols r.collector
  | _, _, inScope inner, s, c =>
    let r := inner.reportInto stop s.enter c
    { r with symbols := r.symbols.leave }
  | _, _, settled inner, s, c =>
    let r := inner.reportInto stop s c
    match r.outcome with
    | .ok a => ⟨r.symbols, r.collector, .ok a⟩
    | .error hole => ⟨r.symbols, r.collector.note stop (.missing hole), .ok ()⟩

/-- **Reporting on the way** comes to the same as checking first and reporting at the end. -/
theorem Check.Course.reportInto_eq (stop : Location) {α : Type} {m : Check α}
    (course : m.Course) (s : Symbols) (c : Collector σ) :
    course.reportInto stop s c = m.reported stop s c := by
  induction course generalizing s c with
  | reading f => rfl
  | fields struct fs =>
      rw [reportInto, fieldsInto_eq]
      rfl
  | register declare name =>
      rw [reportInto, reported, Check.register]
      rcases declare s with ⟨s₁, _ | _⟩ <;> rfl
  | @bind α β m next first rest ihfirst ihrest =>
      rw [reportInto, ihfirst, reported, reported, Check.bind_run]
      cases (m s).2.outcome with
      | error hole => rfl
      | ok a =>
          simp only [ihrest, reported, Collector.noteAll_append]
  | inScope inner ih =>
      rw [reportInto, ih]
      rfl
  | @settled m inner ih =>
      rw [reportInto, ih, reported, reported, Check.settled]
      obtain ⟨s₁, issues, hole | _⟩ := m s
      · simp only [Finding.settledWith, Collector.noteAll_append, Collector.noteAll_singleton]
      · rfl

/-! ## Analysing -/

/-- Analyse a source text with a collector at hand, and report every problem as it is met. -/
def analyzeReporting (source : String) (c : Collector σ) : Collector σ :=
  let (tokens, c₁) := lexInto .start source.toList c
  let stream := TokenStream.ofTokens tokens
  let program := Stmts.ofList (Cursor.reading stream.body).items.tree
  let course : (Check.inScope (program.check .global)).Course := .inScope (program.course .global)
  (course.reportInto stream.stop.location .empty c₁).collector

/-- Reporting on the way adds what an analysis yields. -/
theorem analyzeReporting_eq (source : String) (c : Collector σ) :
    analyzeReporting source c = analyzeInto source c := by
  rw [analyzeReporting, lexInto_eq]
  simp only [Check.Course.reportInto_eq]
  rw [Check.reported, Collector.noteAll_eq, analyzeInto, analyze, Collector.reportAll_append]
  rfl

/-- The severities of what is found in a text: those of its pieces come first. -/
theorem severity_analyze (source : String) :
    (∀ d ∈ (tokenize source).diagnostics, d.severity = .lexical) ∧
      ∀ d ∈ (TokenStream.ofTokens (tokenize source).tokens).analyze.diagnostics,
        d.severity ≠ .lexical := by
  constructor
  · intro d hd
    obtain ⟨placed, -, hplaced⟩ := List.mem_filterMap.1 hd
    obtain ⟨fault, -, rfl⟩ := Option.map_eq_some_iff.1 hplaced
    rfl
  · intro d hd
    obtain ⟨issue, -, rfl⟩ := List.mem_map.1 hd
    cases issue <;> exact nofun

/-- A collector behind the analyses of several sources, one after the other. -/
def analyzeAllInto (sources : List String) (c : Collector σ) : Collector σ :=
  sources.foldl (fun c source => analyzeInto source c) c

/-- Several sources add what each of them adds. -/
theorem analyzeAllInto_eq (sources : List String) (c : Collector σ) :
    analyzeAllInto sources c = c.reportAll (sources.flatMap analyze) := by
  induction sources generalizing c with
  | nil => rfl
  | cons source rest ih =>
      rw [List.flatMap_cons, Collector.reportAll_append]
      exact ih (analyzeInto source c)

theorem Collector.count_eq_countOf (c : Collector σ) :
    c.count = c.countOf .lexical + c.countOf .syntactic + c.countOf .semantic := by
  unfold Collector.count Collector.countOf
  induction c.records with
  | nil => rfl
  | cons d ds ih =>
      rw [List.length_cons, ih, List.countP_cons, List.countP_cons, List.countP_cons]
      cases d.severity <;> simp <;> omega

theorem Collector.records_silent (source : String) :
    (analyzeInto source .silent).records = analyze source :=
  records_analyzeInto source .silent

/-- A collector to which an analysis adds its diagnostics, and several sources theirs. -/
structure AppendsAnalysis (c : Collector σ) (source : String) (sources : List String) : Prop where
  /-- It makes no difference whether each problem is reported where it stands. -/
  reporting : analyzeReporting source c = analyzeInto source c
  /-- Behind the old records stand those that the source gets from a fresh collector. -/
  records : (analyzeInto source c).records = c.records ++ (analyzeInto source .silent).records
  /-- The sink was given these, in their order. -/
  sink : (analyzeInto source c).sink = (analyzeInto source .silent).records.foldl c.emit c.sink
  /-- The lexical ones are the first of them. -/
  lexicalFirst : ∃ lexical others, (analyzeInto source .silent).records = lexical ++ others ∧
    (∀ d ∈ lexical, d.severity = .lexical) ∧ ∀ d ∈ others, d.severity ≠ .lexical
  /-- The counts behind the sources are sums over the sources, -/
  count : (analyzeAllInto sources c).count =
    c.count + (sources.map fun s => (analyzeInto s .silent).count).sum
  /-- for each severity, -/
  countOf : ∀ severity, (analyzeAllInto sources c).countOf severity =
    c.countOf severity + (sources.map fun s => (analyzeInto s .silent).countOf severity).sum
  /-- and every record has one of the three severities. -/
  total : (analyzeAllInto sources c).count =
    (analyzeAllInto sources c).countOf .lexical + (analyzeAllInto sources c).countOf .syntactic +
      (analyzeAllInto sources c).countOf .semantic

/-- **An analysis adds its diagnostics to a collector,** whatever was reported to it before: behind
the old records stand those that the source gets from a fresh collector, the lexical ones first,
and the sink was given these, in their order.  That is so too when each is reported where it
stands.  So the counts behind any sequence of sources are sums over the sources. -/
theorem analysis_appends (c : Collector σ) (source : String) (sources : List String) :
    AppendsAnalysis c source sources := by
  have hall : (analyzeAllInto sources c).records = c.records ++ sources.flatMap analyze := by
    rw [analyzeAllInto_eq, Collector.records_reportAll]
  constructor
  case reporting => exact analyzeReporting_eq source c
  case records => rw [Collector.records_silent, records_analyzeInto]
  case sink => rw [Collector.records_silent, analyzeInto, Collector.sink_reportAll]
  case lexicalFirst =>
    rw [Collector.records_silent]
    exact ⟨_, _, rfl, severity_analyze source⟩
  case count =>
    simp only [Collector.count, hall, Collector.records_silent, List.length_append,
      List.length_flatMap]
  case countOf =>
    intro severity
    simp only [Collector.countOf, hall, Collector.records_silent, List.countP_append,
      List.countP_flatMap, Function.comp_def]
  case total => exact Collector.count_eq_countOf _

end MiniC
