import MiniC.Location
import MiniC.Text.Quoted

/-!
# `MiniC.Diagnostic` — reported problems and their collector

Every problem found in a source text is a diagnostic.  A collector keeps all of them, in the order
of their reports, and passes each one on to a sink as soon as it is reported.

## Contents
- `Severity`, `Diagnostic` and their texts, plain and coloured.
- `Collector`: the records, and a sink with a state of its own.
- `Collector.records_reportAll`, `Collector.sink_reportAll`: reporting appends to the records and
  runs the sink over the new diagnostics alone.
-/

namespace MiniC

/-- The stage that found a problem. -/
inductive Severity
  | lexical | syntactic | semantic
deriving DecidableEq, Repr

namespace Severity

/-- The severity at the head of a message. -/
def label : Severity → String
  | lexical => "Lexical error"
  | syntactic => "Syntax error"
  | semantic => "Semantic error"

/-- The severity in a listing of records. -/
def name : Severity → String
  | lexical => "Lexical"
  | syntactic => "Syntax"
  | semantic => "Semantic"

/-- The terminal colour of the severity, an index into the palette of 256. -/
def color : Severity → Nat
  | lexical => 13
  | syntactic => 9
  | semantic => 11

end Severity

/-- One problem: what it is and where it lies. -/
structure Diagnostic where
  severity : Severity
  message : String
  location : Location
deriving DecidableEq, Repr

namespace Diagnostic

/-- The diagnostic as a line of plain text. -/
def render (d : Diagnostic) : String :=
  s!"{d.severity.label} at {d.location.describe}: {d.message}"

/-- The escape character. -/
def escape : String := "\x1b"

/-- The diagnostic as a line for a terminal: the label bold and coloured, the place grey. -/
def renderColored (d : Diagnostic) : String :=
  s!"{escape}[38;5;{d.severity.color}m{escape}[1m{d.severity.label}{escape}[0m" ++
    s!" at {escape}[38;5;8m{d.location.describe}{escape}[39m: {d.message}"

/-- The diagnostic with its fields named. -/
def dump (d : Diagnostic) : String :=
  s!"Diagnostic \x7b severity: {d.severity.name}, message: {Text.quote d.message}, " ++
    s!"location: SourceLocation \x7b line: {d.location.line}, column: {d.location.column} \x7d \x7d"

end Diagnostic

/-! ## Collecting -/

/-- The diagnostics reported so far, and where each is passed on to.  The sink has a state, which
`emit` changes with every diagnostic. -/
structure Collector (σ : Type) where
  records : List Diagnostic
  sink : σ
  emit : σ → Diagnostic → σ

namespace Collector

variable {σ : Type}

/-- A collector without records that passes its diagnostics on to a sink. -/
def withSink (sink : σ) (emit : σ → Diagnostic → σ) : Collector σ := ⟨[], sink, emit⟩

/-- A collector that keeps records and passes nothing on. -/
def silent : Collector Unit := withSink () fun _ _ => ()

/-- A collector whose sink keeps the lines it is given. -/
def listing : Collector (List String) := withSink [] fun lines d => lines ++ [d.render]

/-- A collector that writes one line of text for each diagnostic, for a terminal if `color`. -/
def writing (color : Bool) : Collector String :=
  withSink "" fun text d => text ++ (if color then d.renderColored else d.render) ++ "\n"

/-- Record a diagnostic and pass it on. -/
def report (c : Collector σ) (d : Diagnostic) : Collector σ :=
  { c with records := c.records ++ [d], sink := c.emit c.sink d }

/-- Record diagnostics and pass them on, one after the other. -/
def reportAll (c : Collector σ) (ds : List Diagnostic) : Collector σ :=
  ds.foldl report c

theorem emit_reportAll (c : Collector σ) (ds : List Diagnostic) :
    (c.reportAll ds).emit = c.emit := by
  induction ds generalizing c with
  | nil => rfl
  | cons d ds ih => exact ih (c.report d)

/-- Reporting appends to the records. -/
theorem records_reportAll (c : Collector σ) (ds : List Diagnostic) :
    (c.reportAll ds).records = c.records ++ ds := by
  induction ds generalizing c with
  | nil => simp [reportAll]
  | cons d ds ih =>
      show ((c.report d).reportAll ds).records = _
      rw [ih]
      simp [report]

/-- The sink is run over the new diagnostics, in order. -/
theorem sink_reportAll (c : Collector σ) (ds : List Diagnostic) :
    (c.reportAll ds).sink = ds.foldl c.emit c.sink := by
  induction ds generalizing c with
  | nil => rfl
  | cons d ds ih => exact ih (c.report d)

/-- How many diagnostics were reported. -/
def count (c : Collector σ) : Nat := c.records.length

/-- How many diagnostics of one severity were reported. -/
def countOf (c : Collector σ) (severity : Severity) : Nat :=
  c.records.countP (·.severity == severity)

/-- Whether nothing was reported. -/
def isEmpty (c : Collector σ) : Bool := c.records.isEmpty

/-- The records with their fields named. -/
def dump (c : Collector σ) : String :=
  "Diagnostics \x7b records: [" ++
    String.intercalate ", " (c.records.map Diagnostic.dump) ++ "] \x7d"

end Collector

end MiniC
