import MiniC.Source.Tokens
import MiniC.Stmt.Check
import MiniC.Stmt.Read
import MiniC.Token.Stream

/-!
# `MiniC.Analysis` — analysing programs

The tokens of a program are read into a tree and the tree is checked at global scope.  Lexical
diagnostics come first; the others follow in the order of the text, syntactic and semantic ones
mixed.

## Contents
- `Analysis`, `TokenStream.analyze`: what the analysis of tokens yields.
- `analyze`: the diagnostics of a source text; `analyzeInto`: their report to a collector.
- `records_analyzeInto`: **what was reported before has no influence.**
-/

namespace MiniC

/-- What the analysis of a token sequence yields. -/
structure Analysis where
  diagnostics : List Diagnostic
  /-- The symbols behind the last token. -/
  symbols : Symbols
  /-- How many tokens were read. -/
  position : Nat

/-- Check a program under symbols without an open scope. -/
def checkProgram (program : Stmts) (σ : Symbols) : Symbols × List Issue :=
  let (σ₁, found) := Check.inScope (program.check .global) σ
  (σ₁, found.issues)

/-- Read the program that the rest of a stream holds, and check it. -/
def TokenStream.analyze (stream : TokenStream) : Analysis :=
  let read := (Cursor.reading stream.body).items
  let (σ, issues) := checkProgram (.ofList read.tree) .empty
  { diagnostics := issues.map (·.diagnostic stream.stop.location)
    symbols := σ
    position := stream.position + (stream.body.length - read.next.size) }

/-- The diagnostics of a source text. -/
def analyze (source : String) : List Diagnostic :=
  let lexing := tokenize source
  lexing.diagnostics ++ (TokenStream.ofTokens lexing.tokens).analyze.diagnostics

/-- Report the diagnostics of a source text to a collector. -/
def analyzeInto {σ : Type} (source : String) (collector : Collector σ) : Collector σ :=
  collector.reportAll (analyze source)

/-- **What was reported before has no influence:** the new records are those of the source. -/
theorem records_analyzeInto {σ : Type} (source : String) (collector : Collector σ) :
    (analyzeInto source collector).records = collector.records ++ analyze source :=
  collector.records_reportAll _

end MiniC
