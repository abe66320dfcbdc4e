import MiniC.Diagnostic
import MiniC.Source.Segment
import MiniC.Token.Basic

/-!
# `MiniC.Source.Tokens` — the tokens of a source text

The tokens and the lexical diagnostics of a text are read off its segments, each placed where the
segment begins.  One end-of-file mark stands behind the last token, at the end of the text.
-/

namespace MiniC

namespace Segment

/-- Each segment with the place where it begins, the first one at `place`. -/
def placed (place : Location) : List Segment → List (Location × Segment)
  | [] => []
  | s :: rest => (place, s) :: placed (place.advance s.text) rest

/-- The token that a segment is. -/
def token? (placed : Location × Segment) : Option Token :=
  placed.2.verdict.token?.map fun (kind, lexeme) => ⟨kind, lexeme, placed.1⟩

/-- The diagnostic that a segment calls for. -/
def diagnostic? (placed : Location × Segment) : Option Diagnostic :=
  placed.2.verdict.fault?.map fun fault => ⟨.lexical, fault.message, placed.1⟩

end Segment

/-- What is read from a source text. -/
structure Lexing where
  tokens : List Token
  diagnostics : List Diagnostic
deriving Repr

/-- The tokens of a source text, an end-of-file mark behind them, and its lexical diagnostics. -/
def tokenize (source : String) : Lexing :=
  let text := source.toList
  let placed := Segment.placed .start (Segment.segments text)
  { tokens := placed.filterMap Segment.token? ++ [.endOfFile (Location.start.advance text)]
    diagnostics := placed.filterMap Segment.diagnostic? }

/-- The last token is an end-of-file mark. -/
theorem getLast?_tokenize (source : String) :
    (tokenize source).tokens.getLast? =
      some (.endOfFile (Location.start.advance source.toList)) := by
  simp [tokenize]

end MiniC
