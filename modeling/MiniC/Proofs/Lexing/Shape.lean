import MiniC.Source.Segment

/-!
# `MiniC.Proofs.Lexing.Shape` — what the pieces of a source text look like

The shapes of pieces are given without saying how a text is scanned.  A token is told by its own
text: `Kind.Written` says how the tokens of a kind are written.  Where a piece ends is told by
what stands behind it, so a shape is one of a text in front of a rest.  A text is cut into pieces
if each of them has its shape in front of the others.

## Contents
- `Stops`, `AtLineEnd`: what a rest does not begin with.
- `QuotedChar`, `QuotedText`: what stands between quotes.
- `Kind.Written`, `Kind.EndsBefore`: how the tokens of a kind are written, and where they end.
- `Verdict.Fits`: **the shapes of pieces**; `Cut`: a text cut into pieces.
-/

namespace MiniC

/-! ## Where a piece ends -/

/-- The text does not begin with a character that satisfies `p`. -/
def Stops (p : Char → Bool) (rest : List Char) : Prop := ∀ c ∈ rest.head?, p c = false

/-- The text is empty or begins with a line feed. -/
def AtLineEnd (rest : List Char) : Prop := Stops (· != '\n') rest

/-- Every character of the text satisfies `p`. -/
def Wholly (p : Char → Bool) (text : List Char) : Prop := ∀ c ∈ text, p c = true

/-! ## Tokens -/

/-- One character between quotes, with the backslash that takes away its meaning. -/
inductive QuotedChar (quote : Char) : List Char → Prop
  | plain {c : Char} : c ≠ quote → c ≠ '\\' → c ≠ '\n' → QuotedChar quote [c]
  | escaped {c : Char} : c ≠ '\n' → QuotedChar quote ['\\', c]

/-- Any number of characters between quotes. -/
inductive QuotedText (quote : Char) : List Char → Prop
  | nil : QuotedText quote []
  | cons {c cs : List Char} :
      QuotedChar quote c → QuotedText quote cs → QuotedText quote (c ++ cs)

/-- Whether the text is the spelling of a keyword. -/
def Reserved (text : List Char) : Prop := ∃ word : Keyword, word.spelling.toList = text

/-- How the tokens of a kind are written.  The text of a directive is no part of the table, since
its lexeme differs from it. -/
inductive Kind.Written : Kind → List Char → Prop
  | keyword (word : Keyword) : Written (.keyword word) word.spelling.toList
  | ident {c : Char} {cs : List Char} :
      Text.startsWord c = true → Wholly Text.inWord cs → ¬Reserved (c :: cs) →
      Written .ident (c :: cs)
  | int {digits : List Char} :
      digits ≠ [] → Wholly Char.isDigit digits → Written (.literal .int) digits
  | float {digits decimals : List Char} :
      digits ≠ [] → Wholly Char.isDigit digits → decimals ≠ [] → Wholly Char.isDigit decimals →
      Written (.literal .float) (digits ++ '.' :: decimals)
  | string {body : List Char} :
      QuotedText '"' body → Written (.literal .string) ('"' :: (body ++ ['"']))
  | char {body : List Char} :
      QuotedChar '\'' body → Written (.literal .char) ('\'' :: (body ++ ['\'']))
  | operator (sign : Operator) : Written (.operator sign) sign.spelling.toList
  | punct (mark : Punct) : Written (.punct mark) mark.spelling.toList

/-- No operator or punctuation mark that stands at the beginning of `text ++ rest` is longer than
`text`. -/
def LongestSymbol (text rest : List Char) : Prop :=
  ∀ kind ∈ Kind.symbols, kind.symbolText <+: text ++ rest →
    kind.symbolText.length ≤ text.length

/-- Whether a slash and the character make the opening of a comment. -/
def opensComment (c : Char) : Bool := c == '/' || c == '*'

/-- What must not stand behind the text of a token, or else the token would not end there. -/
def Kind.EndsBefore : Kind → (text rest : List Char) → Prop
  | .keyword _, _, rest => Stops Text.inWord rest
  | .ident, _, rest => Stops Text.inWord rest
  | .literal .int, _, rest => Stops (fun c => c.isDigit || c == '.' || Text.startsWord c) rest
  | .literal .float, _, rest => Stops (fun c => c.isDigit || Text.startsWord c) rest
  | .literal _, _, _ => True
  | .operator _, text, rest =>
      LongestSymbol text rest ∧ (text = ['/'] → Stops opensComment rest)
  | .punct _, text, rest => LongestSymbol text rest
  | .directive, _, _ => False
  | .eof, _, _ => False

/-! ## Directives -/

/-- Whether the character is a space or a tab. -/
def isGap (c : Char) : Bool := c == ' ' || c == '\t'

/-- Whether the character opens a payload that has to be closed. -/
def opensPayload (c : Char) : Bool := c == '<' || c == '"'

/-- The hash, the name of a directive and the gap behind it, in front of the payload. -/
structure DirectiveHead (name gap payload : List Char) : Prop where
  word : Wholly Text.inWord name
  blank : Wholly isGap gap
  wordEnds : Stops Text.inWord (gap ++ payload)
  gapEnds : Stops isGap payload

/-! ## Pieces -/

/-- A word of digits and at most one point, as a number literal is written. -/
def NumberText (text : List Char) : Prop :=
  Kind.Written (.literal .int) text ∨ Kind.Written (.literal .float) text

/-- The piece `text` in front of `rest` is what the verdict says. -/
inductive Verdict.Fits : Verdict → (text rest : List Char) → Prop
  -- White space and comments
  | space {c : Char} {rest : List Char} : Text.isBlank c = true → Fits .blank [c] rest
  | lineComment {body rest : List Char} :
      '\n' ∉ body → AtLineEnd rest → Fits .blank ('/' :: '/' :: body) rest
  | blockComment {body rest : List Char} :
      ¬['*', '/'] <:+: body → Fits .blank ('/' :: '*' :: (body ++ ['*', '/'])) rest
  | openComment {body : List Char} :
      ¬['*', '/'] <:+: body → Fits .blank ('/' :: '*' :: body) []
  -- Tokens
  | token {kind : Kind} {text rest : List Char} :
      kind.Written text → kind.EndsBefore text rest →
      Fits (.token kind (.ofList text)) text rest
  | closedDirective {name gap body rest : List Char} {opening : Char} :
      DirectiveHead name gap (opening :: body) → opensPayload opening = true →
      Segment.closingDelimiter opening ∉ body → '\n' ∉ body →
      Fits (.token .directive (.ofList ('#' :: (name ++ ' ' :: opening ::
          (body ++ [Segment.closingDelimiter opening])))))
        ('#' :: (name ++ gap ++ opening :: (body ++ [Segment.closingDelimiter opening]))) rest
  | openDirective {name gap body rest : List Char} {opening : Char} :
      DirectiveHead name gap (opening :: body) → opensPayload opening = true →
      Segment.closingDelimiter opening ∉ body → '\n' ∉ body → AtLineEnd rest →
      Fits (.openDirective (.ofList ('#' :: (name ++ ' ' :: opening :: body)))
          (Segment.closingDelimiter opening))
        ('#' :: (name ++ gap ++ opening :: body)) rest
  | lineDirective {name gap payload rest : List Char} :
      DirectiveHead name gap (payload ++ rest) → Stops opensPayload payload → '\n' ∉ payload →
      AtLineEnd rest →
      Fits (.token .directive (.ofList ('#' :: (name ++ Segment.payloadText payload))))
        ('#' :: (name ++ gap ++ payload)) rest
  -- Malformed pieces
  | noDigitAfterPoint {digits rest : List Char} :
      digits ≠ [] → Wholly Char.isDigit digits → Stops Char.isDigit rest →
      Fits (.malformed (.noDigitAfterPoint (.ofList (digits ++ ['.'])))) (digits ++ ['.']) rest
  | numberWithSuffix {number suffix rest : List Char} {c : Char} :
      NumberText number → Text.startsWord c = true → Wholly Text.inWord suffix →
      Stops Text.inWord rest →
      Fits (.malformed (.numberWithSuffix (.ofList (number ++ c :: suffix))))
        (number ++ c :: suffix) rest
  | openString {body stray rest : List Char} :
      QuotedText '"' body → stray = [] ∨ stray = ['\\'] → AtLineEnd rest →
      Fits (.malformed .unterminatedString) ('"' :: (body ++ stray)) rest
  | emptyChar {rest : List Char} : Fits (.malformed .emptyCharacter) ['\'', '\''] rest
  | openChar {body rest : List Char} :
      QuotedChar '\'' body → Stops (· == '\'') rest →
      Fits (.malformed .unterminatedCharacter) ('\'' :: body) rest
  | strayQuote {stray rest : List Char} :
      stray = [] ∨ stray = ['\\'] → AtLineEnd rest →
      Fits (.malformed .unterminatedCharacter) ('\'' :: stray) rest
  | unrecognized {c : Char} {rest : List Char} :
      Text.isBlank c = false → Text.startsWord c = false → c.isDigit = false →
      c ∉ ['#', '"', '\''] → (∀ kind ∈ Kind.symbols, ¬kind.symbolText <+: c :: rest) →
      Fits (.malformed (.unrecognized c)) [c] rest

/-- The text is cut into the pieces: they make up the text, and each of them is what it is said to
be in front of those behind it. -/
inductive Cut : List Segment → List Char → Prop
  | nil : Cut [] []
  | cons {s : Segment} {pieces : List Segment} {rest : List Char} :
      s.verdict.Fits s.text rest → Cut pieces rest → Cut (s :: pieces) (s.text ++ rest)

end MiniC
