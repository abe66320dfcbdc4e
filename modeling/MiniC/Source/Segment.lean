import MiniC.Source.Span
import MiniC.Text.Blank
import MiniC.Text.Word
import MiniC.Token.Spelling

/-!
# `MiniC.Source.Segment` — a source text as a sequence of pieces

Every source text is a sequence of non-empty segments: white space, comments, tokens and malformed
pieces.  The first character and the ones behind it decide what the next segment is and how far it
reaches; no segment but a block comment reaches beyond its line.

## Contents
- `LexicalFault`, `Verdict`, `Segment`.
- One scanner per shape of segment: `directive`, `comment`, `word`, `number`, `stringLiteral`,
  `charLiteral`, `symbol`.  Each is given the first character, or is chosen by it, and cuts from
  the text behind it.
- `segments`, with `flatMap_segments`: **the segments, put together, are the text.**
-/

namespace MiniC

/-- What can be wrong with a piece of text. -/
inductive LexicalFault
  | unterminatedDirective (lexeme : String) (close : Char)
  | noDigitAfterPoint (lexeme : String)
  | numberWithSuffix (lexeme : String)
  | unterminatedString
  | emptyCharacter
  | unterminatedCharacter
  | unrecognized (c : Char)
deriving DecidableEq, Repr

/-- The message that reports a lexical fault. -/
def LexicalFault.message : LexicalFault → String
  | unterminatedDirective lexeme close =>
      s!"Unterminated directive '{lexeme}': expected '{close}'"
  | noDigitAfterPoint lexeme =>
      s!"Malformed float literal '{lexeme}': expected digit after '.'"
  | numberWithSuffix lexeme => s!"Invalid numeric literal '{lexeme}'"
  | unterminatedString => "Unterminated string literal"
  | emptyCharacter => "Empty character literal"
  | unterminatedCharacter => "Unterminated character literal"
  | unrecognized c => s!"Unrecognized character '{c}'"

/-- What a segment of text is. -/
inductive Verdict
  /-- White space or a comment. -/
  | blank
  /-- A token with the given lexeme. -/
  | token (kind : Kind) (lexeme : String)
  /-- A directive whose delimiter is not closed on its line; it counts as a token all the same. -/
  | openDirective (lexeme : String) (close : Char)
  /-- A piece that is no token. -/
  | malformed (fault : LexicalFault)
deriving DecidableEq, Repr

namespace Verdict

/-- The kind and the lexeme of a segment that is a token. -/
def token? : Verdict → Option (Kind × String)
  | blank => none
  | token kind lexeme => some (kind, lexeme)
  | openDirective lexeme _ => some (.directive, lexeme)
  | malformed _ => none

/-- What is wrong with the segment. -/
def fault? : Verdict → Option LexicalFault
  | blank => none
  | token _ _ => none
  | openDirective lexeme close => some (.unterminatedDirective lexeme close)
  | malformed fault => some fault

end Verdict

/-- A piece of source text and what it is. -/
structure Segment where
  text : List Char
  verdict : Verdict
deriving DecidableEq, Repr

namespace Segment

/-! ## Directives and comments -/

/-- The text of a directive behind its name: a space and the payload, or nothing if that is
blank. -/
def payloadText (payload : List Char) : List Char :=
  match Text.trimEnd payload with
  | [] => []
  | trimmed => ' ' :: trimmed

/-- The delimiter that closes a directive's `<` or `"`. -/
def closingDelimiter (opening : Char) : Char := if opening = '<' then '>' else '"'

/-- A directive, behind its `#`.  A payload that opens with a delimiter ends with the closing one
on the same line, any other runs to the end of the line; in the lexeme one space stands in front
of it and none behind. -/
def directive (cs : List Char) : Verdict × Span cs :=
  let name := Span.while_ Text.inWord cs
  let head := name.andThen (.while_ fun c => c == ' ' || c == '\t')
  match head.rest.head?.filter fun c => c == '<' || c == '"' with
  | some opening =>
    let close := closingDelimiter opening
    let payload := (head.andThen (.take 1)).andThen (.while_ fun c => c != close && c != '\n')
    let closed := payload.andThen (.optional (· == close))
    let lexeme := '#' :: name.taken ++ ' ' :: closed.taken.drop head.taken.length
    if payload.sees (· == close) then (.token .directive (.ofList lexeme), closed)
    else (.openDirective (.ofList lexeme) close, closed)
  | none =>
    let line := head.andThen (.while_ (· != '\n'))
    let lexeme := '#' :: name.taken ++ payloadText (line.taken.drop head.taken.length)
    (.token .directive (.ofList lexeme), line)

/-- The rest of a block comment, its `*/` included if there is one. -/
def blockCommentTail : (cs : List Char) → Span cs
  | [] => .nothing []
  | '*' :: '/' :: cs => ((Span.nothing cs).cons '/').cons '*'
  | c :: cs => (blockCommentTail cs).cons c

/-- A comment, behind its first slash.  A block comment that is not closed runs to the end of the
text. -/
def comment? : (cs : List Char) → Option (Span cs)
  | '/' :: cs => some ((Span.while_ (· != '\n') cs).cons '/')
  | '*' :: cs => some ((blockCommentTail cs).cons '*')
  | _ => none

/-! ## Words and numbers -/

/-- A keyword or an identifier that begins with `c`. -/
def word (c : Char) (cs : List Char) : Verdict × Span cs :=
  let tail := Span.while_ Text.inWord cs
  let lexeme := String.ofList (c :: tail.taken)
  (.token (.ofWord lexeme) lexeme, tail)

/-- A number that begins with the digit `c`: digits, and at most one point with digits behind it.
A point without a digit and a number that runs into a word are malformed. -/
def number (c : Char) (cs : List Char) : Verdict × Span cs :=
  let digits := Span.while_ Char.isDigit cs
  let hasPoint := digits.sees (· == '.')
  let point := digits.andThen (.optional (· == '.'))
  if hasPoint && !point.sees Char.isDigit then
    (.malformed (.noDigitAfterPoint (.ofList (c :: point.taken))), point)
  else
    let number := point.andThen (.while_ Char.isDigit)
    if number.sees Text.startsWord then
      let all := number.andThen (.while_ Text.inWord)
      (.malformed (.numberWithSuffix (.ofList (c :: all.taken))), all)
    else
      let kind := Kind.literal (if hasPoint then .float else .int)
      (.token kind (.ofList (c :: number.taken)), number)

/-! ## Strings and characters -/

/-- The rest of a string literal, and whether it is closed on its line.  A backslash takes away
the meaning of the character behind it, but not of the end of the line. -/
def stringTail : (cs : List Char) → Bool × Span cs
  | [] => (false, .nothing [])
  | '"' :: cs => (true, (Span.nothing cs).cons '"')
  | '\n' :: cs => (false, .nothing ('\n' :: cs))
  | '\\' :: c :: cs =>
    if c = '\n' then (false, (Span.nothing (c :: cs)).cons '\\')
    else
      let tail := stringTail cs
      (tail.1, (tail.2.cons c).cons '\\')
  | c :: cs =>
    let tail := stringTail cs
    (tail.1, tail.2.cons c)

/-- A string literal, behind its first quote. -/
def stringLiteral (cs : List Char) : Verdict × Span cs :=
  let tail := stringTail cs
  if tail.1 then (.token (.literal .string) (.ofList ('"' :: tail.2.taken)), tail.2)
  else (.malformed .unterminatedString, tail.2)

/-- The character of a character literal, with the backslash in front of it. -/
def charBody : (cs : List Char) → Span cs
  | [] => .nothing []
  | '\n' :: cs => .nothing ('\n' :: cs)
  | '\\' :: cs => (Span.optional (· != '\n') cs).cons '\\'
  | c :: cs => (Span.nothing cs).cons c

/-- A character literal, behind its first quote. -/
def charLiteral (cs : List Char) : Verdict × Span cs :=
  if cs.head? == some '\'' then (.malformed .emptyCharacter, .take 1 cs)
  else
    let body := charBody cs
    if body.sees (· == '\'') then
      let all := body.andThen (.take 1)
      (.token (.literal .char) (.ofList ('\'' :: all.taken)), all)
    else (.malformed .unterminatedCharacter, body)

/-! ## Symbols -/

/-- An operator or punctuation mark that begins with `c`, or a character that begins nothing. -/
def symbol (c : Char) (cs : List Char) : Verdict × Span cs :=
  match Kind.longestSymbol? (c :: cs) with
  | some (kind, n) => (.token kind (.ofList ((c :: cs).take n)), .take (n - 1) cs)
  | none => (.malformed (.unrecognized c), .nothing cs)

/-! ## Segmentation -/

/-- What the segment is that begins with `c`, and how far it reaches into the text behind. -/
def piece (c : Char) (cs : List Char) : Verdict × Span cs :=
  if Text.isBlank c then (.blank, .nothing cs)
  else if c = '#' then directive cs
  else
    match if c = '/' then comment? cs else none with
    | some span => (.blank, span)
    | none =>
      if Text.startsWord c then word c cs
      else if c.isDigit then number c cs
      else if c = '"' then stringLiteral cs
      else if c = '\'' then charLiteral cs
      else symbol c cs

/-- The segments of a text. -/
def segments : List Char → List Segment
  | [] => []
  | c :: cs =>
    let next := piece c cs
    ⟨c :: next.2.taken, next.1⟩ :: segments next.2.rest
termination_by text => text.length
decreasing_by
  have h := (piece c cs).2.length_rest_le
  simp only [List.length_cons]
  omega

/-- **The segments, put together, are the text.** -/
theorem flatMap_segments (text : List Char) : (segments text).flatMap Segment.text = text := by
  induction text using segments.induct with
  | case1 => simp [segments]
  | case2 c cs next ih =>
      rw [segments, List.flatMap_cons]
      simp only [List.cons_append, List.cons.injEq, true_and]
      rw [ih]
      exact next.2.whole

/-- No segment is empty. -/
theorem text_ne_nil_of_mem_segments {text : List Char} {s : Segment} (h : s ∈ segments text) :
    s.text ≠ [] := by
  induction text using segments.induct with
  | case1 => simp [segments] at h
  | case2 c cs next ih =>
      rw [segments, List.mem_cons] at h
      rcases h with rfl | h
      · exact List.cons_ne_nil _ _
      · exact ih h

end Segment

end MiniC
