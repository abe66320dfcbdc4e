import MiniC.Token.Basic

/-!
# `MiniC.Token.Stream` — a cursor over finished tokens that never runs out

Behind its last token a stream holds an endless supply of end-of-file marks, placed where the last
token begins.  The cursor only moves forward, and never past the last token.
-/

namespace MiniC

/-- The tokens not read yet, how many were read, and the mark that stands behind the last. -/
structure TokenStream where
  ahead : List Token
  position : Nat
  mark : Token
deriving Repr

namespace TokenStream

/-- A stream at the first of `tokens`. -/
def ofTokens (tokens : List Token) : TokenStream where
  ahead := tokens
  position := 0
  mark := .endOfFile ((tokens.getLast?.map Token.location).getD .start)

/-- The token `k` places ahead.  The current token is one place ahead; so is the token at no
distance. -/
def peek (stream : TokenStream) (k : Nat) : Token :=
  stream.ahead[k - 1]?.getD stream.mark

/-- The token under the cursor. -/
def current (stream : TokenStream) : Token := stream.peek 1

/-- Whether the cursor is at an end-of-file mark. -/
def atEnd (stream : TokenStream) : Bool := stream.current.isEof

/-- The token under the cursor, and the stream behind it. -/
def advance (stream : TokenStream) : Token × TokenStream :=
  match stream.ahead with
  | [] => (stream.mark, stream)
  | token :: rest => (token, { stream with ahead := rest, position := stream.position + 1 })

/-- Advancing yields the current token. -/
theorem advance_fst (stream : TokenStream) : stream.advance.1 = stream.current := by
  unfold advance current peek
  split <;> simp_all

/-- The tokens up to the first end-of-file mark: all that an analysis reads. -/
def body (stream : TokenStream) : List Token :=
  stream.ahead.takeWhile (!·.isEof)

/-- The end-of-file mark that a reader of the stream meets first. -/
def stop (stream : TokenStream) : Token :=
  (stream.ahead.find? Token.isEof).getD stream.mark

end TokenStream

end MiniC
