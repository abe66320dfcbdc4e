import MiniC.Location
import MiniC.Token.Kind

/-!
# `MiniC.Token.Basic` — tokens

A token is a kind, the text it was written with and the place where it begins.  Lexeme and kind
of a token that was not read from a text need not agree.
-/

namespace MiniC

/-- A classified piece of source text. -/
structure Token where
  kind : Kind
  lexeme : String
  location : Location
deriving DecidableEq, Repr, Inhabited

namespace Token

/-- The mark behind the last token. -/
def endOfFile (location : Location) : Token := ⟨.eof, "", location⟩

/-- Whether the token marks the end of the input. -/
def isEof (token : Token) : Bool := token.kind == .eof

/-- The token in a message. -/
def describe (token : Token) : String :=
  match token.kind with
  | .ident => s!"identifier '{token.lexeme}'"
  | .literal class_ => s!"{(Kind.literal class_).describe} {token.lexeme}"
  | .directive => s!"directive '{token.lexeme}'"
  | .eof => "end of file"
  | .keyword _ | .operator _ | .punct _ => s!"'{token.lexeme}'"

end Token

end MiniC
