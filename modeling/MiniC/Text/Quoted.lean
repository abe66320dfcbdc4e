/-!
# `MiniC.Text.Quoted` — text in double quotes

A quote and a backslash are written behind a backslash, the usual control characters by a letter,
and every other ASCII control character by its code point in braces.
-/

namespace MiniC.Text

/-- A hexadecimal digit. -/
def hexDigit (n : Nat) : Char := Nat.digitChar (n % 16)

/-- How a character stands between double quotes. -/
def quoteChar (c : Char) : List Char :=
  match c with
  | '"' => ['\\', '"']
  | '\\' => ['\\', '\\']
  | '\n' => ['\\', 'n']
  | '\r' => ['\\', 'r']
  | '\t' => ['\\', 't']
  | '\x00' => ['\\', '0']
  | _ =>
    if c.toNat < 0x10 then ['\\', 'u', '\x7b', hexDigit c.toNat, '\x7d']
    else if c.toNat < 0x20 || c.toNat = 0x7F then
      ['\\', 'u', '\x7b', hexDigit (c.toNat / 16), hexDigit c.toNat, '\x7d']
    else [c]

/-- `text` between double quotes. -/
def quote (text : String) : String :=
  "\"" ++ String.ofList (text.toList.flatMap quoteChar) ++ "\""

end MiniC.Text
