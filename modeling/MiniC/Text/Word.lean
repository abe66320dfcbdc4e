import MiniC.Text.Letter
import MiniC.Text.Numeral

/-!
# `MiniC.Text.Word` — the characters of identifiers and keywords
-/

namespace MiniC.Text

/-- Whether a word may begin with `c`: a letter or an underscore. -/
def startsWord (c : Char) : Bool := isLetter c || c == '_'

/-- Whether a word may go on with `c`: a letter, a numeral or an underscore. -/
def inWord (c : Char) : Bool := isLetter c || isNumeral c || c == '_'

/-- What may begin a word may also stand inside one. -/
theorem inWord_of_startsWord {c : Char} (h : startsWord c) : inWord c := by
  simp only [startsWord, Bool.or_eq_true] at h
  rcases h with h | h <;> simp [inWord, h]

end MiniC.Text
