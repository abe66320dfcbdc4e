import MiniC.Token.Kind

/-!
# `MiniC.Token.Spelling` — recognising words and symbols

## Contents
- `Kind.ofWord`: the kind of a word, a keyword or an identifier.
- `Kind.longestSymbol?`: the longest operator or punctuation mark that a text begins with, with
  `longestSymbol?_length_le`: no text behind the first three characters matters.
-/

namespace MiniC

/-- The keyword spelled `word`. -/
def Keyword.ofSpelling? (word : String) : Option Keyword :=
  Keyword.all.find? (·.spelling == word)

namespace Kind

/-- The kind of a word: a keyword if it is reserved, else an identifier. -/
def ofWord (word : String) : Kind :=
  match Keyword.ofSpelling? word with
  | some reserved => keyword reserved
  | none => ident

/-- The characters of an operator or punctuation mark, none for the other kinds. -/
def symbolText : Kind → List Char
  | operator sign => sign.spelling.toList
  | punct mark => mark.spelling.toList
  | _ => []

/-- The longest operator or punctuation mark that `text` begins with, and its length.  The table
lists longer spellings first, so its first entry that fits is the longest. -/
def longestSymbol? (text : List Char) : Option (Kind × Nat) :=
  (symbols.find? fun kind => kind.symbolText.isPrefixOf text).map
    fun kind => (kind, kind.symbolText.length)

/-- The symbol found stands at the beginning of the text. -/
theorem longestSymbol?_prefix {text : List Char} {kind : Kind} {n : Nat}
    (h : longestSymbol? text = some (kind, n)) :
    kind.symbolText <+: text ∧ n = kind.symbolText.length := by
  simp only [longestSymbol?, Option.map_eq_some_iff, Prod.mk.injEq] at h
  obtain ⟨found, hfind, rfl, rfl⟩ := h
  have hfits : found.symbolText.isPrefixOf text := by simpa using List.find?_some hfind
  exact ⟨List.isPrefixOf_iff_prefix.1 hfits, rfl⟩

/-- A symbol is not longer than the text that it was found in. -/
theorem longestSymbol?_length_le {text : List Char} {kind : Kind} {n : Nat}
    (h : longestSymbol? text = some (kind, n)) : n ≤ text.length := by
  obtain ⟨hbegins, rfl⟩ := longestSymbol?_prefix h
  exact hbegins.length_le

end Kind

end MiniC
