import Mathlib.Data.List.Basic
import MiniC.Proofs.Lexing.Decomposition
import MiniC.Proofs.Messages

/-!
# `MiniC.Proofs.Lexing.Munch` — the longest symbol is cut

`Kind.longestSymbol?` goes through one list of all symbols, which happens to name longer spellings
first, and looks at the whole text.  Here is the table a scanner would keep: the symbols in buckets
by their leading characters, filled in any order and sorted by length once the last symbol is in,
and asked for no more than the next three characters.  Both find the longest symbol that the text
begins with, so they find the same one, and it is what stands in the tokens of a source text.

## Contents
- `Kind.IsLongest`: a symbol that a text begins with, and none longer; it is the only one.
- `SymbolTable`, `SymbolTable.ofKinds`, `SymbolTable.match?`: the table of buckets, with
  `match?_eq_some` and `match?_eq_none`.
- `Segment.symbolIn`: the scanner of symbols that looks at a window of three characters.
- `maximal_munch`: **the table finds the longest symbol, and the scanner cuts it.**
-/

namespace MiniC

/-! ## Longest symbols -/

namespace Kind

variable {kind other : Kind} {text : List Char}

/-- The text begins with the symbol, and with no longer one. -/
structure IsLongest (kind : Kind) (text : List Char) : Prop where
  listed : kind ∈ symbols
  front : kind.symbolText <+: text
  longest : ∀ other ∈ symbols, other.symbolText <+: text →
    other.symbolText.length ≤ kind.symbolText.length

/-- No two symbols are spelled alike. -/
theorem eq_of_symbolText_eq (hkind : kind ∈ symbols) (hother : other ∈ symbols)
    (h : kind.symbolText = other.symbolText) : kind = other := by
  have hdistinct : ∀ first ∈ symbols, ∀ second ∈ symbols,
      first.symbolText = second.symbolText → first = second := by
    decide +kernel
  exact hdistinct kind hkind other hother h

/-- A text begins with one longest symbol at most. -/
theorem IsLongest.unique (h : kind.IsLongest text) (h' : other.IsLongest text) : kind = other := by
  have hle := h'.longest kind h.listed h.front
  have hge := h.longest other h'.listed h'.front
  have hfront := List.prefix_of_prefix_length_le h.front h'.front hle
  exact eq_of_symbolText_eq h.listed h'.listed (hfront.eq_of_length (by omega))

theorem symbolText_ne_nil (h : kind ∈ symbols) : kind.symbolText ≠ [] := by
  have hall : ∀ kind ∈ symbols, kind.symbolText ≠ [] := by decide +kernel
  exact hall kind h

/-- No symbol is longer than three characters. -/
theorem length_symbolText_le (h : kind ∈ symbols) : kind.symbolText.length ≤ 3 := by
  have hall : ∀ kind ∈ symbols, kind.symbolText.length ≤ 3 := by decide +kernel
  exact hall kind h

/-- Three characters decide whether a symbol stands in front. -/
theorem prefix_take_iff (h : kind ∈ symbols) :
    kind.symbolText <+: text.take 3 ↔ kind.symbolText <+: text := by
  rw [List.prefix_take_iff, and_iff_left (length_symbolText_le h)]

theorem isLongest_take_iff : kind.IsLongest (text.take 3) ↔ kind.IsLongest text := by
  constructor
  · rintro ⟨hlisted, hfront, hlongest⟩
    refine ⟨hlisted, (prefix_take_iff hlisted).1 hfront, fun other hother hbegins => ?_⟩
    exact hlongest other hother ((prefix_take_iff hother).2 hbegins)
  · rintro ⟨hlisted, hfront, hlongest⟩
    refine ⟨hlisted, (prefix_take_iff hlisted).2 hfront, fun other hother hbegins => ?_⟩
    exact hlongest other hother ((prefix_take_iff hother).1 hbegins)

/-- The kinds of the classes that have symbols are symbols. -/
theorem mem_symbols_of_category
    (h : kind.category = .operator ∨ kind.category = .punctuation) : kind ∈ symbols := by
  cases kind with
  | operator sign => exact mem_symbols_operator sign
  | punct mark => exact mem_symbols_punct mark
  | literal | ident | directive | keyword | eof => simp [category] at h

/-- The first symbol that stands in front, in a list that names longer ones first, is the longest
of the list. -/
theorem longest_of_find? {entries : List Kind}
    (hsorted : entries.Pairwise fun first second =>
      second.symbolText.length ≤ first.symbolText.length)
    (hfound : (entries.find? fun kind => kind.symbolText.isPrefixOf text) = some kind)
    (hother : other ∈ entries) (hfront : other.symbolText <+: text) :
    other.symbolText.length ≤ kind.symbolText.length := by
  obtain ⟨-, before, behind, rfl, hbefore⟩ := List.find?_eq_some_iff_append.1 hfound
  rw [List.pairwise_append, List.pairwise_cons] at hsorted
  rw [List.mem_append, List.mem_cons] at hother
  rcases hother with hmem | rfl | hmem
  · -- what stands in front of the first hit is no hit
    have hnot := hbefore other hmem
    rw [List.isPrefixOf_iff_prefix.2 hfront] at hnot
    exact absurd hnot (by decide)
  · exact Nat.le_refl _
  · exact hsorted.2.1.1 other hmem

end Kind

/-! ## The table of buckets -/

/-- A table of symbols: under each character those that begin with it. -/
structure SymbolTable where
  bucket : Char → List Kind

namespace SymbolTable

variable {kinds : List Kind} {kind : Kind} {text : List Char} {n : Nat}

/-- The table without symbols. -/
def empty : SymbolTable := ⟨fun _ => []⟩

/-- Put a symbol into the bucket of its leading character, behind those that are there. -/
def push (table : SymbolTable) (kind : Kind) : SymbolTable :=
  match kind.symbolText with
  | [] => table
  | lead :: _ => ⟨fun c => if c = lead then table.bucket c ++ [kind] else table.bucket c⟩

/-- Sort every bucket, the longer symbols first. -/
def sorted (table : SymbolTable) : SymbolTable :=
  ⟨fun c => (table.bucket c).mergeSort fun first second =>
    decide (second.symbolText.length ≤ first.symbolText.length)⟩

/-- The table of a list of symbols. -/
def ofKinds (kinds : List Kind) : SymbolTable := (kinds.foldl push empty).sorted

/-- The first symbol in the bucket of the leading character that the text begins with, and its
length. -/
def match? (table : SymbolTable) (text : List Char) : Option (Kind × Nat) :=
  match text with
  | [] => none
  | lead :: _ =>
    ((table.bucket lead).find? fun kind => kind.symbolText.isPrefixOf text).map
      fun kind => (kind, kind.symbolText.length)

theorem mem_push {table : SymbolTable} {added : Kind} {c : Char} :
    kind ∈ (table.push added).bucket c ↔
      kind ∈ table.bucket c ∨ kind = added ∧ added.symbolText.head? = some c := by
  unfold push
  cases added.symbolText with
  | nil => simp
  | cons lead _ =>
      by_cases hc : c = lead
      · simp [hc]
      · simp [hc, Ne.symm hc]

theorem mem_foldl_push {table : SymbolTable} {c : Char} :
    kind ∈ (kinds.foldl push table).bucket c ↔
      kind ∈ table.bucket c ∨ kind ∈ kinds ∧ kind.symbolText.head? = some c := by
  induction kinds generalizing table with
  | nil => simp
  | cons first kinds ih =>
      rw [List.foldl_cons, ih, mem_push, List.mem_cons, or_assoc, or_and_right]
      refine or_congr_right (or_congr_left ⟨?_, ?_⟩)
      · rintro ⟨rfl, hhead⟩
        exact ⟨rfl, hhead⟩
      · rintro ⟨rfl, hhead⟩
        exact ⟨rfl, hhead⟩

/-- The symbols in a bucket are those that begin with its character. -/
theorem mem_bucket {c : Char} :
    kind ∈ (ofKinds kinds).bucket c ↔ kind ∈ kinds ∧ kind.symbolText.head? = some c := by
  unfold ofKinds sorted
  rw [List.mem_mergeSort, mem_foldl_push]
  simp [empty]

/-- The buckets name longer symbols first. -/
theorem pairwise_bucket (kinds : List Kind) (c : Char) :
    ((ofKinds kinds).bucket c).Pairwise fun first second =>
      second.symbolText.length ≤ first.symbolText.length := by
  have htrans : ∀ first second third : Kind,
      decide (second.symbolText.length ≤ first.symbolText.length) = true →
      decide (third.symbolText.length ≤ second.symbolText.length) = true →
      decide (third.symbolText.length ≤ first.symbolText.length) = true := by
    intro first second third hsecond hthird
    rw [decide_eq_true_iff] at *
    exact Nat.le_trans hthird hsecond
  have htotal : ∀ first second : Kind,
      (decide (second.symbolText.length ≤ first.symbolText.length) ||
        decide (first.symbolText.length ≤ second.symbolText.length)) = true := by
    intro first second
    rw [Bool.or_eq_true, decide_eq_true_iff, decide_eq_true_iff]
    exact Nat.le_total _ _
  exact (List.pairwise_mergeSort htrans htotal _).imp of_decide_eq_true

/-- A symbol in front of a text lies in the bucket of the leading character. -/
theorem mem_bucket_of_prefix {lead : Char} {rest : List Char} (hkind : kind ∈ kinds)
    (hne : kind.symbolText ≠ []) (hfront : kind.symbolText <+: lead :: rest) :
    kind ∈ (ofKinds kinds).bucket lead := by
  refine mem_bucket.2 ⟨hkind, ?_⟩
  obtain ⟨c, cs, htext⟩ := List.exists_cons_of_ne_nil hne
  rw [htext, List.cons_prefix_cons] at hfront
  rw [htext, List.head?_cons, hfront.1]

section

variable (hperm : kinds.Perm Kind.symbols)

include hperm

/-- The table finds nothing just if no symbol stands in front. -/
theorem match?_eq_none :
    (ofKinds kinds).match? text = none ↔ ∀ kind ∈ Kind.symbols, ¬kind.symbolText <+: text := by
  cases text with
  | nil =>
      refine iff_of_true rfl fun kind hkind hfront => ?_
      exact Kind.symbolText_ne_nil hkind (List.prefix_nil.1 hfront)
  | cons lead rest =>
      rw [match?, Option.map_eq_none_iff, List.find?_eq_none]
      constructor
      · intro hnone kind hkind hfront
        refine hnone kind ?_ (List.isPrefixOf_iff_prefix.2 hfront)
        exact mem_bucket_of_prefix (hperm.mem_iff.2 hkind) (Kind.symbolText_ne_nil hkind) hfront
      · intro hnone kind hkind hfront
        exact hnone kind (hperm.mem_iff.1 (mem_bucket.1 hkind).1)
          (List.isPrefixOf_iff_prefix.1 hfront)

theorem isLongest_of_match? (h : (ofKinds kinds).match? text = some (kind, n)) :
    kind.IsLongest text ∧ n = kind.symbolText.length := by
  cases text with
  | nil => cases h
  | cons lead rest =>
      rw [match?, Option.map_eq_some_iff] at h
      obtain ⟨found, hfound, heq⟩ := h
      obtain ⟨rfl, rfl⟩ := Prod.mk.inj heq
      have hfits : found.symbolText.isPrefixOf (lead :: rest) = true := by
        simpa using List.find?_some hfound
      have hmem := (mem_bucket.1 (List.mem_of_find?_eq_some hfound)).1
      refine ⟨⟨hperm.mem_iff.1 hmem, List.isPrefixOf_iff_prefix.1 hfits, ?_⟩, rfl⟩
      intro other hother hfront
      refine Kind.longest_of_find? (pairwise_bucket kinds lead) hfound ?_ hfront
      exact mem_bucket_of_prefix (hperm.mem_iff.2 hother) (Kind.symbolText_ne_nil hother) hfront

/-- The table finds the longest symbol that stands in front. -/
theorem match?_eq_some :
    (ofKinds kinds).match? text = some (kind, n) ↔
      kind.IsLongest text ∧ n = kind.symbolText.length := by
  refine ⟨isLongest_of_match? hperm, ?_⟩
  rintro ⟨hlongest, rfl⟩
  cases hfound : (ofKinds kinds).match? text with
  | none => exact absurd hlongest.front ((match?_eq_none hperm).1 hfound kind hlongest.listed)
  | some entry =>
      obtain ⟨hentry, hlength⟩ := isLongest_of_match? hperm hfound
      rw [hlongest.unique hentry, ← hlength]

/-- The table needs to look at three characters only. -/
theorem match?_take (text : List Char) :
    (ofKinds kinds).match? (text.take 3) = (ofKinds kinds).match? text := by
  cases hfound : (ofKinds kinds).match? text with
  | none =>
      rw [match?_eq_none hperm] at hfound ⊢
      intro kind hkind hfront
      exact hfound kind hkind ((Kind.prefix_take_iff hkind).1 hfront)
  | some entry =>
      rw [match?_eq_some hperm] at hfound ⊢
      exact ⟨Kind.isLongest_take_iff.2 hfound.1, hfound.2⟩

/-- The table and the list of all symbols give the same answers. -/
theorem match?_eq_longestSymbol? (text : List Char) :
    (ofKinds kinds).match? text = Kind.longestSymbol? text := by
  by_cases hsymbol : ∃ kind ∈ Kind.symbols, kind.symbolText <+: text
  · obtain ⟨kind, hkind, hfront⟩ := hsymbol
    obtain ⟨longest, hlisted, rest, rfl, hlongest⟩ := exists_longestSymbol hkind hfront
    rw [longestSymbol?_eq_some hlisted hlongest, match?_eq_some hperm]
    exact ⟨⟨hlisted, List.prefix_append _ _, hlongest⟩, rfl⟩
  · have hnone : ∀ kind ∈ Kind.symbols, ¬kind.symbolText <+: text :=
      fun kind hkind hfront => hsymbol ⟨kind, hkind, hfront⟩
    rw [(match?_eq_none hperm).2 hnone, eq_comm, Kind.longestSymbol?, Option.map_eq_none_iff,
      List.find?_eq_none]
    exact fun kind hkind hfront => hnone kind hkind (List.isPrefixOf_iff_prefix.1 hfront)

end

end SymbolTable

/-! ## The scanner -/

/-- The scanner of symbols that asks a table, and shows it the next three characters. -/
def Segment.symbolIn (table : SymbolTable) (c : Char) (cs : List Char) : Verdict × Span cs :=
  let window := (c :: cs).take 3
  match table.match? window with
  | some (kind, n) => (.token kind (.ofList (window.take n)), .take (n - 1) cs)
  | none => (.malformed (.unrecognized c), .nothing cs)

theorem Segment.symbolIn_eq {kinds : List Kind} (hperm : kinds.Perm Kind.symbols) (c : Char)
    (cs : List Char) : symbolIn (.ofKinds kinds) c cs = symbol c cs := by
  simp only [symbolIn, symbol, SymbolTable.match?_take hperm,
    ← SymbolTable.match?_eq_longestSymbol? hperm]
  cases hfound : (SymbolTable.ofKinds kinds).match? (c :: cs) with
  | none => rfl
  | some entry =>
      obtain ⟨hlongest, hlength⟩ := SymbolTable.isLongest_of_match? hperm hfound
      have hle : entry.2 ≤ 3 := hlength ▸ Kind.length_symbolText_le hlongest.listed
      simp only [List.take_take, Nat.min_eq_left hle]

/-- A token of the kind of a symbol is the longest symbol where it stands. -/
theorem Verdict.Fits.isLongest {kind : Kind} {lexeme : String} {text rest : List Char}
    (h : (Verdict.token kind lexeme).Fits text rest) (hkind : kind ∈ Kind.symbols) :
    kind.IsLongest (text ++ rest) ∧ lexeme.toList = kind.symbolText := by
  have hlongest : LongestSymbol kind.symbolText rest →
      kind.IsLongest (kind.symbolText ++ rest) :=
    fun hlongest => ⟨hkind, List.prefix_append _ _, hlongest⟩
  cases h with
  | token hwritten hends =>
      rw [String.toList_ofList]
      cases hwritten with
      | operator sign => exact ⟨hlongest hends.1, rfl⟩
      | punct mark => exact ⟨hlongest hends, rfl⟩
      | keyword | ident | int | float | string | char => simp [Kind.symbols] at hkind
  | closedDirective | lineDirective => exact absurd hkind (by decide +kernel)

/-! ## Messages -/

namespace LexicalFault

/-- The beginning of a message tells whether a character was not recognized. -/
theorem exists_unrecognized {fault : LexicalFault}
    (h : BeginsWith "Unr".toList fault.message) : ∃ c, fault = unrecognized c := by
  cases fault with
  | unrecognized c => exact ⟨c, rfl⟩
  | unterminatedDirective lexeme close =>
      have hfront : DepartsFrom "Unr".toList "Unterminated directive '" :=
        .of_front "Unt" (by decide +kernel)
      exact absurd h ((((hfront.append _).append _).append _).append _).not_beginsWith
  | noDigitAfterPoint lexeme =>
      have hfront : DepartsFrom "Unr".toList "Malformed float literal '" :=
        .of_front "M" (by decide +kernel)
      exact absurd h ((hfront.append _).append _).not_beginsWith
  | numberWithSuffix lexeme =>
      have hfront : DepartsFrom "Unr".toList "Invalid numeric literal '" :=
        .of_front "I" (by decide +kernel)
      exact absurd h ((hfront.append _).append _).not_beginsWith
  | unterminatedString =>
      exact absurd h (DepartsFrom.of_front "Unt" (by decide +kernel)).not_beginsWith
  | emptyCharacter =>
      exact absurd h (DepartsFrom.of_front "E" (by decide +kernel)).not_beginsWith
  | unterminatedCharacter =>
      exact absurd h (DepartsFrom.of_front "Unt" (by decide +kernel)).not_beginsWith

/-- A message that a character was not recognized names the character. -/
theorem eq_unrecognized {fault : LexicalFault} {c : Char}
    (h : fault.message = (unrecognized c).message) : fault = unrecognized c := by
  have hwords : BeginsWith "Unr".toList "Unrecognized character '" :=
    .of_isPrefixOf (by decide +kernel)
  have hfront : BeginsWith "Unr".toList (unrecognized c).message := (hwords.append _).append _
  obtain ⟨d, rfl⟩ := exists_unrecognized (h.symm ▸ hfront)
  have hname : String.singleton d = String.singleton c :=
    (String.append_right_inj _).1 ((String.append_left_inj _).1 h)
  have hchars := congrArg String.toList hname
  rw [String.toList_singleton, String.toList_singleton, List.singleton_inj] at hchars
  rw [hchars]

end LexicalFault

/-! ## Source texts -/

section

variable {source : String}

/-- A token of the kind of a symbol is the longest symbol in the source text from its place on. -/
theorem isLongest_of_mem_tokens {token : Token} (htoken : token ∈ (tokenize source).tokens)
    (hkind : token.kind ∈ Kind.symbols) :
    ∃ before rest, source.toList = before ++ rest ∧ token.location = .behind before ∧
      token.kind.IsLongest rest ∧ token.lexeme.toList = token.kind.symbolText := by
  have hplain : token.kind ≠ .directive ∧ token.kind ≠ .eof := by
    constructor <;> intro heq <;> rw [heq] at hkind <;> exact absurd hkind (by decide)
  obtain ⟨before, text, rest, hwhole, hplace, hfits⟩ :=
    fits_of_mem_tokens htoken hplain.1 hplain.2
  obtain ⟨hlongest, hlexeme⟩ := hfits.isLongest hkind
  exact ⟨before, text ++ rest, hwhole, hplace, hlongest, hlexeme⟩

/-- No symbol begins where a character is reported as unrecognized. -/
theorem noSymbol_of_unrecognized {d : Diagnostic} {c : Char}
    (hd : d ∈ (tokenize source).diagnostics)
    (hmessage : d.message = (LexicalFault.unrecognized c).message) :
    ∃ before rest, source.toList = before ++ c :: rest ∧ d.location = .behind before ∧
      ∀ kind ∈ Kind.symbols, ¬kind.symbolText <+: c :: rest := by
  have hcut := cut_segments source.toList
  rw [diagnostics_of_cut hcut] at hd
  obtain ⟨⟨place, piece⟩, hmem, hread⟩ := List.mem_filterMap.1 hd
  obtain ⟨before, rest, hwhole, rfl, hfits⟩ := hcut.of_located hmem
  obtain ⟨fault, hverdict, rfl⟩ := Option.map_eq_some_iff.1 hread
  obtain rfl := LexicalFault.eq_unrecognized hmessage
  obtain ⟨text, verdict⟩ := piece
  cases verdict with
  | blank | token | openDirective => cases hverdict
  | malformed fault =>
      cases hverdict
      change Verdict.Fits _ text rest at hfits
      cases hfits with
      | unrecognized _ _ _ _ hnone => exact ⟨before, rest, hwhole, rfl, hnone⟩

end

/-- A table finds longest symbols, and a scanner that asks it cuts the pieces of `Segment.symbol`,
which are what the tokens and diagnostics of a source text tell. -/
structure SymbolTable.MunchesMaximally (table : SymbolTable) : Prop where
  /-- What is found is the longest symbol that the text begins with, and its length. -/
  found : ∀ text kind n, table.match? text = some (kind, n) ↔
    kind.IsLongest text ∧ n = kind.symbolText.length
  /-- Nothing is found just if the text begins with no symbol. -/
  absent : ∀ text, table.match? text = none ↔
    ∀ kind ∈ Kind.symbols, ¬kind.symbolText <+: text
  /-- Three characters of the text decide. -/
  window : ∀ text, table.match? (text.take 3) = table.match? text
  /-- It makes no difference to the scanner. -/
  scanner : ∀ c cs, Segment.symbolIn table c cs = Segment.symbol c cs
  /-- An operator or a punctuation mark among the tokens is the longest symbol that the source
  text has from its place on, and the table finds it in the window there. -/
  tokens : ∀ source, ∀ token ∈ (tokenize source).tokens,
    token.kind.category = .operator ∨ token.kind.category = .punctuation →
      ∃ before rest, source.toList = before ++ rest ∧ token.location = .behind before ∧
        token.kind.IsLongest rest ∧ token.lexeme.toList = token.kind.symbolText ∧
          table.match? (rest.take 3) = some (token.kind, token.lexeme.length)
  /-- A character is reported as unrecognized only where the source text has no symbol. -/
  unrecognized : ∀ source, ∀ d ∈ (tokenize source).diagnostics, ∀ c,
    d.message = (LexicalFault.unrecognized c).message →
      ∃ before rest, source.toList = before ++ c :: rest ∧ d.location = .behind before ∧
        (∀ kind ∈ Kind.symbols, ¬kind.symbolText <+: c :: rest) ∧
          table.match? ((c :: rest).take 3) = none

/-- **The longest symbol is cut.**  A table that names every symbol, in whatever order it was
filled, finds the longest symbol that a text begins with, finds nothing only where there is none,
and needs to see no more than three characters of the text.  So each operator and punctuation mark
among the tokens of a source text is the longest symbol of all that follows, and a character is
unrecognized only where no symbol begins. -/
theorem maximal_munch {kinds : List Kind} (hperm : kinds.Perm Kind.symbols) :
    (SymbolTable.ofKinds kinds).MunchesMaximally := by
  constructor
  case found => exact fun text kind n => SymbolTable.match?_eq_some hperm
  case absent => exact fun text => SymbolTable.match?_eq_none hperm
  case window => exact SymbolTable.match?_take hperm
  case scanner => exact Segment.symbolIn_eq hperm
  case tokens =>
    intro source token htoken hcategory
    obtain ⟨before, rest, hwhole, hplace, hlongest, hlexeme⟩ :=
      isLongest_of_mem_tokens htoken (Kind.mem_symbols_of_category hcategory)
    refine ⟨before, rest, hwhole, hplace, hlongest, hlexeme, ?_⟩
    rw [SymbolTable.match?_take hperm, SymbolTable.match?_eq_some hperm, ← String.length_toList,
      hlexeme]
    exact ⟨hlongest, rfl⟩
  case unrecognized =>
    intro source d hd c hmessage
    obtain ⟨before, rest, hwhole, hplace, hnone⟩ := noSymbol_of_unrecognized hd hmessage
    refine ⟨before, rest, hwhole, hplace, hnone, ?_⟩
    rw [SymbolTable.match?_take hperm, SymbolTable.match?_eq_none hperm]
    exact hnone

/-- The table may be filled with the symbols in the opposite order. -/
theorem munches_of_reverse :
    Kind.symbols.reverse.Perm Kind.symbols ∧
      (SymbolTable.ofKinds Kind.symbols.reverse).MunchesMaximally :=
  ⟨List.reverse_perm _, maximal_munch (List.reverse_perm _)⟩

/-- `<<=` is one symbol, though `<` and `<<` begin it. -/
example : Kind.longestSymbol? ['<', '<', '=', '='] = some (.operator .shlAssign, 3) := by decide

end MiniC
