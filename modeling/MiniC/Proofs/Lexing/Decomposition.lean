import MiniC.Proofs.Lexing.Pieces
import MiniC.Source.Tokens

/-!
# `MiniC.Proofs.Lexing.Decomposition` — a source text is its pieces, and its tokens are theirs

A source text is cut into pieces in one way only, and everything that is read from it is read off
these pieces: the tokens are the pieces that are tokens, each with the place where its piece
begins, and the diagnostics are the pieces with a fault.  The place of a piece is told by the text
in front of it: the line feeds there, and the characters behind the last of them.

## Contents
- `cut_iff`: **a text is cut into its segments and in no other way**.
- `Location.behind`: the place behind a text, with `advance_start`.
- `Location.Before`: the order of places, with `pairwise_placed`.
- `Kind.Written.unique`: a text is written as a token of one kind at most.
- `ReadOff`: what is read off pieces, told piece by piece.
- `tokenize_decomposes`: **what is read from a source text is read off its pieces**.
- `fits_of_mem_tokens`: a token in front of all that is behind it.
-/

namespace MiniC

/-! ## Cutting a text -/

section

variable {pieces : List Segment} {text : List Char}

theorem Verdict.Fits.text_ne_nil {verdict : Verdict} {rest : List Char}
    (h : verdict.Fits text rest) : text ≠ [] := by
  cases h with
  | token hwritten _ =>
      cases hwritten with
      | keyword word =>
          have htable : ∀ word ∈ Keyword.all, word.spelling.toList ≠ [] := by decide +kernel
          exact htable word (mem_allKeywords word)
      | operator sign => cases sign <;> decide
      | punct mark => cases mark <;> decide
      | int hsome _ => exact hsome
      | _ => simp
  | numberWithSuffix => simp
  | _ => simp

/-- A text begins with one piece only. -/
theorem Verdict.Fits.unique {verdict verdict' : Verdict} {text' rest rest' : List Char}
    (h : verdict.Fits text rest) (h' : verdict'.Fits text' rest')
    (hwhole : text ++ rest = text' ++ rest') : verdict = verdict' ∧ text = text' := by
  obtain ⟨c, taken, rfl⟩ := List.exists_cons_of_ne_nil h.text_ne_nil
  obtain ⟨c', taken', rfl⟩ := List.exists_cons_of_ne_nil h'.text_ne_nil
  obtain ⟨rfl, htail : taken ++ rest = taken' ++ rest'⟩ := List.cons.inj hwhole
  have hfound := Segment.scans_of_fits h
  rw [htail] at hfound
  have hfound' := Segment.scans_of_fits h'
  exact ⟨hfound.verdict.symm.trans hfound'.verdict,
    congrArg (c :: ·) (hfound.splits.taken.symm.trans hfound'.splits.taken)⟩

theorem cut_segments (text : List Char) : Cut (Segment.segments text) text := by
  induction text using Segment.segments.induct with
  | case1 =>
      rw [Segment.segments]
      exact .nil
  | case2 c cs next ih =>
      have hcut := Cut.cons (s := ⟨c :: next.2.taken, next.1⟩) (fits_piece c cs) ih
      rw [List.cons_append, next.2.whole] at hcut
      rwa [Segment.segments]

theorem Cut.eq_segments (h : Cut pieces text) : pieces = Segment.segments text := by
  induction h with
  | nil => rw [Segment.segments]
  | @cons piece pieces rest hfits _ ih =>
      obtain ⟨text, verdict⟩ := piece
      obtain ⟨c, taken, rfl⟩ := List.exists_cons_of_ne_nil hfits.text_ne_nil
      obtain ⟨hverdict, htaken, hrest⟩ := Segment.scans_of_fits hfits
      rw [List.cons_append, Segment.segments, htaken, hverdict, hrest, ← ih]

/-- **A text is cut into its segments and in no other way.** -/
theorem cut_iff : Cut pieces text ↔ pieces = Segment.segments text :=
  ⟨Cut.eq_segments, fun h => h ▸ cut_segments text⟩

theorem Cut.flatMap_text (h : Cut pieces text) : pieces.flatMap Segment.text = text := by
  rw [h.eq_segments]
  exact Segment.flatMap_segments text

theorem Cut.text_ne_nil (h : Cut pieces text) : ∀ piece ∈ pieces, piece.text ≠ [] := by
  intro piece hpiece
  rw [h.eq_segments] at hpiece
  exact Segment.text_ne_nil_of_mem_segments hpiece

theorem Cut.fits (h : Cut pieces text) :
    ∀ piece ∈ pieces, ∃ rest, piece.verdict.Fits piece.text rest := by
  induction h with
  | nil => simp
  | cons hfits _ ih =>
      intro piece hpiece
      rcases List.mem_cons.1 hpiece with rfl | hpiece
      · exact ⟨_, hfits⟩
      · exact ih piece hpiece

end

/-! ## Places -/

namespace Location

/-- The place behind a text: one line for each line feed, and one column for each character
behind the last of them. -/
def behind (text : List Char) : Location :=
  ⟨1 + text.count '\n', 1 + (text.reverse.takeWhile (· != '\n')).length⟩

theorem step_behind (text : List Char) (c : Char) :
    (behind text).step c = behind (text ++ [c]) := by
  by_cases hc : c = '\n'
  · subst hc
    simp [behind, step, Nat.add_assoc]
  · simp [behind, step, hc, Nat.add_comm]

theorem advance_behind (before text : List Char) :
    (behind before).advance text = behind (before ++ text) := by
  induction text generalizing before with
  | nil => rw [advance_nil, List.append_nil]
  | cons c text ih => rw [advance_cons, step_behind, ih, List.append_assoc, List.singleton_append]

/-- Walking over a text from the start leads to the place behind it. -/
theorem advance_start (text : List Char) : start.advance text = behind text :=
  advance_behind [] text

/-- Whether a place stands in front of another. -/
def Before (first second : Location) : Prop :=
  first.line < second.line ∨ first.line = second.line ∧ first.column < second.column

theorem Before.trans {first second third : Location} (h₁ : first.Before second)
    (h₂ : second.Before third) : first.Before third := by
  unfold Before at *
  omega

theorem before_step (place : Location) (c : Char) : place.Before (place.step c) := by
  unfold Before step
  split <;> simp

theorem before_advance (place : Location) {text : List Char} (h : text ≠ []) :
    place.Before (place.advance text) := by
  induction text generalizing place with
  | nil => exact absurd rfl h
  | cons c text ih =>
      cases text with
      | nil => exact before_step place c
      | cons d text => exact (before_step place c).trans (ih _ (List.cons_ne_nil d text))

end Location

namespace Segment

/-- The pieces of a text with the places where they begin, each behind the pieces in front of
it. -/
def located (pieces : List Segment) : List (Location × Segment) :=
  pieces.mapIdx fun i piece => (.behind ((pieces.take i).flatMap text), piece)

theorem placed_behind (before : List Char) (pieces : List Segment) :
    placed (.behind before) pieces =
      pieces.mapIdx fun i piece => (.behind (before ++ (pieces.take i).flatMap text), piece) := by
  induction pieces generalizing before with
  | nil => rfl
  | cons piece pieces ih =>
      rw [placed, Location.advance_behind, ih, List.mapIdx_cons]
      simp

theorem placed_start (pieces : List Segment) : placed .start pieces = located pieces :=
  placed_behind [] pieces

/-- Every piece begins behind the ones in front of it, and before the end. -/
theorem pairwise_placed {pieces : List Segment} (h : ∀ piece ∈ pieces, piece.text ≠ [])
    (place : Location) :
    (placed place pieces).Pairwise (·.1.Before ·.1) ∧
      (∀ spot ∈ placed place pieces, spot.1 = place ∨ place.Before spot.1) ∧
      ∀ spot ∈ placed place pieces, spot.1.Before (place.advance (pieces.flatMap text)) := by
  induction pieces generalizing place with
  | nil => simp [placed]
  | cons piece pieces ih =>
      have hpiece : place.Before (place.advance piece.text) :=
        place.before_advance (h piece List.mem_cons_self)
      obtain ⟨hpairs, hfirst, hlast⟩ :=
        ih (fun piece hmem => h piece (List.mem_cons_of_mem _ hmem)) (place.advance piece.text)
      have hbehind : ∀ spot ∈ placed (place.advance piece.text) pieces, place.Before spot.1 := by
        intro spot hspot
        rcases hfirst spot hspot with heq | hbefore
        · rw [heq]
          exact hpiece
        · exact hpiece.trans hbefore
      refine ⟨List.pairwise_cons.2 ⟨hbehind, hpairs⟩, ?_, ?_⟩
      · intro spot hspot
        rcases List.mem_cons.1 hspot with rfl | hspot
        · exact .inl rfl
        · exact .inr (hbehind spot hspot)
      · intro spot hspot
        rcases List.mem_cons.1 hspot with rfl | hspot
        · exact place.before_advance (by simp [h piece List.mem_cons_self])
        · rw [List.flatMap_cons, Location.advance_append]
          exact hlast spot hspot

end Segment

/-! ## The kind of a token -/

section

variable {kind kind' : Kind} {text rest : List Char}

/-- No symbol reaches beyond the end of a line. -/
theorem symbol_prefix_of_line (hkind : kind ∈ Kind.symbols)
    (hfront : kind.symbolText <+: text ++ '\n' :: rest) : kind.symbolText <+: text := by
  have hline : ∀ kind ∈ Kind.symbols, '\n' ∉ kind.symbolText := by decide +kernel
  rcases List.prefix_or_prefix_of_prefix hfront (List.prefix_append text ('\n' :: rest)) with
    hshort | ⟨behind, heq⟩
  · exact hshort
  · rw [← heq, List.prefix_append_right_inj] at hfront
    cases behind with
    | nil =>
        have hsame : kind.symbolText = text := heq.symm.trans (List.append_nil text)
        exact hsame ▸ List.prefix_refl _
    | cons c behind =>
        obtain rfl : c = '\n' := (List.cons_prefix_cons.1 hfront).1
        exact absurd (heq ▸ by simp) (hline kind hkind)

/-- At the end of a line every token ends. -/
theorem Kind.Written.endsBefore (h : kind.Written text) (hrest : AtLineEnd rest) :
    kind.EndsBefore text rest := by
  have hlongest : LongestSymbol text rest := by
    intro kind hkind hprefix
    cases rest with
    | nil =>
        rw [List.append_nil] at hprefix
        exact hprefix.length_le
    | cons c rest =>
        rw [atLineEnd_cons.1 hrest] at hprefix
        exact (symbol_prefix_of_line hkind hprefix).length_le
  cases h with
  | keyword => exact hrest.stops (by decide)
  | ident => exact hrest.stops (by decide)
  | int => exact hrest.stops (by decide)
  | float => exact hrest.stops (by decide)
  | string => exact trivial
  | char => exact trivial
  | operator => exact ⟨hlongest, fun _ => hrest.stops (by decide)⟩
  | punct => exact hlongest

/-- A text is written as a token of one kind at most. -/
theorem Kind.Written.unique (h : kind.Written text) (h' : kind'.Written text) : kind = kind' := by
  have hfits : ∀ {kind : Kind}, kind.Written text →
      (Verdict.token kind (.ofList text)).Fits text [] :=
    fun hwritten => .token hwritten (hwritten.endsBefore stops_nil)
  exact (Verdict.token.inj ((hfits h).unique (hfits h') rfl).1).1

/-- The lexeme of a token is its text, and the text tells its kind, unless it is a directive. -/
theorem Verdict.Fits.lexeme {lexeme : String} (h : (Verdict.token kind lexeme).Fits text rest)
    (hkind : kind ≠ .directive) :
    lexeme.toList = text ∧ ∀ other : Kind, other.Written text ↔ other = kind := by
  cases h with
  | token hwritten _ =>
      refine ⟨String.toList_ofList, fun other => ⟨fun hother => hother.unique hwritten, ?_⟩⟩
      rintro rfl
      exact hwritten
  | closedDirective => exact absurd rfl hkind
  | lineDirective => exact absurd rfl hkind

end

/-! ## What is read from a source text -/

/-- What is read off pieces, the first of which begins behind the text `before`: the tokens with
their kinds, lexemes and places, and the diagnostics. -/
inductive ReadOff : List Char → List Segment → List Token → List Diagnostic → Prop
  /-- Behind all pieces there is the mark of the end. -/
  | nil {before : List Char} : ReadOff before [] [⟨.eof, "", .behind before⟩] []
  /-- White space and comments are skipped. -/
  | blank {before text : List Char} {pieces : List Segment} {tokens : List Token}
      {diagnostics : List Diagnostic} :
      ReadOff (before ++ text) pieces tokens diagnostics →
      ReadOff before (⟨text, .blank⟩ :: pieces) tokens diagnostics
  /-- A token stands where its piece begins. -/
  | token {before text : List Char} {kind : Kind} {lexeme : String} {pieces : List Segment}
      {tokens : List Token} {diagnostics : List Diagnostic} :
      ReadOff (before ++ text) pieces tokens diagnostics →
      ReadOff before (⟨text, .token kind lexeme⟩ :: pieces)
        (⟨kind, lexeme, .behind before⟩ :: tokens) diagnostics
  /-- A directive that is not closed is a token, and there is a diagnostic at the same place. -/
  | openDirective {before text : List Char} {lexeme : String} {close : Char}
      {pieces : List Segment} {tokens : List Token} {diagnostics : List Diagnostic} :
      ReadOff (before ++ text) pieces tokens diagnostics →
      ReadOff before (⟨text, .openDirective lexeme close⟩ :: pieces)
        (⟨.directive, lexeme, .behind before⟩ :: tokens)
        (⟨.lexical, s!"Unterminated directive '{lexeme}': expected '{close}'", .behind before⟩ ::
          diagnostics)
  /-- A malformed piece is no token, and there is a diagnostic where it begins. -/
  | malformed {before text : List Char} {fault : LexicalFault} {pieces : List Segment}
      {tokens : List Token} {diagnostics : List Diagnostic} :
      ReadOff (before ++ text) pieces tokens diagnostics →
      ReadOff before (⟨text, .malformed fault⟩ :: pieces) tokens
        (⟨.lexical, fault.message, .behind before⟩ :: diagnostics)

/-- The pieces are those of the source text, and what is read from it is read off them. -/
structure Decomposes (source : String) (pieces : List Segment) : Prop where
  /-- The pieces make up the source text. -/
  whole : pieces.flatMap Segment.text = source.toList
  /-- No piece is empty. -/
  nonempty : ∀ piece ∈ pieces, piece.text ≠ []
  /-- Every piece has its shape in front of those behind it, and the source text is cut into
  pieces with their shapes in no other way. -/
  cut : ∀ others, Cut others source.toList ↔ others = pieces
  /-- The tokens are the pieces that are tokens, in order, and one mark at the end; the diagnostics
  are the malformed pieces and the unterminated directives, in order. -/
  readOff : ReadOff [] pieces (tokenize source).tokens (tokenize source).diagnostics
  /-- The lexeme of a token is its text, and its kind is the only one that is written so, unless
  it is a directive. -/
  lexemes : ∀ piece ∈ pieces, ∀ kind lexeme, piece.verdict = .token kind lexeme →
    kind ≠ .directive →
      lexeme.toList = piece.text ∧ ∀ other : Kind, other.Written piece.text ↔ other = kind
  /-- Every token begins behind the one in front of it. -/
  increasing : (tokenize source).tokens.Pairwise (·.location.Before ·.location)
  /-- Every token but the last stands for a character. -/
  bounded : (tokenize source).tokens.length ≤ source.length + 1
  /-- Without a diagnostic every piece is white space, a comment or a token. -/
  clean : (tokenize source).diagnostics = [] ↔
    ∀ piece ∈ pieces, piece.verdict = .blank ∨ ∃ kind lexeme, piece.verdict = .token kind lexeme

section

variable {source : String} {pieces : List Segment}

theorem tokens_of_cut (h : Cut pieces source.toList) :
    (tokenize source).tokens =
      (Segment.located pieces).filterMap Segment.token? ++
        [.endOfFile (.behind source.toList)] := by
  rw [h.eq_segments, ← Segment.placed_start, ← Location.advance_start]
  rfl

theorem diagnostics_of_cut (h : Cut pieces source.toList) :
    (tokenize source).diagnostics =
      (Segment.located pieces).filterMap Segment.diagnostic? := by
  rw [h.eq_segments, ← Segment.placed_start]
  rfl

/-- Pieces are read off as they are placed. -/
theorem readOff_placed (before : List Char) (pieces : List Segment) :
    ReadOff before pieces
      ((Segment.placed (.behind before) pieces).filterMap Segment.token? ++
        [.endOfFile (.behind (before ++ pieces.flatMap Segment.text))])
      ((Segment.placed (.behind before) pieces).filterMap Segment.diagnostic?) := by
  induction pieces generalizing before with
  | nil =>
      rw [List.flatMap_nil, List.append_nil]
      exact .nil
  | cons piece pieces ih =>
      have hbehind := ih (before ++ piece.text)
      rw [List.append_assoc, ← Location.advance_behind] at hbehind
      obtain ⟨text, verdict⟩ := piece
      cases verdict with
      | blank => exact .blank hbehind
      | token kind lexeme => exact .token hbehind
      | openDirective lexeme close => exact .openDirective hbehind
      | malformed fault => exact .malformed hbehind

theorem readOff_of_cut (h : Cut pieces source.toList) :
    ReadOff [] pieces (tokenize source).tokens (tokenize source).diagnostics := by
  have hplaced := readOff_placed [] pieces
  rw [List.nil_append, h.flatMap_text] at hplaced
  rw [tokens_of_cut h, diagnostics_of_cut h, ← Segment.placed_start]
  exact hplaced

theorem location_of_token? {spot : Location × Segment} {token : Token}
    (h : Segment.token? spot = some token) : token.location = spot.1 := by
  obtain ⟨_, _, rfl⟩ := Option.map_eq_some_iff.1 h
  rfl

theorem increasing_of_cut (h : Cut pieces source.toList) :
    (tokenize source).tokens.Pairwise (·.location.Before ·.location) := by
  obtain ⟨hpairs, _, hlast⟩ := Segment.pairwise_placed h.text_ne_nil .start
  rw [Segment.placed_start] at hpairs hlast
  rw [h.flatMap_text, Location.advance_start] at hlast
  rw [tokens_of_cut h, List.pairwise_append]
  refine ⟨?_, List.pairwise_singleton _ _, ?_⟩
  · rw [List.pairwise_filterMap]
    refine hpairs.imp ?_
    intro first second hbefore token htoken token' htoken'
    rw [location_of_token? htoken, location_of_token? htoken']
    exact hbefore
  · intro token htoken mark hmark
    obtain ⟨spot, hspot, htoken⟩ := List.mem_filterMap.1 htoken
    rw [location_of_token? htoken, List.mem_singleton.1 hmark]
    exact hlast spot hspot

theorem length_le_length_flatMap (h : ∀ piece ∈ pieces, piece.text ≠ []) :
    pieces.length ≤ (pieces.flatMap Segment.text).length := by
  induction pieces with
  | nil => exact Nat.le_refl 0
  | cons piece pieces ih =>
      have hpiece : 0 < piece.text.length :=
        List.length_pos_iff.2 (h piece List.mem_cons_self)
      have hpieces := ih fun piece hmem => h piece (List.mem_cons_of_mem _ hmem)
      rw [List.flatMap_cons, List.length_append, List.length_cons]
      omega

theorem length_tokens_of_cut (h : Cut pieces source.toList) :
    (tokenize source).tokens.length ≤ source.length + 1 := by
  have hlength := length_le_length_flatMap h.text_ne_nil
  have hfilter := List.length_filterMap_le Segment.token? (Segment.located pieces)
  rw [h.flatMap_text, String.length_toList] at hlength
  rw [Segment.located, List.length_mapIdx] at hfilter
  rw [tokens_of_cut h, List.length_append, List.length_singleton, Segment.located]
  omega

theorem fault?_eq_none {verdict : Verdict} :
    verdict.fault? = none ↔ verdict = .blank ∨ ∃ kind lexeme, verdict = .token kind lexeme := by
  cases verdict <;> simp [Verdict.fault?]

theorem diagnostics_eq_nil_of_cut (h : Cut pieces source.toList) :
    (tokenize source).diagnostics = [] ↔
      ∀ piece ∈ pieces,
        piece.verdict = .blank ∨ ∃ kind lexeme, piece.verdict = .token kind lexeme := by
  rw [diagnostics_of_cut h, List.filterMap_eq_nil_iff]
  simp only [Segment.located, List.mem_mapIdx, Segment.diagnostic?, Option.map_eq_none_iff]
  constructor
  · intro hnone piece hpiece
    obtain ⟨i, hi, rfl⟩ := List.getElem_of_mem hpiece
    exact fault?_eq_none.1 (hnone _ ⟨i, hi, rfl⟩)
  · rintro hclean _ ⟨i, hi, rfl⟩
    exact fault?_eq_none.2 (hclean _ (List.getElem_mem hi))

/-- **What is read from a source text is read off its pieces.** -/
theorem tokenize_decomposes (source : String) : ∃ pieces, Decomposes source pieces := by
  have hcut := cut_segments source.toList
  refine ⟨Segment.segments source.toList, ?_⟩
  constructor
  case whole => exact hcut.flatMap_text
  case nonempty => exact hcut.text_ne_nil
  case cut => exact fun others => cut_iff
  case readOff => exact readOff_of_cut hcut
  case lexemes =>
    intro piece hpiece kind lexeme hverdict hkind
    obtain ⟨rest, hfits⟩ := hcut.fits piece hpiece
    rw [hverdict] at hfits
    exact hfits.lexeme hkind
  case increasing => exact increasing_of_cut hcut
  case bounded => exact length_tokens_of_cut hcut
  case clean => exact diagnostics_eq_nil_of_cut hcut

end

/-! ## Tokens at their places -/

section

variable {text : List Char} {pieces : List Segment} {piece : Segment}

/-- Every piece of a text has its shape in front of all that is behind it. -/
theorem Cut.of_getElem (h : Cut pieces text) {i : Nat} (hi : i < pieces.length) :
    ∃ rest, text = (pieces.take i).flatMap Segment.text ++ (pieces[i].text ++ rest) ∧
      pieces[i].verdict.Fits pieces[i].text rest := by
  induction h generalizing i with
  | nil => exact absurd hi (Nat.not_lt_zero i)
  | @cons first pieces behind hfits _ ih =>
      cases i with
      | zero => exact ⟨behind, rfl, hfits⟩
      | succ i =>
          obtain ⟨rest, rfl, hpiece⟩ := ih (Nat.lt_of_succ_lt_succ hi)
          refine ⟨rest, ?_, hpiece⟩
          rw [List.take_succ_cons, List.flatMap_cons, List.append_assoc, List.getElem_cons_succ]

/-- The place of a piece is the one behind the text in front of it. -/
theorem Cut.of_located (h : Cut pieces text) {place : Location}
    (hspot : (place, piece) ∈ Segment.located pieces) :
    ∃ before rest, text = before ++ (piece.text ++ rest) ∧ place = .behind before ∧
      piece.verdict.Fits piece.text rest := by
  obtain ⟨i, hi, heq⟩ := List.mem_mapIdx.1 hspot
  obtain ⟨rfl, rfl⟩ := Prod.mk.inj heq
  obtain ⟨rest, hwhole, hfits⟩ := h.of_getElem hi
  exact ⟨_, rest, hwhole, rfl, hfits⟩

/-- The kind and the lexeme of a piece that is no directive are those of its verdict. -/
theorem Verdict.eq_token {verdict : Verdict} {kind : Kind} {lexeme : String}
    (h : verdict.token? = some (kind, lexeme)) (hkind : kind ≠ .directive) :
    verdict = .token kind lexeme := by
  cases verdict with
  | blank | malformed => cases h
  | token kind lexeme =>
      cases h
      rfl
  | openDirective =>
      cases h
      exact absurd rfl hkind

/-- A token of a source text, unless it is a directive, is written where it stands, and nothing
behind it belongs to it. -/
theorem fits_of_mem_tokens {source : String} {token : Token}
    (h : token ∈ (tokenize source).tokens) (hdirective : token.kind ≠ .directive)
    (heof : token.kind ≠ .eof) :
    ∃ before text rest, source.toList = before ++ (text ++ rest) ∧
      token.location = .behind before ∧ (Verdict.token token.kind token.lexeme).Fits text rest := by
  have hcut := cut_segments source.toList
  rw [tokens_of_cut hcut, List.mem_append, List.mem_singleton] at h
  rcases h with hspot | rfl
  · obtain ⟨⟨place, piece⟩, hmem, hread⟩ := List.mem_filterMap.1 hspot
    obtain ⟨before, rest, hwhole, rfl, hfits⟩ := hcut.of_located hmem
    obtain ⟨⟨kind, lexeme⟩, hverdict, rfl⟩ := Option.map_eq_some_iff.1 hread
    rw [Verdict.eq_token hverdict hdirective] at hfits
    exact ⟨before, piece.text, rest, hwhole, rfl, hfits⟩
  · exact absurd rfl heof

end

end MiniC
