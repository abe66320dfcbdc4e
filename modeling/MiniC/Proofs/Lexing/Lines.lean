import MiniC.Proofs.Lexing.Decomposition
import Mathlib.Data.List.Infix

/-!
# `MiniC.Proofs.Lexing.Lines` — lines are read apart from each other

A piece that reaches the end of a line ends there just as it ends at the end of the text, so a
line feed behind a text changes none of its pieces.  Only a comment that is never closed goes on,
and where a text does not end in one, what is behind the line feed is read as a text of its own,
further down.

## Contents
- `Verdict.Fits.beforeLine`: **a piece is the same piece in front of another line**.
- `EndsInComment`: a text whose last piece is a comment that is never closed.
- `Location.below`, `Token.below`, `Diagnostic.below`: further down.
- `tokenize_lines`: **what is read from two texts on different lines is read from each alone**.
-/

namespace MiniC

/-! ## The end of a line -/

section

variable {p : Char → Bool} {kind : Kind} {text rest more : List Char} {verdict : Verdict}

theorem Stops.beforeLine (h : Stops p rest) (hp : p '\n' = false) :
    Stops p (rest ++ '\n' :: more) := by
  cases rest with
  | nil => exact stops_cons.2 hp
  | cons c rest => exact stops_cons.2 (stops_cons.1 h)

theorem AtLineEnd.beforeLine (h : AtLineEnd rest) : AtLineEnd (rest ++ '\n' :: more) :=
  Stops.beforeLine h (by decide)

theorem LongestSymbol.beforeLine (h : LongestSymbol text rest) :
    LongestSymbol text (rest ++ '\n' :: more) := by
  intro kind hkind hprefix
  rw [← List.append_assoc] at hprefix
  -- no symbol has a line feed in it, so a longer one would have stood in front of it already
  exact h kind hkind (symbol_prefix_of_line hkind hprefix)

theorem Kind.EndsBefore.beforeLine (h : kind.EndsBefore text rest) :
    kind.EndsBefore text (rest ++ '\n' :: more) := by
  cases kind with
  | keyword => exact Stops.beforeLine h (by decide)
  | ident => exact Stops.beforeLine h (by decide)
  | literal type =>
      cases type with
      | int => exact Stops.beforeLine h (by decide)
      | float => exact Stops.beforeLine h (by decide)
      | string => exact trivial
      | char => exact trivial
  | operator => exact ⟨h.1.beforeLine, fun htext => (h.2 htext).beforeLine (by decide)⟩
  | punct => exact LongestSymbol.beforeLine h
  | directive => exact h.elim
  | eof => exact h.elim

theorem DirectiveHead.beforeLine {name gap payload : List Char}
    (h : DirectiveHead name gap (payload ++ rest)) :
    DirectiveHead name gap (payload ++ (rest ++ '\n' :: more)) where
  word := h.word
  blank := h.blank
  wordEnds := by
    have hends : Stops _ (_ ++ '\n' :: more) := h.wordEnds.beforeLine (by decide)
    rwa [List.append_assoc, List.append_assoc] at hends
  gapEnds := by
    have hends : Stops _ (_ ++ '\n' :: more) := h.gapEnds.beforeLine (by decide)
    rwa [List.append_assoc] at hends

/-- The text begins a comment and does not end it. -/
def LeavesComment (text : List Char) : Prop :=
  ∃ body, text = '/' :: '*' :: body ∧ ¬['*', '/'] <:+: body

instance (text : List Char) : Decidable (LeavesComment text) :=
  decidable_of_iff (['/', '*'] <+: text ∧ ¬['*', '/'] <:+: text.drop 2) (by
    constructor
    · rintro ⟨⟨body, rfl⟩, hbody⟩
      exact ⟨body, rfl, hbody⟩
    · rintro ⟨body, rfl, hbody⟩
      exact ⟨⟨body, rfl⟩, hbody⟩)

/-- **A piece is the same piece in front of another line.** -/
theorem Verdict.Fits.beforeLine (h : verdict.Fits text rest) (hopen : ¬LeavesComment text) :
    verdict.Fits text (rest ++ '\n' :: more) := by
  cases h with
  | space hblank => exact .space hblank
  | lineComment hline hrest => exact .lineComment hline hrest.beforeLine
  | blockComment hbody => exact .blockComment hbody
  -- the one piece that the end of a line does not end
  | openComment hbody => exact absurd ⟨_, rfl, hbody⟩ hopen
  | token hwritten hends => exact .token hwritten hends.beforeLine
  | closedDirective hhead hopening hclose hline =>
      exact .closedDirective hhead hopening hclose hline
  | openDirective hhead hopening hclose hline hrest =>
      exact .openDirective hhead hopening hclose hline hrest.beforeLine
  | lineDirective hhead hpayload hline hrest =>
      exact .lineDirective hhead.beforeLine hpayload hline hrest.beforeLine
  | noDigitAfterPoint hsome hdigits hrest =>
      exact .noDigitAfterPoint hsome hdigits (hrest.beforeLine (by decide))
  | numberWithSuffix hnumber hword hsuffix hrest =>
      exact .numberWithSuffix hnumber hword hsuffix (hrest.beforeLine (by decide))
  | openString hbody hstray hrest => exact .openString hbody hstray hrest.beforeLine
  | emptyChar => exact .emptyChar
  | openChar hbody hrest => exact .openChar hbody (hrest.beforeLine (by decide))
  | strayQuote hstray hrest => exact .strayQuote hstray hrest.beforeLine
  | unrecognized hblank hword hdigit hspecial hsymbols =>
      refine .unrecognized hblank hword hdigit hspecial fun kind hkind hprefix => ?_
      exact hsymbols kind hkind (symbol_prefix_of_line hkind hprefix)

end

/-! ## Cutting two texts -/

section

variable {pieces others : List Segment} {text other rest : List Char} {verdict : Verdict}

/-- A comment is left open only where nothing stands behind it. -/
theorem Verdict.Fits.eq_nil_of_leavesComment (h : verdict.Fits text rest)
    (hopen : LeavesComment text) : rest = [] := by
  obtain ⟨body, rfl, hbody⟩ := hopen
  -- Only one piece fits.  If something closed the comment, that would belong to the piece; so
  -- nothing does, and the piece goes on to the end of the text.
  rcases exists_close (body ++ rest) with ⟨closed, behind, hwhole, hclosed⟩ | hnone
  · have hfits : Verdict.Fits _ _ behind := .blockComment hclosed
    have hsame := (h.unique hfits (by simp [hwhole])).2
    rw [List.cons.injEq, List.cons.injEq] at hsame
    rw [hsame.2.2] at hbody
    exact absurd (List.suffix_append closed _).isInfix hbody
  · have hsame := (h.unique (.openComment hnone) (by simp)).2
    simpa using hsame

/-- Only the last piece of a text is a comment that is left open. -/
theorem Cut.getLast?_of_leavesComment (h : Cut pieces text) {piece : Segment}
    (hpiece : piece ∈ pieces) (hopen : LeavesComment piece.text) :
    pieces.getLast? = some piece := by
  induction h with
  | nil => cases hpiece
  | @cons first pieces rest hfits hcut ih =>
      rcases List.mem_cons.1 hpiece with rfl | hpiece
      · have hrest := hfits.eq_nil_of_leavesComment hopen
        subst hrest
        cases hcut.eq_segments.trans Segment.segments.eq_1
        rfl
      · rw [List.getLast?_cons, ih hpiece]
        rfl

/-- Two texts on different lines are cut where each of them is cut. -/
theorem Cut.lines (h : Cut pieces text) (hopen : ∀ piece ∈ pieces, ¬LeavesComment piece.text)
    (h' : Cut others other) :
    Cut (pieces ++ ⟨['\n'], .blank⟩ :: others) (text ++ '\n' :: other) := by
  induction h with
  | nil => exact .cons (.space (by decide)) h'
  | @cons piece pieces rest hfits _ ih =>
      have hrest := ih fun piece hpiece => hopen piece (List.mem_cons_of_mem _ hpiece)
      have hpiece : piece.verdict.Fits piece.text (_ ++ '\n' :: other) :=
        hfits.beforeLine (hopen piece List.mem_cons_self)
      rw [List.append_assoc]
      exact .cons hpiece hrest

end

/-! ## Further down -/

/-- The place some lines further down. -/
def Location.below (lines : Nat) (place : Location) : Location :=
  { place with line := place.line + lines }

/-- The token some lines further down. -/
def Token.below (lines : Nat) (token : Token) : Token :=
  { token with location := token.location.below lines }

/-- The diagnostic some lines further down. -/
def Diagnostic.below (lines : Nat) (d : Diagnostic) : Diagnostic :=
  { d with location := d.location.below lines }

section

variable {lines : Nat} {place : Location}

theorem Location.step_below (c : Char) :
    (place.below lines).step c = (place.step c).below lines := by
  unfold step
  split
  · exact congrArg (Location.mk · 1) (Nat.add_right_comm place.line lines 1)
  · rfl

theorem Location.advance_below (text : List Char) :
    (place.below lines).advance text = (place.advance text).below lines := by
  induction text generalizing place with
  | nil => rfl
  | cons c text ih => rw [advance_cons, advance_cons, step_below, ih]

/-- The line behind a text begins as many lines further down as the text has ends of lines, and
one more. -/
theorem Location.step_behind_line (text : List Char) :
    (behind text).step '\n' = start.below (1 + text.count '\n') := by
  rw [step, if_pos rfl]
  exact congrArg (Location.mk · 1) (Nat.add_comm (1 + text.count '\n') 1)

namespace Segment

theorem placed_append (place : Location) (first second : List Segment) :
    placed place (first ++ second) =
      placed place first ++ placed (place.advance (first.flatMap text)) second := by
  induction first generalizing place with
  | nil => rfl
  | cons piece first ih =>
      rw [List.cons_append, placed, ih, List.flatMap_cons, Location.advance_append]
      rfl

theorem placed_below (pieces : List Segment) :
    placed (place.below lines) pieces =
      (placed place pieces).map fun spot => (spot.1.below lines, spot.2) := by
  induction pieces generalizing place with
  | nil => rfl
  | cons piece pieces ih =>
      rw [placed, Location.advance_below, ih]
      rfl

theorem tokens_below (spots : List (Location × Segment)) :
    (spots.map fun spot => (spot.1.below lines, spot.2)).filterMap token? =
      (spots.filterMap token?).map (Token.below lines) := by
  rw [List.filterMap_map, List.map_filterMap]
  refine congrArg (List.filterMap · spots) (funext fun spot => ?_)
  rw [token?, Option.map_map]
  rfl

theorem diagnostics_below (spots : List (Location × Segment)) :
    (spots.map fun spot => (spot.1.below lines, spot.2)).filterMap diagnostic? =
      (spots.filterMap diagnostic?).map (Diagnostic.below lines) := by
  rw [List.filterMap_map, List.map_filterMap]
  refine congrArg (List.filterMap · spots) (funext fun spot => ?_)
  rw [diagnostic?, Option.map_map]
  rfl

end Segment

end

/-! ## What is read -/

/-- The last piece of the text is a comment that is never closed. -/
def EndsInComment (source : String) : Prop :=
  ∃ piece ∈ (Segment.segments source.toList).getLast?, LeavesComment piece.text

instance (source : String) : Decidable (EndsInComment source) :=
  inferInstanceAs (Decidable (∃ piece ∈ (Segment.segments source.toList).getLast?, _))

section

variable {first second : String}

theorem toList_lines :
    (first ++ "\n" ++ second).toList = first.toList ++ '\n' :: second.toList := by
  simp

/-- The pieces of two texts on different lines. -/
theorem placed_lines (hopen : ¬EndsInComment first) :
    Segment.placed .start (Segment.segments (first ++ "\n" ++ second).toList) =
      Segment.placed .start (Segment.segments first.toList) ++
        (.behind first.toList, ⟨['\n'], .blank⟩) ::
          (Segment.placed .start (Segment.segments second.toList)).map fun spot =>
            (spot.1.below (1 + first.toList.count '\n'), spot.2) := by
  have hcut := cut_segments first.toList
  have hnone : ∀ piece ∈ Segment.segments first.toList, ¬LeavesComment piece.text :=
    fun piece hpiece hleaves =>
      hopen ⟨piece, hcut.getLast?_of_leavesComment hpiece hleaves, hleaves⟩
  rw [toList_lines, ← (hcut.lines hnone (cut_segments second.toList)).eq_segments,
    Segment.placed_append, hcut.flatMap_text, Location.advance_start, ← Segment.placed_below,
    ← Location.step_behind_line]
  rfl

/-- **What is read from two texts on different lines is what is read from each of them alone**, the
second one as many lines further down as the first one takes.  Only a comment that the first one
leaves open reaches over the end of its last line. -/
theorem tokenize_lines (hopen : ¬EndsInComment first) :
    let lines := 1 + first.toList.count '\n'
    (tokenize (first ++ "\n" ++ second)).tokens =
        (tokenize first).tokens.dropLast ++ (tokenize second).tokens.map (Token.below lines) ∧
      (tokenize (first ++ "\n" ++ second)).diagnostics =
        (tokenize first).diagnostics ++
          (tokenize second).diagnostics.map (Diagnostic.below lines) := by
  intro lines
  have hplaced := @placed_lines first second hopen
  have hend : Location.start.advance (first ++ "\n" ++ second).toList =
      (Location.start.advance second.toList).below lines := by
    rw [toList_lines, Location.advance_append, Location.advance_cons, Location.advance_start,
      Location.step_behind_line, Location.advance_below]
  -- the line feed is a blank of its own, so it is neither a token nor a diagnostic
  constructor
  · simp only [tokenize, hplaced, hend, List.dropLast_concat, List.filterMap_append]
    rw [List.filterMap_cons_none rfl, Segment.tokens_below, List.append_assoc, List.map_append]
    rfl
  · simp only [tokenize, hplaced, List.filterMap_append]
    rw [List.filterMap_cons_none rfl, Segment.diagnostics_below]

/-- A string that is not closed, with a backslash behind it, keeps nothing of the next line. -/
theorem tokenize_lines_openString :
    ¬EndsInComment "x = \"a\\" ∧
      (tokenize ("x = \"a\\" ++ "\n" ++ "y;")).tokens =
          (tokenize "x = \"a\\").tokens.dropLast ++ (tokenize "y;").tokens.map (Token.below 1) ∧
        (tokenize ("x = \"a\\" ++ "\n" ++ "y;")).diagnostics =
          (tokenize "x = \"a\\").diagnostics ++
            (tokenize "y;").diagnostics.map (Diagnostic.below 1) := by
  have hopen : ¬EndsInComment "x = \"a\\" := by decide +kernel
  exact ⟨hopen, tokenize_lines hopen⟩

end

end MiniC
