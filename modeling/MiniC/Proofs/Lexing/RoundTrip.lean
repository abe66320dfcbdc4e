import MiniC.Proofs.Lexing.Decomposition

/-!
# `MiniC.Proofs.Lexing.RoundTrip` — printing tokens and reading them again

The lexemes of a text, each on a line of its own, are read as the same tokens.  The lexeme of a
token is its text, so it is the same piece again; what ends it now is the end of the line.  The
lexeme of a directive is not its text, but it has the shape of a directive with that same lexeme:
what a directive's lexeme leaves out of the text is not there to be left out again.

## Contents
- `printed`: the text that tokens are printed as.
- `Verdict.Fits.reprinted`: **the lexeme of a token is a piece that is the same token**.
- `unterminated?`: what is wrong with a token, told by its lexeme.
- `tokenize_printed`: **the printed tokens of a text are read as the same tokens**.
-/

namespace MiniC

/-- The text that the tokens are printed as: every lexeme on a line of its own. -/
def printed (tokens : List Token) : String :=
  .ofList (tokens.flatMap fun token => token.lexeme.toList ++ ['\n'])

/-! ## Directives in normal form -/

section

variable {payload : List Char} {p : Char → Bool}

namespace Text

theorem trimEnd_prefix (text : List Char) : trimEnd text <+: text := by
  have hsuffix : text.reverse.dropWhile isBlank <:+ text.reverse := List.dropWhile_suffix _
  rw [← List.reverse_prefix, List.reverse_reverse] at hsuffix
  exact hsuffix

/-- Nothing is left to trim behind a trimmed text. -/
theorem trimEnd_trimEnd (text : List Char) : trimEnd (trimEnd text) = trimEnd text := by
  unfold trimEnd
  rw [List.reverse_reverse]
  have hstop : Stops isBlank (text.reverse.dropWhile isBlank) := by
    obtain ⟨body, rest, hsplit, hbody, hrest⟩ := exists_while isBlank text.reverse
    have hspan := (Span.splits_while hbody hrest).rest
    rw [← hsplit] at hspan
    show Stops isBlank (Span.while_ isBlank text.reverse).rest
    rw [hspan]
    exact hrest
  have hspan := (Span.splits_while (p := isBlank) wholly_nil hstop).rest
  exact congrArg List.reverse hspan

end Text

/-- What the trimmed payload begins with, the payload begins with. -/
theorem Stops.trimEnd (h : Stops p payload) : Stops p (Text.trimEnd payload) := by
  obtain ⟨behind, heq⟩ := Text.trimEnd_prefix payload
  cases htrim : Text.trimEnd payload with
  | nil => exact stops_nil
  | cons c trimmed =>
      rw [← heq, htrim] at h
      exact stops_cons.2 (stops_cons.1 h)

end

/-! ## The lexeme of a token is the token again -/

section

variable {verdict : Verdict} {kind : Kind} {lexeme : String} {text rest name gap : List Char}

/-- In normal form one space stands between the name of a directive and its payload. -/
theorem DirectiveHead.normal {payload : List Char} (h : DirectiveHead name gap payload)
    {c : Char} {cs behind : List Char} (hpayload : payload = c :: cs) :
    DirectiveHead name [' '] (c :: behind) where
  word := h.word
  blank := by
    intro d hd
    rw [List.mem_singleton.1 hd]
    rfl
  wordEnds := stops_cons.2 (by decide)
  gapEnds := by
    have hends := h.gapEnds
    rw [hpayload] at hends
    exact stops_cons.2 (stops_cons.1 hends)

theorem fits_lineDirective_again {payload : List Char}
    (h : DirectiveHead name gap (payload ++ rest)) (hopens : Stops opensPayload payload)
    (hline : '\n' ∉ payload) {rest' : List Char} (hrest' : AtLineEnd rest') :
    (Verdict.token .directive (.ofList ('#' :: (name ++ Segment.payloadText payload)))).Fits
      ('#' :: (name ++ Segment.payloadText payload)) rest' := by
  cases htrim : Text.trimEnd payload with
  | nil =>
      have htext : Segment.payloadText payload = [] := by rw [Segment.payloadText, htrim]
      have hhead : DirectiveHead name [] ([] ++ rest') :=
        ⟨h.word, wholly_nil, hrest'.stops (by decide), hrest'.stops (by decide)⟩
      have hfits := Verdict.Fits.lineDirective hhead stops_nil (by simp) hrest'
      have htext' : Segment.payloadText [] = [] := rfl
      rw [htext]
      simpa [htext'] using hfits
  | cons c trimmed =>
      have htext : Segment.payloadText payload = ' ' :: c :: trimmed := by
        rw [Segment.payloadText, htrim]
      have htext' : Segment.payloadText (c :: trimmed) = ' ' :: c :: trimmed := by
        rw [Segment.payloadText, ← htrim, Text.trimEnd_trimEnd, htrim]
      obtain ⟨behind, heq⟩ := Text.trimEnd_prefix payload
      rw [htrim] at heq
      have hhead : DirectiveHead name [' '] (c :: trimmed ++ rest') :=
        h.normal (c := c) (by rw [← heq]; rfl)
      have hopens' : Stops opensPayload (c :: trimmed) := htrim ▸ hopens.trimEnd
      have hline' : '\n' ∉ c :: trimmed := fun hmem =>
        hline (heq ▸ List.mem_append_left behind hmem)
      have hfits := Verdict.Fits.lineDirective hhead hopens' hline' hrest'
      rw [htext'] at hfits
      rw [htext]
      simpa using hfits

/-- **The lexeme of a token is a piece that is the same token, at the end of a line.** -/
theorem Verdict.Fits.reprinted (h : verdict.Fits text rest)
    (htoken : verdict.token? = some (kind, lexeme)) {rest' : List Char}
    (hrest' : AtLineEnd rest') : verdict.Fits lexeme.toList rest' := by
  cases h with
  | token hwritten _ =>
      obtain ⟨rfl, rfl⟩ := Prod.mk.inj (Option.some.inj htoken)
      rw [String.toList_ofList]
      exact .token hwritten (hwritten.endsBefore hrest')
  | closedDirective hhead hopening hclose hline =>
      obtain ⟨rfl, rfl⟩ := Prod.mk.inj (Option.some.inj htoken)
      rw [String.toList_ofList]
      have hfits := @Verdict.Fits.closedDirective _ _ _ rest' _ (hhead.normal rfl) hopening hclose
        hline
      simpa using hfits
  | openDirective hhead hopening hclose hline _ =>
      obtain ⟨rfl, rfl⟩ := Prod.mk.inj (Option.some.inj htoken)
      rw [String.toList_ofList]
      simpa using Verdict.Fits.openDirective (hhead.normal rfl) hopening hclose hline hrest'
  | lineDirective hhead hpayload hline _ =>
      obtain ⟨rfl, rfl⟩ := Prod.mk.inj (Option.some.inj htoken)
      rw [String.toList_ofList]
      exact fits_lineDirective_again hhead hpayload hline hrest'
  | _ => exact nomatch htoken

/-! ## Lexemes -/

theorem QuotedChar.notMem {quote : Char} {c : List Char} (h : QuotedChar quote c) :
    '\n' ∉ c := by
  cases h with
  | plain _ _ hline => simpa using hline.symm
  | escaped hline => simpa using hline.symm

theorem QuotedText.notMem {quote : Char} {body : List Char} (h : QuotedText quote body) :
    '\n' ∉ body := by
  induction h with
  | nil => exact List.not_mem_nil
  | cons hc _ ih =>
      rw [List.mem_append, not_or]
      exact ⟨hc.notMem, ih⟩

theorem Kind.Written.notMem (h : kind.Written text) : '\n' ∉ text := by
  have hsymbols : ∀ kind ∈ Kind.symbols, '\n' ∉ kind.symbolText := by decide +kernel
  cases h with
  | keyword word =>
      have htable : ∀ word ∈ Keyword.all, '\n' ∉ word.spelling.toList := by decide +kernel
      exact htable word (mem_allKeywords word)
  | ident hc hcs _ =>
      exact (wholly_cons (Text.inWord_of_startsWord hc) hcs).notMem (by decide)
  | int _ hdigits => exact hdigits.notMem (by decide)
  | float _ hdigits _ hdecimals =>
      have h₁ : '\n' ∉ _ := hdigits.notMem (by decide)
      have h₂ : '\n' ∉ _ := hdecimals.notMem (by decide)
      simp [h₁, h₂]
  | string hbody => simpa using hbody.notMem
  | char hbody => simpa using hbody.notMem
  | operator sign => exact hsymbols _ (mem_symbols_operator sign)
  | punct mark => exact hsymbols _ (mem_symbols_punct mark)

/-- No lexeme goes on over the end of a line. -/
theorem Verdict.Fits.notMem_lexeme (h : verdict.Fits text rest)
    (htoken : verdict.token? = some (kind, lexeme)) : '\n' ∉ lexeme.toList := by
  have hopening : ∀ {c : Char}, opensPayload c = true → '\n' ≠ c := by
    rintro _ hc rfl
    exact absurd hc (by decide)
  have hname : ∀ {name gap payload : List Char}, DirectiveHead name gap payload → '\n' ∉ name :=
    fun hhead => hhead.word.notMem (by decide)
  cases h with
  | token hwritten _ =>
      obtain ⟨rfl, rfl⟩ := Prod.mk.inj (Option.some.inj htoken)
      rw [String.toList_ofList]
      exact hwritten.notMem
  | @closedDirective name _ body _ opening hhead hpayload hclose hline =>
      obtain ⟨rfl, rfl⟩ := Prod.mk.inj (Option.some.inj htoken)
      simp [hname hhead, hopening hpayload, hline, (Segment.closingDelimiter_ne opening).symm]
  | openDirective hhead hpayload hclose hline _ =>
      obtain ⟨rfl, rfl⟩ := Prod.mk.inj (Option.some.inj htoken)
      simp [hname hhead, hopening hpayload, hline]
  | @lineDirective name _ payload _ hhead _ hline _ =>
      obtain ⟨rfl, rfl⟩ := Prod.mk.inj (Option.some.inj htoken)
      have hpayload : '\n' ∉ Segment.payloadText payload := by
        unfold Segment.payloadText
        split
        · exact List.not_mem_nil
        · next trimmed htrim =>
            have hmem := (Text.trimEnd_prefix payload).subset (a := '\n')
            simpa using fun h => hline (hmem h)
      simp [hname hhead, hpayload]
  | _ => exact nomatch htoken

/-- What is wrong with a token, told by its lexeme: a directive whose payload opens with a
delimiter has to have the closing one behind it. -/
def unterminated? (token : Token) : Option LexicalFault :=
  if token.kind = .directive then
    match (token.lexeme.toList.drop 1).dropWhile Text.inWord with
    | ' ' :: opening :: body =>
      let close := Segment.closingDelimiter opening
      if opensPayload opening && !body.contains close then
        some (.unterminatedDirective token.lexeme close)
      else none
    | _ => none
  else none

/-- What stands behind the name in the lexeme of a directive. -/
theorem dropWhile_name {name behind : List Char} (hname : Wholly Text.inWord name)
    (hends : Stops Text.inWord behind) :
    ((String.ofList ('#' :: (name ++ behind))).toList.drop 1).dropWhile Text.inWord = behind := by
  rw [String.toList_ofList]
  exact (Span.splits_while hname hends).rest

/-- The lexeme tells what is wrong with a token. -/
theorem Verdict.Fits.unterminated? (h : verdict.Fits text rest)
    (htoken : verdict.token? = some (kind, lexeme)) (place : Location) :
    MiniC.unterminated? ⟨kind, lexeme, place⟩ = verdict.fault? := by
  have hspace : ∀ {cs : List Char}, Stops Text.inWord (' ' :: cs) := stops_cons.2 (by decide)
  cases h with
  | token hwritten _ =>
      obtain ⟨rfl, rfl⟩ := Prod.mk.inj (Option.some.inj htoken)
      refine if_neg ?_
      rintro rfl
      cases hwritten
  | @closedDirective name _ body _ opening hhead hpayload hclose hline =>
      obtain ⟨rfl, rfl⟩ := Prod.mk.inj (Option.some.inj htoken)
      rw [MiniC.unterminated?, if_pos rfl, dropWhile_name hhead.word hspace]
      simp [Verdict.fault?]
  | openDirective hhead hpayload hclose hline _ =>
      obtain ⟨rfl, rfl⟩ := Prod.mk.inj (Option.some.inj htoken)
      rw [MiniC.unterminated?, if_pos rfl, dropWhile_name hhead.word hspace]
      simp [Verdict.fault?, hpayload, hclose]
  | @lineDirective name _ payload _ hhead hpayload hline hrest =>
      obtain ⟨rfl, rfl⟩ := Prod.mk.inj (Option.some.inj htoken)
      rw [MiniC.unterminated?, if_pos rfl]
      cases htrim : Text.trimEnd payload with
      | nil =>
          have htext : Segment.payloadText payload = [] := by rw [Segment.payloadText, htrim]
          rw [htext, dropWhile_name hhead.word stops_nil]
          rfl
      | cons c trimmed =>
          have htext : Segment.payloadText payload = ' ' :: c :: trimmed := by
            rw [Segment.payloadText, htrim]
          have hc : opensPayload c = false := stops_cons.1 (htrim ▸ hpayload.trimEnd)
          rw [htext, dropWhile_name hhead.word hspace]
          simp [hc, Verdict.fault?]
  | _ => cases htoken

end

/-! ## The printed pieces -/

namespace Location

variable {text : List Char}

/-- Without a line feed the line stays. -/
theorem line_advance (h : '\n' ∉ text) (place : Location) :
    (place.advance text).line = place.line := by
  induction text generalizing place with
  | nil => rfl
  | cons c text ih =>
      rw [List.mem_cons, not_or] at h
      rw [advance_cons, ih h.2, step, if_neg (Ne.symm h.1)]

/-- Behind a line begins the next one. -/
theorem advance_line (h : '\n' ∉ text) (place : Location) :
    (place.advance text).advance ['\n'] = ⟨place.line + 1, 1⟩ := by
  rw [advance_cons, advance_nil, step, if_pos rfl, line_advance h]

end Location

/-- The tokens, each of them at the beginning of a line of its own, from the line `first` on. -/
def onLines (first : Nat) (tokens : List Token) : List Token :=
  tokens.mapIdx fun i token => { token with location := ⟨first + i, 1⟩ }

theorem onLines_cons (first : Nat) (token : Token) (tokens : List Token) :
    onLines first (token :: tokens) =
      { token with location := ⟨first, 1⟩ } :: onLines (first + 1) tokens := by
  simp only [onLines, List.mapIdx_cons, Nat.add_zero, Nat.add_assoc, Nat.add_comm 1]

/-- The diagnostic that calls for the delimiter that is missing in a directive. -/
def delimiterDiagnostic? (token : Token) : Option Diagnostic :=
  (unterminated? token).map fun fault => ⟨.lexical, fault.message, token.location⟩

namespace Segment

/-- The pieces of the printed text: each token and the end of its line. -/
def reprint : List Segment → List Segment
  | [] => []
  | piece :: pieces =>
    match piece.verdict.token? with
    | some (_, lexeme) =>
      ⟨lexeme.toList, piece.verdict⟩ :: ⟨['\n'], .blank⟩ :: reprint pieces
    | none => reprint pieces

/-- The tokens of pieces that begin at a place. -/
def tokensFrom (place : Location) (pieces : List Segment) : List Token :=
  (placed place pieces).filterMap token?

variable {piece : Segment} {pieces : List Segment} {kind : Kind} {lexeme : String}

theorem tokensFrom_none (h : piece.verdict.token? = none) (place : Location) :
    tokensFrom place (piece :: pieces) = tokensFrom (place.advance piece.text) pieces := by
  rw [tokensFrom, placed, List.filterMap_cons_none (by simp [token?, h])]
  rfl

theorem tokensFrom_some (h : piece.verdict.token? = some (kind, lexeme)) (place : Location) :
    tokensFrom place (piece :: pieces) =
      ⟨kind, lexeme, place⟩ :: tokensFrom (place.advance piece.text) pieces := by
  rw [tokensFrom, placed, List.filterMap_cons_some (b := ⟨kind, lexeme, place⟩)
    (by simp [token?, h])]
  rfl

theorem reprint_none (h : piece.verdict.token? = none) :
    reprint (piece :: pieces) = reprint pieces := by
  rw [reprint, h]

theorem reprint_some (h : piece.verdict.token? = some (kind, lexeme)) :
    reprint (piece :: pieces) =
      ⟨lexeme.toList, piece.verdict⟩ :: ⟨['\n'], .blank⟩ :: reprint pieces := by
  rw [reprint, h]

/-- Every piece has its shape in front of some rest. -/
def Shaped (pieces : List Segment) : Prop :=
  ∀ piece ∈ pieces, ∃ rest, piece.verdict.Fits piece.text rest

theorem Shaped.head (h : Shaped (piece :: pieces)) :
    ∃ rest, piece.verdict.Fits piece.text rest := h piece List.mem_cons_self

theorem Shaped.tail (h : Shaped (piece :: pieces)) : Shaped pieces :=
  fun piece hpiece => h piece (List.mem_cons_of_mem _ hpiece)

theorem cut_reprint (h : Shaped pieces) (place : Location) :
    Cut (reprint pieces) (printed (tokensFrom place pieces)).toList := by
  induction pieces generalizing place with
  | nil => exact .nil
  | cons piece pieces ih =>
      have hmore := ih h.tail (place.advance piece.text)
      obtain ⟨rest, hfits⟩ := h.head
      cases htoken : piece.verdict.token? with
      | none =>
          rw [reprint_none htoken, tokensFrom_none htoken]
          exact hmore
      | some found =>
          obtain ⟨kind, lexeme⟩ := found
          rw [reprint_some htoken, tokensFrom_some htoken, printed, List.flatMap_cons,
            String.toList_ofList, List.append_assoc]
          rw [printed, String.toList_ofList] at hmore
          have hline := Cut.cons (s := ⟨['\n'], .blank⟩) (.space (by decide)) hmore
          exact Cut.cons (s := ⟨lexeme.toList, piece.verdict⟩)
            (hfits.reprinted htoken (atLineEnd_cons.2 rfl)) hline

/-- The end of the line stands behind a printed token, so the next one begins a line. -/
theorem placed_reprint_some (h : piece.verdict.token? = some (kind, lexeme))
    (hline : '\n' ∉ lexeme.toList) (first : Nat) (pieces : List Segment) :
    ∃ place, placed ⟨first, 1⟩ (reprint (piece :: pieces)) =
      (⟨first, 1⟩, ⟨lexeme.toList, piece.verdict⟩) :: (place, ⟨['\n'], .blank⟩) ::
        placed ⟨first + 1, 1⟩ (reprint pieces) := by
  refine ⟨Location.advance ⟨first, 1⟩ lexeme.toList, ?_⟩
  rw [reprint_some h, placed, placed]
  show _ :: _ :: placed ((Location.advance ⟨first, 1⟩ lexeme.toList).advance ['\n']) _ = _
  rw [Location.advance_line hline]

theorem tokensFrom_reprint (h : Shaped pieces) (first : Nat) (place : Location) :
    tokensFrom ⟨first, 1⟩ (reprint pieces) = onLines first (tokensFrom place pieces) := by
  induction pieces generalizing first place with
  | nil => rfl
  | cons piece pieces ih =>
      obtain ⟨rest, hfits⟩ := h.head
      cases htoken : piece.verdict.token? with
      | none =>
          rw [reprint_none htoken, tokensFrom_none htoken]
          exact ih h.tail first _
      | some found =>
          obtain ⟨kind, lexeme⟩ := found
          obtain ⟨end_, hplaced⟩ := placed_reprint_some htoken
            (hfits.notMem_lexeme htoken) first pieces
          rw [tokensFrom, hplaced, tokensFrom_some htoken, onLines_cons,
            List.filterMap_cons_some (b := ⟨kind, lexeme, ⟨first, 1⟩⟩) (by simp [token?, htoken]),
            List.filterMap_cons_none rfl]
          exact congrArg _ (ih h.tail (first + 1) _)

theorem diagnostics_reprint (h : Shaped pieces) (first : Nat) (place : Location) :
    (placed ⟨first, 1⟩ (reprint pieces)).filterMap diagnostic? =
      (onLines first (tokensFrom place pieces)).filterMap delimiterDiagnostic? := by
  induction pieces generalizing first place with
  | nil => rfl
  | cons piece pieces ih =>
      obtain ⟨rest, hfits⟩ := h.head
      cases htoken : piece.verdict.token? with
      | none =>
          rw [reprint_none htoken, tokensFrom_none htoken]
          exact ih h.tail first _
      | some found =>
          obtain ⟨kind, lexeme⟩ := found
          obtain ⟨end_, hplaced⟩ := placed_reprint_some htoken
            (hfits.notMem_lexeme htoken) first pieces
          have hfault := hfits.unterminated? htoken ⟨first, 1⟩
          have hsame : diagnostic? (⟨first, 1⟩, ⟨lexeme.toList, piece.verdict⟩) =
              delimiterDiagnostic? ⟨kind, lexeme, ⟨first, 1⟩⟩ := by
            rw [delimiterDiagnostic?, hfault]
            rfl
          have hmore := ih h.tail (first + 1) (place.advance piece.text)
          rw [hplaced, tokensFrom_some htoken, onLines_cons]
          rw [List.filterMap_cons, List.filterMap_cons_none (l := placed _ _) rfl, hmore, hsame,
            List.filterMap_cons]

theorem advance_reprint (h : Shaped pieces) (first : Nat) (place : Location) :
    Location.advance ⟨first, 1⟩ ((reprint pieces).flatMap text) =
      ⟨first + (tokensFrom place pieces).length, 1⟩ := by
  induction pieces generalizing first place with
  | nil => rfl
  | cons piece pieces ih =>
      obtain ⟨rest, hfits⟩ := h.head
      cases htoken : piece.verdict.token? with
      | none =>
          rw [reprint_none htoken, tokensFrom_none htoken]
          exact ih h.tail first _
      | some found =>
          obtain ⟨kind, lexeme⟩ := found
          rw [reprint_some htoken, tokensFrom_some htoken, List.flatMap_cons, List.flatMap_cons,
            Location.advance_append, Location.advance_append,
            Location.advance_line (hfits.notMem_lexeme htoken),
            ih h.tail (first + 1) (place.advance piece.text), List.length_cons]
          simp only [Nat.add_assoc, Nat.add_comm 1]

end Segment

/-- **The printed tokens of a text are read as the same tokens**, each at the beginning of its
line, and nothing is wrong with them but what is wrong with a directive by its lexeme. -/
theorem tokenize_printed (source : String) :
    let tokens := (tokenize source).tokens.dropLast
    tokenize (printed tokens) =
      { tokens := onLines 1 tokens ++ [.endOfFile ⟨tokens.length + 1, 1⟩]
        diagnostics := (onLines 1 tokens).filterMap delimiterDiagnostic? } := by
  have hshaped : Segment.Shaped (Segment.segments source.toList) :=
    (cut_segments source.toList).fits
  have htokens : (tokenize source).tokens.dropLast =
      Segment.tokensFrom ⟨1, 1⟩ (Segment.segments source.toList) := by
    rw [tokenize, List.dropLast_concat]
    rfl
  have hcut := Segment.cut_reprint hshaped ⟨1, 1⟩
  intro tokens
  show tokenize (printed (tokenize source).tokens.dropLast) = _
  rw [tokenize, htokens, ← hcut.eq_segments, ← hcut.flatMap_text]
  show Lexing.mk (Segment.tokensFrom ⟨1, 1⟩ _ ++ [.endOfFile (Location.advance ⟨1, 1⟩ _)])
    ((Segment.placed ⟨1, 1⟩ _).filterMap Segment.diagnostic?) = _
  rw [Segment.tokensFrom_reprint hshaped 1 ⟨1, 1⟩, Segment.diagnostics_reprint hshaped 1 ⟨1, 1⟩,
    Segment.advance_reprint hshaped 1 ⟨1, 1⟩, ← htokens, Nat.add_comm 1]

end MiniC
