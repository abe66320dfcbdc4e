import MiniC.Proofs.Lexing.Scanners

/-!
# `MiniC.Proofs.Lexing.Pieces` — the next piece of a text is the one that has its shape

The first character of a piece tells which scanner cuts it off, because no character begins pieces
of two sorts save for the slash.  So a piece that has its shape in front of a rest is the one that
is found there.  Every text begins with such a piece: what a scanner stops at is what the shape
demands behind the piece.

## Contents
- `piece_hash`, `piece_word`, …: which scanner is run.
- `scans_of_fits`: **a piece that has its shape is found**.
- `exists_fits`: **every text begins with a piece that has its shape**.
- `fits_piece`: hence the piece that is found has its shape.
-/

namespace MiniC

/-! ## Which scanner is run -/

section

variable {c : Char} {cs : List Char}

/-- No word begins with white space. -/
theorem isBlank_of_startsWord (h : Text.startsWord c = true) : Text.isBlank c = false := by
  have htable : ∀ range ∈ Text.blanks, ∀ i < range.2 + 1 - range.1,
      Text.startsWord (Char.ofNat (range.1 + i)) = false := by decide +kernel
  rw [← Bool.not_eq_true]
  intro hblank
  obtain ⟨range, hrange, hin⟩ := List.any_eq_true.1 hblank
  simp only [Bool.and_eq_true, decide_eq_true_eq] at hin
  have hc := htable range hrange (c.toNat - range.1) (by omega)
  rw [Nat.add_sub_cancel' hin.1, Char.ofNat_toNat, h] at hc
  exact absurd hc (by decide)

/-- A digit begins nothing but a number. -/
theorem tests_of_isDigit (h : c.isDigit = true) :
    Text.isBlank c = false ∧ c ≠ '#' ∧ c ≠ '/' ∧ Text.startsWord c = false := by
  have htable : ∀ i < 10, Text.isBlank (Char.ofNat (48 + i)) = false ∧
      Char.ofNat (48 + i) ≠ '#' ∧ Char.ofNat (48 + i) ≠ '/' ∧
      Text.startsWord (Char.ofNat (48 + i)) = false := by decide +kernel
  have hrange : 48 ≤ c.toNat ∧ c.toNat ≤ 57 := by
    simpa [Char.isDigit, UInt32.le_iff_toNat_le] using h
  have hc := htable (c.toNat - 48) (by omega)
  rwa [Nat.add_sub_cancel' hrange.1, Char.ofNat_toNat] at hc

/-- Whether only the table of symbols tells what begins with the character. -/
def beginsSymbol (c : Char) : Prop :=
  Text.isBlank c = false ∧ c ≠ '#' ∧ Text.startsWord c = false ∧ c.isDigit = false ∧
    c ≠ '"' ∧ c ≠ '\''

instance : DecidablePred beginsSymbol := fun _ => inferInstanceAs (Decidable (_ ∧ _))

theorem beginsSymbol_symbolText :
    ∀ kind ∈ Kind.symbols, ∀ c ∈ kind.symbolText.head?, beginsSymbol c := by
  have htable : (Kind.symbols.all fun kind =>
      kind.symbolText.head?.all fun c => decide (beginsSymbol c)) = true := by decide +kernel
  intro kind hkind c hc
  have hfirst := List.all_eq_true.1 htable kind hkind
  rw [Option.mem_def.1 hc] at hfirst
  exact of_decide_eq_true hfirst

namespace Segment

theorem piece_space (h : Text.isBlank c = true) : piece c cs = (.blank, .nothing cs) :=
  if_pos h

theorem piece_hash : piece '#' cs = directive cs := rfl

theorem piece_comment {span : Span cs} (h : comment? cs = some span) :
    piece '/' cs = (.blank, span) := by
  rw [piece, if_neg (by decide), if_neg (by decide), if_pos rfl, h]

/-- What does not begin with white space, a hash or a comment is told by its first character. -/
theorem piece_of_not_blank (hblank : Text.isBlank c = false) (hhash : c ≠ '#')
    (hcomment : c = '/' → comment? cs = none) :
    piece c cs =
      if Text.startsWord c then word c cs
      else if c.isDigit then Segment.number c cs
      else if c = '"' then stringLiteral cs
      else if c = '\'' then charLiteral cs
      else symbol c cs := by
  rw [piece, if_neg (by rw [hblank]; exact Bool.false_ne_true), if_neg hhash]
  by_cases hslash : c = '/'
  · rw [if_pos hslash, hcomment hslash]
  · rw [if_neg hslash]

theorem piece_word (h : Text.startsWord c = true) : piece c cs = word c cs := by
  have hhash : c ≠ '#' := by rintro rfl; exact absurd h (by decide)
  have hslash : c ≠ '/' := by rintro rfl; exact absurd h (by decide)
  rw [piece_of_not_blank (isBlank_of_startsWord h) hhash fun heq => absurd heq hslash, if_pos h]

theorem piece_digit (h : c.isDigit = true) : piece c cs = Segment.number c cs := by
  obtain ⟨hblank, hhash, hslash, hword⟩ := tests_of_isDigit h
  rw [piece_of_not_blank hblank hhash fun heq => absurd heq hslash,
    if_neg (by rw [hword]; exact Bool.false_ne_true), if_pos h]

theorem piece_quote : piece '"' cs = stringLiteral cs := by
  rw [piece_of_not_blank (by decide) (by decide) fun heq => absurd heq (by decide)]
  rfl

theorem piece_apostrophe : piece '\'' cs = charLiteral cs := by
  rw [piece_of_not_blank (by decide) (by decide) fun heq => absurd heq (by decide)]
  rfl

theorem piece_symbol (h : beginsSymbol c) (hcomment : c = '/' → comment? cs = none) :
    piece c cs = symbol c cs := by
  obtain ⟨hblank, hhash, hword, hdigit, hquote, hapostrophe⟩ := h
  rw [piece_of_not_blank hblank hhash hcomment,
    if_neg (by rw [hword]; exact Bool.false_ne_true),
    if_neg (by rw [hdigit]; exact Bool.false_ne_true), if_neg hquote, if_neg hapostrophe]

end Segment

end

/-! ## Words and symbols -/

section

variable {word : Keyword} {text : List Char}

theorem mem_allKeywords (word : Keyword) : word ∈ Keyword.all := by
  cases word with
  | type word => cases word <;> decide
  | qualifier word => cases word <;> decide
  | _ => decide

theorem mem_symbols_operator (sign : Operator) : Kind.operator sign ∈ Kind.symbols := by
  cases sign <;> decide

theorem mem_symbols_punct (mark : Punct) : Kind.punct mark ∈ Kind.symbols := by
  cases mark <;> decide

/-- Every keyword is a word. -/
theorem keyword_isWord {c : Char} {cs : List Char} (h : word.spelling.toList = c :: cs) :
    Text.startsWord c = true ∧ Wholly Text.inWord cs := by
  have htable : ∀ word ∈ Keyword.all,
      (word.spelling.toList.head?.all Text.startsWord &&
        word.spelling.toList.tail.all Text.inWord) = true := by decide +kernel
  have hword := htable word (mem_allKeywords word)
  rw [h, Bool.and_eq_true] at hword
  exact ⟨hword.1, List.all_eq_true.1 hword.2⟩

theorem ofWord_spelling (word : Keyword) : Kind.ofWord word.spelling = .keyword word := by
  have htable : ∀ word ∈ Keyword.all, Kind.ofWord word.spelling = .keyword word := by
    decide +kernel
  exact htable word (mem_allKeywords word)

theorem ofWord_of_not_reserved (h : ¬Reserved text) : Kind.ofWord (.ofList text) = .ident := by
  have hnone : Keyword.ofSpelling? (.ofList text) = none := by
    rw [Keyword.ofSpelling?, List.find?_eq_none]
    intro word _ hword
    refine h ⟨word, ?_⟩
    rw [eq_of_beq hword, String.toList_ofList]
  rw [Kind.ofWord, hnone]

end

/-! ## What has its shape is found -/

section

variable {c : Char} {taken rest : List Char} {kind : Kind} {verdict : Verdict}

/-- What is known of a piece can be said of its text, however that is written. -/
theorem Scans.congr {text taken' : List Char} {found : Verdict × Span text}
    (h : Scans found verdict taken rest) (heq : taken = taken') :
    Scans found verdict taken' rest := heq ▸ h

namespace Segment

theorem scans_symbol_piece (hkind : kind ∈ Kind.symbols) (htext : kind.symbolText = c :: taken)
    (hlongest : LongestSymbol (c :: taken) rest)
    (hslash : c :: taken = ['/'] → Stops opensComment rest) :
    Scans (piece c (taken ++ rest)) (.token kind (.ofList (c :: taken))) taken rest := by
  have hc : beginsSymbol c := beginsSymbol_symbolText kind hkind c (by rw [htext]; rfl)
  have hcomment : c = '/' → comment? (taken ++ rest) = none := by
    have htable : ∀ kind ∈ Kind.symbols, kind.symbolText.head? = some '/' →
        kind.symbolText.tail.head?.any opensComment = false := by decide +kernel
    rintro rfl
    have htail := htable kind hkind (by rw [htext]; rfl)
    rw [htext, List.tail_cons] at htail
    cases taken with
    | nil => exact comment?_none (hslash rfl)
    | cons d taken => exact comment?_none (stops_cons.2 htail)
  rw [piece_symbol hc hcomment]
  exact scans_symbol hkind htext hlongest

/-- A token that has its shape is found. -/
theorem scans_of_written (hwritten : kind.Written (c :: taken))
    (hends : kind.EndsBefore (c :: taken) rest) :
    Scans (piece c (taken ++ rest)) (.token kind (.ofList (c :: taken))) taken rest := by
  generalize htext : c :: taken = text at hwritten
  cases hwritten with
  | keyword word =>
      obtain ⟨hc, htaken⟩ := keyword_isWord htext.symm
      have hkind : Kind.ofWord (.ofList (c :: taken)) = .keyword word := by
        rw [htext, String.ofList_toList, ofWord_spelling]
      rw [piece_word hc, ← htext, ← hkind]
      exact scans_word htaken hends
  | ident hc htaken hfree =>
      obtain ⟨rfl, rfl⟩ := List.cons.inj htext
      rw [piece_word hc, ← ofWord_of_not_reserved hfree]
      exact scans_word htaken hends
  | int _ hdigits =>
      subst htext
      have hc : c.isDigit = true := hdigits c List.mem_cons_self
      have hnumber := numeral_int (fun d hd => hdigits d (List.mem_cons_of_mem c hd))
        (hends.of_imp (q := fun c => c.isDigit || c == '.') (by simp +contextual))
      rw [piece_digit hc]
      exact scans_number hnumber (hends.of_imp (by simp +contextual))
  | @float _ decimals hsome hdigits hmore hdecimals =>
      obtain ⟨d, digits, rfl⟩ := List.exists_cons_of_ne_nil hsome
      obtain ⟨rfl, rfl⟩ := List.cons.inj htext
      have hc : c.isDigit = true := hdigits c List.mem_cons_self
      have hnumber := numeral_float (fun d hd => hdigits d (List.mem_cons_of_mem c hd)) hmore
        hdecimals (hends.of_imp (by simp +contextual))
      rw [piece_digit hc]
      show Scans (Segment.number c (digits ++ '.' :: decimals ++ rest)) _
        (digits ++ '.' :: decimals) _
      rw [List.append_assoc]
      exact scans_number hnumber (hends.of_imp (by simp +contextual))
  | string hbody =>
      obtain ⟨rfl, rfl⟩ := List.cons.inj htext
      rw [piece_quote, List.append_assoc]
      exact scans_string hbody
  | char hbody =>
      obtain ⟨rfl, rfl⟩ := List.cons.inj htext
      rw [piece_apostrophe, List.append_assoc]
      exact scans_char hbody
  | operator sign =>
      rw [← htext]
      exact scans_symbol_piece (mem_symbols_operator sign) htext.symm hends.1 hends.2
  | punct mark =>
      rw [← htext]
      refine scans_symbol_piece (mem_symbols_punct mark) htext.symm hends ?_
      -- no punctuation mark is a slash
      intro hslash
      have htable : ∀ mark : Kind, mark ∈ Kind.symbols → mark.symbolText = ['/'] →
          mark = .operator .slash := by decide +kernel
      exact absurd (htable _ (mem_symbols_punct mark) (htext.symm.trans hslash)) (by simp)

/-- A number begins with a digit, and what stands behind that digit is read as its rest. -/
theorem numeral_of_numberText {number : List Char} {d : Char} (h : NumberText number)
    (hd : Text.startsWord d = true) (behind : List Char) :
    ∃ c tail hasPoint, number = c :: tail ∧ c.isDigit = true ∧
      Numeral (tail ++ d :: behind) hasPoint tail (d :: behind) := by
  have hdigit : d.isDigit = false := by
    rw [← Bool.not_eq_true]
    intro hdigit
    rw [(tests_of_isDigit hdigit).2.2.2] at hd
    exact Bool.false_ne_true hd
  have hpoint : d ≠ '.' := by rintro rfl; exact absurd hd (by decide)
  rcases h with h | h
  · cases h with
    | int hsome hdigits =>
        obtain ⟨c, digits, rfl⟩ := List.exists_cons_of_ne_nil hsome
        refine ⟨c, digits, false, rfl, hdigits c List.mem_cons_self, ?_⟩
        exact numeral_int (fun d hd => hdigits d (List.mem_cons_of_mem c hd))
          (stops_cons.2 (by simp [hdigit, hpoint]))
  · cases h with
    | @float digits decimals hsome hdigits hmore hdecimals =>
        obtain ⟨c, digits, rfl⟩ := List.exists_cons_of_ne_nil hsome
        refine ⟨c, digits ++ '.' :: decimals, true, rfl, hdigits c List.mem_cons_self, ?_⟩
        rw [List.append_assoc]
        exact numeral_float (fun d hd => hdigits d (List.mem_cons_of_mem c hd)) hmore hdecimals
          (stops_cons.2 hdigit)

/-- **A piece that has its shape is found.** -/
theorem scans_of_fits (h : verdict.Fits (c :: taken) rest) :
    Scans (piece c (taken ++ rest)) verdict taken rest := by
  generalize htext : c :: taken = text at h
  cases h with
  | space hblank =>
      obtain ⟨rfl, rfl⟩ := List.cons.inj htext
      rw [piece_space hblank]
      exact ⟨rfl, Span.splits_nothing⟩
  | lineComment hline hrest =>
      obtain ⟨rfl, rfl⟩ := List.cons.inj htext
      obtain ⟨span, hspan, hsplits⟩ := comment?_line hline hrest
      rw [List.cons_append, piece_comment hspan]
      exact ⟨rfl, hsplits⟩
  | @blockComment body _ hbody =>
      obtain ⟨rfl, rfl⟩ := List.cons.inj htext
      obtain ⟨span, hspan, hsplits⟩ := @comment?_block _ rest hbody
      have hcs : '*' :: (body ++ ['*', '/']) ++ rest = '*' :: (body ++ '*' :: '/' :: rest) := by
        simp
      rw [hcs, piece_comment hspan]
      exact ⟨rfl, hsplits⟩
  | openComment hbody =>
      obtain ⟨rfl, rfl⟩ := List.cons.inj htext
      obtain ⟨span, hspan, hsplits⟩ := comment?_open hbody
      rw [List.append_nil, piece_comment hspan]
      exact ⟨rfl, hsplits⟩
  | token hwritten hends =>
      subst htext
      exact scans_of_written hwritten hends
  | closedDirective hhead hopening hclose hline =>
      obtain ⟨rfl, rfl⟩ := List.cons.inj htext
      rw [piece_hash]
      exact (scans_closedDirective hhead hopening hclose hline (by simp)).congr (by simp)
  | openDirective hhead hopening hclose hline hrest =>
      obtain ⟨rfl, rfl⟩ := List.cons.inj htext
      rw [piece_hash]
      exact (scans_openDirective hhead hopening hclose hline hrest (by simp)).congr (by simp)
  | lineDirective hhead hpayload hline hrest =>
      obtain ⟨rfl, rfl⟩ := List.cons.inj htext
      rw [piece_hash]
      exact scans_lineDirective hhead hpayload hline hrest (by simp)
  | noDigitAfterPoint hsome hdigits hrest =>
      obtain ⟨d, digits, rfl⟩ := List.exists_cons_of_ne_nil hsome
      obtain ⟨rfl, rfl⟩ := List.cons.inj htext
      have hc : c.isDigit = true := hdigits c List.mem_cons_self
      rw [piece_digit hc]
      show Scans (Segment.number c (digits ++ ['.'] ++ rest)) _ (digits ++ ['.']) _
      rw [List.append_assoc]
      exact scans_noDigitAfterPoint (fun d hd => hdigits d (List.mem_cons_of_mem c hd)) hrest
  | @numberWithSuffix number suffix _ d hnumber hd hsuffix hrest =>
      obtain ⟨digit, tail, hasPoint, rfl, hc, hnumeral⟩ :=
        numeral_of_numberText hnumber hd (suffix ++ rest)
      obtain ⟨rfl, rfl⟩ := List.cons.inj htext
      rw [piece_digit hc]
      show Scans (Segment.number c (tail ++ d :: suffix ++ rest)) _ (tail ++ d :: suffix) _
      rw [List.append_assoc]
      exact scans_numberWithSuffix hnumeral hd hsuffix hrest
  | openString hbody hstray hrest =>
      obtain ⟨rfl, rfl⟩ := List.cons.inj htext
      rw [piece_quote, List.append_assoc]
      exact scans_openString hbody hstray hrest
  | emptyChar =>
      obtain ⟨rfl, rfl⟩ := List.cons.inj htext
      rw [piece_apostrophe]
      exact ⟨rfl, rfl, rfl⟩
  | openChar hbody hrest =>
      obtain ⟨rfl, rfl⟩ := List.cons.inj htext
      rw [piece_apostrophe]
      exact scans_openChar hbody hrest
  | strayQuote hstray hrest =>
      obtain ⟨rfl, rfl⟩ := List.cons.inj htext
      rw [piece_apostrophe]
      exact scans_strayQuote hstray hrest
  | unrecognized hblank hword hdigit hmarks hsymbols =>
      obtain ⟨rfl, rfl⟩ := List.cons.inj htext
      simp only [List.mem_cons, List.not_mem_nil, or_false, not_or] at hmarks
      obtain ⟨hhash, hquote, hapostrophe⟩ := hmarks
      have hslash : c ≠ '/' := by
        rintro rfl
        exact hsymbols (.operator .slash) (mem_symbols_operator .slash) ⟨rest, rfl⟩
      rw [piece_symbol ⟨hblank, hhash, hword, hdigit, hquote, hapostrophe⟩
        fun heq => absurd heq hslash]
      exact scans_unrecognized hsymbols

end Segment

end

/-! ## Every text begins with a piece -/

/-- Some piece that begins with `c` has its shape in front of what is left of `cs`. -/
def BeginsPiece (c : Char) (cs : List Char) : Prop :=
  ∃ (verdict : Verdict) (taken rest : List Char),
    cs = taken ++ rest ∧ verdict.Fits (c :: taken) rest

section

variable {c : Char} {cs text : List Char}

/-- Every text has a first line. -/
theorem exists_line (text : List Char) :
    ∃ line rest, text = line ++ rest ∧ '\n' ∉ line ∧ AtLineEnd rest := by
  obtain ⟨line, rest, hsplit, hline, hrest⟩ := exists_while (· != '\n') text
  exact ⟨line, rest, hsplit, hline.notMem (by simp), hrest⟩

/-! ### Directives and comments -/

theorem begins_directive (cs : List Char) : BeginsPiece '#' cs := by
  obtain ⟨name, cs, rfl, hname, hwordEnds⟩ := exists_while Text.inWord cs
  obtain ⟨gap, payload, rfl, hgap, hgapEnds⟩ := exists_while isGap cs
  have hhead : DirectiveHead name gap payload := ⟨hname, hgap, hwordEnds, hgapEnds⟩
  by_cases hopens : Stops opensPayload payload
  · obtain ⟨line, rest, rfl, hline, hrest⟩ := exists_line payload
    have hopens' : Stops opensPayload line := by
      cases line with
      | nil => exact stops_nil
      | cons c line => exact stops_cons.2 (stops_cons.1 hopens)
    exact ⟨_, name ++ gap ++ line, rest, by simp, .lineDirective hhead hopens' hline hrest⟩
  · obtain ⟨opening, payload, rfl, hopening⟩ := exists_cons_of_not_stops hopens
    obtain ⟨body, rest, rfl, hbody, hrest⟩ := exists_while
      (fun c => c != Segment.closingDelimiter opening && c != '\n') payload
    have hclose : Segment.closingDelimiter opening ∉ body := hbody.notMem (by simp)
    have hline : '\n' ∉ body := hbody.notMem (by simp)
    have hhead' : DirectiveHead name gap (opening :: body) := hhead.extend
    by_cases hend : AtLineEnd rest
    · exact ⟨_, name ++ gap ++ opening :: body, rest, by simp,
        .openDirective hhead' hopening hclose hline hend⟩
    · -- what stops the payload and is not the end of the line closes it
      obtain ⟨d, rest, rfl, hd⟩ := exists_cons_of_not_stops hend
      have hstop := stops_cons.1 hrest
      have heq : d = Segment.closingDelimiter opening := by
        rw [hd, Bool.and_true, bne_eq_false_iff_eq] at hstop
        exact hstop
      subst heq
      exact ⟨_, name ++ gap ++ opening :: (body ++ [Segment.closingDelimiter opening]), rest,
        by simp, .closedDirective hhead' hopening hclose hline⟩

/-- A text has a first closing of a comment or none. -/
theorem exists_close (text : List Char) :
    (∃ body rest, text = body ++ '*' :: '/' :: rest ∧ ¬['*', '/'] <:+: body) ∨
      ¬['*', '/'] <:+: text := by
  induction text with
  | nil => exact .inr (by simp)
  | cons c cs ih =>
      by_cases hprefix : ['*', '/'] <+: c :: cs
      · obtain ⟨rest, hrest⟩ := hprefix
        exact .inl ⟨[], rest, hrest.symm, by simp⟩
      rcases ih with ⟨body, rest, rfl, hbody⟩ | hnone
      · refine .inl ⟨c :: body, rest, rfl, ?_⟩
        rw [List.infix_cons_iff]
        rintro (hbegins | hinfix)
        · exact hprefix (hbegins.trans (List.prefix_append (c :: body) _))
        · exact hbody hinfix
      · refine .inr ?_
        rw [List.infix_cons_iff]
        rintro (hbegins | hinfix)
        · exact hprefix hbegins
        · exact hnone hinfix

theorem begins_comment (h : ¬Stops opensComment cs) : BeginsPiece '/' cs := by
  obtain ⟨d, cs, rfl, hd⟩ := exists_cons_of_not_stops h
  rw [opensComment, Bool.or_eq_true, beq_iff_eq, beq_iff_eq] at hd
  rcases hd with rfl | rfl
  · obtain ⟨line, rest, rfl, hline, hrest⟩ := exists_line cs
    exact ⟨_, '/' :: line, rest, rfl, .lineComment hline hrest⟩
  · rcases exists_close cs with ⟨body, rest, rfl, hbody⟩ | hnone
    · exact ⟨_, '*' :: (body ++ ['*', '/']), rest, by simp, .blockComment hbody⟩
    · exact ⟨_, '*' :: cs, [], by simp, .openComment hnone⟩

/-! ### Words and numbers -/

theorem begins_word (h : Text.startsWord c = true) (cs : List Char) : BeginsPiece c cs := by
  obtain ⟨taken, rest, rfl, htaken, hrest⟩ := exists_while Text.inWord cs
  by_cases hreserved : Reserved (c :: taken)
  · obtain ⟨word, hword⟩ := hreserved
    have hwritten : (Kind.keyword word).Written (c :: taken) := hword ▸ .keyword word
    exact ⟨_, taken, rest, rfl, .token hwritten hrest⟩
  · exact ⟨_, taken, rest, rfl, .token (.ident h htaken hreserved) hrest⟩

/-- A number is malformed if a word follows. -/
theorem begins_suffix {tail rest : List Char} (h : NumberText (c :: tail))
    (hrest : ¬Stops Text.startsWord rest) : BeginsPiece c (tail ++ rest) := by
  obtain ⟨d, cs, rfl, hd⟩ := exists_cons_of_not_stops hrest
  obtain ⟨suffix, rest, rfl, hsuffix, hends⟩ := exists_while Text.inWord cs
  exact ⟨_, tail ++ d :: suffix, rest, by simp, .numberWithSuffix h hd hsuffix hends⟩

theorem begins_number (h : c.isDigit = true) (cs : List Char) : BeginsPiece c cs := by
  obtain ⟨digits, rest, rfl, hdigits, hends⟩ := exists_while Char.isDigit cs
  have hall : Wholly Char.isDigit (c :: digits) := wholly_cons h hdigits
  have hsome : c :: digits ≠ [] := List.cons_ne_nil c digits
  by_cases hpoint : Stops (· == '.') rest
  · by_cases hword : Stops Text.startsWord rest
    · refine ⟨_, digits, rest, rfl, .token (.int hsome hall) ?_⟩
      intro d hd
      simp [hends d hd, hpoint d hd, hword d hd]
    · exact begins_suffix (.inl (.int hsome hall)) hword
  · obtain ⟨d, cs, rfl, hd⟩ := exists_cons_of_not_stops hpoint
    rw [beq_iff_eq] at hd
    subst hd
    obtain ⟨decimals, rest, rfl, hdecimals, hends'⟩ := exists_while Char.isDigit cs
    by_cases hmore : decimals = []
    · subst hmore
      exact ⟨_, digits ++ ['.'], rest, by simp, .noDigitAfterPoint hsome hall hends'⟩
    · have hwritten : (Kind.literal .float).Written (c :: (digits ++ '.' :: decimals)) :=
        .float hsome hall hmore hdecimals
      by_cases hword : Stops Text.startsWord rest
      · refine ⟨_, digits ++ '.' :: decimals, rest, by simp, .token hwritten ?_⟩
        intro d hd
        simp [hends' d hd, hword d hd]
      · have hbegins := begins_suffix (.inr hwritten) hword
        rwa [List.append_assoc] at hbegins

/-! ### Strings and characters -/

/-- A text in quotes runs up to the next quote or to the end of its line, where a backslash may
stand. -/
theorem exists_quotedText (text : List Char) :
    ∃ body behind, text = body ++ behind ∧ QuotedText '"' body ∧
      ((∃ rest, behind = '"' :: rest) ∨
        ∃ stray rest, behind = stray ++ rest ∧ (stray = [] ∨ stray = ['\\']) ∧
          AtLineEnd rest) := by
  induction text using Segment.stringTail.induct with
  | case1 => exact ⟨[], [], rfl, .nil, .inr ⟨[], [], rfl, .inl rfl, stops_nil⟩⟩
  | case2 cs => exact ⟨[], '"' :: cs, rfl, .nil, .inl ⟨cs, rfl⟩⟩
  | case3 cs =>
      exact ⟨[], '\n' :: cs, rfl, .nil,
        .inr ⟨[], '\n' :: cs, rfl, .inl rfl, atLineEnd_cons.2 rfl⟩⟩
  | case4 cs =>
      exact ⟨[], '\\' :: '\n' :: cs, rfl, .nil,
        .inr ⟨['\\'], '\n' :: cs, rfl, .inr rfl, atLineEnd_cons.2 rfl⟩⟩
  | case5 c cs hline ih =>
      obtain ⟨body, behind, rfl, hbody, hbehind⟩ := ih
      exact ⟨'\\' :: c :: body, behind, rfl, .cons (.escaped hline) hbody, hbehind⟩
  | case6 c cs hquote hline hslash ih =>
      by_cases heq : c = '\\'
      · -- a backslash that takes nothing with it is the last character of the text
        subst heq
        have hnil : cs = [] := by
          cases cs with
          | nil => rfl
          | cons d cs => exact absurd rfl (hslash d cs rfl)
        subst hnil
        exact ⟨[], ['\\'], rfl, .nil, .inr ⟨['\\'], [], rfl, .inr rfl, stops_nil⟩⟩
      · obtain ⟨body, behind, rfl, hbody, hbehind⟩ := ih
        exact ⟨c :: body, behind, rfl, .cons (.plain hquote heq hline) hbody, hbehind⟩

theorem begins_string (cs : List Char) : BeginsPiece '"' cs := by
  obtain ⟨body, behind, rfl, hbody, ⟨rest, rfl⟩ | ⟨stray, rest, rfl, hstray, hrest⟩⟩ :=
    exists_quotedText cs
  · exact ⟨_, body ++ ['"'], rest, by simp, .token (.string hbody) trivial⟩
  · exact ⟨_, body ++ stray, rest, by simp, .openString hbody hstray hrest⟩

/-- A quoted character stands behind the quote, or the line ends there. -/
theorem begins_quotedChar {body : List Char} (h : QuotedChar '\'' body) (rest : List Char) :
    BeginsPiece '\'' (body ++ rest) := by
  by_cases hclosed : Stops (· == '\'') rest
  · exact ⟨_, body, rest, rfl, .openChar h hclosed⟩
  · obtain ⟨d, rest, rfl, hd⟩ := exists_cons_of_not_stops hclosed
    rw [beq_iff_eq] at hd
    subst hd
    exact ⟨_, body ++ ['\''], rest, by simp, .token (.char h) trivial⟩

theorem begins_char (cs : List Char) : BeginsPiece '\'' cs := by
  by_cases hend : AtLineEnd cs
  · exact ⟨_, [], cs, rfl, .strayQuote (.inl rfl) hend⟩
  obtain ⟨c, cs, rfl, hc⟩ := exists_cons_of_not_stops hend
  have hline : c ≠ '\n' := by simpa using hc
  by_cases hquote : c = '\''
  · subst hquote
    exact ⟨_, ['\''], cs, rfl, .emptyChar⟩
  by_cases hslash : c = '\\'
  · subst hslash
    by_cases hend' : AtLineEnd cs
    · exact ⟨_, ['\\'], cs, rfl, .strayQuote (.inr rfl) hend'⟩
    · obtain ⟨d, cs, rfl, hd⟩ := exists_cons_of_not_stops hend'
      exact begins_quotedChar (.escaped (by simpa using hd)) cs
  · exact begins_quotedChar (.plain hquote hslash hline) cs

/-! ### Symbols -/

theorem fits_symbol {kind : Kind} {text rest : List Char} (hkind : kind ∈ Kind.symbols)
    (htext : kind.symbolText = text) (hlongest : LongestSymbol text rest)
    (hslash : text = ['/'] → Stops opensComment rest) :
    (Verdict.token kind (.ofList text)).Fits text rest := by
  subst htext
  cases kind with
  | operator sign => exact .token (.operator sign) ⟨hlongest, hslash⟩
  | punct mark => exact .token (.punct mark) hlongest
  | _ => simp [Kind.symbols] at hkind

theorem begins_symbol (hc : Text.isBlank c = false ∧ Text.startsWord c = false ∧
      c.isDigit = false ∧ c ∉ ['#', '"', '\'']) (hslash : c = '/' → Stops opensComment cs) :
    BeginsPiece c cs := by
  by_cases hsymbol : ∃ kind ∈ Kind.symbols, kind.symbolText <+: c :: cs
  · obtain ⟨kind, hkind, hprefix⟩ := hsymbol
    obtain ⟨longest, hmem, rest, htext, hlongest⟩ := exists_longestSymbol hkind hprefix
    have hsome : longest.symbolText ≠ [] := by
      have htable : ∀ kind ∈ Kind.symbols, kind.symbolText ≠ [] := by decide +kernel
      exact htable longest hmem
    obtain ⟨d, taken, hspelling⟩ := List.exists_cons_of_ne_nil hsome
    rw [hspelling, List.cons_append] at htext
    obtain ⟨rfl, rfl⟩ := List.cons.inj htext
    rw [hspelling] at hlongest
    refine ⟨_, taken, rest, rfl, fits_symbol hmem hspelling hlongest ?_⟩
    intro heq
    obtain ⟨rfl, rfl⟩ := List.cons.inj heq
    exact hslash rfl
  · have hnone : ∀ kind ∈ Kind.symbols, ¬kind.symbolText <+: c :: cs :=
      fun kind hkind hprefix => hsymbol ⟨kind, hkind, hprefix⟩
    exact ⟨_, [], cs, rfl, .unrecognized hc.1 hc.2.1 hc.2.2.1 hc.2.2.2 hnone⟩

/-- **Every text begins with a piece that has its shape.** -/
theorem exists_fits (c : Char) (cs : List Char) : BeginsPiece c cs := by
  by_cases hblank : Text.isBlank c = true
  · exact ⟨_, [], cs, rfl, .space hblank⟩
  by_cases hword : Text.startsWord c = true
  · exact begins_word hword cs
  by_cases hdigit : c.isDigit = true
  · exact begins_number hdigit cs
  by_cases hmark : c ∈ ['#', '"', '\'']
  · simp only [List.mem_cons, List.not_mem_nil, or_false] at hmark
    rcases hmark with rfl | rfl | rfl
    · exact begins_directive cs
    · exact begins_string cs
    · exact begins_char cs
  by_cases hcomment : c = '/' ∧ ¬Stops opensComment cs
  · obtain ⟨rfl, hopens⟩ := hcomment
    exact begins_comment hopens
  · refine begins_symbol ⟨by simpa using hblank, by simpa using hword, by simpa using hdigit,
      hmark⟩ ?_
    intro hslash
    by_cases hopens : Stops opensComment cs
    · exact hopens
    · exact absurd ⟨hslash, hopens⟩ hcomment

end

/-! ## The piece found -/

section

variable {c : Char} {cs taken rest : List Char} {verdict : Verdict}

/-- **The piece found has its shape.** -/
theorem fits_piece (c : Char) (cs : List Char) :
    (Segment.piece c cs).1.Fits (c :: (Segment.piece c cs).2.taken)
      (Segment.piece c cs).2.rest := by
  obtain ⟨verdict, taken, rest, rfl, hfits⟩ := exists_fits c cs
  obtain ⟨hverdict, htaken, hrest⟩ := Segment.scans_of_fits hfits
  rw [hverdict, htaken, hrest]
  exact hfits

end

end MiniC
