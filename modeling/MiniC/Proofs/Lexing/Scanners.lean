import MiniC.Proofs.Lexing.Shape

/-!
# `MiniC.Proofs.Lexing.Scanners` — every scanner cuts off the piece that has its shape

The scanners are run on a text that is put together from a piece and a rest.  If the piece has its
shape in front of the rest, the scanner finds that it ends there.

## Contents
- `Span.Splits`: where a span divides its text, with one lemma for each cutter.
- `scans_lineDirective`, `comment?_line`, `scans_word`, `scans_number`, …: one lemma for each
  scanner and each way that its piece may end.
-/

namespace MiniC

/-! ## Stops and spans -/

section

variable {p q : Char → Bool} {c : Char} {text body rest : List Char}

theorem stops_nil : Stops p [] := fun _ h => nomatch h

theorem stops_cons : Stops p (c :: rest) ↔ p c = false := by
  simp [Stops]

theorem stops_iff : Stops p rest ↔ rest.head?.any p = false := by
  cases rest <;> simp [Stops]

theorem Stops.of_imp (h : ∀ c, q c = true → p c = true) (hp : Stops p rest) : Stops q rest :=
  fun c hc => Bool.eq_false_iff.2 fun hq => by
    have hpc := h c hq
    rw [hp c hc] at hpc
    exact Bool.false_ne_true hpc

theorem exists_cons_of_not_stops (h : ¬Stops p text) :
    ∃ c cs, text = c :: cs ∧ p c = true := by
  cases text with
  | nil => exact absurd stops_nil h
  | cons c cs =>
      rw [stops_cons, Bool.not_eq_false] at h
      exact ⟨c, cs, rfl, h⟩

theorem atLineEnd_cons : AtLineEnd (c :: rest) ↔ c = '\n' := by
  rw [AtLineEnd, stops_cons]
  simp

/-- At the end of a line stands nothing that is not a line feed. -/
theorem AtLineEnd.stops (h : AtLineEnd rest) (hp : p '\n' = false) : Stops p rest := by
  intro c hc
  cases rest with
  | nil => cases hc
  | cons d rest =>
      cases hc
      rw [atLineEnd_cons.1 h]
      exact hp

theorem wholly_nil : Wholly p [] := fun _ h => nomatch h

theorem wholly_cons (hc : p c = true) (h : Wholly p text) : Wholly p (c :: text) := by
  intro d hd
  rcases List.mem_cons.1 hd with rfl | hd
  · exact hc
  · exact h d hd

theorem Wholly.notMem (h : Wholly p text) (hc : p c = false) : c ∉ text := by
  intro hmem
  rw [h c hmem] at hc
  exact Bool.false_ne_true hc.symm

/-- A text without a character is wholly made of others. -/
theorem wholly_of_notMem (h : c ∉ text) : Wholly (· != c) text := by
  intro d hd
  simpa using fun heq : d = c => h (heq ▸ hd)

/-- Every text begins with characters that satisfy `p`, up to one that does not. -/
theorem exists_while (p : Char → Bool) (text : List Char) :
    ∃ body rest, text = body ++ rest ∧ Wholly p body ∧ Stops p rest := by
  refine ⟨text.takeWhile p, text.dropWhile p, List.takeWhile_append_dropWhile.symm, ?_, ?_⟩
  · exact fun c hc => List.all_eq_true.1 List.all_takeWhile c hc
  · intro c hc
    have hhead := List.head?_dropWhile_not p text
    rw [Option.mem_def] at hc
    simpa [hc] using hhead

end

namespace Span

/-- Where a span divides its text. -/
structure Splits {text : List Char} (span : Span text) (taken rest : List Char) : Prop where
  taken : span.taken = taken
  rest : span.rest = rest

variable {text taken taken' rest rest' : List Char} {p : Char → Bool} {c : Char}

theorem splits_nothing : (nothing text).Splits [] text := ⟨rfl, rfl⟩

theorem Splits.cons {span : Span text} (h : span.Splits taken rest) :
    (span.cons c).Splits (c :: taken) rest :=
  ⟨congrArg (c :: ·) h.taken, h.rest⟩

theorem Splits.andThen {first : Span text} {next : (rest : List Char) → Span rest}
    (h₁ : first.Splits taken rest) (h₂ : (next rest).Splits taken' rest') :
    (first.andThen next).Splits (taken ++ taken') rest' := by
  obtain ⟨rfl, rfl⟩ := h₁
  exact ⟨congrArg (first.taken ++ ·) h₂.taken, h₂.rest⟩

theorem Splits.sees {span : Span text} (h : span.Splits taken rest) :
    span.sees p = rest.head?.any p := by
  rw [Span.sees, h.rest]

theorem Splits.sees_cons {span : Span text} (h : span.Splits taken (c :: rest)) :
    span.sees p = p c := h.sees

theorem Splits.sees_of_stops {span : Span text} (h : span.Splits taken rest)
    (hrest : Stops p rest) : span.sees p = false := by
  rw [h.sees]
  exact stops_iff.1 hrest

theorem splits_while (h : Wholly p taken) (hrest : Stops p rest) :
    (while_ p (taken ++ rest)).Splits taken rest := by
  induction taken with
  | nil =>
      cases rest with
      | nil => exact ⟨rfl, rfl⟩
      | cons c rest =>
          have hc : p c = false := stops_cons.1 hrest
          constructor <;> simp [while_, hc]
  | cons c taken ih =>
      have hc : p c = true := h c List.mem_cons_self
      obtain ⟨htaken, hrest⟩ := ih fun d hd => h d (List.mem_cons_of_mem c hd)
      simp only [while_] at htaken hrest
      constructor
      · simp [while_, hc, htaken]
      · simp [while_, hc, hrest]

theorem splits_optional (h : p c = true) : (optional p (c :: rest)).Splits [c] rest := by
  simp only [optional, h, if_true]
  exact splits_nothing.cons

theorem splits_optional_nothing (h : Stops p rest) : (optional p rest).Splits [] rest := by
  cases rest with
  | nil => exact ⟨rfl, rfl⟩
  | cons c rest =>
      simp only [optional, stops_cons.1 h]
      exact splits_nothing

theorem splits_take : (take taken.length (taken ++ rest)).Splits taken rest :=
  ⟨List.take_left, List.drop_left⟩

theorem splits_take_one : (take 1 (c :: rest)).Splits [c] rest := ⟨rfl, rfl⟩

end Span

/-! ## Scanners -/

/-- What a scanner says of the piece `taken` in front of `rest`. -/
structure Scans {text : List Char} (found : Verdict × Span text) (verdict : Verdict)
    (taken rest : List Char) : Prop where
  verdict : found.1 = verdict
  splits : found.2.Splits taken rest

/-! ## Directives -/

section

variable {name gap payload payload' body cs rest : List Char} {opening : Char}

/-- Only the first character behind a head matters. -/
theorem DirectiveHead.extend {c : Char} (h : DirectiveHead name gap (c :: payload)) :
    DirectiveHead name gap (c :: payload') where
  word := h.word
  blank := h.blank
  wordEnds := by
    have hends := h.wordEnds
    cases gap <;> exact stops_cons.2 (stops_cons.1 hends)
  gapEnds := stops_cons.2 (stops_cons.1 h.gapEnds)

namespace Segment

theorem splits_head (h : DirectiveHead name gap payload) :
    ((Span.while_ Text.inWord (name ++ (gap ++ payload))).andThen
      (.while_ fun c => c == ' ' || c == '\t')).Splits (name ++ gap) payload :=
  (Span.splits_while h.word h.wordEnds).andThen (Span.splits_while h.blank h.gapEnds)

/-- What a directive's payload is read up to. -/
theorem wholly_payload (hclose : closingDelimiter opening ∉ body) (hline : '\n' ∉ body) :
    Wholly (fun c => c != closingDelimiter opening && c != '\n') body := by
  intro c hc
  rw [Bool.and_eq_true]
  exact ⟨wholly_of_notMem hclose c hc, wholly_of_notMem hline c hc⟩

theorem closingDelimiter_ne (c : Char) : closingDelimiter c ≠ '\n' := by
  unfold closingDelimiter
  split <;> decide

/-- A payload that opens with a delimiter ends with the closing one. -/
theorem scans_closedDirective (hhead : DirectiveHead name gap (opening :: body))
    (hopening : opensPayload opening = true) (hclose : closingDelimiter opening ∉ body)
    (hline : '\n' ∉ body)
    (hcs : cs = name ++ (gap ++ opening :: (body ++ closingDelimiter opening :: rest))) :
    Scans (directive cs)
      (.token .directive (.ofList ('#' :: (name ++ ' ' :: opening ::
        (body ++ [closingDelimiter opening])))))
      (name ++ gap ++ [opening] ++ body ++ [closingDelimiter opening]) rest := by
  subst hcs
  have hhead' : DirectiveHead name gap
      (opening :: (body ++ closingDelimiter opening :: rest)) := hhead.extend
  have hsplits := splits_head hhead'
  have hname := Span.splits_while hhead'.word hhead'.wordEnds
  have hpayload := (hsplits.andThen Span.splits_take_one).andThen
    (Span.splits_while (wholly_payload hclose hline)
      (stops_cons.2 (by simp) : Stops _ (closingDelimiter opening :: rest)))
  have hclosed : Span.Splits (Span.andThen _ (.optional (· == closingDelimiter opening))) _ _ :=
    hpayload.andThen (Span.splits_optional (by simp))
  have hsees := hpayload.sees_cons (p := (· == closingDelimiter opening))
  have hfilter : (some opening).filter (fun c => c == '<' || c == '"') = some opening :=
    Option.filter_some_pos hopening
  unfold directive
  simp only [hsplits.rest, List.head?_cons, hfilter]
  rw [if_pos (by rw [hsees]; simp)]
  refine ⟨?_, hclosed⟩
  rw [hclosed.taken, hname.taken, hsplits.taken]
  simp

/-- A payload that is not closed ends with the line. -/
theorem scans_openDirective (hhead : DirectiveHead name gap (opening :: body))
    (hopening : opensPayload opening = true) (hclose : closingDelimiter opening ∉ body)
    (hline : '\n' ∉ body) (hrest : AtLineEnd rest)
    (hcs : cs = name ++ (gap ++ opening :: (body ++ rest))) :
    Scans (directive cs)
      (.openDirective (.ofList ('#' :: (name ++ ' ' :: opening :: body)))
        (closingDelimiter opening))
      (name ++ gap ++ [opening] ++ body ++ []) rest := by
  subst hcs
  have hhead' : DirectiveHead name gap (opening :: (body ++ rest)) := hhead.extend
  have hsplits := splits_head hhead'
  have hname := Span.splits_while hhead'.word hhead'.wordEnds
  have hnoClose : Stops (· == closingDelimiter opening) rest :=
    hrest.stops (beq_eq_false_iff_ne.2 (closingDelimiter_ne opening).symm)
  have hpayload := (hsplits.andThen Span.splits_take_one).andThen
    (Span.splits_while (wholly_payload hclose hline) (hrest.stops (by simp)))
  have hclosed : Span.Splits (Span.andThen _ (.optional (· == closingDelimiter opening))) _ _ :=
    hpayload.andThen (Span.splits_optional_nothing hnoClose)
  have hsees := hpayload.sees_of_stops hnoClose
  have hfilter : (some opening).filter (fun c => c == '<' || c == '"') = some opening :=
    Option.filter_some_pos hopening
  unfold directive
  simp only [hsplits.rest, List.head?_cons, hfilter]
  rw [if_neg (by rw [hsees]; exact Bool.false_ne_true)]
  refine ⟨?_, hclosed⟩
  rw [hclosed.taken, hname.taken, hsplits.taken]
  simp

/-- Any other payload is the rest of the line. -/
theorem scans_lineDirective (hhead : DirectiveHead name gap (payload ++ rest))
    (hpayload : Stops opensPayload payload) (hline : '\n' ∉ payload) (hrest : AtLineEnd rest)
    (hcs : cs = name ++ (gap ++ (payload ++ rest))) :
    Scans (directive cs) (.token .directive (.ofList ('#' :: (name ++ payloadText payload))))
      (name ++ gap ++ payload) rest := by
  subst hcs
  have hsplits := splits_head hhead
  have hname := Span.splits_while hhead.word hhead.wordEnds
  have hall := hsplits.andThen
    (Span.splits_while (wholly_of_notMem hline) (hrest : Stops _ rest))
  have hopens : Stops opensPayload (payload ++ rest) := by
    cases payload with
    | nil => exact hrest.stops (by decide)
    | cons c payload => exact stops_cons.2 (stops_cons.1 hpayload)
  have hfilter : (payload ++ rest).head?.filter (fun c => c == '<' || c == '"') = none :=
    Option.filter_eq_none_iff.2 fun c hc => Bool.eq_false_iff.1 (hopens c hc)
  unfold directive
  simp only [hsplits.rest, hfilter]
  refine ⟨?_, hall⟩
  rw [hall.taken, hname.taken, hsplits.taken, List.drop_left]
  rfl

end Segment

end

/-! ## Comments -/

section

variable {body cs rest : List Char}

namespace Segment

theorem comment?_line (hline : '\n' ∉ body) (hrest : AtLineEnd rest) :
    ∃ span, comment? ('/' :: (body ++ rest)) = some span ∧ span.Splits ('/' :: body) rest :=
  ⟨_, rfl, (Span.splits_while (wholly_of_notMem hline) hrest).cons⟩

/-- Behind an asterisk that closes nothing comes no slash. -/
theorem blockCommentTail_cons {c : Char} (h : ¬['*', '/'] <+: c :: cs) :
    blockCommentTail (c :: cs) = (blockCommentTail cs).cons c := by
  rw [blockCommentTail]
  intro cs' hc hcs
  exact h ⟨cs', by rw [hc, hcs]; rfl⟩

theorem splits_blockCommentTail (h : ¬['*', '/'] <:+: body) :
    (blockCommentTail (body ++ '*' :: '/' :: rest)).Splits (body ++ ['*', '/']) rest := by
  induction body with
  | nil => exact ⟨rfl, rfl⟩
  | cons c body ih =>
      have hbegins : ¬['*', '/'] <+: c :: (body ++ '*' :: '/' :: rest) := by
        -- the closing slash stands behind an asterisk, so it cannot be the one meant here
        intro hfront
        cases body with
        | nil => simp at hfront
        | cons d body =>
            simp only [List.cons_append, List.cons_prefix_cons, List.nil_prefix, and_true]
              at hfront
            exact h ⟨[], body, by rw [hfront.1, hfront.2]; rfl⟩
      rw [List.cons_append, blockCommentTail_cons hbegins]
      exact (ih fun hinside => h (hinside.trans (List.suffix_cons c body).isInfix)).cons

theorem splits_openCommentTail (h : ¬['*', '/'] <:+: body) :
    (blockCommentTail body).Splits body [] := by
  induction body with
  | nil => exact ⟨rfl, rfl⟩
  | cons c body ih =>
      rw [blockCommentTail_cons fun hfront => h hfront.isInfix]
      exact (ih fun hinside => h (hinside.trans (List.suffix_cons c body).isInfix)).cons

theorem comment?_block (h : ¬['*', '/'] <:+: body) :
    ∃ span, comment? ('*' :: (body ++ '*' :: '/' :: rest)) = some span ∧
      span.Splits ('*' :: (body ++ ['*', '/'])) rest :=
  ⟨_, rfl, (splits_blockCommentTail h).cons⟩

theorem comment?_open (h : ¬['*', '/'] <:+: body) :
    ∃ span, comment? ('*' :: body) = some span ∧ span.Splits ('*' :: body) [] :=
  ⟨_, rfl, (splits_openCommentTail h).cons⟩

theorem comment?_none (h : Stops opensComment cs) : comment? cs = none := by
  cases cs with
  | nil => rfl
  | cons c cs =>
      have hc : opensComment c = false := stops_cons.1 h
      have hslash : c ≠ '/' := by rintro rfl; exact absurd hc (by decide)
      have hstar : c ≠ '*' := by rintro rfl; exact absurd hc (by decide)
      rw [comment?]
      · intro cs' heq
        exact absurd (List.cons.inj heq).1 hslash
      · intro cs' heq
        exact absurd (List.cons.inj heq).1 hstar

end Segment

end

/-! ## Words and numbers -/

section

variable {c : Char} {digits decimals number suffix cs text rest : List Char}

namespace Segment

theorem scans_word (h : Wholly Text.inWord text) (hrest : Stops Text.inWord rest) :
    Scans (word c (text ++ rest))
      (.token (.ofWord (.ofList (c :: text))) (.ofList (c :: text))) text rest := by
  have htail := Span.splits_while h hrest
  refine ⟨?_, htail⟩
  show Verdict.token _ _ = _
  rw [htail.taken]

/-- A number without its first digit stands in front of `rest`: digits, and if there is a point,
digits behind it. -/
structure Numeral (cs : List Char) (hasPoint : Bool) (number rest : List Char) : Prop where
  point : (Span.while_ Char.isDigit cs).sees (· == '.') = hasPoint
  decimal : hasPoint = true →
    ((Span.while_ Char.isDigit cs).andThen (.optional (· == '.'))).sees Char.isDigit = true
  splits : (((Span.while_ Char.isDigit cs).andThen (.optional (· == '.'))).andThen
    (.while_ Char.isDigit)).Splits number rest

/-- The digits of a number end where no digit and no point stands. -/
theorem numeral_int (hdigits : Wholly Char.isDigit digits)
    (hrest : Stops (fun c => c.isDigit || c == '.') rest) :
    Numeral (digits ++ rest) false digits rest := by
  have hdigit : Stops Char.isDigit rest := hrest.of_imp (by simp +contextual)
  have hpoint : Stops (· == '.') rest := hrest.of_imp (by simp +contextual)
  have hspan := Span.splits_while hdigits hdigit
  have hnumber := (hspan.andThen (Span.splits_optional_nothing hpoint)).andThen
    (Span.splits_while (p := Char.isDigit) wholly_nil hdigit)
  rw [List.append_nil, List.append_nil] at hnumber
  exact ⟨hspan.sees_of_stops hpoint, fun h => absurd h Bool.false_ne_true, hnumber⟩

/-- A point is followed by digits. -/
theorem numeral_float (hdigits : Wholly Char.isDigit digits) (hsome : decimals ≠ [])
    (hdecimals : Wholly Char.isDigit decimals) (hrest : Stops Char.isDigit rest) :
    Numeral (digits ++ '.' :: (decimals ++ rest)) true (digits ++ '.' :: decimals) rest := by
  have hstops : Stops Char.isDigit ('.' :: (decimals ++ rest)) := stops_cons.2 (by decide)
  have hspan := Span.splits_while hdigits hstops
  have hpoint : Span.Splits (Span.andThen _ (.optional (· == '.'))) _ _ :=
    hspan.andThen (Span.splits_optional (by decide))
  have hnumber := hpoint.andThen (Span.splits_while hdecimals hrest)
  rw [List.append_assoc] at hnumber
  refine ⟨hspan.sees_cons, fun _ => ?_, hnumber⟩
  rw [hpoint.sees]
  cases decimals with
  | nil => exact absurd rfl hsome
  | cons d decimals => exact hdecimals d List.mem_cons_self

theorem scans_number {hasPoint : Bool} (h : Numeral cs hasPoint number rest)
    (hrest : Stops Text.startsWord rest) :
    Scans (Segment.number c cs)
      (.token (.literal (if hasPoint then .float else .int)) (.ofList (c :: number)))
      number rest := by
  have hdecimal : ¬((hasPoint && !((Span.while_ Char.isDigit cs).andThen
      (.optional (· == '.'))).sees Char.isDigit) = true) := by
    rw [Bool.and_eq_true, Bool.not_eq_true']
    rintro ⟨hpoint, hnone⟩
    exact Bool.false_ne_true (hnone.symm.trans (h.decimal hpoint))
  unfold Segment.number
  simp only [h.point]
  rw [if_neg hdecimal, if_neg (by rw [h.splits.sees_of_stops hrest]; exact Bool.false_ne_true)]
  refine ⟨?_, h.splits⟩
  rw [h.splits.taken]

/-- A number that runs into a word is malformed up to the end of the word. -/
theorem scans_numberWithSuffix {hasPoint : Bool} {d : Char}
    (h : Numeral cs hasPoint number (d :: (suffix ++ rest))) (hd : Text.startsWord d = true)
    (hsuffix : Wholly Text.inWord suffix) (hrest : Stops Text.inWord rest) :
    Scans (Segment.number c cs)
      (.malformed (.numberWithSuffix (.ofList (c :: (number ++ d :: suffix)))))
      (number ++ d :: suffix) rest := by
  have hdecimal : ¬((hasPoint && !((Span.while_ Char.isDigit cs).andThen
      (.optional (· == '.'))).sees Char.isDigit) = true) := by
    rw [Bool.and_eq_true, Bool.not_eq_true']
    rintro ⟨hpoint, hnone⟩
    exact Bool.false_ne_true (hnone.symm.trans (h.decimal hpoint))
  have hword : Wholly Text.inWord (d :: suffix) :=
    wholly_cons (Text.inWord_of_startsWord hd) hsuffix
  have hall := h.splits.andThen (Span.splits_while hword hrest)
  unfold Segment.number
  simp only [h.point]
  rw [if_neg hdecimal, if_pos (by rw [h.splits.sees_cons, hd])]
  refine ⟨?_, hall⟩
  rw [hall.taken]

/-- A point without a digit behind it belongs to the malformed number. -/
theorem scans_noDigitAfterPoint (hdigits : Wholly Char.isDigit digits)
    (hrest : Stops Char.isDigit rest) :
    Scans (Segment.number c (digits ++ '.' :: rest))
      (.malformed (.noDigitAfterPoint (.ofList (c :: (digits ++ ['.']))))) (digits ++ ['.'])
      rest := by
  have hstops : Stops Char.isDigit ('.' :: rest) := stops_cons.2 (by decide)
  have hspan := Span.splits_while hdigits hstops
  have hpoint : Span.Splits (Span.andThen _ (.optional (· == '.'))) _ _ :=
    hspan.andThen (Span.splits_optional (by decide))
  unfold Segment.number
  simp only [hspan.sees_cons, hpoint.sees_of_stops hrest, beq_self_eq_true, Bool.not_false,
    Bool.and_self, if_true]
  refine ⟨?_, hpoint⟩
  rw [hpoint.taken]

end Segment

end

/-! ## Strings and characters -/

section

variable {body stray rest : List Char}

namespace Segment

/-- One quoted character is passed over, whatever it is. -/
theorem stringTail_append {c : List Char} (h : QuotedChar '"' c) (cs : List Char) :
    (stringTail (c ++ cs)).1 = (stringTail cs).1 ∧
      ∀ taken rest, (stringTail cs).2.Splits taken rest →
        (stringTail (c ++ cs)).2.Splits (c ++ taken) rest := by
  cases h with
  | plain hquote hslash hline =>
      rw [List.singleton_append, stringTail]
      · exact ⟨rfl, fun taken rest h => h.cons⟩
      all_goals simp_all
  | escaped hline =>
      rw [List.cons_append, List.singleton_append, stringTail, if_neg hline]
      exact ⟨rfl, fun taken rest h => h.cons.cons⟩

theorem scans_string (h : QuotedText '"' body) :
    Scans (stringLiteral (body ++ '"' :: rest))
      (.token (.literal .string) (.ofList ('"' :: (body ++ ['"'])))) (body ++ ['"']) rest := by
  have htail : (stringTail (body ++ '"' :: rest)).1 = true ∧
      (stringTail (body ++ '"' :: rest)).2.Splits (body ++ ['"']) rest := by
    induction h with
    | nil => exact ⟨rfl, rfl, rfl⟩
    | cons hc _ ih =>
        obtain ⟨hclosed, hsplits⟩ := stringTail_append hc (_ ++ '"' :: rest)
        rw [List.append_assoc, List.append_assoc]
        exact ⟨hclosed.trans ih.1, hsplits _ _ ih.2⟩
  unfold stringLiteral
  rw [if_pos htail.1]
  refine ⟨?_, htail.2⟩
  rw [htail.2.taken]

/-- A backslash alone at the end of the line belongs to the string. -/
theorem splits_stray (hstray : stray = [] ∨ stray = ['\\']) (hrest : AtLineEnd rest) :
    (stringTail (stray ++ rest)).1 = false ∧
      (stringTail (stray ++ rest)).2.Splits stray rest := by
  have hend : rest = [] ∨ ∃ cs, rest = '\n' :: cs := by
    cases rest with
    | nil => exact .inl rfl
    | cons c cs => exact .inr ⟨cs, by rw [atLineEnd_cons.1 hrest]⟩
  rcases hstray with rfl | rfl <;> rcases hend with rfl | ⟨cs, rfl⟩ <;>
    simp [stringTail] <;> exact ⟨rfl, rfl⟩

theorem scans_openString (h : QuotedText '"' body) (hstray : stray = [] ∨ stray = ['\\'])
    (hrest : AtLineEnd rest) :
    Scans (stringLiteral (body ++ (stray ++ rest))) (.malformed .unterminatedString)
      (body ++ stray) rest := by
  have htail : (stringTail (body ++ (stray ++ rest))).1 = false ∧
      (stringTail (body ++ (stray ++ rest))).2.Splits (body ++ stray) rest := by
    induction h with
    | nil => exact splits_stray hstray hrest
    | cons hc _ ih =>
        obtain ⟨hclosed, hsplits⟩ := stringTail_append hc (_ ++ (stray ++ rest))
        rw [List.append_assoc, List.append_assoc]
        exact ⟨hclosed.trans ih.1, hsplits _ _ ih.2⟩
  unfold stringLiteral
  rw [if_neg (by rw [htail.1]; exact Bool.false_ne_true)]
  exact ⟨rfl, htail.2⟩

theorem splits_charBody (h : QuotedChar '\'' body) :
    (charBody (body ++ rest)).Splits body rest := by
  cases h with
  | plain hquote hslash hline =>
      rw [List.singleton_append, charBody]
      · exact Span.splits_nothing.cons
      all_goals simp_all
  | escaped hline =>
      rw [List.cons_append, charBody]
      exact (Span.splits_optional (by simpa using hline)).cons

theorem scans_char (h : QuotedChar '\'' body) :
    Scans (charLiteral (body ++ '\'' :: rest))
      (.token (.literal .char) (.ofList ('\'' :: (body ++ ['\''])))) (body ++ ['\'']) rest := by
  have hbody : (charBody (body ++ '\'' :: rest)).Splits body ('\'' :: rest) := splits_charBody h
  have hall : Span.Splits (Span.andThen _ (.take 1)) _ _ := hbody.andThen Span.splits_take_one
  have hhead : ((body ++ '\'' :: rest).head? == some '\'') = false := by
    cases h with
    | plain hquote _ _ => simpa using hquote
    | escaped _ => rfl
  unfold charLiteral
  rw [if_neg (by rw [hhead]; exact Bool.false_ne_true)]
  simp only [hbody.sees_cons, beq_self_eq_true, if_true]
  refine ⟨?_, hall⟩
  rw [hall.taken]

theorem scans_openChar (h : QuotedChar '\'' body) (hrest : Stops (· == '\'') rest) :
    Scans (charLiteral (body ++ rest)) (.malformed .unterminatedCharacter) body rest := by
  have hbody : (charBody (body ++ rest)).Splits body rest := splits_charBody h
  have hhead : ((body ++ rest).head? == some '\'') = false := by
    cases h with
    | plain hquote _ _ => simpa using hquote
    | escaped _ => rfl
  unfold charLiteral
  rw [if_neg (by rw [hhead]; exact Bool.false_ne_true)]
  simp only [hbody.sees_of_stops hrest, Bool.false_eq_true, if_false]
  exact ⟨rfl, hbody⟩

theorem scans_strayQuote (hstray : stray = [] ∨ stray = ['\\']) (hrest : AtLineEnd rest) :
    Scans (charLiteral (stray ++ rest)) (.malformed .unterminatedCharacter) stray rest := by
  have hend : rest = [] ∨ ∃ cs, rest = '\n' :: cs := by
    cases rest with
    | nil => exact .inl rfl
    | cons c cs => exact .inr ⟨cs, by rw [atLineEnd_cons.1 hrest]⟩
  rcases hstray with rfl | rfl <;> rcases hend with rfl | ⟨cs, rfl⟩ <;> exact ⟨rfl, rfl, rfl⟩

end Segment

end

/-! ## Symbols -/

section

variable {c : Char} {taken rest : List Char} {kind : Kind}

/-- The table of symbols lists longer spellings first, and no spelling twice. -/
theorem pairwise_symbols :
    Kind.symbols.Pairwise fun first second =>
      second.symbolText.length ≤ first.symbolText.length ∧
        first.symbolText ≠ second.symbolText := by
  decide +kernel

/-- The symbol found first is the longest one, and the only one with its spelling. -/
theorem first_symbol {text : List Char} {found : Kind}
    (hfound : (Kind.symbols.find? fun kind => kind.symbolText.isPrefixOf text) = some found)
    (hkind : kind ∈ Kind.symbols) (hfront : kind.symbolText <+: text) :
    kind = found ∨ (kind.symbolText.length ≤ found.symbolText.length ∧
      found.symbolText ≠ kind.symbolText) := by
  obtain ⟨_, before, behind, hsplit, hbefore⟩ := List.find?_eq_some_iff_append.1 hfound
  rw [hsplit, List.mem_append, List.mem_cons] at hkind
  rcases hkind with hmem | heq | hmem
  · have hnot := hbefore kind hmem
    rw [List.isPrefixOf_iff_prefix.2 hfront] at hnot
    exact absurd hnot (by decide)
  · exact .inl heq
  · have hpair := pairwise_symbols
    rw [hsplit, List.pairwise_append, List.pairwise_cons] at hpair
    exact .inr (hpair.2.1.1 kind hmem)

theorem find_symbol {text : List Char} (hkind : kind ∈ Kind.symbols)
    (hfront : kind.symbolText <+: text) :
    ∃ found, (Kind.symbols.find? fun kind => kind.symbolText.isPrefixOf text) = some found ∧
      found ∈ Kind.symbols ∧ found.symbolText <+: text := by
  have hsome : (Kind.symbols.find? fun kind : Kind => kind.symbolText.isPrefixOf text).isSome :=
    List.find?_isSome.2 ⟨kind, hkind, List.isPrefixOf_iff_prefix.2 hfront⟩
  obtain ⟨found, hfound⟩ := Option.isSome_iff_exists.1 hsome
  have hfits : found.symbolText.isPrefixOf text = true := by simpa using List.find?_some hfound
  exact ⟨found, hfound, List.mem_of_find?_eq_some hfound, List.isPrefixOf_iff_prefix.1 hfits⟩

theorem longestSymbol?_eq_some (hkind : kind ∈ Kind.symbols)
    (hlongest : LongestSymbol kind.symbolText rest) :
    Kind.longestSymbol? (kind.symbolText ++ rest) =
      some (kind, kind.symbolText.length) := by
  have hfront : kind.symbolText <+: kind.symbolText ++ rest := List.prefix_append _ _
  obtain ⟨found, hfound, hmem, hfits⟩ := find_symbol hkind hfront
  have hle : found.symbolText.length ≤ kind.symbolText.length := hlongest found hmem hfits
  have heq : kind = found := by
    rcases first_symbol hfound hkind hfront with heq | ⟨hshorter, hne⟩
    · exact heq
    · -- both stand at the beginning of the text, and neither is longer than the other
      have hsame := List.prefix_of_prefix_length_le hfits hfront hle
      exact absurd (hsame.eq_of_length (by omega)) hne
  rw [Kind.longestSymbol?, hfound, ← heq]
  rfl

/-- If any symbol stands at the beginning of a text, one of them is the longest. -/
theorem exists_longestSymbol {text : List Char} (hkind : kind ∈ Kind.symbols)
    (hfront : kind.symbolText <+: text) :
    ∃ longest ∈ Kind.symbols, ∃ rest, text = longest.symbolText ++ rest ∧
      LongestSymbol longest.symbolText rest := by
  obtain ⟨found, hfound, hmem, rest, rfl⟩ := find_symbol hkind hfront
  refine ⟨found, hmem, rest, rfl, ?_⟩
  intro kind hkind hfront
  rcases first_symbol hfound hkind hfront with rfl | ⟨hshorter, _⟩
  · exact Nat.le_refl _
  · exact hshorter

namespace Segment

theorem scans_symbol (hkind : kind ∈ Kind.symbols) (htext : kind.symbolText = c :: taken)
    (hlongest : LongestSymbol (c :: taken) rest) :
    Scans (symbol c (taken ++ rest)) (.token kind (.ofList (c :: taken))) taken rest := by
  rw [← htext] at hlongest
  have hfound := longestSymbol?_eq_some hkind hlongest
  rw [htext, List.cons_append] at hfound
  unfold symbol
  rw [hfound]
  refine ⟨?_, ?_⟩
  · show Verdict.token kind (.ofList ((c :: taken ++ rest).take (c :: taken).length)) = _
    rw [List.take_left]
  · exact Span.splits_take

theorem scans_unrecognized (h : ∀ kind ∈ Kind.symbols, ¬kind.symbolText <+: c :: rest) :
    Scans (symbol c rest) (.malformed (.unrecognized c)) [] rest := by
  have hnone : Kind.longestSymbol? (c :: rest) = none := by
    rw [Kind.longestSymbol?, Option.map_eq_none_iff, List.find?_eq_none]
    intro kind hkind hfront
    exact h kind hkind (List.isPrefixOf_iff_prefix.1 hfront)
  unfold symbol
  rw [hnone]
  exact ⟨rfl, Span.splits_nothing⟩

end Segment

end

end MiniC
