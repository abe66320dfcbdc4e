import Mathlib.Data.List.Infix
import Mathlib.Data.List.TakeWhile
import Mathlib.Tactic.IntervalCases
import MiniC.Format

/-!
# `MiniC.Proofs.Formats.Layout` — format texts taken apart

A format text is plain text with specifiers in it.  In plain text percent signs come in pairs; a
specifier is a percent sign, any modifiers, and the character of a conversion.  Neither a modifier
nor a conversion is written with a percent sign, so a text can be taken apart in one way at most.

The scanner goes over a text from left to right and looks one character ahead.  The main lemma
says what it does with a layout in front of any rest: it collects the specifiers of the layout and
goes on with the rest.  So it is enough to see that a text which cannot be taken apart has a
layout at its front, and behind it a specifier that never gets to its conversion.  No other layout
reaches further, since the scanner would have to accept a part of that specifier.

## Contents
- `FormatSpec.modifierCharacters`, `Conversion.characters`: the characters of specifiers.
- `PlainText`, `WrittenSpec`, `FormatLayout`: **a format text taken apart**; `FormatFault`.
- `ofChars_pair`, …: the scanner, one step at a time; `FormatLayout.ofChars`: a layout at once.
- `FormatLayout.unique`, `exists_layout`, `FormatFault.longest`.
- `format_taken_apart`: **the scanner yields the one layout of a text, or what is behind the
  longest one.**
-/

namespace MiniC

/-! ## Characters -/

/-- The characters that may stand between the percent sign and the conversion: flags, digits, the
point of a precision, and the letters of a length. -/
def FormatSpec.modifierCharacters : List Char :=
  ['-', '+', ' ', '#', '0', '1', '2', '3', '4', '5', '6', '7', '8', '9', '.', 'h', 'l', 'L']

/-- The characters that ask for the conversion. -/
def Conversion.characters : Conversion → List Char
  | integer => ['d', 'i', 'u', 'o', 'x', 'X']
  | char => ['c']
  | floating => ['f', 'F', 'e', 'E', 'g', 'G']
  | string => ['s']
  | pointer => ['p']

open FormatSpec (modifierCharacters isModifier ofChars)

theorem mem_digits {c : Char} (h : c.isDigit = true) :
    c ∈ ['0', '1', '2', '3', '4', '5', '6', '7', '8', '9'] := by
  obtain ⟨hlow, hhigh⟩ := Char.isDigit_iff_toNat.1 h
  rw [← Char.ofNat_toNat c]
  generalize c.toNat = n at hlow hhigh
  change 48 ≤ n at hlow
  change n ≤ 57 at hhigh
  interval_cases n <;> decide

theorem isModifier_iff {c : Char} : isModifier c = true ↔ c ∈ modifierCharacters := by
  constructor
  · intro h
    have hdigits : ['0', '1', '2', '3', '4', '5', '6', '7', '8', '9'] ⊆ modifierCharacters := by
      simp [modifierCharacters]
    have hothers : ['-', '+', ' ', '#', '.', 'h', 'l', 'L'] ⊆ modifierCharacters := by
      simp [modifierCharacters]
    rw [isModifier, Bool.or_eq_true, decide_eq_true_eq] at h
    rcases h with hdigit | hother
    · exact hdigits (mem_digits hdigit)
    · exact hothers hother
  · intro h
    have hall : modifierCharacters.Forall (isModifier · = true) := by decide
    exact List.forall_iff_forall_mem.1 hall c h

theorem ofChar?_eq_some {c : Char} {k : Conversion} :
    Conversion.ofChar? c = some k ↔ c ∈ k.characters := by
  constructor
  · intro h
    unfold Conversion.ofChar? at h
    split_ifs at h with hinteger hchar hfloating hstring hpointer <;> cases h
    · exact hinteger
    · exact List.mem_singleton.2 hchar
    · exact hfloating
    · exact List.mem_singleton.2 hstring
    · exact List.mem_singleton.2 hpointer
  · intro h
    have hall : k.characters.Forall (Conversion.ofChar? · = some k) := by cases k <;> decide
    exact List.forall_iff_forall_mem.1 hall c h

theorem ofChar?_eq_none {c : Char} :
    Conversion.ofChar? c = none ↔ ∀ k : Conversion, c ∉ k.characters := by
  rw [Option.eq_none_iff_forall_ne_some]
  exact forall_congr' fun k => not_congr ofChar?_eq_some

/-- The character of a conversion ends the modifiers. -/
theorem Conversion.not_modifier {c : Char} {k : Conversion} (h : c ∈ k.characters) :
    c ∉ modifierCharacters := by
  have hall : k.characters.Forall (· ∉ modifierCharacters) := by cases k <;> decide
  exact List.forall_iff_forall_mem.1 hall c h

theorem Conversion.ne_percent {c : Char} {k : Conversion} (h : c ∈ k.characters) : c ≠ '%' := by
  have hall : k.characters.Forall (· ≠ '%') := by cases k <;> decide
  exact List.forall_iff_forall_mem.1 hall c h

theorem modifier_ne_percent {c : Char} (h : c ∈ modifierCharacters) : c ≠ '%' := by
  have hall : modifierCharacters.Forall (· ≠ '%') := by decide
  exact List.forall_iff_forall_mem.1 hall c h

/-! ## Layouts -/

/-- Text that is printed as it is: characters other than the percent sign, and pairs of percent
signs. -/
inductive IsPlain : List Char → Prop
  | nil : IsPlain []
  | char {c : Char} {rest : List Char} : c ≠ '%' → IsPlain rest → IsPlain (c :: rest)
  | percent {rest : List Char} : IsPlain rest → IsPlain ('%' :: '%' :: rest)

/-- Plain text. -/
structure PlainText where
  text : List Char
  plain : IsPlain text

/-- A specifier as it is written. -/
structure WrittenSpec where
  modifiers : List Char
  character : Char
  conversion : Conversion
  modifiers_mem : ∀ c ∈ modifiers, c ∈ modifierCharacters
  character_mem : character ∈ conversion.characters

namespace WrittenSpec

/-- The text of a specifier. -/
def text (s : WrittenSpec) : List Char := '%' :: (s.modifiers ++ [s.character])

/-- What a specifier asks for, with its text. -/
def spec (s : WrittenSpec) : FormatSpec := ⟨s.conversion, .ofList s.text⟩

end WrittenSpec

/-- A format text taken apart: plain text and specifiers in turn, with plain text at both ends. -/
inductive FormatLayout
  | last (plain : PlainText)
  | cons (plain : PlainText) (spec : WrittenSpec) (rest : FormatLayout)

namespace FormatLayout

/-- The text that is taken apart. -/
def text : FormatLayout → List Char
  | last plain => plain.text
  | cons plain spec rest => plain.text ++ (spec.text ++ rest.text)

/-- The specifiers of a layout, in order. -/
def written : FormatLayout → List WrittenSpec
  | last _ => []
  | cons _ spec rest => spec :: rest.written

/-- What the specifiers of a layout ask for. -/
def specs (l : FormatLayout) : List FormatSpec := l.written.map WrittenSpec.spec

end FormatLayout

/-- A text that begins with a specifier which never gets to its conversion, and what is wrong with
it: behind the modifiers the text ends, or another character stands. -/
inductive FormatFault : List Char → FormatError → Prop
  | incomplete {modifiers : List Char} :
      (∀ c ∈ modifiers, c ∈ modifierCharacters) →
      FormatFault ('%' :: modifiers) (.incomplete (.ofList ('%' :: modifiers)))
  | unknown {modifiers rest : List Char} {c : Char} :
      (∀ c ∈ modifiers, c ∈ modifierCharacters) → c ∉ modifierCharacters →
      (∀ k : Conversion, c ∉ k.characters) → (modifiers = [] → c ≠ '%') →
      FormatFault ('%' :: (modifiers ++ c :: rest))
        (.unknownConversion (.ofList ('%' :: (modifiers ++ [c]))))

/-! ## The scanner, step by step -/

section Steps

variable {c : Char} {modifiers rest : List Char}

theorem ofChars_nil : ofChars [] = .ok [] := by
  rw [ofChars]

theorem ofChars_pair (rest : List Char) : ofChars ('%' :: '%' :: rest) = ofChars rest := by
  rw [ofChars]

theorem ofChars_char (h : c ≠ '%') (rest : List Char) : ofChars (c :: rest) = ofChars rest := by
  rw [ofChars]
  · intro _ heq
    exact absurd heq h
  · intro heq
    exact absurd heq h

/-- Modifiers up to the end of the text. -/
theorem ofChars_open (hmodifiers : ∀ c ∈ modifiers, c ∈ modifierCharacters) :
    ofChars ('%' :: modifiers) = .error (.incomplete (.ofList ('%' :: modifiers))) := by
  have hall : ∀ c ∈ modifiers, isModifier c = true := fun c hc =>
    isModifier_iff.2 (hmodifiers c hc)
  have htake : modifiers.takeWhile isModifier = modifiers := List.takeWhile_eq_self_iff.2 hall
  have hdrop : modifiers.dropWhile isModifier = [] := List.dropWhile_eq_nil_iff.2 hall
  rw [ofChars]
  · split
    next _ => rw [htake]
    next _ _ hmore =>
      rw [hdrop] at hmore
      cases hmore
  · rintro behind rfl
    exact modifier_ne_percent (hmodifiers '%' List.mem_cons_self) rfl

/-- Modifiers up to a character that is none: the conversion that it asks for decides. -/
theorem ofChars_closed (hmodifiers : ∀ c ∈ modifiers, c ∈ modifierCharacters)
    (hc : c ∉ modifierCharacters) (hpair : modifiers = [] → c ≠ '%') (rest : List Char) :
    ofChars ('%' :: (modifiers ++ c :: rest)) =
      match Conversion.ofChar? c with
      | none => .error (.unknownConversion (.ofList ('%' :: (modifiers ++ [c]))))
      | some k => (ofChars rest).map (⟨k, .ofList ('%' :: (modifiers ++ [c]))⟩ :: ·) := by
  have hall : ∀ c ∈ modifiers, isModifier c = true := fun c hc =>
    isModifier_iff.2 (hmodifiers c hc)
  have hstop : ¬isModifier c = true := fun h => hc (isModifier_iff.1 h)
  have htake : (modifiers ++ c :: rest).takeWhile isModifier = modifiers := by
    rw [List.takeWhile_append_of_pos hall, List.takeWhile_cons_of_neg hstop, List.append_nil]
  have hdrop : (modifiers ++ c :: rest).dropWhile isModifier = c :: rest := by
    rw [List.dropWhile_append_of_pos hall, List.dropWhile_cons_of_neg hstop]
  rw [ofChars]
  · split
    next hnone =>
      rw [hdrop] at hnone
      cases hnone
    next _ _ hsome =>
      rw [hdrop] at hsome
      cases hsome
      cases Conversion.ofChar? c <;> simp [htake]
  · intro behind hbehind
    cases modifiers with
    | nil => exact hpair rfl (List.cons.inj hbehind).1
    | cons m ms =>
        exact modifier_ne_percent (hmodifiers m List.mem_cons_self) (List.cons.inj hbehind).1

end Steps

/-! ## The scanner on layouts -/

/-- Plain text is passed over. -/
theorem IsPlain.ofChars {plain : List Char} (h : IsPlain plain) (rest : List Char) :
    ofChars (plain ++ rest) = FormatSpec.ofChars rest := by
  induction h with
  | nil => rfl
  | char hc _ ih =>
      rw [List.cons_append, ofChars_char hc]
      exact ih
  | percent _ ih =>
      rw [List.cons_append, List.cons_append, ofChars_pair]
      exact ih

/-- A specifier is collected. -/
theorem WrittenSpec.ofChars (s : WrittenSpec) (rest : List Char) :
    ofChars (s.text ++ rest) = (FormatSpec.ofChars rest).map (s.spec :: ·) := by
  have htext : s.text ++ rest = '%' :: (s.modifiers ++ s.character :: rest) := by
    simp [text]
  have hconversion := ofChar?_eq_some.2 s.character_mem
  rw [htext, ofChars_closed s.modifiers_mem (Conversion.not_modifier s.character_mem)
    (fun _ => Conversion.ne_percent s.character_mem), hconversion]
  rfl

/-- **A layout in front of a rest is collected,** and then the scanner goes on with the rest. -/
theorem FormatLayout.ofChars (l : FormatLayout) (rest : List Char) :
    ofChars (l.text ++ rest) = (FormatSpec.ofChars rest).map (l.specs ++ ·) := by
  induction l with
  | last plain =>
      rw [text, plain.plain.ofChars]
      cases FormatSpec.ofChars rest <;> rfl
  | cons plain spec more ih =>
      rw [text, List.append_assoc, List.append_assoc, plain.plain.ofChars, spec.ofChars, ih]
      cases FormatSpec.ofChars rest <;> rfl

/-- The whole of a layout is collected. -/
theorem FormatLayout.ofChars_text (l : FormatLayout) :
    FormatSpec.ofChars l.text = .ok l.specs := by
  have hrun := l.ofChars []
  rw [List.append_nil, ofChars_nil] at hrun
  rw [hrun]
  simp [Except.map]

/-- A specifier that never gets to its conversion is refused. -/
theorem FormatFault.ofChars {rest : List Char} {error : FormatError} (h : FormatFault rest error) :
    FormatSpec.ofChars rest = .error error := by
  cases h with
  | incomplete hmodifiers => exact ofChars_open hmodifiers
  | unknown hmodifiers hc hnone hpair =>
      rw [ofChars_closed hmodifiers hc hpair, ofChar?_eq_none.2 hnone]

/-! ## One layout at most -/

/-- Two plain texts with a specifier behind each of them are the same if all is. -/
theorem IsPlain.unique {plain plain' : List Char} (h : IsPlain plain) (h' : IsPlain plain')
    (s s' : WrittenSpec) {rest rest' : List Char}
    (heq : plain ++ (s.text ++ rest) = plain' ++ (s'.text ++ rest')) : plain = plain' := by
  -- a specifier begins with a percent sign, and no other stands behind it
  have hsecond : ∀ (s : WrittenSpec) (rest more : List Char),
      s.text ++ rest ≠ '%' :: '%' :: more := by
    intro s rest more hpair
    obtain ⟨-, hbehind⟩ := List.cons.inj hpair
    cases hmodifiers : s.modifiers with
    | nil =>
        rw [hmodifiers] at hbehind
        exact Conversion.ne_percent s.character_mem (List.cons.inj hbehind).1
    | cons m ms =>
        rw [hmodifiers] at hbehind
        have hmem : m ∈ modifierCharacters := s.modifiers_mem m (by simp [hmodifiers])
        exact modifier_ne_percent hmem (List.cons.inj hbehind).1
  induction h generalizing plain' with
  | nil =>
      cases h' with
      | nil => rfl
      | char hc _ => exact absurd (List.cons.inj heq).1.symm hc
      | percent _ => exact absurd heq (hsecond s rest _)
  | char hc _ ih =>
      cases h' with
      | nil => exact absurd (List.cons.inj heq).1 hc
      | char _ hplain' =>
          obtain ⟨rfl, hrest⟩ := List.cons.inj heq
          rw [ih hplain' hrest]
      | percent _ => exact absurd (List.cons.inj heq).1 hc
  | percent _ ih =>
      cases h' with
      | nil => exact absurd heq.symm (hsecond s' rest' _)
      | char hc _ => exact absurd (List.cons.inj heq).1.symm hc
      | percent hplain' =>
          obtain ⟨-, hbehind⟩ := List.cons.inj heq
          obtain ⟨-, hrest⟩ := List.cons.inj hbehind
          rw [ih hplain' hrest]

/-- A specifier is what is written. -/
theorem WrittenSpec.spec_injective {s s' : WrittenSpec} (h : s.spec = s'.spec) : s = s' := by
  obtain ⟨hconversion, htext⟩ := FormatSpec.mk.inj h
  obtain ⟨-, hbehind⟩ := List.cons.inj (String.ofList_injective htext)
  obtain ⟨hmodifiers, hcharacter⟩ := List.append_inj' hbehind rfl
  cases s
  cases s'
  cases hconversion
  cases hmodifiers
  cases hcharacter
  rfl

/-- **No text can be taken apart in two ways.** -/
theorem FormatLayout.unique : ∀ {l l' : FormatLayout}, l.text = l'.text → l = l' := by
  intro l
  induction l with
  | last plain =>
      intro l' heq
      cases l' with
      | last plain' =>
          cases plain
          cases plain'
          cases heq
          rfl
      | cons plain' s' rest' =>
          have hspecs := (FormatLayout.last plain).ofChars_text
          rw [heq, ofChars_text] at hspecs
          cases hspecs
  | cons plain s rest ih =>
      intro l' heq
      cases l' with
      | last plain' =>
          have hspecs := (FormatLayout.last plain').ofChars_text
          rw [← heq, ofChars_text] at hspecs
          cases hspecs
      | cons plain' s' rest' =>
          have hspecs := (FormatLayout.cons plain s rest).ofChars_text
          rw [heq, ofChars_text] at hspecs
          obtain ⟨hspec, -⟩ := List.cons.inj (Except.ok.inj hspecs)
          obtain rfl := WrittenSpec.spec_injective hspec
          have hplain : plain.text = plain'.text := plain.plain.unique plain'.plain _ _ heq
          cases plain
          cases plain'
          cases hplain
          have hrest : rest.text = rest'.text :=
            List.append_cancel_left (List.append_cancel_left heq)
          rw [ih hrest]

/-! ## The longest layout -/

namespace FormatLayout

/-- A layout with a character in front that is printed as it is. -/
def push (c : Char) (hc : c ≠ '%') : FormatLayout → FormatLayout
  | last plain => last ⟨c :: plain.text, .char hc plain.plain⟩
  | cons plain spec rest => cons ⟨c :: plain.text, .char hc plain.plain⟩ spec rest

/-- A layout with a pair of percent signs in front. -/
def pushPercent : FormatLayout → FormatLayout
  | last plain => last ⟨'%' :: '%' :: plain.text, .percent plain.plain⟩
  | cons plain spec rest => cons ⟨'%' :: '%' :: plain.text, .percent plain.plain⟩ spec rest

@[simp] theorem text_push (c : Char) (hc : c ≠ '%') (l : FormatLayout) :
    (l.push c hc).text = c :: l.text := by
  cases l <;> rfl

@[simp] theorem text_pushPercent (l : FormatLayout) :
    l.pushPercent.text = '%' :: '%' :: l.text := by
  cases l <;> rfl

/-- No text, taken apart. -/
def empty : FormatLayout := last ⟨[], .nil⟩

/-- A layout with a specifier in front. -/
def pushSpec (s : WrittenSpec) (l : FormatLayout) : FormatLayout := cons ⟨[], .nil⟩ s l

end FormatLayout

/-- What a percent sign is: half of a pair, the beginning of a specifier, or of one that never gets
to its conversion. -/
theorem percent_cases (behind : List Char) :
    (∃ rest, behind = '%' :: rest) ∨
      (∃ (s : WrittenSpec) (rest : List Char), '%' :: behind = s.text ++ rest) ∨
      ∃ error, FormatFault ('%' :: behind) error := by
  have hsplit : behind.takeWhile isModifier ++ behind.dropWhile isModifier = behind :=
    List.takeWhile_append_dropWhile
  have hmodifiers : ∀ c ∈ behind.takeWhile isModifier, c ∈ modifierCharacters := fun c hc =>
    isModifier_iff.1 (List.all_eq_true.1 List.all_takeWhile c hc)
  have hhead := List.head?_dropWhile_not isModifier behind
  generalize behind.takeWhile isModifier = modifiers at hsplit hmodifiers
  generalize behind.dropWhile isModifier = stop at hsplit hhead
  subst hsplit
  cases stop with
  | nil =>
      rw [List.append_nil]
      exact .inr (.inr ⟨_, .incomplete hmodifiers⟩)
  | cons c rest =>
      have hc : c ∉ modifierCharacters := by
        intro hmem
        exact absurd (isModifier_iff.2 hmem) (Bool.eq_false_iff.1 hhead)
      by_cases hpair : modifiers = [] ∧ c = '%'
      · obtain ⟨rfl, rfl⟩ := hpair
        exact .inl ⟨rest, rfl⟩
      · cases hconversion : Conversion.ofChar? c with
        | none =>
            exact .inr (.inr ⟨_, .unknown hmodifiers hc (ofChar?_eq_none.1 hconversion)
              fun hnil hpercent => hpair ⟨hnil, hpercent⟩⟩)
        | some k =>
            have hc := ofChar?_eq_some.1 hconversion
            refine .inr (.inl ⟨⟨modifiers, c, k, hmodifiers, hc⟩, rest, ?_⟩)
            simp [WrittenSpec.text]

/-- **Every text has a layout at its front,** and behind it nothing, or a specifier that never
gets to its conversion. -/
theorem exists_layout (text : List Char) : ∃ (l : FormatLayout) (rest : List Char),
    text = l.text ++ rest ∧ (rest = [] ∨ ∃ error, FormatFault rest error) := by
  match text with
  | [] => exact ⟨.empty, [], rfl, .inl rfl⟩
  | c :: behind =>
      by_cases hc : c = '%'
      · subst hc
        rcases percent_cases behind with ⟨more, rfl⟩ | ⟨s, more, hspec⟩ | ⟨error, hfault⟩
        · obtain ⟨l, rest, rfl, hend⟩ := exists_layout more
          exact ⟨l.pushPercent, rest, by simp, hend⟩
        · have hshorter : more.length < ('%' :: behind).length := by
            rw [hspec, List.length_append]
            have hpositive : 0 < s.text.length := Nat.succ_pos _
            omega
          obtain ⟨l, rest, rfl, hend⟩ := exists_layout more
          refine ⟨l.pushSpec s, rest, ?_, hend⟩
          simp [hspec, FormatLayout.pushSpec, FormatLayout.text]
        · exact ⟨.empty, '%' :: behind, rfl, .inr ⟨error, hfault⟩⟩
      · obtain ⟨l, rest, rfl, hend⟩ := exists_layout behind
        exact ⟨l.push c hc, rest, by simp, hend⟩
termination_by text.length
decreasing_by
  all_goals
    subst_vars
    simp only [List.length_cons] at *
    omega

/-- A part of what never gets to its conversion does not get there, either. -/
theorem FormatFault.of_prefix {rest front : List Char} {error : FormatError}
    (h : FormatFault rest error) (hfront : front <+: rest) (hne : front ≠ []) :
    ∃ error', FormatFault front error' := by
  obtain ⟨c, front, rfl⟩ := List.exists_cons_of_ne_nil hne
  cases h with
  | incomplete hmodifiers =>
      obtain ⟨rfl, hbehind⟩ := List.cons_prefix_cons.1 hfront
      exact ⟨_, .incomplete fun c hc => hmodifiers c (hbehind.subset hc)⟩
  | @unknown modifiers rest c hmodifiers hc hnone hpair =>
      obtain ⟨rfl, behind, hbehind⟩ := List.cons_prefix_cons.1 hfront
      rcases List.append_eq_append_iff.1 hbehind with
        ⟨more, rfl, -⟩ | ⟨more, rfl, hmore⟩
      · exact ⟨_, .incomplete fun c hc => hmodifiers c (List.mem_append_left _ hc)⟩
      · cases more with
        | nil =>
            rw [List.append_nil]
            exact ⟨_, .incomplete hmodifiers⟩
        | cons d more =>
            obtain ⟨rfl, -⟩ := List.cons.inj hmore
            exact ⟨_, .unknown hmodifiers hc hnone hpair⟩

/-- **No layout reaches into what never gets to its conversion.** -/
theorem FormatFault.longest {l l' : FormatLayout} {rest : List Char} {error : FormatError}
    (h : FormatFault rest error) (hfront : l'.text <+: l.text ++ rest) :
    l'.text.length ≤ l.text.length := by
  by_contra hlonger
  obtain ⟨front, hl'⟩ : l.text <+: l'.text :=
    List.prefix_of_prefix_length_le (List.prefix_append _ _) hfront (by omega)
  have hne : front ≠ [] := by
    rintro rfl
    rw [List.append_nil] at hl'
    rw [hl'] at hlonger
    exact hlonger (Nat.le_refl _)
  rw [← hl', List.prefix_append_right_inj] at hfront
  obtain ⟨error', hfault⟩ := h.of_prefix hfront hne
  -- the scanner cannot both collect the longer layout and refuse what it has in front
  have hrun := l'.ofChars_text
  rw [← hl', l.ofChars, hfault.ofChars] at hrun
  cases hrun

/-! ## Format texts -/

/-- A text is accepted for its layout. -/
theorem FormatLayout.ofText_text (l : FormatLayout) :
    FormatSpec.ofText (.ofList l.text) = .ok l.specs := by
  rw [FormatSpec.ofText, String.toList_ofList, l.ofChars_text]

theorem ofText_eq_ok {text : String} {specs : List FormatSpec} :
    FormatSpec.ofText text = .ok specs ↔
      ∃ l : FormatLayout, l.text = text.toList ∧ l.specs = specs := by
  constructor
  · intro h
    obtain ⟨l, rest, htext, rfl | ⟨error, hfault⟩⟩ := exists_layout text.toList
    · rw [List.append_nil] at htext
      refine ⟨l, htext.symm, ?_⟩
      rw [FormatSpec.ofText, htext, l.ofChars_text] at h
      exact Except.ok.inj h
    · rw [FormatSpec.ofText, htext, l.ofChars, hfault.ofChars] at h
      cases h
  · rintro ⟨l, htext, rfl⟩
    rw [FormatSpec.ofText, ← htext, l.ofChars_text]

theorem ofText_eq_error {text : String} {error : FormatError} :
    FormatSpec.ofText text = .error error ↔
      ∃ (l : FormatLayout) (rest : List Char), text.toList = l.text ++ rest ∧
        FormatFault rest error := by
  constructor
  · intro h
    obtain ⟨l, rest, htext, rfl | ⟨error', hfault⟩⟩ := exists_layout text.toList
    · rw [FormatSpec.ofText, htext, List.append_nil, l.ofChars_text] at h
      cases h
    · rw [FormatSpec.ofText, htext, l.ofChars, hfault.ofChars] at h
      cases h
      exact ⟨l, rest, htext, hfault⟩
  · rintro ⟨l, rest, htext, hfault⟩
    rw [FormatSpec.ofText, htext, l.ofChars, hfault.ofChars]
    rfl

/-- **The scanner yields the one layout of a text, or what is behind the longest one.**  A text is
accepted if and only if it can be taken apart; there is one way to do so, and what is yielded are
its specifiers in order, each with its text and the conversion that its last character asks for.
Any other text is refused for the specifier behind the longest layout at its front, the one that
never gets to its conversion, with its text up to the character that is to blame.  So an accepted
text in front of another one is passed over: the specifiers of both are collected, or the second
is refused as it would be alone. -/
theorem format_taken_apart (text : String) :
    (∀ specs, FormatSpec.ofText text = .ok specs ↔
      ∃ l : FormatLayout, l.text = text.toList ∧ l.specs = specs) ∧
    (∀ l l' : FormatLayout, l.text = text.toList → l'.text = text.toList → l = l') ∧
    (∀ error, FormatSpec.ofText text = .error error ↔
      ∃ (l : FormatLayout) (rest : List Char), text.toList = l.text ++ rest ∧
        (∀ l' : FormatLayout, l'.text <+: text.toList → l'.text.length ≤ l.text.length) ∧
        FormatFault rest error) ∧
    ∀ specs, FormatSpec.ofText text = .ok specs → ∀ more : String,
      FormatSpec.ofText (text ++ more) = (FormatSpec.ofText more).map (specs ++ ·) := by
  refine ⟨fun specs => ofText_eq_ok, fun l l' hl hl' => ?_, fun error => ?_, fun specs h more => ?_⟩
  · exact FormatLayout.unique (hl.trans hl'.symm)
  · rw [ofText_eq_error]
    constructor
    · rintro ⟨l, rest, htext, hfault⟩
      refine ⟨l, rest, htext, fun l' hl' => ?_, hfault⟩
      rw [htext] at hl'
      exact hfault.longest hl'
    · rintro ⟨l, rest, htext, -, hfault⟩
      exact ⟨l, rest, htext, hfault⟩
  · obtain ⟨l, htext, rfl⟩ := ofText_eq_ok.1 h
    show FormatSpec.ofChars (text ++ more).toList = _
    rw [String.toList_append, ← htext]
    exact l.ofChars more.toList

end MiniC
