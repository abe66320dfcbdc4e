import MiniC.Proofs.Formats.Layout

/-!
# `MiniC.Proofs.Formats.Documented` — documented format texts

In the documentation the modifiers of a specifier have an order: flags, a width, a precision, a
length.  The scanner knows the characters of modifiers only and takes any run of them.  So it
accepts every documented text, and others as well: an accepted text is a documented one if and
only if the modifiers of each of its specifiers are in order.

What holds of every accepted text is that no percent sign stands alone in it.  The scanner, run on
what is in front of a percent sign, has collected the specifiers in front of it and is between two
of them, or behind the first half of a pair.

## Contents
- `OrderedModifiers`, `FormatSpec.Ordered`, `Documented`: **the documented format texts.**
- `FormatLayout.documented`, `Documented.exists_layout`: they are the layouts with ordered
  specifiers.
- `PercentRole`, `percent_role`: what a percent sign of an accepted text is.
- `Documented.begins`, `OrderedModifiers.letters_last`: how a documented text begins.
- `documented_accepted`: **documented texts are accepted, and what else is.**
- `lengthBeforeWidth_accepted`: an accepted text that is not documented.
-/

namespace MiniC

open FormatSpec (modifierCharacters)

/-! ## Modifiers in order -/

/-- The modifiers of a specifier in the order of the documentation, each part of which may be
absent. -/
structure OrderedModifiers where
  flags : List Char
  width : List Char
  precision : List Char
  length : List Char
  flags_mem : ∀ c ∈ flags, c ∈ ['-', '+', ' ', '#', '0']
  width_digits : ∀ c ∈ width, c.isDigit = true
  precision_point : precision = [] ∨ ∃ digits : List Char, precision = '.' :: digits ∧
    digits ≠ [] ∧ ∀ c ∈ digits, c.isDigit = true
  length_mem : length ∈ [[], ['h'], ['h', 'h'], ['l'], ['l', 'l'], ['L']]

namespace OrderedModifiers

/-- The modifiers as they are written. -/
def text (o : OrderedModifiers) : List Char := o.flags ++ (o.width ++ (o.precision ++ o.length))

theorem isDigit_mem {c : Char} (h : c.isDigit = true) : c ∈ modifierCharacters := by
  have hdigits : ['0', '1', '2', '3', '4', '5', '6', '7', '8', '9'] ⊆ modifierCharacters := by
    simp [modifierCharacters]
  exact hdigits (mem_digits h)

/-- Modifiers in order are modifiers. -/
theorem text_mem (o : OrderedModifiers) : ∀ c ∈ o.text, c ∈ modifierCharacters := by
  intro c hc
  have hflags : ['-', '+', ' ', '#', '0'] ⊆ modifierCharacters := by simp [modifierCharacters]
  have hlengths : ∀ length ∈ [[], ['h'], ['h', 'h'], ['l'], ['l', 'l'], ['L']],
      length ⊆ modifierCharacters := by simp [modifierCharacters]
  rw [text, List.mem_append, List.mem_append, List.mem_append] at hc
  rcases hc with hflag | hwidth | hprecision | hlength
  · exact hflags (o.flags_mem c hflag)
  · exact isDigit_mem (o.width_digits c hwidth)
  · rcases o.precision_point with hnone | ⟨digits, hpoint, -, hdigits⟩
    · rw [hnone] at hprecision
      exact absurd hprecision List.not_mem_nil
    · rw [hpoint] at hprecision
      rcases List.mem_cons.1 hprecision with rfl | hdigit
      · decide
      · exact isDigit_mem (hdigits c hdigit)
  · exact hlengths o.length o.length_mem hlength

end OrderedModifiers

/-- A specifier with its modifiers in order. -/
def FormatSpec.Ordered (spec : FormatSpec) : Prop :=
  ∃ (o : OrderedModifiers) (c : Char),
    c ∈ spec.conversion.characters ∧ spec.text = .ofList ('%' :: (o.text ++ [c]))

/-- The documented format texts: characters other than the percent sign, pairs of percent signs,
and specifiers with their modifiers in order. -/
inductive Documented : List Char → Prop
  | nil : Documented []
  | char {c : Char} {rest : List Char} : c ≠ '%' → Documented rest → Documented (c :: rest)
  | percent {rest : List Char} : Documented rest → Documented ('%' :: '%' :: rest)
  | spec {o : OrderedModifiers} {k : Conversion} {c : Char} {rest : List Char} :
      c ∈ k.characters → Documented rest → Documented ('%' :: (o.text ++ c :: rest))

/-! ## Documented texts are layouts -/

namespace FormatLayout

@[simp] theorem specs_push (c : Char) (hc : c ≠ '%') (l : FormatLayout) :
    (l.push c hc).specs = l.specs := by
  cases l <;> rfl

@[simp] theorem specs_pushPercent (l : FormatLayout) : l.pushPercent.specs = l.specs := by
  cases l <;> rfl

end FormatLayout

/-- Plain text in front of a documented one. -/
theorem IsPlain.documented {plain rest : List Char} (h : IsPlain plain) (hrest : Documented rest) :
    Documented (plain ++ rest) := by
  induction h with
  | nil => exact hrest
  | char hc _ ih => exact .char hc ih
  | percent _ ih => exact .percent ih

/-- **A layout with ordered specifiers is a documented text.** -/
theorem FormatLayout.documented (l : FormatLayout) (h : ∀ spec ∈ l.specs, spec.Ordered) :
    Documented l.text := by
  induction l with
  | last plain =>
      have hplain := plain.plain.documented .nil
      rwa [List.append_nil] at hplain
  | cons plain s rest ih =>
      obtain ⟨o, c, hc, htext⟩ := h s.spec List.mem_cons_self
      have hrest := ih fun spec hspec => h spec (List.mem_cons_of_mem _ hspec)
      have hwritten : s.text = '%' :: (o.text ++ [c]) := String.ofList_injective htext
      rw [text, hwritten, List.cons_append, List.append_assoc]
      exact plain.plain.documented (.spec hc hrest)

/-- **A documented text has a layout with ordered specifiers.** -/
theorem Documented.exists_layout {chars : List Char} (h : Documented chars) :
    ∃ l : FormatLayout, l.text = chars ∧ ∀ spec ∈ l.specs, spec.Ordered := by
  induction h with
  | nil => exact ⟨.empty, rfl, fun _ hspec => absurd hspec List.not_mem_nil⟩
  | @char c rest hc _ ih =>
      obtain ⟨l, rfl, hordered⟩ := ih
      refine ⟨l.push c hc, l.text_push c hc, ?_⟩
      rwa [l.specs_push]
  | percent _ ih =>
      obtain ⟨l, rfl, hordered⟩ := ih
      refine ⟨l.pushPercent, l.text_pushPercent, ?_⟩
      rwa [l.specs_pushPercent]
  | @spec o k c rest hc _ ih =>
      obtain ⟨l, rfl, hordered⟩ := ih
      refine ⟨l.pushSpec ⟨o.text, c, k, o.text_mem, hc⟩, ?_, ?_⟩
      · simp [FormatLayout.pushSpec, FormatLayout.text, WrittenSpec.text]
      · intro spec hspec
        rcases List.mem_cons.1 hspec with rfl | hmore
        · exact ⟨o, c, hc, rfl⟩
        · exact hordered spec hmore

/-! ## Percent signs -/

/-- What a percent sign is, between the text in front of it and the text behind it, if `specs` are
the specifiers of the whole: a half of a pair, or the beginning of one of the specifiers.  In
front of the pair, or of the specifier, the scanner has collected the specifiers before it. -/
inductive PercentRole (specs : List FormatSpec) : List Char → List Char → Prop
  | firstHalf {before rest : List Char} {taken : List FormatSpec} : taken <+: specs →
      FormatSpec.ofText (.ofList before) = .ok taken → PercentRole specs before ('%' :: rest)
  | secondHalf {before behind : List Char} {taken : List FormatSpec} : taken <+: specs →
      FormatSpec.ofText (.ofList before) = .ok taken → PercentRole specs (before ++ ['%']) behind
  | specifier {before behind : List Char} {taken more : List FormatSpec} {spec : FormatSpec} :
      specs = taken ++ spec :: more → FormatSpec.ofText (.ofList before) = .ok taken →
      spec.text.toList <+: '%' :: behind → PercentRole specs before behind

/-- The scanner collects a layout in front of what it accepts. -/
theorem FormatLayout.specs_prefix {l : FormatLayout} {rest : List Char} {specs : List FormatSpec}
    (h : FormatSpec.ofChars (l.text ++ rest) = .ok specs) :
    ∃ more, FormatSpec.ofChars rest = .ok more ∧ specs = l.specs ++ more := by
  rw [l.ofChars] at h
  cases hrest : FormatSpec.ofChars rest with
  | error error =>
      rw [hrest] at h
      cases h
  | ok more =>
      rw [hrest] at h
      exact ⟨more, rfl, (Except.ok.inj h).symm⟩

/-- A percent sign among the modifiers of a specifier is to blame, unless it stands right behind
the first one. -/
theorem FormatFault.at_percent {modifiers : List Char} (hne : modifiers ≠ [])
    (hmodifiers : ∀ c ∈ modifiers, c ∈ modifierCharacters) (behind : List Char) :
    ∃ error, FormatFault ('%' :: (modifiers ++ '%' :: behind)) error := by
  have hmodifier : '%' ∉ modifierCharacters := fun h => modifier_ne_percent h rfl
  have hconversion : ∀ k : Conversion, '%' ∉ k.characters := fun k h =>
    Conversion.ne_percent h rfl
  exact ⟨_, .unknown hmodifiers hmodifier hconversion fun hnil => absurd hnil hne⟩

/-- **No percent sign stands alone in an accepted text.** -/
theorem percent_role {text : String} {specs : List FormatSpec}
    (h : FormatSpec.ofText text = .ok specs) {before behind : List Char}
    (htext : text.toList = before ++ '%' :: behind) : PercentRole specs before behind := by
  rw [FormatSpec.ofText, htext] at h
  obtain ⟨l, front, rfl, rfl | ⟨error, hfault⟩⟩ := MiniC.exists_layout before
  · -- the scanner is between two specifiers
    rw [List.append_nil] at h ⊢
    obtain ⟨more, hmore, rfl⟩ := FormatLayout.specs_prefix h
    rcases percent_cases behind with ⟨rest, rfl⟩ | ⟨s, rest, hspec⟩ | ⟨error, hfault⟩
    · exact .firstHalf (List.prefix_append _ _) l.ofText_text
    · rw [hspec, s.ofChars] at hmore
      cases hrest : FormatSpec.ofChars rest with
      | error error =>
          rw [hrest] at hmore
          cases hmore
      | ok others =>
          rw [hrest] at hmore
          obtain rfl := Except.ok.inj hmore
          have hfront : s.spec.text.toList <+: '%' :: behind := by
            rw [hspec, WrittenSpec.spec, String.toList_ofList]
            exact List.prefix_append _ _
          exact .specifier rfl l.ofText_text hfront
    · rw [hfault.ofChars] at hmore
      cases hmore
  · -- it is inside of a specifier, which must then be the first half of a pair
    rw [List.append_assoc] at h
    obtain ⟨more, hmore, rfl⟩ := FormatLayout.specs_prefix h
    cases hfault with
    | @incomplete modifiers hmodifiers =>
        by_cases hne : modifiers = []
        · subst hne
          exact .secondHalf (List.prefix_append _ _) l.ofText_text
        · obtain ⟨error, hfault⟩ := FormatFault.at_percent hne hmodifiers behind
          rw [List.cons_append, hfault.ofChars] at hmore
          cases hmore
    | @unknown modifiers rest c hmodifiers hc hnone hpair =>
        have hwhole : FormatFault ('%' :: (modifiers ++ c :: (rest ++ '%' :: behind)))
            (.unknownConversion (.ofList ('%' :: (modifiers ++ [c])))) :=
          .unknown hmodifiers hc hnone hpair
        rw [List.cons_append, List.append_assoc, List.cons_append, hwhole.ofChars] at hmore
        cases hmore

/-! ## How documented texts begin -/

/-- A text begins with a documented specifier. -/
def BeginsDocumented (chars : List Char) : Prop :=
  ∃ (o : OrderedModifiers) (k : Conversion) (c : Char),
    c ∈ k.characters ∧ '%' :: (o.text ++ [c]) <+: chars

/-- A documented text that begins with a percent sign begins with a pair or with a documented
specifier. -/
theorem Documented.begins {behind : List Char} (h : Documented ('%' :: behind)) :
    behind.head? = some '%' ∨ BeginsDocumented ('%' :: behind) := by
  cases h with
  | char hc _ => exact absurd rfl hc
  | percent _ => exact .inl rfl
  | @spec o k c rest hc _ =>
      refine .inr ⟨o, k, c, hc, rest, ?_⟩
      rw [List.cons_append, List.append_assoc, List.singleton_append]

/-- In ordered modifiers the letters of a length come last. -/
theorem OrderedModifiers.letters_last (o : OrderedModifiers) {before behind : List Char} {c : Char}
    (hc : c ∈ ['h', 'l', 'L']) (h : o.text = before ++ c :: behind) :
    ∀ d ∈ behind, d ∈ ['h', 'l', 'L'] := by
  have hlength : o.length ⊆ ['h', 'l', 'L'] := by
    have hlengths : ∀ length ∈ [[], ['h'], ['h', 'h'], ['l'], ['l', 'l'], ['L']],
        length ⊆ ['h', 'l', 'L'] := by simp
    exact hlengths o.length o.length_mem
  have hflags : ∀ d ∈ ['-', '+', ' ', '#', '0'], d ∉ ['h', 'l', 'L'] := by simp
  have hdigits : ∀ d : Char, d.isDigit = true → d ∉ ['h', 'l', 'L'] := by
    intro d hd hletter
    have hletters : ['h', 'l', 'L'].Forall (·.isDigit = false) := by decide
    rw [List.forall_iff_forall_mem.1 hletters d hletter] at hd
    cases hd
  -- no letter of a length stands in the parts in front of it
  have hfront : c ∉ o.flags ++ (o.width ++ o.precision) := by
    rw [List.mem_append, List.mem_append]
    rintro (hflag | hwidth | hprecision)
    · exact hflags c (o.flags_mem c hflag) hc
    · exact hdigits c (o.width_digits c hwidth) hc
    · rcases o.precision_point with hnone | ⟨digits, hpoint, -, hprecise⟩
      · rw [hnone] at hprecision
        exact absurd hprecision List.not_mem_nil
      · rw [hpoint] at hprecision
        rcases List.mem_cons.1 hprecision with rfl | hdigit
        · exact absurd hc (by decide)
        · exact hdigits c (hprecise c hdigit) hc
  have hsplit : before ++ c :: behind = (o.flags ++ (o.width ++ o.precision)) ++ o.length := by
    rw [← h, text, List.append_assoc, List.append_assoc]
  rcases List.append_eq_append_iff.1 hsplit with ⟨more, hmore, hbehind⟩ | ⟨more, -, hmore⟩
  · cases more with
    | nil =>
        rw [List.nil_append] at hbehind
        intro d hd
        exact hlength (hbehind ▸ List.mem_cons_of_mem c hd)
    | cons e more =>
        obtain ⟨rfl, -⟩ := List.cons.inj hbehind
        refine absurd ?_ hfront
        rw [hmore]
        exact List.mem_append_right _ List.mem_cons_self
  · intro d hd
    refine hlength ?_
    rw [hmore]
    exact List.mem_append_right _ (List.mem_cons_of_mem c hd)

/-! ## Accepted texts -/

/-- **Documented texts are accepted, and what else is.**  A text is documented if and only if the
scanner accepts it and the modifiers of each of the specifiers that it yields are in order.
Whether they are is all the scanner leaves open: every percent sign of an accepted text is half of
a pair or begins one of the specifiers, and between it and the character of the conversion there
are characters of modifiers only. -/
theorem documented_accepted (text : String) :
    (Documented text.toList ↔
      ∃ specs, FormatSpec.ofText text = .ok specs ∧ ∀ spec ∈ specs, spec.Ordered) ∧
    ∀ specs, FormatSpec.ofText text = .ok specs →
      (∀ before behind, text.toList = before ++ '%' :: behind →
        PercentRole specs before behind) ∧
      ∀ spec ∈ specs, ∃ (modifiers : List Char) (c : Char),
        (∀ m ∈ modifiers, m ∈ modifierCharacters) ∧ c ∈ spec.conversion.characters ∧
          spec.text = .ofList ('%' :: (modifiers ++ [c])) := by
  constructor
  · constructor
    · intro hdocumented
      obtain ⟨l, htext, hordered⟩ := hdocumented.exists_layout
      exact ⟨l.specs, ofText_eq_ok.2 ⟨l, htext, rfl⟩, hordered⟩
    · rintro ⟨specs, h, hordered⟩
      obtain ⟨l, htext, rfl⟩ := ofText_eq_ok.1 h
      rw [← htext]
      exact l.documented hordered
  · intro specs h
    refine ⟨fun before behind htext => percent_role h htext, ?_⟩
    obtain ⟨l, -, rfl⟩ := ofText_eq_ok.1 h
    intro spec hspec
    obtain ⟨s, -, rfl⟩ := List.mem_map.1 hspec
    exact ⟨s.modifiers, s.character, s.modifiers_mem, s.character_mem, rfl⟩

/-- The scanner accepts a width behind a length.  The only percent sign of the text is no half of a
pair, and no documented specifier begins with it. -/
theorem lengthBeforeWidth_accepted :
    FormatSpec.ofText "%l5d" = .ok [⟨.integer, "%l5d"⟩] ∧
      ¬ Documented "%l5d".toList ∧ "%l5d".toList = [] ++ '%' :: ['l', '5', 'd'] ∧
      ¬ BeginsDocumented ('%' :: ['l', '5', 'd']) := by
  have hbegins : ¬ BeginsDocumented ('%' :: ['l', '5', 'd']) := by
    rintro ⟨o, k, c, hc, rest, hrest⟩
    have hmodifier := Conversion.not_modifier hc
    rw [List.cons_append, List.append_assoc, List.singleton_append] at hrest
    obtain ⟨-, hrest⟩ := List.cons.inj hrest
    -- which of the characters is the one of the conversion
    match htext : o.text, hrest with
    | [], hfirst =>
        obtain ⟨rfl, -⟩ := List.cons.inj hfirst
        exact hmodifier (by decide)
    | [_], hfirst =>
        obtain ⟨-, hsecond⟩ := List.cons.inj hfirst
        obtain ⟨rfl, -⟩ := List.cons.inj hsecond
        exact hmodifier (by decide)
    | [_, _], hfirst =>
        obtain ⟨rfl, hsecond⟩ := List.cons.inj hfirst
        obtain ⟨rfl, -⟩ := List.cons.inj hsecond
        have hsplit : o.text = [] ++ 'l' :: ['5'] := htext
        have hletter := o.letters_last (by decide) hsplit '5' List.mem_cons_self
        exact absurd hletter (by decide)
    | _ :: _ :: m :: more, hfirst =>
        obtain ⟨-, hsecond⟩ := List.cons.inj hfirst
        obtain ⟨-, hthird⟩ := List.cons.inj hsecond
        obtain ⟨rfl, -⟩ := List.cons.inj hthird
        have hmem := o.text_mem 'd' (by simp [htext])
        exact absurd hmem (by decide)
  refine ⟨?_, fun hdocumented => ?_, rfl, hbegins⟩
  · have hlayout := (FormatLayout.empty.pushSpec
      ⟨['l', '5'], 'd', .integer, by simp [modifierCharacters], by decide⟩).ofText_text
    exact hlayout
  · rcases Documented.begins hdocumented with hpair | hspec
    · cases hpair
    · exact hbegins hspec

end MiniC
