import MiniC.Proofs.Expression.Rules

/-!
# `MiniC.Proofs.Types.Compatibility` — what may be stored where is a preorder

Four rules say that a value may be stored: one of the two types is unknown, both are the same, the
value is a number of no higher rank, or both are pointers and one of them is `void*`.  An array
counts as a pointer to its first element in all of them.

Two of the rules hold together what is otherwise apart: an unknown type fits everywhere, and `void*`
fits every pointer, so that `int*` fits `void*` and `void*` fits `char*` though `int*` does not fit
`char*`.  Among the types that are neither, only sameness and rank are left.  Sameness up to the
decay of arrays is an equivalence, rank is an order in which no two types stand at the same place,
and only types that are no pointers have a rank: together they are a preorder whose equivalence is
sameness and whose strict part is rank.

## Contents
- `rank?_eq_some_iff`, `rank?_inj`, `rank?_decayed`: a type with a rank is its base, and no other
  type has the same.
- `voidPointer`, `Fits`, `accepts_iff`: why a value may be stored, with `Fits.congr`.
- `Definite`, `Fits.definite`: the types among which sameness and rank alone decide.
- `Fits.trans`, `Fits.antisymm`: what is composed through such types, and what fits both ways.
- `accepts_preorder`: **compatibility is a preorder up to the decay of arrays.**
-/

namespace MiniC

/-- No two bases stand at the same place in the order of promotion. -/
theorem BaseType.rank?_inj {first second : BaseType} {rank : Nat}
    (hfirst : first.rank? = some rank) (hsecond : second.rank? = some rank) : first = second := by
  cases first <;> cases hfirst <;> cases second <;> first | rfl | exact nomatch hsecond

namespace CType

variable {s s₁ t t₁ u : CType} {low high rank : Nat}

/-! ## Ranks and decay -/

theorem rank?_eq_some_iff :
    t.rank? = some rank ↔ ∃ base : BaseType, base.rank? = some rank ∧ t = plain base := by
  constructor
  · intro h
    unfold rank? at h
    split at h
    · next hscalar =>
        obtain ⟨hpointers, hisArray⟩ : t.pointers = 0 ∧ t.isArray = false := by
          simpa [isScalar] using hscalar
        exact ⟨t.base, h, by rw [plain, ← hpointers, ← hisArray]⟩
    · cases h
  · rintro ⟨base, h, rfl⟩
    exact h

/-- No two types stand at the same place in the order of promotion. -/
theorem rank?_inj (hs : s.rank? = some rank) (ht : t.rank? = some rank) : s = t := by
  obtain ⟨first, hfirst, rfl⟩ := rank?_eq_some_iff.1 hs
  obtain ⟨second, hsecond, rfl⟩ := rank?_eq_some_iff.1 ht
  rw [BaseType.rank?_inj hfirst hsecond]

theorem IsKnown.of_rank? (h : t.rank? = some rank) : t.IsKnown := by
  obtain ⟨base, hbase, rfl⟩ := rank?_eq_some_iff.1 h
  rintro (rfl : base = .unknown)
  cases hbase

@[simp] theorem isArray_decayed (t : CType) : t.decayed.isArray = false := by
  unfold decayed
  split
  · rfl
  · next h => exact Bool.not_eq_true _ ▸ h

theorem not_isPointer_of_rank? (h : t.rank? = some rank) : ¬t.decayed.isPointer = true := by
  obtain ⟨base, -, rfl⟩ := rank?_eq_some_iff.1 h
  exact nofun

theorem decayed_of_isArray (h : t.isArray = false) : t.decayed = t := by
  unfold decayed
  rw [if_neg (by rw [h]; decide)]

@[simp] theorem decayed_decayed (t : CType) : t.decayed.decayed = t.decayed :=
  decayed_of_isArray (isArray_decayed t)

@[simp] theorem isKnown_decayed : t.decayed.IsKnown ↔ t.IsKnown := by
  obtain ⟨base, pointers, isArray⟩ := t
  cases isArray <;> exact Iff.rfl

/-- Neither an array nor the pointer that it decays to has a rank. -/
@[simp] theorem rank?_decayed (t : CType) : t.decayed.rank? = t.rank? := by
  obtain ⟨base, pointers, isArray⟩ := t
  cases isArray with
  | false => rfl
  | true => simp [decayed, rank?, isScalar]

theorem rank?_congr (h : s.decayed = t.decayed) : s.rank? = t.rank? := by
  rw [← rank?_decayed s, h, rank?_decayed]

theorem isKnown_congr (h : s.decayed = t.decayed) : s.IsKnown ↔ t.IsKnown := by
  rw [← isKnown_decayed (t := s), h, isKnown_decayed]

/-! ## Why a value may be stored -/

/-- A pointer to anything. -/
def voidPointer : CType := (plain .void).withPointer

theorem isVoidPointer_decayed : t.decayed.isVoidPointer = true ↔ t.decayed = voidPointer := by
  have hlevel : t.decayed.isArray = false := isArray_decayed t
  generalize t.decayed = d at hlevel
  obtain ⟨base, pointers, isArray⟩ := d
  obtain rfl : isArray = false := hlevel
  simp [isVoidPointer, voidPointer, withPointer, plain]

/-- A value of type `source` may be stored where `target` is expected. -/
inductive Fits (target source : CType) : Prop
  | unknown : ¬target.IsKnown ∨ ¬source.IsKnown → Fits target source
  | same : target.decayed = source.decayed → Fits target source
  | wider {low high : Nat} : source.rank? = some low → target.rank? = some high → low ≤ high →
      Fits target source
  | pointer : target.decayed.isPointer = true → source.decayed.isPointer = true →
      target.decayed = voidPointer ∨ source.decayed = voidPointer → Fits target source

theorem pointerCompatible_decayed :
    t.decayed.pointerCompatible s.decayed = true ↔ t.decayed = s.decayed ∨
      (t.decayed.isPointer = true ∧ s.decayed.isPointer = true ∧
        (t.decayed = voidPointer ∨ s.decayed = voidPointer)) := by
  rw [pointerCompatible, Bool.or_eq_true, Bool.and_eq_true, Bool.and_eq_true, Bool.or_eq_true,
    beq_iff_eq, isVoidPointer_decayed, isVoidPointer_decayed, and_assoc]

theorem accepts_of_fits (h : Fits t s) : t.accepts s = true := by
  unfold CType.accepts
  split
  · rfl
  · next hopen =>
      rw [Bool.or_eq_true, Bool.or_eq_true, isUnknown_iff, isUnknown_iff, beq_iff_eq] at hopen
      cases h with
      | unknown h => exact absurd (.inl h) hopen
      | wider hlow hhigh hle =>
          rw [hlow, hhigh]
          exact decide_eq_true hle
      | same h =>
          have hrank : t.rank? = s.rank? := rank?_congr h
          split
          · next high low hhigh hlow =>
              rw [hhigh, hlow] at hrank
              obtain rfl := Option.some.inj hrank
              exact decide_eq_true (Nat.le_refl _)
          · exact pointerCompatible_decayed.2 (.inl h)
      | pointer ht hs hvoid =>
          split
          · next high low hhigh hlow =>
              exact absurd ht (not_isPointer_of_rank? hhigh)
          · exact pointerCompatible_decayed.2 (.inr ⟨ht, hs, hvoid⟩)

theorem fits_of_accepts (h : t.accepts s = true) : Fits t s := by
  unfold CType.accepts at h
  split at h
  · next hopen =>
      rw [Bool.or_eq_true, Bool.or_eq_true, isUnknown_iff, isUnknown_iff, beq_iff_eq] at hopen
      rcases hopen with hunknown | rfl
      · exact .unknown hunknown
      · exact .same rfl
  · split at h
    · next high low hhigh hlow => exact .wider hlow hhigh (of_decide_eq_true h)
    · rcases pointerCompatible_decayed.1 h with hsame | ⟨ht, hs, hvoid⟩
      · exact .same hsame
      · exact .pointer ht hs hvoid

theorem accepts_iff : t.accepts s = true ↔ Fits t s := ⟨fits_of_accepts, accepts_of_fits⟩

/-- Whether a value fits is decided by what the two types decay to. -/
theorem Fits.congr (h : Fits t s) (ht : t.decayed = t₁.decayed) (hs : s.decayed = s₁.decayed) :
    Fits t₁ s₁ := by
  cases h with
  | unknown h =>
      rw [isKnown_congr ht, isKnown_congr hs] at h
      exact .unknown h
  | same h => exact .same (by rw [← ht, h, hs])
  | wider hlow hhigh hle =>
      rw [rank?_congr hs] at hlow
      rw [rank?_congr ht] at hhigh
      exact .wider hlow hhigh hle
  | pointer htarget hsource hvoid =>
      rw [ht, hs] at hvoid
      exact .pointer (ht ▸ htarget) (hs ▸ hsource) hvoid

theorem accepts_congr (ht : t.decayed = t₁.decayed) (hs : s.decayed = s₁.decayed) :
    t.accepts s = t₁.accepts s₁ := by
  rw [Bool.eq_iff_iff, accepts_iff, accepts_iff]
  exact ⟨fun h => h.congr ht hs, fun h => h.congr ht.symm hs.symm⟩

theorem rank?_of_voidPointer (h : t.decayed = voidPointer) : t.rank? = none := by
  rw [← rank?_decayed, h]
  rfl

/-- What is left of the rules where one side is a pointer to anything. -/
theorem fits_voidPointer_iff (hvoid : t.decayed = voidPointer) (hknown : s.IsKnown) :
    Fits t s ↔ s.decayed.isPointer = true := by
  have htknown : t.IsKnown := by
    rw [← isKnown_decayed, hvoid]
    exact nofun
  constructor
  · intro h
    cases h with
    | unknown h => exact absurd h (by simp [htknown, hknown])
    | same h =>
        rw [← h, hvoid]
        rfl
    | wider _ hhigh _ =>
        rw [rank?_of_voidPointer hvoid] at hhigh
        cases hhigh
    | pointer _ hs _ => exact hs
  · intro hs
    refine .pointer ?_ hs (.inl hvoid)
    rw [hvoid]
    rfl

/-- What fits fits the other way round too, unless the one type has a higher rank. -/
theorem Fits.symm_or_lt (h : Fits t s) :
    Fits s t ∨ ∃ low high, s.rank? = some low ∧ t.rank? = some high ∧ low < high := by
  cases h with
  | unknown h => exact .inl (.unknown h.symm)
  | same h => exact .inl (.same h.symm)
  | pointer ht hs hvoid => exact .inl (.pointer hs ht hvoid.symm)
  | wider hlow hhigh hle =>
      rcases Nat.eq_or_lt_of_le hle with rfl | hlt
      · exact .inl (.wider hhigh hlow (Nat.le_refl _))
      · exact .inr ⟨_, _, hlow, hhigh, hlt⟩

theorem fits_voidPointer_comm (hvoid : t.decayed = voidPointer) : Fits s t ↔ Fits t s := by
  constructor <;> intro h
  · rcases h.symm_or_lt with hback | ⟨low, high, hlow, -, -⟩
    · exact hback
    · rw [rank?_of_voidPointer hvoid] at hlow
      cases hlow
  · rcases h.symm_or_lt with hback | ⟨low, high, -, hhigh, -⟩
    · exact hback
    · rw [rank?_of_voidPointer hvoid] at hhigh
      cases hhigh

/-! ## The types among which sameness and rank decide -/

/-- The type is known, and is not a pointer to anything where its value is used. -/
structure Definite (t : CType) : Prop where
  known : t.IsKnown
  not_voidPointer : t.decayed ≠ voidPointer

theorem Definite.of_rank? (h : t.rank? = some rank) : t.Definite where
  known := .of_rank? h
  not_voidPointer hvoid := by
    rw [rank?_of_voidPointer hvoid] at h
    cases h

theorem Fits.definite (h : Fits t s) (ht : t.Definite) (hs : s.Definite) :
    t.decayed = s.decayed ∨
      ∃ low high, s.rank? = some low ∧ t.rank? = some high ∧ low ≤ high := by
  cases h with
  | unknown h => exact absurd h (by simp [ht.known, hs.known])
  | same h => exact .inl h
  | wider hlow hhigh hle => exact .inr ⟨_, _, hlow, hhigh, hle⟩
  | pointer _ _ hvoid => exact absurd hvoid (by simp [ht.not_voidPointer, hs.not_voidPointer])

/-- Only what lies between has to be definite: unknown types and pointers to anything are a way
from one type to another, not a beginning or an end of one. -/
theorem Fits.trans (hst : Fits t s) (htu : Fits u t) (ht : t.Definite) : Fits u s := by
  cases htu with
  | same hsame => exact hst.congr hsame.symm rfl
  | unknown hunknown => exact .unknown (.inl (hunknown.resolve_right (not_not_intro ht.known)))
  | wider hmiddle hhigh hle =>
      cases hst with
      | same hsame => exact .wider (rank?_congr hsame ▸ hmiddle) hhigh hle
      | unknown hunknown => exact .unknown (.inr (hunknown.resolve_left (not_not_intro ht.known)))
      | wider hlow hmiddle' hle' =>
          rw [hmiddle] at hmiddle'
          obtain rfl := Option.some.inj hmiddle'
          exact .wider hlow hhigh (Nat.le_trans hle' hle)
      | pointer hpointer _ _ => exact absurd hpointer (not_isPointer_of_rank? hmiddle)
  | pointer hu hpointer hvoid =>
      have huvoid : u.decayed = voidPointer := hvoid.resolve_right ht.not_voidPointer
      cases hst with
      | same hsame => exact .pointer hu (hsame ▸ hpointer) (.inl huvoid)
      | unknown hunknown => exact .unknown (.inr (hunknown.resolve_left (not_not_intro ht.known)))
      | wider _ hmiddle _ => exact absurd hpointer (not_isPointer_of_rank? hmiddle)
      | pointer _ hs _ => exact .pointer hu hs (.inl huvoid)

theorem Fits.antisymm (h : Fits t s) (hback : Fits s t) (hs : s.Definite) (ht : t.Definite) :
    t.decayed = s.decayed := by
  rcases h.definite ht hs with hsame | ⟨low, high, hlow, hhigh, hle⟩
  · exact hsame
  · rcases hback.definite hs ht with hsame | ⟨high', low', hhigh', hlow', hle'⟩
    · exact hsame.symm
    · obtain rfl : high = high' := Option.some.inj (hhigh.symm.trans hhigh')
      obtain rfl : low = low' := Option.some.inj (hlow.symm.trans hlow')
      obtain rfl : low = high := Nat.le_antisymm hle hle'
      rw [rank?_inj hlow hhigh]

/-- A number of higher rank does not fit. -/
theorem not_fits_of_lt (hlow : s.rank? = some low) (hhigh : t.rank? = some high)
    (hlt : low < high) : ¬Fits s t := by
  intro h
  rcases h.definite (.of_rank? hlow) (.of_rank? hhigh) with hsame | ⟨high', low', hh, hl, hle⟩
  · rw [rank?_congr hsame, hhigh] at hlow
    obtain rfl := Option.some.inj hlow
    exact Nat.lt_irrefl _ hlt
  · obtain rfl : high = high' := Option.some.inj (hhigh.symm.trans hh)
    obtain rfl : low = low' := Option.some.inj (hlow.symm.trans hl)
    exact absurd hle (Nat.not_le_of_lt hlt)

end CType

/-! ## Compatibility -/

/-- Arrays count as the pointers that they decay to, in both places.  Every type accepts itself, and
a type that is known and does not decay to `void*` carries compatibility on; among such types those
that accept each other are the same up to decay.  What is accepted one way only is a number, by one
of higher rank.  An unknown type and any other accept each other; a type that decays to `void*` and
a known type accept each other if the other decays to a pointer, and only then. -/
theorem accepts_preorder (s t u : CType) :
    (t.decayed.accepts s = t.accepts s ∧ t.accepts s.decayed = t.accepts s) ∧
    t.accepts t = true ∧
    (t.Definite → t.accepts s = true → u.accepts t = true → u.accepts s = true) ∧
    (s.Definite → t.Definite →
      ((t.accepts s = true ∧ s.accepts t = true) ↔ t.decayed = s.decayed)) ∧
    ((t.accepts s = true ∧ s.accepts t = false) ↔
      ∃ low high, s.rank? = some low ∧ t.rank? = some high ∧ low < high) ∧
    (¬t.IsKnown → t.accepts s = true ∧ s.accepts t = true) ∧
    (t.decayed = .voidPointer → s.IsKnown →
      (t.accepts s = true ↔ s.decayed.isPointer = true) ∧
      (s.accepts t = true ↔ s.decayed.isPointer = true)) := by
  refine ⟨⟨?_, ?_⟩, ?_, ?_, ?_, ?_, ?_, ?_⟩
  · exact CType.accepts_congr (CType.decayed_decayed t) rfl
  · exact CType.accepts_congr rfl (CType.decayed_decayed s)
  · exact CType.accepts_iff.2 (.same rfl)
  · intro ht hst htu
    rw [CType.accepts_iff] at hst htu ⊢
    exact hst.trans htu ht
  · intro hs ht
    rw [CType.accepts_iff, CType.accepts_iff]
    constructor
    · rintro ⟨h, hback⟩
      exact h.antisymm hback hs ht
    · intro hsame
      exact ⟨.same hsame, .same hsame.symm⟩
  · rw [← Bool.not_eq_true, CType.accepts_iff, CType.accepts_iff]
    constructor
    · rintro ⟨h, hnot⟩
      exact h.symm_or_lt.resolve_left hnot
    · rintro ⟨low, high, hlow, hhigh, hlt⟩
      exact ⟨.wider hlow hhigh (Nat.le_of_lt hlt), CType.not_fits_of_lt hlow hhigh hlt⟩
  · intro hunknown
    rw [CType.accepts_iff, CType.accepts_iff]
    exact ⟨.unknown (.inl hunknown), .unknown (.inr hunknown)⟩
  · intro hvoid hknown
    rw [CType.accepts_iff, CType.accepts_iff, CType.fits_voidPointer_comm hvoid]
    exact ⟨CType.fits_voidPointer_iff hvoid hknown, CType.fits_voidPointer_iff hvoid hknown⟩

/-- What is between has to be definite: every pointer can be stored where `void*` is expected and
the other way round, but not a pointer where one to something else is expected. -/
example :
    CType.voidPointer.accepts CType.int.withPointer = true ∧
    (CType.plain .char).withPointer.accepts .voidPointer = true ∧
    (CType.plain .char).withPointer.accepts CType.int.withPointer = false := by
  decide

/-- `double` accepts `int` and `int` accepts `char`; an array of `int` and a pointer to `int` accept
each other, and either of them and `void*`; so do an unknown type and `int`. -/
theorem accepts_samples :
    (CType.plain .double).accepts (.plain .char) = true ∧
    (CType.int.withArray.accepts CType.int.withPointer = true ∧
      CType.int.withPointer.accepts CType.int.withArray = true) ∧
    (CType.unknown.accepts .int = true ∧ CType.int.accepts .unknown = true) ∧
    (CType.voidPointer.accepts CType.int.withArray = true ∧
      CType.int.withArray.accepts .voidPointer = true) := by
  have hint : CType.int.Definite := .of_rank? rfl
  have harray : CType.int.withArray.Definite := ⟨nofun, by decide⟩
  have hpointer : CType.int.withPointer.Definite := ⟨nofun, by decide⟩
  obtain ⟨-, -, htrans, -⟩ := accepts_preorder (.plain .char) .int (.plain .double)
  obtain ⟨-, -, -, hsame, -⟩ := accepts_preorder CType.int.withPointer CType.int.withArray .int
  obtain ⟨-, -, -, -, -, hunknown, -⟩ := accepts_preorder .int .unknown .int
  obtain ⟨-, -, -, -, -, -, hvoid⟩ := accepts_preorder CType.int.withArray .voidPointer .int
  obtain ⟨hleft, hright⟩ := hvoid rfl nofun
  exact ⟨htrans hint rfl rfl, (hsame hpointer harray).2 rfl, hunknown (not_not_intro rfl),
    hleft.2 rfl, hright.2 rfl⟩

end MiniC
