import MiniC.Proofs.Checking.Parts
import MiniC.Proofs.Expression.Inference
import MiniC.Proofs.Types.Compatibility

/-!
# `MiniC.Proofs.Expression.Arithmetic` — arithmetic has the type of its highest operand

Arithmetic is typed operator by operator, in the order in which two loops and the parentheses group
the operands, and each time two types are promoted to one.  The result does not show any of this: it
is the highest of the types of the operands, however these are ordered and grouped and whichever of
`+`, `-`, `*` and `/` stand between them.

What the text of such an expression is can be said without levels: a variable, a text in
parentheses, or two texts with an operator between.  That says nothing about which operator is to be
carried out first, and the first step is to see that the grammar has a tree for each such text: two
trees with an operator between them are grouped anew along the right edge of the left one and the
left edge of the right one.  The tree is typed by an induction along which three things may be
known: the operands are numbers, and the type is the highest of theirs; there is one operand, which
is none; or there are several, not all of them numbers, and that was complained about.

## Contents
- `rank?_promote`, `promote_comm`, `promote_assoc`: promotion takes the higher rank.
- `IsHighest`: the highest of some types, with `IsHighest.unique` and `IsHighest.accepts`.
- `ArithmeticText`: variables, parentheses and the four operators, in a text.
- `Expr.Arithmetic`, `ArithmeticText.exists_tree`: **every such text is that of a tree.**
- `Yields`, `Expr.Arithmetic.yields`: what the operands tell of the type and the issues.
- `arithmetic_typed`: **arithmetic has the type of its highest operand.**
-/

namespace MiniC

open Cursor (reading)

/-! ## Promotion -/

namespace CType

variable {s t u : CType} {m n : Nat}

theorem rank?_of_not_isKnown (h : ¬t.IsKnown) : t.rank? = none := by
  cases hrank : t.rank? with
  | none => rfl
  | some rank => exact absurd (IsKnown.of_rank? hrank) h

theorem promote_of_left (h : s.rank? = none) (t : CType) : s.promote t = .unknown := by
  unfold promote
  rw [h]

theorem promote_of_right (h : t.rank? = none) (s : CType) : s.promote t = .unknown := by
  unfold promote
  rw [h]
  cases s.rank? <;> rfl

/-- Two numbers are promoted to the higher rank. -/
theorem rank?_promote (hs : s.rank? = some m) (ht : t.rank? = some n) :
    (s.promote t).rank? = some (max m n) := by
  unfold promote
  rw [hs, ht]
  show (if n ≤ m then s else t).rank? = _
  split
  · next hle => rw [hs, Nat.max_eq_left hle]
  · next hlt => rw [ht, Nat.max_eq_right (Nat.le_of_not_le hlt)]

/-- What two numbers are promoted to is told by their ranks, which tell them from all others. -/
theorem promote_comm (s t : CType) : s.promote t = t.promote s := by
  cases hs : s.rank? with
  | none => rw [promote_of_left hs, promote_of_right hs]
  | some m =>
      cases ht : t.rank? with
      | none => rw [promote_of_right ht, promote_of_left ht]
      | some n =>
          have hback : (t.promote s).rank? = some (max m n) :=
            Nat.max_comm m n ▸ rank?_promote ht hs
          exact rank?_inj (rank?_promote hs ht) hback

theorem promote_assoc (s t u : CType) : (s.promote t).promote u = s.promote (t.promote u) := by
  have hunknown : unknown.rank? = none := rfl
  cases hs : s.rank? with
  | none => rw [promote_of_left hs, promote_of_left hs, promote_of_left hunknown]
  | some m =>
      cases ht : t.rank? with
      | none =>
          rw [promote_of_right ht, promote_of_left ht, promote_of_left hunknown,
            promote_of_right hunknown]
      | some n =>
          cases hu : u.rank? with
          | none => rw [promote_of_right hu, promote_of_right hu, promote_of_right hunknown]
          | some k =>
              have hleft := rank?_promote (rank?_promote hs ht) hu
              have hright := rank?_promote hs (rank?_promote ht hu)
              exact rank?_inj hleft (Nat.max_assoc m n k ▸ hright)

end CType

/-! ## The highest of some types -/

/-- The type is one of the types, all of which are numeric and none of higher rank. -/
structure IsHighest (types : List CType) (t : CType) : Prop where
  mem : t ∈ types
  le : ∀ u ∈ types, ∃ low high, u.rank? = some low ∧ t.rank? = some high ∧ low ≤ high

namespace IsHighest

variable {types types' left right : List CType} {s t u : CType} {low high : Nat}

theorem singleton (h : t.rank? = some high) : IsHighest [t] t where
  mem := List.mem_singleton.2 rfl
  le u hu := by
    obtain rfl := List.mem_singleton.1 hu
    exact ⟨high, high, h, h, Nat.le_refl _⟩

/-- A higher type is the highest of more types if what is added has a highest one too. -/
theorem le_append (h : IsHighest types t) (hmore : IsHighest types' s) (hs : s.rank? = some low)
    (ht : t.rank? = some high) (hle : low ≤ high) : ∀ u ∈ types ++ types',
      ∃ low high, u.rank? = some low ∧ t.rank? = some high ∧ low ≤ high := by
  intro u hu
  rcases List.mem_append.1 hu with hu | hu
  · exact h.le u hu
  · obtain ⟨lower, low', hlower, hlow', hle'⟩ := hmore.le u hu
    rw [hs] at hlow'
    obtain rfl := Option.some.inj hlow'
    exact ⟨lower, high, hlower, ht, Nat.le_trans hle' hle⟩

theorem append_left (h : IsHighest left t) (hmore : IsHighest right s) (hs : s.rank? = some low)
    (ht : t.rank? = some high) (hle : low ≤ high) : IsHighest (left ++ right) t where
  mem := List.mem_append_left _ h.mem
  le := h.le_append hmore hs ht hle

theorem append_right (h : IsHighest right t) (hmore : IsHighest left s) (hs : s.rank? = some low)
    (ht : t.rank? = some high) (hle : low ≤ high) : IsHighest (left ++ right) t where
  mem := List.mem_append_right _ h.mem
  le u hu := h.le_append hmore hs ht hle u (List.mem_append.2 (List.mem_append.1 hu).symm)

/-- Which type is the highest does not depend on the order of the types, or on how often each of
them is there. -/
theorem unique (hs : IsHighest types s) (ht : IsHighest types' t)
    (hsame : ∀ u, u ∈ types' ↔ u ∈ types) : t = s := by
  obtain ⟨n, m, hn, hm, hle⟩ := hs.le t ((hsame t).1 ht.mem)
  obtain ⟨m', n', hm', hn', hle'⟩ := ht.le s ((hsame s).2 hs.mem)
  obtain rfl : m = m' := Option.some.inj (hm.symm.trans hm')
  obtain rfl : n = n' := Option.some.inj (hn.symm.trans hn')
  obtain rfl : n = m := Nat.le_antisymm hle hle'
  exact CType.rank?_inj hn hm

theorem accepts (h : IsHighest types t) (hu : u ∈ types) : t.accepts u = true := by
  obtain ⟨low, high, hlow, hhigh, hle⟩ := h.le u hu
  exact CType.accepts_iff.2 (.wider hlow hhigh hle)

end IsHighest

/-! ## Texts and trees -/

/-- Whether the kind is that of one of the operators on numbers of all types. -/
def Kind.calculates : Kind → Bool
  | .operator o => o ∈ [.plus, .minus, .star, .slash]
  | _ => false

/-- The text is arithmetic on variables of the types, in the order of the text. -/
inductive ArithmeticText (σ : Symbols) : List Token → List CType → Prop
  | var {name : Token} {v : Variable} : name.kind = .ident → σ.var? name.lexeme = some v →
      ArithmeticText σ [name] [v.type]
  | group {opening closing : Token} {text : List Token} {types : List CType} :
      opening.kind = .punct .lparen → closing.kind = .punct .rparen →
      ArithmeticText σ text types → ArithmeticText σ (opening :: (text ++ [closing])) types
  | binary {operator : Token} {left right : List Token} {leftTypes rightTypes : List CType} :
      operator.kind.calculates = true →
      ArithmeticText σ left leftTypes → ArithmeticText σ right rightTypes →
      ArithmeticText σ (left ++ operator :: right) (leftTypes ++ rightTypes)

/-- The expression is a tree of the grammar for arithmetic on variables of the types. -/
inductive Expr.Arithmetic (σ : Symbols) : Expr → List CType → Prop
  | var {name : Token} {v : Variable} : name.kind = .ident → σ.var? name.lexeme = some v →
      Expr.Arithmetic σ (.var name) [v.type]
  | group {opening closing : Token} {inner : Expr} {types : List CType} :
      opening.kind = .punct .lparen → closing.kind = .punct .rparen →
      inner.Arithmetic σ types → Expr.Arithmetic σ (.group opening inner (.found closing)) types
  | binary {tier : Tier} {operator : Token} {left right : Expr}
      {leftTypes rightTypes : List CType} :
      left.level ≤ tier.level → tier.has operator.kind = true → right.level < tier.level →
      operator.kind.calculates = true →
      left.Arithmetic σ leftTypes → right.Arithmetic σ rightTypes →
      Expr.Arithmetic σ (.binary tier left operator right) (leftTypes ++ rightTypes)

namespace Kind

variable {kind : Kind}

theorem has_of_calculates (h : kind.calculates = true) :
    Tier.additive.has kind = true ∨ Tier.multiplicative.has kind = true := by
  cases kind with
  | operator o => cases o <;> first | exact .inl rfl | exact .inr rfl | exact nomatch h
  | _ => exact nomatch h

theorem tier_of_calculates {tier : Tier} (h : kind.calculates = true)
    (htier : tier.has kind = true) : tier = .additive ∨ tier = .multiplicative := by
  cases kind with
  | operator o =>
      revert h htier
      cases tier <;> cases o <;> decide
  | _ => exact nomatch h

theorem ne_percent_of_calculates (h : kind.calculates = true) : kind ≠ .operator .percent := by
  rintro rfl
  exact nomatch h

end Kind

namespace Expr.Arithmetic

variable {σ : Symbols} {e first second : Expr} {types firstTypes secondTypes : List CType}
variable {operator : Token}

theorem grammatical (h : e.Arithmetic σ types) : e.Grammatical := by
  induction h with
  | var hkind _ => exact hkind
  | group hopening hclosing _ ih => exact ⟨hopening, ih, _, rfl, hclosing⟩
  | binary hleft hoperator hright _ _ _ ihleft ihright =>
      exact ⟨hleft, ihleft, hoperator, hright, ihright⟩

/-- Arithmetic is an operation of additive tier, or binds tighter. -/
theorem level_le (h : e.Arithmetic σ types) : e.level ≤ Tier.additive.level := by
  cases h with
  | var => exact Nat.zero_le _
  | group => exact Nat.zero_le _
  | binary _ hoperator _ hcalculates =>
      rcases Kind.tier_of_calculates hcalculates hoperator with rfl | rfl
      · exact Nat.le_refl _
      · exact Nat.le_succ _

/-- Two operations of a tier with an operator of the tier between are one: the operands of the
second go over to the first, one by one. -/
theorem exists_operation {tier : Tier} (htier : tier.has operator.kind = true)
    (hoperator : operator.kind.calculates = true) (hfirst : first.Arithmetic σ firstTypes)
    (hle : first.level ≤ tier.level) (hsecond : second.Arithmetic σ secondTypes)
    (hle' : second.level ≤ tier.level) :
    ∃ e : Expr, e.Arithmetic σ (firstTypes ++ secondTypes) ∧ e.level = tier.level ∧
      e.tokens = first.tokens ++ operator :: second.tokens := by
  induction hsecond with
  | @var name v hkind hvar =>
      refine ⟨.binary tier first operator (.var name), ?_, rfl, rfl⟩
      exact .binary hle htier (Nat.succ_pos _) hoperator hfirst (.var hkind hvar)
  | @group opening closing inner types hopening hclosing hinner _ =>
      refine ⟨.binary tier first operator (.group opening inner (.found closing)), ?_, rfl, rfl⟩
      exact .binary hle htier (Nat.succ_pos _) hoperator hfirst (.group hopening hclosing hinner)
  | @binary tier' operator' left right leftTypes rightTypes hleft htier' hright hoperator' harith
      harith' ih _ =>
      -- an operation of the tier itself cannot stand on the right: its own operands go over
      by_cases hlt : tier'.level < tier.level
      · refine ⟨.binary tier first operator (.binary tier' left operator' right), ?_, rfl, rfl⟩
        exact .binary hle htier hlt hoperator hfirst
          (.binary hleft htier' hright hoperator' harith harith')
      · obtain rfl : tier' = tier :=
          Tier.level_injective (Nat.le_antisymm hle' (Nat.le_of_not_lt hlt))
        obtain ⟨e, he, hlevel, htokens⟩ := ih hleft
        refine ⟨.binary tier' e operator' right, ?_, rfl, ?_⟩
        · rw [← List.append_assoc]
          exact .binary (Nat.le_of_eq hlevel) htier' hright hoperator' he harith'
        · rw [tokens, htokens]
          simp [tokens]

/-- An operator that binds tighter goes with the last operand of what stands in front of it. -/
theorem exists_product (htier : Tier.multiplicative.has operator.kind = true)
    (hoperator : operator.kind.calculates = true) (hfirst : first.Arithmetic σ firstTypes)
    (hsecond : second.Arithmetic σ secondTypes)
    (hle : second.level ≤ Tier.multiplicative.level) :
    ∃ e : Expr, e.Arithmetic σ (firstTypes ++ secondTypes) ∧
      e.tokens = first.tokens ++ operator :: second.tokens := by
  by_cases htight : first.level ≤ Tier.multiplicative.level
  · obtain ⟨e, he, -, htokens⟩ := exists_operation htier hoperator hfirst htight hsecond hle
    exact ⟨e, he, htokens⟩
  · cases hfirst with
    | var => exact absurd (Nat.zero_le _) htight
    | group => exact absurd (Nat.zero_le _) htight
    | @binary tier operator' left right leftTypes rightTypes hleft htier' hright hoperator' harith
        harith' =>
        rcases Kind.tier_of_calculates hoperator' htier' with rfl | rfl
        · obtain ⟨e, he, hlevel, htokens⟩ :=
            exists_operation htier hoperator harith' (Nat.le_of_lt_succ hright) hsecond hle
          refine ⟨.binary .additive left operator' e, ?_, ?_⟩
          · rw [List.append_assoc]
            exact .binary hleft htier' (by rw [hlevel]; decide) hoperator' harith he
          · rw [tokens, htokens]
            simp [tokens]
        · exact absurd (Nat.le_refl _) htight

/-- Two trees with an operator between are the text of one tree. -/
theorem exists_binary (hoperator : operator.kind.calculates = true)
    (hfirst : first.Arithmetic σ firstTypes) (hsecond : second.Arithmetic σ secondTypes) :
    ∃ e : Expr, e.Arithmetic σ (firstTypes ++ secondTypes) ∧
      e.tokens = first.tokens ++ operator :: second.tokens := by
  rcases Kind.has_of_calculates hoperator with htier | htier
  · obtain ⟨e, he, -, htokens⟩ :=
      exists_operation htier hoperator hfirst hfirst.level_le hsecond hsecond.level_le
    exact ⟨e, he, htokens⟩
  · induction hsecond with
    | var hkind hvar =>
        exact exists_product htier hoperator hfirst (.var hkind hvar) (Nat.zero_le _)
    | group hopening hclosing hinner _ =>
        exact exists_product htier hoperator hfirst (.group hopening hclosing hinner)
          (Nat.zero_le _)
    | @binary tier operator' left right leftTypes rightTypes hleft htier' hright hoperator' harith
        harith' ih _ =>
        -- in front of a sum the operator goes with the first operand of the sum
        rcases Kind.tier_of_calculates hoperator' htier' with rfl | rfl
        · obtain ⟨e, he, htokens⟩ := ih
          refine ⟨.binary .additive e operator' right, ?_, ?_⟩
          · rw [← List.append_assoc]
            exact .binary he.level_le htier' hright hoperator' he harith'
          · rw [tokens, htokens]
            simp [tokens]
        · exact exists_product htier hoperator hfirst
            (.binary hleft htier' hright hoperator' harith harith') (Nat.le_refl _)

end Expr.Arithmetic

/-- **Every arithmetic text is that of a tree.** -/
theorem ArithmeticText.exists_tree {σ : Symbols} {text : List Token} {types : List CType}
    (h : ArithmeticText σ text types) : ∃ e : Expr, e.Arithmetic σ types ∧ e.tokens = text := by
  induction h with
  | var hkind hvar => exact ⟨_, .var hkind hvar, rfl⟩
  | group hopening hclosing _ ih =>
      obtain ⟨inner, hinner, rfl⟩ := ih
      exact ⟨_, .group hopening hclosing hinner, rfl⟩
  | binary hoperator _ _ ihleft ihright =>
      obtain ⟨first, hfirst, rfl⟩ := ihleft
      obtain ⟨second, hsecond, rfl⟩ := ihright
      exact hfirst.exists_binary hoperator hsecond

/-! ## The type and the issues -/

/-- What the types of the operands tell of the type of an expression and of its issues. -/
inductive Yields : List CType → CType → List Issue → Prop
  | numeric {types : List CType} {t : CType} : IsHighest types t → Yields types t []
  | alone {t : CType} : t.IsKnown → t.rank? = none → Yields [t] t []
  | refused {types : List CType} {issues : List Issue} : 2 ≤ types.length →
      (∃ u ∈ types, u.rank? = none) → issues ≠ [] → Yields types .unknown issues

namespace Yields

variable {types left right : List CType} {s t u : CType}
variable {issues issues₁ issues₂ issues₃ : List Issue} {operator : Token}

theorem length_pos (h : Yields types t issues) : 1 ≤ types.length := by
  cases h with
  | numeric h => exact List.length_pos_of_mem h.mem
  | alone => exact Nat.le_refl _
  | refused h => exact Nat.le_trans (by decide) h

theorem highest {rank : Nat} (h : Yields types t issues) (hrank : t.rank? = some rank) :
    IsHighest types t ∧ issues = [] := by
  cases h with
  | numeric h => exact ⟨h, rfl⟩
  | alone _ hnone => exact absurd (hnone.symm.trans hrank) nofun
  | refused => exact nomatch hrank

theorem exists_rank?_eq_none (h : Yields types t issues) (hrank : t.rank? = none) :
    ∃ u ∈ types, u.rank? = none := by
  cases h with
  | numeric h =>
      obtain ⟨_, high, _, hhigh, _⟩ := h.le t h.mem
      exact absurd (hrank.symm.trans hhigh) nofun
  | alone _ hnone => exact ⟨t, List.mem_singleton.2 rfl, hnone⟩
  | refused _ hnone _ => exact hnone

/-- The type is unknown only where that was complained about. -/
theorem issues_ne_nil (h : Yields types t issues) (ht : ¬t.IsKnown) : issues ≠ [] := by
  cases h with
  | numeric h =>
      obtain ⟨_, high, _, hhigh, _⟩ := h.le t h.mem
      exact absurd (CType.IsKnown.of_rank? hhigh) ht
  | alone hknown _ => exact absurd hknown ht
  | refused _ _ hissues => exact hissues

/-- What one operator adds. -/
theorem computed (hs : Yields left s issues₁) (ht : Yields right t issues₂)
    (hoperator : operator.kind.calculates = true) (h : Computed operator s t u issues₃) :
    Yields (left ++ right) u (issues₁ ++ (issues₂ ++ issues₃)) := by
  have hneed : operator.arithmeticNeed = .numeric :=
    if_neg (Kind.ne_percent_of_calculates hoperator)
  have hlength : 2 ≤ (left ++ right).length := by
    rw [List.length_append]
    exact Nat.add_le_add hs.length_pos ht.length_pos
  -- an operand without a rank is told by an operand of the whole
  have hnone : s.rank? = none ∨ t.rank? = none → ∃ u ∈ left ++ right, u.rank? = none := by
    rintro (hrank | hrank)
    · obtain ⟨u, hu, hurank⟩ := hs.exists_rank?_eq_none hrank
      exact ⟨u, List.mem_append_left _ hu, hurank⟩
    · obtain ⟨u, hu, hurank⟩ := ht.exists_rank?_eq_none hrank
      exact ⟨u, List.mem_append_right _ hu, hurank⟩
  -- The operator complains itself where both operands are known and one is no number; where one is
  -- not known, that was complained about before.
  cases h with
  | unknown hunknown =>
      refine .refused hlength (hnone (hunknown.imp CType.rank?_of_not_isKnown
        CType.rank?_of_not_isKnown)) ?_
      rcases hunknown with hunknown | hunknown
      · simp [hs.issues_ne_nil hunknown]
      · simp [ht.issues_ne_nil hunknown]
  | left _ _ hhigh hlow hle =>
      obtain ⟨hfirst, rfl⟩ := hs.highest hhigh.rank
      obtain ⟨hsecond, rfl⟩ := ht.highest hlow.rank
      exact .numeric (hfirst.append_left hsecond hlow.rank hhigh.rank hle)
  | right _ _ hlow hhigh hlt =>
      obtain ⟨hfirst, rfl⟩ := hs.highest hlow.rank
      obtain ⟨hsecond, rfl⟩ := ht.highest hhigh.rank
      exact .numeric (hsecond.append_right hfirst hlow.rank hhigh.rank (Nat.le_of_lt hlt))
  | fault _ _ hnot =>
      refine .refused hlength (hnone ?_) (by simp [faulty])
      rw [hneed] at hnot
      cases hm : s.rank? with
      | none => exact .inl rfl
      | some m =>
          cases hn : t.rank? with
          | none => exact .inr rfl
          | some n => exact absurd ⟨⟨m, .numeric hm⟩, n, .numeric hn⟩ hnot

end Yields

/-- What is known of arithmetic on variables of known types. -/
theorem Expr.Arithmetic.yields {σ : Symbols} {e : Expr} {types : List CType}
    (h : e.Arithmetic σ types) (hknown : ∀ u ∈ types, u.IsKnown) :
    ∃ t issues, e.HasType σ t issues ∧ Yields types t issues := by
  induction h with
  | @var name v hkind hvar =>
      refine ⟨v.type, [], .var hvar, ?_⟩
      cases hrank : v.type.rank? with
      | none => exact .alone (hknown _ (List.mem_singleton.2 rfl)) hrank
      | some rank => exact .numeric (.singleton hrank)
  | group _ _ _ ih =>
      obtain ⟨t, issues, htype, hyields⟩ := ih hknown
      exact ⟨t, issues, .group htype, hyields⟩
  | @binary tier operator left right leftTypes rightTypes _ htier _ hoperator _ _ ihleft ihright =>
      obtain ⟨s, issues₁, hs, hleft⟩ := ihleft fun u hu => hknown u (List.mem_append_left _ hu)
      obtain ⟨t, issues₂, ht, hright⟩ := ihright fun u hu => hknown u (List.mem_append_right _ hu)
      obtain ⟨u, issues₃, hoperated⟩ := exists_operated tier operator s t
      refine ⟨u, _, .binary hs ht hoperated, hleft.computed hright hoperator ?_⟩
      rcases Kind.tier_of_calculates hoperator htier with rfl | rfl
      · cases hoperated with
        | additive h => exact h
      · cases hoperated with
        | multiplicative h => exact h

/-! ## Arithmetic -/

/-- What arithmetic yields at the tokens: it is read there and typed under the symbols. -/
def arithmeticAt (σ : Symbols) (tokens : List Token) : Finding (CType × Cursor) :=
  (Cursor.operation .additive (reading tokens)).checked (·.typing σ)

section

variable {σ : Symbols} {text rest : List Token} {types : List CType}

/-- What is known of the operands of a text is known of what arithmetic yields there. -/
theorem ArithmeticText.yields (h : ArithmeticText σ text types) (hrest : EndsExpression rest)
    (hknown : ∀ u ∈ types, u.IsKnown) : ∃ t issues, Yields types t issues ∧
      arithmeticAt σ (text ++ rest) = ⟨issues, .ok (t, reading rest)⟩ := by
  obtain ⟨e, he, rfl⟩ := h.exists_tree
  obtain ⟨t, issues, htype, hyields⟩ := he.yields hknown
  refine ⟨t, issues, hyields, ?_⟩
  have hoperations := (e.readable he.grammatical).operation .additive he.level_le rest
    (hrest.endsLevel _)
  have hread := hoperations.trans
    (Cursor.operations_none ((hrest.endsLevel Tier.additive.level).tier (Nat.le_refl _)) e)
  unfold arithmeticAt
  rw [Parsed.checked_of_read hread.tree hread.next]
  show (e.typing σ >>= fun value => pure (value, reading rest)) = _
  rw [e.typing_eq htype]
  simp

theorem ArithmeticText.numeric (h : ArithmeticText σ text types) (hrest : EndsExpression rest)
    (hnumeric : ∀ u ∈ types, u.isNumeric = true) : ∃ t, IsHighest types t ∧
      arithmeticAt σ (text ++ rest) = ⟨[], .ok (t, reading rest)⟩ := by
  have hrank : ∀ u ∈ types, ∃ rank, u.rank? = some rank := by
    intro u hu
    exact Option.isSome_iff_exists.1 (hnumeric u hu)
  have hknown : ∀ u ∈ types, u.IsKnown := by
    intro u hu
    obtain ⟨rank, hu⟩ := hrank u hu
    exact .of_rank? hu
  obtain ⟨t, issues, hyields, hat⟩ := h.yields hrest hknown
  cases ht : t.rank? with
  | none =>
      obtain ⟨u, hu, hnone⟩ := hyields.exists_rank?_eq_none ht
      obtain ⟨rank, hsome⟩ := hrank u hu
      exact absurd (hnone.symm.trans hsome) nofun
  | some rank =>
      obtain ⟨hhighest, rfl⟩ := hyields.highest ht
      exact ⟨t, hhighest, hat⟩

theorem ArithmeticText.refused (h : ArithmeticText σ text types) (hrest : EndsExpression rest)
    (hlength : 2 ≤ types.length) (hknown : ∀ u ∈ types, u.IsKnown)
    (hnot : ∃ u ∈ types, u.isNumeric = false) : ∃ issues, issues ≠ [] ∧
      arithmeticAt σ (text ++ rest) = ⟨issues, .ok (.unknown, reading rest)⟩ := by
  obtain ⟨t, issues, hyields, hat⟩ := h.yields hrest hknown
  cases hyields with
  | numeric hhighest =>
      obtain ⟨u, hu, hnot⟩ := hnot
      obtain ⟨low, _, hlow, -, -⟩ := hhighest.le u hu
      rw [CType.isNumeric, hlow] at hnot
      cases hnot
  | alone => exact absurd hlength (Nat.not_succ_le_self 1)
  | refused _ _ hissues => exact ⟨issues, hissues, hat⟩

end

/-- **Arithmetic has the type of its highest operand.** -/
theorem arithmetic_typed {σ : Symbols} {text rest : List Token} {types : List CType}
    (htext : ArithmeticText σ text types) (hrest : EndsExpression rest) :
    ((∀ u ∈ types, u.isNumeric = true) →
      ∃ t, IsHighest types t ∧ (∀ u ∈ types, t.accepts u = true) ∧
        (∀ s : CType, (∀ u ∈ types, s.accepts u = true) → s.accepts t = true) ∧
        arithmeticAt σ (text ++ rest) = ⟨[], .ok (t, reading rest)⟩ ∧
        ∀ text' types' rest', ArithmeticText σ text' types' → (∀ u, u ∈ types' ↔ u ∈ types) →
          EndsExpression rest' →
            arithmeticAt σ (text' ++ rest') = ⟨[], .ok (t, reading rest')⟩) ∧
    (2 ≤ types.length → (∀ u ∈ types, u.IsKnown) → (∃ u ∈ types, u.isNumeric = false) →
      ∃ issues, issues ≠ [] ∧
        arithmeticAt σ (text ++ rest) = ⟨issues, .ok (.unknown, reading rest)⟩) ∧
    ∀ s t u : CType, s.promote t = t.promote s ∧
      (s.promote t).promote u = s.promote (t.promote u) ∧
      (¬s.IsKnown → s.promote t = .unknown ∧ t.promote s = .unknown) := by
  refine ⟨?_, htext.refused hrest, ?_⟩
  · intro hnumeric
    obtain ⟨t, hhighest, hat⟩ := htext.numeric hrest hnumeric
    refine ⟨t, hhighest, fun u hu => hhighest.accepts hu, fun s hs => hs t hhighest.mem, hat, ?_⟩
    intro text' types' rest' htext' hsame hrest'
    obtain ⟨t', hhighest', hat'⟩ := htext'.numeric hrest' fun u hu => hnumeric u ((hsame u).1 hu)
    rw [hat', hhighest.unique hhighest' hsame]
  · intro s t u
    refine ⟨CType.promote_comm s t, CType.promote_assoc s t u, ?_⟩
    intro hunknown
    have hrank : s.rank? = none := CType.rank?_of_not_isKnown hunknown
    exact ⟨CType.promote_of_left hrank t, CType.promote_of_right hrank t⟩

/-- A number of each of three types, and a pointer. -/
def operandSymbols : Symbols :=
  ⟨[[⟨"c", .plain .char, false, 1⟩, ⟨"n", .int, false, 1⟩, ⟨"d", .plain .double, false, 1⟩,
    ⟨"p", CType.int.withPointer, false, 1⟩]], [], []⟩

/-- Each of `c * (n - d)` and `d / n + c` is read to its end and is a `double`; `p + n` is
complained of. -/
theorem operands_typed :
    let c : Token := ⟨.ident, "c", ⟨2, 1⟩⟩
    let n : Token := ⟨.ident, "n", ⟨2, 6⟩⟩
    let d : Token := ⟨.ident, "d", ⟨2, 10⟩⟩
    let p : Token := ⟨.ident, "p", ⟨2, 1⟩⟩
    let grouped : List Token := [c, ⟨.operator .star, "*", ⟨2, 3⟩⟩, ⟨.punct .lparen, "(", ⟨2, 5⟩⟩,
      n, ⟨.operator .minus, "-", ⟨2, 8⟩⟩, d, ⟨.punct .rparen, ")", ⟨2, 11⟩⟩]
    let mixed : List Token := [d, ⟨.operator .slash, "/", ⟨3, 3⟩⟩, n,
      ⟨.operator .plus, "+", ⟨3, 7⟩⟩, c]
    let moved : List Token := [p, ⟨.operator .plus, "+", ⟨4, 3⟩⟩, n]
    let rest : List Token := [⟨.punct .semicolon, ";", ⟨4, 12⟩⟩]
    arithmeticAt operandSymbols (grouped ++ rest) = ⟨[], .ok (.plain .double, reading rest)⟩ ∧
      arithmeticAt operandSymbols (mixed ++ rest) = ⟨[], .ok (.plain .double, reading rest)⟩ ∧
      ∃ issues, issues ≠ [] ∧
        arithmeticAt operandSymbols (moved ++ rest) = ⟨issues, .ok (.unknown, reading rest)⟩ := by
  intro c n d p grouped mixed moved rest
  have hrest : EndsExpression rest := endsExpression_cons rfl
  have hc : ArithmeticText operandSymbols [c] [.plain .char] :=
    .var rfl (v := ⟨"c", .plain .char, false, 1⟩) rfl
  have hn : ArithmeticText operandSymbols [n] [.int] :=
    .var rfl (v := ⟨"n", .int, false, 1⟩) rfl
  have hd : ArithmeticText operandSymbols [d] [.plain .double] :=
    .var rfl (v := ⟨"d", .plain .double, false, 1⟩) rfl
  have hp : ArithmeticText operandSymbols [p] [CType.int.withPointer] :=
    .var rfl (v := ⟨"p", CType.int.withPointer, false, 1⟩) rfl
  have hgrouped : ArithmeticText operandSymbols grouped [.plain .char, .int, .plain .double] :=
    .binary rfl hc (.group rfl rfl (.binary rfl hn hd))
  have hmixed : ArithmeticText operandSymbols mixed [.plain .double, .int, .plain .char] :=
    .binary rfl (.binary rfl hd hn) hc
  have hmoved : ArithmeticText operandSymbols moved [CType.int.withPointer, .int] :=
    .binary rfl hp hn
  have hdouble : IsHighest [.plain .char, .int, .plain .double] (.plain .double) := by
    refine ⟨by decide, ?_⟩
    intro u hu
    simp only [List.mem_cons, List.not_mem_nil, or_false] at hu
    rcases hu with rfl | rfl | rfl
    · exact ⟨0, 5, rfl, rfl, by decide⟩
    · exact ⟨2, 5, rfl, rfl, by decide⟩
    · exact ⟨5, 5, rfl, rfl, by decide⟩
  obtain ⟨hnumeric, -, -⟩ := arithmetic_typed hgrouped hrest
  obtain ⟨t, hhighest, -, -, hat, hsame⟩ := hnumeric (by decide)
  obtain rfl : t = .plain .double := hdouble.unique hhighest fun _ => Iff.rfl
  have hset : ∀ u : CType, u ∈ [.plain .double, .int, .plain .char] ↔
      u ∈ [.plain .char, .int, .plain .double] := by
    intro u
    show u ∈ [CType.plain .char, .int, .plain .double].reverse ↔ _
    exact List.mem_reverse
  refine ⟨hat, hsame _ _ _ hmixed hset hrest, ?_⟩
  obtain ⟨-, hrefused, -⟩ := arithmetic_typed hmoved hrest
  refine hrefused (by decide) ?_ ⟨CType.int.withPointer, by decide, rfl⟩
  intro u hu
  simp only [List.mem_cons, List.not_mem_nil, or_false] at hu
  rcases hu with rfl | rfl <;> exact nofun

end MiniC
