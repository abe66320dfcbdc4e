import MiniC.Proofs.Expression.Reading

/-!
# `MiniC.Proofs.Expression.Readable` — a tree of the grammar is read from its tokens

The readers are run on the tokens of a tree with a rest behind them.  Loops that lengthen a tree
on its left need a statement about what is still to come: reading a path leaves its chain to be
read on, reading an operation leaves its tier to be read on.  If the rest does not go on with the
tree, nothing more is read, and the tree is the result.

## Contents
- `Expr.exists_lead`: what an expression begins with.
- `Expr.Readable`: what is read from the tokens of an expression, level by level, with
  `Readable.of_element` and `Readable.of_operation` from each level to the looser ones.
- `Expr.readable`, `Trail.readable`: **a tree of the grammar is read from its tokens.**
-/

namespace MiniC

open Cursor (reading)

/-! ## Trees of the grammar -/

/-- Whether an expression may begin with the kind. -/
def Kind.opensExpression (kind : Kind) : Bool :=
  kind.opensElement || kind == .keyword .kwMain

theorem Kind.opensElement_of_isSign {kind : Kind} (h : kind.isSign = true) :
    kind.opensElement = true := by
  simp only [Kind.isSign, Kind.isStep, Bool.or_eq_true, beq_iff_eq] at h
  rcases h with (h | h) | h | h <;> rw [h] <;> rfl

/-- Behind arguments stands what ends an expression, and in front of each stands a comma. -/
theorem Trail.endsExpression (others : Trail) (h : others.Grammatical)
    {rest : List Token} (hrest : EndsExpression rest) :
    EndsExpression (others.tokens ++ rest) := by
  cases others with
  | nil => exact hrest
  | cons comma argument others => exact endsExpression_cons (by rw [h.1]; rfl)

namespace Expr

/-- An expression is not empty, and its first token tells that it is one. -/
theorem exists_lead : ∀ e : Expr, e.Grammatical →
    ∃ t ts, e.tokens = t :: ts ∧ t.kind.opensExpression = true
  | .literal class_ token, h => by
      have hkind : token.kind = .literal class_ := h
      refine ⟨token, _, rfl, ?_⟩
      rw [hkind]
      cases class_ <;> rfl
  | .var name, h => by
      have hkind : name.kind = .ident := h
      exact ⟨name, _, rfl, by rw [hkind]; rfl⟩
  | .emptyCall name _ _, h => by
      refine ⟨name, _, rfl, ?_⟩
      rcases h.1 with hkind | hkind <;> rw [hkind] <;> rfl
  | .call name _ _ _ _, h => by
      refine ⟨name, _, rfl, ?_⟩
      rcases h.1 with hkind | hkind <;> rw [hkind] <;> rfl
  | .deref star _, h => ⟨star, _, rfl, by rw [h.1]; rfl⟩
  | .address ampersand _, h => ⟨ampersand, _, rfl, by rw [h.1]; rfl⟩
  | .unary operator _, h => by
      refine ⟨operator, _, rfl, ?_⟩
      rw [Kind.opensExpression, Kind.opensElement_of_isSign h.1]
      rfl
  | .stepped operand _, h => by
      obtain ⟨t, ts, heq, hkind⟩ := exists_lead operand h.2.2
      exact ⟨t, _, by rw [tokens, heq]; rfl, hkind⟩
  | .index base _ _ _, h => by
      obtain ⟨t, ts, heq, hkind⟩ := exists_lead base h.2.1
      exact ⟨t, _, by rw [tokens, heq]; rfl, hkind⟩
  | .member base _ _ _, h => by
      obtain ⟨t, ts, heq, hkind⟩ := exists_lead base h.2.1
      exact ⟨t, _, by rw [tokens, heq]; rfl, hkind⟩
  | .binary _ left _ _, h => by
      obtain ⟨t, ts, heq, hkind⟩ := exists_lead left h.2.1
      exact ⟨t, _, by rw [tokens, heq]; rfl, hkind⟩
  | .conditional condition _ _ _ _, h => by
      obtain ⟨t, ts, heq, hkind⟩ := exists_lead condition h.2.1
      exact ⟨t, _, by rw [tokens, heq]; rfl, hkind⟩
  | .group opening _ _, h => ⟨opening, _, rfl, by rw [h.1]; rfl⟩
  | .sizeofType keyword _ _ _ _, h => ⟨keyword, _, rfl, by rw [h.1]; rfl⟩
  | .sizeofExpr keyword _ _ _, h => ⟨keyword, _, rfl, by rw [h.1]; rfl⟩
  | .missing _, h => h.elim

/-- What does not begin an expression is not seen in front of one. -/
theorem not_sees {e : Expr} (h : e.Grammatical) {p : Kind → Bool}
    (hp : ∀ kind, kind.opensExpression = true → p kind = false) (rest : List Token) :
    (reading (e.tokens ++ rest)).sees p = false := by
  obtain ⟨t, ts, heq, hkind⟩ := e.exists_lead h
  rw [heq]
  exact hp _ hkind

/-- What is read from the tokens of an expression of a level. -/
structure Readable (e : Expr) : Prop where
  /-- From an element, whatever stands behind it: what is read on behind the element. -/
  element : e.level = 0 → ∀ rest, (∀ t ∈ rest.head?, (t.kind == .punct .lparen) = false) →
    (Cursor.element (reading (e.tokens ++ rest))).Agrees (Cursor.behind e (reading rest))
  /-- From an element with a subscript behind it: the whole of it. -/
  factor : e.level ≤ 1 → ∀ rest, EndsLevel 1 rest →
    (Cursor.factor (reading (e.tokens ++ rest))).Agrees (.here e (reading rest))
  /-- From an operation, whatever operators of its tier stand behind it: what they lead on to. -/
  operation : ∀ tier : Tier, e.level ≤ tier.level → ∀ rest, EndsLevel (tier.rank + 1) rest →
    (Cursor.operation tier (reading (e.tokens ++ rest))).Agrees
      (Cursor.operations tier e (reading rest))
  /-- From an expression: the whole of it. -/
  expression : ∀ rest, EndsLevel 6 rest →
    (Cursor.expression (reading (e.tokens ++ rest))).Agrees (.here e (reading rest))

namespace Readable

variable {e : Expr} {rest : List Token}

/-- An operand of a tier is an operation of the next tighter one. -/
theorem operand (hfactor : e.level ≤ 1 → ∀ rest, EndsLevel 1 rest →
      (Cursor.factor (reading (e.tokens ++ rest))).Agrees (.here e (reading rest)))
    {tier : Tier} (hoperation : ∀ tighter : Tier, tighter.level < tier.level →
      e.level ≤ tighter.level → ∀ rest, EndsLevel (tighter.rank + 1) rest →
        (Cursor.operation tighter (reading (e.tokens ++ rest))).Agrees
          (Cursor.operations tighter e (reading rest)))
    (hlevel : e.level < tier.level) (hrest : EndsLevel (tier.rank + 1) rest) :
    (Cursor.operand tier (reading (e.tokens ++ rest))).Agrees (.here e (reading rest)) := by
  have htighter : ∀ tighter : Tier, tighter.level + 1 = tier.level →
      (Cursor.operation tighter (reading (e.tokens ++ rest))).Agrees (.here e (reading rest)) := by
    intro tighter heq
    have hends : EndsLevel tighter.level rest := hrest.mono (by unfold Tier.level at *; omega)
    exact (hoperation tighter (by omega) (by omega) rest
      (hends.mono (by unfold Tier.level; omega))).trans
        (Cursor.operations_none (hends.tier (Nat.le_refl _)) e)
  cases tier with
  | logical =>
      rw [Cursor.operand]
      exact htighter .relational rfl
  | relational =>
      rw [Cursor.operand]
      exact htighter .additive rfl
  | additive =>
      rw [Cursor.operand]
      exact htighter .multiplicative rfl
  | multiplicative =>
      rw [Cursor.operand]
      exact hfactor (Nat.le_of_lt_succ hlevel) rest hrest

/-- An operand of a tier of a readable expression is read as a whole. -/
theorem operand_agrees (h : e.Readable) {tier : Tier} (hlevel : e.level < tier.level)
    (hrest : EndsLevel (tier.rank + 1) rest) :
    (Cursor.operand tier (reading (e.tokens ++ rest))).Agrees (.here e (reading rest)) :=
  operand h.factor (fun tighter _ => h.operation tighter) hlevel hrest

/-- What can be read as a factor, or as an operation of its own tier, can be read as anything
looser. -/
theorem of_operation (hlevel : e.level ≤ 5)
    (helement : e.level = 0 → ∀ rest, (∀ t ∈ rest.head?, (t.kind == .punct .lparen) = false) →
      (Cursor.element (reading (e.tokens ++ rest))).Agrees (Cursor.behind e (reading rest)))
    (hfactor : e.level ≤ 1 → ∀ rest, EndsLevel 1 rest →
      (Cursor.factor (reading (e.tokens ++ rest))).Agrees (.here e (reading rest)))
    (hown : ∀ tier : Tier, e.level = tier.level → ∀ rest, EndsLevel (tier.rank + 1) rest →
      (Cursor.operation tier (reading (e.tokens ++ rest))).Agrees
        (Cursor.operations tier e (reading rest))) : e.Readable := by
  -- from each tier to the next looser one
  have hoperation : ∀ n, ∀ tier : Tier, tier.level = n → e.level ≤ tier.level →
      ∀ rest, EndsLevel (tier.rank + 1) rest →
        (Cursor.operation tier (reading (e.tokens ++ rest))).Agrees
          (Cursor.operations tier e (reading rest)) := by
    intro n
    induction n using Nat.strongRecOn with
    | _ n ih =>
        intro tier htier hle rest hrest
        by_cases heq : e.level = tier.level
        · exact hown tier heq rest hrest
        · refine Cursor.operation_agrees (operand hfactor ?_ (by omega) hrest)
          exact fun tighter hlt => ih tighter.level (htier ▸ hlt) tighter rfl
  refine ⟨helement, hfactor, fun tier => hoperation tier.level tier rfl, ?_⟩
  intro rest hrest
  have hends : EndsLevel 5 rest := hrest.mono (by decide)
  have hcondition := (hoperation 5 .logical rfl hlevel rest (hends.mono (by decide))).trans
    (Cursor.operations_none (hends.tier (Nat.le_refl _)) e)
  exact Cursor.expression_none hcondition hrest.question

/-- What can be read as an element can be read as anything. -/
theorem of_element (hlevel : e.level = 0)
    (helement : ∀ rest, (∀ t ∈ rest.head?, (t.kind == .punct .lparen) = false) →
      (Cursor.element (reading (e.tokens ++ rest))).Agrees (Cursor.behind e (reading rest))) :
    e.Readable := by
  refine of_operation (by omega) (fun _ => helement) ?_ ?_
  · intro _ rest hrest
    have hwhole := (helement rest hrest.lparen).trans
      (Cursor.behind_none e (hrest.endsElement e))
    exact Cursor.factor_none hwhole hrest.lbracket
  · intro tier heq
    exact absurd (hlevel.symm.trans heq) (by unfold Tier.level; omega)

/-- What is read as a whole, whatever stands behind it, is an element. -/
theorem of_whole (hlevel : e.level = 0) (hbehind : ∀ c, Cursor.behind e c = .here e c)
    (helement : ∀ rest, (Cursor.element (reading (e.tokens ++ rest))).Agrees
      (.here e (reading rest))) : e.Readable :=
  of_element hlevel fun rest _ => by
    rw [hbehind]
    exact helement rest

end Readable

end Expr

/-! ## Reading the trees -/

section

variable {kind kind' : Kind}

theorem Slot.Holds.not_head {slot : Slot} (h : slot.Holds kind) (hne : kind ≠ kind')
    {rest : List Token} : ∀ t ∈ (slot.tokens ++ rest).head?, (t.kind == kind') = false := by
  obtain ⟨t, rfl, rfl⟩ := h
  intro u hu
  cases hu
  exact beq_eq_false_iff_ne.2 hne

theorem Kind.not_rparen_of_opensExpression (h : kind.opensExpression = true) :
    (kind == .punct .rparen) = false := by
  rw [beq_eq_false_iff_ne]
  rintro rfl
  exact absurd h (by decide)

theorem Kind.not_startsTypeSpec_of_opensExpression (h : kind.opensExpression = true) :
    kind.startsTypeSpec = false := by
  cases kind with
  | keyword word => cases word <;> first | rfl | exact absurd h (by simp [Kind.opensExpression,
      Kind.opensElement, Kind.isUnary, Kind.isLiteral])
  | _ => rfl

theorem Kind.not_lparen_of_isStep (h : kind.isStep = true) : (kind == .punct .lparen) = false := by
  rw [beq_eq_false_iff_ne]
  rintro rfl
  exact absurd h (by decide)

theorem Kind.not_lparen_of_access? {access : Access} (h : kind.access? = some access) :
    (kind == .punct .lparen) = false := by
  rw [beq_eq_false_iff_ne]
  rintro rfl
  exact nomatch h

theorem Tier.level_injective {tier tier' : Tier} (h : tier.level = tier'.level) :
    tier = tier' := by
  revert h
  cases tier <;> cases tier' <;> decide

end

namespace Expr

variable {e : Expr}

theorem isPath_of_isRooted : ∀ e : Expr, e.isRooted = true → e.isPath = true
  | .var _, _ => rfl
  | .index base _ _ _, h => isPath_of_isRooted base h
  | .member base _ _ _, h => isPath_of_isRooted base h
  | .literal _ _, h | .emptyCall _ _ _, h | .call _ _ _ _ _, h | .deref _ _, h
  | .address _ _, h | .unary _ _, h | .stepped _ _, h | .binary _ _ _ _, h
  | .conditional _ _ _ _ _, h | .group _ _ _, h | .sizeofType _ _ _ _ _, h
  | .sizeofExpr _ _ _ _, h | .missing _, h => absurd h Bool.false_ne_true

/-- A path is an element. -/
theorem level_of_isPath (h : e.isPath = true) : e.level = 0 := by
  cases e <;> first | rfl | exact if_pos h

theorem isRooted_or_stepped (h : e.takesStep = true) :
    e.isRooted = true ∨ ∃ operand operator, e = .stepped operand operator := by
  cases e <;> first | exact .inr ⟨_, _, rfl⟩ | exact .inl h

theorem level_of_takesStep (h : e.takesStep = true) : e.level = 0 := by
  rcases isRooted_or_stepped h with h | ⟨operand, operator, rfl⟩
  · exact level_of_isPath (isPath_of_isRooted e h)
  · rfl

end Expr

/-- A step behind what takes one is read with those that follow. -/
theorem Cursor.behind_step {e : Expr} {t : Token} {ts : List Token} (h : e.takesStep = true)
    (hstep : t.kind.isStep = true) :
    (Cursor.behind e (reading (t :: ts))).Agrees (Cursor.behind (.stepped e t) (reading ts)) := by
  have hmore := stepsBehind_cons hstep e ts
  rcases Expr.isRooted_or_stepped h with hrooted | ⟨operand, operator, rfl⟩
  · have hno : ∀ u ∈ (t :: ts).head?,
        (u.kind == .punct .lbracket) = false ∧ u.kind.access?.isSome = false := by
      intro u hu
      cases hu
      simp only [Kind.isStep, Bool.or_eq_true, beq_iff_eq] at hstep
      rcases hstep with hkind | hkind <;> rw [hkind] <;> exact ⟨rfl, rfl⟩
    rw [behind_path (Expr.isPath_of_isRooted e hrooted), pathBehind, if_pos hrooted]
    exact ((accesses_none hno e).andThen _).trans hmore
  · exact hmore

mutual

/-- **A tree of the grammar is read from its tokens.** -/
theorem Expr.readable : ∀ e : Expr, e.Grammatical → e.Readable
  | .literal class_ token, h =>
      .of_whole rfl (fun _ => rfl) fun _ => Cursor.element_literal h
  | .var name, h => .of_element rfl fun _ hrest => Cursor.element_var h hrest
  | .emptyCall name opening closing, h => by
      obtain ⟨hname, hopening, hclosing⟩ := h
      refine .of_whole rfl (fun _ => rfl) fun rest => ?_
      exact (Cursor.element_call hname hopening).trans (Cursor.call_empty hclosing name opening)
  | .call name opening first others closing, h => by
      obtain ⟨hname, hopening, hfirst, hothers, hclosing⟩ := h
      refine .of_whole rfl (fun _ => rfl) fun rest => ?_
      have hends : EndsExpression (closing.tokens ++ rest) := endsExpression_slot hclosing rfl
      have hread := (first.readable hfirst).expression _
        ((others.endsExpression hothers hends).endsLevel 6)
      have hsome := Expr.not_sees hfirst (p := (· == .punct .rparen))
        (fun _ => Kind.not_rparen_of_opensExpression) (others.tokens ++ (closing.tokens ++ rest))
      have htrail := others.readable hothers hends (hclosing.not_head (by decide))
      have htokens : (Expr.call name opening first others closing).tokens ++ rest =
          name :: opening :: (first.tokens ++ (others.tokens ++ (closing.tokens ++ rest))) := by
        simp [Expr.tokens]
      rw [htokens]
      exact (Cursor.element_call hname hopening).trans
        (Cursor.call_agrees hsome hread htrail hclosing name opening)
  | .deref star operand, h => by
      obtain ⟨hstar, hlevel, hoperand⟩ := h
      refine .of_element rfl fun rest hrest => ?_
      exact (Cursor.element_deref hstar).trans
        (((operand.readable hoperand).element hlevel rest hrest).map _)
  | .address ampersand operand, h => by
      obtain ⟨hampersand, hlevel, hoperand⟩ := h
      refine .of_element rfl fun rest hrest => ?_
      exact (Cursor.element_address hampersand).trans
        (((operand.readable hoperand).element hlevel rest hrest).map _)
  | .unary operator operand, h => by
      obtain ⟨hoperator, hlevel, hoperand⟩ := h
      refine .of_element rfl fun rest hrest => ?_
      exact (Cursor.element_unary hoperator).trans
        (((operand.readable hoperand).element hlevel rest hrest).map _)
  | .stepped operand operator, h => by
      obtain ⟨hoperator, htakes, hoperand⟩ := h
      refine .of_element rfl fun rest _ => ?_
      have hnext : ∀ t ∈ (operator :: rest).head?, (t.kind == .punct .lparen) = false :=
        fun t ht => by
          cases ht
          exact Kind.not_lparen_of_isStep hoperator
      rw [Expr.tokens, List.append_assoc]
      exact ((operand.readable hoperand).element (Expr.level_of_takesStep htakes) _ hnext).trans
        (Cursor.behind_step htakes hoperator)
  | .index base opening subscript closing, h => by
      obtain ⟨htakes, hbase, hopening, hsubscript, hclosing⟩ := h
      have hindex : ∀ rest, (Cursor.expression (reading (subscript.tokens ++
          (closing.tokens ++ rest)))).Agrees (.here subscript (reading (closing.tokens ++ rest))) :=
        fun rest => (subscript.readable hsubscript).expression _
          ((endsExpression_slot hclosing rfl).endsLevel 6)
      have hnext : ∀ {ts : List Token}, ∀ t ∈ (opening :: ts).head?,
          (t.kind == .punct .lparen) = false := fun t ht => by
        cases ht
        rw [hopening]
        rfl
      have htokens : ∀ rest, (Expr.index base opening subscript closing).tokens ++ rest =
          base.tokens ++ opening :: (subscript.tokens ++ (closing.tokens ++ rest)) := by
        simp [Expr.tokens]
      by_cases hpath : base.isPath = true
      · refine .of_element (if_pos hpath) fun rest _ => ?_
        have hread := (base.readable hbase).element (Expr.level_of_isPath hpath)
          (opening :: (subscript.tokens ++ (closing.tokens ++ rest))) hnext
        have hchain := Cursor.accesses_subscript hopening (hindex rest) hclosing base
        rw [Cursor.behind_path hpath] at hread
        rw [Cursor.behind_path (e := .index base opening subscript closing) hpath]
        rw [htokens]
        exact hread.trans (Cursor.pathBehind_agrees hchain rfl)
      · obtain ⟨hlevel, hends⟩ := htakes.resolve_left hpath
        have hone : (Expr.index base opening subscript closing).level = 1 := if_neg hpath
        refine .of_operation (by omega) (fun h => absurd h (by omega)) ?_ ?_
        · intro _ rest _
          have hclosed : EndsElement base
              (opening :: (subscript.tokens ++ (closing.tokens ++ rest))) := by
            refine ⟨hnext, fun t ht => ?_, fun h => ?_⟩
            · cases ht
              rw [hopening]
              rfl
            · rw [hends] at h
              exact absurd h Bool.false_ne_true
          have hread := ((base.readable hbase).element hlevel _ hnext).trans
            (Cursor.behind_none base hclosed)
          rw [htokens]
          exact Cursor.factor_subscript hread hopening (hindex rest) hclosing
        · intro tier heq
          exact absurd (hone.symm.trans heq) (by unfold Tier.level; omega)
  | .member base access operator field, h => by
      obtain ⟨hpath, hbase, haccess, hfield⟩ := h
      refine .of_element rfl fun rest _ => ?_
      have hnext : ∀ t ∈ (operator :: (field.tokens ++ rest)).head?,
          (t.kind == .punct .lparen) = false := fun t ht => by
        cases ht
        exact Kind.not_lparen_of_access? haccess
      have hread := (base.readable hbase).element (Expr.level_of_isPath hpath) _ hnext
      have hchain := Cursor.accesses_member haccess hfield base rest
      rw [Cursor.behind_path hpath] at hread
      rw [Cursor.behind_path (e := .member base access operator field) hpath, Expr.tokens,
        List.append_assoc, List.cons_append]
      exact hread.trans (Cursor.pathBehind_agrees hchain rfl)
  | .binary tier left operator right, h => by
      obtain ⟨hle, hleft, hoperator, hlt, hright⟩ := h
      have hrank := tier.rank_le
      have hlevel : (Expr.binary tier left operator right).level = tier.rank + 2 := rfl
      refine .of_operation (by omega) (fun h => absurd h (by omega))
        (fun h => absurd h (by omega)) ?_
      intro tier' heq rest hrest
      obtain rfl := Tier.level_injective heq
      have hfirst := (left.readable hleft).operation tier hle
        (operator :: (right.tokens ++ rest)) (endsLevel_operator hoperator)
      have hsecond := (right.readable hright).operand_agrees hlt hrest
      rw [Expr.tokens, List.append_assoc, List.cons_append]
      exact hfirst.trans (Cursor.operations_cons hoperator hsecond left)
  | .conditional condition question first colon second, h => by
      obtain ⟨hlevel, hcondition, hquestion, hfirst, hcolon, hsecond⟩ := h
      have hsix : (Expr.conditional condition question first colon second).level = 6 := rfl
      refine ⟨fun h => absurd h (by omega), fun h => absurd h (by omega), fun tier hle => ?_, ?_⟩
      · have hrank := tier.rank_le
        unfold Tier.level at hle
        omega
      · intro rest hrest
        have hends : ∀ {ts : List Token}, EndsLevel 5 (question :: ts) :=
          endsLevel_question hquestion
        have htest := ((condition.readable hcondition).operation .logical
          (Nat.le_of_lt_succ hlevel) (question :: (first.tokens ++ (colon.tokens ++
            (second.tokens ++ rest)))) (hends.mono (by decide))).trans
          (Cursor.operations_none (hends.tier (Nat.le_refl _)) condition)
        have hthen := (first.readable hfirst).expression (colon.tokens ++ (second.tokens ++ rest))
          ((endsExpression_slot hcolon rfl).endsLevel 6)
        have helse := (second.readable hsecond).expression rest hrest
        have htokens : (Expr.conditional condition question first colon second).tokens ++ rest =
            condition.tokens ++ question ::
              (first.tokens ++ (colon.tokens ++ (second.tokens ++ rest))) := by
          simp [Expr.tokens]
        rw [htokens]
        exact Cursor.expression_conditional htest hquestion hthen hcolon helse
  | .group opening inner closing, h => by
      obtain ⟨hopening, hinner, hclosing⟩ := h
      refine .of_element rfl fun rest _ => ?_
      have hread := (inner.readable hinner).expression (closing.tokens ++ rest)
        ((endsExpression_slot hclosing rfl).endsLevel 6)
      rw [Expr.tokens, List.cons_append, List.append_assoc]
      exact Cursor.element_group hopening hread hclosing
  | .sizeofType keyword opening spec stars closing, h => by
      obtain ⟨hkeyword, hopening, hspec, hstars, hclosing⟩ := h
      refine .of_whole rfl (fun _ => rfl) fun rest => ?_
      have htokens : (Expr.sizeofType keyword opening spec stars closing).tokens ++ rest =
          keyword :: (opening.tokens ++ (spec.tokens ++ (stars ++ (closing.tokens ++ rest)))) := by
        simp [Expr.tokens]
      rw [htokens]
      exact (Cursor.element_sizeof hkeyword).trans
        (Cursor.sizeofOperand_type hopening hspec hstars hclosing keyword)
  | .sizeofExpr keyword opening operand closing, h => by
      obtain ⟨hkeyword, hopening, hoperand, hclosing⟩ := h
      refine .of_whole rfl (fun _ => rfl) fun rest => ?_
      have hread := (operand.readable hoperand).expression (closing.tokens ++ rest)
        ((endsExpression_slot hclosing rfl).endsLevel 6)
      have hno := Expr.not_sees hoperand (fun _ => Kind.not_startsTypeSpec_of_opensExpression)
        (closing.tokens ++ rest)
      have htokens : (Expr.sizeofExpr keyword opening operand closing).tokens ++ rest =
          keyword :: (opening.tokens ++ (operand.tokens ++ (closing.tokens ++ rest))) := by
        simp [Expr.tokens]
      rw [htokens]
      exact (Cursor.element_sizeof hkeyword).trans
        (Cursor.sizeofOperand_expr hopening hno hread hclosing keyword)
  | .missing _, h => h.elim

/-- Arguments of the grammar are read from their tokens. -/
theorem Trail.readable : ∀ others : Trail, others.Grammatical → ∀ {rest : List Token},
    EndsExpression rest → (∀ t ∈ rest.head?, (t.kind == .punct .comma) = false) →
    (Cursor.trail (reading (others.tokens ++ rest))).Agrees (.here others (reading rest))
  | .nil, _, _, _, hno => Cursor.trail_nil hno
  | .cons comma argument others, h, rest, hrest, hno => by
      obtain ⟨hcomma, hargument, hothers⟩ := h
      have hread := (argument.readable hargument).expression (others.tokens ++ rest)
        ((others.endsExpression hothers hrest).endsLevel 6)
      rw [Trail.tokens, List.cons_append, List.append_assoc]
      exact Cursor.trail_cons hcomma hread (others.readable hothers hrest hno)

end

end MiniC
