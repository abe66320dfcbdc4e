import MiniC.Expr.Read
import MiniC.Proofs.Reading.Tracks

/-!
# `MiniC.Proofs.Reading.Expr` — the readers of expressions follow the grammar

Each reader is linked to the plan of its rule by unfolding it once.  The readers that are handed
a tree to build upon, such as those of operators and of access chains, lengthen its trace.

## Contents
- `tracks_either`, `tracks_typeSpec`.
- `tracks_expression` and the levels below it, in one recursion.
-/

namespace MiniC

open Cursor (reading broken)

/-- One demand for two kinds is a choice between them. -/
theorem tracks_either (c : Cursor) (p q : Kind → Bool) (wanted : Wanted) :
    Tracks (.choice (sees p) (.kind p) (.kind q)) c
      (c.demand (fun kind => p kind || q kind) wanted).next
      (c.demand (fun kind => p kind || q kind) wanted).tree.trace := by
  have hdemand := tracks_demand c (fun kind => p kind || q kind) wanted
  cases c with
  | broken hole after => exact ⟨.idle, fun _ hc => nomatch hc⟩
  | reading ts =>
      cases ts with
      | nil => exact ⟨.second rfl (.fault fun t ht => nomatch ht), fun _ _ => rfl⟩
      | cons t ts =>
          cases hp : p t.kind
          · cases hq : q t.kind
            · simp only [Cursor.demand, hp, hq]
              refine ⟨.second hp (.fault fun u hu => ?_), fun _ _ => rfl⟩
              cases hu
              exact hq
            · simp only [Cursor.demand, hp, hq]
              exact ⟨.second hp (.token hq), fun _ _ => rfl⟩
          · simp only [Cursor.demand, hp]
            exact ⟨.first hp (.token hp), fun _ _ => rfl⟩

theorem tracks_typeSpec (c : Cursor) :
    Tracks (.rule .typeSpec) c c.typeSpec.next c.typeSpec.tree.trace := by
  refine .rule ?_
  cases c with
  | broken hole after => exact tracks_broken
  | reading ts =>
      cases ts with
      | nil => exact .second_reading rfl (.seq_fail (tracks_fail rfl))
      | cons t ts =>
          by_cases hstruct : t.kind = .keyword .kwStruct
          · simp only [Cursor.typeSpec, hstruct]
            refine .second_reading ?_ ((tracks_token ?_).seq (tracks_expect _ _ _))
            · simp [sees, hstruct, Kind.isTypeWord]
            · simp [hstruct]
          · by_cases hword : t.kind.isTypeWord = true
            · simp only [Cursor.typeSpec, hword, beq_iff_eq, if_neg hstruct]
              exact .first_reading hword ((tracks_token hword).seq (tracks_takeWhile _ _))
            · simp only [Cursor.typeSpec, hword, beq_iff_eq, if_neg hstruct]
              refine .second_reading (Bool.eq_false_iff.2 hword) (.seq_fail (tracks_fail ?_))
              simpa [sees] using hstruct

/-! ## Parts of expressions -/

theorem Kind.isSome_access? {kind : Kind} :
    kind.access?.isSome = true ↔ kind = .punct .dot ∨ kind = .punct .arrow := by
  unfold Kind.access?
  split <;> simp_all

/-- A member behind its operator is an element of an access chain. -/
theorem tracks_member {c : Cursor} {taken : Taken c}
    (h : c.take? (·.access?.isSome) = some taken) :
    Tracks (.rule .accessChain) c (taken.next.identifier .memberName).next
      (taken.next.identifier .memberName).tree.trace := by
  obtain ⟨ts, hc, haccess, hnext⟩ := Cursor.take?_eq_some h
  rw [hnext, hc]
  refine .rule (.second_reading ?_ ?_)
  · rcases Kind.isSome_access?.1 haccess with hdot | harrow
    · simp [hdot]
    · simp [harrow]
  · rcases Kind.isSome_access?.1 haccess with hdot | harrow
    · exact .first_reading (by simp [hdot])
        ((tracks_token (by simp [hdot])).seq (tracks_expect _ _ _))
    · exact .second_reading (by simp [harrow])
        ((tracks_token (by simp [harrow])).seq (tracks_expect _ _ _))

section Element

variable {t : Token} {ts : List Token} {c' : Cursor} {trace : Trace}

theorem seesCall_of_take {taken : Taken (reading ts)} (h : t.kind.namesFunction = true)
    (hsome : (reading ts).take? (· == .punct .lparen) = some taken) :
    seesCall (t.shape :: shapes ts) = true := by
  obtain ⟨us, hc, hopening, -⟩ := Cursor.take?_eq_some hsome
  rw [Cursor.reading.inj hc]
  simpa [seesCall, h] using hopening

theorem tracks_unary (h : t.kind.isUnary = true)
    (hin : Tracks (.rule .element) (reading ts) c' trace) :
    Tracks Rule.element.plan (reading (t :: ts)) c' trace :=
  .first_reading h (tracks_behind h hin)

theorem tracks_named_call {taken : Taken (reading ts)} (h : t.kind.namesFunction = true)
    (hsome : (reading ts).take? (· == .punct .lparen) = some taken)
    (hin : Tracks .callEnd taken.next c' trace) :
    Tracks Rule.element.plan (reading (t :: ts)) c' trace := by
  have hunary : t.kind.isUnary = false := by
    simp only [Kind.namesFunction, Bool.or_eq_true, beq_iff_eq] at h
    rcases h with h | h <;> rw [h] <;> rfl
  exact .second_reading hunary (.first_reading (seesCall_of_take h hsome)
    (.rule (tracks_behind h ((tracks_take hsome).seq hin))))

theorem tracks_path (hkind : t.kind = .ident)
    (hparen : sees (· == .punct .lparen) (shapes ts) = false)
    (hin : Tracks (.seq .accesses (.run Kind.isStep)) (reading ts) c' trace) :
    Tracks Rule.element.plan (reading (t :: ts)) c' trace := by
  refine .second_reading ?_ (.second_reading (not_seesCall hparen) (.first_reading ?_ ?_))
  · simp [hkind, Kind.isUnary]
  · simp [hkind]
  · exact tracks_behind (by simp [hkind]) hin

theorem tracks_literal {class_ : Literal} (hkind : t.kind = .literal class_) :
    Tracks Rule.element.plan (reading (t :: ts)) (reading ts) .clear := by
  have hcall : t.kind.namesFunction = false := by simp [hkind, Kind.namesFunction]
  refine .second_reading ?_ (.second_reading (not_seesCall_of_kind hcall)
    (.second_reading ?_ (.first_reading ?_ (tracks_token ?_))))
  · simp [hkind, Kind.isUnary]
  · simp [hkind]
  · simp [hkind, Kind.isLiteral]
  · simp [hkind, Kind.isLiteral]

theorem tracks_group (hkind : t.kind = .punct .lparen)
    (hin : Tracks (.seq (.rule .expression) (.seq (.mark .rparen) .accesses)) (reading ts) c'
      trace) :
    Tracks Rule.element.plan (reading (t :: ts)) c' trace := by
  have hcall : t.kind.namesFunction = false := by simp [hkind, Kind.namesFunction]
  refine .second_reading ?_ (.second_reading (not_seesCall_of_kind hcall) (.second_reading ?_
    (.second_reading ?_ (.first_reading ?_ (tracks_behind ?_ hin)))))
  · simp [hkind, Kind.isUnary]
  · simp [hkind]
  · simp [hkind, Kind.isLiteral]
  · simp [hkind]
  · simp [hkind]

theorem tracks_sizeof (hkind : t.kind = .keyword .kwSizeof)
    (hin : Tracks .sizeofOperand (reading ts) c' trace) :
    Tracks Rule.element.plan (reading (t :: ts)) c' trace := by
  have hcall : t.kind.namesFunction = false := by simp [hkind, Kind.namesFunction]
  refine .second_reading ?_ (.second_reading (not_seesCall_of_kind hcall) (.second_reading ?_
    (.second_reading ?_ (.second_reading ?_ (tracks_behind ?_ hin)))))
  · simp [hkind, Kind.isUnary]
  · simp [hkind]
  · simp [hkind, Kind.isLiteral]
  · simp [hkind]
  · simp [hkind]

/-- Steps behind a variable leave no holes. -/
theorem trace_stepped (steps : List Token) (path : Expr) :
    (steps.foldl .stepped path).trace = path.trace := by
  induction steps generalizing path with
  | nil => rfl
  | cons step steps ih => exact ih _

/-- Whether an element may begin with the kind, whatever follows. -/
def Kind.opensElement (kind : Kind) : Bool :=
  kind.isUnary || kind == .ident || kind.isLiteral || kind == .punct .lparen ||
    kind == .keyword .kwSizeof

theorem tracks_no_element {wanted : Wanted} (hcall : seesCall (shapes ts) = false)
    (hkind : sees Kind.opensElement (shapes ts) = false) :
    Tracks Rule.element.plan (reading ts) ((reading ts).fail wanted)
      (.stopped ((reading ts).hole wanted)) := by
  have hno : ∀ p : Kind → Bool, (∀ kind, p kind = true → kind.opensElement = true) →
      sees p (shapes ts) = false := by
    intro p hp
    refine Bool.eq_false_iff.2 fun hsees => ?_
    rw [sees_of_imp hp hsees] at hkind
    cases hkind
  refine .second_reading (hno _ ?_) (.second_reading hcall (.second_reading (hno _ ?_)
    (.second_reading (hno _ ?_) (.second_reading (hno _ ?_)
      (.seq_fail (tracks_fail (hno _ ?_)))))))
  · intro kind hp
    simp [Kind.opensElement, hp]
  · intro kind hp
    simp [Kind.opensElement, hp]
  · intro kind hp
    simp [Kind.opensElement, hp]
  · intro kind hp
    simp [Kind.opensElement, hp]
  · intro kind hp
    simp [Kind.opensElement, hp]

theorem tracks_no_element_of_kind {wanted : Wanted} (hcall : t.kind.namesFunction = false)
    (hkind : t.kind.opensElement = false) :
    Tracks Rule.element.plan (reading (t :: ts)) ((reading (t :: ts)).fail wanted)
      (.stopped ((reading (t :: ts)).hole wanted)) :=
  tracks_no_element (not_seesCall_of_kind hcall) hkind

end Element

/-! ## Expressions -/

mutual

theorem tracks_expression (c : Cursor) :
    Tracks (.rule .expression) c c.expression.next c.expression.tree.trace := by
  have hle := c.residue_le_size
  have hcondition := tracks_operation .logical c
  have hle₁ := (c.operation .logical).le
  refine .rule ?_
  rw [Cursor.expression]
  simp only [Parsed.next_andThen, Parsed.tree_andThen]
  split
  next hnone =>
    rw [← Trace.andThen_clear (Expr.trace _)]
    exact hcondition.seq (.second (Cursor.not_sees_of_take? hnone) .skip)
  next taken hsome =>
    have hlt := taken.lt
    have hfirst := tracks_expression taken.next
    have hle₂ := taken.next.expression.le
    have hle₃ := taken.next.residue_le_size
    have hcolon := tracks_expect taken.next.expression.next (.punct .colon) .ternaryColon
    have hle₄ := (taken.next.expression.next.expect (.punct .colon) .ternaryColon).le
    have hle₅ := taken.next.expression.next.residue_le_size
    have hsecond :=
      tracks_expression (taken.next.expression.next.expect (.punct .colon) .ternaryColon).next
    exact hcondition.seq (.first (Cursor.sees_of_take? hsome)
      ((tracks_take hsome).seq (hfirst.seq (hcolon.seq hsecond))))
termination_by 16 * c.size + 10

theorem tracks_operation (tier : Tier) (c : Cursor) :
    Tracks (.rule (.operation tier)) c (c.operation tier).next (c.operation tier).tree.trace := by
  have hle := c.residue_le_size
  have hfirst := tracks_operand tier c
  have hle₁ := (c.operand tier).le
  obtain ⟨t, hrest, htree⟩ := tracks_operations tier (c.operand tier).tree (c.operand tier).next
  refine .rule ?_
  rw [Cursor.operation]
  simp only [Parsed.next_andThen, Parsed.tree_andThen]
  rw [htree]
  exact hfirst.seq hrest
termination_by 16 * c.size + 2 * tier.rank + 3

theorem tracks_operand (tier : Tier) (c : Cursor) :
    Tracks (.operand tier) c (c.operand tier).next (c.operand tier).tree.trace := by
  cases tier with
  | logical =>
      rw [Cursor.operand]
      exact tracks_operation .relational c
  | relational =>
      rw [Cursor.operand]
      exact tracks_operation .additive c
  | additive =>
      rw [Cursor.operand]
      exact tracks_operation .multiplicative c
  | multiplicative =>
      rw [Cursor.operand]
      exact tracks_factor c
termination_by 16 * c.size + 2 * tier.rank + 2

/-- The operators of a level lengthen the trace of what they follow. -/
theorem tracks_operations (tier : Tier) (left : Expr) (c : Cursor) :
    ∃ t, Tracks (.further (.operand tier) tier.has) c (c.operations tier left).next t ∧
      (c.operations tier left).tree.trace = left.trace.andThen t := by
  rw [Cursor.operations]
  split
  next hnone => exact ⟨.clear, .done (Cursor.not_sees_of_take? hnone), by simp⟩
  next taken hsome =>
    have hrank := tier.rank_le
    have hlt := taken.lt
    have hle := taken.next.residue_le_size
    have hright := tracks_operand tier taken.next
    have hle₁ := (taken.next.operand tier).le
    obtain ⟨t, hrest, htree⟩ := tracks_operations tier
      (.binary tier left taken.token (taken.next.operand tier).tree)
      (taken.next.operand tier).next
    refine ⟨(taken.next.operand tier).tree.trace.andThen t, ?_, ?_⟩
    · exact .more (Cursor.sees_of_take? hsome) ((tracks_take hsome).seq hright) hrest
    · exact htree.trans (Trace.andThen_assoc _ _ _)
termination_by 16 * c.size + 2

theorem tracks_factor (c : Cursor) :
    Tracks (.rule .factor) c c.factor.next c.factor.tree.trace := by
  have hle := c.residue_le_size
  have hbase := tracks_element c
  have hle₁ := c.element.le
  refine .rule ?_
  rw [Cursor.factor]
  simp only [Parsed.next_andThen, Parsed.tree_andThen]
  split
  next hnone =>
    rw [← Trace.andThen_clear (Expr.trace _)]
    exact hbase.seq (.second (Cursor.not_sees_of_take? hnone) .skip)
  next taken hsome =>
    have hlt := taken.lt
    obtain ⟨t, hsubscript, htree⟩ := tracks_subscript c.element.tree taken.token taken.next
    simp only [Parsed.next_atMost, Parsed.tree_atMost, Taken.andThen, Taken.within,
      Parsed.next_weaken, Parsed.tree_weaken, htree]
    exact hbase.seq (.first (Cursor.sees_of_take? hsome) ((tracks_take hsome).seq hsubscript))
termination_by 16 * c.size + 1

/-- A subscript lengthens the trace of its base. -/
theorem tracks_subscript (base : Expr) (opening : Token) (c : Cursor) :
    ∃ t, Tracks (.seq (.rule .expression) (.mark .rbracket)) c (c.subscript base opening).next t ∧
      (c.subscript base opening).tree.trace = base.trace.andThen t := by
  have hindex := tracks_expression c
  rw [Cursor.subscript]
  exact ⟨_, hindex.seq (tracks_expect _ (.punct .rbracket) .indexEnd), rfl⟩
termination_by 16 * c.size + 11

/-- Subscripts and member accesses lengthen the trace of what they follow. -/
theorem tracks_accesses (base : Expr) (c : Cursor) :
    ∃ t, Tracks .accesses c (c.accesses base).next t ∧
      (c.accesses base).tree.trace = base.trace.andThen t := by
  rw [Cursor.accesses]
  split
  next taken hsome =>
    have hlt := taken.lt
    have hle := taken.next.residue_le_size
    obtain ⟨t₁, hsubscript, htree₁⟩ := tracks_subscript base taken.token taken.next
    have hle₁ := (taken.next.subscript base taken.token).le
    obtain ⟨t₂, hrest, htree₂⟩ := tracks_accesses (taken.next.subscript base taken.token).tree
      (taken.next.subscript base taken.token).next
    refine ⟨t₁.andThen t₂, .more ?_ (.rule (.first (Cursor.sees_of_take? hsome)
      ((tracks_take hsome).seq hsubscript))) hrest, ?_⟩
    · intro ts hc
      refine sees_of_imp (fun kind hkind => ?_) (Cursor.sees_of_take? hsome ts hc)
      simp [Kind.opensAccess, hkind]
    · rw [← Trace.andThen_assoc, ← htree₁]
      exact htree₂
  next hnobracket =>
    split
    next hnone =>
      refine ⟨.clear, .done fun ts hc => ?_, by simp⟩
      exact not_sees_or (Cursor.not_sees_of_take? hnobracket ts hc)
        (Cursor.not_sees_of_take? hnone ts hc)
    next taken hsome =>
      have hlt := taken.lt
      have hle := taken.next.residue_le_size
      have hfield := tracks_member hsome
      have hle₁ := (taken.next.identifier .memberName).le
      obtain ⟨t, hrest, htree⟩ := tracks_accesses
        (.member base (taken.token.kind.access?.getD .direct) taken.token
          (taken.next.identifier .memberName).tree) (taken.next.identifier .memberName).next
      refine ⟨(taken.next.identifier .memberName).tree.trace.andThen t, .more ?_ hfield hrest, ?_⟩
      · intro ts hc
        refine sees_of_imp (fun kind hkind => ?_) (Cursor.sees_of_take? hsome ts hc)
        simp [Kind.opensAccess, hkind]
      · exact htree.trans (Trace.andThen_assoc _ _ _)
termination_by 16 * c.size + 12

theorem tracks_call (name opening : Token) (c : Cursor) :
    Tracks .callEnd c (c.call name opening).next (c.call name opening).tree.trace := by
  rw [Cursor.call]
  by_cases hempty : c.sees (· == .punct .rparen) = true
  · rw [if_pos hempty]
    have hclosing := tracks_expect c (.punct .rparen) .argumentsEnd
    have hnone : Tracks (.opt (seesNo (.punct .rparen)) (.commaList (.rule .expression))) c c
        .clear := by
      exact .second (fun ts hc => by simp [seesNo, sees_of_cursor hempty ts hc]) .skip
    exact hnone.seq hclosing
  · rw [if_neg hempty]
    have hle := c.residue_le_size
    have hfirst := tracks_expression c
    have hle₁ := c.expression.le
    have hothers := tracks_trail c.expression.next
    have hclosing := tracks_expect c.expression.next.trail.next (.punct .rparen) .argumentsEnd
    simp only [Parsed.next_andThen, Parsed.tree_andThen]
    have harguments : Tracks (.opt (seesNo (.punct .rparen)) (.commaList (.rule .expression))) c
        c.expression.next.trail.next
        (c.expression.tree.trace.andThen c.expression.next.trail.tree.trace) := by
      exact .first (fun ts hc => by simp [seesNo, not_sees_of_cursor hempty ts hc])
        (hfirst.seq hothers)
    have hboth := harguments.seq hclosing
    rw [Trace.andThen_assoc] at hboth
    exact hboth
termination_by 16 * c.size + 12

theorem tracks_trail (c : Cursor) :
    Tracks (.further (.rule .expression) (· == .punct .comma)) c c.trail.next
      c.trail.tree.trace := by
  rw [Cursor.trail]
  split
  next hnone => exact .done (Cursor.not_sees_of_take? hnone)
  next taken hsome =>
    have hlt := taken.lt
    have hle := taken.next.residue_le_size
    have hargument := tracks_expression taken.next
    have hle₁ := taken.next.expression.le
    have hrest := tracks_trail taken.next.expression.next
    exact .more (Cursor.sees_of_take? hsome) ((tracks_take hsome).seq hargument) hrest
termination_by 16 * c.size + 11

theorem tracks_sizeofOperand (keyword : Token) (c : Cursor) :
    Tracks .sizeofOperand c (c.sizeofOperand keyword).next
      (c.sizeofOperand keyword).tree.trace := by
  rw [Cursor.sizeofOperand]
  have hle := c.residue_le_size
  have hopening := tracks_expect c (.punct .lparen) .sizeofStart
  have hle₁ := (c.expect (.punct .lparen) .sizeofStart).le
  simp only [Parsed.next_andThen, Parsed.tree_andThen]
  generalize (c.expect (.punct .lparen) .sizeofStart).next = c₁ at *
  by_cases hspec : c₁.sees Kind.startsTypeSpec = true
  · rw [if_pos hspec]
    have htype := tracks_typeSpec c₁
    have hstars := tracks_takeWhile c₁.typeSpec.next (· == .operator .star)
    have hclosing := tracks_expect c₁.typeSpec.next.stars.next (.punct .rparen) .sizeofEnd
    exact hopening.seq (.seq (.first (sees_of_cursor hspec) (htype.seq_skip hstars)) hclosing)
  · rw [if_neg hspec]
    have hoperand := tracks_expression c₁
    have hclosing := tracks_expect c₁.expression.next (.punct .rparen) .sizeofEnd
    exact hopening.seq (.seq (.second (not_sees_of_cursor hspec) hoperand) hclosing)
termination_by 16 * c.size + 12

theorem tracks_element (c : Cursor) :
    Tracks (.rule .element) c c.element.next c.element.tree.trace := by
  refine .rule ?_
  match c with
  | reading (t :: ts) =>
      have hsize := Cursor.size_reading ts
      rw [Cursor.element]
      split
      next hkind => exact tracks_unary (by rw [hkind]; rfl) (tracks_element (reading ts))
      next hkind => exact tracks_unary (by rw [hkind]; rfl) (tracks_element (reading ts))
      next hkind => exact tracks_unary (by rw [hkind]; rfl) (tracks_element (reading ts))
      next hkind => exact tracks_unary (by rw [hkind]; rfl) (tracks_element (reading ts))
      next hkind => exact tracks_unary (by rw [hkind]; rfl) (tracks_element (reading ts))
      next hkind => exact tracks_unary (by rw [hkind]; rfl) (tracks_element (reading ts))
      next hkind => exact tracks_sizeof hkind (tracks_sizeofOperand t (reading ts))
      next hkind => exact tracks_literal hkind
      next hkind =>
        have hinner := tracks_expression (reading ts)
        have hle := (reading ts).expression.le
        have hle₁ := (reading ts).residue_le_size
        have hclosing := tracks_expect (reading ts).expression.next (.punct .rparen) .groupEnd
        have hle₂ := ((reading ts).expression.next.expect (.punct .rparen) .groupEnd).le
        have hle₃ := (reading ts).expression.next.residue_le_size
        obtain ⟨tr, hrest, htree⟩ := tracks_accesses
          (.group t (reading ts).expression.tree
            ((reading ts).expression.next.expect (.punct .rparen) .groupEnd).tree)
          ((reading ts).expression.next.expect (.punct .rparen) .groupEnd).next
        have hboth := hinner.seq (hclosing.seq hrest)
        rw [← Trace.andThen_assoc] at hboth
        simp only [Parsed.next_andThen, Parsed.tree_andThen, Parsed.next_atMost,
          Parsed.tree_atMost, htree]
        exact tracks_group hkind hboth
      next hkind =>
        split
        next taken hsome =>
          have hlt := taken.lt
          exact tracks_named_call (by rw [hkind]; rfl) hsome
            (tracks_call t taken.token taken.next)
        next hnone =>
          obtain ⟨tr, hpath, htree⟩ := tracks_accesses (.var t) (reading ts)
          have hsteps := tracks_takeWhile ((reading ts).accesses (.var t)).next Kind.isStep
          have hboth := tracks_path hkind (Cursor.not_sees_of_take? hnone ts rfl)
            (hpath.seq_skip hsteps)
          simp only [Parsed.next_andThen, Parsed.tree_andThen, Parsed.tree_map,
            Parsed.next_map, trace_stepped, htree]
          exact hboth
      next hkind =>
        split
        next taken hsome =>
          have hlt := taken.lt
          exact tracks_named_call (by rw [hkind]; rfl) hsome
            (tracks_call t taken.token taken.next)
        next hnone =>
          refine tracks_no_element (not_seesCall (Cursor.not_sees_of_take? hnone ts rfl)) ?_
          simp [Kind.opensElement, hkind, Kind.isUnary, Kind.isLiteral]
      next hstar hamp hbang hminus hplusPlus hminusMinus hsizeof hliteral hlparen hident hmain =>
        have hno : t.kind.namesFunction = false → t.kind.opensElement = false →
            Tracks Rule.element.plan (reading (t :: ts)) ((reading (t :: ts)).fail .expression)
              (.stopped ((reading (t :: ts)).hole .expression)) := tracks_no_element_of_kind
        generalize t.kind = kind at *
        cases kind with
        | literal class_ => exact (hliteral class_ rfl).elim
        | ident => contradiction
        | directive => exact hno rfl rfl
        | keyword k => cases k <;> first | contradiction | exact hno rfl rfl
        | operator o => cases o <;> first | contradiction | exact hno rfl rfl
        | punct m => cases m <;> first | contradiction | exact hno rfl rfl
        | eof => exact hno rfl rfl
  | reading [] =>
      rw [Cursor.element]
      · exact tracks_no_element rfl rfl
      · exact fun _ _ hc => nomatch hc
  | broken hole after =>
      rw [Cursor.element]
      · exact tracks_broken
      · exact fun _ _ hc => nomatch hc
termination_by 16 * c.size

end

end MiniC
