import MiniC.Proofs.Reading.Decl
import MiniC.Stmt.Read

/-!
# `MiniC.Proofs.Reading.Stmt` — the readers of statements and programs follow the grammar

## Contents
- `tracks_assignment`, `tracks_condition`, `tracks_forInit`: parts of statements.
- `tracks_statement` and the rules it needs, in one recursion.
- `tracks_items`: **the reader of programs follows the grammar.**
-/

namespace MiniC

open Cursor (reading broken)

/-! ## Assignments -/

theorem trace_asVar (slot : Slot) : slot.asVar.trace = slot.trace := by
  cases slot <;> rfl

theorem tracks_place (c : Cursor) :
    Tracks (.rule .lvalue) c c.place.next c.place.tree.path.trace := by
  have hstars := tracks_takeWhile c (· == .operator .star)
  have hname := tracks_expect c.stars.next .ident .assignmentTarget
  obtain ⟨t, hrest, htree⟩ := tracks_accesses (c.stars.next.identifier .assignmentTarget).tree.asVar
    (c.stars.next.identifier .assignmentTarget).next
  rw [trace_asVar] at htree
  have hpath : c.place.tree.path.trace = _ := htree
  rw [hpath]
  exact .rule (hstars.seq (hname.seq hrest))

theorem not_isAssign_of_isStep {kind : Kind} (h : kind.isStep = true) :
    kind.isAssign = false := by
  simp only [Kind.isStep, Bool.or_eq_true, beq_iff_eq] at h
  rcases h with h | h <;> rw [h] <;> rfl

/-- What is written lengthens the trace of the place. -/
theorem tracks_writing (place : Place) (c : Cursor) :
    ∃ t, Tracks .writing c (c.writing place).next t ∧
      (c.writing place).tree.trace = place.path.trace.andThen t := by
  unfold Cursor.writing
  split
  next taken hsome =>
    refine ⟨.clear, .second (fun ts hc => ?_) (tracks_take hsome), (Trace.andThen_clear _).symm⟩
    refine not_sees_of_sees (fun kind hstep => ?_) (Cursor.sees_of_take? hsome ts hc)
    exact not_isAssign_of_isStep hstep
  next hstep =>
    split
    next taken hsome =>
      have htoken : Tracks (.kind Kind.isAssign) c taken.next .clear :=
        tracks_take_of_imp (fun kind hkind => by simp [Kind.isAssign, hkind]) hsome
      refine ⟨_, .first (fun ts hc => ?_) (htoken.seq (tracks_expression taken.next)), rfl⟩
      refine sees_of_imp (fun kind hkind => ?_) (Cursor.sees_of_take? hsome ts hc)
      simp [Kind.isAssign, hkind]
    next hstore =>
      split
      next taken hsome =>
        have htoken : Tracks (.kind Kind.isAssign) c taken.next .clear :=
          tracks_take_of_imp (fun kind hkind => by simp [Kind.isAssign, hkind]) hsome
        refine ⟨_, .first (fun ts hc => ?_) (htoken.seq (tracks_expression taken.next)), rfl⟩
        refine sees_of_imp (fun kind hkind => ?_) (Cursor.sees_of_take? hsome ts hc)
        simp [Kind.isAssign, hkind]
      next hupdate =>
        refine ⟨_, .second (fun ts hc => ?_) (tracks_lacking (Cursor.not_sees_of_take? hstep)),
          rfl⟩
        exact not_sees_or (Cursor.not_sees_of_take? hstore ts hc)
          (Cursor.not_sees_of_take? hupdate ts hc)

theorem tracks_assignment (c : Cursor) :
    Tracks (.rule .assignment) c c.assignment.next c.assignment.tree.trace := by
  unfold Cursor.assignment
  split
  next taken hsome =>
    exact .rule (.first (Cursor.sees_of_take? hsome)
      ((tracks_take hsome).seq (tracks_place taken.next)))
  next hnone =>
    have hplace := tracks_place c
    obtain ⟨t, hwriting, htree⟩ := tracks_writing c.place.tree c.place.next
    simp only [Parsed.next_andThen, Parsed.tree_andThen, htree]
    exact .rule (.second (Cursor.not_sees_of_take? hnone) (hplace.seq hwriting))

/-! ## Parts of control statements -/

/-- A condition, and whatever stands behind it. -/
theorem tracks_condition {c c' : Cursor} {ruled : Ruled} {behind : Plan} {t : Trace}
    (h : Tracks behind (c.condition ruled).next c' t) :
    Tracks (.condition behind) c c' ((c.condition ruled).tree.trace.andThen t) := by
  have hopening := tracks_expect c (.punct .lparen) (.conditionStart ruled)
  have htest := tracks_expression (c.expect (.punct .lparen) (.conditionStart ruled)).next
  have hclosing := tracks_expect
    (c.expect (.punct .lparen) (.conditionStart ruled)).next.expression.next (.punct .rparen)
    .conditionEnd
  have hall := hopening.seq (htest.seq (hclosing.seq h))
  simp only [Condition.trace, Trace.andThen_assoc]
  exact hall

theorem tracks_forInit (c : Cursor) :
    Tracks .forInit c c.forInit.next c.forInit.tree.trace := by
  unfold Cursor.forInit
  split
  next taken hsome => exact .first (Cursor.sees_of_take? hsome) (tracks_take hsome)
  next hnone =>
    refine .second (Cursor.not_sees_of_take? hnone) ?_
    split
    next hstarts => exact .first (sees_of_cursor hstarts) (tracks_declaration c)
    next hstarts =>
      exact .second (not_sees_of_cursor hstarts)
        ((tracks_assignment c).seq (tracks_expect _ _ _))

theorem tracks_expressionUnless (c : Cursor) (mark : Kind) :
    Tracks (.opt (seesNo mark) (.rule .expression)) c (c.expressionUnless mark).next
      ((c.expressionUnless mark).tree.elim .clear Expr.trace) := by
  unfold Cursor.expressionUnless
  split
  next hmark =>
    exact .second (fun ts hc => by simp [seesNo, sees_of_cursor hmark ts hc]) .skip
  next hmark =>
    exact .first (fun ts hc => by simp [seesNo, not_sees_of_cursor hmark ts hc])
      (tracks_expression c)

theorem tracks_assignmentUnless (c : Cursor) (mark : Kind) :
    Tracks (.opt (seesNo mark) (.rule .assignment)) c (c.assignmentUnless mark).next
      ((c.assignmentUnless mark).tree.elim .clear Assignment.trace) := by
  unfold Cursor.assignmentUnless
  split
  next hmark =>
    exact .second (fun ts hc => by simp [seesNo, sees_of_cursor hmark ts hc]) .skip
  next hmark =>
    exact .first (fun ts hc => by simp [seesNo, not_sees_of_cursor hmark ts hc])
      (tracks_assignment c)

/-! ## Simple statements -/

theorem tracks_exit (keyword : Token) (c : Cursor) :
    Tracks (.seq (.opt (seesNo (.punct .semicolon)) (.rule .expression)) (.mark .semicolon)) c
      (c.exit keyword).next (c.exit keyword).tree.trace := by
  unfold Cursor.exit
  split
  next taken hsome =>
    have hnone : Tracks (.opt (seesNo (.punct .semicolon)) (.rule .expression)) c c .clear :=
      .second (fun ts hc => by simp [seesNo, Cursor.sees_of_take? hsome ts hc]) .skip
    exact hnone.seq (tracks_take hsome)
  next hnone =>
    have hvalue : Tracks (.opt (seesNo (.punct .semicolon)) (.rule .expression)) c
        c.expression.next c.expression.tree.trace :=
      .first (fun ts hc => by simp [seesNo, Cursor.not_sees_of_take? hnone ts hc])
        (tracks_expression c)
    exact hvalue.seq (tracks_expect _ _ _)

theorem tracks_printf (name : Token) (c : Cursor) :
    Tracks (.seq (.mark .lparen) <| .seq (.commaList (.rule .expression)) <|
      .seq (.mark .rparen) (.mark .semicolon)) c (c.printf name).next
      (c.printf name).tree.trace := by
  have hopening := tracks_expect c (.punct .lparen) .printfStart
  have hformat := tracks_expression (c.expect (.punct .lparen) .printfStart).next
  have harguments := tracks_trail (c.expect (.punct .lparen) .printfStart).next.expression.next
  have hclosing := tracks_expect
    (c.expect (.punct .lparen) .printfStart).next.expression.next.trail.next (.punct .rparen)
    .printfArgumentsEnd
  have hall := hopening.seq ((hformat.seq harguments).seq
    (hclosing.seq (tracks_expect _ (.punct .semicolon) .printfEnd)))
  rw [Trace.andThen_assoc (Expr.trace _)] at hall
  exact hall

theorem tracks_scanf (name : Token) (c : Cursor) :
    Tracks (.seq (.mark .lparen) <| .seq (.literal .string) <|
      .seq (.further (.rule .expression) (· == .punct .comma)) <|
      .seq (.mark .rparen) (.mark .semicolon)) c (c.scanf name).next
      (c.scanf name).tree.trace := by
  have hopening := tracks_expect c (.punct .lparen) .scanfStart
  have hformat := tracks_expect (c.expect (.punct .lparen) .scanfStart).next (.literal .string)
    .scanfFormat
  have harguments := tracks_trail
    ((c.expect (.punct .lparen) .scanfStart).next.expect (.literal .string) .scanfFormat).next
  exact hopening.seq (hformat.seq (harguments.seq
    ((tracks_expect _ (.punct .rparen) .scanfArgumentsEnd).seq
      (tracks_expect _ (.punct .semicolon) .scanfEnd))))

theorem tracks_callStatement (name opening : Token) (c : Cursor) :
    Tracks (.seq .callEnd (.mark .semicolon)) c (c.callStatement name opening).next
      (c.callStatement name opening).tree.trace :=
  (tracks_call name opening c).seq (tracks_expect _ (.punct .semicolon) .callStatementEnd)

theorem tracks_assignmentStatement (c : Cursor) :
    Tracks (.seq (.rule .assignment) (.mark .semicolon)) c c.assignmentStatement.next
      c.assignmentStatement.tree.trace :=
  (tracks_assignment c).seq (tracks_expect _ (.punct .semicolon) .assignmentEnd)

/-! ## Which statement -/

section Which

variable {t : Token} {ts : List Token} {c' : Cursor} {trace : Trace} {P : Plan}

theorem tracks_selected (h : (Plan.statements.find? (·.1 (shapes ts))).map Prod.snd = some P)
    (hP : Tracks P (reading ts) c' trace) : Tracks (.rule .statement) (reading ts) c' trace := by
  refine .rule (.select ?_)
  rw [h]
  exact hP

/-- A statement that begins with no built-in call. -/
theorem tracks_free (hfree : t.shape.builtin = none)
    (hP : Tracks P (reading (t :: ts)) c' trace) :
    Tracks (.barring (·.builtin.isSome) P) (reading (t :: ts)) c' trace :=
  .barring (by simp [hfree]) hP

theorem tracks_calling {taken : Taken (reading ts)} (h : t.kind.namesFunction = true)
    (hfree : t.shape.builtin = none)
    (hsome : (reading ts).take? (· == .punct .lparen) = some taken) :
    Tracks (.rule .statement) (reading (t :: ts))
      (taken.next.callStatement t taken.token).next
      (taken.next.callStatement t taken.token).tree.trace := by
  have hcall : Tracks (.rule .functionCall) (reading (t :: ts)) _ _ :=
    .rule (tracks_behind h ((tracks_take hsome).seq (tracks_call t taken.token taken.next)))
  have hboth : Tracks (.seq (.rule .functionCall) (.mark .semicolon)) (reading (t :: ts)) _ _ :=
    hcall.seq (tracks_expect _ (.punct .semicolon) .callStatementEnd)
  exact tracks_selected (find_statement_of_call h hfree (seesCall_of_take h hsome))
    (tracks_free hfree hboth)

theorem tracks_named (hkind : t.kind = .ident) :
    Tracks (.rule .statement) (reading (t :: ts)) (Cursor.named t ts).next
      (Cursor.named t ts).tree.trace := by
  by_cases hprintf : t.lexeme = "printf"
  · have hnamed : Cursor.named t ts = (reading ts).printf t := if_pos hprintf
    have hbuiltin : t.shape.builtin = some .printf := by
      simp [Token.shape, hkind, FormatCall.ofName?, hprintf]
    rw [hnamed]
    exact tracks_selected (find_statement_of_builtin hbuiltin)
      (.rule (tracks_behind (by simp [hbuiltin]) (tracks_printf t _)))
  · by_cases hscanf : t.lexeme = "scanf"
    · have hnamed : Cursor.named t ts = (reading ts).scanf t :=
        (if_neg hprintf).trans (if_pos hscanf)
      have hbuiltin : t.shape.builtin = some .scanf := by
        simp [Token.shape, hkind, FormatCall.ofName?, hscanf]
      rw [hnamed]
      exact tracks_selected (find_statement_of_builtin hbuiltin)
        (.rule (tracks_behind (by simp [hbuiltin]) (tracks_scanf t _)))
    · have hfree : t.shape.builtin = none := by
        simp [Token.shape, hkind, FormatCall.ofName?, hprintf, hscanf]
      cases hparen : (reading ts).take? (· == .punct .lparen) with
      | some taken =>
          have hnamed : Cursor.named t ts =
              taken.within (taken.next.callStatement t taken.token) := by
            refine (if_neg hprintf).trans ((if_neg hscanf).trans ?_)
            rw [hparen]
            rfl
          rw [hnamed]
          exact tracks_calling (by rw [hkind]; rfl) hfree hparen
      | none =>
          have hnamed : Cursor.named t ts = (reading (t :: ts)).assignmentStatement := by
            refine (if_neg hprintf).trans ((if_neg hscanf).trans ?_)
            rw [hparen]
          have hcall : seesCall (t.shape :: shapes ts) = false :=
            not_seesCall (Cursor.not_sees_of_take? hparen ts rfl)
          rw [hnamed]
          exact tracks_selected (find_statement_of_name hkind hfree hcall)
            (tracks_free hfree (tracks_assignmentStatement _))

/-! ## Control statements -/

/-- A statement whose rule begins with a keyword. -/
theorem tracks_keyword {k : Keyword} {n : Rule} {behind : Plan} (hkind : t.kind = .keyword k)
    (hopens : (Kind.keyword k).statement? = some (.rule n))
    (hplan : n.plan = .seq (.word k) behind) (hin : Tracks behind (reading ts) c' trace) :
    Tracks (.rule .statement) (reading (t :: ts)) c' trace := by
  refine tracks_selected (find_statement_of_kind (hkind ▸ hopens)) (.rule ?_)
  rw [hplan]
  exact tracks_behind (by simp [hkind]) hin

theorem tracks_ifElse {c₁ : Cursor} {t₁ t₂ : Trace} (hkind : t.kind = .keyword .kwIf)
    (hbody : Tracks (.rule .body) ((reading ts).condition .ifElse).next c₁ t₁)
    (helse : Tracks (.opt (sees (· == .keyword .kwElse)) (.seq (.word .kwElse) (.rule .body)))
      c₁ c' t₂) :
    Tracks (.rule .statement) (reading (t :: ts)) c'
      (((reading ts).condition .ifElse).tree.trace.andThen (t₁.andThen t₂)) := by
  exact tracks_keyword hkind rfl rfl (tracks_condition (hbody.seq helse))

theorem tracks_whileLoop (hkind : t.kind = .keyword .kwWhile)
    (hbody : Tracks (.rule .body) ((reading ts).condition .whileLoop).next c' trace) :
    Tracks (.rule .statement) (reading (t :: ts)) c'
      (((reading ts).condition .whileLoop).tree.trace.andThen trace) := by
  exact tracks_keyword hkind rfl rfl (tracks_condition hbody)

theorem tracks_doWhile (hkind : t.kind = .keyword .kwDo) {c₁ c₂ c₃ : Cursor}
    {t₁ t₂ t₃ : Trace} (hbody : Tracks (.rule .body) (reading ts) c₁ t₁)
    (hword : Tracks (.word .kwWhile) c₁ c₂ t₂)
    (hsemicolon : Tracks (.mark .semicolon) (c₂.condition .doWhile).next c₃ t₃) :
    Tracks (.rule .statement) (reading (t :: ts)) c₃
      (t₁.andThen (t₂.andThen ((c₂.condition .doWhile).tree.trace.andThen t₃))) := by
  exact tracks_keyword hkind rfl rfl (hbody.seq (hword.seq (tracks_condition hsemicolon)))

/-- The header of a `for`, and its body. -/
theorem tracks_forLoop (hkind : t.kind = .keyword .kwFor) {c₁ c₂ c₃ c₄ c₅ c₆ : Cursor}
    {t₁ t₄ t₆ : Trace} (hopening : Tracks (.mark .lparen) (reading ts) c₁ t₁)
    (h₂ : c₁.forInit.next = c₂) (h₃ : (c₂.expressionUnless (.punct .semicolon)).next = c₃)
    (hsemicolon : Tracks (.mark .semicolon) c₃ c₄ t₄)
    (h₅ : (c₄.assignmentUnless (.punct .rparen)).next = c₅)
    (hclosing : Tracks (.mark .rparen) c₅ c₆ t₆) (hbody : Tracks (.rule .body) c₆ c' trace) :
    Tracks (.rule .statement) (reading (t :: ts)) c'
      (t₁.andThen (c₁.forInit.tree.trace.andThen
        (((c₂.expressionUnless (.punct .semicolon)).tree.elim .clear Expr.trace).andThen
          (t₄.andThen
            (((c₄.assignmentUnless (.punct .rparen)).tree.elim .clear Assignment.trace).andThen
              (t₆.andThen trace)))))) := by
  subst h₂ h₃ h₅
  exact tracks_keyword hkind rfl rfl (hopening.seq ((tracks_forInit c₁).seq
    ((tracks_expressionUnless _ _).seq (hsemicolon.seq
      ((tracks_assignmentUnless _ _).seq (hclosing.seq hbody))))))

theorem tracks_case (hkind : t.kind = .keyword .kwCase)
    (hin : Tracks (.seq (.choice (sees (· == .literal .int)) (.literal .int) (.literal .char))
      (.mark .colon)) (reading ts) c' trace) :
    Tracks Plan.clause (reading (t :: ts)) c' trace :=
  .first_reading (by simp [hkind]) (tracks_behind (by simp [hkind]) hin)

theorem tracks_default (hkind : t.kind = .keyword .kwDefault)
    (hin : Tracks (.mark .colon) (reading ts) c' trace) :
    Tracks Plan.clause (reading (t :: ts)) c' trace :=
  .second_reading (by simp [hkind])
    (.first_reading (by simp [hkind]) (tracks_behind (by simp [hkind]) hin))

theorem tracks_switch (hkind : t.kind = .keyword .kwSwitch) {c₁ c₂ c₃ c₄ c₅ : Cursor}
    {t₁ t₂ t₃ t₄ t₅ : Trace} (hopening : Tracks (.mark .lparen) (reading ts) c₁ t₁)
    (hclosing : Tracks (.mark .rparen) c₁.expression.next c₂ t₂)
    (hstart : Tracks (.mark .lbrace) c₂ c₃ t₃)
    (hclauses : Tracks (.recover (sees (· != .punct .rbrace)) Plan.clause) c₃ c₄ t₄)
    (hend : Tracks (.mark .rbrace) c₄ c₅ t₅) :
    Tracks (.rule .statement) (reading (t :: ts)) c₅
      (t₁.andThen (c₁.expression.tree.trace.andThen (t₂.andThen (t₃.andThen
        (t₄.andThen t₅))))) := by
  exact tracks_keyword hkind rfl rfl (hopening.seq ((tracks_expression c₁).seq
    (hclosing.seq (hstart.seq (hclauses.seq hend)))))

theorem tracks_jump (hkind : t.kind = .keyword .kwBreak ∨ t.kind = .keyword .kwContinue)
    (hin : Tracks (.mark .semicolon) (reading ts) c' trace) :
    Tracks (.rule .statement) (reading (t :: ts)) c' trace := by
  rcases hkind with hkind | hkind
  · have hopens : t.kind.statement? = some (.seq (.word .kwBreak) (.mark .semicolon)) := by
      rw [hkind]
      rfl
    exact tracks_selected (find_statement_of_kind hopens) (tracks_behind (by simp [hkind]) hin)
  · have hopens : t.kind.statement? = some (.seq (.word .kwContinue) (.mark .semicolon)) := by
      rw [hkind]
      rfl
    exact tracks_selected (find_statement_of_kind hopens) (tracks_behind (by simp [hkind]) hin)

/-- No statement begins here. -/
theorem tracks_no_statement {wanted : Wanted}
    (hfind : Plan.statements.find? (·.1 (shapes ts)) = none)
    (hdirective : sees (· == .directive) (shapes ts) = false) :
    Tracks (.rule .statement) (reading ts) ((reading ts).fail wanted)
      (.stopped ((reading ts).hole wanted)) := by
  refine .rule (.select ?_)
  rw [hfind]
  exact tracks_fail hdirective

theorem tracks_no_statement_of_kind {wanted : Wanted} (hkind : t.kind.opensStatement = false) :
    Tracks (.rule .statement) (reading (t :: ts)) ((reading (t :: ts)).fail wanted)
      (.stopped ((reading (t :: ts)).hole wanted)) := by
  simp only [Kind.opensStatement, Bool.or_eq_false_iff, decide_eq_false_iff_not, List.mem_cons,
    List.not_mem_nil, or_false, not_or, beq_eq_false_iff_ne, and_assoc] at hkind
  obtain ⟨hdecl, hname, hstar, hstep, hkinds⟩ := hkind
  have hcall : seesCall (t.shape :: shapes ts) = false := not_seesCall_of_kind hname
  have hident : t.kind ≠ .ident := by
    intro hkind
    rw [hkind] at hname
    cases hname
  refine tracks_no_statement ?_ ?_
  · rw [find_statement hdecl]
    simp [Plan.statements, seesBuiltin, builtin_shape hident, hcall, hident, hstar, hstep, hkinds]
  · simp [hkinds]

/-- An assignment that does not begin with a name. -/
theorem tracks_starred (hkind : t.kind.statement? = some .assignmentStatement)
    (hident : t.kind ≠ .ident) :
    Tracks (.rule .statement) (reading (t :: ts)) (reading (t :: ts)).assignmentStatement.next
      (reading (t :: ts)).assignmentStatement.tree.trace :=
  tracks_selected (find_statement_of_kind hkind)
    (tracks_free (builtin_shape hident) (tracks_assignmentStatement (reading (t :: ts))))

/-- A lone semicolon or a directive. -/
theorem tracks_blank (hkind : t.kind = .punct .semicolon ∨ t.kind = .directive) :
    Tracks (.rule .statement) (reading (t :: ts)) (reading ts) .clear := by
  rcases hkind with hkind | hkind
  · have hopens : t.kind.statement? = some (.mark .semicolon) := by
      rw [hkind]
      rfl
    exact tracks_selected (find_statement_of_kind hopens) (tracks_token (by simp [hkind]))
  · have htoken : Tracks (.kind (· == .directive)) (reading (t :: ts)) (reading ts) .clear :=
      tracks_token (by simp [hkind])
    refine .rule (.select ?_)
    rw [find_statement_of_directive hkind]
    exact htoken

end Which

/-! ## Statements -/

/-- A part that cannot be empty leaves no more than was there. -/
theorem Parsed.size_next_le {α : Type} {c : Cursor} (r : Parsed α c.residue) :
    r.next.size ≤ c.size :=
  Nat.le_trans r.le c.residue_le_size

namespace Cursor

/-- The cursor behind the header of a `for`. -/
def behindFor (c : Cursor) : Cursor :=
  let c₁ := (c.expect (.punct .lparen) .forStart).next
  let c₂ := (c₁.forInit.next.expressionUnless (.punct .semicolon)).next
  let c₃ := (c₂.expect (.punct .semicolon) .forConditionEnd).next
  let c₄ := (c₃.assignmentUnless (.punct .rparen)).next
  (c₄.expect (.punct .rparen) .forClausesEnd).next

theorem size_behindFor (c : Cursor) : c.behindFor.size ≤ c.size :=
  calc c.behindFor.size
    _ ≤ _ := Parsed.size_next_le _
    _ ≤ _ := Parsed.le _
    _ ≤ _ := Parsed.size_next_le _
    _ ≤ _ := Parsed.le _
    _ ≤ _ := Parsed.le _
    _ ≤ c.size := Parsed.size_next_le _

/-- The cursor behind the opening brace of a switch. -/
def behindSwitch (c : Cursor) : Cursor :=
  let c₁ := (c.expect (.punct .lparen) .switchStart).next.expression.next
  let c₂ := (c₁.expect (.punct .rparen) .switchSubjectEnd).next
  (c₂.expect (.punct .lbrace) .switchBodyStart).next

theorem size_behindSwitch (c : Cursor) : c.behindSwitch.size ≤ c.size :=
  calc c.behindSwitch.size
    _ ≤ _ := Parsed.size_next_le _
    _ ≤ _ := Parsed.size_next_le _
    _ ≤ _ := Parsed.size_next_le _
    _ ≤ c.size := Parsed.size_next_le _

end Cursor

theorem statement_eq_block {t : Token} {ts : List Token} (hkind : t.kind = .punct .lbrace) :
    (reading (t :: ts)).statement = (reading (t :: ts)).block := by
  have hdecl : ¬t.kind.startsDeclaration = true := by
    rw [hkind]
    decide
  rw [Cursor.statement, if_neg hdecl]
  split <;> first | rfl | simp_all

mutual

theorem tracks_statement (c : Cursor) :
    Tracks (.rule .statement) c c.statement.next c.statement.tree.trace := by
  match c with
  | reading (t :: ts) =>
      have hsize := Cursor.size_reading ts
      rw [Cursor.statement]
      by_cases hdecl : t.kind.startsDeclaration = true
      · rw [if_pos hdecl]
        exact .rule (tracks_declared hdecl)
      · rw [if_neg hdecl]
        split
        next hkind =>
          have hle := ((reading ts).condition .ifElse).le
          have hle₁ := (reading ts).residue_le_size
          have hbody := tracks_body ((reading ts).condition .ifElse).next
          have hle₂ := ((reading ts).condition .ifElse).next.statement.le
          have hle₃ := ((reading ts).condition .ifElse).next.residue_le_size
          simp only [Parsed.next_andThen, Parsed.tree_andThen, Parsed.next_atMost,
            Parsed.tree_atMost]
          split
          next hnone =>
            have hif := tracks_ifElse hkind hbody
              (.second (Cursor.not_sees_of_take? hnone) .skip)
            rw [Trace.andThen_clear] at hif
            exact hif
          next taken hsome =>
            have hlt := taken.lt
            exact tracks_ifElse hkind hbody (.first (Cursor.sees_of_take? hsome)
              ((tracks_take hsome).seq (tracks_body taken.next)))
        next hkind =>
          have hle := ((reading ts).condition .whileLoop).le
          have hle₁ := (reading ts).residue_le_size
          exact tracks_whileLoop hkind (tracks_body ((reading ts).condition .whileLoop).next)
        next hkind =>
          exact tracks_doWhile hkind (tracks_body (reading ts)) (tracks_expect _ _ _)
            (tracks_expect _ _ _)
        next hkind =>
          have hopening := tracks_expect (reading ts) (.punct .lparen) .forStart
          have hle := Cursor.size_behindFor (reading ts)
          exact tracks_forLoop hkind hopening rfl rfl (tracks_expect _ _ _) rfl
            (tracks_expect _ _ _) (tracks_body (reading ts).behindFor)
        next hkind =>
          have hopening := tracks_expect (reading ts) (.punct .lparen) .switchStart
          have hle := Cursor.size_behindSwitch (reading ts)
          exact tracks_switch hkind hopening (tracks_expect _ _ _) (tracks_expect _ _ _)
            (tracks_clauses (reading ts).behindSwitch) (tracks_expect _ _ _)
        next hkind =>
          exact tracks_keyword hkind rfl rfl (tracks_exit t (reading ts))
        next hkind => exact tracks_jump (.inl hkind) (tracks_expect _ _ _)
        next hkind => exact tracks_jump (.inr hkind) (tracks_expect _ _ _)
        next hkind => exact tracks_no_statement_of_kind (by rw [hkind]; rfl)
        next hkind => exact tracks_no_statement_of_kind (by rw [hkind]; rfl)
        next hkind =>
          have hfree : t.shape.builtin = none := builtin_shape (by simp [hkind])
          split
          next taken hsome => exact tracks_calling (by rw [hkind]; rfl) hfree hsome
          next hnone =>
            have hcall := not_seesCall (t := t) (Cursor.not_sees_of_take? hnone ts rfl)
            refine tracks_no_statement ?_ (by simp [hkind])
            rw [find_statement (by rw [hkind]; rfl)]
            simp [Plan.statements, hkind, seesBuiltin, hfree, hcall, Kind.isStep]
        next hkind =>
          have hopens : t.kind.statement? = some (.rule .block) := by
            rw [hkind]
            rfl
          exact tracks_selected (find_statement_of_kind hopens) (tracks_block (reading (t :: ts)))
        next hkind => exact tracks_blank (.inl hkind)
        next hkind => exact tracks_blank (.inr hkind)
        next hkind => exact tracks_named hkind
        next hkind => exact tracks_starred (by rw [hkind]; rfl) (by simp [hkind])
        next hkind => exact tracks_starred (by rw [hkind]; rfl) (by simp [hkind])
        next hkind => exact tracks_starred (by rw [hkind]; rfl) (by simp [hkind])
        next hif hwhile hdo hfor hswitch hreturn hbreak hcontinue hcase hdefault hmain hlbrace
            hsemicolon hdirective hident hstar hplusPlus hminusMinus =>
          have hno : t.kind.opensStatement = false →
              Tracks (.rule .statement) (reading (t :: ts)) ((reading (t :: ts)).fail .statement)
                (.stopped ((reading (t :: ts)).hole .statement)) := tracks_no_statement_of_kind
          generalize t.kind = kind at *
          cases kind with
          | literal class_ => exact hno rfl
          | ident => contradiction
          | directive => contradiction
          | keyword k => cases k <;> first | contradiction | exact hno rfl
          | operator o => cases o <;> first | contradiction | exact hno rfl
          | punct m => cases m <;> first | contradiction | exact hno rfl
          | eof => exact hno rfl
  | reading [] =>
      rw [Cursor.statement]
      · exact tracks_no_statement rfl rfl
      · exact fun _ _ hc => nomatch hc
  | broken hole after =>
      rw [Cursor.statement]
      · exact tracks_broken
      · exact fun _ _ hc => nomatch hc
termination_by 8 * c.size + 5

/-- A body is read like a statement, a block among them. -/
theorem tracks_body (c : Cursor) :
    Tracks (.rule .body) c c.statement.next c.statement.tree.trace := by
  refine .rule ?_
  match c with
  | reading (t :: ts) =>
      by_cases hkind : t.kind = .punct .lbrace
      · rw [statement_eq_block hkind]
        exact .first_reading (by simp [hkind]) (tracks_block (reading (t :: ts)))
      · exact .second_reading (by simp [hkind]) (tracks_statement (reading (t :: ts)))
  | reading [] => exact .second_reading rfl (tracks_statement (reading []))
  | broken hole after => exact .second (fun _ hc => nomatch hc) (tracks_statement _)
termination_by 8 * c.size + 6

theorem tracks_declared {t : Token} {ts : List Token} {default : Plan}
    {l : List ((List Shape → Bool) × Plan)} (h : t.kind.startsDeclaration = true) :
    Tracks (.select default ((seesStruct, .rule .structDecl) :: (seesHeader, .rule .functionDecl) ::
        (sees Kind.startsDeclaration, .rule .declaration) :: l)) (reading (t :: ts))
      (reading (t :: ts)).declared.next (reading (t :: ts)).declared.tree.trace := by
  rw [Cursor.declared]
  split
  next definition hsome =>
    obtain ⟨hsees, hdefinition⟩ := tracks_structDecl hsome
    exact .first_reading hsees hdefinition
  next hnone =>
    refine .second_reading (not_seesStruct hnone) ?_
    split
    next hfunction =>
      have hheader : seesFunction (shapes (t :: ts)) = true :=
        (seesFunction_shapes _).trans hfunction
      exact .first_reading (Bool.and_eq_true_iff.2 ⟨h, hheader⟩) (tracks_function _)
    next hfunction =>
      have hheader : seesFunction (shapes (t :: ts)) = false :=
        (seesFunction_shapes _).trans (Bool.eq_false_iff.2 hfunction)
      exact .second_reading (Bool.and_eq_false_iff.2 (.inr hheader))
        (.first_reading h (tracks_declaration _))
termination_by 8 * (ts.length + 1) + 4

theorem tracks_function (c : Cursor) :
    Tracks (.rule .functionDecl) c c.function.next c.function.tree.trace := by
  have hle := c.residue_le_size
  have hle₁ := c.header.le
  rw [Cursor.function]
  simp only [Parsed.next_andThen, Parsed.tree_andThen]
  split
  next taken hsome =>
    have hsemicolon : Tracks (.choice (seesNo (.punct .semicolon)) (.rule .block)
        (.mark .semicolon)) c.header.next taken.next .clear :=
      .second (fun ts hc => by simp [seesNo, Cursor.sees_of_take? hsome ts hc])
        (tracks_take hsome)
    have hheader := tracks_header hsemicolon
    rw [Trace.andThen_clear] at hheader
    exact .rule hheader
  next hnone =>
    have hbody : Tracks (.choice (seesNo (.punct .semicolon)) (.rule .block)
        (.mark .semicolon)) c.header.next c.header.next.block.next
        c.header.next.block.tree.trace :=
      .first (fun ts hc => by simp [seesNo, Cursor.not_sees_of_take? hnone ts hc])
        (tracks_block c.header.next)
    exact .rule (tracks_header hbody)
termination_by 8 * c.size + 3

theorem tracks_block (c : Cursor) :
    Tracks (.rule .block) c c.block.next c.block.tree.trace := by
  rw [Cursor.block]
  split
  next hnone => exact .rule (tracks_lacking (Cursor.not_sees_of_take? hnone)).seq_fail
  next taken hsome =>
    have hlt := taken.lt
    have hbody := tracks_statements taken.next
    exact .rule ((tracks_take hsome).seq (hbody.seq (tracks_expect _ _ _)))
termination_by 8 * c.size + 2

theorem tracks_statements (c : Cursor) :
    Tracks (.recover (sees (· != .punct .rbrace)) (.rule .statement)) c c.statements.next
      c.statements.tree.trace := by
  match c with
  | reading (t :: ts) =>
      rw [Cursor.statements]
      by_cases hend : (t.kind == .punct .rbrace) = true
      · rw [if_pos hend]
        refine .stop ?_
        simpa using hend
      · rw [if_neg hend]
        have hle := (reading (t :: ts)).statement.le
        have hbegins : sees (· != .punct .rbrace) (shapes (t :: ts)) = true := by
          simpa using hend
        have hfirst := tracks_statement (reading (t :: ts))
        have hrest := tracks_statements (reading (t :: ts)).statement.next.mend
        exact .mend hbegins hfirst hrest
  | reading [] =>
      rw [Cursor.statements]
      · exact .stop rfl
      · exact fun _ _ hc => nomatch hc
  | broken hole after =>
      rw [Cursor.statements]
      · exact ⟨.idle, fun _ hc => nomatch hc⟩
      · exact fun _ _ hc => nomatch hc
termination_by 8 * c.size + 6
decreasing_by
  all_goals
    simp only [Cursor.size_mend, Cursor.size_reading, Cursor.residue_cons, List.length_cons] at *
    omega

theorem tracks_clauses (c : Cursor) :
    Tracks (.recover (sees (· != .punct .rbrace)) Plan.clause) c c.clauses.next
      c.clauses.tree.trace := by
  match c with
  | reading (t :: ts) =>
      have hsize := Cursor.size_reading ts
      rw [Cursor.clauses]
      split
      next hkind => exact .stop (by simp [hkind])
      next hkind =>
        have hvalue := tracks_either (reading ts) (· == .literal .int) (· == .literal .char)
          .caseConstant
        have hle := Parsed.size_next_le ((reading ts).demand
          (fun kind => kind == .literal .int || kind == .literal .char) .caseConstant)
        generalize ((reading ts).demand (fun kind => kind == .literal .int ||
          kind == .literal .char) .caseConstant) = value at *
        have hle₁ := Parsed.size_next_le (value.next.expect (.punct .colon) .caseValueEnd)
        have hrest := tracks_clauses (value.next.expect (.punct .colon) .caseValueEnd).next.mend
        have hclause := tracks_case hkind (hvalue.seq
          (tracks_expect value.next (.punct .colon) .caseValueEnd))
        exact .mend (by simp [hkind]) hclause hrest
      next hkind =>
        have hle := Parsed.size_next_le ((reading ts).expect (.punct .colon) .defaultEnd)
        have hrest := tracks_clauses ((reading ts).expect (.punct .colon) .defaultEnd).next.mend
        exact .mend (by simp [hkind]) (tracks_default hkind (tracks_expect _ _ _)) hrest
      next hrbrace hcase hdefault =>
        have hle := (reading (t :: ts)).statement.le
        have hfirst : Tracks Plan.clause (reading (t :: ts)) (reading (t :: ts)).statement.next
            (reading (t :: ts)).statement.tree.trace :=
          .second_reading (by simpa using hcase)
            (.second_reading (by simpa using hdefault) (tracks_statement _))
        have hrest := tracks_clauses (reading (t :: ts)).statement.next.mend
        have hboth := Tracks.mend (show sees (· != .punct .rbrace) (shapes (t :: ts)) = true by
          simpa using hrbrace) hfirst hrest
        generalize t.kind = kind at *
        cases kind with
        | keyword k => cases k <;> first | contradiction | exact hboth
        | punct m => cases m <;> first | contradiction | exact hboth
        | _ => exact hboth
  | reading [] =>
      rw [Cursor.clauses]
      · exact .stop rfl
      · exact fun _ _ hc => nomatch hc
  | broken hole after =>
      rw [Cursor.clauses]
      · exact ⟨.idle, fun _ hc => nomatch hc⟩
      · exact fun _ _ hc => nomatch hc
termination_by 8 * c.size + 6
decreasing_by
  all_goals
    simp only [Cursor.size_mend, Cursor.size_reading, Cursor.residue_cons, List.length_cons] at *
    omega

end

theorem tracks_function_or_declaration (c : Cursor) :
    Tracks (.select (.rule .declaration) [(seesStruct, .rule .structDecl),
      (seesFunction, .rule .functionDecl)]) c c.declared.next c.declared.tree.trace := by
  rw [Cursor.declared]
  split
  next definition hsome =>
    cases c with
    | reading ts =>
        obtain ⟨hsees, hdefinition⟩ := tracks_structDecl hsome
        exact .first_reading hsees hdefinition
    | broken hole after => cases hsome
  next hnone =>
    refine .second (fun ts hc => ?_) ?_
    · subst hc
      exact not_seesStruct hnone
    · split
      next hfunction =>
        refine .first (fun ts hc => ?_) (tracks_function c)
        subst hc
        exact (seesFunction_shapes ts).trans hfunction
      next hfunction =>
        refine .second (fun ts hc => ?_) (tracks_declaration c)
        subst hc
        exact (seesFunction_shapes ts).trans (Bool.eq_false_iff.2 hfunction)

/-! ## Programs -/

/-- A part of a program is a directive, begins like a declaration, or is a fault. -/
theorem Cursor.item_cases {t : Token} {ts : List Token}
    {p : Parsed Stmt (reading (t :: ts)).residue → Prop}
    (blank : t.kind = .directive → p (.here (.blank t) (reading ts)))
    (declared : t.kind.startsDeclaration = true → p (reading (t :: ts)).declared)
    (missing : t.kind ≠ .directive → t.kind.startsDeclaration = false →
      p ((reading (t :: ts)).lacking .declaration .missing)) :
    p (reading (t :: ts)).item := by
  by_cases hdirective : t.kind = .directive
  · have hitem : (reading (t :: ts)).item = .here (.blank t) (reading ts) :=
      if_pos (by simp [hdirective])
    rw [hitem]
    exact blank hdirective
  · by_cases hdecl : t.kind.startsDeclaration = true
    · have hitem : (reading (t :: ts)).item = (reading (t :: ts)).declared :=
        (if_neg (by simpa using hdirective)).trans (if_pos hdecl)
      rw [hitem]
      exact declared hdecl
    · have hitem : (reading (t :: ts)).item = (reading (t :: ts)).lacking .declaration .missing :=
        (if_neg (by simpa using hdirective)).trans (if_neg hdecl)
      rw [hitem]
      exact missing hdirective (Bool.eq_false_iff.2 hdecl)

theorem tracks_item (c : Cursor) :
    Tracks .item c c.item.next c.item.tree.trace := by
  match c with
  | broken hole after => exact tracks_broken
  | reading [] =>
      exact .second_reading rfl (.second_reading rfl (.second_reading rfl (tracks_fail rfl)))
  | reading (t :: ts) =>
      refine Cursor.item_cases
        (p := fun r => Tracks .item (reading (t :: ts)) r.next r.tree.trace)
        ?blank ?declared ?missing
      case blank =>
        intro hdirective
        have hstruct : t.shape.kind ≠ .keyword .kwStruct := by simp [hdirective]
        have hheader : t.shape.kind.startsDeclaration = false := by
          rw [Token.kind_shape, hdirective]
          rfl
        have htoken : Tracks (.kind (· == .directive)) (reading (t :: ts)) (reading ts) .clear :=
          tracks_token (by simp [hdirective])
        exact .second_reading (not_seesStruct_of_kind hstruct)
          (.second_reading (not_seesHeader_of_kind hheader) (.second_reading hheader htoken))
      case declared => exact tracks_declared
      case missing =>
        intro hdirective hheader
        have hstruct : t.shape.kind ≠ .keyword .kwStruct := by
          intro hkind
          have hstarts : t.shape.kind.startsDeclaration = false := hheader
          rw [hkind] at hstarts
          cases hstarts
        exact .second_reading (not_seesStruct_of_kind hstruct)
          (.second_reading (not_seesHeader_of_kind hheader)
            (.second_reading hheader (tracks_fail (by simpa using hdirective))))

/-- **The reader of programs follows the grammar.** -/
theorem tracks_items (c : Cursor) :
    Tracks (.rule .program) c c.items.next
      (Trace.all (c.items.tree.map fun item => item.trace.settled)) :=
  .rule (tracks_recovering tracks_item c)

end MiniC
