import MiniC.Proofs.Headers.Spared
import MiniC.Proofs.Messages
import MiniC.Proofs.Syntactic

/-!
# `MiniC.Proofs.Headers.Foreseen` — functions are told from declarations in time

A program is read with many calls of the readers of headers and declarations, and before each of
them the scan has looked ahead.  A run recovers from faults in parts of structs, in statements and
in the labels of a switch; what a fault asked for is told from the cursor that the reader of the
part left behind.  None of these cursors is broken in the front of a header, so nothing of it is
ever missed.

## Contents
- `Trace.Spared`, for the trees without statements in them.
- `spared_assignment`, `spared_forInit` and the simple statements.
- `spared_statement` and the readers it needs, in one recursion.
- `spared_holes`: what an analysis misses is never the front of a header.
- `missingName`, with `Wanted.departs_describe`: no other message begins so.
- `headers_foreseen`: **the scan tells at every state what is read, in every run.**
-/

namespace MiniC

open Cursor (reading broken)

/-! ## What is recovered from -/

namespace Trace

/-- A trace whose reported holes are not in the front of a header. -/
def Spared (t : Trace) : Prop := ∀ hole ∈ t.reported, hole.wanted.ofHeader = false

theorem Spared.clear : clear.Spared := fun _ h => nomatch h

theorem Spared.stopped (hole : Hole) : (stopped hole).Spared := fun _ h => nomatch h

variable {t u : Trace}

/-- A part behind another. -/
theorem Spared.andThen (ht : t.Spared) (hu : u.Spared) : (t.andThen u).Spared := by
  intro hole hmem
  unfold Trace.andThen at hmem
  split at hmem
  next => exact ht hole hmem
  next =>
    rcases List.mem_append.1 hmem with hmem | hmem
    · exact ht hole hmem
    · exact hu hole hmem

/-- A part that a reader has left behind without missing the front of a header. -/
theorem Spared.settled (ht : t.Spared) {P : Plan} {ts : List Token} {c : Cursor}
    (htracks : Tracks P (reading ts) c t) (hc : c.Spared) : t.settled.Spared := by
  intro hole hmem
  rcases List.mem_append.1 hmem with hmem | hmem
  · exact ht hole hmem
  · rw [htracks.2 ts rfl, Option.mem_toList] at hmem
    exact hc hole hmem

/-- Parts one after the other. -/
theorem Spared.all {parts : List Trace} (h : ∀ t ∈ parts, t.Spared) : (all parts).Spared := by
  induction parts with
  | nil => exact .clear
  | cons t parts ih =>
      have hfirst := h t List.mem_cons_self
      have hrest := ih fun u hu => h u (List.mem_cons_of_mem t hu)
      exact hfirst.andThen hrest

end Trace

/-! ### Trees without parts that are recovered from -/

/-- A token that is missing stops the part, and is not recovered from. -/
theorem Slot.spared_trace (slot : Slot) : slot.trace.Spared := by
  cases slot with
  | found token => exact .clear
  | missing hole => exact .stopped hole

theorem TypeSpec.spared_trace (spec : TypeSpec) : spec.trace.Spared := by
  cases spec with
  | words first rest => exact .clear
  | struct keyword name => exact name.spared_trace
  | missing hole => exact .stopped hole

mutual

/-- In an expression nothing is recovered from, -/
theorem Expr.spared_trace : ∀ e : Expr, e.trace.Spared
  | .literal _ _ => .clear
  | .var _ => .clear
  | .emptyCall _ _ closing => closing.spared_trace
  | .call _ _ first others closing =>
      first.spared_trace.andThen (others.spared_trace.andThen closing.spared_trace)
  | .deref _ operand => operand.spared_trace
  | .address _ operand => operand.spared_trace
  | .unary _ operand => operand.spared_trace
  | .stepped operand _ => operand.spared_trace
  | .index base _ subscript closing =>
      base.spared_trace.andThen (subscript.spared_trace.andThen closing.spared_trace)
  | .member base _ _ field => base.spared_trace.andThen field.spared_trace
  | .binary _ left _ right => left.spared_trace.andThen right.spared_trace
  | .conditional condition _ first colon second =>
      condition.spared_trace.andThen
        (first.spared_trace.andThen (colon.spared_trace.andThen second.spared_trace))
  | .group _ inner closing => inner.spared_trace.andThen closing.spared_trace
  | .sizeofType _ opening spec _ closing =>
      opening.spared_trace.andThen (spec.spared_trace.andThen closing.spared_trace)
  | .sizeofExpr _ opening operand closing =>
      opening.spared_trace.andThen (operand.spared_trace.andThen closing.spared_trace)
  | .missing hole => .stopped hole

theorem Trail.spared_trace : ∀ others : Trail, others.trace.Spared
  | .nil => .clear
  | .cons _ argument rest => argument.spared_trace.andThen rest.spared_trace

end

theorem spared_trace_array (array : Option ArraySuffix) :
    (array.elim .clear ArraySuffix.trace).Spared := by
  cases array with
  | none => exact .clear
  | some suffix => exact suffix.size.spared_trace.andThen suffix.closing.spared_trace

theorem spared_trace_test (test : Option Expr) : (test.elim .clear Expr.trace).Spared := by
  cases test with
  | none => exact .clear
  | some test => exact test.spared_trace

/-- nor in what is declared, -/
theorem Declarator.spared_trace (d : Declarator) : d.trace.Spared := by
  have hinit : (d.init.elim .clear (·.2.trace)).Spared := by
    cases d.init with
    | none => exact .clear
    | some init => exact init.2.spared_trace
  exact d.name.spared_trace.andThen ((spared_trace_array d.array).andThen hinit)

theorem Declaration.spared_trace (d : Declaration) : d.trace.Spared := by
  have hdeclarators : (Trace.all (d.first.trace :: d.others.map (·.2.trace))).Spared := by
    refine .all fun t ht => ?_
    rcases List.mem_cons.1 ht with rfl | ht
    · exact d.first.spared_trace
    · obtain ⟨other, -, rfl⟩ := List.mem_map.1 ht
      exact other.2.spared_trace
  exact d.spec.spared_trace.andThen (hdeclarators.andThen d.semicolon.spared_trace)

theorem Field.spared_trace (f : Field) : f.trace.Spared :=
  f.spec.spared_trace.andThen (f.name.spared_trace.andThen
    ((spared_trace_array f.array).andThen f.semicolon.spared_trace))

theorem Param.spared_trace (p : Param) : p.trace.Spared := by
  have harray : (p.array.elim .clear (·.closing.trace)).Spared := by
    cases p.array with
    | none => exact .clear
    | some array => exact array.closing.spared_trace
  exact p.spec.spared_trace.andThen (p.name.spared_trace.andThen harray)

theorem Params.spared_trace (params : Params) : params.trace.Spared := by
  cases params with
  | none => exact .clear
  | void word => exact .clear
  | list first others =>
      refine .all fun t ht => ?_
      rcases List.mem_cons.1 ht with rfl | ht
      · exact first.spared_trace
      · obtain ⟨other, -, rfl⟩ := List.mem_map.1 ht
        exact other.2.spared_trace

/-- nor in a header, -/
theorem Header.spared_trace (h : Header) : h.trace.Spared :=
  h.spec.spared_trace.andThen (h.name.spared_trace.andThen (h.opening.spared_trace.andThen
    (h.params.spared_trace.andThen h.closing.spared_trace)))

/-- nor in an assignment. -/
theorem Assignment.spared_trace (a : Assignment) : a.trace.Spared := by
  cases a with
  | stepBefore operator place => exact place.path.spared_trace
  | stepAfter place operator => exact place.path.spared_trace
  | store place sign value => exact place.path.spared_trace.andThen value.spared_trace
  | update place operator value => exact place.path.spared_trace.andThen value.spared_trace
  | missing place hole => exact place.path.spared_trace.andThen (.stopped hole)

theorem spared_trace_update (update : Option Assignment) :
    (update.elim .clear Assignment.trace).Spared := by
  cases update with
  | none => exact .clear
  | some update => exact update.spared_trace

theorem Condition.spared_trace (c : Condition) : c.trace.Spared :=
  c.opening.spared_trace.andThen (c.test.spared_trace.andThen c.closing.spared_trace)

theorem ForInit.spared_trace (init : ForInit) : init.trace.Spared := by
  cases init with
  | none semicolon => exact .clear
  | declaration d => exact d.spared_trace
  | assignment a semicolon => exact a.spared_trace.andThen semicolon.spared_trace

/-! ## Simple statements -/

section

variable {c : Cursor} (h : c.Spared)

include h

/-- A place may miss its name, which is that of a variable. -/
theorem spared_place : c.place.next.Spared := by
  have hname := (h.takeWhile (· == .operator .star)).expect .ident .assignmentTarget (by simp)
  exact spared_accesses _ _ hname

/-- A place may be followed by nothing that writes to it. -/
theorem spared_writing (place : Place) : (c.writing place).next.Spared := by
  unfold Cursor.writing
  split
  next taken hstep => exact Cursor.spared_of_take? hstep
  next =>
    split
    next taken hassign => exact spared_expression taken.next (Cursor.spared_of_take? hassign)
    next =>
      split
      next taken hupdate => exact spared_expression taken.next (Cursor.spared_of_take? hupdate)
      next => exact h.fail rfl

theorem spared_assignment : c.assignment.next.Spared := by
  unfold Cursor.assignment
  split
  next taken hstep => exact spared_place (Cursor.spared_of_take? hstep)
  next => exact spared_writing (spared_place h) c.place.tree

/-- The parentheses of a condition are not those of a header. -/
theorem spared_condition (ruled : Ruled) : (c.condition ruled).next.Spared := by
  have hopening := h.expect (.punct .lparen) (.conditionStart ruled) (by simp)
  exact (spared_expression _ hopening).expect (.punct .rparen) _ (by simp)

/-- The first part of a `for`, which may declare variables but no function. -/
theorem spared_forInit : c.forInit.next.Spared := by
  unfold Cursor.forInit
  split
  next taken hsemicolon => exact Cursor.spared_of_take? hsemicolon
  next =>
    by_cases hdecl : c.sees Kind.startsDeclaration = true
    · rw [if_pos hdecl]
      exact spared_declaration h
    · rw [if_neg hdecl]
      exact (spared_assignment h).expect (.punct .semicolon) _ (by simp)

theorem spared_expressionUnless (mark : Kind) : (c.expressionUnless mark).next.Spared := by
  unfold Cursor.expressionUnless
  split
  next => exact h
  next => exact spared_expression c h

theorem spared_assignmentUnless (mark : Kind) : (c.assignmentUnless mark).next.Spared := by
  unfold Cursor.assignmentUnless
  split
  next => exact h
  next => exact spared_assignment h

end

/-- A statement that was read without missing the front of a header. -/
structure Parsed.Spared {n : Nat} (r : Parsed Stmt n) : Prop where
  next : r.next.Spared
  trace : r.tree.trace.Spared

section

variable {c : Cursor} (h : c.Spared)

include h

/-- A `return`, with a value or without. -/
theorem spared_exit (keyword : Token) : (c.exit keyword).Spared := by
  unfold Cursor.exit
  split
  next taken hsemicolon => exact ⟨Cursor.spared_of_take? hsemicolon, .clear⟩
  next =>
    refine ⟨(spared_expression c h).expect (.punct .semicolon) _ (by simp), ?_⟩
    exact (Expr.spared_trace _).andThen (Slot.spared_trace _)

/-- The parentheses of `printf` are not those of a header. -/
theorem spared_printf (name : Token) : (c.printf name).Spared := by
  have hopening := h.expect (.punct .lparen) .printfStart (by simp)
  have harguments := spared_trail _ (spared_expression _ hopening)
  have hclosing := harguments.expect (.punct .rparen) .printfArgumentsEnd (by simp)
  refine ⟨hclosing.expect (.punct .semicolon) _ (by simp), ?_⟩
  exact (Slot.spared_trace _).andThen ((Expr.spared_trace _).andThen ((Trail.spared_trace _).andThen
    ((Slot.spared_trace _).andThen (Slot.spared_trace _))))

theorem spared_scanf (name : Token) : (c.scanf name).Spared := by
  have hopening := h.expect (.punct .lparen) .scanfStart (by simp)
  have hformat := hopening.expect (.literal .string) .scanfFormat (by simp)
  have hclosing := (spared_trail _ hformat).expect (.punct .rparen) .scanfArgumentsEnd (by simp)
  refine ⟨hclosing.expect (.punct .semicolon) _ (by simp), ?_⟩
  exact (Slot.spared_trace _).andThen ((Slot.spared_trace _).andThen ((Trail.spared_trace _).andThen
    ((Slot.spared_trace _).andThen (Slot.spared_trace _))))

theorem spared_callStatement (name opening : Token) : (c.callStatement name opening).Spared := by
  refine ⟨(spared_call name opening c h).expect (.punct .semicolon) _ (by simp), ?_⟩
  exact (Expr.spared_trace _).andThen (Slot.spared_trace _)

theorem spared_assignmentStatement : c.assignmentStatement.Spared := by
  refine ⟨(spared_assignment h).expect (.punct .semicolon) _ (by simp), ?_⟩
  exact (Assignment.spared_trace _).andThen (Slot.spared_trace _)

theorem spared_missing (wanted : Wanted) (hwanted : wanted.ofHeader = false) :
    (c.lacking wanted Stmt.missing).Spared :=
  ⟨h.fail hwanted, .stopped _⟩

end

/-- A call or an assignment, told by the token behind the name. -/
theorem spared_named (name : Token) (ts : List Token) : (Cursor.named name ts).Spared := by
  have hbehind := Cursor.spared_reading ts
  by_cases hprintf : name.lexeme = "printf"
  · have hnamed : Cursor.named name ts = (reading ts).printf name := if_pos hprintf
    rw [hnamed]
    exact spared_printf hbehind name
  · by_cases hscanf : name.lexeme = "scanf"
    · have hnamed : Cursor.named name ts = (reading ts).scanf name :=
        (if_neg hprintf).trans (if_pos hscanf)
      rw [hnamed]
      exact spared_scanf hbehind name
    · have hnamed : Cursor.named name ts = _ := (if_neg hprintf).trans (if_neg hscanf)
      rw [hnamed]
      split
      next taken hopening =>
        have hcall := spared_callStatement (Cursor.spared_of_take? hopening) name taken.token
        exact ⟨hcall.next, hcall.trace⟩
      next => exact spared_assignmentStatement (Cursor.spared_reading (name :: ts))

/-! ## Structs -/

section

variable {α : Type} {P : Plan} {trace : α → Trace}
variable {read : (c : Cursor) → Parsed α c.residue}

/-- The parts that were recovered from are reported for what they miss themselves. -/
theorem spared_trace_recovering (begins : Kind → Bool)
    (htracks : ∀ c, Tracks P c (read c).next (trace (read c).tree))
    (hnext : ∀ ts, (read (reading ts)).next.Spared)
    (htrace : ∀ ts, (trace (read (reading ts)).tree).Spared) :
    ∀ c : Cursor, (Trace.all ((c.recovering begins read).tree.map
      fun part => (trace part).settled)).Spared
  | broken hole after => by
      rw [Cursor.recovering_broken]
      exact .clear
  | reading [] => by
      rw [Cursor.recovering_nil]
      exact .clear
  | reading (t :: ts) => by
      rw [Cursor.recovering]
      by_cases hbegins : begins t.kind = true
      · have hle := (read (reading (t :: ts))).le
        have hpart := (htrace (t :: ts)).settled (htracks (reading (t :: ts))) (hnext (t :: ts))
        have hrest := spared_trace_recovering begins htracks hnext htrace
          (read (reading (t :: ts))).next.mend
        simp only [hbegins]
        exact hpart.andThen hrest
      · simp only [hbegins]
        exact .clear
termination_by c => c.size
decreasing_by
  simp only [Cursor.size_mend, Cursor.size_reading, Cursor.residue_cons, List.length_cons] at *
  omega

end

/-- Fields are recovered from, but they have no header. -/
theorem spared_structDecl {c : Cursor} {definition : Parsed StructDecl c.residue}
    (h : c.structDecl? = some definition) : (definition.map Stmt.struct).Spared := by
  simp only [Cursor.structDecl?, Option.bind_eq_bind, Option.bind_eq_some_iff,
    Option.some.injEq] at h
  obtain ⟨keyword, -, name, -, opening, hopening, rfl⟩ := h
  have hfields := Cursor.spared_recovering Kind.startsDeclaration Cursor.field opening.next
    (Cursor.spared_of_take? hopening)
  have hclosing := hfields.expect (.punct .rbrace) .fieldsEnd (by simp)
  have htrace := spared_trace_recovering Kind.startsDeclaration tracks_field
    (fun ts => spared_field (Cursor.spared_reading ts)) (fun _ => Field.spared_trace _)
    opening.next
  refine ⟨hclosing.expect (.punct .semicolon) _ (by simp), ?_⟩
  exact htrace.andThen ((Slot.spared_trace _).andThen (Slot.spared_trace _))

/-! ## Statements -/

mutual

/-- By the first token. Only what begins with a type may have a header. -/
theorem spared_statement (c : Cursor) (h : c.Spared) : c.statement.Spared := by
  match c with
  | reading (t :: ts) =>
      have hsize := Cursor.size_reading ts
      have hbehind := Cursor.spared_reading ts
      rw [Cursor.statement]
      by_cases hdecl : t.kind.startsDeclaration = true
      · rw [if_pos hdecl]
        exact spared_declared (t :: ts)
      · rw [if_neg hdecl]
        split
        next =>
          have hcondition := spared_condition hbehind .ifElse
          have hle := ((reading ts).condition .ifElse).le
          have hle₁ := (reading ts).residue_le_size
          have hbody := spared_statement ((reading ts).condition .ifElse).next hcondition
          have hle₂ := ((reading ts).condition .ifElse).next.statement.le
          have hle₃ := ((reading ts).condition .ifElse).next.residue_le_size
          have htest := Condition.spared_trace ((reading ts).condition .ifElse).tree
          cases htake : ((reading ts).condition .ifElse).next.statement.next.take?
              (· == .keyword .kwElse) with
          | none =>
              constructor
              · simp only [Parsed.next_andThen, Parsed.next_atMost, htake]
                exact hbody.next
              · simp only [Parsed.tree_andThen, Parsed.tree_atMost, Parsed.next_atMost, htake]
                exact htest.andThen hbody.trace
          | some taken =>
              have hlt := taken.lt
              have halternative := spared_statement taken.next (Cursor.spared_of_take? htake)
              constructor
              · simp only [Parsed.next_andThen, Parsed.next_atMost, htake]
                exact halternative.next
              · simp only [Parsed.tree_andThen, Parsed.tree_atMost, Parsed.next_atMost, htake]
                exact htest.andThen (hbody.trace.andThen halternative.trace)
        next =>
          have hcondition := spared_condition hbehind .whileLoop
          have hle := ((reading ts).condition .whileLoop).le
          have hle₁ := (reading ts).residue_le_size
          have hbody := spared_statement ((reading ts).condition .whileLoop).next hcondition
          exact ⟨hbody.next, (Condition.spared_trace _).andThen hbody.trace⟩
        next =>
          have hbody := spared_statement (reading ts) hbehind
          have hword := hbody.next.expect (.keyword .kwWhile) .loopWord (by simp)
          have hcondition := spared_condition hword .doWhile
          refine ⟨hcondition.expect (.punct .semicolon) _ (by simp), ?_⟩
          exact hbody.trace.andThen ((Slot.spared_trace _).andThen
            ((Condition.spared_trace _).andThen (Slot.spared_trace _)))
        next =>
          have hle := Cursor.size_behindFor (reading ts)
          have hopening := hbehind.expect (.punct .lparen) .forStart (by simp)
          have htest := spared_expressionUnless (spared_forInit hopening) (.punct .semicolon)
          have hsemicolon := htest.expect (.punct .semicolon) .forConditionEnd (by simp)
          have hupdate := spared_assignmentUnless hsemicolon (.punct .rparen)
          have hclosing := hupdate.expect (.punct .rparen) .forClausesEnd (by simp)
          have hbody := spared_statement (reading ts).behindFor hclosing
          refine ⟨hbody.next, ?_⟩
          exact (Slot.spared_trace _).andThen ((ForInit.spared_trace _).andThen
            ((spared_trace_test _).andThen ((Slot.spared_trace _).andThen
              ((spared_trace_update _).andThen ((Slot.spared_trace _).andThen hbody.trace)))))
        next =>
          have hle := Cursor.size_behindSwitch (reading ts)
          have hopening := hbehind.expect (.punct .lparen) .switchStart (by simp)
          have hclosing := (spared_expression _ hopening).expect (.punct .rparen)
            .switchSubjectEnd (by simp)
          have hstart := hclosing.expect (.punct .lbrace) .switchBodyStart (by simp)
          have hclauses := spared_clauses (reading ts).behindSwitch hstart
          refine ⟨hclauses.1.expect (.punct .rbrace) _ (by simp), ?_⟩
          exact (Slot.spared_trace _).andThen ((Expr.spared_trace _).andThen
            ((Slot.spared_trace _).andThen ((Slot.spared_trace _).andThen
              (hclauses.2.andThen (Slot.spared_trace _)))))
        next =>
          have hexit := spared_exit hbehind t
          exact ⟨hexit.next, hexit.trace⟩
        next => exact ⟨hbehind.expect (.punct .semicolon) _ (by simp), Slot.spared_trace _⟩
        next => exact ⟨hbehind.expect (.punct .semicolon) _ (by simp), Slot.spared_trace _⟩
        next => exact spared_missing h _ rfl
        next => exact spared_missing h _ rfl
        next =>
          split
          next taken hopening =>
            have hcall := spared_callStatement (Cursor.spared_of_take? hopening) t taken.token
            exact ⟨hcall.next, hcall.trace⟩
          next => exact spared_missing h _ rfl
        next => exact spared_block (reading (t :: ts)) h
        next => exact ⟨hbehind, .clear⟩
        next => exact ⟨hbehind, .clear⟩
        next =>
          have hnamed := spared_named t ts
          exact ⟨hnamed.next, hnamed.trace⟩
        next => exact spared_assignmentStatement h
        next => exact spared_assignmentStatement h
        next => exact spared_assignmentStatement h
        next hif hwhile hdo hfor hswitch hreturn hbreak hcontinue hcase hdefault hmain hlbrace
            hsemicolon hdirective hident hstar hplusPlus hminusMinus =>
          have hno := spared_missing h .statement rfl
          generalize t.kind = kind at *
          cases kind with
          | keyword k => cases k <;> first | contradiction | exact hno
          | operator o => cases o <;> first | contradiction | exact hno
          | punct m => cases m <;> first | contradiction | exact hno
          | _ => first | contradiction | exact hno
  | reading [] =>
      rw [Cursor.statement]
      · exact spared_missing h _ rfl
      · exact fun _ _ hc => nomatch hc
  | broken hole after =>
      rw [Cursor.statement]
      · exact spared_missing h _ rfl
      · exact fun _ _ hc => nomatch hc
termination_by 8 * c.size + 5

/-- Where a header is foreseen its name and its parenthesis are there; else none is read. -/
theorem spared_declared (ts : List Token) : (reading ts).declared.Spared := by
  rw [Cursor.declared]
  split
  next definition hsome => exact spared_structDecl hsome
  next =>
    by_cases hfunction : Cursor.startsFunction ts = true
    · rw [if_pos (by exact hfunction)]
      exact spared_function ts hfunction
    · rw [if_neg (by exact hfunction)]
      exact ⟨spared_declaration (Cursor.spared_reading ts), Declaration.spared_trace _⟩
termination_by 8 * ts.length + 4

/-- A function is read only where its header was seen. -/
theorem spared_function (ts : List Token) (hsees : Cursor.startsFunction ts = true) :
    (reading ts).function.Spared := by
  have hsize := Cursor.size_reading ts
  have hle := (reading ts).residue_le_size
  have hle₁ := (reading ts).header.le
  have hheader := spared_header (Cursor.spared_reading ts) hsees
  rw [Cursor.function]
  cases htake : (reading ts).header.next.take? (· == .punct .semicolon) with
  | some taken =>
      constructor
      · simp only [Parsed.next_andThen, htake]
        exact Cursor.spared_of_take? htake
      · simp only [Parsed.tree_andThen, htake]
        exact Header.spared_trace _
  | none =>
      have hbody := spared_block (reading ts).header.next hheader
      constructor
      · simp only [Parsed.next_andThen, htake]
        exact hbody.next
      · simp only [Parsed.tree_andThen, htake]
        exact (Header.spared_trace _).andThen hbody.trace
termination_by 8 * ts.length + 3

/-- Statements between braces. -/
theorem spared_block (c : Cursor) (h : c.Spared) : c.block.Spared := by
  rw [Cursor.block]
  split
  next => exact spared_missing h _ rfl
  next taken hsome =>
    have hlt := taken.lt
    have hbody := spared_statements taken.next (Cursor.spared_of_take? hsome)
    exact ⟨hbody.1.expect (.punct .rbrace) _ (by simp), hbody.2.andThen (Slot.spared_trace _)⟩
termination_by 8 * c.size + 2

/-- A statement with a hole is recovered from, and its hole is not in a header. -/
theorem spared_statements (c : Cursor) (h : c.Spared) :
    c.statements.next.Spared ∧ c.statements.tree.trace.Spared := by
  match c with
  | reading (t :: ts) =>
      rw [Cursor.statements]
      by_cases hend : (t.kind == .punct .rbrace) = true
      · rw [if_pos hend]
        exact ⟨h, .clear⟩
      · rw [if_neg hend]
        have hle := (reading (t :: ts)).statement.le
        have hfirst := spared_statement (reading (t :: ts)) h
        have hrest := spared_statements (reading (t :: ts)).statement.next.mend
          (Cursor.spared_mend _)
        have hsettled := hfirst.trace.settled (tracks_statement (reading (t :: ts))) hfirst.next
        exact ⟨hrest.1, hsettled.andThen hrest.2⟩
  | reading [] =>
      rw [Cursor.statements]
      · exact ⟨h, .clear⟩
      · exact fun _ _ hc => nomatch hc
  | broken hole after =>
      rw [Cursor.statements]
      · exact ⟨h, .clear⟩
      · exact fun _ _ hc => nomatch hc
termination_by 8 * c.size + 6
decreasing_by
  all_goals
    simp only [Cursor.size_mend, Cursor.size_reading, Cursor.residue_cons, List.length_cons] at *
    omega

/-- So is what stands in the body of a switch. -/
theorem spared_clauses (c : Cursor) (h : c.Spared) :
    c.clauses.next.Spared ∧ c.clauses.tree.trace.Spared := by
  match c with
  | reading (t :: ts) =>
      have hsize := Cursor.size_reading ts
      have hbehind := Cursor.spared_reading ts
      rw [Cursor.clauses]
      split
      next => exact ⟨h, .clear⟩
      next =>
        have hvalue := hbehind.demand (fun kind => kind == .literal .int || kind == .literal .char)
          .caseConstant rfl
        have htracks := tracks_demand (reading ts)
          (fun kind => kind == .literal .int || kind == .literal .char) .caseConstant
        have hle := Parsed.size_next_le ((reading ts).demand
          (fun kind => kind == .literal .int || kind == .literal .char) .caseConstant)
        generalize ((reading ts).demand (fun kind => kind == .literal .int ||
          kind == .literal .char) .caseConstant) = value at *
        have hcolon := hvalue.expect (.punct .colon) .caseValueEnd (by simp)
        have hle₁ := Parsed.size_next_le (value.next.expect (.punct .colon) .caseValueEnd)
        have hrest := spared_clauses (value.next.expect (.punct .colon) .caseValueEnd).next.mend
          (Cursor.spared_mend _)
        have hlabel := ((Slot.spared_trace value.tree).andThen (Slot.spared_trace _)).settled
          (htracks.seq (tracks_expect value.next (.punct .colon) .caseValueEnd)) hcolon
        exact ⟨hrest.1, hlabel.andThen hrest.2⟩
      next =>
        have hcolon := hbehind.expect (.punct .colon) .defaultEnd (by simp)
        have hle := Parsed.size_next_le ((reading ts).expect (.punct .colon) .defaultEnd)
        have hrest := spared_clauses ((reading ts).expect (.punct .colon) .defaultEnd).next.mend
          (Cursor.spared_mend _)
        have hlabel := (Slot.spared_trace _).settled
          (tracks_expect (reading ts) (.punct .colon) .defaultEnd) hcolon
        exact ⟨hrest.1, hlabel.andThen hrest.2⟩
      next hrbrace hcase hdefault =>
        have hle := (reading (t :: ts)).statement.le
        have hfirst := spared_statement (reading (t :: ts)) h
        have hrest := spared_clauses (reading (t :: ts)).statement.next.mend
          (Cursor.spared_mend _)
        have hsettled := hfirst.trace.settled (tracks_statement (reading (t :: ts))) hfirst.next
        have hboth := And.intro hrest.1 (hsettled.andThen hrest.2)
        generalize t.kind = kind at *
        cases kind with
        | keyword k => cases k <;> first | contradiction | exact hboth
        | punct m => cases m <;> first | contradiction | exact hboth
        | _ => exact hboth
  | reading [] =>
      rw [Cursor.clauses]
      · exact ⟨h, .clear⟩
      · exact fun _ _ hc => nomatch hc
  | broken hole after =>
      rw [Cursor.clauses]
      · exact ⟨h, .clear⟩
      · exact fun _ _ hc => nomatch hc
termination_by 8 * c.size + 6
decreasing_by
  all_goals
    simp only [Cursor.size_mend, Cursor.size_reading, Cursor.residue_cons, List.length_cons] at *
    omega

end

/-! ## Programs -/

/-- A part of a program outside of functions. -/
theorem spared_item (ts : List Token) : (reading ts).item.Spared := by
  cases ts with
  | nil => exact spared_missing (Cursor.spared_reading []) _ rfl
  | cons t ts =>
      refine Cursor.item_cases (p := fun r => r.Spared) ?blank ?declared ?missing
      case blank => exact fun _ => ⟨Cursor.spared_reading ts, .clear⟩
      case declared => exact fun _ => spared_declared (t :: ts)
      case missing => exact fun _ _ => spared_missing (Cursor.spared_reading (t :: ts)) _ rfl

/-- What an analysis misses is never the front of a header. -/
theorem spared_holes (stream : TokenStream) :
    ∀ hole ∈ stream.holes, hole.wanted.ofHeader = false := by
  have htrace := spared_trace_recovering (fun _ => true) tracks_item
    (fun ts => (spared_item ts).next) (fun ts => (spared_item ts).trace) (reading stream.body)
  rw [stream.holes_eq]
  exact htrace

/-! ## Messages -/

/-- What a message begins with that reports a missing name of a function. -/
def missingName : List Char := "Expected function name".toList

/-- A quotation mark is no letter of `function`. -/
theorem departsFrom_quoted (spelling : String) :
    DepartsFrom missingName ("Expected " ++ ("'" ++ spelling ++ "'")) := by
  have hmark : BeginsWith ['\''] "'" := .of_isPrefixOf (by decide +kernel)
  have hquoted := ((hmark.append spelling).append "'").prepend "Expected "
  exact ⟨_, hquoted, by decide +kernel⟩

/-- No kind of token goes by the words for the name of a function. -/
theorem Kind.departs_describe (kind : Kind) :
    DepartsFrom missingName ("Expected " ++ kind.describe) := by
  cases kind with
  | keyword word => exact departsFrom_quoted word.spelling
  | operator sign => exact departsFrom_quoted sign.spelling
  | punct mark => exact departsFrom_quoted mark.spelling
  | ident => exact .of_front "Expected i" (by decide +kernel)
  | directive => exact .of_front "Expected p" (by decide +kernel)
  | eof => exact .of_front "Expected e" (by decide +kernel)
  | literal class_ =>
      cases class_ with
      | int => exact .of_front "Expected i" (by decide +kernel)
      | float => exact .of_front "Expected fl" (by decide +kernel)
      | char => exact .of_front "Expected c" (by decide +kernel)
      | string => exact .of_front "Expected s" (by decide +kernel)

/-- What else is asked for goes by other words. -/
theorem Wanted.departs_describe {wanted : Wanted} (h : wanted.ofHeader = false) :
    DepartsFrom missingName wanted.describe := by
  cases wanted with
  | token kind site => exact (kind.departs_describe.append _).append _
  | functionName => cases h
  | assignmentOperator name =>
      have hfront : DepartsFrom missingName "Expected assignment operator after '" :=
        .of_front "Expected a" (by decide +kernel)
      exact (hfront.append _).append _
  | declaration => exact .of_front "Expected a" (by decide +kernel)
  | typeSpecifier => exact .of_front "Expected t" (by decide +kernel)
  | arraySize => exact .of_front "Expected a" (by decide +kernel)
  | statement => exact .of_front "Expected s" (by decide +kernel)
  | switchAroundLabel => exact .of_front "C" (by decide +kernel)
  | caseConstant => exact .of_front "Expected c" (by decide +kernel)
  | expression => exact .of_front "Expected e" (by decide +kernel)

/-! ## States of the parser -/

namespace TokenStream

/-- The stream behind `k` tokens. -/
def advanced (stream : TokenStream) : Nat → TokenStream
  | 0 => stream
  | k + 1 => (stream.advanced k).advance.2

/-- The mark behind the last token stays. -/
theorem mark_advanced (stream : TokenStream) (k : Nat) :
    (stream.advanced k).mark = stream.mark := by
  induction k with
  | zero => rfl
  | succ k ih =>
      rw [advanced, advance]
      split
      · exact ih
      · exact ih

/-- The scan for headers keeps what it promises, at every state of the parser and in the run of an
analysis. -/
structure ForeseesHeaders (stream : TokenStream) : Prop where
  /-- At every place of the stream, what the scan sees is what is read. -/
  states : ∀ k, (stream.advanced k).ForeseesHeader
  /-- In an analysis, neither the name of a function nor the parenthesis behind it is missing. -/
  holes : ∀ hole ∈ stream.holes,
    hole.wanted ≠ .functionName ∧ hole.wanted ≠ .token (.punct .lparen) .parametersStart
  /-- No syntactic diagnostic reports that the name of a function was expected. -/
  messages : ∀ d ∈ stream.analyzeBeyond.diagnostics, d.severity = .syntactic →
    ¬BeginsWith missingName d.message

/-- No message reports that the name of a function was expected. -/
theorem not_missingName {stream : TokenStream} {d : Diagnostic}
    (hd : d ∈ stream.analyze.diagnostics) (hsyntactic : d.severity = .syntactic) :
    ¬BeginsWith missingName d.message := by
  have hmem : d ∈ stream.analyze.diagnostics.filter (·.severity == .syntactic) :=
    List.mem_filter.2 ⟨hd, beq_iff_eq.2 hsyntactic⟩
  rw [syntactic_analyze] at hmem
  obtain ⟨hole, hhole, rfl⟩ := List.mem_map.1 hmem
  have hdeparts := Wanted.departs_describe (spared_holes stream hole hhole)
  exact ((hdeparts.append _).append _).not_beginsWith

end TokenStream

/-- **The scan for headers tells what is read,** at every state of the parser.  So no run misses
the name of a function or the parenthesis behind it, and behind the first name of a declaration
that was told from a function stands no parenthesis. -/
theorem headers_foreseen (tokens : List Token) :
    (TokenStream.ofTokens tokens).ForeseesHeaders := by
  constructor
  case states =>
    intro k
    apply TokenStream.foreseesHeader
    rw [TokenStream.mark_advanced]
    rfl
  case holes =>
    intro hole hhole
    have hspared := spared_holes (.ofTokens tokens) hole hhole
    constructor
    · intro hwanted
      rw [hwanted] at hspared
      cases hspared
    · intro hwanted
      rw [hwanted] at hspared
      cases hspared
  case messages =>
    intro d hd hsyntactic
    rw [TokenStream.analyzeBeyond_eq] at hd
    exact TokenStream.not_missingName hd hsyntactic

end MiniC
