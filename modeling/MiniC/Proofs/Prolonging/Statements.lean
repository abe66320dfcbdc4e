import MiniC.Proofs.Prolonging.Declarations

/-!
# `MiniC.Proofs.Prolonging.Statements` — statements and programs in a longer text

An `if` without an `else` does not end by itself, so of a statement only this is known: that it is
read alike if a token is left behind it.  The parts of a program at global scope do end by
themselves.

## Contents
- `followed_statement` and the rules it needs, in one recursion; `ended_function`, `ended_block`.
- `ended_declared`: which kind of part begins with a type is told within the part.
- `items_append`: **a program without holes is read alike, whatever stands behind it.**
-/

namespace MiniC

open Cursor (reading broken)

variable {q : List Token}

/-! ## Assignments -/

/-- A place has the stars and the path that it has in the longer text, if a token is left behind the
path. -/
theorem followed_place (c : Cursor) :
    Followed q c.place.tree.path.trace c.place (c.prolonged q).place := by
  have hname := (ended_expect (q := q) c.stars.next .ident .assignmentTarget).followed
  have hrest := followed_accesses (q := q)
    (c.stars.next.identifier .assignmentTarget).tree.asVar
    (c.stars.next.identifier .assignmentTarget).next
  refine .before (hname.onto (fun hclear => ?_) hrest.map)
  rw [← trace_asVar]
  exact clear_of_accesses _ (c.stars.next.identifier .assignmentTarget).next hclear

/-- What is written to a place: a step, or an operator and a value. -/
theorem followed_writing (place : Place) (c : Cursor) :
    Followed q (c.writing place).tree.trace (c.writing place)
      ((c.prolonged q).writing place) := by
  refine .of_pos fun hpos => ?_
  unfold Cursor.writing
  rw [Cursor.take?_prolonged hpos, Cursor.take?_prolonged hpos, Cursor.take?_prolonged hpos]
  cases c.take? Kind.isStep with
  | some taken => exact .within (.here (Assignment.stepAfter place taken.token) taken.next)
  | none =>
      cases c.take? (· == .operator .assign) with
      | some taken =>
          refine .within fun hclear => ?_
          exact (followed_expression taken.next).atMost.map (Trace.andThen_eq_clear.1 hclear).2
      | none =>
          cases c.take? Kind.isUpdate with
          | some taken =>
              refine .within fun hclear => ?_
              exact (followed_expression taken.next).atMost.map (Trace.andThen_eq_clear.1 hclear).2
          | none => exact fun hclear => Followed.stopped (Trace.andThen_eq_clear.1 hclear).2

/-- A step in front of a place, or a place and what is written to it. -/
theorem followed_assignment (c : Cursor) :
    Followed q c.assignment.tree.trace c.assignment (c.prolonged q).assignment := by
  refine .of_pos fun hpos => ?_
  unfold Cursor.assignment
  rw [Cursor.take?_prolonged (Nat.lt_of_lt_of_le hpos c.residue_le_size)]
  cases c.take? Kind.isStep with
  | some taken => exact .opening (followed_place taken.next).map.atMost
  | none =>
      obtain ⟨t, -, htree⟩ := tracks_writing c.place.tree c.place.next
      refine (followed_place c).onto (fun hclear => ?_) (followed_writing _ _)
      exact (Trace.andThen_eq_clear.1 (htree.symm.trans hclear)).1

/-! ## Parts of statements -/

/-- A test in parentheses, which ends by itself. -/
theorem followed_condition (c : Cursor) (ruled : Ruled) :
    Followed q (c.condition ruled).tree.trace (c.condition ruled)
      ((c.prolonged q).condition ruled) := by
  have hopening := (ended_expect (q := q) c (.punct .lparen) (.conditionStart ruled)).followed
  have htest := followed_expression (q := q)
    (c.expect (.punct .lparen) (.conditionStart ruled)).next
  have hclosing := (ended_expect (q := q)
    (c.expect (.punct .lparen) (.conditionStart ruled)).next.expression.next (.punct .rparen)
    .conditionEnd).followed
  exact hopening.seq (htest.atMost.seq hclosing.atMost.map)

/-- The first part of a `for` ends with its semicolon. -/
theorem followed_forInit (c : Cursor) :
    Followed q c.forInit.tree.trace c.forInit (c.prolonged q).forInit := by
  refine .of_pos fun hpos => ?_
  unfold Cursor.forInit
  rw [Cursor.take?_prolonged hpos, Cursor.sees_prolonged hpos]
  cases c.take? (· == .punct .semicolon) with
  | some taken => exact .within (.here (ForInit.none taken.token) taken.next)
  | none =>
      by_cases hdecl : c.sees Kind.startsDeclaration = true
      · simp only [if_pos hdecl]
        exact (ended_declaration c).followed.atMost.map
      · simp only [if_neg hdecl]
        exact (followed_assignment c).atMost.seq (ended_expect _ _ _).followed.atMost.map

/-- An expression, unless the mark that ends it is there at once. -/
theorem followed_expressionUnless (c : Cursor) (mark : Kind) :
    Followed q ((c.expressionUnless mark).tree.elim .clear Expr.trace)
      (c.expressionUnless mark) ((c.prolonged q).expressionUnless mark) := by
  refine .of_pos fun hpos => ?_
  unfold Cursor.expressionUnless
  rw [Cursor.sees_prolonged hpos]
  split
  next => exact .here none c
  next => exact (followed_expression c).atMost.map

/-- An assignment, unless the mark that ends it is there at once. -/
theorem followed_assignmentUnless (c : Cursor) (mark : Kind) :
    Followed q ((c.assignmentUnless mark).tree.elim .clear Assignment.trace)
      (c.assignmentUnless mark) ((c.prolonged q).assignmentUnless mark) := by
  refine .of_pos fun hpos => ?_
  unfold Cursor.assignmentUnless
  rw [Cursor.sees_prolonged hpos]
  split
  next => exact .here none c
  next => exact (followed_assignment c).atMost.map

/-! ## Simple statements -/

/-- A `return` ends with its semicolon, whether it has a value or not. -/
theorem followed_exit (keyword : Token) (c : Cursor) :
    Followed q (c.exit keyword).tree.trace (c.exit keyword)
      ((c.prolonged q).exit keyword) := by
  refine .of_pos fun hpos => ?_
  unfold Cursor.exit
  rw [Cursor.take?_prolonged hpos]
  cases c.take? (· == .punct .semicolon) with
  | some taken => exact .within (.here (Stmt.exit keyword taken.token) taken.next)
  | none => exact (followed_expression c).atMost.seq (ended_expect _ _ _).followed.atMost.map

/-- A call of `printf`: a format, arguments between commas, and the semicolon. -/
theorem followed_printf (name : Token) (c : Cursor) :
    Followed q (c.printf name).tree.trace (c.printf name) ((c.prolonged q).printf name) := by
  have hopening := (ended_expect (q := q) c (.punct .lparen) .printfStart).followed
  have hformat := followed_expression (q := q) (c.expect (.punct .lparen) .printfStart).next
  have harguments := followed_trail (q := q)
    (c.expect (.punct .lparen) .printfStart).next.expression.next
  exact hopening.atMost.seq (hformat.atMost.seq (harguments.seq
    ((ended_expect _ _ _).followed.atMost.seq (ended_expect _ _ _).followed.atMost.map)))

/-- A call of `scanf`: a format, arguments between commas, and the semicolon. -/
theorem followed_scanf (name : Token) (c : Cursor) :
    Followed q (c.scanf name).tree.trace (c.scanf name) ((c.prolonged q).scanf name) := by
  have hopening := (ended_expect (q := q) c (.punct .lparen) .scanfStart).followed
  have hformat := (ended_expect (q := q) (c.expect (.punct .lparen) .scanfStart).next
    (.literal .string) .scanfFormat).followed
  have harguments := followed_trail (q := q)
    ((c.expect (.punct .lparen) .scanfStart).next.expect (.literal .string) .scanfFormat).next
  exact hopening.atMost.seq (hformat.atMost.seq (harguments.seq
    ((ended_expect _ _ _).followed.atMost.seq (ended_expect _ _ _).followed.atMost.map)))

/-- A call and its semicolon. -/
theorem followed_callStatement (name opening : Token) (c : Cursor) :
    Followed q (c.callStatement name opening).tree.trace (c.callStatement name opening)
      ((c.prolonged q).callStatement name opening) :=
  (followed_call name opening c).atMost.seq (ended_expect _ _ _).followed.atMost.map

/-- An assignment and its semicolon. -/
theorem followed_assignmentStatement (c : Cursor) :
    Followed q c.assignmentStatement.tree.trace c.assignmentStatement
      (c.prolonged q).assignmentStatement :=
  (followed_assignment c).seq (ended_expect _ _ _).followed.atMost.map

/-- A statement that begins with a name is told by the name and the token behind it. -/
theorem followed_named (t : Token) (ts : List Token) :
    Followed q (Cursor.named t ts).tree.trace (Cursor.named t ts)
      (Cursor.named t (ts ++ q)) := by
  by_cases hprintf : t.lexeme = "printf"
  · have hnamed : ∀ us, Cursor.named t us = (reading us).printf t := fun us => if_pos hprintf
    rw [hnamed, hnamed]
    exact followed_printf t (reading ts)
  · by_cases hscanf : t.lexeme = "scanf"
    · have hnamed : ∀ us, Cursor.named t us = (reading us).scanf t :=
        fun us => (if_neg hprintf).trans (if_pos hscanf)
      rw [hnamed, hnamed]
      exact followed_scanf t (reading ts)
    · refine .of_pos fun hpos => ?_
      have hnamed : ∀ us, Cursor.named t us = _ :=
        fun us => (if_neg hprintf).trans (if_neg hscanf)
      rw [hnamed, hnamed, Cursor.take?_append hpos]
      cases (reading ts).take? (· == .punct .lparen) with
      | some taken => exact .within (followed_callStatement t taken.token taken.next)
      | none => exact followed_assignmentStatement (reading (t :: ts))

/-! ## Which kind of part begins with a type -/

/-- Where a `struct` with a name and a brace is not seen, no struct is declared. -/
theorem structDecl?_eq_none {ts : List Token} (h : seesStruct (shapes ts) = false) :
    (reading ts).structDecl? = none := by
  cases hstruct : (reading ts).structDecl? with
  | none => rfl
  | some definition =>
      have hsees := (tracks_structDecl hstruct).1
      rw [h] at hsees
      cases hsees

/-- What begins with a type is a function if a header is ahead, -/
theorem declared_function {ts : List Token} (hstruct : (reading ts).structDecl? = none)
    (hfunction : Cursor.startsFunction ts = true) :
    (reading ts).declared = (reading ts).function := by
  rw [Cursor.declared, hstruct]
  exact if_pos hfunction

/-- and a declaration of variables if none is. -/
theorem declared_declaration {ts : List Token} (hstruct : (reading ts).structDecl? = none)
    (hfunction : Cursor.startsFunction ts = false) :
    (reading ts).declared = (reading ts).declaration.map .declaration := by
  rw [Cursor.declared, hstruct]
  exact if_neg (Bool.eq_false_iff.1 hfunction)

/-- A function that was read is a function, whatever stands behind it. -/
theorem looks_of_function {ts : List Token} (h : (reading ts).function.tree.trace = .clear) :
    (reading (ts ++ q)).structDecl? = none ∧ Cursor.startsFunction (ts ++ q) = true := by
  obtain ⟨w, rest, rfl, hderives⟩ := (tracks_function (reading ts)).derives h
  rw [List.append_assoc]
  have hheader : seesHeader (shapes (w ++ (rest ++ q))) = true :=
    seesHeader_functionDecl hderives
  rw [seesHeader, Bool.and_eq_true, seesFunction_shapes] at hheader
  exact ⟨structDecl?_eq_none (not_seesStruct_functionDecl hderives), hheader.2⟩

/-- A declaration that was read is a declaration, whatever stands behind it. -/
theorem looks_of_declaration {ts : List Token}
    (h : (reading ts).declaration.tree.trace = .clear) :
    (reading (ts ++ q)).structDecl? = none ∧ Cursor.startsFunction (ts ++ q) = false := by
  obtain ⟨w, rest, rfl, hderives⟩ := (tracks_declaration (reading ts)).derives h
  rw [List.append_assoc]
  have hstarts : sees Kind.startsDeclaration (shapes (w ++ (rest ++ q))) = true :=
    Derives.sees (P := .rule .declaration) hderives rfl fun _ hkind => hkind
  have hheader : seesHeader (shapes (w ++ (rest ++ q))) = false :=
    not_seesHeader_declaration hderives
  rw [seesHeader, hstarts, Bool.true_and, seesFunction_shapes] at hheader
  exact ⟨structDecl?_eq_none (not_seesStruct_declaration hderives), hheader⟩

/-! ## Statements -/

mutual

/-- By the first token. Behind the body of an `if` the next token tells whether an `else` comes, so
one has to be left. -/
theorem followed_statement (c : Cursor) :
    Followed q c.statement.tree.trace c.statement (c.prolonged q).statement := by
  match c with
  | reading (t :: ts) =>
      have hsize := Cursor.size_reading ts
      show Followed q _ _ (reading (t :: (ts ++ q))).statement
      rw [Cursor.statement.eq_1 _ t ts, Cursor.statement.eq_1 _ t (ts ++ q)]
      by_cases hdecl : t.kind.startsDeclaration = true
      · rw [if_pos hdecl, if_pos hdecl]
        exact (ended_declared (t :: ts)).followed
      · rw [if_neg hdecl, if_neg hdecl]
        split
        next =>
          have hle := ((reading ts).condition .ifElse).le
          have hle₁ := (reading ts).residue_le_size
          have hcondition := followed_condition (q := q) (reading ts) .ifElse
          have hbody := followed_statement ((reading ts).condition .ifElse).next
          have hle₂ := ((reading ts).condition .ifElse).next.statement.le
          have hle₃ := ((reading ts).condition .ifElse).next.residue_le_size
          cases htake : ((reading ts).condition .ifElse).next.statement.next.take?
              (· == .keyword .kwElse) with
          | none =>
              simp only [Parsed.tree_andThen, Parsed.tree_atMost, Parsed.next_atMost, htake]
              refine hcondition.atMost.seq (hbody.atMost.onto id (.of_pos fun hpos => ?_))
              simp only [Parsed.next_atMost] at hpos
              simp only [Parsed.next_atMost, Cursor.take?_prolonged hpos, htake]
              exact .here _ _
          | some taken =>
              have hlt := taken.lt
              have halternative := followed_statement taken.next
              simp only [Parsed.tree_andThen, Parsed.tree_atMost, Parsed.next_atMost, htake]
              refine hcondition.atMost.seq (hbody.atMost.seq (.of_pos fun hpos => ?_))
              simp only [Parsed.next_atMost] at hpos
              simp only [Parsed.next_atMost, Cursor.take?_prolonged hpos, htake]
              exact .within halternative.atMost.map
        next =>
          have hle := ((reading ts).condition .whileLoop).le
          have hle₁ := (reading ts).residue_le_size
          exact (followed_condition (reading ts) .whileLoop).atMost.seq
            (followed_statement ((reading ts).condition .whileLoop).next).atMost.map
        next =>
          have hbody := followed_statement (reading ts)
          exact hbody.atMost.seq ((ended_expect _ _ _).followed.atMost.seq
            ((followed_condition _ .doWhile).atMost.seq (ended_expect _ _ _).followed.atMost.map))
        next =>
          have hle := Cursor.size_behindFor (reading ts)
          have hopening := (ended_expect (q := q) (reading ts) (.punct .lparen)
            .forStart).followed
          have hbody := followed_statement (reading ts).behindFor
          exact hopening.atMost.seq ((followed_forInit _).seq ((followed_expressionUnless _ _).seq
            ((ended_expect _ _ _).followed.atMost.seq ((followed_assignmentUnless _ _).seq
              ((ended_expect _ _ _).followed.atMost.seq hbody.atMost.map)))))
        next =>
          have hle := Cursor.size_behindSwitch (reading ts)
          have hopening := (ended_expect (q := q) (reading ts) (.punct .lparen)
            .switchStart).followed
          have hclauses := followed_clauses (reading ts).behindSwitch
          exact hopening.atMost.seq ((followed_expression _).atMost.seq
            ((ended_expect _ _ _).followed.atMost.seq ((ended_expect _ _ _).followed.atMost.seq
              (hclauses.seq (ended_expect _ _ _).followed.atMost.map))))
        next => exact followed_exit t (reading ts)
        next => exact (ended_expect (reading ts) _ _).followed.atMost.map
        next => exact (ended_expect (reading ts) _ _).followed.atMost.map
        next => exact .stopped
        next => exact .stopped
        next =>
          refine .of_pos fun hpos => ?_
          rw [Cursor.take?_append hpos]
          cases (reading ts).take? (· == .punct .lparen) with
          | some taken => exact .within (followed_callStatement t taken.token taken.next)
          | none => exact .stopped
        next => exact (ended_block (reading (t :: ts))).followed
        next => exact .here _ (reading ts)
        next => exact .here _ (reading ts)
        next => exact followed_named t ts
        next => exact followed_assignmentStatement (reading (t :: ts))
        next => exact followed_assignmentStatement (reading (t :: ts))
        next => exact followed_assignmentStatement (reading (t :: ts))
        next hif hwhile hdo hfor hswitch hreturn hbreak hcontinue hcase hdefault hmain hlbrace
            hsemicolon hdirective hident hstar hplusPlus hminusMinus =>
          generalize t.kind = kind at *
          cases kind with
          | keyword k => cases k <;> first | contradiction | exact .stopped
          | operator o => cases o <;> first | contradiction | exact .stopped
          | punct m => cases m <;> first | contradiction | exact .stopped
          | _ => first | contradiction | exact .stopped
  | reading [] =>
      rw [Cursor.statement]
      · exact .stopped
      · exact fun _ _ hc => nomatch hc
  | broken hole after =>
      rw [Cursor.statement]
      · exact .stopped
      · exact fun _ _ hc => nomatch hc
termination_by 8 * c.size + 5

/-- Struct, function or declaration: the decision looks ahead no further than the part goes. -/
theorem ended_declared (ts : List Token) :
    Ended q (reading ts) (reading ts).declared.tree.trace (reading ts).declared
      (reading (ts ++ q)).declared := by
  cases hstruct : (reading ts).structDecl? with
  | some definition =>
      obtain ⟨definition', hlonger, hended⟩ := ended_structDecl (q := q) hstruct
      have hlonger' : (reading (ts ++ q)).structDecl? = some definition' := hlonger
      rw [Cursor.declared, Cursor.declared, hstruct, hlonger']
      exact hended.map
  | none =>
      by_cases hfunction : Cursor.startsFunction ts = true
      · rw [declared_function hstruct hfunction]
        intro hclear
        obtain ⟨hno, hlooks⟩ := looks_of_function (q := q) hclear
        rw [declared_function hno hlooks]
        exact ended_function (reading ts) hclear
      · rw [declared_declaration hstruct (Bool.eq_false_iff.2 hfunction)]
        intro hclear
        obtain ⟨hno, hlooks⟩ := looks_of_declaration (q := q) hclear
        rw [declared_declaration hno hlooks]
        exact (ended_declaration (reading ts)).map hclear
termination_by 8 * ts.length + 4

/-- A function ends with the semicolon of its prototype or the brace of its body. -/
theorem ended_function (c : Cursor) :
    Ended q c c.function.tree.trace c.function (c.prolonged q).function := by
  have hle := c.residue_le_size
  have hle₁ := c.header.le
  have hheader := (ended_header (q := q) c).followed
  rw [Cursor.function, Cursor.function]
  cases htake : c.header.next.take? (· == .punct .semicolon) with
  | some taken =>
      simp only [Parsed.tree_andThen, htake]
      refine hheader.ends_onto c.residue_le_size id ?_
      simp only [htake, Cursor.take?_prolonged_of_some htake]
      exact fun _ => ⟨Nat.zero_lt_of_lt taken.lt, rfl, rfl⟩
  | none =>
      have hblock := ended_block c.header.next
      simp only [Parsed.tree_andThen, htake]
      refine hheader.ends_seq c.residue_le_size fun hclear => ?_
      have hpos := (hblock hclear).1
      simp only [htake, Cursor.take?_prolonged hpos]
      exact hblock.atMost.map hclear
termination_by 8 * c.size + 3

/-- A block ends with its brace. -/
theorem ended_block (c : Cursor) :
    Ended q c c.block.tree.trace c.block (c.prolonged q).block := by
  rw [Cursor.block, Cursor.block]
  cases htake : c.take? (· == .punct .lbrace) with
  | none => exact .stopped
  | some taken =>
      have hlt := taken.lt
      have hbody := followed_statements taken.next
      rw [Cursor.take?_prolonged_of_some htake]
      exact .opening (hbody.ends_seq (Nat.le_refl _) (ended_expect _ _ _).atMost.map)
termination_by 8 * c.size + 2

/-- Statements up to a closing brace, which has to be left. -/
theorem followed_statements (c : Cursor) :
    Followed q c.statements.tree.trace c.statements (c.prolonged q).statements := by
  match c with
  | reading (t :: ts) =>
      show Followed q _ _ (reading (t :: (ts ++ q))).statements
      rw [Cursor.statements, Cursor.statements.eq_1 _ t (ts ++ q)]
      by_cases hend : (t.kind == .punct .rbrace) = true
      · rw [if_pos hend, if_pos hend]
        exact .here Stmts.nil (reading (t :: ts))
      · rw [if_neg hend, if_neg hend]
        have hle := (reading (t :: ts)).statement.le
        have hfirst := followed_statement (reading (t :: ts))
        exact (hfirst.mend (followed_statements (reading (t :: ts)).statement.next.mend)).atMost
  | reading [] => exact .of_pos fun hpos => nomatch hpos
  | broken hole after =>
      rw [Cursor.statements, Cursor.statements]
      · exact .here Stmts.nil (broken hole after)
      all_goals exact fun _ _ hc => nomatch hc
termination_by 8 * c.size + 6
decreasing_by
  all_goals
    simp only [Cursor.size_mend, Cursor.size_reading, Cursor.residue_cons, List.length_cons] at *
    omega

/-- Labels and statements up to a closing brace, which has to be left. -/
theorem followed_clauses (c : Cursor) :
    Followed q c.clauses.tree.trace c.clauses (c.prolonged q).clauses := by
  match c with
  | reading (t :: ts) =>
      have hsize := Cursor.size_reading ts
      show Followed q _ _ (reading (t :: (ts ++ q))).clauses
      rw [Cursor.clauses.eq_1 _ t ts, Cursor.clauses.eq_1 _ t (ts ++ q)]
      split
      next => exact .here Clauses.nil (reading (t :: ts))
      next =>
        have hvalue := (ended_demand (q := q) (reading ts)
          (fun kind => kind == .literal .int || kind == .literal .char) .caseConstant).followed
        have hle := Parsed.size_next_le ((reading ts).demand
          (fun kind => kind == .literal .int || kind == .literal .char) .caseConstant)
        generalize hc₁ : ((reading ts).demand (fun kind => kind == .literal .int ||
          kind == .literal .char) .caseConstant).next = c₁ at hvalue hle
        have hcolon := (ended_expect (q := q) c₁ (.punct .colon) .caseValueEnd).followed
        have hle₁ := Parsed.size_next_le (c₁.expect (.punct .colon) .caseValueEnd)
        have hrest := followed_clauses (c₁.expect (.punct .colon) .caseValueEnd).next.mend
        subst hc₁
        refine Followed.weaken (hvalue.atMost.onto (fun hclear => ?_)
          (hcolon.atMost.onto (fun hclear => ?_) fun hclear => ?_))
        all_goals
          obtain ⟨hlabel, hbehind⟩ := Trace.andThen_eq_clear.1 hclear
          obtain ⟨hvalueClear, hcolonClear⟩ :=
            Trace.andThen_eq_clear.1 (Trace.settled_eq_clear.1 hlabel)
        · exact hvalueClear
        · exact hcolonClear
        · exact (Followed.mended hrest).map hbehind
      next =>
        have hle := Parsed.size_next_le ((reading ts).expect (.punct .colon) .defaultEnd)
        have hcolon := (ended_expect (q := q) (reading ts) (.punct .colon)
          .defaultEnd).followed
        have hrest := followed_clauses
          ((reading ts).expect (.punct .colon) .defaultEnd).next.mend
        exact (hcolon.atMost.mend hrest).weaken
      next hrbrace hcase hdefault =>
        have hle := (reading (t :: ts)).statement.le
        have hfirst := followed_statement (reading (t :: ts))
        have hrest := followed_clauses (reading (t :: ts)).statement.next.mend
        generalize t.kind = kind at *
        cases kind with
        | keyword k => cases k <;> first | contradiction | exact (hfirst.mend hrest).atMost
        | punct m => cases m <;> first | contradiction | exact (hfirst.mend hrest).atMost
        | _ => exact (hfirst.mend hrest).atMost
  | reading [] => exact .of_pos fun hpos => nomatch hpos
  | broken hole after =>
      rw [Cursor.clauses, Cursor.clauses]
      · exact .here Clauses.nil (broken hole after)
      all_goals exact fun _ _ hc => nomatch hc
termination_by 8 * c.size + 6
decreasing_by
  all_goals
    simp only [Cursor.size_mend, Cursor.size_reading, Cursor.residue_cons, List.length_cons] at *
    omega

end

/-! ## Programs -/

/-- A part of a program at global scope ends by itself. -/
theorem ended_item (c : Cursor) :
    Ended q c c.item.tree.trace c.item (c.prolonged q).item := by
  rcases c with (_ | ⟨t, ts⟩) | ⟨hole, after⟩
  · exact .stopped
  · show Ended q _ _ _ (reading (t :: (ts ++ q))).item
    by_cases hdirective : (t.kind == .directive) = true
    · have hitem : ∀ us, (reading (t :: us)).item = .here (.blank t) (reading us) :=
        fun us => if_pos hdirective
      rw [hitem, hitem]
      exact fun _ => ⟨Nat.succ_pos _, rfl, rfl⟩
    · by_cases hdecl : t.kind.startsDeclaration = true
      · have hitem : ∀ us, (reading (t :: us)).item = (reading (t :: us)).declared :=
          fun us => (if_neg hdirective).trans (if_pos hdecl)
        rw [hitem, hitem]
        exact ended_declared (t :: ts)
      · have hitem : (reading (t :: ts)).item =
            (reading (t :: ts)).lacking .declaration .missing :=
          (if_neg hdirective).trans (if_neg hdecl)
        rw [hitem]
        exact .stopped
  · exact .stopped

theorem items_nil : (reading []).items.tree = [] := by
  rw [Cursor.items, Cursor.recovering_nil]
  rfl

/-- The first part of a program is read, then what is behind it. -/
theorem items_cons (t : Token) (ts : List Token) :
    (reading (t :: ts)).items.tree =
      (reading (t :: ts)).item.tree :: (reading (t :: ts)).item.next.mend.items.tree := by
  rw [Cursor.items, Cursor.recovering]
  rfl

/-- **A program without holes is read alike, whatever stands behind it.** -/
theorem items_append (q : List Token) : ∀ p : List Token,
    Trace.all ((reading p).items.tree.map (·.trace.settled)) = .clear →
      (reading (p ++ q)).items.tree = (reading p).items.tree ++ (reading q).items.tree
  | [], _ => by
      rw [items_nil]
      rfl
  | t :: ts, hclear => by
      have hle := (reading (t :: ts)).item.le
      rw [items_cons, List.map_cons, Trace.all_cons] at hclear
      obtain ⟨hfirst, hrest⟩ := Trace.andThen_eq_clear.1 hclear
      obtain ⟨-, htree, hnext⟩ := ended_item (q := q) (reading (t :: ts))
        (Trace.settled_eq_clear.1 hfirst)
      have hboth := items_append q (reading (t :: ts)).item.next.unread hrest
      calc (reading (t :: (ts ++ q))).items.tree
        _ = ((reading (t :: ts)).prolonged q).item.tree ::
              ((reading (t :: ts)).prolonged q).item.next.mend.items.tree := items_cons t (ts ++ q)
        _ = (reading (t :: ts)).item.tree ::
              (reading ((reading (t :: ts)).item.next.unread ++ q)).items.tree := by
            rw [htree, hnext, Cursor.mend_prolonged]
            rfl
        _ = (reading (t :: ts)).items.tree ++ (reading q).items.tree := by
            rw [hboth, items_cons]
            rfl
termination_by p => p.length
decreasing_by
  simp only [Cursor.size, Cursor.residue_cons, List.length_cons] at *
  omega

end MiniC
