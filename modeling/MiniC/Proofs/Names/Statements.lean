import MiniC.Proofs.Names.Declarations

/-!
# `MiniC.Proofs.Names.Statements` — statements go through their steps

One lemma for each part of statements, and then one case for each kind of statement.  A body is
checked in a scope of its own, and a block opens one beside: that scope holds no variable, and the
two are one region.  So the induction is on what holds of a statement as it stands and of a
statement as a body, at once.

## Contents
- `map_token_words` of the parts of statements: the words are the text.
- `takes_condition`, `takes_forInit`, …: parts of statements.
- `takes_stmt`: **the check of a statement without holes goes through its steps.**
-/

namespace MiniC

/-! ## Words of parts of statements -/

@[simp] theorem Place.map_token_words (p : Place) : p.words.map Word.token = p.tokens := by
  simp [Place.words, Place.tokens]

@[simp] theorem Assignment.map_token_words (a : Assignment) :
    a.words.map Word.token = a.tokens := by
  cases a <;> simp [Assignment.words, Assignment.tokens]

@[simp] theorem Condition.map_token_words (c : Condition) :
    c.words.map Word.token = c.tokens := by
  simp [Condition.words, Condition.tokens]

/-! ## Parts of statements -/

theorem takes_condition {c : Condition} (h : c.trace = .clear) (ruled : Ruled) :
    (Check.reading fun σ => c.check σ ruled).Takes (c.steps ruled) c.tokens () :=
  (Check.Takes.look_unit (looks_condition ruled h)).of_eq rfl c.map_token_words.symm

/-- An assignment up to its semicolon. -/
theorem takes_assignment {a : Assignment} {semicolon : Slot} (h : a.trace = .clear)
    (hsemicolon : semicolon.trace = .clear) :
    (Check.reading (fun σ => a.check σ) >>= fun _ => Check.lift semicolon.require).Takes
      (.look a.words (fun σ => (a.check σ).issues) :: passing semicolon.tokens)
      (a.tokens ++ semicolon.tokens) () :=
  ((Check.Takes.look_unit (looks_assignment h)).seq (.require hsemicolon)).of_eq rfl
    (by rw [a.map_token_words])

theorem takes_forInit {init : ForInit} (h : init.trace = .clear) :
    init.check.Takes init.steps init.tokens () := by
  cases init with
  | none semicolon => exact .passing () [semicolon]
  | declaration d => exact takes_declaration h
  | assignment a semicolon =>
      obtain ⟨ha, hsemicolon⟩ := Trace.andThen_eq_clear.1 h
      exact takes_assignment ha hsemicolon

theorem takes_test {test : Option Expr} (h : test.elim .clear Expr.trace = .clear) :
    (checkForTest test).Takes (testSteps test) (test.elim [] Expr.tokens) () := by
  cases test with
  | none => exact (Check.Takes.look_unit (.pure ())).of_eq rfl rfl
  | some test =>
      exact (Check.Takes.look_unit (looks_test .forLoop h)).of_eq rfl test.map_token_words.symm

theorem takes_update {update : Option Assignment}
    (h : update.elim .clear Assignment.trace = .clear) :
    (checkForUpdate update).Takes (updateSteps update) (update.elim [] Assignment.tokens) () := by
  cases update with
  | none => exact (Check.Takes.look_unit (.pure ())).of_eq rfl rfl
  | some a =>
      exact (Check.Takes.look_unit (looks_assignment h)).of_eq rfl a.map_token_words.symm

/-- A word at which something is found that is not about names. -/
theorem takes_word (word : Token) {x : Finding Unit} (h : x.Quiet) :
    (Check.lift x).Takes [.look (plain [word]) fun _ => x.issues] [word] () :=
  .look_unit ((Looks.quiet h).of_words fun _ => complaints_plain _)

theorem onlyLooks_call (context : Context) {call : Expr} {semicolon : Slot}
    (h : call.trace = .clear) (hsemicolon : semicolon.trace = .clear) :
    ((Stmt.call call semicolon).check context).OnlyLooks
      (call.words ++ plain semicolon.tokens) := by
  rw [Stmt.check]
  refine .of_words (.bind (.reading (looks_typing call h)) fun _ =>
    .quiet (quiet_require hsemicolon)) fun _ => ?_
  simp

theorem onlyLooks_exitWith (context : Context) (keyword : Token) {value : Expr}
    {semicolon : Slot} (h : value.trace = .clear) (hsemicolon : semicolon.trace = .clear) :
    ((Stmt.exitWith keyword value semicolon).check context).OnlyLooks
      (plain [keyword] ++ (value.words ++ plain semicolon.tokens)) := by
  rw [Stmt.check]
  refine .of_words (.bind (.reading (looks_typing value h)) fun found =>
    .behind_quiet (quiet_checkResult context found value.lead) fun _ =>
      .quiet (quiet_require hsemicolon)) fun _ => ?_
  simp

theorem onlyLooks_printf (context : Context) {name : Token} {opening : Slot} {format : Expr}
    {arguments : Trail} {closing semicolon : Slot}
    (h : (Stmt.printf name opening format arguments closing semicolon).trace = .clear) :
    ((Stmt.printf name opening format arguments closing semicolon).check context).OnlyLooks
      (plain (name :: opening.tokens) ++ (format.words ++ (arguments.words ++
        plain (closing.tokens ++ semicolon.tokens)))) := by
  obtain ⟨hopening, hformat, harguments, hclosing, hsemicolon⟩ := by
    simpa only [Stmt.trace, Trace.andThen_eq_clear] using h
  have hbehind : ∀ last : List Argument → Finding Unit, (∀ given, (last given).Quiet) →
      Check.OnlyLooks (do
        opening.require
        let _ ← Check.reading format.typing
        let given ← Check.reading arguments.typing
        closing.require
        semicolon.require
        last given) (format.words ++ arguments.words) := by
    intro last hlast
    refine .of_words (.behind_quiet (quiet_require hopening) fun _ =>
      .bind (.reading (looks_typing format hformat)) fun _ =>
        .bind (.reading (looks_trail arguments harguments)) fun given =>
          .behind_quiet (quiet_require hclosing) fun _ =>
            .behind_quiet (quiet_require hsemicolon) fun _ => .quiet (hlast given)) fun _ => ?_
    simp
  have hwords : ∀ σ, complaints σ (plain (name :: opening.tokens) ++ (format.words ++
      (arguments.words ++ plain (closing.tokens ++ semicolon.tokens)))) =
        complaints σ (format.words ++ arguments.words) := fun _ => by simp
  rw [Stmt.check]
  refine .of_words ?_ hwords
  cases format.formatToken? with
  | none => exact hbehind (fun _ => pure ()) fun _ => .pure ()
  | some token =>
      exact hbehind (FormatCall.printf.check token) fun given => quiet_format .printf token given

theorem onlyLooks_scanf (context : Context) {name : Token} {opening format : Slot}
    {arguments : Trail} {closing semicolon : Slot}
    (h : (Stmt.scanf name opening format arguments closing semicolon).trace = .clear) :
    ((Stmt.scanf name opening format arguments closing semicolon).check context).OnlyLooks
      (plain (name :: (opening.tokens ++ format.tokens)) ++ (arguments.words ++
        plain (closing.tokens ++ semicolon.tokens))) := by
  obtain ⟨hopening, hformat, harguments, hclosing, hsemicolon⟩ := by
    simpa only [Stmt.trace, Trace.andThen_eq_clear] using h
  rw [Stmt.check]
  refine .of_words (.behind_quiet (quiet_require hopening) fun _ =>
    .behind_quiet (quiet_get hformat) fun token =>
      .bind (.reading (looks_trail arguments harguments)) fun given =>
        .behind_quiet (quiet_require hclosing) fun _ =>
          .behind_quiet (quiet_require hsemicolon) fun _ =>
            .quiet (quiet_format .scanf token given)) fun _ => ?_
  simp

/-! ## Statements -/

/-- What goes through steps goes through them in a region of its own as well. -/
theorem Check.Takes.bodied {m : Check Unit} {steps : List Step} {text : List Token}
    (h : m.Takes steps text ()) :
    m.Takes steps text () ∧ (Check.inScope m).Takes (bodied false steps) text () :=
  ⟨h, h.region⟩

mutual

/-- **The check of a statement without holes goes through its steps,** and as a body through
those of a body. -/
theorem takes_stmt (context : Context) : ∀ s : Stmt, s.trace = .clear →
    (s.check context).Takes (s.steps context) s.tokens () ∧
      (Check.inScope (s.check context)).Takes (bodied s.isBlock (s.steps context)) s.tokens ()
  | .blank token, _ => (Check.Takes.passing () [token]).bodied
  | .struct definition, h => (takes_structDecl h).bodied
  | .declaration d, h => (takes_declaration h).bodied
  | .prototype header semicolon, h => by
      have hheader := @takes_headed header h false (fun _ => pure ()) [] [] (.pure ())
      have htakes := hheader.passed [semicolon]
      simp only [List.append_nil, List.append_assoc] at htakes
      exact htakes.bodied
  | .function header body, h => by
      obtain ⟨hheader, hbody⟩ := Trace.andThen_eq_clear.1 h
      exact (takes_headed hheader true (takes_stmt (.body header.enclosing) body hbody).1).bodied
  | .ifThen keyword condition body, h => by
      obtain ⟨hcondition, hbody⟩ := Trace.andThen_eq_clear.1 h
      exact (((takes_condition hcondition .ifElse).seq
        (takes_stmt context body hbody).2).passes [keyword]).bodied
  | .ifElse keyword condition body elseWord alternative, h => by
      obtain ⟨hcondition, hbody, halternative⟩ := by
        simpa only [Stmt.trace, Trace.andThen_eq_clear] using h
      exact (((takes_condition hcondition .ifElse).seq ((takes_stmt context body hbody).2.seq
        ((takes_stmt context alternative halternative).2.passes [elseWord]))).passes
          [keyword]).bodied
  | .whileLoop keyword condition body, h => by
      obtain ⟨hcondition, hbody⟩ := Trace.andThen_eq_clear.1 h
      exact (((takes_condition hcondition .whileLoop).seq
        (takes_stmt context.loop body hbody).2).passes [keyword]).bodied
  | .doWhile keyword body whileWord condition semicolon, h => by
      obtain ⟨hbody, hwhile, hcondition, hsemicolon⟩ := by
        simpa only [Stmt.trace, Trace.andThen_eq_clear] using h
      exact (((takes_stmt context.loop body hbody).2.seq ((Check.Takes.require hwhile).seq
        ((takes_condition hcondition .doWhile).seq (.require hsemicolon)))).passes
          [keyword]).bodied
  | .forLoop keyword opening init test semicolon update closing body, h => by
      obtain ⟨hopening, hinit, htest, hsemicolon, hupdate, hclosing, hbody⟩ := by
        simpa only [Stmt.trace, Trace.andThen_eq_clear] using h
      have hheader := (takes_forInit hinit).seq ((takes_test htest).seq
        ((Check.Takes.require hsemicolon).seq ((takes_update hupdate).seq
          ((Check.Takes.require hclosing).seq (takes_stmt context.loop body hbody).2))))
      exact (((Check.Takes.require hopening).seq hheader.region).passes [keyword]).bodied
  | .switch keyword opening subject closing bodyStart clauses bodyEnd, h => by
      obtain ⟨hopening, hsubject, hclosing, hstart, hclauses, hend⟩ := by
        simpa only [Stmt.trace, Trace.andThen_eq_clear] using h
      have hbody := (takes_clauses context.switch [] false clauses hclauses).region.seq
        (Check.Takes.require hend)
      have htakes := (Check.Takes.look_unit (looks_subject hsubject)).seq
        ((Check.Takes.require hclosing).seq ((Check.Takes.require hstart).seq hbody))
      refine (((Check.Takes.require hopening).seq htakes).passes [keyword]).bodied.imp ?_ ?_
      · exact fun h => h.of_eq rfl (by simp [Stmt.tokens])
      · exact fun h => h.of_eq rfl (by simp [Stmt.tokens])
  | .exit keyword semicolon, _ =>
      ((takes_word keyword (quiet_checkExit context keyword)).passed [semicolon]).bodied
  | .exitWith keyword value semicolon, h => by
      obtain ⟨hvalue, hsemicolon⟩ := Trace.andThen_eq_clear.1 h
      have hlooks := onlyLooks_exitWith context keyword hvalue hsemicolon
      exact ((Check.Takes.of_looks hlooks).of_eq rfl (by simp [Stmt.tokens])).bodied
  | .jump keyword semicolon, h =>
      ((takes_word keyword (.complain _ rfl _)).seq (.require h)).bodied
  | .block opening body closing, h => by
      obtain ⟨hbody, hclosing⟩ := Trace.andThen_eq_clear.1 h
      obtain ⟨closing, rfl⟩ := Slot.exists_of_clear hclosing
      have hinner := takes_stmts context body hbody
      have hcheck : (Stmt.block opening body (.found closing)).check context =
          Check.inScope (body.check context) := by
        rw [Stmt.check]
        exact bind_pure _
      have hblock := (hinner.region.passed [closing]).passes [opening]
      rw [hcheck, hinner.inScope_inScope]
      exact ⟨hblock, hblock⟩
  | .call call semicolon, h => by
      obtain ⟨hcall, hsemicolon⟩ := Trace.andThen_eq_clear.1 h
      have hlooks := onlyLooks_call context hcall hsemicolon
      exact ((Check.Takes.of_looks hlooks).of_eq rfl (by simp [Stmt.tokens])).bodied
  | .printf _ _ _ _ _ _, h =>
      ((Check.Takes.of_looks (onlyLooks_printf context h)).of_eq rfl
        (by simp [Stmt.tokens])).bodied
  | .scanf _ _ _ _ _ _, h =>
      ((Check.Takes.of_looks (onlyLooks_scanf context h)).of_eq rfl
        (by simp [Stmt.tokens])).bodied
  | .assignment a semicolon, h => by
      obtain ⟨ha, hsemicolon⟩ := Trace.andThen_eq_clear.1 h
      exact (takes_assignment ha hsemicolon).bodied
  | .missing _, h => nomatch congrArg Trace.stop h

/-- Statements go through their steps. -/
theorem takes_stmts (context : Context) : ∀ ss : Stmts, ss.trace = .clear →
    (ss.check context).Takes (ss.steps context) ss.tokens ()
  | .nil, _ => .pure ()
  | .cons first rest, h => by
      obtain ⟨hfirst, hrest⟩ := Trace.andThen_eq_clear.1 h
      exact (takes_stmt context first (Trace.settled_eq_clear.1 hfirst)).1.settled.seq
        (takes_stmts context rest hrest)

/-- The body of a switch goes through its steps. -/
theorem takes_clauses (context : Context) (seen : List String) (hasDefault : Bool) :
    ∀ cs : Clauses, cs.trace = .clear →
      (cs.check context seen hasDefault).Takes (cs.steps context seen hasDefault) cs.tokens ()
  | .nil, _ => .pure ()
  | .case keyword value colon rest, h => by
      obtain ⟨hlabel, hrest⟩ := Trace.andThen_eq_clear.1 h
      obtain ⟨hvalue, hcolon⟩ := Trace.andThen_eq_clear.1 (Trace.settled_eq_clear.1 hlabel)
      obtain ⟨value, rfl⟩ := Slot.exists_of_clear hvalue
      have hnew : (Finding.complain (value.lexeme ∉ seen) (.duplicateCase value.lexeme)
          value).Quiet := .complain _ rfl _
      have htakes := (Check.Takes.look_unit ((Looks.quiet hnew).of_words fun _ =>
        complaints_plain [keyword, value])).seq ((Check.Takes.require hcolon).settled.seq
          (takes_clauses context (value.lexeme :: seen) hasDefault rest hrest))
      refine htakes.of_eq ?_ rfl
      simp [Clauses.steps, Slot.tokens]
  | .default keyword colon rest, h => by
      obtain ⟨hcolon, hrest⟩ := Trace.andThen_eq_clear.1 h
      exact (takes_word keyword (.complain _ rfl _)).seq
        ((Check.Takes.require (Trace.settled_eq_clear.1 hcolon)).settled.seq
          (takes_clauses context seen true rest hrest))
  | .stmt first rest, h => by
      obtain ⟨hfirst, hrest⟩ := Trace.andThen_eq_clear.1 h
      exact (takes_stmt context first (Trace.settled_eq_clear.1 hfirst)).1.settled.seq
        (takes_clauses context seen hasDefault rest hrest)

end

end MiniC
