import MiniC.Proofs.Editing.Reading
import MiniC.Proofs.Reading.Stmt

/-!
# `MiniC.Proofs.Editing.Programs` — statements and programs read in two editions

A place that is written to begins with a name, or else the cursor broke where the name was
missing; then what is asked for behind it is not asked for in vain.

## Contents
- `edited_path`, `edited_place`: what can be written to.
- `edited_assignment`, `edited_condition`, `edited_forInit`: parts of statements.
- `edited_statement` and the readers it needs, in one recursion.
- `edited_items`: **two editions of a program are read as two editions of one tree**.
-/

namespace MiniC

open Cursor (reading broken)

variable {E : Edition}

/-! ## Places -/

/-- A slot for other tokens than identifiers keeps the lexeme. -/
theorem Slot.All.fixed {slot : Slot} (p : Kind → Bool) (hp : p .ident = false)
    (h : slot.All fun t => t ∈ E.text ∧ p t.kind = true) : slot.All Edition.Fixed :=
  fun t ht => .of_test (h t ht).2 hp

/-- Subscripts and member accesses do not change what a path begins with. -/
theorem lead_accesses (base : Expr) (c : Cursor) : (c.accesses base).tree.lead = base.lead := by
  rw [Cursor.accesses]
  split
  next taken hsome =>
    have hlt := taken.lt
    have hle := (taken.next.subscript base taken.token).le
    have hsize := taken.next.residue_le_size
    have hbase : (taken.next.subscript base taken.token).tree.lead = base.lead := by
      rw [Cursor.subscript]
      rfl
    exact (lead_accesses _ (taken.next.subscript base taken.token).next).trans hbase
  next =>
    split
    next => rfl
    next taken hsome =>
      have hlt := taken.lt
      have hle := (taken.next.identifier .memberName).le
      have hsize := taken.next.residue_le_size
      exact lead_accesses _ (taken.next.identifier .memberName).next
termination_by c.size

/-- Where a tree stops at a hole, the cursor broke. -/
theorem Tracks.broken_of_stop {P : Plan} {c c' : Cursor} {t : Trace} {hole : Hole}
    (h : Tracks P c c' t) (hstop : t.stop = some hole) : ∃ hole after, c' = broken hole after := by
  cases c with
  | broken hole after => exact ⟨_, _, h.1.of_broken.1⟩
  | reading ts =>
      rw [h.2 ts rfl] at hstop
      cases c' with
      | broken hole after => exact ⟨_, _, rfl⟩
      | reading us => cases hstop

section

variable {c c' : Cursor}

/-- What stands behind the name of a place. -/
theorem edited_path {slot : Slot} (hname : slot.All E.Names)
    (hbroken : ∀ hole, slot = .missing hole → ∃ hole after, c = broken hole after)
    (h : c.Edited E c') :
    (c.accesses slot.asVar).Edited E
      (fun path path' => ∀ stars, Place.Edited E ⟨stars, path⟩ ⟨stars.map E.token, path'⟩)
      (c'.accesses (E.slot slot).asVar) := by
  cases slot with
  | found t =>
      have hpath := edited_accesses (.var hname.of_found) h
      exact ⟨fun stars => .named hpath.tree (lead_accesses (.var t) c) hname.of_found, hpath.next⟩
  | missing hole =>
      obtain ⟨hole', after, rfl⟩ := hbroken hole rfl
      cases h with
      | broken htext =>
          rw [Cursor.accesses, Cursor.accesses]
          exact .here (fun _ => .missing) (.broken htext)

theorem edited_place (h : c.Edited E c') :
    c.place.Edited E (Place.Edited E) c'.place := by
  refine edited_before h _ fun stars c₁ c₁' h₁ => ?_
  have hname := edited_identifier h₁ .assignmentTarget
  have hbroken : ∀ hole, (c₁.identifier .assignmentTarget).tree = .missing hole →
      ∃ hole after, (c₁.identifier .assignmentTarget).next = broken hole after :=
    fun hole hmissing => (tracks_expect c₁ .ident .assignmentTarget).broken_of_stop
      (congrArg (Trace.stop ∘ Slot.trace) hmissing)
  have hpath := edited_path hname.tree.2 hbroken hname.next
  rw [← hname.tree.1] at hpath
  exact ⟨hpath.tree stars, hpath.next⟩

/-- The name of a place in a message. -/
theorem lexeme_lead {path path' : Expr} {name : Token} (hpath : path.Edited E path')
    (hlead : path.lead = some name) (hname : E.Names name) :
    (path'.lead.map Token.lexeme).getD "" = E.name ((path.lead.map Token.lexeme).getD "") := by
  rw [hpath.lead, hlead]
  exact hname.lexeme

theorem edited_writing {place place' : Place} (hplace : place.Edited E place')
    (hbroken : ∀ hole, place.path = .missing hole → ∃ hole after, c = broken hole after)
    (h : c.Edited E c') :
    (c.writing place).Edited E (Assignment.Edited E) (c'.writing place') := by
  unfold Cursor.writing
  rcases h.take? Kind.isStep with ⟨hnone, hnone'⟩ | ⟨_, _, hsome, hsome', ht⟩
  · rw [hnone, hnone']
    rcases h.take? (· == .operator .assign) with ⟨hnone, hnone'⟩ | ⟨_, _, hsome, hsome', ht⟩
    · rw [hnone, hnone']
      rcases h.take? Kind.isUpdate with ⟨hnone, hnone'⟩ | ⟨_, _, hsome, hsome', ht⟩
      · rw [hnone, hnone']
        refine Parsed.Edited.atMost ?_
        cases hplace with
        | named hpath hlead hname =>
            rw [lexeme_lead hpath hlead hname]
            exact edited_lacking h (.assignmentOperator _) (.missing (.named hpath hlead hname))
        | missing =>
            -- the cursor is broken, so nothing is asked for any more
            obtain ⟨hole', after, rfl⟩ := hbroken _ rfl
            cases h with
            | broken htext => exact ⟨.missing .missing, .broken htext⟩
      · rw [hsome, hsome']
        refine ht.andThen fun c₁ c₁' _ _ h₁ => ?_
        exact (edited_expression h₁).atMost.map fun hvalue =>
          .update hplace (.of_test ht.kind rfl) hvalue
    · rw [hsome, hsome']
      refine ht.andThen fun c₁ c₁' _ _ h₁ => ?_
      exact (edited_expression h₁).atMost.map fun hvalue => .store hplace hvalue
  · rw [hsome, hsome']
    exact ht.andThen fun c₁ c₁' _ _ h₁ => .here (.stepAfter hplace (.of_test ht.kind rfl)) h₁

theorem edited_assignment (h : c.Edited E c') :
    c.assignment.Edited E (Assignment.Edited E) c'.assignment := by
  unfold Cursor.assignment
  rcases h.take? Kind.isStep with ⟨hnone, hnone'⟩ | ⟨_, _, hsome, hsome', ht⟩
  · rw [hnone, hnone']
    -- what is written to has no name only if the cursor broke there
    have hplace := edited_place h
    have hbroken : ∀ hole, c.place.tree.path = .missing hole →
        ∃ hole after, c.place.next = broken hole after :=
      fun hole hmissing => (tracks_place c).broken_of_stop
        (congrArg (Trace.stop ∘ Expr.trace) hmissing)
    have hwriting := edited_writing hplace.tree hbroken hplace.next
    exact ⟨hwriting.tree, hwriting.next⟩
  · rw [hsome, hsome']
    refine ht.opens fun c₁ c₁' _ _ h₁ => ?_
    exact ((edited_place h₁).map fun hplace => .stepBefore (.of_test ht.kind rfl) hplace).atMost

/-! ## Parts of control statements -/

theorem edited_condition (h : c.Edited E c') (ruled : Ruled) :
    (c.condition ruled).Edited E (Condition.Edited E) (c'.condition ruled) := by
  refine (edited_expect h _ _).andThen ?_
  rintro opening _ c₁ c₁' _ _ ⟨rfl, -⟩ h₁
  refine (edited_expression h₁).atMost.andThen fun test test' c₂ c₂' _ _ htest h₂ => ?_
  refine (edited_expect h₂ _ _).atMost.map ?_
  rintro closing _ ⟨rfl, -⟩
  exact .mk htest

theorem edited_forInit (h : c.Edited E c') :
    c.forInit.Edited E (ForInit.Edited E) c'.forInit := by
  unfold Cursor.forInit
  rcases h.take? (· == .punct .semicolon) with ⟨hnone, hnone'⟩ | ⟨_, _, hsome, hsome', ht⟩
  · rw [hnone, hnone']
    dsimp only
    rw [h.sees]
    split
    next => exact (edited_declaration h).atMost.map fun hd => .declaration hd
    next =>
      refine (edited_assignment h).atMost.andThen fun a a' c₁ c₁' _ _ ha h₁ => ?_
      refine (edited_expect h₁ _ _).atMost.map ?_
      rintro semicolon _ ⟨rfl, -⟩
      exact .assignment ha
  · rw [hsome, hsome']
    exact ht.andThen fun c₁ c₁' _ _ h₁ => .here .none h₁

theorem edited_expressionUnless (h : c.Edited E c') (mark : Kind) :
    (c.expressionUnless mark).Edited E (Option.Rel (Expr.Edited E))
      (c'.expressionUnless mark) := by
  unfold Cursor.expressionUnless
  rw [h.sees]
  split
  next => exact .here .none h
  next => exact (edited_expression h).atMost.map fun he => .some he

theorem edited_assignmentUnless (h : c.Edited E c') (mark : Kind) :
    (c.assignmentUnless mark).Edited E (Option.Rel (Assignment.Edited E))
      (c'.assignmentUnless mark) := by
  unfold Cursor.assignmentUnless
  rw [h.sees]
  split
  next => exact .here .none h
  next => exact (edited_assignment h).atMost.map fun ha => .some ha

/-! ## Simple statements -/

theorem edited_exit {keyword : Token} (h : c.Edited E c') :
    (c.exit keyword).Edited E (Stmt.Edited E) (c'.exit (E.token keyword)) := by
  unfold Cursor.exit
  rcases h.take? (· == .punct .semicolon) with ⟨hnone, hnone'⟩ | ⟨_, _, hsome, hsome', ht⟩
  · rw [hnone, hnone']
    refine (edited_expression h).atMost.andThen fun value value' c₁ c₁' _ _ hvalue h₁ => ?_
    refine (edited_expect h₁ _ _).atMost.map ?_
    rintro semicolon _ ⟨rfl, -⟩
    exact .exitWith hvalue
  · rw [hsome, hsome']
    exact ht.andThen fun c₁ c₁' _ _ h₁ => .here .exit h₁

theorem edited_jump {keyword : Token} {kind : Kind} (hkind : keyword.kind = kind)
    (hfixed : kind ≠ .ident) (h : c.Edited E c') :
    ((c.expect (.punct .semicolon) (.jumpEnd keyword.lexeme)).atMost.map
      (Stmt.jump keyword)).Edited E (Stmt.Edited E)
        ((c'.expect (.punct .semicolon) (.jumpEnd (E.token keyword).lexeme)).atMost.map
          (.jump (E.token keyword))) := by
  have hkeyword : Edition.Fixed keyword := .of_kind hkind hfixed
  rw [hkeyword.lexeme]
  refine (edited_expect h _ _).atMost.map ?_
  rintro semicolon _ ⟨rfl, -⟩
  exact .jump hkeyword

theorem edited_printf {name : Token} (h : c.Edited E c') :
    (c.printf name).Edited E (Stmt.Edited E) (c'.printf (E.token name)) := by
  refine (edited_expect h _ _).atMost.andThen ?_
  rintro opening _ c₁ c₁' _ _ ⟨rfl, -⟩ h₁
  refine (edited_expression h₁).atMost.andThen fun format format' c₂ c₂' _ _ hformat h₂ => ?_
  refine (edited_trail h₂).andThen fun arguments arguments' c₃ c₃' _ _ harguments h₃ => ?_
  refine (edited_expect h₃ _ _).atMost.andThen ?_
  rintro closing _ c₄ c₄' _ _ ⟨rfl, -⟩ h₄
  refine (edited_expect h₄ _ _).atMost.map ?_
  rintro semicolon _ ⟨rfl, -⟩
  exact .printf hformat harguments

theorem edited_scanf {name : Token} (h : c.Edited E c') :
    (c.scanf name).Edited E (Stmt.Edited E) (c'.scanf (E.token name)) := by
  refine (edited_expect h _ _).atMost.andThen ?_
  rintro opening _ c₁ c₁' _ _ ⟨rfl, -⟩ h₁
  refine (edited_expect h₁ _ _).atMost.andThen ?_
  rintro format _ c₂ c₂' _ _ ⟨rfl, hformat⟩ h₂
  refine (edited_trail h₂).andThen fun arguments arguments' c₃ c₃' _ _ harguments h₃ => ?_
  refine (edited_expect h₃ _ _).atMost.andThen ?_
  rintro closing _ c₄ c₄' _ _ ⟨rfl, -⟩ h₄
  refine (edited_expect h₄ _ _).atMost.map ?_
  rintro semicolon _ ⟨rfl, -⟩
  exact .scanf (.fixed (· == .literal .string) rfl hformat) harguments

theorem edited_callStatement {name opening : Token} (hname : E.Names name) (h : c.Edited E c') :
    (c.callStatement name opening).Edited E (Stmt.Edited E)
      (c'.callStatement (E.token name) (E.token opening)) := by
  refine (edited_call hname h).atMost.andThen fun call call' c₁ c₁' _ _ hcall h₁ => ?_
  refine (edited_expect h₁ _ _).atMost.map ?_
  rintro semicolon _ ⟨rfl, -⟩
  exact .call hcall

theorem edited_assignmentStatement (h : c.Edited E c') :
    c.assignmentStatement.Edited E (Stmt.Edited E) c'.assignmentStatement := by
  refine (edited_assignment h).andThen fun a a' c₁ c₁' _ _ ha h₁ => ?_
  refine (edited_expect h₁ _ _).atMost.map ?_
  rintro semicolon _ ⟨rfl, -⟩
  exact .assignment ha

/-- The names that open a formatted call are kept, and no other name becomes one of them. -/
theorem edited_named {name : Token} {ts : List Token} (hname : E.Names name)
    (htext : name :: ts ⊆ E.text) :
    (Cursor.named name ts).Edited E (Stmt.Edited E)
      (Cursor.named (E.token name) (ts.map E.token)) := by
  have h : (reading ts).Edited E (reading (ts.map E.token)) := .behind htext
  have hlexeme : ∀ {text : String} (_ : E.name name.lexeme = text ↔ name.lexeme = text),
      (E.token name).lexeme = text ↔ name.lexeme = text := by
    intro text htext
    rwa [hname.lexeme]
  refine .ite (hlexeme Edition.name_eq_printf) (fun _ => edited_printf h) fun _ => ?_
  refine .ite (hlexeme Edition.name_eq_scanf) (fun _ => edited_scanf h) fun _ => ?_
  -- any other name is that of a function if a parenthesis follows, and else of a variable
  rcases h.take? (· == .punct .lparen) with ⟨hnone, hnone'⟩ | ⟨_, _, hsome, hsome', ht⟩
  · rw [hnone, hnone']
    exact edited_assignmentStatement (.reading htext)
  · rw [hsome, hsome']
    exact ht.andThen fun c₁ c₁' _ _ h₁ => edited_callStatement hname h₁

end

/-! ## Statements -/

mutual

theorem edited_statement : ∀ {c c' : Cursor}, c.Edited E c' →
    c.statement.Edited E (Stmt.Edited E) c'.statement
  | _, _, .broken htext => by
      rw [Cursor.statement, Cursor.statement]
      · exact edited_lacking (.broken htext) .statement .missing
      all_goals exact fun _ _ hc => nomatch hc
  | _, _, @Cursor.Edited.reading _ [] htext => by
      rw [List.map_nil, Cursor.statement]
      · exact edited_lacking (.reading htext) .statement .missing
      all_goals exact fun _ _ hc => nomatch hc
  | _, _, @Cursor.Edited.reading _ (t :: ts) htext => by
      have hsize := Cursor.size_reading ts
      have h₁ : (reading ts).Edited E (reading (ts.map E.token)) := .behind htext
      rw [List.map_cons, Cursor.statement, Cursor.statement, Edition.kind_token]
      split
      next => exact edited_declared (.reading htext)
      next =>
        split
        next =>
          refine (edited_condition h₁ _).atMost.andThen
            fun condition condition' c₁ c₁' hle _ hcondition h₁ => ?_
          refine (edited_statement h₁).atMost.andThen fun body body' c₂ c₂' hle₂ _ hbody h₂ => ?_
          rcases h₂.take? (· == .keyword .kwElse) with
            ⟨hnone, hnone'⟩ | ⟨_, _, hsome, hsome', ht⟩
          · rw [hnone, hnone']
            exact .here (.ifThen hcondition hbody) h₂
          · rw [hsome, hsome']
            refine ht.andThen fun c₃ c₃' hlt _ h₃ => ?_
            exact (edited_statement h₃).atMost.map fun halternative =>
              .ifElse hcondition hbody halternative
        next =>
          refine (edited_condition h₁ _).atMost.andThen
            fun condition condition' c₁ c₁' hle _ hcondition h₁ => ?_
          exact (edited_statement h₁).atMost.map fun hbody => .whileLoop hcondition hbody
        next =>
          refine (edited_statement h₁).atMost.andThen fun body body' c₁ c₁' _ _ hbody h₁ => ?_
          refine (edited_expect h₁ _ _).atMost.andThen ?_
          rintro whileWord _ c₂ c₂' _ _ ⟨rfl, -⟩ h₂
          refine (edited_condition h₂ _).atMost.andThen
            fun condition condition' c₃ c₃' _ _ hcondition h₃ => ?_
          refine (edited_expect h₃ _ _).atMost.map ?_
          rintro semicolon _ ⟨rfl, -⟩
          exact .doWhile hbody hcondition
        next =>
          refine (edited_expect h₁ _ _).atMost.andThen ?_
          rintro opening _ c₁ c₁' hle₁ _ ⟨rfl, -⟩ h₁
          refine (edited_forInit h₁).andThen fun init init' c₂ c₂' hle₂ _ hinit h₂ => ?_
          refine (edited_expressionUnless h₂ _).andThen
            fun test test' c₃ c₃' hle₃ _ htest h₃ => ?_
          refine (edited_expect h₃ _ _).atMost.andThen ?_
          rintro semicolon _ c₄ c₄' hle₄ _ ⟨rfl, -⟩ h₄
          refine (edited_assignmentUnless h₄ _).andThen
            fun update update' c₅ c₅' hle₅ _ hupdate h₅ => ?_
          refine (edited_expect h₅ _ _).atMost.andThen ?_
          rintro closing _ c₆ c₆' hle₆ _ ⟨rfl, -⟩ h₆
          exact (edited_statement h₆).atMost.map fun hbody => .forLoop hinit htest hupdate hbody
        next =>
          refine (edited_expect h₁ _ _).atMost.andThen ?_
          rintro opening _ c₁ c₁' hle₁ _ ⟨rfl, -⟩ h₁
          refine (edited_expression h₁).atMost.andThen
            fun subject subject' c₂ c₂' hle₂ _ hsubject h₂ => ?_
          refine (edited_expect h₂ _ _).atMost.andThen ?_
          rintro closing _ c₃ c₃' hle₃ _ ⟨rfl, -⟩ h₃
          refine (edited_expect h₃ _ _).atMost.andThen ?_
          rintro bodyStart _ c₄ c₄' hle₄ _ ⟨rfl, -⟩ h₄
          refine (edited_clauses h₄).andThen fun clauses clauses' c₅ c₅' _ _ hclauses h₅ => ?_
          refine (edited_expect h₅ _ _).atMost.map ?_
          rintro bodyEnd _ ⟨rfl, -⟩
          exact .switch hsubject hclauses
        next => exact edited_exit h₁
        next hkind => exact edited_jump hkind nofun h₁
        next hkind => exact edited_jump hkind nofun h₁
        -- a label outside a switch
        next => exact edited_lacking (.reading htext) .switchAroundLabel .missing
        next => exact edited_lacking (.reading htext) .switchAroundLabel .missing
        next hkind =>
          have hname : E.Names t := ⟨htext List.mem_cons_self, by rw [hkind]; rfl⟩
          rcases h₁.take? (· == .punct .lparen) with
            ⟨hnone, hnone'⟩ | ⟨_, _, hsome, hsome', ht⟩
          · rw [hnone, hnone']
            exact edited_lacking (.reading htext) .statement .missing
          · rw [hsome, hsome']
            exact ht.andThen fun c₂ c₂' _ _ h₂ => edited_callStatement hname h₂
        next => exact edited_block (.reading htext)
        next => exact .here .blank h₁
        next => exact .here .blank h₁
        next hkind => exact edited_named ⟨htext List.mem_cons_self, by rw [hkind]; rfl⟩ htext
        next => exact edited_assignmentStatement (.reading htext)
        next => exact edited_assignmentStatement (.reading htext)
        next => exact edited_assignmentStatement (.reading htext)
        next hif hwhile hdo hfor hswitch hreturn hbreak hcontinue hcase hdefault hmain hlbrace
            hsemicolon hdirective hident hstar hplusPlus hminusMinus =>
          -- No statement begins with the token, nor with the edited one, which is of the same kind.
          have hnone := edited_lacking (R := Stmt.Edited E) (.reading htext) .statement .missing
          generalize t.kind = kind at *
          cases kind with
          | literal class_ => exact hnone
          | ident => contradiction
          | directive => contradiction
          | keyword k => cases k <;> first | contradiction | exact hnone
          | operator o => cases o <;> first | contradiction | exact hnone
          | punct m => cases m <;> first | contradiction | exact hnone
          | eof => exact hnone
termination_by c => 8 * c.size + 5
decreasing_by
  all_goals
    simp only [Cursor.size_reading, List.length_cons] at *
    omega

theorem edited_declared {c c' : Cursor} (h : c.Edited E c') :
    c.declared.Edited E (Stmt.Edited E) c'.declared := by
  rw [Cursor.declared, Cursor.declared]
  rcases edited_structDecl? h with ⟨hnone, hnone'⟩ | ⟨_, _, hsome, hsome', hs⟩
  · rw [hnone, hnone']
    dsimp only
    rw [h.unread, startsFunction_map (f := E.token) fun _ => rfl]
    split
    next => exact edited_function h
    next => exact (edited_declaration h).map fun hd => .declaration hd
  · rw [hsome, hsome']
    exact hs.map fun hs => .struct hs
termination_by 8 * c.size + 4

theorem edited_function {c c' : Cursor} (h : c.Edited E c') :
    c.function.Edited E (Stmt.Edited E) c'.function := by
  have hsize := c.residue_le_size
  rw [Cursor.function, Cursor.function]
  refine (edited_header h).andThen fun header header' c₁ c₁' hle _ hheader h₁ => ?_
  rcases h₁.take? (· == .punct .semicolon) with ⟨hnone, hnone'⟩ | ⟨_, _, hsome, hsome', ht⟩
  · rw [hnone, hnone']
    exact (edited_block h₁).atMost.map fun hbody => .function hheader hbody
  · rw [hsome, hsome']
    exact ht.andThen fun c₂ c₂' _ _ h₂ => .here (.prototype hheader) h₂
termination_by 8 * c.size + 3

theorem edited_block {c c' : Cursor} (h : c.Edited E c') :
    c.block.Edited E (Stmt.Edited E) c'.block := by
  rw [Cursor.block, Cursor.block]
  rcases h.take? (· == .punct .lbrace) with ⟨hnone, hnone'⟩ | ⟨_, _, hsome, hsome', ht⟩
  · rw [hnone, hnone']
    exact edited_lacking h (.token (.punct .lbrace) .blockStart) .missing
  · rw [hsome, hsome']
    refine ht.opens fun c₁ c₁' hlt _ h₁ => ?_
    refine (edited_statements h₁).andThen fun body body' c₂ c₂' _ _ hbody h₂ => ?_
    refine (edited_expect h₂ _ _).atMost.map ?_
    rintro closing _ ⟨rfl, -⟩
    exact .block hbody
termination_by 8 * c.size + 2

theorem edited_statements : ∀ {c c' : Cursor}, c.Edited E c' →
    c.statements.Edited E (Stmts.Edited E) c'.statements
  | _, _, .broken htext => by
      rw [Cursor.statements, Cursor.statements]
      · exact .here .nil (.broken htext)
      all_goals exact fun _ _ hc => nomatch hc
  | _, _, @Cursor.Edited.reading _ [] htext => by
      rw [List.map_nil, Cursor.statements]
      · exact .here .nil (.reading htext)
      all_goals exact fun _ _ hc => nomatch hc
  | _, _, @Cursor.Edited.reading _ (t :: ts) htext => by
      rw [List.map_cons, Cursor.statements, Cursor.statements, Edition.kind_token]
      split
      next => exact .here .nil (.reading htext)
      next =>
        refine Parsed.Edited.atMost ?_
        refine (edited_statement (.reading htext)).andThen
          fun first first' c₁ c₁' hle _ hfirst h₁ => ?_
        exact (edited_statements h₁.mend).map fun hrest => .cons hfirst hrest
termination_by c => 8 * c.size + 6
decreasing_by
  all_goals
    simp only [Cursor.size_mend, Cursor.size_reading, Cursor.residue_cons, List.length_cons] at *
    omega

theorem edited_clauses : ∀ {c c' : Cursor}, c.Edited E c' →
    c.clauses.Edited E (Clauses.Edited E) c'.clauses
  | _, _, .broken htext => by
      rw [Cursor.clauses, Cursor.clauses]
      · exact .here .nil (.broken htext)
      all_goals exact fun _ _ hc => nomatch hc
  | _, _, @Cursor.Edited.reading _ [] htext => by
      rw [List.map_nil, Cursor.clauses]
      · exact .here .nil (.reading htext)
      all_goals exact fun _ _ hc => nomatch hc
  | _, _, @Cursor.Edited.reading _ (t :: ts) htext => by
      have h₁ : (reading ts).Edited E (reading (ts.map E.token)) := .behind htext
      rw [List.map_cons, Cursor.clauses, Cursor.clauses, Edition.kind_token]
      split
      next => exact .here .nil (.reading htext)
      next =>
        refine Parsed.Edited.weaken ?_
        refine (edited_demand h₁ _ rfl).atMost.andThen ?_
        rintro value _ c₁ c₁' hle _ ⟨rfl, hvalue⟩ h₁
        refine (edited_expect h₁ _ _).atMost.andThen ?_
        rintro colon _ c₂ c₂' hle₂ _ ⟨rfl, -⟩ h₂
        have hfixed := Slot.All.fixed
          (fun kind => kind == .literal .int || kind == .literal .char) rfl hvalue
        exact (edited_clauses h₂.mend).map fun hrest => .case hfixed hrest
      next =>
        refine Parsed.Edited.weaken ?_
        refine (edited_expect h₁ _ _).atMost.andThen ?_
        rintro colon _ c₁ c₁' hle _ ⟨rfl, -⟩ h₁
        exact (edited_clauses h₁.mend).map fun hrest => .default hrest
      next hrbrace hcase hdefault =>
        have hstmt := ((edited_statement (.reading htext)).andThen
          fun first first' c₁ c₁' hle _ hfirst h₁ =>
            (edited_clauses h₁.mend).map fun hrest => Clauses.Edited.stmt hfirst hrest).atMost
        generalize t.kind = kind at *
        cases kind with
        | keyword k => cases k <;> first | contradiction | exact hstmt
        | punct m => cases m <;> first | contradiction | exact hstmt
        | _ => exact hstmt
termination_by c => 8 * c.size + 6
decreasing_by
  all_goals
    simp only [Cursor.size_mend, Cursor.size_reading, Cursor.residue_cons, List.length_cons] at *
    omega

end

/-! ## Programs -/

theorem edited_item {c c' : Cursor} (h : c.Edited E c') :
    c.item.Edited E (Stmt.Edited E) c'.item := by
  cases h with
  | broken htext => exact edited_lacking (.broken htext) .declaration .missing
  | @reading ts htext =>
      cases ts with
      | nil => exact edited_lacking (.reading htext) .declaration .missing
      | cons t ts =>
          refine .ite Iff.rfl (fun _ => .here .blank (.behind htext)) fun _ => ?_
          refine .ite Iff.rfl (fun _ => edited_declared (.reading htext)) fun _ => ?_
          exact edited_lacking (.reading htext) .declaration .missing

/-- **Two editions of a program are read as two editions of one tree.** -/
theorem edited_items {c c' : Cursor} (h : c.Edited E c') :
    c.items.Edited E (List.Forall₂ (Stmt.Edited E)) c'.items :=
  edited_recovering (fun _ _ => edited_item) h

end MiniC
