import MiniC.Proofs.Reading.Spells
import MiniC.Proofs.Reading.Stmt

/-!
# `MiniC.Proofs.Reading.Text` — a program is what was read of it

Each reader of the grammar, unfolded once: the tokens that it takes are those of its tree, unless
the tree has a hole.

## Contents
- `spells_expression` and the rules it needs, in one recursion.
- `spells_declaration`, `spells_structDecl`, `spells_header`.
- `spells_statement` and the rules it needs, in one recursion.
- `spells_items`: **a program without holes has the tokens that it was read from.**
-/

namespace MiniC

open Cursor (reading broken)

/-! ## Expressions -/

/-- Which reader an element is read with is told from its first token. -/
theorem Cursor.element_cases {t : Token} {ts : List Token}
    {p : Parsed Expr (reading (t :: ts)).residue → Prop}
    (deref : t.kind = .operator .star → p ((reading ts).element.atMost.map (.deref t)))
    (address : t.kind = .operator .amp → p ((reading ts).element.atMost.map (.address t)))
    (unary : t.kind.isSign = true → p ((reading ts).element.atMost.map (.unary t)))
    (sizeof : t.kind = .keyword .kwSizeof → p ((reading ts).sizeofOperand t).atMost)
    (literal : ∀ class_, t.kind = .literal class_ → p (.here (.literal class_ t) (reading ts)))
    (group : t.kind = .punct .lparen →
      p ((reading ts).expression.atMost.andThen fun inner c₁ _ =>
        (c₁.expect (.punct .rparen) .groupEnd).atMost.andThen fun closing c₂ _ =>
          c₂.accesses (.group t inner closing)))
    (call : t.kind = .ident ∨ t.kind = .keyword .kwMain → ∀ taken,
      (reading ts).take? (· == .punct .lparen) = some taken →
        p (taken.andThen fun opening c₁ _ => (c₁.call t opening).atMost))
    (path : t.kind = .ident →
      p (((reading ts).accesses (.var t)).andThen fun path c₁ _ =>
        (c₁.takeWhile Kind.isStep).parsed.map (·.foldl .stepped path)))
    (missing : p ((reading (t :: ts)).lacking .expression .missing)) :
    p (reading (t :: ts)).element := by
  have hsign : ∀ {kind}, t.kind = kind → kind.isSign = true →
      p ((reading ts).element.atMost.map (.unary t)) := fun hkind h => unary (hkind ▸ h)
  rw [Cursor.element]
  split
  next hkind => exact deref hkind
  next hkind => exact address hkind
  next hkind => exact hsign hkind rfl
  next hkind => exact hsign hkind rfl
  next hkind => exact hsign hkind rfl
  next hkind => exact hsign hkind rfl
  next hkind => exact sizeof hkind
  next class_ hkind => exact literal class_ hkind
  next hkind => exact group hkind
  next hkind =>
    split
    next taken hsome => exact call (.inl hkind) taken hsome
    next => exact path hkind
  next hkind =>
    split
    next taken hsome => exact call (.inr hkind) taken hsome
    next => exact missing
  next hstar hamp hbang hminus hplusPlus hminusMinus hsizeof hliteral hlparen hident hmain =>
    clear deref address unary sizeof literal group call path hsign
    generalize t.kind = kind at *
    cases kind with
    | literal class_ => exact (hliteral class_ rfl).elim
    | keyword k => cases k <;> first | contradiction | exact missing
    | operator o => cases o <;> first | contradiction | exact missing
    | punct m => cases m <;> first | contradiction | exact missing
    | _ => first | contradiction | exact missing

/-- Steps behind a path lengthen its text and leave its trace. -/
theorem tokens_stepped (path : Expr) (steps : List Token) :
    (steps.foldl Expr.stepped path).tokens = path.tokens ++ steps := by
  induction steps generalizing path with
  | nil => exact (List.append_nil _).symm
  | cons step steps ih =>
      rw [List.foldl_cons, ih, Expr.tokens, List.append_assoc]
      rfl

mutual

/-- A condition, and behind a `?` its branches. -/
theorem spells_expression (c : Cursor) :
    Spells c c.expression.next c.expression.tree.trace c.expression.tree.tokens := by
  have hle := c.residue_le_size
  have hcondition := spells_operation .logical c
  have hle₁ := (c.operation .logical).le
  rw [Cursor.expression]
  simp only [Parsed.next_andThen, Parsed.tree_andThen]
  split
  next => exact hcondition
  next taken hsome =>
    have hlt := taken.lt
    have hfirst := spells_expression taken.next
    have hle₂ := taken.next.expression.le
    have hle₃ := taken.next.residue_le_size
    have hcolon := spells_expect taken.next.expression.next (.punct .colon) .ternaryColon
    have hle₄ := (taken.next.expression.next.expect (.punct .colon) .ternaryColon).le
    have hle₅ := taken.next.expression.next.residue_le_size
    have hsecond :=
      spells_expression (taken.next.expression.next.expect (.punct .colon) .ternaryColon).next
    exact hcondition.seq ((spells_take hsome).behind (hfirst.seq (hcolon.seq hsecond)))
termination_by 16 * c.size + 10

/-- An operand, then operators of the tier. -/
theorem spells_operation (tier : Tier) (c : Cursor) :
    Spells c (c.operation tier).next (c.operation tier).tree.trace
      (c.operation tier).tree.tokens := by
  have hle := c.residue_le_size
  have hfirst := spells_operand tier c
  have hle₁ := (c.operand tier).le
  obtain ⟨t, text, hrest, htree, htokens⟩ :=
    spells_operations tier (c.operand tier).tree (c.operand tier).next
  rw [Cursor.operation]
  simp only [Parsed.next_andThen, Parsed.tree_andThen]
  rw [htree, htokens]
  exact hfirst.seq hrest
termination_by 16 * c.size + 2 * tier.rank + 3

/-- An operand of a tier is an operation of the next. -/
theorem spells_operand (tier : Tier) (c : Cursor) :
    Spells c (c.operand tier).next (c.operand tier).tree.trace
      (c.operand tier).tree.tokens := by
  cases tier with
  | logical =>
      rw [Cursor.operand]
      exact spells_operation .relational c
  | relational =>
      rw [Cursor.operand]
      exact spells_operation .additive c
  | additive =>
      rw [Cursor.operand]
      exact spells_operation .multiplicative c
  | multiplicative =>
      rw [Cursor.operand]
      exact spells_factor c
termination_by 16 * c.size + 2 * tier.rank + 2

/-- The operators of a level lengthen what they follow. -/
theorem spells_operations (tier : Tier) (left : Expr) (c : Cursor) :
    ∃ t text, Spells c (c.operations tier left).next t text ∧
      (c.operations tier left).tree.trace = left.trace.andThen t ∧
      (c.operations tier left).tree.tokens = left.tokens ++ text := by
  rw [Cursor.operations]
  split
  next => exact ⟨.clear, [], .nothing, by simp, by simp⟩
  next taken hsome =>
    have hrank := tier.rank_le
    have hlt := taken.lt
    have hle := taken.next.residue_le_size
    have hright := spells_operand tier taken.next
    have hle₁ := (taken.next.operand tier).le
    obtain ⟨t, text, hrest, htree, htokens⟩ := spells_operations tier
      (.binary tier left taken.token (taken.next.operand tier).tree)
      (taken.next.operand tier).next
    refine ⟨_, _, ((spells_take hsome).behind hright).seq hrest, ?_, ?_⟩
    · exact htree.trans (Trace.andThen_assoc _ _ _)
    · exact htokens.trans (List.append_assoc _ _ _)
termination_by 16 * c.size + 2

/-- An element, with one index or without. -/
theorem spells_factor (c : Cursor) :
    Spells c c.factor.next c.factor.tree.trace c.factor.tree.tokens := by
  have hle := c.residue_le_size
  have hbase := spells_element c
  have hle₁ := c.element.le
  rw [Cursor.factor]
  simp only [Parsed.next_andThen, Parsed.tree_andThen]
  split
  next => exact hbase
  next taken hsome =>
    have hlt := taken.lt
    obtain ⟨t, text, hsubscript, htree, htokens⟩ :=
      spells_subscript c.element.tree taken.token taken.next
    simp only [Parsed.next_atMost, Parsed.tree_atMost, Taken.andThen, Taken.within,
      Parsed.next_weaken, Parsed.tree_weaken, htree, htokens]
    exact hbase.seq ((spells_take hsome).behind hsubscript)
termination_by 16 * c.size + 1

/-- A subscript lengthens its base. -/
theorem spells_subscript (base : Expr) (opening : Token) (c : Cursor) :
    ∃ t text, Spells c (c.subscript base opening).next t text ∧
      (c.subscript base opening).tree.trace = base.trace.andThen t ∧
      (c.subscript base opening).tree.tokens = base.tokens ++ opening :: text := by
  have hindex := spells_expression c
  rw [Cursor.subscript]
  exact ⟨_, _, hindex.seq (spells_expect _ (.punct .rbracket) .indexEnd), rfl, rfl⟩
termination_by 16 * c.size + 11

/-- Subscripts and member accesses lengthen what they follow. -/
theorem spells_accesses (base : Expr) (c : Cursor) :
    ∃ t text, Spells c (c.accesses base).next t text ∧
      (c.accesses base).tree.trace = base.trace.andThen t ∧
      (c.accesses base).tree.tokens = base.tokens ++ text := by
  rw [Cursor.accesses]
  split
  next taken hsome =>
    have hlt := taken.lt
    have hle := taken.next.residue_le_size
    obtain ⟨t₁, text₁, hsubscript, htree₁, htokens₁⟩ :=
      spells_subscript base taken.token taken.next
    have hle₁ := (taken.next.subscript base taken.token).le
    obtain ⟨t₂, text₂, hrest, htree₂, htokens₂⟩ := spells_accesses
      (taken.next.subscript base taken.token).tree (taken.next.subscript base taken.token).next
    refine ⟨_, _, ((spells_take hsome).behind hsubscript).seq hrest, ?_, ?_⟩
    · rw [← Trace.andThen_assoc, ← htree₁]
      exact htree₂
    · refine htokens₂.trans ?_
      rw [htokens₁, List.append_assoc]
      rfl
  next =>
    split
    next => exact ⟨.clear, [], .nothing, by simp, by simp⟩
    next taken hsome =>
      have hlt := taken.lt
      have hle := taken.next.residue_le_size
      have hfield := spells_expect taken.next .ident .memberName
      have hle₁ := (taken.next.identifier .memberName).le
      obtain ⟨t, text, hrest, htree, htokens⟩ := spells_accesses
        (.member base (taken.token.kind.access?.getD .direct) taken.token
          (taken.next.identifier .memberName).tree) (taken.next.identifier .memberName).next
      refine ⟨_, _, ((spells_take hsome).behind hfield).seq hrest, ?_, ?_⟩
      · exact htree.trans (Trace.andThen_assoc _ _ _)
      · exact htokens.trans (List.append_assoc _ _ _)
termination_by 16 * c.size + 12

/-- Name and parenthesis stand in front of what is read here. -/
theorem spells_call (name opening : Token) (c : Cursor) :
    ∃ text, Spells c (c.call name opening).next (c.call name opening).tree.trace text ∧
      (c.call name opening).tree.tokens = name :: opening :: text := by
  rw [Cursor.call]
  by_cases hempty : c.sees (· == .punct .rparen) = true
  · rw [if_pos hempty]
    exact ⟨_, spells_expect c (.punct .rparen) .argumentsEnd, rfl⟩
  · rw [if_neg hempty]
    have hle := c.residue_le_size
    have hfirst := spells_expression c
    have hle₁ := c.expression.le
    have hothers := spells_trail c.expression.next
    have hclosing := spells_expect c.expression.next.trail.next (.punct .rparen) .argumentsEnd
    exact ⟨_, hfirst.seq (hothers.seq hclosing), rfl⟩
termination_by 16 * c.size + 12

/-- Arguments behind the first, one comma at a time. -/
theorem spells_trail (c : Cursor) :
    Spells c c.trail.next c.trail.tree.trace c.trail.tree.tokens := by
  rw [Cursor.trail]
  split
  next => exact .nothing
  next taken hsome =>
    have hlt := taken.lt
    have hle := taken.next.residue_le_size
    have hargument := spells_expression taken.next
    have hle₁ := taken.next.expression.le
    have hrest := spells_trail taken.next.expression.next
    exact (spells_take hsome).behind (hargument.seq hrest)
termination_by 16 * c.size + 11

/-- The word stands in front of what is read here. -/
theorem spells_sizeofOperand (keyword : Token) (c : Cursor) :
    ∃ text, Spells c (c.sizeofOperand keyword).next (c.sizeofOperand keyword).tree.trace text ∧
      (c.sizeofOperand keyword).tree.tokens = keyword :: text := by
  rw [Cursor.sizeofOperand]
  have hle := c.residue_le_size
  have hopening := spells_expect c (.punct .lparen) .sizeofStart
  have hle₁ := (c.expect (.punct .lparen) .sizeofStart).le
  simp only [Parsed.next_andThen, Parsed.tree_andThen]
  generalize (c.expect (.punct .lparen) .sizeofStart).next = c₁ at *
  by_cases hspec : c₁.sees Kind.startsTypeSpec = true
  · rw [if_pos hspec]
    have htype := spells_typeSpec c₁
    have hstars := spells_takeWhile c₁.typeSpec.next (· == .operator .star)
    have hclosing := spells_expect c₁.typeSpec.next.stars.next (.punct .rparen) .sizeofEnd
    exact ⟨_, hopening.seq (htype.seq (hstars.behind hclosing)), rfl⟩
  · rw [if_neg hspec]
    have hoperand := spells_expression c₁
    have hclosing := spells_expect c₁.expression.next (.punct .rparen) .sizeofEnd
    exact ⟨_, hopening.seq (hoperand.seq hclosing), rfl⟩
termination_by 16 * c.size + 12

/-- The first token is taken in every case but that of a hole. -/
theorem spells_element (c : Cursor) :
    Spells c c.element.next c.element.tree.trace c.element.tree.tokens := by
  match c with
  | reading (t :: ts) =>
      have hsize := Cursor.size_reading ts
      have htoken := spells_token t ts
      refine Cursor.element_cases
        (p := fun r => Spells (reading (t :: ts)) r.next r.tree.trace r.tree.tokens)
        ?deref ?address ?unary ?sizeof ?literal ?group ?call ?path ?missing
      case deref => exact fun _ => htoken.behind (spells_element (reading ts))
      case address => exact fun _ => htoken.behind (spells_element (reading ts))
      case unary => exact fun _ => htoken.behind (spells_element (reading ts))
      case sizeof =>
        intro _
        obtain ⟨text, hoperand, htokens⟩ := spells_sizeofOperand t (reading ts)
        rw [Parsed.tree_atMost, htokens]
        exact htoken.behind hoperand
      case literal => exact fun _ _ => htoken
      case group =>
        intro _
        have hinner := spells_expression (reading ts)
        have hle := (reading ts).expression.le
        have hle₁ := (reading ts).residue_le_size
        have hclosing := spells_expect (reading ts).expression.next (.punct .rparen) .groupEnd
        have hle₂ := ((reading ts).expression.next.expect (.punct .rparen) .groupEnd).le
        have hle₃ := (reading ts).expression.next.residue_le_size
        obtain ⟨tr, text, hrest, htree, htokens⟩ := spells_accesses
          (.group t (reading ts).expression.tree
            ((reading ts).expression.next.expect (.punct .rparen) .groupEnd).tree)
          ((reading ts).expression.next.expect (.punct .rparen) .groupEnd).next
        simp only [Parsed.next_andThen, Parsed.tree_andThen, Parsed.next_atMost,
          Parsed.tree_atMost, htree, htokens]
        exact (htoken.behind (hinner.seq hclosing)).seq hrest
      case call =>
        intro _ taken hsome
        have hlt := taken.lt
        obtain ⟨text, hcall, htokens⟩ := spells_call t taken.token taken.next
        simp only [Parsed.next_atMost, Parsed.tree_atMost, Taken.andThen, Taken.within,
          Parsed.next_weaken, Parsed.tree_weaken, htokens]
        exact htoken.behind ((spells_take hsome).behind hcall)
      case path =>
        intro _
        obtain ⟨tr, text, hpath, htree, htokens⟩ := spells_accesses (.var t) (reading ts)
        have hsteps := spells_takeWhile ((reading ts).accesses (.var t)).next Kind.isStep
        simp only [Parsed.next_andThen, Parsed.tree_andThen, Parsed.tree_map,
          Parsed.next_map, trace_stepped, tokens_stepped, htree, htokens]
        exact (htoken.seq hpath).before hsteps
      case missing => exact .stopped
  | reading [] =>
      rw [Cursor.element]
      · exact .stopped
      · exact fun _ _ hc => nomatch hc
  | broken hole after =>
      rw [Cursor.element]
      · exact .stopped
      · exact fun _ _ hc => nomatch hc
termination_by 16 * c.size

end

/-! ## Declarations -/

/-- Brackets with a size, or nothing. -/
theorem spells_arraySuffix (c : Cursor) :
    Spells c c.arraySuffix.next (c.arraySuffix.tree.elim .clear ArraySuffix.trace)
      (c.arraySuffix.tree.elim [] ArraySuffix.tokens) := by
  unfold Cursor.arraySuffix
  split
  next => exact .nothing
  next taken hsome =>
    exact (spells_take hsome).behind ((spells_demand taken.next _ _).seq (spells_expect _ _ _))

/-- A sign and a value, or nothing. -/
theorem spells_initializer (c : Cursor) :
    Spells c c.initializer.next (c.initializer.tree.elim .clear (·.2.trace))
      (initTokens c.initializer.tree) := by
  unfold Cursor.initializer
  split
  next => exact .nothing
  next taken hsome => exact (spells_take hsome).behind (spells_expression taken.next)

/-- Stars, a name, brackets and a value. -/
theorem spells_declarator (c : Cursor) :
    Spells c c.declarator.next c.declarator.tree.trace c.declarator.tree.tokens := by
  have hstars := spells_takeWhile c (· == .operator .star)
  have hname := spells_expect c.stars.next .ident .declaredName
  have harray := spells_arraySuffix (c.stars.next.identifier .declaredName).next
  have hinit := spells_initializer (c.stars.next.identifier .declaredName).next.arraySuffix.next
  exact hstars.behind (hname.seq (harray.seq hinit))

/-- Qualifiers, a type, declarators between commas and a semicolon. -/
theorem spells_declaration (c : Cursor) :
    Spells c c.declaration.next c.declaration.tree.trace c.declaration.tree.tokens := by
  have hqualifiers := spells_takeWhile c Kind.isQualifier
  have hspec := spells_typeSpec c.qualifiers.next
  have hfirst := spells_declarator c.qualifiers.next.typeSpec.next
  have hothers := spells_commaSeparated spells_declarator
    c.qualifiers.next.typeSpec.next.declarator.next
  have hsemicolon := spells_expect (c.qualifiers.next.typeSpec.next.declarator.next.commaSeparated
    Cursor.declarator).next (.punct .semicolon) .declarationEnd
  have hall := hqualifiers.behind (hspec.seq (hfirst.seq (hothers.seq hsemicolon)))
  rw [← Trace.andThen_assoc (Declarator.trace _)] at hall
  exact hall

theorem spells_field (c : Cursor) :
    Spells c c.field.next c.field.tree.trace c.field.tree.tokens := by
  have hqualifiers := spells_takeWhile c Kind.isQualifier
  have hspec := spells_typeSpec c.qualifiers.next
  have hstars := spells_takeWhile c.qualifiers.next.typeSpec.next (· == .operator .star)
  have hname := spells_expect c.qualifiers.next.typeSpec.next.stars.next .ident .fieldName
  have harray := spells_arraySuffix
    (c.qualifiers.next.typeSpec.next.stars.next.identifier .fieldName).next
  have hsemicolon := spells_expect
    (c.qualifiers.next.typeSpec.next.stars.next.identifier .fieldName).next.arraySuffix.next
    (.punct .semicolon) .fieldEnd
  exact hqualifiers.behind (hspec.seq (hstars.behind (hname.seq (harray.seq hsemicolon))))

/-- A struct is read only where three tokens tell that it is one. -/
theorem spells_structDecl {c : Cursor} {definition : Parsed StructDecl c.residue}
    (h : c.structDecl? = some definition) :
    Spells c definition.next definition.tree.trace definition.tree.tokens := by
  simp only [Cursor.structDecl?, Option.bind_eq_bind, Option.bind_eq_some_iff,
    Option.some.injEq] at h
  obtain ⟨keyword, hkeyword, name, hname, opening, hopening, rfl⟩ := h
  have hfields : Spells _ opening.next.fields.next _ _ :=
    spells_recovering spells_field opening.next
  have hclosing := spells_expect opening.next.fields.next (.punct .rbrace) .fieldsEnd
  have hsemicolon := spells_expect
    (opening.next.fields.next.expect (.punct .rbrace) .fieldsEnd).next (.punct .semicolon)
    .structEnd
  exact (spells_take hkeyword).behind ((spells_take hname).behind
    ((spells_take hopening).behind (hfields.seq (hclosing.seq hsemicolon))))

theorem spells_paramArray (c : Cursor) :
    Spells c c.paramArray.next (c.paramArray.tree.elim .clear (·.closing.trace))
      (c.paramArray.tree.elim [] ParamArray.tokens) := by
  unfold Cursor.paramArray
  split
  next => exact .nothing
  next taken hsome =>
    have hsize := spells_optional taken.next (· == .literal .int)
    exact (spells_take hsome).behind (hsize.behind (spells_expect _ _ _))

/-- Qualifiers, a type, stars, a name and brackets. -/
theorem spells_param (c : Cursor) :
    Spells c c.param.next c.param.tree.trace c.param.tree.tokens := by
  have hqualifiers := spells_takeWhile c Kind.isQualifier
  have hspec := spells_typeSpec c.qualifiers.next
  have hstars := spells_takeWhile c.qualifiers.next.typeSpec.next (· == .operator .star)
  have hname := spells_expect c.qualifiers.next.typeSpec.next.stars.next .ident .parameterName
  have harray := spells_paramArray
    (c.qualifiers.next.typeSpec.next.stars.next.identifier .parameterName).next
  exact hqualifiers.behind (hspec.seq (hstars.behind (hname.seq harray)))

theorem spells_loneVoid {c : Cursor} {taken : Taken c} (h : c.loneVoid? = some taken) :
    Spells c taken.next .clear [taken.token] := by
  obtain ⟨hword, -⟩ := Cursor.loneVoid?_eq_some.1 h
  exact spells_take hword

/-- Nothing, a lone `void`, or parameters between commas. -/
theorem spells_params (c : Cursor) :
    Spells c c.params.next c.params.tree.trace c.params.tree.tokens := by
  unfold Cursor.params
  split
  next => exact .nothing
  next =>
    split
    next taken hsome => exact spells_loneVoid hsome
    next => exact (spells_param c).seq (spells_commaSeparated spells_param c.param.next)

/-- From the qualifiers up to the closing parenthesis. -/
theorem spells_header (c : Cursor) :
    Spells c c.header.next c.header.tree.trace c.header.tree.tokens := by
  have hqualifiers := spells_takeWhile c Kind.isQualifier
  have hspec := spells_typeSpec c.qualifiers.next
  have hstars := spells_takeWhile c.qualifiers.next.typeSpec.next (· == .operator .star)
  have hname := spells_demand c.qualifiers.next.typeSpec.next.stars.next Kind.namesFunction
    .functionName
  generalize hc₄ : (c.qualifiers.next.typeSpec.next.stars.next.demand Kind.namesFunction
    .functionName).next = c₄ at hname
  have hopening := spells_expect c₄ (.punct .lparen) .parametersStart
  have hparams := spells_params (c₄.expect (.punct .lparen) .parametersStart).next
  have hclosing := spells_expect (c₄.expect (.punct .lparen) .parametersStart).next.params.next
    (.punct .rparen) .parametersEnd
  subst hc₄
  have hall := hqualifiers.behind (hspec.seq (hstars.behind (hname.seq (hopening.seq
    (hparams.seq hclosing)))))
  simp only [Header.tokens, Header.typeTokens, List.append_assoc]
  exact hall

/-! ## Parts of statements -/

theorem tokens_asVar (slot : Slot) : slot.asVar.tokens = slot.tokens := by
  cases slot <;> rfl

/-- Stars and a path. -/
theorem spells_place (c : Cursor) :
    Spells c c.place.next c.place.tree.path.trace c.place.tree.tokens := by
  have hstars := spells_takeWhile c (· == .operator .star)
  have hname := spells_expect c.stars.next .ident .assignmentTarget
  obtain ⟨t, text, hrest, htree, htokens⟩ :=
    spells_accesses (c.stars.next.identifier .assignmentTarget).tree.asVar
      (c.stars.next.identifier .assignmentTarget).next
  rw [trace_asVar] at htree
  rw [tokens_asVar] at htokens
  have hpath : c.place.tree.path.trace = _ := htree
  have htext : c.place.tree.path.tokens = _ := htokens
  rw [hpath, Place.tokens, htext]
  exact hstars.behind (hname.seq hrest)

/-- What is written lengthens the text of the place. -/
theorem spells_writing (place : Place) (c : Cursor) :
    ∃ t text, Spells c (c.writing place).next t text ∧
      (c.writing place).tree.trace = place.path.trace.andThen t ∧
      (c.writing place).tree.tokens = place.tokens ++ text := by
  unfold Cursor.writing
  split
  next taken hsome => exact ⟨_, _, spells_take hsome, (Trace.andThen_clear _).symm, rfl⟩
  next =>
    split
    next taken hsome =>
      exact ⟨_, _, (spells_take hsome).behind (spells_expression taken.next), rfl, rfl⟩
    next =>
      split
      next taken hsome =>
        exact ⟨_, _, (spells_take hsome).behind (spells_expression taken.next), rfl, rfl⟩
      next => exact ⟨_, [], .stopped, rfl, (List.append_nil _).symm⟩

/-- A step and a place, or a place and what is written to it. -/
theorem spells_assignment (c : Cursor) :
    Spells c c.assignment.next c.assignment.tree.trace c.assignment.tree.tokens := by
  unfold Cursor.assignment
  split
  next taken hsome => exact (spells_take hsome).behind (spells_place taken.next)
  next =>
    obtain ⟨t, text, hwriting, htree, htokens⟩ := spells_writing c.place.tree c.place.next
    simp only [Parsed.next_andThen, Parsed.tree_andThen, htree, htokens]
    exact (spells_place c).seq hwriting

theorem spells_condition (c : Cursor) (ruled : Ruled) :
    Spells c (c.condition ruled).next (c.condition ruled).tree.trace
      (c.condition ruled).tree.tokens := by
  have hopening := spells_expect c (.punct .lparen) (.conditionStart ruled)
  have htest := spells_expression (c.expect (.punct .lparen) (.conditionStart ruled)).next
  have hclosing := spells_expect
    (c.expect (.punct .lparen) (.conditionStart ruled)).next.expression.next (.punct .rparen)
    .conditionEnd
  exact hopening.seq (htest.seq hclosing)

/-- A semicolon alone, a declaration, or an assignment with its semicolon. -/
theorem spells_forInit (c : Cursor) :
    Spells c c.forInit.next c.forInit.tree.trace c.forInit.tree.tokens := by
  unfold Cursor.forInit
  split
  next taken hsome => exact spells_take hsome
  next =>
    split
    next => exact spells_declaration c
    next => exact (spells_assignment c).seq (spells_expect _ _ _)

theorem spells_expressionUnless (c : Cursor) (mark : Kind) :
    Spells c (c.expressionUnless mark).next
      ((c.expressionUnless mark).tree.elim .clear Expr.trace)
      ((c.expressionUnless mark).tree.elim [] Expr.tokens) := by
  unfold Cursor.expressionUnless
  split
  next => exact .nothing
  next => exact spells_expression c

theorem spells_assignmentUnless (c : Cursor) (mark : Kind) :
    Spells c (c.assignmentUnless mark).next
      ((c.assignmentUnless mark).tree.elim .clear Assignment.trace)
      ((c.assignmentUnless mark).tree.elim [] Assignment.tokens) := by
  unfold Cursor.assignmentUnless
  split
  next => exact .nothing
  next => exact spells_assignment c

/-! ## Simple statements -/

/-- A `return`, with a value or without. -/
theorem spells_exit (t : Token) (ts : List Token) :
    Spells (reading (t :: ts)) ((reading ts).exit t).next ((reading ts).exit t).tree.trace
      ((reading ts).exit t).tree.tokens := by
  unfold Cursor.exit
  split
  next taken hsome => exact (spells_token t ts).behind (spells_take hsome)
  next =>
    exact (spells_token t ts).behind ((spells_expression (reading ts)).seq (spells_expect _ _ _))

theorem spells_printf (t : Token) (ts : List Token) :
    Spells (reading (t :: ts)) ((reading ts).printf t).next ((reading ts).printf t).tree.trace
      ((reading ts).printf t).tree.tokens := by
  have hopening := spells_expect (reading ts) (.punct .lparen) .printfStart
  have hformat := spells_expression ((reading ts).expect (.punct .lparen) .printfStart).next
  have harguments := spells_trail
    ((reading ts).expect (.punct .lparen) .printfStart).next.expression.next
  exact (spells_token t ts).behind (hopening.seq (hformat.seq (harguments.seq
    ((spells_expect _ (.punct .rparen) .printfArgumentsEnd).seq
      (spells_expect _ (.punct .semicolon) .printfEnd)))))

theorem spells_scanf (t : Token) (ts : List Token) :
    Spells (reading (t :: ts)) ((reading ts).scanf t).next ((reading ts).scanf t).tree.trace
      ((reading ts).scanf t).tree.tokens := by
  have hopening := spells_expect (reading ts) (.punct .lparen) .scanfStart
  have hformat := spells_expect ((reading ts).expect (.punct .lparen) .scanfStart).next
    (.literal .string) .scanfFormat
  have harguments := spells_trail (((reading ts).expect (.punct .lparen) .scanfStart).next.expect
    (.literal .string) .scanfFormat).next
  exact (spells_token t ts).behind (hopening.seq (hformat.seq (harguments.seq
    ((spells_expect _ (.punct .rparen) .scanfArgumentsEnd).seq
      (spells_expect _ (.punct .semicolon) .scanfEnd)))))

theorem spells_callStatement {t : Token} {ts : List Token} {taken : Taken (reading ts)}
    (h : (reading ts).take? (· == .punct .lparen) = some taken) :
    Spells (reading (t :: ts)) (taken.next.callStatement t taken.token).next
      (taken.next.callStatement t taken.token).tree.trace
      (taken.next.callStatement t taken.token).tree.tokens := by
  obtain ⟨text, hcall, htokens⟩ := spells_call t taken.token taken.next
  have hsemicolon := spells_expect (taken.next.call t taken.token).next (.punct .semicolon)
    .callStatementEnd
  have htext : (taken.next.callStatement t taken.token).tree.tokens = _ :=
    congrArg (· ++ _) htokens
  rw [htext]
  exact (spells_token t ts).behind ((spells_take h).behind (hcall.seq hsemicolon))

theorem spells_assignmentStatement (c : Cursor) :
    Spells c c.assignmentStatement.next c.assignmentStatement.tree.trace
      c.assignmentStatement.tree.tokens :=
  (spells_assignment c).seq (spells_expect _ (.punct .semicolon) .assignmentEnd)

/-- A call or an assignment, told by the token behind the name. -/
theorem spells_named (t : Token) (ts : List Token) :
    Spells (reading (t :: ts)) (Cursor.named t ts).next (Cursor.named t ts).tree.trace
      (Cursor.named t ts).tree.tokens := by
  by_cases hprintf : t.lexeme = "printf"
  · have hnamed : Cursor.named t ts = (reading ts).printf t := if_pos hprintf
    rw [hnamed]
    exact spells_printf t ts
  · by_cases hscanf : t.lexeme = "scanf"
    · have hnamed : Cursor.named t ts = (reading ts).scanf t :=
        (if_neg hprintf).trans (if_pos hscanf)
      rw [hnamed]
      exact spells_scanf t ts
    · cases hparen : (reading ts).take? (· == .punct .lparen) with
      | some taken =>
          have hnamed : Cursor.named t ts =
              taken.within (taken.next.callStatement t taken.token) := by
            refine (if_neg hprintf).trans ((if_neg hscanf).trans ?_)
            rw [hparen]
            rfl
          rw [hnamed]
          exact spells_callStatement hparen
      | none =>
          have hnamed : Cursor.named t ts = (reading (t :: ts)).assignmentStatement := by
            refine (if_neg hprintf).trans ((if_neg hscanf).trans ?_)
            rw [hparen]
          rw [hnamed]
          exact spells_assignmentStatement (reading (t :: ts))

/-! ## Statements -/

mutual

/-- By the first token, which every statement has but one that is missing. -/
theorem spells_statement (c : Cursor) :
    Spells c c.statement.next c.statement.tree.trace c.statement.tree.tokens := by
  match c with
  | reading (t :: ts) =>
      have hsize := Cursor.size_reading ts
      have htoken := spells_token t ts
      rw [Cursor.statement]
      by_cases hdecl : t.kind.startsDeclaration = true
      · rw [if_pos hdecl]
        exact spells_declared (reading (t :: ts))
      · rw [if_neg hdecl]
        split
        next =>
          have hle := ((reading ts).condition .ifElse).le
          have hle₁ := (reading ts).residue_le_size
          have hcondition := spells_condition (reading ts) .ifElse
          have hbody := spells_statement ((reading ts).condition .ifElse).next
          have hle₂ := ((reading ts).condition .ifElse).next.statement.le
          have hle₃ := ((reading ts).condition .ifElse).next.residue_le_size
          simp only [Parsed.next_andThen, Parsed.tree_andThen, Parsed.next_atMost,
            Parsed.tree_atMost]
          split
          next => exact htoken.behind (hcondition.seq hbody)
          next taken hsome =>
            have hlt := taken.lt
            have halternative := (spells_take hsome).behind (spells_statement taken.next)
            exact htoken.behind (hcondition.seq (hbody.seq halternative))
        next =>
          have hle := ((reading ts).condition .whileLoop).le
          have hle₁ := (reading ts).residue_le_size
          exact htoken.behind ((spells_condition (reading ts) .whileLoop).seq
            (spells_statement ((reading ts).condition .whileLoop).next))
        next =>
          exact htoken.behind ((spells_statement (reading ts)).seq ((spells_expect _ _ _).seq
            ((spells_condition _ .doWhile).seq (spells_expect _ _ _))))
        next =>
          have hle := Cursor.size_behindFor (reading ts)
          have hbody := spells_statement (reading ts).behindFor
          exact htoken.behind ((spells_expect (reading ts) (.punct .lparen) .forStart).seq
            ((spells_forInit _).seq ((spells_expressionUnless _ _).seq ((spells_expect _ _ _).seq
              ((spells_assignmentUnless _ _).seq ((spells_expect _ _ _).seq hbody))))))
        next =>
          have hle := Cursor.size_behindSwitch (reading ts)
          have hclauses := spells_clauses (reading ts).behindSwitch
          exact htoken.behind ((spells_expect (reading ts) (.punct .lparen) .switchStart).seq
            ((spells_expression _).seq ((spells_expect _ _ _).seq ((spells_expect _ _ _).seq
              (hclauses.seq (spells_expect _ _ _))))))
        next => exact spells_exit t ts
        next => exact htoken.behind (spells_expect (reading ts) _ _)
        next => exact htoken.behind (spells_expect (reading ts) _ _)
        next => exact .stopped
        next => exact .stopped
        next =>
          split
          next taken hsome => exact spells_callStatement hsome
          next => exact .stopped
        next => exact spells_block (reading (t :: ts))
        next => exact htoken
        next => exact htoken
        next => exact spells_named t ts
        next => exact spells_assignmentStatement (reading (t :: ts))
        next => exact spells_assignmentStatement (reading (t :: ts))
        next => exact spells_assignmentStatement (reading (t :: ts))
        next hif hwhile hdo hfor hswitch hreturn hbreak hcontinue hcase hdefault hmain hlbrace
            hsemicolon hdirective hident hstar hplusPlus hminusMinus =>
          have hno : Spells (reading (t :: ts)) ((reading (t :: ts)).fail .statement)
              (.stopped ((reading (t :: ts)).hole .statement)) [] := .stopped
          generalize t.kind = kind at *
          cases kind with
          | keyword k => cases k <;> first | contradiction | exact hno
          | operator o => cases o <;> first | contradiction | exact hno
          | punct m => cases m <;> first | contradiction | exact hno
          | _ => first | contradiction | exact hno
  | reading [] =>
      rw [Cursor.statement]
      · exact .stopped
      · exact fun _ _ hc => nomatch hc
  | broken hole after =>
      rw [Cursor.statement]
      · exact .stopped
      · exact fun _ _ hc => nomatch hc
termination_by 8 * c.size + 5

/-- A struct, a function or a declaration. -/
theorem spells_declared (c : Cursor) :
    Spells c c.declared.next c.declared.tree.trace c.declared.tree.tokens := by
  rw [Cursor.declared]
  split
  next definition hsome => exact spells_structDecl hsome
  next =>
    split
    next => exact spells_function c
    next => exact spells_declaration c
termination_by 8 * c.size + 4

/-- A header, and a semicolon or a body. -/
theorem spells_function (c : Cursor) :
    Spells c c.function.next c.function.tree.trace c.function.tree.tokens := by
  have hle := c.residue_le_size
  have hle₁ := c.header.le
  rw [Cursor.function]
  simp only [Parsed.next_andThen, Parsed.tree_andThen]
  split
  next taken hsome => exact (spells_header c).before (spells_take hsome)
  next => exact (spells_header c).seq (spells_block c.header.next)
termination_by 8 * c.size + 3

/-- Statements between braces. -/
theorem spells_block (c : Cursor) :
    Spells c c.block.next c.block.tree.trace c.block.tree.tokens := by
  rw [Cursor.block]
  split
  next => exact .stopped
  next taken hsome =>
    have hlt := taken.lt
    have hbody := spells_statements taken.next
    exact (spells_take hsome).behind (hbody.seq (spells_expect _ _ _))
termination_by 8 * c.size + 2

/-- Statements up to a closing brace. Where none has a hole, nothing is skipped between them. -/
theorem spells_statements (c : Cursor) :
    Spells c c.statements.next c.statements.tree.trace c.statements.tree.tokens := by
  match c with
  | reading (t :: ts) =>
      rw [Cursor.statements]
      by_cases hend : (t.kind == .punct .rbrace) = true
      · rw [if_pos hend]
        exact .nothing
      · rw [if_neg hend]
        have hle := (reading (t :: ts)).statement.le
        have hfirst := spells_statement (reading (t :: ts))
        exact hfirst.mend (spells_statements (reading (t :: ts)).statement.next.mend)
  | reading [] =>
      rw [Cursor.statements]
      · exact .nothing
      · exact fun _ _ hc => nomatch hc
  | broken hole after => exact fun _ _ hc => nomatch hc
termination_by 8 * c.size + 6
decreasing_by
  all_goals
    simp only [Cursor.size_mend, Cursor.size_reading, Cursor.residue_cons, List.length_cons] at *
    omega

/-- Labels and statements up to a closing brace, in the same way. -/
theorem spells_clauses (c : Cursor) :
    Spells c c.clauses.next c.clauses.tree.trace c.clauses.tree.tokens := by
  match c with
  | reading (t :: ts) =>
      have hsize := Cursor.size_reading ts
      have htoken := spells_token t ts
      rw [Cursor.clauses]
      split
      next => exact .nothing
      next =>
        have hvalue := spells_demand (reading ts)
          (fun kind => kind == .literal .int || kind == .literal .char) .caseConstant
        have hle := Parsed.size_next_le ((reading ts).demand
          (fun kind => kind == .literal .int || kind == .literal .char) .caseConstant)
        generalize ((reading ts).demand (fun kind => kind == .literal .int ||
          kind == .literal .char) .caseConstant) = value at *
        have hle₁ := Parsed.size_next_le (value.next.expect (.punct .colon) .caseValueEnd)
        have hrest := spells_clauses (value.next.expect (.punct .colon) .caseValueEnd).next.mend
        have hclause := htoken.behind (hvalue.seq
          (spells_expect value.next (.punct .colon) .caseValueEnd))
        have hboth := hclause.mend hrest
        simp only [List.cons_append, List.append_assoc] at hboth
        exact hboth
      next =>
        have hle := Parsed.size_next_le ((reading ts).expect (.punct .colon) .defaultEnd)
        have hcolon := spells_expect (reading ts) (.punct .colon) .defaultEnd
        exact (htoken.behind hcolon).mend
          (spells_clauses ((reading ts).expect (.punct .colon) .defaultEnd).next.mend)
      next hrbrace hcase hdefault =>
        have hle := (reading (t :: ts)).statement.le
        have hboth := (spells_statement (reading (t :: ts))).mend
          (spells_clauses (reading (t :: ts)).statement.next.mend)
        generalize t.kind = kind at *
        cases kind with
        | keyword k => cases k <;> first | contradiction | exact hboth
        | punct m => cases m <;> first | contradiction | exact hboth
        | _ => exact hboth
  | reading [] =>
      rw [Cursor.clauses]
      · exact .nothing
      · exact fun _ _ hc => nomatch hc
  | broken hole after => exact fun _ _ hc => nomatch hc
termination_by 8 * c.size + 6
decreasing_by
  all_goals
    simp only [Cursor.size_mend, Cursor.size_reading, Cursor.residue_cons, List.length_cons] at *
    omega

end

/-! ## Programs -/

/-- A statement, or what is declared outside of functions. -/
theorem spells_item (c : Cursor) :
    Spells c c.item.next c.item.tree.trace c.item.tree.tokens := by
  match c with
  | broken hole after => exact .stopped
  | reading [] => exact .stopped
  | reading (t :: ts) =>
      refine Cursor.item_cases
        (p := fun r => Spells (reading (t :: ts)) r.next r.tree.trace r.tree.tokens)
        ?blank ?declared ?missing
      case blank => exact fun _ => spells_token t ts
      case declared => exact fun _ => spells_declared (reading (t :: ts))
      case missing => exact fun _ _ => .stopped

/-- **A program without holes has the tokens that it was read from.** -/
theorem spells_items (c : Cursor) :
    Spells c c.items.next (Trace.all (c.items.tree.map fun item => item.trace.settled))
      (c.items.tree.flatMap Stmt.tokens) :=
  spells_recovering spells_item c

end MiniC
