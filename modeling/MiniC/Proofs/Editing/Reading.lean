import MiniC.Proofs.Editing.Cursors

/-!
# `MiniC.Proofs.Editing.Reading` — expressions and declarations read in two editions

Each reader is unfolded once in both editions.  The kinds of the tokens decide which way it goes,
so it goes the same way in both, and the trees are put together from related parts.

## Contents
- `edited_expression` and the levels below it, in one recursion.
- `edited_declaration`, `edited_structDecl?`, `edited_header`: declarations.
-/

namespace MiniC

open Cursor (reading broken)

variable {E : Edition}

/-! ## Type specifiers -/

/-- A type: words, which are no names, or a struct with its name. -/
theorem edited_typeSpec {c c' : Cursor} (h : c.Edited E c') :
    c.typeSpec.Edited E (TypeSpec.Edited E) c'.typeSpec := by
  cases h with
  | broken htext => exact edited_lacking (.broken htext) .typeSpecifier .missing
  | @reading ts htext =>
      cases ts with
      | nil => exact edited_lacking (.reading htext) .typeSpecifier .missing
      | cons t ts =>
          rw [List.map_cons, Cursor.typeSpec, Cursor.typeSpec, Edition.kind_token]
          split
          next =>
            refine (edited_identifier (.behind htext) .structName).atMost.map ?_
            rintro name _ ⟨rfl, hname⟩
            exact .struct hname
          next =>
            split
            next =>
              refine (edited_run (.behind htext) _).map ?_
              rintro rest _ ⟨rfl, -⟩
              exact .words
            next => exact edited_lacking (.reading htext) .typeSpecifier .missing

/-- Stars in front of a name. -/
theorem edited_stars {c c' : Cursor} (h : c.Edited E c') :
    c.stars.parsed.Edited E (fun ts ts' => ts' = ts.map E.token) c'.stars.parsed := by
  have hrun := edited_run h (· == .operator .star)
  exact ⟨hrun.tree.1, hrun.next⟩

/-! ## Expressions -/

theorem Tier.not_has_ident (tier : Tier) : tier.has .ident = false := by
  cases tier <;> rfl

/-- Steps behind a path are no names. -/
theorem edited_stepped {path path' : Expr} {steps : List Token} (hpath : path.Edited E path')
    (hsteps : ∀ t ∈ steps, t.kind.isStep = true) :
    (steps.foldl .stepped path).Edited E ((steps.map E.token).foldl .stepped path') := by
  induction steps generalizing path path' with
  | nil => exact hpath
  | cons step steps ih =>
      obtain ⟨hstep, hsteps⟩ := List.forall_mem_cons.1 hsteps
      exact ih (.stepped hpath (.of_test hstep rfl)) hsteps

/-- A sign in front of an operand is no name. -/
theorem edited_unary {t : Token} {kind : Kind} {m m' : Nat} {r : Parsed Expr m}
    {r' : Parsed Expr m'} (hkind : t.kind = kind) (hfixed : kind ≠ .ident)
    (h : r.Edited E (Expr.Edited E) r') :
    (r.map (.unary t)).Edited E (Expr.Edited E) (r'.map (.unary (E.token t))) :=
  h.map fun hoperand => .unary (.of_kind hkind hfixed) hoperand

mutual

/-- Whether `?` follows is told by its kind. -/
theorem edited_expression {c c' : Cursor} (h : c.Edited E c') :
    c.expression.Edited E (Expr.Edited E) c'.expression := by
  have hsize := c.residue_le_size
  rw [Cursor.expression, Cursor.expression]
  refine (edited_operation .logical h).andThen
    fun condition condition' c₁ c₁' hle _ hcondition h₁ => ?_
  rcases h₁.take? (· == .punct .question) with ⟨hnone, hnone'⟩ | ⟨_, _, hsome, hsome', ht⟩
  · rw [hnone, hnone']
    exact .here hcondition h₁
  · rw [hsome, hsome']
    refine ht.andThen fun c₂ c₂' hlt _ h₂ => ?_
    refine (edited_expression h₂).atMost.andThen fun first first' c₃ c₃' hle₃ _ hfirst h₃ => ?_
    refine (edited_expect h₃ _ _).atMost.andThen ?_
    rintro colon _ c₄ c₄' hle₄ _ ⟨rfl, -⟩ h₄
    exact (edited_expression h₄).atMost.map fun hsecond => .conditional hcondition hfirst hsecond
termination_by 16 * c.size + 10

/-- An operand, then operators of the tier. -/
theorem edited_operation (tier : Tier) {c c' : Cursor} (h : c.Edited E c') :
    (c.operation tier).Edited E (Expr.Edited E) (c'.operation tier) := by
  have hsize := c.residue_le_size
  rw [Cursor.operation, Cursor.operation]
  exact (edited_operand tier h).andThen
    fun first first' c₁ c₁' hle _ hfirst h₁ => edited_operations tier hfirst h₁
termination_by 16 * c.size + 2 * tier.rank + 3

/-- An operand of a tier is an operation of the next. -/
theorem edited_operand (tier : Tier) {c c' : Cursor} (h : c.Edited E c') :
    (c.operand tier).Edited E (Expr.Edited E) (c'.operand tier) := by
  cases tier with
  | logical =>
      rw [Cursor.operand, Cursor.operand]
      exact edited_operation .relational h
  | relational =>
      rw [Cursor.operand, Cursor.operand]
      exact edited_operation .additive h
  | additive =>
      rw [Cursor.operand, Cursor.operand]
      exact edited_operation .multiplicative h
  | multiplicative =>
      rw [Cursor.operand, Cursor.operand]
      exact edited_factor h
termination_by 16 * c.size + 2 * tier.rank + 2

/-- An operator and its right operand at a time. -/
theorem edited_operations (tier : Tier) {c c' : Cursor} {left left' : Expr}
    (hleft : left.Edited E left') (h : c.Edited E c') :
    (c.operations tier left).Edited E (Expr.Edited E) (c'.operations tier left') := by
  rw [Cursor.operations, Cursor.operations]
  rcases h.take? tier.has with ⟨hnone, hnone'⟩ | ⟨_, _, hsome, hsome', ht⟩
  · rw [hnone, hnone']
    exact .here hleft h
  · rw [hsome, hsome']
    have hrank := tier.rank_le
    refine ht.andThen fun c₁ c₁' hlt _ h₁ => ?_
    refine (edited_operand tier h₁).atMost.andThen
      fun right right' c₂ c₂' hle _ hright h₂ => ?_
    exact edited_operations tier (.binary hleft (.of_test ht.kind tier.not_has_ident) hright) h₂
termination_by 16 * c.size + 2

/-- An element, with one index or without. -/
theorem edited_factor {c c' : Cursor} (h : c.Edited E c') :
    c.factor.Edited E (Expr.Edited E) c'.factor := by
  have hsize := c.residue_le_size
  rw [Cursor.factor, Cursor.factor]
  refine (edited_element h).andThen fun base base' c₁ c₁' hle _ hbase h₁ => ?_
  rcases h₁.take? (· == .punct .lbracket) with ⟨hnone, hnone'⟩ | ⟨_, _, hsome, hsome', ht⟩
  · rw [hnone, hnone']
    exact .here hbase h₁
  · rw [hsome, hsome']
    exact ht.andThen fun c₂ c₂' hlt _ h₂ => (edited_subscript hbase h₂).atMost
termination_by 16 * c.size + 1

/-- An index behind a base that was read before. -/
theorem edited_subscript {c c' : Cursor} {base base' : Expr} {opening : Token}
    (hbase : base.Edited E base') (h : c.Edited E c') :
    (c.subscript base opening).Edited E (Expr.Edited E)
      (c'.subscript base' (E.token opening)) := by
  rw [Cursor.subscript, Cursor.subscript]
  refine (edited_expression h).andThen fun index index' c₁ c₁' _ _ hindex h₁ => ?_
  refine (edited_expect h₁ _ _).atMost.map ?_
  rintro closing _ ⟨rfl, -⟩
  exact .index hbase hindex
termination_by 16 * c.size + 11

/-- Indices and members, as long as their kinds come. -/
theorem edited_accesses {c c' : Cursor} {base base' : Expr} (hbase : base.Edited E base')
    (h : c.Edited E c') :
    (c.accesses base).Edited E (Expr.Edited E) (c'.accesses base') := by
  rw [Cursor.accesses, Cursor.accesses]
  rcases h.take? (· == .punct .lbracket) with ⟨hnone, hnone'⟩ | ⟨_, _, hsome, hsome', ht⟩
  · rw [hnone, hnone']
    rcases h.take? (·.access?.isSome) with ⟨hnone, hnone'⟩ | ⟨_, _, hsome, hsome', ht⟩
    · rw [hnone, hnone']
      exact .here hbase h
    · rw [hsome, hsome']
      refine ht.andThen fun c₁ c₁' hlt _ h₁ => ?_
      refine (edited_identifier h₁ _).atMost.andThen ?_
      rintro field _ c₂ c₂' hle _ ⟨rfl, hfield⟩ h₂
      exact edited_accesses (.member hbase hfield) h₂
  · rw [hsome, hsome']
    refine ht.andThen fun c₁ c₁' hlt _ h₁ => ?_
    exact (edited_subscript hbase h₁).atMost.andThen
      fun base base' c₂ c₂' hle _ hbase h₂ => edited_accesses hbase h₂
termination_by 16 * c.size + 12

/-- A call has the name of a function and its arguments. -/
theorem edited_call {c c' : Cursor} {name opening : Token} (hname : E.Names name)
    (h : c.Edited E c') :
    (c.call name opening).Edited E (Expr.Edited E)
      (c'.call (E.token name) (E.token opening)) := by
  rw [Cursor.call, Cursor.call, h.sees]
  split
  next =>
    refine (edited_expect h _ _).map ?_
    rintro closing _ ⟨rfl, -⟩
    exact .emptyCall hname
  next =>
    have hsize := c.residue_le_size
    refine (edited_expression h).andThen fun first first' c₁ c₁' hle _ hfirst h₁ => ?_
    refine (edited_trail h₁).andThen fun others others' c₂ c₂' _ _ hothers h₂ => ?_
    refine (edited_expect h₂ _ _).atMost.map ?_
    rintro closing _ ⟨rfl, -⟩
    exact .call hname hfirst hothers
termination_by 16 * c.size + 12

/-- Arguments behind the first, one comma at a time. -/
theorem edited_trail {c c' : Cursor} (h : c.Edited E c') :
    c.trail.Edited E (Trail.Edited E) c'.trail := by
  rw [Cursor.trail, Cursor.trail]
  rcases h.take? (· == .punct .comma) with ⟨hnone, hnone'⟩ | ⟨_, _, hsome, hsome', ht⟩
  · rw [hnone, hnone']
    exact .here .nil h
  · rw [hsome, hsome']
    refine ht.andThen fun c₁ c₁' hlt _ h₁ => ?_
    refine (edited_expression h₁).atMost.andThen
      fun argument argument' c₂ c₂' hle _ hargument h₂ => ?_
    exact (edited_trail h₂).map fun hrest => .cons hargument hrest
termination_by 16 * c.size + 11

/-- Whether `sizeof` is asked of a type is told by kinds. -/
theorem edited_sizeofOperand {c c' : Cursor} {keyword : Token} (h : c.Edited E c') :
    (c.sizeofOperand keyword).Edited E (Expr.Edited E) (c'.sizeofOperand (E.token keyword)) := by
  have hsize := c.residue_le_size
  rw [Cursor.sizeofOperand, Cursor.sizeofOperand]
  refine (edited_expect h _ _).andThen ?_
  rintro opening _ c₁ c₁' hle _ ⟨rfl, -⟩ h₁
  rw [h₁.sees]
  split
  next =>
    refine (edited_typeSpec h₁).atMost.andThen fun spec spec' c₂ c₂' _ _ hspec h₂ => ?_
    refine (edited_stars h₂).andThen ?_
    rintro stars _ c₃ c₃' _ _ rfl h₃
    refine (edited_expect h₃ _ _).atMost.map ?_
    rintro closing _ ⟨rfl, -⟩
    exact .sizeofType hspec
  next =>
    refine (edited_expression h₁).atMost.andThen
      fun operand operand' c₂ c₂' _ _ hoperand h₂ => ?_
    refine (edited_expect h₂ _ _).atMost.map ?_
    rintro closing _ ⟨rfl, -⟩
    exact .sizeofExpr hoperand
termination_by 16 * c.size + 12

/-- The first token tells by its kind what is read. A name counts only as one. -/
theorem edited_element : ∀ {c c' : Cursor}, c.Edited E c' →
    c.element.Edited E (Expr.Edited E) c'.element
  | _, _, .broken htext => by
      rw [Cursor.element, Cursor.element]
      · exact edited_lacking (.broken htext) .expression .missing
      all_goals exact fun _ _ hc => nomatch hc
  | _, _, @Cursor.Edited.reading _ [] htext => by
      rw [List.map_nil, Cursor.element]
      · exact edited_lacking (.reading htext) .expression .missing
      all_goals exact fun _ _ hc => nomatch hc
  | _, _, @Cursor.Edited.reading _ (t :: ts) htext => by
      have hsize := Cursor.size_reading ts
      have h₁ : (reading ts).Edited E (reading (ts.map E.token)) := .behind htext
      rw [List.map_cons, Cursor.element, Cursor.element, Edition.kind_token]
      split
      next => exact (edited_element h₁).atMost.map fun hoperand => .deref hoperand
      next => exact (edited_element h₁).atMost.map fun hoperand => .address hoperand
      next hkind => exact edited_unary hkind nofun (edited_element h₁).atMost
      next hkind => exact edited_unary hkind nofun (edited_element h₁).atMost
      next hkind => exact edited_unary hkind nofun (edited_element h₁).atMost
      next hkind => exact edited_unary hkind nofun (edited_element h₁).atMost
      next => exact (edited_sizeofOperand h₁).atMost
      next => exact .here .literal h₁
      next =>
        refine (edited_expression h₁).atMost.andThen fun inner inner' c₂ c₂' hle _ hinner h₂ => ?_
        refine (edited_expect h₂ _ _).atMost.andThen ?_
        rintro closing _ c₃ c₃' hle₃ _ ⟨rfl, -⟩ h₃
        exact edited_accesses (.group hinner) h₃
      next hkind =>
        have hname : E.Names t := ⟨htext List.mem_cons_self, by rw [hkind]; rfl⟩
        rcases h₁.take? (· == .punct .lparen) with
          ⟨hnone, hnone'⟩ | ⟨_, _, hsome, hsome', ht⟩
        · rw [hnone, hnone']
          refine (edited_accesses (.var hname) h₁).andThen
            fun path path' c₂ c₂' _ _ hpath h₂ => ?_
          refine (edited_run h₂ _).map ?_
          rintro steps _ ⟨rfl, hsteps⟩
          exact edited_stepped hpath hsteps
        · rw [hsome, hsome']
          exact ht.andThen fun c₂ c₂' hlt _ h₂ => (edited_call hname h₂).atMost
      next hkind =>
        have hname : E.Names t := ⟨htext List.mem_cons_self, by rw [hkind]; rfl⟩
        rcases h₁.take? (· == .punct .lparen) with
          ⟨hnone, hnone'⟩ | ⟨_, _, hsome, hsome', ht⟩
        · rw [hnone, hnone']
          exact edited_lacking (.reading htext) .expression .missing
        · rw [hsome, hsome']
          exact ht.andThen fun c₂ c₂' hlt _ h₂ => (edited_call hname h₂).atMost
      next hstar hamp hbang hminus hplusPlus hminusMinus hsizeof hliteral hlparen hident hmain =>
        -- no element begins with the token
        have hnone := edited_lacking (R := Expr.Edited E) (.reading htext) .expression .missing
        generalize t.kind = kind at *
        cases kind with
        | literal class_ => exact (hliteral class_ rfl).elim
        | ident => contradiction
        | directive => exact hnone
        | keyword k => cases k <;> first | contradiction | exact hnone
        | operator o => cases o <;> first | contradiction | exact hnone
        | punct m => cases m <;> first | contradiction | exact hnone
        | eof => exact hnone
termination_by c => 16 * c.size

end

/-! ## Variables -/

section Declarations

variable {c c' : Cursor}

/-- Brackets with a size. -/
theorem edited_arraySuffix (h : c.Edited E c') :
    c.arraySuffix.Edited E (fun a a' => a' = a.map E.arraySuffix) c'.arraySuffix := by
  unfold Cursor.arraySuffix
  rcases h.take? (· == .punct .lbracket) with ⟨hnone, hnone'⟩ | ⟨_, _, hsome, hsome', ht⟩
  · rw [hnone, hnone']
    exact .here rfl h
  · rw [hsome, hsome']
    refine ht.andThen fun c₁ c₁' _ _ h₁ => ?_
    refine (edited_demand h₁ _ rfl).atMost.andThen ?_
    rintro size _ c₂ c₂' _ _ ⟨rfl, -⟩ h₂
    refine (edited_expect h₂ _ _).atMost.map ?_
    rintro closing _ ⟨rfl, -⟩
    rfl

/-- An initial value belongs to a declarator, with whatever stands in front of it. -/
theorem edited_initializer (h : c.Edited E c') :
    c.initializer.Edited E
      (fun i i' => ∀ stars name (array : Option ArraySuffix), name.All E.Names →
        Declarator.Edited E ⟨stars, name, array, i⟩
          ⟨stars.map E.token, E.slot name, array.map E.arraySuffix, i'⟩)
      c'.initializer := by
  unfold Cursor.initializer
  rcases h.take? (· == .operator .assign) with ⟨hnone, hnone'⟩ | ⟨_, _, hsome, hsome', ht⟩
  · rw [hnone, hnone']
    exact .here (fun _ _ _ hname => .plain hname) h
  · rw [hsome, hsome']
    refine ht.andThen fun c₁ c₁' _ _ h₁ => ?_
    exact (edited_expression h₁).atMost.map fun hvalue _ _ _ hname => .init hname hvalue

/-- A name with its stars, its brackets and its value. -/
theorem edited_declarator (h : c.Edited E c') :
    c.declarator.Edited E (Declarator.Edited E) c'.declarator := by
  refine (edited_stars h).andThen ?_
  rintro stars _ c₁ c₁' _ _ rfl h₁
  refine (edited_identifier h₁ _).atMost.andThen ?_
  rintro name _ c₂ c₂' _ _ ⟨rfl, hname⟩ h₂
  refine (edited_arraySuffix h₂).andThen ?_
  rintro array _ c₃ c₃' _ _ rfl h₃
  exact (edited_initializer h₃).map fun hinit => hinit stars name array hname

/-- A type and declarators between commas. -/
theorem edited_declaration (h : c.Edited E c') :
    c.declaration.Edited E (Declaration.Edited E) c'.declaration := by
  refine edited_before h _ fun qualifiers c₁ c₁' h₁ => ?_
  refine (edited_typeSpec h₁).andThen fun spec spec' c₂ c₂' _ _ hspec h₂ => ?_
  refine (edited_declarator h₂).andThen fun first first' c₃ c₃' _ _ hfirst h₃ => ?_
  refine (edited_commaSeparated (fun _ _ => edited_declarator) h₃).andThen
    fun others others' c₄ c₄' _ _ hothers h₄ => ?_
  refine (edited_expect h₄ _ _).atMost.map ?_
  rintro semicolon _ ⟨rfl, -⟩
  exact .mk hspec hfirst hothers

/-! ## Structs -/

/-- A field of a struct. -/
theorem edited_field (h : c.Edited E c') :
    c.field.Edited E (Field.Edited E) c'.field := by
  refine edited_before h _ fun qualifiers c₁ c₁' h₁ => ?_
  refine (edited_typeSpec h₁).andThen fun spec spec' c₂ c₂' _ _ hspec h₂ => ?_
  refine (edited_stars h₂).andThen ?_
  rintro stars _ c₃ c₃' _ _ rfl h₃
  refine (edited_identifier h₃ _).atMost.andThen ?_
  rintro name _ c₄ c₄' _ _ ⟨rfl, hname⟩ h₄
  refine (edited_arraySuffix h₄).andThen ?_
  rintro array _ c₅ c₅' _ _ rfl h₅
  refine (edited_expect h₅ _ _).atMost.map ?_
  rintro semicolon _ ⟨rfl, -⟩
  exact .mk hspec hname

theorem edited_fields (h : c.Edited E c') :
    c.fields.Edited E (List.Forall₂ (Field.Edited E)) c'.fields :=
  edited_recovering (fun _ _ => edited_field) h

/-- A definition of a struct begins in both editions or in none. -/
theorem edited_structDecl? (h : c.Edited E c') :
    (c.structDecl? = none ∧ c'.structDecl? = none) ∨
      ∃ s s', c.structDecl? = some s ∧ c'.structDecl? = some s' ∧
        s.Edited E (StructDecl.Edited E) s' := by
  unfold Cursor.structDecl?
  -- three tokens are looked at before anything is read: one case for each that may be another
  rcases h.take? (· == .keyword .kwStruct) with
    ⟨hnone, hnone'⟩ | ⟨keyword, keyword', hsome, hsome', hkeyword⟩
  · rw [hnone, hnone']
    exact .inl ⟨rfl, rfl⟩
  rcases hkeyword.next.take? (· == .ident) with
    ⟨hnone, hnone'⟩ | ⟨name, name', hname, hname', htname⟩
  · simp only [hsome, hsome', Option.bind_eq_bind, Option.bind_some, hnone, hnone']
    exact .inl ⟨rfl, rfl⟩
  rcases htname.next.take? (· == .punct .lbrace) with
    ⟨hnone, hnone'⟩ | ⟨opening, opening', hopening, hopening', htopening⟩
  · simp only [hsome, hsome', Option.bind_eq_bind, Option.bind_some, hname, hname', hnone, hnone']
    exact .inl ⟨rfl, rfl⟩
  simp only [hsome, hsome', Option.bind_eq_bind, Option.bind_some, hname, hname', hopening,
    hopening', hkeyword.token, htname.token, htopening.token]
  refine .inr ⟨_, _, rfl, rfl, ?_⟩
  refine ((Parsed.Edited.weaken ?_).weaken).weaken
  refine (edited_fields htopening.next).andThen fun fields fields' c₁ c₁' _ _ hfields h₁ => ?_
  refine (edited_expect h₁ _ _).atMost.andThen ?_
  rintro closing _ c₂ c₂' _ _ ⟨rfl, -⟩ h₂
  refine (edited_expect h₂ _ _).atMost.map ?_
  rintro semicolon _ ⟨rfl, -⟩
  exact .mk ⟨htname.text, by rw [eq_of_beq htname.kind]; rfl⟩ hfields

/-! ## Functions -/

theorem edited_paramArray (h : c.Edited E c') :
    c.paramArray.Edited E (fun a a' => a' = a.map E.paramArray) c'.paramArray := by
  unfold Cursor.paramArray
  rcases h.take? (· == .punct .lbracket) with ⟨hnone, hnone'⟩ | ⟨_, _, hsome, hsome', ht⟩
  · rw [hnone, hnone']
    exact .here rfl h
  · rw [hsome, hsome']
    refine ht.andThen fun c₁ c₁' _ _ h₁ => ?_
    refine (edited_optional h₁ _).andThen ?_
    rintro size _ c₂ c₂' _ _ rfl h₂
    refine (edited_expect h₂ _ _).atMost.map ?_
    rintro closing _ ⟨rfl, -⟩
    rfl

/-- A parameter. -/
theorem edited_param (h : c.Edited E c') :
    c.param.Edited E (Param.Edited E) c'.param := by
  refine (edited_run h _).andThen ?_
  rintro qualifiers _ c₁ c₁' _ _ ⟨rfl, -⟩ h₁
  refine (edited_typeSpec h₁).atMost.andThen fun spec spec' c₂ c₂' _ _ hspec h₂ => ?_
  refine (edited_stars h₂).andThen ?_
  rintro stars _ c₃ c₃' _ _ rfl h₃
  refine (edited_identifier h₃ _).atMost.andThen ?_
  rintro name _ c₄ c₄' _ _ ⟨rfl, hname⟩ h₄
  refine (edited_paramArray h₄).map ?_
  rintro array _ rfl
  exact .mk hspec hname

/-- A lone `void` stands in both editions or in none. -/
theorem edited_loneVoid? (h : c.Edited E c') :
    (c.loneVoid? = none ∧ c'.loneVoid? = none) ∨
      ∃ taken taken', c.loneVoid? = some taken ∧ c'.loneVoid? = some taken' ∧
        taken.Edited E (· == .keyword (.type .void)) taken' := by
  unfold Cursor.loneVoid?
  rcases h.take? (· == .keyword (.type .void)) with
    ⟨hnone, hnone'⟩ | ⟨taken, taken', hsome, hsome', ht⟩
  · rw [hnone, hnone']
    exact .inl ⟨rfl, rfl⟩
  · simp only [hsome, hsome', Option.bind_eq_bind, Option.bind_some, ht.next.sees]
    split
    next => exact .inr ⟨taken, taken', rfl, rfl, ht⟩
    next => exact .inl ⟨rfl, rfl⟩

/-- Whether `void` stands alone is told by kinds. -/
theorem edited_params (h : c.Edited E c') :
    c.params.Edited E (Params.Edited E) c'.params := by
  unfold Cursor.params
  rw [h.sees]
  split
  next => exact .here .none h
  next =>
    rcases edited_loneVoid? h with ⟨hnone, hnone'⟩ | ⟨_, _, hsome, hsome', ht⟩
    · rw [hnone, hnone']
      refine (edited_param h).andThen fun first first' c₁ c₁' _ _ hfirst h₁ => ?_
      exact (edited_commaSeparated (fun _ _ => edited_param) h₁).map fun hothers =>
        .list hfirst hothers
    · rw [hsome, hsome']
      exact ht.andThen fun c₁ c₁' _ _ h₁ => .here .void h₁

/-- The header of a function up to its closing parenthesis. -/
theorem edited_header (h : c.Edited E c') :
    c.header.Edited E (Header.Edited E) c'.header := by
  refine edited_before h _ fun qualifiers c₁ c₁' h₁ => ?_
  refine (edited_typeSpec h₁).andThen fun spec spec' c₂ c₂' _ _ hspec h₂ => ?_
  refine (edited_stars h₂).andThen ?_
  rintro stars _ c₃ c₃' _ _ rfl h₃
  refine (edited_demand h₃ _ rfl).atMost.andThen ?_
  rintro name _ c₄ c₄' _ _ ⟨rfl, hname⟩ h₄
  refine (edited_expect h₄ _ _).atMost.andThen ?_
  rintro opening _ c₅ c₅' _ _ ⟨rfl, -⟩ h₅
  refine (edited_params h₅).andThen fun params params' c₆ c₆' _ _ hparams h₆ => ?_
  refine (edited_expect h₆ _ _).atMost.map ?_
  rintro closing _ ⟨rfl, -⟩
  exact .mk hspec hname hparams

end Declarations

end MiniC
