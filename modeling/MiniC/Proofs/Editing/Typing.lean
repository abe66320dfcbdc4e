import MiniC.Proofs.Editing.Findings

/-!
# `MiniC.Proofs.Editing.Typing` — expressions typed in two editions

The rules of types do not tell the types of one edition from those of the other, and names are only
compared, so an expression has the edited type and the edited faults.

## Contents
- `edited_resolve`, `edited_dereference`, …, `edited_callType`: one lemma for each rule.
- `Expr.Edited.typing`: **an expression has the same type in two editions**.
-/

namespace MiniC

variable {E : Edition} {σ σ' : Symbols}

/-! ## Type specifiers -/

/-- The type words of a specifier are told from the kinds of its tokens. -/
theorem typeWords_map (ts : List Token) :
    (ts.map E.token).filterMap Token.typeWord? = ts.filterMap Token.typeWord? := by
  rw [List.filterMap_map]
  rfl

/-- A type in words names no struct. -/
theorem base_ofWords (words : List TypeWord) : E.base (.ofWords words) = .ofWords words := by
  unfold BaseType.ofWords
  repeat' split
  all_goals rfl

/-- A struct that is named is declared in one edition iff it is in the other, or is the one around.
-/
theorem edited_resolve (hσ : σ.Edited E σ') (enclosing : Option String) {spec spec' : TypeSpec}
    (h : spec.Edited E spec') :
    (spec.resolve σ enclosing).Edited E (E.base · = ·)
      (spec'.resolve σ' (enclosing.map E.name)) := by
  cases h with
  | @words first rest =>
      refine .pure ((base_ofWords _).trans ?_)
      rw [← List.map_cons, typeWords_map]
  | struct hname =>
      refine (edited_get hname).bind ?_
      rintro name _ ⟨rfl, hname⟩
      rw [hname.lexeme]
      -- a field may mention its struct, under its own name
      have henclosing : (enclosing.map E.name == some (E.name name.lexeme)) =
          (enclosing == some name.lexeme) := by
        cases enclosing with
        | none => rfl
        | some outer => exact Edition.name_beq
      refine (Finding.Edited.complain ?_ (.undeclaredStruct name.lexeme) (some name)).bind
        fun _ _ _ => .pure rfl
      rw [isSome_edited (hσ.struct? name.lexeme), henclosing]
  | missing => exact .stop _

/-- Stars are counted, whatever they stand in front of. -/
theorem type_withStars (t : CType) (stars : List Token) :
    (E.type t).withStars (stars.map E.token) = E.type (t.withStars stars) := by
  induction stars generalizing t with
  | nil => rfl
  | cons star stars ih => exact ih t.withPointer

/-! ## Rules -/

theorem type_ofLiteral (class_ : Literal) : E.type (.ofLiteral class_) = .ofLiteral class_ := by
  cases class_ <;> rfl

/-- A star finds a pointer in both editions, or complains in both. -/
theorem edited_dereference (t : CType) (star : Token) :
    (dereference t star).Edited E (E.type · = ·) (dereference (E.type t) (E.token star)) := by
  unfold dereference
  rw [Edition.isUnknown_type, Edition.type_decayed, Edition.type_deref?]
  split
  · exact .pure rfl
  · cases t.decayed.deref? with
    | some target => exact .pure rfl
    | none => exact .reporting rfl

/-- An operand is numeric in both editions or in neither. -/
theorem edited_numericOperand {operator : Token} (hoperator : Edition.Fixed operator)
    (t : CType) :
    (numericOperand operator t).Edited E (E.type · = ·)
      (numericOperand (E.token operator) (E.type t)) := by
  unfold numericOperand
  rw [Edition.mayBeMet_type, hoperator.lexeme]
  split
  · exact .pure rfl
  · exact .reporting rfl

/-- Operands have the same ranks, so the result has. -/
theorem edited_arithmetic {operator : Token} (hoperator : Edition.Fixed operator)
    (left right : CType) :
    (arithmetic operator left right).Edited E (E.type · = ·)
      (arithmetic (E.token operator) (E.type left) (E.type right)) := by
  unfold arithmetic
  rw [Edition.kind_token]
  simp only [Edition.isUnknown_type, Edition.isMet_type, Edition.type_promote, hoperator.lexeme]
  generalize (if operator.kind == .operator .percent then Need.integer else .numeric) = need
  split
  · exact .pure rfl
  · split
    · exact .pure rfl
    · exact .reporting rfl

/-- Operands are compared by what both of them need. -/
theorem edited_compared (need : Need) {operator : Token} (hoperator : Edition.Fixed operator)
    (left right : CType) :
    (compared need operator left right).Edited E (E.type · = ·)
      (compared need (E.token operator) (E.type left) (E.type right)) := by
  unfold compared
  rw [hoperator.lexeme]
  refine (Finding.Edited.complain ?_ (.operands operator.lexeme need left right)
    (some operator)).bind fun _ _ _ => .pure rfl
  rw [Edition.mayBeMet_type, Edition.mayBeMet_type]

/-- An operator of any tier: it computes or it compares. -/
theorem edited_operated (tier : Tier) {operator : Token} (hoperator : Edition.Fixed operator)
    (left right : CType) :
    (operated tier operator left right).Edited E (E.type · = ·)
      (operated tier (E.token operator) (E.type left) (E.type right)) := by
  cases tier with
  | logical => exact edited_compared .integer hoperator left right
  | relational => exact edited_compared .numeric hoperator left right
  | additive => exact edited_arithmetic hoperator left right
  | multiplicative => exact edited_arithmetic hoperator left right

/-- An index is an integer, and its base has elements, in both editions or in neither. -/
theorem edited_indexed (opening : Token) (base index : CType) (site : Option Token) :
    (indexed opening base index site).Edited E (E.type · = ·)
      (indexed (E.token opening) (E.type base) (E.type index) (site.map E.token)) := by
  unfold indexed
  refine (Finding.Edited.complain Edition.mayBeMet_type (.indexNotInteger index) site).bind
    fun _ _ _ => ?_
  rw [Edition.isUnknown_type, Edition.type_element?]
  split
  · exact .pure rfl
  · cases base.element? with
    | some element => exact .pure rfl
    | none => exact .reporting rfl

/-- A field is looked for under its other name, in the struct under its other name. -/
theorem edited_fieldType (hσ : σ.Edited E σ') (target : CType) {field : Token}
    (hfield : E.Names field) :
    (fieldType σ target field).Edited E (E.type · = ·)
      (fieldType σ' (E.type target) (E.token field)) := by
  unfold fieldType
  rw [Edition.structName?_type, hfield.lexeme]
  cases target.structName? with
  | none => exact .reporting rfl
  | some name =>
      rcases hσ.struct? name with ⟨hnone, hnone'⟩ | ⟨s, s', hsome, hsome', hs⟩
      · simp only [Option.map_some, hnone, hnone']
        exact .pure rfl
      · simp only [Option.map_some, hsome, hsome', hs.field?]
        cases s.field? field.lexeme with
        | some type => exact .pure rfl
        | none => exact .reporting rfl

/-- A dot asks for a struct, an arrow for a pointer to one. -/
theorem edited_memberType (hσ : σ.Edited E σ') (access : Access) (operator : Token)
    (base : CType) {field : Token} (hfield : E.Names field) :
    (memberType σ access operator base field).Edited E (E.type · = ·)
      (memberType σ' access (E.token operator) (E.type base) (E.token field)) := by
  unfold memberType
  rw [Edition.isUnknown_type, Edition.isPointer_type, Edition.type_decayed, Edition.type_deref?]
  split
  · exact .pure rfl
  · cases access with
    | through =>
        cases base.decayed.deref? with
        | some target => exact edited_fieldType hσ target hfield
        | none => exact .reporting rfl
    | direct =>
        dsimp only
        split
        · exact .reporting rfl
        · exact edited_fieldType hσ base hfield

/-! ## Calls -/

/-- An argument in an edition. -/
def Edition.argument (E : Edition) (a : Argument) : Argument := ⟨E.type a.type, a.site.map E.token⟩

/-- Arguments are compared with the edited parameters, position by position. -/
theorem edited_checkArguments (function : String) (position : Nat) (parameters : List Parameter)
    (arguments : List Argument) :
    (checkArguments function position parameters arguments).Edited E Eq
      (checkArguments (E.name function) position (parameters.map E.parameter)
        (arguments.map E.argument)) := by
  induction parameters generalizing position arguments with
  | nil => exact .pure rfl
  | cons parameter parameters ih =>
      cases arguments with
      | nil => exact .pure rfl
      | cons argument arguments =>
          exact (Finding.Edited.complain Edition.type_accepts _ _).bind fun _ _ _ => ih _ _

/-- The function is looked for under its other name, and has the edited parameters. -/
theorem edited_callType (hσ : σ.Edited E σ') {name : Token} (hname : E.Names name)
    {arguments arguments' : Finding (List Argument)}
    (harguments : arguments.Edited E (List.map E.argument · = ·) arguments') (closing : Slot) :
    (callType σ name arguments closing).Edited E (E.type · = ·)
      (callType σ' (E.token name) arguments' (E.slot closing)) := by
  unfold callType
  simp only [hname.lexeme, Edition.name_mem_builtins]
  split
  · exact harguments.bind fun _ _ _ => (edited_require closing).bind fun _ _ _ => .pure rfl
  · rcases hσ.function? name.lexeme with ⟨hnone, hnone'⟩ | ⟨f, f', hsome, hsome', hf⟩
    · rw [hnone, hnone']
      exact (Finding.Edited.report (.undeclaredFunction name.lexeme) (some name)).bind
        fun _ _ _ => harguments.bind fun _ _ _ => (edited_require closing).bind
          fun _ _ _ => .pure rfl
    · rw [hsome, hsome']
      refine harguments.bind ?_
      rintro given _ rfl
      refine (edited_require closing).bind fun _ _ _ => ?_
      -- the function has as many parameters as before, and the call as many arguments
      simp only [hf.name, hf.parameters, List.length_map]
      exact (Finding.Edited.complain rfl _ (some name)).bind fun _ _ _ =>
        (edited_checkArguments f.name 1 f.parameters given).bind fun _ _ _ =>
          .pure hf.returns.symm

/-! ## Expressions -/

mutual

/-- **An expression has the same type in two editions,** and the same faults. -/
theorem Expr.Edited.typing (hσ : σ.Edited E σ') : ∀ {e e' : Expr}, e.Edited E e' →
    (e.typing σ).Edited E (E.type · = ·) (e'.typing σ')
  | _, _, @Expr.Edited.literal _ class_ _ => .pure (type_ofLiteral class_)
  | _, _, @Expr.Edited.var _ name hname => by
      simp only [Expr.typing, hname.lexeme]
      rcases hσ.var? name.lexeme with ⟨hnone, hnone'⟩ | ⟨v, v', hsome, hsome', hv⟩
      · rw [hnone, hnone']
        exact .reporting rfl
      · rw [hsome, hsome']
        exact .pure hv.type.symm
  | _, _, .emptyCall hname => edited_callType hσ hname (.pure rfl) _
  | _, _, .call hname hfirst hothers => by
      refine edited_callType hσ hname ?_ _
      refine (hfirst.typing hσ).bind ?_
      rintro type _ rfl
      refine (hothers.typing hσ).bind ?_
      rintro rest _ rfl
      refine .pure ?_
      rw [hfirst.lead]
      rfl
  | _, _, @Expr.Edited.deref _ star _ _ hoperand => by
      refine (hoperand.typing hσ).bind ?_
      rintro type _ rfl
      exact edited_dereference type star
  | _, _, .address hoperand => by
      refine (hoperand.typing hσ).bind ?_
      rintro type _ rfl
      refine .pure ?_
      rw [Edition.isUnknown_type, Edition.type_addressOf]
      exact apply_ite E.type _ _ _
  | _, _, .unary hoperator hoperand => by
      refine (hoperand.typing hσ).bind ?_
      rintro type _ rfl
      exact edited_numericOperand hoperator type
  | _, _, .stepped hoperand hoperator => by
      refine (hoperand.typing hσ).bind ?_
      rintro type _ rfl
      exact edited_numericOperand hoperator type
  | _, _, @Expr.Edited.index _ _ _ _ _ opening closing hbase hsubscript => by
      refine (hbase.typing hσ).bind ?_
      rintro baseType _ rfl
      refine (hsubscript.typing hσ).bind ?_
      rintro indexType _ rfl
      refine (edited_require closing).bind fun _ _ _ => ?_
      rw [hsubscript.lead]
      exact edited_indexed opening baseType indexType _
  | _, _, @Expr.Edited.member _ _ _ access operator _ hbase hfield => by
      refine (hbase.typing hσ).bind ?_
      rintro baseType _ rfl
      refine (edited_get hfield).bind ?_
      rintro field _ ⟨rfl, hfield⟩
      exact edited_memberType hσ access operator baseType hfield
  | _, _, @Expr.Edited.binary _ tier _ _ _ _ _ hleft hoperator hright => by
      refine (hleft.typing hσ).bind ?_
      rintro leftType _ rfl
      refine (hright.typing hσ).bind ?_
      rintro rightType _ rfl
      exact edited_operated tier hoperator leftType rightType
  | _, _, @Expr.Edited.conditional _ _ _ _ _ _ _ _ colon hcondition hfirst hsecond => by
      refine (hcondition.typing hσ).bind fun _ _ _ => ?_
      refine (hfirst.typing hσ).bind ?_
      rintro firstType _ rfl
      refine (edited_require colon).bind fun _ _ _ => ?_
      refine (hsecond.typing hσ).bind ?_
      rintro secondType _ rfl
      rw [hsecond.lead]
      exact (Finding.Edited.complain Edition.type_accepts (.branches firstType secondType) _).bind
        fun _ _ _ => .pure rfl
  | _, _, @Expr.Edited.group _ _ _ _ closing hinner => by
      refine (hinner.typing hσ).bind ?_
      rintro type _ rfl
      exact (edited_require closing).bind fun _ _ _ => .pure rfl
  | _, _, @Expr.Edited.sizeofType _ _ opening _ _ _ closing hspec =>
      (edited_require opening).bind fun _ _ _ => (edited_resolve hσ none hspec).bind
        fun _ _ _ => (edited_require closing).bind fun _ _ _ => .pure rfl
  | _, _, @Expr.Edited.sizeofExpr _ _ opening _ _ closing hoperand =>
      (edited_require opening).bind fun _ _ _ => (hoperand.typing hσ).bind
        fun _ _ _ => (edited_require closing).bind fun _ _ _ => .pure rfl
  | _, _, @Expr.Edited.missing _ hole => .stop hole

/-- Further arguments one after the other. -/
theorem Trail.Edited.typing (hσ : σ.Edited E σ') : ∀ {a a' : Trail}, a.Edited E a' →
    (a.typing σ).Edited E (List.map E.argument · = ·) (a'.typing σ')
  | _, _, .nil => .pure rfl
  | _, _, .cons hargument hrest => by
      refine (hargument.typing hσ).bind ?_
      rintro type _ rfl
      refine (hrest.typing hσ).bind ?_
      rintro others _ rfl
      refine .pure ?_
      rw [hargument.lead]
      rfl

end

end MiniC
