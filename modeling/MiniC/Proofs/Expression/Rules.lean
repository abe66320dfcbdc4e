import MiniC.Expr.Typing

/-!
# `MiniC.Proofs.Expression.Rules` — the typing rules of expressions

The rules say which type an expression has and which issues come with it, from the types and
issues of its parts.  They are given as relations, one case for each way that a rule may go; the
issues stand in the order of the text.  A type is known unless its base is `unknown`, and a part
of unknown type is let pass by every rule.

That the function that types expressions follows the rules is shown rule by rule: what a rule
gives is what the function yields.

## Contents
- `Points`: what a pointer or an array leads to; `Meets`: numbers and their ranks.
- One relation for each rule, from `Dereferenced` to `Called`.
- `Expr.HasType`, `Trail.HaveTypes`: **the types and issues of expressions.**
- `Finding.ok_bind`, …: findings of parts without holes.
- `Dereferenced.eq`, `exists_dereferenced`, …: each rule is followed, and leaves no case open.
- `Expr.typing_eq`: **what the rules give is what the typing function yields.**
-/

namespace MiniC

/-! ## Rules for types -/

/-- Whether the type is that of an expression that was not complained about. -/
def CType.IsKnown (t : CType) : Prop := t.base ≠ .unknown

/-- What a pointer points to, and what an array is made of. -/
inductive Points : CType → CType → Prop
  | array {base : BaseType} {pointers : Nat} :
      Points ⟨base, pointers, true⟩ ⟨base, pointers, false⟩
  | pointer {base : BaseType} {pointers : Nat} :
      Points ⟨base, pointers + 1, false⟩ ⟨base, pointers, false⟩

/-- Whether a type of the given rank is what an operator asks for. -/
inductive Meets : Need → CType → Nat → Prop
  | numeric {t : CType} {rank : Nat} : t.rank? = some rank → Meets .numeric t rank
  | integer {t : CType} {rank : Nat} : t.rank? = some rank → rank ≤ 3 → Meets .integer t rank

/-- Whether a type is unknown, or is what an operator asks for. -/
def Passes (need : Need) (t : CType) : Prop := ¬t.IsKnown ∨ ∃ rank, Meets need t rank

/-- The fault at the site. -/
def faulty (fault : Fault) (site : Option Token) : List Issue := [.fault fault site]

/-- The operator `*` yields what the operand leads to. -/
inductive Dereferenced (star : Token) : CType → CType → List Issue → Prop
  | unknown {t : CType} : ¬t.IsKnown → Dereferenced star t t []
  | target {t target : CType} : t.IsKnown → Points t target → Dereferenced star t target []
  | fault {t : CType} : t.IsKnown → (∀ target, ¬Points t target) →
      Dereferenced star t .unknown (faulty (.notDereferenceable t) star)

/-- The operator `&` adds a level, but the address of an array is that of its first element. -/
inductive Addressed : CType → CType → Prop
  | unknown {t : CType} : ¬t.IsKnown → Addressed t t
  | pointer {t : CType} : t.IsKnown → t.isArray = false →
      Addressed t ⟨t.base, t.pointers + 1, false⟩
  | array {t : CType} : t.IsKnown → t.isArray = true →
      Addressed t ⟨t.base, t.pointers + 1, false⟩

/-- An operator on one number keeps its type. -/
inductive Signed (operator : Token) : CType → CType → List Issue → Prop
  | passes {t : CType} : Passes .numeric t → Signed operator t t []
  | fault {t : CType} : ¬Passes .numeric t →
      Signed operator t .unknown (faulty (.operandNotNumeric operator.lexeme t) operator)

/-- What an arithmetic operator asks of its operands. -/
def Token.arithmeticNeed (operator : Token) : Need :=
  if operator.kind = .operator .percent then .integer else .numeric

/-- Arithmetic yields the operand type of higher rank. -/
inductive Computed (operator : Token) : CType → CType → CType → List Issue → Prop
  | unknown {left right : CType} : ¬left.IsKnown ∨ ¬right.IsKnown →
      Computed operator left right .unknown []
  | left {left right : CType} {high low : Nat} : left.IsKnown → right.IsKnown →
      Meets operator.arithmeticNeed left high → Meets operator.arithmeticNeed right low →
      low ≤ high → Computed operator left right left []
  | right {left right : CType} {high low : Nat} : left.IsKnown → right.IsKnown →
      Meets operator.arithmeticNeed left low → Meets operator.arithmeticNeed right high →
      low < high → Computed operator left right right []
  | fault {left right : CType} : left.IsKnown → right.IsKnown →
      ¬((∃ rank, Meets operator.arithmeticNeed left rank) ∧
        ∃ rank, Meets operator.arithmeticNeed right rank) →
      Computed operator left right .unknown
        (faulty (.operands operator.lexeme operator.arithmeticNeed left right) operator)

/-- A comparison and a logical operator yield a truth value in any case. -/
inductive Compared (need : Need) (operator : Token) : CType → CType → CType → List Issue → Prop
  | passes {left right : CType} : Passes need left → Passes need right →
      Compared need operator left right .int []
  | fault {left right : CType} : ¬(Passes need left ∧ Passes need right) →
      Compared need operator left right .int
        (faulty (.operands operator.lexeme need left right) operator)

/-- What a binary operator of a tier yields. -/
inductive Operated (operator : Token) : Tier → CType → CType → CType → List Issue → Prop
  | logical {left right type : CType} {issues : List Issue} :
      Compared .integer operator left right type issues →
      Operated operator .logical left right type issues
  | relational {left right type : CType} {issues : List Issue} :
      Compared .numeric operator left right type issues →
      Operated operator .relational left right type issues
  | additive {left right type : CType} {issues : List Issue} :
      Computed operator left right type issues →
      Operated operator .additive left right type issues
  | multiplicative {left right type : CType} {issues : List Issue} :
      Computed operator left right type issues →
      Operated operator .multiplicative left right type issues

/-- Whether an index is a whole number, or the issue that it is none. -/
inductive Indexing (site : Option Token) : CType → List Issue → Prop
  | passes {index : CType} : Passes .integer index → Indexing site index []
  | fault {index : CType} : ¬Passes .integer index →
      Indexing site index (faulty (.indexNotInteger index) site)

/-- A subscript selects from what its base leads to. -/
inductive Subscripted (opening : Token) : CType → CType → List Issue → Prop
  | unknown {base : CType} : ¬base.IsKnown → Subscripted opening base base []
  | target {base target : CType} : base.IsKnown → Points base target →
      Subscripted opening base target []
  | fault {base : CType} : base.IsKnown → (∀ target, ¬Points base target) →
      Subscripted opening base .unknown (faulty (.notSubscriptable base) opening)

/-- The field of a struct.  A struct that is not declared was complained about elsewhere. -/
inductive Selected (σ : Symbols) (field : Token) : CType → CType → List Issue → Prop
  | noStruct {target : CType} : (∀ name, target ≠ .plain (.struct name)) →
      Selected σ field target .unknown (faulty (.memberOfNonStruct field.lexeme target) field)
  | undeclared {name : String} : σ.struct? name = none →
      Selected σ field (.plain (.struct name)) .unknown []
  | field {name : String} {struct : StructDef} {type : CType} : σ.struct? name = some struct →
      struct.field? field.lexeme = some type →
      Selected σ field (.plain (.struct name)) type []
  | noField {name : String} {struct : StructDef} : σ.struct? name = some struct →
      struct.field? field.lexeme = none →
      Selected σ field (.plain (.struct name)) .unknown
        (faulty (.noSuchField name field.lexeme) field)

/-- A dot selects from a struct at hand, an arrow from one that its base leads to. -/
inductive MemberOf (σ : Symbols) (operator field : Token) :
    Access → CType → CType → List Issue → Prop
  | unknown {access : Access} {base : CType} : ¬base.IsKnown →
      MemberOf σ operator field access base base []
  | dot {base type : CType} {issues : List Issue} : base.IsKnown → base.pointers = 0 →
      Selected σ field base type issues → MemberOf σ operator field .direct base type issues
  | dotOnPointer {base : CType} : base.IsKnown → base.pointers ≠ 0 →
      MemberOf σ operator field .direct base .unknown (faulty (.dotOnPointer base) operator)
  | arrow {base target type : CType} {issues : List Issue} : base.IsKnown → Points base target →
      Selected σ field target type issues → MemberOf σ operator field .through base type issues
  | arrowOnNonPointer {base : CType} : base.IsKnown → (∀ target, ¬Points base target) →
      MemberOf σ operator field .through base .unknown
        (faulty (.arrowOnNonPointer base) operator)

/-- The issues of arguments that their parameters do not accept, in order. -/
def mismatches (function : String) (parameters : List Parameter) (given : List Argument) :
    List Issue :=
  ((parameters.zip given).zipIdx 1).flatMap fun ((parameter, argument), position) =>
    if parameter.type.accepts argument.type then []
    else faulty (.argumentType position function parameter.type argument.type) argument.site

/-- A call yields what the function returns.  The issues of the arguments are among its own. -/
inductive Called (σ : Symbols) (name : Token) (given : List Argument) (issues : List Issue) :
    CType → List Issue → Prop
  | builtin : name.lexeme ∈ builtins → Called σ name given issues .int issues
  | undeclared : name.lexeme ∉ builtins → σ.function? name.lexeme = none →
      Called σ name given issues .unknown
        (faulty (.undeclaredFunction name.lexeme) name ++ issues)
  | declared {function : Function} : name.lexeme ∉ builtins →
      σ.function? name.lexeme = some function →
      given.length = function.parameters.length →
      Called σ name given issues function.returns
        (issues ++ mismatches function.name function.parameters given)
  | miscounted {function : Function} : name.lexeme ∉ builtins →
      σ.function? name.lexeme = some function →
      given.length ≠ function.parameters.length →
      Called σ name given issues function.returns
        (issues ++ (faulty (.argumentCount function.name function.parameters.length given.length)
          name ++ mismatches function.name function.parameters given))

/-- A type specifier in an expression names a struct that has to be declared. -/
inductive Specified (σ : Symbols) : TypeSpec → List Issue → Prop
  | words {first : Token} {rest : List Token} : Specified σ (.words first rest) []
  | declared {keyword name : Token} : (σ.struct? name.lexeme).isSome = true →
      Specified σ (.struct keyword (.found name)) []
  | undeclared {keyword name : Token} : σ.struct? name.lexeme = none →
      Specified σ (.struct keyword (.found name))
        (faulty (.undeclaredStruct name.lexeme) name)

/-! ## Rules for expressions -/

mutual

/-- The type of an expression under symbols, and its issues in the order of the text. -/
inductive Expr.HasType (σ : Symbols) : Expr → CType → List Issue → Prop
  | int {token : Token} : Expr.HasType σ (.literal .int token) ⟨.int, 0, false⟩ []
  | float {token : Token} : Expr.HasType σ (.literal .float token) ⟨.float, 0, false⟩ []
  | char {token : Token} : Expr.HasType σ (.literal .char token) ⟨.char, 0, false⟩ []
  | string {token : Token} : Expr.HasType σ (.literal .string token) ⟨.char, 1, false⟩ []
  | var {name : Token} {v : Variable} : σ.var? name.lexeme = some v →
      Expr.HasType σ (.var name) v.type []
  | undeclared {name : Token} : σ.var? name.lexeme = none →
      Expr.HasType σ (.var name) .unknown (faulty (.undeclaredVariable name.lexeme) name)
  | emptyCall {name opening closing : Token} {type : CType} {issues : List Issue} :
      Called σ name [] [] type issues →
      Expr.HasType σ (.emptyCall name opening (.found closing)) type issues
  | call {name opening closing : Token} {first : Expr} {others : Trail} {firstType type : CType}
      {given : List Argument} {firstIssues moreIssues issues : List Issue} :
      first.HasType σ firstType firstIssues → others.HaveTypes σ given moreIssues →
      Called σ name (⟨firstType, first.lead⟩ :: given) (firstIssues ++ moreIssues) type issues →
      Expr.HasType σ (.call name opening first others (.found closing)) type issues
  | deref {star : Token} {operand : Expr} {operandType type : CType}
      {operandIssues issues : List Issue} :
      operand.HasType σ operandType operandIssues → Dereferenced star operandType type issues →
      Expr.HasType σ (.deref star operand) type (operandIssues ++ issues)
  | address {ampersand : Token} {operand : Expr} {operandType type : CType}
      {operandIssues : List Issue} :
      operand.HasType σ operandType operandIssues → Addressed operandType type →
      Expr.HasType σ (.address ampersand operand) type operandIssues
  | unary {operator : Token} {operand : Expr} {operandType type : CType}
      {operandIssues issues : List Issue} :
      operand.HasType σ operandType operandIssues → Signed operator operandType type issues →
      Expr.HasType σ (.unary operator operand) type (operandIssues ++ issues)
  | stepped {operator : Token} {operand : Expr} {operandType type : CType}
      {operandIssues issues : List Issue} :
      operand.HasType σ operandType operandIssues → Signed operator operandType type issues →
      Expr.HasType σ (.stepped operand operator) type (operandIssues ++ issues)
  | index {base subscript : Expr} {opening closing : Token} {baseType indexType type : CType}
      {baseIssues subscriptIssues indexIssues issues : List Issue} :
      base.HasType σ baseType baseIssues → subscript.HasType σ indexType subscriptIssues →
      Indexing subscript.lead indexType indexIssues → Subscripted opening baseType type issues →
      Expr.HasType σ (.index base opening subscript (.found closing)) type
        (baseIssues ++ (subscriptIssues ++ (indexIssues ++ issues)))
  | member {base : Expr} {access : Access} {operator field : Token} {baseType type : CType}
      {baseIssues issues : List Issue} :
      base.HasType σ baseType baseIssues →
      MemberOf σ operator field access baseType type issues →
      Expr.HasType σ (.member base access operator (.found field)) type (baseIssues ++ issues)
  | binary {tier : Tier} {left right : Expr} {operator : Token} {leftType rightType type : CType}
      {leftIssues rightIssues issues : List Issue} :
      left.HasType σ leftType leftIssues → right.HasType σ rightType rightIssues →
      Operated operator tier leftType rightType type issues →
      Expr.HasType σ (.binary tier left operator right) type (leftIssues ++ (rightIssues ++ issues))
  | conditional {condition first second : Expr} {question colon : Token}
      {conditionType firstType secondType : CType}
      {conditionIssues firstIssues secondIssues : List Issue} :
      condition.HasType σ conditionType conditionIssues →
      first.HasType σ firstType firstIssues → second.HasType σ secondType secondIssues →
      firstType.accepts secondType = true →
      Expr.HasType σ (.conditional condition question first (.found colon) second) firstType
        (conditionIssues ++ (firstIssues ++ secondIssues))
  | incompatible {condition first second : Expr} {question colon : Token}
      {conditionType firstType secondType : CType}
      {conditionIssues firstIssues secondIssues : List Issue} :
      condition.HasType σ conditionType conditionIssues →
      first.HasType σ firstType firstIssues → second.HasType σ secondType secondIssues →
      firstType.accepts secondType = false →
      Expr.HasType σ (.conditional condition question first (.found colon) second) firstType
        (conditionIssues ++ (firstIssues ++
          (secondIssues ++ faulty (.branches firstType secondType) second.lead)))
  | group {inner : Expr} {opening closing : Token} {type : CType} {issues : List Issue} :
      inner.HasType σ type issues →
      Expr.HasType σ (.group opening inner (.found closing)) type issues
  | sizeofType {keyword opening closing : Token} {spec : TypeSpec} {stars : List Token}
      {issues : List Issue} : Specified σ spec issues →
      Expr.HasType σ (.sizeofType keyword (.found opening) spec stars (.found closing)) .int issues
  | sizeofExpr {keyword opening closing : Token} {operand : Expr} {type : CType}
      {issues : List Issue} : operand.HasType σ type issues →
      Expr.HasType σ (.sizeofExpr keyword (.found opening) operand (.found closing)) .int issues

/-- The types of arguments under symbols, and their issues. -/
inductive Trail.HaveTypes (σ : Symbols) : Trail → List Argument → List Issue → Prop
  | nil : Trail.HaveTypes σ .nil [] []
  | cons {comma : Token} {argument : Expr} {rest : Trail} {type : CType} {given : List Argument}
      {issues moreIssues : List Issue} :
      argument.HasType σ type issues → rest.HaveTypes σ given moreIssues →
      Trail.HaveTypes σ (.cons comma argument rest) (⟨type, argument.lead⟩ :: given)
        (issues ++ moreIssues)

end

/-! ## Findings without holes -/

/-- A part without holes is followed by the next, which sees what it yields. -/
@[simp] theorem Finding.ok_bind {α β : Type} (issues : List Issue) (a : α) (next : α → Finding β) :
    (⟨issues, .ok a⟩ : Finding α) >>= next = ⟨issues ++ (next a).issues, (next a).outcome⟩ := rfl

/-- The same if the next adds nothing. -/
@[simp] theorem Finding.ok_map {α β : Type} (issues : List Issue) (a : α) (next : α → β) :
    next <$> (⟨issues, .ok a⟩ : Finding α) = ⟨issues, .ok (next a)⟩ := by
  show Finding.mk (issues ++ []) _ = _
  rw [List.append_nil]
  rfl

/-- A report is an issue and no hole. -/
theorem Finding.report_eq (fault : Fault) (site : Option Token) :
    Finding.report fault site = ⟨faulty fault site, .ok ()⟩ := rfl

/-- A complaint is an issue unless all is well. -/
theorem Finding.complain_eq (fine : Bool) (fault : Fault) (site : Option Token) :
    Finding.complain fine fault site = ⟨if fine then [] else faulty fault site, .ok ()⟩ := by
  cases fine <;> rfl

@[simp] theorem Slot.require_found (token : Token) :
    (Slot.found token).require = ⟨[], .ok ()⟩ := rfl

@[simp] theorem Slot.get_found (token : Token) : (Slot.found token).get = ⟨[], .ok token⟩ := rfl

/-! ## Each rule is followed -/

section

variable {σ : Symbols} {t target base left right type : CType} {need : Need}
variable {issues : List Issue} {operator opening star field name : Token} {site : Option Token}

/-- A type is unknown or known. -/
theorem isUnknown_iff : t.isUnknown = true ↔ ¬t.IsKnown := by
  simp [CType.isUnknown, CType.IsKnown]

theorem CType.IsKnown.isUnknown (h : t.IsKnown) : t.isUnknown = false := by
  rw [← Bool.not_eq_true, isUnknown_iff]
  exact fun hnot => hnot h

/-- A pointer level is taken away just from what points to something. -/
theorem deref?_iff : t.decayed.deref? = some target ↔ Points t target := by
  obtain ⟨base, pointers, isArray⟩ := t
  constructor
  · intro h
    cases isArray with
    | true =>
        obtain rfl := Option.some.inj h
        exact .array
    | false =>
        cases pointers with
        | zero => exact nomatch h
        | succ n =>
            obtain rfl := Option.some.inj h
            exact .pointer
  · rintro (_ | _) <;> rfl

theorem deref?_eq_none (h : ∀ target, ¬Points t target) : t.decayed.deref? = none := by
  rw [Option.eq_none_iff_forall_not_mem]
  exact fun target htarget => h target (deref?_iff.1 htarget)

/-- The elements of an array are what its pointer points to. -/
theorem element?_eq (t : CType) : t.element? = t.decayed.deref? := by
  obtain ⟨base, pointers, isArray⟩ := t
  cases isArray <;> rfl

/-- A need is met by a rank that is high enough. -/
theorem isMet_iff : need.isMet t = true ↔ ∃ rank, Meets need t rank := by
  cases need with
  | numeric =>
      show t.rank?.isSome = true ↔ _
      rw [Option.isSome_iff_exists]
      exact exists_congr fun rank => ⟨.numeric, fun h => by cases h; assumption⟩
  | integer =>
      show t.rank?.any (· ≤ 3) = true ↔ _
      rw [Option.any_eq_true]
      refine exists_congr fun rank => ⟨fun h => .integer h.1 (by simpa using h.2), fun h => ?_⟩
      cases h with
      | integer hrank hle => exact ⟨hrank, by simpa using hle⟩

theorem Meets.rank {rank : Nat} (h : Meets need t rank) : t.rank? = some rank := by
  cases h <;> assumption

/-- A need may be met by an unknown type too. -/
theorem mayBeMet_iff : need.mayBeMet t = true ↔ Passes need t := by
  rw [Need.mayBeMet, Bool.or_eq_true, isUnknown_iff, isMet_iff]
  rfl

theorem mayBeMet_eq_false (h : ¬Passes need t) : need.mayBeMet t = false := by
  rwa [← Bool.not_eq_true, mayBeMet_iff]

/-- What the rules say of a star is what the check finds. -/
theorem Dereferenced.eq (h : Dereferenced star t type issues) :
    dereference t star = ⟨issues, .ok type⟩ := by
  unfold dereference
  cases h with
  | unknown hunknown => rw [isUnknown_iff.2 hunknown]; rfl
  | target hknown hpoints => rw [hknown.isUnknown, deref?_iff.2 hpoints]; rfl
  | fault hknown hno => rw [hknown.isUnknown, deref?_eq_none hno]; rfl

theorem exists_dereferenced (star : Token) (t : CType) :
    ∃ type issues, Dereferenced star t type issues := by
  by_cases hknown : t.IsKnown
  · by_cases htarget : ∃ target, Points t target
    · obtain ⟨target, hpoints⟩ := htarget
      exact ⟨_, _, .target hknown hpoints⟩
    · exact ⟨_, _, .fault hknown (not_exists.1 htarget)⟩
  · exact ⟨_, _, .unknown hknown⟩

/-- The address of an operand has the type that its rules give. -/
theorem Addressed.eq (h : Addressed t type) :
    (if t.isUnknown then t else t.addressOf) = type := by
  obtain ⟨base, pointers, isArray⟩ := t
  cases h with
  | unknown hunknown => rw [isUnknown_iff.2 hunknown]; rfl
  | pointer hknown harray =>
      subst harray
      rw [hknown.isUnknown]
      rfl
  | array hknown harray =>
      subst harray
      rw [hknown.isUnknown]
      rfl

theorem exists_addressed (t : CType) : ∃ type, Addressed t type := by
  by_cases hknown : t.IsKnown
  · cases harray : t.isArray with
    | true => exact ⟨_, .array hknown harray⟩
    | false => exact ⟨_, .pointer hknown harray⟩
  · exact ⟨_, .unknown hknown⟩

/-- What the rules say of a sign is what the check finds. -/
theorem Signed.eq (h : Signed operator t type issues) :
    numericOperand operator t = ⟨issues, .ok type⟩ := by
  unfold numericOperand
  cases h with
  | passes hpasses => rw [mayBeMet_iff.2 hpasses]; rfl
  | fault hfails => rw [mayBeMet_eq_false hfails]; rfl

theorem exists_signed (operator : Token) (t : CType) :
    ∃ type issues, Signed operator t type issues := by
  by_cases hpasses : Passes .numeric t
  · exact ⟨_, _, .passes hpasses⟩
  · exact ⟨_, _, .fault hpasses⟩

/-- What the rules say of an arithmetic operator is what the check finds. -/
theorem Computed.eq (h : Computed operator left right type issues) :
    arithmetic operator left right = ⟨issues, .ok type⟩ := by
  have hneed : (if operator.kind == .operator .percent then Need.integer else Need.numeric) =
      operator.arithmeticNeed := by
    simp [Token.arithmeticNeed]
  simp only [arithmetic, hneed]
  cases h with
  | unknown hunknown =>
      have hor : (left.isUnknown || right.isUnknown) = true := by
        rwa [Bool.or_eq_true, isUnknown_iff, isUnknown_iff]
      rw [hor]
      rfl
  | left hleft hright hhigh hlow hle =>
      rw [hleft.isUnknown, hright.isUnknown, isMet_iff.2 ⟨_, hhigh⟩, isMet_iff.2 ⟨_, hlow⟩]
      simp [CType.promote, hhigh.rank, hlow.rank, hle]
      rfl
  | right hleft hright hlow hhigh hlt =>
      rw [hleft.isUnknown, hright.isUnknown, isMet_iff.2 ⟨_, hlow⟩, isMet_iff.2 ⟨_, hhigh⟩]
      simp [CType.promote, hhigh.rank, hlow.rank, Nat.not_le.2 hlt]
      rfl
  | fault hleft hright hfails =>
      have hand : (operator.arithmeticNeed.isMet left && operator.arithmeticNeed.isMet right) =
          false := by
        rwa [← Bool.not_eq_true, Bool.and_eq_true, isMet_iff, isMet_iff]
      rw [hleft.isUnknown, hright.isUnknown, hand]
      rfl

theorem exists_computed (operator : Token) (left right : CType) :
    ∃ type issues, Computed operator left right type issues := by
  by_cases hleft : left.IsKnown
  · by_cases hright : right.IsKnown
    · by_cases hmeet : (∃ rank, Meets operator.arithmeticNeed left rank) ∧
          ∃ rank, Meets operator.arithmeticNeed right rank
      · obtain ⟨⟨m, hm⟩, n, hn⟩ := hmeet
        by_cases hle : n ≤ m
        · exact ⟨_, _, .left hleft hright hm hn hle⟩
        · exact ⟨_, _, .right hleft hright hm hn (by omega)⟩
      · exact ⟨_, _, .fault hleft hright hmeet⟩
    · exact ⟨_, _, .unknown (.inr hright)⟩
  · exact ⟨_, _, .unknown (.inl hleft)⟩

/-- What the rules say of an operator that compares is what the check finds. -/
theorem Compared.eq (h : Compared need operator left right type issues) :
    compared need operator left right = ⟨issues, .ok type⟩ := by
  unfold compared
  cases h with
  | passes hleft hright =>
      rw [mayBeMet_iff.2 hleft, mayBeMet_iff.2 hright]
      rfl
  | fault hfails =>
      have hand : (need.mayBeMet left && need.mayBeMet right) = false := by
        rwa [← Bool.not_eq_true, Bool.and_eq_true, mayBeMet_iff, mayBeMet_iff]
      rw [hand]
      rfl

theorem exists_compared (need : Need) (operator : Token) (left right : CType) :
    ∃ type issues, Compared need operator left right type issues := by
  by_cases hpass : Passes need left ∧ Passes need right
  · exact ⟨_, _, .passes hpass.1 hpass.2⟩
  · exact ⟨_, _, .fault hpass⟩

/-- The tier of an operator tells whether it compares or computes. -/
theorem Operated.eq {tier : Tier} (h : Operated operator tier left right type issues) :
    operated tier operator left right = ⟨issues, .ok type⟩ := by
  cases h with
  | logical h => exact h.eq
  | relational h => exact h.eq
  | additive h => exact h.eq
  | multiplicative h => exact h.eq

theorem exists_operated (tier : Tier) (operator : Token) (left right : CType) :
    ∃ type issues, Operated operator tier left right type issues := by
  cases tier with
  | logical =>
      obtain ⟨type, issues, h⟩ := exists_compared .integer operator left right
      exact ⟨type, issues, .logical h⟩
  | relational =>
      obtain ⟨type, issues, h⟩ := exists_compared .numeric operator left right
      exact ⟨type, issues, .relational h⟩
  | additive =>
      obtain ⟨type, issues, h⟩ := exists_computed operator left right
      exact ⟨type, issues, .additive h⟩
  | multiplicative =>
      obtain ⟨type, issues, h⟩ := exists_computed operator left right
      exact ⟨type, issues, .multiplicative h⟩

/-- An index is judged by itself, -/
theorem Indexing.eq {index : CType} (h : Indexing site index issues) :
    Finding.complain (Need.integer.mayBeMet index) (.indexNotInteger index) site =
      ⟨issues, .ok ()⟩ := by
  cases h with
  | passes hpasses => rw [mayBeMet_iff.2 hpasses]; rfl
  | fault hfails => rw [mayBeMet_eq_false hfails]; rfl

theorem exists_indexing (site : Option Token) (index : CType) :
    ∃ issues, Indexing site index issues := by
  by_cases hpasses : Passes .integer index
  · exact ⟨_, .passes hpasses⟩
  · exact ⟨_, .fault hpasses⟩

/-- and what it is applied to is judged behind it. -/
theorem Subscripted.eq {index : CType} {indexIssues : List Issue}
    (hindex : Indexing site index indexIssues) (h : Subscripted opening base type issues) :
    indexed opening base index site = ⟨indexIssues ++ issues, .ok type⟩ := by
  unfold indexed
  rw [hindex.eq, Finding.ok_bind]
  cases h with
  | unknown hunknown => rw [isUnknown_iff.2 hunknown]; rfl
  | target hknown hpoints => rw [hknown.isUnknown, element?_eq, deref?_iff.2 hpoints]; rfl
  | fault hknown hno => rw [hknown.isUnknown, element?_eq, deref?_eq_none hno]; rfl

theorem exists_subscripted (opening : Token) (base : CType) :
    ∃ type issues, Subscripted opening base type issues := by
  by_cases hknown : base.IsKnown
  · by_cases htarget : ∃ target, Points base target
    · obtain ⟨target, hpoints⟩ := htarget
      exact ⟨_, _, .target hknown hpoints⟩
    · exact ⟨_, _, .fault hknown (not_exists.1 htarget)⟩
  · exact ⟨_, _, .unknown hknown⟩

theorem structName?_eq_none (h : ∀ name, target ≠ .plain (.struct name)) :
    target.structName? = none := by
  obtain ⟨base, pointers, isArray⟩ := target
  cases base with
  | struct name =>
      have hscalar : (⟨.struct name, pointers, isArray⟩ : CType).isScalar = false := by
        rw [← Bool.not_eq_true]
        intro hscalar
        simp only [CType.isScalar, Bool.and_eq_true, beq_iff_eq, Bool.not_eq_true'] at hscalar
        exact h name (by rw [hscalar.1, hscalar.2]; rfl)
      simp only [CType.structName?, hscalar]
      rfl
  | _ => rfl

/-- A field is found in a struct that is known, and has the type that it has there. -/
theorem Selected.eq (h : Selected σ field target type issues) :
    fieldType σ target field = ⟨issues, .ok type⟩ := by
  unfold fieldType
  cases h with
  | noStruct hno => rw [structName?_eq_none hno]; rfl
  | @undeclared name hundeclared =>
      have hname : (CType.plain (.struct name)).structName? = some name := rfl
      simp only [hname, hundeclared]
      rfl
  | @field name _ _ hstruct hfield =>
      have hname : (CType.plain (.struct name)).structName? = some name := rfl
      simp only [hname, hstruct, hfield]
      rfl
  | @noField name _ hstruct hfield =>
      have hname : (CType.plain (.struct name)).structName? = some name := rfl
      simp only [hname, hstruct, hfield]
      rfl

theorem exists_selected (σ : Symbols) (field : Token) (target : CType) :
    ∃ type issues, Selected σ field target type issues := by
  by_cases hname : ∃ name, target = .plain (.struct name)
  · obtain ⟨name, rfl⟩ := hname
    cases hstruct : σ.struct? name with
    | none => exact ⟨_, _, .undeclared hstruct⟩
    | some struct =>
        cases hfield : struct.field? field.lexeme with
        | none => exact ⟨_, _, .noField hstruct hfield⟩
        | some type => exact ⟨_, _, .field hstruct hfield⟩
  · exact ⟨_, _, .noStruct (not_exists.1 hname)⟩

/-- A dot or an arrow is judged by its base, then by the field. -/
theorem MemberOf.eq {access : Access} (h : MemberOf σ operator field access base type issues) :
    memberType σ access operator base field = ⟨issues, .ok type⟩ := by
  unfold memberType
  cases h with
  | unknown hunknown => rw [isUnknown_iff.2 hunknown]; rfl
  | dot hknown hpointers hselected =>
      have hpointer : base.isPointer = false := by simp [CType.isPointer, hpointers]
      rw [hknown.isUnknown, ← hselected.eq]
      simp only [hpointer, Bool.false_eq_true, if_false]
  | dotOnPointer hknown hpointers =>
      have hpointer : base.isPointer = true := by simp [CType.isPointer, hpointers]
      rw [hknown.isUnknown]
      simp only [hpointer, Bool.false_eq_true, if_false, if_true]
      rfl
  | arrow hknown hpoints hselected =>
      rw [hknown.isUnknown, ← hselected.eq]
      simp only [deref?_iff.2 hpoints, Bool.false_eq_true, if_false]
  | arrowOnNonPointer hknown hno =>
      rw [hknown.isUnknown]
      simp only [deref?_eq_none hno, Bool.false_eq_true, if_false]
      rfl

theorem exists_memberOf (σ : Symbols) (operator field : Token) (access : Access) (base : CType) :
    ∃ type issues, MemberOf σ operator field access base type issues := by
  by_cases hknown : base.IsKnown
  · cases access with
    | direct =>
        by_cases hpointers : base.pointers = 0
        · obtain ⟨type, issues, h⟩ := exists_selected σ field base
          exact ⟨type, issues, .dot hknown hpointers h⟩
        · exact ⟨_, _, .dotOnPointer hknown hpointers⟩
    | through =>
        by_cases htarget : ∃ target, Points base target
        · obtain ⟨target, hpoints⟩ := htarget
          obtain ⟨type, issues, h⟩ := exists_selected σ field target
          exact ⟨type, issues, .arrow hknown hpoints h⟩
        · exact ⟨_, _, .arrowOnNonPointer hknown (not_exists.1 htarget)⟩
  · exact ⟨_, _, .unknown hknown⟩

/-- Arguments are checked one by one. -/
theorem checkArguments_eq (function : String) (position : Nat) (parameters : List Parameter)
    (given : List Argument) :
    checkArguments function position parameters given =
      ⟨((parameters.zip given).zipIdx position).flatMap fun ((parameter, argument), position) =>
        if parameter.type.accepts argument.type then []
        else faulty (.argumentType position function parameter.type argument.type) argument.site,
        .ok ()⟩ := by
  induction parameters generalizing position given with
  | nil => rfl
  | cons parameter parameters ih =>
      cases given with
      | nil => rfl
      | cons argument given =>
          rw [checkArguments, ih, Finding.complain_eq, Finding.ok_bind, List.zip_cons_cons,
            List.zipIdx_cons, List.flatMap_cons]

/-- A call is judged behind its arguments, which have issues of their own. -/
theorem Called.eq {given : List Argument} {argumentIssues : List Issue}
    (h : Called σ name given argumentIssues type issues) (closing : Token) :
    callType σ name ⟨argumentIssues, .ok given⟩ (.found closing) = ⟨issues, .ok type⟩ := by
  unfold callType
  cases h with
  | builtin hbuiltin =>
      rw [if_pos hbuiltin]
      simp
  | undeclared hbuiltin hfunction =>
      rw [if_neg hbuiltin, hfunction]
      simp [Finding.report_eq]
  | declared hbuiltin hfunction hcount =>
      rw [if_neg hbuiltin, hfunction]
      simp [Finding.complain_eq, checkArguments_eq, hcount, mismatches]
  | miscounted hbuiltin hfunction hcount =>
      rw [if_neg hbuiltin, hfunction]
      simp [Finding.complain_eq, checkArguments_eq, hcount, mismatches]

theorem exists_called (σ : Symbols) (name : Token) (given : List Argument)
    (argumentIssues : List Issue) :
    ∃ type issues, Called σ name given argumentIssues type issues := by
  by_cases hbuiltin : name.lexeme ∈ builtins
  · exact ⟨_, _, .builtin hbuiltin⟩
  · cases hfunction : σ.function? name.lexeme with
    | none => exact ⟨_, _, .undeclared hbuiltin hfunction⟩
    | some function =>
        by_cases hcount : given.length = function.parameters.length
        · exact ⟨_, _, .declared hbuiltin hfunction hcount⟩
        · exact ⟨_, _, .miscounted hbuiltin hfunction hcount⟩

/-- What the rules say of a type is what the check finds. -/
theorem Specified.eq {spec : TypeSpec} (h : Specified σ spec issues) :
    ∃ base, spec.resolve σ none = ⟨issues, .ok base⟩ := by
  cases h with
  | words => exact ⟨_, rfl⟩
  | @declared keyword name hdeclared =>
      refine ⟨.struct name.lexeme, ?_⟩
      show (Finding.complain ((σ.struct? name.lexeme).isSome || _) _ _ >>= _) = _
      rw [hdeclared]
      rfl
  | @undeclared keyword name hundeclared =>
      refine ⟨.struct name.lexeme, ?_⟩
      show (Finding.complain ((σ.struct? name.lexeme).isSome || _) _ _ >>= _) = _
      rw [hundeclared]
      rfl

end

/-! ## Expressions are typed by the rules -/

section

variable {σ : Symbols}

mutual

/-- What the rules give is what the typing function yields. -/
theorem Expr.typing_eq : ∀ (e : Expr) {type : CType} {issues : List Issue},
    e.HasType σ type issues → e.typing σ = ⟨issues, .ok type⟩
  | .literal _ _, _, _, h => by
      cases h <;> rfl
  | .var _, _, _, h => by
      cases h with
      | var hvar => rw [Expr.typing, hvar]; rfl
      | undeclared hvar => rw [Expr.typing, hvar]; rfl
  | .emptyCall _ _ _, _, _, h => by
      cases h with
      | emptyCall hcalled => exact hcalled.eq _
  | .call _ _ first others _, _, _, h => by
      cases h with
      | @call _ _ closing _ _ _ _ _ _ _ _ hfirst hothers hcalled =>
          rw [← hcalled.eq closing]
          simp [Expr.typing, first.typing_eq hfirst, others.typing_eq hothers]
  | .deref _ operand, _, _, h => by
      cases h with
      | deref hoperand hderef =>
          simp [Expr.typing, operand.typing_eq hoperand, hderef.eq]
  | .address _ operand, _, _, h => by
      cases h with
      | address hoperand haddress =>
          simp [Expr.typing, operand.typing_eq hoperand, haddress.eq]
  | .unary _ operand, _, _, h => by
      cases h with
      | unary hoperand hsigned =>
          simp [Expr.typing, operand.typing_eq hoperand, hsigned.eq]
  | .stepped operand _, _, _, h => by
      cases h with
      | stepped hoperand hsigned =>
          simp [Expr.typing, operand.typing_eq hoperand, hsigned.eq]
  | .index base _ subscript _, _, _, h => by
      cases h with
      | index hbase hsubscript hindex hselected =>
          simp [Expr.typing, base.typing_eq hbase, subscript.typing_eq hsubscript,
            hselected.eq hindex]
  | .member base _ _ _, _, _, h => by
      cases h with
      | member hbase hmember =>
          simp [Expr.typing, base.typing_eq hbase, hmember.eq]
  | .binary _ left _ right, _, _, h => by
      cases h with
      | binary hleft hright hoperated =>
          simp [Expr.typing, left.typing_eq hleft, right.typing_eq hright, hoperated.eq]
  | .conditional condition _ first _ second, _, _, h => by
      cases h with
      | conditional hcondition hfirst hsecond haccepts =>
          simp [Expr.typing, condition.typing_eq hcondition, first.typing_eq hfirst,
            second.typing_eq hsecond, Finding.complain_eq, haccepts]
      | incompatible hcondition hfirst hsecond haccepts =>
          simp [Expr.typing, condition.typing_eq hcondition, first.typing_eq hfirst,
            second.typing_eq hsecond, Finding.complain_eq, haccepts]
  | .group _ inner _, _, _, h => by
      cases h with
      | group hinner =>
          simp [Expr.typing, inner.typing_eq hinner]
  | .sizeofType _ _ spec _ _, _, _, h => by
      cases h with
      | sizeofType hspec =>
          obtain ⟨base, hbase⟩ := hspec.eq
          simp [Expr.typing, hbase]
  | .sizeofExpr _ _ operand _, _, _, h => by
      cases h with
      | sizeofExpr hoperand =>
          simp [Expr.typing, operand.typing_eq hoperand]
  | .missing _, _, _, h => nomatch h

/-- The same for arguments. -/
theorem Trail.typing_eq : ∀ (others : Trail) {given : List Argument} {issues : List Issue},
    others.HaveTypes σ given issues → others.typing σ = ⟨issues, .ok given⟩
  | .nil, _, _, h => by
      cases h
      rfl
  | .cons _ argument rest, _, _, h => by
      cases h with
      | cons hargument hrest =>
          simp [Trail.typing, argument.typing_eq hargument, rest.typing_eq hrest]

end

end

end MiniC
