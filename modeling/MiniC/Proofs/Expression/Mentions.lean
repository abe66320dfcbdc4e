import MiniC.Proofs.Names.Looks

/-!
# `MiniC.Proofs.Expression.Mentions` — an expression depends on the variables that it mentions

What is found on an expression depends on the symbols only through the functions, the structs and
what the words stand for that are used as variables in it.  So the expression may be moved to
where other variables are declared: behind the declaration of a variable that it does not mention,
or into another scope.

## Contents
- `Symbols.AlikeFor`: symbols in which words stand for the same.
- `AlikeFor.memberType`, …: the rules that look something up.
- `Expr.typing_alikeFor`: **an expression depends on the variables that it mentions.**
- `declareVariable_alikeFor`: a declaration, seen from words that do not mention it.
-/

namespace MiniC

/-- Symbols in which the words that are used as variables stand for the same, and which have the
same functions and structs. -/
structure Symbols.AlikeFor (words : List Word) (σ σ' : Symbols) : Prop where
  var? : ∀ word ∈ words, word.isUse = true →
    σ.var? word.token.lexeme = σ'.var? word.token.lexeme
  functions : σ.functions = σ'.functions
  structs : σ.structs = σ'.structs

/-- Whether the words use the name as a variable. -/
def Mentions (words : List Word) (name : String) : Prop :=
  ∃ word ∈ words, word.isUse = true ∧ word.token.lexeme = name

namespace Symbols.AlikeFor

variable {words more : List Word} {σ σ' : Symbols}

theorem refl (words : List Word) (σ : Symbols) : σ.AlikeFor words σ :=
  ⟨fun _ _ _ => rfl, rfl, rfl⟩

theorem left (h : σ.AlikeFor (words ++ more) σ') : σ.AlikeFor words σ' where
  var? word hword := h.var? word (List.mem_append_left _ hword)
  functions := h.functions
  structs := h.structs

theorem right (h : σ.AlikeFor (words ++ more) σ') : σ.AlikeFor more σ' where
  var? word hword := h.var? word (List.mem_append_right _ hword)
  functions := h.functions
  structs := h.structs

/-! ## Rules that look something up -/

theorem function? (h : σ.AlikeFor words σ') (name : String) :
    σ.function? name = σ'.function? name := by
  rw [Symbols.function?, h.functions]
  rfl

theorem struct? (h : σ.AlikeFor words σ') (name : String) : σ.struct? name = σ'.struct? name := by
  rw [Symbols.struct?, h.structs]
  rfl

theorem resolve (h : σ.AlikeFor words σ') (enclosing : Option String) (spec : TypeSpec) :
    spec.resolve σ enclosing = spec.resolve σ' enclosing := by
  cases spec with
  | words first rest => rfl
  | struct keyword name => simp only [TypeSpec.resolve, h.struct?]
  | missing hole => rfl

theorem memberType (h : σ.AlikeFor words σ') (access : Access) (operator : Token) (base : CType)
    (field : Token) :
    MiniC.memberType σ access operator base field =
      MiniC.memberType σ' access operator base field := by
  simp only [MiniC.memberType, fieldType, h.struct?]

theorem callType (h : σ.AlikeFor words σ') (name : Token) {arguments arguments' : Finding _}
    (harguments : arguments = arguments') (closing : Slot) :
    MiniC.callType σ name arguments closing = MiniC.callType σ' name arguments' closing := by
  simp only [MiniC.callType, h.function?, harguments]

end Symbols.AlikeFor

section

variable {σ σ' : Symbols}

mutual

/-- **An expression depends on the variables that it mentions.** -/
theorem Expr.typing_alikeFor : ∀ e : Expr, σ.AlikeFor e.words σ' → e.typing σ = e.typing σ'
  | .literal _ _, _ => rfl
  | .var name, h => by
      have hname : σ.var? name.lexeme = σ'.var? name.lexeme :=
        h.var? ⟨name, true⟩ (List.mem_singleton.2 rfl) rfl
      simp only [Expr.typing, hname]
  | .emptyCall name _ closing, h => h.callType name rfl closing
  | .call name opening first others closing, h => by
      have hfirst := first.typing_alikeFor h.right.left
      have hothers := others.typing_alikeFor h.right.right.left
      refine h.callType name ?_ closing
      rw [hfirst, hothers]
  | .deref star operand, h => by
      simp only [Expr.typing, operand.typing_alikeFor h.right]
  | .address ampersand operand, h => by
      simp only [Expr.typing, operand.typing_alikeFor h.right]
  | .unary operator operand, h => by
      simp only [Expr.typing, operand.typing_alikeFor h.right]
  | .stepped operand operator, h => by
      simp only [Expr.typing, operand.typing_alikeFor h.left]
  | .index base opening subscript closing, h => by
      simp only [Expr.typing, base.typing_alikeFor h.left,
        subscript.typing_alikeFor h.right.right.left]
  | .member base access operator field, h => by
      simp only [Expr.typing, base.typing_alikeFor h.left, h.memberType]
  | .binary tier left operator right, h => by
      simp only [Expr.typing, left.typing_alikeFor h.left, right.typing_alikeFor h.right.right]
  | .conditional condition question first colon second, h => by
      simp only [Expr.typing, condition.typing_alikeFor h.left,
        first.typing_alikeFor h.right.right.left,
        second.typing_alikeFor h.right.right.right.right]
  | .group opening inner closing, h => by
      simp only [Expr.typing, inner.typing_alikeFor h.right.left]
  | .sizeofType keyword opening spec stars closing, h => by
      simp only [Expr.typing, h.resolve]
  | .sizeofExpr keyword opening operand closing, h => by
      simp only [Expr.typing, operand.typing_alikeFor h.right.left]
  | .missing _, _ => rfl

/-- Arguments depend on the variables that they mention. -/
theorem Trail.typing_alikeFor : ∀ others : Trail, σ.AlikeFor others.words σ' →
    others.typing σ = others.typing σ'
  | .nil, _ => rfl
  | .cons comma argument rest, h => by
      simp only [Trail.typing, argument.typing_alikeFor h.right.left,
        rest.typing_alikeFor h.right.right]

end

/-! ## Declarations -/

/-- A declared variable makes no difference to words that do not mention it. -/
theorem declareVariable_alikeFor {words : List Word} {name : Token} (type : CType)
    (isConst : Bool) (h : ¬Mentions words name.lexeme) (σ : Symbols) :
    (declareVariable name type isConst σ).1.AlikeFor words σ := by
  rcases declareVariable_cases name type isConst σ with
    ⟨refusal, hrefused⟩ | ⟨scope, outer, hscopes, hdeclared⟩
  · rw [hrefused]
    exact .refl words σ
  · rw [hdeclared]
    refine ⟨fun word hword huse => ?_, rfl, rfl⟩
    have hother : ¬(name.lexeme == word.token.lexeme) = true := by
      intro heq
      exact h ⟨word, hword, huse, (beq_iff_eq.1 heq).symm⟩
    have hfind : Scope.find? (⟨name.lexeme, type, isConst, name.location.line⟩ :: scope)
        word.token.lexeme = scope.find? word.token.lexeme := List.find?_cons_of_neg hother
    unfold Symbols.var? Scopes.find?
    rw [hscopes, List.findSome?_cons, List.findSome?_cons, hfind]

end

end MiniC
