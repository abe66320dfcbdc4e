import MiniC.Proofs.Checking.Scopes
import MiniC.Proofs.Expression.Readable
import MiniC.Proofs.Expression.Rules

/-!
# `MiniC.Proofs.Expression.Inference` — expressions are read and typed as the rules say

A reader that types as it goes could stop short, read on too far, or let a complaint about one
part change how the next is typed.  That it does none of this is shown against the trees of the
grammar and the rules of types: from the tokens of a tree, in front of whatever may stand behind
an expression, the tree is read back, and its type and issues are those of the rules.

## Contents
- `Expr.exists_hasType`: the rules give every tree of the grammar a type.
- `expression_inferred`: **a tree of the grammar is read from its tokens and typed by the rules.**
-/

namespace MiniC

open Cursor (reading)

/-! ## The rules give a type -/

theorem exists_specified {spec : TypeSpec} (h : spec.Grammatical) (σ : Symbols) :
    ∃ issues, Specified σ spec issues := by
  cases spec with
  | words first rest => exact ⟨_, .words⟩
  | struct keyword name =>
      obtain ⟨-, t, rfl, -⟩ := h
      cases hstruct : σ.struct? t.lexeme with
      | none => exact ⟨_, .undeclared hstruct⟩
      | some struct => exact ⟨_, .declared (by rw [hstruct]; rfl)⟩
  | missing hole => exact h.elim

mutual

/-- The rules give every tree of the grammar a type. -/
theorem Expr.exists_hasType (σ : Symbols) : ∀ e : Expr, e.Grammatical →
    ∃ type issues, e.HasType σ type issues
  | .literal .int _, _ => ⟨_, _, .int⟩
  | .literal .float _, _ => ⟨_, _, .float⟩
  | .literal .char _, _ => ⟨_, _, .char⟩
  | .literal .string _, _ => ⟨_, _, .string⟩
  | .var name, _ => by
      cases hvar : σ.var? name.lexeme with
      | none => exact ⟨_, _, .undeclared hvar⟩
      | some v => exact ⟨_, _, .var hvar⟩
  | .emptyCall name _ _, h => by
      obtain ⟨-, -, closing, rfl, -⟩ := h
      obtain ⟨type, issues, hcalled⟩ := exists_called σ name [] []
      exact ⟨type, issues, .emptyCall hcalled⟩
  | .call name _ first others _, h => by
      obtain ⟨-, -, hfirst, hothers, closing, rfl, -⟩ := h
      obtain ⟨firstType, firstIssues, hfirst⟩ := first.exists_hasType σ hfirst
      obtain ⟨given, moreIssues, hothers⟩ := others.exists_haveTypes σ hothers
      obtain ⟨type, issues, hcalled⟩ :=
        exists_called σ name (⟨firstType, first.lead⟩ :: given) (firstIssues ++ moreIssues)
      exact ⟨type, issues, .call hfirst hothers hcalled⟩
  | .deref star operand, h => by
      obtain ⟨operandType, _, hoperand⟩ := operand.exists_hasType σ h.2.2
      obtain ⟨_, _, hderef⟩ := exists_dereferenced star operandType
      exact ⟨_, _, .deref hoperand hderef⟩
  | .address _ operand, h => by
      obtain ⟨operandType, _, hoperand⟩ := operand.exists_hasType σ h.2.2
      obtain ⟨_, haddress⟩ := exists_addressed operandType
      exact ⟨_, _, .address hoperand haddress⟩
  | .unary operator operand, h => by
      obtain ⟨operandType, _, hoperand⟩ := operand.exists_hasType σ h.2.2
      obtain ⟨_, _, hsigned⟩ := exists_signed operator operandType
      exact ⟨_, _, .unary hoperand hsigned⟩
  | .stepped operand operator, h => by
      obtain ⟨operandType, _, hoperand⟩ := operand.exists_hasType σ h.2.2
      obtain ⟨_, _, hsigned⟩ := exists_signed operator operandType
      exact ⟨_, _, .stepped hoperand hsigned⟩
  | .index base opening subscript _, h => by
      obtain ⟨-, hbase, -, hsubscript, closing, rfl, -⟩ := h
      obtain ⟨baseType, _, hbase⟩ := base.exists_hasType σ hbase
      obtain ⟨indexType, _, hsubscript⟩ := subscript.exists_hasType σ hsubscript
      obtain ⟨_, hindex⟩ := exists_indexing subscript.lead indexType
      obtain ⟨_, _, hselected⟩ := exists_subscripted opening baseType
      exact ⟨_, _, .index hbase hsubscript hindex hselected⟩
  | .member base access operator _, h => by
      obtain ⟨-, hbase, -, field, rfl, -⟩ := h
      obtain ⟨baseType, _, hbase⟩ := base.exists_hasType σ hbase
      obtain ⟨_, _, hmember⟩ := exists_memberOf σ operator field access baseType
      exact ⟨_, _, .member hbase hmember⟩
  | .binary tier left operator right, h => by
      obtain ⟨-, hleft, -, -, hright⟩ := h
      obtain ⟨leftType, _, hleft⟩ := left.exists_hasType σ hleft
      obtain ⟨rightType, _, hright⟩ := right.exists_hasType σ hright
      obtain ⟨_, _, hoperated⟩ := exists_operated tier operator leftType rightType
      exact ⟨_, _, .binary hleft hright hoperated⟩
  | .conditional condition _ first _ second, h => by
      obtain ⟨-, hcondition, -, hfirst, ⟨colon, rfl, -⟩, hsecond⟩ := h
      obtain ⟨_, _, hcondition⟩ := condition.exists_hasType σ hcondition
      obtain ⟨firstType, _, hfirst⟩ := first.exists_hasType σ hfirst
      obtain ⟨secondType, _, hsecond⟩ := second.exists_hasType σ hsecond
      cases haccepts : firstType.accepts secondType with
      | true => exact ⟨_, _, .conditional hcondition hfirst hsecond haccepts⟩
      | false => exact ⟨_, _, .incompatible hcondition hfirst hsecond haccepts⟩
  | .group _ inner _, h => by
      obtain ⟨-, hinner, closing, rfl, -⟩ := h
      obtain ⟨_, _, hinner⟩ := inner.exists_hasType σ hinner
      exact ⟨_, _, .group hinner⟩
  | .sizeofType _ _ spec _ _, h => by
      obtain ⟨-, ⟨opening, rfl, -⟩, hspec, -, closing, rfl, -⟩ := h
      obtain ⟨_, hspecified⟩ := exists_specified hspec σ
      exact ⟨_, _, .sizeofType hspecified⟩
  | .sizeofExpr _ _ operand _, h => by
      obtain ⟨-, ⟨opening, rfl, -⟩, hoperand, closing, rfl, -⟩ := h
      obtain ⟨_, _, hoperand⟩ := operand.exists_hasType σ hoperand
      exact ⟨_, _, .sizeofExpr hoperand⟩
  | .missing _, h => h.elim

/-- The rules give arguments their types. -/
theorem Trail.exists_haveTypes (σ : Symbols) : ∀ others : Trail, others.Grammatical →
    ∃ given issues, others.HaveTypes σ given issues
  | .nil, _ => ⟨_, _, .nil⟩
  | .cons _ argument rest, h => by
      obtain ⟨_, _, hargument⟩ := argument.exists_hasType σ h.2.1
      obtain ⟨_, _, hrest⟩ := rest.exists_haveTypes σ h.2.2
      exact ⟨_, _, .cons hargument hrest⟩

end

/-! ## Reading and typing -/

/-- The rules give one type, and the issues in one order. -/
theorem Expr.HasType.unique {σ : Symbols} {e : Expr} {type type' : CType}
    {issues issues' : List Issue} (h : e.HasType σ type issues) (h' : e.HasType σ type' issues') :
    type' = type ∧ issues' = issues := by
  have heq := (e.typing_eq h').symm.trans (e.typing_eq h)
  obtain ⟨hissues, houtcome⟩ := Finding.mk.inj heq
  exact ⟨Except.ok.inj houtcome, hissues⟩

/-- **A tree of the grammar is read from its tokens and typed by the rules.**  In front of whatever
may stand behind an expression the reader takes the tokens of the tree and no more.  Under any
symbols the rules give the tree one type, with its issues in one order, and these are what the
typing function finds.  Whatever the issues are, the state that the expression is checked in is
the one that it leaves. -/
theorem expression_inferred {e : Expr} (h : e.Grammatical) {rest : List Token}
    (hrest : EndsExpression rest) (state : State) :
    (Cursor.expression (reading (e.tokens ++ rest))).tree = e ∧
      (Cursor.expression (reading (e.tokens ++ rest))).next = reading rest ∧
      ∃ type issues, e.HasType state.symbols type issues ∧
        (∀ type' issues', e.HasType state.symbols type' issues' →
          type' = type ∧ issues' = issues) ∧
        e.typing state.symbols = ⟨issues, .ok type⟩ ∧
        (Part.expression e).run state = (state, ⟨issues, .ok ()⟩) := by
  have hread := (e.readable h).expression rest (hrest.endsLevel 6)
  obtain ⟨type, issues, htype⟩ := e.exists_hasType state.symbols h
  have htyping := e.typing_eq htype
  refine ⟨hread.tree, hread.next, type, issues, htype, fun _ _ => htype.unique, htyping, ?_⟩
  have hcheck : (Part.expression e).check state.context state.struct state.symbols =
      (state.symbols, ⟨issues, .ok ()⟩) := by
    show (Check.reading e.typing >>= fun _ => pure ()) state.symbols = _
    simp [Check.bind_run, Check.reading, Check.pure_run, htyping]
  rw [Part.run, hcheck]

/-- The variable of `x + 1`. -/
def sumVariable : Token := ⟨.ident, "x", ⟨1, 1⟩⟩

/-- The expression `x + 1`. -/
def sumExpr : Expr :=
  .binary .additive (.var sumVariable) ⟨.operator .plus, "+", ⟨1, 3⟩⟩
    (.literal .int ⟨.literal .int, "1", ⟨1, 5⟩⟩)

/-- Where nothing is declared, `x + 1` in front of a semicolon is read whole, and the one issue is
that there is no `x`. -/
theorem sumExpr_inferred :
    let semicolon : Token := ⟨.punct .semicolon, ";", ⟨1, 6⟩⟩
    let state : State := ⟨.empty, .global, none⟩
    (Cursor.expression (reading (sumExpr.tokens ++ [semicolon]))).tree = sumExpr ∧
      (Cursor.expression (reading (sumExpr.tokens ++ [semicolon]))).next = reading [semicolon] ∧
      (Part.expression sumExpr).run state =
        (state, ⟨faulty (.undeclaredVariable "x") sumVariable, .ok ()⟩) := by
  intro semicolon state
  have htree : sumExpr.Grammatical := ⟨Nat.zero_le _, rfl, rfl, by decide, rfl⟩
  have hends : EndsExpression [semicolon] := endsExpression_cons rfl
  obtain ⟨hread, hnext, type, issues, -, hunique, -, hrun⟩ :=
    expression_inferred htree hends state
  have htype : sumExpr.HasType state.symbols .unknown
      (faulty (.undeclaredVariable "x") sumVariable ++ ([] ++ [])) :=
    .binary (.undeclared rfl) .int (.additive (.unknown (.inl fun hknown => hknown rfl)))
  obtain ⟨-, rfl⟩ := hunique _ _ htype
  exact ⟨hread, hnext, hrun⟩

end MiniC
