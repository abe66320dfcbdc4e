import MiniC.CType

/-!
# `MiniC.Symbols.Scope` — variables in nested scopes

The open scopes stand in a list, the innermost first, and each holds the variables declared in it.
A name is looked up from the inside out, so an inner variable shadows an outer one of its name; in
one scope a name is declared once.

## Contents
- `Refusal`: why a declaration is refused; `Attempt`: what it leaves, and its answer; `Careful`: it
  leaves all as it was where it is refused.
- `Variable`, `Scope`, `Scopes` with `enter`, `leave`, `tryDeclare`, `declare`, `find?`.
-/

namespace MiniC

/-- Why a declaration is refused. -/
inductive Refusal
  | variableRedeclared (name : String)
  | functionRedeclared (name : String)
  | conflictingFunction (name : String)
  | structRedeclared (name : String)
  | fieldRedeclared (struct field : String)
  | noOpenScope (name : String)
deriving DecidableEq, Repr

/-- The message that reports a refused declaration. -/
def Refusal.message : Refusal → String
  | variableRedeclared name => s!"Variable '{name}' already declared in this scope"
  | functionRedeclared name => s!"Function '{name}' already declared"
  | conflictingFunction name => s!"Conflicting declaration of function '{name}'"
  | structRedeclared name => s!"Struct '{name}' already declared"
  | fieldRedeclared struct field => s!"Field '{field}' already declared in struct '{struct}'"
  | noOpenScope name => s!"No open scope to declare '{name}' in"

/-- What a declaration leaves of what it is to change, and whether it is refused. -/
abbrev Attempt (α : Type) := α × Except Refusal Unit

/-- What was declared, or why it is refused. -/
def Attempt.result {α : Type} (attempt : Attempt α) : Except Refusal α :=
  attempt.2.map fun _ => attempt.1

theorem Attempt.result_eq_error_iff {α : Type} {attempt : Attempt α} {refusal : Refusal} :
    attempt.result = .error refusal ↔ attempt.2 = .error refusal := by
  obtain ⟨state, _ | _⟩ := attempt <;> simp [result, Except.map]

/-- A declaration that leaves all as it was wherever it is refused. -/
def Careful {α : Type} (declare : α → Attempt α) : Prop :=
  ∀ state refusal, (declare state).2 = .error refusal → (declare state).1 = state

/-- A declaration that asks first whether it is refused, and changes something only if it is not. -/
theorem Careful.of_ite {α : Type} {known : α → Prop} [DecidablePred known] {reason : α → Refusal}
    {new : α → α} : Careful fun state =>
      if known state then (state, .error (reason state)) else (new state, .ok ()) := by
  intro state refusal hrefused
  dsimp only at hrefused ⊢
  by_cases hknown : known state
  · rw [if_pos hknown]
  · rw [if_neg hknown] at hrefused
    cases hrefused

/-- A careful declaration is refused and has changed nothing, or it is accepted. -/
theorem Careful.refused_or_accepted {α : Type} {declare : α → Attempt α} (h : Careful declare)
    (state : α) :
    (∃ refusal, declare state = (state, .error refusal)) ∨
      ∃ later, declare state = (later, .ok ()) := by
  cases hanswer : (declare state).2 with
  | error refusal => exact .inl ⟨refusal, Prod.ext (h state refusal hanswer) hanswer⟩
  | ok _ => exact .inr ⟨(declare state).1, Prod.ext rfl hanswer⟩

/-- A declared variable. -/
structure Variable where
  name : String
  type : CType
  isConst : Bool
  /-- The line of the declaration. -/
  line : Nat
deriving DecidableEq, Repr

/-- The variables of one scope. -/
abbrev Scope := List Variable

/-- The variable of a scope with the given name. -/
def Scope.find? (scope : Scope) (name : String) : Option Variable :=
  List.find? (·.name == name) scope

/-- The open scopes, the innermost first. -/
abbrev Scopes := List Scope

namespace Scopes

/-- Open a scope inside the others. -/
def enter (scopes : Scopes) : Scopes := [] :: scopes

/-- Close the innermost scope, if one is open. -/
def leave (scopes : Scopes) : Scopes := scopes.tail

/-- How many scopes are open. -/
def depth (scopes : Scopes) : Nat := scopes.length

/-- The variable that a name stands for: the one in the innermost scope that has it. -/
def find? (scopes : Scopes) (name : String) : Option Variable :=
  scopes.findSome? (·.find? name)

/-- Try to declare a variable in the innermost scope. -/
def tryDeclare : Scopes → Variable → Attempt Scopes
  | [], v => ([], .error (.noOpenScope v.name))
  | scope :: outer, v =>
    if (scope.find? v.name).isSome then (scope :: outer, .error (.variableRedeclared v.name))
    else ((v :: scope) :: outer, .ok ())

theorem tryDeclare_of_known {scope : Scope} {v : Variable} (h : (scope.find? v.name).isSome = true)
    (outer : Scopes) :
    tryDeclare (scope :: outer) v = (scope :: outer, .error (.variableRedeclared v.name)) :=
  if_pos h

theorem tryDeclare_of_new {scope : Scope} {v : Variable} (h : ¬(scope.find? v.name).isSome = true)
    (outer : Scopes) : tryDeclare (scope :: outer) v = ((v :: scope) :: outer, .ok ()) :=
  if_neg h

theorem careful_tryDeclare (v : Variable) : Careful (tryDeclare · v) := by
  intro scopes refusal hrefused
  cases scopes with
  | nil => rfl
  | cons scope outer =>
      dsimp only at hrefused ⊢
      by_cases hknown : (scope.find? v.name).isSome = true
      · rw [tryDeclare_of_known hknown]
      · rw [tryDeclare_of_new hknown] at hrefused
        cases hrefused

/-- The scopes with a variable declared in the innermost, or why it is refused. -/
def declare (scopes : Scopes) (v : Variable) : Except Refusal Scopes := (scopes.tryDeclare v).result

@[simp] theorem leave_enter (scopes : Scopes) : scopes.enter.leave = scopes := rfl

@[simp] theorem depth_enter (scopes : Scopes) : scopes.enter.depth = scopes.depth + 1 := rfl

end Scopes

end MiniC
