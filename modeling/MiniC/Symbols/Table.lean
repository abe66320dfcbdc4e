import MiniC.Symbols.Scope

/-!
# `MiniC.Symbols.Table` — what the names of a program stand for

Beside the variables in scope a program has functions and structs, which are known everywhere.
The first declaration of a name stands; only a function that was announced by a prototype may be
declared again, with the same signature, and its definition then takes the prototype's place.

## Contents
- `Parameter`, `Function`, `StructDef` with `tryField`, `addField`, `field?`.
- `Symbols` with `tryVariable`, `tryFunction`, `tryStruct`, which leave something and are answered,
  and `declareVariable`, `declareFunction`, `declareStruct`, which tell what is left or why not.
- `DeclaresFunction`: what becomes of the declaration of a function.
- `careful_tryField`, `careful_tryVariable`, `careful_tryFunction`, `careful_tryStruct`: what is
  refused changes nothing.
-/

namespace MiniC

/-! ## Functions and structs -/

/-- A parameter of a function. -/
structure Parameter where
  name : String
  type : CType
deriving DecidableEq, Repr

/-- A declared function. -/
structure Function where
  name : String
  returns : CType
  parameters : List Parameter
  /-- The line of the declaration. -/
  line : Nat
  /-- Whether this is a definition and not a prototype. -/
  defined : Bool
deriving DecidableEq, Repr

/-- The types that callers see: what a function returns and takes. -/
def Function.signature (f : Function) : CType × List CType :=
  (f.returns, f.parameters.map Parameter.type)

/-- A declared struct, its fields in the order of declaration. -/
structure StructDef where
  name : String
  /-- The line of the declaration. -/
  line : Nat
  fields : List (String × CType)
deriving DecidableEq, Repr

namespace StructDef

/-- The type of a field. -/
def field? (struct : StructDef) (name : String) : Option CType :=
  struct.fields.lookup name

/-- Try to add a field behind the others. -/
def tryField (struct : StructDef) (name : String) (type : CType) : Attempt StructDef :=
  if (struct.field? name).isSome then (struct, .error (.fieldRedeclared struct.name name))
  else ({ struct with fields := struct.fields ++ [(name, type)] }, .ok ())

theorem tryField_of_known {struct : StructDef} {name : String}
    (h : (struct.field? name).isSome = true) (type : CType) :
    struct.tryField name type = (struct, .error (.fieldRedeclared struct.name name)) :=
  if_pos h

theorem tryField_of_new {struct : StructDef} {name : String}
    (h : ¬(struct.field? name).isSome = true) (type : CType) :
    struct.tryField name type =
      ({ struct with fields := struct.fields ++ [(name, type)] }, .ok ()) :=
  if_neg h

theorem careful_tryField (name : String) (type : CType) : Careful (tryField · name type) :=
  .of_ite

/-- The struct with one more field, or why it is refused. -/
def addField (struct : StructDef) (name : String) (type : CType) : Except Refusal StructDef :=
  (struct.tryField name type).result

end StructDef

/-! ## The table -/

/-- The open scopes, and the functions and structs declared so far. -/
structure Symbols where
  scopes : Scopes
  functions : List Function
  structs : List StructDef
deriving DecidableEq, Repr

namespace Symbols

/-- Nothing declared and no scope open. -/
def empty : Symbols := ⟨[], [], []⟩

/-! ### Scopes and variables -/

/-- Open a scope inside the others. -/
def enter (σ : Symbols) : Symbols := { σ with scopes := σ.scopes.enter }

/-- Close the innermost scope, if one is open. -/
def leave (σ : Symbols) : Symbols := { σ with scopes := σ.scopes.leave }

/-- How many scopes are open. -/
def depth (σ : Symbols) : Nat := σ.scopes.depth

/-- The variable that a name stands for. -/
def var? (σ : Symbols) (name : String) : Option Variable := σ.scopes.find? name

/-- Try to declare a variable in the innermost scope. -/
def tryVariable (σ : Symbols) (v : Variable) : Attempt Symbols :=
  let (scopes, answer) := σ.scopes.tryDeclare v
  ({ σ with scopes := scopes }, answer)

section

variable {scope : Scope} {v : Variable}

theorem tryVariable_of_known (h : (scope.find? v.name).isSome = true) (outer : Scopes)
    (functions : List Function) (structs : List StructDef) :
    tryVariable ⟨scope :: outer, functions, structs⟩ v =
      (⟨scope :: outer, functions, structs⟩, .error (.variableRedeclared v.name)) := by
  unfold tryVariable
  rw [Scopes.tryDeclare_of_known h]

theorem tryVariable_of_new (h : ¬(scope.find? v.name).isSome = true) (outer : Scopes)
    (functions : List Function) (structs : List StructDef) :
    tryVariable ⟨scope :: outer, functions, structs⟩ v =
      (⟨(v :: scope) :: outer, functions, structs⟩, .ok ()) := by
  unfold tryVariable
  rw [Scopes.tryDeclare_of_new h]

end

theorem careful_tryVariable (v : Variable) : Careful (tryVariable · v) := by
  intro σ refusal hrefused
  have hscopes : (σ.scopes.tryDeclare v).1 = σ.scopes :=
    Scopes.careful_tryDeclare v σ.scopes refusal hrefused
  show Symbols.mk (σ.scopes.tryDeclare v).1 σ.functions σ.structs = σ
  rw [hscopes]

/-- The symbols with one more variable, or why it is refused. -/
def declareVariable (σ : Symbols) (v : Variable) : Except Refusal Symbols :=
  (σ.tryVariable v).result

/-! ### Functions -/

/-- The function that a name stands for. -/
def function? (σ : Symbols) (name : String) : Option Function :=
  σ.functions.find? (·.name == name)

/-- Put `f` in the place of the function of its name. -/
def replaceFunction (σ : Symbols) (f : Function) : Symbols :=
  { σ with functions := σ.functions.map fun g => if g.name == f.name then f else g }

/-- Try to declare a function, or to announce it by a prototype.  A second definition is refused,
and so is a second declaration with another signature. -/
def tryFunction (σ : Symbols) (f : Function) : Attempt Symbols :=
  match σ.function? f.name with
  | none => ({ σ with functions := f :: σ.functions }, .ok ())
  | some known =>
    if known.defined && f.defined then (σ, .error (.functionRedeclared f.name))
    else if known.signature != f.signature then (σ, .error (.conflictingFunction f.name))
    else if f.defined then (σ.replaceFunction f, .ok ())
    else (σ, .ok ())

/-- What becomes of the declaration of a function. -/
inductive DeclaresFunction (σ : Symbols) (f : Function) : Attempt Symbols → Prop
  | first : σ.function? f.name = none →
      DeclaresFunction σ f ({ σ with functions := f :: σ.functions }, .ok ())
  | redeclared {known : Function} : σ.function? f.name = some known → known.defined = true →
      f.defined = true → DeclaresFunction σ f (σ, .error (.functionRedeclared f.name))
  | conflicting {known : Function} : σ.function? f.name = some known →
      ¬(known.defined = true ∧ f.defined = true) → known.signature ≠ f.signature →
      DeclaresFunction σ f (σ, .error (.conflictingFunction f.name))
  | defined {known : Function} : σ.function? f.name = some known → known.defined = false →
      f.defined = true → known.signature = f.signature →
      DeclaresFunction σ f (σ.replaceFunction f, .ok ())
  | announced {known : Function} : σ.function? f.name = some known → f.defined = false →
      known.signature = f.signature → DeclaresFunction σ f (σ, .ok ())

theorem declaresFunction (σ : Symbols) (f : Function) :
    DeclaresFunction σ f (σ.tryFunction f) := by
  unfold tryFunction
  cases hknown : σ.function? f.name with
  | none => exact .first hknown
  | some known =>
      dsimp only
      by_cases hboth : (known.defined && f.defined) = true
      · rw [if_pos hboth]
        rw [Bool.and_eq_true] at hboth
        exact .redeclared hknown hboth.1 hboth.2
      · rw [if_neg hboth]
        rw [Bool.and_eq_true] at hboth
        by_cases hsignature : known.signature = f.signature
        · rw [if_neg (by simpa using hsignature)]
          by_cases hdefined : f.defined = true
          · rw [if_pos hdefined]
            have hprototype : known.defined = false :=
              Bool.eq_false_iff.2 fun hknown => hboth ⟨hknown, hdefined⟩
            exact .defined hknown hprototype hdefined hsignature
          · rw [if_neg hdefined]
            exact .announced hknown (Bool.eq_false_iff.2 hdefined) hsignature
        · rw [if_pos (by simpa using hsignature)]
          exact .conflicting hknown hboth hsignature

theorem careful_tryFunction (f : Function) : Careful (tryFunction · f) := by
  intro σ refusal hrefused
  dsimp only at hrefused ⊢
  have hdeclares := σ.declaresFunction f
  generalize σ.tryFunction f = attempt at hdeclares hrefused
  cases hdeclares with
  | first => cases hrefused
  | redeclared => rfl
  | conflicting => rfl
  | defined => cases hrefused
  | announced => cases hrefused

/-- The symbols with one more function, or why it is refused. -/
def declareFunction (σ : Symbols) (f : Function) : Except Refusal Symbols :=
  (σ.tryFunction f).result

/-! ### Structs -/

/-- The struct of a name. -/
def struct? (σ : Symbols) (name : String) : Option StructDef :=
  σ.structs.find? (·.name == name)

/-- Try to declare a struct. -/
def tryStruct (σ : Symbols) (struct : StructDef) : Attempt Symbols :=
  if (σ.struct? struct.name).isSome then (σ, .error (.structRedeclared struct.name))
  else ({ σ with structs := struct :: σ.structs }, .ok ())

theorem tryStruct_of_known {σ : Symbols} {struct : StructDef}
    (h : (σ.struct? struct.name).isSome = true) :
    σ.tryStruct struct = (σ, .error (.structRedeclared struct.name)) :=
  if_pos h

theorem tryStruct_of_new {σ : Symbols} {struct : StructDef}
    (h : ¬(σ.struct? struct.name).isSome = true) :
    σ.tryStruct struct = ({ σ with structs := struct :: σ.structs }, .ok ()) :=
  if_neg h

theorem careful_tryStruct (struct : StructDef) : Careful (tryStruct · struct) := .of_ite

/-- The symbols with one more struct, or why it is refused. -/
def declareStruct (σ : Symbols) (struct : StructDef) : Except Refusal Symbols :=
  (σ.tryStruct struct).result

/-- The type of a field of a declared struct. -/
def field? (σ : Symbols) (struct field : String) : Option CType :=
  (σ.struct? struct).bind (·.field? field)

end Symbols

end MiniC
