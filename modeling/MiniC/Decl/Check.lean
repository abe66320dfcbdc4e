import MiniC.Decl.Basic
import MiniC.Expr.Typing

/-!
# `MiniC.Decl.Check` — checking declarations

A name is declared as soon as it was read, so an initial value may mention its own variable.  A
function is declared behind the closing parenthesis of its header, so its body may call it.  A
struct is declared behind its last field.
-/

namespace MiniC

/-! ## Variables -/

/-- Check that the brackets behind a name are complete. -/
def ArraySuffix.check (suffix : ArraySuffix) : Finding Unit := do
  suffix.size.require
  suffix.closing.require

/-- The type of a name with brackets behind it, or without. -/
def CType.withSuffix (t : CType) : Option ArraySuffix → Finding CType
  | none => pure t
  | some suffix => do
      suffix.check
      pure t.withArray

/-- Declare a variable at its name. -/
def declareVariable (name : Token) (type : CType) (isConst : Bool) : Check Unit :=
  Check.register (·.tryVariable ⟨name.lexeme, type, isConst, name.location.line⟩) name

/-- A variable is refused and reported at its name, or it stands first in the innermost scope. -/
theorem declareVariable_cases (name : Token) (type : CType) (isConst : Bool) (σ : Symbols) :
    (∃ refusal, declareVariable name type isConst σ = (σ, .report (.refused refusal) name)) ∨
      ∃ scope outer, σ.scopes = scope :: outer ∧
        declareVariable name type isConst σ =
          ({ σ with
              scopes := (⟨name.lexeme, type, isConst, name.location.line⟩ :: scope) :: outer },
            pure ()) := by
  obtain ⟨scopes, functions, structs⟩ := σ
  let v : Variable := ⟨name.lexeme, type, isConst, name.location.line⟩
  cases scopes with
  | nil => exact .inl ⟨.noOpenScope name.lexeme, rfl⟩
  | cons scope outer =>
      by_cases hdeclared : (scope.find? v.name).isSome = true
      · have hrefused := Symbols.tryVariable_of_known hdeclared outer functions structs
        exact .inl ⟨.variableRedeclared name.lexeme, Check.register_of_refused hrefused name⟩
      · have haccepted := Symbols.tryVariable_of_new hdeclared outer functions structs
        exact .inr ⟨scope, outer, rfl, Check.register_of_accepted haccepted name⟩

/-- Whether `const` is among qualifiers. -/
def hasConst (qualifiers : List Token) : Bool :=
  qualifiers.any (·.kind == .keyword (.qualifier .const))

/-- Check the initial value of a variable. -/
def checkInitializer (name : Token) (type : CType) (init : Option (Token × Expr)) : Check Unit :=
  match init with
  | none => pure ()
  | some (_, value) => do
      let found ← Check.reading value.typing
      Finding.complain (type.accepts found) (.initialValue name.lexeme type found) value.lead

/-- Check one declared variable of a declaration. -/
def Declarator.check (base : BaseType) (isConst : Bool) (d : Declarator) : Check Unit := do
  let name ← d.name.get
  let type ← ((CType.plain base).withStars d.stars).withSuffix d.array
  Finding.complain (!type.isVoid) (.voidVariable name.lexeme) name
  declareVariable name type isConst
  checkInitializer name type d.init

/-- Check declared variables one after the other. -/
def checkDeclarators (base : BaseType) (isConst : Bool) : List Declarator → Check Unit
  | [] => pure ()
  | d :: rest => do
      d.check base isConst
      checkDeclarators base isConst rest

/-- Check a declaration of variables. -/
def Declaration.check (d : Declaration) : Check Unit := do
  let base ← Check.reading fun σ => d.spec.resolve σ none
  checkDeclarators base (hasConst d.qualifiers) (d.first :: d.others.map (·.2))
  d.semicolon.require

/-! ## Structs -/

/-- Add a field to a struct, or report at its name why it is refused. -/
def StructDef.admit (struct : StructDef) (name : Token) (type : CType) : Finding StructDef :=
  let (extended, answer) := struct.tryField name.lexeme type
  match answer with
  | .ok () => pure extended
  | .error refusal => do
      Finding.report (.refused refusal) name
      pure extended

/-- Check a field and add it to its struct. -/
def Field.check (σ : Symbols) (struct : StructDef) (field : Field) : Finding StructDef := do
  let base ← field.spec.resolve σ (some struct.name)
  let name ← field.name.get
  let type ← ((CType.plain base).withStars field.stars).withSuffix field.array
  field.semicolon.require
  struct.admit name type

/-- Check fields and add them to their struct, without those that have a hole. -/
def checkFields (σ : Symbols) (struct : StructDef) : List Field → Finding StructDef
  | [] => pure struct
  | field :: rest => do
      let extended ← (field.check σ struct).settledWith struct
      checkFields σ extended rest

/-- Check the definition of a struct. -/
def StructDecl.check (s : StructDecl) : Check Unit := do
  let struct ← Check.reading fun σ =>
    checkFields σ ⟨s.name.lexeme, s.name.location.line, []⟩ s.fields
  Check.register (·.tryStruct struct) s.name
  s.closing.require
  s.semicolon.require

/-! ## Functions -/

/-- The type of a parameter with brackets behind its name, or without. -/
def CType.withParamArray (t : CType) : Option ParamArray → Finding CType
  | none => pure t
  | some suffix => do
      suffix.closing.require
      pure t.withArray

/-- Check a parameter and declare it. -/
def Param.check (p : Param) : Check Parameter := do
  let base ← Check.reading fun σ => p.spec.resolve σ none
  let name ← p.name.get
  let type ← ((CType.plain base).withStars p.stars).withParamArray p.array
  declareVariable name type (hasConst p.qualifiers)
  pure ⟨name.lexeme, type⟩

/-- Check parameters one after the other. -/
def checkParams : List Param → Check (List Parameter)
  | [] => pure []
  | p :: rest => do
      let first ← p.check
      let others ← checkParams rest
      pure (first :: others)

/-- The parameters of a header, in order. -/
def Params.toList : Params → List Param
  | none => []
  | void _ => []
  | list first others => first :: others.map (·.2)

/-- The function around a statement. -/
structure Enclosing where
  name : String
  returns : CType
deriving DecidableEq, Repr

/-- Check the header of a function and declare the function. -/
def Header.check (h : Header) (defined : Bool) : Check Enclosing := do
  let base ← Check.reading fun σ => h.spec.resolve σ none
  let returns := (CType.plain base).withStars h.stars
  let name ← h.name.get
  h.opening.require
  let parameters ← checkParams h.params.toList
  h.closing.require
  Check.register
    (·.tryFunction ⟨name.lexeme, returns, parameters, name.location.line, defined⟩) name
  pure ⟨name.lexeme, returns⟩

end MiniC
