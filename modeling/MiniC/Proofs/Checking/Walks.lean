import MiniC.Stmt.Check

/-!
# `MiniC.Proofs.Checking.Walks` — checking with a context that is set and restored

A check is handed what is around the part: the function, whether a loop or a switch is around, the
struct whose fields are being declared.  A walk is handed nothing.  All of this stands in fields
that the walk reads and changes on its way, the symbols among them.  Where a part needs other
values, they are written into the fields in front of it, and the old ones are written back behind
it, whether the part was whole or stopped at a hole.  A write that is forgotten would be seen by
everything that follows.

Scopes are opened where names begin to be known and nowhere else: a function has one from its
parameters on, and a body is a scope of its own unless it is a block, which opens one itself.

## Contents
- `Checker`: the fields.  `Walk`, a monad.
- `Walk.inScope`, `Walk.inLoop`, `Walk.inSwitch`, `Walk.inFunction`, `Walk.inStruct`: what is
  written in front of a part and written back behind it.
- One walk for each kind of tree, up to `Stmts.walkProgram`.
-/

namespace MiniC

/-! ## Fields -/

/-- What a walk reads and changes on its way. -/
@[ext] structure Checker where
  symbols : Symbols
  /-- The function whose body is being checked. -/
  function : Option Enclosing
  /-- The struct whose fields are being declared. -/
  struct : Option String
  /-- How many loops of that function are around. -/
  loops : Nat
  /-- How many switches of that function are around. -/
  switches : Nat

namespace Checker

/-- In front of a program. -/
def fresh : Checker := ⟨.empty, none, none, 0, 0⟩

/-- What is around the next statement. -/
def context (s : Checker) : Context := ⟨s.function, 0 < s.loops, 0 < s.switches⟩

end Checker

/-! ## Walks -/

/-- A check that finds its context in the fields of a checker, and leaves it there. -/
def Walk (α : Type) := Checker → Checker × Finding α

/-- Whether an issue is that the struct is not declared whose fields are being declared. -/
def Issue.isAbout (struct : Option String) : Issue → Bool
  | fault (.undeclaredStruct name) _ => struct == some name
  | _ => false

/-- What is found if the struct may be named whose fields are being declared.  Of a type this is
what is found when the struct is looked up in its field (`TypeSpec.walk_eq_reading`). -/
def Finding.sparing {α : Type} (struct : Option String) (f : Finding α) : Finding α :=
  ⟨f.issues.filter (!·.isAbout struct), f.outcome⟩

namespace Walk

variable {α β : Type}

/-- Walk over one part and then over the next, unless the first has a hole. -/
def andThen (w : Walk α) (next : α → Walk β) : Walk β := fun s =>
  let (s₁, first) := w s
  match first.outcome with
  | .error hole => (s₁, ⟨first.issues, .error hole⟩)
  | .ok a =>
    let (s₂, second) := next a s₁
    (s₂, ⟨first.issues ++ second.issues, second.outcome⟩)

instance : Monad Walk where
  pure a := fun s => (s, pure a)
  bind := andThen

/-- Look at the symbols, and at the struct whose fields are being declared. -/
def reading (f : Symbols → Finding α) : Walk α := fun s => (s, (f s.symbols).sparing s.struct)

/-- A walk that looks at no field. -/
def lift (f : Finding α) : Walk α := fun s => (s, f)

instance : MonadLift Finding Walk := ⟨lift⟩

/-- Look at the function around and at the depths. -/
def around : Walk Context := fun s => (s, pure s.context)

/-- Enter a declaration into the symbols, or report at its name why it is refused. -/
def register (declare : Symbols → Attempt Symbols) (name : Token) : Walk Unit := fun s =>
  let (σ, answer) := declare s.symbols
  match answer with
  | .ok () => ({ s with symbols := σ }, pure ())
  | .error refusal => ({ s with symbols := σ }, .report (.refused refusal) name)

/-- Report the hole, if there is one, and go on with `default`. -/
def settledWith (default : α) (w : Walk α) : Walk α := fun s =>
  let (s₁, found) := w s
  (s₁, found.settledWith default)

/-! ### Fields that are written and written back -/

/-- Open a scope, and close the innermost one behind. -/
def inScope (w : Walk α) : Walk α := fun s =>
  let (s₁, found) := w { s with symbols := s.symbols.enter }
  ({ s₁ with symbols := s₁.symbols.leave }, found)

/-- Count a loop, and one less behind. -/
def inLoop (w : Walk α) : Walk α := fun s =>
  let (s₁, found) := w { s with loops := s.loops + 1 }
  ({ s₁ with loops := s₁.loops - 1 }, found)

/-- Count a switch, and one less behind. -/
def inSwitch (w : Walk α) : Walk α := fun s =>
  let (s₁, found) := w { s with switches := s.switches + 1 }
  ({ s₁ with switches := s₁.switches - 1 }, found)

/-- Walk over the body of a function, where no loop and no switch counts that is around it; put
back the function and both depths behind. -/
def inFunction (f : Enclosing) (w : Walk α) : Walk α := fun s =>
  let (s₁, found) := w { s with function := some f, loops := 0, switches := 0 }
  ({ s₁ with function := s.function, loops := s.loops, switches := s.switches }, found)

/-- Walk over the fields of a struct; put back the struct that was there behind. -/
def inStruct (name : String) (w : Walk α) : Walk α := fun s =>
  let (s₁, found) := w { s with struct := some name }
  ({ s₁ with struct := s.struct }, found)

end Walk

/-! ## Declarations -/

/-- Walk over a type specifier. -/
def TypeSpec.walk (spec : TypeSpec) : Walk BaseType := fun s =>
  (s, spec.resolve s.symbols s.struct)

/-- Walk over the initial value of a variable. -/
def walkInitializer (name : Token) (type : CType) (init : Option (Token × Expr)) : Walk Unit :=
  match init with
  | none => pure ()
  | some (_, value) => do
      let found ← Walk.reading value.typing
      Finding.complain (type.accepts found) (.initialValue name.lexeme type found) value.lead

/-- Walk over one declared variable of a declaration. -/
def Declarator.walk (base : BaseType) (isConst : Bool) (d : Declarator) : Walk Unit := do
  let name ← d.name.get
  let type ← ((CType.plain base).withStars d.stars).withSuffix d.array
  Finding.complain (!type.isVoid) (.voidVariable name.lexeme) name
  Walk.register (·.tryVariable ⟨name.lexeme, type, isConst, name.location.line⟩) name
  walkInitializer name type d.init

/-- Walk over declared variables one after the other. -/
def walkDeclarators (base : BaseType) (isConst : Bool) : List Declarator → Walk Unit
  | [] => pure ()
  | d :: rest => do
      d.walk base isConst
      walkDeclarators base isConst rest

/-- Walk over a declaration of variables. -/
def Declaration.walk (d : Declaration) : Walk Unit := do
  let base ← d.spec.walk
  walkDeclarators base (hasConst d.qualifiers) (d.first :: d.others.map (·.2))
  d.semicolon.require

/-- Walk over a field, and add it to the struct. -/
def Field.walk (struct : StructDef) (field : Field) : Walk StructDef := do
  let base ← field.spec.walk
  let name ← field.name.get
  let type ← ((CType.plain base).withStars field.stars).withSuffix field.array
  field.semicolon.require
  struct.admit name type

/-- Walk over fields, and add those without a hole to the struct. -/
def walkFields (struct : StructDef) : List Field → Walk StructDef
  | [] => pure struct
  | field :: rest => do
      let extended ← (field.walk struct).settledWith struct
      walkFields extended rest

/-- Walk over the definition of a struct. -/
def StructDecl.walk (s : StructDecl) : Walk Unit := do
  let struct ← Walk.inStruct s.name.lexeme
    (walkFields ⟨s.name.lexeme, s.name.location.line, []⟩ s.fields)
  Walk.register (·.tryStruct struct) s.name
  s.closing.require
  s.semicolon.require

/-- Walk over a parameter, which is declared. -/
def Param.walk (p : Param) : Walk Parameter := do
  let base ← p.spec.walk
  let name ← p.name.get
  let type ← ((CType.plain base).withStars p.stars).withParamArray p.array
  Walk.register
    (·.tryVariable ⟨name.lexeme, type, hasConst p.qualifiers, name.location.line⟩) name
  pure ⟨name.lexeme, type⟩

/-- Walk over parameters one after the other. -/
def walkParams : List Param → Walk (List Parameter)
  | [] => pure []
  | p :: rest => do
      let first ← p.walk
      let others ← walkParams rest
      pure (first :: others)

/-- Walk over a header up to its opening parenthesis: what is returned, and the name. -/
def Header.walkFront (h : Header) : Walk (CType × Token) := do
  let base ← h.spec.walk
  let name ← h.name.get
  h.opening.require
  pure ((CType.plain base).withStars h.stars, name)

/-- Walk over a header from its parameters on, behind which the function is declared. -/
def Header.walkRest (h : Header) (front : CType × Token) (defined : Bool) : Walk Enclosing := do
  let parameters ← walkParams h.params.toList
  h.closing.require
  Walk.register (·.tryFunction
    ⟨front.2.lexeme, front.1, parameters, front.2.location.line, defined⟩) front.2
  pure ⟨front.2.lexeme, front.1⟩

/-! ## Statements -/

/-- Walk over the first part of the header of a `for`. -/
def ForInit.walk : ForInit → Walk Unit
  | none _ => pure ()
  | declaration d => d.walk
  | assignment a semicolon => do
      Walk.reading a.check
      semicolon.require

/-- Walk over the condition of a `for`, if there is one. -/
def walkForTest : Option Expr → Walk Unit
  | none => pure ()
  | some test => Walk.reading fun σ => checkTest σ .forLoop test

/-- Walk over the last part of the header of a `for`, if there is one. -/
def walkForUpdate : Option Assignment → Walk Unit
  | none => pure ()
  | some a => Walk.reading a.check

/-- Walk over the body of a control statement.  A block opens its scope itself. -/
def walkBody (isBlock : Bool) (w : Walk Unit) : Walk Unit :=
  if isBlock then w else Walk.inScope w

mutual

/-- Walk over a statement. -/
def Stmt.walk : Stmt → Walk Unit
  | .blank _ => pure ()
  | .struct definition => definition.walk
  | .declaration d => d.walk
  | .prototype header _ => do
      let front ← header.walkFront
      Walk.inScope do
        let _ ← header.walkRest front false
  | .function header body => do
      let front ← header.walkFront
      Walk.inScope do
        let f ← header.walkRest front true
        Walk.inFunction f body.walk
  | .ifThen _ condition body => do
      Walk.reading fun σ => condition.check σ .ifElse
      walkBody body.isBlock body.walk
  | .ifElse _ condition body _ alternative => do
      Walk.reading fun σ => condition.check σ .ifElse
      walkBody body.isBlock body.walk
      walkBody alternative.isBlock alternative.walk
  | .whileLoop _ condition body => do
      Walk.reading fun σ => condition.check σ .whileLoop
      Walk.inLoop (walkBody body.isBlock body.walk)
  | .doWhile _ body whileWord condition semicolon => do
      Walk.inLoop (walkBody body.isBlock body.walk)
      whileWord.require
      Walk.reading fun σ => condition.check σ .doWhile
      semicolon.require
  | .forLoop _ opening init test semicolon update closing body => do
      opening.require
      Walk.inScope do
        init.walk
        walkForTest test
        semicolon.require
        walkForUpdate update
        closing.require
        Walk.inLoop (walkBody body.isBlock body.walk)
  | .switch _ opening subject closing bodyStart clauses bodyEnd => do
      opening.require
      Walk.reading fun σ => checkSubject σ subject
      closing.require
      bodyStart.require
      Walk.inSwitch (Walk.inScope (clauses.walk [] false))
      bodyEnd.require
  | .exit keyword _ => do
      let context ← Walk.around
      context.checkExit keyword
  | .exitWith _ value semicolon => do
      let context ← Walk.around
      let found ← Walk.reading value.typing
      context.checkResult found value.lead
      semicolon.require
  | .jump keyword semicolon => do
      let context ← Walk.around
      context.checkJump keyword
      semicolon.require
  | .block _ body closing => do
      Walk.inScope body.walk
      closing.require
  | .call call semicolon => do
      let _ ← Walk.reading call.typing
      semicolon.require
  | .printf _ opening format arguments closing semicolon => do
      opening.require
      let _ ← Walk.reading format.typing
      let given ← Walk.reading arguments.typing
      closing.require
      semicolon.require
      match format.formatToken? with
      | some token => FormatCall.printf.check token given
      | none => pure ()
  | .scanf _ opening format arguments closing semicolon => do
      opening.require
      let token ← format.get
      let given ← Walk.reading arguments.typing
      closing.require
      semicolon.require
      FormatCall.scanf.check token given
  | .assignment a semicolon => do
      Walk.reading a.check
      semicolon.require
  | .missing hole => Walk.lift (.stop hole)

/-- Walk over statements in sequence. -/
def Stmts.walk : Stmts → Walk Unit
  | .nil => pure ()
  | .cons first rest => do
      first.walk.settledWith ()
      rest.walk

/-- Walk over the body of a switch, given the labels and whether there was a default before. -/
def Clauses.walk (seen : List String) (hasDefault : Bool) : Clauses → Walk Unit
  | .nil => pure ()
  | .case _ (.missing hole) _ rest => do
      (Walk.lift (.stop hole)).settledWith ()
      rest.walk seen hasDefault
  | .case _ (.found value) colon rest => do
      Finding.complain (value.lexeme ∉ seen) (.duplicateCase value.lexeme) value
      (Walk.lift colon.require).settledWith ()
      rest.walk (value.lexeme :: seen) hasDefault
  | .default keyword colon rest => do
      Finding.complain (!hasDefault) .duplicateDefault keyword
      (Walk.lift colon.require).settledWith ()
      rest.walk seen true
  | .stmt first rest => do
      first.walk.settledWith ()
      rest.walk seen hasDefault

end

/-- Walk over a program, which is a scope. -/
def Stmts.walkProgram (program : Stmts) : Walk Unit := Walk.inScope program.walk

end MiniC
