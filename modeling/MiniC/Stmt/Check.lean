import MiniC.Decl.Check
import MiniC.Stmt.Basic

/-!
# `MiniC.Stmt.Check` — checking statements and programs

A statement is checked in a context: the function around it, and whether a loop or a switch of
that function is around it.  Every sequence of statements reports the hole of a faulty statement
and goes on with the next.

## Contents
- `Place.target`, `Assignment.check`: what is written to, and whether the value fits.
- `FormatCall.check`: the arguments of `printf` and `scanf` against the format string.
- `Stmt.check`, `Stmts.check`, `Clauses.check`.
-/

namespace MiniC

/-! ## Assignments -/

/-- What an assignment writes to. -/
structure Target where
  name : String
  type : CType
  isConst : Bool
  site : Option Token
deriving DecidableEq, Repr

/-- Whether a write through `stars` to a part of the variable `v` changes a constant.  A write
through a pointer does not change the variable itself. -/
def Variable.isFrozen (v : Variable) (stars : List Token) : Bool :=
  v.isConst && !v.type.isPointer && stars.isEmpty

/-- Apply the stars in front of a place, the innermost first. -/
def dereferenceAll (t : CType) : List Token → Finding CType
  | [] => pure t
  | star :: outer => do
      let inner ← dereference t star
      dereferenceAll inner outer

/-- What a place stands for. -/
def Place.target (σ : Symbols) (p : Place) : Finding Target := do
  let pathType ← p.path.typing σ
  let type ← dereferenceAll pathType p.stars.reverse
  let name := (p.path.lead.map Token.lexeme).getD ""
  let isConst := (σ.var? name).any (·.isFrozen p.stars)
  pure ⟨name, type, isConst, p.path.lead⟩

/-- Complain about a write to a constant. -/
def Target.checkWritable (t : Target) : Finding Unit :=
  Finding.complain (!t.isConst) (.assignedConst t.name) t.site

/-- Check `++` or `--` on a target. -/
def Target.checkStep (t : Target) (operator : Token) : Finding Unit := do
  t.checkWritable
  Finding.complain (Need.numeric.mayBeMet t.type) (.operandNotNumeric operator.lexeme t.type)
    t.site

/-- Check that a target takes a value. -/
def Target.checkStore (t : Target) (value : CType) (site : Option Token) : Finding Unit := do
  t.checkWritable
  if t.type.isArray then Finding.report (.assignedArray t.name) site
  else Finding.complain (t.type.accepts value) (.assignedValue t.name t.type value) site

/-- What a compound assignment operator asks of its operands. -/
def Token.updateNeed (operator : Token) : Need :=
  match operator.kind with
  | .operator o =>
    if o ∈ [.plusAssign, .minusAssign, .starAssign, .slashAssign] then .numeric else .integer
  | _ => .integer

/-- Check that a target and a value go together under a compound assignment operator. -/
def Target.checkUpdate (t : Target) (operator : Token) (value : CType) : Finding Unit := do
  t.checkWritable
  let need := operator.updateNeed
  if t.type.isUnknown || value.isUnknown then pure ()
  else if need.isMet t.type && need.isMet value then
    Finding.complain (t.type.accepts value) (.assignedValue t.name t.type value) operator
  else Finding.report (.updateOperands operator.lexeme need t.type value) operator

/-- Check an assignment. -/
def Assignment.check (σ : Symbols) : Assignment → Finding Unit
  | stepBefore operator place => do
      let target ← place.target σ
      target.checkStep operator
  | stepAfter place operator => do
      let target ← place.target σ
      target.checkStep operator
  | store place _ value => do
      let target ← place.target σ
      let found ← value.typing σ
      target.checkStore found value.lead
  | update place operator value => do
      let target ← place.target σ
      let found ← value.typing σ
      target.checkUpdate operator found
  | missing place hole => do
      let _ ← place.target σ
      Finding.stop hole

/-! ## Format strings -/

/-- A literal without the quotes around it. -/
def unquoted (literal : String) : String :=
  match literal.toList with
  | '"' :: rest => if rest.getLast? == some '"' then .ofList rest.dropLast else literal
  | _ => literal

/-- Check an argument of `printf`. -/
def checkPrinted (spec : FormatSpec) (argument : Argument) : Finding Unit :=
  Finding.complain (spec.conversion.acceptsValue argument.type)
    (.formatArgument .printf spec argument.type) argument.site

/-- Check an argument of `scanf`, which has to be an address. -/
def checkScanned (spec : FormatSpec) (argument : Argument) : Finding Unit :=
  if argument.type.isUnknown then pure ()
  else
    match argument.type.element? with
    | none => Finding.report (.scanfNotAddress argument.type) argument.site
    | some target =>
      Finding.complain (spec.conversion.acceptsTarget target)
        (.formatArgument .scanf spec argument.type) argument.site

/-- Check an argument against its specifier. -/
def FormatCall.checkArgument : FormatCall → FormatSpec → Argument → Finding Unit
  | printf => checkPrinted
  | scanf => checkScanned

/-- Check arguments against specifiers, as far as both go. -/
def FormatCall.checkArguments (call : FormatCall) :
    List FormatSpec → List Argument → Finding Unit
  | spec :: specs, argument :: arguments => do
      call.checkArgument spec argument
      call.checkArguments specs arguments
  | _, _ => pure ()

/-- Check arguments against a format string. -/
def FormatCall.check (call : FormatCall) (format : Token) (arguments : List Argument) :
    Finding Unit :=
  match FormatSpec.ofText (unquoted format.lexeme) with
  | .error error => Finding.report (.formatString call error) format
  | .ok specs => do
      Finding.complain (specs.length == arguments.length)
        (.formatCount call specs.length arguments.length) format
      call.checkArguments specs arguments

/-- The string literal that an expression begins with: the format of a `printf`. -/
def Expr.formatToken? (e : Expr) : Option Token :=
  e.lead.filter (·.kind == .literal .string)

/-! ## Conditions and jumps -/

/-- What is around a statement. -/
structure Context where
  function : Option Enclosing
  inLoop : Bool
  inSwitch : Bool
deriving DecidableEq, Repr

namespace Context

/-- Outside of all functions. -/
def global : Context := ⟨none, false, false⟩

/-- In the body of a function, where no loop and no switch counts that is around the function. -/
def body (f : Enclosing) : Context := ⟨some f, false, false⟩

/-- In the body of a loop. -/
def loop (context : Context) : Context := { context with inLoop := true }

/-- In the body of a switch. -/
def switch (context : Context) : Context := { context with inSwitch := true }

end Context

/-- Whether a type may decide a condition. -/
def CType.decides (t : CType) : Bool :=
  t.isUnknown || t.isNumeric || t.decayed.isPointer

/-- Check the expression that decides a condition. -/
def checkTest (σ : Symbols) (ruled : Ruled) (test : Expr) : Finding Unit := do
  let found ← test.typing σ
  Finding.complain found.decides (.condition ruled found) test.lead

/-- Check a condition in parentheses. -/
def Condition.check (σ : Symbols) (ruled : Ruled) (c : Condition) : Finding Unit := do
  c.opening.require
  checkTest σ ruled c.test
  c.closing.require

/-- Check the subject of a switch. -/
def checkSubject (σ : Symbols) (subject : Expr) : Finding Unit := do
  let found ← subject.typing σ
  Finding.complain (Need.integer.mayBeMet found) (.switchSubject found) subject.lead

/-- Check a `return` without a value. -/
def Context.checkExit (context : Context) (keyword : Token) : Finding Unit :=
  match context.function with
  | none => pure ()
  | some f =>
    Finding.complain (f.returns.isVoid || f.returns.isUnknown)
      (.missingResult f.name f.returns) keyword

/-- Check the value of a `return`. -/
def Context.checkResult (context : Context) (found : CType) (site : Option Token) :
    Finding Unit :=
  match context.function with
  | none => pure ()
  | some f =>
    if f.returns.isVoid then Finding.report (.resultOfVoid f.name) site
    else Finding.complain (f.returns.accepts found) (.resultType f.name f.returns found) site

/-- Check that a `break` or a `continue` has something to jump out of. -/
def Context.checkJump (context : Context) (keyword : Token) : Finding Unit :=
  let isBreak := keyword.kind == .keyword .kwBreak
  Finding.complain (context.inLoop || (isBreak && context.inSwitch))
    (.misplacedJump keyword.lexeme isBreak) keyword

/-- Check the first part of the header of a `for`. -/
def ForInit.check : ForInit → Check Unit
  | none _ => pure ()
  | declaration d => d.check
  | assignment a semicolon => do
      Check.reading a.check
      semicolon.require

/-- Check the condition of a `for`, if there is one. -/
def checkForTest : Option Expr → Check Unit
  | none => pure ()
  | some test => Check.reading fun σ => checkTest σ .forLoop test

/-- Check the last part of the header of a `for`, if there is one. -/
def checkForUpdate : Option Assignment → Check Unit
  | none => pure ()
  | some a => Check.reading a.check

/-! ## Statements -/

mutual

/-- Check a statement. -/
def Stmt.check (context : Context) : Stmt → Check Unit
  | .blank _ => pure ()
  | .struct definition => definition.check
  | .declaration d => d.check
  | .prototype header _ =>
    Check.inScope do
      let _ ← header.check false
  | .function header body =>
    Check.inScope do
      let f ← header.check true
      body.check (.body f)
  | .ifThen _ condition body => do
      Check.reading fun σ => condition.check σ .ifElse
      Check.inScope (body.check context)
  | .ifElse _ condition body _ alternative => do
      Check.reading fun σ => condition.check σ .ifElse
      Check.inScope (body.check context)
      Check.inScope (alternative.check context)
  | .whileLoop _ condition body => do
      Check.reading fun σ => condition.check σ .whileLoop
      Check.inScope (body.check context.loop)
  | .doWhile _ body whileWord condition semicolon => do
      Check.inScope (body.check context.loop)
      whileWord.require
      Check.reading fun σ => condition.check σ .doWhile
      semicolon.require
  | .forLoop _ opening init test semicolon update closing body => do
      opening.require
      Check.inScope do
        init.check
        checkForTest test
        semicolon.require
        checkForUpdate update
        closing.require
        Check.inScope (body.check context.loop)
  | .switch _ opening subject closing bodyStart clauses bodyEnd => do
      opening.require
      Check.reading fun σ => checkSubject σ subject
      closing.require
      bodyStart.require
      Check.inScope (clauses.check context.switch [] false)
      bodyEnd.require
  | .exit keyword _ => Check.lift (context.checkExit keyword)
  | .exitWith _ value semicolon => do
      let found ← Check.reading value.typing
      context.checkResult found value.lead
      semicolon.require
  | .jump keyword semicolon => do
      context.checkJump keyword
      semicolon.require
  | .block _ body closing => do
      Check.inScope (body.check context)
      closing.require
  | .call call semicolon => do
      let _ ← Check.reading call.typing
      semicolon.require
  | .printf _ opening format arguments closing semicolon => do
      opening.require
      let _ ← Check.reading format.typing
      let given ← Check.reading arguments.typing
      closing.require
      semicolon.require
      match format.formatToken? with
      | some token => FormatCall.printf.check token given
      | none => pure ()
  | .scanf _ opening format arguments closing semicolon => do
      opening.require
      let token ← format.get
      let given ← Check.reading arguments.typing
      closing.require
      semicolon.require
      FormatCall.scanf.check token given
  | .assignment a semicolon => do
      Check.reading a.check
      semicolon.require
  | .missing hole => Check.lift (.stop hole)

/-- Check statements in sequence. -/
def Stmts.check (context : Context) : Stmts → Check Unit
  | .nil => pure ()
  | .cons first rest => do
      (first.check context).settled
      rest.check context

/-- Check the body of a switch, given the labels and whether there was a default before. -/
def Clauses.check (context : Context) (seen : List String) (hasDefault : Bool) :
    Clauses → Check Unit
  | .nil => pure ()
  | .case _ (.missing hole) _ rest => do
      (Check.lift (.stop hole)).settled
      rest.check context seen hasDefault
  | .case _ (.found value) colon rest => do
      Finding.complain (value.lexeme ∉ seen) (.duplicateCase value.lexeme) value
      (Check.lift colon.require).settled
      rest.check context (value.lexeme :: seen) hasDefault
  | .default keyword colon rest => do
      Finding.complain (!hasDefault) .duplicateDefault keyword
      (Check.lift colon.require).settled
      rest.check context seen true
  | .stmt first rest => do
      (first.check context).settled
      rest.check context seen hasDefault

end

end MiniC
