import MiniC.Diagnostic
import MiniC.Format
import MiniC.Symbols.Table
import MiniC.Syntax.Hole

/-!
# `MiniC.Check.Fault` — what can be wrong with a well-formed part

A fault is a cause, with the names and types that it is about.  Faults and holes together are the
issues that checking finds; each is placed at a token, and at the end of the input if there is
none.

## Contents
- `Need`: what an operator asks of its operands.
- `Fault` and its message; `Issue` and its diagnostic.
-/

namespace MiniC

/-- What an operator asks of its operands. -/
inductive Need
  | integer | numeric
deriving DecidableEq, Repr

namespace Need

/-- The need in a message. -/
def name : Need → String
  | integer => "integer"
  | numeric => "numeric"

/-- Whether a type is what the operator asks for. -/
def isMet : Need → CType → Bool
  | integer, t => t.isIntegral
  | numeric, t => t.isNumeric

/-- Whether a type is what the operator asks for, or unknown. -/
def mayBeMet (need : Need) (t : CType) : Bool := t.isUnknown || need.isMet t

end Need

/-- The calls that a format string rules. -/
inductive FormatCall
  | printf | scanf
deriving DecidableEq, Repr

/-- The name that the call is made under. -/
def FormatCall.name : FormatCall → String
  | printf => "printf"
  | scanf => "scanf"

/-- What can be wrong with a well-formed part of a program. -/
inductive Fault
  -- Names
  | undeclaredVariable (name : String)
  | undeclaredFunction (name : String)
  | undeclaredStruct (name : String)
  | refused (refusal : Refusal)
  | voidVariable (name : String)
  -- Expressions
  | operands (operator : String) (need : Need) (left right : CType)
  | operandNotNumeric (operator : String) (found : CType)
  | branches (first second : CType)
  | notDereferenceable (found : CType)
  | indexNotInteger (found : CType)
  | notSubscriptable (found : CType)
  | arrowOnNonPointer (found : CType)
  | dotOnPointer (found : CType)
  | memberOfNonStruct (member : String) (found : CType)
  | noSuchField (struct field : String)
  | argumentCount (function : String) (expected provided : Nat)
  | argumentType (position : Nat) (function : String) (expected found : CType)
  -- Values that are stored
  | initialValue (name : String) (expected found : CType)
  | assignedValue (name : String) (expected found : CType)
  | assignedArray (name : String)
  | assignedConst (name : String)
  | updateOperands (operator : String) (need : Need) (place value : CType)
  -- Control statements
  | condition (ruled : Ruled) (found : CType)
  | switchSubject (found : CType)
  | duplicateCase (value : String)
  | duplicateDefault
  | missingResult (function : String) (expected : CType)
  | resultOfVoid (function : String)
  | resultType (function : String) (expected found : CType)
  | misplacedJump (word : String) (switchWouldDo : Bool)
  -- Format strings
  | formatString (call : FormatCall) (error : FormatError)
  | formatCount (call : FormatCall) (expected provided : Nat)
  | formatArgument (call : FormatCall) (spec : FormatSpec) (found : CType)
  | scanfNotAddress (found : CType)
deriving DecidableEq, Repr

/-- The message that reports a fault. -/
def Fault.message : Fault → String
  | undeclaredVariable name => s!"Variable '{name}' undeclared"
  | undeclaredFunction name => s!"Function '{name}' undeclared"
  | undeclaredStruct name => s!"Struct '{name}' not declared"
  | refused refusal => refusal.message
  | voidVariable name => s!"Variable '{name}' declared void"
  | operands operator need left right =>
      s!"Operands of '{operator}' must be {need.name}, " ++
        s!"found {left.describe} and {right.describe}"
  | operandNotNumeric operator found =>
      s!"Operator '{operator}' requires a numeric operand, found {found.describe}"
  | branches first second =>
      s!"Incompatible types in ternary branches: {first.describe} and {second.describe}"
  | notDereferenceable found => s!"Cannot dereference non-pointer type {found.describe}"
  | indexNotInteger found => s!"Array index must be an integer, found {found.describe}"
  | notSubscriptable found =>
      s!"Subscripted value of type {found.describe} is not an array or pointer"
  | arrowOnNonPointer found => s!"Operator '->' used on non-pointer type {found.describe}"
  | dotOnPointer found => s!"Operator '.' used on pointer type {found.describe}; use '->'"
  | memberOfNonStruct member found =>
      s!"Member '{member}' requested from non-struct type {found.describe}"
  | noSuchField struct field => s!"Struct '{struct}' has no field '{field}'"
  | argumentCount function expected provided =>
      s!"Wrong number of arguments to '{function}': expected {expected}, provided {provided}"
  | argumentType position function expected found =>
      s!"Incompatible type for argument {position} of '{function}': " ++
        s!"expected {expected.describe}, found {found.describe}"
  | initialValue name expected found =>
      s!"Incompatible types in initialization of '{name}': " ++
        s!"expected {expected.describe}, found {found.describe}"
  | assignedValue name expected found =>
      s!"Incompatible types in assignment to '{name}': " ++
        s!"expected {expected.describe}, found {found.describe}"
  | assignedArray name => s!"Cannot assign to array '{name}'"
  | assignedConst name => s!"Cannot assign to const variable '{name}'"
  | updateOperands operator need place value =>
      s!"Operator '{operator}' requires {need.name} operands, " ++
        s!"found {place.describe} and {value.describe}"
  | condition ruled found =>
      s!"Condition of '{ruled.name}' must be numeric or pointer, found {found.describe}"
  | switchSubject found => s!"Switch expression must be an integer, found {found.describe}"
  | duplicateCase value => s!"Duplicate case value {value}"
  | duplicateDefault => "Multiple default labels in switch"
  | missingResult function expected =>
      s!"Function '{function}' must return a value of type {expected.describe}"
  | resultOfVoid function => s!"Void function '{function}' cannot return a value"
  | resultType function expected found =>
      s!"Incompatible return type in '{function}': " ++
        s!"expected {expected.describe}, found {found.describe}"
  | misplacedJump word true => s!"'{word}' outside of loop or switch"
  | misplacedJump word false => s!"'{word}' outside of loop"
  | formatString call error => s!"Invalid format string in '{call.name}': {error.message}"
  | formatCount call expected provided =>
      s!"Format string of '{call.name}' expects {expected} arguments, provided {provided}"
  | formatArgument call spec found =>
      s!"Format '{spec.text}' of '{call.name}' expects {spec.conversion.describe} argument, " ++
        s!"found {found.describe}"
  | scanfNotAddress found =>
      s!"Argument of 'scanf' must be an address, found {found.describe}"

/-- What checking finds: a hole in the tree, or a fault at a token. -/
inductive Issue
  | missing (hole : Hole)
  | fault (fault : Fault) (site : Option Token)
deriving DecidableEq, Repr

/-- The issue as a diagnostic, placed at `stop` if it is at no token. -/
def Issue.diagnostic (stop : Location) : Issue → Diagnostic
  | missing hole =>
      ⟨.syntactic, hole.message, (hole.found?.map Token.location).getD stop⟩
  | fault cause site => ⟨.semantic, cause.message, (site.map Token.location).getD stop⟩

end MiniC
