import MiniC.Token.Basic

/-!
# `MiniC.Syntax.Hole` — what a text lacks

Reading never fails outright.  Where the token that the grammar asks for is not there, the syntax
tree gets a hole, which records what was wanted and which tokens lay ahead.

## Contents
- `Site`: the places of the grammar that ask for one kind of token.
- `Wanted`: what the grammar asked for, with its text.
- `Hole`, and `Slot`: a token of the tree that may be missing.
-/

namespace MiniC

/-- The statements that are ruled by a condition. -/
inductive Ruled
  | ifElse | whileLoop | doWhile | forLoop
deriving DecidableEq, Repr

/-- The word that a ruled statement goes by in a message. -/
def Ruled.name : Ruled → String
  | ifElse => "if"
  | whileLoop => "while"
  | doWhile => "do-while"
  | forLoop => "for"

/-- The places of the grammar that ask for one kind of token. -/
inductive Site
  -- Declarations
  | structName | fieldsEnd | structEnd | fieldName | fieldEnd
  | parametersStart | parametersEnd | parameterName | arrayParameterEnd
  | declaredName | arraySizeEnd | declarationEnd
  -- Statements
  | blockStart | blockEnd | callStatementEnd
  | conditionStart (ruled : Ruled) | conditionEnd
  | loopWord | doWhileEnd
  | forStart | forConditionEnd | forClausesEnd
  | switchStart | switchSubjectEnd | switchBodyStart | switchBodyEnd
  | caseValueEnd | defaultEnd
  | returnEnd | jumpEnd (word : String)
  | assignmentTarget | assignmentEnd
  | printfStart | printfArgumentsEnd | printfEnd
  | scanfStart | scanfFormat | scanfArgumentsEnd | scanfEnd
  -- Expressions
  | ternaryColon | groupEnd | sizeofStart | sizeofEnd | memberName | indexEnd | argumentsEnd
deriving DecidableEq, Repr

/-- The place in a message. -/
def Site.describe : Site → String
  | structName => "after 'struct'"
  | fieldsEnd => "after struct fields"
  | structEnd => "after struct definition"
  | fieldName => "for struct field name"
  | fieldEnd => "after struct field"
  | parametersStart => "after function name"
  | parametersEnd => "after parameters"
  | parameterName => "for parameter name"
  | arrayParameterEnd => "after array parameter"
  | declaredName => "in declaration"
  | arraySizeEnd => "after array size"
  | declarationEnd => "after declaration"
  | blockStart => "to open block"
  | blockEnd => "to close block"
  | callStatementEnd => "after function call"
  | conditionStart ruled => s!"after '{ruled.name}'"
  | conditionEnd => "after condition"
  | loopWord => "after do-while body"
  | doWhileEnd => "after do-while condition"
  | forStart => "after 'for'"
  | forConditionEnd => "after for condition"
  | forClausesEnd => "after for clauses"
  | switchStart => "after 'switch'"
  | switchSubjectEnd => "after switch expression"
  | switchBodyStart => "to open switch body"
  | switchBodyEnd => "to close switch body"
  | caseValueEnd => "after case value"
  | defaultEnd => "after 'default'"
  | returnEnd => "after return value"
  | jumpEnd word => s!"after '{word}'"
  | assignmentTarget => "as assignment target"
  | assignmentEnd => "after assignment"
  | printfStart => "after 'printf'"
  | printfArgumentsEnd => "after printf arguments"
  | printfEnd => "after printf"
  | scanfStart => "after 'scanf'"
  | scanfFormat => "as scanf format"
  | scanfArgumentsEnd => "after scanf arguments"
  | scanfEnd => "after scanf"
  | ternaryColon => "in ternary expression"
  | groupEnd => "after expression"
  | sizeofStart => "after 'sizeof'"
  | sizeofEnd => "after sizeof operand"
  | memberName => "after member access"
  | indexEnd => "after array index"
  | argumentsEnd => "after arguments"

/-- What the grammar asks for. -/
inductive Wanted
  | token (kind : Kind) (site : Site)
  | declaration
  | typeSpecifier
  | functionName
  | arraySize
  | statement
  | switchAroundLabel
  | caseConstant
  | assignmentOperator (name : String)
  | expression
deriving DecidableEq, Repr

/-- What was asked for, as the first half of a message. -/
def Wanted.describe : Wanted → String
  | token kind site => s!"Expected {kind.describe} {site.describe}"
  | declaration => "Expected a declaration at global scope"
  | typeSpecifier => "Expected type specifier"
  | functionName => "Expected function name"
  | arraySize => "Expected array size"
  | statement => "Expected statement"
  | switchAroundLabel => "Case label outside of switch"
  | caseConstant => "Expected constant after 'case'"
  | assignmentOperator name => s!"Expected assignment operator after '{name}'"
  | expression => "Expected expression"

/-- A place where the text does not go on as the grammar asks. -/
structure Hole where
  wanted : Wanted
  /-- The tokens from the place on. -/
  ahead : List Token
deriving DecidableEq, Repr

namespace Hole

/-- The token that stands there instead, or nothing at the end of the input. -/
def found? (hole : Hole) : Option Token := hole.ahead.head?

/-- The message that reports a hole. -/
def message (hole : Hole) : String :=
  s!"{hole.wanted.describe}, found {(hole.found?.map Token.describe).getD Kind.eof.describe}"

end Hole

/-- A single token of a syntax tree. -/
inductive Slot
  | found (token : Token)
  | missing (hole : Hole)
deriving DecidableEq, Repr

end MiniC
