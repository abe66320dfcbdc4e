/-!
# `MiniC.Token.Kind` — the kinds of tokens

Keywords, operators and punctuation marks have one spelling each; literals, identifiers and
preprocessor directives are open classes.  The keywords fall into the words a base type is made
of, the qualifiers, which are accepted in front of a type and have no meaning save for `const`,
and the rest.

## Contents
- `Literal`, `TypeWord`, `Qualifier`, `Keyword`, `Operator`, `Punct` and their sum `Kind`.
- `spelling`: how a fixed token is written; `name`: how a token table names the kind.
- `Category`, `Kind.category`: the coarse classes.
- `Kind.describe`: the kind in a message.
- `Kind.all`, `Kind.ofName?`: all kinds, and the kind with a given name.
-/

namespace MiniC

/-! ## The closed classes -/

/-- The kinds of literals. -/
inductive Literal
  | int | float | char | string
deriving DecidableEq, Repr

/-- The words that a base type is written with. -/
inductive TypeWord
  | void | char | short | int | long | float | double | signed | unsigned
deriving DecidableEq, Repr

/-- Qualifiers and storage classes. -/
inductive Qualifier
  | const | static | external | volatile | register | inline
deriving DecidableEq, Repr

/-- The reserved words.  `main` is one of them. -/
inductive Keyword
  | type (word : TypeWord)
  | qualifier (word : Qualifier)
  | kwStruct
  | kwIf | kwElse | kwWhile | kwDo | kwFor | kwSwitch | kwCase | kwDefault
  | kwBreak | kwContinue | kwReturn | kwGoto
  | kwSizeof | kwTypedef | kwEnum | kwUnion
  | kwMain
deriving DecidableEq, Repr

/-- The operators. -/
inductive Operator
  | plus | minus | star | slash | percent | plusPlus | minusMinus
  | assign
  | plusAssign | minusAssign | starAssign | slashAssign | percentAssign
  | shlAssign | shrAssign | ampAssign | pipeAssign | caretAssign
  | equal | notEqual | less | lessEqual | greater | greaterEqual
  | andAnd | orOr | bang
  | amp | pipe | caret | tilde | shl | shr
deriving DecidableEq, Repr

/-- The punctuation marks. -/
inductive Punct
  | dot | arrow | question | colon
  | lparen | rparen | lbrace | rbrace | lbracket | rbracket
  | semicolon | comma
deriving DecidableEq, Repr

/-- The kind of a token. -/
inductive Kind
  | literal (class_ : Literal)
  | ident
  | directive
  | keyword (word : Keyword)
  | operator (sign : Operator)
  | punct (mark : Punct)
  | eof
deriving DecidableEq, Repr, Inhabited

/-! ## Spellings -/

/-- How a type word is written. -/
def TypeWord.spelling : TypeWord → String
  | void => "void"
  | char => "char"
  | short => "short"
  | int => "int"
  | long => "long"
  | float => "float"
  | double => "double"
  | signed => "signed"
  | unsigned => "unsigned"

/-- How a qualifier is written. -/
def Qualifier.spelling : Qualifier → String
  | const => "const"
  | static => "static"
  | external => "extern"
  | volatile => "volatile"
  | register => "register"
  | inline => "inline"

/-- How a reserved word is written. -/
def Keyword.spelling : Keyword → String
  | type word => word.spelling
  | qualifier word => word.spelling
  | kwStruct => "struct"
  | kwIf => "if"
  | kwElse => "else"
  | kwWhile => "while"
  | kwDo => "do"
  | kwFor => "for"
  | kwSwitch => "switch"
  | kwCase => "case"
  | kwDefault => "default"
  | kwBreak => "break"
  | kwContinue => "continue"
  | kwReturn => "return"
  | kwGoto => "goto"
  | kwSizeof => "sizeof"
  | kwTypedef => "typedef"
  | kwEnum => "enum"
  | kwUnion => "union"
  | kwMain => "main"

/-- How an operator is written. -/
def Operator.spelling : Operator → String
  | plus => "+"
  | minus => "-"
  | star => "*"
  | slash => "/"
  | percent => "%"
  | plusPlus => "++"
  | minusMinus => "--"
  | assign => "="
  | plusAssign => "+="
  | minusAssign => "-="
  | starAssign => "*="
  | slashAssign => "/="
  | percentAssign => "%="
  | shlAssign => "<<="
  | shrAssign => ">>="
  | ampAssign => "&="
  | pipeAssign => "|="
  | caretAssign => "^="
  | equal => "=="
  | notEqual => "!="
  | less => "<"
  | lessEqual => "<="
  | greater => ">"
  | greaterEqual => ">="
  | andAnd => "&&"
  | orOr => "||"
  | bang => "!"
  | amp => "&"
  | pipe => "|"
  | caret => "^"
  | tilde => "~"
  | shl => "<<"
  | shr => ">>"

/-- How a punctuation mark is written. -/
def Punct.spelling : Punct → String
  | dot => "."
  | arrow => "->"
  | question => "?"
  | colon => ":"
  | lparen => "("
  | rparen => ")"
  | lbrace => "\x7b"
  | rbrace => "\x7d"
  | lbracket => "["
  | rbracket => "]"
  | semicolon => ";"
  | comma => ","

/-- How the tokens of a kind are written, if they are all written alike. -/
def Kind.spelling? : Kind → Option String
  | keyword word => some word.spelling
  | operator sign => some sign.spelling
  | punct mark => some mark.spelling
  | _ => none

/-! ## Names -/

/-- The name of a kind of literal in a token table. -/
def Literal.name : Literal → String
  | int => "IntLiteral"
  | float => "FloatLiteral"
  | char => "CharLiteral"
  | string => "StringLiteral"

/-- The name of a type word in a token table. -/
def TypeWord.name : TypeWord → String
  | void => "Void"
  | char => "Char"
  | short => "Short"
  | int => "Int"
  | long => "Long"
  | float => "Float"
  | double => "Double"
  | signed => "Signed"
  | unsigned => "Unsigned"

/-- The name of a qualifier in a token table. -/
def Qualifier.name : Qualifier → String
  | const => "Const"
  | static => "Static"
  | external => "Extern"
  | volatile => "Volatile"
  | register => "Register"
  | inline => "Inline"

/-- The name of a reserved word in a token table. -/
def Keyword.name : Keyword → String
  | type word => word.name
  | qualifier word => word.name
  | kwStruct => "Struct"
  | kwIf => "If"
  | kwElse => "Else"
  | kwWhile => "While"
  | kwDo => "Do"
  | kwFor => "For"
  | kwSwitch => "Switch"
  | kwCase => "Case"
  | kwDefault => "Default"
  | kwBreak => "Break"
  | kwContinue => "Continue"
  | kwReturn => "Return"
  | kwGoto => "Goto"
  | kwSizeof => "Sizeof"
  | kwTypedef => "Typedef"
  | kwEnum => "Enum"
  | kwUnion => "Union"
  | kwMain => "Main"

/-- The name of an operator in a token table. -/
def Operator.name : Operator → String
  | plus => "Plus"
  | minus => "Minus"
  | star => "Star"
  | slash => "Slash"
  | percent => "Percent"
  | plusPlus => "PlusPlus"
  | minusMinus => "MinusMinus"
  | assign => "Eq"
  | plusAssign => "PlusEq"
  | minusAssign => "MinusEq"
  | starAssign => "StarEq"
  | slashAssign => "SlashEq"
  | percentAssign => "PercentEq"
  | shlAssign => "ShlEq"
  | shrAssign => "ShrEq"
  | ampAssign => "AmpEq"
  | pipeAssign => "PipeEq"
  | caretAssign => "CaretEq"
  | equal => "EqEq"
  | notEqual => "NotEq"
  | less => "Lt"
  | lessEqual => "Le"
  | greater => "Gt"
  | greaterEqual => "Ge"
  | andAnd => "AndAnd"
  | orOr => "OrOr"
  | bang => "Bang"
  | amp => "Amp"
  | pipe => "Pipe"
  | caret => "Caret"
  | tilde => "Tilde"
  | shl => "LtLt"
  | shr => "GtGt"

/-- The name of a punctuation mark in a token table. -/
def Punct.name : Punct → String
  | dot => "Dot"
  | arrow => "Arrow"
  | question => "Question"
  | colon => "Colon"
  | lparen => "LParen"
  | rparen => "RParen"
  | lbrace => "LBrace"
  | rbrace => "RBrace"
  | lbracket => "LBracket"
  | rbracket => "RBracket"
  | semicolon => "Semicolon"
  | comma => "Comma"

/-- The name of a kind in a token table. -/
def Kind.name : Kind → String
  | literal class_ => class_.name
  | ident => "Ident"
  | directive => "Directive"
  | keyword word => word.name
  | operator sign => sign.name
  | punct mark => mark.name
  | eof => "Eof"

/-! ## Enumerations -/

/-- Every type word, once. -/
def TypeWord.all : List TypeWord :=
  [void, char, short, int, long, float, double, signed, unsigned]

/-- Every qualifier, once. -/
def Qualifier.all : List Qualifier :=
  [const, static, external, volatile, register, inline]

/-- Every keyword, once. -/
def Keyword.all : List Keyword :=
  TypeWord.all.map type ++ Qualifier.all.map qualifier ++
    [kwStruct, kwIf, kwElse, kwWhile, kwDo, kwFor, kwSwitch, kwCase, kwDefault, kwBreak,
      kwContinue, kwReturn, kwGoto, kwSizeof, kwTypedef, kwEnum, kwUnion, kwMain]

/-- Every operator and punctuation mark, once, the longer spellings first. -/
def Kind.symbols : List Kind :=
  [operator .shlAssign, operator .shrAssign,
    operator .plusPlus, operator .minusMinus,
    operator .plusAssign, operator .minusAssign, operator .starAssign, operator .slashAssign,
    operator .percentAssign, operator .ampAssign, operator .pipeAssign, operator .caretAssign,
    operator .equal, operator .notEqual, operator .lessEqual, operator .greaterEqual,
    operator .andAnd, operator .orOr, operator .shl, operator .shr, punct .arrow,
    operator .plus, operator .minus, operator .star, operator .slash, operator .percent,
    operator .assign, operator .less, operator .greater, operator .bang,
    operator .amp, operator .pipe, operator .caret, operator .tilde,
    punct .dot, punct .question, punct .colon, punct .lparen, punct .rparen,
    punct .lbrace, punct .rbrace, punct .lbracket, punct .rbracket, punct .semicolon,
    punct .comma]

/-- Every kind, once. -/
def Kind.all : List Kind :=
  [literal .int, literal .float, literal .char, literal .string, ident, directive] ++
    Keyword.all.map keyword ++ Kind.symbols ++ [eof]

/-- The kind that a token table calls `name`. -/
def Kind.ofName? (name : String) : Option Kind :=
  Kind.all.find? (·.name == name)

/-! ## Classes -/

/-- The coarse classes of tokens. -/
inductive Category
  | keyword | identifier
  | literal (class_ : Literal)
  | operator | punctuation | directive | eof
deriving DecidableEq, Repr

/-- The name of a class in a listing of kinds. -/
def Category.name : Category → String
  | keyword => "Keyword"
  | identifier => "Identifier"
  | literal class_ => class_.name
  | operator => "Operator"
  | punctuation => "Punctuation"
  | directive => "Directive"
  | eof => "Eof"

namespace Kind

/-- The coarse class of a kind. -/
def category : Kind → Category
  | literal class_ => .literal class_
  | ident => .identifier
  | directive => .directive
  | keyword _ => .keyword
  | operator _ => .operator
  | punct _ => .punctuation
  | eof => .eof

/-- Whether the kind is a word of a base type. -/
def isTypeWord : Kind → Bool
  | keyword (.type _) => true
  | _ => false

/-- Whether the kind is a qualifier or a storage class. -/
def isQualifier : Kind → Bool
  | keyword (.qualifier _) => true
  | _ => false

/-- Whether a declaration may begin with the kind. -/
def startsDeclaration (kind : Kind) : Bool :=
  kind.isTypeWord || kind.isQualifier || kind == keyword .kwStruct

/-- Whether the kind is `++` or `--`. -/
def isStep (kind : Kind) : Bool :=
  kind == operator .plusPlus || kind == operator .minusMinus

/-- Whether the kind is a compound assignment operator. -/
def isUpdate : Kind → Bool
  | operator o =>
      o ∈ [.plusAssign, .minusAssign, .starAssign, .slashAssign, .percentAssign, .shlAssign,
        .shrAssign, .ampAssign, .pipeAssign, .caretAssign]
  | _ => false

/-- The kind in a message: the class in words, or the spelling in quotes. -/
def describe : Kind → String
  | literal .int => "integer literal"
  | literal .float => "float literal"
  | literal .char => "char literal"
  | literal .string => "string literal"
  | ident => "identifier"
  | directive => "preprocessor directive"
  | keyword word => s!"'{word.spelling}'"
  | operator sign => s!"'{sign.spelling}'"
  | punct mark => s!"'{mark.spelling}'"
  | eof => "end of file"

end Kind

end MiniC
