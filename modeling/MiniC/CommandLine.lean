import MiniC.Analysis
import MiniC.Directory

/-!
# `MiniC.CommandLine` — the command line

The program is given the name of one file and perhaps options.  It writes the diagnostics of the
file to the error stream, between lines that say what it is doing, and on demand a table of the
tokens to the output stream.  The exit code is 0 for a file without problems, 1 for one with
problems or one that cannot be read as text, and 2 if the arguments are wrong or there is nothing
of the name.

## Contents
- `UsageError`, `Options`, `Options.ofArgs`.
- `tokenTable`: the table of tokens.
- `run`: what a run writes and how it exits, given what paths lead to; `runIn`: a run in a
  directory.
-/

namespace MiniC.CommandLine

/-! ## Arguments -/

/-- What can be wrong with the arguments. -/
inductive UsageError
  | unknownOption (option : String)
  | unexpectedArgument (argument : String)
  | noInput
deriving DecidableEq, Repr

/-- The message that reports bad arguments. -/
def UsageError.message : UsageError → String
  | unknownOption option => s!"Unknown option '{option}'"
  | unexpectedArgument argument => s!"Unexpected argument '{argument}'"
  | noInput => "No input file provided"

/-- What the arguments ask for, as far as they were read. -/
structure Options where
  input : Option String
  dumpsTokens : Bool
  color : Bool
deriving DecidableEq, Repr

/-- Take one argument into account. -/
def Options.add (options : Options) (argument : String) : Except UsageError Options :=
  if argument = "--tokens" then .ok { options with dumpsTokens := true }
  else if argument = "--no-color" then .ok { options with color := false }
  else if "--".isPrefixOf argument then .error (.unknownOption argument)
  else if options.input.isNone then .ok { options with input := some argument }
  else .error (.unexpectedArgument argument)

/-- Take arguments into account, the first bad one winning. -/
def Options.addAll (options : Options) : List String → Except UsageError Options
  | [] => .ok options
  | argument :: rest => (options.add argument).bind (·.addAll rest)

/-- The name of the file and the options that arguments ask for. -/
def Options.ofArgs (terminal : Bool) (args : List String) :
    Except UsageError (String × Options) := do
  let options ← Options.addAll ⟨none, false, terminal⟩ args
  match options.input with
  | some input => .ok (input, options)
  | none => .error .noInput

/-- The lines that explain the command line. -/
def usage (program : String) : String :=
  s!"Usage: {program} <file.c> [--tokens] [--no-color]\n\nOptions:\n" ++
    "  --tokens     Print the token table before analysis\n" ++
    "  --no-color   Plain diagnostics even on a terminal\n" ++
    s!"\nExample:\n  {program} demos/sample.c\n"

/-! ## Token table -/

/-- `text` with blanks behind it up to `width` characters. -/
def padded (width : Nat) (text : String) : String :=
  text.pushn ' ' (width - text.length)

/-- A row of the table of tokens. -/
def tokenRow (position kind lexeme : String) : String :=
  s!"{padded 10 position} {padded 16 kind} {lexeme}\n"

/-- The table of tokens. -/
def tokenTable (tokens : List Token) : String :=
  String.join (tokenRow "POSITION" "KIND" "LEXEME" :: tokens.map fun t =>
    tokenRow s!"{t.location.line}:{t.location.column}" t.kind.name t.lexeme)

/-! ## Runs -/

/-- What a run writes, and how it exits. -/
structure Outcome where
  code : Nat
  output : String
  errors : String
deriving DecidableEq, Repr

/-- The lines of diagnostics. -/
def lines (color : Bool) (ds : List Diagnostic) : String :=
  ((Collector.writing color).reportAll ds).sink

/-- A run on the text of the file `input`. -/
def runOn (input source : String) (options : Options) : Outcome :=
  let lexing := tokenize source
  let found := (TokenStream.ofTokens lexing.tokens).analyze.diagnostics
  let count := lexing.diagnostics.length + found.length
  { code := if count = 0 then 0 else 1
    output := if options.dumpsTokens then tokenTable lexing.tokens else ""
    errors :=
      s!"Analyzing {input}...\n" ++ lines options.color lexing.diagnostics ++
        s!"Scanned {lexing.tokens.length} tokens\n" ++ lines options.color found ++
        s!"Analysis complete. Total errors: {count}\n" }

/-- How a run ends that cannot read its file. -/
def unreadable (error : String) : Outcome := ⟨1, "", s!"Error: {error}\n"⟩

/-- What is said of a file that is not UTF-8. -/
def notText : String :=
  "Error \x7b kind: InvalidData, message: \"stream did not contain valid UTF-8\" \x7d"

/-- A run with `args`, where paths lead to what `reach` says.  Whether there is something of the
name is asked before it is read. -/
def run (program : String) (terminal : Bool) (reach : String → Reached) (args : List String) :
    Outcome :=
  match Options.ofArgs terminal args with
  | .error error => ⟨2, "", s!"Error: {error.message}\n\n" ++ usage program⟩
  | .ok (input, options) =>
    match reach input with
    | .nothing => ⟨2, "", s!"Error: File '{input}' not found\n"⟩
    | .unreadable error => unreadable error.describe
    | .file bytes =>
      match String.fromUTF8? bytes with
      | none => unreadable notText
      | some source => runOn input source options

/-- A run with `args` in a directory. -/
def runIn (program : String) (terminal : Bool) (directory : Directory) (args : List String) :
    Outcome :=
  run program terminal directory.reach args

end MiniC.CommandLine
