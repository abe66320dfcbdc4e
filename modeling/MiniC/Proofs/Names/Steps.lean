import MiniC.Proofs.Names.Looks
import MiniC.Proofs.Reading.Tokens
import MiniC.Stmt.Check

/-!
# `MiniC.Proofs.Names.Steps` — a program without holes, step by step

Checking a program without holes is going through its text once: regions begin and end, tokens
pass by, parts look names up, and names are declared.  What happens on the way is told from the
tree alone; only what is found at a step depends on the symbols there.

The regions of names are the function from its parameter list on, the block, the `for` from its
header on, the body of a switch, and the body of a control statement if it is not a block.

## Contents
- `Step`, `Step.run`, `runSteps`: what happens on the way through a program.
- `region`, `bodied`: regions around steps.
- `steps` of every kind of tree, up to `Stmts.programSteps`.
-/

namespace MiniC

/-! ## Steps -/

/-- What happens on the way through a program. -/
inductive Step
  /-- A region of names begins. -/
  | enter
  /-- The region ends that began last. -/
  | leave
  | pass (token : Token)
  /-- Words are looked at under the symbols. -/
  | look (words : List Word) (view : Symbols → List Issue)
  /-- A variable is declared at its name. -/
  | declare (name : Token) (type : CType) (isConst : Bool)
  /-- The function is declared whose name was passed. -/
  | function (name : Token) (f : Function)
  /-- The struct is declared whose name was passed. -/
  | struct (name : Token) (s : StructDef)

namespace Step

/-- The tokens that a step takes. -/
def tokens : Step → List Token
  | pass token => [token]
  | look words _ => words.map Word.token
  | declare name _ _ => [name]
  | enter | leave | function _ _ | struct _ _ => []

/-- The symbols behind a step, and the issues that are found. -/
def run : Step → Symbols → Symbols × List Issue
  | enter, σ => (σ.enter, [])
  | leave, σ => (σ.leave, [])
  | pass _, σ => (σ, [])
  | look _ view, σ => (σ, view σ)
  | declare name type isConst, σ =>
      let (σ₁, found) := declareVariable name type isConst σ
      (σ₁, found.issues)
  | function name f, σ =>
      let (σ₁, found) := Check.register (·.tryFunction f) name σ
      (σ₁, found.issues)
  | struct name s, σ =>
      let (σ₁, found) := Check.register (·.tryStruct s) name σ
      (σ₁, found.issues)

end Step

/-- Go through steps one after the other, each under the symbols that the one before left. -/
def runSteps : List Step → Symbols → Symbols × List Issue
  | [], σ => (σ, [])
  | step :: rest, σ =>
      let (σ₁, issues) := step.run σ
      let (σ₂, more) := runSteps rest σ₁
      (σ₂, issues ++ more)

/-- Steps in a region of their own. -/
def region (steps : List Step) : List Step := .enter :: (steps ++ [.leave])

/-- The steps of a body: a block is a region as it is. -/
def bodied (isBlock : Bool) (steps : List Step) : List Step :=
  if isBlock then steps else region steps

/-- Tokens that pass by. -/
def passing (tokens : List Token) : List Step := tokens.map .pass

/-! ## Declarations -/

/-- The base type that a type specifier names. -/
def TypeSpec.base : TypeSpec → BaseType
  | words first rest => .ofWords ((first :: rest).filterMap Token.typeWord?)
  | struct _ (.found name) => .struct name.lexeme
  | _ => .unknown

/-- The steps of a type specifier. -/
def TypeSpec.steps (spec : TypeSpec) : List Step :=
  [.look (plain spec.tokens) fun σ => (spec.resolve σ none).issues]

/-- An array of the type if there are brackets. -/
def CType.bracketed (t : CType) (brackets : Bool) : CType := if brackets then t.withArray else t

/-- The type of a declared variable. -/
def Declarator.type (base : BaseType) (d : Declarator) : CType :=
  ((CType.plain base).withStars d.stars).bracketed d.array.isSome

/-- The words of an initial value. -/
def initWords (init : Option (Token × Expr)) : List Word :=
  init.elim [] fun init => plain [init.1] ++ init.2.words

/-- The steps of a declared variable: it is declared at its name, in front of its initial
value. -/
def Declarator.steps (base : BaseType) (isConst : Bool) (d : Declarator) : List Step :=
  passing d.stars ++ d.name.tokens.flatMap fun name =>
    .look [] (fun _ =>
        (Finding.complain (!(d.type base).isVoid) (.voidVariable name.lexeme) name).issues) ::
      .declare name (d.type base) isConst ::
      (passing (d.array.elim [] ArraySuffix.tokens) ++
        [.look (initWords d.init) fun σ =>
          (checkInitializer name (d.type base) d.init σ).2.issues])

/-- The steps of a declaration. -/
def Declaration.steps (d : Declaration) : List Step :=
  passing d.qualifiers ++ (d.spec.steps ++
    (d.first.steps d.spec.base (hasConst d.qualifiers) ++
      ((d.others.flatMap fun other =>
          .pass other.1 :: other.2.steps d.spec.base (hasConst d.qualifiers)) ++
        passing d.semicolon.tokens)))

/-- The struct that a definition stands for.  The fields do not depend on the symbols. -/
def StructDecl.struct (s : StructDecl) : StructDef :=
  let start : StructDef := ⟨s.name.lexeme, s.name.location.line, []⟩
  (checkFields .empty start s.fields).outcome.toOption.getD start

/-- The steps of the definition of a struct. -/
def StructDecl.steps (s : StructDecl) : List Step :=
  .look (plain (s.keyword :: s.name :: s.opening :: s.fields.flatMap Field.tokens)) (fun σ =>
      (checkFields σ ⟨s.name.lexeme, s.name.location.line, []⟩ s.fields).issues) ::
    .struct s.name s.struct :: passing (s.closing.tokens ++ s.semicolon.tokens)

/-- The type of a parameter. -/
def Param.type (p : Param) : CType :=
  ((CType.plain p.spec.base).withStars p.stars).bracketed p.array.isSome

/-- The steps of a parameter, which is declared at its name. -/
def Param.steps (p : Param) : List Step :=
  passing p.qualifiers ++ (p.spec.steps ++ (passing p.stars ++
    ((p.name.tokens.map fun name => .declare name p.type (hasConst p.qualifiers)) ++
      passing (p.array.elim [] ParamArray.tokens))))

/-- The steps of parameters. -/
def Params.steps : Params → List Step
  | none => []
  | void word => [.pass word]
  | list first others => first.steps ++ others.flatMap fun other => .pass other.1 :: other.2.steps

/-- The name in a slot. -/
def Slot.lexeme : Slot → String
  | found token => token.lexeme
  | missing _ => ""

/-- The function whose header this is. -/
def Header.enclosing (h : Header) : Enclosing :=
  ⟨h.name.lexeme, (CType.plain h.spec.base).withStars h.stars⟩

/-- The steps of a header in front of its parameter list. -/
def Header.typeSteps (h : Header) : List Step :=
  passing h.qualifiers ++ (h.spec.steps ++ passing (h.stars ++ h.name.tokens))

/-- The steps of a parameter list, behind which the function is declared. -/
def Header.paramSteps (h : Header) (defined : Bool) : List Step :=
  passing h.opening.tokens ++ (h.params.steps ++ (passing h.closing.tokens ++
    h.name.tokens.map fun name => .function name
      ⟨name.lexeme, h.enclosing.returns,
        h.params.toList.map fun p => ⟨p.name.lexeme, p.type⟩,
        name.location.line, defined⟩))

/-! ## Parts of statements -/

/-- The words of something that can be written to. -/
def Place.words (p : Place) : List Word := plain p.stars ++ p.path.words

/-- The words of an assignment. -/
def Assignment.words : Assignment → List Word
  | stepBefore operator place => plain [operator] ++ place.words
  | stepAfter place operator => place.words ++ plain [operator]
  | store place sign value => place.words ++ (plain [sign] ++ value.words)
  | update place operator value => place.words ++ (plain [operator] ++ value.words)
  | missing place _ => place.words

/-- The words of a condition. -/
def Condition.words (c : Condition) : List Word :=
  plain c.opening.tokens ++ (c.test.words ++ plain c.closing.tokens)

/-- The steps of a condition. -/
def Condition.steps (c : Condition) (ruled : Ruled) : List Step :=
  [.look c.words fun σ => (c.check σ ruled).issues]

/-- The steps of the first part of the header of a `for`. -/
def ForInit.steps : ForInit → List Step
  | none semicolon => [.pass semicolon]
  | declaration d => d.steps
  | assignment a semicolon =>
      .look a.words (fun σ => (a.check σ).issues) :: passing semicolon.tokens

/-- The steps of the condition of a `for`. -/
def testSteps (test : Option Expr) : List Step :=
  [.look (test.elim [] Expr.words) fun σ => (checkForTest test σ).2.issues]

/-- The steps of the last part of the header of a `for`. -/
def updateSteps (update : Option Assignment) : List Step :=
  [.look (update.elim [] Assignment.words) fun σ => (checkForUpdate update σ).2.issues]

/-! ## Statements -/

mutual

/-- The steps of a statement in a context. -/
def Stmt.steps (context : Context) : Stmt → List Step
  | .blank token => [.pass token]
  | .struct definition => definition.steps
  | .declaration d => d.steps
  | .prototype header semicolon =>
      header.typeSteps ++ (region (header.paramSteps false) ++ [.pass semicolon])
  | .function header body =>
      header.typeSteps ++
        region (header.paramSteps true ++ body.steps (.body header.enclosing))
  | .ifThen keyword condition body =>
      .pass keyword :: (condition.steps .ifElse ++ bodied body.isBlock (body.steps context))
  | .ifElse keyword condition body elseWord alternative =>
      .pass keyword :: (condition.steps .ifElse ++ (bodied body.isBlock (body.steps context) ++
        .pass elseWord :: bodied alternative.isBlock (alternative.steps context)))
  | .whileLoop keyword condition body =>
      .pass keyword :: (condition.steps .whileLoop ++
        bodied body.isBlock (body.steps context.loop))
  | .doWhile keyword body whileWord condition semicolon =>
      .pass keyword :: (bodied body.isBlock (body.steps context.loop) ++
        (passing whileWord.tokens ++ (condition.steps .doWhile ++ passing semicolon.tokens)))
  | .forLoop keyword opening init test semicolon update closing body =>
      .pass keyword :: (passing opening.tokens ++ region (init.steps ++ (testSteps test ++
        (passing semicolon.tokens ++ (updateSteps update ++ (passing closing.tokens ++
          bodied body.isBlock (body.steps context.loop)))))))
  | .switch keyword opening subject closing bodyStart clauses bodyEnd =>
      .pass keyword :: (passing opening.tokens ++
        (.look subject.words (fun σ => (checkSubject σ subject).issues) ::
          (passing closing.tokens ++ (passing bodyStart.tokens ++
            (region (clauses.steps context.switch [] false) ++ passing bodyEnd.tokens)))))
  | .block opening body closing =>
      .pass opening :: (region (body.steps context) ++ passing closing.tokens)
  | .exit keyword semicolon =>
      [.look (plain [keyword]) (fun _ => (context.checkExit keyword).issues), .pass semicolon]
  | .exitWith keyword value semicolon =>
      [.look (plain [keyword] ++ (value.words ++ plain semicolon.tokens)) fun σ =>
        ((Stmt.exitWith keyword value semicolon).check context σ).2.issues]
  | .jump keyword semicolon =>
      .look (plain [keyword]) (fun _ => (context.checkJump keyword).issues) ::
        passing semicolon.tokens
  | .call call semicolon =>
      [.look (call.words ++ plain semicolon.tokens) fun σ =>
        ((Stmt.call call semicolon).check context σ).2.issues]
  | .printf name opening format arguments closing semicolon =>
      [.look (plain (name :: opening.tokens) ++ (format.words ++ (arguments.words ++
          plain (closing.tokens ++ semicolon.tokens)))) fun σ =>
        ((Stmt.printf name opening format arguments closing semicolon).check context σ).2.issues]
  | .scanf name opening format arguments closing semicolon =>
      [.look (plain (name :: (opening.tokens ++ format.tokens)) ++ (arguments.words ++
          plain (closing.tokens ++ semicolon.tokens))) fun σ =>
        ((Stmt.scanf name opening format arguments closing semicolon).check context σ).2.issues]
  | .assignment a semicolon =>
      .look a.words (fun σ => (a.check σ).issues) :: passing semicolon.tokens
  | .missing _ => []

/-- The steps of statements. -/
def Stmts.steps (context : Context) : Stmts → List Step
  | .nil => []
  | .cons first rest => first.steps context ++ rest.steps context

/-- The steps of the body of a switch, given the labels and whether there was a default before. -/
def Clauses.steps (context : Context) (seen : List String) (hasDefault : Bool) :
    Clauses → List Step
  | .nil => []
  | .case keyword value colon rest =>
      .look (plain (keyword :: value.tokens)) (fun _ => value.tokens.flatMap fun value : Token =>
          (Finding.complain (value.lexeme ∉ seen) (.duplicateCase value.lexeme) value).issues) ::
        (passing colon.tokens ++
          rest.steps context (value.tokens.map Token.lexeme ++ seen) hasDefault)
  | .default keyword colon rest =>
      .look (plain [keyword]) (fun _ =>
          (Finding.complain (!hasDefault) .duplicateDefault keyword).issues) ::
        (passing colon.tokens ++ rest.steps context seen true)
  | .stmt first rest => first.steps context ++ rest.steps context seen hasDefault

end

/-- The steps of a whole program, which is a region. -/
def Stmts.programSteps (program : Stmts) : List Step := region (program.steps .global)

end MiniC
