import MiniC.Proofs.Checking.Realizing
import MiniC.Proofs.Syntactic

/-!
# `MiniC.Proofs.Checking.Scopes` — every part of a program leaves scopes and context as they were

A part is walked over under symbols and in a context: the function around it, how many loops and
switches are around it, and the struct whose fields are being declared.  All of this is state that
the walk changes on its way.  The state behind the part is the one that the next part is walked
over in, and it has the same scopes, with new names at most in the innermost, and the same
context, even if the part ends at a hole.

So a part might as well be handed what is around it.  `Part.run` does that, and leaves the state
that the walk leaves.

## Contents
- `State`, `Part` and `Part.run`: the parts of a program, checked in a state.
- `Part.walk`: the same parts, walked over; `Part.realizes`: one realizes the other.
- `Part.Disciplined`, `TokenStream.ClosesScopes`: what is left as it was.
- `run_disciplined`: **every part leaves scopes and context as they were.**
-/

namespace MiniC

open Cursor (reading broken)

/-! ## Parts and states -/

/-- What a part of a program is checked in. -/
structure State where
  symbols : Symbols
  /-- The function around the part, and whether a loop or a switch is around it. -/
  context : Context
  /-- The struct whose fields are being declared. -/
  struct : Option String

/-- The parts of a program, each with what is known of it where it is checked. -/
inductive Part
  -- Expressions
  | typeSpec (spec : TypeSpec) | expression (e : Expr) | arguments (trail : Trail)
  -- Declarations
  | declarator (base : BaseType) (isConst : Bool) (d : Declarator) | declaration (d : Declaration)
  | field (struct : StructDef) (f : Field) | fields (struct : StructDef) (fs : List Field)
  | structDecl (s : StructDecl) | param (p : Param) | params (ps : Params)
  | header (h : Header) (defined : Bool)
  -- Statements
  | place (p : Place) | assignment (a : Assignment) | condition (ruled : Ruled) (c : Condition)
  | forInit (init : ForInit) | statement (s : Stmt) | statements (ss : Stmts)
  | clauses (seen : List String) (hasDefault : Bool) (cs : Clauses)
  -- Statements in their surroundings: the body of a control statement, of a function, of a switch
  | body (s : Stmt) | functionBody (f : Enclosing) (s : Stmt) | switchBody (cs : Clauses)
  -- Programs
  | program (ss : Stmts)

namespace Part

/-- Check a part in a context. -/
def check (context : Context) (enclosing : Option String) : Part → Check Unit
  | typeSpec spec => do let _ ← Check.reading fun σ => spec.resolve σ enclosing
  | expression e => do let _ ← Check.reading e.typing
  | arguments trail => do let _ ← Check.reading trail.typing
  | declarator base isConst d => d.check base isConst
  | declaration d => d.check
  | field struct f => do let _ ← Check.reading fun σ => f.check σ struct
  | fields struct fs => do let _ ← Check.reading fun σ => checkFields σ struct fs
  | structDecl s => s.check
  | param p => do let _ ← p.check
  | params ps => do let _ ← checkParams ps.toList
  | header h defined => do let _ ← h.check defined
  | place p => do let _ ← Check.reading p.target
  | assignment a => Check.reading a.check
  | condition ruled c => Check.reading fun σ => c.check σ ruled
  | forInit init => init.check
  | statement s => s.check context
  | statements ss => ss.check context
  | clauses seen hasDefault cs => cs.check context seen hasDefault
  | body s => Check.inScope (s.check context)
  | functionBody f s => s.check (.body f)
  | switchBody cs => Check.inScope (cs.check context.switch [] false)
  | program ss => Check.inScope (ss.check context)

/-- Check a part in a state: the state behind it, and what was found.  A check is handed its
context and changes the symbols only; that a walk, which changes all fields, leaves this state is
`Part.Disciplined.checked`. -/
def run (part : Part) (state : State) : State × Finding Unit :=
  let (σ, found) := part.check state.context state.struct state.symbols
  ({ state with symbols := σ }, found)

/-- Walk over a part. -/
def walk : Part → Walk Unit
  | typeSpec spec => do let _ ← spec.walk
  | expression e => do let _ ← Walk.reading e.typing
  | arguments trail => do let _ ← Walk.reading trail.typing
  | declarator base isConst d => d.walk base isConst
  | declaration d => d.walk
  | field struct f => do let _ ← f.walk struct
  | fields struct fs => do let _ ← walkFields struct fs
  | structDecl s => s.walk
  | param p => do let _ ← p.walk
  | params ps => do let _ ← walkParams ps.toList
  | header h defined => do
      let front ← h.walkFront
      let _ ← h.walkRest front defined
  | place p => do let _ ← Walk.reading p.target
  | assignment a => Walk.reading a.check
  | condition ruled c => Walk.reading fun σ => c.check σ ruled
  | forInit init => init.walk
  | statement s => s.walk
  | statements ss => ss.walk
  | clauses seen hasDefault cs => cs.walk seen hasDefault
  | body s => walkBody s.isBlock s.walk
  | functionBody f s => Walk.inFunction f s.walk
  | switchBody cs => Walk.inSwitch (Walk.inScope (cs.walk [] false))
  | program ss => ss.walkProgram

/-- Whether a program has the part where the fields of the struct are being declared, or of
none. -/
def MetIn (struct : Option String) : Part → Prop
  | typeSpec _ => True
  | field s _ | fields s _ => struct = some s.name
  | _ => struct = none

theorem exists_metIn (part : Part) : ∃ struct, part.MetIn struct := by
  cases part with
  | typeSpec spec => exact ⟨none, trivial⟩
  | field struct f => exact ⟨_, rfl⟩
  | fields struct fs => exact ⟨_, rfl⟩
  | _ => exact ⟨_, rfl⟩

/-- **The walk over a part realizes its check,** where a program has the part. -/
theorem realizes (part : Part) (context : Context) {struct : Option String}
    (h : part.MetIn struct) : part.walk.Realizes context struct (part.check context struct) := by
  cases part with
  | typeSpec spec => exact (Walk.Realizes.typeSpec spec).bind fun _ => .pure _
  | field s f =>
      obtain rfl := h
      exact (realizes_field s f).bind fun _ => .pure _
  | fields s fs =>
      obtain rfl := h
      exact (realizes_fields s fs).bind fun _ => .pure _
  | expression e =>
      obtain rfl := h
      exact (realizes_expression e).bind fun _ => .pure _
  | arguments trail =>
      obtain rfl := h
      exact (realizes_arguments trail).bind fun _ => .pure _
  | declarator base isConst d =>
      obtain rfl := h
      exact realizes_declarator base isConst d
  | declaration d =>
      obtain rfl := h
      exact realizes_declaration d
  | structDecl s =>
      obtain rfl := h
      exact realizes_structDecl s
  | param p =>
      obtain rfl := h
      exact (realizes_param p).bind fun _ => .pure _
  | params ps =>
      obtain rfl := h
      exact (realizes_params ps.toList).bind fun _ => .pure _
  | header hd defined =>
      obtain rfl := h
      rw [check, Header.check_eq, bind_assoc]
      exact (realizes_front hd).bind fun front =>
        (realizes_rest hd front defined).bind fun _ => .pure _
  | place p =>
      obtain rfl := h
      exact (Walk.Realizes.reading (fun _ => leaves_target p) fun h => h.target p).bind
        fun _ => .pure _
  | assignment a =>
      obtain rfl := h
      exact realizes_assignment a
  | condition ruled c =>
      obtain rfl := h
      exact realizes_condition ruled c
  | forInit init =>
      obtain rfl := h
      exact realizes_forInit init
  | statement s =>
      obtain rfl := h
      exact (realized_stmt context s).alone
  | statements ss =>
      obtain rfl := h
      exact realizes_stmts context ss
  | clauses seen hasDefault cs =>
      obtain rfl := h
      exact realizes_clauses context seen hasDefault cs
  | body s =>
      obtain rfl := h
      exact (realized_stmt context s).body
  | functionBody f s =>
      obtain rfl := h
      exact .inFunction (realized_stmt (.body f) s).alone
  | switchBody cs =>
      obtain rfl := h
      exact .inSwitch (.inScope (realizes_clauses context.switch [] false cs))
  | program ss =>
      obtain rfl := h
      exact realizes_program ss

end Part

/-- What is around a part, as a check is handed it. -/
def Checker.state (s : Checker) : State := ⟨s.symbols, s.context, s.struct⟩

/-- A walk leaves the state that the check leaves which it realizes. -/
theorem Walk.Realizes.state {w : Walk Unit} {c : Check Unit} {s : Checker}
    (h : w.Realizes s.context s.struct c) :
    (w s).1.symbols = (c s.symbols).1 ∧ (w s).1.context = s.context ∧
      (w s).1.struct = s.struct ∧ (w s).2 = (c s.symbols).2 := by
  obtain ⟨hfound, hlike⟩ := h.same s s.symbols rfl rfl (.refl _)
  have hkeeps := h.keeps s
  exact ⟨hlike.eq hkeeps.symbols (h.keepsToo _), hkeeps.context, hkeeps.struct, hfound⟩

/-! ## Discipline -/

/-- A part that leaves scopes and context as they were, whether it is whole or ends at a hole. -/
structure Part.Disciplined (part : Part) (s : Checker) : Prop where
  /-- As many scopes are open, -/
  depth : (part.walk s).1.symbols.depth = s.symbols.depth
  /-- those around the innermost are the same, -/
  outer : (part.walk s).1.symbols.scopes.tail = s.symbols.scopes.tail
  /-- and the innermost has all that was declared in it. -/
  inner : ∀ name v, (s.symbols.scopes.headD []).find? name = some v →
    ((part.walk s).1.symbols.scopes.headD []).find? name = some v
  /-- The other fields have the values that they had in front. -/
  function : (part.walk s).1.function = s.function
  struct : (part.walk s).1.struct = s.struct
  loops : (part.walk s).1.loops = s.loops
  switches : (part.walk s).1.switches = s.switches
  /-- No declaration is refused for want of a scope. -/
  blameless : ∀ issue ∈ (part.walk s).2.issues, issue.blamesScope = false
  /-- Handed what is around it, the part leaves the same state and finds the same. -/
  checked : part.MetIn s.struct → part.run s.state = ((part.walk s).1.state, (part.walk s).2)

/-- An analysis that closes every scope that it opens. -/
structure TokenStream.ClosesScopes (stream : TokenStream) : Prop where
  /-- It is a walk that begins and ends without a scope, a function, a struct, a loop and a
  switch around, -/
  walked : (Part.program (.ofList stream.parts)).walk .fresh =
    ({ Checker.fresh with symbols := stream.analyze.symbols }, ⟨stream.issues, .ok ()⟩)
  depth : stream.analyze.symbols.depth = 0
  /-- and in which no declaration is refused for want of a scope. -/
  blameless : ∀ issue ∈ stream.issues, issue.blamesScope = false

theorem Finding.outcome_settledWith (found : Finding Unit) :
    (found.settledWith ()).outcome = .ok () := by
  rcases found with ⟨issues, _ | _⟩ <;> rfl

/-- Statements that are checked one after the other are checked to the end. -/
theorem outcome_stmts (context : Context) : ∀ (ss : Stmts) (σ : Symbols),
    (ss.check context σ).2.outcome = .ok ()
  | .nil, _ => rfl
  | .cons first rest, σ => by
      have hfirst : ((first.check context).settled σ).2.outcome = .ok () :=
        Finding.outcome_settledWith _
      rw [Stmts.check, Check.bind_run, hfirst]
      exact outcome_stmts context rest _

/-- A walk over a program that begins outside of everything ends there. -/
theorem TokenStream.closesScopes (stream : TokenStream) : stream.ClosesScopes := by
  have hrealizes : Walk.Realizes _ Checker.fresh.context none _ :=
    (Part.program (.ofList stream.parts)).realizes Checker.fresh.context rfl
  obtain ⟨hsymbols, -, -, hfound⟩ := hrealizes.state
  obtain ⟨hkept, hfunction, hstruct, hloops, hswitches⟩ := hrealizes.keeps .fresh
  have hleaves := leaves_stmts .global (Stmts.ofList stream.parts)
  refine ⟨Prod.ext ?_ ?_, (hleaves.inScope.keeps .empty).depth,
    hleaves.blameless Symbols.empty.enter (Nat.succ_pos _)⟩
  · exact Checker.ext hsymbols hfunction hstruct hloops hswitches
  · exact hfound.trans (Finding.ext rfl (outcome_stmts .global _ _))

/-- **Every part leaves scopes and context as they were,** whether it is whole or ends at a hole:
as many scopes are open, those around the innermost are the same, the innermost has all that was
declared in it, and function, struct and depths have the values that they had.  So the statement
behind another is walked over in the state that was there before, up to new names; and a whole
analysis ends without an open scope, and no declaration in it is refused for want of one. -/
theorem run_disciplined :
    (∀ (part : Part) (s : Checker), 0 < s.symbols.depth → part.Disciplined s) ∧
      ∀ tokens : List Token, (TokenStream.ofTokens tokens).ClosesScopes := by
  refine ⟨fun part s hopen => ?_, fun tokens => ?_⟩
  -- What is kept is kept whatever the struct around is; only what is found depends on it.
  · obtain ⟨struct, hmet⟩ := part.exists_metIn
    have hrealizes := part.realizes s.context hmet
    have hkeeps := hrealizes.keeps s
    refine ⟨hkeeps.symbols.depth, hkeeps.symbols.outer, hkeeps.symbols.inner, hkeeps.function,
      hkeeps.struct, hkeeps.loops, hkeeps.switches, hrealizes.blameless s hopen, fun hmet => ?_⟩
    obtain ⟨hsymbols, hcontext, hstruct, hfound⟩ := (part.realizes s.context hmet).state
    refine Prod.ext ?_ hfound.symm
    show State.mk (part.check s.context s.struct s.symbols).1 s.context s.struct =
      State.mk (part.walk s).1.symbols (part.walk s).1.context (part.walk s).1.struct
    rw [hsymbols, hcontext, hstruct]
  · exact (TokenStream.ofTokens tokens).closesScopes

/-- In a loop and two switches of the function `g`, where `x` is a number and a constant. -/
def insideLoop : Checker where
  symbols := ⟨[[⟨"x", .int, true, 1⟩]], [], []⟩
  function := some ⟨"g", .int⟩
  struct := none
  loops := 1
  switches := 2

/-- `void f(int x) { break`, and nothing behind. -/
def brokenFunction : Stmt :=
  .function
    { qualifiers := []
      spec := .words ⟨.keyword (.type .void), "void", ⟨1, 1⟩⟩ []
      stars := []
      name := .found ⟨.ident, "f", ⟨1, 6⟩⟩
      opening := .found ⟨.punct .lparen, "(", ⟨1, 7⟩⟩
      params := .list ⟨[], .words ⟨.keyword (.type .int), "int", ⟨1, 8⟩⟩ [], [],
        .found ⟨.ident, "x", ⟨1, 12⟩⟩, none⟩ []
      closing := .found ⟨.punct .rparen, ")", ⟨1, 13⟩⟩ }
    (.block ⟨.punct .lbrace, "\x7b", ⟨1, 15⟩⟩
      (.cons (.jump ⟨.keyword .kwBreak, "break", ⟨1, 17⟩⟩
        (.missing ⟨.token (.punct .semicolon) (.jumpEnd "break"), []⟩)) .nil)
      (.missing ⟨.token (.punct .rbrace) .blockEnd, []⟩))

/-- The `break` is in no loop of `f`, and the walk stops at the end of the input with two scopes
and a function open.  Behind it there are one scope, one loop, two switches and the function `g`
again, and `x` is the constant that it was. -/
theorem brokenFunction_disciplined :
    let part := Part.statement brokenFunction
    let ran := part.walk insideLoop
    (∃ hole, ran.2.outcome = .error hole) ∧
      .fault (.misplacedJump "break" true) (some ⟨.keyword .kwBreak, "break", ⟨1, 17⟩⟩) ∈
        ran.2.issues ∧
      ran.1.symbols.depth = 1 ∧ ran.1.function = some ⟨"g", .int⟩ ∧ ran.1.loops = 1 ∧
      ran.1.switches = 2 ∧
      (ran.1.symbols.scopes.headD []).find? "x" = some ⟨"x", .int, true, 1⟩ ∧
      part.run insideLoop.state = (ran.1.state, ran.2) := by
  intro part ran
  have hdisciplined := run_disciplined.1 part insideLoop (by decide)
  refine ⟨⟨_, rfl⟩, ?_, hdisciplined.depth, hdisciplined.function, hdisciplined.loops,
    hdisciplined.switches, hdisciplined.inner "x" _ rfl, hdisciplined.checked rfl⟩
  show _ ∈ [_, _]
  exact List.mem_cons_self

end MiniC
