import MiniC.Proofs.Names.Regions
import MiniC.Proofs.Names.Statements
import MiniC.Proofs.Reading.Text
import MiniC.Proofs.Syntactic

/-!
# `MiniC.Proofs.Names.Resolution` — names are resolved by the regions of a program

The analysis of a program without syntax errors goes through the steps of the program, whose
tokens are those of the text.  At each of them the open scopes are the open regions.  So what is
reported about the name of a variable is told from the steps in front: a use is complained of if
and only if no variable of its name is declared in a region that is open, a declaration if and
only if its name is declared in the innermost.  Any other use has the type of the variable that
was declared first in the innermost region where there is one.

## Contents
- `Complains`, `Step.Reports`: what is to be reported about names at a step.
- `scoped_before`, `Step.reports`: what is reported at a step of a program.
- `Resolved`, with `names_resolved`: **names are resolved by the regions of a program.**
-/

namespace MiniC

open Cursor (reading)

/-! ## What is to be reported -/

/-- Of each word that is used as a variable and not visible there is a complaint, and there are no
others. -/
inductive Complains (before : List Step) : List Word → List Issue → Prop
  | nil : Complains before [] []
  | unresolved {word : Word} {words : List Word} {issues : List Issue} (use : word.isUse = true)
      (hidden : ¬Visible before word.token.lexeme) (rest : Complains before words issues) :
      Complains before (word :: words) (word.complaint :: issues)
  | fine {word : Word} {words : List Word} {issues : List Issue}
      (visible : word.isUse = true → Visible before word.token.lexeme)
      (rest : Complains before words issues) : Complains before (word :: words) issues

/-- What is to be reported about names at a step behind the steps `before`. -/
def Step.Reports (before : List Step) (issues : List Issue) : Step → Prop
  | look words _ => Complains before words issues
  | declare name _ _ =>
      (Redeclared before name.lexeme ∧
          issues = [.fault (.refused (.variableRedeclared name.lexeme)) name]) ∨
        (¬Redeclared before name.lexeme ∧ issues = [])
  | _ => issues = []

section

variable {before : List Step} {σ : Symbols}

theorem Scoped.complains (h : Scoped before σ) (words : List Word) :
    Complains before words (complaints σ words) := by
  induction words with
  | nil => exact .nil
  | cons word words ih =>
      have hvisible : (σ.var? word.token.lexeme).isSome = true ↔ Visible before word.token.lexeme :=
        h.isSome_var?
      by_cases hword : word.isUnresolved σ = true
      · have hparts := hword
        rw [Word.isUnresolved, Bool.and_eq_true, Option.isNone_iff_eq_none] at hparts
        obtain ⟨huse, hnone⟩ := hparts
        rw [complaints, List.filter_cons_of_pos hword, List.map_cons]
        refine .unresolved huse (fun hdeclared => ?_) ih
        rw [← hvisible, hnone] at hdeclared
        cases hdeclared
      · rw [complaints, List.filter_cons_of_neg hword]
        refine .fine (fun huse => hvisible.1 ?_) ih
        rw [Word.isUnresolved, huse, Bool.true_and] at hword
        exact Option.isSome_iff_ne_none.2 fun hnone => hword (by rw [hnone]; rfl)

/-- What is reported about names at a step is what is to be reported. -/
theorem Step.reports {step : Step} (hlawful : step.Lawful) (h : Scoped before σ)
    (hopen : step.declared?.isSome = true → 0 < σ.depth) :
    step.Reports before ((step.run σ).2.filter Issue.isNaming) := by
  obtain ⟨scopes, functions, structs⟩ := σ
  cases step with
  | enter => rfl
  | leave => rfl
  | pass token => rfl
  | look words view =>
      show Complains before words ((view _).filter Issue.isNaming)
      rw [hlawful.1]
      exact h.complains words
  | declare name type isConst =>
      cases scopes with
      | nil => exact absurd (hopen rfl) (Nat.lt_irrefl 0)
      | cons scope outer =>
          let σ : Symbols := ⟨scope :: outer, functions, structs⟩
          have hknown : (σ.inScope? 0 name.lexeme).isSome = true ↔ Redeclared before name.lexeme :=
            h.isSome_inScope
          by_cases hsome : (scope.find? name.lexeme).isSome = true
          · rw [run_redeclared hsome]
            exact .inl ⟨hknown.1 hsome, rfl⟩
          · rw [run_declared hsome]
            exact .inr ⟨fun h => hsome (hknown.2 h), rfl⟩
  | function name f =>
      obtain ⟨_, issues, hnaming, hrun⟩ := run_function name f functions structs
      rw [hrun]
      exact hnaming
  | struct name s =>
      obtain ⟨_, issues, hnaming, hrun⟩ := run_struct name s functions structs
      rw [hrun]
      exact hnaming

end

/-! ## The steps of a program -/

/-- At every step of a region of steps the open scopes are the open regions. -/
theorem scoped_before {inside before after : List Step} {step : Step} (hbalanced : Balanced inside)
    (hsplit : region inside = before ++ step :: after) :
    Scoped before (runSteps before .empty).1 ∧
      (step.declared?.isSome = true → 0 < (runSteps before .empty).1.depth) := by
  cases before with
  | nil =>
      obtain ⟨rfl, -⟩ := List.cons.inj hsplit
      exact ⟨.empty, fun h => nomatch h⟩
  | cons first begun =>
      obtain ⟨rfl, hinside⟩ := List.cons.inj hsplit
      -- What has begun is the front of what is inside: the last step ends the region.
      obtain ⟨rest, last, hrest⟩ := (List.eq_nil_or_concat (step :: after)).resolve_left
        (List.cons_ne_nil step after)
      have hinside' : inside ++ [.leave] = (begun ++ rest) ++ [last] := by
        rw [hinside, List.append_assoc, ← List.concat_eq_append, ← hrest]
        rfl
      obtain ⟨rfl, -⟩ := List.append_inj' hinside' rfl
      have hnest := hbalanced 0
      rw [nest_append] at hnest
      obtain ⟨k, hbegun, -⟩ := Option.bind_eq_some_iff.1 hnest
      have hentered : Scoped [.enter] (Step.enter.run .empty).1 :=
        Scoped.empty.snoc (fun h => nomatch h) rfl
      obtain ⟨hscoped, hdepth⟩ := hentered.run rfl hbegun
      exact ⟨hscoped, fun _ => hdepth ▸ Nat.succ_pos k⟩

theorem Stmts.tokens_ofList (parts : List Stmt) :
    (Stmts.ofList parts).tokens = parts.flatMap Stmt.tokens := by
  induction parts with
  | nil => rfl
  | cons part parts ih =>
      rw [Stmts.ofList, Stmts.tokens, ih]
      rfl

/-- Statements are recovered from one by one. -/
theorem Stmts.stop_trace_ofList (parts : List Stmt) : (Stmts.ofList parts).trace.stop = none := by
  induction parts with
  | nil => rfl
  | cons part parts ih => exact ih

namespace TokenStream

/-- The program that the rest of a stream holds. -/
def program (stream : TokenStream) : Stmts := .ofList stream.parts

variable {stream : TokenStream}

theorem trace_program (h : stream.holes = []) : stream.program.trace = .clear := by
  have hchecked := (leaves_stmts .global stream.program).inScope.trace .empty
  have hreported : stream.program.trace.reported = [] := by
    rw [← hchecked]
    exact h
  exact Trace.eq_clear hreported (Stmts.stop_trace_ofList stream.parts)

theorem tokens_program (h : stream.holes = []) : stream.program.tokens = stream.body := by
  have hclear := trace_program h
  rw [program, trace_ofList] at hclear
  obtain ⟨rest, hbody, hnext⟩ := spells_items (reading stream.body) hclear stream.body rfl
  rw [next_items] at hnext
  cases hnext
  rw [program, Stmts.tokens_ofList, hbody, List.append_nil]
  rfl

/-- The analysis of a program without holes goes through the steps of the program. -/
theorem takes_program (h : stream.holes = []) :
    (Check.inScope (stream.program.check .global)).Takes stream.program.programSteps stream.body
      () :=
  (takes_stmts .global stream.program (trace_program h)).region.of_eq rfl (tokens_program h).symm

end TokenStream

/-! ## The resolution of names -/

/-- A write to a part of a variable is one to a constant as the variable is. -/
theorem Place.isConst_target {p : Place} {token : Token} (hlead : p.path.lead = some token)
    {σ : Symbols} {target : Target} (h : (p.target σ).outcome = .ok target) :
    target.isConst = (σ.var? token.lexeme).any (·.isFrozen p.stars) := by
  obtain ⟨pathType, -, hbehind, -⟩ := Finding.ok_of_bind h
  obtain ⟨type, -, htarget, -⟩ := Finding.ok_of_bind hbehind
  cases htarget
  rw [hlead]
  rfl

/-- At a step behind the steps `before`, names are resolved by the regions that are open. -/
structure Step.Resolved (before : List Step) (σ : Symbols) (step : Step) : Prop where
  /-- A name stands for the variable of its name that was declared first in the innermost region
  where there is one. -/
  lookup : ∀ name v, σ.var? name = some v ↔ Resolves before name v
  /-- A use that stands for a variable has its type, and there is nothing to report. -/
  type : ∀ token v, Resolves before token.lexeme v → (Expr.var token).typing σ = pure v.type
  /-- What is written to is a constant if that variable is one. -/
  isConst : ∀ (p : Place) (token : Token) (target : Target) (v : Variable),
    p.path.lead = some token → Resolves before token.lexeme v → (p.target σ).outcome = .ok target →
      target.isConst = v.isFrozen p.stars
  /-- Uses are complained of if they stand for nothing, and declarations if the innermost region
  has their name. -/
  reports : step.Reports before ((step.run σ).2.filter Issue.isNaming)

/-- **Names are resolved by the regions of a program.**  If there are no syntax errors, then the
tokens are those of the steps of the program, in order; the diagnostics are what is found at the
steps, in order; and at each step names are resolved by the regions that are open there. -/
theorem names_resolved (tokens : List Token)
    (h : ∀ d ∈ (TokenStream.ofTokens tokens).analyze.diagnostics, d.severity ≠ .syntactic) :
    let stream := TokenStream.ofTokens tokens
    let steps := stream.program.programSteps
    steps.flatMap Step.tokens = stream.body ∧
      stream.analyze.diagnostics =
        (runSteps steps .empty).2.map (·.diagnostic stream.stop.location) ∧
      ∀ before step after, steps = before ++ step :: after →
        step.Resolved before (runSteps before .empty).1 := by
  intro stream steps
  have hholes : stream.holes = [] := by
    rw [← List.map_eq_nil_iff, ← TokenStream.syntactic_analyze, List.filter_eq_nil_iff]
    simpa using h
  have htakes := TokenStream.takes_program hholes
  have hbalanced : Balanced (stream.program.steps .global) :=
    (takes_stmts .global stream.program (TokenStream.trace_program hholes)).balanced
  refine ⟨htakes.text, ?_, fun before step after hsplit => ?_⟩
  · have hissues : stream.issues = (runSteps steps .empty).2 :=
      congrArg (·.2.issues) (htakes.run .empty)
    rw [TokenStream.diagnostics_analyze, hissues]
  · obtain ⟨hscoped, hopen⟩ := scoped_before hbalanced hsplit
    have hmem : step ∈ steps := by
      rw [hsplit]
      exact List.mem_append_right before List.mem_cons_self
    have hlawful : step.Lawful := htakes.lawful step hmem
    refine ⟨fun _ _ => hscoped.var?_iff, fun token v hv => ?_,
      fun p token target v hlead hv htarget => ?_, step.reports hlawful hscoped hopen⟩
    · simp only [Expr.typing, hscoped.var?_iff.2 hv]
    · rw [p.isConst_target hlead htarget, hscoped.var?_iff.2 hv]
      rfl

/-- A function with a constant parameter `x`, in front of which a variable `x` is declared:

```text
int x;
void f(const float x) {
  x = y;
  char x = x; int x;
}
```
-/
def shadowing : List Token :=
  [⟨.keyword (.type .int), "int", ⟨1, 1⟩⟩, ⟨.ident, "x", ⟨1, 5⟩⟩, ⟨.punct .semicolon, ";", ⟨1, 6⟩⟩,
    ⟨.keyword (.type .void), "void", ⟨2, 1⟩⟩, ⟨.ident, "f", ⟨2, 6⟩⟩, ⟨.punct .lparen, "(", ⟨2, 7⟩⟩,
    ⟨.keyword (.qualifier .const), "const", ⟨2, 8⟩⟩, ⟨.keyword (.type .float), "float", ⟨2, 14⟩⟩,
    ⟨.ident, "x", ⟨2, 20⟩⟩, ⟨.punct .rparen, ")", ⟨2, 21⟩⟩, ⟨.punct .lbrace, "\x7b", ⟨2, 23⟩⟩,
    ⟨.ident, "x", ⟨3, 3⟩⟩, ⟨.operator .assign, "=", ⟨3, 5⟩⟩, ⟨.ident, "y", ⟨3, 7⟩⟩,
    ⟨.punct .semicolon, ";", ⟨3, 8⟩⟩,
    ⟨.keyword (.type .char), "char", ⟨4, 3⟩⟩, ⟨.ident, "x", ⟨4, 8⟩⟩,
    ⟨.operator .assign, "=", ⟨4, 10⟩⟩, ⟨.ident, "x", ⟨4, 12⟩⟩, ⟨.punct .semicolon, ";", ⟨4, 13⟩⟩,
    ⟨.keyword (.type .int), "int", ⟨4, 15⟩⟩, ⟨.ident, "x", ⟨4, 19⟩⟩,
    ⟨.punct .semicolon, ";", ⟨4, 20⟩⟩, ⟨.punct .rbrace, "\x7d", ⟨5, 1⟩⟩]

/-- What is written to is the parameter.  The body begins a region in which `x` is declared twice;
the value of the first `x` there is its own. -/
theorem shadowing_resolved :
    (TokenStream.ofTokens shadowing).analyze.diagnostics.map Diagnostic.message =
        ["Variable 'y' undeclared", "Cannot assign to const variable 'x'",
          "Variable 'x' already declared in this scope"] ∧
      ∀ before step after,
        (TokenStream.ofTokens shadowing).program.programSteps = before ++ step :: after →
          step.Resolved before (runSteps before .empty).1 :=
  ⟨by decide +kernel, (names_resolved shadowing (by decide +kernel)).2.2⟩

end MiniC
