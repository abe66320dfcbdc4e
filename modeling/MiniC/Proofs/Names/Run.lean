import MiniC.Proofs.Names.Steps

/-!
# `MiniC.Proofs.Names.Run` — going through steps

Steps are gone through one after the other, and what one of them finds depends on the scopes only
through what names stand for.  So a scope in which nothing is declared makes no difference
anywhere outside of the innermost scope, and neither does one around a scope that was opened for
the same part.

## Contents
- `Step.Lawful`: looks that complain of variables that are not declared, and depend on no more.
- `runSteps_append`; `Step.run_declared`, `Step.run_redeclared`, …: what declarations do.
- `nest`, `Balanced`: how many regions are open, and steps that end all that they begin.
- `Symbols.Padded`, with `runSteps_padded`: **an empty scope around others makes no difference.**
-/

namespace MiniC

/-! ## Laws of steps -/

/-- A look complains of the variables that are not declared, and sees of the scopes only what the
names stand for. -/
def Step.Lawful : Step → Prop
  | .look words view =>
      (∀ σ, (view σ).filter Issue.isNaming = complaints σ words) ∧
        ∀ σ σ', σ.Alike σ' → view σ = view σ'
  | _ => True

theorem Looks.lawful {α : Type} {f : Symbols → Finding α} {words : List Word}
    (h : Looks f words) : (Step.look words fun σ => (f σ).issues).Lawful :=
  ⟨h.naming, fun σ σ' halike => congrArg Finding.issues (h.alike σ σ' halike)⟩

/-! ## Runs -/

theorem runSteps_cons (step : Step) (rest : List Step) (σ : Symbols) :
    runSteps (step :: rest) σ =
      ((runSteps rest (step.run σ).1).1, (step.run σ).2 ++ (runSteps rest (step.run σ).1).2) :=
  rfl

theorem runSteps_append (steps more : List Step) (σ : Symbols) :
    runSteps (steps ++ more) σ =
      ((runSteps more (runSteps steps σ).1).1,
        (runSteps steps σ).2 ++ (runSteps more (runSteps steps σ).1).2) := by
  induction steps generalizing σ with
  | nil => rfl
  | cons step steps ih =>
      simp only [List.cons_append, runSteps, ih]
      rw [List.append_assoc]

/-- Tokens that pass by change nothing. -/
@[simp] theorem runSteps_passing (tokens : List Token) (σ : Symbols) :
    runSteps (passing tokens) σ = (σ, []) := by
  induction tokens with
  | nil => rfl
  | cons token tokens ih =>
      show runSteps (.pass token :: passing tokens) σ = _
      simp only [runSteps, Step.run, ih]
      rfl

theorem runSteps_passing_append (tokens : List Token) (steps : List Step) (σ : Symbols) :
    runSteps (passing tokens ++ steps) σ = runSteps steps σ := by
  rw [runSteps_append, runSteps_passing]
  rfl

theorem runSteps_region (steps : List Step) (σ : Symbols) :
    runSteps (region steps) σ =
      ((runSteps steps σ.enter).1.leave, (runSteps steps σ.enter).2) := by
  show runSteps (.enter :: (steps ++ [.leave])) σ = _
  simp only [runSteps, Step.run, runSteps_append, List.nil_append, List.append_nil]

namespace Step

section

variable {scope : Scope} {outer : Scopes} {functions : List Function} {structs : List StructDef}
variable {name : Token}

/-- A name that is declared in the innermost scope is not declared again. -/
theorem run_redeclared (h : (scope.find? name.lexeme).isSome = true) (type : CType)
    (isConst : Bool) :
    (declare name type isConst).run ⟨scope :: outer, functions, structs⟩ =
      (⟨scope :: outer, functions, structs⟩,
        [.fault (.refused (.variableRedeclared name.lexeme)) name]) := by
  let v : Variable := ⟨name.lexeme, type, isConst, name.location.line⟩
  have hregister : Check.register (·.tryVariable v) name ⟨scope :: outer, functions, structs⟩ =
      (⟨scope :: outer, functions, structs⟩, _) :=
    Check.register_of_refused (Symbols.tryVariable_of_known h outer functions structs) name
  exact congrArg (fun checked => (checked.1, checked.2.issues)) hregister

/-- Any other name is declared in the innermost scope. -/
theorem run_declared (h : ¬(scope.find? name.lexeme).isSome = true) (type : CType)
    (isConst : Bool) :
    (declare name type isConst).run ⟨scope :: outer, functions, structs⟩ =
      (⟨(⟨name.lexeme, type, isConst, name.location.line⟩ :: scope) :: outer, functions,
        structs⟩, []) := by
  let v : Variable := ⟨name.lexeme, type, isConst, name.location.line⟩
  have hregister : Check.register (·.tryVariable v) name ⟨scope :: outer, functions, structs⟩ =
      (⟨(v :: scope) :: outer, functions, structs⟩, _) :=
    Check.register_of_accepted (Symbols.tryVariable_of_new h outer functions structs) name
  exact congrArg (fun checked => (checked.1, checked.2.issues)) hregister

/-- What a declaration of a function finds has nothing to do with scopes or variables. -/
theorem run_function (name : Token) (f : Function) (functions : List Function)
    (structs : List StructDef) :
    ∃ functions' issues, issues.filter Issue.isNaming = [] ∧ ∀ scopes,
      (function name f).run ⟨scopes, functions, structs⟩ =
        (⟨scopes, functions', structs⟩, issues) := by
  simp only [run, Check.register, Symbols.tryFunction, Symbols.function?]
  cases functions.find? (·.name == f.name) with
  | none => exact ⟨_, [], rfl, fun _ => rfl⟩
  | some known =>
      dsimp only
      by_cases hdefined : (known.defined && f.defined) = true
      · refine ⟨functions, [.fault (.refused (.functionRedeclared f.name)) name], rfl, ?_⟩
        intro scopes
        rw [if_pos hdefined]
        rfl
      · by_cases hsignature : (known.signature != f.signature) = true
        · refine ⟨functions, [.fault (.refused (.conflictingFunction f.name)) name], rfl, ?_⟩
          intro scopes
          rw [if_neg hdefined, if_pos hsignature]
          rfl
        · by_cases hdefines : f.defined = true
          · refine ⟨functions.map fun g => if g.name == f.name then f else g, [], rfl, ?_⟩
            intro scopes
            rw [if_neg hdefined, if_neg hsignature, if_pos hdefines]
            rfl
          · refine ⟨functions, [], rfl, ?_⟩
            intro scopes
            rw [if_neg hdefined, if_neg hsignature, if_neg hdefines]
            rfl

/-- The same for a struct. -/
theorem run_struct (name : Token) (s : StructDef) (functions : List Function)
    (structs : List StructDef) :
    ∃ structs' issues, issues.filter Issue.isNaming = [] ∧ ∀ scopes,
      (struct name s).run ⟨scopes, functions, structs⟩ =
        (⟨scopes, functions, structs'⟩, issues) := by
  by_cases hsome : (structs.find? (·.name == s.name)).isSome = true
  · have hdeclare : ∀ scopes, (⟨scopes, functions, structs⟩ : Symbols).tryStruct s =
        (⟨scopes, functions, structs⟩, .error (.structRedeclared s.name)) := fun _ => if_pos hsome
    refine ⟨structs, [.fault (.refused (.structRedeclared s.name)) name], rfl, fun scopes => ?_⟩
    simp only [run, Check.register, hdeclare]
    rfl
  · have hdeclare : ∀ scopes, (⟨scopes, functions, structs⟩ : Symbols).tryStruct s =
        (⟨scopes, functions, s :: structs⟩, .ok ()) := fun _ => if_neg hsome
    refine ⟨s :: structs, [], rfl, fun scopes => ?_⟩
    simp only [run, Check.register, hdeclare]
    rfl

end

end Step

/-! ## Regions that begin and end -/

/-- How many regions are open behind steps, given how many are open in front, or nothing if more
of them end than are open. -/
def nest : Nat → List Step → Option Nat
  | n, [] => some n
  | n, .enter :: rest => nest (n + 1) rest
  | n + 1, .leave :: rest => nest n rest
  | 0, .leave :: _ => none
  | n, _ :: rest => nest n rest

theorem nest_append (n : Nat) (steps more : List Step) :
    nest n (steps ++ more) = (nest n steps).bind fun m => nest m more := by
  induction steps generalizing n with
  | nil => rfl
  | cons step steps ih =>
      cases step with
      | leave =>
          cases n with
          | zero => rfl
          | succ n => exact ih n
      | enter => exact ih (n + 1)
      | _ => simpa only [List.cons_append, nest] using ih n

/-- A region that is open around others stays open as long as those are. -/
theorem nest_succ {n m : Nat} {steps : List Step} (h : nest n steps = some m) :
    nest (n + 1) steps = some (m + 1) := by
  induction steps generalizing n with
  | nil =>
      obtain rfl := Option.some.inj h
      rfl
  | cons step steps ih =>
      cases step with
      | leave =>
          cases n with
          | zero => cases h
          | succ n => exact @ih n h
      | enter => exact @ih (n + 1) h
      | _ => exact @ih n (by simpa only [nest] using h)

theorem nest_add {n m : Nat} {steps : List Step} (h : nest n steps = some m) (k : Nat) :
    nest (n + k) steps = some (m + k) := by
  induction k with
  | zero => exact h
  | succ k ih => exact nest_succ ih

/-- Behind a step a region more is open, or a region less, or as many. -/
theorem nest_singleton (step : Step) :
    step = .enter ∨ step = .leave ∨ ∀ n, nest n [step] = some n := by
  cases step with
  | enter => exact .inl rfl
  | leave => exact .inr (.inl rfl)
  | _ => exact .inr (.inr fun _ => rfl)

/-- Steps that end all regions that they begin, and no others. -/
def Balanced (steps : List Step) : Prop := ∀ n, nest n steps = some n

theorem balanced_iff {steps : List Step} : Balanced steps ↔ nest 0 steps = some 0 := by
  refine ⟨fun h => h 0, fun h n => ?_⟩
  have hnest := nest_add h n
  rwa [Nat.zero_add] at hnest

namespace Balanced

variable {steps more : List Step}

theorem nil : Balanced [] := fun _ => rfl

theorem append (h : Balanced steps) (hmore : Balanced more) : Balanced (steps ++ more) := by
  intro n
  rw [nest_append, h n]
  exact hmore n

theorem passing (tokens : List Token) : Balanced (passing tokens) := by
  intro n
  induction tokens with
  | nil => rfl
  | cons token tokens ih => exact ih

theorem region (h : Balanced steps) : Balanced (region steps) := by
  intro n
  show nest (n + 1) (steps ++ [.leave]) = some n
  rw [nest_append, h (n + 1)]
  rfl

end Balanced

/-! ## An empty scope around others -/

/-- Symbols that have an empty scope around the `n` innermost, which others do not have. -/
def Symbols.Padded (n : Nat) (σ σ' : Symbols) : Prop :=
  ∃ inner outer : Scopes, inner.length = n ∧ σ.scopes = inner ++ [] :: outer ∧
    σ'.scopes = inner ++ outer ∧ σ.functions = σ'.functions ∧ σ.structs = σ'.structs

theorem Symbols.Padded.alike {n : Nat} {σ σ' : Symbols} (h : σ.Padded n σ') : σ.Alike σ' := by
  obtain ⟨inner, outer, -, hscopes, hscopes', hfunctions, hstructs⟩ := h
  refine ⟨fun name => ?_, hfunctions, hstructs⟩
  rw [Symbols.var?, Symbols.var?, hscopes, hscopes', Scopes.find?, Scopes.find?,
    List.findSome?_append, List.findSome?_append]
  rfl

/-- A step finds the same with and without an empty scope around others. -/
theorem Step.run_padded {step : Step} (hlawful : step.Lawful) {n m : Nat}
    (hnest : nest n [step] = some m) {σ σ' : Symbols} (h : σ.Padded (n + 1) σ') :
    (step.run σ).2 = (step.run σ').2 ∧ (step.run σ).1.Padded (m + 1) (step.run σ').1 := by
  obtain ⟨inner, outer, hlength, hscopes, hscopes', hfunctions, hstructs⟩ := h
  cases step with
  | enter =>
      obtain rfl := Option.some.inj hnest
      refine ⟨rfl, [] :: inner, outer, by simp [hlength], ?_, ?_, hfunctions, hstructs⟩
      · exact congrArg ([] :: ·) hscopes
      · exact congrArg ([] :: ·) hscopes'
  | leave =>
      cases n with
      | zero => cases hnest
      | succ n =>
          obtain rfl := Option.some.inj hnest
          cases inner with
          | nil => cases hlength
          | cons scope inner =>
              refine ⟨rfl, inner, outer, Nat.succ.inj hlength, ?_, ?_, hfunctions, hstructs⟩
              · exact congrArg List.tail hscopes
              · exact congrArg List.tail hscopes'
  | pass token =>
      obtain rfl := Option.some.inj hnest
      exact ⟨rfl, inner, outer, hlength, hscopes, hscopes', hfunctions, hstructs⟩
  | look words view =>
      obtain rfl := Option.some.inj hnest
      have hpadded : σ.Padded (n + 1) σ' :=
        ⟨inner, outer, hlength, hscopes, hscopes', hfunctions, hstructs⟩
      exact ⟨hlawful.2 σ σ' hpadded.alike, hpadded⟩
  | declare name type isConst =>
      obtain rfl := Option.some.inj hnest
      obtain ⟨scopes, functions, structs⟩ := σ
      obtain ⟨scopes', functions', structs'⟩ := σ'
      subst hscopes hscopes' hfunctions hstructs
      cases inner with
      | nil => cases hlength
      | cons scope inner =>
          by_cases hsome : (scope.find? name.lexeme).isSome = true
          · rw [List.cons_append, List.cons_append, run_redeclared hsome, run_redeclared hsome]
            exact ⟨rfl, scope :: inner, outer, hlength, rfl, rfl, rfl, rfl⟩
          · rw [List.cons_append, List.cons_append, run_declared hsome, run_declared hsome]
            refine ⟨rfl, _ :: inner, outer, ?_, rfl, rfl, rfl, rfl⟩
            exact hlength
  | function name f =>
      obtain rfl := Option.some.inj hnest
      obtain ⟨scopes, functions, structs⟩ := σ
      obtain ⟨scopes', functions', structs'⟩ := σ'
      subst hscopes hscopes' hfunctions hstructs
      obtain ⟨_, issues, -, hrun⟩ := run_function name f functions structs
      rw [hrun, hrun]
      exact ⟨rfl, inner, outer, hlength, rfl, rfl, rfl, rfl⟩
  | struct name s =>
      obtain rfl := Option.some.inj hnest
      obtain ⟨scopes, functions, structs⟩ := σ
      obtain ⟨scopes', functions', structs'⟩ := σ'
      subst hscopes hscopes' hfunctions hstructs
      obtain ⟨_, issues, -, hrun⟩ := run_struct name s functions structs
      rw [hrun, hrun]
      exact ⟨rfl, inner, outer, hlength, rfl, rfl, rfl, rfl⟩

/-- **An empty scope around others makes no difference.** -/
theorem runSteps_padded {steps : List Step} (hlawful : ∀ step ∈ steps, step.Lawful) {n m : Nat}
    (hnest : nest n steps = some m) {σ σ' : Symbols} (h : σ.Padded (n + 1) σ') :
    (runSteps steps σ).2 = (runSteps steps σ').2 ∧
      (runSteps steps σ).1.Padded (m + 1) (runSteps steps σ').1 := by
  induction steps generalizing n σ σ' with
  | nil =>
      obtain rfl := Option.some.inj hnest
      exact ⟨rfl, h⟩
  | cons step steps ih =>
      rw [← List.singleton_append, nest_append] at hnest
      obtain ⟨k, hstep, hrest⟩ := Option.bind_eq_some_iff.1 hnest
      obtain ⟨hissues, hpadded⟩ := Step.run_padded (hlawful step List.mem_cons_self) hstep h
      obtain ⟨hmore, hbehind⟩ :=
        ih (fun s hs => hlawful s (List.mem_cons_of_mem _ hs)) hrest hpadded
      refine ⟨?_, hbehind⟩
      rw [runSteps_cons, runSteps_cons, hissues, hmore]

end MiniC
