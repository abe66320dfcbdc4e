import MiniC.Check.Fault

/-!
# `MiniC.Check.Finding` — the two shapes of checks

Checking a part of the tree yields issues, and either a value or the first hole of the part; what
stands behind a hole is not checked.  A part that declares nothing is checked against the symbols
alone (`Symbols → Finding α`), any other also changes them (`Check α`).

## Contents
- `Finding` and `Check`, both lawful monads.
- `Finding.report`, `Finding.complain`, `Slot.get`: the elementary checks.
- `Check.inScope`: a check inside a scope of its own, which is closed in any case.
- `Check.settled`: a check that reports its hole and goes on.
-/

namespace MiniC

/-! ## Findings -/

/-- The issues of a part, and its value unless it has a hole. -/
structure Finding (α : Type) where
  issues : List Issue
  outcome : Except Hole α

namespace Finding

variable {α β : Type}

@[ext] theorem ext {f g : Finding α} (issues : f.issues = g.issues)
    (outcome : f.outcome = g.outcome) : f = g := by
  cases f
  cases g
  simp_all

/-- Check one part and then the next, unless the first has a hole. -/
def andThen (f : Finding α) (next : α → Finding β) : Finding β :=
  match f.outcome with
  | .error hole => ⟨f.issues, .error hole⟩
  | .ok a =>
    let second := next a
    ⟨f.issues ++ second.issues, second.outcome⟩

instance : Monad Finding where
  pure a := ⟨[], .ok a⟩
  bind := andThen

@[simp] theorem issues_pure (a : α) : (pure a : Finding α).issues = [] := rfl

@[simp] theorem outcome_pure (a : α) : (pure a : Finding α).outcome = .ok a := rfl

theorem bind_eq (f : Finding α) (next : α → Finding β) : f >>= next = f.andThen next := rfl

/-- A finding on two parts that has a value has found what was found on each of them. -/
theorem ok_of_bind {f : Finding α} {next : α → Finding β} {b : β}
    (h : (f >>= next).outcome = .ok b) :
    ∃ a, f.outcome = .ok a ∧ (next a).outcome = .ok b ∧
      (f >>= next).issues = f.issues ++ (next a).issues := by
  obtain ⟨issues, hole | a⟩ := f
  · cases h
  · exact ⟨a, rfl, h, rfl⟩

instance : LawfulMonad Finding :=
  LawfulMonad.mk' Finding
    (fun f => by
      rcases f with ⟨issues, _ | a⟩ <;> simp [Functor.map, andThen])
    (fun a next => by
      simp [bind_eq, andThen])
    (fun f g h => by
      rcases f with ⟨issues, _ | a⟩
      · rfl
      · rcases hg : g a with ⟨more, _ | b⟩ <;> simp [bind_eq, andThen, hg, List.append_assoc])

/-- Stop at a hole. -/
def stop (hole : Hole) : Finding α := ⟨[], .error hole⟩

/-- Report a fault at a token. -/
def report (fault : Fault) (site : Option Token) : Finding Unit := ⟨[.fault fault site], .ok ()⟩

/-- Report a fault at a token unless all is well. -/
def complain (fine : Bool) (fault : Fault) (site : Option Token) : Finding Unit :=
  if fine then pure () else report fault site

/-- Report the hole, if there is one, and take `default` for the value. -/
def settledWith (default : α) (f : Finding α) : Finding α :=
  match f.outcome with
  | .ok a => ⟨f.issues, .ok a⟩
  | .error hole => ⟨f.issues ++ [.missing hole], .ok default⟩

end Finding

/-- The token of a slot. -/
def Slot.get : Slot → Finding Token
  | .found token => pure token
  | .missing hole => .stop hole

/-- Check that a slot is filled. -/
def Slot.require (slot : Slot) : Finding Unit := do
  let _ ← slot.get

/-! ## Checks -/

/-- A check that may declare names: the symbols behind it, and what it found. -/
def Check (α : Type) := Symbols → Symbols × Finding α

namespace Check

variable {α β : Type}

/-- Check one part and then the next under the symbols that the first leaves, unless the first has
a hole. -/
def andThen (m : Check α) (next : α → Check β) : Check β := fun σ =>
  let (σ₁, first) := m σ
  match first.outcome with
  | .error hole => (σ₁, ⟨first.issues, .error hole⟩)
  | .ok a =>
    let (σ₂, second) := next a σ₁
    (σ₂, ⟨first.issues ++ second.issues, second.outcome⟩)

instance : Monad Check where
  pure a := fun σ => (σ, pure a)
  bind := andThen

theorem pure_run (a : α) (σ : Symbols) : (pure a : Check α) σ = (σ, pure a) := rfl

theorem bind_run (m : Check α) (next : α → Check β) (σ : Symbols) :
    (m >>= next) σ =
      match (m σ).2.outcome with
      | .error hole => ((m σ).1, ⟨(m σ).2.issues, .error hole⟩)
      | .ok a =>
        ((next a (m σ).1).1,
          ⟨(m σ).2.issues ++ (next a (m σ).1).2.issues, (next a (m σ).1).2.outcome⟩) := rfl

instance : LawfulMonad Check :=
  LawfulMonad.mk' Check
    (fun m => by
      funext σ
      change (m >>= fun a => pure (id a)) σ = m σ
      rcases h : m σ with ⟨σ₁, issues, _ | a⟩ <;> simp [bind_run, pure_run, h])
    (fun a next => by
      funext σ
      simp [bind_run, pure_run])
    (fun m g k => by
      funext σ
      rcases h : m σ with ⟨σ₁, issues, _ | a⟩
      · simp [bind_run, h]
      · rcases hg : g a σ₁ with ⟨σ₂, more, _ | b⟩ <;> simp [bind_run, h, hg, List.append_assoc])

/-- A check that only looks at the symbols. -/
def reading (f : Symbols → Finding α) : Check α := fun σ => (σ, f σ)

/-- A check that does not even look at the symbols. -/
def lift (f : Finding α) : Check α := reading fun _ => f

instance : MonadLift Finding Check := ⟨lift⟩

/-- Enter a declaration into the symbols, or report at its name why it is refused. -/
def register (declare : Symbols → Attempt Symbols) (name : Token) : Check Unit := fun σ =>
  let (σ₁, answer) := declare σ
  match answer with
  | .ok () => (σ₁, pure ())
  | .error refusal => (σ₁, .report (.refused refusal) name)

theorem register_of_accepted {declare : Symbols → Attempt Symbols} {σ σ₁ : Symbols}
    (h : declare σ = (σ₁, .ok ())) (name : Token) : register declare name σ = (σ₁, pure ()) := by
  unfold register
  rw [h]

theorem register_of_refused {declare : Symbols → Attempt Symbols} {σ σ₁ : Symbols}
    {refusal : Refusal} (h : declare σ = (σ₁, .error refusal)) (name : Token) :
    register declare name σ = (σ₁, .report (.refused refusal) name) := by
  unfold register
  rw [h]

/-- Check inside a scope of its own. -/
def inScope (m : Check α) : Check α := fun σ =>
  let (σ₁, found) := m σ.enter
  (σ₁.leave, found)

/-- Report the hole, if there is one, and go on. -/
def settled (m : Check Unit) : Check Unit := fun σ =>
  let (σ₁, found) := m σ
  (σ₁, found.settledWith ())

end Check

end MiniC
