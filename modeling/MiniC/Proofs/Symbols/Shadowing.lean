import Mathlib.Data.List.Induction
import MiniC.Proofs.Names.Run

/-!
# `MiniC.Proofs.Symbols.Shadowing` — scopes answer as their history says

Scopes are opened and closed, variables are declared, and names are looked up, in any order: a
scope may be closed where none is open, a name may be declared where none is open or twice in the
same scope.  The scopes keep little of all that: of each open scope the variables that were
accepted in it.  Here it is shown that they answer every action as the whole history asks for.

The history tells which scopes are open, since opening and closing nest like brackets.  A scope
that was opened behind `front` is open as long as no more scopes were closed since than opened;
and what was declared since is declared in it where as many were closed as opened.  What the
scopes know of one scope is an induction on what was done since it was opened, whatever was done
before and whatever scopes are around it.

## Contents
- `Action`, `Answer`, `Action.run`, `reach`: what is done with scopes.
- `Open`, `Declared`, `DeclaredFirst`, `StandsFor`: what a history says of scopes and names.
- `reach_inside`: **what is left of a scope since it was opened.**
- `Answers`: the answer that a history asks for, with `Answers.eq` and `exists_answers`.
- `history_answered`: **scopes answer as their history says.**
-/

namespace MiniC

namespace Scopes

/-! ## Actions -/

/-- What is done with scopes. -/
inductive Action
  | enter
  | leave
  | declare (v : Variable)
  | find (name : String)
deriving DecidableEq, Repr

/-- What is heard of an action. -/
inductive Answer
  | done
  | refused (refusal : Refusal)
  | found (v? : Option Variable)
deriving DecidableEq, Repr

namespace Action

/-- The scopes behind an action, and its answer. -/
def run : Action → Scopes → Scopes × Answer
  | enter, scopes => (scopes.enter, .done)
  | leave, scopes => (scopes.leave, .done)
  | declare v, scopes =>
    match scopes.tryDeclare v with
    | (scopes₁, .ok ()) => (scopes₁, .done)
    | (scopes₁, .error refusal) => (scopes₁, .refused refusal)
  | find name, scopes => (scopes, .found (scopes.find? name))

/-- The step of a program at which scopes are opened and closed in the same way. -/
def step : Action → Step
  | enter => .enter
  | leave => .leave
  | declare _ | find _ => .look [] fun _ => []

end Action

/-- The scopes behind actions, which are done one after the other. -/
def reach (scopes : Scopes) (actions : List Action) : Scopes :=
  actions.foldl (fun scopes action => (action.run scopes).1) scopes

/-- How many scopes are open behind actions that have no scope to begin with, or nothing if more
of them are closed than opened. -/
def nesting (actions : List Action) : Option Nat := nest 0 (actions.map Action.step)

/-! ## Histories -/

/-- Behind a history a scope is open: it was opened behind `front`, what was done since is
`inside`, and `n` scopes are open inside of it. -/
structure Open (history front inside : List Action) (n : Nat) : Prop where
  split : history = front ++ .enter :: inside
  stays : nesting inside = some n

/-- In a scope, in which `inside` was done since it was opened, a variable of the name is declared,
and not in a scope inside of it.  It may have been refused. -/
def Declared (inside : List Action) (name : String) : Prop :=
  ∃ earlier v later, inside = earlier ++ .declare v :: later ∧ nesting earlier = some 0 ∧
    v.name = name

/-- In a scope the variable is declared, and none of the name before. -/
def DeclaredFirst (inside : List Action) (name : String) (v : Variable) : Prop :=
  ∃ earlier later, inside = earlier ++ .declare v :: later ∧ nesting earlier = some 0 ∧
    v.name = name ∧ ¬Declared earlier name

/-- Behind a history the name stands for the variable: the one that was declared first in the open
scope that was opened last among those in which the name is declared. -/
def StandsFor (history : List Action) (name : String) (v : Variable) : Prop :=
  ∃ front inside n, Open history front inside n ∧ DeclaredFirst inside name v ∧
    ∀ front' inside' n', Open history front' inside' n' → front.length < front'.length →
      ¬Declared inside' name

variable {history front inside front' inside' : List Action} {action : Action} {name : String}
variable {v : Variable} {n n' : Nat} {scopes : Scopes}

/-! ## One more action -/

theorem reach_concat (scopes : Scopes) (actions : List Action) (action : Action) :
    reach scopes (actions ++ [action]) = (action.run (reach scopes actions)).1 := by
  unfold reach
  rw [List.foldl_append]
  rfl

theorem nesting_concat : nesting (inside ++ [action]) = some n ↔
    ∃ m, nesting inside = some m ∧ nest m [action.step] = some n := by
  unfold nesting
  rw [List.map_append, nest_append, Option.bind_eq_some_iff]
  rfl

/-- An item of a list with one more at its end: that one, or an item of the list. -/
theorem concat_eq_append_cons {α : Type} {xs ys zs : List α} {a b : α} :
    xs ++ [a] = ys ++ b :: zs ↔
      (ys = xs ∧ b = a ∧ zs = []) ∨ ∃ ws, zs = ws ++ [a] ∧ xs = ys ++ b :: ws := by
  constructor
  · intro h
    rcases List.eq_nil_or_concat zs with rfl | ⟨ws, last, rfl⟩
    · obtain ⟨rfl, hlast⟩ := List.append_inj' h rfl
      exact .inl ⟨rfl, (List.head_eq_of_cons_eq hlast).symm, rfl⟩
    · rw [List.concat_eq_append, ← List.cons_append, ← List.append_assoc] at h
      obtain ⟨rfl, hlast⟩ := List.append_inj' h rfl
      obtain rfl := List.head_eq_of_cons_eq hlast
      exact .inr ⟨ws, List.concat_eq_append, rfl⟩
  · rintro (⟨rfl, rfl, rfl⟩ | ⟨ws, rfl, rfl⟩)
    · rfl
    · simp

theorem declared_concat : Declared (inside ++ [action]) name ↔
    Declared inside name ∨
      ∃ v, action = .declare v ∧ nesting inside = some 0 ∧ v.name = name := by
  constructor
  · rintro ⟨earlier, v, later, hsplit, hnesting, hname⟩
    rcases concat_eq_append_cons.1 hsplit with ⟨rfl, rfl, rfl⟩ | ⟨later, rfl, rfl⟩
    · exact .inr ⟨v, rfl, hnesting, hname⟩
    · exact .inl ⟨earlier, v, later, rfl, hnesting, hname⟩
  · rintro (⟨earlier, v, later, rfl, hnesting, hname⟩ | ⟨v, rfl, hnesting, hname⟩)
    · exact ⟨earlier, v, later ++ [action], by simp, hnesting, hname⟩
    · exact ⟨inside, v, [], rfl, hnesting, hname⟩

theorem declaredFirst_concat : DeclaredFirst (inside ++ [action]) name v ↔
    DeclaredFirst inside name v ∨
      action = .declare v ∧ nesting inside = some 0 ∧ v.name = name ∧ ¬Declared inside name := by
  constructor
  · rintro ⟨earlier, later, hsplit, hfirst⟩
    rcases concat_eq_append_cons.1 hsplit with ⟨rfl, rfl, rfl⟩ | ⟨later, rfl, rfl⟩
    · exact .inr ⟨rfl, hfirst⟩
    · exact .inl ⟨earlier, later, rfl, hfirst⟩
  · rintro (⟨earlier, later, rfl, hfirst⟩ | ⟨rfl, hfirst⟩)
    · exact ⟨earlier, later ++ [action], by simp, hfirst⟩
    · exact ⟨inside, [], rfl, hfirst⟩

/-- Where a name is declared, it is declared first. -/
theorem declared_iff_exists_first : Declared inside name ↔ ∃ v, DeclaredFirst inside name v := by
  constructor
  · intro h
    induction inside using List.reverseRecOn with
    | nil =>
        obtain ⟨earlier, v, later, hsplit, -⟩ := h
        exact absurd hsplit (by simp)
    | append_singleton inside action ih =>
        by_cases hbefore : Declared inside name
        · obtain ⟨v, hv⟩ := ih hbefore
          exact ⟨v, declaredFirst_concat.2 (.inl hv)⟩
        · obtain ⟨v, haction, hnesting, hname⟩ := (declared_concat.1 h).resolve_left hbefore
          exact ⟨v, declaredFirst_concat.2 (.inr ⟨haction, hnesting, hname, hbefore⟩)⟩
  · rintro ⟨v, earlier, later, hsplit, hnesting, hname, -⟩
    exact ⟨earlier, v, later, hsplit, hnesting, hname⟩

/-! ## What is left of a scope -/

/-- What a scope has in which `inside` was done since it was opened: of each name the variable that
was declared first. -/
def Recalls (scope : Scope) (inside : List Action) : Prop :=
  ∀ name v, scope.find? name = some v ↔ DeclaredFirst inside name v

variable {scope : Scope} {outer : Scopes}

theorem Recalls.isSome (h : Recalls scope inside) :
    (scope.find? name).isSome = true ↔ Declared inside name := by
  rw [Option.isSome_iff_exists, declared_iff_exists_first]
  exact exists_congr (h name)

theorem Recalls.nil : Recalls [] [] := by
  intro name v
  constructor
  · intro hfind
    cases hfind
  · rintro ⟨earlier, later, hsplit, -⟩
    exact absurd hsplit (by simp)

/-- What is not a declaration in the scope itself leaves it as it was. -/
theorem Recalls.other (h : Recalls scope inside)
    (hother : ∀ v, action = .declare v → nesting inside ≠ some 0) :
    Recalls scope (inside ++ [action]) := by
  intro name v
  rw [h name v, declaredFirst_concat]
  constructor
  · exact .inl
  · rintro (hfirst | ⟨haction, hnesting, -⟩)
    · exact hfirst
    · exact absurd hnesting (hother v haction)

/-- A declaration of a name that the scope has is refused, and leaves the scope as it was. -/
theorem Recalls.redeclared (h : Recalls scope inside) (hknown : Declared inside v.name) :
    Recalls scope (inside ++ [.declare v]) := by
  intro name w
  rw [h name w, declaredFirst_concat]
  constructor
  · exact .inl
  · rintro (hfirst | ⟨haction, -, rfl, hnew⟩)
    · exact hfirst
    · cases haction
      exact absurd hknown hnew

/-- A variable of a new name is put into the scope. -/
theorem Recalls.declared (h : Recalls scope inside) (hnesting : nesting inside = some 0)
    (hnew : ¬Declared inside v.name) : Recalls (v :: scope) (inside ++ [.declare v]) := by
  intro name w
  show List.find? (·.name == name) (v :: scope) = some w ↔ _
  rw [declaredFirst_concat]
  by_cases hname : v.name = name
  · subst hname
    rw [List.find?_cons_of_pos (by simp), Option.some_inj]
    constructor
    · rintro rfl
      exact .inr ⟨rfl, hnesting, rfl, hnew⟩
    · rintro (hfirst | ⟨haction, -⟩)
      · exact absurd (declared_iff_exists_first.2 ⟨w, hfirst⟩) hnew
      · cases haction
        rfl
  · rw [List.find?_cons_of_neg (by simpa using hname)]
    refine (h name w).trans ⟨.inl, fun hfirst => hfirst.resolve_right ?_⟩
    rintro ⟨haction, -, hw, -⟩
    cases haction
    exact hname hw

/-- In the innermost scope a variable is declared unless there is one of its name. -/
theorem run_declare (scope : Scope) (outer : Scopes) (v : Variable) :
    (Action.declare v).run (scope :: outer) =
      if (scope.find? v.name).isSome then (scope :: outer, .refused (.variableRedeclared v.name))
      else ((v :: scope) :: outer, .done) := by
  unfold Action.run
  dsimp only
  by_cases hknown : (scope.find? v.name).isSome = true
  · rw [if_pos hknown, tryDeclare_of_known hknown]
  · rw [if_neg hknown, tryDeclare_of_new hknown]

/-- **What is left of a scope since it was opened:** the scopes inside of it that are open, then the
scope, which recalls what was declared first in it, and then the scopes around it as they were. -/
theorem reach_inside (h : nesting inside = some n) (outer : Scopes) :
    ∃ inner scope, reach ([] :: outer) inside = inner ++ scope :: outer ∧ inner.length = n ∧
      Recalls scope inside := by
  -- The induction is on what was done last, as the answer to it depends on all before.
  induction inside using List.reverseRecOn generalizing n with
  | nil =>
      obtain rfl := Option.some.inj h
      exact ⟨[], [], rfl, rfl, .nil⟩
  | append_singleton inside action ih =>
      obtain ⟨m, hinside, hstep⟩ := nesting_concat.1 h
      obtain ⟨inner, scope, hreach, hlength, hrecalls⟩ := ih hinside
      rw [reach_concat, hreach]
      cases action with
      | enter =>
          obtain rfl := Option.some.inj hstep
          refine ⟨[] :: inner, scope, rfl, congrArg Nat.succ hlength, hrecalls.other ?_⟩
          exact fun v hdeclare => nomatch hdeclare
      | leave =>
          have hother : Recalls scope (inside ++ [.leave]) :=
            hrecalls.other fun v hdeclare => nomatch hdeclare
          cases m with
          | zero => cases hstep
          | succ m =>
              obtain rfl := Option.some.inj hstep
              cases inner with
              | nil => cases hlength
              | cons innermost inner =>
                  exact ⟨inner, scope, rfl, Nat.succ.inj hlength, hother⟩
      | find name =>
          obtain rfl := Option.some.inj hstep
          exact ⟨inner, scope, rfl, hlength, hrecalls.other fun v hdeclare => nomatch hdeclare⟩
      | declare v =>
          obtain rfl := Option.some.inj hstep
          cases inner with
          | nil =>
              obtain rfl : 0 = m := hlength
              rw [List.nil_append, run_declare]
              by_cases hknown : (scope.find? v.name).isSome = true
              · rw [if_pos hknown]
                exact ⟨[], scope, rfl, rfl, hrecalls.redeclared (hrecalls.isSome.1 hknown)⟩
              · rw [if_neg hknown]
                refine ⟨[], v :: scope, rfl, rfl, hrecalls.declared hinside ?_⟩
                exact fun hdeclared => hknown (hrecalls.isSome.2 hdeclared)
          | cons innermost inner =>
              have hother : Recalls scope (inside ++ [.declare v]) := by
                refine hrecalls.other fun _ _ hzero => ?_
                rw [hinside, ← hlength] at hzero
                cases hzero
              rw [List.cons_append, run_declare]
              by_cases hknown : (innermost.find? v.name).isSome = true
              · rw [if_pos hknown]
                exact ⟨innermost :: inner, scope, rfl, hlength, hother⟩
              · rw [if_neg hknown]
                exact ⟨(v :: innermost) :: inner, scope, rfl, hlength, hother⟩

/-! ## Open scopes -/

namespace Open

/-- A scope that is open behind one more action. -/
theorem concat (h : Open history front inside n) (hstep : nest n [action.step] = some n') :
    Open (history ++ [action]) front (inside ++ [action]) n' := by
  refine ⟨?_, nesting_concat.2 ⟨n, h.stays, hstep⟩⟩
  rw [h.split, List.append_assoc, List.cons_append]

/-- A scope that is opened. -/
theorem enter (history : List Action) : Open (history ++ [.enter]) history [] 0 := ⟨rfl, rfl⟩

/-- An open scope is among the scopes, with as many in front of it as are open inside of it. -/
theorem exists_scope (h : Open history front inside n) :
    ∃ scope, (reach [] history)[n]? = some scope ∧ Recalls scope inside := by
  obtain ⟨inner, scope, hreach, rfl, hrecalls⟩ := reach_inside h.stays (reach [] front)
  refine ⟨scope, ?_, hrecalls⟩
  have hsplit : reach [] history = reach ([] :: reach [] front) inside := by
    rw [h.split, reach, List.foldl_append]
    rfl
  rw [hsplit, hreach, List.getElem?_append_right (Nat.le_refl _), Nat.sub_self]
  rfl

/-- Of two open scopes the one that was opened later is further inside. -/
theorem lt_of_length_lt (h : Open history front inside n) (h' : Open history front' inside' n')
    (hlt : front.length < front'.length) : n' < n := by
  have hsplit := h.split.symm.trans h'.split
  rcases List.append_eq_append_iff.1 hsplit with ⟨between, rfl, hrest⟩ | ⟨between, rfl, -⟩
  · cases between with
    | nil => simp at hlt
    | cons first between =>
        rw [List.cons_append] at hrest
        obtain ⟨rfl, rfl⟩ := List.cons.inj hrest
        have hstays := h.stays
        unfold nesting at hstays
        rw [List.map_append, nest_append] at hstays
        obtain ⟨k, -, hk⟩ := Option.bind_eq_some_iff.1 hstays
        -- The later scope itself and those inside of it are open inside of the earlier one.
        have hadd := nest_add h'.stays (k + 1)
        rw [Nat.zero_add] at hadd
        have hn : n = n' + (k + 1) := Option.some.inj (hk.symm.trans hadd)
        omega
  · rw [List.length_append] at hlt
    omega

theorem lt_iff (h : Open history front inside n) (h' : Open history front' inside' n') :
    n' < n ↔ front.length < front'.length := by
  refine ⟨fun hlt => ?_, h.lt_of_length_lt h'⟩
  rcases Nat.lt_trichotomy front.length front'.length with hless | heq | hmore
  · exact hless
  · obtain ⟨-, hinside⟩ := List.append_inj (h.split.symm.trans h'.split) heq
    obtain ⟨-, rfl⟩ := List.cons.inj hinside
    have hn : n = n' := Option.some.inj (h.stays.symm.trans h'.stays)
    omega
  · have hgt := h'.lt_of_length_lt h hmore
    omega

end Open

theorem length_run_declare (scopes : Scopes) (v : Variable) :
    ((Action.declare v).run scopes).1.length = scopes.length := by
  cases scopes with
  | nil => rfl
  | cons scope outer =>
      rw [run_declare]
      split <;> rfl

/-- The scopes are those that are open behind the history. -/
theorem lt_length_reach_iff :
    n < (reach [] history).length ↔ ∃ front inside, Open history front inside n := by
  constructor
  · intro hlt
    induction history using List.reverseRecOn generalizing n with
    | nil => exact absurd hlt (Nat.not_lt_zero n)
    | append_singleton history action ih =>
        rw [reach_concat] at hlt
        cases action with
        | enter =>
            cases n with
            | zero => exact ⟨history, [], .enter history⟩
            | succ n =>
                obtain ⟨front, inside, hopen⟩ := ih (Nat.lt_of_succ_lt_succ hlt)
                exact ⟨front, _, hopen.concat rfl⟩
        | leave =>
            have hmore : n + 1 < (reach [] history).length := by
              have hless : n < (reach [] history).tail.length := hlt
              rw [List.length_tail] at hless
              omega
            obtain ⟨front, inside, hopen⟩ := ih hmore
            exact ⟨front, _, hopen.concat rfl⟩
        | declare v =>
            rw [length_run_declare] at hlt
            obtain ⟨front, inside, hopen⟩ := ih hlt
            exact ⟨front, _, hopen.concat rfl⟩
        | find name =>
            obtain ⟨front, inside, hopen⟩ := ih hlt
            exact ⟨front, _, hopen.concat rfl⟩
  · rintro ⟨front, inside, hopen⟩
    obtain ⟨scope, hscope, -⟩ := hopen.exists_scope
    exact (List.getElem?_eq_some_iff.1 hscope).1

/-- Where no scope is open there is none. -/
theorem reach_eq_nil_iff :
    reach [] history = [] ↔ ∀ front inside n, ¬Open history front inside n := by
  constructor
  · intro hnil front inside n hopen
    have hlt := lt_length_reach_iff.2 ⟨front, inside, hopen⟩
    rw [hnil] at hlt
    exact absurd hlt (Nat.not_lt_zero n)
  · intro hnone
    refine List.eq_nil_of_length_eq_zero (Nat.eq_zero_of_not_pos fun hpos => ?_)
    obtain ⟨front, inside, hopen⟩ := lt_length_reach_iff.1 hpos
    exact hnone front inside 0 hopen

/-! ## What names stand for -/

variable {w : Variable}

/-- A name stands for one variable at most. -/
theorem StandsFor.unique (h : StandsFor history name v) (h' : StandsFor history name w) :
    v = w := by
  obtain ⟨front, inside, n, hopen, hfirst, hlast⟩ := h
  obtain ⟨front', inside', n', hopen', hfirst', hlast'⟩ := h'
  rcases Nat.lt_trichotomy front.length front'.length with hless | heq | hmore
  · have hnone := hlast front' inside' n' hopen' hless
    exact absurd (declared_iff_exists_first.2 ⟨w, hfirst'⟩) hnone
  · obtain ⟨-, hinside⟩ := List.append_inj (hopen.split.symm.trans hopen'.split) heq
    obtain ⟨-, rfl⟩ := List.cons.inj hinside
    obtain ⟨scope, -, hrecalls⟩ := hopen.exists_scope
    exact Option.some.inj (((hrecalls name v).2 hfirst).symm.trans ((hrecalls name w).2 hfirst'))
  · have hnone := hlast' front inside n hopen hmore
    exact absurd (declared_iff_exists_first.2 ⟨v, hfirst⟩) hnone

/-- What is found under a name is what the name stands for. -/
theorem standsFor_of_find? (h : (reach [] history).find? name = some v) :
    StandsFor history name v := by
  obtain ⟨inner, scope, outer, hsplit, hfound, hinner⟩ := List.findSome?_eq_some_iff.1 h
  have hscope : (reach [] history)[inner.length]? = some scope := by
    rw [hsplit, List.getElem?_append_right (Nat.le_refl _), Nat.sub_self]
    rfl
  obtain ⟨front, inside, hopen⟩ :=
    lt_length_reach_iff.1 (List.getElem?_eq_some_iff.1 hscope).1
  obtain ⟨scope', hscope', hrecalls⟩ := hopen.exists_scope
  obtain rfl : scope = scope' := Option.some.inj (hscope.symm.trans hscope')
  refine ⟨front, inside, inner.length, hopen, (hrecalls name v).1 hfound, ?_⟩
  intro front' inside' n' hopen' hlater hdeclared
  obtain ⟨scope', hscope', hrecalls'⟩ := hopen'.exists_scope
  have hlt : n' < inner.length := (hopen.lt_iff hopen').2 hlater
  rw [hsplit, List.getElem?_append_left hlt] at hscope'
  have hsome := hrecalls'.isSome.2 hdeclared
  rw [hinner scope' (List.mem_of_getElem? hscope')] at hsome
  cases hsome

/-- Under a name that is declared in an open scope something is found. -/
theorem isSome_find? (hopen : Open history front inside n) (hdeclared : Declared inside name) :
    ((reach [] history).find? name).isSome = true := by
  obtain ⟨scope, hscope, hrecalls⟩ := hopen.exists_scope
  exact List.findSome?_isSome_iff.2
    ⟨scope, List.mem_of_getElem? hscope, hrecalls.isSome.2 hdeclared⟩

/-- **What a name stands for is found under it.** -/
theorem find?_reach_iff : (reach [] history).find? name = some v ↔ StandsFor history name v := by
  refine ⟨standsFor_of_find?, fun h => ?_⟩
  have ⟨front, inside, n, hopen, hfirst, _⟩ := h
  obtain ⟨w, hw⟩ := Option.isSome_iff_exists.1
    (isSome_find? hopen (declared_iff_exists_first.2 ⟨v, hfirst⟩))
  rw [hw, h.unique (standsFor_of_find? hw)]

/-- Nothing is found under a name that is declared in no open scope. -/
theorem find?_reach_eq_none_iff : (reach [] history).find? name = none ↔
    ∀ front inside n, Open history front inside n → ¬Declared inside name := by
  constructor
  · intro hnone front inside n hopen hdeclared
    have hsome := isSome_find? hopen hdeclared
    rw [hnone] at hsome
    cases hsome
  · intro hnone
    refine Option.eq_none_iff_forall_not_mem.2 fun v hv => ?_
    obtain ⟨front, inside, n, hopen, hfirst, -⟩ := standsFor_of_find? hv
    exact hnone front inside n hopen (declared_iff_exists_first.2 ⟨v, hfirst⟩)

/-! ## Answers -/

/-- The answer to an action that the history asks for. -/
inductive Answers (history : List Action) : Action → Answer → Prop
  | enter : Answers history .enter .done
  | leave : Answers history .leave .done
  | declared {front inside : List Action} {v : Variable} : Open history front inside 0 →
      ¬Declared inside v.name → Answers history (.declare v) .done
  | redeclared {front inside : List Action} {v : Variable} : Open history front inside 0 →
      Declared inside v.name →
      Answers history (.declare v) (.refused (.variableRedeclared v.name))
  | noScope {v : Variable} : (∀ front inside n, ¬Open history front inside n) →
      Answers history (.declare v) (.refused (.noOpenScope v.name))
  | found {name : String} {v : Variable} : StandsFor history name v →
      Answers history (.find name) (.found v)
  | unknown {name : String} :
      (∀ front inside n, Open history front inside n → ¬Declared inside name) →
      Answers history (.find name) (.found none)

/-- In the innermost scope a declaration is answered for what was declared in it. -/
theorem Open.answer_declare (h : Open history front inside 0) (v : Variable) :
    (Declared inside v.name ∧ ((Action.declare v).run (reach [] history)).2 =
        .refused (.variableRedeclared v.name)) ∨
      (¬Declared inside v.name ∧ ((Action.declare v).run (reach [] history)).2 = .done) := by
  obtain ⟨scope, hscope, hrecalls⟩ := h.exists_scope
  cases hreach : reach [] history with
  | nil =>
      rw [hreach] at hscope
      cases hscope
  | cons innermost outer =>
      rw [hreach] at hscope
      obtain rfl : innermost = scope := Option.some.inj hscope
      rw [run_declare]
      by_cases hknown : (innermost.find? v.name).isSome = true
      · rw [if_pos hknown]
        exact .inl ⟨hrecalls.isSome.1 hknown, rfl⟩
      · rw [if_neg hknown]
        exact .inr ⟨fun hdeclared => hknown (hrecalls.isSome.2 hdeclared), rfl⟩

variable {answer : Answer}

theorem Answers.eq (h : Answers history action answer) :
    (action.run (reach [] history)).2 = answer := by
  cases h with
  | enter => rfl
  | leave => rfl
  | @declared _ _ v hopen hnew =>
      rcases hopen.answer_declare v with ⟨hknown, -⟩ | ⟨-, hanswer⟩
      · exact absurd hknown hnew
      · exact hanswer
  | @redeclared _ _ v hopen hknown =>
      rcases hopen.answer_declare v with ⟨-, hanswer⟩ | ⟨hnew, -⟩
      · exact hanswer
      · exact absurd hknown hnew
  | noScope hnone =>
      rw [reach_eq_nil_iff.2 hnone]
      rfl
  | found hstands => exact congrArg Answer.found (find?_reach_iff.2 hstands)
  | unknown hnone => exact congrArg Answer.found (find?_reach_eq_none_iff.2 hnone)

/-- A history leaves no answer open. -/
theorem exists_answers (history : List Action) (action : Action) :
    ∃ answer, Answers history action answer := by
  cases action with
  | enter => exact ⟨_, .enter⟩
  | leave => exact ⟨_, .leave⟩
  | declare v =>
      by_cases hnone : ∀ front inside n, ¬Open history front inside n
      · exact ⟨_, .noScope hnone⟩
      · have hpos : 0 < (reach [] history).length :=
          List.length_pos_iff.2 fun hnil => hnone (reach_eq_nil_iff.1 hnil)
        obtain ⟨front, inside, hopen⟩ := lt_length_reach_iff.1 hpos
        by_cases hknown : Declared inside v.name
        · exact ⟨_, .redeclared hopen hknown⟩
        · exact ⟨_, .declared hopen hknown⟩
  | find name =>
      cases hfound : (reach [] history).find? name with
      | some v => exact ⟨_, .found (find?_reach_iff.1 hfound)⟩
      | none => exact ⟨_, .unknown (find?_reach_eq_none_iff.1 hfound)⟩

/-- A declaration that is refused leaves the scopes as they were. -/
theorem run_refused {refusal : Refusal}
    (h : ((Action.declare v).run scopes).2 = .refused refusal) :
    ((Action.declare v).run scopes).1 = scopes := by
  unfold Action.run at h ⊢
  dsimp only at h ⊢
  rcases (careful_tryDeclare v).refused_or_accepted scopes with
    ⟨cause, hrefused⟩ | ⟨later, haccepted⟩
  · rw [hrefused]
  · rw [haccepted] at h
    cases h

/-- **Scopes answer as their history says.**  Whatever was done since there was no scope, an action
is answered as the history asks for, and in no other way: a name is found to be the variable that
was declared first in the innermost open scope in which it was declared, a declaration is refused
for want of a scope or because the innermost one has the name.  A refused declaration leaves the
scopes as they were.  So does a scope that is opened, whatever is done in it, and closed again. -/
theorem history_answered :
    (∀ history action answer,
      (action.run (reach [] history)).2 = answer ↔ Answers history action answer) ∧
    (∀ history v refusal, ((Action.declare v).run (reach [] history)).2 = .refused refusal →
      reach [] (history ++ [.declare v]) = reach [] history) ∧
    ∀ scopes inside, nesting inside = some 0 →
      reach scopes (.enter :: inside ++ [.leave]) = scopes := by
  refine ⟨fun history action answer => ⟨fun hanswer => ?_, Answers.eq⟩, ?_, ?_⟩
  · obtain ⟨answer', hanswers⟩ := exists_answers history action
    rw [← hanswer, hanswers.eq]
    exact hanswers
  · intro history v refusal hrefused
    rw [reach_concat]
    exact run_refused hrefused
  · intro scopes inside hinside
    obtain ⟨inner, scope, hreach, hlength, -⟩ := reach_inside hinside scopes
    obtain rfl := List.eq_nil_of_length_eq_zero hlength
    rw [reach_concat]
    show (reach ([] :: scopes) inside).tail = scopes
    rw [hreach]
    rfl

/-- A whole number `x`. -/
def outerVariable : Variable := ⟨"x", .int, false, 1⟩

/-- Another `x`, declared later. -/
def innerVariable : Variable := ⟨"x", .plain .float, false, 2⟩

/-- A scope is closed and a variable declared where no scope is open.  Then `x` is declared in a
scope and in one inside of it, which is closed again. -/
def shadowingHistory : List Action :=
  [.leave, .declare innerVariable, .enter, .declare outerVariable, .enter,
    .declare innerVariable, .leave]

/-- Behind the scope inside, `x` is again what it was around it, and is not declared once more; and
so it is behind another scope. -/
theorem shadowingHistory_answered :
    Answers shadowingHistory (.find "x") (.found outerVariable) ∧
      Answers shadowingHistory (.declare innerVariable)
        (.refused (.variableRedeclared "x")) ∧
      reach [] (shadowingHistory ++ [.declare innerVariable]) = reach [] shadowingHistory ∧
      reach (reach [] shadowingHistory)
        (.enter :: [.declare innerVariable, .find "x"] ++ [.leave]) =
          reach [] shadowingHistory :=
  ⟨(history_answered.1 _ _ _).1 (by decide), (history_answered.1 _ _ _).1 (by decide),
    history_answered.2.1 _ _ _ (by decide : _ = Answer.refused (.variableRedeclared "x")),
    history_answered.2.2 _ _ (by decide)⟩

end Scopes

end MiniC
