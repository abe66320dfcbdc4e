import MiniC.Proofs.Names.Run

/-!
# `MiniC.Proofs.Names.Regions` — what a name stands for, told from the regions of a program

Regions nest like brackets: a region in which a variable was declared is open as long as no region
ends that did not begin since.  So where a name stands is told by the steps in front alone.  It
stands for the variable of its name that was declared first in the innermost region where there is
one, among the regions that are open.

The scopes of a run are these regions: the `n`th scope from the inside has of each name the
variable that was declared first in the `n`th region from the inside.

## Contents
- `Declares`, `Resolves`, `Visible`, `Redeclared`: what the steps in front of a place say of a
  name.
- `declares_snoc`: what one more step adds.
- `Around`, with `open_iff_around`: the regions themselves.
- `Scoped`, with `Scoped.snoc` and `Scoped.run`: **the open scopes are the open regions.**
- `Scoped.var?_iff`: **a look-up finds what the name stands for.**
-/

namespace MiniC

/-! ## Names behind steps -/

/-- The variable that a step declares. -/
def Step.declared? : Step → Option Variable
  | declare name type isConst => some ⟨name.lexeme, type, isConst, name.location.line⟩
  | _ => none

/-- Behind `earlier` the variable `v` was declared, in a region that is open behind `before` as
well, with `n` open regions inside of it: `exists_declares_iff` says what that means for the
regions themselves. -/
def Declares (before earlier : List Step) (v : Variable) (n : Nat) : Prop :=
  ∃ step later, before = earlier ++ step :: later ∧ step.declared? = some v ∧
    nest 0 later = some n

/-- Behind `before` a variable of the name is declared in a region that is open. -/
def Visible (before : List Step) (name : String) : Prop :=
  ∃ earlier v n, Declares before earlier v n ∧ v.name = name

/-- Behind `before` a variable of the name is declared in the innermost region. -/
def Redeclared (before : List Step) (name : String) : Prop :=
  ∃ earlier v, Declares before earlier v 0 ∧ v.name = name

/-- Behind `before` the name stands for `v`: no other variable of the name is declared further
inside, and none in the same region was declared earlier. -/
def Resolves (before : List Step) (name : String) (v : Variable) : Prop :=
  v.name = name ∧ ∃ earlier n, Declares before earlier v n ∧
    ∀ earlier' v' n', Declares before earlier' v' n' → v'.name = name →
      n ≤ n' ∧ (n' = n → earlier.length ≤ earlier'.length)

/-- Behind `before`, of the name `v` is what was declared first in the `n`th region from the
inside. -/
def DeclaresFirst (before : List Step) (n : Nat) (name : String) (v : Variable) : Prop :=
  v.name = name ∧ ∃ earlier, Declares before earlier v n ∧
    ∀ earlier' v', Declares before earlier' v' n → v'.name = name →
      earlier.length ≤ earlier'.length

variable {before earlier : List Step} {step : Step} {name : String} {v v' : Variable} {n : Nat}
variable {σ : Symbols}

/-- What is declared behind one more step: what that step declares, and what was declared before
in a region that is still open. -/
theorem declares_snoc : Declares (before ++ [step]) earlier v n ↔
    (earlier = before ∧ step.declared? = some v ∧ n = 0) ∨
      ∃ m, Declares before earlier v m ∧ nest m [step] = some n := by
  constructor
  · rintro ⟨declaring, later, hsplit, hv, hnest⟩
    rcases List.eq_nil_or_concat later with rfl | ⟨later, last, rfl⟩
    · obtain ⟨rfl, hstep⟩ := List.append_inj' hsplit rfl
      obtain rfl : step = declaring := List.head_eq_of_cons_eq hstep
      exact .inl ⟨rfl, hv, (Option.some.inj hnest).symm⟩
    · rw [List.concat_eq_append] at hsplit hnest
      have hsplit' : before ++ [step] = (earlier ++ declaring :: later) ++ [last] := by
        rw [hsplit, List.append_assoc]
        rfl
      obtain ⟨rfl, hstep⟩ := List.append_inj' hsplit' rfl
      obtain rfl : step = last := List.head_eq_of_cons_eq hstep
      rw [nest_append] at hnest
      obtain ⟨m, hlater, hstep⟩ := Option.bind_eq_some_iff.1 hnest
      exact .inr ⟨m, ⟨declaring, later, rfl, hv, hlater⟩, hstep⟩
  · rintro (⟨rfl, hv, rfl⟩ | ⟨m, ⟨declaring, later, rfl, hv, hlater⟩, hstep⟩)
    · exact ⟨step, [], rfl, hv, rfl⟩
    · refine ⟨declaring, later ++ [step], by simp, hv, ?_⟩
      rw [nest_append, hlater]
      exact hstep

theorem not_declares_nil : ¬Declares [] earlier v n := by
  rintro ⟨step, later, hsplit, -, -⟩
  exact List.append_ne_nil_of_right_ne_nil earlier (List.cons_ne_nil step later) hsplit.symm

/-- Where a variable of a name is declared, one was declared first. -/
theorem Declares.exists_first (h : Declares before earlier v n) :
    ∃ v', DeclaresFirst before n v.name v' := by
  -- The induction is on how early the declaration is.
  induction hlength : earlier.length using Nat.strongRecOn generalizing earlier v with
  | ind length ih =>
    by_cases hfirst : ∀ earlier' v', Declares before earlier' v' n → v'.name = v.name →
        earlier.length ≤ earlier'.length
    · exact ⟨v, rfl, earlier, h, hfirst⟩
    · simp only [Classical.not_forall, Nat.not_le] at hfirst
      obtain ⟨earlier', v', hdeclares, hname, hlt⟩ := hfirst
      rw [← hname]
      exact ih earlier'.length (hlength ▸ hlt) hdeclares rfl

theorem Declares.length_lt (h : Declares before earlier v n) : earlier.length < before.length := by
  obtain ⟨step, later, rfl, -, -⟩ := h
  rw [List.length_append, List.length_cons]
  omega

/-- Where the same is declared, the same is declared first. -/
theorem declaresFirst_congr {before' : List Step} {m : Nat}
    (h : ∀ earlier v, Declares before' earlier v n ↔ Declares before earlier v m) :
    DeclaresFirst before' n name v ↔ DeclaresFirst before m name v := by
  simp only [DeclaresFirst, h]

/-- What is declared first in the innermost region, one declaration later: what was so before, or
else what is declared. -/
theorem declaresFirst_snoc {new : Variable} (hnew : step.declared? = some new)
    (hstays : ∀ m n, nest m [step] = some n ↔ m = n) :
    DeclaresFirst (before ++ [step]) 0 name v ↔
      DeclaresFirst before 0 name v ∨
        v = new ∧ new.name = name ∧ ∀ v', ¬DeclaresFirst before 0 name v' := by
  have hsnoc : ∀ earlier v, Declares (before ++ [step]) earlier v 0 ↔
      (earlier = before ∧ v = new) ∨ Declares before earlier v 0 := by
    intro earlier v
    rw [declares_snoc, hnew]
    simp [hstays, eq_comm]
  constructor
  · rintro ⟨hname, earlier, hdeclares, hfirst⟩
    rcases (hsnoc earlier v).1 hdeclares with ⟨rfl, rfl⟩ | hdeclares
    · refine .inr ⟨rfl, hname, fun v' ⟨hname', earlier', hdeclares', _⟩ => ?_⟩
      have hle := hfirst earlier' v' ((hsnoc earlier' v').2 (.inr hdeclares')) hname'
      exact absurd hdeclares'.length_lt (Nat.not_lt.2 hle)
    · exact .inl ⟨hname, earlier, hdeclares, fun earlier' v' hdeclares' hname' =>
        hfirst earlier' v' ((hsnoc earlier' v').2 (.inr hdeclares')) hname'⟩
  · rintro (⟨hname, earlier, hdeclares, hfirst⟩ | ⟨rfl, hname, hnone⟩)
    · refine ⟨hname, earlier, (hsnoc earlier v).2 (.inr hdeclares),
        fun earlier' v' hdeclares' hname' => ?_⟩
      rcases (hsnoc earlier' v').1 hdeclares' with ⟨rfl, -⟩ | hdeclares'
      · exact Nat.le_of_lt hdeclares.length_lt
      · exact hfirst earlier' v' hdeclares' hname'
    · refine ⟨hname, before, (hsnoc before v).2 (.inl ⟨rfl, rfl⟩),
        fun earlier' v' hdeclares' hname' => ?_⟩
      rcases (hsnoc earlier' v').1 hdeclares' with ⟨rfl, -⟩ | hdeclares'
      · exact Nat.le_refl _
      · obtain ⟨v'', hfirst⟩ := hdeclares'.exists_first
        exact absurd (hname' ▸ hfirst) (hnone v'')

/-! ## Regions around places -/

/-- If more regions end than are open, then there is a first step at which none is open. -/
theorem exists_leave {n : Nat} {steps : List Step} (h : nest n steps = none) :
    ∃ front rest, steps = front ++ .leave :: rest ∧ nest n front = some 0 := by
  induction steps generalizing n with
  | nil => cases h
  | cons step steps ih =>
      cases hstep : nest n [step] with
      | none =>
          obtain rfl | rfl | hstays := nest_singleton step
          · cases hstep
          · cases n with
            | zero => exact ⟨[], steps, rfl, rfl⟩
            | succ n => cases hstep
          · exact nomatch (hstays n).symm.trans hstep
      | some m =>
          rw [← List.singleton_append, nest_append, hstep] at h
          obtain ⟨front, rest, rfl, hfront⟩ := ih h
          refine ⟨step :: front, rest, rfl, ?_⟩
          rw [← List.singleton_append, nest_append, hstep]
          exact hfront

/-- Of the regions that are open the innermost began somewhere, and all that began since ended. -/
theorem exists_enter {n m : Nat} {steps : List Step} (h : nest n steps = some (m + 1))
    (hle : n ≤ m) : ∃ front inside, steps = front ++ .enter :: inside ∧
      nest n front = some m ∧ Balanced inside := by
  -- The induction is on the length, as the region before the last one to end may be far in front.
  induction hlength : steps.length using Nat.strongRecOn generalizing steps m with
  | ind length ih =>
    rcases List.eq_nil_or_concat steps with rfl | ⟨begun, step, rfl⟩
    · obtain rfl := Option.some.inj h
      exact absurd hle (Nat.not_succ_le_self m)
    · rw [List.concat_eq_append] at h hlength ⊢
      rw [List.length_append, List.length_singleton] at hlength
      rw [nest_append] at h
      obtain ⟨k, hbegun, hstep⟩ := Option.bind_eq_some_iff.1 h
      obtain rfl | rfl | hstays := nest_singleton step
      · obtain rfl : k = m := Nat.succ.inj (Option.some.inj hstep)
        exact ⟨begun, [], rfl, hbegun, .nil⟩
      · obtain rfl : k = m + 2 := by
          cases k with
          | zero => cases hstep
          | succ k => exact congrArg Nat.succ (Option.some.inj hstep)
        obtain ⟨front, inside, rfl, hfront, hinside⟩ :=
          ih begun.length (by omega) hbegun (Nat.le_succ_of_le hle) rfl
        obtain ⟨first, between, rfl, hfirst, hbetween⟩ :=
          ih front.length (by simp at hlength; omega) hfront hle rfl
        refine ⟨first, between ++ region inside, ?_, hfirst, hbetween.append hinside.region⟩
        simp [region]
      · obtain rfl : k = m + 1 := Option.some.inj ((hstays k).symm.trans hstep)
        obtain ⟨front, inside, rfl, hfront, hinside⟩ := ih begun.length (by omega) hbegun hle rfl
        refine ⟨front, inside ++ [step], by simp, hfront, hinside.append hstays⟩

/-- A region of steps that is around a place of them: it begins in front of the place and ends
behind it. -/
def Around (steps front inside : List Step) (place : Nat) : Prop :=
  ∃ behind, steps = front ++ region inside ++ behind ∧ Balanced inside ∧
    front.length < place ∧ place ≤ front.length + 1 + inside.length

theorem exists_of_append_eq {a b c d : List Step} (h : a ++ b = c ++ d)
    (hle : c.length ≤ a.length) : ∃ e, a = c ++ e ∧ d = e ++ b := by
  obtain ⟨e, rfl⟩ := List.prefix_of_prefix_length_le (h ▸ List.prefix_append c d)
    (List.prefix_append a b) hle
  rw [List.append_assoc] at h
  exact ⟨e, rfl, (List.append_cancel_left h).symm⟩

/-- **The regions around a place are open as long as no other region ends:** if the steps
`between` end only what they begin, then all regions around the place in front of them are around
the place behind them, and only then. -/
theorem open_iff_around {earlier between after : List Step}
    (hbalanced : Balanced (earlier ++ between ++ after)) :
    (∃ n, nest 0 between = some n) ↔
      ∀ front inside, Around (earlier ++ between ++ after) front inside earlier.length →
        Around (earlier ++ between ++ after) front inside (earlier ++ between).length := by
  constructor
  · rintro ⟨n, hopen⟩ front inside ⟨behind, hsteps, hinside, hbegins, hends⟩
    refine ⟨behind, hsteps, hinside, by rw [List.length_append]; omega, ?_⟩
    refine Nat.not_lt.1 fun hover => ?_
    -- The region has begun in `earlier`, and would end in `between`.
    have hbegun : earlier ++ (between ++ after) =
        (front ++ [.enter]) ++ (inside ++ .leave :: behind) := by
      rw [← List.append_assoc, hsteps]
      simp [region]
    obtain ⟨p, rfl, hrest⟩ := exists_of_append_eq hbegun (by simp; omega)
    obtain ⟨q, rfl, hleft⟩ := exists_of_append_eq hrest (by simp at hends; omega)
    have hended : between ++ after = (q ++ [.leave]) ++ behind := by
      rw [hleft, List.append_assoc]
      rfl
    obtain ⟨r, rfl, -⟩ := exists_of_append_eq hended (by simp at hover ⊢; omega)
    rw [List.append_assoc, nest_append] at hopen
    obtain ⟨j, hq, hleave⟩ := Option.bind_eq_some_iff.1 hopen
    have hwhole := hinside 0
    rw [nest_append] at hwhole
    obtain ⟨k, -, hclosed⟩ := Option.bind_eq_some_iff.1 hwhole
    have hadd := nest_add hq k
    rw [Nat.zero_add, hclosed] at hadd
    obtain rfl : j = 0 := by
      have hzero := Option.some.inj hadd
      omega
    cases hleave
  · intro haround
    refine Option.isSome_iff_exists.1 (Option.isSome_iff_ne_none.2 fun hnone => ?_)
    -- A region ends in `between` that did not begin there, so it began in `earlier`.
    obtain ⟨q, r, rfl, hq⟩ := exists_leave hnone
    have hwhole := hbalanced 0
    rw [List.append_assoc, nest_append] at hwhole
    obtain ⟨k, hearlier, hrest⟩ := Option.bind_eq_some_iff.1 hwhole
    rw [List.append_assoc, nest_append, balanced_iff.2 hq k] at hrest
    cases k with
    | zero => cases hrest
    | succ k =>
        obtain ⟨front, p, rfl, -, hp⟩ := exists_enter hearlier (Nat.zero_le k)
        obtain ⟨-, -, -, -, hends⟩ := haround front (p ++ q)
          ⟨r ++ after, by simp [region], hp.append (balanced_iff.2 hq), by simp, by simp; omega⟩
        simp at hends
        omega

/-- A variable is declared in a region that is open if and only if all regions around its
declaration are around the place. -/
theorem exists_declares_iff {after : List Step} (hbalanced : Balanced (before ++ after)) :
    (∃ n, Declares before earlier v n) ↔
      ∃ step later, before = earlier ++ step :: later ∧ step.declared? = some v ∧
        ∀ front inside, Around (before ++ after) front inside (earlier ++ [step]).length →
          Around (before ++ after) front inside before.length := by
  constructor
  · rintro ⟨n, step, later, rfl, hv, hnest⟩
    rw [List.append_cons] at hbalanced ⊢
    exact ⟨step, later, (List.append_cons ..).symm, hv, (open_iff_around hbalanced).1 ⟨n, hnest⟩⟩
  · rintro ⟨step, later, rfl, hv, haround⟩
    rw [List.append_cons] at hbalanced haround
    obtain ⟨n, hnest⟩ := (open_iff_around hbalanced).2 haround
    exact ⟨n, step, later, rfl, hv, hnest⟩

/-! ## Scopes are regions -/

/-- The variable of a name in the `n`th scope from the inside. -/
def Symbols.inScope? (σ : Symbols) (n : Nat) (name : String) : Option Variable :=
  σ.scopes[n]?.bind (·.find? name)

/-- The open scopes are the open regions, and each has of a name what was declared first. -/
structure Scoped (before : List Step) (σ : Symbols) : Prop where
  depth : nest 0 before = some σ.depth
  first : ∀ n name v, σ.inScope? n name = some v ↔ DeclaresFirst before n name v

theorem Scoped.empty : Scoped [] .empty :=
  ⟨rfl, fun _ _ _ => ⟨(fun h => nomatch h), fun ⟨_, _, h, _⟩ => (not_declares_nil h).elim⟩⟩

namespace Step

/-- Steps at which no region begins or ends and no variable is declared leave the scopes as they
are. -/
theorem scopes_run (hdeclares : step.declared? = none) (hstays : ∀ m, nest m [step] = some m)
    (σ : Symbols) : (step.run σ).1.scopes = σ.scopes := by
  obtain ⟨scopes, functions, structs⟩ := σ
  cases step with
  | enter => exact nomatch hstays 0
  | leave => exact nomatch hstays 0
  | pass token => rfl
  | look words view => rfl
  | declare name type isConst => exact nomatch hdeclares
  | function name f =>
      obtain ⟨_, issues, -, hrun⟩ := run_function name f functions structs
      rw [hrun]
  | struct name s =>
      obtain ⟨_, issues, -, hrun⟩ := run_struct name s functions structs
      rw [hrun]

end Step

/-- Steps that leave the scopes as they are leave the regions as they are. -/
theorem Scoped.step_stays (h : Scoped before σ) (hdeclares : step.declared? = none)
    (hstays : ∀ m, nest m [step] = some m) : Scoped (before ++ [step]) (step.run σ).1 := by
  have hscopes := Step.scopes_run hdeclares hstays σ
  refine ⟨?_, fun n name v => ?_⟩
  · rw [nest_append, h.depth, Symbols.depth, Symbols.depth, hscopes]
    exact hstays _
  · rw [Symbols.inScope?, hscopes]
    refine (h.first n name v).trans (declaresFirst_congr fun earlier v => ?_).symm
    rw [declares_snoc, hdeclares]
    simp [hstays]

/-- In the innermost scope a variable is declared unless there is one of its name. -/
theorem Scoped.step_declare (h : Scoped before σ) (hopen : 0 < σ.depth) (token : Token)
    (type : CType) (isConst : Bool) :
    Scoped (before ++ [.declare token type isConst])
      ((Step.declare token type isConst).run σ).1 := by
  obtain ⟨_ | ⟨scope, outer⟩, functions, structs⟩ := σ
  · exact absurd hopen (Nat.lt_irrefl 0)
  let new : Variable := ⟨token.lexeme, type, isConst, token.location.line⟩
  have hnew : (Step.declare token type isConst).declared? = some new := rfl
  have hstays : ∀ m n, nest m [.declare token type isConst] = some n ↔ m = n := fun _ _ =>
    Option.some_inj
  have houter : ∀ n earlier v,
      Declares (before ++ [.declare token type isConst]) earlier v (n + 1) ↔
        Declares before earlier v (n + 1) := by
    intro n earlier v
    rw [declares_snoc]
    simp [hstays]
  have hinner : ∀ name v, scope.find? name = some v ↔ DeclaresFirst before 0 name v :=
    h.first 0
  have hdepth : nest 0 (before ++ [.declare token type isConst]) = some (outer.length + 1) := by
    rw [nest_append, h.depth]
    rfl
  by_cases hknown : (scope.find? token.lexeme).isSome = true
  · rw [Step.run_redeclared hknown]
    refine ⟨hdepth, fun n name v => ?_⟩
    cases n with
    | zero =>
        rw [declaresFirst_snoc hnew hstays]
        refine (hinner name v).trans ⟨.inl, fun h => h.resolve_right ?_⟩
        rintro ⟨rfl, rfl, hnone⟩
        obtain ⟨v', hv'⟩ := Option.isSome_iff_exists.1 hknown
        exact hnone v' ((hinner _ v').1 hv')
    | succ n => exact (h.first (n + 1) name v).trans (declaresFirst_congr (houter n)).symm
  · rw [Step.run_declared hknown]
    refine ⟨hdepth, fun n name v => ?_⟩
    cases n with
    | zero =>
        rw [declaresFirst_snoc hnew hstays]
        show List.find? (·.name == name) (new :: scope) = some v ↔ _
        by_cases hname : new.name = name
        · have hnone : ∀ v', ¬DeclaresFirst before 0 name v' := by
            intro v' hv'
            rw [← hinner, ← hname] at hv'
            exact hknown (Option.isSome_iff_exists.2 ⟨v', hv'⟩)
          rw [List.find?_cons_of_pos (by simpa using hname), Option.some_inj]
          refine ⟨fun h => .inr ⟨h.symm, hname, hnone⟩, ?_⟩
          rintro (h | ⟨rfl, -, -⟩)
          · exact absurd h (hnone v)
          · rfl
        · rw [List.find?_cons_of_neg (by simpa using hname)]
          refine (hinner name v).trans ⟨.inl, fun h => h.resolve_right ?_⟩
          rintro ⟨-, h, -⟩
          exact hname h
    | succ n => exact (h.first (n + 1) name v).trans (declaresFirst_congr (houter n)).symm

/-- **A step keeps that the open scopes are the open regions,** if there is a scope to declare
variables in. -/
theorem Scoped.snoc (h : Scoped before σ) (hopen : step.declared?.isSome = true → 0 < σ.depth)
    {m : Nat} (hnest : nest σ.depth [step] = some m) :
    Scoped (before ++ [step]) (step.run σ).1 := by
  cases step with
  | enter =>
      refine ⟨?_, fun n name v => ?_⟩
      · rw [nest_append, h.depth]
        rfl
      · cases n with
        | zero =>
            refine ⟨(fun hfound => nomatch hfound), fun ⟨_, _, hdeclares, _⟩ => ?_⟩
            rw [declares_snoc] at hdeclares
            simp [Step.declared?, nest] at hdeclares
        | succ n =>
            refine (h.first n name v).trans (declaresFirst_congr fun earlier v => ?_).symm
            rw [declares_snoc]
            simp [Step.declared?, nest]
  | leave =>
      obtain ⟨_ | ⟨scope, outer⟩, functions, structs⟩ := σ
      · cases hnest
      · refine ⟨?_, fun n name v => ?_⟩
        · rw [nest_append, h.depth]
          rfl
        · refine (h.first (n + 1) name v).trans (declaresFirst_congr fun earlier v => ?_).symm
          have hleave : ∀ m, nest m [.leave] = some n ↔ m = n + 1 := by
            intro m
            cases m <;> simp [nest]
          rw [declares_snoc]
          simp [Step.declared?, hleave]
  | declare token type isConst => exact h.step_declare (hopen rfl) token type isConst
  | pass token => exact h.step_stays rfl fun _ => rfl
  | look words view => exact h.step_stays rfl fun _ => rfl
  | function name f => exact h.step_stays rfl fun _ => rfl
  | struct name s => exact h.step_stays rfl fun _ => rfl

/-- **A run keeps that the open scopes are the open regions,** if it ends no region that was open
around the innermost. -/
theorem Scoped.run {steps : List Step} (h : Scoped before σ) {m : Nat} (hdepth : σ.depth = n + 1)
    (hnest : nest n steps = some m) :
    Scoped (before ++ steps) (runSteps steps σ).1 ∧ (runSteps steps σ).1.depth = m + 1 := by
  induction steps generalizing before σ n with
  | nil =>
      obtain rfl := Option.some.inj hnest
      rw [List.append_nil]
      exact ⟨h, hdepth⟩
  | cons step steps ih =>
      rw [← List.singleton_append, nest_append] at hnest
      obtain ⟨k, hstep, hrest⟩ := Option.bind_eq_some_iff.1 hnest
      have hstep' : nest σ.depth [step] = some (k + 1) := by
        rw [hdepth]
        exact nest_succ hstep
      have hsnoc := h.snoc (fun _ => hdepth ▸ Nat.succ_pos n) hstep'
      have hdepth' : (step.run σ).1.depth = k + 1 := by
        have hcount := hsnoc.depth
        rw [nest_append, h.depth] at hcount
        exact (Option.some.inj (hstep'.symm.trans hcount)).symm
      rw [List.append_cons]
      exact ih hsnoc hdepth' hrest

/-! ## What a name stands for -/

/-- A look-up finds what the innermost scope has that has something. -/
theorem Symbols.var?_eq_some_iff : σ.var? name = some v ↔
    ∃ n, σ.inScope? n name = some v ∧ ∀ k < n, σ.inScope? k name = none := by
  obtain ⟨scopes, functions, structs⟩ := σ
  simp only [Symbols.var?, Symbols.inScope?, Scopes.find?]
  induction scopes with
  | nil => simp
  | cons scope outer ih =>
      cases hfound : scope.find? name with
      | some found =>
          rw [List.findSome?_cons_of_isSome (by rw [hfound]; rfl)]
          refine ⟨fun h => ⟨0, h, fun k hk => absurd hk (Nat.not_lt_zero k)⟩, ?_⟩
          rintro ⟨_ | n, hn, hless⟩
          · exact hn
          · have hnone := hfound.symm.trans (hless 0 (Nat.succ_pos n))
            cases hnone
      | none =>
          rw [List.findSome?_cons_of_isNone (by rw [hfound]; rfl), ih]
          constructor
          · rintro ⟨n, hn, hless⟩
            refine ⟨n + 1, hn, fun k hk => ?_⟩
            cases k with
            | zero => exact hfound
            | succ k => exact hless k (Nat.lt_of_succ_lt_succ hk)
          · rintro ⟨_ | n, hn, hless⟩
            · have hnone := hfound.symm.trans hn
              cases hnone
            · exact ⟨n, hn, fun k hk => hless (k + 1) (Nat.succ_lt_succ hk)⟩

/-- A look-up finds something if some scope has something. -/
theorem Symbols.isSome_var? (h : (σ.inScope? n name).isSome = true) :
    (σ.var? name).isSome = true := by
  obtain ⟨v, hv⟩ := Option.isSome_iff_exists.1 h
  obtain ⟨scope, hscope, hfound⟩ := Option.bind_eq_some_iff.1 hv
  refine List.findSome?_isSome_iff.2 ⟨scope, List.mem_of_getElem? hscope, ?_⟩
  rw [hfound]
  rfl

namespace Scoped

/-- Where a variable of the name is declared, the scope has one of the name. -/
theorem isSome_inScope (h : Scoped before σ) : (σ.inScope? n name).isSome = true ↔
    ∃ earlier v, Declares before earlier v n ∧ v.name = name := by
  rw [Option.isSome_iff_exists]
  constructor
  · rintro ⟨v, hv⟩
    obtain ⟨hname, earlier, hdeclares, -⟩ := (h.first n name v).1 hv
    exact ⟨earlier, v, hdeclares, hname⟩
  · rintro ⟨earlier, v, hdeclares, rfl⟩
    obtain ⟨v', hfirst⟩ := hdeclares.exists_first
    exact ⟨v', (h.first n v.name v').2 hfirst⟩

/-- **A look-up finds what the name stands for.** -/
theorem var?_iff (h : Scoped before σ) : σ.var? name = some v ↔ Resolves before name v := by
  rw [Symbols.var?_eq_some_iff]
  constructor
  · rintro ⟨n, hn, hless⟩
    obtain ⟨hname, earlier, hdeclares, hfirst⟩ := (h.first n name v).1 hn
    refine ⟨hname, earlier, n, hdeclares, fun earlier' v' n' hdeclares' hname' => ⟨?_, ?_⟩⟩
    · refine Nat.not_lt.1 fun hlt => ?_
      have hsome := h.isSome_inScope.2 ⟨earlier', v', hdeclares', hname'⟩
      rw [hless n' hlt] at hsome
      cases hsome
    · rintro rfl
      exact hfirst earlier' v' hdeclares' hname'
  · rintro ⟨hname, earlier, n, hdeclares, hleast⟩
    refine ⟨n, (h.first n name v).2 ⟨hname, earlier, hdeclares, ?_⟩, fun k hk => ?_⟩
    · exact fun earlier' v' hdeclares' hname' => (hleast earlier' v' n hdeclares' hname').2 rfl
    · refine Option.not_isSome_iff_eq_none.1 fun hsome => ?_
      obtain ⟨earlier', v', hdeclares', hname'⟩ := h.isSome_inScope.1 hsome
      exact Nat.not_lt.2 (hleast earlier' v' k hdeclares' hname').1 hk

/-- A look-up finds something if and only if a variable of the name is declared in an open
region. -/
theorem isSome_var? (h : Scoped before σ) : (σ.var? name).isSome = true ↔ Visible before name := by
  constructor
  · intro hsome
    obtain ⟨v, hv⟩ := Option.isSome_iff_exists.1 hsome
    obtain ⟨hname, earlier, n, hdeclares, -⟩ := h.var?_iff.1 hv
    exact ⟨earlier, v, n, hdeclares, hname⟩
  · rintro ⟨earlier, v, n, hdeclares, hname⟩
    exact Symbols.isSome_var? (h.isSome_inScope.2 ⟨earlier, v, hdeclares, hname⟩)

end Scoped

end MiniC
