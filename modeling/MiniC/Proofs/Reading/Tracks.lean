import MiniC.Proofs.Grammar.Run
import MiniC.Proofs.Reading.Trace

/-!
# `MiniC.Proofs.Reading.Tracks` — readers that follow a plan

A reader follows a plan and leaves a tree whose trace tells its faults: the holes it reports are
those that were recovered from, and it stops where the cursor broke.  This is kept by every way to
put readers together, so one lemma for each combinator is enough.

Only a cursor that was not broken before is asked to stop in the tree: with a broken one, a part
that may be missing is taken to be missing, and the part behind has the hole.

## Contents
- `Tracks`, with `seq`, `rule`, `first`, `second`, `skip`.
- What `take?`, `demand`, `takeWhile`, `optional` do.
- `tracks_commaSeparated`, `tracks_recovering`: repetition.
-/

namespace MiniC

open Cursor (reading broken)

/-- A cursor that follows a plan and leaves a tree with the trace `t`. -/
def Tracks (P : Plan) (c c' : Cursor) (t : Trace) : Prop :=
  Follows P c c' t.reported ∧ ∀ ts, c = reading ts → t.stop = c'.hole?

namespace Tracks

variable {P a b : Plan} {c c₁ c₂ : Cursor} {t t₁ t₂ : Trace} {n : Rule}
variable {ahead : List Shape → Bool} {p : Kind → Bool}

/-- A part behind another. -/
theorem seq (h₁ : Tracks a c c₁ t₁) (h₂ : Tracks b c₁ c₂ t₂) :
    Tracks (.seq a b) c c₂ (t₁.andThen t₂) := by
  obtain ⟨hf₁, hs₁⟩ := h₁
  obtain ⟨hf₂, hs₂⟩ := h₂
  obtain ⟨reported, stop⟩ := t₁
  cases c with
  | broken hole after =>
      obtain ⟨rfl, rfl⟩ := hf₁.of_broken
      obtain ⟨rfl, hreported⟩ := hf₂.of_broken
      refine ⟨?_, fun ts hc => nomatch hc⟩
      cases stop with
      | none => simpa [Trace.andThen, hreported] using Follows.idle
      | some hole' => exact .idle
  | reading ts =>
      obtain rfl : stop = c₁.hole? := hs₁ ts rfl
      cases c₁ with
      | reading us => exact ⟨.seq hf₁ hf₂, fun _ _ => hs₂ us rfl⟩
      | broken hole after =>
          obtain ⟨rfl, hreported⟩ := hf₂.of_broken
          have hboth := Follows.seq hf₁ hf₂
          rw [hreported, List.append_nil] at hboth
          exact ⟨hboth, fun _ _ => rfl⟩

/-- A part behind another that cannot have a hole. -/
theorem seq_skip (h₁ : Tracks a c c₁ t) (h₂ : Tracks b c₁ c₂ .clear) :
    Tracks (.seq a b) c c₂ t := by
  rw [← t.andThen_clear]
  exact h₁.seq h₂

/-- What stands behind a broken part is not read. -/
theorem seq_fail {wanted : Wanted} (h : Tracks a c (c.fail wanted) t) :
    Tracks (.seq a b) c (c.fail wanted) t := by
  have hidle : Tracks b (c.fail wanted) (c.fail wanted) .clear := by
    cases c <;> exact ⟨.idle, fun _ hc => nomatch hc⟩
  exact h.seq_skip hidle

/-- The empty plan asks for nothing. -/
theorem skip : Tracks .empty c c .clear := by
  cases c with
  | reading ts => exact ⟨.empty, fun _ _ => rfl⟩
  | broken hole after => exact ⟨.idle, fun _ hc => nomatch hc⟩

/-- A rule stands for its plan. -/
theorem rule (h : Tracks n.plan c c₁ t) : Tracks (.rule n) c c₁ t := by
  refine ⟨?_, h.2⟩
  cases c with
  | reading ts => exact .rule h.1
  | broken hole after =>
      obtain ⟨rfl, hreported⟩ := h.1.of_broken
      rw [hreported]
      exact .idle

/-- The first of two plans is followed where the tokens ahead tell so, -/
theorem first (ha : ∀ ts, c = reading ts → ahead (shapes ts) = true) (h : Tracks a c c₁ t) :
    Tracks (.choice ahead a b) c c₁ t := by
  refine ⟨?_, h.2⟩
  cases c with
  | reading ts => exact .first (ha ts rfl) h.1
  | broken hole after =>
      obtain ⟨rfl, hreported⟩ := h.1.of_broken
      rw [hreported]
      exact .idle

/-- and the second where they do not. A broken cursor follows both. -/
theorem second (ha : ∀ ts, c = reading ts → ahead (shapes ts) = false) (h : Tracks b c c₁ t) :
    Tracks (.choice ahead a b) c c₁ t := by
  refine ⟨?_, h.2⟩
  cases c with
  | reading ts => exact .second (ha ts rfl) h.1
  | broken hole after =>
      obtain ⟨rfl, hreported⟩ := h.1.of_broken
      rw [hreported]
      exact .idle

/-- The same for a cursor that is known not to be broken. -/
theorem first_reading {ts : List Token} (ha : ahead (shapes ts) = true)
    (h : Tracks a (reading ts) c₁ t) : Tracks (.choice ahead a b) (reading ts) c₁ t :=
  first (fun _ hc => reading.inj hc ▸ ha) h

theorem second_reading {ts : List Token} (ha : ahead (shapes ts) = false)
    (h : Tracks b (reading ts) c₁ t) : Tracks (.choice ahead a b) (reading ts) c₁ t :=
  second (fun _ hc => reading.inj hc ▸ ha) h

/-- A repetition ends where its parts do not begin, -/
theorem done (ha : ∀ ts, c = reading ts → ahead (shapes ts) = false) :
    Tracks (.many ahead a) c c .clear := by
  cases c with
  | reading ts => exact ⟨.done (ha ts rfl), fun _ _ => rfl⟩
  | broken hole after => exact ⟨.idle, fun _ hc => nomatch hc⟩

/-- and goes on where one does. -/
theorem more (ha : ∀ ts, c = reading ts → ahead (shapes ts) = true) (h₁ : Tracks a c c₁ t₁)
    (h₂ : Tracks (.many ahead a) c₁ c₂ t₂) : Tracks (.many ahead a) c c₂ (t₁.andThen t₂) := by
  -- One more part and the rest are read like two parts in sequence.
  obtain ⟨hf, hs⟩ := h₁.seq h₂
  refine ⟨?_, hs⟩
  cases c with
  | reading ts =>
      generalize (t₁.andThen t₂).reported = hs at hf
      cases hf with
      | seq hf₁ hf₂ => exact .more (ha ts rfl) hf₁ hf₂
  | broken hole after =>
      obtain ⟨rfl, hreported⟩ := hf.of_broken
      rw [hreported]
      exact .idle

theorem barring {p : Shape → Bool} {ts : List Token} (hp : ∀ u ∈ ts.head?, p u.shape = false)
    (h : Tracks a (reading ts) c₁ t) : Tracks (.barring p a) (reading ts) c₁ t :=
  ⟨.barring hp h.1, h.2⟩

/-- Behind a faulty part reading goes on. -/
theorem mend {ts : List Token} (ha : ahead (shapes ts) = true)
    (h₁ : Tracks a (reading ts) c₁ t₁) (h₂ : Tracks (.recover ahead a) c₁.mend c₂ t₂) :
    Tracks (.recover ahead a) (reading ts) c₂ (t₁.settled.andThen t₂) := by
  have hboth := Follows.mend ha h₁.1 h₂.1
  rw [← h₁.2 ts rfl] at hboth
  exact ⟨hboth, fun _ _ => h₂.2 _ rfl⟩

/-- A repetition with recovery ends where its parts do not begin. -/
theorem stop {ts : List Token} (ha : ahead (shapes ts) = false) :
    Tracks (.recover ahead a) (reading ts) (reading ts) .clear :=
  ⟨.stop ha, fun _ _ => rfl⟩

/-- A plan that selects among alternatives reads the one selected. -/
theorem select {default : Plan} {l : List ((List Shape → Bool) × Plan)} {ts : List Token}
    (h : Tracks (((l.find? (·.1 (shapes ts))).map Prod.snd).getD default) (reading ts) c₁ t) :
    Tracks (.select default l) (reading ts) c₁ t :=
  ⟨.select h.1, h.2⟩

/-- What is read without a hole is derivable. -/
theorem derives {ts : List Token} (h : Tracks P (reading ts) c₁ t) (hclear : t = .clear) :
    ∃ w rest, ts = w ++ rest ∧ Derives P.form w := by
  subst hclear
  cases c₁ with
  | broken hole after => exact nomatch h.2 ts rfl
  | reading rest =>
      obtain ⟨w, hw, hderives⟩ := h.1.derives
      exact ⟨w, rest, hw, hderives⟩

end Tracks

/-! ## Elementary readers -/

namespace Cursor

variable {c : Cursor} {p : Kind → Bool}

/-- What a cursor sees is told by the shapes of the tokens ahead. -/
theorem sees_eq {ts : List Token} : (reading ts).sees p = MiniC.sees p (shapes ts) := by
  cases ts <;> rfl

/-- A token that is taken is the first one. -/
theorem take?_eq_some {taken : Taken c} (h : c.take? p = some taken) :
    ∃ ts, c = reading (taken.token :: ts) ∧ p taken.token.kind = true ∧
      taken.next = reading ts := by
  cases c with
  | broken hole after => cases h
  | reading ts =>
      cases ts with
      | nil => cases h
      | cons t ts =>
          by_cases hp : p t.kind = true
          · rw [take?, if_pos hp] at h
            cases h
            exact ⟨ts, rfl, hp, rfl⟩
          · rw [take?, if_neg hp] at h
            cases h

theorem not_sees_of_take? (h : c.take? p = none) :
    ∀ ts, c = reading ts → MiniC.sees p (shapes ts) = false := by
  rintro ts rfl
  cases ts with
  | nil => rfl
  | cons t ts =>
      by_cases hp : p t.kind = true
      · rw [take?, if_pos hp] at h
        cases h
      · simpa [MiniC.sees] using hp

theorem sees_of_take? {taken : Taken c} (h : c.take? p = some taken) :
    ∀ ts, c = reading ts → MiniC.sees p (shapes ts) = true := by
  intro us hus
  obtain ⟨ts, hc, hp, -⟩ := take?_eq_some h
  obtain rfl := reading.inj (hus.symm.trans hc)
  exact hp

end Cursor

section Sees

variable {c : Cursor} {p q : Kind → Bool} {ahead : List Shape}

theorem sees_of_cursor {c : Cursor} {p : Kind → Bool} (h : c.sees p = true) :
    ∀ ts, c = reading ts → sees p (shapes ts) = true := by
  rintro ts rfl
  rwa [Cursor.sees_eq] at h

theorem not_sees_of_cursor {c : Cursor} {p : Kind → Bool} (h : ¬c.sees p = true) :
    ∀ ts, c = reading ts → sees p (shapes ts) = false := by
  rintro ts rfl
  rw [Cursor.sees_eq] at h
  exact Bool.eq_false_iff.2 h

theorem sees_of_imp (h : ∀ kind, p kind = true → q kind = true) (hp : sees p ahead = true) :
    sees q ahead = true := by
  cases ahead with
  | nil => cases hp
  | cons shape ahead => exact h _ hp

theorem not_sees_of_sees (h : ∀ kind, p kind = true → q kind = false)
    (hp : sees p ahead = true) : sees q ahead = false := by
  cases ahead with
  | nil => cases hp
  | cons shape ahead => exact h _ hp

theorem not_sees_or (hp : sees p ahead = false) (hq : sees q ahead = false) :
    sees (fun kind => p kind || q kind) ahead = false := by
  cases ahead with
  | nil => rfl
  | cons shape ahead =>
      rw [sees_cons] at hp hq ⊢
      rw [hp, hq]
      rfl

end Sees

variable {p : Kind → Bool}

theorem tracks_take {c : Cursor} {taken : Taken c} (h : c.take? p = some taken) :
    Tracks (.kind p) c taken.next .clear := by
  obtain ⟨ts, hc, hp, hnext⟩ := Cursor.take?_eq_some h
  rw [hnext, hc]
  exact ⟨.token hp, fun _ _ => rfl⟩

/-- A token that was taken as one of some kinds is also one of more. -/
theorem tracks_take_of_imp {c : Cursor} {q : Kind → Bool} {taken : Taken c}
    (hpq : ∀ kind, q kind = true → p kind = true) (h : c.take? q = some taken) :
    Tracks (.kind p) c taken.next .clear := by
  obtain ⟨ts, hc, hq, hnext⟩ := Cursor.take?_eq_some h
  rw [hnext, hc]
  exact ⟨.token (hpq _ hq), fun _ _ => rfl⟩

theorem tracks_token {t : Token} {ts : List Token} (h : p t.kind = true) :
    Tracks (.kind p) (reading (t :: ts)) (reading ts) .clear :=
  ⟨.token h, fun _ _ => rfl⟩

/-- What stands behind a token. -/
theorem tracks_behind {p : Shape → Bool} {t : Token} {ts : List Token} {c' : Cursor} {P : Plan}
    {trace : Trace} (h : p t.shape = true) (hin : Tracks P (reading ts) c' trace) :
    Tracks (.seq (.token p) P) (reading (t :: ts)) c' trace := by
  have htoken : Tracks (.token p) (reading (t :: ts)) (reading ts) .clear :=
    ⟨.token h, fun _ _ => rfl⟩
  exact htoken.seq hin

/-- A cursor breaks in front of a token that does not fit. -/
theorem tracks_fail {ts : List Token} {wanted : Wanted} (h : sees p (shapes ts) = false) :
    Tracks (.kind p) (reading ts) ((reading ts).fail wanted)
      (.stopped ((reading ts).hole wanted)) := by
  refine ⟨.fault fun t ht => ?_, fun _ _ => rfl⟩
  cases ts with
  | nil => cases ht
  | cons u us =>
      cases ht
      exact h

/-- A broken cursor follows every plan. -/
theorem tracks_broken {P : Plan} {hole hole' : Hole} {after : List Token} :
    Tracks P (broken hole after) (broken hole after) (.stopped hole') :=
  ⟨.idle, fun _ hc => nomatch hc⟩

/-- A token that is not there is a hole, and reading stops. -/
theorem tracks_lacking {c : Cursor} {wanted : Wanted}
    (h : ∀ ts, c = reading ts → sees p (shapes ts) = false) :
    Tracks (.kind p) c (c.fail wanted) (.stopped (c.hole wanted)) := by
  cases c with
  | broken hole after => exact tracks_broken
  | reading ts => exact tracks_fail (h ts rfl)

/-- A token of some kind, found or missing. -/
theorem tracks_demand (c : Cursor) (p : Kind → Bool) (wanted : Wanted) :
    Tracks (.kind p) c (c.demand p wanted).next (c.demand p wanted).tree.trace := by
  cases c with
  | broken hole after => exact tracks_broken
  | reading ts =>
      cases ts with
      | nil => exact tracks_fail rfl
      | cons t ts =>
          by_cases hp : p t.kind = true
          · simp only [Cursor.demand, if_pos hp]
            exact tracks_token hp
          · simp only [Cursor.demand, if_neg hp]
            exact tracks_fail (Bool.eq_false_iff.2 hp)

theorem tracks_expect (c : Cursor) (kind : Kind) (site : Site) :
    Tracks (.kind (· == kind)) c (c.expect kind site).next (c.expect kind site).tree.trace :=
  tracks_demand c _ _

/-- Tokens of a kind, as many as there are. -/
theorem tracks_takeWhile (c : Cursor) (p : Kind → Bool) :
    Tracks (.run p) c (c.takeWhile p).next .clear := by
  cases c with
  | broken hole after => exact ⟨.idle, fun _ hc => nomatch hc⟩
  | reading ts =>
      refine ⟨?_, fun _ _ => rfl⟩
      show Follows (.run p) (reading ts) (reading (ts.dropWhile (p ·.kind))) []
      induction ts with
      | nil => exact .done rfl
      | cons t ts ih =>
          by_cases hp : p t.kind = true
          · simp only [List.dropWhile, hp]
            exact .more hp (.token hp) ih
          · simp only [List.dropWhile, hp]
            exact .done (by simpa [sees] using hp)

/-- Behind a run of tokens there is none that belongs to it. -/
theorem tracks_takeWhile_again (c : Cursor) (p : Kind → Bool) :
    Tracks (.run p) (c.takeWhile p).next (c.takeWhile p).next .clear := by
  cases c with
  | broken hole after => exact ⟨.idle, fun _ hc => nomatch hc⟩
  | reading ts =>
      refine .done fun us hc => ?_
      obtain rfl : ts.dropWhile (p ·.kind) = us := Cursor.reading.inj hc
      have hhead := List.head?_dropWhile_not (p ·.kind) ts
      cases hrest : ts.dropWhile (p ·.kind) with
      | nil => rfl
      | cons u us => simpa [hrest] using hhead

/-- A token of some kind, if it is there. -/
theorem tracks_optional (c : Cursor) (p : Kind → Bool) :
    Tracks (.opt (sees p) (.kind p)) c (c.optional p).next .clear := by
  unfold Cursor.optional
  split
  next taken h => exact .first (Cursor.sees_of_take? h) (tracks_take h)
  next h => exact .second (Cursor.not_sees_of_take? h) .skip

/-! ## Repetition -/

variable {α : Type} {P : Plan}

/-- A part behind every comma. -/
theorem tracks_commaSeparated {read : (c : Cursor) → Parsed α c.size} {trace : α → Trace}
    (h : ∀ c, Tracks P c (read c).next (trace (read c).tree)) (c : Cursor) :
    Tracks (.further P (· == .punct .comma)) c (c.commaSeparated read).next
      (Trace.all ((c.commaSeparated read).tree.map fun part => trace part.2)) := by
  rw [Cursor.commaSeparated]
  split
  next hnone => exact .done (Cursor.not_sees_of_take? hnone)
  next taken hsome =>
      have hlt := taken.lt
      have hle := (read taken.next).le
      exact .more (Cursor.sees_of_take? hsome) ((tracks_take hsome).seq (h taken.next))
        (tracks_commaSeparated h (read taken.next).next)
termination_by c.size

/-- A part with a hole is recovered from, and the next one tried. -/
theorem tracks_recovering {begins : Kind → Bool} {read : (c : Cursor) → Parsed α c.residue}
    {trace : α → Trace} (h : ∀ c, Tracks P c (read c).next (trace (read c).tree)) :
    ∀ c : Cursor, Tracks (.recover (sees begins) P) c (c.recovering begins read).next
      (Trace.all ((c.recovering begins read).tree.map fun part => (trace part).settled))
  | broken hole after => by
      rw [Cursor.recovering_broken]
      exact ⟨.idle, fun _ hc => by cases hc⟩
  | reading [] => by
      rw [Cursor.recovering_nil]
      exact .stop rfl
  | reading (t :: ts) => by
      rw [Cursor.recovering]
      by_cases hbegins : begins t.kind = true
      · have hle := (read (reading (t :: ts))).le
        have hfirst := h (reading (t :: ts))
        have hrest : Tracks (.recover (sees begins) P) _ _ _ :=
          tracks_recovering h (read (reading (t :: ts))).next.mend
        have hboth := Tracks.mend (show sees begins (shapes (t :: ts)) = true from hbegins)
          hfirst hrest
        simp only [hbegins]
        exact hboth
      · simp only [hbegins]
        exact .stop (Bool.eq_false_iff.2 hbegins)
termination_by c => c.size
decreasing_by
  simp only [Cursor.size_mend, Cursor.size_reading, Cursor.residue_cons, List.length_cons] at *
  omega

end MiniC
