import MiniC.Proofs.Reading.Tokens
import MiniC.Proofs.Reading.Tracks

/-!
# `MiniC.Proofs.Reading.Spells` — what was read is what was written

A reader that leaves no hole takes the tokens of its tree from the text, all of them, in order,
and no others.  Like following a plan, this is kept by every way to put readers together.

## Contents
- `Spells`, with `seq`, `nothing`, `mend`.
- What `take?`, `demand`, `takeWhile`, `optional` take.
- `spells_commaSeparated`, `spells_recovering`: repetition.
-/

namespace MiniC

open Cursor (reading broken)

/-! ## Clear traces -/

namespace Trace

theorem eq_clear {t : Trace} (hreported : t.reported = []) (hstop : t.stop = none) :
    t = .clear := by
  obtain ⟨reported, stop⟩ := t
  rw [show reported = [] from hreported, show stop = none from hstop]
  rfl

theorem andThen_eq_clear {s t : Trace} : s.andThen t = .clear ↔ s = .clear ∧ t = .clear := by
  constructor
  · intro h
    obtain ⟨reported, _ | hole⟩ := s
    · obtain ⟨more, stop⟩ := t
      simp only [andThen, clear, Trace.mk.injEq, List.append_eq_nil_iff] at h
      obtain ⟨⟨rfl, rfl⟩, rfl⟩ := h
      exact ⟨rfl, rfl⟩
    · have hstop := congrArg Trace.stop h
      cases hstop
  · rintro ⟨rfl, rfl⟩
    rfl

theorem settled_eq_clear {t : Trace} : t.settled = .clear ↔ t = .clear := by
  obtain ⟨reported, _ | hole⟩ := t <;> simp [settled, clear]

end Trace

/-! ## Taking a text -/

/-- Reading from one cursor to another takes exactly the text, if no hole is left in the tree. -/
def Spells (c c' : Cursor) (t : Trace) (text : List Token) : Prop :=
  t = .clear → ∀ ts, c = reading ts → ∃ rest, ts = text ++ rest ∧ c' = reading rest

namespace Spells

variable {c c₁ c₂ : Cursor} {t t₁ t₂ : Trace} {text more : List Token}

theorem nothing : Spells c c t [] := fun _ ts hc => ⟨ts, rfl, hc⟩

/-- A part behind another: their texts follow each other. -/
theorem seq (h₁ : Spells c c₁ t₁ text) (h₂ : Spells c₁ c₂ t₂ more) :
    Spells c c₂ (t₁.andThen t₂) (text ++ more) := by
  intro hclear ts hc
  obtain ⟨hclear₁, hclear₂⟩ := Trace.andThen_eq_clear.1 hclear
  obtain ⟨us, rfl, hc₁⟩ := h₁ hclear₁ ts hc
  obtain ⟨rest, rfl, hc₂⟩ := h₂ hclear₂ us hc₁
  exact ⟨rest, (List.append_assoc ..).symm, hc₂⟩

/-- What takes no hole can stand in front. -/
theorem behind (h₁ : Spells c c₁ .clear text) (h₂ : Spells c₁ c₂ t more) :
    Spells c c₂ t (text ++ more) :=
  h₁.seq h₂

/-- A part behind another that cannot have a hole. -/
theorem before (h₁ : Spells c c₁ t text) (h₂ : Spells c₁ c₂ .clear more) :
    Spells c c₂ t (text ++ more) := by
  rw [← t.andThen_clear]
  exact h₁.seq h₂

/-- Behind a part without a hole recovery skips nothing. -/
theorem mend (h₁ : Spells c c₁ t₁ text) (h₂ : Spells c₁.mend c₂ t₂ more) :
    Spells c c₂ (t₁.settled.andThen t₂) (text ++ more) := by
  intro hclear ts hc
  obtain ⟨hclear₁, hclear₂⟩ := Trace.andThen_eq_clear.1 hclear
  obtain ⟨us, rfl, rfl⟩ := h₁ (Trace.settled_eq_clear.1 hclear₁) ts hc
  obtain ⟨rest, rfl, hc₂⟩ := h₂ hclear₂ us rfl
  exact ⟨rest, (List.append_assoc ..).symm, hc₂⟩

/-- At a hole nothing is claimed. -/
theorem stopped {hole : Hole} : Spells c c₁ (.stopped hole) text :=
  fun hclear => nomatch congrArg Trace.stop hclear

end Spells

/-! ## Elementary readers -/

variable {p : Kind → Bool}

theorem spells_token (t : Token) (ts : List Token) :
    Spells (reading (t :: ts)) (reading ts) .clear [t] := by
  rintro - us hc
  obtain rfl := Cursor.reading.inj hc
  exact ⟨ts, rfl, rfl⟩

theorem spells_take {c : Cursor} {taken : Taken c} (h : c.take? p = some taken) :
    Spells c taken.next .clear [taken.token] := by
  obtain ⟨ts, hc, -, hnext⟩ := Cursor.take?_eq_some h
  rintro - us hus
  obtain rfl := Cursor.reading.inj (hus.symm.trans hc)
  exact ⟨ts, rfl, hnext⟩

theorem spells_demand (c : Cursor) (p : Kind → Bool) (wanted : Wanted) :
    Spells c (c.demand p wanted).next (c.demand p wanted).tree.trace
      (c.demand p wanted).tree.tokens := by
  cases c with
  | broken hole after => exact fun _ _ hc => nomatch hc
  | reading ts =>
      cases ts with
      | nil => exact .stopped
      | cons t ts =>
          by_cases hp : p t.kind = true
          · simp only [Cursor.demand, if_pos hp]
            exact spells_token t ts
          · simp only [Cursor.demand, if_neg hp]
            exact .stopped

theorem spells_expect (c : Cursor) (kind : Kind) (site : Site) :
    Spells c (c.expect kind site).next (c.expect kind site).tree.trace
      (c.expect kind site).tree.tokens :=
  spells_demand c _ _

/-- All tokens that were taken. -/
theorem spells_takeWhile (c : Cursor) (p : Kind → Bool) :
    Spells c (c.takeWhile p).next .clear (c.takeWhile p).tokens := by
  cases c with
  | broken hole after => exact fun _ _ hc => nomatch hc
  | reading ts =>
      rintro - us hc
      obtain rfl := Cursor.reading.inj hc
      exact ⟨_, List.takeWhile_append_dropWhile.symm, rfl⟩

theorem spells_optional (c : Cursor) (p : Kind → Bool) :
    Spells c (c.optional p).next .clear (c.optional p).tree.toList := by
  unfold Cursor.optional
  split
  next taken hsome => exact spells_take hsome
  next => exact .nothing

/-- Words, or `struct` and a name. -/
theorem spells_typeSpec (c : Cursor) :
    Spells c c.typeSpec.next c.typeSpec.tree.trace c.typeSpec.tree.tokens := by
  cases c with
  | broken hole after => exact .stopped
  | reading ts =>
      cases ts with
      | nil => exact .stopped
      | cons t ts =>
          simp only [Cursor.typeSpec]
          split
          next => exact (spells_token t ts).behind (spells_expect (reading ts) _ _)
          next =>
            split
            next =>
              exact (spells_token t ts).behind (spells_takeWhile (reading ts) Kind.isTypeWord)
            next => exact .stopped

/-! ## Repetition -/

variable {α : Type}

/-- The commas belong to the text. -/
theorem spells_commaSeparated {read : (c : Cursor) → Parsed α c.size} {trace : α → Trace}
    {tokens : α → List Token}
    (h : ∀ c, Spells c (read c).next (trace (read c).tree) (tokens (read c).tree)) (c : Cursor) :
    Spells c (c.commaSeparated read).next
      (Trace.all ((c.commaSeparated read).tree.map fun part => trace part.2))
      ((c.commaSeparated read).tree.flatMap fun part => part.1 :: tokens part.2) := by
  rw [Cursor.commaSeparated]
  split
  next => exact .nothing
  next taken hsome =>
      have hlt := taken.lt
      have hle := (read taken.next).le
      have hrest := spells_commaSeparated h (read taken.next).next
      exact ((spells_take hsome).behind (h taken.next)).seq hrest
termination_by c.size

/-- Parts one after the other, if none of them has a hole. -/
theorem spells_recovering {begins : Kind → Bool} {read : (c : Cursor) → Parsed α c.residue}
    {trace : α → Trace} {tokens : α → List Token}
    (h : ∀ c, Spells c (read c).next (trace (read c).tree) (tokens (read c).tree)) :
    ∀ c : Cursor, Spells c (c.recovering begins read).next
      (Trace.all ((c.recovering begins read).tree.map fun part => (trace part).settled))
      ((c.recovering begins read).tree.flatMap tokens)
  | broken hole after => fun _ _ hc => nomatch hc
  | reading [] => by
      rw [Cursor.recovering_nil]
      exact .nothing
  | reading (t :: ts) => by
      rw [Cursor.recovering]
      by_cases hbegins : begins t.kind = true
      · have hle := (read (reading (t :: ts))).le
        have hfirst := h (reading (t :: ts))
        have hrest : Spells _ ((read (reading (t :: ts))).next.mend.recovering begins read).next
            _ _ := spells_recovering h (read (reading (t :: ts))).next.mend
        simp only [hbegins]
        exact hfirst.mend hrest
      · simp only [hbegins]
        exact .nothing
termination_by c => c.size
decreasing_by
  simp only [Cursor.size_mend, Cursor.size_reading, Cursor.residue_cons, List.length_cons] at *
  omega

end MiniC
