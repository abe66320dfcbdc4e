import MiniC.Proofs.Checking.Leaves
import MiniC.Proofs.Reading.Tracks

/-!
# `MiniC.Proofs.Checking.Parts` — a part of a program, read and checked

The whole text is read before anything in it is checked.  Seen from a single part, reading and
checking are one step from the cursor in front of it: the part has its issues, and it ends either
with a value and the cursor behind it, or at the hole where its text did not go on.  Reading and
checking agree on which of the two it is, so a check never turns a part away that was read.

## Contents
- `Parsed.checked`: a part read and then checked.
- `Parsed.checked_ends`: **a part has a value if and only if it was read to its end.**
-/

namespace MiniC

open Cursor (reading)

variable {α β : Type} {n : Nat}

namespace Finding

@[simp] theorem issues_bind_pure (f : Finding α) (g : α → β) :
    (f >>= fun a => pure (g a)).issues = f.issues := by
  obtain ⟨issues, hole | a⟩ := f
  · rfl
  · exact List.append_nil _

@[simp] theorem outcome_bind_pure (f : Finding α) (g : α → β) :
    (f >>= fun a => pure (g a)).outcome = f.outcome.map g := by
  obtain ⟨issues, hole | a⟩ := f <;> rfl

end Finding

/-- A part that was read, checked: its issues, and its value with the cursor behind it, or the
hole that it stops at. -/
def Parsed.checked (r : Parsed α n) (check : α → Finding β) : Finding (β × Cursor) := do
  let value ← check r.tree
  pure (value, r.next)

namespace Parsed

@[simp] theorem issues_checked (r : Parsed α n) (check : α → Finding β) :
    (r.checked check).issues = (check r.tree).issues :=
  Finding.issues_bind_pure _ _

@[simp] theorem outcome_checked (r : Parsed α n) (check : α → Finding β) :
    (r.checked check).outcome = (check r.tree).outcome.map (·, r.next) :=
  Finding.outcome_bind_pure _ _

/-- A part is checked for what was read, wherever that is known. -/
theorem checked_of_read {r : Parsed α n} {a : α} {c : Cursor} (htree : r.tree = a)
    (hnext : r.next = c) (check : α → Finding β) :
    r.checked check = check a >>= fun value => pure (value, c) := by
  rw [checked, htree, hnext]

/-- **A part has a value if and only if it was read to its end;** else it stops at the hole that
the cursor broke at. -/
theorem checked_ends {r : Parsed α n} {P : Plan} {t : Trace} {ts : List Token}
    (check : α → Finding β) (hread : Tracks P (reading ts) r.next t)
    (hcheck : (check r.tree).Leaves t) :
    (∃ hole, r.next.hole? = some hole ∧ (check r.tree).outcome = .error hole) ∨
      ∃ b us, r.next = reading us ∧ (check r.tree).outcome = .ok b := by
  have hstop : (check r.tree).trace.stop = r.next.hole? := by
    rw [hcheck.trace, hread.2 ts rfl]
  cases hnext : r.next with
  | broken hole after =>
      rw [hnext] at hstop
      exact .inl ⟨hole, rfl, Finding.outcome_error hstop⟩
  | reading us =>
      rw [hnext] at hstop
      obtain ⟨b, hb⟩ := Finding.exists_ok hstop
      exact .inr ⟨b, us, rfl, hb⟩

end Parsed

end MiniC
