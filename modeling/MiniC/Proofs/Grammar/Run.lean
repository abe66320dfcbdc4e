import MiniC.Proofs.Grammar.Plan

/-!
# `MiniC.Proofs.Grammar.Run` — a cursor that follows a plan

`Follows P c c' hs` says that a reader of the plan `P` takes the cursor `c` to `c'`, and that
behind the faults `hs` it recovered on the way.  What was wanted at a fault is left open: it makes
a difference for the message alone.

Everything here is proved by one induction over `Follows`, once for all plans.

## Contents
- `Follows`; a broken cursor stays as it is.
- `Follows.unread_suffix`, `Follows.residue_le`: what is left is the end of what was there, and a
  fault always skips a token.
- `Plan.solid`, `Follows.size_le_residue`: a part that cannot be empty takes a token, or breaks.
- `Follows.alike`: **runs from cursors of like shape stay alike.**
- `Follows.derives`: **what is read without a fault is derivable.**
-/

namespace MiniC

/-- The fault that a cursor met. -/
def Cursor.hole? : Cursor → Option Hole
  | .reading _ => none
  | .broken hole _ => some hole

/-- What lies behind the recovery point is the end of what was there. -/
theorem resync_suffix (ts : List Token) : resync ts <:+ ts := by
  induction ts with
  | nil => exact List.suffix_refl _
  | cons t ts ih =>
      rw [resync]
      split
      · exact List.suffix_cons _ _
      · exact ih.trans (List.suffix_cons _ _)

open Cursor (reading broken)

/-- A cursor that follows a plan, and the faults it recovered from. -/
inductive Follows : Plan → Cursor → Cursor → List Hole → Prop
  | idle {P : Plan} {hole : Hole} {after : List Token} :
      Follows P (broken hole after) (broken hole after) []
  | empty {ts : List Token} : Follows .empty (reading ts) (reading ts) []
  | token {p : Shape → Bool} {t : Token} {ts : List Token} :
      p t.shape = true → Follows (.token p) (reading (t :: ts)) (reading ts) []
  | fault {p : Shape → Bool} {ts : List Token} {wanted : Wanted} :
      (∀ t ∈ ts.head?, p t.shape = false) →
      Follows (.token p) (reading ts) (broken ⟨wanted, ts⟩ (resync ts)) []
  | rule {n : Rule} {ts : List Token} {c' : Cursor} {hs : List Hole} :
      Follows n.plan (reading ts) c' hs → Follows (.rule n) (reading ts) c' hs
  | seq {a b : Plan} {ts : List Token} {c₁ c₂ : Cursor} {hs₁ hs₂ : List Hole} :
      Follows a (reading ts) c₁ hs₁ → Follows b c₁ c₂ hs₂ →
      Follows (.seq a b) (reading ts) c₂ (hs₁ ++ hs₂)
  | first {ahead : List Shape → Bool} {a b : Plan} {ts : List Token} {c' : Cursor}
      {hs : List Hole} :
      ahead (shapes ts) = true → Follows a (reading ts) c' hs →
      Follows (.choice ahead a b) (reading ts) c' hs
  | second {ahead : List Shape → Bool} {a b : Plan} {ts : List Token} {c' : Cursor}
      {hs : List Hole} :
      ahead (shapes ts) = false → Follows b (reading ts) c' hs →
      Follows (.choice ahead a b) (reading ts) c' hs
  | done {ahead : List Shape → Bool} {a : Plan} {ts : List Token} :
      ahead (shapes ts) = false → Follows (.many ahead a) (reading ts) (reading ts) []
  | more {ahead : List Shape → Bool} {a : Plan} {ts : List Token} {c₁ c₂ : Cursor}
      {hs₁ hs₂ : List Hole} :
      ahead (shapes ts) = true → Follows a (reading ts) c₁ hs₁ →
      Follows (.many ahead a) c₁ c₂ hs₂ →
      Follows (.many ahead a) (reading ts) c₂ (hs₁ ++ hs₂)
  | stop {ahead : List Shape → Bool} {a : Plan} {ts : List Token} :
      ahead (shapes ts) = false → Follows (.recover ahead a) (reading ts) (reading ts) []
  | mend {ahead : List Shape → Bool} {a : Plan} {ts : List Token} {c₁ c₂ : Cursor}
      {hs₁ hs₂ : List Hole} :
      ahead (shapes ts) = true → Follows a (reading ts) c₁ hs₁ →
      Follows (.recover ahead a) c₁.mend c₂ hs₂ →
      Follows (.recover ahead a) (reading ts) c₂ (hs₁ ++ c₁.hole?.toList ++ hs₂)
  | barring {p : Shape → Bool} {a : Plan} {ts : List Token} {c' : Cursor} {hs : List Hole} :
      (∀ t ∈ ts.head?, p t.shape = false) → Follows a (reading ts) c' hs →
      Follows (.barring p a) (reading ts) c' hs

namespace Follows

variable {P : Plan} {c c' : Cursor} {hs : List Hole}

/-- A broken cursor stays as it is. -/
theorem of_broken {hole : Hole} {after : List Token}
    (h : Follows P (broken hole after) c' hs) : c' = broken hole after ∧ hs = [] := by
  cases h
  exact ⟨rfl, rfl⟩

/-- A plan that selects among alternatives reads the one selected. -/
theorem select {default : Plan} {l : List ((List Shape → Bool) × Plan)} {ts : List Token}
    (h : Follows (((l.find? (·.1 (shapes ts))).map Prod.snd).getD default) (reading ts) c' hs) :
    Follows (.select default l) (reading ts) c' hs := by
  induction l with
  | nil => exact h
  | cons guarded l ih =>
      by_cases hg : guarded.1 (shapes ts) = true
      · simp only [List.find?, hg] at h
        exact .first hg h
      · simp only [List.find?, hg] at h
        exact .second (Bool.eq_false_iff.2 hg) (ih h)

/-! ## Progress -/

/-- What is left is the end of what was there. -/
theorem unread_suffix (h : Follows P c c' hs) : c'.unread <:+ c.unread := by
  induction h with
  | token _ => exact List.suffix_cons _ _
  | fault _ => exact resync_suffix _
  | rule _ ih => exact ih
  | seq _ _ ih₁ ih₂ => exact ih₂.trans ih₁
  | first _ _ ih => exact ih
  | second _ _ ih => exact ih
  | more _ _ _ ih₁ ih₂ => exact ih₂.trans ih₁
  | mend _ _ _ ih₁ ih₂ => exact ih₂.trans ih₁
  | barring _ _ ih => exact ih
  | _ => exact List.suffix_refl _

/-- A fault lies at a place that was still ahead, and reading recovers right behind it. -/
theorem broken_of_reading {ts after : List Token} {hole : Hole}
    (h : Follows P (reading ts) (broken hole after) hs) :
    hole.ahead <:+ ts ∧ after = resync hole.ahead := by
  generalize hc : reading ts = c at h
  generalize hd : broken hole after = d at h
  induction h generalizing ts hole with
  | fault _ =>
      cases hc
      cases hd
      exact ⟨List.suffix_refl _, rfl⟩
  | rule _ ih => exact ih hc hd
  | first _ _ ih => exact ih hc hd
  | second _ _ ih => exact ih hc hd
  | barring _ _ ih => exact ih hc hd
  | @seq _ _ _ c₁ _ _ _ h₁ h₂ ih₁ ih₂ =>
      cases hc
      cases c₁ with
      | reading us =>
          obtain ⟨hsuffix, hafter⟩ := ih₂ rfl hd
          exact ⟨hsuffix.trans h₁.unread_suffix, hafter⟩
      | broken hole₁ after₁ => exact ih₁ rfl (hd.trans h₂.of_broken.1)
  | @more _ _ _ c₁ _ _ _ _ h₁ h₂ ih₁ ih₂ =>
      cases hc
      cases c₁ with
      | reading us =>
          obtain ⟨hsuffix, hafter⟩ := ih₂ rfl hd
          exact ⟨hsuffix.trans h₁.unread_suffix, hafter⟩
      | broken hole₁ after₁ => exact ih₁ rfl (hd.trans h₂.of_broken.1)
  | @mend _ _ _ c₁ _ _ _ _ h₁ h₂ ih₁ ih₂ =>
      cases hc
      obtain ⟨hsuffix, hafter⟩ := ih₂ rfl hd
      exact ⟨hsuffix.trans h₁.unread_suffix, hafter⟩
  | _ => cases hc <;> cases hd

/-- A fault always skips a token, if one is left. -/
theorem residue_le (h : Follows P c c' hs) : c'.residue ≤ c.residue := by
  cases c with
  | broken hole after =>
      obtain ⟨rfl, -⟩ := h.of_broken
      exact Nat.le_refl _
  | reading ts =>
      cases c' with
      | reading us => exact Nat.sub_le_sub_right h.unread_suffix.length_le 1
      | broken hole after =>
          obtain ⟨hsuffix, rfl⟩ := h.broken_of_reading
          have hskip := length_resync_le hole.ahead
          have hlen := hsuffix.length_le
          simp only [Cursor.residue_broken, Cursor.residue_reading]
          omega

/-- Every fault that reading recovered from lies at a place that was still ahead. -/
theorem ahead_suffix (h : Follows P c c' hs) : ∀ hole ∈ hs, hole.ahead <:+ c.unread := by
  induction h with
  | rule _ ih => exact ih
  | first _ _ ih => exact ih
  | second _ _ ih => exact ih
  | barring _ _ ih => exact ih
  | seq h₁ _ ih₁ ih₂ =>
      intro hole hm
      rcases List.mem_append.1 hm with hm | hm
      · exact ih₁ hole hm
      · exact (ih₂ hole hm).trans h₁.unread_suffix
  | more _ h₁ _ ih₁ ih₂ =>
      intro hole hm
      rcases List.mem_append.1 hm with hm | hm
      · exact ih₁ hole hm
      · exact (ih₂ hole hm).trans h₁.unread_suffix
  | @mend _ _ _ c₁ _ _ _ _ h₁ _ ih₁ ih₂ =>
      intro hole hm
      rw [List.mem_append, List.mem_append] at hm
      rcases hm with (hm | hm) | hm
      · exact ih₁ hole hm
      · cases c₁ with
        | reading us => cases hm
        | broken hole₁ after₁ =>
            obtain rfl : hole = hole₁ := by simpa [Cursor.hole?] using hm
            exact h₁.broken_of_reading.1
      · exact (ih₂ hole hm).trans h₁.unread_suffix
  | _ => simp

end Follows

/-! ## Parts that cannot be empty -/

/-- Whether the parts of a program that the rule stands for cannot be empty. -/
def Rule.solid (n : Rule) : Bool := n != .program && n != .arrayOpt

/-- Whether a part that is read by the plan cannot be empty. -/
def Plan.solid : Plan → Bool
  | empty => false
  | token _ => true
  | rule n => n.solid
  | seq first second => first.solid || second.solid
  | choice _ first second => first.solid && second.solid
  | many _ _ => false
  | recover _ _ => false
  | barring _ part => part.solid

theorem solid_plan {n : Rule} (h : n.solid = true) : n.plan.solid = true := by
  cases n with
  | program => cases h
  | arrayOpt => cases h
  | operation tier => cases tier <;> rfl
  | _ => rfl

/-- A part that cannot be empty takes a token, or breaks and thereby skips one. -/
theorem Follows.size_le_residue {P : Plan} {c c' : Cursor} {hs : List Hole}
    (h : Follows P c c' hs) (hP : P.solid = true) : c'.size ≤ c.residue := by
  induction h with
  | token _ => exact Nat.le_refl _
  | fault _ => exact length_resync_le _
  | rule _ ih => exact ih (solid_plan hP)
  | barring _ _ ih => exact ih hP
  | first _ _ ih => exact ih (Bool.and_eq_true_iff.1 hP).1
  | second _ _ ih => exact ih (Bool.and_eq_true_iff.1 hP).2
  | seq h₁ h₂ ih₁ ih₂ =>
      rcases Bool.or_eq_true_iff.1 hP with ha | hb
      · exact Nat.le_trans h₂.unread_suffix.length_le (ih₁ ha)
      · exact Nat.le_trans (ih₂ hb) h₁.residue_le
  | idle => exact Nat.le_refl _
  | _ => cases hP

/-- Recovery goes on until no further part begins. -/
theorem Follows.recover_ends {ahead : List Shape → Bool} {a : Plan} {ts : List Token}
    {c' : Cursor} {hs : List Hole} (h : Follows (.recover ahead a) (reading ts) c' hs) :
    ∃ us, c' = reading us ∧ ahead (shapes us) = false := by
  generalize hP : Plan.recover ahead a = P at h
  generalize hc : reading ts = c at h
  induction h generalizing ts with
  | stop hno =>
      cases hP
      exact ⟨_, rfl, hno⟩
  | mend _ _ _ _ ih =>
      cases hP
      exact ih rfl rfl
  | idle => cases hc
  | _ => cases hP

/-! ## Runs from cursors of like shape -/

/-- Two cursors that see the same shapes, and that are broken at the same place if they are. -/
def Cursor.Alike : Cursor → Cursor → Prop
  | reading ts, reading us => shapes ts = shapes us
  | broken hole ts, broken hole' us =>
      hole.ahead.length = hole'.ahead.length ∧ shapes ts = shapes us
  | _, _ => False

namespace Cursor.Alike

theorem hole? {c d : Cursor} (h : c.Alike d) :
    c.hole?.toList.map (·.ahead.length) = d.hole?.toList.map (·.ahead.length) := by
  cases c <;> cases d
  · rfl
  · exact h.elim
  · exact h.elim
  · simpa [Cursor.hole?] using h.1

theorem mend {c d : Cursor} (h : c.Alike d) : c.mend.Alike d.mend := by
  cases c <;> cases d
  · exact h
  · exact h.elim
  · exact h.elim
  · exact h.2

/-- Cursors that see the same shapes are both broken, or are both not. -/
theorem eq_reading {ts : List Token} {d : Cursor} (h : Alike (reading ts) d) :
    ∃ us, d = reading us ∧ shapes ts = shapes us := by
  cases d with
  | reading us => exact ⟨us, rfl, h⟩
  | broken hole after => exact h.elim

end Cursor.Alike

theorem shapes_resync {ts us : List Token} (h : shapes ts = shapes us) :
    shapes (resync ts) = shapes (resync us) := by
  induction ts generalizing us with
  | nil =>
      obtain rfl : us = [] := by simpa using h.symm
      rfl
  | cons t ts ih =>
      cases us with
      | nil => cases h
      | cons u us =>
          obtain ⟨hhead, htail⟩ := List.cons.inj h
          have hkind : t.kind = u.kind := congrArg Shape.kind hhead
          rw [resync, resync, hkind]
          split
          · exact htail
          · exact ih htail

/-- **Runs from cursors of like shape stay alike.** -/
theorem Follows.alike {P : Plan} {c c' d d' : Cursor} {hs gs : List Hole}
    (h : Follows P c c' hs) (g : Follows P d d' gs) (hcd : c.Alike d) :
    c'.Alike d' ∧ hs.map (·.ahead.length) = gs.map (·.ahead.length) := by
  induction h generalizing d d' gs with
  | @idle P hole after =>
      cases d with
      | reading us => exact hcd.elim
      | broken hole' after' =>
          obtain ⟨rfl, rfl⟩ := g.of_broken
          exact ⟨hcd, rfl⟩
  | empty =>
      obtain ⟨us, rfl, hus⟩ := hcd.eq_reading
      cases g
      exact ⟨hus, rfl⟩
  | @token p t ts hp =>
      obtain ⟨us, rfl, hus⟩ := hcd.eq_reading
      cases g with
      | token _ => exact ⟨(List.cons.inj hus).2, rfl⟩
      | fault hno =>
          cases us with
          | nil => cases hus
          | cons u us =>
              rw [(List.cons.inj hus).1, hno u rfl] at hp
              cases hp
  | @fault p ts wanted hno =>
      obtain ⟨us, rfl, hus⟩ := hcd.eq_reading
      cases g with
      | fault _ =>
          have hlen : ts.length = us.length := by simpa using congrArg List.length hus
          exact ⟨⟨hlen, shapes_resync hus⟩, rfl⟩
      | token hp =>
          cases ts with
          | nil => cases hus
          | cons t ts =>
              rw [← (List.cons.inj hus).1, hno t rfl] at hp
              cases hp
  | rule _ ih =>
      obtain ⟨us, rfl, hus⟩ := hcd.eq_reading
      cases g with
      | rule g => exact ih g hus
  | barring _ _ ih =>
      obtain ⟨us, rfl, hus⟩ := hcd.eq_reading
      cases g with
      | barring _ g => exact ih g hus
  | seq _ _ ih₁ ih₂ =>
      obtain ⟨us, rfl, hus⟩ := hcd.eq_reading
      cases g with
      | seq g₁ g₂ =>
          obtain ⟨hmid, hhs₁⟩ := ih₁ g₁ hus
          obtain ⟨hend, hhs₂⟩ := ih₂ g₂ hmid
          exact ⟨hend, by rw [List.map_append, List.map_append, hhs₁, hhs₂]⟩
  | first ha _ ih =>
      obtain ⟨us, rfl, hus⟩ := hcd.eq_reading
      rw [hus] at ha
      cases g with
      | first _ g => exact ih g hus
      | second hb _ => exact absurd (ha.symm.trans hb) (by decide)
  | second hb _ ih =>
      obtain ⟨us, rfl, hus⟩ := hcd.eq_reading
      rw [hus] at hb
      cases g with
      | first ha _ => exact absurd (ha.symm.trans hb) (by decide)
      | second _ g => exact ih g hus
  | done hb =>
      obtain ⟨us, rfl, hus⟩ := hcd.eq_reading
      rw [hus] at hb
      cases g with
      | done _ => exact ⟨hus, rfl⟩
      | more ha _ _ => exact absurd (ha.symm.trans hb) (by decide)
  | more ha _ _ ih₁ ih₂ =>
      obtain ⟨us, rfl, hus⟩ := hcd.eq_reading
      rw [hus] at ha
      cases g with
      | done hb => exact absurd (ha.symm.trans hb) (by decide)
      | more _ g₁ g₂ =>
          obtain ⟨hmid, hhs₁⟩ := ih₁ g₁ hus
          obtain ⟨hend, hhs₂⟩ := ih₂ g₂ hmid
          exact ⟨hend, by rw [List.map_append, List.map_append, hhs₁, hhs₂]⟩
  | stop hb =>
      obtain ⟨us, rfl, hus⟩ := hcd.eq_reading
      rw [hus] at hb
      cases g with
      | stop _ => exact ⟨hus, rfl⟩
      | mend ha _ _ => exact absurd (ha.symm.trans hb) (by decide)
  | mend ha _ _ ih₁ ih₂ =>
      obtain ⟨us, rfl, hus⟩ := hcd.eq_reading
      rw [hus] at ha
      cases g with
      | stop hb => exact absurd (ha.symm.trans hb) (by decide)
      | mend _ g₁ g₂ =>
          obtain ⟨hmid, hhs₁⟩ := ih₁ g₁ hus
          obtain ⟨hend, hhs₂⟩ := ih₂ g₂ hmid.mend
          exact ⟨hend, by simp only [List.map_append, hhs₁, hhs₂, hmid.hole?]⟩

/-! ## Soundness -/

/-- **What is read without a fault is derivable.** -/
theorem Follows.derives {P : Plan} {ts rest : List Token}
    (h : Follows P (reading ts) (reading rest) []) : ∃ w, ts = w ++ rest ∧ Derives P.form w := by
  generalize hc : reading ts = c at h
  generalize hd : reading rest = d at h
  generalize hhs : ([] : List Hole) = hs at h
  induction h generalizing ts rest with
  | idle => cases hc
  | fault _ => cases hd
  | empty =>
      cases hc
      cases hd
      exact ⟨[], rfl, .empty⟩
  | token hp =>
      cases hc
      cases hd
      exact ⟨[_], rfl, .token hp⟩
  | @rule n _ _ _ _ ih =>
      obtain ⟨w, hw, hder⟩ := ih hc hd hhs
      rw [form_plan] at hder
      exact ⟨w, hw, .rule hder⟩
  | first _ _ ih =>
      obtain ⟨w, hw, hder⟩ := ih hc hd hhs
      exact ⟨w, hw, .first hder⟩
  | second _ _ ih =>
      obtain ⟨w, hw, hder⟩ := ih hc hd hhs
      exact ⟨w, hw, .second hder⟩
  | done _ =>
      cases hc
      cases hd
      exact ⟨[], rfl, .done⟩
  | stop _ =>
      cases hc
      cases hd
      exact ⟨[], rfl, .done⟩
  | barring hp _ ih =>
      obtain ⟨w, rfl, hder⟩ := ih hc hd hhs
      cases hc
      refine ⟨w, rfl, .barring (fun t ht => hp t ?_) hder⟩
      cases w with
      | nil => cases ht
      | cons u w => exact ht
  | @seq _ _ _ c₁ _ hs₁ hs₂ h₁ h₂ ih₁ ih₂ =>
      obtain ⟨rfl, rfl⟩ := List.append_eq_nil_iff.1 hhs.symm
      cases c₁ with
      | broken hole after => exact absurd (hd.trans h₂.of_broken.1) (by simp)
      | reading us =>
          obtain ⟨u, rfl, hu⟩ := ih₁ hc rfl rfl
          obtain ⟨v, rfl, hv⟩ := ih₂ rfl hd rfl
          exact ⟨u ++ v, (List.append_assoc u v rest).symm, .seq hu hv⟩
  | @more _ _ _ c₁ _ hs₁ hs₂ _ h₁ h₂ ih₁ ih₂ =>
      obtain ⟨rfl, rfl⟩ := List.append_eq_nil_iff.1 hhs.symm
      cases c₁ with
      | broken hole after => exact absurd (hd.trans h₂.of_broken.1) (by simp)
      | reading us =>
          obtain ⟨u, rfl, hu⟩ := ih₁ hc rfl rfl
          obtain ⟨v, rfl, hv⟩ := ih₂ rfl hd rfl
          exact ⟨u ++ v, (List.append_assoc u v rest).symm, .more hu hv⟩
  | @mend _ _ _ c₁ _ hs₁ hs₂ _ h₁ h₂ ih₁ ih₂ =>
      obtain ⟨hfirst, rfl⟩ := List.append_eq_nil_iff.1 hhs.symm
      obtain ⟨rfl, hc₁⟩ := List.append_eq_nil_iff.1 hfirst
      cases c₁ with
      | broken hole after => cases hc₁
      | reading us =>
          obtain ⟨u, rfl, hu⟩ := ih₁ hc rfl rfl
          obtain ⟨v, rfl, hv⟩ := ih₂ rfl hd rfl
          exact ⟨u ++ v, (List.append_assoc u v rest).symm, .more hu hv⟩

end MiniC
