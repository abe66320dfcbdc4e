import MiniC.Proofs.Syntactic

/-!
# `MiniC.Proofs.Recovery` — recovery makes progress and does not flood

One malformed part can be in many others that are recovered from, and at the end of the input each
of them has a fault of its own.  Still there are no more faults than tokens, as each is paid for by
a token of its own.  A fault with a token ahead is paid for by that token, which recovery skips.  A
fault at the end skips nothing: it is paid for by the token that its part began with, which was
taken and not skipped.  So the bound rests on how the grammar recovers: a part that is recovered
from takes a token before anything in it is.

## Contents
- `Plan.prompt`, `Plan.guarded`: where a plan recovers.
- `Paid`, with one lemma for each way to read on, and `Follows.paid`: **every fault is paid for.**
- `Hole.Precedes`, `Follows.in_order`: faults lie one behind the other, except at the end.
- `recovery_progresses`: **the syntactic diagnostics of an analysis lie at increasing places, and
  are no more than its tokens.**
-/

namespace MiniC

open Cursor (reading broken)

/-! ## Where a plan recovers -/

/-- Whether the plan takes a token, or finds a fault, before it recovers from any. -/
def Plan.prompt : Plan → Bool
  | empty => true
  | token _ => true
  | rule n => n != .program
  | seq first second => first.prompt && (first.solid || second.prompt)
  | choice _ first second => first.prompt && second.prompt
  | many _ part => part.prompt
  | recover _ _ => false
  | barring _ part => part.prompt

/-- Whether all parts that the plan recovers from are prompt, and begin with a token. -/
def Plan.guarded : Plan → Bool
  | seq first second => first.guarded && second.guarded
  | choice _ first second => first.guarded && second.guarded
  | many _ part => part.guarded
  | recover ahead part => !ahead [] && part.prompt && part.guarded
  | barring _ part => part.guarded
  | _ => true

theorem prompt_plan {n : Rule} (h : (Plan.rule n).prompt = true) : n.plan.prompt = true := by
  cases n with
  | program => cases h
  | operation tier => cases tier <;> rfl
  | _ => rfl

theorem guarded_plan (n : Rule) : n.plan.guarded = true := by
  cases n with
  | operation tier => cases tier <;> rfl
  | _ => rfl

/-! ## What faults are paid with -/

namespace Cursor

/-- How many faults are met and not reported yet. -/
def pending (c : Cursor) : Nat := c.hole?.toList.length

/-- How many faults are owed: one that was met at the end has skipped no token. -/
def owed : Cursor → Nat
  | reading _ => 0
  | broken hole _ => if hole.ahead = [] then 1 else 0

theorem owed_le (c : Cursor) : c.owed ≤ 1 := by
  cases c with
  | reading ts => exact Nat.zero_le 1
  | broken hole after =>
      rw [owed]
      split <;> omega

end Cursor

/-- How a prompt plan starts out from the tokens `ts`: it takes none, or finds a fault right there,
or takes one that pays for no fault yet. -/
inductive Starts (ts : List Token) : Cursor → List Hole → Prop
  | stays : Starts ts (reading ts) []
  | breaks (wanted : Wanted) : Starts ts (broken ⟨wanted, ts⟩ (resync ts)) []
  | takes {c' : Cursor} {hs : List Hole} :
      hs.length + c'.pending + c'.size + 1 ≤ ts.length + c'.owed → Starts ts c' hs

/-- In a run over the tokens `ts` faults are paid for by tokens that were read, each by its own,
but perhaps one that is owed; and a prompt plan has a token to spare. -/
structure Paid (P : Plan) (ts : List Token) (c' : Cursor) (hs : List Hole) : Prop where
  covered : hs.length + c'.pending + c'.size ≤ ts.length + c'.owed
  starts : P.prompt = true → ts ≠ [] → Starts ts c' hs

/-- The token to spare pays for a fault at the end. -/
theorem Starts.covered {ts : List Token} {c' : Cursor} {hs : List Hole} (h : Starts ts c' hs)
    (hts : ts ≠ []) : hs.length + c'.pending + c'.size ≤ ts.length := by
  cases h with
  | stays => exact Nat.le_of_eq (Nat.zero_add _)
  | breaks wanted =>
      have hskip : (resync ts).length ≤ ts.length - 1 := length_resync_le ts
      have hpos : 0 < ts.length := List.length_pos_iff.2 hts
      show 0 + 1 + (resync ts).length ≤ ts.length
      omega
  | takes h =>
      have howed := c'.owed_le
      omega

namespace Paid

variable {P a b : Plan} {ahead : List Shape → Bool} {ts : List Token} {c₁ c' : Cursor}
variable {hs hs₁ hs₂ : List Hole}

theorem stays : Paid P ts (reading ts) [] :=
  ⟨Nat.le_of_eq (Nat.zero_add _), fun _ _ => .stays⟩

theorem token {t : Token} : Paid P (t :: ts) (reading ts) [] := by
  have htaken : 0 + 0 + ts.length + 1 ≤ (t :: ts).length + 0 := by
    rw [List.length_cons]
    omega
  exact ⟨Nat.le_of_succ_le htaken, fun _ _ => .takes htaken⟩

/-- A fault is paid for by the token that it skips, or owed. -/
theorem fault (wanted : Wanted) : Paid P ts (broken ⟨wanted, ts⟩ (resync ts)) [] := by
  refine ⟨?_, fun _ _ => .breaks wanted⟩
  show 0 + 1 + (resync ts).length ≤ ts.length + if ts = [] then 1 else 0
  have hskip := length_resync_le ts
  split
  next hts =>
    rw [hts] at hskip ⊢
    exact Nat.add_le_add_left hskip 1
  next hts =>
    have hpos : 0 < ts.length := List.length_pos_iff.2 hts
    omega

/-- What was read without a fault in the end owes nothing, so faults behind it have tokens of their
own; and a broken cursor meets no more. -/
theorem behind (hfirst : Paid a ts c₁ hs₁) (hsecond : ∀ us, c₁ = reading us → Paid b us c' hs₂)
    (hbroken : ∀ hole after, c₁ = broken hole after → c' = c₁ ∧ hs₂ = [])
    (hprompt : P.prompt = true → a.prompt = true)
    (hnext : P.prompt = true → ts ≠ [] → c₁ = reading ts → Starts ts c' hs₂) :
    Paid P ts c' (hs₁ ++ hs₂) := by
  cases c₁ with
  | broken hole after =>
      obtain ⟨rfl, rfl⟩ := hbroken hole after rfl
      rw [List.append_nil]
      exact ⟨hfirst.covered, fun hP => hfirst.starts (hprompt hP)⟩
  | reading us =>
      have h₁ : hs₁.length + 0 + us.length ≤ ts.length + 0 := hfirst.covered
      have h₂ := (hsecond us rfl).covered
      refine ⟨by rw [List.length_append]; omega, fun hP hts => ?_⟩
      cases hfirst.starts (hprompt hP) hts with
      | stays => exact hnext hP hts rfl
      | takes h =>
          have htaken : hs₁.length + 0 + us.length + 1 ≤ ts.length + 0 := h
          exact .takes (by rw [List.length_append]; omega)

/-- A part that is recovered from pays for its own fault, and owes nothing to what is behind. -/
theorem mend (hts : ts ≠ []) (hfirst : Starts ts c₁ hs₁)
    (hsecond : Paid (.recover ahead a) c₁.unread c' hs₂) :
    Paid (.recover ahead a) ts c' (hs₁ ++ c₁.hole?.toList ++ hs₂) := by
  refine ⟨?_, fun hP => nomatch hP⟩
  have h₁ : hs₁.length + c₁.hole?.toList.length + c₁.unread.length ≤ ts.length :=
    hfirst.covered hts
  have h₂ := hsecond.covered
  rw [List.length_append, List.length_append]
  omega

end Paid

/-- **Every fault is paid for.** -/
theorem Follows.paid {P : Plan} {ts : List Token} {c' : Cursor} {hs : List Hole}
    (h : Follows P (reading ts) c' hs) (hP : P.guarded = true) : Paid P ts c' hs := by
  generalize hc : reading ts = c at h
  induction h generalizing ts with
  | idle => cases hc
  | empty =>
      cases hc
      exact .stays
  | token _ =>
      cases hc
      exact .token
  | fault _ =>
      cases hc
      exact .fault _
  | @rule n _ _ _ _ ih =>
      have hpaid := ih (guarded_plan n) hc
      exact ⟨hpaid.covered, fun hprompt => hpaid.starts (prompt_plan hprompt)⟩
  | first _ _ ih =>
      have hpaid := ih (Bool.and_eq_true_iff.1 hP).1 hc
      exact ⟨hpaid.covered, fun hprompt => hpaid.starts (Bool.and_eq_true_iff.1 hprompt).1⟩
  | second _ _ ih =>
      have hpaid := ih (Bool.and_eq_true_iff.1 hP).2 hc
      exact ⟨hpaid.covered, fun hprompt => hpaid.starts (Bool.and_eq_true_iff.1 hprompt).2⟩
  | barring _ _ ih =>
      have hpaid := ih hP hc
      exact ⟨hpaid.covered, hpaid.starts⟩
  | done _ =>
      cases hc
      exact .stays
  | stop _ =>
      cases hc
      exact .stays
  | @seq a b us c₁ c₂ _ _ h₁ h₂ ih₁ ih₂ =>
      cases hc
      obtain ⟨ha, hb⟩ := Bool.and_eq_true_iff.1 hP
      have hsecond : ∀ vs, c₁ = reading vs → Paid b vs c₂ _ := fun vs hvs => ih₂ hb hvs.symm
      refine (ih₁ ha rfl).behind hsecond (fun hole after hbroken => ?_)
        (fun hprompt => (Bool.and_eq_true_iff.1 hprompt).1) fun hprompt hts hstays => ?_
      · subst hbroken
        exact h₂.of_broken
      · rcases Bool.or_eq_true_iff.1 (Bool.and_eq_true_iff.1 hprompt).2 with hsolid | hlate
        · -- A part that cannot be empty does not stay in front of a token.
          have hless := h₁.size_le_residue hsolid
          rw [hstays, Cursor.size_reading, Cursor.residue_reading] at hless
          have hpos := List.length_pos_iff.2 hts
          omega
        · exact (hsecond us hstays).starts hlate hts
  | @more ahead a us c₁ c₂ _ _ _ h₁ h₂ ih₁ ih₂ =>
      cases hc
      have hsecond : ∀ vs, c₁ = reading vs → Paid (.many ahead a) vs c₂ _ :=
        fun vs hvs => ih₂ hP hvs.symm
      refine (ih₁ hP rfl).behind hsecond (fun hole after hbroken => ?_) id
        fun hprompt hts hstays => (hsecond us hstays).starts hprompt hts
      subst hbroken
      exact h₂.of_broken
  | @mend ahead a us c₁ _ _ _ hahead _ _ ih₁ ih₂ =>
      cases hc
      obtain ⟨hpart, hinner⟩ := Bool.and_eq_true_iff.1 hP
      obtain ⟨hend, hprompt⟩ := Bool.and_eq_true_iff.1 hpart
      have hts : us ≠ [] := by
        rintro rfl
        rw [show ahead [] = true from hahead] at hend
        cases hend
      exact .mend hts ((ih₁ hinner rfl).starts hprompt hts) (ih₂ hP rfl)

/-! ## Where faults lie -/

/-- The first fault lies in front of the second, or both lie at the end. -/
def Hole.Precedes (first second : Hole) : Prop := second.ahead.length ≤ first.ahead.length - 1

namespace Follows

variable {P : Plan} {c c' : Cursor} {ts : List Token} {hs : List Hole}

theorem size_le (h : Follows P c c' hs) : c'.size ≤ c.size := h.unread_suffix.length_le

/-- Every fault lies at a place that was still ahead, the last one too if it is not recovered
from. -/
theorem ahead_le (h : Follows P (reading ts) c' hs) :
    ∀ hole ∈ hs ++ c'.hole?.toList, hole.ahead.length ≤ ts.length := by
  intro hole hm
  rcases List.mem_append.1 hm with hm | hm
  · exact (h.ahead_suffix hole hm).length_le
  · cases c' with
    | reading us => cases hm
    | broken last after =>
        obtain rfl := List.mem_singleton.1 hm
        exact h.broken_of_reading.1.length_le

/-- A broken cursor is past its fault, but for one at the end. -/
theorem past_last (h : Follows P (reading ts) c' hs) :
    ∀ hole ∈ c'.hole?.toList, c'.size ≤ hole.ahead.length - 1 := by
  intro hole hm
  cases c' with
  | reading us => cases hm
  | broken last after =>
      obtain rfl := List.mem_singleton.1 hm
      rw [h.broken_of_reading.2]
      exact length_resync_le hole.ahead

/-- Reading goes on from where a fault was recovered from. -/
theorem past_recovered (h : Follows P c c' hs) :
    ∀ hole ∈ hs, c'.size ≤ hole.ahead.length - 1 := by
  induction h with
  | rule _ ih => exact ih
  | first _ _ ih => exact ih
  | second _ _ ih => exact ih
  | barring _ _ ih => exact ih
  | seq _ h₂ ih₁ ih₂ =>
      exact List.forall_mem_append.2 ⟨fun hole hm => Nat.le_trans h₂.size_le (ih₁ hole hm), ih₂⟩
  | more _ _ h₂ ih₁ ih₂ =>
      exact List.forall_mem_append.2 ⟨fun hole hm => Nat.le_trans h₂.size_le (ih₁ hole hm), ih₂⟩
  | mend _ h₁ h₂ ih₁ ih₂ =>
      refine List.forall_mem_append.2 ⟨List.forall_mem_append.2 ⟨?_, ?_⟩, ih₂⟩
      · exact fun hole hm => Nat.le_trans h₂.size_le (ih₁ hole hm)
      · exact fun hole hm => Nat.le_trans h₂.size_le (h₁.past_last hole hm)
  | _ => exact fun _ hm => nomatch hm

/-- The faults of a part precede those of what is read from where the part ends. -/
theorem precedes_behind {Q : Plan} {us : List Token} {d : Cursor} {gs : List Hole}
    (h : Follows P (reading ts) c' hs) (hbehind : Follows Q (reading us) d gs)
    (hus : us = c'.unread) :
    ∀ first ∈ hs ++ c'.hole?.toList, ∀ second ∈ gs ++ d.hole?.toList, first.Precedes second := by
  subst hus
  have hpast : ∀ first ∈ hs ++ c'.hole?.toList, c'.size ≤ first.ahead.length - 1 :=
    List.forall_mem_append.2 ⟨h.past_recovered, h.past_last⟩
  exact fun first hfirst second hsecond =>
    Nat.le_trans (hbehind.ahead_le second hsecond) (hpast first hfirst)

/-- Faults of one part and of another that is read behind it, if each are in order. -/
theorem in_order_append {a b : Plan} {c₁ : Cursor} {hs₁ hs₂ : List Hole}
    (h₁ : Follows a (reading ts) c₁ hs₁) (h₂ : Follows b c₁ c' hs₂)
    (hfirst : (hs₁ ++ c₁.hole?.toList).Pairwise Hole.Precedes)
    (hsecond : ∀ {us : List Token}, reading us = c₁ →
      (hs₂ ++ c'.hole?.toList).Pairwise Hole.Precedes) :
    (hs₁ ++ hs₂ ++ c'.hole?.toList).Pairwise Hole.Precedes := by
  cases c₁ with
  | broken hole after =>
      obtain ⟨rfl, rfl⟩ := h₂.of_broken
      rw [List.append_nil]
      exact hfirst
  | reading us =>
      rw [List.append_assoc]
      refine List.pairwise_append.2 ⟨(List.pairwise_append.1 hfirst).1, hsecond rfl, ?_⟩
      exact fun first hm => h₁.precedes_behind h₂ rfl first (List.mem_append_left _ hm)

/-- **Faults lie in order,** the last one too if it is not recovered from. -/
theorem in_order (h : Follows P (reading ts) c' hs) :
    (hs ++ c'.hole?.toList).Pairwise Hole.Precedes := by
  generalize hc : reading ts = c at h
  induction h generalizing ts with
  | idle => cases hc
  | fault _ => exact List.pairwise_singleton _ _
  | rule _ ih => exact ih hc
  | first _ _ ih => exact ih hc
  | second _ _ ih => exact ih hc
  | barring _ _ ih => exact ih hc
  | seq h₁ h₂ ih₁ ih₂ => exact in_order_append h₁ h₂ (ih₁ rfl) ih₂
  | more _ h₁ h₂ ih₁ ih₂ => exact in_order_append h₁ h₂ (ih₁ rfl) ih₂
  | mend _ h₁ h₂ ih₁ ih₂ =>
      rw [List.append_assoc]
      exact List.pairwise_append.2 ⟨ih₁ rfl, ih₂ rfl, h₁.precedes_behind h₂ rfl⟩
  | _ => exact List.Pairwise.nil

end Follows

/-! ## The syntactic diagnostics of an analysis -/

namespace TokenStream

variable {stream : TokenStream}

/-- An analysis reports no more faults than there are tokens. -/
theorem length_holes_le (stream : TokenStream) : stream.holes.length ≤ stream.body.length :=
  ((follows_program stream).paid rfl).covered

/-- A fault that is reported behind another lies further on, or both lie at the end. -/
theorem place_lt_place (stream : TokenStream) :
    stream.holes.Pairwise fun first second =>
      stream.place first < stream.place second ∨
        stream.place first = stream.position + stream.body.length ∧
          stream.place second = stream.position + stream.body.length := by
  have hrun := follows_program stream
  have horder : stream.holes.Pairwise Hole.Precedes := by
    have h := hrun.in_order
    rwa [Cursor.hole?, Option.toList, List.append_nil] at h
  refine horder.imp_of_mem fun {first second} hfirst hsecond hprecedes => ?_
  have hle := (hrun.ahead_suffix first hfirst).length_le
  rw [Hole.Precedes] at hprecedes
  rw [Cursor.unread] at hle
  unfold place
  omega

/-- The tokens of a stream are those of its body, and then the mark that a reader stops at. -/
theorem peek_body (stream : TokenStream) {i : Nat} (h : i ≤ stream.body.length) :
    stream.peek (i + 1) = stream.body[i]?.getD stream.stop := by
  obtain ⟨tokens, position, mark⟩ := stream
  show tokens[i]?.getD mark = _
  induction tokens generalizing i with
  | nil => rfl
  | cons t ts ih =>
      simp only [body, stop, List.takeWhile_cons, List.find?_cons] at h ih ⊢
      cases hmark : t.isEof with
      | true =>
          rw [hmark] at h
          obtain rfl : i = 0 := Nat.le_zero.1 h
          rfl
      | false =>
          rw [hmark] at h
          cases i with
          | zero => rfl
          | succ i => exact ih (Nat.le_of_succ_le_succ h)

/-- A fault is reported where the token under the cursor begins. -/
theorem location_of_hole {hole : Hole} (h : hole ∈ stream.holes) :
    ((Issue.missing hole).diagnostic stream.stop.location).location =
      (stream.peek (stream.place hole - stream.position + 1)).location := by
  have hle : stream.place hole - stream.position ≤ stream.body.length := by
    unfold place
    omega
  rw [stream.peek_body hle]
  show (hole.found?.map Token.location).getD stream.stop.location = _
  rw [Hole.found?, ahead_eq_drop h, List.head?_drop]
  cases stream.body[stream.place hole - stream.position]? <;> rfl

end TokenStream

/-- **Recovery makes progress and does not flood.**  Every syntactic diagnostic of an analysis is
placed at the token that the cursor was at; each lies behind the one before, unless both lie at the
end; and there are no more of them than tokens in front of the first end-of-file mark. -/
theorem recovery_progresses (tokens : List Token) :
    let stream := TokenStream.ofTokens tokens
    let stop := tokens.findIdx Token.isEof
    stream.faults.map Prod.snd = stream.analyze.diagnostics.filter (·.severity == .syntactic) ∧
      (∀ fault ∈ stream.faults, fault.1 ≤ stop ∧
        fault.2.location = (stream.peek (fault.1 + 1)).location) ∧
      (stream.faults.map Prod.fst).Pairwise (fun i j => i < j ∨ i = stop ∧ j = stop) ∧
      (stream.analyze.diagnostics.filter (·.severity == .syntactic)).length ≤ stop := by
  intro stream stop
  have hstop : stream.body.length = stop := length_takeWhile_not Token.isEof tokens
  have hposition : stream.position = 0 := rfl
  have horder := stream.place_lt_place
  rw [hposition, Nat.zero_add, hstop] at horder
  refine ⟨stream.diagnostics_faults, fun fault hfault => ?_, ?_, ?_⟩
  · obtain ⟨hole, hhole, rfl⟩ := List.mem_map.1 hfault
    refine ⟨?_, TokenStream.location_of_hole hhole⟩
    show stream.position + (stream.body.length - hole.ahead.length) ≤ stop
    omega
  · rw [TokenStream.faults, List.map_map]
    exact List.pairwise_map.2 horder
  · rw [← stream.diagnostics_faults, List.length_map, TokenStream.faults, List.length_map,
      ← hstop]
    exact stream.length_holes_le

end MiniC
