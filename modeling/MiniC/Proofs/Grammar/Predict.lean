import MiniC.Proofs.Grammar.First

/-!
# `MiniC.Proofs.Grammar.Predict` — plans that need to look at one token only

A plan predicts if at each of its decisions the token ahead tells the alternatives apart, given
what may lie behind the part.  Then every part that the grammar allows is read without a fault.
What may lie behind a rule is written down once, in `Rule.allows`, and is all that is asked of a
rule where it is used.

The proof that a plan is complete is an induction on how much is read.  A part of a part may be
as long as the whole only if nothing stands in front of it; so a rank, which goes down from a rule
to the rules that it may begin with, breaks the tie.

## Contents
- `Accepts`: a word is read without a fault, with one lemma per way to build a plan.
- `Rule.allows`, `Decides`, `Plan.Predicts`: what may lie behind, and decisions that are right.
- `Rule.rank`, `Complete`: the measure, and all rules below it.
- `Plan.Predicts.accepts`: **a plan that predicts is complete if the rules are that it uses.**
-/

namespace MiniC

open Cursor (reading broken)

/-! ## Words that are read without a fault -/

/-- A reader of the plan takes the word, and leaves the rest. -/
def Accepts (P : Plan) (w rest : List Token) : Prop :=
  Follows P (reading (w ++ rest)) (reading rest) []

namespace Accepts

variable {P a b : Plan} {u v w rest : List Token} {ahead : List Shape → Bool}

theorem empty : Accepts .empty [] rest := Follows.empty

theorem token {p : Shape → Bool} {t : Token} (hp : p t.shape = true) :
    Accepts (.token p) [t] rest := Follows.token hp

theorem rule {n : Rule} (h : Accepts n.plan w rest) : Accepts (.rule n) w rest := Follows.rule h

theorem seq (ha : Accepts a u (v ++ rest)) (hb : Accepts b v rest) :
    Accepts (.seq a b) (u ++ v) rest := by
  unfold Accepts
  rw [List.append_assoc]
  exact Follows.seq ha hb

theorem first (h : ahead (shapes (w ++ rest)) = true) (ha : Accepts a w rest) :
    Accepts (.choice ahead a b) w rest := Follows.first h ha

theorem second (h : ahead (shapes (w ++ rest)) = false) (hb : Accepts b w rest) :
    Accepts (.choice ahead a b) w rest := Follows.second h hb

theorem done (h : ahead (shapes rest) = false) : Accepts (.many ahead a) [] rest :=
  Follows.done h

theorem more (h : ahead (shapes (u ++ (v ++ rest))) = true) (ha : Accepts a u (v ++ rest))
    (hv : Accepts (.many ahead a) v rest) : Accepts (.many ahead a) (u ++ v) rest := by
  unfold Accepts
  rw [List.append_assoc]
  exact Follows.more h ha hv

theorem stop (h : ahead (shapes rest) = false) : Accepts (.recover ahead a) [] rest :=
  Follows.stop h

theorem mend (h : ahead (shapes (u ++ (v ++ rest))) = true) (ha : Accepts a u (v ++ rest))
    (hv : Accepts (.recover ahead a) v rest) : Accepts (.recover ahead a) (u ++ v) rest := by
  unfold Accepts
  rw [List.append_assoc]
  exact Follows.mend h ha hv

theorem barring {p : Shape → Bool} (hp : ∀ t ∈ w.head?, p t.shape = false) (hw : w ≠ [])
    (h : Accepts a w rest) : Accepts (.barring p a) w rest := by
  refine Follows.barring (fun t ht => hp t ?_) h
  cases w with
  | nil => exact absurd rfl hw
  | cons s w => exact ht

/-- Tokens are read one by one up to the first that does not fit. -/
theorem run {p : Kind → Bool} (hw : ∀ t ∈ w, p t.kind = true)
    (hrest : (front rest).any p = false) : Accepts (Plan.run p) w rest := by
  induction w with
  | nil => exact .done (by rw [sees_shapes, hrest])
  | cons t w ih =>
      rw [List.forall_mem_cons] at hw
      exact .more (u := [t]) hw.1 (.token hw.1) (ih hw.2)

end Accepts

/-! ## Decisions that are right -/

/-- Whether an expression may end in front of what lies ahead. -/
def Kind.endsExpression (kind : Kind) : Bool :=
  kind ∈ ([.punct .comma, .punct .semicolon, .punct .colon, .punct .rparen, .punct .rbracket] :
    List Kind)

/-- Whether an operand of a level that is looser than the rank may end in front of the kind. -/
def Kind.endsOperation (kind : Kind) (rank : Nat) : Bool :=
  kind.endsExpression || kind == .punct .question ||
    [Tier.logical, .relational, .additive, .multiplicative].any fun tier =>
      rank < tier.rank + 1 && tier.has kind

/-- What may lie behind a part that the rule stands for. -/
def Rule.allows : Rule → Option Kind → Bool
  | program, ahead => ahead.isNone
  | params, ahead => ahead == some (.punct .rparen)
  | param, ahead => ahead.any fun kind => kind == .punct .comma || kind == .punct .rparen
  | declarator, ahead => ahead.any Kind.endsExpression
  | arrayOpt, ahead => !ahead.any (· == .punct .lbracket)
  | typeSpec, ahead => !ahead.any Kind.isTypeWord
  | assignment, ahead => ahead.any Kind.endsExpression
  | lvalue, ahead => !ahead.any Kind.opensAccess
  | expression, ahead => ahead.any Kind.endsExpression
  | operation tier, ahead => ahead.any (·.endsOperation (tier.rank + 1))
  | factor, ahead => ahead.any (·.endsOperation 0)
  | element, ahead => ahead.any (·.endsOperation 0)
  | statement, ahead => !ahead.any (· == .keyword .kwElse)
  | body, ahead => !ahead.any (· == .keyword .kwElse)
  | ifElse, ahead => !ahead.any (· == .keyword .kwElse)
  | whileLoop, ahead => !ahead.any (· == .keyword .kwElse)
  | forLoop, ahead => !ahead.any (· == .keyword .kwElse)
  | _, _ => true

/-- The decision tells what `yes` allows to lie ahead from what `no` allows. -/
def Decides (ahead : List Shape → Bool) (yes no : Option Kind → Bool) : Prop :=
  ∀ ts, (yes (front ts) = true → ahead (shapes ts) = true) ∧
    (no (front ts) = true → ahead (shapes ts) = false)

section

variable {p : Kind → Bool} {kind : Kind} {yes no : Option Kind → Bool}

theorem decides_sees :
    Decides (sees p) yes no ↔
      ∀ o, (yes o = true → o.any p = true) ∧ (no o = true → o.any p = false) := by
  constructor
  · intro h o
    cases o with
    | none => exact h []
    | some k => exact h [⟨k, "", .start⟩]
  · intro h ts
    rw [sees_shapes]
    exact h (front ts)

theorem decides_seesNo :
    Decides (seesNo kind) yes no ↔
      ∀ o, (yes o = true → (!o.any (· == kind)) = true) ∧
        (no o = true → (!o.any (· == kind)) = false) := by
  constructor
  · intro h o
    cases o with
    | none => exact h []
    | some k => exact h [⟨k, "", .start⟩]
  · intro h ts
    rw [seesNo, sees_shapes]
    exact h (front ts)

instance : Decidable (Decides (sees p) yes no) := decidable_of_iff' _ decides_sees

instance : Decidable (Decides (seesNo kind) yes no) := decidable_of_iff' _ decides_seesNo

end

/-- At every decision of the plan, the token ahead tells the alternatives apart, if `F` tells what
may lie behind the part. -/
def Plan.Predicts : Plan → (Option Kind → Bool) → Prop
  | empty, _ => True
  | token _, _ => True
  | rule n, F => ∀ o, F o = true → n.allows o = true
  | seq first second, F => first.Predicts (second.first F) ∧ second.Predicts F
  | choice ahead first second, F =>
      Decides ahead (first.first F) (second.first F) ∧ first.Predicts F ∧ second.Predicts F
  | many ahead part, F =>
      Decides ahead (part.first ((many ahead part).first F)) F ∧
        part.Predicts ((many ahead part).first F)
  | recover ahead part, F =>
      Decides ahead (part.first ((recover ahead part).first F)) F ∧
        part.Predicts ((recover ahead part).first F)
  | barring _ part, F => part.solid = true ∧ part.Predicts F

namespace Plan

variable {F : Option Kind → Bool} {ahead : List Shape → Bool} {p : Shape → Bool} {a b : Plan}

instance : Decidable (empty.Predicts F) := inferInstanceAs (Decidable True)

instance : Decidable ((token p).Predicts F) := inferInstanceAs (Decidable True)

instance {n : Rule} : Decidable ((rule n).Predicts F) :=
  inferInstanceAs (Decidable (∀ o, F o = true → n.allows o = true))

instance [Decidable (a.Predicts (b.first F))] [Decidable (b.Predicts F)] :
    Decidable ((seq a b).Predicts F) := inferInstanceAs (Decidable (_ ∧ _))

instance [Decidable (Decides ahead (a.first F) (b.first F))] [Decidable (a.Predicts F)]
    [Decidable (b.Predicts F)] : Decidable ((choice ahead a b).Predicts F) :=
  inferInstanceAs (Decidable (_ ∧ _ ∧ _))

instance [Decidable (Decides ahead (a.first ((many ahead a).first F)) F)]
    [Decidable (a.Predicts ((many ahead a).first F))] : Decidable ((many ahead a).Predicts F) :=
  inferInstanceAs (Decidable (_ ∧ _))

instance [Decidable (Decides ahead (a.first ((recover ahead a).first F)) F)]
    [Decidable (a.Predicts ((recover ahead a).first F))] :
    Decidable ((recover ahead a).Predicts F) :=
  inferInstanceAs (Decidable (_ ∧ _))

instance [Decidable (a.Predicts F)] : Decidable ((barring p a).Predicts F) :=
  inferInstanceAs (Decidable (_ ∧ _))

end Plan

/-- Whether the token ahead is all that a reader of the rule needs to look at. -/
def Rule.isPlain (n : Rule) : Bool :=
  n ∉ ([program, params, declaration, statement, body, ifElse, whileLoop, forLoop, factor,
    element] : List Rule)

open Plan in
/-- **For most rules, the token ahead tells the alternatives apart.** -/
theorem predicts_plan {n : Rule} (hn : n.isPlain = true) : n.plan.Predicts n.allows := by
  cases n with
  | program | params | declaration | statement | body | ifElse | whileLoop | forLoop | factor
  | element => cases hn
  | operation tier =>
      cases tier <;>
      · simp only [Rule.plan, list, further, operand, kind]
        decide
  | _ =>
      simp only [Rule.plan, typed, header, condition, paramArray, initializer, callEnd, clause,
        writing, subscript, accesses, commaList, list, further, opt, run, ident, literal, mark,
        sign, word, kind]
      decide

/-! ## The measure -/

/-- A rule is above all rules that a part it stands for may begin with. -/
def Rule.rank : Rule → Nat
  | expression => 8
  | operation tier => 4 + tier.rank
  | factor => 3
  | element => 2
  | assignment => 2
  | field => 2
  | functionDecl => 2
  | declaration => 2
  | param => 2
  | params => 3
  | statement => 3
  | body => 4
  | program => 3
  | _ => 1

theorem Rule.rank_lt (n : Rule) : n.rank < 16 := by
  cases n with
  | operation tier => cases tier <;> decide
  | _ => decide

/-- The highest rank of a rule that a part which is read by the plan may begin with. -/
def Plan.rank : Plan → Nat
  | empty => 0
  | token _ => 0
  | rule n => n.rank
  | seq first second => if first.solid then first.rank else max first.rank second.rank
  | choice _ first second => max first.rank second.rank
  | many _ part => part.rank
  | recover _ part => part.rank
  | barring _ part => part.rank

theorem Plan.rank_lt (P : Plan) : P.rank < 16 := by
  induction P with
  | rule n => exact n.rank_lt
  | seq first second ih₁ ih₂ =>
      rw [Plan.rank]
      split
      · exact ih₁
      · exact Nat.max_lt.2 ⟨ih₁, ih₂⟩
  | choice _ first second ih₁ ih₂ => exact Nat.max_lt.2 ⟨ih₁, ih₂⟩
  | many _ part ih => exact ih
  | recover _ part ih => exact ih
  | barring _ part ih => exact ih
  | _ => exact Nat.succ_pos _

theorem rank_plan (n : Rule) : n.plan.rank < n.rank := by
  cases n with
  | operation tier => cases tier <;> decide
  | _ => decide

/-- How much there is to read: the length counts first, then the rank. -/
def weight (w : List Token) (rank : Nat) : Nat := 16 * w.length + rank

/-- Every word of less weight that a rule stands for is read without a fault. -/
def Complete (bound : Nat) : Prop :=
  ∀ (n : Rule) (w rest : List Token), weight w n.rank < bound → Derives (.rule n) w →
    n.allows (front rest) = true → Accepts (.rule n) w rest

/-! ## Completeness of plans that predict -/

section

variable {bound : Nat}

theorem weight_mono {u w : List Token} {r s : Nat} (hlen : u.length ≤ w.length) (hrank : r ≤ s)
    (hw : weight w s < bound) : weight u r < bound := by
  unfold weight at *
  omega

theorem weight_below {u w : List Token} {r s : Nat} (hlen : u.length ≤ w.length) (hrank : s < r)
    (hw : weight w r ≤ bound) : weight u s < bound := by
  unfold weight at *
  omega

/-- Behind a token there is less to read, of whatever rank it is. -/
theorem weight_lt {u w : List Token} {r s : Nat} (hlen : u.length < w.length) (hr : r < 16)
    (hw : weight w s < bound) : weight u r < bound := by
  unfold weight at *
  omega

/-- The second of two parts weighs no more than both. -/
theorem weight_second {a b : Plan} {u v : List Token} (hu : Derives a.form u)
    (hw : weight (u ++ v) (Plan.seq a b).rank < bound) : weight v b.rank < bound := by
  have hlen : (u ++ v).length = u.length + v.length := List.length_append
  by_cases hsolid : a.solid = true
  · have hpos := List.length_pos_iff.2 (hu.ne_nil hsolid)
    exact weight_lt (by omega) b.rank_lt hw
  · rw [Plan.rank, if_neg hsolid] at hw
    exact weight_mono (by omega) (Nat.le_max_right _ _) hw

/-- The first of two parts weighs no more than both. -/
theorem weight_first {a b : Plan} {u v : List Token}
    (hw : weight (u ++ v) (Plan.seq a b).rank < bound) : weight u a.rank < bound := by
  have hlen : (u ++ v).length = u.length + v.length := List.length_append
  refine weight_mono (by omega) ?_ hw
  rw [Plan.rank]
  split
  · exact Nat.le_refl _
  · exact Nat.le_max_left _ _

variable (hrules : Complete bound)

include hrules

/-- **A plan that predicts is complete if the rules are that it uses.** -/
theorem Plan.Predicts.accepts {P : Plan} {F : Option Kind → Bool} {w rest : List Token}
    (hP : P.Predicts F) (hd : Derives P.form w) (hw : weight w P.rank < bound)
    (hF : F (front rest) = true) : Accepts P w rest := by
  induction P generalizing F w rest with
  | empty =>
      obtain rfl := derives_empty.1 hd
      exact .empty
  | token p =>
      obtain ⟨t, rfl, ht⟩ := derives_token.1 hd
      exact .token ht
  | rule n => exact hrules n w rest hw hd (hP _ hF)
  | seq a b iha ihb =>
      obtain ⟨u, v, rfl, hu, hv⟩ := derives_seq.1 hd
      exact .seq (iha hP.1 hu (weight_first hw) (hv.first_append hF))
        (ihb hP.2 hv (weight_second hu hw) hF)
  | choice ahead a b iha ihb =>
      obtain ⟨hdecides, ha, hb⟩ := hP
      rw [Plan.rank] at hw
      rcases derives_choice.1 hd with h | h
      · exact .first ((hdecides _).1 (h.first_append hF))
          (iha ha h (weight_mono (Nat.le_refl _) (Nat.le_max_left _ _) hw) hF)
      · exact .second ((hdecides _).2 (h.first_append hF))
          (ihb hb h (weight_mono (Nat.le_refl _) (Nat.le_max_right _ _) hw) hF)
  | many ahead a iha =>
      obtain ⟨hdecides, ha⟩ := hP
      generalize hf : (Plan.many ahead a).form = f at hd
      induction hd with
      | done => exact .done ((hdecides _).2 hF)
      | @more _ u v hu hv _ ih =>
          cases hf
          have hlen : (u ++ v).length = u.length + v.length := List.length_append
          have hbehind := hv.first_append (P := .many ahead a) hF
          exact .more ((hdecides _).1 (hu.first_append hbehind))
            (iha ha hu (weight_mono (by omega) (Nat.le_refl _) hw) hbehind)
            (ih (weight_mono (by omega) (Nat.le_refl _) hw) rfl)
      | _ => cases hf
  | recover ahead a iha =>
      obtain ⟨hdecides, ha⟩ := hP
      generalize hf : (Plan.recover ahead a).form = f at hd
      induction hd with
      | done => exact .stop ((hdecides _).2 hF)
      | @more _ u v hu hv _ ih =>
          cases hf
          have hlen : (u ++ v).length = u.length + v.length := List.length_append
          have hbehind := hv.first_append (P := .recover ahead a) hF
          exact .mend ((hdecides _).1 (hu.first_append hbehind))
            (iha ha hu (weight_mono (by omega) (Nat.le_refl _) hw) hbehind)
            (ih (weight_mono (by omega) (Nat.le_refl _) hw) rfl)
      | _ => cases hf
  | barring p a iha =>
      obtain ⟨hhead, h⟩ := derives_barring.1 hd
      exact .barring hhead (h.ne_nil hP.1) (iha hP.2 h hw hF)

/-- A rule is complete if its plan predicts. -/
theorem Complete.accepts_rule {n : Rule} {w rest : List Token} (hn : n.plan.Predicts n.allows)
    (hd : Derives (.rule n) w) (hw : weight w n.rank ≤ bound)
    (hF : n.allows (front rest) = true) : Accepts (.rule n) w rest := by
  have hrank := rank_plan n
  have hder : Derives n.plan.form w := by
    rw [form_plan]
    exact derives_rule.1 hd
  exact .rule (hn.accepts hrules hder (weight_below (Nat.le_refl _) hrank hw) hF)

end

end MiniC
