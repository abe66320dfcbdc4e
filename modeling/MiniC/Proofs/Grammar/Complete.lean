import MiniC.Proofs.Grammar.Closed

/-!
# `MiniC.Proofs.Grammar.Complete` — whatever the grammar allows is read without a fault

A statement that ends with an open `if` takes an `else` that stands behind it, even one that the
grammar gives to a statement around it.  So what is shown of such a statement is more: in front of
any number of branches, it is read up to some of them, which are no more than there were.  In
front of none, it is read as it is.

## Contents
- `ElseChain`, `Settles`: branches, and a word that may take some of them.
- `settles_ifElse`, `settles_statement`, …: the statements that may take some.
- `accepts_of_derives`: **every word that a rule stands for is read without a fault.**
-/

namespace MiniC

open Cursor (reading)

variable {bound : Nat} {w rest : List Token}

/-! ## Branches that are left -/

/-- Branches that open statements may take: as many times an `else` and a body. -/
inductive ElseChain : Nat → List Token → Prop
  | nil : ElseChain 0 []
  | cons {k : Nat} {t : Token} {body chain : List Token} :
      t.kind = .keyword .kwElse → Derives (.rule .body) body → ElseChain k chain →
      ElseChain (k + 1) (t :: (body ++ chain))

/-- A reader of the plan takes the word, and perhaps some of the branches behind it. -/
def Settles (P : Plan) (w chain : List Token) (k : Nat) (rest : List Token) : Prop :=
  ∃ j left, j ≤ k ∧ ElseChain j left ∧
    Follows P (reading (w ++ (chain ++ rest))) (reading (left ++ rest)) []

namespace Settles

variable {P a b : Plan} {u v chain : List Token} {k : Nat}

theorem of_accepts (h : Accepts P w (chain ++ rest)) (hchain : ElseChain k chain) :
    Settles P w chain k rest :=
  ⟨k, chain, Nat.le_refl _, hchain, h⟩

theorem seq (ha : Accepts a u (v ++ (chain ++ rest))) (hb : Settles b v chain k rest) :
    Settles (.seq a b) (u ++ v) chain k rest := by
  obtain ⟨j, left, hj, hleft, hfollows⟩ := hb
  refine ⟨j, left, hj, hleft, ?_⟩
  rw [List.append_assoc]
  exact Follows.seq ha hfollows

theorem rule {n : Rule} (h : Settles n.plan w chain k rest) : Settles (.rule n) w chain k rest := by
  obtain ⟨j, left, hj, hleft, hfollows⟩ := h
  exact ⟨j, left, hj, hleft, .rule hfollows⟩

/-- Without branches behind it, the word is all that is taken. -/
theorem accepts (h : Settles P w [] 0 rest) : Accepts P w rest := by
  obtain ⟨j, left, hj, hleft, hfollows⟩ := h
  cases hleft with
  | nil => exact hfollows
  | cons _ _ _ => cases hj

/-- A statement is read as the one that is tried. -/
theorem statement (hfind : (Plan.statements.find? (·.1 (shapes (w ++ (chain ++ rest))))).map
      Prod.snd = some P) (h : Settles P w chain k rest) :
    Settles (.rule .statement) w chain k rest := by
  obtain ⟨j, left, hj, hleft, hfollows⟩ := h
  refine ⟨j, left, hj, hleft, .rule (.select ?_)⟩
  rw [hfind]
  exact hfollows

end Settles

/-- Every open statement of less weight, together with the branches behind it, is read without a
fault. -/
def CompleteOpen (bound : Nat) : Prop :=
  ∀ (n : Rule) (w chain rest : List Token) (k : Nat), n.isOpen = true →
    weight (w ++ chain) n.rank < bound → Derives (.rule n) w → ElseChain k chain →
    sees (· == .keyword .kwElse) (shapes rest) = false → Settles (.rule n) w chain k rest

/-- The parts in front of the last one predict. -/
def Plan.Leads (last : Plan) : List Plan → Prop
  | [] => True
  | part :: parts =>
      part.Predicts ((parts.foldr seq last).first fun _ => true) ∧ last.Leads parts

section

variable {chain : List Token} {k : Nat} (hrules : Complete bound)

include hrules

/-- What stands in front of the last part is read without a fault. -/
theorem Settles.behind {parts : List Plan} {last : Plan} (hparts : last.Leads parts)
    (hd : Derives (parts.foldr .seq last).form w) (hw : weight w 16 ≤ bound)
    (hlast : ∀ v, Derives last.form v → v.length ≤ w.length → Settles last v chain k rest) :
    Settles (parts.foldr .seq last) w chain k rest := by
  induction parts generalizing w with
  | nil => exact hlast w hd (Nat.le_refl _)
  | cons part parts ih =>
      obtain ⟨u, v, rfl, hu, hv⟩ := derives_seq.1 hd
      have hlen : (u ++ v).length = u.length + v.length := List.length_append
      have hv' : weight v 16 ≤ bound := by
        unfold weight at *
        omega
      refine .seq (hparts.1.accepts hrules hu (weight_below (by omega) part.rank_lt hw)
        (hv.first_append rfl)) (ih hparts.2 hv hv' fun b hb hle => hlast b hb (by omega))

/-- An open statement that begins with a keyword is as good as its last part. -/
theorem settles_keyword {n : Rule} {word : Keyword} {parts : List Plan} {last : Plan}
    (hplan : n.plan = .seq (.word word) (parts.foldr .seq last)) (hparts : last.Leads parts)
    (hd : Derives (.rule n) w) (hw : weight (w ++ chain) 1 ≤ bound)
    (hlast : ∀ v, Derives last.form v → weight (v ++ chain) 16 ≤ bound →
      Settles last v chain k rest) : Settles (.rule n) w chain k rest := by
  rw [derives_plan, hplan] at hd
  obtain ⟨t, v, rfl, ht, hv⟩ := derives_token_seq.1 hd
  refine .rule ?_
  rw [hplan]
  refine .seq (u := [t]) (.token ht) (.behind hrules hparts hv ?_ fun b hb hle => hlast b hb ?_)
  · simp only [weight, List.length_append, List.length_cons] at hw ⊢
    omega
  · simp only [weight, List.length_append, List.length_cons] at hw ⊢
    omega

variable (hopen : CompleteOpen bound)

include hopen

theorem settles_whileLoop (hd : Derives (.rule .whileLoop) w) (hw : weight (w ++ chain) 1 ≤ bound)
    (hchain : ElseChain k chain) (hrest : sees (· == .keyword .kwElse) (shapes rest) = false) :
    Settles (.rule .whileLoop) w chain k rest := by
  have hparts : (Plan.rule .body).Leads [.mark .lparen, .rule .expression, .mark .rparen] :=
    ⟨trivial, by simp only [List.foldr, Plan.mark, Plan.kind]; decide, trivial, trivial⟩
  exact settles_keyword (n := .whileLoop) hrules rfl hparts hd hw fun v hv hw' =>
    hopen .body v chain rest k rfl (weight_below (Nat.le_refl _) (by decide) hw') hv hchain hrest

theorem settles_forLoop (hd : Derives (.rule .forLoop) w) (hw : weight (w ++ chain) 1 ≤ bound)
    (hchain : ElseChain k chain) (hrest : sees (· == .keyword .kwElse) (shapes rest) = false) :
    Settles (.rule .forLoop) w chain k rest := by
  have hparts : (Plan.rule .body).Leads [.mark .lparen, .forInit,
      .opt (seesNo (.punct .semicolon)) (.rule .expression), .mark .semicolon,
      .opt (seesNo (.punct .rparen)) (.rule .assignment), .mark .rparen] := by
    refine ⟨trivial, ?_, ?_, trivial, ?_, trivial, trivial⟩ <;>
    · simp only [List.foldr, Plan.forInit, Plan.opt, Plan.mark, Plan.kind]
      decide
  exact settles_keyword (n := .forLoop) hrules rfl hparts hd hw fun v hv hw' =>
    hopen .body v chain rest k rfl (weight_below (Nat.le_refl _) (by decide) hw') hv hchain hrest

omit hrules in
/-- An `if` takes the next branch behind its body, whichever statement the grammar gives it to. -/
theorem follows_branch {left : List Token} {j : Nat} (hleft : ElseChain j left) (hj : j ≤ k + 1)
    (hw : weight left 4 ≤ bound)
    (hrest : sees (· == .keyword .kwElse) (shapes rest) = false) :
    ∃ i less, i ≤ k ∧ ElseChain i less ∧
      Follows (.opt (sees (· == .keyword .kwElse)) (.seq (.word .kwElse) (.rule .body)))
        (reading (left ++ rest)) (reading (less ++ rest)) [] := by
  cases hleft with
  | nil => exact ⟨0, [], Nat.zero_le _, .nil, .second hrest .empty⟩
  | @cons j t body chain ht hbody hchain =>
      have hw' : weight (body ++ chain) 4 < bound := by
        simp only [weight, List.length_cons] at hw ⊢
        omega
      obtain ⟨i, less, hi, hless, hfollows⟩ :=
        hopen .body body chain rest j rfl hw' hbody hchain hrest
      have hword : (t.kind == .keyword .kwElse) = true := by simp [ht]
      rw [← List.append_assoc] at hfollows
      exact ⟨i, less, by omega, hless, .first hword (.seq (.token hword) hfollows)⟩

theorem settles_ifElse (hd : Derives (.rule .ifElse) w) (hw : weight (w ++ chain) 1 ≤ bound)
    (hchain : ElseChain k chain) (hrest : sees (· == .keyword .kwElse) (shapes rest) = false) :
    Settles (.rule .ifElse) w chain k rest := by
  have hparts : (Plan.seq (.rule .body) (.opt (sees (· == .keyword .kwElse))
      (.seq (.word .kwElse) (.rule .body)))).Leads
      [.mark .lparen, .rule .expression, .mark .rparen] :=
    ⟨trivial, by simp only [List.foldr, Plan.opt, Plan.word, Plan.mark, Plan.kind]; decide,
      trivial, trivial⟩
  refine settles_keyword (n := .ifElse) hrules rfl hparts hd hw fun v hv hw' => ?_
  obtain ⟨body, branch, rfl, hbody, hbranch⟩ := derives_seq.1 hv
  -- The branch of this `if` is one more for the statements in its body to take.
  have hall : ∃ m, m ≤ k + 1 ∧ ElseChain m (branch ++ chain) := by
    rcases derives_opt.1 hbranch with hbranch | rfl
    · obtain ⟨t, other, rfl, ht, hother⟩ := derives_token_seq.1 hbranch
      exact ⟨k + 1, Nat.le_refl _, .cons (by simpa using ht) hother hchain⟩
    · exact ⟨k, Nat.le_succ k, hchain⟩
  obtain ⟨m, hm, hall⟩ := hall
  have hw₁ : weight (body ++ (branch ++ chain)) 4 < bound := by
    rw [← List.append_assoc]
    exact weight_below (Nat.le_refl _) (by decide) hw'
  obtain ⟨j, left, hj, hleft, hfirst⟩ :=
    hopen .body body (branch ++ chain) rest m rfl hw₁ hbody hall hrest
  have hlen := hfirst.unread_suffix.length_le
  have hw₂ : weight left 4 ≤ bound := by
    simp only [Cursor.unread, weight, List.length_append] at hlen hw' ⊢
    omega
  obtain ⟨i, less, hi, hless, hsecond⟩ :=
    follows_branch hopen hleft (Nat.le_trans hj hm) hw₂ hrest
  refine ⟨i, less, hi, hless, ?_⟩
  have hboth := Follows.seq hfirst hsecond
  simpa only [List.append_assoc, List.append_nil] using hboth

/-! ## Statements -/

omit hrules hopen in
/-- A statement that is told by the token that it begins with. -/
theorem settles_opened {P : Plan} (kind : Kind) (hd : Derives P.form w) (hP : P.solid = true)
    (hstarts : ∀ k, P.starts k = true → k = kind) (hopens : kind.statement? = some P)
    (h : Settles P w chain k rest) : Settles (.rule .statement) w chain k rest := by
  cases w with
  | nil => exact absurd rfl (hd.ne_nil hP)
  | cons t w =>
      have hkind : t.kind = kind := hstarts _ (hd.starts t rfl)
      exact .statement (find_statement_of_kind (hkind ▸ hopens)) h

omit hopen in
theorem settles_assignment (hd : Derives Plan.assignmentStatement.form w)
    (hw : weight w 3 ≤ bound) (hchain : ElseChain k chain) :
    Settles (.rule .statement) w chain k rest := by
  have hpredicts : Plan.assignmentStatement.Predicts fun _ => true := by
    simp only [Plan.assignmentStatement, Plan.mark, Plan.kind]
    decide
  have haccepts : ∀ rest, Accepts .assignmentStatement w rest := fun rest =>
    hpredicts.accepts hrules hd (weight_below (Nat.le_refl _) (by decide) hw) rfl
  refine .statement ?_ (.of_accepts (haccepts _) hchain)
  obtain ⟨hfree, hassignment⟩ := derives_barring.1 hd
  have hstarts := Derives.starts (P := .assignmentStatement) hd
  have hcall : seesCall (shapes (w ++ (chain ++ rest))) = false :=
    not_seesCall_assignment hassignment
  cases w with
  | nil => exact absurd rfl (Derives.ne_nil (P := .assignmentStatement) hd rfl)
  | cons t w =>
      by_cases hkind : t.kind = .ident
      · have hnone : t.shape.builtin = none := by simpa using hfree t rfl
        exact find_statement_of_name hkind hnone hcall
      · refine find_statement_of_kind ?_
        have hother := (by decide : ∀ k, Plan.assignmentStatement.starts k = true →
          k = .ident ∨ k = .operator .star ∨ k = .operator .plusPlus ∨
            k = .operator .minusMinus) _ (hstarts t rfl)
        rcases hother with h | h | h | h
        · exact absurd h hkind
        · rw [h]; rfl
        · rw [h]; rfl
        · rw [h]; rfl

omit hopen in
theorem settles_call (hd : Derives Plan.callStatement.form w) (hw : weight w 3 ≤ bound)
    (hchain : ElseChain k chain) : Settles (.rule .statement) w chain k rest := by
  have hpredicts : Plan.callStatement.Predicts fun _ => true := by
    simp only [Plan.callStatement, Plan.mark, Plan.kind]
    decide
  have haccepts : ∀ rest, Accepts .callStatement w rest := fun rest =>
    hpredicts.accepts hrules hd (weight_below (Nat.le_refl _) (by decide) hw) rfl
  refine .statement ?_ (.of_accepts (haccepts _) hchain)
  obtain ⟨hfree, hboth⟩ := derives_barring.1 hd
  obtain ⟨call, semicolon, rfl, hcall, -⟩ := derives_seq.1 hboth
  have hsees : seesCall (shapes (call ++ (semicolon ++ (chain ++ rest)))) = true :=
    seesCall_functionCall hcall
  obtain ⟨name, v, rfl, hname, -⟩ := derives_token_seq.1 (derives_plan.1 hcall)
  have hnone : name.shape.builtin = none := by simpa using hfree name rfl
  rw [← List.append_assoc] at hsees
  exact find_statement_of_call hname hnone hsees

omit hopen in
theorem settles_builtin (call : FormatCall) (hd : Derives (.rule call.rule) w)
    (hw : weight w 3 ≤ bound) (hchain : ElseChain k chain) :
    Settles (.rule .statement) w chain k rest := by
  have hname : ∃ t v, w = t :: v ∧ t.shape.builtin = some call := by
    cases call with
    | printf =>
        obtain ⟨t, v, rfl, ht, -⟩ := derives_token_seq.1 (derives_plan.1 hd)
        exact ⟨t, v, rfl, by simpa using ht⟩
    | scanf =>
        obtain ⟨t, v, rfl, ht, -⟩ := derives_token_seq.1 (derives_plan.1 hd)
        exact ⟨t, v, rfl, by simpa using ht⟩
  obtain ⟨t, v, rfl, ht⟩ := hname
  refine .statement (find_statement_of_builtin ht) (.of_accepts ?_ hchain)
  refine hrules _ _ _ (weight_below (Nat.le_refl _) ?_ hw) hd ?_
  · cases call <;> decide
  · cases call <;> rfl

theorem settles_statement (hd : Derives (.rule .statement) w) (hw : weight (w ++ chain) 3 ≤ bound)
    (hchain : ElseChain k chain) (hrest : sees (· == .keyword .kwElse) (shapes rest) = false) :
    Settles (.rule .statement) w chain k rest := by
  have hlen : w.length ≤ (w ++ chain).length := by simp
  have hrule : ∀ n : Rule, n.rank ≤ 2 → n.isOpen = false → Derives (.rule n) w →
      (∀ o, n.allows o = true) → Settles (.rule n) w chain k rest :=
    fun n hrank hn hder hF => .of_accepts
      (hrules n w _ (weight_below hlen (Nat.lt_succ_of_le hrank) hw) hder (hF _)) hchain
  have hbranches : ∀ n : Rule, n.rank ≤ 2 → n.isOpen = true → Derives (.rule n) w →
      Settles (.rule n) w chain k rest := fun n hrank hn hder =>
    hopen n w chain rest k hn (weight_below (Nat.le_refl _) (Nat.lt_succ_of_le hrank) hw) hder
      hchain hrest
  have hjump : ∀ word : Keyword, Derives (Plan.seq (.word word) (.mark .semicolon)).form w →
      Settles (.seq (.word word) (.mark .semicolon)) w chain k rest := by
    intro word hder
    obtain ⟨t, v, rfl, ht, hv⟩ := derives_token_seq.1 hder
    obtain ⟨semicolon, rfl, hsemicolon⟩ := derives_token.1 hv
    exact .of_accepts (.seq (u := [t]) (.token ht) (.token hsemicolon)) hchain
  have hw' : weight w 3 ≤ bound := by
    unfold weight at *
    omega
  have hd := derives_plan.1 hd
  simp only [Rule.plan, Plan.statements, Plan.select, Plan.form, derives_choice] at hd
  rcases hd with hstruct | hfunction | hdecl | hif | hwhile | hdo | hfor | hswitch | hprintf |
    hscanf | hexit | hbreak | hcontinue | hcall | hassign | hblock | hblank | hdirective
  · exact .of_accepts (.rule (accepts_declared hrules (.inl hstruct) hw')) hchain
  · exact .of_accepts (.rule (accepts_declared hrules (.inr (.inl hfunction)) hw')) hchain
  · exact .of_accepts (.rule (accepts_declared hrules (.inr (.inr hdecl)) hw')) hchain
  · exact settles_opened (P := .rule .ifElse) (.keyword .kwIf) hif rfl (by decide) rfl
      (hbranches .ifElse (by decide) rfl hif)
  · exact settles_opened (P := .rule .whileLoop) (.keyword .kwWhile) hwhile rfl (by decide) rfl
      (hbranches .whileLoop (by decide) rfl hwhile)
  · exact settles_opened (P := .rule .doWhile) (.keyword .kwDo) hdo rfl (by decide) rfl
      (hrule .doWhile (by decide) rfl hdo fun _ => rfl)
  · exact settles_opened (P := .rule .forLoop) (.keyword .kwFor) hfor rfl (by decide) rfl
      (hbranches .forLoop (by decide) rfl hfor)
  · exact settles_opened (P := .rule .switch) (.keyword .kwSwitch) hswitch rfl (by decide) rfl
      (hrule .switch (by decide) rfl hswitch fun _ => rfl)
  · exact settles_builtin hrules .printf hprintf hw' hchain
  · exact settles_builtin hrules .scanf hscanf hw' hchain
  · exact settles_opened (P := .rule .exit) (.keyword .kwReturn) hexit rfl (by decide) rfl
      (hrule .exit (by decide) rfl hexit fun _ => rfl)
  · exact settles_opened (P := .seq (.word .kwBreak) (.mark .semicolon)) (.keyword .kwBreak)
      hbreak rfl (by decide) rfl (hjump _ hbreak)
  · exact settles_opened (P := .seq (.word .kwContinue) (.mark .semicolon)) (.keyword .kwContinue)
      hcontinue rfl (by decide) rfl (hjump _ hcontinue)
  · exact settles_call hrules hcall hw' hchain
  · exact settles_assignment hrules hassign hw' hchain
  · exact settles_opened (P := .rule .block) (.punct .lbrace) hblock rfl (by decide) rfl
      (hrule .block (by decide) rfl hblock fun _ => rfl)
  · obtain ⟨t, rfl, ht⟩ := derives_token.1 hblank
    exact settles_opened (P := .mark .semicolon) (.punct .semicolon) hblank rfl (by decide) rfl
      (.of_accepts (.token ht) hchain)
  · obtain ⟨t, rfl, ht⟩ := derives_token.1 hdirective
    refine .of_accepts (.rule (.select ?_)) hchain
    rw [List.cons_append, find_statement_of_directive (by simpa using ht)]
    exact .token ht

omit hrules hopen in
/-- A statement that begins with a brace is a block. -/
theorem derives_block (hd : Derives (.rule .statement) w)
    (hbrace : sees (· == .punct .lbrace) (shapes (w ++ rest)) = true) :
    Derives (.rule .block) w := by
  have hsplit :
      Derives (Plan.select (.kind (· == .directive)) (Plan.statements.eraseIdx 15)).form w ∨
        Derives (.rule .block) w := by
    have hd := derives_plan.1 hd
    simp only [Rule.plan, Plan.statements, List.eraseIdx, Plan.select, Plan.form,
      derives_choice] at hd ⊢
    grind
  rcases hsplit with hother | hblock
  · have hno : sees (· == .punct .lbrace) (shapes (w ++ rest)) = false :=
      hother.not_sees rfl (by decide)
    rw [hbrace] at hno
    cases hno
  · exact hblock

theorem settles_body (hd : Derives (.rule .body) w) (hw : weight (w ++ chain) 4 ≤ bound)
    (hchain : ElseChain k chain) (hrest : sees (· == .keyword .kwElse) (shapes rest) = false) :
    Settles (.rule .body) w chain k rest := by
  have hlen : w.length ≤ (w ++ chain).length := by simp
  have hblock : Derives (.rule .block) w → Settles (.rule .body) w chain k rest := by
    intro hder
    refine .of_accepts (.rule (.first (Derives.sees (P := .rule .block) hder rfl (by decide)) ?_))
      hchain
    exact hrules _ _ _ (weight_below hlen (by decide) hw) hder rfl
  rcases derives_choice.1 (derives_plan.1 hd) with hder | hder
  · exact hblock hder
  · by_cases hbrace : sees (· == .punct .lbrace) (shapes (w ++ (chain ++ rest))) = true
    · exact hblock (derives_block hder hbrace)
    · obtain ⟨j, left, hj, hleft, hfollows⟩ := hopen .statement w chain rest k rfl
        (weight_below (Nat.le_refl _) (by decide) hw) hder hchain hrest
      exact ⟨j, left, hj, hleft, .rule (.second (Bool.eq_false_iff.2 hbrace) hfollows)⟩

end

/-! ## All rules -/

/-- Both kinds of rules are complete up to any weight. -/
theorem complete_below (bound : Nat) : Complete bound ∧ CompleteOpen bound := by
  induction bound with
  | zero => exact ⟨fun _ _ _ hw => absurd hw (Nat.not_lt_zero _),
      fun _ _ _ _ _ _ hw => absurd hw (Nat.not_lt_zero _)⟩
  | succ bound ih =>
      obtain ⟨hrules, hopen⟩ := ih
      have hopen' : CompleteOpen (bound + 1) := by
        intro n w chain rest k hn hw hd hchain hrest
        have hw := Nat.le_of_lt_succ hw
        cases n with
        | ifElse => exact settles_ifElse hrules hopen hd hw hchain hrest
        | whileLoop => exact settles_whileLoop hrules hopen hd hw hchain hrest
        | forLoop => exact settles_forLoop hrules hopen hd hw hchain hrest
        | statement => exact settles_statement hrules hopen hd hw hchain hrest
        | body => exact settles_body hrules hopen hd hw hchain hrest
        | _ => cases hn
      refine ⟨fun n w rest hw hd hF => ?_, hopen'⟩
      by_cases hn : n.isOpen = true
      · have hrest : sees (· == .keyword .kwElse) (shapes rest) = false := by
          rw [sees_shapes]
          cases n with
          | ifElse | whileLoop | forLoop | statement | body => simpa [Rule.allows] using hF
          | _ => cases hn
        refine (hopen' n w [] rest 0 hn ?_ hd .nil hrest).accepts
        rwa [List.append_nil]
      · exact accepts_closed hrules (Bool.eq_false_iff.2 hn) hd (Nat.le_of_lt_succ hw) hF

/-- **Every word that a rule stands for is read without a fault,** in front of all that may lie
behind it. -/
theorem accepts_of_derives {n : Rule} (hd : Derives (.rule n) w)
    (hrest : n.allows (front rest) = true) : Accepts (.rule n) w rest :=
  (complete_below (weight w n.rank + 1)).1 n w rest (Nat.lt_succ_self _) hd hrest

end MiniC
