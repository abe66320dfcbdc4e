import MiniC.Proofs.Grammar.Lookahead

/-!
# `MiniC.Proofs.Grammar.Closed` — the rules that no `else` can lengthen

Most rules are complete because their plans predict.  Here are those that need an argument of
their own: declarations and parameters, which are told apart further ahead, and elements, which
take a subscript that the grammar gives to the factor around them.

## Contents
- `accepts_declaration`, `accepts_params`: what begins with a type.
- `element_subscript`: **a subscript behind an element** belongs to the element, or is left by it.
- `accepts_element`, `accepts_factor`, `accepts_program`.
- `accepts_closed`: a rule of this kind is complete if the rules below it are.
-/

namespace MiniC

variable {bound : Nat} {w rest : List Token}

/-! ## Declarations -/

section

variable (hrules : Complete bound)

include hrules

/-- Qualifiers, a type and stars are read up to what stands behind them. -/
theorem accepts_typed {behind : Plan} {qs spec stars b : List Token}
    (hqs : ∀ t ∈ qs, t.kind.isQualifier = true) (hspec : Derives (.rule .typeSpec) spec)
    (hstars : ∀ t ∈ stars, (t.kind == .operator .star) = true) (hw : weight spec 1 < bound)
    (hfront : (front (b ++ rest)).any (fun kind => kind == .operator .star || kind.isTypeWord) =
      false) (hb : Accepts behind b rest) :
    Accepts (.typed behind) (qs ++ (spec ++ (stars ++ b))) rest := by
  obtain ⟨hstar, hword⟩ := front_behind_type hstars hfront
  have hallows : Rule.typeSpec.allows (front (stars ++ b ++ rest)) = true := by
    rw [List.append_assoc, Rule.allows, hword]
    rfl
  have hqualifier : (front (spec ++ (stars ++ b) ++ rest)).any Kind.isQualifier = false := by
    rw [List.append_assoc]
    exact front_typeSpec hspec
  exact .seq (.run hqs hqualifier)
    (.seq (hrules .typeSpec spec _ hw hspec hallows) (.seq (.run hstars hstar) hb))

theorem accepts_declaration (hd : Derives (.rule .declaration) w) (hw : weight w 2 ≤ bound) :
    Accepts (.rule .declaration) w rest := by
  obtain ⟨qs, spec, stars, name, b, rfl, hqs, hspec, hstars, hname, -, hb⟩ :=
    derives_declaration hd
  have hpredicts : (Plan.seq (.commaList (.rule .declarator)) (.mark .semicolon)).Predicts
      fun _ => true := by
    simp only [Plan.commaList, Plan.list, Plan.further, Plan.mark, Plan.kind]
    decide
  have hlen : spec.length ≤ (qs ++ (spec ++ (stars ++ name :: b))).length := by
    simp only [List.length_append]
    omega
  have hlen' : (name :: b).length ≤ (qs ++ (spec ++ (stars ++ name :: b))).length := by
    simp only [List.length_append]
    omega
  have hfront : (front (name :: b ++ rest)).any
      (fun kind => kind == .operator .star || kind.isTypeWord) = false := by
    rw [List.cons_append, front_cons, hname]
    rfl
  have hbehind : Accepts (.seq (.commaList (.rule .declarator)) (.mark .semicolon)) (name :: b)
      rest := hpredicts.accepts hrules hb (weight_below hlen' (by decide) hw) rfl
  exact .rule (accepts_typed hrules hqs hspec hstars (weight_below hlen (by decide) hw) hfront
    hbehind)

theorem accepts_params (hd : Derives (.rule .params) w) (hw : weight w 3 ≤ bound)
    (hF : front rest = some (.punct .rparen)) : Accepts (.rule .params) w rest := by
  rcases derives_choice.1 (derives_plan.1 hd) with hvoid | hlist
  · obtain ⟨word, rfl, hword⟩ := derives_token.1 hvoid
    refine .rule (.first ?_ (.token hword))
    cases rest with
    | nil => cases hF
    | cons closing rest =>
        have hclosing : closing.kind = .punct .rparen := Option.some.inj hF
        have hkind : word.kind = .keyword (.type .void) := by simpa using hword
        simp [seesLoneVoid, hclosing, hkind]
  · refine .rule (.second (not_seesLoneVoid_params hlist) ?_)
    have hpredicts : (Plan.commaList (.rule .param)).Predicts
        fun o => o == some (.punct .rparen) := by
      simp only [Plan.commaList, Plan.list, Plan.further, Plan.kind]
      decide
    exact hpredicts.accepts hrules hlist (weight_below (Nat.le_refl _) (by decide) hw)
      (by rw [hF]; rfl)

/-! ## Elements -/

omit hrules in
/-- An operator in front of an element is read first. -/
theorem accepts_unary {t : Token} {e : List Token} (ht : t.kind.isUnary = true)
    (he : Accepts (.rule .element) e rest) : Accepts (.rule .element) (t :: e) rest := by
  apply Accepts.rule
  apply Accepts.first
  · exact ht
  · exact .seq (u := [t]) (.token ht) he

/-- A call is an element in front of anything. -/
theorem accepts_call (hd : Derives (.rule .functionCall) w) (hw : weight w 2 ≤ bound) :
    Accepts (.rule .element) w rest := by
  apply Accepts.rule
  apply Accepts.second
  · exact Derives.not_sees (P := .rule .functionCall) hd rfl (by decide)
  · apply Accepts.first
    · exact seesCall_functionCall hd
    · exact hrules _ _ _ (weight_below (Nat.le_refl _) (by decide) hw) hd rfl

omit hrules in
/-- Any other element is read as such if no parenthesis makes a call of it. -/
theorem accepts_plain (hd : Derives Plan.plainElement.form w)
    (hrest : sees (· == .punct .lparen) (shapes rest) = false)
    (h : Accepts .plainElement w rest) : Accepts (.rule .element) w rest := by
  have hcall : seesCall (shapes (w ++ rest)) = false := by
    rcases derives_choice.1 hd with hname | hother
    · exact not_seesCall_nameChain hname hrest
    · exact Derives.not_seesCall (P := .choice (sees Kind.isLiteral) (.kind Kind.isLiteral)
        (.choice (sees (· == .punct .lparen)) .groupChain (.seq (.word .kwSizeof) .sizeofOperand)))
        hother rfl (by decide)
  apply Accepts.rule
  apply Accepts.second
  · exact Derives.not_sees (P := .plainElement) hd rfl (by decide)
  · exact .second hcall h

theorem accepts_element (hd : Derives (.rule .element) w) (hw : weight w 2 ≤ bound)
    (hF : Rule.element.allows (front rest) = true) : Accepts (.rule .element) w rest := by
  have hd := derives_plan.1 hd
  simp only [Rule.plan, Plan.form, derives_choice] at hd
  rcases hd with hunary | hcall | hplain
  · obtain ⟨t, e, rfl, ht, he⟩ := derives_token_seq.1 hunary
    have hw' : weight e Rule.element.rank < bound := by
      simp only [weight, List.length_cons, Rule.rank] at hw ⊢
      omega
    exact accepts_unary ht (hrules .element e rest hw' he hF)
  · exact accepts_call hrules hcall hw
  · have hpredicts : Plan.plainElement.Predicts Rule.element.allows := by
      simp only [Plan.plainElement, Plan.nameChain, Plan.groupChain, Plan.sizeofOperand,
        Plan.accesses, Plan.run, Plan.ident, Plan.mark, Plan.word, Plan.kind]
      decide
    have hrest : sees (· == .punct .lparen) (shapes rest) = false := by
      rw [sees_shapes]
      exact (by decide : ∀ o, Rule.element.allows o = true →
        o.any (· == .punct .lparen) = false) _ hF
    exact accepts_plain hplain hrest
      (hpredicts.accepts hrules hplain (weight_below (Nat.le_refl _) (by decide) hw) hF)

/-- A variable takes a subscript, unless `++` or `--` stands in between. -/
theorem nameChain_subscript {e b : List Token} (he : Derives Plan.nameChain.form e)
    (hb : Derives Plan.subscript.form b) (hw : weight e 2 ≤ bound) :
    Derives Plan.nameChain.form (e ++ b) ∨ ∀ rest, Accepts .nameChain e (b ++ rest) := by
  obtain ⟨name, v, rfl, hname, hv⟩ := derives_token_seq.1 he
  obtain ⟨accesses, steps, rfl, haccesses, hsteps⟩ := derives_seq.1 hv
  cases steps with
  | nil =>
      left
      have hone : Derives (.rule .accessChain) b := derives_plan.2 (.first hb)
      have hall := Derives.seq (haccesses.many_append hone.many_one) hsteps
      rw [List.append_nil] at hall
      rw [List.append_nil]
      exact derives_token_seq.2 ⟨name, _, rfl, hname, hall⟩
  | cons step steps =>
      right
      intro rest
      have hpredicts : Plan.accesses.Predicts fun o => o.any Kind.isStep := by
        simp only [Plan.accesses]
        decide
      have hlen : accesses.length ≤ (name :: (accesses ++ step :: steps)).length := by
        simp only [List.length_append, List.length_cons]
        omega
      have hstep : step.kind.isStep = true := derives_run.1 hsteps step List.mem_cons_self
      have hbracket : (front (b ++ rest)).any Kind.isStep = false := by
        rw [← sees_shapes]
        exact hb.not_sees (P := .subscript) rfl (by decide)
      refine .seq (u := [name]) (.token hname) (.seq ?_ (.run (derives_run.1 hsteps) hbracket))
      exact hpredicts.accepts hrules haccesses (weight_below hlen (by decide) hw) hstep

/-- So does an expression in parentheses, while a literal and a `sizeof` take none. -/
theorem plainElement_subscript {e b : List Token} (he : Derives Plan.plainElement.form e)
    (hb : Derives Plan.subscript.form b) (hw : weight e 2 ≤ bound) :
    Derives Plan.plainElement.form (e ++ b) ∨ ∀ rest, Accepts .plainElement e (b ++ rest) := by
  simp only [Plan.plainElement, Plan.form, derives_choice] at he
  rcases he with hname | hliteral | hgroup | hsizeof
  · rcases nameChain_subscript hrules hname hb hw with hall | hpart
    · exact .inl (.first hall)
    · right
      intro rest
      apply Accepts.first
      · exact Derives.sees (P := .nameChain) hname rfl (by decide)
      · exact hpart rest
  · right
    intro rest
    obtain ⟨t, rfl, ht⟩ := derives_token.1 hliteral
    apply Accepts.second
    · exact (by decide : ∀ k : Kind, k.isLiteral = true → (k == .ident) = false) _ ht
    · exact .first ht (.token ht)
  · left
    obtain ⟨opening, u, rfl, hopening, hu⟩ := derives_token_seq.1 hgroup
    obtain ⟨inner, v, rfl, hinner, hv⟩ := derives_seq.1 hu
    obtain ⟨closing, v, rfl, hclosing, haccesses⟩ := derives_token_seq.1 hv
    have hone : Derives (.rule .accessChain) b := derives_plan.2 (.first hb)
    have hbehind : Derives (Plan.seq (.mark .rparen) .accesses).form (closing :: (v ++ b)) :=
      derives_token_seq.2 ⟨closing, _, rfl, hclosing, haccesses.many_append hone.many_one⟩
    have hall : Derives Plan.groupChain.form (opening :: (inner ++ closing :: (v ++ b))) :=
      derives_token_seq.2 ⟨opening, _, rfl, hopening, .seq hinner hbehind⟩
    refine .second (.second (.first ?_))
    simpa using hall
  · right
    intro rest
    have hpredicts : (Plan.seq (.word .kwSizeof) .sizeofOperand).Predicts fun _ => true := by
      simp only [Plan.sizeofOperand, Plan.run, Plan.mark, Plan.word, Plan.kind]
      decide
    have hno : ∀ p : Kind → Bool, p (.keyword .kwSizeof) = false →
        sees p (shapes (e ++ (b ++ rest))) = false := by
      intro p hp
      obtain ⟨t, v, rfl, ht, -⟩ := derives_token_seq.1 hsizeof
      show p t.kind = false
      rw [show t.kind = .keyword .kwSizeof by simpa using ht]
      exact hp
    apply Accepts.second (hno _ rfl)
    apply Accepts.second (hno _ rfl)
    apply Accepts.second (hno _ rfl)
    exact hpredicts.accepts hrules hsizeof (weight_below (Nat.le_refl _) (by decide) hw) rfl

/-- **A subscript behind an element** belongs to the element, or is left by it. -/
theorem element_subscript {e b : List Token} (he : Derives (.rule .element) e)
    (hb : Derives Plan.subscript.form b) (hw : weight e 2 ≤ bound) :
    Derives (.rule .element) (e ++ b) ∨ ∀ rest, Accepts (.rule .element) e (b ++ rest) := by
  -- Operators in front are set aside one by one.
  induction e with
  | nil => exact absurd rfl (Derives.ne_nil (P := .rule .element) he rfl)
  | cons t e ih =>
      have hd := derives_plan.1 he
      simp only [Rule.plan, Plan.form, derives_choice] at hd
      rcases hd with hunary | hcall | hplain
      · obtain ⟨_, _, heq, ht, he'⟩ := derives_token_seq.1 hunary
        obtain ⟨rfl, rfl⟩ := List.cons.inj heq
        have hw' : weight e 2 ≤ bound := by
          simp only [weight, List.length_cons] at hw ⊢
          omega
        rcases ih he' hw' with hall | hpart
        · exact .inl (derives_plan.2 (.first (derives_token_seq.2 ⟨t, e ++ b, rfl, ht, hall⟩)))
        · exact .inr fun rest => accepts_unary ht (hpart rest)
      · exact .inr fun rest => accepts_call hrules hcall hw
      · rcases plainElement_subscript hrules hplain hb hw with hall | hpart
        · exact .inl (derives_plan.2 (.second (.second hall)))
        · right
          intro rest
          have hrest : sees (· == .punct .lparen) (shapes (b ++ rest)) = false :=
            hb.not_sees (P := .subscript) rfl (by decide)
          exact accepts_plain hplain hrest (hpart rest)

theorem accepts_factor (hd : Derives (.rule .factor) w) (hw : weight w 3 ≤ bound)
    (hF : Rule.factor.allows (front rest) = true) : Accepts (.rule .factor) w rest := by
  have hskip : sees (· == .punct .lbracket) (shapes rest) = false := by
    rw [sees_shapes]
    exact (by decide : ∀ o, Rule.factor.allows o = true →
      o.any (· == .punct .lbracket) = false) _ hF
  have hwhole : Derives (.rule .element) w → Accepts (.rule .factor) w rest := by
    intro he
    have helement := hrules .element w rest (weight_below (Nat.le_refl _) (by decide) hw) he hF
    rw [← List.append_nil w]
    exact .rule (.seq helement (.second hskip .empty))
  obtain ⟨e, b, rfl, he, hb⟩ := derives_seq.1 (derives_plan.1 hd)
  rcases derives_opt.1 hb with hb | rfl
  · have hb' : Derives Plan.subscript.form b := hb
    have hlen : e.length ≤ (e ++ b).length := by simp
    rcases element_subscript hrules he hb
        (Nat.le_of_lt (weight_below (s := 2) hlen (by decide) hw)) with hall | hpart
    · exact hwhole hall
    · have hpredicts : Plan.subscript.Predicts fun _ => true := by
        simp only [Plan.subscript, Plan.mark, Plan.kind]
        decide
      have hlen' : b.length ≤ (e ++ b).length := by simp
      have hsubscript : Accepts .subscript b rest :=
        hpredicts.accepts hrules hb (weight_below hlen' (by decide) hw) rfl
      apply Accepts.rule
      apply Accepts.seq (hpart rest)
      exact .first (hb'.sees rfl (by decide)) hsubscript
  · rw [List.append_nil] at hwhole
    rw [List.append_nil]
    exact hwhole he

/-! ## Programs -/

/-- Whatever else may stand there, a definition of a struct, a function and a declaration are told
apart. -/
theorem accepts_declared {default : Plan} {l : List ((List Shape → Bool) × Plan)}
    (hd : Derives (.rule .structDecl) w ∨ Derives (.rule .functionDecl) w ∨
      Derives (.rule .declaration) w) (hw : weight w 3 ≤ bound) :
    Accepts (.select default ((seesStruct, .rule .structDecl) ::
      (seesHeader, .rule .functionDecl) :: (sees Kind.startsDeclaration, .rule .declaration) :: l))
      w rest := by
  have hrule : ∀ n : Rule, n.rank ≤ 2 → Derives (.rule n) w → n.allows (front rest) = true →
      Accepts (.rule n) w rest := fun n hrank =>
    hrules n w rest (weight_below (Nat.le_refl _) (Nat.lt_succ_of_le hrank) hw)
  rcases hd with hstruct | hfunction | hdecl
  · apply Accepts.first (seesStruct_structDecl hstruct)
    exact hrule .structDecl (by decide) hstruct rfl
  · apply Accepts.second (not_seesStruct_functionDecl hfunction)
    apply Accepts.first (seesHeader_functionDecl hfunction)
    exact hrule .functionDecl (by decide) hfunction rfl
  · apply Accepts.second (not_seesStruct_declaration hdecl)
    apply Accepts.second (not_seesHeader_declaration hdecl)
    apply Accepts.first
    · exact Derives.sees (P := .rule .declaration) hdecl rfl fun _ hkind => hkind
    · exact hrule .declaration (by decide) hdecl rfl

theorem accepts_item (hd : Derives Plan.item.form w) (hw : weight w 3 ≤ bound) :
    Accepts .item w rest := by
  simp only [Plan.item, Plan.select, Plan.form, derives_choice] at hd
  rcases hd with hstruct | hfunction | hdecl | hdirective
  · exact accepts_declared hrules (.inl hstruct) hw
  · exact accepts_declared hrules (.inr (.inl hfunction)) hw
  · exact accepts_declared hrules (.inr (.inr hdecl)) hw
  · obtain ⟨t, rfl, ht⟩ := derives_token.1 hdirective
    have hkind : t.kind = .directive := by simpa using ht
    have hno : t.kind.startsDeclaration = false := by
      rw [hkind]
      rfl
    apply Accepts.second (not_seesStruct_of_kind (by simp [hkind]))
    apply Accepts.second (not_seesHeader_of_kind hno)
    exact .second hno (.token ht)

theorem accepts_program (hd : Derives (.rule .program) w) (hw : weight w 3 ≤ bound)
    (hrest : rest = []) : Accepts (.rule .program) w rest := by
  subst hrest
  refine .rule ?_
  have hitems : Derives (.many Plan.item.form) w := derives_plan.1 hd
  clear hd
  generalize hf : Form.many Plan.item.form = f at hitems
  induction hitems with
  | done => exact .stop rfl
  | @more _ u v hu hv _ ih =>
      cases hf
      have hlen : (u ++ v).length = u.length + v.length := List.length_append
      have hu' : weight u 3 ≤ bound := by
        unfold weight at *
        omega
      have hv' : weight v 3 ≤ bound := by
        unfold weight at *
        omega
      exact .mend (Derives.sees (P := .item) hu rfl fun _ _ => rfl)
        (accepts_item hrules hu hu') (ih hv' rfl)
  | _ => cases hf

end

/-! ## All of them -/

/-- Whether a part that the rule stands for may end with an `if` that an `else` may follow. -/
def Rule.isOpen (n : Rule) : Bool :=
  n ∈ ([statement, body, ifElse, whileLoop, forLoop] : List Rule)

/-- Every other rule is complete if the rules below it are. -/
theorem accepts_closed (hrules : Complete bound) {n : Rule} (hn : n.isOpen = false)
    (hd : Derives (.rule n) w) (hw : weight w n.rank ≤ bound)
    (hF : n.allows (front rest) = true) : Accepts (.rule n) w rest := by
  by_cases hplain : n.isPlain = true
  · exact hrules.accepts_rule (predicts_plan hplain) hd hw hF
  · cases n with
    | program =>
        refine accepts_program hrules hd hw ?_
        cases rest with
        | nil => rfl
        | cons t rest => cases hF
    | params => exact accepts_params hrules hd hw (by simpa [Rule.allows] using hF)
    | declaration => exact accepts_declaration hrules hd hw
    | factor => exact accepts_factor hrules hd hw hF
    | element => exact accepts_element hrules hd hw hF
    | statement | body | ifElse | whileLoop | forLoop => cases hn
    | operation tier => exact absurd rfl hplain
    | _ => exact absurd rfl hplain

end MiniC
