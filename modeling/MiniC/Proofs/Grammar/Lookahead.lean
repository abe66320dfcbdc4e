import MiniC.Proofs.Grammar.Predict
import MiniC.Proofs.Reading.Decl

/-!
# `MiniC.Proofs.Grammar.Lookahead` — decisions that look further than one token

Struct definitions, functions and variables all begin with the words of a type, and a parameter
may begin with the `void` that stands for no parameters at all.  What tells them apart is what
stands behind the type, and each decision is shown here to find it.

## Contents
- `derives_typed`, `derives_typeSpec`: what a part that begins with a type is made of.
- `seesFunction_typed`: the decision for a function looks past the type, at the name.
- `seesStruct_structDecl`, `seesHeader_functionDecl`, …: one lemma per part and decision.
-/

namespace MiniC

variable {w rest : List Token}

/-! ## Types -/

theorem derives_run {p : Kind → Bool} :
    Derives (Plan.run p).form w ↔ ∀ t ∈ w, p t.kind = true := derives_many_token

theorem derives_typeSpec :
    Derives (.rule .typeSpec) w ↔
      (∃ t ts, w = t :: ts ∧ t.kind.isTypeWord = true ∧ ∀ u ∈ ts, u.kind.isTypeWord = true) ∨
        ∃ t name, w = [t, name] ∧ t.kind = .keyword .kwStruct ∧ name.kind = .ident := by
  rw [derives_rule, Rule.form, derives_choice, derives_seq, derives_seq]
  refine or_congr ⟨?_, ?_⟩ ⟨?_, ?_⟩
  · rintro ⟨u, v, rfl, hu, hv⟩
    obtain ⟨t, rfl, ht⟩ := derives_token.1 hu
    exact ⟨t, v, rfl, ht, derives_many_token.1 hv⟩
  · rintro ⟨t, ts, rfl, ht, hts⟩
    exact ⟨[t], ts, rfl, derives_token.2 ⟨t, rfl, ht⟩, derives_many_token.2 hts⟩
  · rintro ⟨u, v, rfl, hu, hv⟩
    obtain ⟨t, rfl, ht⟩ := derives_token.1 hu
    obtain ⟨name, rfl, hname⟩ := derives_token.1 hv
    exact ⟨t, name, rfl, by simpa using ht, by simpa using hname⟩
  · rintro ⟨t, name, rfl, ht, hname⟩
    exact ⟨[t], [name], rfl, derives_token.2 ⟨t, rfl, by simpa using ht⟩,
      derives_token.2 ⟨name, rfl, by simpa using hname⟩⟩

/-- A part that begins with a type is qualifiers, the type, stars and what stands behind. -/
theorem derives_typed {behind : Plan} :
    Derives (Plan.typed behind).form w ↔
      ∃ qs spec stars b, w = qs ++ (spec ++ (stars ++ b)) ∧
        (∀ t ∈ qs, t.kind.isQualifier = true) ∧ Derives (.rule .typeSpec) spec ∧
        (∀ t ∈ stars, (t.kind == .operator .star) = true) ∧ Derives behind.form b := by
  constructor
  · intro h
    obtain ⟨qs, v, rfl, hqs, hv⟩ := derives_seq.1 h
    obtain ⟨spec, v, rfl, hspec, hv⟩ := derives_seq.1 hv
    obtain ⟨stars, b, rfl, hstars, hb⟩ := derives_seq.1 hv
    exact ⟨qs, spec, stars, b, rfl, derives_run.1 hqs, hspec, derives_run.1 hstars, hb⟩
  · rintro ⟨qs, spec, stars, b, rfl, hqs, hspec, hstars, hb⟩
    exact .seq (derives_run.2 hqs) (.seq hspec (.seq (derives_run.2 hstars) hb))

/-! ## Functions -/

theorem dropWhile_append_of_front {p : Kind → Bool} {u v : List Token}
    (hu : ∀ t ∈ u, p t.kind = true) (hv : (front v).any p = false) :
    (u ++ v).dropWhile (p ·.kind) = v := by
  rw [List.dropWhile_append_of_pos hu]
  cases v with
  | nil => rfl
  | cons t v => exact List.dropWhile_cons_of_neg (by simpa using hv)

/-- Neither a star nor a word of the type is left for what stands behind the type. -/
theorem front_behind_type {stars b : List Token}
    (hstars : ∀ t ∈ stars, (t.kind == .operator .star) = true)
    (hb : (front b).any (fun kind => kind == .operator .star || kind.isTypeWord) = false) :
    (front b).any (· == .operator .star) = false ∧
      (front (stars ++ b)).any Kind.isTypeWord = false := by
  refine ⟨?_, ?_⟩
  · cases hfront : front b <;> simp_all
  · cases stars with
    | nil => cases hfront : front b <;> simp_all
    | cons t stars =>
        have ht : t.kind = .operator .star := by simpa using hstars t List.mem_cons_self
        rw [List.cons_append, front_cons, ht]
        rfl

/-- No qualifier stands where a type does. -/
theorem front_typeSpec {spec v : List Token} (hspec : Derives (.rule .typeSpec) spec) :
    (front (spec ++ v)).any Kind.isQualifier = false := by
  rw [← sees_shapes]
  exact Derives.not_sees (P := .rule .typeSpec) hspec rfl (by decide)

theorem pastTypeSpec_append {spec v : List Token} (hspec : Derives (.rule .typeSpec) spec)
    (hv : (front v).any Kind.isTypeWord = false) : pastTypeSpec (spec ++ v) = v := by
  unfold pastTypeSpec
  rcases derives_typeSpec.1 hspec with ⟨t, ts, rfl, ht, hts⟩ | ⟨t, name, rfl, ht, -⟩
  · have hstruct : ¬(t.kind == .keyword .kwStruct) = true := fun hkind => by
      rw [beq_iff_eq.1 hkind] at ht
      cases ht
    refine (if_neg hstruct).trans ?_
    exact dropWhile_append_of_front (List.forall_mem_cons.2 ⟨ht, hts⟩) hv
  · have hstruct : (t.kind == .keyword .kwStruct) = true := by
      rw [ht]
      rfl
    exact if_pos hstruct

/-- **The decision for a function looks past the type,** at the name and what stands behind it. -/
theorem seesFunction_typed {qs spec stars b : List Token}
    (hqs : ∀ t ∈ qs, t.kind.isQualifier = true) (hspec : Derives (.rule .typeSpec) spec)
    (hstars : ∀ t ∈ stars, (t.kind == .operator .star) = true)
    (hb : (front b).any (fun kind => kind == .operator .star || kind.isTypeWord) = false) :
    seesFunction (shapes (qs ++ (spec ++ (stars ++ b)))) = seesCall (shapes b) := by
  obtain ⟨hstar, hword⟩ := front_behind_type hstars hb
  rw [seesFunction_shapes, startsFunction_eq, pastType,
    dropWhile_append_of_front hqs (front_typeSpec hspec), pastTypeSpec_append hspec hword,
    dropWhile_append_of_front hstars hstar]

/-! ## Structs, functions and variables -/

theorem seesStruct_structDecl (h : Derives (.rule .structDecl) w) :
    seesStruct (shapes (w ++ rest)) = true := by
  obtain ⟨t, v, rfl, ht, hv⟩ := derives_token_seq.1 (derives_rule.1 h)
  obtain ⟨name, v, rfl, hname, hv⟩ := derives_token_seq.1 hv
  obtain ⟨opening, v, rfl, hopening, -⟩ := derives_token_seq.1 hv
  simp_all [seesStruct]

/-- No struct is defined where a function or a variable is declared. -/
theorem not_seesStruct_typed {behind : Plan} (h : Derives (Plan.typed behind).form w)
    (hsolid : behind.solid = true) (hbrace : behind.starts (.punct .lbrace) = false) :
    seesStruct (shapes (w ++ rest)) = false := by
  obtain ⟨qs, spec, stars, b, rfl, hqs, hspec, hstars, hb⟩ := derives_typed.1 h
  cases qs with
  | cons q qs =>
      refine not_seesStruct_of_kind fun hkind => ?_
      have hq := hqs q List.mem_cons_self
      rw [hkind] at hq
      cases hq
  | nil =>
      rcases derives_typeSpec.1 hspec with ⟨t, ts, rfl, ht, -⟩ | ⟨t, name, rfl, -, -⟩
      · refine not_seesStruct_of_kind fun hkind => ?_
        rw [hkind] at ht
        cases ht
      · -- Behind `struct` and a name there is a star or the name of what is declared.
        have hthird : front (stars ++ b ++ rest) ≠ some (.punct .lbrace) := by
          intro hfront
          cases stars with
          | cons star stars =>
              have hstar := hstars star List.mem_cons_self
              rw [show star.kind = .punct .lbrace from Option.some.inj hfront] at hstar
              cases hstar
          | nil =>
              have hfirst : behind.first (fun _ => true) (front (b ++ rest)) = true :=
                hb.first_append rfl
              rw [show front (b ++ rest) = _ from hfront, Plan.first, hbrace, hsolid] at hfirst
              cases hfirst
        simp only [List.nil_append, List.cons_append, List.append_assoc] at hthird ⊢
        generalize stars ++ (b ++ rest) = third at hthird
        cases third with
        | nil => rfl
        | cons u third =>
            have hu : (u.kind == .punct .lbrace) = false := by simpa using hthird
            simp [seesStruct, hu]

theorem seesHeader_functionDecl (h : Derives (.rule .functionDecl) w) :
    seesHeader (shapes (w ++ rest)) = true := by
  have hstarts : sees Kind.startsDeclaration (shapes (w ++ rest)) = true :=
    Derives.sees (P := .rule .functionDecl) h rfl fun _ hkind => hkind
  have htyped : Derives (Plan.typed _).form w := derives_plan.1 h
  obtain ⟨qs, spec, stars, b, rfl, hqs, hspec, hstars, hb⟩ := derives_typed.1 htyped
  obtain ⟨name, v, rfl, hname, hv⟩ := derives_token_seq.1 hb
  obtain ⟨opening, v, rfl, hopening, -⟩ := derives_token_seq.1 hv
  have hfront : (front (name :: opening :: (v ++ rest))).any
      (fun kind => kind == .operator .star || kind.isTypeWord) = false :=
    (by decide : ∀ k : Kind, k.namesFunction = true →
      (k == .operator .star || k.isTypeWord) = false) _ hname
  have hfunction := seesFunction_typed hqs hspec hstars hfront
  rw [seesHeader, hstarts, Bool.true_and]
  simp only [List.append_assoc, List.cons_append]
  rw [hfunction]
  simp_all [seesCall]

/-- What stands behind the type and the stars of a declaration: a name, and no parenthesis
behind it. -/
theorem derives_declaration (h : Derives (.rule .declaration) w) :
    ∃ qs spec stars name b, w = qs ++ (spec ++ (stars ++ name :: b)) ∧
      (∀ t ∈ qs, t.kind.isQualifier = true) ∧ Derives (.rule .typeSpec) spec ∧
      (∀ t ∈ stars, (t.kind == .operator .star) = true) ∧ name.kind = .ident ∧
      (∀ rest, sees (· == .punct .lparen) (shapes (b ++ rest)) = false) ∧
      Derives (Plan.seq (.commaList (.rule .declarator)) (.mark .semicolon)).form (name :: b) := by
  have htyped : Derives (Plan.typed _).form w := derives_plan.1 h
  obtain ⟨qs, spec, stars, v, rfl, hqs, hspec, hstars, hv⟩ := derives_typed.1 htyped
  obtain ⟨u, semicolon, rfl, hu, hsemicolon⟩ := derives_seq.1 hv
  obtain ⟨first, ds, rfl, hfirst, hds⟩ := derives_seq.1 hu
  -- The stars of the first declarator are read with those of the type.
  obtain ⟨more, v, rfl, hmore, hv⟩ := derives_seq.1 (derives_rule.1 hfirst)
  obtain ⟨name, d, rfl, hname, hd⟩ := derives_token_seq.1 hv
  refine ⟨qs, spec, stars ++ more, name, d ++ ds ++ semicolon, by simp, hqs, hspec, ?_,
    by simpa using hname, fun rest => ?_, ?_⟩
  · intro t ht
    rcases List.mem_append.1 ht with ht | ht
    · exact hstars t ht
    · exact derives_many_token.1 hmore t ht
  · have hbehind : Derives (Plan.seq (.seq (.seq (.rule .arrayOpt) .initializer)
        (.further (.rule .declarator) (· == .punct .comma))) (.mark .semicolon)).form
        (d ++ ds ++ semicolon) := .seq (.seq hd hds) hsemicolon
    refine hbehind.not_sees rfl ?_
    decide
  · have hfirst : Derives (.rule .declarator) (name :: d) :=
      .rule (.seq (u := []) .done (derives_token_seq.2 ⟨name, d, rfl, hname, hd⟩))
    exact .seq (.seq hfirst hds) hsemicolon

theorem not_seesHeader_declaration (h : Derives (.rule .declaration) w) :
    seesHeader (shapes (w ++ rest)) = false := by
  obtain ⟨qs, spec, stars, name, b, rfl, hqs, hspec, hstars, hname, hparen, -⟩ :=
    derives_declaration h
  have hfront : (front (name :: (b ++ rest))).any
      (fun kind => kind == .operator .star || kind.isTypeWord) = false := by
    rw [front_cons, hname]
    rfl
  have hfunction := seesFunction_typed hqs hspec hstars hfront
  rw [seesHeader, Bool.and_eq_false_iff]
  right
  simp only [List.append_assoc, List.cons_append]
  rw [hfunction]
  exact not_seesCall (hparen rest)

theorem not_seesStruct_functionDecl (h : Derives (.rule .functionDecl) w) :
    seesStruct (shapes (w ++ rest)) = false := by
  have htyped : Derives (Plan.typed _).form w := derives_plan.1 h
  exact not_seesStruct_typed htyped rfl rfl

theorem not_seesStruct_declaration (h : Derives (.rule .declaration) w) :
    seesStruct (shapes (w ++ rest)) = false := by
  have htyped : Derives (Plan.typed _).form w := derives_plan.1 h
  exact not_seesStruct_typed htyped rfl rfl

/-! ## Parameters -/

theorem not_seesLoneVoid_of_kind {t : Token} {ts : List Token}
    (h : t.kind ≠ .keyword (.type .void)) : seesLoneVoid (shapes (t :: ts)) = false := by
  cases ts <;> simp [seesLoneVoid, h]

/-- No lone `void` stands where a parameter does. -/
theorem not_seesLoneVoid_params (h : Derives (Plan.commaList (.rule .param)).form w) :
    seesLoneVoid (shapes (w ++ rest)) = false := by
  obtain ⟨first, others, rfl, hfirst, -⟩ := derives_seq.1 h
  have htyped : Derives (Plan.typed _).form first := derives_plan.1 hfirst
  obtain ⟨qs, spec, stars, b, rfl, hqs, hspec, hstars, hb⟩ := derives_typed.1 htyped
  cases qs with
  | cons q qs =>
      refine not_seesLoneVoid_of_kind fun hkind => ?_
      have hq := hqs q List.mem_cons_self
      rw [hkind] at hq
      cases hq
  | nil =>
      rcases derives_typeSpec.1 hspec with ⟨t, ts, rfl, -, hts⟩ | ⟨t, name, rfl, ht, -⟩
      · have hbehind : Derives (Plan.seq (.run Kind.isTypeWord) (.seq (.run (· == .operator .star))
            (.seq .ident .paramArray))).form (ts ++ (stars ++ b)) :=
          .seq (derives_run.2 hts) (.seq (derives_run.2 hstars) hb)
        have hsecond : sees (· == .punct .rparen)
            (shapes (ts ++ (stars ++ b) ++ (others ++ rest))) = false :=
          hbehind.not_sees rfl (by decide)
        simp only [List.nil_append, List.cons_append, List.append_assoc] at hsecond ⊢
        generalize ts ++ (stars ++ (b ++ (others ++ rest))) = second at hsecond
        cases second with
        | nil => rfl
        | cons u second =>
            have hu : (u.kind == .punct .rparen) = false := hsecond
            simp [seesLoneVoid, hu]
      · refine not_seesLoneVoid_of_kind fun hkind => ?_
        rw [hkind] at ht
        cases ht

/-! ## Calls -/

theorem Derives.not_seesCall {P : Plan} (h : Derives P.form w) (hP : P.solid = true)
    (hp : ∀ kind, P.starts kind = true → kind.namesFunction = false) :
    seesCall (shapes (w ++ rest)) = false := by
  cases w with
  | nil => exact absurd rfl (h.ne_nil hP)
  | cons t w => exact not_seesCall_of_kind (hp t.kind (h.starts t rfl))

theorem seesCall_functionCall (h : Derives (.rule .functionCall) w) :
    seesCall (shapes (w ++ rest)) = true := by
  obtain ⟨name, v, rfl, hname, hv⟩ := derives_token_seq.1 (derives_rule.1 h)
  obtain ⟨opening, v, rfl, hopening, -⟩ := derives_token_seq.1 hv
  simp_all [seesCall, Kind.namesFunction]

/-- No function is called by what stands for a variable. -/
theorem not_seesCall_nameChain (h : Derives Plan.nameChain.form w)
    (hrest : sees (· == .punct .lparen) (shapes rest) = false) :
    seesCall (shapes (w ++ rest)) = false := by
  obtain ⟨name, v, rfl, -, hv⟩ := derives_token_seq.1 h
  have hv' : Derives (Plan.seq .accesses (.run Kind.isStep)).form v := hv
  have hbehind : (Plan.seq .accesses (.run Kind.isStep)).first
      (fun o => !o.any (· == .punct .lparen)) (front (v ++ rest)) = true := by
    refine hv'.first_append ?_
    rw [← sees_shapes, hrest]
    rfl
  refine not_seesCall ?_
  show sees _ (shapes (v ++ rest)) = false
  rw [sees_shapes]
  exact (by decide : ∀ o, (Plan.seq .accesses (.run Kind.isStep)).first
    (fun o => !o.any (· == .punct .lparen)) o = true → o.any (· == .punct .lparen) = false) _
    hbehind

/-- No function is called by an assignment. -/
theorem not_seesCall_assignment
    (h : Derives (Plan.seq (.rule .assignment) (.mark .semicolon)).form w) :
    seesCall (shapes (w ++ rest)) = false := by
  obtain ⟨a, semicolon, rfl, ha, hsemicolon⟩ := derives_seq.1 h
  rcases derives_choice.1 (derives_plan.1 ha) with hstep | hplace
  · have hstep' : Derives (Plan.seq (.kind Kind.isStep) (.rule .lvalue)).form a := hstep
    rw [List.append_assoc]
    refine hstep'.not_seesCall rfl ?_
    decide
  · obtain ⟨place, v, rfl, hplace, hv⟩ := derives_seq.1 hplace
    obtain ⟨stars, u, rfl, hstars, hu⟩ := derives_seq.1 (derives_plan.1 hplace)
    obtain ⟨name, u, rfl, -, hu⟩ := derives_token_seq.1 hu
    cases stars with
    | cons star stars =>
        have hstar : star.kind = .operator .star := by
          simpa using derives_many_token.1 hstars star List.mem_cons_self
        exact not_seesCall_of_kind (by rw [hstar]; rfl)
    | nil =>
        have hbehind : Derives (Plan.seq (.seq .accesses .writing) (.mark .semicolon)).form
            (u ++ v ++ semicolon) := .seq (.seq hu hv) hsemicolon
        have hsecond : sees (· == .punct .lparen) (shapes (u ++ v ++ semicolon ++ rest)) = false :=
          hbehind.not_sees rfl (by decide)
        simp only [List.nil_append, List.cons_append, List.append_assoc] at hsecond ⊢
        exact not_seesCall hsecond

end MiniC
