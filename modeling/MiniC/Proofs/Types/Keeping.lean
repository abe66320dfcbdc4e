import MiniC.Proofs.Types.Settled

/-!
# `MiniC.Proofs.Types.Keeping` — checks that begin with settled types go on with settled types

A name is declared with a type that was read before it, and reading a type complains about its
struct unless it is declared.  So a check that begins with symbols of settled types has settled
types at every moment of its course.  The fields of a struct may mention the struct itself, which
is declared behind the last of them.

## Contents
- `Check.Course.Keeps`, with one lemma for each way to put checks together.
- `declareVariable_types`, `declareFunction_types`, `declareStruct_types`: what declarations add.
- `resolve_settled`: a type that was read is settled.
- `fields_growing`: the fields of a struct mention what is declared and the struct itself.
- `Declaration.keeps`, `Header.keeps`, `StructDecl.keeps`: **declarations keep types settled.**
-/

namespace MiniC

open Check (Course)

/-! ## Courses of settled types -/

section Keeps

variable {α β : Type} {σ : Symbols} {found : List Issue}

/-- The check has settled types at every moment, and no struct that was known gets lost.  Its
value satisfies `A` together with the symbols and issues behind it. -/
structure Check.Course.Keeps {m : Check α} (course : m.Course) (σ : Symbols)
    (found : List Issue) (A : α → Symbols → List Issue → Prop) : Prop where
  moments : ∀ moment ∈ course.moments σ, (moment.behind found).Settled
  later : Later σ found (m σ).1 (found ++ (m σ).2.issues)
  settled : (m σ).1.Settled (found ++ (m σ).2.issues)
  value : ∀ a, (m σ).2.outcome = .ok a → A a (m σ).1 (found ++ (m σ).2.issues)

/-- The check has settled types at every moment, whatever it yields. -/
abbrev Check.Course.KeepsTypes {m : Check α} (course : m.Course) (σ : Symbols)
    (found : List Issue) : Prop :=
  course.Keeps σ found fun _ _ _ => True

variable {A : α → Symbols → List Issue → Prop} {B : β → Symbols → List Issue → Prop}

theorem settled_outside {issues : List Issue} (h : σ.Settled found) :
    (Moment.mk σ none issues |>.behind found).Settled :=
  ⟨h.issues, nofun⟩

theorem ends_settled {m : Check α} (hσ : σ.Settled found)
    (h : (m σ).1.Settled (found ++ (m σ).2.issues)) :
    ∀ moment ∈ m.ends σ, (moment.behind found).Settled :=
  List.forall_mem_cons.2 ⟨settled_outside hσ, List.forall_mem_singleton.2 ⟨h, nofun⟩⟩

namespace Check.Course.Keeps

theorem reading (hσ : σ.Settled found) {f : Symbols → Finding α}
    (h : ∀ a, (f σ).outcome = .ok a → A a σ (found ++ (f σ).issues)) :
    (Course.reading f).Keeps σ found A where
  moments := ends_settled hσ hσ.issues
  later := .issues
  settled := hσ.issues
  value := h

/-- A check that only looks at the symbols. -/
theorem look (hσ : σ.Settled found) (f : Symbols → Finding α) :
    (Course.reading f).KeepsTypes σ found :=
  reading hσ fun _ _ => trivial

/-- A check that does not look at the symbols, and yields a value that satisfies `P`. -/
theorem lift (hσ : σ.Settled found) {f : Finding α} {P : α → Prop} (h : f.Yields P) :
    (Course.lift f).Keeps σ found fun a _ _ => P a :=
  reading hσ h

/-- A declaration leaves settled types if it does so where it is accepted. -/
theorem register (hσ : σ.Settled found) {declare : Symbols → Attempt Symbols}
    (hcareful : Careful declare) (name : Token)
    (h : ∀ σ', declare σ = (σ', .ok ()) → Later σ found σ' found ∧ σ'.Settled found) :
    (Course.register declare name).KeepsTypes σ found := by
  have hends : Later σ found (Check.register declare name σ).1
        (found ++ (Check.register declare name σ).2.issues) ∧
      (Check.register declare name σ).1.Settled
        (found ++ (Check.register declare name σ).2.issues) := by
    rcases hcareful.refused_or_accepted σ with ⟨refusal, hrefused⟩ | ⟨σ', haccepted⟩
    · rw [Check.register_of_refused hrefused]
      exact ⟨.issues, hσ.issues⟩
    · rw [Check.register_of_accepted haccepted]
      obtain ⟨hlater, hσ'⟩ := h σ' haccepted
      exact ⟨hlater.trans .issues, hσ'.issues⟩
  exact ⟨ends_settled hσ hends.2, hends.1, hends.2, fun _ _ => trivial⟩

theorem bind {m : Check α} {next : α → Check β} {first : m.Course} {rest : ∀ a, (next a).Course}
    (hfirst : first.Keeps σ found A)
    (hrest : ∀ a σ₁ found₁, Later σ found σ₁ found₁ → σ₁.Settled found₁ → A a σ₁ found₁ →
      (rest a).Keeps σ₁ found₁ B) :
    (first.bind rest).Keeps σ found B := by
  obtain ⟨hmoments, hlater, hsettled, hvalue⟩ := hfirst
  have hall : ∀ moment ∈ (first.bind rest).moments σ, (moment.behind found).Settled := by
    intro moment hmoment
    rcases mem_moments_bind.1 hmoment with hmem | ⟨a, houtcome, inner, hinner, rfl⟩
    · exact hmoments moment hmem
    · have hrest := (hrest a _ _ hlater hsettled (hvalue a houtcome)).moments inner hinner
      rwa [Moment.behind, List.append_assoc] at hrest
  -- behind both checks
  have hend : Later σ found ((m >>= next) σ).1 (found ++ ((m >>= next) σ).2.issues) ∧
      ((m >>= next) σ).1.Settled (found ++ ((m >>= next) σ).2.issues) ∧
      ∀ b, ((m >>= next) σ).2.outcome = .ok b →
        B b ((m >>= next) σ).1 (found ++ ((m >>= next) σ).2.issues) := by
    rw [Check.bind_run]
    cases houtcome : (m σ).2.outcome with
    | error hole => exact ⟨hlater, hsettled, fun b hb => by cases hb⟩
    | ok a =>
        obtain ⟨-, hlater', hsettled', hvalue'⟩ :=
          hrest a _ _ hlater hsettled (hvalue a houtcome)
        simp only [← List.append_assoc]
        exact ⟨hlater.trans hlater', hsettled', hvalue'⟩
  exact ⟨hall, hend.1, hend.2.1, hend.2.2⟩

theorem thenDo {m : Check α} {m' : Check β} {first : m.Course} {rest : m'.Course}
    (hfirst : first.KeepsTypes σ found)
    (hrest : ∀ σ₁ found₁, Later σ found σ₁ found₁ → σ₁.Settled found₁ →
      rest.Keeps σ₁ found₁ B) :
    (first.thenDo rest).Keeps σ found B :=
  hfirst.bind fun _ σ₁ found₁ hlater hσ₁ _ => hrest σ₁ found₁ hlater hσ₁

end Check.Course.Keeps

end Keeps

/-! ## What declarations add -/

section Declared

variable {σ σ' : Symbols} {found : List Issue}

/-- Settled types are added to settled types. -/
theorem Symbols.Settled.add (hσ : σ.Settled found) {new : List CType}
    (hadds : σ'.types ⊆ new ++ σ.types) (hlater : Later σ found σ' found)
    (hnew : ∀ t ∈ new, t.Settled σ' found none) : σ'.Settled found := by
  intro t ht
  rcases List.mem_append.1 (hadds ht) with hmem | hmem
  · exact hnew t hmem
  · exact (hσ t hmem).later hlater

theorem Later.of_structs_eq (h : σ'.structs = σ.structs) : Later σ found σ' found := by
  refine .of_structs (fun name hname => ?_) (List.Subset.refl _)
  rwa [Symbols.struct?, h]

theorem declareVariable_types {v : Variable} (h : σ.tryVariable v = (σ', .ok ())) :
    σ'.types ⊆ [v.type] ++ σ.types ∧ σ'.structs = σ.structs := by
  obtain ⟨scopes, functions, structs⟩ := σ
  cases scopes with
  | nil => cases h
  | cons scope outer =>
      by_cases hknown : (scope.find? v.name).isSome = true
      · rw [Symbols.tryVariable_of_known hknown] at h
        cases h
      · rw [Symbols.tryVariable_of_new hknown] at h
        cases h
        exact ⟨List.Subset.refl _, rfl⟩

theorem declareFunction_types {f : Function} (h : σ.tryFunction f = (σ', .ok ())) :
    σ'.types ⊆ f.types ++ σ.types ∧ σ'.structs = σ.structs := by
  -- a definition behind its prototype takes its place
  have hreplaced : (σ.replaceFunction f).types ⊆ f.types ++ σ.types := by
    intro t ht
    simp only [Symbols.replaceFunction, Symbols.types, Symbols.registered, List.mem_append,
      List.mem_flatMap, List.mem_map] at ht ⊢
    rcases ht with hvariable | ⟨_, ⟨g, hg, rfl⟩, ht⟩ | hfield
    · exact .inr (.inl hvariable)
    · split at ht
      · exact .inl ht
      · exact .inr (.inr (.inl ⟨g, hg, ht⟩))
    · exact .inr (.inr (.inr hfield))
  have hdeclares := σ.declaresFunction f
  rw [h] at hdeclares
  cases hdeclares with
  | defined => exact ⟨hreplaced, rfl⟩
  | announced => exact ⟨List.subset_append_right _ _, rfl⟩
  | first =>
      refine ⟨fun t ht => ?_, rfl⟩
      simp only [Symbols.types, Symbols.registered, List.flatMap_cons, List.mem_append] at ht ⊢
      rcases ht with hvariable | (hnew | hfunction) | hfield
      · exact .inr (.inl hvariable)
      · exact .inl hnew
      · exact .inr (.inr (.inl hfunction))
      · exact .inr (.inr (.inr hfield))

theorem declareStruct_types {s : StructDef} (h : σ.tryStruct s = (σ', .ok ())) :
    σ'.types ⊆ s.types ++ σ.types ∧ (σ'.struct? s.name).isSome = true ∧
      Later σ found σ' found := by
  by_cases hknown : (σ.struct? s.name).isSome = true
  · rw [Symbols.tryStruct_of_known hknown] at h
    cases h
  · rw [Symbols.tryStruct_of_new hknown] at h
    cases h
    refine ⟨fun t ht => ?_, ?_, .of_structs (fun name hname => ?_) (List.Subset.refl _)⟩
    · simp only [Symbols.types, Symbols.registered, List.flatMap_cons, List.mem_append] at ht ⊢
      rcases ht with hvariable | hfunction | hnew | hfield
      · exact .inr (.inl hvariable)
      · exact .inr (.inr (.inl hfunction))
      · exact .inl hnew
      · exact .inr (.inr (.inr hfield))
    · simp [Symbols.struct?]
    · rw [Symbols.struct?, List.find?_cons]
      split
      · rfl
      · exact hname

end Declared

/-! ## What is read of types -/

section Read

variable {σ : Symbols} {found : List Issue}

theorem ofWords_settled (words : List TypeWord) (allowed : Option String) :
    (CType.plain (.ofWords words)).Settled σ found allowed := by
  have hbase : ∀ base ∈ [BaseType.void, .double, .float, .char, .short, .long, .int],
      (CType.plain base).Settled σ found allowed := by
    simp [CType.Settled, CType.plain]
  refine hbase _ ?_
  unfold BaseType.ofWords
  repeat' split
  all_goals decide

/-- Reading a type complains about its struct, unless it is declared or allowed. -/
theorem resolve_settled {allowed : Option String} {spec : TypeSpec} {base : BaseType}
    (h : (spec.resolve σ allowed).outcome = .ok base) :
    (CType.plain base).Settled σ (found ++ (spec.resolve σ allowed).issues) allowed := by
  cases spec with
  | missing hole => cases h
  | words first rest =>
      cases h
      exact ofWords_settled _ allowed
  | struct keyword name =>
      cases name with
      | missing hole => cases h
      | found t =>
          rw [TypeSpec.resolve, Slot.get, pure_bind] at h ⊢
          dsimp only at h ⊢
          cases hknown : (σ.struct? t.lexeme).isSome || allowed == some t.lexeme with
          -- the struct is declared, or the one around the field
          | true =>
              rw [hknown] at h
              cases h
              refine ⟨by simp [CType.plain], fun name hname => ?_⟩
              cases hname
              rcases Bool.or_eq_true_iff.1 hknown with hdeclared | hallowed
              · exact .inl hdeclared
              · exact .inr (.inr (eq_of_beq hallowed))
          -- it is complained about here
          | false =>
              rw [hknown] at h
              cases h
              refine ⟨by simp [CType.plain], fun name hname => ?_⟩
              cases hname
              exact .inr (.inl ⟨some t, List.mem_append_right _ List.mem_cons_self⟩)

theorem withSuffix_base (t : CType) (array : Option ArraySuffix) :
    (t.withSuffix array).Yields (·.base = t.base) := by
  cases array with
  | none => exact .pure rfl
  | some suffix => exact .behind fun _ => .pure rfl

theorem withParamArray_base (t : CType) (array : Option ParamArray) :
    (t.withParamArray array).Yields (·.base = t.base) := by
  cases array with
  | none => exact .pure rfl
  | some suffix => exact .behind fun _ => .pure rfl

theorem CType.Settled.of_base {s t : CType} {allowed : Option String}
    (h : s.Settled σ found allowed) (hbase : t.base = s.base) : t.Settled σ found allowed := by
  unfold CType.Settled
  rwa [hbase]

end Read

/-! ## Structs -/

section Fields

variable {σ : Symbols} {found : List Issue}

theorem StructDef.Growing.issues {s : StructDef} {more : List Issue} (h : s.Growing σ found) :
    s.Growing σ (found ++ more) :=
  fun field hfield => (h field hfield).later .issues

theorem settled_inside {s : StructDef} (hσ : σ.Settled found) (hs : s.Growing σ found) :
    (Moment.mk σ (some s) [] |>.behind found).Settled := by
  refine ⟨hσ.issues, ?_⟩
  rintro _ ⟨⟩
  exact hs.issues

theorem admit_growing {s extended : StructDef} {name : Token} {t : CType}
    (hs : s.Growing σ found) (ht : t.Settled σ found (some s.name))
    (h : Finding.outcome ( s.admit name t) = .ok extended) :
    extended.name = s.name ∧ extended.Growing σ found := by
  unfold StructDef.admit at h
  by_cases hknown : (s.field? name.lexeme).isSome = true
  · rw [StructDef.tryField_of_known hknown] at h
    cases h
    exact ⟨rfl, hs⟩
  · rw [StructDef.tryField_of_new hknown] at h
    cases h
    refine ⟨rfl, fun field hfield => ?_⟩
    rcases List.mem_append.1 hfield with hold | hnew
    · exact hs field hold
    · rw [List.mem_singleton.1 hnew]
      exact ht

theorem field_growing {s extended : StructDef} (hs : s.Growing σ found) {field : Field}
    (h : (field.check σ s).outcome = .ok extended) :
    extended.name = s.name ∧ extended.Growing σ (found ++ (field.check σ s).issues) := by
  obtain ⟨base, hbase, hrest, hissues⟩ := Finding.ok_of_bind h
  obtain ⟨name, -, hrest, -⟩ := Finding.ok_of_bind hrest
  obtain ⟨t, ht, hrest, -⟩ := Finding.ok_of_bind hrest
  obtain ⟨_, -, hadmit, -⟩ := Finding.ok_of_bind hrest
  have htype : t.Settled σ (found ++ (field.spec.resolve σ (some s.name)).issues)
      (some s.name) :=
    (resolve_settled hbase).of_base ((withSuffix_base _ _ t ht).trans (CType.base_withStars _ _))
  have hissues : (field.check σ s).issues = _ := hissues
  rw [hissues, ← List.append_assoc]
  exact admit_growing hs.issues.issues (htype.later .issues) hadmit

/-- A field that has a hole is left out. -/
theorem settledField_growing {s extended : StructDef} (hs : s.Growing σ found) {field : Field}
    (h : ((field.check σ s).settledWith s).outcome = .ok extended) :
    extended.name = s.name ∧
      extended.Growing σ (found ++ ((field.check σ s).settledWith s).issues) := by
  have hgrowing (ok : StructDef) (hok : (field.check σ s).outcome = .ok ok) :=
    field_growing hs hok
  generalize field.check σ s = checked at *
  obtain ⟨issues, hole | ok⟩ := checked
  · cases h
    exact ⟨rfl, hs.issues⟩
  · cases h
    exact hgrowing _ rfl

/-- Fields have settled types while their struct is being declared. -/
theorem fields_growing {s : StructDef} (hσ : σ.Settled found) (hs : s.Growing σ found)
    (fs : List Field) :
    (∀ moment ∈ fieldMoments σ s fs, (moment.behind found).Settled) ∧
      ∀ extended, (checkFields σ s fs).outcome = .ok extended →
        extended.name = s.name ∧
          extended.Growing σ (found ++ (checkFields σ s fs).issues) := by
  induction fs generalizing s found with
  | nil =>
      refine ⟨List.forall_mem_singleton.2 (settled_inside hσ hs), ?_⟩
      rintro _ ⟨⟩
      exact ⟨rfl, hs.issues⟩
  | cons field rest ih =>
      have hnext (added : StructDef)
          (hadded : ((field.check σ s).settledWith s).outcome = .ok added) :=
        settledField_growing hs hadded
      constructor
      · intro moment hmoment
        rcases mem_fieldMoments_cons.1 hmoment with rfl | ⟨added, hadded, later, hlater, rfl⟩
        · exact settled_inside hσ hs
        · have hsettled := (ih hσ.issues (hnext added hadded).2).1 later hlater
          rwa [Moment.behind, List.append_assoc] at hsettled
      · intro extended hextended
        obtain ⟨added, hadded, hrest, hissues⟩ := Finding.ok_of_bind hextended
        have hissues : (checkFields σ s (field :: rest)).issues = _ := hissues
        obtain ⟨hname, hgrowing⟩ := hnext added hadded
        obtain ⟨hname', hgrowing'⟩ := (ih hσ.issues hgrowing).2 extended hrest
        rw [hissues, ← List.append_assoc]
        exact ⟨hname'.trans hname, hgrowing'⟩

end Fields

/-! ## Declarations -/

section Declarations

variable {σ : Symbols} {found : List Issue}

theorem keeps_resolve (hσ : σ.Settled found) (spec : TypeSpec) :
    (Course.reading fun σ => spec.resolve σ none).Keeps σ found
      fun base σ found => (CType.plain base).Settled σ found none :=
  .reading hσ fun _ => resolve_settled

theorem keeps_declareVariable (hσ : σ.Settled found) (name : Token) {t : CType}
    (ht : t.Settled σ found none) (isConst : Bool) :
    (Course.register (·.tryVariable ⟨name.lexeme, t, isConst, name.location.line⟩)
      name).KeepsTypes σ found := by
  refine .register hσ (Symbols.careful_tryVariable _) name fun σ' hdeclared => ?_
  obtain ⟨hadds, hstructs⟩ := declareVariable_types hdeclared
  have hlater : Later σ found σ' found := .of_structs_eq hstructs
  exact ⟨hlater, hσ.add hadds hlater (List.forall_mem_singleton.2 (ht.later hlater))⟩

theorem keeps_initializer (hσ : σ.Settled found) (name : Token) (t : CType)
    (init : Option (Token × Expr)) : (initializerCourse name t init).KeepsTypes σ found := by
  cases init with
  | none => exact .look hσ _
  | some init => exact .bind (.look hσ _) fun _ _ _ _ hσ₁ _ => .look hσ₁ _

theorem Declarator.keeps (hσ : σ.Settled found) {base : BaseType}
    (hbase : (CType.plain base).Settled σ found none) (isConst : Bool) (d : Declarator) :
    (d.course base isConst).KeepsTypes σ found := by
  refine .bind (.look hσ _) fun name σ₁ found₁ h₁ hσ₁ _ => ?_
  refine .bind (.lift hσ₁ (withSuffix_base _ _)) fun t σ₂ found₂ h₂ hσ₂ ht => ?_
  refine .thenDo (.look hσ₂ _) fun σ₃ found₃ h₃ hσ₃ => ?_
  have hsettled : t.Settled σ₃ found₃ none :=
    (hbase.later (h₁.trans (h₂.trans h₃))).of_base (ht.trans (CType.base_withStars _ _))
  exact .thenDo (keeps_declareVariable hσ₃ name hsettled isConst)
    fun σ₄ found₄ _ hσ₄ => keeps_initializer hσ₄ name t d.init

theorem keeps_declarators (hσ : σ.Settled found) {base : BaseType}
    (hbase : (CType.plain base).Settled σ found none) (isConst : Bool) (ds : List Declarator) :
    (declaratorsCourse base isConst ds).KeepsTypes σ found := by
  induction ds generalizing σ found with
  | nil => exact .look hσ _
  | cons d rest ih =>
      exact .thenDo (d.keeps hσ hbase isConst) fun σ₁ found₁ h₁ hσ₁ => ih hσ₁ (hbase.later h₁)

theorem Declaration.keeps (hσ : σ.Settled found) (d : Declaration) :
    d.course.KeepsTypes σ found := by
  refine .bind (keeps_resolve hσ d.spec) fun base σ₁ found₁ _ hσ₁ hbase => ?_
  exact .thenDo (keeps_declarators hσ₁ hbase _ _) fun _ _ _ hσ₂ => .look hσ₂ _

theorem StructDecl.keeps (hσ : σ.Settled found) (s : StructDecl) :
    s.course.KeepsTypes σ found := by
  have hempty : (StructDef.mk s.name.lexeme s.name.location.line []).Growing σ found := nofun
  obtain ⟨hmoments, hvalue⟩ := fields_growing hσ hempty s.fields
  have hfields : (Course.fields ⟨s.name.lexeme, s.name.location.line, []⟩ s.fields).Keeps σ found
      fun struct σ found => struct.Growing σ found :=
    ⟨hmoments, .issues, hσ.issues, fun struct hstruct => (hvalue struct hstruct).2⟩
  refine .bind hfields fun struct σ₁ found₁ _ hσ₁ hgrowing => ?_
  have hregister : (Course.register (·.tryStruct struct) s.name).KeepsTypes σ₁ found₁ := by
    refine .register hσ₁ (Symbols.careful_tryStruct struct) s.name fun σ' hdeclared => ?_
    obtain ⟨hadds, hknown, hlater⟩ := declareStruct_types hdeclared
    refine ⟨hlater, hσ₁.add hadds hlater fun t ht => ?_⟩
    obtain ⟨field, hfield, rfl⟩ := List.mem_map.1 ht
    obtain ⟨hbase, hknows⟩ := (hgrowing field hfield).later hlater
    refine ⟨hbase, fun name hname => ?_⟩
    rcases hknows name hname with hdeclared | hreported | hown
    · exact .inl hdeclared
    · exact .inr (.inl hreported)
    -- what its own fields were allowed to mention is now declared
    · cases hown
      exact .inl hknown
  exact .thenDo hregister fun _ _ _ hσ₂ => .thenDo (.look hσ₂ _) fun _ _ _ hσ₃ => .look hσ₃ _

theorem Param.keeps (hσ : σ.Settled found) (p : Param) :
    p.course.Keeps σ found fun parameter σ found => parameter.type.Settled σ found none := by
  refine .bind (keeps_resolve hσ p.spec) fun base σ₁ found₁ _ hσ₁ hbase => ?_
  refine .bind (.look hσ₁ _) fun name σ₂ found₂ h₂ hσ₂ _ => ?_
  refine .bind (.lift hσ₂ (withParamArray_base _ _)) fun t σ₃ found₃ h₃ hσ₃ ht => ?_
  have hsettled : t.Settled σ₃ found₃ none :=
    (hbase.later (h₂.trans h₃)).of_base (ht.trans (CType.base_withStars _ _))
  refine .thenDo (keeps_declareVariable hσ₃ name hsettled _) fun σ₄ found₄ h₄ hσ₄ => ?_
  refine .reading hσ₄ fun parameter hparameter => ?_
  cases hparameter
  exact (hsettled.later h₄).later .issues

theorem keeps_params (hσ : σ.Settled found) (ps : List Param) :
    (paramsCourse ps).Keeps σ found
      fun parameters σ found => ∀ p ∈ parameters, p.type.Settled σ found none := by
  induction ps generalizing σ found with
  | nil =>
      refine .reading hσ fun parameters hparameters => ?_
      cases hparameters
      exact nofun
  | cons p rest ih =>
      refine .bind (p.keeps hσ) fun first σ₁ found₁ _ hσ₁ hfirst => ?_
      refine .bind (ih hσ₁) fun others σ₂ found₂ h₂ hσ₂ hothers => ?_
      refine .reading hσ₂ fun parameters hparameters => ?_
      cases hparameters
      exact List.forall_mem_cons.2 ⟨(hfirst.later h₂).later .issues,
        fun p hp => (hothers p hp).later .issues⟩

theorem Header.keeps (hσ : σ.Settled found) (h : Header) (defined : Bool) :
    (h.course defined).KeepsTypes σ found := by
  refine .bind (keeps_resolve hσ h.spec) fun base σ₁ found₁ _ hσ₁ hbase => ?_
  refine .bind (.look hσ₁ _) fun name σ₂ found₂ h₂ hσ₂ _ => ?_
  refine .thenDo (.look hσ₂ _) fun σ₃ found₃ h₃ hσ₃ => ?_
  refine .bind (keeps_params hσ₃ _) fun parameters σ₄ found₄ h₄ hσ₄ hparameters => ?_
  refine .thenDo (.look hσ₄ _) fun σ₅ found₅ h₅ hσ₅ => ?_
  refine .thenDo (.register hσ₅ (Symbols.careful_tryFunction _) name fun σ' hdeclared => ?_)
    fun _ _ _ hσ₆ => .look hσ₆ _
  obtain ⟨hadds, hstructs⟩ := declareFunction_types hdeclared
  have hlater : Later σ₅ found₅ σ' found₅ := .of_structs_eq hstructs
  refine ⟨hlater, hσ₅.add hadds hlater (List.forall_mem_cons.2 ⟨?_, fun t ht => ?_⟩)⟩
  · have hreturns := hbase.later (h₂.trans (h₃.trans (h₄.trans (h₅.trans hlater))))
    exact hreturns.of_base (CType.base_withStars _ _)
  · obtain ⟨p, hp, rfl⟩ := List.mem_map.1 ht
    exact (hparameters p hp).later (h₅.trans hlater)

end Declarations

end MiniC
