import Mathlib.Data.List.Induction
import MiniC.Symbols.Table

/-!
# `MiniC.Proofs.Symbols.Functions` — one entry for each function

A function may be announced by prototypes and is defined once at most, in any order.  Whatever is
declared, and in whatever order, there is one entry for each name that was declared, and it tells
callers for ever what the first declaration said: what the function returns and takes.  The first
definition that agrees with it takes its place, and all else is refused or changes nothing.

What one declaration does to the entries of all names is told once; what a history of declarations
leaves is an induction on the last of them.

## Contents
- `Symbols.after`, `Symbols.afterAll`: symbols behind declarations.
- `declared?`, `defined?`, `entryOf?`: the entry that a history of declarations gives a name.
- `function?_after`, `function?_afterAll`: **the entries are those of the history.**
- `Refuses`, with `declareFunction_eq_error_iff`: which declarations are refused, and why.
- `Agreeing`: declarations of a name that agree, which are all accepted in any order.
- `RegistersFunctions`, `functions_registered`: **there is one consistent entry for each
  function.**
-/

namespace MiniC

/-! ## Histories of declarations -/

namespace Symbols

/-- The symbols behind the declaration of a function, accepted or refused. -/
def after (σ : Symbols) (f : Function) : Symbols := (σ.tryFunction f).1

/-- The symbols behind declarations of functions, where nothing was declared before. -/
def afterAll (history : List Function) : Symbols := history.foldl after empty

theorem afterAll_concat (history : List Function) (f : Function) :
    afterAll (history ++ [f]) = (afterAll history).after f := by
  unfold afterAll
  rw [List.foldl_append]
  rfl

end Symbols

/-- What was declared first under a name. -/
def declared? (history : List Function) (name : String) : Option Function :=
  history.find? (·.name == name)

/-- What was defined first under a name with a signature. -/
def defined? (history : List Function) (name : String) (signature : CType × List CType) :
    Option Function :=
  history.find? fun f => f.name == name && (f.defined && f.signature == signature)

/-- The entry that a history gives a name: the first definition with the signature of what was
declared first, or else what was declared first. -/
def entryOf? (history : List Function) (name : String) : Option Function :=
  (declared? history name).map fun first => (defined? history name first.signature).getD first

variable {history history' : List Function} {f g first : Function} {name : String}
variable {signature : CType × List CType} {σ σ' : Symbols} {refusal : Refusal}

/-! ## One declaration -/

namespace Symbols

theorem name_of_function? (h : σ.function? name = some f) : f.name = name := by
  simpa using List.find?_some h

theorem function?_replaceFunction (σ : Symbols) (f : Function) (name : String) :
    (σ.replaceFunction f).function? name =
      (σ.function? name).map fun g => if g.name == f.name then f else g := by
  unfold replaceFunction function?
  rw [List.find?_map]
  congr 2
  funext g
  show ((if g.name == f.name then f else g).name == name) = (g.name == name)
  by_cases hsame : g.name = f.name
  · simp [hsame]
  · simp [hsame]

/-- What a declaration makes of the entry of its name: a prototype is replaced by a definition with
its signature, and all else stays. -/
def merged (known? : Option Function) (f : Function) : Function :=
  match known? with
  | none => f
  | some known =>
    if known.defined = false ∧ f.defined = true ∧ known.signature = f.signature then f else known

/-- **What one declaration does to the entries of all names.** -/
theorem function?_after (σ : Symbols) (f : Function) (name : String) :
    (σ.after f).function? name =
      if f.name = name then some (merged (σ.function? name) f) else σ.function? name := by
  have hdeclared := σ.declaresFunction f
  unfold after
  generalize σ.tryFunction f = attempt at hdeclared
  by_cases hname : f.name = name
  · subst hname
    rw [if_pos rfl]
    cases hdeclared with
    | first hnone =>
        rw [hnone]
        show List.find? _ (f :: σ.functions) = _
        rw [List.find?_cons_of_pos (by simp)]
        rfl
    | redeclared hknown hdefined _ =>
        show σ.function? f.name = _
        simp [hknown, merged, hdefined]
    | conflicting hknown _ hsignature =>
        show σ.function? f.name = _
        simp [hknown, merged, hsignature]
    | defined hknown hprototype hdefined hsignature =>
        show (σ.replaceFunction f).function? f.name = _
        rw [function?_replaceFunction, hknown]
        simp [merged, hprototype, hdefined, hsignature, name_of_function? hknown]
    | announced hknown hprototype _ =>
        show σ.function? f.name = _
        simp [hknown, merged, hprototype]
  · rw [if_neg hname]
    cases hdeclared with
    | first hnone =>
        show List.find? _ (f :: σ.functions) = _
        rw [List.find?_cons_of_neg (by simpa using hname)]
        rfl
    | redeclared => rfl
    | conflicting => rfl
    | defined =>
        show (σ.replaceFunction f).function? name = _
        rw [function?_replaceFunction]
        cases hother : σ.function? name with
        | none => rfl
        | some g =>
            have hg : ¬g.name = f.name := by
              rw [name_of_function? hother]
              exact fun hsame => hname hsame.symm
            simp [hg]
    | announced => rfl

end Symbols

/-! ## Histories -/

theorem declared?_concat : declared? (history ++ [f]) name =
    (declared? history name).or (if f.name = name then some f else none) := by
  unfold declared?
  rw [List.find?_append]
  congr 1
  by_cases hname : f.name = name <;> simp [hname]

theorem defined?_concat : defined? (history ++ [f]) name signature =
    (defined? history name signature).or
      (if f.name = name ∧ f.defined = true ∧ f.signature = signature then some f else none) := by
  unfold defined?
  rw [List.find?_append]
  congr 1
  by_cases hdefines : f.name = name ∧ f.defined = true ∧ f.signature = signature
  · rw [if_pos hdefines]
    simp [hdefines.1, hdefines.2.1, hdefines.2.2]
  · rw [if_neg hdefines]
    simpa using hdefines

theorem declared?_spec (h : declared? history name = some first) :
    first ∈ history ∧ first.name = name :=
  ⟨List.mem_of_find?_eq_some h, by simpa using List.find?_some h⟩

theorem defined?_spec (h : defined? history name signature = some f) :
    f ∈ history ∧ f.name = name ∧ f.defined = true ∧ f.signature = signature :=
  ⟨List.mem_of_find?_eq_some h, by simpa using List.find?_some h⟩

/-- Where nothing is defined, each declaration with the signature is a prototype. -/
theorem defined?_eq_none (h : defined? history name signature = none) (hf : f ∈ history)
    (hname : f.name = name) (hsignature : f.signature = signature) : f.defined = false := by
  have hno := List.find?_eq_none.1 h f hf
  simpa [hname, hsignature] using hno

/-- The entry that a history with one more declaration gives. -/
theorem entryOf?_concat (history : List Function) (f : Function) (name : String) :
    entryOf? (history ++ [f]) name =
      if f.name = name then some (Symbols.merged (entryOf? history name) f)
      else entryOf? history name := by
  unfold entryOf?
  rw [declared?_concat]
  simp only [defined?_concat]
  by_cases hname : f.name = name
  · simp only [hname, if_true, true_and]
    cases hfirst : declared? history name with
    | none =>
        have hnone : defined? history name f.signature = none := by
          refine List.find?_eq_none.2 fun g hg => ?_
          have hno := List.find?_eq_none.1 hfirst g hg
          simp_all
        simp only [Option.none_or, Option.map_some, hnone, Option.map_none, Symbols.merged]
        split <;> rfl
    | some first =>
        simp only [Option.some_or, Option.map_some]
        cases hdefinition : defined? history name first.signature with
        | some d =>
            obtain ⟨-, -, hdefined, -⟩ := defined?_spec hdefinition
            simp [Symbols.merged, hdefined]
        | none =>
            obtain ⟨hmem, hfirstName⟩ := declared?_spec hfirst
            have hprototype := defined?_eq_none hdefinition hmem hfirstName rfl
            simp only [Option.none_or, Symbols.merged, Option.getD_none, hprototype, true_and,
              eq_comm (a := f.signature)]
            split <;> rfl
  · simp [hname]

/-- **The entries are those of the history.** -/
theorem function?_afterAll (history : List Function) (name : String) :
    (Symbols.afterAll history).function? name = entryOf? history name := by
  induction history using List.reverseRecOn with
  | nil => rfl
  | append_singleton history f ih =>
      rw [Symbols.afterAll_concat, Symbols.function?_after, ih, entryOf?_concat]

/-! ## Entries -/

theorem isSome_entryOf? : (entryOf? history name).isSome = true ↔ ∃ f ∈ history, f.name = name := by
  unfold entryOf? declared?
  rw [Option.isSome_map, List.find?_isSome]
  simp

/-- An entry is what was declared first or a definition with its signature. -/
theorem entryOf?_spec (h : entryOf? history name = some f) :
    f ∈ history ∧ f.name = name ∧ ∃ first, declared? history name = some first ∧
      f.signature = first.signature ∧
      f = (defined? history name first.signature).getD first := by
  obtain ⟨first, hfirst, rfl⟩ := Option.map_eq_some_iff.1 h
  cases hdefinition : defined? history name first.signature with
  | none =>
      obtain ⟨hmem, hname⟩ := declared?_spec hfirst
      refine ⟨hmem, hname, first, hfirst, rfl, ?_⟩
      rw [hdefinition]
  | some d =>
      obtain ⟨hmem, hname, -, hsignature⟩ := defined?_spec hdefinition
      refine ⟨hmem, hname, first, hfirst, hsignature, ?_⟩
      rw [hdefinition]

/-- What callers know of a function stays so, whatever else is declared. -/
theorem signature_entryOf?_append (h : entryOf? history name = some f) (more : List Function) :
    ∃ g, entryOf? (history ++ more) name = some g ∧ g.signature = f.signature := by
  obtain ⟨-, -, first, hfirst, hsignature, -⟩ := entryOf?_spec h
  have hfirst' : declared? (history ++ more) name = some first := by
    unfold declared? at hfirst ⊢
    rw [List.find?_append, hfirst]
    rfl
  have hentry : entryOf? (history ++ more) name =
      some ((defined? (history ++ more) name first.signature).getD first) := by
    rw [entryOf?, hfirst']
    rfl
  obtain ⟨-, -, first₁, hfirst₁, hsignature₁, -⟩ := entryOf?_spec hentry
  obtain rfl := Option.some.inj (hfirst'.symm.trans hfirst₁)
  exact ⟨_, hentry, hsignature₁.trans hsignature.symm⟩

/-! ## Refused declarations -/

/-- Why a declaration is refused where a name has the entry `known`. -/
inductive Refuses (known f : Function) : Refusal → Prop
  | redeclared : known.defined = true → f.defined = true →
      Refuses known f (.functionRedeclared f.name)
  | conflicting : ¬(known.defined = true ∧ f.defined = true) → known.signature ≠ f.signature →
      Refuses known f (.conflictingFunction f.name)

/-- Which declarations are refused, and why. -/
theorem declareFunction_eq_error_iff : σ.declareFunction f = .error refusal ↔
    ∃ known, σ.function? f.name = some known ∧ Refuses known f refusal := by
  refine Attempt.result_eq_error_iff.trans ?_
  have hdeclared := σ.declaresFunction f
  generalize σ.tryFunction f = attempt at hdeclared
  constructor
  · intro hrefused
    cases hdeclared with
    | first => cases hrefused
    | redeclared hknown hdefined hdefines =>
        cases hrefused
        exact ⟨_, hknown, .redeclared hdefined hdefines⟩
    | conflicting hknown hboth hsignature =>
        cases hrefused
        exact ⟨_, hknown, .conflicting hboth hsignature⟩
    | defined => cases hrefused
    | announced => cases hrefused
  · rintro ⟨known, hknown, hrefuses⟩
    cases hdeclared with
    | first hnone => exact nomatch hnone.symm.trans hknown
    | redeclared hknown' hdefined hdefines =>
        obtain rfl := Option.some.inj (hknown.symm.trans hknown')
        cases hrefuses with
        | redeclared => rfl
        | conflicting hboth _ => exact absurd ⟨hdefined, hdefines⟩ hboth
    | conflicting hknown' hboth hsignature =>
        obtain rfl := Option.some.inj (hknown.symm.trans hknown')
        cases hrefuses with
        | redeclared hdefined hdefines => exact absurd ⟨hdefined, hdefines⟩ hboth
        | conflicting => rfl
    | defined hknown' hprototype _ hsignature =>
        obtain rfl := Option.some.inj (hknown.symm.trans hknown')
        cases hrefuses with
        | redeclared hdefined _ => exact nomatch hprototype.symm.trans hdefined
        | conflicting _ hdiffers => exact absurd hsignature hdiffers
    | announced hknown' hprototype hsignature =>
        obtain rfl := Option.some.inj (hknown.symm.trans hknown')
        cases hrefuses with
        | redeclared _ hdefines => exact nomatch hprototype.symm.trans hdefines
        | conflicting _ hdiffers => exact absurd hsignature hdiffers

/-! ## Declarations that agree -/

/-- Whether the declarations of a name have one signature, and one of them at most is a
definition. -/
structure Agreeing (history : List Function) (name : String) : Prop where
  signature : ∀ f ∈ history, f.name = name → ∀ g ∈ history, g.name = name →
    f.signature = g.signature
  defined : (history.filter fun f => f.name == name && f.defined).length ≤ 1

namespace Agreeing

/-- Declarations that agree do so in any order, and whatever is declared of other names. -/
theorem perm (h : Agreeing history name)
    (hperm : (history'.filter (·.name == name)).Perm (history.filter (·.name == name))) :
    Agreeing history' name := by
  have hmem : ∀ f ∈ history', f.name = name → f ∈ history := by
    intro f hf hname
    have hown : f ∈ history'.filter (·.name == name) :=
      List.mem_filter.2 ⟨hf, by simpa using hname⟩
    exact (List.mem_filter.1 (hperm.mem_iff.1 hown)).1
  refine ⟨fun f hf hname g hg hname' => ?_, ?_⟩
  · exact h.signature f (hmem f hf hname) hname g (hmem g hg hname') hname'
  · have hdefined := (hperm.filter Function.defined).length_eq
    rw [List.filter_filter, List.filter_filter] at hdefined
    have hle := h.defined
    simp only [Bool.and_comm (_ == name)] at hle ⊢
    omega

/-- Two declarations of the name, one behind the other, are not both definitions. -/
theorem not_both {earlier later : List Function} (h : Agreeing (earlier ++ f :: later) name)
    (hg : g ∈ earlier) (hgname : g.name = name) (hfname : f.name = name) :
    ¬(g.defined = true ∧ f.defined = true) := by
  rintro ⟨hgdefined, hfdefined⟩
  have hle := h.defined
  have hpos : 0 < (earlier.filter fun f => f.name == name && f.defined).length :=
    List.length_pos_of_mem (List.mem_filter.2 ⟨hg, by simp [hgname, hgdefined]⟩)
  rw [List.filter_append, List.filter_cons_of_pos (by simp [hfname, hfdefined]),
    List.length_append, List.length_cons] at hle
  omega

/-- Declarations that agree are all accepted. -/
theorem accepted {earlier later : List Function} (h : Agreeing (earlier ++ f :: later) name)
    (hname : f.name = name) : ∃ σ, (Symbols.afterAll earlier).declareFunction f = .ok σ := by
  cases hdeclared : (Symbols.afterAll earlier).declareFunction f with
  | ok σ => exact ⟨σ, rfl⟩
  | error refusal =>
      obtain ⟨known, hknown, hrefuses⟩ := declareFunction_eq_error_iff.1 hdeclared
      rw [function?_afterAll] at hknown
      obtain ⟨hmem, hknownName, -⟩ := entryOf?_spec hknown
      have hknownName := hknownName.trans hname
      cases hrefuses with
      | redeclared hdefined hdefines =>
          exact absurd ⟨hdefined, hdefines⟩ (h.not_both hmem hknownName hname)
      | conflicting _ hdiffers =>
          refine absurd ?_ hdiffers
          exact h.signature known (List.mem_append_left _ hmem) hknownName f (by simp) hname

/-- The one definition of the name, if there is one, is its entry. -/
theorem entryOf?_of_defined (h : Agreeing history name) (hf : f ∈ history) (hname : f.name = name)
    (hdefined : f.defined = true) : entryOf? history name = some f := by
  obtain ⟨g, hg⟩ := Option.isSome_iff_exists.1 (isSome_entryOf?.2 ⟨f, hf, hname⟩)
  obtain ⟨hgmem, hgname, first, hfirst, hsignature, heq⟩ := entryOf?_spec hg
  obtain ⟨hfirstMem, hfirstName⟩ := declared?_spec hfirst
  cases hdefinition : defined? history name first.signature with
  | none =>
      have hprototype := defined?_eq_none hdefinition hf hname
        (h.signature f hf hname first hfirstMem hfirstName)
      exact nomatch hprototype.symm.trans hdefined
  | some d =>
      rw [hdefinition] at heq
      obtain ⟨hmem, hdname, hddefined, -⟩ := defined?_spec hdefinition
      -- both are among the definitions of the name, of which there is one
      have hle := h.defined
      have hdown : d ∈ history.filter fun f => f.name == name && f.defined :=
        List.mem_filter.2 ⟨hmem, by simp [hdname, hddefined]⟩
      have hfown : f ∈ history.filter fun f => f.name == name && f.defined :=
        List.mem_filter.2 ⟨hf, by simp [hname, hdefined]⟩
      generalize history.filter (fun f => f.name == name && f.defined) = defined at *
      cases defined with
      | nil => cases hfown
      | cons only rest =>
          obtain rfl := List.eq_nil_of_length_eq_zero (Nat.le_zero.1 (Nat.le_of_succ_le_succ hle))
          obtain rfl := List.mem_singleton.1 hdown
          obtain rfl := List.mem_singleton.1 hfown
          rw [hg, heq]
          rfl

end Agreeing

/-- Where a name is not defined, its entry is what was declared first. -/
theorem entryOf?_of_prototypes (h : ∀ f ∈ history, f.name = name → f.defined = false) :
    entryOf? history name = declared? history name := by
  unfold entryOf?
  cases hfirst : declared? history name with
  | none => rfl
  | some first =>
      cases hdefinition : defined? history name first.signature with
      | none =>
          rw [Option.map_some, hdefinition]
          rfl
      | some d =>
          obtain ⟨hmem, hname, hdefined, -⟩ := defined?_spec hdefinition
          exact nomatch (h d hmem hname).symm.trans hdefined

/-! ## The registry of functions -/

/-- What a history of declarations leaves of functions, and how the next declaration is answered. -/
structure RegistersFunctions (history : List Function) : Prop where
  /-- A name has an entry if and only if it was declared. -/
  known : ∀ name, ((Symbols.afterAll history).function? name).isSome = true ↔
    ∃ f ∈ history, f.name = name
  /-- The entry has the name and the signature of the first declaration, and it is the first
  definition of that signature, or else the first declaration. -/
  entry : ∀ name f, (Symbols.afterAll history).function? name = some f → f.name = name ∧
    ∃ first, declared? history name = some first ∧ f.signature = first.signature ∧
      f = (defined? history name first.signature).getD first
  /-- It tells callers the same whatever is declared later. -/
  stays : ∀ name f, (Symbols.afterAll history).function? name = some f →
    ∀ more, ∃ g, (Symbols.afterAll (history ++ more)).function? name = some g ∧
      g.signature = f.signature
  /-- A declaration is refused if it defines again what is defined, or else if it differs from the
  entry. -/
  refused : ∀ f refusal, (Symbols.afterAll history).declareFunction f = .error refusal ↔
    ∃ known, (Symbols.afterAll history).function? f.name = some known ∧ Refuses known f refusal
  /-- One that is refused changes nothing. -/
  unchanged : ∀ f refusal, (Symbols.afterAll history).declareFunction f = .error refusal →
    Symbols.afterAll (history ++ [f]) = Symbols.afterAll history
  /-- Declarations of a name that agree are all accepted in any other order, and whatever is
  declared of other names.  The definition stands, or else the one that came first. -/
  agreeing : ∀ history' name, Agreeing history name →
    (history'.filter (·.name == name)).Perm (history.filter (·.name == name)) →
    (∀ earlier f later, history' = earlier ++ f :: later → f.name = name →
      ∃ σ, (Symbols.afterAll earlier).declareFunction f = .ok σ) ∧
    (∀ f ∈ history, f.name = name → f.defined = true →
      (Symbols.afterAll history').function? name = some f) ∧
    ((∀ f ∈ history, f.name = name → f.defined = false) →
      (Symbols.afterAll history').function? name = declared? history' name)

/-- **There is one consistent entry for each function,** whatever was declared, and in whatever
order. -/
theorem functions_registered (history : List Function) : RegistersFunctions history where
  known name := by
    rw [function?_afterAll]
    exact isSome_entryOf?
  entry name f hentry := by
    rw [function?_afterAll] at hentry
    obtain ⟨-, hname, hfirst⟩ := entryOf?_spec hentry
    exact ⟨hname, hfirst⟩
  stays name f hentry more := by
    rw [function?_afterAll] at hentry ⊢
    exact signature_entryOf?_append hentry more
  refused f refusal := declareFunction_eq_error_iff
  unchanged f refusal hrefused := by
    rw [Symbols.afterAll_concat]
    exact Symbols.careful_tryFunction f (Symbols.afterAll history) refusal
      (Attempt.result_eq_error_iff.1 hrefused)
  agreeing := by
    intro history' name hagreeing hperm
    have hagreeing' := hagreeing.perm hperm
    have hmem : ∀ f, f.name = name → (f ∈ history' ↔ f ∈ history) := by
      intro f hname
      have hown := hperm.mem_iff (a := f)
      simpa [List.mem_filter, hname] using hown
    simp only [function?_afterAll]
    refine ⟨?_, fun f hf hname => ?_, fun hprototypes => ?_⟩
    · rintro earlier f later rfl hname
      exact hagreeing'.accepted hname
    · exact hagreeing'.entryOf?_of_defined ((hmem f hname).2 hf) hname
    · refine entryOf?_of_prototypes fun f hf hname => ?_
      exact hprototypes f ((hmem f hname).1 hf) hname

/-- `int f(int n);` -/
def prototypeOfF : Function := ⟨"f", .int, [⟨"n", .int⟩], 1, false⟩

/-- `int f(int k) { }` -/
def definitionOfF : Function := ⟨"f", .int, [⟨"k", .int⟩], 2, true⟩

/-- `char f();` -/
def otherOfF : Function := ⟨"f", .plain .char, [], 3, false⟩

/-- A function is announced, defined and announced again in either order, with another one between
them; what it is defined as stands.  To declare it otherwise is refused. -/
theorem definition_registered :
    let main : Function := ⟨"main", .int, [], 4, true⟩
    let history := [prototypeOfF, main, definitionOfF, prototypeOfF]
    Agreeing history "f" ∧
      (Symbols.afterAll [definitionOfF, prototypeOfF, prototypeOfF]).function? "f" =
        some definitionOfF ∧
      (Symbols.afterAll history).declareFunction otherOfF =
        .error (.conflictingFunction "f") ∧
      Symbols.afterAll (history ++ [otherOfF]) = Symbols.afterAll history := by
  intro main history
  have hagreeing : Agreeing history "f" := ⟨by decide, by decide⟩
  have hperm : ([definitionOfF, prototypeOfF, prototypeOfF].filter (·.name == "f")).Perm
      (history.filter (·.name == "f")) := by decide
  have hregisters := functions_registered history
  obtain ⟨-, hstands, -⟩ := hregisters.agreeing _ "f" hagreeing hperm
  have hrefused : (Symbols.afterAll history).declareFunction otherOfF =
      .error (.conflictingFunction "f") := by rfl
  exact ⟨hagreeing, hstands definitionOfF (by decide) rfl rfl, hrefused,
    hregisters.unchanged otherOfF _ hrefused⟩

end MiniC
