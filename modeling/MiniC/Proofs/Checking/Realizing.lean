import MiniC.Proofs.Checking.Walks
import MiniC.Proofs.Expression.Mentions

/-!
# `MiniC.Proofs.Checking.Realizing` — walks put back what they change, and find what checks find

Two things are true of a walk over a part, and one induction over the trees shows both.  Behind
the part every field is as it was in front, whatever it was and wherever the walk stopped: this is
kept by each of the five ways to write fields in front of a part and write them back behind.  And
if the fields say what a check of the part is handed, the walk finds what the check finds, and
declares what it declares.

The scopes that are open need not be the same in both.  A check puts a scope around every body, a
walk does so unless the body is a block.  The scope in question is empty as long as it is there,
so the two have the same names in them.

## Contents
- `Symbols.Like`: symbols that differ in empty scopes, and what they have in common.
- `Checker.Keeps`: what every walk leaves as it was.
- `Walk.Realizes`, with one lemma for each way to put walks together.
- One lemma for each kind of tree, up to `realized_stmt`.
-/

namespace MiniC

/-! ## Symbols that look alike -/

namespace Symbols

variable {σ σ' : Symbols}

/-- Names that stand for the same stand for the same in words. -/
theorem Alike.alikeFor (h : σ.Alike σ') (words : List Word) : σ.AlikeFor words σ' :=
  ⟨fun word _ _ => h.var? word.token.lexeme, h.functions, h.structs⟩

/-- An expression asks the symbols for names only, so it has the same type where they stand for the
same. -/
theorem Alike.typing (h : σ.Alike σ') (e : Expr) : e.typing σ = e.typing σ' :=
  e.typing_alikeFor (h.alikeFor _)

theorem Alike.trail (h : σ.Alike σ') (arguments : Trail) :
    arguments.typing σ = arguments.typing σ' :=
  arguments.typing_alikeFor (h.alikeFor _)

theorem Alike.resolve (h : σ.Alike σ') (spec : TypeSpec) (enclosing : Option String) :
    spec.resolve σ enclosing = spec.resolve σ' enclosing :=
  (h.alikeFor []).resolve enclosing spec

/-- What a place stands for is told by its path and by the variable in front of it. -/
theorem Alike.target (h : σ.Alike σ') (p : Place) : p.target σ = p.target σ' := by
  simp only [Place.target, h.typing, h.var?]

theorem Alike.assignment (h : σ.Alike σ') (a : Assignment) : a.check σ = a.check σ' := by
  cases a <;> simp only [Assignment.check, h.target, h.typing]

theorem Alike.test (h : σ.Alike σ') (ruled : Ruled) (test : Expr) :
    checkTest σ ruled test = checkTest σ' ruled test := by
  simp only [checkTest, h.typing]

theorem Alike.condition (h : σ.Alike σ') (ruled : Ruled) (c : Condition) :
    c.check σ ruled = c.check σ' ruled := by
  simp only [Condition.check, h.test]

theorem Alike.subject (h : σ.Alike σ') (subject : Expr) :
    checkSubject σ subject = checkSubject σ' subject := by
  simp only [checkSubject, h.typing]

/-- A field asks for its type only. -/
theorem Alike.field (h : σ.Alike σ') (struct : StructDef) (f : Field) :
    f.check σ struct = f.check σ' struct := by
  simp only [Field.check, h.resolve]

end Symbols

/-! ## Empty scopes -/

/-- The scopes in which something is declared. -/
def Scopes.occupied (scopes : Scopes) : Scopes := scopes.filter (!·.isEmpty)

/-- A name stands for what it stands for in the scopes in which something is declared. -/
theorem Scopes.find?_occupied (scopes : Scopes) (name : String) :
    scopes.occupied.find? name = scopes.find? name := by
  induction scopes with
  | nil => rfl
  | cons scope outer ih =>
      cases scope with
      | nil => exact ih
      | cons v scope =>
          show Scopes.find? ((v :: scope) :: Scopes.occupied outer) name = _
          unfold Scopes.find? at ih ⊢
          rw [List.findSome?_cons, List.findSome?_cons, ih]

/-- Symbols that differ only in empty scopes around the innermost. -/
structure Symbols.Like (σ σ' : Symbols) : Prop where
  innermost : σ.scopes.head? = σ'.scopes.head?
  around : Scopes.occupied σ.scopes.tail = Scopes.occupied σ'.scopes.tail
  functions : σ.functions = σ'.functions
  structs : σ.structs = σ'.structs

namespace Symbols.Like

variable {σ σ' : Symbols}

theorem refl (σ : Symbols) : σ.Like σ := ⟨rfl, rfl, rfl, rfl⟩

/-- The scopes in which something is declared are the same, the innermost among them. -/
theorem occupied (h : σ.Like σ') : Scopes.occupied σ.scopes = Scopes.occupied σ'.scopes := by
  obtain ⟨hinnermost, haround, -, -⟩ := h
  cases hscopes : σ.scopes with
  | nil =>
      rw [hscopes] at hinnermost
      rw [List.head?_eq_none_iff.1 hinnermost.symm]
  | cons scope outer =>
      obtain ⟨outer', hscopes'⟩ : ∃ outer', σ'.scopes = scope :: outer' := by
        rw [hscopes] at hinnermost
        exact List.head?_eq_some_iff.1 hinnermost.symm
      rw [hscopes, hscopes'] at haround
      rw [hscopes']
      simp only [Scopes.occupied, List.filter_cons]
      simp only [List.tail_cons, Scopes.occupied] at haround
      rw [haround]

/-- The same names are known. -/
theorem alike (h : σ.Like σ') : σ.Alike σ' := by
  refine ⟨fun name => ?_, h.functions, h.structs⟩
  rw [Symbols.var?, Symbols.var?, ← Scopes.find?_occupied, h.occupied, Scopes.find?_occupied]

/-- Opening a scope in both makes no difference that was not there. -/
theorem enter (h : σ.Like σ') : σ.enter.Like σ'.enter :=
  ⟨rfl, h.occupied, h.functions, h.structs⟩

/-- A scope that is opened in front of another one is empty, and makes no difference. -/
theorem enter_enter (h : σ.Like σ') : σ.enter.Like σ'.enter.enter :=
  ⟨rfl, h.occupied, h.functions, h.structs⟩

/-- Scopes that were kept are as like as they were. -/
theorem of_keeps {σ₁ σ₁' : Symbols} (h : σ.Like σ') (hscopes : σ₁.scopes = σ.scopes)
    (hscopes' : σ₁'.scopes = σ'.scopes) (hfunctions : σ₁.functions = σ₁'.functions)
    (hstructs : σ₁.structs = σ₁'.structs) : σ₁.Like σ₁' :=
  ⟨by rw [hscopes, hscopes', h.innermost], by rw [hscopes, hscopes', h.around], hfunctions,
    hstructs⟩

/-- If both were the same and kept all scopes but the innermost, they are the same. -/
theorem eq {σ₁ σ₁' : Symbols} (h : σ₁.Like σ₁') (hkeeps : σ.Keeps σ₁) (hkeeps' : σ.Keeps σ₁') :
    σ₁ = σ₁' := by
  obtain ⟨scopes, functions, structs⟩ := σ₁
  obtain ⟨scopes', functions', structs'⟩ := σ₁'
  obtain ⟨hinnermost, -, hfunctions, hstructs⟩ := h
  have htail : scopes.tail = scopes'.tail := hkeeps.outer.trans hkeeps'.outer.symm
  have hscopes : scopes = scopes' := by
    cases scopes with
    | nil => exact (List.head?_eq_none_iff.1 hinnermost.symm).symm
    | cons scope outer =>
        obtain ⟨outer', rfl⟩ := List.head?_eq_some_iff.1 hinnermost.symm
        rw [show outer = outer' from htail]
  cases hscopes
  cases hfunctions
  cases hstructs
  rfl

end Symbols.Like

/-- A declaration that sees no more of the scopes than what is declared in the innermost. -/
def Likening (declare : Symbols → Attempt Symbols) : Prop :=
  ∀ σ σ' : Symbols, σ.Like σ' →
    (declare σ).1.Like (declare σ').1 ∧ (declare σ).2 = (declare σ').2

/-- A variable is refused or accepted by the innermost scope, which is the same in both. -/
theorem likening_declareVariable (v : Variable) : Likening (·.tryVariable v) := by
  intro σ σ' h
  obtain ⟨scopes, functions, structs⟩ := σ
  obtain ⟨scopes', functions', structs'⟩ := σ'
  obtain ⟨hinnermost, haround, hfunctions, hstructs⟩ := h
  cases scopes with
  | nil =>
      obtain rfl := List.head?_eq_none_iff.1 hinnermost.symm
      exact ⟨⟨rfl, haround, hfunctions, hstructs⟩, rfl⟩
  | cons scope outer =>
      obtain ⟨outer', rfl⟩ := List.head?_eq_some_iff.1 hinnermost.symm
      dsimp only
      by_cases hdeclared : (scope.find? v.name).isSome = true
      · rw [Symbols.tryVariable_of_known hdeclared, Symbols.tryVariable_of_known hdeclared]
        exact ⟨⟨rfl, haround, hfunctions, hstructs⟩, rfl⟩
      · rw [Symbols.tryVariable_of_new hdeclared, Symbols.tryVariable_of_new hdeclared]
        exact ⟨⟨rfl, haround, hfunctions, hstructs⟩, rfl⟩

/-- A function is refused or accepted by the functions, which are the same in both. -/
theorem likening_declareFunction (f : Function) : Likening (·.tryFunction f) := by
  intro σ σ' h
  have hlooked : σ.function? f.name = σ'.function? f.name := h.alike.function? f.name
  simp only [Symbols.tryFunction, hlooked]
  cases σ'.function? f.name with
  | none => exact ⟨⟨h.innermost, h.around, by rw [h.functions], h.structs⟩, rfl⟩
  | some known =>
      dsimp only
      split
      · exact ⟨h, rfl⟩
      · split
        · exact ⟨h, rfl⟩
        · split
          · refine ⟨⟨h.innermost, h.around, ?_, h.structs⟩, rfl⟩
            simp only [Symbols.replaceFunction, h.functions]
          · exact ⟨h, rfl⟩

/-- A struct is refused or accepted by the structs, which are the same in both. -/
theorem likening_declareStruct (struct : StructDef) : Likening (·.tryStruct struct) := by
  intro σ σ' h
  simp only [Symbols.tryStruct, h.alike.struct?]
  by_cases hdeclared : (σ'.struct? struct.name).isSome = true
  · rw [if_pos hdeclared, if_pos hdeclared]
    exact ⟨h, rfl⟩
  · rw [if_neg hdeclared, if_neg hdeclared]
    exact ⟨⟨h.innermost, h.around, h.functions, by rw [h.structs]⟩, rfl⟩

/-! ## What every walk leaves as it was -/

/-- What every walk leaves as it was: the scopes, up to new names in the innermost, and all other
fields. -/
structure Checker.Keeps (s s' : Checker) : Prop where
  symbols : s.symbols.Keeps s'.symbols
  function : s'.function = s.function
  struct : s'.struct = s.struct
  loops : s'.loops = s.loops
  switches : s'.switches = s.switches

namespace Checker.Keeps

variable {s s₁ s₂ : Checker}

theorem refl (s : Checker) : s.Keeps s := ⟨.refl _, rfl, rfl, rfl, rfl⟩

/-- What each of two walks leaves as it was is left so by both in a row. -/
theorem trans (h₁ : s.Keeps s₁) (h₂ : s₁.Keeps s₂) : s.Keeps s₂ :=
  ⟨h₁.symbols.trans h₂.symbols, h₂.function.trans h₁.function, h₂.struct.trans h₁.struct,
    h₂.loops.trans h₁.loops, h₂.switches.trans h₁.switches⟩

/-- What is around the next statement is told by fields that are kept. -/
theorem context (h : s.Keeps s₁) : s₁.context = s.context := by
  rw [Checker.context, h.function, h.loops, h.switches]
  rfl

end Checker.Keeps

/-! ## Expressions in the fields of a struct -/

/-- Outside of structs nothing is spared. -/
theorem Finding.sparing_none {α : Type} (f : Finding α) : f.sparing none = f := by
  have hnone : ∀ issue : Issue, issue.isAbout none = false := by
    intro issue
    unfold Issue.isAbout
    split <;> rfl
  refine Finding.ext ?_ rfl
  simp [Finding.sparing, hnone]

/-- The struct whose fields are being declared may be named in an expression as it may be in
front of a field. -/
theorem TypeSpec.walk_eq_reading (spec : TypeSpec) :
    spec.walk = Walk.reading fun σ => spec.resolve σ none := by
  funext s
  refine Prod.ext rfl ?_
  show spec.resolve s.symbols s.struct = (spec.resolve s.symbols none).sparing s.struct
  cases spec with
  | words first rest => rfl
  | missing hole => rfl
  | struct keyword name =>
      cases name with
      | missing hole => rfl
      | found name =>
          simp only [TypeSpec.resolve, Slot.get]
          by_cases hdeclared : (s.symbols.struct? name.lexeme).isSome = true
          · simp [hdeclared, Finding.complain, Finding.sparing]
            rfl
          · by_cases habout : s.struct = some name.lexeme
            · simp [hdeclared, habout, Finding.complain, Finding.report, Finding.sparing,
                Finding.bind_eq, Finding.andThen, Issue.isAbout]
            · simp [hdeclared, habout, Finding.complain, Finding.report, Finding.sparing,
                Finding.bind_eq, Finding.andThen, Issue.isAbout]

/-! ## Walks that realize checks -/

/-- A walk that leaves all fields as they were, and finds what a check finds in a context, with
the fields of a struct or nothing of the kind around.  A check that it realizes keeps the scopes
too, and sees no more of them than the walk. -/
structure Walk.Realizes {α : Type} (w : Walk α) (context : Context) (struct : Option String)
    (c : Check α) : Prop where
  /-- In every state, whatever the context is. -/
  keeps : ∀ s : Checker, s.Keeps (w s).1
  blameless : ∀ s, 0 < s.symbols.depth → ∀ issue ∈ (w s).2.issues, issue.blamesScope = false
  keepsToo : ∀ σ : Symbols, σ.Keeps (c σ).1
  same : ∀ s σ, s.context = context → s.struct = struct → s.symbols.Like σ →
    (w s).2 = (c σ).2 ∧ (w s).1.symbols.Like (c σ).1

namespace Walk

variable {α β : Type}

/-- A walk that stops at a hole stops the one around it, in the fields that it left. -/
theorem bind_of_error {w : Walk α} {next : α → Walk β} {s : Checker} {hole : Hole}
    (h : (w s).2.outcome = .error hole) :
    (w >>= next) s = ((w s).1, ⟨(w s).2.issues, .error hole⟩) := by
  show w.andThen next s = _
  simp only [andThen, h]

/-- A walk that comes to its end is followed by the next, in the fields that it left. -/
theorem bind_of_ok {w : Walk α} {next : α → Walk β} {s : Checker} {a : α}
    (h : (w s).2.outcome = .ok a) :
    (w >>= next) s = ((next a (w s).1).1,
      ⟨(w s).2.issues ++ (next a (w s).1).2.issues, (next a (w s).1).2.outcome⟩) := by
  show w.andThen next s = _
  simp only [andThen, h]

namespace Realizes

variable {w : Walk α} {next : α → Walk β} {c : Check α} {next' : α → Check β}
variable {context : Context} {struct : Option String} {t : Trace} {fault : Fault}

/-! ### Walks that look at the fields -/

/-- A walk that looks at no field realizes the check that looks at no symbols. -/
theorem lift {f : Finding α} (h : f.Leaves t) :
    (Walk.lift f).Realizes context struct (Check.lift f) :=
  ⟨.refl, fun _ _ => h.blameless, .refl, fun _ _ _ _ hlike => ⟨rfl, hlike⟩⟩

theorem pure (a : α) : (Pure.pure a : Walk α).Realizes context struct (Pure.pure a) :=
  lift (.pure a)

theorem get (slot : Slot) : (Walk.lift slot.get).Realizes context struct (Check.lift slot.get) :=
  lift (.get slot)

theorem require (slot : Slot) :
    (Walk.lift slot.require).Realizes context struct (Check.lift slot.require) :=
  lift (.require slot)

theorem complain (fine : Bool) (h : fault.blamesScope = false) (site : Option Token) :
    (Walk.lift (Finding.complain fine fault site)).Realizes context struct
      (Check.lift (Finding.complain fine fault site)) :=
  lift (.complain fine h site)

/-- Where no field of a struct is being declared, the symbols are all that is looked at. -/
theorem reading {f : Symbols → Finding α} (h : ∀ σ, (f σ).Leaves t)
    (halike : ∀ {σ σ'}, σ.Alike σ' → f σ = f σ') :
    (Walk.reading f).Realizes context none (Check.reading f) := by
  refine ⟨.refl, fun s _ issue hissue => ?_, .refl, fun s σ _ hstruct hlike => ⟨?_, hlike⟩⟩
  · exact (h s.symbols).blameless issue (List.mem_filter.1 hissue).1
  · show (f s.symbols).sparing s.struct = f σ
    rw [hstruct, Finding.sparing_none, halike hlike.alike]

/-- A type may name the struct whose fields are being declared: the walk finds it in a field, the
check is handed it. -/
theorem typeSpec (spec : TypeSpec) :
    spec.walk.Realizes context struct (Check.reading fun σ => spec.resolve σ struct) := by
  refine ⟨.refl, fun s _ => (leaves_resolve spec s.struct).blameless, .refl,
    fun s σ _ hstruct hlike => ⟨?_, hlike⟩⟩
  show spec.resolve s.symbols s.struct = spec.resolve σ struct
  rw [hstruct, hlike.alike.resolve]

/-- A walk that asks what is around goes on as the check in that context. -/
theorem around {next : Context → Walk β} {c : Context → Check β}
    (h : ∀ asked, (next asked).Realizes asked struct (c asked)) :
    (Walk.around >>= next).Realizes context struct (c context) := by
  refine ⟨fun s => (h s.context).keeps s, fun s => (h s.context).blameless s,
    (h context).keepsToo, ?_⟩
  rintro s σ rfl hstruct hlike
  exact (h s.context).same s σ rfl hstruct hlike

/-! ### One walk behind another -/

/-- A walk behind another one, of whose value something is known. -/
theorem bind_of {P : α → Prop} (hw : w.Realizes context struct c)
    (hyields : ∀ s a, (w s).2.outcome = .ok a → P a)
    (hnext : ∀ a, P a → (next a).Realizes context struct (next' a))
    (hkeeps : ∀ a (σ : Symbols), σ.Keeps (next' a σ).1) :
    (w >>= next).Realizes context struct (c >>= next') := by
  refine ⟨fun s => ?_, fun s hopen => ?_, fun σ => ?_, fun s σ hcontext hstruct hlike => ?_⟩
  · cases houtcome : (w s).2.outcome with
    | error hole =>
        rw [bind_of_error houtcome]
        exact hw.keeps s
    | ok a =>
        rw [bind_of_ok houtcome]
        exact (hw.keeps s).trans ((hnext a (hyields s a houtcome)).keeps _)
  · have hopen₁ : 0 < (w s).1.symbols.depth := by rwa [(hw.keeps s).symbols.depth]
    cases houtcome : (w s).2.outcome with
    | error hole =>
        rw [bind_of_error houtcome]
        exact hw.blameless s hopen
    | ok a =>
        rw [bind_of_ok houtcome]
        intro issue hissue
        rcases List.mem_append.1 hissue with hissue | hissue
        · exact hw.blameless s hopen issue hissue
        · exact (hnext a (hyields s a houtcome)).blameless _ hopen₁ issue hissue
  · rw [Check.bind_run]
    split
    · exact hw.keepsToo σ
    · exact (hw.keepsToo σ).trans (hkeeps _ _)
  -- The second walk finds the context that the first has found, as that one has put it back.
  · obtain ⟨hfound, hlike₁⟩ := hw.same s σ hcontext hstruct hlike
    have hcontext₁ : (w s).1.context = context := (hw.keeps s).context.trans hcontext
    have hstruct₁ : (w s).1.struct = struct := (hw.keeps s).struct.trans hstruct
    cases houtcome : (w s).2.outcome with
    | error hole =>
        have houtcome' : (c σ).2.outcome = .error hole := by rw [← hfound, houtcome]
        rw [bind_of_error houtcome, Check.bind_run, houtcome', hfound]
        exact ⟨rfl, hlike₁⟩
    | ok a =>
        have houtcome' : (c σ).2.outcome = .ok a := by rw [← hfound, houtcome]
        obtain ⟨hfound₂, hlike₂⟩ :=
          (hnext a (hyields s a houtcome)).same _ _ hcontext₁ hstruct₁ hlike₁
        rw [bind_of_ok houtcome, Check.bind_run, houtcome', hfound, hfound₂]
        exact ⟨rfl, hlike₂⟩

/-- Two walks in a row realize two checks in a row, the first of which has kept the context. -/
theorem bind (hw : w.Realizes context struct c)
    (hnext : ∀ a, (next a).Realizes context struct (next' a)) :
    (w >>= next).Realizes context struct (c >>= next') :=
  bind_of (P := fun _ => True) hw (fun _ _ _ => trivial) (fun a _ => hnext a)
    fun a => (hnext a).keepsToo

/-- A declaration is entered into both, or refused by both for the same cause. -/
theorem register {declare : Symbols → Attempt Symbols} (h : Keeping declare)
    (hlikening : Likening declare) (name : Token) :
    (Walk.register declare name).Realizes context struct (Check.register declare name) := by
  have hleaves := Check.Leaves.register h name
  -- a declaration changes one field
  have hrun : ∀ s, Walk.register declare name s =
      ({ s with symbols := (Check.register declare name s.symbols).1 },
        (Check.register declare name s.symbols).2) := by
    intro s
    unfold Walk.register Check.register
    rcases declare s.symbols with ⟨σ, _ | _⟩ <;> rfl
  refine ⟨fun s => ?_, fun s hopen => ?_, hleaves.keeps, fun s σ _ _ hlike => ?_⟩
  · rw [hrun]
    exact ⟨hleaves.keeps s.symbols, rfl, rfl, rfl, rfl⟩
  · rw [hrun]
    exact hleaves.blameless s.symbols hopen
  · rw [hrun]
    obtain ⟨hlike₁, hanswer⟩ := hlikening s.symbols σ hlike
    unfold Check.register
    generalize declare s.symbols = attempt at hlike₁ hanswer ⊢
    generalize declare σ = attempt' at hlike₁ hanswer ⊢
    obtain ⟨τ, answer⟩ := attempt
    obtain ⟨τ', answer'⟩ := attempt'
    obtain rfl : answer = answer' := hanswer
    cases answer with
    | error refusal => exact ⟨rfl, hlike₁⟩
    | ok _ => exact ⟨rfl, hlike₁⟩

/-- A hole is reported, and no scope is blamed for it. -/
theorem settledWith (hw : w.Realizes context struct c) (default : α) :
    (w.settledWith default).Realizes context struct fun σ =>
      ((c σ).1, (c σ).2.settledWith default) := by
  refine ⟨hw.keeps, fun s hopen => ?_, hw.keepsToo, fun s σ hcontext hstruct hlike => ?_⟩
  · have hleaves : (w s).2.Leaves (w s).2.trace := ⟨rfl, hw.blameless s hopen⟩
    exact (hleaves.settledWith default).blameless
  · obtain ⟨hfound, hlike₁⟩ := hw.same s σ hcontext hstruct hlike
    refine ⟨?_, hlike₁⟩
    show (w s).2.settledWith default = _
    rw [hfound]

/-- A statement that is broken off is settled in both. -/
theorem settled {w : Walk Unit} {c : Check Unit} (hw : w.Realizes context struct c) :
    (w.settledWith ()).Realizes context struct c.settled :=
  hw.settledWith ()

/-! ### Fields that are written and written back -/

/-- The scope that was opened is closed, and no other one. -/
theorem inScope (hw : w.Realizes context struct c) :
    (Walk.inScope w).Realizes context struct (Check.inScope c) := by
  refine ⟨fun s => ?_, fun s _ => ?_, fun σ => (hw.keepsToo σ.enter).leave,
    fun s σ hcontext hstruct hlike => ?_⟩
  · have hkeeps := hw.keeps { s with symbols := s.symbols.enter }
    exact ⟨hkeeps.symbols.leave, hkeeps.function, hkeeps.struct, hkeeps.loops, hkeeps.switches⟩
  · exact hw.blameless { s with symbols := s.symbols.enter } (Nat.succ_pos _)
  -- Behind the part both have the scopes that they had in front of it.
  · obtain ⟨hfound, hlike₁⟩ :=
      hw.same { s with symbols := s.symbols.enter } σ.enter hcontext hstruct hlike.enter
    have hkeeps := hw.keeps { s with symbols := s.symbols.enter }
    exact ⟨hfound, hlike.of_keeps hkeeps.symbols.outer (hw.keepsToo σ.enter).outer
      hlike₁.functions hlike₁.structs⟩

/-- A check may open two scopes where a walk opens one. -/
theorem inScope_inScope (hw : w.Realizes context struct c) :
    (Walk.inScope w).Realizes context struct (Check.inScope (Check.inScope c)) := by
  have hscoped := hw.inScope
  refine ⟨hscoped.keeps, hscoped.blameless, fun σ => (hscoped.keepsToo σ.enter).leave,
    fun s σ hcontext hstruct hlike => ?_⟩
  obtain ⟨hfound, hlike₁⟩ :=
    hw.same { s with symbols := s.symbols.enter } σ.enter.enter hcontext hstruct hlike.enter_enter
  have hkeeps := hw.keeps { s with symbols := s.symbols.enter }
  exact ⟨hfound, hlike.of_keeps hkeeps.symbols.outer (hscoped.keepsToo σ.enter).outer
    hlike₁.functions hlike₁.structs⟩

/-- The loop that was counted is the one that is taken off. -/
theorem inLoop (hw : w.Realizes context.loop struct c) :
    (Walk.inLoop w).Realizes context struct c := by
  refine ⟨fun s => ?_, fun s => hw.blameless { s with loops := s.loops + 1 }, hw.keepsToo,
    fun s σ hcontext hstruct hlike => ?_⟩
  · have hkeeps := hw.keeps { s with loops := s.loops + 1 }
    refine ⟨hkeeps.symbols, hkeeps.function, hkeeps.struct, ?_, hkeeps.switches⟩
    show (w { s with loops := s.loops + 1 }).1.loops - 1 = s.loops
    rw [hkeeps.loops]
    exact Nat.add_sub_cancel s.loops 1
  · have hinside : Checker.context { s with loops := s.loops + 1 } = context.loop := by
      rw [← hcontext]
      simp [Checker.context, Context.loop]
    exact hw.same { s with loops := s.loops + 1 } σ hinside hstruct hlike

/-- The switch that was counted is the one that is taken off. -/
theorem inSwitch (hw : w.Realizes context.switch struct c) :
    (Walk.inSwitch w).Realizes context struct c := by
  refine ⟨fun s => ?_, fun s => hw.blameless { s with switches := s.switches + 1 }, hw.keepsToo,
    fun s σ hcontext hstruct hlike => ?_⟩
  · have hkeeps := hw.keeps { s with switches := s.switches + 1 }
    refine ⟨hkeeps.symbols, hkeeps.function, hkeeps.struct, hkeeps.loops, ?_⟩
    show (w { s with switches := s.switches + 1 }).1.switches - 1 = s.switches
    rw [hkeeps.switches]
    exact Nat.add_sub_cancel s.switches 1
  · have hinside : Checker.context { s with switches := s.switches + 1 } = context.switch := by
      rw [← hcontext]
      simp [Checker.context, Context.switch]
    exact hw.same { s with switches := s.switches + 1 } σ hinside hstruct hlike

/-- Function and depths are put back as they were read in front of the body. -/
theorem inFunction {f : Enclosing} (hw : w.Realizes (.body f) struct c) :
    (Walk.inFunction f w).Realizes context struct c := by
  refine ⟨fun s => ?_,
    fun s => hw.blameless { s with function := some f, loops := 0, switches := 0 }, hw.keepsToo,
    fun s σ _ hstruct hlike => ?_⟩
  · have hkeeps := hw.keeps { s with function := some f, loops := 0, switches := 0 }
    exact ⟨hkeeps.symbols, rfl, hkeeps.struct, rfl, rfl⟩
  · exact hw.same { s with function := some f, loops := 0, switches := 0 } σ rfl hstruct hlike

/-- The struct around is put back as it was read in front of the fields. -/
theorem inStruct {name : String} (hw : w.Realizes context (some name) c) :
    (Walk.inStruct name w).Realizes context struct c := by
  refine ⟨fun s => ?_, fun s => hw.blameless { s with struct := some name }, hw.keepsToo,
    fun s σ hcontext _ hlike => ?_⟩
  · have hkeeps := hw.keeps { s with struct := some name }
    exact ⟨hkeeps.symbols, hkeeps.function, rfl, hkeeps.loops, hkeeps.switches⟩
  · exact hw.same { s with struct := some name } σ hcontext rfl hlike

/-- What is realized does not depend on how it is written. -/
theorem of_eq {c' : Check α} (hw : w.Realizes context struct c) (h : c' = c) :
    w.Realizes context struct c' := by
  rw [h]
  exact hw

end Realizes

end Walk

/-! ## Declarations -/

section Trees

variable {context : Context}

open Walk

/-- An expression, outside of the fields of a struct. -/
theorem realizes_expression (e : Expr) :
    (Walk.reading e.typing).Realizes context none (Check.reading e.typing) :=
  .reading (fun _ => leaves_typing e) fun h => h.typing e

theorem realizes_arguments (arguments : Trail) :
    (Walk.reading arguments.typing).Realizes context none (Check.reading arguments.typing) :=
  .reading (fun _ => leaves_trail arguments) fun h => h.trail arguments

/-- The initial value of a variable that stands declared already. -/
theorem realizes_initializer (name : Token) (type : CType) (init : Option (Token × Expr)) :
    (walkInitializer name type init).Realizes context none (checkInitializer name type init) := by
  cases init with
  | none => exact .pure _
  | some sign => exact (realizes_expression sign.2).bind fun _ => .complain _ (by rfl) _

theorem realizes_declareVariable {struct : Option String} (v : Variable) (name : Token) :
    (Walk.register (·.tryVariable v) name).Realizes context struct
      (Check.register (·.tryVariable v) name) :=
  .register (keeping_declareVariable v) (likening_declareVariable v) name

/-- A declared variable: the name, the brackets, the declaration and the initial value. -/
theorem realizes_declarator (base : BaseType) (isConst : Bool) (d : Declarator) :
    (d.walk base isConst).Realizes context none (d.check base isConst) :=
  (Realizes.get d.name).bind fun name =>
    (Realizes.lift (leaves_withSuffix _ d.array)).bind fun type =>
      (Realizes.complain _ (by rfl) _).bind fun _ =>
        (realizes_declareVariable _ name).bind fun _ => realizes_initializer name type d.init

/-- Declared variables one after the other. -/
theorem realizes_declarators (base : BaseType) (isConst : Bool) (ds : List Declarator) :
    (walkDeclarators base isConst ds).Realizes context none (checkDeclarators base isConst ds) := by
  induction ds with
  | nil => exact .pure _
  | cons d ds ih => exact (realizes_declarator base isConst d).bind fun _ => ih

/-- A type and the variables declared with it. -/
theorem realizes_declaration (d : Declaration) : d.walk.Realizes context none d.check :=
  (Realizes.typeSpec d.spec).bind fun _ =>
    (realizes_declarators _ _ _).bind fun _ => .require d.semicolon

/-! ### Fields of a struct -/

/-- Findings that follow one another under the same symbols. -/
theorem Check.reading_bind {α β : Type} (f : Symbols → Finding α)
    (next : α → Symbols → Finding β) :
    (Check.reading fun σ => f σ >>= fun a => next a σ) =
      Check.reading f >>= fun a => Check.reading (next a) := by
  funext σ
  rw [Check.bind_run]
  show (σ, f σ >>= fun a => next a σ) = _
  rw [Finding.bind_eq, Finding.andThen]
  cases houtcome : (f σ).outcome <;> simp only [Check.reading, houtcome]

/-- A field is walked over where the fields of its struct are declared. -/
theorem realizes_field (struct : StructDef) (f : Field) :
    (f.walk struct).Realizes context (some struct.name)
      (Check.reading fun σ => f.check σ struct) := by
  have hcheck : (Check.reading fun σ => f.check σ struct) =
      (Check.reading fun σ => f.spec.resolve σ (some struct.name)) >>= fun base =>
        Check.lift f.name.get >>= fun name =>
          Check.lift (((CType.plain base).withStars f.stars).withSuffix f.array) >>= fun type =>
            Check.lift f.semicolon.require >>= fun _ => Check.lift ( struct.admit name type) := by
    simp only [Field.check, Check.reading_bind]
    rfl
  rw [hcheck]
  exact (Realizes.typeSpec f.spec).bind fun _ => (Realizes.get f.name).bind fun _ =>
    (Realizes.lift (leaves_withSuffix _ f.array)).bind fun _ =>
      (Realizes.require f.semicolon).bind fun _ => .lift ( leaves_admit _ _ _)

/-- A walk that has a value has walked over its first part. -/
theorem Walk.ok_of_bind {α β : Type} {w : Walk α} {next : α → Walk β} {s : Checker} {b : β}
    (h : ((w >>= next) s).2.outcome = .ok b) :
    ∃ a, (w s).2.outcome = .ok a ∧ (next a (w s).1).2.outcome = .ok b := by
  cases houtcome : (w s).2.outcome with
  | error hole =>
      rw [bind_of_error houtcome] at h
      cases h
  | ok a =>
      rw [bind_of_ok houtcome] at h
      exact ⟨a, rfl, h⟩

/-- Another field does not change the name of the struct. -/
theorem name_walkField (struct : StructDef) (f : Field) (s : Checker) {extended : StructDef}
    (h : ((f.walk struct).settledWith struct s).2.outcome = .ok extended) :
    extended.name = struct.name := by
  have hwalk : ∀ extended, ((f.walk struct) s).2.outcome = .ok extended →
      extended.name = struct.name := by
    intro extended hextended
    obtain ⟨base, -, h₁⟩ := Walk.ok_of_bind hextended
    obtain ⟨name, -, h₂⟩ := Walk.ok_of_bind h₁
    obtain ⟨type, -, h₃⟩ := Walk.ok_of_bind h₂
    obtain ⟨_, -, h₄⟩ := Walk.ok_of_bind h₃
    change ( struct.admit name type).outcome = .ok extended at h₄
    unfold StructDef.admit at h₄
    by_cases hknown : (struct.field? name.lexeme).isSome = true
    · rw [StructDef.tryField_of_known hknown] at h₄
      cases h₄
      rfl
    · rw [StructDef.tryField_of_new hknown] at h₄
      cases h₄
      rfl
  change (((f.walk struct) s).2.settledWith struct).outcome = .ok extended at h
  cases houtcome : ((f.walk struct) s).2.outcome with
  | error hole =>
      rw [Finding.settledWith, houtcome] at h
      cases h
      rfl
  | ok extended' =>
      rw [Finding.settledWith, houtcome] at h
      cases h
      exact hwalk extended houtcome

/-- Fields one after the other. The struct grows, but it keeps its name, which is all that the walk
has of it in a field. -/
theorem realizes_fields (struct : StructDef) (fs : List Field) :
    (walkFields struct fs).Realizes context (some struct.name)
      (Check.reading fun σ => checkFields σ struct fs) := by
  induction fs generalizing struct with
  | nil => exact .pure _
  | cons f fs ih =>
      have hcheck : (Check.reading fun σ => checkFields σ struct (f :: fs)) =
          (fun σ => (σ, (f.check σ struct).settledWith struct) : Check StructDef) >>=
            fun extended => Check.reading fun σ => checkFields σ extended fs := by
        simp only [checkFields, Check.reading_bind]
        rfl
      rw [hcheck]
      refine ((realizes_field struct f).settledWith struct).bind_of (P := (·.name = struct.name))
        (fun s extended => name_walkField struct f s) (fun extended hname => ?_) fun _ => .refl
      rw [← hname]
      exact ih extended

/-- A struct: its name is written into a field for its fields, and taken back before it is declared.
-/
theorem realizes_structDecl (s : StructDecl) : s.walk.Realizes context none s.check :=
  (Realizes.inStruct (realizes_fields _ s.fields)).bind fun struct =>
    (Realizes.register (keeping_declareStruct struct) (likening_declareStruct struct)
      s.name).bind fun _ => (Realizes.require s.closing).bind fun _ => .require s.semicolon

/-! ### Functions -/

/-- A parameter, declared like a variable. -/
theorem realizes_param (p : Param) : p.walk.Realizes context none p.check :=
  (Realizes.typeSpec p.spec).bind fun _ => (Realizes.get p.name).bind fun name =>
    (Realizes.lift (leaves_withParamArray _ p.array)).bind fun _ =>
      (realizes_declareVariable _ name).bind fun _ => .pure _

/-- Parameters one after the other. -/
theorem realizes_params (ps : List Param) :
    (walkParams ps).Realizes context none (checkParams ps) := by
  induction ps with
  | nil => exact .pure _
  | cons p ps ih => exact (realizes_param p).bind fun _ => ih.bind fun _ => .pure _

/-- A header up to its opening parenthesis, checked. -/
def Header.front (h : Header) : Check (CType × Token) := do
  let base ← Check.reading fun σ => h.spec.resolve σ none
  let name ← h.name.get
  h.opening.require
  pure ((CType.plain base).withStars h.stars, name)

/-- A header from its parameters on, checked. -/
def Header.rest (h : Header) (front : CType × Token) (defined : Bool) : Check Enclosing := do
  let parameters ← checkParams h.params.toList
  h.closing.require
  Check.register (·.tryFunction
    ⟨front.2.lexeme, front.1, parameters, front.2.location.line, defined⟩) front.2
  pure ⟨front.2.lexeme, front.1⟩

/-- The check of a header falls into two at the opening parenthesis. -/
theorem Header.check_eq (h : Header) (defined : Bool) :
    h.check defined = h.front >>= fun front => h.rest front defined := by
  simp only [Header.check, Header.front, Header.rest, bind_assoc, pure_bind]

/-- The front of a header, which declares nothing. -/
theorem realizes_front (h : Header) : h.walkFront.Realizes context none h.front :=
  (Realizes.typeSpec h.spec).bind fun _ => (Realizes.get h.name).bind fun _ =>
    (Realizes.require h.opening).bind fun _ => .pure _

/-- The parameters of a function, and the function behind them. -/
theorem realizes_rest (h : Header) (front : CType × Token) (defined : Bool) :
    (h.walkRest front defined).Realizes context none (h.rest front defined) :=
  (realizes_params h.params.toList).bind fun _ => (Realizes.require h.closing).bind fun _ =>
    (Realizes.register (keeping_declareFunction _) (likening_declareFunction _) _).bind fun _ =>
      .pure _

/-- A header looks at no variable up to its parameters, so the scope of the parameters may as well
be opened behind. -/
theorem Header.inScope_front {β : Type} (h : Header) (next : CType × Token → Check β) :
    Check.inScope (h.front >>= next) = h.front >>= fun front => Check.inScope (next front) := by
  have hreading : ∀ {α γ : Type} (f : Symbols → Finding α) (k : α → Check γ),
      (∀ σ, f σ.enter = f σ) → Check.inScope (Check.reading f >>= k) =
        Check.reading f >>= fun a => Check.inScope (k a) := by
    intro α γ f k hf
    funext σ
    simp only [Check.inScope, Check.bind_run, Check.reading, hf]
    cases (f σ).outcome <;> rfl
  simp only [Header.front, bind_assoc, pure_bind]
  refine (hreading _ _ fun σ => (Symbols.Alike.enter σ).resolve h.spec none).trans ?_
  congr 1
  funext base
  refine (hreading _ _ fun _ => rfl).trans ?_
  congr 1
  funext name
  exact hreading _ _ fun _ => rfl

/-! ## Statements -/

/-- A condition in parentheses. -/
theorem realizes_condition (ruled : Ruled) (c : Condition) :
    (Walk.reading fun σ => c.check σ ruled).Realizes context none
      (Check.reading fun σ => c.check σ ruled) :=
  .reading (fun _ => leaves_condition ruled c) fun h => h.condition ruled c

/-- An assignment. -/
theorem realizes_assignment (a : Assignment) :
    (Walk.reading a.check).Realizes context none (Check.reading a.check) :=
  .reading (fun _ => leaves_assignment a) fun h => h.assignment a

/-- The first part of a `for`, which may declare variables. -/
theorem realizes_forInit (init : ForInit) : init.walk.Realizes context none init.check := by
  cases init with
  | none semicolon => exact .pure _
  | declaration d => exact realizes_declaration d
  | assignment a semicolon => exact (realizes_assignment a).bind fun _ => .require semicolon

theorem realizes_forTest (test : Option Expr) :
    (walkForTest test).Realizes context none (checkForTest test) := by
  cases test with
  | none => exact .pure _
  | some test =>
      exact .reading (fun _ => leaves_checkTest .forLoop test) fun h => h.test .forLoop test

theorem realizes_forUpdate (update : Option Assignment) :
    (walkForUpdate update).Realizes context none (checkForUpdate update) := by
  cases update with
  | none => exact .pure _
  | some a => exact realizes_assignment a

/-- A statement whose walk realizes its check, where it stands alone and where it is the body of a
control statement. -/
structure Stmt.Realized (context : Context) (s : Stmt) : Prop where
  alone : s.walk.Realizes context none (s.check context)
  body : (walkBody s.isBlock s.walk).Realizes context none (Check.inScope (s.check context))

/-- A statement that is not a block has a scope of its own where it is a body. -/
theorem Stmt.Realized.of_alone {s : Stmt} (hblock : s.isBlock = false)
    (h : s.walk.Realizes context none (s.check context)) : s.Realized context := by
  refine ⟨h, ?_⟩
  rw [hblock]
  exact h.inScope

/-- What stands behind a scope and declares nothing might as well stand in another one around. -/
theorem Check.inScope_bind_lift {α β : Type} (c : Check α) (f : α → Finding β) :
    Check.inScope (c >>= fun a => Check.lift (f a)) =
      Check.inScope c >>= fun a => Check.lift (f a) := by
  funext σ
  simp only [Check.inScope, Check.bind_run, Check.lift, Check.reading]
  cases (c σ.enter).2.outcome <;> rfl

mutual

/-- **The walk over a statement realizes its check,** in whatever context. -/
theorem realized_stmt : ∀ (context : Context) (s : Stmt), s.Realized context
  | _, .blank _ => .of_alone rfl (.pure _)
  | _, .struct definition => .of_alone rfl (realizes_structDecl definition)
  | _, .declaration d => .of_alone rfl (realizes_declaration d)
  | _, .prototype header _ => by
      refine .of_alone rfl ?_
      rw [Stmt.check, Header.check_eq, bind_assoc, Header.inScope_front]
      exact (realizes_front header).bind fun front =>
        .inScope ((realizes_rest header front false).bind fun _ => .pure _)
  | _, .function header body => by
      refine .of_alone rfl ?_
      rw [Stmt.check, Header.check_eq, bind_assoc, Header.inScope_front]
      exact (realizes_front header).bind fun front =>
        .inScope ((realizes_rest header front true).bind fun f =>
          .inFunction (realized_stmt (.body f) body).alone)
  | context, .ifThen _ condition body => .of_alone rfl <|
      (realizes_condition .ifElse condition).bind fun _ => (realized_stmt context body).body
  | context, .ifElse _ condition body _ alternative => .of_alone rfl <|
      (realizes_condition .ifElse condition).bind fun _ =>
        (realized_stmt context body).body.bind fun _ => (realized_stmt context alternative).body
  | context, .whileLoop _ condition body => .of_alone rfl <|
      (realizes_condition .whileLoop condition).bind fun _ =>
        .inLoop (realized_stmt context.loop body).body
  | context, .doWhile _ body whileWord condition semicolon => .of_alone rfl <|
      (Realizes.inLoop (realized_stmt context.loop body).body).bind fun _ =>
        (Realizes.require whileWord).bind fun _ =>
          (realizes_condition .doWhile condition).bind fun _ => .require semicolon
  | context, .forLoop _ opening init test semicolon update closing body => .of_alone rfl <|
      (Realizes.require opening).bind fun _ => .inScope <|
        (realizes_forInit init).bind fun _ => (realizes_forTest test).bind fun _ =>
          (Realizes.require semicolon).bind fun _ => (realizes_forUpdate update).bind fun _ =>
            (Realizes.require closing).bind fun _ => .inLoop (realized_stmt context.loop body).body
  | context, .switch _ opening subject closing bodyStart clauses bodyEnd => .of_alone rfl <|
      (Realizes.require opening).bind fun _ =>
        (Realizes.reading (fun _ => leaves_checkSubject subject) fun h => h.subject subject).bind
          fun _ => (Realizes.require closing).bind fun _ => (Realizes.require bodyStart).bind
            fun _ => (Realizes.inSwitch (Realizes.inScope
              (realizes_clauses context.switch [] false clauses))).bind fun _ => .require bodyEnd
  | _, .exit keyword _ => .of_alone rfl <|
      .around (c := fun asked => Check.lift (asked.checkExit keyword)) fun asked =>
        .lift (leaves_checkExit asked keyword)
  | _, .exitWith keyword value semicolon => .of_alone rfl <|
      .around (c := fun asked => (Stmt.exitWith keyword value semicolon).check asked) fun asked =>
        (realizes_expression value).bind fun _ =>
          (Realizes.lift (leaves_checkResult asked _ _)).bind fun _ => .require semicolon
  | _, .jump keyword semicolon => .of_alone rfl <|
      .around (c := fun asked => (Stmt.jump keyword semicolon).check asked) fun asked =>
        (Realizes.complain _ (by rfl) _).bind fun _ => .require semicolon
  | context, .block opening body closing => by
      have hbody := realizes_stmts context body
      refine ⟨hbody.inScope.bind fun _ => .require closing, ?_⟩
      rw [Stmt.check]
      exact .of_eq (hbody.inScope_inScope.bind fun _ => .require closing)
        (Check.inScope_bind_lift _ fun _ => closing.require)
  | _, .call call semicolon => .of_alone rfl <|
      (realizes_expression call).bind fun _ => .require semicolon
  | _, .printf _ opening format arguments closing semicolon => by
      refine .of_alone rfl ?_
      refine (Realizes.require opening).bind fun _ => (realizes_expression format).bind fun _ =>
        (realizes_arguments arguments).bind fun given => (Realizes.require closing).bind fun _ =>
          (Realizes.require semicolon).bind fun _ => ?_
      cases format.formatToken? with
      | none => exact .pure _
      | some token => exact .lift (leaves_format .printf token given)
  | _, .scanf _ opening format arguments closing semicolon => .of_alone rfl <|
      (Realizes.require opening).bind fun _ => (Realizes.get format).bind fun token =>
        (realizes_arguments arguments).bind fun given => (Realizes.require closing).bind fun _ =>
          (Realizes.require semicolon).bind fun _ => .lift (leaves_format .scanf token given)
  | _, .assignment a semicolon => .of_alone rfl <|
      (realizes_assignment a).bind fun _ => .require semicolon
  | _, .missing hole => .of_alone rfl (.lift (.stop hole))

/-- Statements in sequence, each settled before the next. -/
theorem realizes_stmts : ∀ (context : Context) (ss : Stmts),
    ss.walk.Realizes context none (ss.check context)
  | _, .nil => .pure _
  | context, .cons first rest =>
      (realized_stmt context first).alone.settled.bind fun _ => realizes_stmts context rest

/-- Labels and statements in the body of a switch. The labels that were seen are handed on, in the
walk as in the check. -/
theorem realizes_clauses : ∀ (context : Context) (seen : List String) (hasDefault : Bool)
    (cs : Clauses), (cs.walk seen hasDefault).Realizes context none
      (cs.check context seen hasDefault)
  | _, _, _, .nil => .pure _
  | context, seen, hasDefault, .case _ (.missing hole) _ rest =>
      (Realizes.lift (.stop hole)).settled.bind fun _ =>
        realizes_clauses context seen hasDefault rest
  | context, _, hasDefault, .case _ (.found _) colon rest =>
      (Realizes.complain _ (by rfl) _).bind fun _ => (Realizes.require colon).settled.bind fun _ =>
        realizes_clauses context _ hasDefault rest
  | context, seen, _, .default _ colon rest =>
      (Realizes.complain _ (by rfl) _).bind fun _ => (Realizes.require colon).settled.bind fun _ =>
        realizes_clauses context seen true rest
  | context, seen, hasDefault, .stmt first rest =>
      (realized_stmt context first).alone.settled.bind fun _ =>
        realizes_clauses context seen hasDefault rest

end

/-- A program is a scope, and nothing is around it. -/
theorem realizes_program (ss : Stmts) :
    ss.walkProgram.Realizes context none (Check.inScope (ss.check context)) :=
  .inScope (realizes_stmts context ss)

end Trees

end MiniC
