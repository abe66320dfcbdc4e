import MiniC.Proofs.Names.Run

/-!
# `MiniC.Proofs.Names.Checking` — checks that go through steps

The check of a tree without holes goes through the steps of the tree, and finds what is found on
the way: nothing else is looked at, and nothing else is declared.  This is kept by every way to
put checks together, so one lemma for each kind of tree is enough.

## Contents
- `looks_target`, `looks_assignment`, …: the looks of statements.
- `Check.OnlyLooks`: checks that declare nothing.
- `Check.Takes`, with one lemma for each combinator of checks.
- `Check.Takes.inScope_inScope`: **a scope in which nothing is declared makes no difference.**
-/

namespace MiniC

/-! ## Looks of statements -/

theorem quiet_dereferenceAll (t : CType) (stars : List Token) :
    (dereferenceAll t stars).Quiet := by
  induction stars generalizing t with
  | nil => exact .pure _
  | cons star stars ih => exact (quiet_dereference t star).bind fun _ => ih _

theorem looks_target {p : Place} (h : p.path.trace = .clear) :
    Looks (fun σ => p.target σ) p.words := by
  have htarget : ∀ type, Looks (fun σ => Pure.pure (f := Finding)
      (⟨(p.path.lead.map Token.lexeme).getD "", type,
        (σ.var? ((p.path.lead.map Token.lexeme).getD "")).any (·.isFrozen p.stars),
        p.path.lead⟩ : Target)) [] := by
    intro type
    exact .of_quiet (fun _ => .pure _) fun σ σ' h => by simp only [h.var?]
  exact ((looks_typing p.path h).bind fun _ => .behind_quiet (quiet_dereferenceAll _ _) fun type =>
    htarget type).of_words fun _ => by simp [Place.words]

theorem quiet_checkWritable (t : Target) : t.checkWritable.Quiet := .complain _ rfl _

theorem quiet_checkStep (t : Target) (operator : Token) : (t.checkStep operator).Quiet :=
  (quiet_checkWritable t).bind fun _ => .complain _ rfl _

theorem quiet_checkStore (t : Target) (value : CType) (site : Option Token) :
    (t.checkStore value site).Quiet := by
  refine (quiet_checkWritable t).bind fun _ => ?_
  split
  · exact .report rfl _
  · exact .complain _ rfl _

theorem quiet_checkUpdate (t : Target) (operator : Token) (value : CType) :
    (t.checkUpdate operator value).Quiet := by
  refine (quiet_checkWritable t).bind fun _ => ?_
  split
  · exact .pure _
  · dsimp only
    split
    · exact .complain _ rfl _
    · exact .report rfl _

theorem looks_assignment {a : Assignment} (h : a.trace = .clear) :
    Looks (fun σ => a.check σ) a.words := by
  cases a with
  | stepBefore operator place =>
      exact ((looks_target h).bind_quiet fun _ => quiet_checkStep _ _).of_words
        fun _ => by simp [Assignment.words]
  | stepAfter place operator =>
      exact ((looks_target h).bind_quiet fun _ => quiet_checkStep _ _).of_words
        fun _ => by simp [Assignment.words]
  | store place sign value =>
      obtain ⟨hplace, hvalue⟩ := Trace.andThen_eq_clear.1 h
      exact ((looks_target hplace).bind fun _ =>
        (looks_typing value hvalue).bind_quiet fun _ => quiet_checkStore _ _ _).of_words
        fun _ => by simp [Assignment.words]
  | update place operator value =>
      obtain ⟨hplace, hvalue⟩ := Trace.andThen_eq_clear.1 h
      exact ((looks_target hplace).bind fun _ =>
        (looks_typing value hvalue).bind_quiet fun _ => quiet_checkUpdate _ _ _).of_words
        fun _ => by simp [Assignment.words]
  | missing place hole => exact nomatch congrArg Trace.stop (Trace.andThen_eq_clear.1 h).2

theorem looks_test (ruled : Ruled) {test : Expr} (h : test.trace = .clear) :
    Looks (fun σ => checkTest σ ruled test) test.words :=
  (looks_typing test h).bind_quiet fun _ => .complain _ rfl _

theorem looks_condition (ruled : Ruled) {c : Condition} (h : c.trace = .clear) :
    Looks (fun σ => c.check σ ruled) c.words := by
  obtain ⟨hopening, htest, hclosing⟩ := by
    simpa only [Condition.trace, Trace.andThen_eq_clear] using h
  exact (Looks.behind_quiet (quiet_require hopening) fun _ =>
    (looks_test ruled htest).bind_quiet fun _ => quiet_require hclosing).of_words
    fun _ => by simp [Condition.words]

theorem looks_subject {subject : Expr} (h : subject.trace = .clear) :
    Looks (fun σ => checkSubject σ subject) subject.words :=
  (looks_typing subject h).bind_quiet fun _ => .complain _ rfl _

theorem quiet_formatArguments (call : FormatCall) (specs : List FormatSpec)
    (given : List Argument) : (call.checkArguments specs given).Quiet := by
  have hargument : ∀ spec argument, (call.checkArgument spec argument).Quiet := by
    intro spec argument
    cases call with
    | printf => exact .complain _ rfl _
    | scanf =>
        simp only [FormatCall.checkArgument, checkScanned]
        split
        · exact .pure _
        · split
          · exact .report rfl _
          · exact .complain _ rfl _
  induction specs generalizing given with
  | nil => exact .pure _
  | cons spec specs ih =>
      cases given with
      | nil => exact .pure _
      | cons argument given => exact (hargument _ _).bind fun _ => ih _

theorem quiet_format (call : FormatCall) (format : Token) (given : List Argument) :
    (call.check format given).Quiet := by
  unfold FormatCall.check
  split
  · exact .report rfl _
  · exact (Finding.Quiet.complain _ rfl _).bind fun _ => quiet_formatArguments _ _ _

theorem quiet_checkExit (context : Context) (keyword : Token) :
    (context.checkExit keyword).Quiet := by
  unfold Context.checkExit
  split
  · exact .pure _
  · exact .complain _ rfl _

theorem quiet_checkResult (context : Context) (found : CType) (site : Option Token) :
    (context.checkResult found site).Quiet := by
  unfold Context.checkResult
  split
  · exact .pure _
  · split
    · exact .report rfl _
    · exact .complain _ rfl _

/-! ## Checks that only look -/

/-- A check that declares nothing and has the words `words`. -/
def Check.OnlyLooks {α : Type} (m : Check α) (words : List Word) : Prop :=
  ∃ f, m = Check.reading f ∧ Looks f words

namespace Check.OnlyLooks

variable {α β : Type} {m : Check α} {next : α → Check β} {words more : List Word}

theorem reading {f : Symbols → Finding α} (h : Looks f words) :
    (Check.reading f).OnlyLooks words :=
  ⟨f, rfl, h⟩

theorem quiet {x : Finding α} (h : x.Quiet) : (Check.lift x).OnlyLooks [] :=
  ⟨fun _ => x, rfl, .quiet h⟩

theorem bind (hm : m.OnlyLooks words) (hnext : ∀ a, (next a).OnlyLooks more) :
    (m >>= next).OnlyLooks (words ++ more) := by
  obtain ⟨f, rfl, hf⟩ := hm
  obtain ⟨g, hg⟩ := Classical.axiomOfChoice hnext
  obtain rfl : next = fun a => Check.reading (g a) := funext fun a => (hg a).1
  refine ⟨fun σ => f σ >>= fun a => g a σ, ?_, hf.bind fun a => (hg a).2⟩
  funext σ
  rw [Check.bind_run]
  obtain ⟨a, ha⟩ := hf.whole σ
  simp only [Check.reading, ha, Finding.bind_eq, Finding.andThen]

theorem bind_quiet {next : α → Finding β} (hm : m.OnlyLooks words) (hnext : ∀ a, (next a).Quiet) :
    (m >>= fun a => Check.lift (next a)).OnlyLooks words := by
  rw [← words.append_nil]
  exact hm.bind fun a => quiet (hnext a)

theorem behind_quiet {x : Finding α} (h : x.Quiet) (hnext : ∀ a, (next a).OnlyLooks words) :
    (Check.lift x >>= next).OnlyLooks words :=
  (quiet h).bind hnext

theorem of_words (h : m.OnlyLooks more) (hwords : ∀ σ, complaints σ words = complaints σ more) :
    m.OnlyLooks words := by
  obtain ⟨f, hm, hf⟩ := h
  exact ⟨f, hm, hf.of_words hwords⟩

end Check.OnlyLooks

/-! ## Checks that go through steps -/

/-- A check that goes through steps and yields `a`, whatever is found on the way. -/
structure Check.Takes {α : Type} (m : Check α) (steps : List Step) (text : List Token) (a : α) :
    Prop where
  run : ∀ σ, m σ = ((runSteps steps σ).1, ⟨(runSteps steps σ).2, .ok a⟩)
  lawful : ∀ step ∈ steps, step.Lawful
  balanced : Balanced steps
  text : steps.flatMap Step.tokens = text

namespace Check.Takes

variable {α β : Type} {m : Check α} {next : α → Check β} {a : α} {b : β}
variable {steps more : List Step} {text behind : List Token}

theorem pure (a : α) : (Pure.pure a : Check α).Takes [] [] a :=
  ⟨fun _ => rfl, fun _ h => (nomatch h), .nil, rfl⟩

theorem bind (hm : m.Takes steps text a) (hnext : (next a).Takes more behind b) :
    (m >>= next).Takes (steps ++ more) (text ++ behind) b := by
  refine ⟨fun σ => ?_, fun step hstep => ?_, hm.balanced.append hnext.balanced, ?_⟩
  · rw [Check.bind_run, hm.run σ, runSteps_append]
    simp only [hnext.run]
  · rcases List.mem_append.1 hstep with hstep | hstep
    · exact hm.lawful step hstep
    · exact hnext.lawful step hstep
  · rw [List.flatMap_append, hm.text, hnext.text]

/-- A check that does not ask what was yielded in front. -/
theorem seq {m' : Check β} (hm : m.Takes steps text a) (hnext : m'.Takes more behind b) :
    (m >>= fun _ => m').Takes (steps ++ more) (text ++ behind) b :=
  hm.bind hnext

/-- What is made of the value in the end takes no step. -/
theorem map (f : α → β) (h : m.Takes steps text a) :
    (m >>= fun a => Pure.pure (f a)).Takes steps text (f a) := by
  have hmapped : (m >>= fun a => Pure.pure (f a)).Takes (steps ++ []) (text ++ []) (f a) :=
    h.bind (pure (f a))
  rwa [List.append_nil, List.append_nil] at hmapped

/-- The same steps and text, put together otherwise. -/
theorem of_eq (h : m.Takes more behind a) (hsteps : steps = more) (htext : text = behind) :
    m.Takes steps text a := by
  rw [hsteps, htext]
  exact h

/-- Tokens in front that nothing is found at. -/
theorem passes (h : m.Takes steps text a) (tokens : List Token) :
    m.Takes (passing tokens ++ steps) (tokens ++ text) a := by
  refine ⟨fun σ => ?_, fun step hstep => ?_, (Balanced.passing tokens).append h.balanced, ?_⟩
  · rw [runSteps_passing_append]
    exact h.run σ
  · rcases List.mem_append.1 hstep with hstep | hstep
    · obtain ⟨token, -, rfl⟩ := List.mem_map.1 hstep
      trivial
    · exact h.lawful step hstep
  · rw [List.flatMap_append, h.text, passing, List.flatMap_map]
    simp [Step.tokens]

/-- Tokens that nothing is found at. -/
theorem passing (a : α) (tokens : List Token) :
    (Pure.pure a : Check α).Takes (passing tokens) tokens a :=
  ((pure a).passes tokens).of_eq (List.append_nil _).symm (List.append_nil _).symm

/-- Tokens behind that nothing is found at. -/
theorem passed (h : m.Takes steps text a) (tokens : List Token) :
    m.Takes (steps ++ MiniC.passing tokens) (text ++ tokens) a := by
  rw [← bind_pure m]
  exact h.bind (passing a tokens)

theorem require {slot : Slot} (h : slot.trace = .clear) :
    (Check.lift slot.require).Takes (MiniC.passing slot.tokens) slot.tokens () := by
  obtain ⟨token, rfl⟩ := Slot.exists_of_clear h
  exact passing () [token]

/-- A part that looks names up, and yields what does not depend on them. -/
theorem look {f : Symbols → Finding α} {words : List Word} (h : Looks f words)
    (hvalue : ∀ σ, (f σ).outcome = .ok a) :
    (Check.reading f).Takes [.look words fun σ => (f σ).issues] (words.map Word.token) a := by
  refine ⟨fun σ => ?_, fun step hstep => ?_, fun _ => rfl, List.append_nil _⟩
  · show (σ, f σ) = (σ, ⟨(f σ).issues ++ [], .ok a⟩)
    rw [List.append_nil, ← hvalue σ]
  · obtain rfl := List.mem_singleton.1 hstep
    exact h.lawful

theorem look_unit {f : Symbols → Finding Unit} {words : List Word} (h : Looks f words) :
    (Check.reading f).Takes [.look words fun σ => (f σ).issues] (words.map Word.token) () :=
  look h fun σ => (h.whole σ).choose_spec

/-- A check that declares nothing and yields nothing. -/
theorem of_looks {m : Check Unit} {words : List Word} (h : m.OnlyLooks words) :
    m.Takes [.look words fun σ => (m σ).2.issues] (words.map Word.token) () := by
  obtain ⟨f, rfl, hf⟩ := h
  exact look_unit hf

theorem region (h : m.Takes steps text a) : (Check.inScope m).Takes (region steps) text a := by
  refine ⟨fun σ => ?_, fun step hstep => ?_, h.balanced.region, ?_⟩
  · rw [runSteps_region, Check.inScope, h.run]
  · rcases List.mem_cons.1 hstep with rfl | hstep
    · trivial
    · rcases List.mem_append.1 hstep with hstep | hstep
      · exact h.lawful step hstep
      · obtain rfl := List.mem_singleton.1 hstep
        trivial
  · show [] ++ List.flatMap Step.tokens (steps ++ [.leave]) = text
    rw [List.flatMap_append, h.text]
    exact List.append_nil _

/-- What was opened for the same part twice might as well be opened once. -/
theorem inScope_inScope (h : m.Takes steps text a) :
    Check.inScope (Check.inScope m) = Check.inScope m := by
  funext σ
  have hpadded : σ.enter.enter.Padded 1 σ.enter :=
    ⟨[[]], σ.scopes, rfl, rfl, rfl, rfl, rfl⟩
  obtain ⟨hissues, inner, outer, hlength, hscopes, hscopes', hfunctions, hstructs⟩ :=
    runSteps_padded h.lawful (h.balanced 0) hpadded
  obtain ⟨scope, rfl⟩ := List.length_eq_one_iff.1 hlength
  have hsymbols : (runSteps steps σ.enter.enter).1.leave.leave =
      (runSteps steps σ.enter).1.leave := by
    simp only [Symbols.leave, Scopes.leave, hscopes, hscopes', hfunctions, hstructs]
    rfl
  simp only [Check.inScope, h.run, hissues, hsymbols]

theorem register {declare : Symbols → Attempt Symbols} {name : Token} {step : Step}
    (hrun : ∀ σ, step.run σ =
      ((Check.register declare name σ).1, (Check.register declare name σ).2.issues))
    (hlawful : step.Lawful) (hbalanced : Balanced [step]) :
    (Check.register declare name).Takes [step] step.tokens () := by
  refine ⟨fun σ => ?_, fun _ hstep => ?_, hbalanced, List.append_nil _⟩
  · rw [runSteps_cons, hrun σ]
    simp only [runSteps, List.append_nil]
    unfold Check.register
    rcases declare σ with ⟨σ', refusal | _⟩ <;> rfl
  · obtain rfl := List.mem_singleton.1 hstep
    exact hlawful

theorem declare (name : Token) (type : CType) (isConst : Bool) :
    (declareVariable name type isConst).Takes [.declare name type isConst] [name] () :=
  register (fun _ => rfl) trivial fun _ => rfl

theorem settled {m : Check Unit} (h : m.Takes steps text ()) :
    (Check.settled m).Takes steps text () := by
  refine ⟨fun σ => ?_, h.lawful, h.balanced, h.text⟩
  rw [Check.settled, h.run]
  rfl

end Check.Takes

end MiniC
