import MiniC.Proofs.Checking.Leaves
import MiniC.Proofs.Reading.Spells

/-!
# `MiniC.Proofs.Names.Looks` — parts that look names up and declare none

A part without holes that declares nothing is checked against the symbols alone.  Two things are
true of what it finds.  It depends on the scopes only through what the names stand for in them.
And the complaints that a name is not declared are one for each token that is used as a variable
and stands for none, in the order of the text.  `Looks` says both, and is kept by every way to put
such parts together.

## Contents
- `Word`: a token of the text, and whether it is used as a variable; `words` of expressions.
- `Issue.isNaming`, `complaints`: the issues about what a name stands for.
- `Finding.Quiet`: findings that look nothing up.
- `Symbols.Alike`, `Looks`, with one lemma for each way to go on.
- `looks_typing`: **expressions complain of the variables that are not declared.**
-/

namespace MiniC

/-! ## Words -/

/-- A token of the text, and whether it is used as a variable. -/
structure Word where
  token : Token
  isUse : Bool

/-- Tokens that are not used as variables. -/
def plain (tokens : List Token) : List Word := tokens.map (⟨·, false⟩)

mutual

/-- The words of an expression. -/
def Expr.words : Expr → List Word
  | .literal _ token => plain [token]
  | .var name => [⟨name, true⟩]
  | .emptyCall name opening closing => plain (name :: opening :: closing.tokens)
  | .call name opening first others closing =>
      plain [name, opening] ++ (first.words ++ (others.words ++ plain closing.tokens))
  | .deref star operand => plain [star] ++ operand.words
  | .address ampersand operand => plain [ampersand] ++ operand.words
  | .unary operator operand => plain [operator] ++ operand.words
  | .stepped operand operator => operand.words ++ plain [operator]
  | .index base opening subscript closing =>
      base.words ++ (plain [opening] ++ (subscript.words ++ plain closing.tokens))
  | .member base _ operator field => base.words ++ plain (operator :: field.tokens)
  | .binary _ left operator right => left.words ++ (plain [operator] ++ right.words)
  | .conditional condition question first colon second =>
      condition.words ++ (plain [question] ++ (first.words ++ (plain colon.tokens ++
        second.words)))
  | .group opening inner closing => plain [opening] ++ (inner.words ++ plain closing.tokens)
  | .sizeofType keyword opening spec stars closing =>
      plain (keyword :: (opening.tokens ++ (spec.tokens ++ (stars ++ closing.tokens))))
  | .sizeofExpr keyword opening operand closing =>
      plain (keyword :: opening.tokens) ++ (operand.words ++ plain closing.tokens)
  | .missing _ => []

/-- The words of arguments. -/
def Trail.words : Trail → List Word
  | .nil => []
  | .cons comma argument rest => plain [comma] ++ (argument.words ++ rest.words)

end

@[simp] theorem map_token_plain (tokens : List Token) : (plain tokens).map Word.token = tokens := by
  simp [plain, Function.comp_def]

mutual

/-- The words of an expression are its text. -/
@[simp] theorem Expr.map_token_words : ∀ e : Expr, e.words.map Word.token = e.tokens
  | .literal _ _ => rfl
  | .var _ => rfl
  | .emptyCall _ _ _ => by simp [Expr.words, Expr.tokens]
  | .call _ _ first others _ => by
      simp [Expr.words, Expr.tokens, first.map_token_words, others.map_token_words]
  | .deref _ operand => by simp [Expr.words, Expr.tokens, operand.map_token_words]
  | .address _ operand => by simp [Expr.words, Expr.tokens, operand.map_token_words]
  | .unary _ operand => by simp [Expr.words, Expr.tokens, operand.map_token_words]
  | .stepped operand _ => by simp [Expr.words, Expr.tokens, operand.map_token_words]
  | .index base _ subscript _ => by
      simp [Expr.words, Expr.tokens, base.map_token_words, subscript.map_token_words]
  | .member base _ _ _ => by simp [Expr.words, Expr.tokens, base.map_token_words]
  | .binary _ left _ right => by
      simp [Expr.words, Expr.tokens, left.map_token_words, right.map_token_words]
  | .conditional condition _ first _ second => by
      simp [Expr.words, Expr.tokens, condition.map_token_words, first.map_token_words,
        second.map_token_words]
  | .group _ inner _ => by simp [Expr.words, Expr.tokens, inner.map_token_words]
  | .sizeofType _ _ _ _ _ => by simp [Expr.words, Expr.tokens]
  | .sizeofExpr _ _ operand _ => by simp [Expr.words, Expr.tokens, operand.map_token_words]
  | .missing _ => rfl

/-- The words of arguments are their text. -/
@[simp] theorem Trail.map_token_words : ∀ others : Trail,
    others.words.map Word.token = others.tokens
  | .nil => rfl
  | .cons _ argument rest => by
      simp [Trail.words, Trail.tokens, argument.map_token_words, rest.map_token_words]

end

/-! ## Issues about names -/

/-- Whether an issue is about what a variable name stands for: that it stands for nothing, or that
it stands for something already. -/
def Issue.isNaming : Issue → Bool
  | fault (.undeclaredVariable _) _ => true
  | fault (.refused (.variableRedeclared _)) _ => true
  | _ => false

/-- Whether a fault is about what a variable name stands for. -/
def Fault.isNaming (cause : Fault) : Bool := (Issue.fault cause none).isNaming

theorem Issue.isNaming_fault (cause : Fault) (site : Option Token) :
    (Issue.fault cause site).isNaming = cause.isNaming := by
  cases cause with
  | refused refusal => cases refusal <;> rfl
  | _ => rfl

/-- Whether the word is used as a variable that is not declared. -/
def Word.isUnresolved (σ : Symbols) (word : Word) : Bool :=
  word.isUse && (σ.var? word.token.lexeme).isNone

/-- The complaint that the word stands for no variable. -/
def Word.complaint (word : Word) : Issue :=
  .fault (.undeclaredVariable word.token.lexeme) word.token

/-- The complaints about words that stand for no variable. -/
def complaints (σ : Symbols) (words : List Word) : List Issue :=
  (words.filter (·.isUnresolved σ)).map Word.complaint

section

variable {σ : Symbols}

@[simp] theorem complaints_nil : complaints σ [] = [] := rfl

@[simp] theorem complaints_append (words more : List Word) :
    complaints σ (words ++ more) = complaints σ words ++ complaints σ more := by
  simp [complaints]

@[simp] theorem complaints_plain (tokens : List Token) : complaints σ (plain tokens) = [] := by
  simp [complaints, plain, Word.isUnresolved]

end

/-! ## Findings that look nothing up -/

/-- A finding on a part without holes that says nothing about names. -/
structure Finding.Quiet {α : Type} (f : Finding α) : Prop where
  whole : ∃ a, f.outcome = .ok a
  nameless : f.issues.filter Issue.isNaming = []

namespace Finding.Quiet

variable {α β : Type} {f : Finding α} {next : α → Finding β} {fault : Fault}

theorem pure (a : α) : (Pure.pure a : Finding α).Quiet := ⟨⟨a, rfl⟩, rfl⟩

theorem report (h : fault.isNaming = false) (site : Option Token) :
    (Finding.report fault site).Quiet := by
  refine ⟨⟨(), rfl⟩, ?_⟩
  show List.filter Issue.isNaming [.fault fault site] = []
  rw [List.filter_cons_of_neg (by rw [Issue.isNaming_fault, h]; exact Bool.false_ne_true)]
  rfl

theorem complain (fine : Bool) (h : fault.isNaming = false) (site : Option Token) :
    (Finding.complain fine fault site).Quiet := by
  cases fine with
  | true => exact pure ()
  | false => exact report h site

theorem bind (hf : f.Quiet) (hnext : ∀ a, (next a).Quiet) : (f >>= next).Quiet := by
  obtain ⟨issues, hole | a⟩ := f
  · obtain ⟨a, ha⟩ := hf.whole
    cases ha
  · obtain ⟨b, hb⟩ := (hnext a).whole
    refine ⟨⟨b, hb⟩, ?_⟩
    show (issues ++ (next a).issues).filter Issue.isNaming = []
    rw [List.filter_append, (hnext a).nameless, List.append_nil]
    exact hf.nameless

end Finding.Quiet

/-! ## Parts that look names up -/

/-- Symbols that differ at most in how the variables are spread over scopes. -/
structure Symbols.Alike (σ σ' : Symbols) : Prop where
  var? : ∀ name, σ.var? name = σ'.var? name
  functions : σ.functions = σ'.functions
  structs : σ.structs = σ'.structs

namespace Symbols.Alike

variable {σ σ' : Symbols}

theorem refl (σ : Symbols) : σ.Alike σ := ⟨fun _ => rfl, rfl, rfl⟩

theorem function? (h : σ.Alike σ') (name : String) : σ.function? name = σ'.function? name := by
  rw [Symbols.function?, h.functions]
  rfl

theorem struct? (h : σ.Alike σ') (name : String) : σ.struct? name = σ'.struct? name := by
  rw [Symbols.struct?, h.structs]
  rfl

/-- A scope in which nothing is declared makes no difference. -/
theorem enter (σ : Symbols) : σ.enter.Alike σ := ⟨fun _ => rfl, rfl, rfl⟩

end Symbols.Alike

/-- A check of a part without holes that declares nothing, whose words are `words`: it depends on
what names stand for, and complains of the variables that stand for nothing. -/
structure Looks {α : Type} (f : Symbols → Finding α) (words : List Word) : Prop where
  whole : ∀ σ, ∃ a, (f σ).outcome = .ok a
  naming : ∀ σ, (f σ).issues.filter Issue.isNaming = complaints σ words
  alike : ∀ σ σ', σ.Alike σ' → f σ = f σ'

namespace Looks

variable {α β : Type} {f : Symbols → Finding α} {next : α → Symbols → Finding β}
variable {words more : List Word}

theorem quiet {x : Finding α} (h : x.Quiet) : Looks (fun _ => x) [] :=
  ⟨fun _ => h.whole, fun _ => h.nameless, fun _ _ _ => rfl⟩

theorem pure (a : α) : Looks (fun _ => (Pure.pure a : Finding α)) [] := quiet (.pure a)

theorem bind (hf : Looks f words) (hnext : ∀ a, Looks (next a) more) :
    Looks (fun σ => f σ >>= fun a => next a σ) (words ++ more) := by
  refine ⟨fun σ => ?_, fun σ => ?_, fun σ σ' h => ?_⟩
  · obtain ⟨a, ha⟩ := hf.whole σ
    obtain ⟨b, hb⟩ := (hnext a).whole σ
    exact ⟨b, by rw [Finding.bind_eq, Finding.andThen, ha]; exact hb⟩
  · obtain ⟨a, ha⟩ := hf.whole σ
    rw [Finding.bind_eq, Finding.andThen, ha, complaints_append, ← hf.naming σ,
      ← (hnext a).naming σ]
    exact List.filter_append ..
  · have hsecond : (fun a => next a σ) = fun a => next a σ' :=
      funext fun a => (hnext a).alike σ σ' h
    show (f σ >>= fun a => next a σ) = f σ' >>= fun a => next a σ'
    rw [hf.alike σ σ' h, hsecond]

/-- What stands behind and looks nothing up. -/
theorem bind_quiet {next : α → Finding β} (hf : Looks f words) (hnext : ∀ a, (next a).Quiet) :
    Looks (fun σ => f σ >>= next) words := by
  rw [← words.append_nil]
  exact hf.bind fun a => quiet (hnext a)

/-- What stands in front and looks nothing up. -/
theorem behind_quiet {x : Finding α} (h : x.Quiet) (hnext : ∀ a, Looks (next a) words) :
    Looks (fun σ => x >>= fun a => next a σ) words :=
  (quiet h).bind hnext

/-- Words that are not used as variables make no difference. -/
theorem of_words (h : Looks f more) (hwords : ∀ σ, complaints σ words = complaints σ more) :
    Looks f words :=
  ⟨h.whole, fun σ => (h.naming σ).trans (hwords σ).symm, h.alike⟩

end Looks

/-! ## Slots -/

/-- A slot without a hole has a token. -/
theorem Slot.exists_of_clear {slot : Slot} (h : slot.trace = .clear) :
    ∃ token, slot = .found token := by
  cases slot with
  | found token => exact ⟨token, rfl⟩
  | missing hole => exact nomatch congrArg Trace.stop h

theorem quiet_require {slot : Slot} (h : slot.trace = .clear) : slot.require.Quiet := by
  obtain ⟨token, rfl⟩ := Slot.exists_of_clear h
  exact .pure ()

theorem quiet_get {slot : Slot} (h : slot.trace = .clear) : slot.get.Quiet := by
  obtain ⟨token, rfl⟩ := Slot.exists_of_clear h
  exact .pure token

/-! ## Rules for types -/

theorem quiet_dereference (t : CType) (star : Token) : (dereference t star).Quiet := by
  unfold dereference
  split
  · exact .pure _
  · split
    · exact .pure _
    · exact (Finding.Quiet.report rfl _).bind fun _ => .pure _

theorem quiet_numericOperand (operator : Token) (t : CType) :
    (numericOperand operator t).Quiet := by
  unfold numericOperand
  split
  · exact .pure _
  · exact (Finding.Quiet.report rfl _).bind fun _ => .pure _

theorem quiet_operated (tier : Tier) (operator : Token) (left right : CType) :
    (operated tier operator left right).Quiet := by
  have hcompared : ∀ need, (compared need operator left right).Quiet :=
    fun need => (Finding.Quiet.complain _ rfl _).bind fun _ => .pure _
  have harithmetic : (arithmetic operator left right).Quiet := by
    simp only [arithmetic]
    generalize (if operator.kind == .operator .percent then Need.integer else Need.numeric) = need
    split
    · exact .pure _
    · split
      · exact .pure _
      · exact (Finding.Quiet.report rfl _).bind fun _ => .pure _
  cases tier with
  | logical => exact hcompared _
  | relational => exact hcompared _
  | additive => exact harithmetic
  | multiplicative => exact harithmetic

theorem quiet_indexed (opening : Token) (base index : CType) (site : Option Token) :
    (indexed opening base index site).Quiet := by
  refine (Finding.Quiet.complain _ rfl _).bind fun _ => ?_
  split
  · exact .pure _
  · split
    · exact .pure _
    · exact (Finding.Quiet.report rfl _).bind fun _ => .pure _

theorem quiet_fieldType (σ : Symbols) (target : CType) (field : Token) :
    (fieldType σ target field).Quiet := by
  unfold fieldType
  split
  · exact (Finding.Quiet.report rfl _).bind fun _ => .pure _
  · split
    · exact .pure _
    · split
      · exact .pure _
      · exact (Finding.Quiet.report rfl _).bind fun _ => .pure _

theorem quiet_memberType (σ : Symbols) (access : Access) (operator : Token) (base : CType)
    (field : Token) : (memberType σ access operator base field).Quiet := by
  unfold memberType
  split
  · exact .pure _
  · split
    · split
      · exact quiet_fieldType _ _ _
      · exact (Finding.Quiet.report rfl _).bind fun _ => .pure _
    · split
      · exact (Finding.Quiet.report rfl _).bind fun _ => .pure _
      · exact quiet_fieldType _ _ _

/-- Findings that say nothing about names whatever the symbols are. -/
theorem Looks.of_quiet {α : Type} {f : Symbols → Finding α} (hquiet : ∀ σ, (f σ).Quiet)
    (halike : ∀ σ σ', σ.Alike σ' → f σ = f σ') : Looks f [] :=
  ⟨fun σ => (hquiet σ).whole, fun σ => (hquiet σ).nameless, halike⟩

theorem looks_memberType (access : Access) (operator : Token) (base : CType) (field : Token) :
    Looks (fun σ => memberType σ access operator base field) [] := by
  refine .of_quiet (fun σ => quiet_memberType σ access operator base field) fun σ σ' h => ?_
  simp only [memberType, fieldType, h.struct?]

theorem quiet_checkArguments (function : String) (position : Nat) (parameters : List Parameter)
    (given : List Argument) : (checkArguments function position parameters given).Quiet := by
  induction parameters generalizing position given with
  | nil => exact .pure _
  | cons parameter parameters ih =>
      cases given with
      | nil => exact .pure _
      | cons argument given =>
          exact (Finding.Quiet.complain _ rfl _).bind fun _ => ih _ _

/-- A call looks up what its arguments look up. -/
theorem looks_callType {name closing : Token} {words : List Word}
    {arguments : Symbols → Finding (List Argument)} (h : Looks arguments words) :
    Looks (fun σ => callType σ name (arguments σ) (.found closing)) words := by
  have hbehind : ∀ type : CType,
      Looks (fun σ => arguments σ >>= fun _ => do
        (Slot.found closing).require
        Pure.pure type) words := fun type =>
    h.bind_quiet fun _ => (quiet_require rfl).bind fun _ => .pure _
  by_cases hbuiltin : name.lexeme ∈ builtins
  · simp only [callType, if_pos hbuiltin]
    exact hbehind .int
  · let unknown (σ : Symbols) : Finding CType := do
      Finding.report (.undeclaredFunction name.lexeme) name
      let _ ← arguments σ
      (Slot.found closing).require
      Pure.pure CType.unknown
    let known (function : Function) (σ : Symbols) : Finding CType := do
      let given ← arguments σ
      (Slot.found closing).require
      Finding.complain (given.length == function.parameters.length)
        (.argumentCount function.name function.parameters.length given.length) name
      checkArguments function.name 1 function.parameters given
      Pure.pure function.returns
    have hcall : ∀ σ, callType σ name (arguments σ) (.found closing) =
        (σ.function? name.lexeme).elim (unknown σ) (known · σ) := by
      intro σ
      rw [callType, if_neg hbuiltin]
      cases σ.function? name.lexeme <;> rfl
    -- Which function is called is known as soon as the symbols are.
    have hcase : ∀ called : Option Function,
        Looks (fun σ => called.elim (unknown σ) (known · σ)) words := by
      intro called
      cases called with
      | none => exact .behind_quiet (.report rfl _) fun _ => hbehind .unknown
      | some function =>
          exact h.bind_quiet fun given => (quiet_require rfl).bind fun _ =>
            (Finding.Quiet.complain _ rfl _).bind fun _ =>
              (quiet_checkArguments _ _ _ _).bind fun _ => .pure _
    simp only [hcall]
    refine ⟨fun σ => (hcase (σ.function? name.lexeme)).whole σ,
      fun σ => (hcase (σ.function? name.lexeme)).naming σ, fun σ σ' h => ?_⟩
    have halike := (hcase (σ.function? name.lexeme)).alike σ σ' h
    rw [h.function? name.lexeme] at halike ⊢
    exact halike

theorem looks_resolve {spec : TypeSpec} (h : spec.trace = .clear) (enclosing : Option String) :
    Looks (fun σ => spec.resolve σ enclosing) [] := by
  cases spec with
  | words first rest => exact .pure _
  | struct keyword name =>
      obtain ⟨token, rfl⟩ := Slot.exists_of_clear h
      refine .of_quiet (fun σ => ?_) fun σ σ' h => ?_
      · exact (quiet_get rfl).bind fun _ =>
          (Finding.Quiet.complain _ rfl _).bind fun _ => .pure _
      · simp only [TypeSpec.resolve, h.struct?]
  | missing hole => exact nomatch congrArg Trace.stop h

/-! ## Expressions -/

theorem looks_var (name : Token) : Looks (fun σ => (Expr.var name).typing σ) [⟨name, true⟩] := by
  refine ⟨fun σ => ?_, fun σ => ?_, fun σ σ' h => ?_⟩
  · simp only [Expr.typing]
    split
    · exact ⟨_, rfl⟩
    · exact ⟨_, rfl⟩
  · simp only [Expr.typing]
    cases hvar : σ.var? name.lexeme with
    | some v => simp [complaints, Word.isUnresolved, hvar]
    | none =>
        have hone : complaints σ [⟨name, true⟩] = [Word.complaint ⟨name, true⟩] := by
          simp [complaints, Word.isUnresolved, hvar]
        rw [hone]
        rfl
  · simp only [Expr.typing, h.var?]

mutual

/-- **Expressions complain of the variables that are not declared,** and see of the scopes only
what the names stand for. -/
theorem looks_typing : ∀ e : Expr, e.trace = .clear → Looks (fun σ => e.typing σ) e.words
  | .literal _ _, _ => (Looks.pure _).of_words fun _ => complaints_plain _
  | .var name, _ => looks_var name
  | .emptyCall _ _ _, h => by
      obtain ⟨closing, rfl⟩ := Slot.exists_of_clear h
      exact (looks_callType (Looks.pure [])).of_words fun _ => complaints_plain _
  | .call _ _ first others _, h => by
      obtain ⟨hfirst, hothers, hclosing⟩ := by
        simpa only [Expr.trace, Trace.andThen_eq_clear] using h
      obtain ⟨closing, rfl⟩ := Slot.exists_of_clear hclosing
      have harguments := (looks_typing first hfirst).bind fun type =>
        (looks_trail others hothers).bind_quiet fun rest =>
          .pure (⟨type, first.lead⟩ :: rest : List Argument)
      exact (looks_callType harguments).of_words fun _ => by simp [Expr.words]
  | .deref _ operand, h =>
      ((looks_typing operand h).bind_quiet fun _ => quiet_dereference _ _).of_words
        fun _ => by simp [Expr.words]
  | .address _ operand, h =>
      ((looks_typing operand h).bind_quiet fun _ => .pure _).of_words
        fun _ => by simp [Expr.words]
  | .unary _ operand, h =>
      ((looks_typing operand h).bind_quiet fun _ => quiet_numericOperand _ _).of_words
        fun _ => by simp [Expr.words]
  | .stepped operand _, h =>
      ((looks_typing operand h).bind_quiet fun _ => quiet_numericOperand _ _).of_words
        fun _ => by simp [Expr.words]
  | .index base _ subscript _, h => by
      obtain ⟨hbase, hsubscript, hclosing⟩ := by
        simpa only [Expr.trace, Trace.andThen_eq_clear] using h
      exact ((looks_typing base hbase).bind fun _ =>
        (looks_typing subscript hsubscript).bind_quiet fun _ =>
          (quiet_require hclosing).bind fun _ => quiet_indexed _ _ _ _).of_words
        fun _ => by simp [Expr.words]
  | .member base _ _ _, h => by
      obtain ⟨hbase, hfield⟩ := by simpa only [Expr.trace, Trace.andThen_eq_clear] using h
      exact ((looks_typing base hbase).bind fun _ =>
        .behind_quiet (quiet_get hfield) fun _ => looks_memberType _ _ _ _).of_words
        fun _ => by simp [Expr.words]
  | .binary _ left _ right, h => by
      obtain ⟨hleft, hright⟩ := by simpa only [Expr.trace, Trace.andThen_eq_clear] using h
      exact ((looks_typing left hleft).bind fun _ =>
        (looks_typing right hright).bind_quiet fun _ => quiet_operated _ _ _ _).of_words
        fun _ => by simp [Expr.words]
  | .conditional condition _ first _ second, h => by
      obtain ⟨hcondition, hfirst, hcolon, hsecond⟩ := by
        simpa only [Expr.trace, Trace.andThen_eq_clear] using h
      exact ((looks_typing condition hcondition).bind fun _ =>
        (looks_typing first hfirst).bind fun _ =>
          .behind_quiet (quiet_require hcolon) fun _ =>
            (looks_typing second hsecond).bind_quiet fun _ =>
              (Finding.Quiet.complain _ rfl _).bind fun _ => .pure _).of_words
        fun _ => by simp [Expr.words]
  | .group _ inner _, h => by
      obtain ⟨hinner, hclosing⟩ := by simpa only [Expr.trace, Trace.andThen_eq_clear] using h
      exact ((looks_typing inner hinner).bind_quiet fun _ =>
        (quiet_require hclosing).bind fun _ => .pure _).of_words fun _ => by simp [Expr.words]
  | .sizeofType _ _ spec _ _, h => by
      obtain ⟨hopening, hspec, hclosing⟩ := by
        simpa only [Expr.trace, Trace.andThen_eq_clear] using h
      exact (Looks.behind_quiet (quiet_require hopening) fun _ =>
        (looks_resolve hspec none).bind_quiet fun _ =>
          (quiet_require hclosing).bind fun _ => .pure _).of_words fun _ => complaints_plain _
  | .sizeofExpr _ _ operand _, h => by
      obtain ⟨hopening, hoperand, hclosing⟩ := by
        simpa only [Expr.trace, Trace.andThen_eq_clear] using h
      exact (Looks.behind_quiet (quiet_require hopening) fun _ =>
        (looks_typing operand hoperand).bind_quiet fun _ =>
          (quiet_require hclosing).bind fun _ => .pure _).of_words fun _ => by simp [Expr.words]
  | .missing _, h => nomatch congrArg Trace.stop h

theorem looks_trail : ∀ arguments : Trail, arguments.trace = .clear →
    Looks (fun σ => arguments.typing σ) arguments.words
  | .nil, _ => .pure _
  | .cons _ argument rest, h => by
      obtain ⟨hargument, hrest⟩ := by simpa only [Trail.trace, Trace.andThen_eq_clear] using h
      exact ((looks_typing argument hargument).bind fun _ =>
        (looks_trail rest hrest).bind_quiet fun _ => .pure _).of_words
        fun _ => by simp [Trail.words]

end

end MiniC
