import Mathlib.Data.List.Forall2
import MiniC.Proofs.Formats.Layout
import MiniC.Proofs.Lexing.Shape
import MiniC.Proofs.Storing

/-!
# `MiniC.Proofs.Formats.Calls` — format strings and the arguments behind them

The statements `printf(f, e₁, …);` and `scanf(f, e₁, …);` are read and checked like any other; only
then, when all of their arguments have types, is the format string looked at.  The text between its
quotes is taken apart into specifiers, and these are held against the arguments as far as both go.

The rules are given as relations: which types a conversion prints, and which it reads into; what is
said about one argument under its specifier; and what is said about all of them.  The check is
followed from the inside out, and then the statement is read from its tokens and run.

## Contents
- `Conversion.Prints`, `Conversion.Reads`, `FormatCall.Takes`: the types that go with a conversion.
- `ArgumentReport`, `FormatReport`: **what a format string and its arguments are blamed for.**
- `ArgumentReport.eq`, `FormatReport.eq`: the rules are followed, and leave no case open.
- `FormatStatement`: the two statements, with `reads` and `run`.
- `format_statement_checked`: **behind the issues of the arguments stand those of the format, which
  are the ones of the rules.**
-/

namespace MiniC

open Cursor (reading)

/-! ## Types and conversions -/

/-- The types of the values that a conversion prints.  A text is given by a pointer to characters or
by an array of them. -/
inductive Conversion.Prints : Conversion → CType → Prop
  | integer {t : CType} {rank : Nat} : Meets .integer t rank → Prints .integer t
  | char {t : CType} {rank : Nat} : Meets .integer t rank → Prints .char t
  | floating {t : CType} {rank : Nat} : t.rank? = some rank → 4 ≤ rank → Prints .floating t
  | string {t : CType} : Points t (.plain .char) → Prints .string t
  | pointer {t target : CType} : Points t target → Prints .pointer t

/-- The types of the variables that a conversion reads into.  A text is read into its first
character. -/
inductive Conversion.Reads : Conversion → CType → Prop
  | integer {target : CType} {rank : Nat} : Meets .integer target rank → Reads .integer target
  | char : Reads .char (.plain .char)
  | floating {target : CType} {rank : Nat} : target.rank? = some rank → 4 ≤ rank →
      Reads .floating target
  | string : Reads .string (.plain .char)
  | pointer {target pointee : CType} : Points target pointee → Reads .pointer target

/-- The types of the arguments that go with a conversion: a value is printed, and what an address
leads to is read into. -/
inductive FormatCall.Takes : FormatCall → Conversion → CType → Prop
  | prints {k : Conversion} {t : CType} : k.Prints t → Takes .printf k t
  | reads {k : Conversion} {t target : CType} : Points t target → k.Reads target → Takes .scanf k t

/-! ## Reports -/

/-- What is said about an argument under its specifier.  One of unknown type is let pass. -/
inductive ArgumentReport : FormatCall → FormatSpec → Argument → List Issue → Prop
  | unknown {call : FormatCall} {spec : FormatSpec} {argument : Argument} :
      ¬argument.type.IsKnown → ArgumentReport call spec argument []
  | taken {call : FormatCall} {spec : FormatSpec} {argument : Argument} :
      argument.type.IsKnown → call.Takes spec.conversion argument.type →
      ArgumentReport call spec argument []
  | notPrinted {spec : FormatSpec} {argument : Argument} :
      argument.type.IsKnown → ¬spec.conversion.Prints argument.type →
      ArgumentReport .printf spec argument
        (faulty (.formatArgument .printf spec argument.type) argument.site)
  | noAddress {spec : FormatSpec} {argument : Argument} :
      argument.type.IsKnown → (∀ target, ¬Points argument.type target) →
      ArgumentReport .scanf spec argument (faulty (.scanfNotAddress argument.type) argument.site)
  | notRead {spec : FormatSpec} {argument : Argument} {target : CType} :
      argument.type.IsKnown → Points argument.type target → ¬spec.conversion.Reads target →
      ArgumentReport .scanf spec argument
        (faulty (.formatArgument .scanf spec argument.type) argument.site)

/-- What is said about a format string of the text and the arguments behind it: that the text is
refused, and nothing else; or that it asks for another number of arguments, and then what there is
to say about each argument under the specifier of its position, as far as both go. -/
inductive FormatReport (call : FormatCall) (format : Token) (text : String)
    (given : List Argument) : List Issue → Prop
  | refused {error : FormatError} : FormatSpec.ofText text = .error error →
      FormatReport call format text given (faulty (.formatString call error) format)
  | judged {specs : List FormatSpec} {reports : List (List Issue)} :
      FormatSpec.ofText text = .ok specs →
      List.Forall₂ (fun pair report => ArgumentReport call pair.1 pair.2 report)
        (specs.zip given) reports →
      FormatReport call format text given
        ((if specs.length = given.length then []
          else faulty (.formatCount call specs.length given.length) format) ++ reports.flatten)

/-! ## The rules are followed -/

section Rules

variable {k : Conversion} {t target : CType} {call : FormatCall} {spec : FormatSpec}
variable {argument : Argument} {issues : List Issue}

theorem isIntegral_iff : t.isIntegral = true ↔ ∃ rank, Meets .integer t rank := by
  show Need.integer.isMet t = true ↔ _
  exact isMet_iff

theorem isFloating_iff : t.isFloating = true ↔ ∃ rank, t.rank? = some rank ∧ 4 ≤ rank := by
  rw [CType.isFloating, Option.any_eq_true]
  simp only [decide_eq_true_eq]

theorem decayed_isPointer_iff : t.decayed.isPointer = true ↔ ∃ target, Points t target := by
  obtain ⟨base, pointers, isArray⟩ := t
  constructor
  · intro h
    cases isArray with
    | true => exact ⟨_, .array⟩
    | false =>
        cases pointers with
        | zero => exact nomatch h
        | succ n => exact ⟨_, .pointer⟩
  · rintro ⟨_, _ | _⟩ <;> rfl

theorem decayed_isText_iff :
    (t.decayed.base == .char && t.decayed.pointers == 1) = true ↔ Points t (.plain .char) := by
  obtain ⟨base, pointers, isArray⟩ := t
  rw [Bool.and_eq_true, beq_iff_eq, beq_iff_eq]
  constructor
  · rintro ⟨hbase, hpointers⟩
    cases isArray with
    | true =>
        obtain rfl : base = .char := hbase
        obtain rfl : pointers = 0 := Nat.succ.inj hpointers
        exact .array
    | false =>
        obtain rfl : base = .char := hbase
        obtain rfl : pointers = 1 := hpointers
        exact .pointer
  · intro h
    cases h with
    | array => exact ⟨rfl, rfl⟩
    | pointer => exact ⟨rfl, rfl⟩

/-- What a type leads to is no array. -/
theorem Points.isArray (h : Points t target) : target.isArray = false := by
  cases h <;> rfl

theorem Points.isKnown (h : Points t target) (hknown : t.IsKnown) : target.IsKnown := by
  cases h <;> exact hknown

theorem acceptsValue_iff (hknown : t.IsKnown) : k.acceptsValue t = true ↔ k.Prints t := by
  unfold Conversion.acceptsValue
  rw [hknown.isUnknown, Bool.false_or]
  cases k with
  | integer =>
      refine isIntegral_iff.trans ⟨fun ⟨_, hmeets⟩ => .integer hmeets, fun h => ?_⟩
      cases h with
      | integer hmeets => exact ⟨_, hmeets⟩
  | char =>
      refine isIntegral_iff.trans ⟨fun ⟨_, hmeets⟩ => .char hmeets, fun h => ?_⟩
      cases h with
      | char hmeets => exact ⟨_, hmeets⟩
  | floating =>
      refine isFloating_iff.trans ⟨fun ⟨_, hrank, hle⟩ => .floating hrank hle, fun h => ?_⟩
      cases h with
      | floating hrank hle => exact ⟨_, hrank, hle⟩
  | string =>
      refine decayed_isText_iff.trans ⟨.string, fun h => ?_⟩
      cases h with
      | string hpoints => exact hpoints
  | pointer =>
      refine decayed_isPointer_iff.trans ⟨fun ⟨_, hpoints⟩ => .pointer hpoints, fun h => ?_⟩
      cases h with
      | pointer hpoints => exact ⟨_, hpoints⟩

theorem acceptsTarget_iff (hknown : target.IsKnown) (harray : target.isArray = false) :
    k.acceptsTarget target = true ↔ k.Reads target := by
  unfold Conversion.acceptsTarget
  rw [hknown.isUnknown, Bool.false_or]
  cases k with
  | integer =>
      refine isIntegral_iff.trans ⟨fun ⟨_, hmeets⟩ => .integer hmeets, fun h => ?_⟩
      cases h with
      | integer hmeets => exact ⟨_, hmeets⟩
  | char =>
      refine beq_iff_eq.trans ⟨fun h => ?_, fun h => ?_⟩
      · rw [h]
        exact .char
      · cases h with
        | char => rfl
  | floating =>
      refine isFloating_iff.trans ⟨fun ⟨_, hrank, hle⟩ => .floating hrank hle, fun h => ?_⟩
      cases h with
      | floating hrank hle => exact ⟨_, hrank, hle⟩
  | string =>
      refine beq_iff_eq.trans ⟨fun h => ?_, fun h => ?_⟩
      · rw [h]
        exact .string
      · cases h with
        | string => rfl
  | pointer =>
      have hdecayed : target.decayed = target := by rw [CType.decayed, harray]; rfl
      have hpointer : target.isPointer = true ↔ ∃ pointee, Points target pointee := by
        rw [← decayed_isPointer_iff, hdecayed]
      refine hpointer.trans ⟨fun ⟨_, hpoints⟩ => .pointer hpoints, fun h => ?_⟩
      cases h with
      | pointer hpoints => exact ⟨_, hpoints⟩

/-- An argument is checked by the rule. -/
theorem ArgumentReport.eq (h : ArgumentReport call spec argument issues) :
    call.checkArgument spec argument = ⟨issues, .ok ()⟩ := by
  cases h with
  | unknown hunknown =>
      have hvalue : spec.conversion.acceptsValue argument.type = true := by
        unfold Conversion.acceptsValue
        rw [isUnknown_iff.2 hunknown, Bool.true_or]
      cases call with
      | printf =>
          show checkPrinted spec argument = _
          rw [checkPrinted, hvalue]
          rfl
      | scanf =>
          show checkScanned spec argument = _
          rw [checkScanned, if_pos (isUnknown_iff.2 hunknown)]
          rfl
  | taken hknown htakes =>
      cases htakes with
      | prints hprints =>
          show checkPrinted spec argument = _
          rw [checkPrinted, (acceptsValue_iff hknown).2 hprints]
          rfl
      | reads hpoints hreads =>
          have htarget := (acceptsTarget_iff (hpoints.isKnown hknown) hpoints.isArray).2 hreads
          show checkScanned spec argument = _
          rw [checkScanned, hknown.isUnknown, element?_eq, deref?_iff.2 hpoints]
          simp only [htarget]
          rfl
  | notPrinted hknown hno =>
      have hvalue : spec.conversion.acceptsValue argument.type = false := by
        rwa [← Bool.not_eq_true, acceptsValue_iff hknown]
      show checkPrinted spec argument = _
      rw [checkPrinted, hvalue]
      rfl
  | noAddress hknown hno =>
      show checkScanned spec argument = _
      rw [checkScanned, hknown.isUnknown, element?_eq, deref?_eq_none hno]
      rfl
  | @notRead _ _ target hknown hpoints hno =>
      have htarget : spec.conversion.acceptsTarget target = false := by
        rwa [← Bool.not_eq_true, acceptsTarget_iff (hpoints.isKnown hknown) hpoints.isArray]
      show checkScanned spec argument = _
      rw [checkScanned, hknown.isUnknown, element?_eq, deref?_iff.2 hpoints]
      simp only [htarget]
      rfl

theorem exists_argumentReport (call : FormatCall) (spec : FormatSpec) (argument : Argument) :
    ∃ issues, ArgumentReport call spec argument issues := by
  by_cases hknown : argument.type.IsKnown
  · by_cases htakes : call.Takes spec.conversion argument.type
    · exact ⟨_, .taken hknown htakes⟩
    · cases call with
      | printf => exact ⟨_, .notPrinted hknown fun hprints => htakes (.prints hprints)⟩
      | scanf =>
          by_cases htarget : ∃ target, Points argument.type target
          · obtain ⟨target, hpoints⟩ := htarget
            exact ⟨_, .notRead hknown hpoints fun hreads => htakes (.reads hpoints hreads)⟩
          · exact ⟨_, .noAddress hknown (not_exists.1 htarget)⟩
  · exact ⟨_, .unknown hknown⟩

end Rules

section Formats

variable {call : FormatCall} {specs : List FormatSpec} {given : List Argument} {text : String}
variable {format : Token} {issues : List Issue}

/-- Arguments are checked one by one, up to the end of the shorter list. -/
theorem checkArguments_format {reports : List (List Issue)}
    (h : List.Forall₂ (fun pair report => ArgumentReport call pair.1 pair.2 report)
      (specs.zip given) reports) :
    call.checkArguments specs given = ⟨reports.flatten, .ok ()⟩ := by
  induction specs generalizing given reports with
  | nil =>
      cases h
      rfl
  | cons spec specs ih =>
      cases given with
      | nil =>
          cases h
          rfl
      | cons argument given =>
          cases h with
          | cons hfirst hrest =>
              rw [FormatCall.checkArguments, hfirst.eq, ih hrest, Finding.ok_bind,
                List.flatten_cons]

theorem exists_reports (call : FormatCall) (pairs : List (FormatSpec × Argument)) :
    ∃ reports, List.Forall₂ (fun pair report => ArgumentReport call pair.1 pair.2 report)
      pairs reports := by
  induction pairs with
  | nil => exact ⟨[], .nil⟩
  | cons pair pairs ih =>
      obtain ⟨issues, hfirst⟩ := exists_argumentReport call pair.1 pair.2
      obtain ⟨reports, hrest⟩ := ih
      exact ⟨issues :: reports, .cons hfirst hrest⟩

/-- The quotes around a literal are taken away. -/
theorem unquoted_quoted (text : String) : unquoted ("\"" ++ text ++ "\"") = text := by
  have htoList : ("\"" ++ text ++ "\"").toList = '"' :: (text.toList ++ ['"']) := by
    simp
  rw [unquoted, htoList]
  simp

/-- A format string is checked by the rules. -/
theorem FormatReport.eq (h : FormatReport call format text given issues)
    (hformat : format.lexeme = "\"" ++ text ++ "\"") :
    call.check format given = ⟨issues, .ok ()⟩ := by
  rw [FormatCall.check, hformat, unquoted_quoted]
  cases h with
  | refused herror => rw [herror]; rfl
  | judged hspecs hreports =>
      rw [hspecs]
      simp only [Finding.complain_eq, checkArguments_format hreports, Finding.ok_bind, beq_iff_eq]

theorem exists_formatReport (call : FormatCall) (format : Token) (text : String)
    (given : List Argument) : ∃ issues, FormatReport call format text given issues := by
  cases hspecs : FormatSpec.ofText text with
  | error error => exact ⟨_, .refused hspecs⟩
  | ok specs =>
      obtain ⟨reports, hreports⟩ := exists_reports call (specs.zip given)
      exact ⟨_, .judged hspecs hreports⟩

/-- The rules leave no choice. -/
theorem FormatReport.unique {issues' : List Issue}
    (h : FormatReport call format text given issues)
    (h' : FormatReport call format text given issues')
    (hformat : format.lexeme = "\"" ++ text ++ "\"") : issues' = issues :=
  (Finding.mk.inj ((h'.eq hformat).symm.trans (h.eq hformat))).1

end Formats

/-! ## The statements -/

/-- The tokens of a statement that is ruled by a format string, around its arguments. -/
structure FormatStatement where
  call : FormatCall
  name : Token
  opening : Token
  format : Token
  arguments : Trail
  closing : Token
  semicolon : Token

namespace FormatStatement

/-- The tokens of the statement. -/
def tokens (s : FormatStatement) : List Token :=
  s.name :: s.opening :: s.format :: (s.arguments.tokens ++ [s.closing, s.semicolon])

/-- The statement as a tree. -/
def stmt (s : FormatStatement) : Stmt :=
  match s.call with
  | .printf => .printf s.name (.found s.opening) (.literal .string s.format) s.arguments
      (.found s.closing) (.found s.semicolon)
  | .scanf => .scanf s.name (.found s.opening) (.found s.format) s.arguments
      (.found s.closing) (.found s.semicolon)

/-- Whether the tokens are those that the statement asks for; the format is written as the string
literals of a source text are. -/
structure Spelled (s : FormatStatement) : Prop where
  name_kind : s.name.kind = .ident
  name_lexeme : s.name.lexeme = s.call.name
  opening : s.opening.kind = .punct .lparen
  format : s.format.kind = .literal .string
  written : s.format.kind.Written s.format.lexeme.toList
  arguments : s.arguments.Grammatical
  closing : s.closing.kind = .punct .rparen
  semicolon : s.semicolon.kind = .punct .semicolon

variable {s : FormatStatement}

/-- A string literal stands in quotes. -/
theorem Spelled.exists_text (h : s.Spelled) :
    ∃ text : String, s.format.lexeme = "\"" ++ text ++ "\"" := by
  have hwritten := h.written
  rw [h.format] at hwritten
  generalize hchars : s.format.lexeme.toList = chars at hwritten
  cases hwritten with
  | @string body _ =>
      refine ⟨.ofList body, String.toList_inj.1 ?_⟩
      rw [hchars]
      simp

/-- The arguments are read as far as the closing parenthesis. -/
theorem Spelled.arguments_agree (h : s.Spelled) (rest : List Token) :
    (reading (s.arguments.tokens ++ s.closing :: rest)).trail.Agrees
      (.here s.arguments (reading (s.closing :: rest))) := by
  have hends : EndsExpression (s.closing :: rest) := endsExpression_cons (by rw [h.closing]; rfl)
  refine Trail.readable s.arguments h.arguments hends fun t ht => ?_
  cases ht
  rw [h.closing]
  rfl

/-- The format of a `printf` is read as an expression, which is the literal alone. -/
theorem Spelled.format_agrees (h : s.Spelled) (rest : List Token) :
    (reading (s.format :: (s.arguments.tokens ++ s.closing :: rest))).expression.Agrees
      (.here (.literal .string s.format) (reading (s.arguments.tokens ++ s.closing :: rest))) := by
  have hends : EndsExpression (s.closing :: rest) := endsExpression_cons (by rw [h.closing]; rfl)
  have hliteral : (Expr.literal .string s.format).Grammatical := h.format
  exact (Expr.readable _ hliteral).expression _
    ((s.arguments.endsExpression h.arguments hends).endsLevel 6)

/-- Behind the format the two statements go on in the same way, up to the semicolon. -/
theorem Spelled.end_agrees (h : s.Spelled) (atClosing atEnd : Site)
    (build : Trail → Slot → Slot → Stmt) (rest : List Token) :
    ((reading (s.arguments.tokens ++ s.closing :: s.semicolon :: rest)).trail.andThen
      fun arguments c₁ _ => (c₁.expect (.punct .rparen) atClosing).atMost.andThen
        fun closing c₂ _ => (c₂.expect (.punct .semicolon) atEnd).atMost.map
          (build arguments closing)).Agrees
      (.here (build s.arguments (.found s.closing) (.found s.semicolon)) (reading rest)) := by
  have harguments := h.arguments_agree (s.semicolon :: rest)
  have hclosing := Cursor.expect_slot ⟨s.closing, rfl, h.closing⟩ atClosing (s.semicolon :: rest)
  have hend := semicolon_agrees h.semicolon atEnd rest
  exact (harguments.andThen _).trans
    (((hclosing.weaken (Cursor.residue_le_size _)).andThen _).trans
      ((hend.weaken (Cursor.residue_le_size _)).map_here _))

/-- Behind its name a `printf` is read up to its semicolon. -/
theorem Spelled.printf_agrees (h : s.Spelled) (rest : List Token) :
    (Cursor.printf s.name (reading (s.opening :: s.format ::
      (s.arguments.tokens ++ s.closing :: s.semicolon :: rest)))).Agrees
      (.here (.printf s.name (.found s.opening) (.literal .string s.format) s.arguments
        (.found s.closing) (.found s.semicolon)) (reading rest)) := by
  have hopening := Cursor.expect_slot ⟨s.opening, rfl, h.opening⟩ .printfStart
    (s.format :: (s.arguments.tokens ++ s.closing :: s.semicolon :: rest))
  have hformat := h.format_agrees (s.semicolon :: rest)
  exact ((hopening.weaken (Cursor.residue_le_size _)).andThen _).trans
    (((hformat.weaken (Cursor.residue_le_size _)).andThen _).trans
      (h.end_agrees .printfArgumentsEnd .printfEnd _ rest))

/-- Behind its name a `scanf` is read up to its semicolon. -/
theorem Spelled.scanf_agrees (h : s.Spelled) (rest : List Token) :
    (Cursor.scanf s.name (reading (s.opening :: s.format ::
      (s.arguments.tokens ++ s.closing :: s.semicolon :: rest)))).Agrees
      (.here (.scanf s.name (.found s.opening) (.found s.format) s.arguments
        (.found s.closing) (.found s.semicolon)) (reading rest)) := by
  have hopening := Cursor.expect_slot ⟨s.opening, rfl, h.opening⟩ .scanfStart
    (s.format :: (s.arguments.tokens ++ s.closing :: s.semicolon :: rest))
  have hformat := Cursor.expect_slot ⟨s.format, rfl, h.format⟩ .scanfFormat
    (s.arguments.tokens ++ s.closing :: s.semicolon :: rest)
  exact ((hopening.weaken (Cursor.residue_le_size _)).andThen _).trans
    (((hformat.weaken (Cursor.residue_le_size _)).andThen _).trans
      (h.end_agrees .scanfArgumentsEnd .scanfEnd _ rest))

/-- **The statement is read from its tokens.** -/
theorem reads (h : s.Spelled) (rest : List Token) :
    (reading (s.tokens ++ rest)).statement.Agrees (.here s.stmt (reading rest)) := by
  have htokens : s.tokens ++ rest = s.name :: s.opening :: s.format ::
      (s.arguments.tokens ++ s.closing :: s.semicolon :: rest) := by
    simp [tokens]
  have hnamed : (reading (s.tokens ++ rest)).statement.Agrees
      (Cursor.named s.name (s.opening :: s.format ::
        (s.arguments.tokens ++ s.closing :: s.semicolon :: rest))) := by
    rw [htokens, Cursor.statement.eq_1, if_neg (by rw [h.name_kind]; decide)]
    simp only [h.name_kind]
    exact .refl _
  refine hnamed.trans ?_
  generalize hbehind : s.opening :: s.format ::
    (s.arguments.tokens ++ s.closing :: s.semicolon :: rest) = behind
  rw [stmt]
  cases hcall : s.call with
  | printf =>
      have hname : s.name.lexeme = "printf" := by rw [h.name_lexeme, hcall]; rfl
      have hprintf : Cursor.named s.name behind = (reading behind).printf s.name := if_pos hname
      rw [hprintf, ← hbehind]
      exact h.printf_agrees rest
  | scanf =>
      have hname : s.name.lexeme = "scanf" := by rw [h.name_lexeme, hcall]; rfl
      have hno : s.name.lexeme ≠ "printf" := by rw [hname]; decide
      have hscanf : Cursor.named s.name behind = (reading behind).scanf s.name :=
        (if_neg hno).trans (if_pos hname)
      rw [hscanf, ← hbehind]
      exact h.scanf_agrees rest

/-- **The statement is checked as the rules say.** -/
theorem run (h : s.Spelled) {state : State} {given : List Argument} {issues reports : List Issue}
    {text : String} (htext : s.format.lexeme = "\"" ++ text ++ "\"")
    (harguments : s.arguments.HaveTypes state.symbols given issues)
    (hreports : FormatReport s.call s.format text given reports) :
    (Part.statement s.stmt).run state = (state, ⟨issues ++ reports, .ok ()⟩) := by
  have hgiven : Check.reading s.arguments.typing state.symbols =
      (state.symbols, ⟨issues, .ok given⟩) := by
    rw [Check.reading, s.arguments.typing_eq harguments]
  have hlast : (liftM (s.call.check s.format given) : Check Unit) state.symbols =
      (state.symbols, ⟨reports, .ok ()⟩) := by
    rw [← hreports.eq htext]
    rfl
  have hfound (token : Token) : (liftM (Slot.found token).require : Check Unit) state.symbols =
      (state.symbols, ⟨[], .ok ()⟩) := rfl
  have hcheck : (Part.statement s.stmt).check state.context state.struct state.symbols =
      (state.symbols, ⟨issues ++ reports, .ok ()⟩) := by
    rw [Part.check, stmt]
    cases hcall : s.call with
    | printf =>
        rw [hcall] at hlast
        have hformat : (Expr.literal .string s.format).formatToken? = some s.format := by
          simp [Expr.formatToken?, Expr.lead, h.format]
        rw [Stmt.check, Check.run_past (hfound s.opening), Check.run_past rfl]
        refine Check.run_ok_bind hgiven ?_
        rw [Check.run_past (hfound s.closing), Check.run_past (hfound s.semicolon), hformat]
        exact hlast
    | scanf =>
        rw [hcall] at hlast
        rw [Stmt.check, Check.run_past (hfound s.opening), Check.run_past rfl]
        refine Check.run_ok_bind hgiven ?_
        rw [Check.run_past (hfound s.closing), Check.run_past (hfound s.semicolon)]
        exact hlast
  rw [Part.run, hcheck]

end FormatStatement

/-- **Behind the issues of the arguments stand those of the format.**  A `printf` or `scanf` with a
string literal for its format is read from its tokens, in front of anything, and whatever state it
is checked in is the one that it leaves.  Its arguments have one list of types under the symbols of
that state, with their issues; behind these stands what the rules say about the text between the
quotes and about the types, and nothing else.  The rules leave no choice: if the text is refused,
that is all; else the specifiers and the arguments may differ in number, and then, from position to
position up to the end of the shorter list, an argument of known type does not go with its
specifier. -/
theorem format_statement_checked {s : FormatStatement} (h : s.Spelled) (state : State)
    (rest : List Token) :
    (reading (s.tokens ++ rest)).statement.tree = s.stmt ∧
      (reading (s.tokens ++ rest)).statement.next = reading rest ∧
      ∃ text given issues reports,
        s.format.lexeme = "\"" ++ text ++ "\"" ∧
        s.arguments.typing state.symbols = ⟨issues, .ok given⟩ ∧
        s.arguments.HaveTypes state.symbols given issues ∧
        FormatReport s.call s.format text given reports ∧
        (∀ reports', FormatReport s.call s.format text given reports' → reports' = reports) ∧
        (Part.statement s.stmt).run state = (state, ⟨issues ++ reports, .ok ()⟩) := by
  have hread := FormatStatement.reads h rest
  obtain ⟨text, htext⟩ := h.exists_text
  obtain ⟨given, issues, harguments⟩ := s.arguments.exists_haveTypes state.symbols h.arguments
  obtain ⟨reports, hreports⟩ := exists_formatReport s.call s.format text given
  refine ⟨hread.tree, hread.next, text, given, issues, reports, htext,
    s.arguments.typing_eq harguments, harguments, hreports, fun reports' hreports' => ?_,
    FormatStatement.run h htext harguments hreports⟩
  exact hreports.unique hreports' htext

/-- Text without quotes, backslashes and line feeds may stand between quotes. -/
theorem QuotedText.of_plain {text : List Char}
    (h : ∀ c ∈ text, c ≠ '"' ∧ c ≠ '\\' ∧ c ≠ '\n') : QuotedText '"' text := by
  induction text with
  | nil => exact .nil
  | cons c cs ih =>
      obtain ⟨⟨hquote, hescape, hline⟩, hcs⟩ := List.forall_mem_cons.1 h
      exact .cons (.plain hquote hescape hline) (ih hcs)

/-- `printf("%d%%%s%d", "a", x);` -/
def mixedPrint : FormatStatement where
  call := .printf
  name := ⟨.ident, "printf", ⟨1, 1⟩⟩
  opening := ⟨.punct .lparen, "(", ⟨1, 7⟩⟩
  format := ⟨.literal .string, "\"%d%%%s%d\"", ⟨1, 8⟩⟩
  arguments := .cons ⟨.punct .comma, ",", ⟨1, 18⟩⟩
    (.literal .string ⟨.literal .string, "\"a\"", ⟨1, 20⟩⟩)
    (.cons ⟨.punct .comma, ",", ⟨1, 23⟩⟩ (.var ⟨.ident, "x", ⟨1, 25⟩⟩) .nil)
  closing := ⟨.punct .rparen, ")", ⟨1, 26⟩⟩
  semicolon := ⟨.punct .semicolon, ";", ⟨1, 27⟩⟩

/-- Where nothing is declared, the issue of the second argument comes first; then it is said that an
argument is missing, and that the first one is no number.  The second one is of unknown type, and
let pass. -/
theorem mixedPrint_checked :
    let state : State := ⟨.empty, .global, none⟩
    let text : CType := ⟨.char, 1, false⟩
    let first : Token := ⟨.literal .string, "\"a\"", ⟨1, 20⟩⟩
    let second : Token := ⟨.ident, "x", ⟨1, 25⟩⟩
    (reading mixedPrint.tokens).statement.tree = mixedPrint.stmt ∧
      (Part.statement mixedPrint.stmt).run state = (state,
        ⟨faulty (.undeclaredVariable "x") second ++
          (faulty (.formatCount .printf 3 2) mixedPrint.format ++
            faulty (.formatArgument .printf ⟨.integer, "%d"⟩ text) first), .ok ()⟩) := by
  intro state text first second
  have hquoted : QuotedText '"' ['%', 'd', '%', '%', '%', 's', '%', 'd'] :=
    .of_plain (by simp)
  have hspelled : mixedPrint.Spelled :=
    ⟨rfl, rfl, rfl, rfl, .string hquoted, ⟨rfl, rfl, rfl, rfl, trivial⟩, rfl, rfl⟩
  obtain ⟨hread, -, body, given, issues, reports, hbody, htyping, -, -, hunique, hrun⟩ :=
    format_statement_checked hspelled state []
  obtain rfl : body = "%d%%%s%d" := by
    rw [← unquoted_quoted body, ← hbody]
    decide
  obtain ⟨rfl, houtcome⟩ := Finding.mk.inj htyping
  obtain rfl := Except.ok.inj houtcome
  -- the text taken apart
  let number : WrittenSpec := ⟨[], 'd', .integer, by simp, by decide⟩
  let name : WrittenSpec := ⟨[], 's', .string, by simp, by decide⟩
  let layout := ((FormatLayout.empty.pushSpec number).pushSpec name).pushPercent.pushSpec number
  have hspecs : FormatSpec.ofText "%d%%%s%d" =
      .ok [⟨.integer, "%d"⟩, ⟨.string, "%s"⟩, ⟨.integer, "%d"⟩] := layout.ofText_text
  have hfirst : ArgumentReport .printf ⟨.integer, "%d"⟩ ⟨text, first⟩
      (faulty (.formatArgument .printf ⟨.integer, "%d"⟩ text) first) := by
    have hknown : text.IsKnown := fun hunknown => nomatch hunknown
    refine .notPrinted hknown fun hprints => ?_
    have haccepts := (acceptsValue_iff hknown).2 hprints
    exact absurd haccepts (by decide)
  have hsecond : ArgumentReport .printf ⟨.string, "%s"⟩ ⟨.unknown, second⟩ [] :=
    .unknown fun hknown => hknown rfl
  obtain rfl := hunique _ (.judged hspecs (.cons hfirst (.cons hsecond .nil)))
  exact ⟨hread, hrun⟩

end MiniC
