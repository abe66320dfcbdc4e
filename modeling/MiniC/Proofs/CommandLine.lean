import Mathlib.Data.List.Forall2
import MiniC.CommandLine
import MiniC.Proofs.Collecting

/-!
# `MiniC.Proofs.CommandLine` — a run of the program and the analysis

A run decides about its arguments one by one, and about the file before it is read.  What it asks
of them all the same is a condition on the list of arguments: no option but the two, one argument
that is none, and a file of that name.  Behind that a run is the analysis of the text of the file,
told in lines.

The program holds one collector, whose sink is the error stream, from the first piece of the text
to the end of the last statement, and writes a line of its own in between.  `streamOn` is that run.
It writes what `runOn` puts together from the two lists of diagnostics.

## Contents
- `isOption`, `IsUnknown`, `plain`: the options among the arguments, and what is none.
- `ofArgs_eq_ok`, `ofArgs_eq_error`: what the arguments have to be, and which of them is blamed.
- `lines_eq`, `streamOn_eq`: the lines of diagnostics, and the run that writes on its way.
- `AgreesWithAnalysis`, `run_agrees`: **a run refuses its arguments or tells the analysis,** however
  the options stand among the arguments.
-/

namespace MiniC.CommandLine

/-! ## Options among the arguments -/

/-- Whether an argument begins with two dashes, as options do. -/
def isOption (argument : String) : Bool := "--".isPrefixOf argument

/-- An option that the program does not have. -/
def IsUnknown (argument : String) : Prop :=
  isOption argument = true ∧ argument ≠ "--tokens" ∧ argument ≠ "--no-color"

/-- The arguments that are no options. -/
def plain (args : List String) : List String := args.filter (!isOption ·)

section

variable {argument option : String} {args before after : List String}

theorem isOption_iff : isOption argument = true ↔ ['-', '-'] <+: argument.toList :=
  String.startsWith_string_iff

theorem isOption_tokens : isOption "--tokens" = true := by decide +kernel

theorem isOption_noColor : isOption "--no-color" = true := by decide +kernel

/-- An argument is one of the two options, or an unknown one, or none. -/
theorem classify (argument : String) :
    argument = "--tokens" ∨ argument = "--no-color" ∨ IsUnknown argument ∨
      isOption argument = false := by
  by_cases htokens : argument = "--tokens"
  · exact .inl htokens
  by_cases hcolor : argument = "--no-color"
  · exact .inr (.inl hcolor)
  cases hoption : isOption argument with
  | false => exact .inr (.inr (.inr rfl))
  | true => exact .inr (.inr (.inl ⟨hoption, htokens, hcolor⟩))

theorem not_isUnknown_tokens : ¬IsUnknown "--tokens" := fun h => h.2.1 rfl

theorem not_isUnknown_noColor : ¬IsUnknown "--no-color" := fun h => h.2.2 rfl

theorem not_isUnknown_of_plain (h : isOption argument = false) : ¬IsUnknown argument :=
  fun hunknown => absurd hunknown.1 (by rw [h]; decide)

theorem ne_of_plain (h : isOption argument = false) (hoption : isOption option = true) :
    option ≠ argument := by
  rintro rfl
  exact absurd hoption (by rw [h]; decide)

theorem plain_nil : plain [] = [] := rfl

theorem plain_cons_option (h : isOption argument = true) : plain (argument :: args) = plain args :=
  List.filter_cons_of_neg (by simp [h])

theorem plain_cons_plain (h : isOption argument = false) :
    plain (argument :: args) = argument :: plain args :=
  List.filter_cons_of_pos (by simp [h])

end

/-! ## Taking arguments into account -/

namespace Options

variable {options result middle : Options} {argument : String} {args before after : List String}
  {error : UsageError}

/-- The file named so far, and what the arguments name besides. -/
def inputs (options : Options) (args : List String) : List String :=
  options.input.toList ++ plain args

/-- The options behind arguments that were all taken into account. -/
def behind (options : Options) (args : List String) : Options where
  input := (options.inputs args).head?
  dumpsTokens := options.dumpsTokens || decide ("--tokens" ∈ args)
  color := options.color && decide ("--no-color" ∉ args)

theorem add_tokens : options.add "--tokens" = .ok { options with dumpsTokens := true } := rfl

theorem add_noColor : options.add "--no-color" = .ok { options with color := false } := rfl

theorem add_unknown (h : IsUnknown argument) :
    options.add argument = .error (.unknownOption argument) := by
  obtain ⟨hoption, htokens, hcolor⟩ := h
  unfold isOption at hoption
  rw [add, if_neg htokens, if_neg hcolor, if_pos hoption]

/-- The first argument that is no option names the file, and there is no place for a second. -/
theorem add_plain (h : isOption argument = false) :
    options.add argument =
      if options.input.isNone then .ok { options with input := some argument }
      else .error (.unexpectedArgument argument) := by
  have htokens := (ne_of_plain h isOption_tokens).symm
  have hcolor := (ne_of_plain h isOption_noColor).symm
  unfold isOption at h
  rw [add, if_neg htokens, if_neg hcolor, if_neg (by rw [h]; decide)]

/-- An argument is taken into account unless it is an unknown option or a second file. -/
theorem add_eq_ok :
    options.add argument = .ok result ↔
      ¬IsUnknown argument ∧ (options.inputs [argument]).length ≤ 1 ∧
        result = options.behind [argument] := by
  obtain ⟨input, dumpsTokens, color⟩ := options
  rcases classify argument with rfl | rfl | hunknown | hplain
  · rw [add_tokens, and_iff_right not_isUnknown_tokens, Except.ok.injEq, eq_comm]
    cases input <;> simp [inputs, behind, plain_cons_option isOption_tokens, plain_nil]
  · rw [add_noColor, and_iff_right not_isUnknown_noColor, Except.ok.injEq, eq_comm]
    cases input <;> simp [inputs, behind, plain_cons_option isOption_noColor, plain_nil]
  · simp [add_unknown hunknown, hunknown]
  · rw [add_plain hplain, and_iff_right (not_isUnknown_of_plain hplain)]
    have htokens := ne_of_plain hplain isOption_tokens
    have hcolor := ne_of_plain hplain isOption_noColor
    cases input with
    | none =>
        rw [if_pos Option.isNone_none, Except.ok.injEq, eq_comm]
        simp [inputs, behind, plain_cons_plain hplain, plain_nil, htokens, hcolor]
    | some input =>
        rw [if_neg (by simp)]
        simp [inputs, plain_cons_plain hplain, plain_nil]

/-- What an argument leaves is what it and those behind it name. -/
theorem inputs_behind (h : (options.inputs [argument]).length ≤ 1) :
    (options.behind [argument]).inputs args = options.inputs (argument :: args) := by
  have hhead : (options.inputs [argument]).head?.toList = options.inputs [argument] := by
    match options.inputs [argument], h with
    | [], _ => rfl
    | [_], _ => rfl
  have hplain : plain (argument :: args) = plain [argument] ++ plain args :=
    List.filter_append [argument] args
  rw [inputs, behind, hhead, inputs, inputs, hplain, List.append_assoc]

theorem behind_behind (h : (options.inputs [argument]).length ≤ 1) :
    (options.behind [argument]).behind args = options.behind (argument :: args) := by
  rw [behind, inputs_behind h]
  simp [behind, Bool.or_assoc, Bool.and_assoc, List.mem_cons, not_or]

theorem length_inputs_le_of_cons (h : (options.inputs (argument :: args)).length ≤ 1) :
    (options.inputs [argument]).length ≤ 1 := by
  have hsub : (options.inputs [argument]).Sublist (options.inputs (argument :: args)) :=
    ((List.singleton_sublist.2 List.mem_cons_self).filter _).append_left _
  exact Nat.le_trans hsub.length_le h

/-- Arguments are taken into account if none is an unknown option and they name one file at most,
and in no other way. -/
theorem addAll_eq_ok :
    options.addAll args = .ok result ↔
      (∀ argument ∈ args, ¬IsUnknown argument) ∧ (options.inputs args).length ≤ 1 ∧
        result = options.behind args := by
  induction args generalizing options with
  | nil =>
      obtain ⟨input, dumpsTokens, color⟩ := options
      rw [addAll, Except.ok.injEq, eq_comm]
      cases input <;> simp [inputs, behind, plain_nil]
  | cons first args ih =>
      rw [addAll, List.forall_mem_cons]
      constructor
      · intro h
        cases hadd : options.add first with
        | error e => simp [hadd, Except.bind] at h
        | ok middle =>
            rw [hadd, Except.bind, ih] at h
            obtain ⟨hfirst, hroom, rfl⟩ := add_eq_ok.1 hadd
            rw [inputs_behind hroom, behind_behind hroom] at h
            exact ⟨⟨hfirst, h.1⟩, h.2⟩
      · rintro ⟨⟨hfirst, hrest⟩, hone, rfl⟩
        have hroom := length_inputs_le_of_cons hone
        rw [add_eq_ok.2 ⟨hfirst, hroom, rfl⟩, Except.bind, ih, inputs_behind hroom,
          behind_behind hroom]
        exact ⟨hrest, hone, rfl⟩

/-- The first argument that cannot be taken into account is the one blamed. -/
theorem addAll_eq_error :
    options.addAll args = .error error ↔
      ∃ before argument after middle, args = before ++ argument :: after ∧
        options.addAll before = .ok middle ∧ middle.add argument = .error error := by
  induction args generalizing options with
  | nil => simp [addAll]
  | cons first args ih =>
      rw [addAll]
      cases hadd : options.add first with
      | error e =>
          constructor
          · intro h
            exact ⟨[], first, args, options, rfl, rfl, hadd.trans h⟩
          · rintro ⟨before, argument, after, middle, hsplit, hbefore, hargument⟩
            cases before with
            | nil =>
                cases hsplit
                cases hbefore
                rw [hadd] at hargument
                exact hargument
            | cons _ before =>
                cases hsplit
                simp [addAll, hadd, Except.bind] at hbefore
      | ok next =>
          rw [Except.bind, ih]
          constructor
          · rintro ⟨before, argument, after, middle, rfl, hbefore, hargument⟩
            exact ⟨first :: before, argument, after, middle, rfl,
              by rw [addAll, hadd]; exact hbefore, hargument⟩
          · rintro ⟨before, argument, after, middle, hsplit, hbefore, hargument⟩
            cases before with
            | nil =>
                cases hsplit
                cases hbefore
                rw [hadd] at hargument
                cases hargument
            | cons _ before =>
                cases hsplit
                rw [addAll, hadd] at hbefore
                exact ⟨before, argument, after, middle, rfl, hbefore, hargument⟩

end Options

/-! ## What the arguments ask for -/

/-- The options that arguments ask for which name the file `input`. -/
def asked (terminal : Bool) (args : List String) (input : String) : Options where
  input := some input
  dumpsTokens := decide ("--tokens" ∈ args)
  color := terminal && decide ("--no-color" ∉ args)

/-- The arguments are fit to be continued: no unknown option, and one file at most. -/
def Passable (args : List String) : Prop :=
  (∀ argument ∈ args, ¬IsUnknown argument) ∧ (plain args).length ≤ 1

/-- Whether an error is the one to report: the first unknown option, or the second file if it
comes earlier, or else that there is no file. -/
def UsageError.Blames (args : List String) : UsageError → Prop
  | unknownOption option =>
      ∃ before after, args = before ++ option :: after ∧ Passable before ∧ IsUnknown option
  | unexpectedArgument argument =>
      ∃ before after, args = before ++ argument :: after ∧ Passable before ∧
        isOption argument = false ∧ (plain before).length = 1
  | noInput => (∀ argument ∈ args, ¬IsUnknown argument) ∧ plain args = []

section

variable {terminal : Bool} {args : List String} {input argument : String} {options : Options}
  {error : UsageError}

/-- Arguments that are passable can be taken into account, and no others. -/
theorem addAll_initial :
    Options.addAll ⟨none, false, terminal⟩ args = .ok options ↔
      Passable args ∧ options = Options.behind ⟨none, false, terminal⟩ args := by
  rw [Options.addAll_eq_ok, Passable, and_assoc]
  rfl

/-- Passable arguments name a file or lack one. -/
theorem ofArgs_passable (h : Passable args) :
    Options.ofArgs terminal args =
      match plain args with
      | input :: _ => .ok (input, asked terminal args input)
      | [] => .error .noInput := by
  unfold Options.ofArgs
  rw [addAll_initial.2 ⟨h, rfl⟩]
  cases hplain : plain args <;>
    simp [bind, Except.bind, Options.behind, Options.inputs, hplain, asked]

theorem ofArgs_error (h : Options.addAll ⟨none, false, terminal⟩ args = .error error) :
    Options.ofArgs terminal args = .error error := by
  unfold Options.ofArgs
  rw [h]
  rfl

/-- The arguments are taken if none is an unknown option and just one is no option. -/
theorem ofArgs_eq_ok :
    Options.ofArgs terminal args = .ok (input, options) ↔
      (∀ argument ∈ args, ¬IsUnknown argument) ∧ plain args = [input] ∧
        options = asked terminal args input := by
  by_cases hpass : Passable args
  · rw [ofArgs_passable hpass, and_iff_right hpass.1]
    match hplain : plain args, hpass.2 with
    | [], _ => simp
    | [file], _ =>
        rw [Except.ok.injEq, Prod.mk.injEq, List.singleton_inj]
        constructor
        · rintro ⟨rfl, rfl⟩
          exact ⟨rfl, rfl⟩
        · rintro ⟨rfl, rfl⟩
          exact ⟨rfl, rfl⟩
  · cases hall : Options.addAll ⟨none, false, terminal⟩ args with
    | ok result => exact absurd (addAll_initial.1 hall).1 hpass
    | error e =>
        rw [ofArgs_error hall]
        refine iff_of_false nofun ?_
        rintro ⟨hknown, hplain, -⟩
        exact hpass ⟨hknown, by rw [hplain, List.length_singleton]⟩

/-- What is wrong with the argument behind passable ones. -/
theorem add_behind_eq_error (h : Passable args) :
    (Options.behind ⟨none, false, terminal⟩ args).add argument = .error error ↔
      (IsUnknown argument ∧ error = .unknownOption argument) ∨
        (isOption argument = false ∧ (plain args).length = 1 ∧
          error = .unexpectedArgument argument) := by
  rcases classify argument with rfl | rfl | hunknown | hplain
  · simp [Options.add_tokens, not_isUnknown_tokens, isOption_tokens]
  · simp [Options.add_noColor, not_isUnknown_noColor, isOption_noColor]
  · simp [Options.add_unknown hunknown, hunknown, hunknown.1, eq_comm]
  · rw [Options.add_plain hplain, or_iff_right fun h => not_isUnknown_of_plain hplain h.1,
      and_iff_right hplain]
    match hfiles : plain args, h.2 with
    | [], _ => simp [Options.behind, Options.inputs, hfiles]
    | [file], _ => simp [Options.behind, Options.inputs, hfiles, eq_comm]

theorem addAll_initial_eq_error :
    Options.addAll ⟨none, false, terminal⟩ args = .error error ↔
      error.Blames args ∧ error ≠ .noInput := by
  rw [Options.addAll_eq_error]
  constructor
  · rintro ⟨before, argument, after, middle, rfl, hbefore, hadd⟩
    obtain ⟨hpass, rfl⟩ := addAll_initial.1 hbefore
    rcases (add_behind_eq_error hpass).1 hadd with ⟨hunknown, rfl⟩ | ⟨hplain, hone, rfl⟩
    · exact ⟨⟨before, after, rfl, hpass, hunknown⟩, nofun⟩
    · exact ⟨⟨before, after, rfl, hpass, hplain, hone⟩, nofun⟩
  · rintro ⟨hblames, hne⟩
    cases error with
    | noInput => exact absurd rfl hne
    | unknownOption option =>
        obtain ⟨before, after, rfl, hpass, hunknown⟩ := hblames
        exact ⟨before, option, after, _, rfl, addAll_initial.2 ⟨hpass, rfl⟩,
          (add_behind_eq_error hpass).2 (.inl ⟨hunknown, rfl⟩)⟩
    | unexpectedArgument argument =>
        obtain ⟨before, after, rfl, hpass, hplain, hone⟩ := hblames
        exact ⟨before, argument, after, _, rfl, addAll_initial.2 ⟨hpass, rfl⟩,
          (add_behind_eq_error hpass).2 (.inr ⟨hplain, hone, rfl⟩)⟩

/-- Arguments that are not taken are refused for one reason. -/
theorem ofArgs_eq_error :
    Options.ofArgs terminal args = .error error ↔ error.Blames args := by
  cases hall : Options.addAll ⟨none, false, terminal⟩ args with
  | ok result =>
      have hpass := (addAll_initial.1 hall).1
      cases error with
      | noInput =>
          rw [ofArgs_passable hpass, UsageError.Blames, and_iff_right hpass.1]
          cases plain args <;> simp
      | unknownOption | unexpectedArgument =>
          -- the arguments would have been refused on the way
          refine iff_of_false ?_ fun hblames => ?_
          · rw [ofArgs_passable hpass]
            cases plain args <;> simp
          · rw [addAll_initial_eq_error.2 ⟨hblames, nofun⟩] at hall
            cases hall
  | error e =>
      rw [ofArgs_error hall, Except.error.injEq]
      constructor
      · rintro rfl
        exact (addAll_initial_eq_error.1 hall).1
      · intro hblames
        by_cases hinput : error = .noInput
        · subst hinput
          have hpass : Passable args := ⟨hblames.1, by rw [hblames.2]; decide⟩
          rw [addAll_initial.2 ⟨hpass, rfl⟩] at hall
          cases hall
        · rw [addAll_initial_eq_error.2 ⟨hblames, hinput⟩] at hall
          exact (Except.error.inj hall).symm

end

/-! ## Writing on the way -/

section

variable {color : Bool}

/-- A diagnostic as a line of the error stream. -/
def line (color : Bool) (d : Diagnostic) : String :=
  (if color then d.renderColored else d.render) ++ "\n"

theorem foldl_emit (ds : List Diagnostic) (text : String) :
    ds.foldl (Collector.writing color).emit text = text ++ String.join (ds.map (line color)) := by
  induction ds generalizing text with
  | nil => simp
  | cons d ds ih =>
      rw [List.foldl_cons, ih, List.map_cons, String.join_cons, ← String.append_assoc, line,
        ← String.append_assoc]
      rfl

/-- Diagnostics are written one to a line. -/
theorem lines_eq (ds : List Diagnostic) : lines color ds = String.join (ds.map (line color)) := by
  rw [lines, Collector.sink_reportAll, foldl_emit]
  exact String.empty_append

/-- A run on the text of the file `input` that holds one collector throughout, whose sink is the
error stream. -/
def streamOn (input source : String) (options : Options) : Outcome :=
  let c : Collector String :=
    { Collector.writing options.color with sink := s!"Analyzing {input}...\n" }
  let (tokens, c₁) := lexInto .start source.toList c
  let c₂ := { c₁ with sink := c₁.sink ++ s!"Scanned {tokens.length} tokens\n" }
  let stream := TokenStream.ofTokens tokens
  let program := Stmts.ofList (Cursor.reading stream.body).items.tree
  let course : (Check.inScope (program.check .global)).Course := .inScope (program.course .global)
  let c₃ := (course.reportInto stream.stop.location .empty c₂).collector
  { code := if c₃.count = 0 then 0 else 1
    output := if options.dumpsTokens then tokenTable tokens else ""
    errors := c₃.sink ++ s!"Analysis complete. Total errors: {c₃.count}\n" }

/-- Scanning with a collector yields the tokens of a source text, and has reported what is wrong
with its pieces. -/
theorem lexInto_tokenize {σ : Type} (source : String) (c : Collector σ) :
    lexInto .start source.toList c =
      ((tokenize source).tokens, c.reportAll (tokenize source).diagnostics) :=
  lexInto_eq .start source.toList c

/-- Checking with a collector has reported what an analysis of the tokens finds. -/
theorem collector_reportInto {σ : Type} (stream : TokenStream) (c : Collector σ) :
    let program := Stmts.ofList (Cursor.reading stream.body).items.tree
    let course : (Check.inScope (program.check .global)).Course :=
      .inScope (program.course .global)
    (course.reportInto stream.stop.location .empty c).collector =
      c.reportAll stream.analyze.diagnostics := by
  intro program course
  rw [Check.Course.reportInto_eq, Check.reported, Collector.noteAll_eq]
  rfl

/-- Writing on the way comes to the same as putting the lines together at the end. -/
theorem streamOn_eq (input source : String) (options : Options) :
    streamOn input source options = runOn input source options := by
  have hnone : (Collector.writing options.color).records = [] := rfl
  rw [streamOn, lexInto_tokenize, runOn]
  simp only [collector_reportInto, Collector.count, Collector.records_reportAll,
    Collector.sink_reportAll, Collector.emit_reportAll, foldl_emit, lines_eq, hnone,
    List.nil_append, List.length_append, String.append_assoc]

end

/-! ## The records of an analysis -/

/-- The lexical records are what the scanner reports. -/
theorem filter_lexical (source : String) :
    (analyze source).filter (·.severity = .lexical) = (tokenize source).diagnostics := by
  obtain ⟨hlexical, hothers⟩ := severity_analyze source
  rw [analyze, List.filter_append, List.filter_eq_self.2, List.filter_eq_nil_iff.2,
    List.append_nil]
  · exact fun d hd => by simpa using hothers d hd
  · exact fun d hd => by simpa using hlexical d hd

/-- The other records are what is found in the tokens. -/
theorem filter_others (source : String) :
    (analyze source).filter (·.severity ≠ .lexical) =
      (TokenStream.ofTokens (tokenize source).tokens).analyze.diagnostics := by
  obtain ⟨hlexical, hothers⟩ := severity_analyze source
  rw [analyze, List.filter_append, List.filter_eq_nil_iff.2, List.filter_eq_self.2,
    List.nil_append]
  · exact fun d hd => by simpa using hothers d hd
  · exact fun d hd => by simpa using hlexical d hd

/-- A column of a table: the text, and behind it as many blanks as the column is wider. -/
def IsColumn (width : Nat) (text column : String) : Prop :=
  ∃ blanks, column.toList = text.toList ++ List.replicate blanks ' ' ∧
    column.length = max width text.length

/-- A row of the table: the place of a token, the name of its kind and its lexeme. -/
def IsRow (token : Token) (row : String) : Prop :=
  ∃ position kind,
    IsColumn 10 s!"{token.location.line}:{token.location.column}" position ∧
      IsColumn 16 token.kind.name kind ∧
      row = position ++ " " ++ kind ++ " " ++ token.lexeme ++ "\n"

theorem toList_padded (width : Nat) (text : String) :
    (padded width text).toList = text.toList ++ List.replicate (width - text.length) ' ' := by
  unfold padded String.pushn
  induction width - text.length with
  | zero => simp [Nat.repeat]
  | succ n ih => simp [Nat.repeat, ih, List.replicate_succ', ← List.append_assoc]

theorem isColumn_padded (width : Nat) (text : String) :
    IsColumn width text (padded width text) := by
  refine ⟨width - text.length, toList_padded width text, ?_⟩
  rw [← String.length_toList, toList_padded, List.length_append, List.length_replicate,
    String.length_toList]
  omega

/-- What a run tells of the analysis of a text. -/
structure Tells (outcome : Outcome) (input source : String) (options : Options) : Prop where
  /-- The lexical records stand in front of the number of tokens, the others behind it, and the
  number of records at the end. -/
  errors : outcome.errors =
    s!"Analyzing {input}...\n" ++
      String.join (((analyze source).filter (·.severity = .lexical)).map (line options.color)) ++
      s!"Scanned {(tokenize source).tokens.length} tokens\n" ++
      String.join (((analyze source).filter (·.severity ≠ .lexical)).map (line options.color)) ++
      s!"Analysis complete. Total errors: {(analyze source).length}\n"
  /-- A run fails on a text with records. -/
  code : outcome.code = if (analyze source).length = 0 then 0 else 1
  /-- The table of tokens is asked for. -/
  quiet : options.dumpsTokens = false → outcome.output = ""
  /-- The table has a head and a row for every token, in order, the mark at the end included. -/
  table : options.dumpsTokens = true → ∃ tokens place rows,
    (tokenize source).tokens = tokens ++ [.endOfFile place] ∧
      List.Forall₂ IsRow (tokenize source).tokens rows ∧
      outcome.output = "POSITION   KIND             LEXEME\n" ++ String.join rows

theorem head_eq :
    tokenRow "POSITION" "KIND" "LEXEME" = "POSITION   KIND             LEXEME\n" := by
  decide +kernel

/-- The rows that a run writes. -/
theorem forall₂_isRow (tokens : List Token) :
    List.Forall₂ IsRow tokens (tokens.map fun t =>
      tokenRow s!"{t.location.line}:{t.location.column}" t.kind.name t.lexeme) := by
  induction tokens with
  | nil => exact .nil
  | cons token tokens ih =>
      refine .cons ⟨_, _, isColumn_padded _ _, isColumn_padded _ _, ?_⟩ ih
      rfl

theorem tells_runOn (input source : String) (options : Options) :
    Tells (runOn input source options) input source options := by
  constructor
  case errors =>
    rw [filter_lexical, filter_others, ← lines_eq, ← lines_eq, analyze, List.length_append]
    rfl
  case code =>
    rw [analyze, List.length_append]
    rfl
  case quiet =>
    intro hquiet
    rw [runOn, hquiet]
    rfl
  case table =>
    intro htable
    refine ⟨_, _, _, rfl, forall₂_isRow _, ?_⟩
    rw [runOn, htable, ← head_eq, ← String.join_cons]
    rfl

/-! ## Runs -/

section

variable {program : String} {terminal : Bool} {reach : String → Reached}
  {args args' : List String} {input source : String} {bytes : ByteArray} {error : UsageError}

/-- The outcome of a run with bad arguments. -/
def badUsage (program : String) (error : UsageError) : Outcome :=
  ⟨2, "", s!"Error: {error.message}\n\n" ++ usage program⟩

/-- The outcome of a run on a file that is not there. -/
def missingFile (input : String) : Outcome := ⟨2, "", s!"Error: File '{input}' not found\n"⟩

theorem run_blames (h : error.Blames args) :
    run program terminal reach args = badUsage program error := by
  rw [run, ofArgs_eq_error.2 h]
  rfl

theorem run_missing (hknown : ∀ argument ∈ args, ¬IsUnknown argument)
    (hplain : plain args = [input]) (hfile : reach input = .nothing) :
    run program terminal reach args = missingFile input := by
  rw [run, ofArgs_eq_ok.2 ⟨hknown, hplain, rfl⟩]
  simp only [hfile]
  rfl

theorem run_source (hknown : ∀ argument ∈ args, ¬IsUnknown argument)
    (hplain : plain args = [input]) (hfile : reach input = .file bytes)
    (htext : String.fromUTF8? bytes = some source) :
    run program terminal reach args = runOn input source (asked terminal args input) := by
  rw [run, ofArgs_eq_ok.2 ⟨hknown, hplain, rfl⟩]
  simp only [hfile, htext]

theorem run_unreadable {osError : OsError} (hknown : ∀ argument ∈ args, ¬IsUnknown argument)
    (hplain : plain args = [input]) (hfile : reach input = .unreadable osError) :
    run program terminal reach args = unreadable osError.describe := by
  rw [run, ofArgs_eq_ok.2 ⟨hknown, hplain, rfl⟩]
  simp only [hfile]

theorem run_notText (hknown : ∀ argument ∈ args, ¬IsUnknown argument)
    (hplain : plain args = [input]) (hfile : reach input = .file bytes)
    (htext : String.fromUTF8? bytes = none) :
    run program terminal reach args = unreadable notText := by
  rw [run, ofArgs_eq_ok.2 ⟨hknown, hplain, rfl⟩]
  simp only [hfile, htext]

/-- What is there is never refused. -/
theorem code_ne_two (hknown : ∀ argument ∈ args, ¬IsUnknown argument)
    (hplain : plain args = [input]) (hthere : reach input ≠ .nothing) :
    (run program terminal reach args).code ≠ 2 := by
  cases hfile : reach input with
  | nothing => exact absurd hfile hthere
  | unreadable osError =>
      rw [run_unreadable hknown hplain hfile]
      show 1 ≠ 2
      decide
  | file bytes =>
      cases htext : String.fromUTF8? bytes with
      | some source =>
          rw [run_source hknown hplain hfile htext, (tells_runOn ..).code]
          split <;> decide
      | none =>
          rw [run_notText hknown hplain hfile htext]
          show 1 ≠ 2
          decide

/-- The arguments are refused for some reason, or name one file and no unknown option. -/
theorem blamed_or_taken (args : List String) :
    (∃ error : UsageError, error.Blames args) ∨
      (∀ argument ∈ args, ¬IsUnknown argument) ∧ ∃ input, plain args = [input] := by
  cases hargs : Options.ofArgs false args with
  | error error => exact .inl ⟨error, ofArgs_eq_error.1 hargs⟩
  | ok taken =>
      obtain ⟨hknown, hplain, -⟩ := ofArgs_eq_ok.1 hargs
      exact .inr ⟨hknown, _, hplain⟩

/-- Why arguments may be blamed. -/
theorem reason_of_blames (h : error.Blames args) :
    (∃ argument ∈ args, IsUnknown argument) ∨ (plain args).length ≠ 1 := by
  cases error with
  | noInput => exact .inr (by rw [h.2]; decide)
  | unknownOption option =>
      obtain ⟨before, after, rfl, -, hunknown⟩ := h
      exact .inl ⟨option, List.mem_append_right _ List.mem_cons_self, hunknown⟩
  | unexpectedArgument argument =>
      obtain ⟨before, after, rfl, -, hargument, hone⟩ := h
      have hsplit : plain (before ++ argument :: after) =
          plain before ++ plain (argument :: after) := List.filter_append _ _
      rw [hsplit, plain_cons_plain hargument, List.length_append, List.length_cons]
      exact .inr (by omega)

/-- Options in other places are known just as well. -/
theorem known_of_reordered
    (hoptions : ∀ option, isOption option = true → (option ∈ args' ↔ option ∈ args))
    (hknown : ∀ argument ∈ args, ¬IsUnknown argument) :
    ∀ argument ∈ args', ¬IsUnknown argument := by
  intro argument hargument hunknown
  exact hknown argument ((hoptions argument hunknown.1).1 hargument) hunknown

theorem asked_of_reordered
    (hoptions : ∀ option, isOption option = true → (option ∈ args' ↔ option ∈ args)) :
    asked terminal args' input = asked terminal args input := by
  simp only [asked, hoptions _ isOption_tokens, hoptions _ isOption_noColor]

end

/-- A run refuses its arguments, or it tells what the analysis of the file finds. -/
structure AgreesWithAnalysis (program : String) (terminal : Bool)
    (reach : String → Reached) (args : List String) : Prop where
  /-- The exit code is 2 for an option that the program does not have, for a number of files that
  is not one, and if there is nothing of the name. -/
  refused : (run program terminal reach args).code = 2 ↔
    (∃ argument ∈ args, ['-', '-'] <+: argument.toList ∧ argument ≠ "--tokens" ∧
        argument ≠ "--no-color") ∨
      (plain args).length ≠ 1 ∨ ∃ input, plain args = [input] ∧ reach input = .nothing
  /-- Nothing is written to the output stream then, and one of two messages to the error stream. -/
  unread : (run program terminal reach args).code = 2 →
    (∃ error : UsageError, error.Blames args ∧
        run program terminal reach args = badUsage program error) ∨
      ∃ input, plain args = [input] ∧ run program terminal reach args = missingFile input
  /-- The exit code is 1 if there is something of the name that cannot be read, or not as text, and
  all that is written is why. -/
  unreadable : ∀ input, (∀ argument ∈ args, ¬IsUnknown argument) → plain args = [input] →
    (∀ osError, reach input = .unreadable osError →
      run program terminal reach args =
        ⟨1, "", s!"Error: {osError.describe}\n"⟩) ∧
      ∀ bytes, reach input = .file bytes → String.fromUTF8? bytes = none →
        run program terminal reach args = ⟨1, "", "Error: Error \x7b kind: InvalidData, " ++
          "message: \"stream did not contain valid UTF-8\" \x7d\n"⟩
  /-- Otherwise the lines of the analysis are written, each where its problem is met. -/
  analysed : ∀ input bytes source, (∀ argument ∈ args, ¬IsUnknown argument) →
    plain args = [input] → reach input = .file bytes → String.fromUTF8? bytes = some source →
      run program terminal reach args = streamOn input source (asked terminal args input) ∧
        Tells (run program terminal reach args) input source (asked terminal args input)
  /-- The places of the options among the arguments, and how often they stand there, make no
  difference but for the argument that is blamed. -/
  reordered : ∀ args', plain args' = plain args →
    (∀ option, isOption option = true → (option ∈ args' ↔ option ∈ args)) →
      run program terminal reach args' = run program terminal reach args ∨
        ∃ error error' : UsageError, run program terminal reach args = badUsage program error ∧
          run program terminal reach args' = badUsage program error'

/-- **A run refuses its arguments or tells the analysis.**  It exits with 2 before it reads
anything just if an option is unknown, or the arguments do not name one file, or there is no such
file.  Behind that it writes the lexical records between two lines of its own, then the others, and
their number at the end, and exits with 1 if there are any.  The options may stand anywhere among
the arguments, and more than once. -/
theorem run_agrees (program : String) (terminal : Bool) (reach : String → Reached)
    (args : List String) : AgreesWithAnalysis program terminal reach args := by
  constructor
  case refused =>
    simp only [← isOption_iff]
    rcases blamed_or_taken args with ⟨error, hblames⟩ | ⟨hknown, input, hplain⟩
    · rw [run_blames hblames]
      refine iff_of_true rfl ?_
      rcases reason_of_blames hblames with hunknown | hcount
      · exact .inl hunknown
      · exact .inr (.inl hcount)
    · rw [or_iff_right fun ⟨argument, hargument, hunknown⟩ => hknown argument hargument hunknown,
        or_iff_right (by simp [hplain])]
      -- the arguments are taken, so it is the file alone that may not be there
      by_cases hfile : reach input = .nothing
      · rw [run_missing hknown hplain hfile]
        exact iff_of_true rfl ⟨input, hplain, hfile⟩
      · refine iff_of_false (code_ne_two hknown hplain hfile) ?_
        rintro ⟨other, hother, hnothing⟩
        obtain rfl := List.singleton_inj.1 (hplain.symm.trans hother)
        exact hfile hnothing
  case unread =>
    intro hcode
    rcases blamed_or_taken args with ⟨error, hblames⟩ | ⟨hknown, input, hplain⟩
    · exact .inl ⟨error, hblames, run_blames hblames⟩
    · by_cases hfile : reach input = .nothing
      · exact .inr ⟨input, hplain, run_missing hknown hplain hfile⟩
      · exact absurd hcode (code_ne_two hknown hplain hfile)
  case unreadable =>
    intro input hknown hplain
    refine ⟨fun osError hfile => run_unreadable hknown hplain hfile, fun bytes hfile htext => ?_⟩
    rw [run_notText hknown hplain hfile htext]
    rfl
  case analysed =>
    intro input bytes source hknown hplain hfile htext
    rw [run_source hknown hplain hfile htext, streamOn_eq]
    exact ⟨rfl, tells_runOn ..⟩
  case reordered =>
    intro args' hplain hoptions
    rcases blamed_or_taken args with ⟨error, hblames⟩ | ⟨hknown, input, hinput⟩
    · rcases blamed_or_taken args' with ⟨error', hblames'⟩ | ⟨hknown', input, hinput⟩
      · exact .inr ⟨error, error', run_blames hblames, run_blames hblames'⟩
      · -- what speaks against the one list speaks against the other
        have hknown := known_of_reordered (fun option h => (hoptions option h).symm) hknown'
        rcases reason_of_blames hblames with ⟨argument, hargument, hunknown⟩ | hcount
        · exact absurd hunknown (hknown argument hargument)
        · exact absurd (by rw [← hplain, hinput]; rfl) hcount
    -- the same file and the same options are read off both lists
    · left
      have hknown' := known_of_reordered hoptions hknown
      have hargs : Options.ofArgs terminal args = .ok (input, asked terminal args input) :=
        ofArgs_eq_ok.2 ⟨hknown, hinput, rfl⟩
      have hargs' : Options.ofArgs terminal args' = .ok (input, asked terminal args input) :=
        ofArgs_eq_ok.2 ⟨hknown', hplain.trans hinput, (asked_of_reordered hoptions).symm⟩
      rw [run, run, hargs, hargs']

end MiniC.CommandLine
