import MiniC.Proofs.Editing.Analyses

/-!
# `MiniC.Proofs.Editing.Layout` — an analysis only copies places

A text whose tokens are moved is an edition of it in which every name is kept.  So the analysis of
the moved tokens has the same messages, each at the place that its own was moved to.

Which token a declaration got its line from is told by numbering the tokens: every text is an
edition of the one whose tokens stand on lines of their own, numbered from 0, and in the analysis
of that text the line of a declaration is the number of its name.

## Contents
- `Token.moved`, `Diagnostic.moved`: what is moved.
- `Edition.moving`: moved tokens as an edition, with `moving_diagnostics`.
- `numbered`, `numbering`: texts as editions of the numbered one, with `numbering_functions`,
  `numbering_structs`.
- `Analysis.Declares`, `Analysis.Moved`, `analysis_moved`: **layout never changes the verdict**.
-/

namespace MiniC

/-- A token moved to another place. -/
def Token.moved (f : Location → Location) (t : Token) : Token :=
  { t with location := f t.location }

/-- A diagnostic moved to another place. -/
def Diagnostic.moved (f : Location → Location) (d : Diagnostic) : Diagnostic :=
  { d with location := f d.location }

theorem CType.renamed_id (t : CType) : t.renamed id = t := by
  obtain ⟨base, _, _⟩ := t
  cases base <;> rfl

theorem Function.renamed_id (f : Function) : f.renamed id = f := by
  have hparameters : f.parameters.map (Parameter.renamed id) = f.parameters := by
    refine (List.map_congr_left fun p _ => ?_).trans (List.map_id _)
    rw [Parameter.renamed, CType.renamed_id]
    rfl
  rw [Function.renamed, CType.renamed_id, hparameters]
  rfl

theorem StructDef.renamed_id (s : StructDef) : s.renamed id = s := by
  have hfields : s.fields.map (Prod.map id (CType.renamed id)) = s.fields := by
    refine (List.map_congr_left fun field _ => ?_).trans (List.map_id _)
    exact Prod.ext rfl (CType.renamed_id field.2)
  rw [StructDef.renamed, hfields]
  rfl

namespace Edition

/-! ## Editions that keep every name -/

/-- The edition of a text whose tokens are moved. -/
def moving (tokens : List Token) (f : Location → Location) : Edition where
  text := tokens
  name := id
  place := f
  injective := Function.injective_id
  printf := rfl
  scanf := rfl
  main _ _ _ := rfl

variable (tokens : List Token) (f : Location → Location)

theorem moving_token (t : Token) : (moving tokens f).token t = t.moved f := by
  unfold token Token.moved
  congr
  exact ite_self _

theorem moving_tokens : (moving tokens f).tokens = tokens.map (Token.moved f) :=
  List.map_congr_left fun t _ => moving_token tokens f t

theorem moving_type (t : CType) : (moving tokens f).type t = t := CType.renamed_id t

theorem moving_wanted (wanted : Wanted) : (moving tokens f).wanted wanted = wanted := by
  cases wanted <;> rfl

theorem moving_fault (fault : Fault) : (moving tokens f).fault fault = fault := by
  have hrefusal (refusal : Refusal) : (moving tokens f).refusal refusal = refusal := by
    cases refusal <;> rfl
  cases fault <;> simp only [Edition.fault, moving_type, hrefusal] <;> rfl

theorem moving_hole_message (hole : Hole) :
    ((moving tokens f).hole hole).message = hole.message := by
  obtain ⟨wanted, ahead⟩ := hole
  rw [Edition.hole, moving_wanted]
  cases ahead with
  | nil => rfl
  | cons t ts =>
      rw [List.map_cons, moving_token]
      rfl

theorem moving_issue_diagnostic (issue : Issue) (stop : Location) :
    ((moving tokens f).issue issue).diagnostic (f stop) = (issue.diagnostic stop).moved f := by
  obtain ⟨hseverity, hlocation⟩ := (moving tokens f).issue_diagnostic issue stop
  change _ = f (issue.diagnostic stop).location at hlocation
  change ((moving tokens f).issue issue).diagnostic (f stop) = ⟨_, _, f _⟩
  have hmessage : (((moving tokens f).issue issue).diagnostic (f stop)).message =
      (issue.diagnostic stop).message := by
    cases issue with
    | missing hole => exact moving_hole_message tokens f hole
    | fault cause site => exact congrArg Fault.message (moving_fault tokens f cause)
  rw [← hseverity, ← hmessage, ← hlocation]
  rfl

/-- Moving the tokens moves the diagnostics. -/
theorem moving_diagnostics :
    (moving tokens f).edited.diagnostics =
      (moving tokens f).original.diagnostics.map (Diagnostic.moved f) := by
  rw [diagnostics_map, original, TokenStream.diagnostics_analyze, List.map_map]
  exact List.map_congr_left fun issue _ => moving_issue_diagnostic tokens f issue _

end Edition

/-! ## Numbered tokens -/

/-- The tokens, each moved to a line of its own. -/
def numbered (tokens : List Token) : List Token :=
  tokens.mapIdx fun i t => t.moved fun _ => ⟨i, 0⟩

/-- The token of a number. -/
def tokenOf (tokens : List Token) (number : Nat) : Token := (tokens[number]?).getD default

theorem tokenOf_eq {tokens : List Token} {number : Nat} {t : Token}
    (h : tokens[number]? = some t) : tokenOf tokens number = t := by
  rw [tokenOf, h]
  rfl

/-- A text as an edition of the numbered one. -/
def numbering (tokens : List Token) : Edition :=
  .moving (numbered tokens) fun number => (tokenOf tokens number.line).location

/-- The analysis of the numbered tokens. -/
def numberedAnalysis (tokens : List Token) : Analysis :=
  (TokenStream.ofTokens (numbered tokens)).analyze

variable (tokens : List Token) (f : Location → Location)

theorem numbering_tokens : (numbering tokens).tokens = tokens := by
  rw [numbering, Edition.moving_tokens]
  refine List.ext_getElem? fun i => ?_
  rw [List.getElem?_map, numbered, List.getElem?_mapIdx]
  cases h : tokens[i]? with
  | none => rfl
  | some t =>
      show some (Token.mk t.kind t.lexeme (tokenOf tokens i).location) = some t
      rw [tokenOf_eq h]

theorem numbering_edited : (numbering tokens).edited = (TokenStream.ofTokens tokens).analyze := by
  rw [Edition.edited, numbering_tokens]

/-- Moved tokens have the same numbers. -/
theorem numbered_moved : numbered (tokens.map (Token.moved f)) = numbered tokens := by
  refine List.ext_getElem? fun i => ?_
  rw [numbered, numbered, List.getElem?_mapIdx, List.getElem?_mapIdx, List.getElem?_map]
  cases tokens[i]? <;> rfl

/-- Tokens of the same kinds and lexemes have the same numbers. -/
theorem numbered_congr {tokens tokens' : List Token}
    (h : tokens'.map (fun t => (t.kind, t.lexeme)) = tokens.map fun t => (t.kind, t.lexeme)) :
    numbered tokens' = numbered tokens := by
  refine List.ext_getElem? fun i => ?_
  have hat := congrArg (·[i]?) h
  simp only [List.getElem?_map] at hat
  rw [numbered, numbered, List.getElem?_mapIdx, List.getElem?_mapIdx]
  cases ht : tokens[i]? <;> cases ht' : tokens'[i]? <;> simp_all [Token.moved]

/-! ## Declarations -/

/-- Whether a token is the name of something declared on its line. -/
def Token.DeclaresAt (t : Token) (tokens : List Token) (name : String) (line : Nat) : Prop :=
  t ∈ tokens ∧ t.kind.namesFunction = true ∧ t.lexeme = name ∧ t.location.line = line

section Declarations

variable {tokens f} {α : Type} {name : α → String} {line : α → Nat} {atLine : Nat → α → α}
  {R : α → α → Prop} {l₀ l : List α}

/-- A declaration in the numbered text is on the line of the number of its name. -/
theorem declared_numbers (hR : ∀ a a', R a a' →
      (numbering tokens).Declared (name a) (line a) (line a') ∧ a' = atLine (line a') a)
    (h : List.Forall₂ R l₀ l) :
    (∀ a ∈ l₀, ∃ t, tokens[line a]? = some t ∧ t.kind.namesFunction = true ∧
      t.lexeme = name a) ∧
    l = l₀.map fun a => atLine (tokenOf tokens (line a)).location.line a := by
  induction h with
  | nil => exact ⟨fun _ ha => (List.not_mem_nil ha).elim, rfl⟩
  | @cons a a' _ _ ha _ ih =>
      obtain ⟨⟨t, ⟨htext, hkind⟩, hname, hline, hline'⟩, hat⟩ := hR a a' ha
      -- the line of the name in the numbered text is its number
      obtain ⟨i, hi, rfl⟩ := List.mem_mapIdx.1 htext
      have hnumber : tokens[line a]? = some tokens[i] :=
        hline ▸ List.getElem?_eq_getElem hi
      refine ⟨List.forall_mem_cons.2 ⟨⟨tokens[i], hnumber, hkind, hname⟩, ih.1⟩, ?_⟩
      rw [List.map_cons, ← ih.2, hat, hline', hline]
      rfl

variable (name line atLine)

/-- The names of declarations stand on the lines of the declarations. -/
theorem declared_at (hname : ∀ n a, name (atLine n a) = name a)
    (hline : ∀ n a, line (atLine n a) = n)
    (hnames : ∀ a ∈ l₀, ∃ t, tokens[line a]? = some t ∧ t.kind.namesFunction = true ∧
      t.lexeme = name a)
    (hl : l = l₀.map fun a => atLine (tokenOf tokens (line a)).location.line a) :
    List.Forall₂ (fun t a => Token.DeclaresAt t tokens (name a) (line a))
      (l₀.map fun a => tokenOf tokens (line a)) l := by
  rw [hl, List.forall₂_map_left_iff, List.forall₂_map_right_iff, List.forall₂_same]
  intro a ha
  obtain ⟨t, hnumber, hkind, hlexeme⟩ := hnames a ha
  rw [tokenOf_eq hnumber, hname, hline]
  exact ⟨List.mem_of_getElem? hnumber, hkind, hlexeme, rfl⟩

/-- The lines of declarations are those of their names, wherever the names are moved to. -/
theorem declared_moved (hagain : ∀ m n a, atLine m (atLine n a) = atLine m a) {l' : List α}
    (hnames : ∀ a ∈ l₀, ∃ t, tokens[line a]? = some t ∧ t.kind.namesFunction = true ∧
      t.lexeme = name a)
    (hl : l = l₀.map fun a => atLine (tokenOf tokens (line a)).location.line a)
    (hl' : l' = l₀.map fun a =>
      atLine (tokenOf (tokens.map (Token.moved f)) (line a)).location.line a) :
    l' = List.zipWith (fun t a => atLine (f t.location).line a)
      (l₀.map fun a => tokenOf tokens (line a)) l := by
  rw [hl, hl', List.zipWith_map, List.zipWith_self]
  refine List.map_congr_left fun a ha => ?_
  obtain ⟨t, hnumber, -⟩ := hnames a ha
  have hmoved : (tokens.map (Token.moved f))[line a]? = some (t.moved f) := by
    rw [List.getElem?_map, hnumber]
    rfl
  rw [hagain, tokenOf_eq hnumber, tokenOf_eq hmoved]
  rfl

end Declarations

theorem Function.Edited.onLine {g g' : Function} (h : g.Edited (.moving tokens f) g') :
    g' = g.onLine g'.line := by
  have heq : g' = (g.renamed id).onLine g'.line := h.eq_onLine
  rwa [Function.renamed_id] at heq

theorem StructDef.Edited.onLine {s s' : StructDef} (h : s.Edited (.moving tokens f) s') :
    s' = s.onLine s'.line := by
  have heq : s' = (s.renamed id).onLine s'.line := h.eq_onLine
  rwa [StructDef.renamed_id] at heq

theorem numbering_functions :
    (∀ g ∈ (numberedAnalysis tokens).symbols.functions, ∃ t, tokens[g.line]? = some t ∧
      t.kind.namesFunction = true ∧ t.lexeme = g.name) ∧
    (TokenStream.ofTokens tokens).analyze.symbols.functions =
      (numberedAnalysis tokens).symbols.functions.map fun g =>
        g.onLine (tokenOf tokens g.line).location.line := by
  have h := (numbering tokens).checked.1.functions
  rw [numbering_edited] at h
  exact declared_numbers (fun _ _ hg => ⟨hg.declared, hg.onLine⟩) h

theorem numbering_structs :
    (∀ s ∈ (numberedAnalysis tokens).symbols.structs, ∃ t, tokens[s.line]? = some t ∧
      t.kind.namesFunction = true ∧ t.lexeme = s.name) ∧
    (TokenStream.ofTokens tokens).analyze.symbols.structs =
      (numberedAnalysis tokens).symbols.structs.map fun s =>
        s.onLine (tokenOf tokens s.line).location.line := by
  have h := (numbering tokens).checked.1.structs
  rw [numbering_edited] at h
  exact declared_numbers (fun _ _ hs => ⟨hs.declared, hs.onLine⟩) h

/-! ## The verdict -/

/-- The tokens of a text at which the functions and the structs of its analysis were declared. -/
structure Analysis.Declares (a : Analysis) (tokens functionNames structNames : List Token) :
    Prop where
  functions : List.Forall₂ (fun t g => Token.DeclaresAt t tokens g.name g.line) functionNames
    a.symbols.functions
  structs : List.Forall₂ (fun t s => Token.DeclaresAt t tokens s.name s.line) structNames
    a.symbols.structs

/-- An analysis of moved tokens: the verdict is the same, and what it copied from the tokens is
moved with them. -/
structure Analysis.Moved (a a' : Analysis) (f : Location → Location)
    (functionNames structNames : List Token) : Prop extends a.Agrees a' where
  diagnostics : a'.diagnostics = a.diagnostics.map (Diagnostic.moved f)
  functions : a'.symbols.functions =
    List.zipWith (fun t => Function.onLine (f t.location).line) functionNames a.symbols.functions
  structs : a'.symbols.structs =
    List.zipWith (fun t => StructDef.onLine (f t.location).line) structNames a.symbols.structs

theorem diagnostics_moved :
    (TokenStream.ofTokens (tokens.map (Token.moved f))).analyze.diagnostics =
      (TokenStream.ofTokens tokens).analyze.diagnostics.map (Diagnostic.moved f) := by
  have h := Edition.moving_diagnostics tokens f
  rwa [Edition.edited, Edition.moving_tokens] at h

/-- A diagnostic is located at a token: it does not stay behind if all other places are moved. -/
theorem located_at_token {d : Diagnostic}
    (hd : d ∈ (TokenStream.ofTokens tokens).analyze.diagnostics) :
    ∃ t ∈ tokens, d.location = t.location := by
  -- Every place at which no token stands is moved away.  The tokens stay where they are, and so
  -- does every diagnostic.
  let away (place : Location) : Location :=
    if place ∈ tokens.map Token.location then place else ⟨place.line + 1, place.column⟩
  have hfixed : tokens.map (Token.moved away) = tokens := by
    refine (List.map_congr_left fun t ht => ?_).trans (List.map_id _)
    have hplace : away t.location = t.location := if_pos (List.mem_map_of_mem ht)
    rw [Token.moved, hplace]
    rfl
  have hmoved := diagnostics_moved tokens away
  rw [hfixed] at hmoved
  obtain ⟨i, hi, rfl⟩ := List.getElem_of_mem hd
  have hstays := congrArg (fun ds => ds[i]?.map (·.location.line)) hmoved
  simp only [List.getElem?_map, List.getElem?_eq_getElem hi, Option.map_some, Option.some.injEq,
    Diagnostic.moved, away] at hstays
  by_cases hplace : (TokenStream.ofTokens tokens).analyze.diagnostics[i].location ∈
      tokens.map Token.location
  · obtain ⟨t, ht, heq⟩ := List.mem_map.1 hplace
    exact ⟨t, ht, heq.symm⟩
  · rw [if_neg hplace] at hstays
    exact absurd hstays (Nat.succ_ne_self _).symm

/-- The messages are those of the numbered tokens. -/
theorem messages_numbered :
    (TokenStream.ofTokens tokens).analyze.diagnostics.map (fun d => (d.severity, d.message)) =
      (numberedAnalysis tokens).diagnostics.map fun d => (d.severity, d.message) := by
  have h := Edition.moving_diagnostics (numbered tokens)
    fun number => (tokenOf tokens number.line).location
  rw [← numbering_edited, numbering, h, List.map_map]
  rfl

/-- **Layout never changes the verdict.**  Some tokens of the text are the names of what it
declares; and wherever the tokens are moved, the analysis reads, declares and reports as before,
its diagnostics are moved along, and its declarations are on the lines of those names.  So every
diagnostic is located at a token, and tokens of the same kinds and lexemes have the same
messages. -/
theorem analysis_moved :
    (∃ functionNames structNames,
      (TokenStream.ofTokens tokens).analyze.Declares tokens functionNames structNames ∧
      ∀ f : Location → Location,
        (TokenStream.ofTokens tokens).analyze.Moved
          (TokenStream.ofTokens (tokens.map (Token.moved f))).analyze f functionNames
          structNames) ∧
    (∀ d ∈ (TokenStream.ofTokens tokens).analyze.diagnostics,
      ∃ t ∈ tokens, d.location = t.location) ∧
    ∀ tokens' : List Token,
      tokens'.map (fun t => (t.kind, t.lexeme)) = tokens.map (fun t => (t.kind, t.lexeme)) →
      (TokenStream.ofTokens tokens').analyze.diagnostics.map
          (fun d => (d.severity, d.message)) =
        (TokenStream.ofTokens tokens).analyze.diagnostics.map
          fun d => (d.severity, d.message) := by
  obtain ⟨hfunctionNames, hfunctions⟩ := numbering_functions tokens
  obtain ⟨hstructNames, hstructs⟩ := numbering_structs tokens
  refine ⟨⟨(numberedAnalysis tokens).symbols.functions.map fun g => tokenOf tokens g.line,
      (numberedAnalysis tokens).symbols.structs.map fun s => tokenOf tokens s.line,
      ⟨?_, ?_⟩, fun f => ?_⟩,
    fun d hd => located_at_token tokens hd, fun tokens' hshapes => ?_⟩
  · exact declared_at Function.name Function.line Function.onLine (fun _ _ => rfl)
      (fun _ _ => rfl) hfunctionNames hfunctions
  · exact declared_at StructDef.name StructDef.line StructDef.onLine (fun _ _ => rfl)
      (fun _ _ => rfl) hstructNames hstructs
  -- the moved tokens are numbered as before, so both texts are editions of one
  · have hagrees := (Edition.moving tokens f).agrees
    rw [Edition.edited, Edition.moving_tokens] at hagrees
    have hfunctions' := (numbering_functions (tokens.map (Token.moved f))).2
    have hstructs' := (numbering_structs (tokens.map (Token.moved f))).2
    rw [numberedAnalysis, numbered_moved] at hfunctions' hstructs'
    exact ⟨hagrees, diagnostics_moved tokens f,
      declared_moved _ _ Function.onLine (fun _ _ _ => rfl) hfunctionNames hfunctions hfunctions',
      declared_moved _ _ StructDef.onLine (fun _ _ _ => rfl) hstructNames hstructs hstructs'⟩
  · rw [messages_numbered, messages_numbered, numberedAnalysis, numbered_congr hshapes]
    rfl

end MiniC
