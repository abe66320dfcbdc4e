import MiniC.Proofs.Editing.Checking
import MiniC.Proofs.Editing.Programs
import MiniC.Proofs.Syntactic

/-!
# `MiniC.Proofs.Editing.Analyses` — a text and an edition of it are analysed

The tokens of an edition that an analysis gets to see are the edited ones.  They are read as the
same tree, and the trees are checked with the same findings; only an issue at the end of the
input looks at a token that is in no tree, the last one.

## Contents
- `Analysis.Agrees`: what analyses have in common that differ in names and places only.
- `Edition.body_map`, `Edition.stop_map`: the tokens of an edition that are read.
- `Edition.symbols`, `Edition.diagnostics_map`, `Edition.agrees`: **the analysis of an edition**.
-/

namespace MiniC

/-- Two analyses read and declare as much, and find as many faults, of the same severities. -/
structure Analysis.Agrees (a a' : Analysis) : Prop where
  position : a'.position = a.position
  depth : a'.symbols.depth = a.symbols.depth
  severities : a'.diagnostics.map (·.severity) = a.diagnostics.map (·.severity)
  /-- A collector has as many records behind the one as behind the other. -/
  count : ∀ {σ : Type} (collector : Collector σ),
    (collector.reportAll a'.diagnostics).count = (collector.reportAll a.diagnostics).count

theorem count_reportAll {σ : Type} (collector : Collector σ) (ds : List Diagnostic) :
    (collector.reportAll ds).count = collector.count + ds.length := by
  rw [Collector.count, Collector.count, collector.records_reportAll, List.length_append]

namespace Edition

variable (E : Edition)

/-- The analysis of the text that has an edition. -/
def original : Analysis := (TokenStream.ofTokens E.text).analyze

/-- The tokens of an edition. -/
def tokens : List Token := E.text.map E.token

/-- The analysis of an edition. -/
def edited : Analysis := (TokenStream.ofTokens E.tokens).analyze

/-! ## What is read -/

theorem body_map :
    (TokenStream.ofTokens E.tokens).body = (TokenStream.ofTokens E.text).body.map E.token :=
  List.takeWhile_map

/-- The end of an edition is where the end of the text is moved to. -/
theorem stop_map (h : E.text ≠ []) :
    (TokenStream.ofTokens E.tokens).stop.location =
      E.place (TokenStream.ofTokens E.text).stop.location := by
  have hmark : E.tokens.find? Token.isEof = (E.text.find? Token.isEof).map E.token :=
    List.find?_map
  show ((E.tokens.find? Token.isEof).getD (.endOfFile _)).location =
    E.place ((E.text.find? Token.isEof).getD (.endOfFile _)).location
  rw [hmark]
  cases E.text.find? Token.isEof with
  | some t => rfl
  -- without a mark of its own, the end is where the last token is
  | none =>
      rw [tokens, List.getLast?_map, List.getLast?_eq_some_getLast h]
      rfl

/-! ## What is found -/

/-- A program and its edition are checked with the same findings, and leave symbols with the
same declarations. -/
theorem checked :
    E.original.symbols.Edited E E.edited.symbols ∧
      (TokenStream.ofTokens E.tokens).issues =
        (TokenStream.ofTokens E.text).issues.map E.issue := by
  have hbody : (Cursor.reading (TokenStream.ofTokens E.text).body).Edited E
      (Cursor.reading (TokenStream.ofTokens E.tokens).body) := by
    rw [body_map]
    exact .reading (List.takeWhile_subset _)
  have hempty : Symbols.empty.Edited E .empty := ⟨.nil, .nil, .nil⟩
  have hprogram := (Stmts.Edited.ofList (edited_items hbody).tree).check .global
  obtain ⟨hsymbols, hfound⟩ := hprogram.inScope _ _ hempty
  exact ⟨hsymbols, hfound.issues⟩

theorem issue_diagnostic (issue : Issue) (stop : Location) :
    ((E.issue issue).diagnostic (E.place stop)).severity = (issue.diagnostic stop).severity ∧
      ((E.issue issue).diagnostic (E.place stop)).location =
        E.place (issue.diagnostic stop).location := by
  cases issue with
  | missing hole =>
      obtain ⟨wanted, ahead⟩ := hole
      cases ahead <;> exact ⟨rfl, rfl⟩
  | fault cause site => cases site <;> exact ⟨rfl, rfl⟩

theorem issues_nil : (TokenStream.ofTokens []).issues = [] := by
  unfold TokenStream.issues TokenStream.parts TokenStream.ofTokens TokenStream.body Cursor.items
  rw [List.takeWhile_nil, Cursor.recovering_nil]
  rfl

/-- The diagnostics of an edition are those of the edited issues. -/
theorem diagnostics_map :
    E.edited.diagnostics = (TokenStream.ofTokens E.text).issues.map fun issue =>
      (E.issue issue).diagnostic (E.place (TokenStream.ofTokens E.text).stop.location) := by
  rw [edited, TokenStream.diagnostics_analyze, E.checked.2, List.map_map]
  -- Without tokens the end is at a place of its own, which is not moved; but then no issue is
  -- located there.
  by_cases h : E.text = []
  · rw [h, issues_nil]
    rfl
  · rw [E.stop_map h]
    rfl

/-- **The analysis of an edition** has a counterpart for each diagnostic, of the same severity and
at the same token. -/
theorem diagnostics_agree :
    E.edited.diagnostics.map (fun d => (d.severity, d.location)) =
      E.original.diagnostics.map fun d => (d.severity, E.place d.location) := by
  rw [diagnostics_map, original, TokenStream.diagnostics_analyze, List.map_map, List.map_map]
  refine List.map_congr_left fun issue _ => ?_
  obtain ⟨hseverity, hlocation⟩ :=
    E.issue_diagnostic issue (TokenStream.ofTokens E.text).stop.location
  exact Prod.ext hseverity hlocation

/-- **The analysis of an edition agrees** with that of the text. -/
theorem agrees : E.original.Agrees E.edited where
  position := by
    rw [original, edited, position_eq_length, position_eq_length, body_map, List.length_map]
  depth := E.checked.1.depth
  severities := by
    have h := congrArg (List.map Prod.fst) E.diagnostics_agree
    rwa [List.map_map, List.map_map] at h
  count collector := by
    have h := congrArg List.length E.diagnostics_agree
    rw [List.length_map, List.length_map] at h
    rw [count_reportAll, count_reportAll, h]

end Edition

end MiniC
