import MiniC.Proofs.Grammar.Complete
import MiniC.Proofs.Syntactic

/-!
# `MiniC.Proofs.Acceptance` — which programs have no syntax errors

The plan of a program leaves no choice to a reader, so all its runs over the same tokens are
alike.  One of them is the run of the analysis, with the faults that it reports; and if the
grammar allows the tokens, there is a run without a fault.  So the analysis is faultless if and
only if the grammar allows the tokens.

## Contents
- `TokenStream.holes_eq_nil_iff`: an analysis meets no fault iff the grammar allows its tokens.
- `syntactic_free_iff_derives`: **the analysis accepts exactly the grammar.**
-/

namespace MiniC

open Cursor (reading)

/-- An analysis meets no fault if and only if the grammar allows its tokens. -/
theorem TokenStream.holes_eq_nil_iff (stream : TokenStream) :
    stream.holes = [] ↔ Derives (.rule .program) stream.body := by
  have hrun := follows_program stream
  constructor
  · intro hnone
    rw [hnone] at hrun
    obtain ⟨w, hw, hderives⟩ := hrun.derives
    rw [hw, List.append_nil]
    exact hderives
  · intro hderives
    have haccepts : Accepts (.rule .program) stream.body [] := accepts_of_derives hderives rfl
    unfold Accepts at haccepts
    rw [List.append_nil] at haccepts
    have halike : (reading stream.body).Alike (reading stream.body) := rfl
    have hholes := (hrun.alike haccepts halike).2
    exact List.map_eq_nil_iff.1 hholes

/-- **The analysis accepts exactly the grammar:** it reports no syntax error if and only if the
tokens up to the first end-of-file mark are a program that the grammar allows. -/
theorem syntactic_free_iff_derives (tokens : List Token) :
    (∀ d ∈ (TokenStream.ofTokens tokens).analyze.diagnostics, d.severity ≠ .syntactic) ↔
      Derives (.rule .program) (tokens.takeWhile fun t => !t.isEof) := by
  have hfilter : (∀ d ∈ (TokenStream.ofTokens tokens).analyze.diagnostics,
      d.severity ≠ .syntactic) ↔ (TokenStream.ofTokens tokens).holes = [] := by
    rw [← List.map_eq_nil_iff, ← TokenStream.syntactic_analyze, List.filter_eq_nil_iff]
    simp
  rw [hfilter]
  exact TokenStream.holes_eq_nil_iff (.ofTokens tokens)

end MiniC
