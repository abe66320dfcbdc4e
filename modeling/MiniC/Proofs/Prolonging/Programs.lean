import MiniC.Proofs.Checking.Faults
import MiniC.Proofs.Names.Resolution
import MiniC.Proofs.Prolonging.Statements

/-!
# `MiniC.Proofs.Prolonging.Programs` — later code does not change the verdict on earlier code

A program without syntax errors is read alike, whatever stands behind it, and reading goes on
behind it as if the rest stood alone.  The check of the rest begins with the symbols that the
first part leaves, while the global scope is still open.  Nothing else is handed over, and nothing
that is reported of the first part depends on where the input ends: every fault is at a token.

## Contents
- `TokenStream.resume`: the check of a program under symbols that are there already.
- `check_ofList_append`: parts of a program are checked one after the other.
- `analysis_resumes`: **the diagnostics of a program and of what stands behind it.**
-/

namespace MiniC

open Cursor (reading)

namespace TokenStream

/-- Check the program that the rest of a stream holds under symbols with an open scope: the
symbols behind it, the scope still open, and the diagnostics. -/
def resume (stream : TokenStream) (σ : Symbols) : Symbols × List Diagnostic :=
  let (σ₁, found) := stream.program.check .global σ
  (σ₁, found.issues.map (·.diagnostic stream.stop.location))

/-- An analysis begins with nothing but an open scope, and closes it. -/
theorem analyze_eq_resume (stream : TokenStream) :
    stream.analyze.diagnostics = (stream.resume Symbols.empty.enter).2 ∧
      stream.analyze.symbols = (stream.resume Symbols.empty.enter).1.leave :=
  ⟨rfl, rfl⟩

end TokenStream

/-! ## Checking in sequence -/

/-- Parts of a program are checked one after the other. -/
theorem check_ofList_append (context : Context) (first rest : List Stmt) :
    (Stmts.ofList (first ++ rest)).check context =
      ((Stmts.ofList first).check context >>= fun _ => (Stmts.ofList rest).check context) := by
  induction first with
  | nil => exact (pure_bind _ _).symm
  | cons part first ih =>
      rw [List.cons_append, Stmts.ofList, Stmts.ofList, Stmts.check, Stmts.check, ih, bind_assoc]

/-- The check of a program comes to the end, whatever it finds. -/
theorem outcome_ofList (context : Context) (parts : List Stmt) (σ : Symbols) :
    ((Stmts.ofList parts).check context σ).2.outcome = .ok () := by
  have hstop := congrArg Trace.stop ((leaves_stmts context (.ofList parts)).trace σ)
  rw [Stmts.stop_trace_ofList] at hstop
  cases houtcome : ((Stmts.ofList parts).check context σ).2.outcome with
  | ok value => rfl
  | error hole => simp [Finding.trace, houtcome] at hstop

/-- The symbols behind the first parts are those that the rest is checked under. -/
theorem check_ofList_append_run (context : Context) (first rest : List Stmt) (σ : Symbols) :
    let between := ((Stmts.ofList first).check context σ).1
    ((Stmts.ofList (first ++ rest)).check context σ).1 =
        ((Stmts.ofList rest).check context between).1 ∧
      ((Stmts.ofList (first ++ rest)).check context σ).2.issues =
        ((Stmts.ofList first).check context σ).2.issues ++
          ((Stmts.ofList rest).check context between).2.issues := by
  rw [check_ofList_append, Check.bind_run, outcome_ofList]
  exact ⟨rfl, rfl⟩

/-! ## Where the input ends -/

/-- Without holes, nothing is reported at the end of the input. -/
theorem diagnostic_of_located {stream : TokenStream} (h : stream.holes = []) {issue : Issue}
    (hissue : issue ∈ stream.issues) (stop stop' : Location) :
    issue.diagnostic stop = issue.diagnostic stop' := by
  cases issue with
  | missing hole =>
      have hhole : hole ∈ stream.holes := List.mem_filterMap.2 ⟨_, hissue, rfl⟩
      rw [h] at hhole
      cases hhole
  | fault cause site =>
      have hfinds := (finds_stmts .global stream.program).inScope .empty
      obtain ⟨token, rfl⟩ := Option.isSome_iff_exists.1 (hfinds.faults cause site hissue).2
      rfl

section

variable {p : List Token} (hfree : ∀ t ∈ p, t.isEof = false)

include hfree

theorem body_append (q : List Token) :
    (TokenStream.ofTokens (p ++ q)).body =
      (TokenStream.ofTokens p).body ++ (TokenStream.ofTokens q).body := by
  have hall : ∀ t ∈ p, (!t.isEof) = true := fun t ht => by rw [hfree t ht]; rfl
  have hp : (p ++ []).takeWhile (!·.isEof) = p ++ [] := List.takeWhile_append_of_pos hall
  show (p ++ q).takeWhile (!·.isEof) = p.takeWhile (!·.isEof) ++ q.takeWhile (!·.isEof)
  rw [List.takeWhile_append_of_pos hall, ← List.append_nil p, hp]

theorem stop_append {q : List Token} (hq : q ≠ []) :
    (TokenStream.ofTokens (p ++ q)).stop.location = (TokenStream.ofTokens q).stop.location := by
  have hnone : p.find? Token.isEof = none :=
    List.find?_eq_none.2 fun t ht => by rw [hfree t ht]; exact Bool.false_ne_true
  have hlast : (p ++ q).getLast? = q.getLast? := by
    rw [List.getLast?_append, List.getLast?_eq_some_getLast hq]
    rfl
  show (((p ++ q).find? Token.isEof).getD (.endOfFile _)).location = _
  rw [List.find?_append, hnone, hlast]
  rfl

end

/-- **Later code does not change the verdict on earlier code:** the diagnostics of a program
without syntax errors and of what stands behind it are those of the program, and then those of
what stands behind it, checked under the symbols that the program left, the global scope open. -/
theorem analysis_resumes (p q : List Token) (hfree : ∀ t ∈ p, t.isEof = false)
    (hclear : ∀ d ∈ (TokenStream.ofTokens p).analyze.diagnostics, d.severity ≠ .syntactic) :
    let left := ((TokenStream.ofTokens p).resume Symbols.empty.enter).1
    (TokenStream.ofTokens (p ++ q)).analyze.diagnostics =
        (TokenStream.ofTokens p).analyze.diagnostics ++
          ((TokenStream.ofTokens q).resume left).2 ∧
      (TokenStream.ofTokens (p ++ q)).analyze.symbols =
        ((TokenStream.ofTokens q).resume left).1.leave := by
  intro left
  have hholes : (TokenStream.ofTokens p).holes = [] := TokenStream.holes_eq_nil hclear
  have htrace := TokenStream.trace_program hholes
  rw [TokenStream.program, trace_ofList] at htrace
  have hparts : (TokenStream.ofTokens (p ++ q)).parts =
      (TokenStream.ofTokens p).parts ++ (TokenStream.ofTokens q).parts := by
    rw [TokenStream.parts, body_append hfree]
    exact items_append _ _ htrace
  have hchecked := check_ofList_append_run .global (TokenStream.ofTokens p).parts
    (TokenStream.ofTokens q).parts Symbols.empty.enter
  rw [← hparts] at hchecked
  obtain ⟨hsymbols, hissues⟩ := hchecked
  refine ⟨?_, congrArg Symbols.leave hsymbols⟩
  have hearlier : ∀ issue ∈ (TokenStream.ofTokens p).issues,
      issue.diagnostic (TokenStream.ofTokens (p ++ q)).stop.location =
        issue.diagnostic (TokenStream.ofTokens p).stop.location :=
    fun issue hissue => diagnostic_of_located hholes hissue _ _
  have hlater : ((TokenStream.ofTokens q).program.check .global left).2.issues.map
      (·.diagnostic (TokenStream.ofTokens (p ++ q)).stop.location) =
        ((TokenStream.ofTokens q).resume left).2 := by
    cases q with
    | nil =>
        have hnone : (TokenStream.ofTokens []).program = .nil := congrArg Stmts.ofList items_nil
        rw [TokenStream.resume, hnone]
        rfl
    | cons t q =>
        rw [stop_append hfree (List.cons_ne_nil t q)]
        rfl
  calc (TokenStream.ofTokens (p ++ q)).analyze.diagnostics
    _ = ((TokenStream.ofTokens (p ++ q)).resume Symbols.empty.enter).2 :=
        (TokenStream.analyze_eq_resume _).1
    _ = ((TokenStream.ofTokens p).issues ++
          ((TokenStream.ofTokens q).program.check .global left).2.issues).map
            (·.diagnostic (TokenStream.ofTokens (p ++ q)).stop.location) :=
        congrArg (List.map _) hissues
    _ = (TokenStream.ofTokens p).analyze.diagnostics ++
          ((TokenStream.ofTokens q).resume left).2 := by
        rw [List.map_append, hlater, List.map_congr_left hearlier]
        rfl

/-- `int x = y;` and behind it `int x;`: what is wrong with the first is reported first, and the
second declares a name that the first has declared. -/
theorem analysis_resumes_redeclaring :
    let p : List Token := [⟨.keyword (.type .int), "int", ⟨1, 1⟩⟩, ⟨.ident, "x", ⟨1, 5⟩⟩,
      ⟨.operator .assign, "=", ⟨1, 7⟩⟩, ⟨.ident, "y", ⟨1, 9⟩⟩, ⟨.punct .semicolon, ";", ⟨1, 10⟩⟩]
    let q : List Token := [⟨.keyword (.type .int), "int", ⟨2, 1⟩⟩, ⟨.ident, "x", ⟨2, 5⟩⟩,
      ⟨.punct .semicolon, ";", ⟨2, 6⟩⟩]
    let left := ((TokenStream.ofTokens p).resume Symbols.empty.enter).1
    (TokenStream.ofTokens (p ++ q)).analyze.diagnostics =
        (TokenStream.ofTokens p).analyze.diagnostics ++ ((TokenStream.ofTokens q).resume left).2 ∧
      (TokenStream.ofTokens p).analyze.diagnostics.map (·.location) = [⟨1, 9⟩] ∧
      ((TokenStream.ofTokens q).resume left).2.map (·.location) = [⟨2, 5⟩] := by
  intro p q left
  exact ⟨(analysis_resumes p q (by decide) (by decide +kernel)).1, by decide +kernel,
    by decide +kernel⟩

end MiniC
