import MiniC.Proofs.Checking.Leaves
import MiniC.Proofs.Reading.Progress

/-!
# `MiniC.Proofs.Syntactic` — the syntactic diagnostics of an analysis

An analysis reads its tokens by the plan of a program, and reports the holes that it recovered
from on the way, in order.  So all that is known of the runs of a plan is known of the syntactic
diagnostics: two runs over tokens of the same shapes stay alike, whatever the names mean.

## Contents
- `TokenStream.holes`, with `follows_program`: an analysis is one run of the plan of a program.
- `TokenStream.faults`: its syntactic diagnostics, each with the place of the cursor.
- `faults_of_kinds`: **what names and literals are spelled like does not steer an analysis.**
-/

namespace MiniC

open Cursor (reading broken)

namespace TokenStream

variable (stream : TokenStream)

/-- The parts of the program that the rest of a stream holds. -/
def parts : List Stmt := (reading stream.body).items.tree

/-- The issues of the program that the rest of a stream holds. -/
def issues : List Issue := (checkProgram (.ofList stream.parts) .empty).2

/-- The holes that an analysis reports. -/
def holes : List Hole := stream.issues.filterMap Issue.hole?

theorem diagnostics_analyze :
    stream.analyze.diagnostics = stream.issues.map (·.diagnostic stream.stop.location) := rfl

/-- The syntactic diagnostics are those of the holes. -/
theorem syntactic_analyze :
    stream.analyze.diagnostics.filter (·.severity == .syntactic) =
      stream.holes.map fun hole => (Issue.missing hole).diagnostic stream.stop.location := by
  rw [diagnostics_analyze, holes]
  induction stream.issues with
  | nil => rfl
  | cons issue issues ih =>
      cases issue with
      | missing hole =>
          rw [List.map_cons, List.filter_cons_of_pos rfl, ih]
          rfl
      | fault cause site =>
          rw [List.map_cons, List.filter_cons_of_neg Bool.false_ne_true, ih]
          rfl

variable {stream} in
/-- An analysis without syntactic diagnostics has found no hole. -/
theorem holes_eq_nil (h : ∀ d ∈ stream.analyze.diagnostics, d.severity ≠ .syntactic) :
    stream.holes = [] := by
  rw [← List.map_eq_nil_iff, ← syntactic_analyze, List.filter_eq_nil_iff]
  simpa using h

end TokenStream

theorem trace_ofList (parts : List Stmt) :
    (Stmts.ofList parts).trace = Trace.all (parts.map (·.trace.settled)) := by
  induction parts with
  | nil => rfl
  | cons part parts ih =>
      rw [Stmts.ofList, Stmts.trace, ih]
      rfl

/-- The holes that an analysis reports are those of the tree, recovered from part by part. -/
theorem TokenStream.holes_eq (stream : TokenStream) :
    stream.holes = (Trace.all (stream.parts.map (·.trace.settled))).reported := by
  have hchecked := (leaves_stmts .global (Stmts.ofList stream.parts)).inScope.trace .empty
  rw [trace_ofList] at hchecked
  exact congrArg Trace.reported hchecked

/-- **An analysis is one run of the plan of a program,** and reports the faults of that run. -/
theorem follows_program (stream : TokenStream) :
    Follows (.rule .program) (reading stream.body) (reading []) stream.holes := by
  have hread := (tracks_items (reading stream.body)).1
  rw [next_items] at hread
  rw [stream.holes_eq]
  exact hread

/-! ## Where a fault is reported -/

namespace TokenStream

/-- The place of the cursor, among the tokens of a stream, when a hole was left. -/
def place (stream : TokenStream) (hole : Hole) : Nat :=
  stream.position + (stream.body.length - hole.ahead.length)

/-- The syntactic diagnostics of an analysis, each with the place of the cursor. -/
def faults (stream : TokenStream) : List (Nat × Diagnostic) :=
  stream.holes.map fun hole =>
    (stream.place hole, (Issue.missing hole).diagnostic stream.stop.location)

theorem diagnostics_faults (stream : TokenStream) :
    stream.faults.map Prod.snd =
      stream.analyze.diagnostics.filter (·.severity == .syntactic) := by
  rw [syntactic_analyze, faults, List.map_map]
  rfl

/-- What is ahead of a hole are the tokens from its place on. -/
theorem ahead_eq_drop {stream : TokenStream} {hole : Hole} (h : hole ∈ stream.holes) :
    hole.ahead = stream.body.drop (stream.place hole - stream.position) := by
  have hsuffix := (follows_program stream).ahead_suffix hole h
  obtain ⟨before, hbefore⟩ := hsuffix
  have hbody : stream.body = before ++ hole.ahead := hbefore.symm
  have hlength : stream.place hole - stream.position = before.length := by
    rw [place, hbody, List.length_append]
    omega
  rw [hlength, hbody, List.drop_left]

end TokenStream

/-! ## Analyses of tokens of like shape -/

theorem shapes_body {stream stream' : TokenStream}
    (h : shapes stream.ahead = shapes stream'.ahead) :
    shapes stream.body = shapes stream'.body := by
  have hbody : ∀ s : TokenStream,
      shapes s.body = (shapes s.ahead).takeWhile fun shape => !shape.kind == .eof :=
    fun s => by
      rw [shapes, shapes, List.takeWhile_map]
      rfl
  rw [hbody, hbody, h]

theorem Token.shape_eq {t u : Token} (hkind : t.kind = u.kind)
    (hname : t.kind = .ident →
      (t.lexeme = "printf" ↔ u.lexeme = "printf") ∧ (t.lexeme = "scanf" ↔ u.lexeme = "scanf")) :
    t.shape = u.shape := by
  unfold Token.shape
  rw [← hkind]
  by_cases hident : t.kind = .ident
  · obtain ⟨hprintf, hscanf⟩ := hname hident
    simp only [FormatCall.ofName?, hprintf, hscanf]
  · rw [if_neg hident, if_neg hident]

/-- **How names and literals are spelled does not steer an analysis:** over tokens of the same
kinds, of which the same are spelled `printf` and `scanf`, two analyses read up to the same place,
and their syntactic diagnostics are as many and raised at the same places. -/
theorem faults_of_kinds {tokens tokens' : List Token} (hlength : tokens.length = tokens'.length)
    (hkind : ∀ i (h : i < tokens.length) (h' : i < tokens'.length),
      tokens[i].kind = tokens'[i].kind)
    (hname : ∀ i (h : i < tokens.length) (h' : i < tokens'.length), tokens[i].kind = .ident →
      (tokens[i].lexeme = "printf" ↔ tokens'[i].lexeme = "printf") ∧
        (tokens[i].lexeme = "scanf" ↔ tokens'[i].lexeme = "scanf")) :
    (TokenStream.ofTokens tokens).analyze.position =
        (TokenStream.ofTokens tokens').analyze.position ∧
      ((TokenStream.ofTokens tokens).analyze.diagnostics.filter
          (·.severity == .syntactic)).length =
        ((TokenStream.ofTokens tokens').analyze.diagnostics.filter
          (·.severity == .syntactic)).length ∧
      (TokenStream.ofTokens tokens).faults.map Prod.fst =
        (TokenStream.ofTokens tokens').faults.map Prod.fst := by
  have hshapes : shapes tokens = shapes tokens' := by
    refine List.ext_getElem (by simpa using hlength) fun i h h' => ?_
    rw [List.length_map] at h h'
    rw [List.getElem_map, List.getElem_map]
    exact Token.shape_eq (hkind i h h') (hname i h h')
  have hbody : shapes (TokenStream.ofTokens tokens).body =
      shapes (TokenStream.ofTokens tokens').body := shapes_body hshapes
  have hlength' : (TokenStream.ofTokens tokens).body.length =
      (TokenStream.ofTokens tokens').body.length := by
    simpa using congrArg List.length hbody
  have hplaces : (TokenStream.ofTokens tokens).faults.map Prod.fst =
      (TokenStream.ofTokens tokens').faults.map Prod.fst := by
    have hholes := ((follows_program (.ofTokens tokens)).alike (follows_program (.ofTokens tokens'))
      hbody).2
    have hplace : ∀ tokens : List Token, (TokenStream.ofTokens tokens).faults.map Prod.fst =
        ((TokenStream.ofTokens tokens).holes.map (·.ahead.length)).map
          fun ahead => 0 + ((TokenStream.ofTokens tokens).body.length - ahead) := by
      intro tokens
      rw [TokenStream.faults, List.map_map, List.map_map]
      rfl
    rw [hplace, hplace, hholes, hlength']
  refine ⟨?_, ?_, hplaces⟩
  · rw [position_eq_length, position_eq_length, hlength']
  · rw [← TokenStream.diagnostics_faults, ← TokenStream.diagnostics_faults, List.length_map,
      List.length_map]
    simpa using congrArg List.length hplaces

/-- `int x = ;` and then `int name = x;`, on the lines from `line` on. -/
def halfDeclared (name : String) (line : Nat) : List Token :=
  [⟨.keyword (.type .int), "int", ⟨line, 1⟩⟩, ⟨.ident, "x", ⟨line, 5⟩⟩,
    ⟨.operator .assign, "=", ⟨line, 7⟩⟩, ⟨.punct .semicolon, ";", ⟨line, 9⟩⟩,
    ⟨.keyword (.type .int), "int", ⟨line + 1, 1⟩⟩, ⟨.ident, name, ⟨line + 1, 5⟩⟩,
    ⟨.operator .assign, "=", ⟨line + 1, 7⟩⟩, ⟨.ident, "x", ⟨line + 1, 9⟩⟩,
    ⟨.punct .semicolon, ";", ⟨line + 1, 10⟩⟩]

/-- Whether the second name is new makes no difference for where the value is missing. -/
theorem faults_of_redeclaration :
    (TokenStream.ofTokens (halfDeclared "y" 1)).faults.map Prod.fst =
      (TokenStream.ofTokens (halfDeclared "x" 5)).faults.map Prod.fst :=
  (@faults_of_kinds (halfDeclared "y" 1) (halfDeclared "x" 5) rfl (by decide) (by decide)).2.2

end MiniC
