import MiniC.Analysis
import MiniC.Proofs.Ending.Lookahead

/-!
# `MiniC.Proofs.Ending.Mark` — nothing behind the end of the input matters

The first end-of-file mark among the tokens ends the input, and a stream without one ends as if a
mark stood where its last token is.  An analysis reads the tokens in front of the end.  Its
decisions look ahead in the stream, though, and one of them may look past the mark; it is taken
here on all tokens of the stream, and the analysis is the same.

## Contents
- `TokenStream.beyond`: what stands behind the tokens that are read.
- `TokenStream.analyzeBeyond`, with `analyzeBeyond_eq`: the analysis that looks past the end.
- `analysis_ends_at_mark`: **nothing behind the first mark matters,** and the mark may be left out
  where the last token is.
-/

namespace MiniC

namespace TokenStream

/-- The first end-of-file mark of a stream, and all tokens behind it. -/
def beyond (stream : TokenStream) : List Token :=
  stream.ahead.dropWhile (!·.isEof)

/-- What is read, and what stands behind it, are the tokens of the stream. -/
theorem body_append_beyond (stream : TokenStream) : stream.body ++ stream.beyond = stream.ahead :=
  List.takeWhile_append_dropWhile

theorem beyond_beyond (stream : TokenStream) : Beyond stream.beyond := by
  intro t ht
  have hnot := List.head?_dropWhile_not (fun token : Token => !token.isEof) stream.ahead
  rw [beyond, Option.mem_def] at ht
  rw [ht] at hnot
  simpa using hnot

/-- Read the program that the rest of a stream holds, and check it.  Where a function may begin,
the decision looks ahead over all tokens of the stream, as far as it needs to. -/
def analyzeBeyond (stream : TokenStream) : Analysis :=
  let looks (ahead : List Token) : Bool := Cursor.startsFunction (ahead ++ stream.beyond)
  let read := (Cursor.reading stream.body).items looks
  let (σ, issues) := checkProgram (.ofList read.tree) .empty
  { diagnostics := issues.map (·.diagnostic stream.stop.location)
    symbols := σ
    position := stream.position + (stream.body.length - read.next.size) }

/-- **Looking past the end makes no difference.** -/
theorem analyzeBeyond_eq (stream : TokenStream) : stream.analyzeBeyond = stream.analyze := by
  have hlooks : Faithful fun ahead => Cursor.startsFunction (ahead ++ stream.beyond) :=
    startsFunction_append stream.beyond_beyond
  have halike := alike_items hlooks (.reading stream.body)
  have hchecked := halike.tree .global
  simp only [analyzeBeyond, analyze, checkProgram, halike.next, hchecked]

end TokenStream

/-- An analysis depends on what is read and on where the end is. -/
theorem analyze_congr {tokens tokens' : List Token}
    (hbody : (TokenStream.ofTokens tokens).body = (TokenStream.ofTokens tokens').body)
    (hstop : (TokenStream.ofTokens tokens).stop.location =
      (TokenStream.ofTokens tokens').stop.location) :
    (TokenStream.ofTokens tokens).analyze = (TokenStream.ofTokens tokens').analyze := by
  unfold TokenStream.analyze
  rw [hbody, hstop]
  rfl

section

variable {e : Token} (he : e.isEof = true)

include he

/-- What is read of tokens ends at a mark. -/
theorem body_mark (p q : List Token) :
    (TokenStream.ofTokens (p ++ e :: q)).body = (TokenStream.ofTokens p).body := by
  show (p ++ e :: q).takeWhile (!·.isEof) = p.takeWhile (!·.isEof)
  induction p with
  | nil => exact List.takeWhile_cons_of_neg (by rw [he]; exact Bool.false_ne_true)
  | cons t p ih => rw [List.cons_append, List.takeWhile_cons, List.takeWhile_cons, ih]

/-- The end of tokens is at the first mark among them. -/
theorem stop_mark (p q : List Token) :
    (TokenStream.ofTokens (p ++ e :: q)).stop = (p.find? Token.isEof).getD e := by
  show ((p ++ e :: q).find? Token.isEof).getD _ = _
  rw [List.find?_append, List.find?_cons_of_pos he]
  cases p.find? Token.isEof <;> rfl

end

/-- **Nothing behind the first end-of-file mark matters,** even though it is looked at; and tokens
without a mark are analysed as if one stood behind them, where the last of them is. -/
theorem analysis_ends_at_mark (p q : List Token) (e : Token) (he : e.isEof = true) :
    (TokenStream.ofTokens (p ++ e :: q)).analyzeBeyond =
        (TokenStream.ofTokens (p ++ [e])).analyzeBeyond ∧
      ((∀ t ∈ p, t.isEof = false) → p.getLast?.map Token.location = some e.location →
        (TokenStream.ofTokens p).analyzeBeyond =
          (TokenStream.ofTokens (p ++ e :: q)).analyzeBeyond) ∧
      ∀ tokens, (TokenStream.ofTokens tokens).analyzeBeyond =
        (TokenStream.ofTokens tokens).analyze := by
  simp only [TokenStream.analyzeBeyond_eq, implies_true, and_true]
  refine ⟨analyze_congr ?_ ?_, fun hfree hlast => analyze_congr ?_ ?_⟩
  · rw [body_mark he, body_mark he]
  · rw [stop_mark he, stop_mark he]
  · rw [body_mark he]
  · have hnone : p.find? Token.isEof = none :=
      List.find?_eq_none.2 fun t ht => by rw [hfree t ht]; exact Bool.false_ne_true
    rw [stop_mark he, hnone]
    show ((p.find? Token.isEof).getD (.endOfFile _)).location = e.location
    rw [hnone, hlast]
    rfl

/-- `struct`, the mark of the end, and `f (` behind it: what stands behind the mark makes a
function out of `struct`, which is read as one and breaks where a declaration does. -/
theorem analysis_ends_behind_struct :
    let struct : Token := ⟨.keyword .kwStruct, "struct", ⟨1, 1⟩⟩
    let mark : Token := .endOfFile ⟨1, 1⟩
    let call : List Token := [⟨.ident, "f", ⟨1, 8⟩⟩, ⟨.punct .lparen, "(", ⟨1, 9⟩⟩]
    Cursor.startsFunction ([struct] ++ mark :: call) = true ∧
      Cursor.startsFunction [struct] = false ∧
      (TokenStream.ofTokens ([struct] ++ mark :: call)).analyzeBeyond =
        (TokenStream.ofTokens ([struct] ++ [mark])).analyzeBeyond ∧
      (TokenStream.ofTokens [struct]).analyzeBeyond =
        (TokenStream.ofTokens ([struct] ++ mark :: call)).analyzeBeyond := by
  intro struct mark call
  obtain ⟨hmark, hfree, -⟩ := analysis_ends_at_mark [struct] call mark rfl
  exact ⟨rfl, rfl, hmark, hfree (by decide) rfl⟩

end MiniC
