/-!
# `MiniC.Source.Span` — cutting a piece off the front of a text

A span divides a text into what is taken and the rest, and carries the proof that nothing is lost.
Spans compose: what the second takes follows what the first took.

## Contents
- `Span`, with `Span.length_rest_le`: the rest is never longer than the text.
- The cutters `nothing`, `while_`, `optional`, `take`, `cons` and their composition `andThen`.
-/

namespace MiniC

/-- A text divided in two. -/
structure Span (text : List Char) where
  taken : List Char
  rest : List Char
  whole : taken ++ rest = text

namespace Span

variable {text : List Char}

theorem length_rest_le (span : Span text) : span.rest.length ≤ text.length := by
  have h := congrArg List.length span.whole
  rw [List.length_append] at h
  omega

/-- Take nothing. -/
def nothing (text : List Char) : Span text := ⟨[], text, rfl⟩

/-- Take characters as long as they satisfy `p`. -/
def while_ (p : Char → Bool) (text : List Char) : Span text :=
  ⟨text.takeWhile p, text.dropWhile p, List.takeWhile_append_dropWhile⟩

/-- Take the first `n` characters. -/
def take (n : Nat) (text : List Char) : Span text :=
  ⟨text.take n, text.drop n, List.take_append_drop n text⟩

/-- Take one more character in front. -/
def cons (c : Char) (span : Span text) : Span (c :: text) :=
  ⟨c :: span.taken, span.rest, congrArg (c :: ·) span.whole⟩

/-- Take the first character if it satisfies `p`. -/
def optional (p : Char → Bool) : (text : List Char) → Span text
  | [] => nothing []
  | c :: text => if p c then (nothing text).cons c else nothing (c :: text)

/-- Go on taking where `first` ended. -/
def andThen (first : Span text) (next : (rest : List Char) → Span rest) : Span text :=
  let second := next first.rest
  ⟨first.taken ++ second.taken, second.rest, by
    rw [List.append_assoc, second.whole, first.whole]⟩

/-- Whether the rest begins with a character that satisfies `p`. -/
def sees (span : Span text) (p : Char → Bool) : Bool := span.rest.head?.any p

end Span

end MiniC
