import MiniC.Diagnostic

/-!
# `MiniC.Proofs.Messages` — messages told apart by their beginning

A message is put together from fixed words and from pieces that may be anything: names, lexemes,
types.  Fixed words stand in front.  Where those of two messages part, neither message is the
other, whatever the pieces behind them are.

## Contents
- `BeginsWith`, with `append` and `prepend`.
- `DepartsFrom`, with `not_beginsWith`: **a message that departs from a beginning does not begin
  so.**
-/

namespace MiniC

/-- The characters that a text begins with. -/
def BeginsWith (front : List Char) (text : String) : Prop := front <+: text.toList

namespace BeginsWith

variable {front : List Char} {text : String}

theorem of_isPrefixOf (h : front.isPrefixOf text.toList = true) : BeginsWith front text :=
  List.isPrefixOf_iff_prefix.1 h

theorem append (h : BeginsWith front text) (rest : String) : BeginsWith front (text ++ rest) := by
  unfold BeginsWith
  rw [String.toList_append]
  exact h.trans (List.prefix_append _ _)

theorem prepend (h : BeginsWith front text) (before : String) :
    BeginsWith (before.toList ++ front) (before ++ text) := by
  unfold BeginsWith
  rw [String.toList_append]
  exact (List.prefix_append_right_inj _).2 h

end BeginsWith

/-- A text that begins with characters of which neither they nor `front` go on with the other. -/
def DepartsFrom (front : List Char) (text : String) : Prop :=
  ∃ own, BeginsWith own text ∧ (own.isPrefixOf front || front.isPrefixOf own) = false

namespace DepartsFrom

variable {front : List Char} {text : String}

/-- The first characters of a text that is known. -/
theorem of_front (own : String) (h : (own.toList.isPrefixOf text.toList &&
    !(own.toList.isPrefixOf front || front.isPrefixOf own.toList)) = true) :
    DepartsFrom front text := by
  obtain ⟨hown, hdiffers⟩ := Bool.and_eq_true_iff.1 h
  refine ⟨own.toList, .of_isPrefixOf hown, ?_⟩
  rwa [Bool.not_eq_true'] at hdiffers

theorem append (h : DepartsFrom front text) (rest : String) : DepartsFrom front (text ++ rest) := by
  obtain ⟨own, hown, hdiffers⟩ := h
  exact ⟨own, hown.append rest, hdiffers⟩

/-- **A text that departs from a beginning does not begin so.** -/
theorem not_beginsWith (h : DepartsFrom front text) : ¬BeginsWith front text := by
  obtain ⟨own, hown, hdiffers⟩ := h
  obtain ⟨hshort, hlong⟩ := Bool.or_eq_false_iff.1 hdiffers
  intro hfront
  rcases List.prefix_or_prefix_of_prefix hown hfront with hprefix | hprefix
  · rw [List.isPrefixOf_iff_prefix.2 hprefix] at hshort
    cases hshort
  · rw [List.isPrefixOf_iff_prefix.2 hprefix] at hlong
    cases hlong

end DepartsFrom

end MiniC
