import MiniC.Proofs.Prolonging.Cursors
import MiniC.Proofs.Reading.Text

/-!
# `MiniC.Proofs.Prolonging.Expressions` — expressions in a longer text

An expression is read alike in both texts if a token is left behind it.  Each reader is unfolded
once, for both texts at a time.  Where a reader lengthens a tree that it was given, that the tree
has no hole follows from the whole, because the whole begins with it.

## Contents
- `clear_of_operations`, `clear_of_subscript`, `clear_of_accesses`: a lengthened tree has the holes
  of the tree that it lengthens.
- `followed_expression` and the rules it needs, in one recursion.
-/

namespace MiniC

open Cursor (reading broken)

variable {q : List Token}

/-! ## Lengthened trees -/

/-- A chain of operations begins with the operand that it was given, so it has the holes of it. -/
theorem clear_of_operations (tier : Tier) (left : Expr) (c : Cursor)
    (h : (c.operations tier left).tree.trace = .clear) : left.trace = .clear := by
  obtain ⟨t, -, -, htree, -⟩ := spells_operations tier left c
  exact (Trace.andThen_eq_clear.1 (htree.symm.trans h)).1

/-- An element selected by an index begins with the base. -/
theorem clear_of_subscript (base : Expr) (opening : Token) (c : Cursor)
    (h : (c.subscript base opening).tree.trace = .clear) : base.trace = .clear := by
  obtain ⟨t, -, -, htree, -⟩ := spells_subscript base opening c
  exact (Trace.andThen_eq_clear.1 (htree.symm.trans h)).1

/-- A path of selections begins with the base, however long it gets. -/
theorem clear_of_accesses (base : Expr) (c : Cursor)
    (h : (c.accesses base).tree.trace = .clear) : base.trace = .clear := by
  obtain ⟨t, -, -, htree, -⟩ := spells_accesses base c
  exact (Trace.andThen_eq_clear.1 (htree.symm.trans h)).1

/-! ## Expressions -/

mutual

/-- A condition, with `?` the two branches too. Without `?` it is the token behind that tells, so
one has to be left. -/
theorem followed_expression (c : Cursor) :
    Followed q c.expression.tree.trace c.expression (c.prolonged q).expression := by
  have hle := c.residue_le_size
  have hcondition := followed_operation .logical c
  have hle₁ := (c.operation .logical).le
  rw [Cursor.expression, Cursor.expression]
  cases htake : (c.operation .logical).next.take? (· == .punct .question) with
  | none =>
      simp only [Parsed.tree_andThen, htake]
      refine hcondition.onto id (.of_pos fun hpos => ?_)
      simp only [Cursor.take?_prolonged hpos, htake]
      exact .here _ _
  | some taken =>
      have hlt := taken.lt
      have hfirst := followed_expression taken.next
      have hle₂ := taken.next.expression.le
      have hle₃ := taken.next.residue_le_size
      have hcolon := (ended_expect (q := q) taken.next.expression.next (.punct .colon)
        .ternaryColon).followed
      have hle₄ := (taken.next.expression.next.expect (.punct .colon) .ternaryColon).le
      have hle₅ := taken.next.expression.next.residue_le_size
      have hsecond := followed_expression
        (taken.next.expression.next.expect (.punct .colon) .ternaryColon).next
      simp only [Parsed.tree_andThen, htake]
      refine hcondition.seq (.of_pos fun hpos => ?_)
      simp only [Cursor.take?_prolonged hpos, htake]
      exact .within (hfirst.atMost.seq (hcolon.atMost.seq hsecond.atMost.map))
termination_by 16 * c.size + 10

/-- An operand and the operations that lengthen it: the holes of the operand are among theirs. -/
theorem followed_operation (tier : Tier) (c : Cursor) :
    Followed q (c.operation tier).tree.trace (c.operation tier)
      ((c.prolonged q).operation tier) := by
  have hle := c.residue_le_size
  have hfirst := followed_operand tier c
  have hle₁ := (c.operand tier).le
  have hrest := followed_operations tier (c.operand tier).tree (c.operand tier).next
  rw [Cursor.operation, Cursor.operation]
  exact hfirst.onto (clear_of_operations tier _ (c.operand tier).next) hrest
termination_by 16 * c.size + 2 * tier.rank + 3

/-- An operand of a tier is an operation of the next tier, and in the end a factor. -/
theorem followed_operand (tier : Tier) (c : Cursor) :
    Followed q (c.operand tier).tree.trace (c.operand tier)
      ((c.prolonged q).operand tier) := by
  cases tier with
  | logical =>
      rw [Cursor.operand, Cursor.operand]
      exact followed_operation .relational c
  | relational =>
      rw [Cursor.operand, Cursor.operand]
      exact followed_operation .additive c
  | additive =>
      rw [Cursor.operand, Cursor.operand]
      exact followed_operation .multiplicative c
  | multiplicative =>
      rw [Cursor.operand, Cursor.operand]
      exact followed_factor c
termination_by 16 * c.size + 2 * tier.rank + 2

/-- One operator and its right operand at a time. Which operator comes next is seen alike while a
token is left. -/
theorem followed_operations (tier : Tier) (left : Expr) (c : Cursor) :
    Followed q (c.operations tier left).tree.trace (c.operations tier left)
      ((c.prolonged q).operations tier left) := by
  refine .of_pos fun hpos => ?_
  rw [Cursor.operations, Cursor.operations, Cursor.take?_prolonged hpos]
  cases c.take? tier.has with
  | none => exact .here left c
  | some taken =>
      have hrank := tier.rank_le
      have hlt := taken.lt
      have hle := taken.next.residue_le_size
      have hright := followed_operand tier taken.next
      have hle₁ := (taken.next.operand tier).le
      have hrest := followed_operations tier
        (.binary tier left taken.token (taken.next.operand tier).tree)
        (taken.next.operand tier).next
      refine .within (hright.atMost.onto (fun hclear => ?_) hrest)
      have hbinary := clear_of_operations tier _ (taken.next.operand tier).next hclear
      exact (Trace.andThen_eq_clear.1 hbinary).2
termination_by 16 * c.size + 2

/-- An element, with `[` behind it the index too. -/
theorem followed_factor (c : Cursor) :
    Followed q c.factor.tree.trace c.factor (c.prolonged q).factor := by
  have hle := c.residue_le_size
  have hbase := followed_element c
  have hle₁ := c.element.le
  rw [Cursor.factor, Cursor.factor]
  cases htake : c.element.next.take? (· == .punct .lbracket) with
  | none =>
      simp only [Parsed.tree_andThen, htake]
      refine hbase.onto id (.of_pos fun hpos => ?_)
      simp only [Cursor.take?_prolonged hpos, htake]
      exact .here _ _
  | some taken =>
      have hlt := taken.lt
      have hsubscript := followed_subscript c.element.tree taken.token taken.next
      simp only [Parsed.tree_andThen, htake]
      refine hbase.onto (clear_of_subscript _ taken.token taken.next) (.of_pos fun hpos => ?_)
      simp only [Cursor.take?_prolonged hpos, htake]
      exact .within hsubscript.atMost
termination_by 16 * c.size + 1

/-- An index ends by itself, with its closing bracket. -/
theorem followed_subscript (base : Expr) (opening : Token) (c : Cursor) :
    Followed q (c.subscript base opening).tree.trace (c.subscript base opening)
      ((c.prolonged q).subscript base opening) := by
  have hindex := followed_expression c
  have hclosing := (ended_expect (q := q) c.expression.next (.punct .rbracket) .indexEnd)
  rw [Cursor.subscript, Cursor.subscript]
  refine hindex.onto (fun hclear => ?_) fun hclear => ?_
  · exact (Trace.andThen_eq_clear.1 (Trace.andThen_eq_clear.1 hclear).2).1
  · exact hclosing.followed.atMost.map
      (Trace.andThen_eq_clear.1 (Trace.andThen_eq_clear.1 hclear).2).2
termination_by 16 * c.size + 11

/-- Indices and members until there is none. The base grows on the way, and its holes stay in it. -/
theorem followed_accesses (base : Expr) (c : Cursor) :
    Followed q (c.accesses base).tree.trace (c.accesses base)
      ((c.prolonged q).accesses base) := by
  refine .of_pos fun hpos => ?_
  rw [Cursor.accesses, Cursor.accesses, Cursor.take?_prolonged hpos, Cursor.take?_prolonged hpos]
  cases c.take? (· == .punct .lbracket) with
  | some taken =>
      have hlt := taken.lt
      have hle := taken.next.residue_le_size
      have hsubscript := followed_subscript base taken.token taken.next
      have hle₁ := (taken.next.subscript base taken.token).le
      have hrest := followed_accesses (taken.next.subscript base taken.token).tree
        (taken.next.subscript base taken.token).next
      exact .within (hsubscript.atMost.onto
        (clear_of_accesses _ (taken.next.subscript base taken.token).next) hrest)
  | none =>
      cases c.take? (·.access?.isSome) with
      | none => exact .here base c
      | some taken =>
          have hlt := taken.lt
          have hle := taken.next.residue_le_size
          have hfield := (ended_expect (q := q) taken.next .ident .memberName).followed
          have hle₁ := (taken.next.identifier .memberName).le
          have hrest := followed_accesses
            (.member base (taken.token.kind.access?.getD .direct) taken.token
              (taken.next.identifier .memberName).tree) (taken.next.identifier .memberName).next
          refine .within (hfield.atMost.onto (fun hclear => ?_) hrest)
          have hbase := clear_of_accesses _ (taken.next.identifier .memberName).next hclear
          exact (Trace.andThen_eq_clear.1 hbase).2
termination_by 16 * c.size + 12

/-- The arguments of a call, none or some. A call ends by itself, with its closing parenthesis. -/
theorem followed_call (name opening : Token) (c : Cursor) :
    Followed q (c.call name opening).tree.trace (c.call name opening)
      ((c.prolonged q).call name opening) := by
  refine .of_pos fun hpos => ?_
  have hle := c.residue_le_size
  rw [Cursor.call, Cursor.call, Cursor.sees_prolonged (Nat.lt_of_lt_of_le hpos hle)]
  by_cases hempty : c.sees (· == .punct .rparen) = true
  · rw [if_pos hempty, if_pos hempty]
    exact (ended_expect c (.punct .rparen) .argumentsEnd).followed.map
  · rw [if_neg hempty, if_neg hempty]
    have hfirst := followed_expression c
    have hle₁ := c.expression.le
    have hothers := followed_trail c.expression.next
    have hclosing := (ended_expect (q := q) c.expression.next.trail.next (.punct .rparen)
      .argumentsEnd).followed
    exact hfirst.seq (hothers.seq hclosing.atMost.map)
termination_by 16 * c.size + 12

/-- The arguments behind the first, one comma at a time. -/
theorem followed_trail (c : Cursor) :
    Followed q c.trail.tree.trace c.trail (c.prolonged q).trail := by
  refine .of_pos fun hpos => ?_
  rw [Cursor.trail, Cursor.trail, Cursor.take?_prolonged hpos]
  cases c.take? (· == .punct .comma) with
  | none => exact .here Trail.nil c
  | some taken =>
      have hlt := taken.lt
      have hle := taken.next.residue_le_size
      have hargument := followed_expression taken.next
      have hle₁ := taken.next.expression.le
      have hrest := followed_trail taken.next.expression.next
      exact .within (hargument.atMost.seq hrest.map)
termination_by 16 * c.size + 11

/-- A type or an expression in parentheses; which of them is told by the token behind the first
parenthesis. -/
theorem followed_sizeofOperand (keyword : Token) (c : Cursor) :
    Followed q (c.sizeofOperand keyword).tree.trace (c.sizeofOperand keyword)
      ((c.prolonged q).sizeofOperand keyword) := by
  have hle := c.residue_le_size
  have hopening := (ended_expect (q := q) c (.punct .lparen) .sizeofStart).followed
  have hle₁ := (c.expect (.punct .lparen) .sizeofStart).le
  rw [Cursor.sizeofOperand, Cursor.sizeofOperand]
  simp only [Parsed.tree_andThen]
  by_cases hspec : (c.expect (.punct .lparen) .sizeofStart).next.sees Kind.startsTypeSpec = true
  · simp only [hspec]
    refine hopening.seq (.of_pos fun hpos => ?_)
    rw [Cursor.sees_prolonged hpos, if_pos hspec, if_pos hspec]
    have htype := followed_typeSpec (q := q) (c.expect (.punct .lparen) .sizeofStart).next
    exact htype.atMost.seq ((followed_takeWhile _ _).behind
      (ended_expect _ _ _).followed.atMost.map)
  · simp only [hspec]
    refine hopening.seq (.of_pos fun hpos => ?_)
    rw [Cursor.sees_prolonged hpos, if_neg hspec, if_neg hspec]
    have hoperand := followed_expression (c.expect (.punct .lparen) .sizeofStart).next
    exact hoperand.atMost.seq (ended_expect _ _ _).followed.atMost.map
termination_by 16 * c.size + 12

/-- By the first token, which is the same in both texts. A token that starts no element breaks both
readings at once. -/
theorem followed_element (c : Cursor) :
    Followed q c.element.tree.trace c.element (c.prolonged q).element := by
  match c with
  | reading (t :: ts) =>
      have hsize := Cursor.size_reading ts
      refine .of_pos fun hpos => ?_
      show Followed q _ _ (reading (t :: (ts ++ q))).element
      rw [Cursor.element.eq_1 t ts, Cursor.element.eq_1 t (ts ++ q)]
      split
      next => exact (followed_element (reading ts)).atMost.map
      next => exact (followed_element (reading ts)).atMost.map
      next => exact (followed_element (reading ts)).atMost.map
      next => exact (followed_element (reading ts)).atMost.map
      next => exact (followed_element (reading ts)).atMost.map
      next => exact (followed_element (reading ts)).atMost.map
      next => exact (followed_sizeofOperand t (reading ts)).atMost
      next => exact .here _ (reading ts)
      next =>
        have hinner := followed_expression (reading ts)
        have hle := (reading ts).expression.le
        have hle₁ := (reading ts).residue_le_size
        have hclosing := (ended_expect (q := q) (reading ts).expression.next (.punct .rparen)
          .groupEnd).followed
        have hle₂ := ((reading ts).expression.next.expect (.punct .rparen) .groupEnd).le
        have hle₃ := (reading ts).expression.next.residue_le_size
        have hrest := followed_accesses
          (.group t (reading ts).expression.tree
            ((reading ts).expression.next.expect (.punct .rparen) .groupEnd).tree)
          ((reading ts).expression.next.expect (.punct .rparen) .groupEnd).next
        -- the path begins with the group, so the group has no hole if the path has none
        have hgroup := fun hclear => Trace.andThen_eq_clear.1 (clear_of_accesses
          (.group t (reading ts).expression.tree
            ((reading ts).expression.next.expect (.punct .rparen) .groupEnd).tree)
          ((reading ts).expression.next.expect (.punct .rparen) .groupEnd).next hclear)
        exact hinner.atMost.onto (fun hclear => (hgroup hclear).1)
          (hclosing.atMost.onto (fun hclear => (hgroup hclear).2) hrest)
      next =>
        rw [Cursor.take?_append hpos]
        cases htake : (reading ts).take? (· == .punct .lparen) with
        | some taken =>
            have hlt := taken.lt
            exact .within (followed_call t taken.token taken.next).atMost
        | none =>
            have hpath := followed_accesses (.var t) (reading ts)
            -- steps behind the path add no hole to it
            refine hpath.onto (fun hclear => ?_) (followed_takeWhile _ _).map
            exact (trace_stepped _ _).symm.trans hclear
      next =>
        rw [Cursor.take?_append hpos]
        cases htake : (reading ts).take? (· == .punct .lparen) with
        | some taken =>
            have hlt := taken.lt
            exact .within (followed_call t taken.token taken.next).atMost
        | none => exact .stopped
      -- with any other kind there is no element in either text
      next hstar hamp hbang hminus hplusPlus hminusMinus hsizeof hliteral hlparen hident hmain =>
        generalize t.kind = kind at *
        cases kind with
        | literal class_ => exact (hliteral class_ rfl).elim
        | keyword k => cases k <;> first | contradiction | exact .stopped
        | operator o => cases o <;> first | contradiction | exact .stopped
        | punct m => cases m <;> first | contradiction | exact .stopped
        | _ => first | contradiction | exact .stopped
  | reading [] =>
      rw [Cursor.element]
      · exact .stopped
      · exact fun _ _ hc => nomatch hc
  | broken hole after =>
      rw [Cursor.element]
      · exact .stopped
      · exact fun _ _ hc => nomatch hc
termination_by 16 * c.size

end

end MiniC
