import MiniC.Analysis
import MiniC.Proofs.Reading.Stmt

/-!
# `MiniC.Proofs.Reading.Progress` — reading always ends, in front of the end-of-file mark

Every procedure of the grammar follows a plan, so what is true of all plans is true of all
procedures: none goes back, and one that breaks skips a token.  Most cannot be empty: from a token
they go on, whatever it is.  The parts that a loop repeats are among these.

## Contents
- `Procedure`: the procedures of the grammar, with `next` and `plan`.
- `Procedure.follows`: each follows its plan.
- `Plan.rounds`: the parts that the loops of a plan repeat.
- `position_analyze`: **an analysis reads up to the first end-of-file mark.**
-/

namespace MiniC

open Cursor (reading broken)

/-! ## Procedures -/

/-- The procedures of the grammar. -/
inductive Procedure
  -- Declarations
  | qualifiers | stars | typeSpec | arraySuffix | initializer | declarator | declaration
  | field | fields | structDecl | paramArray | param | params | header
  -- Expressions
  | expression | operation (tier : Tier) | operand (tier : Tier)
  | operations (tier : Tier) (left : Expr) | factor | subscript (base : Expr) (opening : Token)
  | accesses (base : Expr) | call (name opening : Token) | trail | sizeofOperand (keyword : Token)
  | element
  -- Statements
  | place | writing (target : Place) | assignment | condition (ruled : Ruled) | forInit
  | expressionUnless (mark : Kind) | assignmentUnless (mark : Kind) | exit (keyword : Token)
  | printf (name : Token) | scanf (name : Token) | callStatement (name opening : Token)
  | assignmentStatement | statement | declared | function | block | statements | clauses
  -- Programs
  | item | items

namespace Procedure

/-- Where a procedure leaves the cursor. -/
def next (c : Cursor) : Procedure → Cursor
  | qualifiers => c.qualifiers.next
  | stars => c.stars.next
  | typeSpec => c.typeSpec.next
  | arraySuffix => c.arraySuffix.next
  | initializer => c.initializer.next
  | declarator => c.declarator.next
  | declaration => c.declaration.next
  | field => c.field.next
  | fields => c.fields.next
  | structDecl => (c.structDecl?.map (·.next)).getD c
  | paramArray => c.paramArray.next
  | param => c.param.next
  | params => c.params.next
  | header => c.header.next
  | expression => c.expression.next
  | operation tier => (c.operation tier).next
  | operand tier => (c.operand tier).next
  | operations tier left => (c.operations tier left).next
  | factor => c.factor.next
  | subscript base opening => (c.subscript base opening).next
  | accesses base => (c.accesses base).next
  | call name opening => (c.call name opening).next
  | trail => c.trail.next
  | sizeofOperand keyword => (c.sizeofOperand keyword).next
  | element => c.element.next
  | place => c.place.next
  | writing target => (c.writing target).next
  | assignment => c.assignment.next
  | condition ruled => (c.condition ruled).next
  | forInit => c.forInit.next
  | expressionUnless mark => (c.expressionUnless mark).next
  | assignmentUnless mark => (c.assignmentUnless mark).next
  | exit keyword => (c.exit keyword).next
  | printf name => (c.printf name).next
  | scanf name => (c.scanf name).next
  | callStatement name opening => (c.callStatement name opening).next
  | assignmentStatement => c.assignmentStatement.next
  | statement => c.statement.next
  | declared => c.declared.next
  | function => c.function.next
  | block => c.block.next
  | statements => c.statements.next
  | clauses => c.clauses.next
  | item => c.item.next
  | items => c.items.next

open Plan in
/-- The plan that a procedure follows. -/
def plan : Procedure → Plan
  | qualifiers => run Kind.isQualifier
  | stars => run (· == .operator .star)
  | typeSpec => rule .typeSpec
  | arraySuffix => rule .arrayOpt
  | initializer => Plan.initializer
  | declarator => rule .declarator
  | declaration => rule .declaration
  | field => rule .field
  | fields => recover (sees Kind.startsDeclaration) (rule .field)
  | structDecl => opt seesStruct (rule .structDecl)
  | paramArray => Plan.paramArray
  | param => rule .param
  | params => opt (seesNo (.punct .rparen)) (rule .params)
  | header => Plan.header empty
  | expression => rule .expression
  | operation tier => rule (.operation tier)
  | operand tier => Plan.operand tier
  | operations tier _ => further (Plan.operand tier) tier.has
  | factor => rule .factor
  | subscript _ _ => seq (rule .expression) (mark .rbracket)
  | accesses _ => Plan.accesses
  | call _ _ => callEnd
  | trail => further (rule .expression) (· == .punct .comma)
  | sizeofOperand _ => Plan.sizeofOperand
  | element => rule .element
  | place => rule .lvalue
  | writing _ => Plan.writing
  | assignment => rule .assignment
  | condition _ => Plan.condition empty
  | forInit => Plan.forInit
  | expressionUnless mark => opt (seesNo mark) (rule .expression)
  | assignmentUnless mark => opt (seesNo mark) (rule .assignment)
  | exit _ => seq (opt (seesNo (.punct .semicolon)) (rule .expression)) (mark .semicolon)
  | printf _ =>
      seq (mark .lparen) <| seq (commaList (rule .expression)) <|
        seq (mark .rparen) (mark .semicolon)
  | scanf _ =>
      seq (mark .lparen) <| seq (literal .string) <|
        seq (further (rule .expression) (· == .punct .comma)) <|
        seq (mark .rparen) (mark .semicolon)
  | callStatement _ _ => seq callEnd (mark .semicolon)
  | assignmentStatement => seq (rule .assignment) (mark .semicolon)
  | statement => rule .statement
  | declared =>
      select (rule .declaration)
        [(seesStruct, rule .structDecl), (seesFunction, rule .functionDecl)]
  | function => rule .functionDecl
  | block => rule .block
  | statements => recover (sees (· != .punct .rbrace)) (rule .statement)
  | clauses => recover (sees (· != .punct .rbrace)) clause
  | item => Plan.item
  | items => rule .program

/-- **Every procedure follows its plan.** -/
theorem follows (q : Procedure) (c : Cursor) : ∃ hs, Follows q.plan c (q.next c) hs := by
  cases q with
  | qualifiers => exact ⟨_, (tracks_takeWhile c _).1⟩
  | stars => exact ⟨_, (tracks_takeWhile c _).1⟩
  | typeSpec => exact ⟨_, (tracks_typeSpec c).1⟩
  | arraySuffix => exact ⟨_, (tracks_arraySuffix c).1⟩
  | initializer => exact ⟨_, (tracks_initializer c).1⟩
  | declarator => exact ⟨_, (tracks_declarator c).1⟩
  | declaration => exact ⟨_, (tracks_declaration c).1⟩
  | field => exact ⟨_, (tracks_field c).1⟩
  | fields => exact ⟨_, (tracks_fields c).1⟩
  | structDecl =>
      cases c with
      | broken hole after => exact ⟨[], .idle⟩
      | reading ts =>
          cases h : (reading ts).structDecl? with
          | some definition =>
              obtain ⟨hsees, hdefinition⟩ := tracks_structDecl h
              have hnext : next (reading ts) structDecl = definition.next := by rw [next, h]; rfl
              rw [hnext]
              exact ⟨_, .first hsees hdefinition.1⟩
          | none =>
              have hnext : next (reading ts) structDecl = reading ts := by rw [next, h]; rfl
              rw [hnext]
              exact ⟨[], .second (not_seesStruct h) .empty⟩
  | paramArray => exact ⟨_, (tracks_paramArray c).1⟩
  | param => exact ⟨_, (tracks_param c).1⟩
  | params => exact ⟨_, (tracks_params c).1⟩
  | header => exact ⟨_, (tracks_header .skip).1⟩
  | expression => exact ⟨_, (tracks_expression c).1⟩
  | operation tier => exact ⟨_, (tracks_operation tier c).1⟩
  | operand tier => exact ⟨_, (tracks_operand tier c).1⟩
  | operations tier left =>
      obtain ⟨_, h, -⟩ := tracks_operations tier left c
      exact ⟨_, h.1⟩
  | factor => exact ⟨_, (tracks_factor c).1⟩
  | subscript base opening =>
      obtain ⟨_, h, -⟩ := tracks_subscript base opening c
      exact ⟨_, h.1⟩
  | accesses base =>
      obtain ⟨_, h, -⟩ := tracks_accesses base c
      exact ⟨_, h.1⟩
  | call name opening => exact ⟨_, (tracks_call name opening c).1⟩
  | trail => exact ⟨_, (tracks_trail c).1⟩
  | sizeofOperand keyword => exact ⟨_, (tracks_sizeofOperand keyword c).1⟩
  | element => exact ⟨_, (tracks_element c).1⟩
  | place => exact ⟨_, (tracks_place c).1⟩
  | writing target =>
      obtain ⟨_, h, -⟩ := tracks_writing target c
      exact ⟨_, h.1⟩
  | assignment => exact ⟨_, (tracks_assignment c).1⟩
  | condition ruled => exact ⟨_, (tracks_condition .skip).1⟩
  | forInit => exact ⟨_, (tracks_forInit c).1⟩
  | expressionUnless mark => exact ⟨_, (tracks_expressionUnless c mark).1⟩
  | assignmentUnless mark => exact ⟨_, (tracks_assignmentUnless c mark).1⟩
  | exit keyword => exact ⟨_, (tracks_exit keyword c).1⟩
  | printf name => exact ⟨_, (tracks_printf name c).1⟩
  | scanf name => exact ⟨_, (tracks_scanf name c).1⟩
  | callStatement name opening => exact ⟨_, (tracks_callStatement name opening c).1⟩
  | assignmentStatement => exact ⟨_, (tracks_assignmentStatement c).1⟩
  | statement => exact ⟨_, (tracks_statement c).1⟩
  | declared => exact ⟨_, (tracks_function_or_declaration c).1⟩
  | function => exact ⟨_, (tracks_function c).1⟩
  | block => exact ⟨_, (tracks_block c).1⟩
  | statements => exact ⟨_, (tracks_statements c).1⟩
  | clauses => exact ⟨_, (tracks_clauses c).1⟩
  | item => exact ⟨_, (tracks_item c).1⟩
  | items => exact ⟨_, (tracks_items c).1⟩

end Procedure

/-! ## Loops -/

/-- The parts that the loops of a plan repeat. -/
def Plan.rounds : Plan → List Plan
  | seq first second => first.rounds ++ second.rounds
  | choice _ first second => first.rounds ++ second.rounds
  | many _ part => part :: part.rounds
  | recover _ part => part :: part.rounds
  | barring _ part => part.rounds
  | _ => []

theorem solid_of_mem_rounds (n : Rule) : ∀ part ∈ n.plan.rounds, part.solid = true := by
  have hall : n.plan.rounds.all Plan.solid = true := by
    cases n with
    | operation tier => cases tier <;> rfl
    | _ => rfl
  exact List.all_eq_true.1 hall

/-- Every round of a loop takes a token, or breaks and skips one. -/
theorem size_round_le {n : Rule} {part : Plan} (hpart : part ∈ n.plan.rounds) {ts : List Token}
    {c' : Cursor} {hs : List Hole} (h : Follows part (reading ts) c' hs) :
    c'.mend.size ≤ ts.length - 1 :=
  h.size_le_residue (solid_of_mem_rounds n part hpart)

/-! ## The end of reading -/

/-- A program is read to the end. -/
theorem next_items (ts : List Token) : (reading ts).items.next = reading [] := by
  have h := (tracks_items (reading ts)).1
  cases h with
  | rule h =>
      obtain ⟨us, hus, hend⟩ := h.recover_ends
      rw [hus]
      cases us with
      | nil => rfl
      | cons u us => cases hend

/-- An analysis of finished tokens reads all that stands in front of an end-of-file mark. -/
theorem position_eq_length (tokens : List Token) :
    (TokenStream.ofTokens tokens).analyze.position = (TokenStream.ofTokens tokens).body.length := by
  show 0 + ((TokenStream.ofTokens tokens).body.length - _) = _
  rw [next_items, Nat.zero_add]
  rfl

theorem length_takeWhile_not (p : Token → Bool) (ts : List Token) :
    (ts.takeWhile (!p ·)).length = ts.findIdx p := by
  induction ts with
  | nil => rfl
  | cons t ts ih =>
      rw [List.takeWhile_cons, List.findIdx_cons]
      cases p t with
      | true => rfl
      | false => simpa using ih

/-- **An analysis reads up to the first end-of-file mark,** or to the end if there is none.
No procedure is ever handed such a mark, none goes back, and one that breaks skips a token.  Those
that cannot be empty go on from every token, and so does every round of every loop. -/
theorem position_analyze (tokens : List Token) :
    (TokenStream.ofTokens tokens).analyze.position = tokens.findIdx Token.isEof ∧
      (∀ t ∈ (TokenStream.ofTokens tokens).body, t.isEof = false) ∧
      (∀ (q : Procedure) (c : Cursor), (q.next c).unread <:+ c.unread ∧
        ∀ t ts, c = reading (t :: ts) → q.plan.solid = true ∨ (q.next c).hole? ≠ none →
          (q.next c).size ≤ ts.length) ∧
      ∀ (n : Rule) (part : Plan), part ∈ n.plan.rounds → ∀ t ts c' hs,
        Follows part (reading (t :: ts)) c' hs → c'.mend.size ≤ ts.length := by
  refine ⟨?_, ?_, ?_, ?_⟩
  · rw [position_eq_length]
    exact length_takeWhile_not Token.isEof tokens
  · intro t ht
    simpa using List.all_eq_true.1 List.all_takeWhile t ht
  · intro q c
    obtain ⟨hs, h⟩ := q.follows c
    refine ⟨h.unread_suffix, ?_⟩
    rintro t ts rfl (hsolid | hbroken)
    · exact h.size_le_residue hsolid
    · have hresidue := h.residue_le
      cases hnext : q.next (reading (t :: ts)) with
      | reading us => exact absurd (congrArg Cursor.hole? hnext) hbroken
      | broken hole after =>
          rw [hnext] at hresidue
          exact hresidue
  · intro n part hpart t ts c' hs h
    exact size_round_le hpart h

end MiniC
