import MiniC.Proofs.Expression.Readable
import MiniC.Proofs.Grammar.Complete
import MiniC.Proofs.Reading.Text

/-!
# `MiniC.Proofs.Expression.Derived` — the trees of the grammar are what it derives

The grammar is given twice: as rules that derive lists of tokens, and as the trees that a reader
builds.  Here the two are brought together through the reader.  A reader that leaves no hole has
built a tree of the grammar, since what it takes is of the kinds that the form of the tree asks
for, and each reader's tree binds tightly enough for the reader that called it.  And a list that
the rules derive is read without a hole, to its end.

## Contents
- `Cursor.whole_element`, `level_factor`, `level_operand`, `level_operation`: how tightly what is
  read binds, whether it has holes or not.
- `Expr.Sound`, and `sound_expression` with the rules it needs, in one recursion.
- `derives_expression_iff`: **the rules derive the tokens of the trees, and nothing else.**
- `Expr.eq_of_tokens_eq`: **a list of tokens has at most one tree.**
-/

namespace MiniC

open Cursor (reading broken)

/-! ## How tightly what is read binds -/

namespace Cursor

/-- What subscripts and member accesses keep of their base, all of them together keep. -/
theorem accesses_keeps {p : Expr → Prop}
    (hindex : ∀ {base opening subscript closing}, p base →
      p (.index base opening subscript closing))
    (hmember : ∀ {base access operator field}, p base → p (.member base access operator field))
    {base : Expr} (h : p base) (c : Cursor) : p (c.accesses base).tree := by
  rw [accesses]
  split
  next taken hsome =>
    have hlt := taken.lt
    have hle : (taken.next.subscript base taken.token).next.size ≤ taken.next.size :=
      (taken.next.subscript base taken.token).atMost.le
    have hbase : p (taken.next.subscript base taken.token).tree := by
      rw [subscript]
      exact hindex h
    exact accesses_keeps hindex hmember hbase (taken.next.subscript base taken.token).next
  next =>
    split
    next => exact h
    next taken hsome =>
      have hlt := taken.lt
      have hle : (taken.next.identifier .memberName).next.size ≤ taken.next.size :=
        (taken.next.identifier .memberName).atMost.le
      exact accesses_keeps hindex hmember (hmember h) (taken.next.identifier .memberName).next
termination_by c.size

/-- A chain takes every subscript. -/
theorem accesses_ends (base : Expr) (c : Cursor) :
    (c.accesses base).next.take? (· == .punct .lbracket) = none := by
  rw [accesses]
  cases hbracket : c.take? (· == .punct .lbracket) with
  | some taken =>
      have hlt := taken.lt
      have hle : (taken.next.subscript base taken.token).next.size ≤ taken.next.size :=
        (taken.next.subscript base taken.token).atMost.le
      exact accesses_ends _ (taken.next.subscript base taken.token).next
  | none =>
      simp only
      split
      next => exact hbracket
      next taken hsome =>
        have hlt := taken.lt
        have hle : (taken.next.identifier .memberName).next.size ≤ taken.next.size :=
          (taken.next.identifier .memberName).atMost.le
        exact accesses_ends _ (taken.next.identifier .memberName).next
termination_by c.size

/-- A run is of the tokens that it was asked for. -/
theorem forall_mem_takeWhile (c : Cursor) (p : Kind → Bool) :
    ∀ t ∈ (c.takeWhile p).tokens, p t.kind = true := by
  cases c with
  | broken hole after => exact fun t ht => by cases ht
  | reading ts => exact List.all_eq_true.1 List.all_takeWhile

/-- A run without tokens leaves the cursor where it was. -/
theorem takeWhile_of_nil {c : Cursor} {p : Kind → Bool} (h : (c.takeWhile p).tokens = []) :
    (c.takeWhile p).next = c := by
  cases c with
  | broken hole after => rfl
  | reading ts =>
      have hsplit := List.takeWhile_append_dropWhile (p := fun t : Token => p t.kind) (l := ts)
      rw [show ts.takeWhile (fun t => p t.kind) = [] from h] at hsplit
      exact congrArg reading hsplit

end Cursor

theorem Expr.level_stepped {path : Expr} (h : path.level = 0) (steps : List Token) :
    (steps.foldl stepped path).level = 0 := by
  induction steps generalizing path with
  | nil => exact h
  | cons step steps ih => exact ih rfl

/-- A step closes the chain in front of it. -/
theorem Expr.endsInPath_stepped {path : Expr} (h : path.endsInPath = false)
    (steps : List Token) : (steps.foldl stepped path).endsInPath = false := by
  induction steps generalizing path with
  | nil => exact h
  | cons step steps ih => exact ih rfl

namespace Cursor

/-- Whether an expression binds tightest, with no subscript behind it that a chain at its end
would take. -/
def Whole {n : Nat} (r : Parsed Expr n) : Prop :=
  r.tree.level = 0 ∧ (r.tree.endsInPath = true → r.next.take? (· == .punct .lbracket) = none)

theorem Whole.of_closed {n : Nat} {r : Parsed Expr n} (hlevel : r.tree.level = 0)
    (hends : r.tree.endsInPath = false) : Whole r :=
  ⟨hlevel, fun hpath => absurd (hends.symm.trans hpath) Bool.false_ne_true⟩

theorem Whole.andThen {α : Type} {n : Nat} {r : Parsed α n}
    {next : α → (c : Cursor) → c.size ≤ n → Parsed Expr c.size}
    (h : Whole (next r.tree r.next r.le)) : Whole (r.andThen next) := h

theorem whole_accesses {base : Expr} (h : base.isPath = true) (c : Cursor) :
    Whole (c.accesses base) :=
  ⟨Expr.level_of_isPath (accesses_keeps (p := fun e => e.isPath = true) id id h c),
    fun _ => accesses_ends base c⟩

/-- If there are steps, the chain in front of them is closed, and if there are none, it still has
all subscripts. -/
theorem whole_steps {c : Cursor} {path : Expr} (hlevel : path.level = 0)
    (hends : c.take? (· == .punct .lbracket) = none) :
    Whole ((c.takeWhile Kind.isStep).parsed.map (·.foldl Expr.stepped path)) := by
  refine ⟨Expr.level_stepped hlevel _, fun hpath => ?_⟩
  cases hsteps : (c.takeWhile Kind.isStep).tokens with
  | nil =>
      show (c.takeWhile Kind.isStep).next.take? _ = none
      rw [takeWhile_of_nil hsteps]
      exact hends
  | cons step steps =>
      have hclosed : (steps.foldl Expr.stepped (.stepped path step)).endsInPath = false :=
        Expr.endsInPath_stepped rfl steps
      rw [← List.foldl_cons, ← hsteps] at hclosed
      exact absurd (hclosed.symm.trans hpath) Bool.false_ne_true

theorem whole_call (name opening : Token) (c : Cursor) : Whole (c.call name opening) := by
  rw [call]
  split
  next => exact .of_closed rfl rfl
  next => exact .of_closed rfl rfl

theorem whole_sizeofOperand (keyword : Token) (c : Cursor) :
    Whole (c.sizeofOperand keyword) := by
  rw [sizeofOperand]
  refine .andThen ?_
  split
  next => exact .of_closed rfl rfl
  next => exact .of_closed rfl rfl

/-- What is read as an element is whole. -/
theorem whole_element (c : Cursor) : Whole c.element := by
  cases c with
  | broken hole after =>
      rw [element]
      · exact .of_closed rfl rfl
      · exact fun _ _ hc => by cases hc
  | reading ts =>
      cases ts with
      | nil =>
          rw [element]
          · exact .of_closed rfl rfl
          · exact fun _ _ hc => by cases hc
      | cons t ts =>
          have hsize := size_reading ts
          refine element_cases (p := Whole)
            ?deref ?address ?unary ?sizeof ?literal ?group ?call ?path ?missing
          case deref => exact fun _ => ⟨rfl, (whole_element (reading ts)).2⟩
          case address => exact fun _ => ⟨rfl, (whole_element (reading ts)).2⟩
          case unary => exact fun _ => ⟨rfl, (whole_element (reading ts)).2⟩
          case sizeof => exact fun _ => whole_sizeofOperand t (reading ts)
          case literal => exact fun _ _ => .of_closed rfl rfl
          case group => exact fun _ => .andThen (.andThen (whole_accesses rfl _))
          case call => exact fun _ taken _ => whole_call t taken.token taken.next
          case path =>
            intro _
            have hpath : Whole ((reading ts).accesses (.var t)) := whole_accesses rfl _
            exact .andThen (whole_steps hpath.1 (accesses_ends _ _))
          case missing => exact .of_closed rfl rfl
termination_by c.size

/-- A factor is an element, or one with a subscript behind it. -/
theorem level_factor (c : Cursor) : c.factor.tree.level ≤ 1 := by
  rw [factor]
  simp only [Parsed.tree_andThen]
  split
  next => exact Nat.le_trans (Nat.le_of_eq (whole_element c).1) (Nat.zero_le 1)
  next taken hsome =>
    simp only [Taken.andThen, Taken.within, Parsed.tree_weaken, Parsed.tree_atMost]
    rw [subscript]
    simp only [Parsed.tree_andThen, Parsed.tree_map, Expr.level]
    split <;> decide

/-- Operators of a tier leave an operation of the tier. -/
theorem level_operations {tier : Tier} {left : Expr} (h : left.level ≤ tier.level) (c : Cursor) :
    (c.operations tier left).tree.level ≤ tier.level := by
  rw [operations]
  split
  next => exact h
  next taken hsome =>
    have hlt := taken.lt
    have hle : (taken.next.operand tier).next.size ≤ taken.next.size :=
      (taken.next.operand tier).atMost.le
    have hbinary : (Expr.binary tier left taken.token (taken.next.operand tier).tree).level ≤
        tier.level := Nat.le_refl _
    exact level_operations hbinary (taken.next.operand tier).next
termination_by c.size

/-- An operand of a tier binds tighter than its operators. -/
theorem level_operand (tier : Tier) (c : Cursor) : (c.operand tier).tree.level < tier.level := by
  have hoperation : ∀ tighter : Tier, tighter.level < tier.level →
      (c.operand tighter).tree.level < tighter.level →
        (c.operation tighter).tree.level < tier.level := by
    intro tighter hlt hoperand
    rw [operation]
    exact Nat.lt_of_le_of_lt (level_operations (Nat.le_of_lt hoperand) _) hlt
  cases tier with
  | logical =>
      rw [operand]
      exact hoperation .relational (by decide) (level_operand .relational c)
  | relational =>
      rw [operand]
      exact hoperation .additive (by decide) (level_operand .additive c)
  | additive =>
      rw [operand]
      exact hoperation .multiplicative (by decide) (level_operand .multiplicative c)
  | multiplicative =>
      rw [operand]
      exact Nat.lt_succ_of_le (level_factor c)
termination_by tier.rank

/-- An operation of a tier binds at least as tightly as its operators. -/
theorem level_operation (tier : Tier) (c : Cursor) :
    (c.operation tier).tree.level ≤ tier.level := by
  rw [operation]
  exact level_operations (Nat.le_of_lt (level_operand tier c)) _

end Cursor

/-! ## What is read is of the kinds that the grammar asks for -/

/-- A tree that has a hole or is one of the grammar. -/
def Expr.Sound (e : Expr) : Prop := e.trace = .clear → e.Grammatical

/-- The same for arguments. -/
def Trail.Sound (others : Trail) : Prop := others.trace = .clear → others.Grammatical

theorem Slot.holds_expect {c : Cursor} {kind : Kind} {site : Site}
    (h : (c.expect kind site).tree.trace = .clear) : (c.expect kind site).tree.Holds kind := by
  cases c with
  | broken hole after => cases congrArg Trace.stop h
  | reading ts =>
      cases ts with
      | nil => cases congrArg Trace.stop h
      | cons t ts =>
          simp only [Cursor.expect, Cursor.demand] at h ⊢
          by_cases hkind : (t.kind == kind) = true
          · rw [if_pos hkind]
            exact ⟨t, rfl, eq_of_beq hkind⟩
          · rw [if_neg hkind] at h
            cases congrArg Trace.stop h

theorem TypeSpec.grammatical_typeSpec {c : Cursor} (h : c.typeSpec.tree.trace = .clear) :
    c.typeSpec.tree.Grammatical := by
  cases c with
  | broken hole after => cases congrArg Trace.stop h
  | reading ts =>
      cases ts with
      | nil => cases congrArg Trace.stop h
      | cons t ts =>
          simp only [Cursor.typeSpec] at h ⊢
          by_cases hstruct : (t.kind == .keyword .kwStruct) = true
          · rw [if_pos hstruct] at h ⊢
            exact ⟨eq_of_beq hstruct, Slot.holds_expect h⟩
          · rw [if_neg hstruct] at h ⊢
            by_cases hword : t.kind.isTypeWord = true
            · rw [if_pos hword]
              exact ⟨hword, List.all_eq_true.1 List.all_takeWhile⟩
            · rw [if_neg hword] at h
              cases congrArg Trace.stop h

theorem Expr.takesStep_of_isRooted {e : Expr} (h : e.isRooted = true) : e.takesStep = true := by
  cases e with
  | stepped operand operator => rfl
  | _ => exact h

/-- Steps behind a variable with its chain make a tree of the grammar. -/
theorem Expr.grammatical_stepped {path : Expr} (htakes : path.takesStep = true)
    (hpath : path.Grammatical) {steps : List Token} (hsteps : ∀ t ∈ steps, t.kind.isStep = true) :
    (steps.foldl stepped path).Grammatical := by
  induction steps generalizing path with
  | nil => exact hpath
  | cons step steps ih =>
      obtain ⟨hstep, hsteps⟩ := List.forall_mem_cons.1 hsteps
      exact ih rfl ⟨hstep, htakes, hpath⟩ hsteps

mutual

/-- An expression that is read without a hole is a tree of the grammar. -/
theorem sound_expression (c : Cursor) : c.expression.tree.Sound := by
  have hle := c.residue_le_size
  have hcondition := sound_operation .logical c
  have hlevel := Cursor.level_operation .logical c
  have hle₁ := (c.operation .logical).le
  rw [Cursor.expression]
  simp only [Parsed.tree_andThen]
  split
  next => exact hcondition
  next taken hsome =>
    have hlt := taken.lt
    obtain ⟨-, -, hquestion, -⟩ := Cursor.take?_eq_some hsome
    have hfirst := sound_expression taken.next
    have hle₂ := taken.next.expression.le
    have hle₃ := taken.next.residue_le_size
    have hle₄ := (taken.next.expression.next.expect (.punct .colon) .ternaryColon).le
    have hle₅ := taken.next.expression.next.residue_le_size
    have hsecond :=
      sound_expression (taken.next.expression.next.expect (.punct .colon) .ternaryColon).next
    intro hclear
    obtain ⟨h₁, hclear⟩ := Trace.andThen_eq_clear.1 hclear
    obtain ⟨h₂, hclear⟩ := Trace.andThen_eq_clear.1 hclear
    obtain ⟨h₃, h₄⟩ := Trace.andThen_eq_clear.1 hclear
    exact ⟨Nat.lt_succ_of_le hlevel, hcondition h₁, eq_of_beq hquestion, hfirst h₂,
      Slot.holds_expect h₃, hsecond h₄⟩
termination_by 16 * c.size + 10

theorem sound_operation (tier : Tier) (c : Cursor) : (c.operation tier).tree.Sound := by
  have hle := c.residue_le_size
  have hfirst := sound_operand tier c
  have hlevel := Cursor.level_operand tier c
  have hle₁ := (c.operand tier).le
  rw [Cursor.operation]
  exact sound_operations hfirst (Nat.le_of_lt hlevel) (c.operand tier).next
termination_by 16 * c.size + 2 * tier.rank + 3

theorem sound_operand (tier : Tier) (c : Cursor) : (c.operand tier).tree.Sound := by
  cases tier with
  | logical =>
      rw [Cursor.operand]
      exact sound_operation .relational c
  | relational =>
      rw [Cursor.operand]
      exact sound_operation .additive c
  | additive =>
      rw [Cursor.operand]
      exact sound_operation .multiplicative c
  | multiplicative =>
      rw [Cursor.operand]
      exact sound_factor c
termination_by 16 * c.size + 2 * tier.rank + 2

theorem sound_operations {tier : Tier} {left : Expr} (hleft : left.Sound)
    (hlevel : left.level ≤ tier.level) (c : Cursor) : (c.operations tier left).tree.Sound := by
  rw [Cursor.operations]
  split
  next => exact hleft
  next taken hsome =>
    have hrank := tier.rank_le
    have hlt := taken.lt
    have hle := taken.next.residue_le_size
    obtain ⟨-, -, hoperator, -⟩ := Cursor.take?_eq_some hsome
    have hright := sound_operand tier taken.next
    have htight := Cursor.level_operand tier taken.next
    have hle₁ := (taken.next.operand tier).le
    have hbinary : (Expr.binary tier left taken.token (taken.next.operand tier).tree).Sound := by
      intro hclear
      obtain ⟨h₁, h₂⟩ := Trace.andThen_eq_clear.1 hclear
      exact ⟨hlevel, hleft h₁, hoperator, htight, hright h₂⟩
    exact sound_operations hbinary (Nat.le_refl _) (taken.next.operand tier).next
termination_by 16 * c.size + 2

theorem sound_factor (c : Cursor) : c.factor.tree.Sound := by
  have hle := c.residue_le_size
  have hbase := sound_element c
  have hwhole := Cursor.whole_element c
  have hle₁ := c.element.le
  rw [Cursor.factor]
  simp only [Parsed.tree_andThen]
  split
  next => exact hbase
  next taken hsome =>
    have hlt := taken.lt
    obtain ⟨-, -, hopening, -⟩ := Cursor.take?_eq_some hsome
    -- A subscript that a chain would take is not left here.
    have hends : c.element.tree.endsInPath = false := by
      refine eq_false_of_ne_true fun hpath => ?_
      cases hsome.symm.trans (hwhole.2 hpath)
    exact sound_subscript hbase (.inr ⟨hwhole.1, hends⟩) (eq_of_beq hopening) taken.next
termination_by 16 * c.size + 1

theorem sound_subscript {base : Expr} {opening : Token} (hbase : base.Sound)
    (htakes : base.TakesSubscript) (hopening : opening.kind = .punct .lbracket) (c : Cursor) :
    (c.subscript base opening).tree.Sound := by
  have hindex := sound_expression c
  rw [Cursor.subscript]
  intro hclear
  obtain ⟨h₁, hclear⟩ := Trace.andThen_eq_clear.1 hclear
  obtain ⟨h₂, h₃⟩ := Trace.andThen_eq_clear.1 hclear
  exact ⟨htakes, hbase h₁, hopening, hindex h₂, Slot.holds_expect h₃⟩
termination_by 16 * c.size + 11

theorem sound_accesses {base : Expr} (hbase : base.Sound) (hpath : base.isPath = true)
    (c : Cursor) : (c.accesses base).tree.Sound := by
  rw [Cursor.accesses]
  split
  next taken hsome =>
    have hlt := taken.lt
    have hle := taken.next.residue_le_size
    obtain ⟨-, -, hopening, -⟩ := Cursor.take?_eq_some hsome
    have hsubscript := sound_subscript hbase (.inl hpath) (eq_of_beq hopening) taken.next
    have hle₁ := (taken.next.subscript base taken.token).le
    have hsubscriptPath : (taken.next.subscript base taken.token).tree.isPath = true := by
      rw [Cursor.subscript]
      exact hpath
    exact sound_accesses hsubscript hsubscriptPath (taken.next.subscript base taken.token).next
  next =>
    split
    next => exact hbase
    next taken hsome =>
      have hlt := taken.lt
      have hle := taken.next.residue_le_size
      obtain ⟨-, -, hoperator, -⟩ := Cursor.take?_eq_some hsome
      obtain ⟨access, haccess⟩ := Option.isSome_iff_exists.1 hoperator
      have hle₁ := (taken.next.identifier .memberName).le
      have hmember : (Expr.member base (taken.token.kind.access?.getD .direct) taken.token
          (taken.next.identifier .memberName).tree).Sound := by
        intro hclear
        obtain ⟨h₁, h₂⟩ := Trace.andThen_eq_clear.1 hclear
        exact ⟨hpath, hbase h₁, by rw [haccess]; rfl, Slot.holds_expect h₂⟩
      exact sound_accesses hmember hpath (taken.next.identifier .memberName).next
termination_by 16 * c.size + 12

theorem sound_call {name opening : Token}
    (hname : name.kind = .ident ∨ name.kind = .keyword .kwMain)
    (hopening : opening.kind = .punct .lparen) (c : Cursor) :
    (c.call name opening).tree.Sound := by
  rw [Cursor.call]
  by_cases hempty : c.sees (· == .punct .rparen) = true
  · rw [if_pos hempty]
    exact fun hclear => ⟨hname, hopening, Slot.holds_expect hclear⟩
  · rw [if_neg hempty]
    have hle := c.residue_le_size
    have hfirst := sound_expression c
    have hle₁ := c.expression.le
    have hothers := sound_trail c.expression.next
    intro hclear
    obtain ⟨h₁, hclear⟩ := Trace.andThen_eq_clear.1 hclear
    obtain ⟨h₂, h₃⟩ := Trace.andThen_eq_clear.1 hclear
    exact ⟨hname, hopening, hfirst h₁, hothers h₂, Slot.holds_expect h₃⟩
termination_by 16 * c.size + 12

theorem sound_trail (c : Cursor) : c.trail.tree.Sound := by
  rw [Cursor.trail]
  split
  next => exact fun _ => trivial
  next taken hsome =>
    have hlt := taken.lt
    have hle := taken.next.residue_le_size
    obtain ⟨-, -, hcomma, -⟩ := Cursor.take?_eq_some hsome
    have hargument := sound_expression taken.next
    have hle₁ := taken.next.expression.le
    have hrest := sound_trail taken.next.expression.next
    intro hclear
    obtain ⟨h₁, h₂⟩ := Trace.andThen_eq_clear.1 hclear
    exact ⟨eq_of_beq hcomma, hargument h₁, hrest h₂⟩
termination_by 16 * c.size + 11

theorem sound_sizeofOperand {keyword : Token} (hkeyword : keyword.kind = .keyword .kwSizeof)
    (c : Cursor) : (c.sizeofOperand keyword).tree.Sound := by
  have hle := c.residue_le_size
  have hle₁ := (c.expect (.punct .lparen) .sizeofStart).le
  have hopening : (c.expect (.punct .lparen) .sizeofStart).tree.trace = .clear →
      (c.expect (.punct .lparen) .sizeofStart).tree.Holds (.punct .lparen) := Slot.holds_expect
  rw [Cursor.sizeofOperand]
  simp only [Parsed.tree_andThen]
  generalize (c.expect (.punct .lparen) .sizeofStart).next = c₁ at *
  generalize (c.expect (.punct .lparen) .sizeofStart).tree = opening at *
  by_cases hspec : c₁.sees Kind.startsTypeSpec = true
  · rw [if_pos hspec]
    intro hclear
    obtain ⟨h₁, hclear⟩ := Trace.andThen_eq_clear.1 hclear
    obtain ⟨h₂, h₃⟩ := Trace.andThen_eq_clear.1 hclear
    have hstars : ∀ star ∈ c₁.typeSpec.next.stars.tokens, star.kind = .operator .star :=
      fun star hstar => eq_of_beq (Cursor.forall_mem_takeWhile _ _ star hstar)
    exact ⟨hkeyword, hopening h₁, TypeSpec.grammatical_typeSpec h₂, hstars,
      Slot.holds_expect h₃⟩
  · rw [if_neg hspec]
    have hoperand := sound_expression c₁
    intro hclear
    obtain ⟨h₁, hclear⟩ := Trace.andThen_eq_clear.1 hclear
    obtain ⟨h₂, h₃⟩ := Trace.andThen_eq_clear.1 hclear
    exact ⟨hkeyword, hopening h₁, hoperand h₂, Slot.holds_expect h₃⟩
termination_by 16 * c.size + 12

theorem sound_element (c : Cursor) : c.element.tree.Sound := by
  match c with
  | reading (t :: ts) =>
      have hsize := Cursor.size_reading ts
      refine Cursor.element_cases (p := fun r => r.tree.Sound)
        ?deref ?address ?unary ?sizeof ?literal ?group ?call ?path ?missing
      case deref =>
        intro hstar hclear
        exact ⟨hstar, (Cursor.whole_element (reading ts)).1, sound_element (reading ts) hclear⟩
      case address =>
        intro hampersand hclear
        exact ⟨hampersand, (Cursor.whole_element (reading ts)).1,
          sound_element (reading ts) hclear⟩
      case unary =>
        intro hsign hclear
        exact ⟨hsign, (Cursor.whole_element (reading ts)).1, sound_element (reading ts) hclear⟩
      case sizeof => exact fun hkeyword => sound_sizeofOperand hkeyword (reading ts)
      case literal => exact fun class_ hkind _ => hkind
      case group =>
        intro hopening
        have hinner := sound_expression (reading ts)
        have hle := (reading ts).expression.le
        have hle₁ := (reading ts).residue_le_size
        have hle₂ := ((reading ts).expression.next.expect (.punct .rparen) .groupEnd).le
        have hle₃ := (reading ts).expression.next.residue_le_size
        have hgroup : (Expr.group t (reading ts).expression.tree
            ((reading ts).expression.next.expect (.punct .rparen) .groupEnd).tree).Sound := by
          intro hclear
          obtain ⟨h₁, h₂⟩ := Trace.andThen_eq_clear.1 hclear
          exact ⟨hopening, hinner h₁, Slot.holds_expect h₂⟩
        exact sound_accesses hgroup rfl
          ((reading ts).expression.next.expect (.punct .rparen) .groupEnd).next
      case call =>
        intro hname taken hsome
        have hlt := taken.lt
        obtain ⟨-, -, hopening, -⟩ := Cursor.take?_eq_some hsome
        exact sound_call hname (eq_of_beq hopening) taken.next
      case path =>
        intro hname
        have hvar : (Expr.var t).Sound := fun _ => hname
        have hpath := sound_accesses hvar rfl (reading ts)
        have hrooted : ((reading ts).accesses (.var t)).tree.isRooted = true :=
          Cursor.accesses_keeps (p := fun e => e.isRooted = true) id id rfl (reading ts)
        intro hclear
        have hclear : (((_ : List Token).foldl Expr.stepped _ : Expr)).trace = .clear := hclear
        rw [trace_stepped] at hclear
        exact Expr.grammatical_stepped (Expr.takesStep_of_isRooted hrooted) (hpath hclear)
          (Cursor.forall_mem_takeWhile _ _)
      case missing => exact fun hclear => by cases congrArg Trace.stop hclear
  | reading [] =>
      rw [Cursor.element]
      · exact fun hclear => by cases congrArg Trace.stop hclear
      · exact fun _ _ hc => nomatch hc
  | broken hole after =>
      rw [Cursor.element]
      · exact fun hclear => by cases congrArg Trace.stop hclear
      · exact fun _ _ hc => nomatch hc
termination_by 16 * c.size

end

/-! ## Trees and derivations -/

mutual

/-- A tree of the grammar has no hole. -/
theorem Expr.trace_of_grammatical : ∀ e : Expr, e.Grammatical → e.trace = .clear
  | .literal _ _, _ => rfl
  | .var _, _ => rfl
  | .emptyCall _ _ _, h => by
      obtain ⟨-, -, closing, rfl, -⟩ := h
      rfl
  | .call _ _ first others _, h => by
      obtain ⟨-, -, hfirst, hothers, closing, rfl, -⟩ := h
      rw [Expr.trace, first.trace_of_grammatical hfirst, others.trace_of_grammatical hothers]
      rfl
  | .deref _ operand, h => operand.trace_of_grammatical h.2.2
  | .address _ operand, h => operand.trace_of_grammatical h.2.2
  | .unary _ operand, h => operand.trace_of_grammatical h.2.2
  | .stepped operand _, h => operand.trace_of_grammatical h.2.2
  | .index base _ subscript _, h => by
      obtain ⟨-, hbase, -, hsubscript, closing, rfl, -⟩ := h
      rw [Expr.trace, base.trace_of_grammatical hbase, subscript.trace_of_grammatical hsubscript]
      rfl
  | .member base _ _ _, h => by
      obtain ⟨-, hbase, -, field, rfl, -⟩ := h
      rw [Expr.trace, base.trace_of_grammatical hbase]
      rfl
  | .binary _ left _ right, h => by
      obtain ⟨-, hleft, -, -, hright⟩ := h
      rw [Expr.trace, left.trace_of_grammatical hleft, right.trace_of_grammatical hright]
      rfl
  | .conditional condition _ first _ second, h => by
      obtain ⟨-, hcondition, -, hfirst, ⟨colon, rfl, -⟩, hsecond⟩ := h
      rw [Expr.trace, condition.trace_of_grammatical hcondition,
        first.trace_of_grammatical hfirst, second.trace_of_grammatical hsecond]
      rfl
  | .group _ inner _, h => by
      obtain ⟨-, hinner, closing, rfl, -⟩ := h
      rw [Expr.trace, inner.trace_of_grammatical hinner]
      rfl
  | .sizeofType _ _ (.words _ _) _ _, h => by
      obtain ⟨-, ⟨opening, rfl, -⟩, -, -, closing, rfl, -⟩ := h
      rfl
  | .sizeofType _ _ (.struct _ _) _ _, h => by
      obtain ⟨-, ⟨opening, rfl, -⟩, ⟨-, name, rfl, -⟩, -, closing, rfl, -⟩ := h
      rfl
  | .sizeofType _ _ (.missing _) _ _, h => h.2.2.1.elim
  | .sizeofExpr _ _ operand _, h => by
      obtain ⟨-, ⟨opening, rfl, -⟩, hoperand, closing, rfl, -⟩ := h
      rw [Expr.trace, operand.trace_of_grammatical hoperand]
      rfl
  | .missing _, h => h.elim

/-- Arguments of the grammar have no hole. -/
theorem Trail.trace_of_grammatical : ∀ others : Trail, others.Grammatical → others.trace = .clear
  | .nil, _ => rfl
  | .cons _ argument rest, h => by
      rw [Trail.trace, argument.trace_of_grammatical h.2.1, rest.trace_of_grammatical h.2.2]
      rfl

end

/-- **The rules derive the tokens of the trees, and nothing else:** a list of tokens is an
expression by the rules of the grammar if and only if it is the text of one of its trees. -/
theorem derives_expression_iff {w : List Token} :
    Derives (.rule .expression) w ↔ ∃ e : Expr, e.Grammatical ∧ e.tokens = w := by
  constructor
  · intro hderives
    let semicolon : Token := ⟨.punct .semicolon, ";", ⟨1, 1⟩⟩
    have haccepts : Accepts (.rule .expression) w [semicolon] := accepts_of_derives hderives rfl
    -- The reader meets no more faults than the derivation does, and stops where it stops.
    obtain ⟨hfollows, hstop⟩ := tracks_expression (reading (w ++ [semicolon]))
    obtain ⟨halike, hreported⟩ := haccepts.alike hfollows rfl
    obtain ⟨rest, hnext, hshapes⟩ := halike.eq_reading
    have hclear : (reading (w ++ [semicolon])).expression.tree.trace = .clear :=
      Trace.eq_clear (List.map_eq_nil_iff.1 hreported.symm)
        ((hstop _ rfl).trans (congrArg Cursor.hole? hnext))
    obtain ⟨us, htokens, hus⟩ := spells_expression _ hclear _ rfl
    obtain rfl := Cursor.reading.inj (hnext.symm.trans hus)
    have hlength : rest.length = [semicolon].length := by
      have := congrArg List.length hshapes
      simpa [shapes] using this.symm
    obtain ⟨hw, -⟩ := List.append_inj' htokens hlength.symm
    exact ⟨_, sound_expression _ hclear, hw.symm⟩
  · rintro ⟨e, he, rfl⟩
    have hread := (e.readable he).expression [] (fun _ ht => by cases ht)
    rw [List.append_nil] at hread
    obtain ⟨hfollows, -⟩ := tracks_expression (reading e.tokens)
    rw [hread.tree, hread.next] at hfollows
    simp only [Parsed.next_here, Parsed.tree_here, e.trace_of_grammatical he] at hfollows
    obtain ⟨w, hw, hderives⟩ := hfollows.derives
    rw [hw, List.append_nil]
    exact hderives

/-- **A list of tokens has at most one tree:** the grammar of expressions is unambiguous. -/
theorem Expr.eq_of_tokens_eq {e e' : Expr} (h : e.Grammatical) (h' : e'.Grammatical)
    (htokens : e.tokens = e'.tokens) : e = e' := by
  have hread := (e.readable h).expression [] (fun _ ht => by cases ht)
  have hread' := (e'.readable h').expression [] (fun _ ht => by cases ht)
  rw [htokens] at hread
  exact hread.tree.symm.trans hread'.tree

end MiniC
