import MiniC.Proofs.Headers.Scan
import MiniC.Proofs.Reading.Text

/-!
# `MiniC.Proofs.Headers.Spared` — what is never asked for in vain

Only the reader of headers asks for the name of a function and for the parenthesis behind it, and
it is called where both are there.  So no cursor ever breaks for the lack of them.  A cursor that
was not broken so before is not broken so behind any reader; the readers of types, expressions and
declarations are gone through here, one lemma for each, from the elementary ones on.

## Contents
- `Wanted.ofHeader`; `Cursor.Spared` and the elementary readers.
- `spared_expression` and the readers it needs, in one recursion.
- `spared_declaration`, `spared_field`, `spared_params`.
- `spared_header`: **the reader of headers finds what the scan has seen.**
-/

namespace MiniC

open Cursor (reading broken)

/-- Whether the front of a header asks for it: the name of a function, and what opens its
parameters. -/
def Wanted.ofHeader : Wanted → Bool
  | token _ site => site == .parametersStart
  | functionName => true
  | _ => false

/-! ## Elementary readers -/

namespace Cursor

/-- A cursor that is not broken in the front of a header. -/
def Spared (c : Cursor) : Prop := ∀ hole ∈ c.hole?, hole.wanted.ofHeader = false

theorem spared_reading (ts : List Token) : (reading ts).Spared := fun _ h => nomatch h

theorem spared_mend (c : Cursor) : c.mend.Spared := spared_reading _

section

variable {c : Cursor} {p : Kind → Bool}

/-- Behind a token that was taken nothing has failed yet. -/
theorem spared_of_take? {taken : Taken c} (h : c.take? p = some taken) : taken.next.Spared := by
  obtain ⟨ts, -, -, hnext⟩ := take?_eq_some h
  rw [hnext]
  exact spared_reading ts

variable (h : c.Spared)

include h

/-- A reading may fail, but not in a header. -/
theorem Spared.fail {wanted : Wanted} (hwanted : wanted.ofHeader = false) :
    (c.fail wanted).Spared := by
  cases c with
  | reading ts =>
      intro hole hmem
      obtain rfl : _ = hole := Option.some.inj hmem
      exact hwanted
  | broken hole after => exact h

/-- A token that is no part of a header may be missing. -/
theorem Spared.demand (p : Kind → Bool) (wanted : Wanted) (hwanted : wanted.ofHeader = false) :
    (c.demand p wanted).next.Spared := by
  rcases c with (_ | ⟨t, ts⟩) | ⟨hole, after⟩
  · exact h.fail hwanted
  · by_cases hp : p t.kind = true
    · rw [(demand_reading hp ts wanted).2]
      exact spared_reading ts
    · simp only [Cursor.demand, if_neg hp]
      exact h.fail hwanted
  · exact h

theorem Spared.expect (kind : Kind) (site : Site) (hsite : site ≠ .parametersStart) :
    (c.expect kind site).next.Spared := by
  apply h.demand
  simpa [Wanted.ofHeader] using hsite

theorem Spared.takeWhile (p : Kind → Bool) : (c.takeWhile p).next.Spared := by
  cases c with
  | reading ts => exact spared_reading _
  | broken hole after => exact h

theorem Spared.optional (p : Kind → Bool) : (c.optional p).next.Spared := by
  unfold Cursor.optional
  split
  next taken hsome => exact spared_of_take? hsome
  next => exact h

theorem Spared.typeSpec : c.typeSpec.next.Spared := by
  rcases c with (_ | ⟨t, ts⟩) | ⟨hole, after⟩
  · exact h.fail rfl
  · rw [Cursor.typeSpec]
    by_cases hstruct : (t.kind == .keyword .kwStruct) = true
    · rw [if_pos hstruct]
      exact (spared_reading ts).expect .ident _ (by simp)
    · rw [if_neg hstruct]
      by_cases hword : t.kind.isTypeWord = true
      · rw [if_pos hword]
        exact (spared_reading ts).takeWhile Kind.isTypeWord
      · rw [if_neg hword]
        exact h.fail rfl
  · exact h

end

/-- Parts between commas, if each of them is spared. -/
theorem spared_commaSeparated {α : Type} {read : (c : Cursor) → Parsed α c.size}
    (hread : ∀ c, c.Spared → (read c).next.Spared) (c : Cursor) (h : c.Spared) :
    (c.commaSeparated read).next.Spared := by
  rw [commaSeparated]
  split
  next => exact h
  next taken hsome =>
    have hlt := taken.lt
    have hpart := hread taken.next (spared_of_take? hsome)
    have hle := (read taken.next).le
    exact spared_commaSeparated hread (read taken.next).next hpart
termination_by c.size

/-- Behind parts that are recovered from, reading stands where it stood before, or goes on. -/
theorem spared_recovering {α : Type} (begins : Kind → Bool)
    (read : (c : Cursor) → Parsed α c.residue) :
    ∀ c : Cursor, c.Spared → (c.recovering begins read).next.Spared
  | broken hole after, h => by
      rw [recovering_broken]
      exact h
  | reading [], h => by
      rw [recovering_nil]
      exact h
  | reading (t :: ts), h => by
      rw [recovering]
      by_cases hbegins : begins t.kind = true
      · have hle := (read (reading (t :: ts))).le
        have hrest := spared_recovering begins read (read (reading (t :: ts))).next.mend
          (spared_mend _)
        simp only [hbegins]
        exact hrest
      · simp only [hbegins]
        exact h
termination_by c => c.size
decreasing_by
  simp only [size_mend, size_reading, residue_cons, List.length_cons] at *
  omega

end Cursor

/-! ## Expressions -/

mutual

/-- A condition, and behind a `?` its branches. -/
theorem spared_expression (c : Cursor) (h : c.Spared) : c.expression.next.Spared := by
  have hle := c.residue_le_size
  have hcondition := spared_operation .logical c h
  have hle₁ := (c.operation .logical).le
  rw [Cursor.expression]
  simp only [Parsed.next_andThen]
  split
  next => exact hcondition
  next taken hsome =>
    have hlt := taken.lt
    have hfirst := spared_expression taken.next (Cursor.spared_of_take? hsome)
    have hle₂ := taken.next.expression.le
    have hle₃ := taken.next.residue_le_size
    have hcolon := hfirst.expect (.punct .colon) .ternaryColon (by simp)
    have hle₄ := (taken.next.expression.next.expect (.punct .colon) .ternaryColon).le
    have hle₅ := taken.next.expression.next.residue_le_size
    exact spared_expression _ hcolon
termination_by 16 * c.size + 10

/-- An operand, then operators of the tier. -/
theorem spared_operation (tier : Tier) (c : Cursor) (h : c.Spared) :
    (c.operation tier).next.Spared := by
  have hle := c.residue_le_size
  have hfirst := spared_operand tier c h
  have hle₁ := (c.operand tier).le
  rw [Cursor.operation]
  exact spared_operations tier (c.operand tier).tree (c.operand tier).next hfirst
termination_by 16 * c.size + 2 * tier.rank + 3

/-- An operand of a tier is an operation of the next. -/
theorem spared_operand (tier : Tier) (c : Cursor) (h : c.Spared) :
    (c.operand tier).next.Spared := by
  cases tier with
  | logical =>
      rw [Cursor.operand]
      exact spared_operation .relational c h
  | relational =>
      rw [Cursor.operand]
      exact spared_operation .additive c h
  | additive =>
      rw [Cursor.operand]
      exact spared_operation .multiplicative c h
  | multiplicative =>
      rw [Cursor.operand]
      exact spared_factor c h
termination_by 16 * c.size + 2 * tier.rank + 2

/-- An operator and its right operand at a time. -/
theorem spared_operations (tier : Tier) (left : Expr) (c : Cursor) (h : c.Spared) :
    (c.operations tier left).next.Spared := by
  rw [Cursor.operations]
  split
  next => exact h
  next taken hsome =>
    have hrank := tier.rank_le
    have hlt := taken.lt
    have hle := taken.next.residue_le_size
    have hright := spared_operand tier taken.next (Cursor.spared_of_take? hsome)
    have hle₁ := (taken.next.operand tier).le
    exact spared_operations tier (.binary tier left taken.token (taken.next.operand tier).tree)
      (taken.next.operand tier).next hright
termination_by 16 * c.size + 2

/-- An element, with one index or without. -/
theorem spared_factor (c : Cursor) (h : c.Spared) : c.factor.next.Spared := by
  have hle := c.residue_le_size
  have hbase := spared_element c h
  have hle₁ := c.element.le
  rw [Cursor.factor]
  simp only [Parsed.next_andThen]
  split
  next => exact hbase
  next taken hsome =>
    have hlt := taken.lt
    exact spared_subscript c.element.tree taken.token taken.next (Cursor.spared_of_take? hsome)
termination_by 16 * c.size + 1

theorem spared_subscript (base : Expr) (opening : Token) (c : Cursor) (h : c.Spared) :
    (c.subscript base opening).next.Spared := by
  have hindex := spared_expression c h
  rw [Cursor.subscript]
  exact hindex.expect (.punct .rbracket) _ (by simp)
termination_by 16 * c.size + 11

/-- Indices and members, as long as there are any. -/
theorem spared_accesses (base : Expr) (c : Cursor) (h : c.Spared) :
    (c.accesses base).next.Spared := by
  rw [Cursor.accesses]
  split
  next taken hsome =>
    have hlt := taken.lt
    have hle := taken.next.residue_le_size
    have hsubscript := spared_subscript base taken.token taken.next (Cursor.spared_of_take? hsome)
    have hle₁ := (taken.next.subscript base taken.token).le
    exact spared_accesses (taken.next.subscript base taken.token).tree
      (taken.next.subscript base taken.token).next hsubscript
  next =>
    split
    next => exact h
    next taken hsome =>
      have hlt := taken.lt
      have hle := taken.next.residue_le_size
      have hfield := (Cursor.spared_of_take? hsome).expect .ident .memberName (by simp)
      have hle₁ := (taken.next.identifier .memberName).le
      exact spared_accesses
        (.member base (taken.token.kind.access?.getD .direct) taken.token
          (taken.next.identifier .memberName).tree) (taken.next.identifier .memberName).next hfield
termination_by 16 * c.size + 12

/-- A call misses its own parenthesis, which is not that of a header. -/
theorem spared_call (name opening : Token) (c : Cursor) (h : c.Spared) :
    (c.call name opening).next.Spared := by
  rw [Cursor.call]
  by_cases hempty : c.sees (· == .punct .rparen) = true
  · rw [if_pos hempty]
    exact h.expect (.punct .rparen) _ (by simp)
  · rw [if_neg hempty]
    have hle := c.residue_le_size
    have hfirst := spared_expression c h
    have hle₁ := c.expression.le
    have hothers := spared_trail c.expression.next hfirst
    exact hothers.expect (.punct .rparen) _ (by simp)
termination_by 16 * c.size + 12

theorem spared_trail (c : Cursor) (h : c.Spared) : c.trail.next.Spared := by
  rw [Cursor.trail]
  split
  next => exact h
  next taken hsome =>
    have hlt := taken.lt
    have hle := taken.next.residue_le_size
    have hargument := spared_expression taken.next (Cursor.spared_of_take? hsome)
    have hle₁ := taken.next.expression.le
    exact spared_trail taken.next.expression.next hargument
termination_by 16 * c.size + 11

/-- The parenthesis behind `sizeof` is not that of a header either. -/
theorem spared_sizeofOperand (keyword : Token) (c : Cursor) (h : c.Spared) :
    (c.sizeofOperand keyword).next.Spared := by
  rw [Cursor.sizeofOperand]
  have hle := c.residue_le_size
  have hopening := h.expect (.punct .lparen) .sizeofStart (by simp)
  have hle₁ := (c.expect (.punct .lparen) .sizeofStart).le
  simp only [Parsed.next_andThen]
  by_cases hspec : (c.expect (.punct .lparen) .sizeofStart).next.sees Kind.startsTypeSpec = true
  · rw [if_pos hspec]
    exact (hopening.typeSpec.takeWhile _).expect (.punct .rparen) _ (by simp)
  · rw [if_neg hspec]
    have hoperand := spared_expression (c.expect (.punct .lparen) .sizeofStart).next hopening
    exact hoperand.expect (.punct .rparen) _ (by simp)
termination_by 16 * c.size + 12

/-- By the first token, as it is read. -/
theorem spared_element (c : Cursor) (h : c.Spared) : c.element.next.Spared := by
  match c with
  | reading (t :: ts) =>
      have hsize := Cursor.size_reading ts
      have hbehind := Cursor.spared_reading ts
      refine Cursor.element_cases (p := fun r => r.next.Spared)
        ?deref ?address ?unary ?sizeof ?literal ?group ?call ?path ?missing
      case deref => exact fun _ => spared_element (reading ts) hbehind
      case address => exact fun _ => spared_element (reading ts) hbehind
      case unary => exact fun _ => spared_element (reading ts) hbehind
      case sizeof => exact fun _ => spared_sizeofOperand t (reading ts) hbehind
      case literal => exact fun _ _ => hbehind
      case group =>
        intro _
        have hinner := spared_expression (reading ts) hbehind
        have hle := (reading ts).expression.le
        have hle₁ := (reading ts).residue_le_size
        have hclosing := hinner.expect (.punct .rparen) .groupEnd (by simp)
        have hle₂ := ((reading ts).expression.next.expect (.punct .rparen) .groupEnd).le
        have hle₃ := (reading ts).expression.next.residue_le_size
        exact spared_accesses
          (.group t (reading ts).expression.tree
            ((reading ts).expression.next.expect (.punct .rparen) .groupEnd).tree)
          ((reading ts).expression.next.expect (.punct .rparen) .groupEnd).next hclosing
      case call =>
        intro _ taken hsome
        have hlt := taken.lt
        exact spared_call t taken.token taken.next (Cursor.spared_of_take? hsome)
      case path =>
        intro _
        exact (spared_accesses (.var t) (reading ts) hbehind).takeWhile Kind.isStep
      case missing => exact h.fail rfl
  | reading [] =>
      rw [Cursor.element]
      · exact h.fail rfl
      · exact fun _ _ hc => nomatch hc
  | broken hole after =>
      rw [Cursor.element]
      · exact h
      · exact fun _ _ hc => nomatch hc
termination_by 16 * c.size

end

/-! ## Declarations -/

section

variable {c : Cursor} (h : c.Spared)

include h

theorem spared_arraySuffix : c.arraySuffix.next.Spared := by
  unfold Cursor.arraySuffix
  split
  next => exact h
  next taken hsome =>
    have hsize := (Cursor.spared_of_take? hsome).demand
      (fun kind => kind == .literal .int || kind == .ident) .arraySize rfl
    exact hsize.expect (.punct .rbracket) _ (by simp)

theorem spared_initializer : c.initializer.next.Spared := by
  unfold Cursor.initializer
  split
  next => exact h
  next taken hsome => exact spared_expression taken.next (Cursor.spared_of_take? hsome)

/-- A name with its brackets and its value. The name that may be missing is that of a variable. -/
theorem spared_declarator : c.declarator.next.Spared := by
  have hname := (h.takeWhile (· == .operator .star)).expect .ident .declaredName (by simp)
  exact spared_initializer (spared_arraySuffix hname)

/-- A type, declarators between commas, and a semicolon. -/
theorem spared_declaration : c.declaration.next.Spared := by
  have hfirst := spared_declarator (h.takeWhile Kind.isQualifier).typeSpec
  have hothers := Cursor.spared_commaSeparated (fun _ => spared_declarator) _ hfirst
  exact hothers.expect (.punct .semicolon) _ (by simp)

/-- A field of a struct. -/
theorem spared_field : c.field.next.Spared := by
  have hstars := (h.takeWhile Kind.isQualifier).typeSpec.takeWhile (· == .operator .star)
  have hname := hstars.expect .ident .fieldName (by simp)
  exact (spared_arraySuffix hname).expect (.punct .semicolon) _ (by simp)

theorem spared_paramArray : c.paramArray.next.Spared := by
  unfold Cursor.paramArray
  split
  next => exact h
  next taken hsome =>
    have hsize := (Cursor.spared_of_take? hsome).optional (· == .literal .int)
    exact hsize.expect (.punct .rbracket) _ (by simp)

/-- A parameter: its name is not that of the function. -/
theorem spared_param : c.param.next.Spared := by
  have hstars := (h.takeWhile Kind.isQualifier).typeSpec.takeWhile (· == .operator .star)
  exact spared_paramArray (hstars.expect .ident .parameterName (by simp))

/-- Parameters, none or some. -/
theorem spared_params : c.params.next.Spared := by
  unfold Cursor.params
  split
  next => exact h
  next =>
    split
    next taken hsome =>
      obtain ⟨hword, -⟩ := Cursor.loneVoid?_eq_some.1 hsome
      exact Cursor.spared_of_take? hword
    next => exact Cursor.spared_commaSeparated (fun _ => spared_param) _ (spared_param h)

end

/-- **The reader of headers finds what the scan has seen,** a name and a parenthesis, unless it
breaks at the type. -/
theorem spared_header {c : Cursor} (h : c.Spared) (hsees : Cursor.startsFunction c.unread = true) :
    c.header.next.Spared := by
  have hstars : c.qualifiers.next.typeSpec.next.stars.next.Spared :=
    (h.takeWhile Kind.isQualifier).typeSpec.takeWhile (· == .operator .star)
  have hopening : ((c.qualifiers.next.typeSpec.next.stars.next.demand Kind.namesFunction
      .functionName).next.expect (.punct .lparen) .parametersStart).next.Spared := by
    cases hc : c.qualifiers.next.typeSpec.next.stars.next with
    | broken hole after =>
        rw [hc] at hstars
        exact hstars
    | reading us =>
        obtain ⟨vs, hspec, -⟩ := Cursor.takeWhile_next_reading hc
        obtain ⟨ws, hqualifiers, -⟩ := Cursor.typeSpec_next_reading hspec
        obtain ⟨ts, rfl, -⟩ := Cursor.takeWhile_next_reading hqualifiers
        obtain ⟨name, opening, rest, hrest, -, -, hname, hparen⟩ := header_found hspec hsees
        rw [← hc, hspec, hrest, (Cursor.demand_reading hname _ _).2, Cursor.expect,
          (Cursor.demand_reading (by simpa using hparen) rest _).2]
        exact Cursor.spared_reading rest
  exact (spared_params hopening).expect (.punct .rparen) _ (by simp)

end MiniC
