import MiniC.Proofs.Expression.Inference
import MiniC.Proofs.Expression.Unknown

/-!
# `MiniC.Proofs.Expression.Pointers` — two ways to follow a pointer

What a pointer points to is written `*p` or `p[0]`, and a member of it `p->f` or `(*p).f`.  Each of
the four is read and typed by a routine of its own, with complaints of its own: of an operand that
is no pointer, of an arrow behind something else, of a dot behind a pointer, of a member of no
struct.  The texts of a pair may differ in what is complained of, but not in how often, and the
type that remains is the same.

`Matches` says this of two findings.  One lemma for each pair compares what the two routines do
with one type; the path in front is typed once in each form, so the forms compare as the routines.

## Contents
- `Pointing`: **the two pairs of forms.**
- `Finding.Matches`, `Finding.Matches.bind`: findings with one outcome and as many faults.
- `matches_subscript`, `matches_arrow`: the routines, pair by pair.
- `Pointing.typing`: the two forms, whatever the path is.
- `pointer_forms_agree`: **two forms of an access path are read whole and typed alike.**
-/

namespace MiniC

open Cursor (reading)

/-! ## The forms -/

/-- Two texts that follow the pointer `p`, or a pointer to a struct in `p`. -/
inductive Pointing (p : Expr) : Expr → Expr → Prop
  /-- `*p` and `p[0]`. -/
  | element {star opening index closing : Token} :
      star.kind = .operator .star → opening.kind = .punct .lbracket →
      index.kind = .literal .int → closing.kind = .punct .rbracket →
      Pointing p (.deref star p) (.index p opening (.literal .int index) (.found closing))
  /-- `p->f` and `(*p).f`. -/
  | member {arrow field opening star closing dot : Token} :
      arrow.kind = .punct .arrow → field.kind = .ident → opening.kind = .punct .lparen →
      star.kind = .operator .star → closing.kind = .punct .rparen → dot.kind = .punct .dot →
      Pointing p (.member p .through arrow (.found field))
        (.member (.group opening (.deref star p) (.found closing)) .direct dot (.found field))

variable {p first second : Expr}

/-- Both forms of an access path are trees of the grammar. -/
theorem Pointing.grammatical (h : Pointing p first second) (hp : p.Grammatical)
    (hpath : p.isPath = true) : first.Grammatical ∧ second.Grammatical := by
  have hlevel : p.level = 0 := Expr.level_of_isPath hpath
  cases h with
  | element hstar hopening hindex hclosing =>
      refine ⟨⟨hstar, hlevel, hp⟩, ?_⟩
      exact ⟨.inl hpath, hp, hopening, hindex, _, rfl, hclosing⟩
  | member harrow hfield hopening hstar hclosing hdot =>
      have haccess {operator : Token} {kind : Kind} (hkind : operator.kind = kind) :
          operator.kind.access? = kind.access? := by rw [hkind]
      refine ⟨⟨hpath, hp, haccess harrow, _, rfl, hfield⟩, ?_⟩
      refine ⟨rfl, ?_, haccess hdot, _, rfl, hfield⟩
      exact ⟨hopening, ⟨hstar, hlevel, hp⟩, _, rfl, hclosing⟩

/-! ## Findings that match -/

namespace Finding

variable {α β : Type}

/-- Two findings with one outcome and equally many faults. -/
structure Matches (f g : Finding α) : Prop where
  outcome : f.outcome = g.outcome
  faults : f.sites.length = g.sites.length

namespace Matches

theorem refl (f : Finding α) : f.Matches f := ⟨rfl, rfl⟩

/-- One fault each, and the same value. -/
theorem reported (fault fault' : Fault) (site site' : Option Token) (a : α) :
    Matches (report fault site >>= fun _ => pure a) (report fault' site' >>= fun _ => pure a) :=
  ⟨rfl, rfl⟩

theorem bind {f : Finding α} {next next' : α → Finding β} (h : ∀ a, (next a).Matches (next' a)) :
    Matches (f >>= next) (f >>= next') := by
  obtain ⟨issues, hole | a⟩ := f
  · exact refl _
  · refine ⟨(h a).outcome, ?_⟩
    show ((issues ++ (next a).issues).filterMap _).length =
      ((issues ++ (next' a).issues).filterMap _).length
    rw [List.filterMap_append, List.filterMap_append, List.length_append, List.length_append]
    exact congrArg _ (h a).faults

end Matches

end Finding

open Finding (Matches)

/-! ## The routines -/

section Rules

variable {σ : Symbols} {t target : CType}

/-- A star and a subscript that is a whole number follow the same types. -/
theorem matches_subscript (t : CType) (star opening : Token) (site : Option Token) :
    (dereference t star).Matches (indexed opening t .int site) := by
  show (dereference t star).Matches
    (Finding.complain true _ _ >>= fun _ => if t.isUnknown then _ else _)
  unfold dereference
  rw [element?_eq, Finding.complain, if_pos rfl, pure_bind]
  by_cases hunknown : t.isUnknown = true
  · rw [if_pos hunknown, if_pos hunknown]
    exact .refl _
  · rw [if_neg hunknown, if_neg hunknown]
    cases t.decayed.deref? with
    | none => exact .reported _ _ _ _ _
    | some target => exact .refl _

/-- What a known type leads to is known. -/
theorem Points.isUnknown (h : Points t target) : target.isUnknown = t.isUnknown := by
  cases h <;> rfl

/-- A pointer is no struct. -/
theorem structName?_of_isPointer (h : t.isPointer = true) : t.structName? = none := by
  refine structName?_eq_none fun name heq => ?_
  subst heq
  exact Bool.false_ne_true h

/-- An arrow, and a dot behind a star, select from the same types.  Where the star leads to a
pointer, the dot complains of it, and the arrow of a member of no struct. -/
theorem matches_arrow (σ : Symbols) (t : CType) (arrow star dot field : Token) :
    (memberType σ .through arrow t field).Matches
      (dereference t star >>= fun target => memberType σ .direct dot target field) := by
  have hunknownDot : memberType σ .direct dot .unknown field = pure .unknown := by
    unfold memberType
    exact if_pos rfl
  unfold dereference
  by_cases hunknown : t.isUnknown = true
  · rw [if_pos hunknown, pure_bind, memberType, if_pos hunknown, memberType, if_pos hunknown]
    exact .refl _
  · rw [if_neg hunknown, memberType, if_neg hunknown]
    cases htarget : t.decayed.deref? with
    | none =>
        simp only [bind_assoc, pure_bind, hunknownDot]
        exact .reported _ _ _ _ _
    | some target =>
        have hknown : ¬target.isUnknown = true := by
          rw [(deref?_iff.1 htarget).isUnknown]
          exact hunknown
        show Matches (fieldType σ target field) (pure target >>= _)
        rw [pure_bind, memberType, if_neg hknown]
        by_cases hpointer : target.isPointer = true
        · rw [if_pos hpointer, fieldType, structName?_of_isPointer hpointer]
          exact .reported _ _ _ _ _
        · rw [if_neg hpointer]
          exact .refl _

end Rules

/-! ## The forms are typed alike -/

/-- The two forms are typed alike, whatever the path in them is. -/
theorem Pointing.typing (h : Pointing p first second) (σ : Symbols) :
    (first.typing σ).Matches (second.typing σ) := by
  cases h with
  | @element star opening index closing =>
      show Matches (p.typing σ >>= fun t => dereference t star)
        (p.typing σ >>= fun t => indexed opening t .int (some index))
      exact .bind fun t => matches_subscript t star opening (some index)
  | @member arrow field opening star closing dot =>
      have hgroup : (Expr.group opening (.deref star p) (.found closing)).typing σ =
          p.typing σ >>= fun t => dereference t star := by
        show ((p.typing σ >>= fun t => dereference t star) >>= fun t => pure () >>= fun _ => pure t)
          = _
        simp only [pure_bind, bind_pure]
      show Matches (p.typing σ >>= fun t => memberType σ .through arrow t field)
        ((Expr.group opening (.deref star p) (.found closing)).typing σ >>= fun target =>
          memberType σ .direct dot target field)
      rw [hgroup, bind_assoc]
      exact .bind fun t => matches_arrow σ t arrow star dot field

/-- **Two forms of an access path are read whole and typed alike.**  Let `p` be a name with any
chain of subscripts and members behind it.  Then each of `*p` and `p[0]`, and each of `p->f` and
`(*p).f`, is read from its own tokens up to whatever may stand behind an expression.  Under any
symbols both forms of a pair have a type, and it is the same; and equally many semantic diagnostics
are reported on them. -/
theorem pointer_forms_agree (h : Pointing p first second) (hp : p.Grammatical)
    (hpath : p.isPath = true) {rest : List Token} (hrest : EndsExpression rest) (σ : Symbols)
    (stop : Location) :
    let read (e : Expr) := (reading (e.tokens ++ rest)).expression
    let found (e : Expr) := (read e).checked (·.typing σ)
    (read first).tree = first ∧ (read second).tree = second ∧
      (∃ type, (found first).outcome = .ok (type, reading rest) ∧
        (found second).outcome = .ok (type, reading rest)) ∧
      (semanticLocations stop (found first).issues).length =
        (semanticLocations stop (found second).issues).length := by
  intro read found
  obtain ⟨hfirst, hsecond⟩ := h.grammatical hp hpath
  have hreadFirst := (first.readable hfirst).expression rest (hrest.endsLevel 6)
  have hreadSecond := (second.readable hsecond).expression rest (hrest.endsLevel 6)
  have htypes := h.typing σ
  have hfoundFirst : found first = first.typing σ >>= fun t => pure (t, reading rest) :=
    Parsed.checked_of_read hreadFirst.tree hreadFirst.next _
  have hfoundSecond : found second = second.typing σ >>= fun t => pure (t, reading rest) :=
    Parsed.checked_of_read hreadSecond.tree hreadSecond.next _
  refine ⟨hreadFirst.tree, hreadSecond.tree, ?_, ?_⟩
  · obtain ⟨type, issues, htype⟩ := first.exists_hasType σ hfirst
    have hok : (first.typing σ).outcome = .ok type := by rw [first.typing_eq htype]
    refine ⟨type, ?_, ?_⟩
    · rw [hfoundFirst, Finding.outcome_bind_pure, hok]
      rfl
    · rw [hfoundSecond, Finding.outcome_bind_pure, ← htypes.outcome, hok]
      rfl
  · rw [hfoundFirst, hfoundSecond, Finding.issues_bind_pure, Finding.issues_bind_pure,
      semanticLocations_eq, semanticLocations_eq, List.length_map, List.length_map]
    exact htypes.faults

/-- `rows`, for an array of pointers to structs. -/
def rowsPath : Expr := .var ⟨.ident, "rows", ⟨1, 1⟩⟩

/-- `rows->x` -/
def rowsArrow : Expr :=
  .member rowsPath .through ⟨.punct .arrow, "->", ⟨1, 5⟩⟩ (.found ⟨.ident, "x", ⟨1, 7⟩⟩)

/-- `(*rows).x` -/
def rowsDot : Expr :=
  .member
    (.group ⟨.punct .lparen, "(", ⟨1, 1⟩⟩ (.deref ⟨.operator .star, "*", ⟨1, 2⟩⟩ rowsPath)
      (.found ⟨.punct .rparen, ")", ⟨1, 7⟩⟩))
    .direct ⟨.punct .dot, ".", ⟨1, 8⟩⟩ (.found ⟨.ident, "x", ⟨1, 7⟩⟩)

/-- The arrow behind an array of pointers finds a pointer where it selects, and so does the dot
behind the star: the first complains of the member, the second of the dot. -/
theorem rows_forms_agree :
    let σ : Symbols :=
      ⟨[[⟨"rows", ⟨.struct "P", 1, true⟩, false, 1⟩]], [], [⟨"P", 1, [("x", .int)]⟩]⟩
    let semicolon : Token := ⟨.punct .semicolon, ";", ⟨1, 9⟩⟩
    let found (e : Expr) :=
      (reading (e.tokens ++ [semicolon])).expression.checked (·.typing σ)
    (∃ type, (found rowsArrow).outcome = .ok (type, reading [semicolon]) ∧
        (found rowsDot).outcome = .ok (type, reading [semicolon])) ∧
      (semanticLocations ⟨1, 10⟩ (found rowsArrow).issues).length =
        (semanticLocations ⟨1, 10⟩ (found rowsDot).issues).length ∧
      semanticLocations ⟨1, 10⟩ (found rowsArrow).issues = [⟨1, 7⟩] ∧
      semanticLocations ⟨1, 10⟩ (found rowsDot).issues = [⟨1, 8⟩] := by
  intro σ semicolon found
  have hforms : Pointing rowsPath rowsArrow rowsDot := .member rfl rfl rfl rfl rfl rfl
  have hrest : EndsExpression [semicolon] := endsExpression_cons rfl
  obtain ⟨-, -, htypes, hcounts⟩ :=
    pointer_forms_agree hforms rfl rfl hrest σ ⟨1, 10⟩
  exact ⟨htypes, hcounts, by decide +kernel, by decide +kernel⟩

end MiniC
