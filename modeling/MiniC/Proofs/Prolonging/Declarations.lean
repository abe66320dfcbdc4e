import MiniC.Proofs.Grammar.Lookahead
import MiniC.Proofs.Prolonging.Expressions

/-!
# `MiniC.Proofs.Prolonging.Declarations` — declarations in a longer text

Declarations, fields, structs and headers end by themselves.  One decision looks further than one
token, whether a lone `void` stands for the parameters.  If the parameters that were read have no
hole, it is known what they are made of, and so is what the decision finds there, whatever stands
behind.

## Contents
- `ended_declaration`, `ended_field`, `ended_structDecl`.
- `followed_params`, with `loneVoid?_eq_none`; `ended_header`.
-/

namespace MiniC

open Cursor (reading broken)

variable {q : List Token}

/-! ## Variables -/

/-- Whether brackets follow is told by the token behind a name. -/
theorem followed_arraySuffix (c : Cursor) :
    Followed q (c.arraySuffix.tree.elim .clear ArraySuffix.trace) c.arraySuffix
      (c.prolonged q).arraySuffix := by
  refine .of_pos fun hpos => ?_
  unfold Cursor.arraySuffix
  rw [Cursor.take?_prolonged hpos]
  cases c.take? (· == .punct .lbracket) with
  | none => exact .here none c
  | some taken =>
      exact .within ((ended_demand taken.next _ _).followed.atMost.seq
        (ended_expect _ _ _).followed.atMost.map)

/-- Whether a value follows is told by the token behind. -/
theorem followed_initializer (c : Cursor) :
    Followed q (c.initializer.tree.elim .clear (·.2.trace)) c.initializer
      (c.prolonged q).initializer := by
  refine .of_pos fun hpos => ?_
  unfold Cursor.initializer
  rw [Cursor.take?_prolonged hpos]
  cases c.take? (· == .operator .assign) with
  | none => exact .here none c
  | some taken => exact .within (followed_expression taken.next).atMost.map

/-- A name, with brackets and a value or without. -/
theorem followed_declarator (c : Cursor) :
    Followed q c.declarator.tree.trace c.declarator (c.prolonged q).declarator := by
  have hstars := followed_takeWhile (q := q) (t := .clear) c (· == .operator .star)
  have hname := (ended_expect (q := q) c.stars.next .ident .declaredName).followed
  have harray := followed_arraySuffix (q := q)
    (c.stars.next.identifier .declaredName).next
  have hinit := followed_initializer (q := q)
    (c.stars.next.identifier .declaredName).next.arraySuffix.next
  exact hstars.behind (hname.atMost.seq (harray.seq hinit.map))

/-- A declaration ends in a semicolon. -/
theorem ended_declaration (c : Cursor) :
    Ended q c c.declaration.tree.trace c.declaration (c.prolonged q).declaration := by
  have hspec := followed_typeSpec (q := q) c.qualifiers.next
  have hfirst := followed_declarator (q := q) c.qualifiers.next.typeSpec.next
  have hothers := followed_commaSeparated (q := q) followed_declarator
    c.qualifiers.next.typeSpec.next.declarator.next
  have hsemicolon := ended_expect (q := q)
    (c.qualifiers.next.typeSpec.next.declarator.next.commaSeparated Cursor.declarator).next
    (.punct .semicolon) .declarationEnd
  refine .before (hspec.ends_seq (Cursor.residue_le_size _) ?_)
  rw [Trace.all_cons, Trace.andThen_assoc]
  exact hfirst.ends_seq (Nat.le_refl _) (hothers.ends_seq (Nat.le_refl _) hsemicolon.atMost.map)

/-! ## Structs -/

/-- A field ends in a semicolon. -/
theorem ended_field (c : Cursor) :
    Ended q c c.field.tree.trace c.field (c.prolonged q).field := by
  have hspec := followed_typeSpec (q := q) c.qualifiers.next
  have hstars := followed_takeWhile (q := q) (t := .clear) c.qualifiers.next.typeSpec.next
    (· == .operator .star)
  have hname := (ended_expect (q := q) c.qualifiers.next.typeSpec.next.stars.next .ident
    .fieldName).followed
  have harray := followed_arraySuffix (q := q)
    (c.qualifiers.next.typeSpec.next.stars.next.identifier .fieldName).next
  have hsemicolon := ended_expect (q := q)
    (c.qualifiers.next.typeSpec.next.stars.next.identifier .fieldName).next.arraySuffix.next
    (.punct .semicolon) .fieldEnd
  exact .before (hspec.ends_seq (Cursor.residue_le_size _) (hstars.ends_behind (Nat.le_refl _)
    (hname.atMost.ends_seq (Nat.le_refl _) (harray.ends_seq (Nat.le_refl _)
      hsemicolon.atMost.map))))

/-- The definition of a struct ends in a semicolon. -/
theorem ended_structDecl {c : Cursor} {definition : Parsed StructDecl c.residue}
    (h : c.structDecl? = some definition) :
    ∃ definition', (c.prolonged q).structDecl? = some definition' ∧
      Ended q c definition.tree.trace definition definition' := by
  simp only [Cursor.structDecl?, Option.bind_eq_bind, Option.bind_eq_some_iff,
    Option.some.injEq] at h
  obtain ⟨keyword, hkeyword, name, hname, opening, hopening, rfl⟩ := h
  have hfields := followed_recovering (q := q) Kind.startsDeclaration
    (fun c => (ended_field c).followed) opening.next
  have hclosing := (ended_expect (q := q) opening.next.fields.next (.punct .rbrace)
    .fieldsEnd).followed
  have hsemicolon := ended_expect (q := q)
    (opening.next.fields.next.expect (.punct .rbrace) .fieldsEnd).next (.punct .semicolon)
    .structEnd
  refine ⟨_, Option.bind_eq_some_iff.2 ⟨_, Cursor.take?_prolonged_of_some hkeyword,
    Option.bind_eq_some_iff.2 ⟨_, Cursor.take?_prolonged_of_some hname,
      Option.bind_eq_some_iff.2 ⟨_, Cursor.take?_prolonged_of_some hopening, rfl⟩⟩⟩, ?_⟩
  exact .opening (.within (.within (hfields.ends_seq (Nat.le_refl _)
    (hclosing.atMost.ends_seq (Nat.le_refl _) hsemicolon.atMost.map))))

/-! ## Functions -/

/-- Whether brackets follow is told by the token behind a name. -/
theorem followed_paramArray (c : Cursor) :
    Followed q (c.paramArray.tree.elim .clear (·.closing.trace)) c.paramArray
      (c.prolonged q).paramArray := by
  refine .of_pos fun hpos => ?_
  unfold Cursor.paramArray
  rw [Cursor.take?_prolonged hpos]
  cases c.take? (· == .punct .lbracket) with
  | none => exact .here none c
  | some taken =>
      exact .within ((followed_optional taken.next _).behind
        (ended_expect _ _ _).followed.atMost.map)

/-- A type, stars, a name and brackets. -/
theorem followed_param (c : Cursor) :
    Followed q c.param.tree.trace c.param (c.prolonged q).param := by
  have hqualifiers := followed_takeWhile (q := q) (t := .clear) c Kind.isQualifier
  have hspec := followed_typeSpec (q := q) c.qualifiers.next
  have hstars := followed_takeWhile (q := q) (t := .clear) c.qualifiers.next.typeSpec.next
    (· == .operator .star)
  have hname := (ended_expect (q := q) c.qualifiers.next.typeSpec.next.stars.next .ident
    .parameterName).followed
  have harray := followed_paramArray (q := q)
    (c.qualifiers.next.typeSpec.next.stars.next.identifier .parameterName).next
  exact hqualifiers.behind (hspec.atMost.seq (hstars.behind (hname.atMost.seq harray.map)))

/-- A `void` that stands alone in front of a parenthesis does so in the longer text. -/
theorem loneVoid?_prolonged_of_some {c : Cursor} {taken : Taken c}
    (h : c.loneVoid? = some taken) :
    (c.prolonged q).loneVoid? = some (taken.prolonged q) := by
  obtain ⟨hword, hclosing⟩ := Cursor.loneVoid?_eq_some.1 h
  refine Cursor.loneVoid?_eq_some.2 ⟨Cursor.take?_prolonged_of_some hword, ?_⟩
  show (taken.next.prolonged q).sees (· == .punct .rparen) = true
  rw [Cursor.sees_prolonged (Cursor.pos_of_sees hclosing), hclosing]

theorem loneVoid?_eq_none {ts : List Token} (h : seesLoneVoid (shapes ts) = false) :
    (reading ts).loneVoid? = none := by
  rcases ts with _ | ⟨word, _ | ⟨closing, ts⟩⟩
  · rfl
  · simp [Cursor.loneVoid?, Cursor.take?, Cursor.sees, Cursor.head?]
  · simp_all [seesLoneVoid, Cursor.loneVoid?, Cursor.take?, Cursor.sees, Cursor.head?]

/-- Parameters that have no hole do not begin with a lone `void`, so none is seen in the longer text
either. -/
theorem followed_params (c : Cursor) :
    Followed q c.params.tree.trace c.params (c.prolonged q).params := by
  refine .of_pos fun hpos => ?_
  unfold Cursor.params
  rw [Cursor.sees_prolonged hpos]
  by_cases hclosing : c.sees (· == .punct .rparen) = true
  · rw [if_pos hclosing, if_pos hclosing]
    exact .here Params.none c
  · rw [if_neg hclosing, if_neg hclosing]
    cases hvoid : c.loneVoid? with
    | some taken =>
        rw [loneVoid?_prolonged_of_some hvoid]
        exact .within (.here (Params.void taken.token) taken.next)
    | none =>
        intro hclear
        have hnone : (c.prolonged q).loneVoid? = none := by
          cases c with
          | broken hole after => rfl
          | reading ts =>
              have htracks := (tracks_param (reading ts)).seq
                (tracks_commaSeparated tracks_param (reading ts).param.next)
              obtain ⟨w, rest, rfl, hderives⟩ := htracks.derives hclear
              refine loneVoid?_eq_none ?_
              rw [List.append_assoc]
              exact not_seesLoneVoid_params hderives
        rw [hnone]
        exact ((followed_param c).seq (followed_commaSeparated followed_param c.param.next).map)
          hclear

/-- A header ends in a closing parenthesis. -/
theorem ended_header (c : Cursor) :
    Ended q c c.header.tree.trace c.header (c.prolonged q).header := by
  have hspec := followed_typeSpec (q := q) c.qualifiers.next
  have hstars := followed_takeWhile (q := q) (t := .clear) c.qualifiers.next.typeSpec.next
    (· == .operator .star)
  have hname := (ended_demand (q := q) c.qualifiers.next.typeSpec.next.stars.next
    Kind.namesFunction .functionName).followed
  generalize hc₄ : (c.qualifiers.next.typeSpec.next.stars.next.demand Kind.namesFunction
    .functionName).next = c₄ at hname
  have hopening := (ended_expect (q := q) c₄ (.punct .lparen) .parametersStart).followed
  have hparams := followed_params (q := q)
    (c₄.expect (.punct .lparen) .parametersStart).next
  have hclosing := ended_expect (q := q)
    (c₄.expect (.punct .lparen) .parametersStart).next.params.next (.punct .rparen) .parametersEnd
  subst hc₄
  exact .before (hspec.ends_seq (Cursor.residue_le_size _) (hstars.ends_behind (Nat.le_refl _)
    (hname.atMost.ends_seq (Nat.le_refl _) (hopening.atMost.ends_seq (Nat.le_refl _)
      (hparams.ends_seq (Nat.le_refl _) hclosing.atMost.map)))))

end MiniC
