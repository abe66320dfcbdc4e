import MiniC.Proofs.Reading.Expr

/-!
# `MiniC.Proofs.Reading.Decl` — the readers of declarations follow the grammar

## Contents
- `tracks_declarator`, `tracks_declaration`.
- `tracks_field`, `tracks_structDecl`: structs.
- `tracks_param`, `tracks_params`, `tracks_header`: functions, up to their bodies.
- `pastType`, with `startsFunction_eq`: a function begins where a call stands behind the type.
- `startsFunction_map`: whether a function begins depends on the kinds alone.
-/

namespace MiniC

open Cursor (reading broken)

/-! ## Variables -/

theorem tracks_arraySuffix (c : Cursor) :
    Tracks (.rule .arrayOpt) c c.arraySuffix.next
      (c.arraySuffix.tree.elim .clear ArraySuffix.trace) := by
  refine .rule ?_
  unfold Cursor.arraySuffix
  split
  next hnone => exact .second (Cursor.not_sees_of_take? hnone) .skip
  next taken hsome =>
    have hsize := tracks_either taken.next (· == .literal .int) (· == .ident) .arraySize
    exact .first (Cursor.sees_of_take? hsome)
      ((tracks_take hsome).seq (hsize.seq (tracks_expect _ _ _)))

theorem tracks_initializer (c : Cursor) :
    Tracks .initializer c c.initializer.next
      (c.initializer.tree.elim .clear (·.2.trace)) := by
  unfold Cursor.initializer
  split
  next hnone => exact .second (Cursor.not_sees_of_take? hnone) .skip
  next taken hsome =>
    exact .first (Cursor.sees_of_take? hsome)
      ((tracks_take hsome).seq (tracks_expression taken.next))

/-- What stands behind the stars of a declared variable. -/
theorem tracks_behind_stars (c : Cursor) :
    Tracks (.seq .ident (.seq (.rule .arrayOpt) .initializer)) c.stars.next c.declarator.next
      c.declarator.tree.trace := by
  have hname := tracks_expect c.stars.next .ident .declaredName
  have harray := tracks_arraySuffix (c.stars.next.identifier .declaredName).next
  have hinit := tracks_initializer (c.stars.next.identifier .declaredName).next.arraySuffix.next
  exact hname.seq (harray.seq hinit)

theorem tracks_declarator (c : Cursor) :
    Tracks (.rule .declarator) c c.declarator.next c.declarator.tree.trace :=
  .rule ((tracks_takeWhile c _).seq (tracks_behind_stars c))

/-- The stars in front of all declared variables are those of the first. -/
theorem tracks_first_declarator (c : Cursor) :
    Tracks (.rule .declarator) c.stars.next c.declarator.next c.declarator.tree.trace :=
  .rule ((tracks_takeWhile_again c _).seq (tracks_behind_stars c))

theorem tracks_declaration (c : Cursor) :
    Tracks (.rule .declaration) c c.declaration.next c.declaration.tree.trace := by
  have hqualifiers := tracks_takeWhile c Kind.isQualifier
  have hspec := tracks_typeSpec c.qualifiers.next
  have hstars := tracks_takeWhile c.qualifiers.next.typeSpec.next (· == .operator .star)
  have hfirst := tracks_first_declarator c.qualifiers.next.typeSpec.next
  have hothers := tracks_commaSeparated tracks_declarator
    c.qualifiers.next.typeSpec.next.declarator.next
  have hsemicolon := tracks_expect (c.qualifiers.next.typeSpec.next.declarator.next.commaSeparated
    Cursor.declarator).next (.punct .semicolon) .declarationEnd
  have hall := hqualifiers.seq (hspec.seq
    (hstars.seq ((hfirst.seq hothers).seq hsemicolon)))
  exact .rule hall

/-! ## Structs -/

theorem tracks_field (c : Cursor) :
    Tracks (.rule .field) c c.field.next c.field.tree.trace := by
  have hqualifiers := tracks_takeWhile c Kind.isQualifier
  have hspec := tracks_typeSpec c.qualifiers.next
  have hstars := tracks_takeWhile c.qualifiers.next.typeSpec.next (· == .operator .star)
  have hname := tracks_expect c.qualifiers.next.typeSpec.next.stars.next .ident .fieldName
  have harray := tracks_arraySuffix
    (c.qualifiers.next.typeSpec.next.stars.next.identifier .fieldName).next
  have hsemicolon := tracks_expect
    (c.qualifiers.next.typeSpec.next.stars.next.identifier .fieldName).next.arraySuffix.next
    (.punct .semicolon) .fieldEnd
  exact .rule (hqualifiers.seq (hspec.seq (hstars.seq (hname.seq (harray.seq hsemicolon)))))

theorem tracks_fields (c : Cursor) :
    Tracks (.recover (sees Kind.startsDeclaration) (.rule .field)) c c.fields.next
      (Trace.all (c.fields.tree.map fun field => field.trace.settled)) :=
  tracks_recovering tracks_field c

/-- What is read as the definition of a struct looks like one. -/
theorem tracks_structDecl {ts : List Token} {definition : Parsed StructDecl (reading ts).residue}
    (h : (reading ts).structDecl? = some definition) :
    seesStruct (shapes ts) = true ∧
      Tracks (.rule .structDecl) (reading ts) definition.next definition.tree.trace := by
  simp only [Cursor.structDecl?, Option.bind_eq_bind, Option.bind_eq_some_iff,
    Option.some.injEq] at h
  obtain ⟨keyword, hkeyword, name, hname, opening, hopening, rfl⟩ := h
  have hfields := tracks_fields opening.next
  have hclosing := tracks_expect opening.next.fields.next (.punct .rbrace) .fieldsEnd
  have hsemicolon := tracks_expect
    (opening.next.fields.next.expect (.punct .rbrace) .fieldsEnd).next (.punct .semicolon)
    .structEnd
  refine ⟨?_, .rule ((tracks_take hkeyword).seq ((tracks_take hname).seq
    ((tracks_take hopening).seq (hfields.seq (hclosing.seq hsemicolon)))))⟩
  obtain ⟨us, hc, hp, hnext⟩ := Cursor.take?_eq_some hkeyword
  obtain ⟨vs, hc', hp', hnext'⟩ := Cursor.take?_eq_some hname
  obtain ⟨ws, hc'', hp'', -⟩ := Cursor.take?_eq_some hopening
  obtain rfl : us = _ := Cursor.reading.inj (hnext.symm.trans hc')
  obtain rfl : vs = _ := Cursor.reading.inj (hnext'.symm.trans hc'')
  rw [Cursor.reading.inj hc]
  simpa [seesStruct, hp, hp'] using hp''

theorem not_seesStruct {ts : List Token} (h : (reading ts).structDecl? = none) :
    seesStruct (shapes ts) = false := by
  refine Bool.eq_false_iff.2 fun hsees => ?_
  match ts with
  | [] => cases hsees
  | [_] => cases hsees
  | [_, _] => cases hsees
  | keyword :: name :: opening :: ts =>
      simp only [seesStruct, shapes, List.map_cons, Token.kind_shape, Bool.and_eq_true,
        beq_iff_eq, and_assoc] at hsees
      obtain ⟨hkeyword, hname, hopening⟩ := hsees
      simp [Cursor.structDecl?, Cursor.take?, hkeyword, hname, hopening] at h

/-! ## Functions -/

theorem tracks_paramArray (c : Cursor) :
    Tracks .paramArray c c.paramArray.next
      (c.paramArray.tree.elim .clear (·.closing.trace)) := by
  unfold Cursor.paramArray
  split
  next hnone => exact .second (Cursor.not_sees_of_take? hnone) .skip
  next taken hsome =>
    have hsize := tracks_optional taken.next (· == .literal .int)
    exact .first (Cursor.sees_of_take? hsome)
      ((tracks_take hsome).seq (hsize.seq (tracks_expect _ _ _)))

theorem tracks_param (c : Cursor) :
    Tracks (.rule .param) c c.param.next c.param.tree.trace := by
  have hqualifiers := tracks_takeWhile c Kind.isQualifier
  have hspec := tracks_typeSpec c.qualifiers.next
  have hstars := tracks_takeWhile c.qualifiers.next.typeSpec.next (· == .operator .star)
  have hname := tracks_expect c.qualifiers.next.typeSpec.next.stars.next .ident .parameterName
  have harray := tracks_paramArray
    (c.qualifiers.next.typeSpec.next.stars.next.identifier .parameterName).next
  exact .rule (hqualifiers.seq (hspec.seq (hstars.seq (hname.seq harray))))

theorem tracks_loneVoid {c : Cursor} {taken : Taken c} (h : c.loneVoid? = some taken) :
    Tracks Rule.params.plan c taken.next .clear := by
  obtain ⟨hword, hclosing⟩ := Cursor.loneVoid?_eq_some.1 h
  refine .first (fun ts hc => ?_) (tracks_take hword)
  obtain ⟨us, hc', hp, hnext⟩ := Cursor.take?_eq_some hword
  rw [hnext, Cursor.sees_eq] at hclosing
  rw [Cursor.reading.inj (hc.symm.trans hc')]
  cases us with
  | nil => cases hclosing
  | cons closing us => simpa [seesLoneVoid, hp] using hclosing

theorem not_seesLoneVoid {ts : List Token} (h : (reading ts).loneVoid? = none) :
    seesLoneVoid (shapes ts) = false := by
  refine Bool.eq_false_iff.2 fun hsees => ?_
  match ts with
  | [] => cases hsees
  | [_] => cases hsees
  | word :: closing :: ts =>
      simp only [seesLoneVoid, shapes, List.map_cons, Token.kind_shape, Bool.and_eq_true,
        beq_iff_eq] at hsees
      obtain ⟨hword, hclosing⟩ := hsees
      simp [Cursor.loneVoid?, Cursor.take?, Cursor.sees, Cursor.head?, hword, hclosing] at h

theorem tracks_params (c : Cursor) :
    Tracks (.opt (seesNo (.punct .rparen)) (.rule .params)) c c.params.next
      c.params.tree.trace := by
  unfold Cursor.params
  split
  next hclosing =>
    exact .second (fun ts hc => by simp [seesNo, sees_of_cursor hclosing ts hc]) .skip
  next hclosing =>
    refine .first (fun ts hc => by simp [seesNo, not_sees_of_cursor hclosing ts hc]) (.rule ?_)
    split
    next taken hsome => exact tracks_loneVoid hsome
    next hnone =>
      have hfirst := tracks_param c
      have hothers := tracks_commaSeparated tracks_param c.param.next
      refine .second (fun ts hc => ?_) (hfirst.seq hothers)
      subst hc
      exact not_seesLoneVoid hnone

/-- The header of a function, and whatever stands behind it. -/
theorem tracks_header {c c' : Cursor} {behind : Plan} {t : Trace}
    (h : Tracks behind c.header.next c' t) :
    Tracks (.header behind) c c' (c.header.tree.trace.andThen t) := by
  have hqualifiers := tracks_takeWhile c Kind.isQualifier
  have hspec := tracks_typeSpec c.qualifiers.next
  have hstars := tracks_takeWhile c.qualifiers.next.typeSpec.next (· == .operator .star)
  have hname := tracks_demand c.qualifiers.next.typeSpec.next.stars.next Kind.namesFunction
    .functionName
  generalize hc₄ : (c.qualifiers.next.typeSpec.next.stars.next.demand Kind.namesFunction
    .functionName).next = c₄ at hname
  have hopening := tracks_expect c₄ (.punct .lparen) .parametersStart
  have hparams := tracks_params (c₄.expect (.punct .lparen) .parametersStart).next
  have hclosing := tracks_expect (c₄.expect (.punct .lparen) .parametersStart).next.params.next
    (.punct .rparen) .parametersEnd
  subst hc₄
  have hall := hqualifiers.seq (hspec.seq (hstars.seq (hname.seq (hopening.seq (hparams.seq
    (hclosing.seq h))))))
  simp only [Header.trace, Trace.andThen_assoc]
  exact hall

/-! ## The decision for a function -/

/-- The tokens behind a type specifier. -/
def pastTypeSpec (ts : List Token) : List Token :=
  if ts.head?.any (·.kind == .keyword .kwStruct) then ts.drop 2
  else ts.dropWhile (·.kind.isTypeWord)

/-- The tokens behind qualifiers, a type specifier and stars. -/
def pastType (ts : List Token) : List Token :=
  (pastTypeSpec (ts.dropWhile (·.kind.isQualifier))).dropWhile (·.kind == .operator .star)

/-- A function begins where a name and a parenthesis stand behind the type. -/
theorem startsFunction_eq (ts : List Token) :
    Cursor.startsFunction ts = seesCall (shapes (pastType ts)) := by
  unfold Cursor.startsFunction pastType pastTypeSpec
  cases ts.dropWhile (·.kind.isQualifier) with
  | nil => rfl
  | cons t rest =>
      simp only [List.head?_cons, Option.any_some, List.drop_succ_cons]
      generalize List.dropWhile (fun t : Token => t.kind == .operator .star) _ = behind
      rcases behind with _ | ⟨name, _ | ⟨opening, behind⟩⟩ <;> rfl

section

variable {f : Token → Token} (hf : ∀ t, (f t).kind = t.kind)

include hf

theorem dropWhile_map_of_kind (p : Kind → Bool) (ts : List Token) :
    (ts.map f).dropWhile (p ·.kind) = (ts.dropWhile (p ·.kind)).map f := by
  rw [List.dropWhile_map]
  simp only [Function.comp_def, hf]

theorem pastTypeSpec_map (ts : List Token) :
    pastTypeSpec (ts.map f) = (pastTypeSpec ts).map f := by
  have hstruct : (ts.map f).head?.any (·.kind == .keyword .kwStruct) =
      ts.head?.any (·.kind == .keyword .kwStruct) := by
    cases ts with
    | nil => rfl
    | cons t ts => simp [hf]
  unfold pastTypeSpec
  rw [hstruct]
  split
  · exact List.map_drop.symm
  · exact dropWhile_map_of_kind hf Kind.isTypeWord ts

theorem pastType_map (ts : List Token) : pastType (ts.map f) = (pastType ts).map f := by
  rw [pastType, dropWhile_map_of_kind hf Kind.isQualifier, pastTypeSpec_map hf,
    dropWhile_map_of_kind hf (· == .operator .star), pastType]

/-- Whether a function begins does not depend on how tokens are spelled and where they stand. -/
theorem startsFunction_map (ts : List Token) :
    Cursor.startsFunction (ts.map f) = Cursor.startsFunction ts := by
  rw [startsFunction_eq, startsFunction_eq, pastType_map hf]
  rcases pastType ts with _ | ⟨name, _ | ⟨opening, behind⟩⟩
  · rfl
  · rfl
  · simp [seesCall, hf]

end

theorem seesFunction_shapes (ts : List Token) :
    seesFunction (shapes ts) = Cursor.startsFunction ts := by
  rw [seesFunction, shapes, List.map_map, startsFunction_map]
  exact fun _ => rfl

end MiniC
