import MiniC.Proofs.Grammar.Run

/-!
# `MiniC.Proofs.Grammar.First` — what a part of a program begins with

A decision that looks at one token is right if the parts that it lies between begin with tokens
of different kinds.  There are few kinds, so that such a question is settled by going through all
of them; what is needed for it are the kinds that a part may begin with.

## Contents
- `Kind.mem_all`: a statement about all kinds, or about what lies ahead, can be decided.
- `Rule.starts`, `Plan.starts`: the kinds that a part may begin with, with `Derives.starts`.
- `Plan.first`: **what lies ahead of a part, given what lies behind it.**
-/

namespace MiniC

/-! ## All kinds -/

theorem Kind.mem_all (k : Kind) : k ∈ Kind.all := by
  rcases k with ⟨⟨⟩⟩ | _ | _ | ⟨⟨⟨⟩⟩ | ⟨⟨⟩⟩ | _⟩ | ⟨⟨⟩⟩ | ⟨⟨⟩⟩ | _ <;> decide

instance Kind.decidableForall (p : Kind → Prop) [DecidablePred p] : Decidable (∀ k, p k) :=
  decidable_of_iff (∀ k ∈ Kind.all, p k) ⟨fun h k => h k k.mem_all, fun h k _ => h k⟩

instance Kind.decidableForallOption (p : Option Kind → Prop) [DecidablePred p] :
    Decidable (∀ o, p o) :=
  decidable_of_iff (p none ∧ ∀ k, p (some k))
    ⟨fun h o => match o with
      | none => h.1
      | some k => h.2 k,
    fun h => ⟨h none, fun k => h (some k)⟩⟩

/-- The kind of the token ahead, if there is one. -/
def front (ts : List Token) : Option Kind := ts.head?.map Token.kind

@[simp] theorem front_nil : front [] = none := rfl

@[simp] theorem front_cons (t : Token) (ts : List Token) : front (t :: ts) = some t.kind := rfl

theorem sees_shapes (p : Kind → Bool) (ts : List Token) :
    sees p (shapes ts) = (front ts).any p := by
  cases ts <;> rfl

/-! ## First kinds -/

/-- Whether an expression may begin with the kind. -/
def Kind.startsExpression (kind : Kind) : Bool :=
  kind.isUnary || kind.namesFunction || kind.isLiteral || kind == .punct .lparen ||
    kind == .keyword .kwSizeof

/-- Whether an assignment may begin with the kind. -/
def Kind.startsAssignment (kind : Kind) : Bool :=
  kind == .ident || kind == .operator .star || kind.isStep

/-- Whether a part that the rule stands for may begin with the kind. -/
def Rule.starts : Rule → Kind → Bool
  | program, kind => kind.startsDeclaration || kind == .directive
  | structDecl, kind => kind == .keyword .kwStruct
  | field, kind => kind.startsDeclaration
  | functionDecl, kind => kind.startsDeclaration
  | params, kind => kind.startsDeclaration
  | param, kind => kind.startsDeclaration
  | declaration, kind => kind.startsDeclaration
  | declarator, kind => kind == .ident || kind == .operator .star
  | arrayOpt, kind => kind == .punct .lbracket
  | typeSpec, kind => kind.startsTypeSpec
  | statement, kind => kind.opensStatement
  | block, kind => kind == .punct .lbrace
  | body, kind => kind.opensStatement
  | ifElse, kind => kind == .keyword .kwIf
  | whileLoop, kind => kind == .keyword .kwWhile
  | doWhile, kind => kind == .keyword .kwDo
  | forLoop, kind => kind == .keyword .kwFor
  | switch, kind => kind == .keyword .kwSwitch
  | printf, kind => kind == .ident
  | scanf, kind => kind == .ident
  | exit, kind => kind == .keyword .kwReturn
  | assignment, kind => kind.startsAssignment
  | lvalue, kind => kind == .ident || kind == .operator .star
  | expression, kind => kind.startsExpression
  | operation _, kind => kind.startsExpression
  | factor, kind => kind.startsExpression
  | element, kind => kind.startsExpression
  | accessChain, kind => kind.opensAccess
  | functionCall, kind => kind.namesFunction

/-- Whether a part that is read by the plan may begin with the kind. -/
def Plan.starts : Plan → Kind → Bool
  | empty, _ => false
  | token p, kind =>
      p ⟨kind, none⟩ || kind == .ident && (p ⟨kind, some .printf⟩ || p ⟨kind, some .scanf⟩)
  | rule n, kind => n.starts kind
  | seq first second, kind => first.starts kind || !first.solid && second.starts kind
  | choice _ first second, kind => first.starts kind || second.starts kind
  | many _ part, kind => part.starts kind
  | recover _ part, kind => part.starts kind
  | barring _ part, kind => part.starts kind

theorem starts_plan (n : Rule) : ∀ kind, n.plan.starts kind = true → n.starts kind = true := by
  cases n with
  | operation tier => cases tier <;> decide
  | _ => decide

theorem starts_of_shape {p : Shape → Bool} {t : Token} (h : p t.shape = true) :
    (Plan.token p).starts t.kind = true := by
  unfold Token.shape at h
  unfold Plan.starts
  by_cases hident : t.kind = .ident
  · rw [if_pos hident] at h
    cases hcall : FormatCall.ofName? t.lexeme with
    | none => simp_all
    | some call => cases call <;> simp_all
  · rw [if_neg hident] at h
    rw [h, Bool.true_or]

section

variable {P : Plan} {w : List Token}

/-- A part that cannot be empty is not. -/
theorem Derives.ne_nil (h : Derives P.form w) (hP : P.solid = true) : w ≠ [] := by
  generalize hf : P.form = f at h
  induction h generalizing P with
  | token _ => exact List.cons_ne_nil _ _
  | @rule n _ _ ih =>
      cases P <;> cases hf
      exact ih (solid_plan hP) (form_plan n)
  | seq _ _ ih₁ ih₂ =>
      cases P <;> cases hf
      rcases Bool.or_eq_true_iff.1 hP with ha | hb
      · exact List.append_ne_nil_of_left_ne_nil (ih₁ ha rfl) _
      · exact List.append_ne_nil_of_right_ne_nil _ (ih₂ hb rfl)
  | first _ ih =>
      cases P <;> cases hf
      exact ih (Bool.and_eq_true_iff.1 hP).1 rfl
  | second _ ih =>
      cases P <;> cases hf
      exact ih (Bool.and_eq_true_iff.1 hP).2 rfl
  | barring _ _ ih =>
      cases P <;> cases hf
      rw [Plan.solid] at hP
      exact ih hP rfl
  | _ => cases P <;> cases hf <;> cases hP

/-- A part begins with a token of a kind that it may begin with. -/
theorem Derives.starts (h : Derives P.form w) : ∀ t ∈ w.head?, P.starts t.kind = true := by
  generalize hf : P.form = f at h
  induction h generalizing P with
  | empty => exact fun _ ht => absurd ht (by simp)
  | done => exact fun _ ht => absurd ht (by simp)
  | token hp =>
      cases P <;> cases hf
      intro t ht
      obtain rfl : _ = t := Option.some.inj ht
      exact starts_of_shape hp
  | @rule n _ _ ih =>
      cases P <;> cases hf
      exact fun t ht => starts_plan n _ (ih (form_plan n) t ht)
  | @seq _ _ u v h₁ _ ih₁ ih₂ =>
      cases P with
      | seq a b =>
          cases hf
          intro t ht
          unfold Plan.starts
          cases u with
          | nil =>
              have hempty : a.solid = false :=
                eq_false_of_ne_true fun hsolid => h₁.ne_nil hsolid rfl
              rw [ih₂ rfl t ht, hempty]
              simp
          | cons s u => rw [ih₁ rfl t ht, Bool.true_or]
      | _ => cases hf
  | first _ ih =>
      cases P <;> cases hf
      intro t ht
      rw [Plan.starts, ih rfl t ht, Bool.true_or]
  | second _ ih =>
      cases P <;> cases hf
      intro t ht
      rw [Plan.starts, ih rfl t ht, Bool.or_true]
  | @more _ u v _ _ ih₁ ih₂ =>
      intro t ht
      cases u with
      | nil => exact ih₂ hf t ht
      | cons s u => cases P <;> cases hf <;> exact ih₁ rfl t ht
  | barring _ _ ih =>
      cases P <;> cases hf
      intro t ht
      rw [Plan.starts]
      exact ih rfl t ht

/-- What is seen where a part begins that cannot be empty. -/
theorem Derives.sees {p : Kind → Bool} {rest : List Token} (h : Derives P.form w)
    (hP : P.solid = true) (hp : ∀ kind, P.starts kind = true → p kind = true) :
    MiniC.sees p (shapes (w ++ rest)) = true := by
  cases w with
  | nil => exact absurd rfl (h.ne_nil hP)
  | cons t w => exact hp t.kind (h.starts t rfl)

theorem Derives.not_sees {p : Kind → Bool} {rest : List Token} (h : Derives P.form w)
    (hP : P.solid = true) (hp : ∀ kind, P.starts kind = true → p kind = false) :
    MiniC.sees p (shapes (w ++ rest)) = false := by
  cases w with
  | nil => exact absurd rfl (h.ne_nil hP)
  | cons t w => exact hp t.kind (h.starts t rfl)

end

/-! ## What lies ahead -/

/-- What may lie ahead of a part, if `F` tells what may lie behind it. -/
def Plan.first (P : Plan) (F : Option Kind → Bool) : Option Kind → Bool
  | none => !P.solid && F none
  | some kind => P.starts kind || !P.solid && F (some kind)

/-- **What lies ahead of a part, given what lies behind it.** -/
theorem Derives.first_append {P : Plan} {w rest : List Token} {F : Option Kind → Bool}
    (h : Derives P.form w) (hrest : F (front rest) = true) :
    P.first F (front (w ++ rest)) = true := by
  cases w with
  | nil =>
      have hempty : P.solid = false :=
        eq_false_of_ne_true fun hsolid => h.ne_nil hsolid rfl
      rw [List.nil_append]
      cases hfront : front rest with
      | none => rw [Plan.first, hempty, ← hfront, hrest]; rfl
      | some kind => rw [Plan.first, hempty, ← hfront, hrest]; simp
  | cons t w =>
      rw [List.cons_append, front_cons, Plan.first, h.starts t rfl, Bool.true_or]

end MiniC
