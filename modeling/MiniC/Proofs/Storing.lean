import MiniC.Proofs.Expression.Derived
import MiniC.Proofs.Expression.Inference
import MiniC.Proofs.Expression.Mentions
import MiniC.Proofs.Expression.Places
import MiniC.Proofs.Names.Declarations
import MiniC.Proofs.Prolonging.Statements

/-!
# `MiniC.Proofs.Storing` — the places that store a value agree

A value is stored where a variable is declared with it, where it is assigned, where it is passed
to a function, and where it is returned.  Each of the four is read and checked by a routine of its
own, and they ask for the type in different ways: it stands in the text, belongs to a variable, to
a parameter, or to the function around.

They agree on what is reported.  In front of the value there is at most a report on the declared
name or its type; then come the issues of the value itself, which are the same wherever it stands;
and behind them stands one fault, of the place's own, if and only if the type does not accept that
of the value.

## Contents
- `Store`, with `tokens`, `part` and `read`: **the four places**, in the text and in the tree.
- `Store.reads`: each place is read from its tokens.
- `Store.Takes`, `Store.mismatch`, `Store.preface`: the type that is expected, and the reports.
- `run_initial`, `run_assigned`, `run_passed`, `run_returned`: what is found, place by place.
- `stores_agree`: **the four places agree on every value and every type.**
-/

namespace MiniC

open Cursor (reading)

/-! ## The four places -/

/-- A place that stores a value, with the tokens around the value. -/
inductive Store
  /-- The declaration `T x = e;` of a variable. -/
  | initial (spec : TypeSpec) (stars : List Token) (name sign semicolon : Token)
  /-- The assignment `x = e` to a variable. -/
  | assigned (name sign : Token)
  /-- The call `f(e)` of a function. -/
  | passed (name opening closing : Token)
  /-- The end `return e;` of a function. -/
  | returned (keyword semicolon : Token)

namespace Store

/-- The tokens of a place that stores the value. -/
def tokens (value : Expr) : Store → List Token
  | initial spec stars name sign semicolon =>
      spec.tokens ++ (stars ++ name :: sign :: (value.tokens ++ [semicolon]))
  | assigned name sign => name :: sign :: value.tokens
  | passed name opening closing => name :: opening :: (value.tokens ++ [closing])
  | returned keyword semicolon => keyword :: (value.tokens ++ [semicolon])

/-- The declaration of one variable with an initial value. -/
def declaring (spec : TypeSpec) (stars : List Token) (name sign semicolon : Token)
    (value : Expr) : Declaration :=
  ⟨[], spec, ⟨stars, .found name, none, some (sign, value)⟩, [], .found semicolon⟩

/-- The part of a program that a place is. -/
def part (value : Expr) : Store → Part
  | initial spec stars name sign semicolon =>
      .statement (.declaration (declaring spec stars name sign semicolon value))
  | assigned name sign => .assignment (.store ⟨[], .var name⟩ sign value)
  | passed name opening closing => .expression (.call name opening value .nil (.found closing))
  | returned keyword semicolon => .statement (.exitWith keyword value (.found semicolon))

/-- The part that is read where the place may stand, and the cursor behind it. -/
def read (c : Cursor) : Store → Part × Cursor
  | initial _ _ _ _ _ | returned _ _ => (.statement c.statement.tree, c.statement.next)
  | assigned _ _ => (.assignment c.assignment.tree, c.assignment.next)
  | passed _ _ _ => (.expression c.expression.tree, c.expression.next)

/-- Whether the tokens are of the kinds that the place asks for. -/
def Spelled : Store → Prop
  | initial spec stars name sign semicolon =>
      spec.Grammatical ∧ (∀ star ∈ stars, star.kind = .operator .star) ∧ name.kind = .ident ∧
        sign.kind = .operator .assign ∧ semicolon.kind = .punct .semicolon
  | assigned name sign => name.kind = .ident ∧ sign.kind = .operator .assign
  | passed name opening closing =>
      (name.kind = .ident ∨ name.kind = .keyword .kwMain) ∧ opening.kind = .punct .lparen ∧
        closing.kind = .punct .rparen
  | returned keyword semicolon =>
      keyword.kind = .keyword .kwReturn ∧ semicolon.kind = .punct .semicolon

/-- What may stand behind the place: anything behind a semicolon. -/
def EndsIn (rest : List Token) : Store → Prop
  | initial _ _ _ _ _ | returned _ _ => True
  | assigned _ _ | passed _ _ _ => EndsExpression rest

end Store

/-! ## Reading -/

section Reading

variable {e : Expr} {spec : TypeSpec} {stars rest : List Token}
variable {name sign keyword opening closing semicolon : Token}

/-- A value is read up to the semicolon behind it. -/
theorem value_agrees (he : e.Grammatical) (hsemicolon : semicolon.kind = .punct .semicolon)
    (rest : List Token) :
    ((reading (e.tokens ++ semicolon :: rest)).expression).Agrees
      (.here e (reading (semicolon :: rest))) := by
  have hends : EndsExpression (semicolon :: rest) := endsExpression_cons (by rw [hsemicolon]; rfl)
  exact (e.readable he).expression (semicolon :: rest) (hends.endsLevel 6)

theorem semicolon_agrees (hsemicolon : semicolon.kind = .punct .semicolon) (site : Site)
    (rest : List Token) :
    ((reading (semicolon :: rest)).expect (.punct .semicolon) site).Agrees
      (.here (.found semicolon) (reading rest)) :=
  Cursor.demand_cons (by simpa using hsemicolon) _

theorem declarator_agrees (he : e.Grammatical)
    (hstars : ∀ star ∈ stars, star.kind = .operator .star) (hname : name.kind = .ident)
    (hsign : sign.kind = .operator .assign) (hsemicolon : semicolon.kind = .punct .semicolon) :
    (reading (stars ++ name :: sign :: (e.tokens ++ semicolon :: rest))).declarator.Agrees
      (.here ⟨stars, .found name, none, some (sign, e)⟩ (reading (semicolon :: rest))) := by
  have hrun : (reading (stars ++ name :: sign :: (e.tokens ++ semicolon :: rest))).stars.parsed
      |>.Agrees (.here stars (reading (name :: sign :: (e.tokens ++ semicolon :: rest)))) :=
    Cursor.takeWhile_append (fun star hstar => by simp [hstars star hstar]) (by simp [hname])
  have hident : ((reading (name :: sign :: (e.tokens ++ semicolon :: rest))).identifier
      .declaredName).Agrees
        (.here (.found name) (reading (sign :: (e.tokens ++ semicolon :: rest)))) :=
    Cursor.demand_cons (p := (· == .ident)) (by simp [hname]) _
  have harray : (reading (sign :: (e.tokens ++ semicolon :: rest))).arraySuffix.Agrees
      (.here none (reading (sign :: (e.tokens ++ semicolon :: rest)))) := by
    rw [Cursor.arraySuffix, Cursor.take?_none (by simp [hsign])]
    exact .refl _
  have hinit : (reading (sign :: (e.tokens ++ semicolon :: rest))).initializer.Agrees
      (.here (some (sign, e)) (reading (semicolon :: rest))) := by
    have hle := (reading (e.tokens ++ semicolon :: rest)).residue_le_size
    rw [Cursor.initializer, Cursor.take?_cons (by simp [hsign])]
    exact (Parsed.Agrees.taken _ _).trans
      (((value_agrees he hsemicolon rest).weaken hle).map_here fun value => some (sign, value))
  have hle := (reading (name :: sign :: (e.tokens ++ semicolon :: rest))).residue_le_size
  exact (hrun.andThen _).trans (((hident.weaken hle).andThen _).trans
    ((harray.andThen _).trans (hinit.map_here _)))

theorem not_isQualifier_of_startsTypeSpec {kind : Kind} (h : kind.startsTypeSpec = true) :
    kind.isQualifier = false := by
  cases kind with
  | keyword word =>
      cases word with
      | qualifier word => exact absurd h (by cases word <;> decide)
      | _ => rfl
  | _ => rfl

/-- No qualifiers stand in front of a type specifier. -/
theorem qualifiers_none (hspec : spec.Grammatical) (rest : List Token) :
    (reading (spec.tokens ++ rest)).qualifiers.parsed.Agrees
      (.here [] (reading (spec.tokens ++ rest))) := by
  refine Cursor.takeWhile_none ?_
  have hsees : (reading (spec.tokens ++ rest)).sees Kind.startsTypeSpec = true :=
    Cursor.sees_typeSpec hspec
  cases hbehind : spec.tokens ++ rest with
  | nil => rfl
  | cons t ts =>
      rw [hbehind] at hsees
      exact not_isQualifier_of_startsTypeSpec hsees

/-- A declaration of one variable is read as far as its semicolon. -/
theorem declaration_agrees (he : e.Grammatical) (hspec : spec.Grammatical)
    (hstars : ∀ star ∈ stars, star.kind = .operator .star) (hname : name.kind = .ident)
    (hsign : sign.kind = .operator .assign) (hsemicolon : semicolon.kind = .punct .semicolon)
    (rest : List Token) :
    (reading (spec.tokens ++ (stars ++ name :: sign :: (e.tokens ++ semicolon :: rest))))
      |>.declaration.Agrees
        (.here (Store.declaring spec stars name sign semicolon e) (reading rest)) := by
  generalize hbehind : stars ++ name :: sign :: (e.tokens ++ semicolon :: rest) = behind
  have hword : ∀ t ∈ behind.head?, t.kind.isTypeWord = false := by
    intro t ht
    rw [← hbehind] at ht
    cases stars with
    | nil =>
        cases ht
        rw [hname]
        rfl
    | cons star stars =>
        cases ht
        rw [hstars _ (List.mem_cons_self ..)]
        rfl
  have hqualifiers := qualifiers_none hspec behind
  have htokens : (reading (spec.tokens ++ behind)).qualifiers.tokens = [] := hqualifiers.tree
  have hnext : (reading (spec.tokens ++ behind)).qualifiers.next =
      reading (spec.tokens ++ behind) := hqualifiers.next
  have htype := Cursor.typeSpec_agrees hspec hword
  have hdeclarator : (reading behind).declarator.Agrees
      (.here ⟨stars, .found name, none, some (sign, e)⟩ (reading (semicolon :: rest))) :=
    hbehind ▸ declarator_agrees he hstars hname hsign hsemicolon
  have hothers : ((reading (semicolon :: rest)).commaSeparated Cursor.declarator).Agrees
      (.here [] (reading (semicolon :: rest))) := by
    rw [Cursor.commaSeparated, Cursor.take?_none (by simp [hsemicolon])]
    exact .refl _
  have hend := semicolon_agrees hsemicolon .declarationEnd rest
  have hle := (reading (semicolon :: rest)).residue_le_size
  have hparts : ((reading (spec.tokens ++ behind)).typeSpec.andThen fun spec c₂ _ =>
      c₂.declarator.andThen fun first c₃ _ =>
      (c₃.commaSeparated Cursor.declarator).andThen fun others c₄ _ =>
      (c₄.expect (.punct .semicolon) .declarationEnd).atMost.map
        (Declaration.mk [] spec first others ·)).Agrees
      (.here (Store.declaring spec stars name sign semicolon e) (reading rest)) :=
    (htype.andThen _).trans ((hdeclarator.andThen _).trans ((hothers.andThen _).trans
      ((hend.weaken hle).map_here _)))
  refine .trans ?_ hparts
  rw [Cursor.declaration]
  constructor
  · simp only [Run.before, Parsed.tree_weaken]
    rw [htokens, hnext]
  · simp only [Run.before, Parsed.next_weaken]
    rw [htokens, hnext]

theorem TypeSpec.trace_of_grammatical (h : spec.Grammatical) : spec.trace = .clear := by
  cases spec with
  | words first rest => rfl
  | struct keyword name =>
      obtain ⟨-, token, rfl, -⟩ := h
      rfl
  | missing hole => exact h.elim

theorem startsDeclaration_of_startsTypeSpec {kind : Kind} (h : kind.startsTypeSpec = true) :
    kind.startsDeclaration = true := by
  rw [Kind.startsTypeSpec, Bool.or_eq_true] at h
  rw [Kind.startsDeclaration, Bool.or_eq_true, Bool.or_eq_true]
  exact h.imp_left .inl

/-- A declaration with an initial value is a statement of its own. -/
theorem declared_agrees (he : e.Grammatical) (hspec : spec.Grammatical)
    (hstars : ∀ star ∈ stars, star.kind = .operator .star) (hname : name.kind = .ident)
    (hsign : sign.kind = .operator .assign) (hsemicolon : semicolon.kind = .punct .semicolon)
    (rest : List Token) :
    (reading (spec.tokens ++ (stars ++ name :: sign :: (e.tokens ++ semicolon :: rest))))
      |>.statement.Agrees
        (.here (.declaration (Store.declaring spec stars name sign semicolon e))
          (reading rest)) := by
  have hdeclaration := declaration_agrees he hspec hstars hname hsign hsemicolon rest
  have hsees : (reading (spec.tokens ++
      (stars ++ name :: sign :: (e.tokens ++ semicolon :: rest)))).sees Kind.startsTypeSpec =
      true := Cursor.sees_typeSpec hspec
  generalize hts : spec.tokens ++ (stars ++ name :: sign :: (e.tokens ++ semicolon :: rest)) = ts
    at hdeclaration hsees ⊢
  have hclear : (reading ts).declaration.tree.trace = .clear := by
    rw [hdeclaration.tree]
    show spec.trace.andThen (((e.trace.andThen .clear)).andThen .clear) = .clear
    rw [TypeSpec.trace_of_grammatical hspec, e.trace_of_grammatical he]
    rfl
  obtain ⟨hstruct, hfunction⟩ := looks_of_declaration (q := []) hclear
  rw [List.append_nil] at hstruct hfunction
  cases ts with
  | nil => exact absurd hsees (by decide)
  | cons t ts =>
      rw [Cursor.statement.eq_1, if_pos (startsDeclaration_of_startsTypeSpec hsees),
        declared_declaration hstruct hfunction]
      exact hdeclaration.map_here Stmt.declaration

/-- A value is assigned to a variable of its own name. -/
theorem assignment_agrees (he : e.Grammatical) (hname : name.kind = .ident)
    (hsign : sign.kind = .operator .assign) (hrest : EndsExpression rest) :
    (reading (name :: sign :: (e.tokens ++ rest))).assignment.Agrees
      (.here (.store ⟨[], .var name⟩ sign e) (reading rest)) := by
  have hpath : (Cursor.path name (sign :: (e.tokens ++ rest))).Agrees
      (.here (.var name) (reading (sign :: (e.tokens ++ rest)))) := by
    refine Cursor.accesses_none (fun t ht => ?_) (.var name)
    cases ht
    rw [hsign]
    exact ⟨rfl, rfl⟩
  have hbare : (reading ([] ++ name :: sign :: (e.tokens ++ rest))).place.Agrees
      ((Cursor.path name (sign :: (e.tokens ++ rest))).map (⟨[], ·⟩)) :=
    Cursor.place_agrees (fun _ hstar => nomatch hstar) hname
  have hplace : (reading (name :: sign :: (e.tokens ++ rest))).place.Agrees
      (.here ⟨[], .var name⟩ (reading (sign :: (e.tokens ++ rest)))) :=
    hbare.trans (hpath.map_here _)
  have hvalue := (e.readable he).expression rest (hrest.endsLevel 6)
  have hwriting : ((reading (sign :: (e.tokens ++ rest))).writing ⟨[], .var name⟩).Agrees
      (.here (.store ⟨[], .var name⟩ sign e) (reading rest)) := by
    have hle := (reading (e.tokens ++ rest)).residue_le_size
    rw [Cursor.writing, Cursor.take?_none (by simp [hsign, Kind.isStep]),
      Cursor.take?_cons (by simp [hsign])]
    exact (Parsed.Agrees.taken _ _).trans
      ((hvalue.weaken hle).map_here (Assignment.store ⟨[], .var name⟩ sign ·))
  rw [Cursor.assignment, Cursor.take?_none (by simp [hname, Kind.isStep])]
  exact (hplace.andThen _).trans hwriting

/-- A value is returned up to its semicolon. -/
theorem return_agrees (he : e.Grammatical) (hkeyword : keyword.kind = .keyword .kwReturn)
    (hsemicolon : semicolon.kind = .punct .semicolon) (rest : List Token) :
    (reading (keyword :: (e.tokens ++ semicolon :: rest))).statement.Agrees
      (.here (.exitWith keyword e (.found semicolon)) (reading rest)) := by
  have hsemicolons : (reading (e.tokens ++ semicolon :: rest)).sees (· == .punct .semicolon) =
      false := by
    refine Expr.not_sees he (fun kind hkind => ?_) _
    rw [beq_eq_false_iff_ne]
    rintro rfl
    exact absurd hkind (by decide)
  have hvalue := value_agrees he hsemicolon rest
  have hend := semicolon_agrees hsemicolon .returnEnd rest
  have hle := (reading (e.tokens ++ semicolon :: rest)).residue_le_size
  have hle' := (reading (semicolon :: rest)).residue_le_size
  have hexit : (Cursor.exit keyword (reading (e.tokens ++ semicolon :: rest))).Agrees
      (.here (.exitWith keyword e (.found semicolon)) (reading rest)) := by
    rw [Cursor.exit, Cursor.take?_none (Cursor.head_of_not_sees hsemicolons)]
    exact ((hvalue.weaken hle).andThen _).trans ((hend.weaken hle').map_here _)
  rw [Cursor.statement.eq_1, if_neg (by rw [hkeyword]; decide)]
  simp only [hkeyword]
  exact hexit

end Reading

/-- **Each place is read from its tokens,** up to whatever may stand behind it. -/
theorem Store.reads {e : Expr} (he : e.Grammatical) {rest : List Token} :
    ∀ store : Store, store.Spelled → store.EndsIn rest →
      store.read (reading (store.tokens e ++ rest)) = (store.part e, reading rest)
  | initial spec stars name sign semicolon, ⟨hspec, hstars, hname, hsign, hsemicolon⟩, _ => by
      have hread := declared_agrees he hspec hstars hname hsign hsemicolon rest
      have htokens : (initial spec stars name sign semicolon).tokens e ++ rest =
          spec.tokens ++ (stars ++ name :: sign :: (e.tokens ++ semicolon :: rest)) := by
        simp [tokens]
      rw [htokens]
      exact Prod.ext (congrArg Part.statement hread.tree) hread.next
  | assigned name sign, ⟨hname, hsign⟩, hrest => by
      have hread := assignment_agrees he hname hsign hrest
      exact Prod.ext (congrArg Part.assignment hread.tree) hread.next
  | passed name opening closing, ⟨hname, hopening, hclosing⟩, hrest => by
      have hcall : (Expr.call name opening e .nil (.found closing)).Grammatical :=
        ⟨hname, hopening, he, trivial, closing, rfl, hclosing⟩
      have hread := (Expr.readable _ hcall).expression rest (hrest.endsLevel 6)
      exact Prod.ext (congrArg Part.expression hread.tree) hread.next
  | returned keyword semicolon, ⟨hkeyword, hsemicolon⟩, _ => by
      have hread := return_agrees he hkeyword hsemicolon rest
      have htokens : (returned keyword semicolon).tokens e ++ rest =
          keyword :: (e.tokens ++ semicolon :: rest) := by
        simp [tokens]
      rw [htokens]
      exact Prod.ext (congrArg Part.statement hread.tree) hread.next

/-! ## Checking -/

namespace Store

/-- Whether the place expects a value of type `T`. -/
def Takes (T : CType) (state : State) : Store → Prop
  | initial spec stars _ _ _ => T = (CType.plain spec.base).withStars stars
  | assigned name _ =>
      ∃ v, state.symbols.var? name.lexeme = some v ∧ v.type = T ∧ v.isConst = false
  | passed name _ _ =>
      name.lexeme ∉ builtins ∧ ∃ f parameter, state.symbols.function? name.lexeme = some f ∧
        f.parameters = [parameter] ∧ parameter.type = T
  | returned _ _ => ∃ f, state.context.function = some f ∧ f.returns = T

/-- Whether the value does not mention the variable that the place declares. -/
def Spares (value : Expr) : Store → Prop
  | initial _ _ name _ _ => ¬Mentions value.words name.lexeme
  | _ => True

/-- The fault that a value of type `t` is where one of type `T` is expected. -/
def mismatch (context : Context) (T t : CType) : Store → Fault
  | initial _ _ name _ _ => .initialValue name.lexeme T t
  | assigned name _ => .assignedValue name.lexeme T t
  | passed name _ _ => .argumentType 1 name.lexeme T t
  | returned _ _ => .resultType (context.function.elim "" (·.name)) T t

/-- What is reported in front of the value: on the type of a declared variable and on its name. -/
def preface (T : CType) (state : State) : Store → List Issue
  | initial spec _ name _ _ =>
      (spec.resolve state.symbols none).issues ++
        (declareVariable name T false state.symbols).2.issues
  | _ => []

end Store

/-- Whether a fault says that a value does not fit where it is stored. -/
def Fault.isMismatch : Fault → Bool
  | initialValue _ _ _ | assignedValue _ _ _ | argumentType _ _ _ _ | resultType _ _ _ => true
  | _ => false

/-- The issues of a value and, behind them, the fault of a place that does not accept it. -/
def storing (fits : Bool) (fault : Fault) (site : Option Token) (issues : List Issue) :
    List Issue :=
  issues ++ if fits then [] else faulty fault site

section Checking

variable {e : Expr} {T type : CType} {issues : List Issue} {spec : TypeSpec} {stars : List Token}
variable {name sign keyword opening closing semicolon : Token} {σ : Symbols}

/-- Two checks, one behind the other, that both have a value. -/
theorem Check.run_ok_bind {α β : Type} {m : Check α} {next : α → Check β} {σ₁ σ₂ : Symbols}
    {first second : List Issue} {a : α} {b : β} (hm : m σ = (σ₁, ⟨first, .ok a⟩))
    (hnext : next a σ₁ = (σ₂, ⟨second, .ok b⟩)) :
    (m >>= next) σ = (σ₂, ⟨first ++ second, .ok b⟩) := by
  rw [Check.bind_run, hm]
  dsimp only
  rw [hnext]

/-- A check behind one that finds nothing and leaves the symbols as they are. -/
theorem Check.run_past {α β : Type} {m : Check α} {next : α → Check β} {a : α}
    (hm : m σ = (σ, ⟨[], .ok a⟩)) : (m >>= next) σ = next a σ := by
  rw [Check.bind_run, hm]
  rfl

/-- A check in front of one that finds nothing and leaves the symbols as they are. -/
theorem Check.run_ahead {α : Type} {m : Check α} {next : α → Check Unit} {σ₁ : Symbols}
    {first : List Issue} {a : α} (hm : m σ = (σ₁, ⟨first, .ok a⟩))
    (hnext : next a σ₁ = (σ₁, ⟨[], .ok ()⟩)) :
    (m >>= next) σ = (σ₁, ⟨first, .ok ()⟩) := by
  rw [Check.run_ok_bind hm hnext, List.append_nil]

/-- A declared name is refused or not, and checking goes on. -/
theorem outcome_declareVariable (name : Token) (type : CType) (isConst : Bool) (σ : Symbols) :
    (declareVariable name type isConst σ).2.outcome = .ok () := by
  rcases declareVariable_cases name type isConst σ with ⟨refusal, h⟩ | ⟨scope, outer, -, h⟩ <;>
    rw [h] <;> rfl

theorem run_checkInitializer (htype : e.typing σ = ⟨issues, .ok type⟩) :
    checkInitializer name T (some (sign, e)) σ =
      (σ, ⟨storing (T.accepts type) (.initialValue name.lexeme T type) e.lead issues, .ok ()⟩) := by
  have hvalue : Check.reading e.typing σ = (σ, ⟨issues, .ok type⟩) := by rw [Check.reading, htype]
  refine Check.run_ok_bind hvalue ?_
  show (σ, Finding.complain _ _ _) = _
  rw [Finding.complain_eq]

/-- A variable is declared, and then its initial value is stored. -/
theorem run_declarator (sign : Token) (hT : T = (CType.plain spec.base).withStars stars)
    (hvoid : T.isVoid = false)
    (htype : e.typing (declareVariable name T false σ).1 = ⟨issues, .ok type⟩) :
    Declarator.check spec.base false ⟨stars, .found name, none, some (sign, e)⟩ σ =
      ((declareVariable name T false σ).1,
        ⟨(declareVariable name T false σ).2.issues ++
          storing (T.accepts type) (.initialValue name.lexeme T type) e.lead issues, .ok ()⟩) := by
  have hname : (liftM (Slot.found name).get : Check Token) σ = (σ, ⟨[], .ok name⟩) := rfl
  have hsuffix : (liftM (((CType.plain spec.base).withStars stars).withSuffix none) :
      Check CType) σ = (σ, ⟨[], .ok T⟩) := by rw [← hT]; rfl
  have hfine : (liftM (Finding.complain (!T.isVoid) (.voidVariable name.lexeme) name) :
      Check Unit) σ = (σ, ⟨[], .ok ()⟩) := by rw [hvoid]; rfl
  have hdeclare : declareVariable name T false σ = ((declareVariable name T false σ).1,
      ⟨(declareVariable name T false σ).2.issues, .ok ()⟩) :=
    Prod.ext rfl (Finding.ext rfl (outcome_declareVariable name T false σ))
  rw [Declarator.check, Check.run_past hname, Check.run_past hsuffix, Check.run_past hfine]
  exact Check.run_ok_bind hdeclare (run_checkInitializer htype)

theorem run_initial (hspec : spec.Grammatical) (hT : T = (CType.plain spec.base).withStars stars)
    (hvoid : T.isVoid = false)
    (htype : e.typing (declareVariable name T false σ).1 = ⟨issues, .ok type⟩) :
    (Store.declaring spec stars name sign semicolon e).check σ =
      ((declareVariable name T false σ).1,
        ⟨((spec.resolve σ none).issues ++ (declareVariable name T false σ).2.issues) ++
          storing (T.accepts type) (.initialValue name.lexeme T type) e.lead issues, .ok ()⟩) := by
  have hbase : Check.reading (fun σ => spec.resolve σ none) σ =
      (σ, ⟨(spec.resolve σ none).issues, .ok spec.base⟩) :=
    Prod.ext rfl (Finding.ext rfl
      (outcome_resolve (TypeSpec.trace_of_grammatical hspec) none σ))
  have hdeclarators : checkDeclarators spec.base false
      [⟨stars, .found name, none, some (sign, e)⟩] σ = _ :=
    Check.run_ahead (run_declarator sign hT hvoid htype) rfl
  rw [Declaration.check, List.append_assoc]
  exact Check.run_ok_bind hbase (Check.run_ahead hdeclarators rfl)

/-- A value is assigned to a variable that may be written to. -/
theorem run_assigned (sign : Token) {v : Variable} (hvar : σ.var? name.lexeme = some v)
    (hT : v.type = T) (hconst : v.isConst = false) (harray : T.isArray = false)
    (htype : e.typing σ = ⟨issues, .ok type⟩) :
    Assignment.check σ (.store ⟨[], .var name⟩ sign e) =
      ⟨storing (T.accepts type) (.assignedValue name.lexeme T type) e.lead issues, .ok ()⟩ := by
  have htarget : Place.target σ ⟨[], .var name⟩ = ⟨[], .ok ⟨name.lexeme, T, false, name⟩⟩ := by
    have hpath : (Expr.var name).typing σ = ⟨[], .ok T⟩ := by
      rw [Expr.typing, hvar, ← hT]
      rfl
    have hfrozen : (σ.var? name.lexeme).any (·.isFrozen []) = false := by
      rw [hvar, Option.any_some, Variable.isFrozen, hconst]
      rfl
    show (Expr.var name).typing σ >>= _ = _
    rw [hpath, Finding.ok_bind]
    show (⟨[], .ok ⟨name.lexeme, T, (σ.var? name.lexeme).any (·.isFrozen []), name⟩⟩ :
      Finding Target) = _
    rw [hfrozen]
  rw [Assignment.check, htarget, Finding.ok_bind, htype]
  simp [Target.checkStore, Target.checkWritable, harray, Finding.complain_eq, storing]

/-- A value is passed to a function of one parameter. -/
theorem run_passed (opening closing : Token) {f : Function} {parameter : Parameter}
    (hbuiltin : name.lexeme ∉ builtins) (hfunction : σ.function? name.lexeme = some f)
    (hparameters : f.parameters = [parameter]) (hT : parameter.type = T)
    (htype : e.HasType σ type issues) :
    (Expr.call name opening e .nil (.found closing)).typing σ =
      ⟨storing (T.accepts type) (.argumentType 1 name.lexeme T type) e.lead issues,
        .ok f.returns⟩ := by
  have hname : f.name = name.lexeme := by
    simpa using List.find?_some hfunction
  have hcalled : Called σ name [⟨type, e.lead⟩] (issues ++ []) f.returns
      ((issues ++ []) ++ mismatches f.name f.parameters [⟨type, e.lead⟩]) :=
    .declared hbuiltin hfunction (by rw [hparameters]; rfl)
  rw [Expr.typing_eq _ (.call htype .nil hcalled)]
  simp [mismatches, storing, hparameters, hname, hT]

/-- A value is returned from a function. -/
theorem run_returned (keyword semicolon : Token) {context : Context} {f : Enclosing}
    (hfunction : context.function = some f) (hT : f.returns = T) (hvoid : T.isVoid = false)
    (htype : e.typing σ = ⟨issues, .ok type⟩) :
    Stmt.check context (.exitWith keyword e (.found semicolon)) σ =
      (σ, ⟨storing (T.accepts type) (.resultType f.name T type) e.lead issues, .ok ()⟩) := by
  have hvalue : Check.reading e.typing σ = (σ, ⟨issues, .ok type⟩) := by rw [Check.reading, htype]
  have hresult : (liftM (context.checkResult type e.lead) : Check Unit) σ =
      (σ, ⟨if T.accepts type then [] else faulty (.resultType f.name T type) e.lead, .ok ()⟩) := by
    rw [Context.checkResult, hfunction]
    show (σ, if f.returns.isVoid then _ else _) = _
    rw [hT, hvoid, if_neg Bool.false_ne_true, Finding.complain_eq]
  rw [Stmt.check]
  exact Check.run_ok_bind hvalue (Check.run_ahead hresult rfl)

end Checking

/-! ## The places agree -/

/-- What is reported in front of a value does not say that a value does not fit. -/
theorem Store.isMismatch_preface {store : Store} (hspelled : store.Spelled) {T : CType}
    {state : State} {issue : Issue} (h : issue ∈ store.preface T state) :
    ∃ fault site, issue = .fault fault site ∧ fault.isMismatch = false := by
  cases store with
  | initial spec stars name sign semicolon =>
      rcases List.mem_append.1 h with hresolve | hdeclare
      · obtain ⟨issues, hspecified⟩ := exists_specified hspelled.1 state.symbols
        obtain ⟨base, heq⟩ := hspecified.eq
        rw [heq] at hresolve
        cases hspecified with
        | words => cases hresolve
        | declared _ => cases hresolve
        | undeclared _ => exact ⟨_, _, List.mem_singleton.1 hresolve, rfl⟩
      · rcases declareVariable_cases name T false state.symbols with
          ⟨refusal, hrefused⟩ | ⟨scope, outer, -, hdeclared⟩
        · rw [hrefused] at hdeclare
          exact ⟨_, _, List.mem_singleton.1 hdeclare, rfl⟩
        · rw [hdeclared] at hdeclare
          cases hdeclare
  | assigned name sign => cases h
  | passed name opening closing => cases h
  | returned keyword semicolon => cases h

/-- What is found where a value is stored: what stands in front of it, its own issues, and the
fault of the place if the value does not fit. -/
theorem Store.run_part {e : Expr} (he : e.Grammatical) {T type : CType} {issues : List Issue}
    {σ : Symbols} (htype : e.typing σ = ⟨issues, .ok type⟩) (harray : T.isArray = false)
    (hvoid : T.isVoid = false) {state : State} (halike : state.symbols.AlikeFor e.words σ) :
    ∀ store : Store, store.Spelled → store.Takes T state → store.Spares e →
      ((store.part e).run state).2 =
        ⟨store.preface T state ++
          storing (T.accepts type) (store.mismatch state.context T type) e.lead issues, .ok ()⟩
  | initial spec stars name sign semicolon, hspelled, hT, hspares => by
      have hbehind : e.typing (declareVariable name T false state.symbols).1 =
          ⟨issues, .ok type⟩ := by
        rw [e.typing_alikeFor (declareVariable_alikeFor T false hspares state.symbols),
          e.typing_alikeFor halike, htype]
      exact congrArg Prod.snd (run_initial hspelled.1 hT hvoid hbehind)
  | assigned name sign, _, ⟨v, hvar, hT, hconst⟩, _ =>
      run_assigned sign hvar hT hconst harray ((e.typing_alikeFor halike).trans htype)
  | passed name opening closing, _, ⟨hbuiltin, f, parameter, hfunction, hparameters, hT⟩, _ => by
      obtain ⟨type', issues', hrules⟩ := e.exists_hasType state.symbols he
      have heq := (e.typing_eq hrules).symm.trans ((e.typing_alikeFor halike).trans htype)
      obtain ⟨rfl, houtcome⟩ := Finding.mk.inj heq
      obtain rfl := Except.ok.inj houtcome
      have hcall := run_passed opening closing hbuiltin hfunction hparameters hT hrules
      show ((Check.reading (Expr.call name opening e .nil (.found closing)).typing >>=
        fun _ => pure ()) state.symbols).2 = _
      rw [Check.bind_run, Check.reading, hcall]
      exact Finding.ext (List.append_nil _) rfl
  | returned keyword semicolon, _, ⟨f, hfunction, hT⟩, _ => by
      have hrun := run_returned keyword semicolon hfunction hT hvoid
        ((e.typing_alikeFor halike).trans htype)
      rw [Store.mismatch, hfunction]
      exact congrArg Prod.snd hrun

/-- **The four places agree on every value and every type.**  An expression has a type and issues
of its own, under any symbols.  Now let it be stored where a value of a type is expected that is
neither an array nor plain `void`: as the initial value of a variable that it does not mention, in
a variable that is not constant, as the one argument of a function, or as the result of the
function around; with other variables around it perhaps, but so that those that it mentions stand
for the same.  Then each place is read from its own tokens, and it goes on to its end.  What it
finds is, behind what may be wrong with a declaration itself, the issues of the expression as they
were, and behind them the fault of the place, at the first token of the expression, if and only if
the type that is expected does not accept that of the expression. -/
theorem stores_agree {e : Expr} (he : e.Grammatical) {T : CType} (harray : T.isArray = false)
    (hvoid : T.isVoid = false) (σ : Symbols) :
    ∃ type issues, e.typing σ = ⟨issues, .ok type⟩ ∧
      ∀ (store : Store) (state : State) (rest : List Token),
        store.Spelled → store.EndsIn rest → store.Takes T state → store.Spares e →
        state.symbols.AlikeFor e.words σ →
        store.read (reading (store.tokens e ++ rest)) = (store.part e, reading rest) ∧
          ((store.part e).run state).2 =
            ⟨store.preface T state ++ (issues ++
              if T.accepts type then [] else faulty (store.mismatch state.context T type) e.lead),
              .ok ()⟩ ∧
          ∀ issue ∈ store.preface T state, ∃ fault site, issue = .fault fault site ∧
            fault.isMismatch = false := by
  obtain ⟨type, issues, hrules⟩ := e.exists_hasType σ he
  have htype := e.typing_eq hrules
  refine ⟨type, issues, htype, ?_⟩
  intro store state rest hspelled hends htakes hspares halike
  refine ⟨store.reads he hspelled hends, ?_, fun issue => Store.isMismatch_preface hspelled⟩
  exact store.run_part he htype harray hvoid halike hspelled htakes hspares

/-- A text, stored where a number is expected. -/
def textValue : Expr := .literal .string ⟨.literal .string, "\"a\"", ⟨1, 9⟩⟩

/-- The body of the function `g`, which returns a number; `x` is a number, and `f` takes one. -/
def inNumbers : State where
  symbols := ⟨[[⟨"x", .int, false, 1⟩]], [⟨"f", .int, [⟨"n", .int⟩], 1, true⟩], []⟩
  context := .body ⟨"g", .int⟩
  struct := none

/-- `int y = "a";` -/
def initialY : Store :=
  .initial (.words ⟨.keyword (.type .int), "int", ⟨1, 1⟩⟩ []) [] ⟨.ident, "y", ⟨1, 5⟩⟩
    ⟨.operator .assign, "=", ⟨1, 7⟩⟩ ⟨.punct .semicolon, ";", ⟨1, 12⟩⟩

/-- `x = "a"` -/
def assignedX : Store := .assigned ⟨.ident, "x", ⟨1, 5⟩⟩ ⟨.operator .assign, "=", ⟨1, 7⟩⟩

/-- `f("a")` -/
def passedF : Store :=
  .passed ⟨.ident, "f", ⟨1, 7⟩⟩ ⟨.punct .lparen, "(", ⟨1, 8⟩⟩ ⟨.punct .rparen, ")", ⟨1, 12⟩⟩

/-- `return "a";` -/
def returnedG : Store :=
  .returned ⟨.keyword .kwReturn, "return", ⟨1, 2⟩⟩ ⟨.punct .semicolon, ";", ⟨1, 12⟩⟩

/-- Each of the four places complains once that a text is no number, in its own words. -/
theorem textStores_agree :
    let found (store : Store) := ((store.part textValue).run inNumbers).2.issues
    let text : CType := ⟨.char, 1, false⟩
    found initialY = faulty (.initialValue "y" .int text) textValue.lead ∧
      found assignedX = faulty (.assignedValue "x" .int text) textValue.lead ∧
      found passedF = faulty (.argumentType 1 "f" .int text) textValue.lead ∧
      found returnedG = faulty (.resultType "g" .int text) textValue.lead := by
  intro found text
  obtain ⟨type, issues, htype, hstores⟩ :=
    stores_agree (e := textValue) rfl (T := .int) rfl rfl inNumbers.symbols
  obtain ⟨rfl, houtcome⟩ := Finding.mk.inj htype
  obtain rfl := Except.ok.inj houtcome
  have hfound (store : Store) (hspelled : store.Spelled) (hends : store.EndsIn [])
      (htakes : store.Takes .int inNumbers) (hspares : store.Spares textValue) :
      found store = store.preface .int inNumbers ++
        faulty (store.mismatch inNumbers.context .int text) textValue.lead :=
    congrArg Finding.issues
      (hstores store inNumbers [] hspelled hends htakes hspares (.refl _ _)).2.1
  have hnone {p : Token → Prop} : ∀ t ∈ ([] : List Token), p t := fun _ ht => nomatch ht
  have hspared : initialY.Spares textValue := by
    rintro ⟨word, hword, huse, -⟩
    rw [List.mem_singleton.1 hword] at huse
    cases huse
  refine ⟨?_, ?_, ?_, ?_⟩
  · exact hfound initialY ⟨⟨rfl, hnone⟩, hnone, rfl, rfl, rfl⟩ trivial rfl hspared
  · exact hfound assignedX ⟨rfl, rfl⟩ (fun _ ht => nomatch ht) ⟨_, rfl, rfl, rfl⟩ trivial
  · exact hfound passedF ⟨.inl rfl, rfl, rfl⟩ (fun _ ht => nomatch ht)
      ⟨by decide, _, _, rfl, rfl, rfl⟩ trivial
  · exact hfound returnedG ⟨rfl, rfl⟩ trivial ⟨_, rfl, rfl⟩ trivial

end MiniC
