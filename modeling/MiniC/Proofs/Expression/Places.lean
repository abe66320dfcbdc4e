import MiniC.Proofs.Checking.Parts
import MiniC.Proofs.Expression.Reading
import MiniC.Proofs.Reading.Stmt

/-!
# `MiniC.Proofs.Expression.Places` — a place is typed like the expression it looks like

Stars, a name and its chain are read in two ways.  Where a value is stored, the stars are
collected first and applied once the chain is known, the innermost first.  Within an expression
each star reads the element behind it and is applied on the way back.  Both ways build the same
path from the same tokens, and both apply the same rules to it in the same order.

## Contents
- `place_agrees`, `element_agrees`: what the two readers make of the tokens.
- `dereferenceAll_append`, `typing_starred`: the stars of an expression, applied all at once.
- `place_typed_as_element`: **a place is typed like the same text read as an element.**
-/

namespace MiniC

open Cursor (reading)

variable {stars rest : List Token} {name : Token}

/-! ## Reading -/

namespace Cursor

/-- The chain behind a name, read from the token behind the name. -/
def path (name : Token) (rest : List Token) : Parsed Expr (reading rest).size :=
  (reading rest).accesses (.var name)

theorem place_agrees (hstars : ∀ star ∈ stars, star.kind = .operator .star)
    (hname : name.kind = .ident) :
    (reading (stars ++ name :: rest)).place.Agrees ((path name rest).map (⟨stars, ·⟩)) := by
  have hrun : (reading (stars ++ name :: rest)).stars.parsed.Agrees
      (.here stars (reading (name :: rest))) :=
    takeWhile_append (fun star hstar => by simp [hstars star hstar]) (by simp [hname])
  have htokens : (reading (stars ++ name :: rest)).stars.tokens = stars := hrun.tree
  have hnext : (reading (stars ++ name :: rest)).stars.next = reading (name :: rest) := hrun.next
  have hident : ((reading (name :: rest)).identifier .assignmentTarget).Agrees
      (.here (.found name) (reading rest)) :=
    demand_cons (p := (· == .ident)) (by simp [hname]) _
  have hbehind := hident.andThen fun name c₂ _ =>
    (accesses name.asVar c₂).map fun path => (⟨stars, path⟩ : Place)
  refine .trans ?_ hbehind
  rw [place]
  constructor <;> simp only [Run.before, Parsed.tree_weaken, Parsed.next_weaken] <;>
    rw [htokens, hnext]

theorem head_of_not_sees {p : Kind → Bool} (h : (reading rest).sees p = false) :
    ∀ t ∈ rest.head?, p t.kind = false := by
  simpa [sees, head?, Option.any_eq_false] using h

theorem takeWhile_none {c : Cursor} {p : Kind → Bool} (h : c.sees p = false) :
    (c.takeWhile p).parsed.Agrees (.here [] c) := by
  cases c with
  | broken hole after => exact .refl _
  | reading ts =>
      have hempty : ∀ t ∈ ([] : List Token), p t.kind = true := fun _ ht => nomatch ht
      exact takeWhile_append hempty (head_of_not_sees h)

/-- A name that is not called is read with its chain, if no step stands behind it. -/
theorem var_agrees (hname : name.kind = .ident)
    (hcall : (reading rest).sees (· == .punct .lparen) = false)
    (hstep : (path name rest).next.sees Kind.isStep = false) :
    (reading (name :: rest)).element.Agrees (path name rest) := by
  have hsteps := (takeWhile_none hstep).map fun steps =>
    steps.foldl Expr.stepped (path name rest).tree
  exact (element_var hname (head_of_not_sees hcall)).trans ⟨hsteps.tree, hsteps.next⟩

theorem element_agrees (hstars : ∀ star ∈ stars, star.kind = .operator .star)
    (hname : name.kind = .ident) (hcall : (reading rest).sees (· == .punct .lparen) = false)
    (hstep : (path name rest).next.sees Kind.isStep = false) :
    (reading (stars ++ name :: rest)).element.Agrees
      ((path name rest).map fun path => stars.foldr Expr.deref path) := by
  induction stars with
  | nil => exact (var_agrees hname hcall hstep).map id
  | cons star stars ih =>
      obtain ⟨hstar, hstars⟩ := List.forall_mem_cons.1 hstars
      exact (element_deref hstar).trans ((ih hstars).map (Expr.deref star))

end Cursor

/-! ## Typing -/

theorem dereferenceAll_append (t : CType) (inner outer : List Token) :
    dereferenceAll t (inner ++ outer) =
      dereferenceAll t inner >>= fun t => dereferenceAll t outer := by
  induction inner generalizing t with
  | nil => exact (pure_bind t fun t => dereferenceAll t outer).symm
  | cons star inner ih => simp only [List.cons_append, dereferenceAll, ih, bind_assoc]

/-- The stars in front of an expression are applied behind it, the innermost first. -/
theorem typing_starred (σ : Symbols) (stars : List Token) (path : Expr) :
    (stars.foldr Expr.deref path).typing σ =
      path.typing σ >>= fun type => dereferenceAll type stars.reverse := by
  induction stars with
  | nil => exact (bind_pure (path.typing σ)).symm
  | cons star stars ih =>
      simp only [List.foldr_cons, Expr.typing, ih, bind_assoc, List.reverse_cons,
        dereferenceAll_append, dereferenceAll, bind_pure]

/-- The type of what a place stands for is that of its path behind its stars. -/
theorem type_target (σ : Symbols) (p : Place) :
    (p.stars.foldr Expr.deref p.path).typing σ =
      p.target σ >>= fun target => pure target.type := by
  simp only [typing_starred, Place.target, bind_assoc, pure_bind, bind_pure]

/-- **A place is typed like the same text read as an element.**  Stars and a name that is not
called stand under the cursor, and neither `++` nor `--` behind the chain of the name.  Then the
issues of the place are those of the element, in the same order.  Either both are read up to the
same token and have the same type, or both stop at the same hole. -/
theorem place_typed_as_element (σ : Symbols)
    (hstars : ∀ star ∈ stars, star.kind = .operator .star) (hname : name.kind = .ident)
    (hcall : (reading rest).sees (· == .punct .lparen) = false)
    (hstep : (reading (stars ++ name :: rest)).place.next.sees Kind.isStep = false) :
    let c := reading (stars ++ name :: rest)
    let written := c.place.checked (·.target σ)
    let read := c.element.checked (·.typing σ)
    written.issues = read.issues ∧
      ((∃ target us, c.place.next = reading us ∧ written.outcome = .ok (target, reading us) ∧
          read.outcome = .ok (target.type, reading us)) ∨
        ∃ hole, c.place.next.hole? = some hole ∧ written.outcome = .error hole ∧
          read.outcome = .error hole) := by
  intro c written read
  have hplace : c.place.Agrees ((Cursor.path name rest).map (⟨stars, ·⟩)) :=
    Cursor.place_agrees hstars hname
  have helement := Cursor.element_agrees hstars hname hcall (hplace.next ▸ hstep)
  have hnext : c.element.next = c.place.next := helement.next.trans hplace.next.symm
  have htyping : c.element.tree.typing σ =
      c.place.tree.target σ >>= fun target => pure target.type := by
    rw [helement.tree, hplace.tree]
    exact type_target σ ⟨stars, _⟩
  refine ⟨?_, ?_⟩
  · rw [Parsed.issues_checked, Parsed.issues_checked, htyping, Finding.issues_bind_pure]
  · simp only [written, read, Parsed.outcome_checked, htyping, Finding.outcome_bind_pure, hnext]
    rcases Parsed.checked_ends (·.target σ) (tracks_place c)
      (leaves_target c.place.tree) with ⟨hole, hhole, houtcome⟩ | ⟨target, us, hus, houtcome⟩
    · exact .inr ⟨hole, hhole, by rw [houtcome]; rfl, by rw [houtcome]; rfl⟩
    · exact .inl ⟨target, us, hus, by rw [houtcome, hus]; rfl, by rw [houtcome, hus]; rfl⟩

/-- `*p[i] = 0;`, with the star and the name apart from the rest. -/
def rowStar : Token := ⟨.operator .star, "*", ⟨1, 1⟩⟩

def rowName : Token := ⟨.ident, "p", ⟨1, 2⟩⟩

def rowRest : List Token :=
  [⟨.punct .lbracket, "[", ⟨1, 3⟩⟩, ⟨.ident, "i", ⟨1, 4⟩⟩, ⟨.punct .rbracket, "]", ⟨1, 5⟩⟩,
    ⟨.operator .assign, "=", ⟨1, 7⟩⟩, ⟨.literal .int, "0", ⟨1, 9⟩⟩,
    ⟨.punct .semicolon, ";", ⟨1, 10⟩⟩]

/-- Where `p` is a pointer to `char*` and `i` is not declared. -/
def rowSymbols : Symbols := ⟨[[⟨"p", ⟨.char, 2, false⟩, false, 1⟩]], [], []⟩

/-- The undeclared index is complained of once in either way, and the type is `char`. -/
theorem rowStore_typed :
    let c := reading ([rowStar] ++ rowName :: rowRest)
    (c.place.checked (·.target rowSymbols)).issues =
        (c.element.checked (·.typing rowSymbols)).issues ∧
      (c.place.checked (·.target rowSymbols)).issues =
        [.fault (.undeclaredVariable "i") (some ⟨.ident, "i", ⟨1, 4⟩⟩)] ∧
      (c.place.tree.target rowSymbols).outcome.toOption.map Target.type = some (.plain .char) :=
  ⟨(place_typed_as_element rowSymbols (by decide) rfl rfl (by decide +kernel)).1,
    by decide +kernel, by decide +kernel⟩

end MiniC
