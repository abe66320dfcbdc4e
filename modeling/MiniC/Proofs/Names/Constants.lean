import MiniC.Proofs.Expression.Derived
import MiniC.Proofs.Expression.Places
import MiniC.Proofs.Expression.Rules
import MiniC.Proofs.Names.Writes

/-!
# `MiniC.Proofs.Names.Constants` — which writes to a constant are seen

A write changes a constant if it stays inside of it, and does not if its path follows a pointer.
To follow an array is to stay inside: an array stands for its own elements.  The check takes a
short cut.  It asks whether the constant has a pointer level itself, and whether a star stands in
front of the path, but not what the steps of the path go through.

For a constant without a pointer level the short cut comes down to the stars alone.  It is right
wherever a star follows a pointer, and wherever no star stands and no pointer is followed.  It
misjudges two kinds of places: with a star in front of an array, a write that stays inside is not
seen; and without stars but through a pointer that a member holds, a write elsewhere is complained
of.  Where the path has no members, the places of the first kind are `*v` for an array `v`, and
there are none of the second.

## Contents
- `Expr.followed`, `Place.followsPointer`: **what the steps of a path go through.**
- `Finding.bind_eq_ok`, `dereference_eq_ok`, `indexed_eq_ok`: steps that are not complained of.
- `Indexes`, with `Indexes.stays`: stars and subscripts alone stay inside a variable.
- `Expr.LeavesByMember`, with `leavesByMember_iff`: how a path without stars gets outside.
- `Starred`, with `starred_iff`: how stars stay inside.
- `Place.Misjudged`, with `Place.misjudged_iff`: **the places that are judged the other way.**
- `const_writes_judged`: **what is complained of, and where that is right.**
- `arrayStar_unreported`: a write to an element of a constant that is not seen.
-/

namespace MiniC

open Cursor (reading)

/-! ## What a path goes through -/

/-- The type that is found on an expression. -/
def Expr.typeIn (σ : Symbols) (e : Expr) : CType := (e.typing σ).outcome.toOption.getD .unknown

/-- The types of the values that stars, subscripts and arrows follow, the innermost first. -/
def Expr.followed (σ : Symbols) : Expr → List CType
  | .deref _ operand => operand.followed σ ++ [operand.typeIn σ]
  | .index base _ _ _ => base.followed σ ++ [base.typeIn σ]
  | .member base .through _ _ => base.followed σ ++ [base.typeIn σ]
  | .member base .direct _ _ => base.followed σ
  | _ => []

/-- Whether a value of the type is a pointer, and not an array of pointers. -/
def CType.isAddress (t : CType) : Bool := t.isPointer && !t.isArray

theorem CType.isAddress_of_isArray {t : CType} (h : t.isArray = true) : t.isAddress = false := by
  rw [CType.isAddress, h, Bool.not_true, Bool.and_false]

/-- The place as an expression. -/
def Place.element (p : Place) : Expr := p.stars.foldr Expr.deref p.path

/-- Whether a step of the place goes through a value of pointer type. -/
def Place.followsPointer (σ : Symbols) (p : Place) : Bool :=
  (p.element.followed σ).any CType.isAddress

/-- Whether a member is selected on the way. -/
def Expr.selects : Expr → Bool
  | .index base _ _ _ => base.selects
  | .member _ _ _ _ => true
  | _ => false

/-! ## Steps that are not complained of -/

/-- Two parts of which nothing is complained. -/
theorem Finding.bind_eq_ok {α β : Type} {f : Finding α} {next : α → Finding β} {b : β} :
    f >>= next = ⟨[], .ok b⟩ ↔ ∃ a, f = ⟨[], .ok a⟩ ∧ next a = ⟨[], .ok b⟩ := by
  obtain ⟨issues, hole | a⟩ := f
  · constructor
    · intro h
      cases h
    · rintro ⟨a, h, -⟩
      cases h
  · constructor
    · intro h
      obtain ⟨hissues, houtcome⟩ := Finding.mk.inj h
      obtain ⟨rfl, hmore⟩ := List.append_eq_nil_iff.1 hissues
      exact ⟨a, rfl, Finding.ext hmore houtcome⟩
    · rintro ⟨a', ha, hnext⟩
      cases ha
      rw [Finding.ok_bind, hnext]
      rfl

/-- A type behind a step: what the type leads to, or itself if it is unknown. -/
def CType.LeadsTo (t target : CType) : Prop :=
  ¬t.IsKnown ∧ target = t ∨ t.IsKnown ∧ Points t target

theorem dereference_eq_ok {t target : CType} {star : Token}
    (h : dereference t star = ⟨[], .ok target⟩) : t.LeadsTo target := by
  obtain ⟨type, issues, hrule⟩ := exists_dereferenced star t
  rw [hrule.eq] at h
  cases hrule with
  | unknown hunknown =>
      cases h
      exact .inl ⟨hunknown, rfl⟩
  | target hknown hpoints =>
      cases h
      exact .inr ⟨hknown, hpoints⟩
  | fault hknown hnone => cases h

theorem indexed_eq_ok {t index target : CType} {opening : Token} {site : Option Token}
    (h : indexed opening t index site = ⟨[], .ok target⟩) : t.LeadsTo target := by
  obtain ⟨indexIssues, hindex⟩ := exists_indexing site index
  obtain ⟨type, issues, hrule⟩ := exists_subscripted opening t
  rw [hrule.eq hindex] at h
  obtain ⟨hissues, htype⟩ := Finding.mk.inj h
  obtain rfl := Except.ok.inj htype
  cases hrule with
  | unknown hunknown => exact .inl ⟨hunknown, rfl⟩
  | target hknown hpoints => exact .inr ⟨hknown, hpoints⟩
  | fault hknown hnone => cases (List.append_eq_nil_iff.1 hissues).2

/-- From a type without a pointer level a step leads to another, and if the first is known, to the
elements of an array. -/
theorem CType.LeadsTo.inside {t target : CType} (h : t.LeadsTo target) (hdepth : t.pointers = 0) :
    target.pointers = 0 ∧ (t.IsKnown → t.isArray = true ∧ target = ⟨t.base, 0, false⟩) := by
  rcases h with ⟨hunknown, rfl⟩ | ⟨-, hpoints⟩
  · exact ⟨hdepth, fun hknown => absurd hknown hunknown⟩
  · cases hpoints with
    | array =>
        obtain rfl : _ = 0 := hdepth
        exact ⟨rfl, fun _ => ⟨rfl, rfl⟩⟩
    | pointer => cases hdepth

/-! ## Stars and subscripts alone -/

/-- Stars in front of a variable and subscripts behind it. -/
inductive Indexes (name : Token) : Expr → Prop
  | var : Indexes name (.var name)
  | deref {star : Token} {operand : Expr} :
      Indexes name operand → Indexes name (.deref star operand)
  | index {base subscript : Expr} {opening : Token} {closing : Slot} :
      Indexes name base → Indexes name (.index base opening subscript closing)

/-- An expression of type `t` with a variable at its root that all of its steps stay inside: none
goes through a pointer, and there is one at most, from an array, unless the type is unknown. -/
structure StaysInside (σ : Symbols) (name : Token) (v : Variable) (e : Expr) (t : CType) :
    Prop where
  depth : t.pointers = 0
  steps : ∀ u ∈ e.followed σ, u.pointers = 0
  once : v.type.IsKnown → e = .var name ∧ t = v.type ∨
    e.followed σ = [v.type] ∧ v.type.isArray = true ∧ t = ⟨v.type.base, 0, false⟩

section

variable {σ : Symbols} {name : Token} {v : Variable} {e : Expr} {t target : CType}

theorem Expr.typeIn_eq (h : e.typing σ = ⟨[], .ok t⟩) : e.typeIn σ = t := by
  rw [Expr.typeIn, h]
  rfl

/-- One more step stays inside, too. -/
theorem StaysInside.step (h : StaysInside σ name v e t) (hleads : t.LeadsTo target) {e' : Expr}
    (hfollowed : e'.followed σ = e.followed σ ++ [t]) : StaysInside σ name v e' target where
  depth := (hleads.inside h.depth).1
  steps := by
    intro u hu
    rw [hfollowed, List.mem_append, List.mem_singleton] at hu
    rcases hu with hu | rfl
    · exact h.steps u hu
    · exact h.depth
  once := by
    intro hknown
    obtain ⟨-, hinside⟩ := hleads.inside h.depth
    rcases h.once hknown with ⟨rfl, rfl⟩ | ⟨-, -, rfl⟩
    · exact .inr ⟨hfollowed, hinside hknown⟩
    · cases (hinside hknown).1

/-- **Stars and subscripts alone stay inside a variable** without a pointer level, if nothing is
complained of. -/
theorem Indexes.stays (hvar : σ.var? name.lexeme = some v) (hdepth : v.type.pointers = 0)
    (h : Indexes name e) : ∀ {t : CType}, e.typing σ = ⟨[], .ok t⟩ →
      StaysInside σ name v e t := by
  induction h with
  | var =>
      intro t ht
      rw [Expr.typing, hvar] at ht
      cases ht
      exact ⟨hdepth, fun u hu => (nomatch hu), fun _ => .inl ⟨rfl, rfl⟩⟩
  | @deref star operand _ ih =>
      intro t ht
      obtain ⟨u, hoperand, hstep⟩ := Finding.bind_eq_ok.1 ht
      refine (ih hoperand).step (dereference_eq_ok hstep) ?_
      rw [Expr.followed, Expr.typeIn_eq hoperand]
  | @index base subscript opening closing _ ih =>
      intro t ht
      obtain ⟨u, hbase, hrest⟩ := Finding.bind_eq_ok.1 ht
      obtain ⟨index, -, hrest⟩ := Finding.bind_eq_ok.1 hrest
      obtain ⟨-, -, hstep⟩ := Finding.bind_eq_ok.1 hrest
      refine (ih hbase).step (indexed_eq_ok hstep) ?_
      rw [Expr.followed, Expr.typeIn_eq hbase]

/-- A variable with accesses behind it, none of which selects a member. -/
theorem Indexes.of_rooted : ∀ e : Expr, e.isRooted = true → e.lead = some name →
    e.selects = false → Indexes name e := by
  intro e hrooted hlead hselects
  cases e with
  | var token =>
      cases hlead
      exact .var
  | index base opening subscript closing =>
      exact .index (Indexes.of_rooted base hrooted hlead hselects)
  | member base access operator field => cases hselects
  | _ => cases hrooted

theorem Indexes.starred (h : Indexes name e) (stars : List Token) :
    Indexes name (stars.foldr Expr.deref e) := by
  induction stars with
  | nil => exact h
  | cons star stars ih => exact .deref ih

theorem followed_starred (σ : Symbols) (stars : List Token) (path : Expr) :
    ((stars.foldr Expr.deref path).followed σ).length =
      (path.followed σ).length + stars.length := by
  induction stars with
  | nil => rfl
  | cons star stars ih =>
      rw [List.foldr_cons, Expr.followed, List.length_append, ih, List.length_cons]
      rfl

/-- Nothing is followed in a variable alone. -/
theorem Indexes.eq_var (h : Indexes name e) (hnone : (e.followed σ).length = 0) :
    e = .var name := by
  cases h with
  | var => rfl
  | deref h =>
      rw [Expr.followed, List.length_append] at hnone
      exact absurd hnone (Nat.succ_ne_zero _)
  | index h =>
      rw [Expr.followed, List.length_append] at hnone
      exact absurd hnone (Nat.succ_ne_zero _)

end

/-! ## Members and stars -/

/-- A subscript or an arrow of the path follows a pointer that a member holds. -/
inductive Expr.LeavesByMember (σ : Symbols) : Expr → Prop
  | subscript {base index : Expr} {opening : Token} {closing : Slot} : base.selects = true →
      (base.typeIn σ).isAddress = true → LeavesByMember σ (.index base opening index closing)
  | arrow {base : Expr} {operator : Token} {field : Slot} : base.selects = true →
      (base.typeIn σ).isAddress = true → LeavesByMember σ (.member base .through operator field)
  | behindSubscript {base index : Expr} {opening : Token} {closing : Slot} :
      LeavesByMember σ base → LeavesByMember σ (.index base opening index closing)
  | behindMember {base : Expr} {access : Access} {operator : Token} {field : Slot} :
      LeavesByMember σ base → LeavesByMember σ (.member base access operator field)

/-- Stars in front of a value of type `t` that follow no pointer: there is none, there is one in
front of an array, or the type is unknown. -/
inductive Starred (t : CType) : List Token → CType → Prop
  | none : Starred t [] t
  | array {star : Token} : t.IsKnown → t.isArray = true →
      Starred t [star] ⟨t.base, t.pointers, false⟩
  | unknown {stars : List Token} : stars ≠ [] → ¬t.IsKnown → t.isAddress = false →
      Starred t stars t

section

variable {σ : Symbols} {name : Token} {v : Variable} {path : Expr} {stars : List Token}
variable {t target : CType}

/-- Only a member of a variable without a pointer level holds a pointer. -/
theorem selects_of_isAddress (hvar : σ.var? name.lexeme = some v) (hdepth : v.type.pointers = 0)
    (hrooted : path.isRooted = true) (hlead : path.lead = some name)
    (htyping : path.typing σ = ⟨[], .ok t⟩) (haddress : (path.typeIn σ).isAddress = true) :
    path.selects = true := by
  cases hselects : path.selects with
  | true => rfl
  | false =>
      have hinside := (Indexes.of_rooted path hrooted hlead hselects).stays hvar hdepth htyping
      rw [Expr.typeIn_eq htyping, CType.isAddress, CType.isPointer, hinside.depth] at haddress
      cases haddress

/-- **A path without stars gets outside of a variable by its members alone.** -/
theorem leavesByMember_iff (hvar : σ.var? name.lexeme = some v) (hdepth : v.type.pointers = 0) :
    ∀ path : Expr, path.isRooted = true → path.lead = some name →
      ∀ {t : CType}, path.typing σ = ⟨[], .ok t⟩ →
        (path.LeavesByMember σ ↔ ∃ u ∈ path.followed σ, u.isAddress = true) := by
  intro path hrooted hlead t htyping
  cases path with
  | var token =>
      constructor
      · intro h
        cases h
      · rintro ⟨u, hu, -⟩
        cases hu
  | index base opening subscript closing =>
      have hroot : base.isRooted = true := hrooted
      have hname : base.lead = some name := hlead
      obtain ⟨u, hbase, -⟩ := Finding.bind_eq_ok.1 htyping
      have ih := leavesByMember_iff hvar hdepth base hroot hname hbase
      rw [Expr.followed]
      constructor
      · intro h
        cases h with
        | subscript _ haddress => exact ⟨_, List.mem_append_right _ List.mem_cons_self, haddress⟩
        | behindSubscript h =>
            obtain ⟨w, hw, haddress⟩ := ih.1 h
            exact ⟨w, List.mem_append_left _ hw, haddress⟩
      · rintro ⟨w, hw, haddress⟩
        rcases List.mem_append.1 hw with hw | hw
        · exact .behindSubscript (ih.2 ⟨w, hw, haddress⟩)
        · obtain rfl := List.mem_singleton.1 hw
          -- without a member the base stays inside the variable, where no pointer is
          have hselects := selects_of_isAddress hvar hdepth hroot hname hbase haddress
          exact .subscript hselects haddress
  | member base access operator field =>
      have hroot : base.isRooted = true := hrooted
      have hname : base.lead = some name := hlead
      obtain ⟨u, hbase, -⟩ := Finding.bind_eq_ok.1 htyping
      have ih := leavesByMember_iff hvar hdepth base hroot hname hbase
      cases access with
      | direct =>
          rw [Expr.followed, ← ih]
          constructor
          · intro h
            cases h with
            | behindMember h => exact h
          · exact .behindMember
      | through =>
          rw [Expr.followed]
          constructor
          · intro h
            cases h with
            | arrow _ haddress => exact ⟨_, List.mem_append_right _ List.mem_cons_self, haddress⟩
            | behindMember h =>
                obtain ⟨w, hw, haddress⟩ := ih.1 h
                exact ⟨w, List.mem_append_left _ hw, haddress⟩
          · rintro ⟨w, hw, haddress⟩
            rcases List.mem_append.1 hw with hw | hw
            · exact .behindMember (ih.2 ⟨w, hw, haddress⟩)
            · obtain rfl := List.mem_singleton.1 hw
              have hselects := selects_of_isAddress hvar hdepth hroot hname hbase haddress
              exact .arrow hselects haddress
  | _ => cases hrooted

/-- One more star, where the value is not a pointer. -/
theorem Starred.star {u : CType} (h : Starred t stars u) (hleads : u.LeadsTo target)
    (haddress : u.isAddress = false) (star : Token) : Starred t (star :: stars) target := by
  obtain ⟨base, pointers, array⟩ := t
  rcases hleads with ⟨hunknown, rfl⟩ | ⟨hknown, hpoints⟩
  · cases h with
    | none => exact .unknown (List.cons_ne_nil _ _) hunknown haddress
    | array hknown _ => exact absurd hknown hunknown
    | unknown _ _ _ => exact .unknown (List.cons_ne_nil _ _) hunknown haddress
  · cases h with
    | none =>
        cases hpoints with
        | array => exact .array hknown rfl
        | pointer => cases haddress
    | array _ _ =>
        -- the elements of an array are no arrays
        cases hpoints with
        | pointer => cases haddress
    | unknown _ hunknown _ => exact absurd hknown hunknown

/-- Behind the stars there is a path of which nothing is complained. -/
theorem exists_typing_path : ∀ (stars : List Token) {u : CType},
    (stars.foldr Expr.deref path).typing σ = ⟨[], .ok u⟩ → ∃ t, path.typing σ = ⟨[], .ok t⟩ := by
  intro stars
  induction stars with
  | nil => exact fun hu => ⟨_, hu⟩
  | cons star stars ih =>
      intro u hu
      obtain ⟨u', hu', -⟩ := Finding.bind_eq_ok.1 hu
      exact ih hu'

/-- From an unknown type stars lead nowhere. -/
theorem followed_unknown (hpath : path.typing σ = ⟨[], .ok t⟩) (hunknown : ¬t.IsKnown) :
    ∀ (stars : List Token) {u : CType}, (stars.foldr Expr.deref path).typing σ = ⟨[], .ok u⟩ →
      u = t ∧ ∀ w ∈ (stars.foldr Expr.deref path).followed σ, w ∈ path.followed σ ∨ w = t := by
  intro stars
  induction stars with
  | nil =>
      intro u hu
      rw [List.foldr_nil, hpath] at hu
      cases hu
      exact ⟨rfl, fun w hw => .inl hw⟩
  | cons star stars ih =>
      intro u hu
      obtain ⟨u', hu', hstep⟩ := Finding.bind_eq_ok.1 hu
      obtain ⟨rfl, hfollowed⟩ := ih hu'
      constructor
      · exact ((dereference_eq_ok hstep).resolve_right fun h => hunknown h.1).2
      · intro w hw
        rw [List.foldr_cons, Expr.followed, Expr.typeIn_eq hu'] at hw
        rcases List.mem_append.1 hw with hw | hw
        · exact hfollowed w hw
        · exact .inr (List.mem_singleton.1 hw)

/-- **Stars stay inside of what they stand in front of** if and only if they follow no pointer. -/
theorem starred_iff (hpath : path.typing σ = ⟨[], .ok t⟩) :
    ∀ (stars : List Token) {u : CType}, (stars.foldr Expr.deref path).typing σ = ⟨[], .ok u⟩ →
      ((∀ w ∈ (stars.foldr Expr.deref path).followed σ, w.isAddress = false) ↔
        (∀ w ∈ path.followed σ, w.isAddress = false) ∧ Starred t stars u) := by
  intro stars u hu
  constructor
  · induction stars generalizing u with
    | nil =>
        rw [List.foldr_nil, hpath] at hu
        cases hu
        exact fun hfollowed => ⟨hfollowed, .none⟩
    | cons star stars ih =>
        obtain ⟨u', hu', hstep⟩ := Finding.bind_eq_ok.1 hu
        intro hfollowed
        rw [List.foldr_cons, Expr.followed, Expr.typeIn_eq hu', List.forall_mem_append,
          List.forall_mem_singleton] at hfollowed
        obtain ⟨hinside, hstarred⟩ := ih hu' hfollowed.1
        exact ⟨hinside, hstarred.star (dereference_eq_ok hstep) hfollowed.2 star⟩
  · rintro ⟨hinside, hstarred⟩
    cases hstarred with
    | none => exact hinside
    | @array star _ harray =>
        show ∀ w ∈ path.followed σ ++ [path.typeIn σ], w.isAddress = false
        rw [Expr.typeIn_eq hpath]
        exact List.forall_mem_append.2
          ⟨hinside, List.forall_mem_singleton.2 (CType.isAddress_of_isArray harray)⟩
    | unknown _ hunknown haddress =>
        intro w hw
        rcases (followed_unknown hpath hunknown stars hu).2 w hw with hw | rfl
        · exact hinside w hw
        · exact haddress

end

/-! ## Assignments -/

/-- The path of a place without holes is a name with accesses behind it. -/
theorem isRooted_place {c : Cursor} (h : c.place.tree.path.trace = .clear) :
    c.place.tree.path.isRooted = true := by
  have hpath : c.place.tree.path = (Cursor.accesses
      (c.stars.next.identifier .assignmentTarget).tree.asVar
      (c.stars.next.identifier .assignmentTarget).next).tree := rfl
  rw [hpath] at h ⊢
  cases hname : (c.stars.next.identifier .assignmentTarget).tree with
  | found name =>
      exact Cursor.accesses_keeps (p := fun e => e.isRooted = true) id id rfl _
  | missing hole =>
      rw [hname] at h
      refine absurd h (Cursor.accesses_keeps (p := fun e => ¬e.trace = .clear) ?_ ?_ ?_ _)
      · intro base opening subscript closing hbase hclear
        exact hbase (Trace.andThen_eq_clear.1 hclear).1
      · intro base access operator field hbase hclear
        exact hbase (Trace.andThen_eq_clear.1 hclear).1
      · intro hclear
        exact nomatch congrArg Trace.stop hclear

theorem place_writing (p : Place) (c : Cursor) : (c.writing p).tree.place = p := by
  unfold Cursor.writing
  split
  · rfl
  · split
    · rfl
    · split <;> rfl

/-- What an assignment writes to is a place that was read. -/
theorem exists_place (c : Cursor) : ∃ c₁ : Cursor, c.assignment.tree.place = c₁.place.tree := by
  unfold Cursor.assignment
  split
  next taken _ => exact ⟨taken.next, rfl⟩
  next _ => exact ⟨c, place_writing c.place.tree c.place.next⟩

theorem Assignment.trace_place {a : Assignment} (h : a.trace = .clear) :
    a.place.path.trace = .clear := by
  cases a with
  | stepBefore operator place => exact h
  | stepAfter place operator => exact h
  | store place sign value => exact (Trace.andThen_eq_clear.1 h).1
  | update place operator value => exact (Trace.andThen_eq_clear.1 h).1
  | missing place hole => exact (Trace.andThen_eq_clear.1 h).1

/-- A place of which nothing is complained, as an expression. -/
theorem Place.typing_element {σ : Symbols} {p : Place} (h : p.path.trace = .clear)
    (hquiet : (p.target σ).issues = []) : ∃ t, p.element.typing σ = ⟨[], .ok t⟩ := by
  obtain ⟨target, htarget⟩ := (looks_target h).whole σ
  refine ⟨target.type, ?_⟩
  rw [Place.element, type_target, Finding.bind_eq_ok]
  exact ⟨target, Finding.ext hquiet htarget, rfl⟩

/-- Stars in front of a path without members follow an array, and there is one at most. -/
theorem StaysInside.eq_star {σ : Symbols} {name : Token} {v : Variable} {p : Place} {t : CType}
    (h : StaysInside σ name v p.element t) (hpath : Indexes name p.path)
    (hknown : v.type.IsKnown) (hstars : p.stars ≠ []) :
    ∃ star, p.stars = [star] ∧ p.path = .var name ∧ v.type.isArray = true := by
  have hcount := followed_starred σ p.stars p.path
  have hpositive : 0 < p.stars.length := List.length_pos_iff.2 hstars
  rcases h.once hknown with ⟨hvar, -⟩ | ⟨hfollowed, harray, -⟩
  · rw [← Place.element, hvar] at hcount
    exact absurd hcount (by simp only [Expr.followed, List.length_nil]; omega)
  · rw [← Place.element, hfollowed, List.length_singleton] at hcount
    obtain ⟨star, hstar⟩ := List.length_eq_one_iff.1 (show p.stars.length = 1 by omega)
    exact ⟨star, hstar, hpath.eq_var (show (p.path.followed σ).length = 0 by omega), harray⟩

/-- An assignment to a constant without a pointer level is complained of if and only if no star
stands in front of the path. -/
theorem Assignment.reports_unstarred {σ : Symbols} {a : Assignment} {token : Token} {v : Variable}
    (hclear : a.trace = .clear) (hlead : a.place.path.lead = some token)
    (hvar : σ.var? token.lexeme = some v) (hconst : v.isConst = true)
    (hdepth : v.type.pointers = 0) :
    .fault (.assignedConst token.lexeme) (some token) ∈ (a.check σ).issues ↔
      a.place.stars = [] := by
  have hfrozen : v.isFrozen a.place.stars = a.place.stars.isEmpty := by
    rw [Variable.isFrozen, hconst, CType.isPointer, hdepth]
    rfl
  refine (a.blames hclear σ token.lexeme (some token)).trans ⟨?_, fun hstars => ?_⟩
  · rintro ⟨token', v', hlead', hvar', hfrozen', -, -⟩
    rw [hlead] at hlead'
    cases hlead'
    rw [hvar] at hvar'
    cases hvar'
    rw [hfrozen] at hfrozen'
    exact List.isEmpty_iff.1 hfrozen'
  · refine ⟨token, v, hlead, hvar, ?_, rfl, rfl⟩
    rw [hfrozen, hstars]
    rfl

/-- The path of an assignment that was read is a name with accesses behind it. -/
theorem isRooted_assignment {c : Cursor}
    (hplace : c.assignment.tree.place.path.trace = .clear) :
    c.assignment.tree.place.path.isRooted = true := by
  obtain ⟨c₁, hc⟩ := exists_place c
  rw [hc] at hplace ⊢
  exact isRooted_place hplace

/-! ## What is misjudged -/

/-- The places that are judged the other way, told by what they go through. -/
inductive Place.Misjudged (σ : Symbols) : Place → Prop
  /-- Without stars, the path gets outside through a pointer that a member holds. -/
  | member {path : Expr} : path.LeavesByMember σ → Misjudged σ ⟨[], path⟩
  /-- A star leads to the first element of an array inside the variable. -/
  | array {star : Token} {path : Expr} : ¬path.LeavesByMember σ →
      (path.typeIn σ).isArray = true → Misjudged σ ⟨[star], path⟩
  /-- Stars stand in front of what is inside the variable, and is no pointer that is known. -/
  | unknown {stars : List Token} {path : Expr} : stars ≠ [] → ¬path.LeavesByMember σ →
      ¬(path.typeIn σ).IsKnown → (path.typeIn σ).isAddress = false → Misjudged σ ⟨stars, path⟩

/-- **These are the places without stars that go through a pointer, and those with stars that go
through none.** -/
theorem Place.misjudged_iff {σ : Symbols} {p : Place} {token : Token} {v : Variable}
    (hpath : p.path.trace = .clear) (hrooted : p.path.isRooted = true)
    (hlead : p.path.lead = some token) (hvar : σ.var? token.lexeme = some v)
    (hdepth : v.type.pointers = 0) (hquiet : (p.target σ).issues = []) :
    p.Misjudged σ ↔ (p.stars = [] ↔ p.followsPointer σ = true) := by
  obtain ⟨stars, path⟩ := p
  obtain ⟨u, hu⟩ := Place.typing_element hpath hquiet
  obtain ⟨t, ht⟩ := exists_typing_path stars hu
  have hleaves := leavesByMember_iff hvar hdepth path hrooted hlead ht
  have hstays : ¬path.LeavesByMember σ ↔ ∀ w ∈ path.followed σ, w.isAddress = false := by
    rw [hleaves]
    simp
  have hfollows : (Place.mk stars path).followsPointer σ = false ↔
      ¬path.LeavesByMember σ ∧ Starred t stars u := by
    rw [hstays, ← starred_iff ht stars hu, Place.followsPointer, List.any_eq_false]
    simp only [Bool.not_eq_true]
    rfl
  have htype := Expr.typeIn_eq ht
  constructor
  · intro hmisjudged
    cases hmisjudged with
    | member hmember =>
        refine iff_of_true rfl ?_
        rw [← Bool.not_eq_false, hfollows]
        exact fun h => h.1 hmember
    | @array star _ hinside harray =>
        refine iff_of_false (List.cons_ne_nil _ _) ?_
        rw [Bool.not_eq_true, hfollows]
        rw [htype] at harray
        obtain ⟨t', ht', hstep⟩ := Finding.bind_eq_ok.1 hu
        obtain rfl : t' = t := (Expr.typeIn_eq ht').symm.trans htype
        have haddress : t'.isAddress = false := CType.isAddress_of_isArray harray
        exact ⟨hinside, Starred.none.star (dereference_eq_ok hstep) haddress star⟩
    | unknown hstars hinside hunknown haddress =>
        refine iff_of_false hstars ?_
        rw [Bool.not_eq_true, hfollows]
        rw [htype] at hunknown haddress
        obtain ⟨rfl, -⟩ := followed_unknown ht hunknown stars hu
        exact ⟨hinside, .unknown hstars hunknown haddress⟩
  · intro hjudged
    by_cases hstars : stars = []
    -- without stars the place is its path, so a pointer is followed in the path
    · subst hstars
      have hfollowed := hjudged.1 rfl
      rw [← Bool.not_eq_false, hfollows] at hfollowed
      refine .member (Classical.byContradiction fun hinside => hfollowed ⟨hinside, ?_⟩)
      obtain rfl : t = u := Except.ok.inj (congrArg Finding.outcome (ht.symm.trans hu))
      exact .none
    · have hfollowed := mt hjudged.2 hstars
      rw [Bool.not_eq_true, hfollows] at hfollowed
      obtain ⟨hinside, hstarred⟩ := hfollowed
      cases hstarred with
      | none => exact absurd rfl hstars
      | array _ harray => exact .array hinside (htype ▸ harray)
      | unknown _ hunknown haddress =>
          exact .unknown hstars hinside (htype ▸ hunknown) (htype ▸ haddress)

/-- **What is complained of as a write to a constant, and where that is right.**  An assignment was
read to its end, it begins with the name of a constant without a pointer level, and nothing is
complained of in its place.  Then it is complained of as a write to the constant if and only if no
star stands in front of the path.  So it is judged by whether a step of the place goes through a
pointer, unless the place is misjudged, and then it is judged the other way.  If the path has no
members, no step goes through a pointer, and a place with stars is `*v` for an array `v`. -/
theorem const_writes_judged (σ : Symbols) (ts : List Token) {token : Token} {v : Variable} :
    let a := (reading ts).assignment.tree
    a.trace = .clear → a.place.path.lead = some token → σ.var? token.lexeme = some v →
    v.isConst = true → v.type.pointers = 0 → (a.place.target σ).issues = [] →
    let reported := .fault (.assignedConst token.lexeme) (some token) ∈ (a.check σ).issues
    (reported ↔ a.place.stars = []) ∧
      (¬a.place.Misjudged σ → (reported ↔ a.place.followsPointer σ = false)) ∧
      (a.place.Misjudged σ → (reported ↔ a.place.followsPointer σ = true)) ∧
      (a.place.path.selects = false → a.place.followsPointer σ = false ∧
        (v.type.IsKnown → a.place.stars ≠ [] →
          ∃ star, a.place.stars = [star] ∧ a.place.path = .var token ∧ v.type.isArray = true)) := by
  intro a hclear hlead hvar hconst hdepth hquiet reported
  have hplace : a.place.path.trace = .clear := Assignment.trace_place hclear
  have hrooted : a.place.path.isRooted = true := isRooted_assignment hplace
  have hreported : reported ↔ a.place.stars = [] :=
    Assignment.reports_unstarred hclear hlead hvar hconst hdepth
  have hmisjudged : a.place.Misjudged σ ↔ (a.place.stars = [] ↔ a.place.followsPointer σ = true) :=
    Place.misjudged_iff hplace hrooted hlead hvar hdepth hquiet
  refine ⟨hreported, ?_, ?_, ?_⟩
  · intro hjudged
    rw [hmisjudged, ← hreported] at hjudged
    rw [← Bool.not_eq_true]
    by_cases hfollows : a.place.followsPointer σ = true
    · exact iff_of_false (fun h => hjudged (iff_of_true h hfollows)) fun h => h hfollows
    · refine iff_of_true (Classical.byContradiction fun h => ?_) hfollows
      exact hjudged (iff_of_false h hfollows)
  · intro hmis
    rw [hreported]
    exact hmisjudged.1 hmis
  · intro hselects
    have hpath : Indexes token a.place.path := .of_rooted _ hrooted hlead hselects
    obtain ⟨t, htyping⟩ := Place.typing_element hplace hquiet
    have hinside : StaysInside σ token v a.place.element t :=
      (hpath.starred a.place.stars).stays hvar hdepth htyping
    refine ⟨?_, hinside.eq_star hpath⟩
    rw [Place.followsPointer, List.any_eq_false]
    intro u hu
    rw [CType.isAddress, CType.isPointer, hinside.steps u hu]
    exact Bool.false_ne_true

/-- Symbols in which `a` alone is declared, a constant array of numbers. -/
def onlyArrayA : Symbols := ⟨[[⟨"a", ⟨.int, 0, true⟩, true, 1⟩]], [], []⟩

/-- `*a = 1` -/
def starWrite : List Token :=
  [⟨.operator .star, "*", ⟨1, 30⟩⟩, ⟨.ident, "a", ⟨1, 31⟩⟩, ⟨.operator .assign, "=", ⟨1, 33⟩⟩,
    ⟨.literal .int, "1", ⟨1, 35⟩⟩]

/-- `a[0] = 1` -/
def elementWrite : List Token :=
  [⟨.ident, "a", ⟨1, 38⟩⟩, ⟨.punct .lbracket, "[", ⟨1, 39⟩⟩, ⟨.literal .int, "0", ⟨1, 40⟩⟩,
    ⟨.punct .rbracket, "]", ⟨1, 41⟩⟩, ⟨.operator .assign, "=", ⟨1, 43⟩⟩,
    ⟨.literal .int, "1", ⟨1, 45⟩⟩]

/-- The write to `a[0]` is judged by what its path goes through. -/
theorem elementWrite_judged :
    let a := (reading elementWrite).assignment.tree
    .fault (.assignedConst "a") (some ⟨.ident, "a", ⟨1, 38⟩⟩) ∈ (a.check onlyArrayA).issues ∧
      a.place.followsPointer onlyArrayA = false := by
  intro a
  have hread : a.trace.reported = [] ∧ a.trace.stop = none := by decide +kernel
  have hclear : a.trace = .clear := by
    show Trace.mk a.trace.reported a.trace.stop = ⟨[], none⟩
    rw [hread.1, hread.2]
  have hlead : a.place.path.lead = some ⟨.ident, "a", ⟨1, 38⟩⟩ := by decide +kernel
  have hquiet : (a.place.target onlyArrayA).issues = [] := by decide +kernel
  obtain ⟨hreported, -, -, hinside⟩ :=
    const_writes_judged onlyArrayA elementWrite hclear hlead rfl rfl rfl hquiet
  exact ⟨hreported.2 (by decide +kernel), (hinside (by decide +kernel)).1⟩

/-- `int main() { const int a[3]; *a = 1; a[0] = 1; }` -/
def arrayWrites : List Token :=
  [⟨.keyword (.type .int), "int", ⟨1, 1⟩⟩, ⟨.keyword .kwMain, "main", ⟨1, 5⟩⟩,
      ⟨.punct .lparen, "(", ⟨1, 9⟩⟩, ⟨.punct .rparen, ")", ⟨1, 10⟩⟩,
      ⟨.punct .lbrace, "\x7b", ⟨1, 12⟩⟩, ⟨.keyword (.qualifier .const), "const", ⟨1, 14⟩⟩,
      ⟨.keyword (.type .int), "int", ⟨1, 20⟩⟩, ⟨.ident, "a", ⟨1, 24⟩⟩,
      ⟨.punct .lbracket, "[", ⟨1, 25⟩⟩, ⟨.literal .int, "3", ⟨1, 26⟩⟩,
      ⟨.punct .rbracket, "]", ⟨1, 27⟩⟩, ⟨.punct .semicolon, ";", ⟨1, 28⟩⟩] ++
    starWrite ++ [⟨.punct .semicolon, ";", ⟨1, 36⟩⟩] ++
    elementWrite ++ [⟨.punct .semicolon, ";", ⟨1, 46⟩⟩, ⟨.punct .rbrace, "\x7d", ⟨1, 48⟩⟩]

/-- **A write to an element of a constant array is not complained of if it is written with a
star.**  Neither `*a` nor `a[0]` goes through a pointer, and the second alone is reported. -/
theorem arrayStar_unreported :
    let stream := TokenStream.ofTokens arrayWrites
    stream.program.assignments =
        [(reading starWrite).assignment.tree, (reading elementWrite).assignment.tree] ∧
      stream.program.assignments.map (·.place.followsPointer onlyArrayA) = [false, false] ∧
      stream.program.assignments.map (·.place.path.lead.map Token.lexeme) =
        [some "a", some "a"] ∧
      stream.analyze.diagnostics =
        [⟨.semantic, "Cannot assign to const variable 'a'", ⟨1, 38⟩⟩] :=
  ⟨by decide +kernel, by decide +kernel, by decide +kernel, by decide +kernel⟩

end MiniC
