import MiniC.Proofs.Expression.Trees
import MiniC.Proofs.Reading.Expr

/-!
# `MiniC.Proofs.Expression.Reading` — what each reader of expressions does where its tokens stand

Every reader is unfolded once, on a cursor where the tokens that it asks for are there: it reads
its parts, and goes on as the reader behind them does.  Loops that lengthen a tree on its left go
on with the longer tree.  Where nothing goes on with a tree, the tree is the result.

## Contents
- `Parsed.Agrees`: two results with the same tree and the same cursor.
- `Kind.extends`, `EndsLevel`, `EndsExpression`: what would go on with an expression of a level.
- `Cursor.behind`: what is read behind the tokens of an element, with `behind_none`.
- `element_deref`, `accesses_subscript`, `operations_cons`, …: one lemma for each way a reader goes.
-/

namespace MiniC

open Cursor (reading)

/-! ## Results that agree -/

/-- Two results with the same tree and the same cursor behind it. -/
structure Parsed.Agrees {α : Type} {m n : Nat} (r : Parsed α m) (r' : Parsed α n) : Prop where
  tree : r.tree = r'.tree
  next : r.next = r'.next

namespace Parsed.Agrees

variable {α β : Type} {l m n : Nat} {r : Parsed α m} {r' : Parsed α n} {r'' : Parsed α l}
variable {a : α} {c : Cursor}

theorem refl (r : Parsed α m) : r.Agrees r := ⟨rfl, rfl⟩

theorem trans (h : r.Agrees r') (h' : r'.Agrees r'') : r.Agrees r'' :=
  ⟨h.tree.trans h'.tree, h.next.trans h'.next⟩

theorem of_eq {r r' : Parsed α m} (h : r = r') : r.Agrees r' := h ▸ refl r

theorem map (f : α → β) (h : r.Agrees r') : (r.map f).Agrees (r'.map f) :=
  ⟨congrArg f h.tree, h.next⟩

theorem map_here (f : α → β) (h : r.Agrees (.here a c)) : (r.map f).Agrees (.here (f a) c) :=
  ⟨congrArg f h.tree, h.next⟩

theorem weaken (h : r.Agrees r') {k : Nat} (hle : m ≤ k) : (r.weaken hle).Agrees r' :=
  ⟨h.tree, h.next⟩

/-- What is read on behind parts that agree. -/
theorem andThen_same (h : r.Agrees r') (next : α → (c : Cursor) → Parsed β c.size) :
    (r.andThen fun a c _ => next a c).Agrees (r'.andThen fun a c _ => next a c) := by
  obtain ⟨tree, c, le⟩ := r
  obtain ⟨tree', c', le'⟩ := r'
  obtain ⟨htree, hnext⟩ := h
  dsimp only at htree hnext
  subst htree hnext
  exact ⟨rfl, rfl⟩

/-- What is read on behind a token. -/
theorem taken {c : Cursor} (t : Taken c)
    (next : Token → (c₁ : Cursor) → c₁.size < c.size → Parsed β c₁.size) :
    (t.andThen next).Agrees (next t.token t.next t.lt) := ⟨rfl, rfl⟩

theorem size_le (h : r.Agrees (.here a c)) : c.size ≤ m := by
  have hle := r.le
  rw [h.next] at hle
  exact hle

/-- What is read on behind a part. -/
theorem andThen (h : r.Agrees (.here a c))
    (next : α → (c : Cursor) → c.size ≤ m → Parsed β c.size) :
    (r.andThen next).Agrees (next a c h.size_le) := by
  obtain ⟨tree, c', le⟩ := r
  obtain ⟨htree, hnext⟩ := h
  simp only [tree_here, next_here] at htree hnext
  subst htree hnext
  exact ⟨rfl, rfl⟩

end Parsed.Agrees

namespace Cursor

variable {t : Token} {ts : List Token} {p : Kind → Bool} {kind : Kind}

theorem take?_cons (h : p t.kind = true) :
    (reading (t :: ts)).take? p = some ⟨t, reading ts, Nat.lt_succ_self _⟩ :=
  if_pos h

theorem take?_none (h : ∀ t ∈ ts.head?, p t.kind = false) : (reading ts).take? p = none := by
  cases ts with
  | nil => rfl
  | cons t ts =>
      refine if_neg ?_
      rw [h t rfl]
      exact Bool.false_ne_true

theorem demand_cons (h : p t.kind = true) (wanted : Wanted) :
    ((reading (t :: ts)).demand p wanted).Agrees (.here (.found t) (reading ts)) := by
  rw [demand, if_pos h]
  exact ⟨rfl, rfl⟩

/-- A slot of the grammar is read from its token. -/
theorem expect_slot {slot : Slot} (h : slot.Holds kind) (site : Site) (ts : List Token) :
    ((reading (slot.tokens ++ ts)).expect kind site).Agrees (.here slot (reading ts)) := by
  obtain ⟨t, rfl, hkind⟩ := h
  exact demand_cons (by simpa using hkind) _

theorem sees_cons (h : p t.kind = true) : (reading (t :: ts)).sees p = true := h

/-- A run of tokens ends where one of another kind stands. -/
theorem takeWhile_append {run : List Token} (hrun : ∀ t ∈ run, p t.kind = true)
    (hends : ∀ t ∈ ts.head?, p t.kind = false) :
    ((reading (run ++ ts)).takeWhile p).parsed.Agrees (.here run (reading ts)) := by
  have htail : ts.takeWhile (p ·.kind) = [] ∧ ts.dropWhile (p ·.kind) = ts := by
    cases ts with
    | nil => exact ⟨rfl, rfl⟩
    | cons t ts => simp [hends t rfl]
  constructor
  · show (run ++ ts).takeWhile (p ·.kind) = run
    rw [List.takeWhile_append_of_pos hrun, htail.1, List.append_nil]
  · show reading ((run ++ ts).dropWhile (p ·.kind)) = reading ts
    rw [List.dropWhile_append_of_pos hrun, htail.2]

end Cursor

/-! ## What would go on with an expression -/

/-- Whether a token of the kind goes on with an expression of a level in front of it. -/
def Kind.extends (level : Nat) (kind : Kind) : Bool :=
  kind == .punct .lparen || kind == .punct .lbracket || kind.access?.isSome || kind.isStep ||
    [Tier.multiplicative, .additive, .relational, .logical].any
      (fun tier => tier.level ≤ level && tier.has kind) ||
    (6 ≤ level && kind == .punct .question)

/-- The rest does not go on with an expression of the level. -/
def EndsLevel (level : Nat) (rest : List Token) : Prop :=
  ∀ t ∈ rest.head?, t.kind.extends level = false

/-- Whether the token is one of those that stand behind a whole expression. -/
def Kind.closes (kind : Kind) : Bool :=
  kind ∈ [.punct .rparen, .punct .rbracket, .punct .semicolon, .punct .comma, .punct .colon, .eof]

/-- The rest is empty or begins with a token that stands behind a whole expression. -/
def EndsExpression (rest : List Token) : Prop := ∀ t ∈ rest.head?, t.kind.closes = true

section

variable {level level' : Nat} {rest : List Token} {kind : Kind} {t : Token}

theorem EndsExpression.endsLevel (h : EndsExpression rest) (level : Nat) :
    EndsLevel level rest := by
  intro t ht
  have hkind := h t ht
  simp only [Kind.closes, List.mem_cons, List.not_mem_nil, or_false, decide_eq_true_eq] at hkind
  rcases hkind with hkind | hkind | hkind | hkind | hkind | hkind <;> rw [hkind] <;>
    simp [Kind.extends, Kind.access?, Kind.isStep, Tier.has]

theorem EndsLevel.mono (h : EndsLevel level rest) (hle : level' ≤ level) :
    EndsLevel level' rest := by
  intro t ht
  have hkind := h t ht
  simp only [Kind.extends, Bool.or_eq_false_iff] at hkind ⊢
  obtain ⟨⟨hbase, htiers⟩, hquestion⟩ := hkind
  refine ⟨⟨hbase, ?_⟩, ?_⟩
  · rw [List.any_eq_false] at htiers ⊢
    intro tier htier
    have hno := htiers tier htier
    simp only [Bool.and_eq_true, decide_eq_true_eq, not_and] at hno ⊢
    exact fun hlevel => hno (Nat.le_trans hlevel hle)
  · rw [Bool.and_eq_false_iff, decide_eq_false_iff_not] at hquestion ⊢
    rcases hquestion with hquestion | hquestion
    · exact .inl fun hlevel => hquestion (Nat.le_trans hlevel hle)
    · exact .inr hquestion

theorem EndsLevel.lparen (h : EndsLevel level rest) :
    ∀ t ∈ rest.head?, (t.kind == .punct .lparen) = false := by
  intro t ht
  have hkind := h t ht
  simp only [Kind.extends, Bool.or_eq_false_iff] at hkind
  exact hkind.1.1.1.1.1

theorem EndsLevel.lbracket (h : EndsLevel level rest) :
    ∀ t ∈ rest.head?, (t.kind == .punct .lbracket) = false := by
  intro t ht
  have hkind := h t ht
  simp only [Kind.extends, Bool.or_eq_false_iff] at hkind
  exact hkind.1.1.1.1.2

theorem EndsLevel.access (h : EndsLevel level rest) :
    ∀ t ∈ rest.head?, t.kind.access?.isSome = false := by
  intro t ht
  have hkind := h t ht
  simp only [Kind.extends, Bool.or_eq_false_iff] at hkind
  exact hkind.1.1.1.2

theorem EndsLevel.step (h : EndsLevel level rest) :
    ∀ t ∈ rest.head?, t.kind.isStep = false := by
  intro t ht
  have hkind := h t ht
  simp only [Kind.extends, Bool.or_eq_false_iff] at hkind
  exact hkind.1.1.2

theorem EndsLevel.tier {tier : Tier} (h : EndsLevel level rest) (hle : tier.level ≤ level) :
    ∀ t ∈ rest.head?, tier.has t.kind = false := by
  intro t ht
  have hkind := h t ht
  simp only [Kind.extends, Bool.or_eq_false_iff] at hkind
  have hno := List.any_eq_false.1 hkind.1.2 tier (by cases tier <;> decide)
  rw [Bool.and_eq_true, decide_eq_true_eq, not_and, Bool.not_eq_true] at hno
  exact hno hle

theorem EndsLevel.question (h : EndsLevel 6 rest) :
    ∀ t ∈ rest.head?, (t.kind == .punct .question) = false := by
  intro t ht
  have hkind := h t ht
  simp only [Kind.extends, Bool.or_eq_false_iff] at hkind
  simpa using hkind.2

theorem extends_of_has {tier : Tier} (h : tier.has kind = true) :
    kind.extends (tier.rank + 1) = false := by
  cases kind with
  | operator sign =>
      revert h
      cases tier <;> cases sign <;> decide
  | _ => cases tier <;> exact absurd h Bool.false_ne_true

/-- An operator ends the operands of its own tier. -/
theorem endsLevel_operator {tier : Tier} (h : tier.has t.kind = true) :
    EndsLevel (tier.rank + 1) (t :: rest) := by
  intro u hu
  cases hu
  exact extends_of_has h

/-- A question mark ends the condition in front of it. -/
theorem endsLevel_question (h : t.kind = .punct .question) : EndsLevel 5 (t :: rest) := by
  intro u hu
  cases hu
  rw [h]
  decide

theorem endsExpression_cons (h : t.kind.closes = true) : EndsExpression (t :: rest) := by
  intro u hu
  cases hu
  exact h

theorem endsExpression_slot {slot : Slot} (h : slot.Holds kind) (hkind : kind.closes = true) :
    EndsExpression (slot.tokens ++ rest) := by
  obtain ⟨t, rfl, rfl⟩ := h
  exact endsExpression_cons hkind

end

/-! ## Behind an element -/

namespace Cursor

/-- Read the steps behind a variable with its chain. -/
def stepsBehind (path : Expr) (c : Cursor) : Parsed Expr c.size :=
  (c.takeWhile Kind.isStep).parsed.map (·.foldl .stepped path)

/-- Read on behind a path: its chain goes on, and steps may stand behind a variable. -/
def pathBehind (path : Expr) (c : Cursor) : Parsed Expr c.size :=
  if path.isRooted then (accesses path c).andThen fun path c₁ _ => stepsBehind path c₁
  else accesses path c

/-- Read on behind an element: a path at its end goes on, or its steps. -/
def behind : (e : Expr) → (c : Cursor) → Parsed Expr c.size
  | .deref star operand, c => (behind operand c).map (.deref star)
  | .address ampersand operand, c => (behind operand c).map (.address ampersand)
  | .unary operator operand, c => (behind operand c).map (.unary operator)
  | .stepped operand operator, c => stepsBehind (.stepped operand operator) c
  | e, c => if e.isPath then pathBehind e c else .here e c

end Cursor

/-- The rest does not go on with the element. -/
structure EndsElement (e : Expr) (rest : List Token) : Prop where
  lparen : ∀ t ∈ rest.head?, (t.kind == .punct .lparen) = false
  step : ∀ t ∈ rest.head?, t.kind.isStep = false
  access : e.endsInPath = true → ∀ t ∈ rest.head?,
    (t.kind == .punct .lbracket) = false ∧ t.kind.access?.isSome = false

theorem EndsLevel.endsElement {level : Nat} {rest : List Token} (h : EndsLevel level rest)
    (e : Expr) : EndsElement e rest :=
  ⟨h.lparen, h.step, fun _ t ht => ⟨h.lbracket t ht, h.access t ht⟩⟩

namespace Cursor

variable {t : Token} {ts rest : List Token} {e : Expr}

theorem stepsBehind_none (h : ∀ t ∈ rest.head?, t.kind.isStep = false) (path : Expr) :
    (stepsBehind path (reading rest)).Agrees (.here path (reading rest)) := by
  have hempty : ∀ t ∈ ([] : List Token), t.kind.isStep = true := fun _ ht => nomatch ht
  have hnone := takeWhile_append hempty h
  exact hnone.map_here fun steps : List Token => steps.foldl Expr.stepped path

/-- A step behind a path or another step is read with those that follow. -/
theorem stepsBehind_cons (h : t.kind.isStep = true) (path : Expr) (ts : List Token) :
    (stepsBehind path (reading (t :: ts))).Agrees
      (stepsBehind (.stepped path t) (reading ts)) := by
  constructor
  · show ((t :: ts).takeWhile (·.kind.isStep)).foldl Expr.stepped path =
      (ts.takeWhile (·.kind.isStep)).foldl .stepped (.stepped path t)
    rw [List.takeWhile_cons, if_pos h]
    rfl
  · show reading ((t :: ts).dropWhile (·.kind.isStep)) = reading (ts.dropWhile (·.kind.isStep))
    rw [List.dropWhile_cons, if_pos h]

theorem accesses_none (h : ∀ t ∈ rest.head?,
      (t.kind == .punct .lbracket) = false ∧ t.kind.access?.isSome = false) (base : Expr) :
    (accesses base (reading rest)).Agrees (.here base (reading rest)) := by
  have hbracket := take?_none (p := (· == .punct .lbracket)) fun t ht => (h t ht).1
  have haccess := take?_none (p := (·.access?.isSome)) fun t ht => (h t ht).2
  rw [accesses, hbracket]
  simp only [haccess]
  exact .refl _

theorem pathBehind_none (hpath : e.isPath = true) (hends : e.endsInPath = e.isPath)
    (h : EndsElement e rest) :
    (pathBehind e (reading rest)).Agrees (.here e (reading rest)) := by
  have haccess := accesses_none (h.access (hends.trans hpath)) e
  rw [pathBehind]
  by_cases hrooted : e.isRooted = true
  · rw [if_pos hrooted]
    exact (haccess.andThen _).trans (stepsBehind_none h.step e)
  · rw [if_neg hrooted]
    exact haccess

/-- Where the element ends nothing is read behind it. -/
theorem behind_none : ∀ e : Expr, EndsElement e rest →
    (behind e (reading rest)).Agrees (.here e (reading rest))
  | .deref star operand, h => (behind_none operand ⟨h.lparen, h.step, h.access⟩).map_here _
  | .address ampersand operand, h =>
      (behind_none operand ⟨h.lparen, h.step, h.access⟩).map_here _
  | .unary operator operand, h =>
      (behind_none operand ⟨h.lparen, h.step, h.access⟩).map_here _
  | .stepped _ _, h => stepsBehind_none h.step _
  | .var _, h => pathBehind_none rfl rfl h
  | .group _ _ _, h => pathBehind_none rfl rfl h
  | .index base opening subscript closing, h => by
      by_cases hpath : base.isPath = true
      · exact (Parsed.Agrees.of_eq (if_pos hpath)).trans (pathBehind_none hpath rfl h)
      · exact .of_eq (if_neg hpath)
  | .member base access operator field, h => by
      by_cases hpath : base.isPath = true
      · exact (Parsed.Agrees.of_eq (if_pos hpath)).trans (pathBehind_none hpath rfl h)
      · exact .of_eq (if_neg hpath)
  | .literal _ _, _ => .refl _
  | .emptyCall _ _ _, _ => .refl _
  | .call _ _ _ _ _, _ => .refl _
  | .binary _ _ _ _, _ => .refl _
  | .conditional _ _ _ _ _, _ => .refl _
  | .sizeofType _ _ _ _ _, _ => .refl _
  | .sizeofExpr _ _ _ _, _ => .refl _
  | .missing _, _ => .refl _

theorem behind_path (h : e.isPath = true) (c : Cursor) : behind e c = pathBehind e c := by
  cases e <;> exact if_pos h

/-- A path goes on as its chain goes on. -/
theorem pathBehind_agrees {path path' : Expr} {c c' : Cursor}
    (h : (accesses path c).Agrees (accesses path' c')) (hrooted : path.isRooted = path'.isRooted) :
    (pathBehind path c).Agrees (pathBehind path' c') := by
  unfold pathBehind
  rw [← hrooted]
  by_cases hpath : path.isRooted = true
  · rw [if_pos hpath, if_pos hpath]
    exact h.andThen_same stepsBehind
  · rw [if_neg hpath, if_neg hpath]
    exact h

/-! ## One reader at a time -/

theorem element_deref (h : t.kind = .operator .star) :
    (element (reading (t :: ts))).Agrees ((element (reading ts)).map (.deref t)) := by
  rw [element]
  simp only [h]
  exact ⟨rfl, rfl⟩

theorem element_address (h : t.kind = .operator .amp) :
    (element (reading (t :: ts))).Agrees ((element (reading ts)).map (.address t)) := by
  rw [element]
  simp only [h]
  exact ⟨rfl, rfl⟩

theorem element_unary (h : t.kind.isSign = true) :
    (element (reading (t :: ts))).Agrees ((element (reading ts)).map (.unary t)) := by
  have hkind : t.kind = .operator .bang ∨ t.kind = .operator .minus ∨
      t.kind = .operator .plusPlus ∨ t.kind = .operator .minusMinus := by
    simpa [Kind.isSign, Kind.isStep, or_assoc] using h
  rw [element]
  rcases hkind with hkind | hkind | hkind | hkind <;> simp only [hkind] <;> exact ⟨rfl, rfl⟩

theorem element_literal {class_ : Literal} (h : t.kind = .literal class_) :
    (element (reading (t :: ts))).Agrees (.here (.literal class_ t) (reading ts)) := by
  rw [element]
  simp only [h]
  exact ⟨rfl, rfl⟩

theorem element_sizeof (h : t.kind = .keyword .kwSizeof) :
    (element (reading (t :: ts))).Agrees (sizeofOperand t (reading ts)) := by
  rw [element]
  simp only [h]
  exact ⟨rfl, rfl⟩

theorem element_var (h : t.kind = .ident)
    (hrest : ∀ u ∈ ts.head?, (u.kind == .punct .lparen) = false) :
    (element (reading (t :: ts))).Agrees (pathBehind (.var t) (reading ts)) := by
  rw [element]
  simp only [h]
  rw [take?_none hrest]
  exact ⟨rfl, rfl⟩

theorem element_call {opening : Token} (h : t.kind = .ident ∨ t.kind = .keyword .kwMain)
    (hopening : opening.kind = .punct .lparen) :
    (element (reading (t :: opening :: ts))).Agrees (call t opening (reading ts)) := by
  have htake : (reading (opening :: ts)).take? (· == .punct .lparen) = _ :=
    take?_cons (by simpa using hopening)
  rw [element]
  rcases h with h | h <;> simp only [h] <;> rw [htake] <;> exact ⟨rfl, rfl⟩

/-- A group is read up to its closing parenthesis, and then its chain. -/
theorem element_group {inner : Expr} {closing : Slot} (h : t.kind = .punct .lparen)
    (hinner : (expression (reading ts)).Agrees (.here inner (reading (closing.tokens ++ rest))))
    (hclosing : closing.Holds (.punct .rparen)) :
    (element (reading (t :: ts))).Agrees (accesses (.group t inner closing) (reading rest)) := by
  have hslot := expect_slot hclosing .groupEnd rest
  have hle := (reading ts).residue_le_size
  have hle' := (reading (closing.tokens ++ rest)).residue_le_size
  rw [element]
  simp only [h]
  exact ((hinner.weaken hle).andThen _).trans ((hslot.weaken hle').andThen _)

theorem subscript_agrees {index : Expr} {closing : Slot}
    (hindex : (expression (reading ts)).Agrees (.here index (reading (closing.tokens ++ rest))))
    (hclosing : closing.Holds (.punct .rbracket)) (base : Expr) (opening : Token) :
    (subscript base opening (reading ts)).Agrees
      (.here (.index base opening index closing) (reading rest)) := by
  have hslot := expect_slot hclosing .indexEnd rest
  have hle := (reading (closing.tokens ++ rest)).residue_le_size
  rw [subscript]
  exact (hindex.andThen _).trans ((hslot.weaken hle).map_here (Expr.index base opening index ·))

/-- A subscript lengthens a chain. -/
theorem accesses_subscript {index : Expr} {opening : Token} {closing : Slot}
    (hopening : opening.kind = .punct .lbracket)
    (hindex : (expression (reading ts)).Agrees (.here index (reading (closing.tokens ++ rest))))
    (hclosing : closing.Holds (.punct .rbracket)) (base : Expr) :
    (accesses base (reading (opening :: ts))).Agrees
      (accesses (.index base opening index closing) (reading rest)) := by
  have hsubscript := subscript_agrees hindex hclosing base opening
  have hle := (reading ts).residue_le_size
  rw [accesses, take?_cons (by simpa using hopening)]
  exact (Parsed.Agrees.taken _ _).trans ((hsubscript.weaken hle).andThen _)

/-- A member lengthens a chain. -/
theorem accesses_member {access : Access} {operator : Token} {field : Slot}
    (haccess : operator.kind.access? = some access) (hfield : field.Holds .ident)
    (base : Expr) (rest : List Token) :
    (accesses base (reading (operator :: (field.tokens ++ rest)))).Agrees
      (accesses (.member base access operator field) (reading rest)) := by
  have hbracket : operator.kind ≠ .punct .lbracket := by
    intro h
    rw [h] at haccess
    exact nomatch haccess
  have hslot := expect_slot hfield .memberName rest
  have hle := (reading (field.tokens ++ rest)).residue_le_size
  have htree : operator.kind.access?.getD .direct = access := by rw [haccess]; rfl
  rw [accesses, take?_none (by simpa using hbracket)]
  simp only [take?_cons (p := (·.access?.isSome)) (t := operator) (by rw [haccess]; rfl)]
  rw [← htree]
  exact (Parsed.Agrees.taken _ _).trans ((hslot.weaken hle).andThen _)

/-! ### Calls and sizes -/

theorem trail_nil (h : ∀ t ∈ rest.head?, (t.kind == .punct .comma) = false) :
    (trail (reading rest)).Agrees (.here .nil (reading rest)) := by
  rw [trail, take?_none h]
  exact .refl _

theorem trail_cons {comma : Token} {argument : Expr} {others : Trail} {us : List Token}
    (hcomma : comma.kind = .punct .comma)
    (hargument : (expression (reading ts)).Agrees (.here argument (reading us)))
    (hothers : (trail (reading us)).Agrees (.here others (reading rest))) :
    (trail (reading (comma :: ts))).Agrees
      (.here (.cons comma argument others) (reading rest)) := by
  have hle := (reading ts).residue_le_size
  rw [trail, take?_cons (by simpa using hcomma)]
  exact (Parsed.Agrees.taken _ _).trans
    (((hargument.weaken hle).andThen _).trans (hothers.map_here (Trail.cons comma argument ·)))

theorem call_empty {closing : Slot} (hclosing : closing.Holds (.punct .rparen))
    (name opening : Token) :
    (call name opening (reading (closing.tokens ++ rest))).Agrees
      (.here (.emptyCall name opening closing) (reading rest)) := by
  have hslot := expect_slot hclosing .argumentsEnd rest
  have hsees : (reading (closing.tokens ++ rest)).sees (· == .punct .rparen) = true := by
    obtain ⟨t, rfl, hkind⟩ := hclosing
    exact sees_cons (by simpa using hkind)
  rw [call, if_pos hsees]
  exact hslot.map_here (Expr.emptyCall name opening ·)

theorem call_agrees {first : Expr} {others : Trail} {closing : Slot} {us : List Token}
    (hsome : (reading ts).sees (· == .punct .rparen) = false)
    (hfirst : (expression (reading ts)).Agrees (.here first (reading us)))
    (hothers : (trail (reading us)).Agrees (.here others (reading (closing.tokens ++ rest))))
    (hclosing : closing.Holds (.punct .rparen)) (name opening : Token) :
    (call name opening (reading ts)).Agrees
      (.here (.call name opening first others closing) (reading rest)) := by
  have hslot := expect_slot hclosing .argumentsEnd rest
  have hle := (reading (closing.tokens ++ rest)).residue_le_size
  rw [call, if_neg (by rw [hsome]; exact Bool.false_ne_true)]
  exact (hfirst.andThen _).trans ((hothers.andThen _).trans
    ((hslot.weaken hle).map_here (Expr.call name opening first others ·)))

theorem typeSpec_agrees {spec : TypeSpec} (hspec : spec.Grammatical)
    (hrest : ∀ t ∈ rest.head?, t.kind.isTypeWord = false) :
    (typeSpec (reading (spec.tokens ++ rest))).Agrees (.here spec (reading rest)) := by
  cases spec with
  | words first words =>
      have hfirst : first.kind ≠ .keyword .kwStruct := by
        intro h
        have hword := hspec.1
        rw [h] at hword
        exact absurd hword (by decide)
      rw [TypeSpec.tokens, List.cons_append, typeSpec,
        if_neg (by simpa using hfirst), if_pos hspec.1]
      exact (takeWhile_append hspec.2 hrest).map_here (TypeSpec.words first ·)
  | struct keyword name =>
      have hslot := expect_slot hspec.2 .structName rest
      rw [TypeSpec.tokens, List.cons_append, typeSpec, if_pos (by simpa using hspec.1)]
      exact (hslot.weaken (residue_le_size _)).map_here (TypeSpec.struct keyword ·)
  | missing hole => exact hspec.elim

theorem sees_typeSpec {spec : TypeSpec} (hspec : spec.Grammatical) :
    (reading (spec.tokens ++ rest)).sees Kind.startsTypeSpec = true := by
  cases spec with
  | words first words => exact sees_cons (by simp [Kind.startsTypeSpec, hspec.1])
  | struct keyword name => exact sees_cons (by simp [Kind.startsTypeSpec, hspec.1])
  | missing hole => exact hspec.elim

theorem sizeofOperand_type {opening closing : Slot} {spec : TypeSpec} {stars : List Token}
    (hopening : opening.Holds (.punct .lparen)) (hspec : spec.Grammatical)
    (hstars : ∀ star ∈ stars, star.kind = .operator .star)
    (hclosing : closing.Holds (.punct .rparen)) (keyword : Token) :
    (sizeofOperand keyword
        (reading (opening.tokens ++ (spec.tokens ++ (stars ++ (closing.tokens ++ rest)))))).Agrees
      (.here (.sizeofType keyword opening spec stars closing) (reading rest)) := by
  have hslot := expect_slot hopening .sizeofStart
    (spec.tokens ++ (stars ++ (closing.tokens ++ rest)))
  have hend := expect_slot hclosing .sizeofEnd rest
  have hclose : ∀ t ∈ (closing.tokens ++ rest).head?, t.kind = .punct .rparen := by
    obtain ⟨t, rfl, hkind⟩ := hclosing
    intro u hu
    cases hu
    exact hkind
  have hends : ∀ t ∈ (stars ++ (closing.tokens ++ rest)).head?, t.kind.isTypeWord = false := by
    intro t ht
    cases stars with
    | nil => rw [hclose t ht]; rfl
    | cons star stars =>
        cases ht
        rw [hstars t List.mem_cons_self]
        rfl
  have htype := typeSpec_agrees hspec hends
  have hstar : ∀ t ∈ stars, (t.kind == .operator .star) = true := fun t ht => by
    simp [hstars t ht]
  have hbehind : ∀ t ∈ (closing.tokens ++ rest).head?, (t.kind == .operator .star) = false :=
    fun t ht => by rw [hclose t ht]; rfl
  have hrun := takeWhile_append (p := (· == .operator .star)) hstar hbehind
  rw [sizeofOperand]
  refine (hslot.andThen _).trans ?_
  rw [if_pos (sees_typeSpec hspec)]
  exact ((htype.weaken (residue_le_size _)).andThen _).trans ((hrun.andThen _).trans
    ((hend.weaken (residue_le_size _)).map_here (Expr.sizeofType keyword opening spec stars ·)))

theorem sizeofOperand_expr {opening closing : Slot} {operand : Expr}
    (hopening : opening.Holds (.punct .lparen))
    (hno : (reading ts).sees Kind.startsTypeSpec = false)
    (hoperand : (expression (reading ts)).Agrees
      (.here operand (reading (closing.tokens ++ rest))))
    (hclosing : closing.Holds (.punct .rparen)) (keyword : Token) :
    (sizeofOperand keyword (reading (opening.tokens ++ ts))).Agrees
      (.here (.sizeofExpr keyword opening operand closing) (reading rest)) := by
  have hslot := expect_slot hopening .sizeofStart ts
  have hend := expect_slot hclosing .sizeofEnd rest
  rw [sizeofOperand]
  refine (hslot.andThen _).trans ?_
  rw [if_neg (by rw [hno]; exact Bool.false_ne_true)]
  exact ((hoperand.weaken (residue_le_size _)).andThen _).trans
    ((hend.weaken (residue_le_size _)).map_here (Expr.sizeofExpr keyword opening operand ·))

/-! ### Operations -/

theorem factor_none (helement : (element (reading ts)).Agrees (.here e (reading rest)))
    (hrest : ∀ t ∈ rest.head?, (t.kind == .punct .lbracket) = false) :
    (factor (reading ts)).Agrees (.here e (reading rest)) := by
  rw [factor]
  refine (helement.andThen _).trans ?_
  rw [take?_none hrest]
  exact .refl _

theorem factor_subscript {base index : Expr} {opening : Token} {closing : Slot} {us : List Token}
    (hbase : (element (reading ts)).Agrees (.here base (reading (opening :: us))))
    (hopening : opening.kind = .punct .lbracket)
    (hindex : (expression (reading us)).Agrees (.here index (reading (closing.tokens ++ rest))))
    (hclosing : closing.Holds (.punct .rbracket)) :
    (factor (reading ts)).Agrees
      (.here (.index base opening index closing) (reading rest)) := by
  have hsubscript := subscript_agrees hindex hclosing base opening
  rw [factor]
  refine (hbase.andThen _).trans ?_
  rw [take?_cons (by simpa using hopening)]
  exact (Parsed.Agrees.taken _ _).trans (hsubscript.weaken (residue_le_size _))

theorem operation_agrees {tier : Tier}
    (hfirst : (operand tier (reading ts)).Agrees (.here e (reading rest))) :
    (operation tier (reading ts)).Agrees (operations tier e (reading rest)) := by
  rw [operation]
  exact hfirst.andThen _

theorem operations_none {tier : Tier} (h : ∀ t ∈ rest.head?, tier.has t.kind = false)
    (left : Expr) : (operations tier left (reading rest)).Agrees (.here left (reading rest)) := by
  rw [operations, take?_none h]
  exact .refl _

theorem operations_cons {tier : Tier} {operator : Token} {right : Expr}
    (hoperator : tier.has operator.kind = true)
    (hright : (operand tier (reading ts)).Agrees (.here right (reading rest))) (left : Expr) :
    (operations tier left (reading (operator :: ts))).Agrees
      (operations tier (.binary tier left operator right) (reading rest)) := by
  rw [operations, take?_cons hoperator]
  exact (Parsed.Agrees.taken _ _).trans ((hright.weaken (residue_le_size _)).andThen _)

theorem expression_none (hcondition : (operation .logical (reading ts)).Agrees
      (.here e (reading rest)))
    (hrest : ∀ t ∈ rest.head?, (t.kind == .punct .question) = false) :
    (expression (reading ts)).Agrees (.here e (reading rest)) := by
  rw [expression]
  refine (hcondition.andThen _).trans ?_
  rw [take?_none hrest]
  exact .refl _

theorem expression_conditional {condition first second : Expr} {question : Token} {colon : Slot}
    {us vs : List Token}
    (hcondition : (operation .logical (reading ts)).Agrees
      (.here condition (reading (question :: us))))
    (hquestion : question.kind = .punct .question)
    (hfirst : (expression (reading us)).Agrees (.here first (reading (colon.tokens ++ vs))))
    (hcolon : colon.Holds (.punct .colon))
    (hsecond : (expression (reading vs)).Agrees (.here second (reading rest))) :
    (expression (reading ts)).Agrees
      (.here (.conditional condition question first colon second) (reading rest)) := by
  have hslot := expect_slot hcolon .ternaryColon vs
  rw [expression]
  refine (hcondition.andThen _).trans ?_
  rw [take?_cons (by simpa using hquestion)]
  exact (Parsed.Agrees.taken _ _).trans
    (((hfirst.weaken (residue_le_size _)).andThen _).trans
      (((hslot.weaken (residue_le_size _)).andThen _).trans
        ((hsecond.weaken (residue_le_size _)).map_here
          (Expr.conditional condition question first colon ·))))

end Cursor

end MiniC
