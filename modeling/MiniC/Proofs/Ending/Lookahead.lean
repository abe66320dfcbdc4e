import MiniC.Proofs.Reading.Stmt
import MiniC.Stmt.Check

/-!
# `MiniC.Proofs.Ending.Lookahead` — looking further ahead than the end of the input

Whether a function begins is told by looking past the type in front of its name.  The type may be
a struct, and then one token is passed over without a look at it.  If the input ends behind the
word `struct`, that token is the mark of the end, and what stands behind the mark is looked at.

This makes no difference.  A name is missing behind `struct`, so a function and a declaration both
break there, with the same hole, before anything was declared.  The readers of statements take the
decision as an argument; here those that look further are compared to those that look at the rest
of the input alone.

## Contents
- `CutOff`, with `startsFunction_append`: where it matters how far one looks.
- `Parsed.Alike`: results of reading that are checked alike.
- `alike_items`: **how far one looks makes no difference.**
-/

namespace MiniC

open Cursor (reading broken)

/-! ## Where it matters how far one looks -/

/-- Tokens that stand behind the end of an input: none at all, or the mark of the end first. -/
def Beyond (ts : List Token) : Prop := ∀ t ∈ ts.head?, t.isEof = true

/-- The input ends behind the word `struct`, where a type is read. -/
def CutOff (ts : List Token) : Prop :=
  ∃ qualifiers word, ts = qualifiers ++ [word] ∧ (∀ t ∈ qualifiers, t.kind.isQualifier = true) ∧
    word.kind = .keyword .kwStruct

section

variable {beyond : List Token} (h : Beyond beyond)

include h

theorem Beyond.sees {p : Kind → Bool} (hp : p .eof = false) :
    beyond.head?.any (p ·.kind) = false := by
  cases beyond with
  | nil => rfl
  | cons t ts =>
      have hkind : t.kind = .eof := by simpa [Token.isEof] using h t rfl
      simp [hkind, hp]

/-- Looking past tokens of some kinds ends at the end of the input. -/
theorem Beyond.dropWhile_append {p : Kind → Bool} (hp : p .eof = false) (ts : List Token) :
    (ts ++ beyond).dropWhile (p ·.kind) = ts.dropWhile (p ·.kind) ++ beyond := by
  have hbeyond : beyond.dropWhile (p ·.kind) = beyond := by
    cases beyond with
    | nil => rfl
    | cons t ts =>
        have hsees := h.sees hp
        exact List.dropWhile_cons_of_neg (by simpa using hsees)
  rw [List.dropWhile_append, hbeyond]
  split
  next hempty => rw [List.isEmpty_iff.1 hempty, List.nil_append]
  next => rfl

/-- No call begins behind the end. -/
theorem Beyond.seesCall_append (ts : List Token) :
    seesCall (shapes (ts ++ beyond)) = seesCall (shapes ts) := by
  have hname := h.sees (p := Kind.namesFunction) rfl
  have hopening := h.sees (p := (· == .punct .lparen)) rfl
  rcases ts with _ | ⟨name, _ | ⟨opening, ts⟩⟩
  · rcases beyond with _ | ⟨t, _ | ⟨u, beyond⟩⟩
    · rfl
    · rfl
    · simp_all [seesCall]
  · cases beyond with
    | nil => rfl
    | cons t beyond => simp_all [seesCall]
  · rfl

/-- Behind a type specifier a call begins in front of the end, unless the specifier is the word
`struct` and the input ends behind it. -/
theorem Beyond.seesCall_pastTypeSpec (ts : List Token) :
    seesCall (shapes ((pastTypeSpec (ts ++ beyond)).dropWhile (·.kind == .operator .star))) =
        seesCall (shapes ((pastTypeSpec ts).dropWhile (·.kind == .operator .star))) ∨
      ∃ word : Token, ts = [word] ∧ word.kind = .keyword .kwStruct := by
  have hstars : ∀ us : List Token,
      seesCall (shapes ((us ++ beyond).dropWhile (·.kind == .operator .star))) =
        seesCall (shapes (us.dropWhile (·.kind == .operator .star))) := fun us => by
    rw [h.dropWhile_append (p := (· == .operator .star)) rfl, h.seesCall_append]
  have hwords := h.dropWhile_append (p := Kind.isTypeWord) rfl ts
  unfold pastTypeSpec
  cases ts with
  | nil =>
      have hstruct : ¬([] ++ beyond : List Token).head?.any (·.kind == .keyword .kwStruct) = true :=
        by simpa using h.sees (p := (· == .keyword .kwStruct)) rfl
      rw [if_neg hstruct, if_neg (by exact Bool.false_ne_true), hwords]
      exact .inl (hstars _)
  | cons word rest =>
      by_cases hstruct : (word.kind == .keyword .kwStruct) = true
      · cases rest with
        | nil => exact .inr ⟨word, rfl, beq_iff_eq.1 hstruct⟩
        | cons name rest =>
            refine .inl ?_
            rw [if_pos (by exact hstruct), if_pos (by exact hstruct)]
            exact hstars rest
      · rw [if_neg (by exact hstruct), if_neg (by exact hstruct), hwords]
        exact .inl (hstars _)

/-- **Whether a function begins is told in front of the end of the input,** unless that is behind
the word `struct`. -/
theorem startsFunction_append (ts : List Token) :
    Cursor.startsFunction (ts ++ beyond) = Cursor.startsFunction ts ∨ CutOff ts := by
  rw [startsFunction_eq, startsFunction_eq, pastType, pastType,
    h.dropWhile_append (p := Kind.isQualifier) rfl]
  refine (h.seesCall_pastTypeSpec _).imp id ?_
  rintro ⟨word, htyped, hstruct⟩
  refine ⟨ts.takeWhile (·.kind.isQualifier), word, ?_, List.all_eq_true.1 List.all_takeWhile,
    hstruct⟩
  rw [← htyped, List.takeWhile_append_dropWhile]

end

/-! ## Results that are checked alike -/

/-- Results of reading that leave the same unread, and trees that are related. -/
structure Parsed.Alike {α : Type} {n : Nat} (R : α → α → Prop) (r r' : Parsed α n) : Prop where
  tree : R r.tree r'.tree
  next : r.next = r'.next

/-- Statements that are checked alike in every context. -/
def Stmt.Alike (s s' : Stmt) : Prop := ∀ context, s.check context = s'.check context

def Stmts.Alike (ss ss' : Stmts) : Prop := ∀ context, ss.check context = ss'.check context

def Clauses.Alike (cs cs' : Clauses) : Prop :=
  ∀ context seen hasDefault, cs.check context seen hasDefault = cs'.check context seen hasDefault

theorem Stmt.Alike.refl (s : Stmt) : s.Alike s := fun _ => rfl

theorem Stmts.Alike.refl (ss : Stmts) : ss.Alike ss := fun _ => rfl

theorem Stmt.Alike.clause {s s' : Stmt} {cs cs' : Clauses} (hs : s.Alike s') (hcs : cs.Alike cs') :
    (Clauses.stmt s cs).Alike (.stmt s' cs') := by
  intro context seen hasDefault
  simp only [Clauses.check, hs context, hcs context]

theorem Clauses.Alike.refl (cs : Clauses) : cs.Alike cs := fun _ _ _ => rfl

namespace Parsed.Alike

variable {α β : Type} {m n : Nat} {R : α → α → Prop} {S : β → β → Prop}

theorem of_eq (hR : ∀ a, R a a) (r : Parsed α n) : r.Alike R r := ⟨hR r.tree, rfl⟩

theorem here {tree tree' : α} (h : R tree tree') (c : Cursor) :
    (Parsed.here tree c).Alike R (.here tree' c) := ⟨h, rfl⟩

theorem weaken {r r' : Parsed α m} (h : r.Alike R r') (hle : m ≤ n) :
    (r.weaken hle).Alike R (r'.weaken hle) := ⟨h.tree, h.next⟩

theorem atMost {c : Cursor} {r r' : Parsed α c.residue} (h : r.Alike R r') :
    r.atMost.Alike R r'.atMost := ⟨h.tree, h.next⟩

theorem map {r r' : Parsed α n} (h : r.Alike R r') {f g : α → β}
    (hfg : ∀ {a a'}, R a a' → S (f a) (g a')) : (r.map f).Alike S (r'.map g) :=
  ⟨hfg h.tree, h.next⟩

theorem ite {p : Prop} [Decidable p] {r r' s s' : Parsed α n} (h : r.Alike R r')
    (hs : s.Alike R s') : (if p then r else s).Alike R (if p then r' else s') := by
  split
  · exact h
  · exact hs

/-- The same last part of trees. -/
theorem last (r : Parsed α n) {f g : α → β} (hfg : ∀ a, S (f a) (g a)) :
    (r.map f).Alike S (r.map g) := ⟨hfg r.tree, rfl⟩

/-- Reading on behind results that are checked alike. -/
theorem andThen {r r' : Parsed α n} {next next' : α → (c : Cursor) → c.size ≤ n → Parsed β c.size}
    (h : r.Alike R r')
    (hnext : ∀ a a' c hle, R a a' → (next a c hle).Alike S (next' a' c hle)) :
    (r.andThen next).Alike S (r'.andThen next') := by
  obtain ⟨tree, c, hle⟩ := r
  obtain ⟨tree', c', hle'⟩ := r'
  obtain rfl : c = c' := h.next
  exact (hnext tree tree' c hle h.tree).weaken hle

/-- Reading on behind the same result. -/
theorem behind (r : Parsed α n)
    {next next' : α → (c : Cursor) → c.size ≤ n → Parsed β c.size}
    (hnext : ∀ a c hle, (next a c hle).Alike S (next' a c hle)) :
    (r.andThen next).Alike S (r.andThen next') :=
  (hnext r.tree r.next r.le).weaken r.le

end Parsed.Alike

/-! ## Where the input is cut -/

/-- The hole that is left where the name of a struct is missing at the end. -/
def noStructName : Hole := ⟨.token .ident .structName, []⟩

/-- A check that stops at a hole at once. -/
def Stmt.StopsAt (s : Stmt) (hole : Hole) : Prop :=
  ∀ context σ, s.check context σ = (σ, .stop hole)

/-- Nothing is read with a broken cursor. -/
theorem Tracks.stays {P : Plan} {hole : Hole} {after : List Token} {c c' : Cursor} {t : Trace}
    (h : Tracks P c c' t) (hc : c = broken hole after) : c' = broken hole after := by
  subst hc
  exact h.1.of_broken.1

/-- A declaration stops where its type specifier does. -/
theorem Declaration.stopsAt {d : Declaration} {word : Token} {hole : Hole}
    (h : d.spec = .struct word (.missing hole)) : (Stmt.declaration d).StopsAt hole := by
  intro context σ
  obtain ⟨qualifiers, spec, first, others, semicolon⟩ := d
  obtain rfl : spec = _ := h
  rfl

/-- So does a function, of which nothing was declared. -/
theorem Header.stopsAt {header : Header} {body : Stmt} {word : Token} {hole : Hole}
    (h : header.spec = .struct word (.missing hole)) :
    (Stmt.function header body).StopsAt hole := by
  intro context σ
  obtain ⟨qualifiers, spec, stars, name, opening, params, closing⟩ := header
  obtain rfl : spec = _ := h
  rw [Stmt.check]
  rfl

section

variable {ts : List Token} (h : CutOff ts)

include h

theorem CutOff.pastQualifiers : ∃ word : Token,
    ts.dropWhile (·.kind.isQualifier) = [word] ∧ word.kind = .keyword .kwStruct := by
  obtain ⟨qualifiers, word, rfl, hqualifiers, hword⟩ := h
  refine ⟨word, ?_, hword⟩
  rw [List.dropWhile_append_of_pos hqualifiers, List.dropWhile_cons_of_neg (by simp [hword]; rfl)]

theorem CutOff.not_startsFunction : Cursor.startsFunction ts = false := by
  obtain ⟨word, hdrop, hword⟩ := h.pastQualifiers
  rw [startsFunction_eq, pastType, hdrop, pastTypeSpec, if_pos (by simp [hword])]
  rfl

theorem CutOff.typeSpec : ∃ word, (reading ts).qualifiers.next.typeSpec.tree =
      .struct word (.missing noStructName) ∧
    (reading ts).qualifiers.next.typeSpec.next = broken noStructName [] := by
  obtain ⟨word, hdrop, hword⟩ := h.pastQualifiers
  have hnext : (reading ts).qualifiers.next = reading [word] := congrArg reading hdrop
  rw [hnext, Cursor.typeSpec, if_pos (by simp [hword])]
  exact ⟨word, rfl, rfl⟩

theorem CutOff.declaration : (reading ts).declaration.next = broken noStructName [] ∧
    (Stmt.declaration (reading ts).declaration.tree).StopsAt noStructName := by
  obtain ⟨word, htree, hnext⟩ := h.typeSpec
  have hfirst := (tracks_declarator (reading ts).qualifiers.next.typeSpec.next).stays hnext
  have hothers := (tracks_commaSeparated tracks_declarator _).stays hfirst
  exact ⟨(tracks_expect _ (.punct .semicolon) .declarationEnd).stays hothers,
    Declaration.stopsAt htree⟩

/-- A function breaks at the same hole as a declaration. -/
theorem CutOff.function (looks : List Token → Bool) :
    ((reading ts).function looks).next = broken noStructName [] ∧
      ((reading ts).function looks).tree.StopsAt noStructName := by
  obtain ⟨word, htree, hnext⟩ := h.typeSpec
  have hstars := (tracks_takeWhile _ (· == .operator .star)).stays hnext
  have hname := (tracks_demand _ Kind.namesFunction .functionName).stays hstars
  have hopening := (tracks_expect _ (.punct .lparen) .parametersStart).stays hname
  have hparams := (tracks_params _).stays hopening
  have hheader : (reading ts).header.next = broken noStructName [] :=
    (tracks_expect _ (.punct .rparen) .parametersEnd).stays hparams
  have hnone : ∀ p, (reading ts).header.next.take? p = none := fun p => by
    rw [hheader]
    rfl
  rw [Cursor.function, Parsed.tree_andThen, Parsed.next_andThen]
  split
  next hsome =>
    rw [hnone] at hsome
    cases hsome
  next =>
    refine ⟨?_, Header.stopsAt htree⟩
    rw [Parsed.next_map, Parsed.next_atMost, Cursor.block]
    split
    next => rw [hheader]; rfl
    next hsome =>
      rw [hnone] at hsome
      cases hsome

end

/-! ## How far one looks -/

/-- A decision for functions that is right but where the input is cut. -/
def Faithful (looks : List Token → Bool) : Prop :=
  ∀ ts, looks ts = Cursor.startsFunction ts ∨ CutOff ts

section

variable {looks : List Token → Bool}

mutual

theorem alike_statement (hlooks : Faithful looks) :
    ∀ c : Cursor, (c.statement looks).Alike Stmt.Alike c.statement
  | reading [] => by
      rw [Cursor.statement.eq_2 looks, Cursor.statement.eq_2 Cursor.startsFunction]
      · exact .of_eq Stmt.Alike.refl _
      all_goals exact fun _ _ hc => nomatch hc
  | broken hole after => by
      rw [Cursor.statement.eq_2 looks, Cursor.statement.eq_2 Cursor.startsFunction]
      · exact .of_eq Stmt.Alike.refl _
      all_goals exact fun _ _ hc => nomatch hc
  | reading (t :: ts) => by
      have hsize := Cursor.size_reading ts
      rw [Cursor.statement.eq_1 looks t ts, Cursor.statement.eq_1 Cursor.startsFunction t ts]
      refine .ite (alike_declared hlooks (t :: ts)) ?_
      split
      next =>
        refine .behind _ fun condition c₁ hle => ?_
        refine (alike_statement hlooks c₁).atMost.andThen fun body body' c₂ hle₂ hbody => ?_
        cases c₂.take? (· == .keyword .kwElse) with
        | none => exact .here (fun context => by simp only [Stmt.check, hbody context]) c₂
        | some taken =>
            have hlt := taken.lt
            refine Parsed.Alike.weaken ((alike_statement hlooks taken.next).atMost.map
              fun halternative context => ?_) (Nat.le_of_lt hlt)
            simp only [Stmt.check, hbody context, halternative context]
      next =>
        refine .behind _ fun condition c₁ hle => ?_
        refine (alike_statement hlooks c₁).atMost.map fun hbody context => ?_
        simp only [Stmt.check, hbody context.loop]
      next =>
        refine (alike_statement hlooks (reading ts)).atMost.andThen fun body body' c₁ _ hbody => ?_
        refine .behind _ fun whileWord c₂ _ => .behind _ fun condition c₃ _ => ?_
        exact .last _ fun semicolon context => by simp only [Stmt.check, hbody context.loop]
      next =>
        refine .behind _ fun opening c₁ _ => .behind _ fun init c₂ _ =>
          .behind _ fun test c₃ _ => .behind _ fun semicolon c₄ _ =>
            .behind _ fun update c₅ _ => .behind _ fun closing c₆ _ => ?_
        refine (alike_statement hlooks c₆).atMost.map fun hbody context => ?_
        simp only [Stmt.check, hbody context.loop]
      next =>
        refine .behind _ fun opening c₁ _ => .behind _ fun subject c₂ _ =>
          .behind _ fun closing c₃ _ => .behind _ fun bodyStart c₄ _ => ?_
        refine (alike_clauses hlooks c₄).andThen fun clauses clauses' c₅ _ hclauses => ?_
        exact .last _ fun bodyEnd context => by simp only [Stmt.check, hclauses context.switch]
      case h_12 => exact alike_block hlooks (reading (t :: ts))
      case h_19 =>
        generalize t.kind = kind at *
        cases kind with
        | keyword k => cases k <;> first | contradiction | exact .of_eq Stmt.Alike.refl _
        | operator o => cases o <;> first | contradiction | exact .of_eq Stmt.Alike.refl _
        | punct m => cases m <;> first | contradiction | exact .of_eq Stmt.Alike.refl _
        | _ => first | contradiction | exact .of_eq Stmt.Alike.refl _
      -- no part of any other statement is read by a decision
      all_goals exact .of_eq Stmt.Alike.refl _
termination_by c => 8 * c.size + 5
decreasing_by
  all_goals
    simp only [Cursor.size_reading, Cursor.residue_cons, List.length_cons] at *
    omega

theorem alike_declared (hlooks : Faithful looks) (ts : List Token) :
    ((reading ts).declared looks).Alike Stmt.Alike (reading ts).declared := by
  rw [Cursor.declared.eq_def looks, Cursor.declared.eq_def Cursor.startsFunction]
  cases (reading ts).structDecl? with
  | some definition => exact .of_eq Stmt.Alike.refl _
  | none =>
      dsimp only
      rcases hlooks (reading ts).unread with heq | hcut
      · rw [heq]
        split
        next => exact alike_function hlooks (reading ts)
        next => exact .of_eq Stmt.Alike.refl _
      · rw [hcut.not_startsFunction, if_neg Bool.false_ne_true]
        split
        next =>
          -- the function and the declaration stop at the same hole
          obtain ⟨hnext, hfunction⟩ := hcut.function looks
          obtain ⟨hnext', hdeclaration⟩ := hcut.declaration
          refine ⟨fun context => funext fun σ => ?_, hnext.trans hnext'.symm⟩
          exact (hfunction context σ).trans (hdeclaration context σ).symm
        next => exact .of_eq Stmt.Alike.refl _
termination_by 8 * ts.length + 4

theorem alike_function (hlooks : Faithful looks) (c : Cursor) :
    (c.function looks).Alike Stmt.Alike c.function := by
  have hsize := c.residue_le_size
  rw [Cursor.function.eq_def looks, Cursor.function.eq_def Cursor.startsFunction]
  refine .behind _ fun header c₁ hle => ?_
  cases c₁.take? (· == .punct .semicolon) with
  | some taken => exact .of_eq Stmt.Alike.refl _
  | none =>
      refine (alike_block hlooks c₁).atMost.map fun hbody context => ?_
      simp only [Stmt.check, fun f => hbody (.body f)]
termination_by 8 * c.size + 3

theorem alike_block (hlooks : Faithful looks) (c : Cursor) :
    (c.block looks).Alike Stmt.Alike c.block := by
  rw [Cursor.block.eq_def looks, Cursor.block.eq_def Cursor.startsFunction]
  cases c.take? (· == .punct .lbrace) with
  | none => exact .of_eq Stmt.Alike.refl _
  | some taken =>
      have hlt := taken.lt
      dsimp only [Taken.opens, Taken.opening]
      refine Parsed.Alike.weaken ((alike_statements hlooks taken.next).andThen
        fun body body' c₂ _ hbody => ?_) _
      exact .last _ fun closing context => by simp only [Stmt.check, hbody context]
termination_by 8 * c.size + 2

theorem alike_statements (hlooks : Faithful looks) :
    ∀ c : Cursor, (c.statements looks).Alike Stmts.Alike c.statements
  | reading [] => by
      rw [Cursor.statements.eq_2 looks, Cursor.statements.eq_2 Cursor.startsFunction]
      · exact .of_eq Stmts.Alike.refl _
      all_goals exact fun _ _ hc => nomatch hc
  | broken hole after => by
      rw [Cursor.statements.eq_2 looks, Cursor.statements.eq_2 Cursor.startsFunction]
      · exact .of_eq Stmts.Alike.refl _
      all_goals exact fun _ _ hc => nomatch hc
  | reading (t :: ts) => by
      rw [Cursor.statements.eq_1 looks t ts, Cursor.statements.eq_1 Cursor.startsFunction t ts]
      split
      next => exact .of_eq Stmts.Alike.refl _
      next =>
        refine Parsed.Alike.atMost ((alike_statement hlooks (reading (t :: ts))).andThen
          fun first first' c₁ hle hfirst => ?_)
        refine (alike_statements hlooks c₁.mend).map fun hrest context => ?_
        simp only [Stmts.check, hfirst context, hrest context]
termination_by c => 8 * c.size + 6
decreasing_by
  all_goals
    simp only [Cursor.size_mend, Cursor.size_reading, Cursor.residue_cons, List.length_cons] at *
    omega

theorem alike_clauses (hlooks : Faithful looks) :
    ∀ c : Cursor, (c.clauses looks).Alike Clauses.Alike c.clauses
  | reading [] => by
      rw [Cursor.clauses.eq_2 looks, Cursor.clauses.eq_2 Cursor.startsFunction]
      · exact .of_eq Clauses.Alike.refl _
      all_goals exact fun _ _ hc => nomatch hc
  | broken hole after => by
      rw [Cursor.clauses.eq_2 looks, Cursor.clauses.eq_2 Cursor.startsFunction]
      · exact .of_eq Clauses.Alike.refl _
      all_goals exact fun _ _ hc => nomatch hc
  | reading (t :: ts) => by
      rw [Cursor.clauses.eq_1 looks t ts, Cursor.clauses.eq_1 Cursor.startsFunction t ts]
      split
      next => exact .of_eq Clauses.Alike.refl _
      next =>
        refine Parsed.Alike.weaken
          (.behind _ fun value c₁ hle => .behind _ fun colon c₂ hle₂ => ?_) _
        refine (alike_clauses hlooks c₂.mend).map fun hrest context seen hasDefault => ?_
        cases value <;> simp only [Clauses.check, hrest context]
      next =>
        refine Parsed.Alike.weaken (.behind _ fun colon c₁ hle => ?_) _
        refine (alike_clauses hlooks c₁.mend).map fun hrest context seen hasDefault => ?_
        simp only [Clauses.check, hrest context]
      next hrbrace hcase hdefault =>
        have hstmt := ((alike_statement hlooks (reading (t :: ts))).andThen
          fun first first' c₁ hle hfirst =>
            (alike_clauses hlooks c₁.mend).map fun hrest => hfirst.clause hrest).atMost
        generalize t.kind = kind at *
        cases kind with
        | keyword k => cases k <;> first | contradiction | exact hstmt
        | punct m => cases m <;> first | contradiction | exact hstmt
        | _ => exact hstmt
termination_by c => 8 * c.size + 6
decreasing_by
  all_goals
    simp only [Cursor.size_mend, Cursor.size_reading, Cursor.residue_cons, List.length_cons] at *
    omega

end

theorem alike_item (hlooks : Faithful looks) (c : Cursor) :
    (c.item looks).Alike Stmt.Alike c.item := by
  rcases c with (_ | ⟨t, ts⟩) | ⟨hole, after⟩
  · exact .of_eq Stmt.Alike.refl _
  · exact .ite (.of_eq Stmt.Alike.refl _)
      (.ite (alike_declared hlooks (t :: ts)) (.of_eq Stmt.Alike.refl _))
  · exact .of_eq Stmt.Alike.refl _

end

/-- Parts of a program that are checked alike one after the other. -/
def AllAlike (parts parts' : List Stmt) : Prop := (Stmts.ofList parts).Alike (.ofList parts')

theorem AllAlike.nil : AllAlike [] [] := Stmts.Alike.refl _

theorem AllAlike.cons {part part' : Stmt} {parts parts' : List Stmt} (h : part.Alike part')
    (hrest : AllAlike parts parts') : AllAlike (part :: parts) (part' :: parts') := by
  intro context
  simp only [Stmts.ofList, Stmts.check, h context, hrest context]

theorem alike_recovering {read read' : (c : Cursor) → Parsed Stmt c.residue}
    (h : ∀ c, (read c).Alike Stmt.Alike (read' c)) (begins : Kind → Bool) (c : Cursor) :
    (c.recovering begins read).Alike AllAlike (c.recovering begins read') := by
  rcases c with (_ | ⟨t, ts⟩) | ⟨hole, after⟩
  · rw [Cursor.recovering_nil, Cursor.recovering_nil]
    exact .here .nil _
  · rw [Cursor.recovering, Cursor.recovering]
    split
    next =>
      refine Parsed.Alike.atMost ((h _).andThen fun part part' c₁ hle hpart => ?_)
      exact (alike_recovering h begins c₁.mend).map fun hrest => .cons hpart hrest
    next => exact .here .nil _
  · rw [Cursor.recovering_broken, Cursor.recovering_broken]
    exact .here .nil _
termination_by c.size
decreasing_by
  simp only [Cursor.size_mend, Cursor.size_reading, Cursor.residue_cons, List.length_cons] at *
  omega

/-- **How far one looks makes no difference:** what is left unread is the same, and the parts of a
program are checked alike. -/
theorem alike_items {looks : List Token → Bool} (hlooks : Faithful looks) (c : Cursor) :
    (c.items looks).Alike AllAlike c.items :=
  alike_recovering (alike_item hlooks) _ c

end MiniC
