import MiniC.Syntax.Hole

/-!
# `MiniC.Syntax.Cursor` — reading tokens without ever failing

A cursor reads tokens until the first one that the grammar does not allow.  There it breaks: it
notes the hole and skips to the next recovery point, behind the first `;` or `}` or at the end of
the input.  A broken cursor sees no tokens, so whatever is still read with it is a hole, always
the same one, and costs nothing; reading goes on when the statement is over and the cursor is
mended.  The end of the input looks like a token that fits nowhere.

A result of reading carries a bound on what is left unread, which is what the recursion of the
grammar rests on.  After a part that cannot be empty, at most `residue` tokens are left: the part
takes a token, or breaks the cursor and thereby skips one, or finds it broken or at the end.

## Contents
- `Cursor`, `unread`, `size`, `residue`; `fail`, `mend`, `resync`.
- `Parsed`, `Taken`, `Run`: results with their bounds, and how reading goes on behind them.
- The elementary readers `lacking`, `demand`, `expect`, `take?`, `optional`, `takeWhile`.
- Repetition: `commaSeparated`, and `recovering`, which survives faulty parts.
-/

namespace MiniC

/-! ## Recovery -/

/-- Whether reading may go on behind a token of this kind after a fault. -/
def Kind.endsRecovery (kind : Kind) : Bool :=
  kind == .punct .semicolon || kind == .punct .rbrace

/-- The tokens behind the first `;` or `}`, or none. -/
def resync : List Token → List Token
  | [] => []
  | t :: ts => if t.kind.endsRecovery then ts else resync ts

theorem length_resync_le (ts : List Token) : (resync ts).length ≤ ts.length - 1 := by
  induction ts with
  | nil => simp [resync]
  | cons t ts ih =>
      rw [resync]
      split
      · simp
      · simp only [List.length_cons]
        omega

/-! ## Cursors -/

/-- A place in the token sequence, or the first hole and the recovery point behind it. -/
inductive Cursor
  | reading (ahead : List Token)
  | broken (hole : Hole) (after : List Token)
deriving DecidableEq, Repr

namespace Cursor

/-- The tokens that are left. -/
def unread : Cursor → List Token
  | reading ahead => ahead
  | broken _ after => after

/-- How many tokens are left. -/
def size (c : Cursor) : Nat := c.unread.length

/-- How many tokens are left at most once a part that cannot be empty was read. -/
def residue : Cursor → Nat
  | reading ahead => ahead.length - 1
  | broken _ after => after.length

@[simp] theorem size_reading (ts : List Token) : (reading ts).size = ts.length := rfl

@[simp] theorem size_broken (h : Hole) (ts : List Token) : (broken h ts).size = ts.length := rfl

@[simp] theorem residue_reading (ts : List Token) : (reading ts).residue = ts.length - 1 := rfl

theorem residue_cons (t : Token) (ts : List Token) :
    (reading (t :: ts)).residue = ts.length := rfl

@[simp] theorem residue_broken (h : Hole) (ts : List Token) :
    (broken h ts).residue = ts.length := rfl

theorem residue_le_size (c : Cursor) : c.residue ≤ c.size := by
  cases c <;> simp

theorem size_le_residue (c : Cursor) : c.size ≤ c.residue + 1 := by
  cases c <;> simp only [size_reading, residue_reading, size_broken, residue_broken] <;> omega

/-- The token under the cursor. -/
def head? : Cursor → Option Token
  | reading ahead => ahead.head?
  | broken _ _ => none

/-- Whether the token under the cursor is of a kind that satisfies `p`. -/
def sees (c : Cursor) (p : Kind → Bool) : Bool := c.head?.any (p ·.kind)

/-- The hole that asking for `wanted` leaves in the tree. -/
def hole (c : Cursor) (wanted : Wanted) : Hole :=
  match c with
  | reading ahead => ⟨wanted, ahead⟩
  | broken hole _ => hole

/-- Break the cursor where it stands, unless it is broken already. -/
def fail (c : Cursor) (wanted : Wanted) : Cursor :=
  match c with
  | reading ahead => broken ⟨wanted, ahead⟩ (resync ahead)
  | broken hole after => broken hole after

theorem size_fail_le (c : Cursor) (wanted : Wanted) : (c.fail wanted).size ≤ c.residue := by
  cases c with
  | reading ahead => exact length_resync_le ahead
  | broken hole after => exact Nat.le_refl _

/-- Go on reading at the recovery point. -/
def mend (c : Cursor) : Cursor := reading c.unread

@[simp] theorem size_mend (c : Cursor) : c.mend.size = c.size := rfl

end Cursor

/-! ## Results of reading -/

/-- A part of the tree, the cursor behind it, and a bound on what is left unread. -/
structure Parsed (α : Type) (bound : Nat) where
  tree : α
  next : Cursor
  le : next.size ≤ bound

namespace Parsed

variable {α β : Type} {m n : Nat}

/-- A part that takes no token. -/
def here (tree : α) (c : Cursor) : Parsed α c.size := ⟨tree, c, Nat.le_refl _⟩

/-- The same result under a weaker bound. -/
def weaken (r : Parsed α m) (h : m ≤ n) : Parsed α n :=
  ⟨r.tree, r.next, Nat.le_trans r.le h⟩

/-- The same result with the tree changed. -/
def map (f : α → β) (r : Parsed α n) : Parsed β n := ⟨f r.tree, r.next, r.le⟩

/-- A part that cannot be empty leaves no more than it found. -/
def atMost {c : Cursor} (r : Parsed α c.residue) : Parsed α c.size := r.weaken c.residue_le_size

/-- Read on behind a part. -/
def andThen (r : Parsed α n)
    (next : α → (c : Cursor) → c.size ≤ n → Parsed β c.size) : Parsed β n :=
  (next r.tree r.next r.le).weaken r.le

@[simp] theorem tree_here (tree : α) (c : Cursor) : (here tree c).tree = tree := rfl

@[simp] theorem next_here (tree : α) (c : Cursor) : (here tree c).next = c := rfl

@[simp] theorem tree_weaken (r : Parsed α m) (h : m ≤ n) : (r.weaken h).tree = r.tree := rfl

@[simp] theorem next_weaken (r : Parsed α m) (h : m ≤ n) : (r.weaken h).next = r.next := rfl

@[simp] theorem tree_map (f : α → β) (r : Parsed α n) : (r.map f).tree = f r.tree := rfl

@[simp] theorem next_map (f : α → β) (r : Parsed α n) : (r.map f).next = r.next := rfl

@[simp] theorem tree_atMost {c : Cursor} (r : Parsed α c.residue) : r.atMost.tree = r.tree := rfl

@[simp] theorem next_atMost {c : Cursor} (r : Parsed α c.residue) : r.atMost.next = r.next := rfl

@[simp] theorem tree_andThen (r : Parsed α n)
    (next : α → (c : Cursor) → c.size ≤ n → Parsed β c.size) :
    (r.andThen next).tree = (next r.tree r.next r.le).tree := rfl

@[simp] theorem next_andThen (r : Parsed α n)
    (next : α → (c : Cursor) → c.size ≤ n → Parsed β c.size) :
    (r.andThen next).next = (next r.tree r.next r.le).next := rfl

end Parsed

/-- A token that was read, and the cursor behind it. -/
structure Taken (c : Cursor) where
  token : Token
  next : Cursor
  lt : next.size < c.size

namespace Taken

variable {β : Type} {c : Cursor}

/-- A part that is read behind the token, seen from before it. -/
def within (t : Taken c) (r : Parsed β t.next.size) : Parsed β c.size :=
  r.weaken (Nat.le_of_lt t.lt)

/-- A part that begins with the token: it is not empty. -/
def opening (t : Taken c) (r : Parsed β t.next.size) : Parsed β c.residue :=
  r.weaken (by
    have h₁ := t.lt
    have h₂ := c.size_le_residue
    omega)

/-- Read on behind a token. -/
def andThen (t : Taken c)
    (next : Token → (c₁ : Cursor) → c₁.size < c.size → Parsed β c₁.size) : Parsed β c.size :=
  t.within (next t.token t.next t.lt)

/-- Read on behind the first token of a part. -/
def opens (t : Taken c)
    (next : Token → (c₁ : Cursor) → c₁.size < c.size → Parsed β c₁.size) : Parsed β c.residue :=
  t.opening (next t.token t.next t.lt)

end Taken

/-- A run of tokens, perhaps an empty one, and the cursor behind it. -/
structure Run (c : Cursor) where
  tokens : List Token
  next : Cursor
  size_le : next.size ≤ c.size
  residue_le : next.residue ≤ c.residue

namespace Run

variable {β : Type} {c : Cursor}

/-- A run as a part of the tree. -/
def parsed (r : Run c) : Parsed (List Token) c.size := ⟨r.tokens, r.next, r.size_le⟩

/-- Read on behind a run, with a part that cannot be empty. -/
def before (r : Run c) (next : List Token → (c₁ : Cursor) → Parsed β c₁.residue) :
    Parsed β c.residue :=
  (next r.tokens r.next).weaken r.residue_le

end Run

/-! ## Elementary readers -/

namespace Cursor

variable {α : Type}

/-- Break, and leave a hole in the tree. -/
def lacking (c : Cursor) (wanted : Wanted) (missing : Hole → α) : Parsed α c.residue :=
  ⟨missing (c.hole wanted), c.fail wanted, size_fail_le c wanted⟩

/-- Read a token of a kind that satisfies `p`, or break. -/
def demand (c : Cursor) (p : Kind → Bool) (wanted : Wanted) : Parsed Slot c.residue :=
  match c with
  | reading (t :: ts) =>
    if p t.kind then ⟨.found t, reading ts, Nat.le_refl _⟩
    else (reading (t :: ts)).lacking wanted .missing
  | c => c.lacking wanted .missing

/-- Read a token of one kind, or break. -/
def expect (c : Cursor) (kind : Kind) (site : Site) : Parsed Slot c.residue :=
  c.demand (· == kind) (.token kind site)

/-- Read the token under the cursor if it is of a kind that satisfies `p`. -/
def take? (c : Cursor) (p : Kind → Bool) : Option (Taken c) :=
  match c with
  | reading (t :: ts) => if p t.kind then some ⟨t, reading ts, Nat.lt_succ_self _⟩ else none
  | _ => none

/-- Read the token under the cursor if it is of a kind that satisfies `p`; else go on without. -/
def optional (c : Cursor) (p : Kind → Bool) : Parsed (Option Token) c.size :=
  match c.take? p with
  | some taken => taken.andThen fun token c₁ _ => .here (some token) c₁
  | none => .here none c

/-- Read tokens as long as their kinds satisfy `p`. -/
def takeWhile (c : Cursor) (p : Kind → Bool) : Run c :=
  match c with
  | reading ts =>
    have h : (ts.dropWhile (p ·.kind)).length ≤ ts.length := (List.dropWhile_suffix _).length_le
    ⟨ts.takeWhile (p ·.kind), reading (ts.dropWhile (p ·.kind)), h, Nat.sub_le_sub_right h 1⟩
  | c => ⟨[], c, Nat.le_refl _, Nat.le_refl _⟩

/-! ## Repetition -/

/-- Read parts that each follow a comma. -/
def commaSeparated (read : (c : Cursor) → Parsed α c.size) (c : Cursor) :
    Parsed (List (Token × α)) c.size :=
  match c.take? (· == .punct .comma) with
  | none => .here [] c
  | some taken =>
    taken.andThen fun comma c₁ _ =>
    (read c₁).andThen fun part c₂ _ =>
    (commaSeparated read c₂).map ((comma, part) :: ·)
termination_by c.size

/-- Read parts as long as one may begin, each from where recovery from the one before ends. -/
def recovering (begins : Kind → Bool) (read : (c : Cursor) → Parsed α c.residue) (c : Cursor) :
    Parsed (List α) c.size :=
  match c with
  | reading (t :: ts) =>
    if begins t.kind then
      ((read (reading (t :: ts))).andThen fun part c₁ _ =>
        (recovering begins read c₁.mend).map (part :: ·)).atMost
    else .here [] (reading (t :: ts))
  | c => .here [] c
termination_by c.size
decreasing_by
  simp only [size_mend, size_reading, residue_cons, List.length_cons] at *
  omega

section

variable (begins : Kind → Bool) (read : (c : Cursor) → Parsed α c.residue)

/-- Behind the last token no part begins. -/
theorem recovering_nil :
    (reading []).recovering begins read = .here [] (reading []) := by
  rw [recovering]
  intro _ _ hc
  cases hc

/-- Behind a fault no part begins before the cursor is mended. -/
theorem recovering_broken (hole : Hole) (after : List Token) :
    (broken hole after).recovering begins read = .here [] (broken hole after) := by
  rw [recovering]
  intro _ _ hc
  cases hc

end

end Cursor

end MiniC
