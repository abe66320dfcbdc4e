import MiniC.Proofs.Reading.Spells

/-!
# `MiniC.Proofs.Prolonging.Cursors` — reading a text and one that goes on behind it

A part of a text is read alike when the text goes on behind the part.  Where it ends may be told
by the token that follows: an expression goes on as long as operators come.  So a part that does
not end by itself is compared only if a token of the text is left behind it.  A part that ends in
a semicolon or a brace does end by itself, and then nothing need be left.

In both cases the part must have no hole; else reading would go on at another place.

## Contents
- `Cursor.prolonged`, and what a cursor sees in the longer text.
- `Followed`, `Ended`: the two ways in which readings agree.
- `seq`, `onto`, `behind`: how they are put together.
- One lemma for each elementary reader, and for repetition.
-/

namespace MiniC

open Cursor (reading broken)

/-! ## Cursors in a longer text -/

/-- The same place in a text that goes on with more tokens. -/
def Cursor.prolonged (c : Cursor) (q : List Token) : Cursor :=
  match c with
  | reading ahead => reading (ahead ++ q)
  | broken hole after => broken hole (after ++ q)

section

variable {c : Cursor} {q : List Token} {p : Kind → Bool}

/-- More tokens are ahead. -/
theorem Cursor.unread_prolonged : (c.prolonged q).unread = c.unread ++ q := by
  cases c <;> rfl

theorem Cursor.size_prolonged : (c.prolonged q).size = c.size + q.length := by
  rw [size, unread_prolonged, List.length_append]
  rfl

/-- A broken reading goes on behind the same tokens. -/
theorem Cursor.mend_prolonged : (c.prolonged q).mend = c.mend.prolonged q :=
  congrArg reading unread_prolonged

/-- A token that was taken of the shorter text. -/
def Taken.prolonged (taken : Taken c) (q : List Token) : Taken (c.prolonged q) where
  token := taken.token
  next := taken.next.prolonged q
  lt := by
    rw [Cursor.size_prolonged, Cursor.size_prolonged]
    exact Nat.add_lt_add_right taken.lt _

/-- A token that is left is also seen in the longer text. -/
theorem Cursor.take?_prolonged (h : 0 < c.size) :
    (c.prolonged q).take? p = (c.take? p).map (·.prolonged q) := by
  rcases c with (_ | ⟨t, ts⟩) | ⟨hole, after⟩
  · cases h
  · show (if p t.kind then _ else _) = Option.map _ (if p t.kind then _ else _)
    split <;> rfl
  · rfl

theorem Cursor.take?_prolonged_of_some {taken : Taken c} (h : c.take? p = some taken) :
    (c.prolonged q).take? p = some (taken.prolonged q) := by
  rw [take?_prolonged (Nat.zero_lt_of_lt taken.lt), h]
  rfl

/-- The same for a cursor that is known not to be broken. -/
theorem Cursor.take?_append {ts : List Token} (h : 0 < ts.length) :
    (reading (ts ++ q)).take? p = ((reading ts).take? p).map (·.prolonged q) :=
  take?_prolonged (c := reading ts) h

/-- Something is seen only where a token is left. -/
theorem Cursor.pos_of_sees (h : c.sees p = true) : 0 < c.size := by
  rcases c with (_ | ⟨t, ts⟩) | ⟨hole, after⟩
  · cases h
  · exact Nat.succ_pos _
  · cases h

/-- A cursor looks at one token, which is the same if there is one. -/
theorem Cursor.sees_prolonged (h : 0 < c.size) : (c.prolonged q).sees p = c.sees p := by
  rcases c with (_ | ⟨t, ts⟩) | ⟨hole, after⟩
  · cases h
  · rfl
  · rfl

end

/-! ## Readings that agree -/

section

variable {α β : Type} {m n : Nat}

/-- The same tree and the same place, of a text and of a longer one. -/
structure Parsed.Agree (q : List Token) (r : Parsed α m) (r' : Parsed α n) : Prop where
  tree : r'.tree = r.tree
  next : r'.next = r.next.prolonged q

/-- Readings of a part without a hole agree if a token is left behind the part. -/
def Followed (q : List Token) (t : Trace) (r : Parsed α m) (r' : Parsed α n) : Prop :=
  t = .clear → 0 < r.next.size → r.Agree q r'

/-- Readings of a part without a hole agree, and the part is not empty. -/
def Ended (q : List Token) (c : Cursor) (t : Trace) (r : Parsed α m) (r' : Parsed α n) : Prop :=
  t = .clear → 0 < c.size ∧ r.Agree q r'

variable {q : List Token} {c : Cursor} {t u : Trace}

/-- Of a part that ends by itself no token need be left behind. -/
theorem Ended.followed {r : Parsed α m} {r' : Parsed α n} (h : Ended q c t r r') :
    Followed q t r r' :=
  fun hclear _ => (h hclear).2

theorem Parsed.Agree.map {r : Parsed α m} {r' : Parsed α n} (h : r.Agree q r') (f : α → β) :
    (r.map f).Agree q (r'.map f) :=
  ⟨congrArg f h.tree, h.next⟩

namespace Followed

variable {r : Parsed α m} {r' : Parsed α n}

/-- Nothing is claimed of a part that has a hole, … -/
theorem stopped {hole : Hole} : Followed q (.stopped hole) r r' :=
  fun hclear => nomatch congrArg Trace.stop hclear

/-- … or of one with nothing behind it, such as one that is read at the end. -/
theorem of_pos (h : 0 < m → Followed q t r r') : Followed q t r r' :=
  fun hclear hsize => h (Nat.lt_of_lt_of_le hsize r.le) hclear hsize

theorem here (tree : α) (c : Cursor) :
    Followed q t (.here tree c) (.here tree (c.prolonged q)) :=
  fun _ _ => ⟨rfl, rfl⟩

theorem map (h : Followed q t r r') {f : α → β} : Followed q t (r.map f) (r'.map f) :=
  fun hclear hsize => (h hclear hsize).map f

theorem weaken (h : Followed q t r r') {m' n' : Nat} {hm : m ≤ m'} {hn : n ≤ n'} :
    Followed q t (r.weaken hm) (r'.weaken hn) :=
  fun hclear hsize => ⟨(h hclear hsize).tree, (h hclear hsize).next⟩

/-- A reading may have taken nothing. -/
theorem atMost {c c' : Cursor} {r : Parsed α c.residue} {r' : Parsed α c'.residue}
    (h : Followed q t r r') : Followed q t r.atMost r'.atMost :=
  h.weaken

theorem settled (h : Followed q t r r') : Followed q t.settled r r' :=
  fun hclear => h (Trace.settled_eq_clear.1 hclear)

section

variable {g : α → (c : Cursor) → Parsed β c.size}

/-- Readings of a part and of the whole that it begins: what is left behind the whole is left
behind the part. -/
theorem onto (h : Followed q t r r') (hclear : u = .clear → t = .clear)
    (hg : Followed q u (g r.tree r.next) (g r.tree (r.next.prolonged q))) :
    Followed q u (r.andThen fun a c _ => g a c) (r'.andThen fun a c _ => g a c) := by
  intro hu hsize
  obtain ⟨htree, hnext⟩ := h (hclear hu) (Nat.lt_of_lt_of_le hsize (g r.tree r.next).le)
  obtain ⟨tree, next, le⟩ := r'
  subst htree hnext
  exact ⟨(hg hu hsize).tree, (hg hu hsize).next⟩

/-- Readings of two parts in sequence. -/
theorem seq (h : Followed q t r r')
    (hg : Followed q u (g r.tree r.next) (g r.tree (r.next.prolonged q))) :
    Followed q (t.andThen u) (r.andThen fun a c _ => g a c) (r'.andThen fun a c _ => g a c) :=
  h.onto (fun hclear => (Trace.andThen_eq_clear.1 hclear).1) fun hclear =>
    hg (Trace.andThen_eq_clear.1 hclear).2

/-- What takes no hole can stand in front. -/
theorem behind (h : Followed q .clear r r')
    (hg : Followed q u (g r.tree r.next) (g r.tree (r.next.prolonged q))) :
    Followed q u (r.andThen fun a c _ => g a c) (r'.andThen fun a c _ => g a c) :=
  h.onto (fun _ => rfl) hg

/-- If the part behind ends by itself, so does the whole. -/
theorem ends_onto (h : Followed q t r r') (hm : m ≤ c.size) (hclear : u = .clear → t = .clear)
    (hg : Ended q r.next u (g r.tree r.next) (g r.tree (r.next.prolonged q))) :
    Ended q c u (r.andThen fun a c _ => g a c) (r'.andThen fun a c _ => g a c) := by
  intro hu
  obtain ⟨hsize, hrest⟩ := hg hu
  obtain ⟨htree, hnext⟩ := h (hclear hu) hsize
  obtain ⟨tree, next, le⟩ := r'
  subst htree hnext
  exact ⟨Nat.lt_of_lt_of_le hsize (Nat.le_trans r.le hm), hrest.tree, hrest.next⟩

/-- A part that ends by itself leaves the one in front of it followed by a token. -/
theorem ends_seq (h : Followed q t r r') (hm : m ≤ c.size)
    (hg : Ended q r.next u (g r.tree r.next) (g r.tree (r.next.prolonged q))) :
    Ended q c (t.andThen u) (r.andThen fun a c _ => g a c) (r'.andThen fun a c _ => g a c) :=
  h.ends_onto hm (fun hclear => (Trace.andThen_eq_clear.1 hclear).1) fun hclear =>
    hg (Trace.andThen_eq_clear.1 hclear).2

/-- The same behind a part that has no holes. -/
theorem ends_behind (h : Followed q .clear r r') (hm : m ≤ c.size)
    (hg : Ended q r.next u (g r.tree r.next) (g r.tree (r.next.prolonged q))) :
    Ended q c u (r.andThen fun a c _ => g a c) (r'.andThen fun a c _ => g a c) :=
  h.ends_onto hm (fun _ => rfl) hg

end

end Followed

namespace Ended

variable {r : Parsed α m} {r' : Parsed α n}

theorem stopped {hole : Hole} : Ended q c (.stopped hole) r r' :=
  fun hclear => nomatch congrArg Trace.stop hclear

theorem map (h : Ended q c t r r') {f : α → β} : Ended q c t (r.map f) (r'.map f) :=
  fun hclear => ⟨(h hclear).1, (h hclear).2.map f⟩

theorem weaken (h : Ended q c t r r') {m' n' : Nat} {hm : m ≤ m'} {hn : n ≤ n'} :
    Ended q c t (r.weaken hm) (r'.weaken hn) :=
  fun hclear => ⟨(h hclear).1, (h hclear).2.tree, (h hclear).2.next⟩

theorem atMost {c₁ c' : Cursor} {r : Parsed α c₁.residue} {r' : Parsed α c'.residue}
    (h : Ended q c t r r') : Ended q c t r.atMost r'.atMost :=
  h.weaken

/-- A part that ends by itself, behind a token that was taken. -/
theorem within {taken : Taken c} {r : Parsed α taken.next.size}
    {r' : Parsed α (taken.next.prolonged q).size} (h : Ended q taken.next t r r') :
    Ended q c t (taken.within r) ((taken.prolonged q).within r') :=
  fun hclear => ⟨Nat.zero_lt_of_lt taken.lt, (h hclear).2.tree, (h hclear).2.next⟩

/-- The same, if the token is the first of the part. -/
theorem opening {taken : Taken c} {r : Parsed α taken.next.size}
    {r' : Parsed α (taken.next.prolonged q).size} (h : Ended q taken.next t r r') :
    Ended q c t (taken.opening r) ((taken.prolonged q).opening r') :=
  fun hclear => ⟨Nat.zero_lt_of_lt taken.lt, (h hclear).2.tree, (h hclear).2.next⟩

end Ended

end

/-! ## Elementary readers -/

section

variable {α : Type} {q : List Token} {t : Trace} {p : Kind → Bool}

/-- A token that is found is one token of the part. -/
theorem ended_demand (c : Cursor) (p : Kind → Bool) (wanted : Wanted) :
    Ended q c (c.demand p wanted).tree.trace (c.demand p wanted)
      ((c.prolonged q).demand p wanted) := by
  rcases c with (_ | ⟨t, ts⟩) | ⟨hole, after⟩
  · exact .stopped
  · by_cases hp : p t.kind = true
    · have hfound : ∀ us, (reading (t :: us)).demand p wanted =
          ⟨.found t, reading us, Nat.le_refl _⟩ := fun us => if_pos hp
      rw [hfound]
      intro _
      show _ ∧ Parsed.Agree q _ ((reading (t :: (ts ++ q))).demand p wanted)
      rw [hfound]
      exact ⟨Nat.succ_pos _, rfl, rfl⟩
    · have hlacking : (reading (t :: ts)).demand p wanted =
          (reading (t :: ts)).lacking wanted .missing := if_neg hp
      rw [hlacking]
      exact .stopped
  · exact .stopped

theorem ended_expect (c : Cursor) (kind : Kind) (site : Site) :
    Ended q c (c.expect kind site).tree.trace (c.expect kind site)
      ((c.prolonged q).expect kind site) :=
  ended_demand c _ _

/-- A run of tokens ends in front of the token that is left. -/
theorem followed_takeWhile (c : Cursor) (p : Kind → Bool) :
    Followed q t (c.takeWhile p).parsed ((c.prolonged q).takeWhile p).parsed := by
  cases c with
  | broken hole after => exact fun _ _ => ⟨rfl, rfl⟩
  | reading ts =>
      rintro - hsize
      have hrest : ts.dropWhile (p ·.kind) ≠ [] := List.length_pos_iff.1 hsize
      have htaken : (ts.takeWhile (p ·.kind)).length ≠ ts.length := fun hlength => by
        have hall := congrArg List.length
          (List.takeWhile_append_dropWhile (p := fun t : Token => p t.kind) (l := ts))
        rw [List.length_append, hlength] at hall
        exact hrest (List.length_eq_zero_iff.1 (Nat.add_eq_left.1 hall))
      refine ⟨?_, congrArg reading ?_⟩
      · show (ts ++ q).takeWhile (p ·.kind) = ts.takeWhile (p ·.kind)
        rw [List.takeWhile_append, if_neg htaken]
      · show (ts ++ q).dropWhile (p ·.kind) = ts.dropWhile (p ·.kind) ++ q
        rw [List.dropWhile_append, if_neg (by simpa using hrest)]

section

variable {c : Cursor} {β : Type} {g : List Token → (c : Cursor) → Parsed β c.residue}

/-- Behind a run that ends in front of a token, the longer text is read from the same place on. -/
theorem before_prolonged (hleft : 0 < (c.takeWhile p).next.size) :
    (((c.prolonged q).takeWhile p).before g).tree =
        (g (c.takeWhile p).tokens ((c.takeWhile p).next.prolonged q)).tree ∧
      (((c.prolonged q).takeWhile p).before g).next =
        (g (c.takeWhile p).tokens ((c.takeWhile p).next.prolonged q)).next := by
  obtain ⟨htokens, hnext⟩ := followed_takeWhile (q := q) c p (t := .clear) rfl hleft
  generalize (c.prolonged q).takeWhile p = run at *
  obtain ⟨tokens, next, _, _⟩ := run
  obtain rfl : tokens = _ := htokens
  obtain rfl : next = _ := hnext
  exact ⟨rfl, rfl⟩

/-- Readings of a run and a part that cannot be empty. -/
theorem Followed.before (hg : Followed q t (g (c.takeWhile p).tokens (c.takeWhile p).next)
      (g (c.takeWhile p).tokens ((c.takeWhile p).next.prolonged q))) :
    Followed q t ((c.takeWhile p).before g) (((c.prolonged q).takeWhile p).before g) := by
  intro hclear hsize
  have hleft := Nat.lt_of_lt_of_le hsize (g _ (c.takeWhile p).next).atMost.le
  obtain ⟨htree, hnext⟩ := before_prolonged (q := q) (g := g) hleft
  exact ⟨htree.trans (hg hclear hsize).tree, hnext.trans (hg hclear hsize).next⟩

theorem Ended.before (hg : Ended q (c.takeWhile p).next t
      (g (c.takeWhile p).tokens (c.takeWhile p).next)
      (g (c.takeWhile p).tokens ((c.takeWhile p).next.prolonged q))) :
    Ended q c t ((c.takeWhile p).before g) (((c.prolonged q).takeWhile p).before g) := by
  intro hclear
  obtain ⟨hleft, hrest⟩ := hg hclear
  obtain ⟨htree, hnext⟩ := before_prolonged (q := q) (g := g) hleft
  exact ⟨Nat.lt_of_lt_of_le hleft (c.takeWhile p).size_le, htree.trans hrest.tree,
    hnext.trans hrest.next⟩

end

/-- A type may go on with more words, so a token has to be left behind it. -/
theorem followed_typeSpec (c : Cursor) :
    Followed q c.typeSpec.tree.trace c.typeSpec (c.prolonged q).typeSpec := by
  rcases c with (_ | ⟨t, ts⟩) | ⟨hole, after⟩
  · exact .stopped
  · show Followed q _ _ (reading (t :: (ts ++ q))).typeSpec
    simp only [Cursor.typeSpec]
    split
    next => exact (ended_expect (reading ts) _ _).followed.weaken.map
    next =>
      split
      next => exact (followed_takeWhile (reading ts) _).map
      next => exact .stopped
  · exact .stopped

/-! ## Behind a token -/

section

variable {c : Cursor}

/-- Readings behind a token that was taken. -/
theorem Followed.within {taken : Taken c} {r : Parsed α taken.next.size}
    {r' : Parsed α (taken.next.prolonged q).size} (h : Followed q t r r') :
    Followed q t (taken.within r) ((taken.prolonged q).within r') :=
  h.weaken

theorem Followed.opening {taken : Taken c} {r : Parsed α taken.next.size}
    {r' : Parsed α (taken.next.prolonged q).size} (h : Followed q t r r') :
    Followed q t (taken.opening r) ((taken.prolonged q).opening r') :=
  h.weaken

theorem followed_optional (c : Cursor) (p : Kind → Bool) :
    Followed q t (c.optional p) ((c.prolonged q).optional p) := by
  refine .of_pos fun hpos => ?_
  rw [Cursor.optional, Cursor.optional, Cursor.take?_prolonged hpos]
  cases c.take? p with
  | none => exact .here none c
  | some taken => exact .within (.here (some taken.token) taken.next)

end

/-! ## Repetition -/

/-- Whether a comma follows is told by the token behind. -/
theorem followed_commaSeparated {read : (c : Cursor) → Parsed α c.size} {trace : α → Trace}
    (h : ∀ c, Followed q (trace (read c).tree) (read c) (read (c.prolonged q)))
    (c : Cursor) :
    Followed q (Trace.all ((c.commaSeparated read).tree.map fun part => trace part.2))
      (c.commaSeparated read) ((c.prolonged q).commaSeparated read) := by
  refine .of_pos fun hpos => ?_
  rw [Cursor.commaSeparated, Cursor.commaSeparated, Cursor.take?_prolonged hpos]
  cases c.take? (· == .punct .comma) with
  | none => exact .here [] c
  | some taken =>
      have hlt := taken.lt
      have hle := (read taken.next).le
      have hrest := followed_commaSeparated h (read taken.next).next
      exact .within ((h taken.next).seq hrest.map)
termination_by c.size

/-- A mended cursor stands at the same place in the longer text. -/
theorem Followed.mended {β : Type} {g : (c : Cursor) → Parsed β c.size} {c : Cursor}
    (hg : Followed q t (g c.mend) (g (c.mend.prolonged q))) :
    Followed q t (g c.mend) (g (c.prolonged q).mend) := by
  rw [Cursor.mend_prolonged]
  exact hg

/-- Behind a part that is recovered from, reading goes on with a mended cursor. -/
theorem Followed.mend {β γ : Type} {m n : Nat} {r : Parsed α m} {r' : Parsed α n} {u : Trace}
    {g : (c : Cursor) → Parsed β c.size} {f : α → β → γ} (h : Followed q t r r')
    (hg : Followed q u (g r.next.mend) (g (r.next.mend.prolonged q))) :
    Followed q (t.settled.andThen u) (r.andThen fun a c _ => (g c.mend).map (f a))
      (r'.andThen fun a c _ => (g c.mend).map (f a)) :=
  h.settled.seq (Followed.mended hg).map

/-- Behind a part without a hole nothing is skipped, and the next part begins at the same token. -/
theorem followed_recovering (begins : Kind → Bool) {read : (c : Cursor) → Parsed α c.residue}
    {trace : α → Trace}
    (h : ∀ c, Followed q (trace (read c).tree) (read c) (read (c.prolonged q)))
    (c : Cursor) :
    Followed q (Trace.all ((c.recovering begins read).tree.map fun part =>
        (trace part).settled))
      (c.recovering begins read) ((c.prolonged q).recovering begins read) := by
  rcases c with (_ | ⟨t, ts⟩) | ⟨hole, after⟩
  · exact .of_pos fun hpos => absurd hpos (Nat.lt_irrefl 0)
  · show Followed q _ _ ((reading (t :: (ts ++ q))).recovering begins read)
    rw [Cursor.recovering, Cursor.recovering]
    by_cases hbegins : begins t.kind = true
    · have hle := (read (reading (t :: ts))).le
      have hrest := followed_recovering begins h (read (reading (t :: ts))).next.mend
      simp only [hbegins]
      exact ((h (reading (t :: ts))).mend hrest).atMost
    · simp only [hbegins]
      exact .here [] (reading (t :: ts))
  · show Followed q _ _ ((broken hole (after ++ q)).recovering begins read)
    rw [Cursor.recovering_broken, Cursor.recovering_broken]
    exact .here [] (broken hole after)
termination_by c.size
decreasing_by
  simp only [Cursor.size_mend, Cursor.size_reading, Cursor.residue_cons, List.length_cons] at *
  omega

end

end MiniC
