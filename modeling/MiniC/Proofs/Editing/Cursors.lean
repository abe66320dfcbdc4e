import MiniC.Proofs.Editing.Trees
import MiniC.Proofs.Reading.Decl

/-!
# `MiniC.Proofs.Editing.Cursors` — readers run side by side on two editions

A cursor and the one at the same place of another edition see tokens of the same kinds, so every
elementary reader does the same with both.  What a reader leaves is edited along: this is kept by
every way to put readers together, with one lemma for each.

## Contents
- `Cursor.Edited`: cursors at the same place of two editions.
- `Parsed.Edited`: results of reading in two editions, with `map`, `andThen`, ….
- `Cursor.Edited.take?`, `edited_demand`, `edited_takeWhile`, …: the elementary readers.
- `edited_commaSeparated`, `edited_recovering`: repetition.
-/

namespace MiniC

open Cursor (reading broken)

variable (E : Edition)

/-- Cursors at the same place of two editions. -/
inductive Cursor.Edited : Cursor → Cursor → Prop
  | reading {ts : List Token} : ts ⊆ E.text → Edited (.reading ts) (.reading (ts.map E.token))
  | broken {hole : Hole} {after : List Token} :
      after ⊆ E.text → Edited (.broken hole after) (.broken (E.hole hole) (after.map E.token))

variable {E}

/-! ## Cursors -/

namespace Cursor.Edited

variable {c c' : Cursor}

/-- A cursor sees a kind, and an edition keeps the kinds. -/
theorem sees (h : c.Edited E c') (p : Kind → Bool) : c'.sees p = c.sees p := by
  cases h with
  | @reading ts _ => cases ts <;> rfl
  | broken _ => rfl

/-- Recovery goes on at the same token, as it looks for a kind. -/
theorem mend (h : c.Edited E c') : c.mend.Edited E c'.mend := by
  cases h with
  | reading htext => exact .reading htext
  | broken htext => exact .reading htext

/-- The tokens ahead are the edited ones. -/
theorem unread (h : c.Edited E c') : c'.unread = c.unread.map E.token := by
  cases h <;> rfl

theorem size (h : c.Edited E c') : c'.size = c.size := by
  rw [Cursor.size, h.unread, List.length_map]
  rfl

/-- Behind a token of the text there are tokens of the text. -/
theorem behind {t : Token} {ts : List Token} (h : t :: ts ⊆ E.text) :
    (Cursor.reading ts).Edited E (Cursor.reading (ts.map E.token)) :=
  .reading (List.subset_of_cons_subset h)

end Cursor.Edited

theorem Kind.endsRecovery_eq {t : Token} :
    (E.token t).kind.endsRecovery = t.kind.endsRecovery := rfl

/-- Where recovery stops is told by kinds. -/
theorem resync_map (ts : List Token) :
    resync (ts.map E.token) = (resync ts).map E.token := by
  induction ts with
  | nil => rfl
  | cons t ts ih =>
      rw [List.map_cons, resync, resync, Kind.endsRecovery_eq]
      split
      · rfl
      · exact ih

theorem resync_subset (ts : List Token) : resync ts ⊆ ts := by
  induction ts with
  | nil => exact List.Subset.refl _
  | cons t ts ih =>
      rw [resync]
      split
      · exact List.subset_cons_self t ts
      · exact List.Subset.trans ih (List.subset_cons_self t ts)

theorem takeWhile_map_token {p : Kind → Bool} (ts : List Token) :
    (ts.map E.token).takeWhile (p ·.kind) = (ts.takeWhile (p ·.kind)).map E.token :=
  List.takeWhile_map

/-! ## Results of reading -/

section Results

variable {α α' β β' : Type} {m m' n n' : Nat} {R : α → α' → Prop} {S : β → β' → Prop}

variable (E) in
/-- Results of reading in two editions: trees that are related, and cursors at the same place. -/
structure Parsed.Edited (R : α → α' → Prop) (r : Parsed α m) (r' : Parsed α' m') : Prop where
  tree : R r.tree r'.tree
  next : r.next.Edited E r'.next

namespace Parsed.Edited

variable {r : Parsed α m} {r' : Parsed α' m'}

theorem here {tree : α} {tree' : α'} {c c' : Cursor} (htree : R tree tree')
    (hc : c.Edited E c') : Edited E R (.here tree c) (.here tree' c') :=
  ⟨htree, hc⟩

theorem weaken (h : r.Edited E R r') {hn : m ≤ n} {hn' : m' ≤ n'} :
    (r.weaken hn).Edited E R (r'.weaken hn') :=
  ⟨h.tree, h.next⟩

theorem map {f : α → β} {f' : α' → β'} (h : r.Edited E R r')
    (hf : ∀ {a a'}, R a a' → S (f a) (f' a')) : (r.map f).Edited E S (r'.map f') :=
  ⟨hf h.tree, h.next⟩

theorem atMost {c c' : Cursor} {r : Parsed α c.residue} {r' : Parsed α' c'.residue}
    (h : r.Edited E R r') : r.atMost.Edited E R r'.atMost :=
  ⟨h.tree, h.next⟩

/-- One reading behind another, if both go on from edited places. -/
theorem andThen {next : α → (c : Cursor) → c.size ≤ m → Parsed β c.size}
    {next' : α' → (c : Cursor) → c.size ≤ m' → Parsed β' c.size} (h : r.Edited E R r')
    (hnext : ∀ a a' c c' hle hle', R a a' → c.Edited E c' →
      (next a c hle).Edited E S (next' a' c' hle')) :
    (r.andThen next).Edited E S (r'.andThen next') :=
  (hnext _ _ _ _ r.le r'.le h.tree h.next).weaken

/-- A choice is made alike in both editions. -/
theorem ite {p q : Prop} [Decidable p] [Decidable q] {s : Parsed α m} {s' : Parsed α' m'}
    (hpq : q ↔ p) (hr : p → r.Edited E R r') (hs : ¬p → s.Edited E R s') :
    (if p then r else s).Edited E R (if q then r' else s') := by
  by_cases hp : p
  · rw [if_pos hp, if_pos (hpq.2 hp)]
    exact hr hp
  · rw [if_neg hp, if_neg (hpq.not.2 hp)]
    exact hs hp

end Parsed.Edited

variable (E) in
/-- One token that was taken in two editions, as one of some kinds. -/
structure Taken.Edited {c c' : Cursor} (p : Kind → Bool) (t : Taken c) (t' : Taken c') :
    Prop where
  token : t'.token = E.token t.token
  text : t.token ∈ E.text
  kind : p t.token.kind = true
  next : t.next.Edited E t'.next

namespace Taken.Edited

variable {c c' : Cursor} {p : Kind → Bool} {t : Taken c} {t' : Taken c'}

/-- What is read behind a token that was taken. -/
theorem within {r : Parsed β t.next.size} {r' : Parsed β' t'.next.size}
    (h : r.Edited E S r') : (t.within r).Edited E S (t'.within r') :=
  h.weaken

theorem andThen {next : Token → (c₁ : Cursor) → c₁.size < c.size → Parsed β c₁.size}
    {next' : Token → (c₁ : Cursor) → c₁.size < c'.size → Parsed β' c₁.size}
    (h : t.Edited E p t')
    (hnext : ∀ c₁ c₁' hlt hlt', c₁.Edited E c₁' →
      (next t.token c₁ hlt).Edited E S (next' (E.token t.token) c₁' hlt')) :
    (t.andThen next).Edited E S (t'.andThen next') := by
  have hboth := hnext _ _ t.lt t'.lt h.next
  rw [← h.token] at hboth
  exact ⟨hboth.tree, hboth.next⟩

theorem opens {next : Token → (c₁ : Cursor) → c₁.size < c.size → Parsed β c₁.size}
    {next' : Token → (c₁ : Cursor) → c₁.size < c'.size → Parsed β' c₁.size}
    (h : t.Edited E p t')
    (hnext : ∀ c₁ c₁' hlt hlt', c₁.Edited E c₁' →
      (next t.token c₁ hlt).Edited E S (next' (E.token t.token) c₁' hlt')) :
    (t.opens next).Edited E S (t'.opens next') := by
  have hboth := hnext _ _ t.lt t'.lt h.next
  rw [← h.token] at hboth
  exact ⟨hboth.tree, hboth.next⟩

end Taken.Edited

end Results

/-! ## Elementary readers -/

section Readers

variable {α α' β β' : Type} {c c' : Cursor} {p : Kind → Bool}

/-- A token is taken in both editions or in none. -/
theorem Cursor.Edited.take? (h : c.Edited E c') (p : Kind → Bool) :
    (c.take? p = none ∧ c'.take? p = none) ∨
      ∃ taken taken', c.take? p = some taken ∧ c'.take? p = some taken' ∧
        taken.Edited E p taken' := by
  cases h with
  | broken _ => exact .inl ⟨rfl, rfl⟩
  | @reading ts htext =>
      cases ts with
      | nil => exact .inl ⟨rfl, rfl⟩
      | cons t ts =>
          rw [List.map_cons]
          by_cases hp : p t.kind = true
          · refine .inr ⟨_, _, if_pos hp, if_pos hp, rfl, htext List.mem_cons_self, hp, ?_⟩
            exact .behind htext
          · exact .inl ⟨if_neg hp, if_neg hp⟩

/-- A hole remembers what was wanted and the tokens ahead, both edited. -/
theorem Cursor.Edited.hole (h : c.Edited E c') (wanted : Wanted) :
    c'.hole (E.wanted wanted) = E.hole (c.hole wanted) := by
  cases h <;> rfl

/-- A reading that fails breaks in the edited hole. -/
theorem Cursor.Edited.fail (h : c.Edited E c') (wanted : Wanted) :
    (c.fail wanted).Edited E (c'.fail (E.wanted wanted)) := by
  cases h with
  | @reading ts htext =>
      have hbroken := @Cursor.Edited.broken E ⟨wanted, ts⟩ _
        (List.Subset.trans (resync_subset ts) htext)
      rwa [← resync_map] at hbroken
  | broken htext => exact .broken htext

/-- A reader that finds nothing of its own leaves the hole in both editions. -/
theorem edited_lacking {R : α → α' → Prop} {missing : Hole → α} {missing' : Hole → α'}
    (h : c.Edited E c') (wanted : Wanted)
    (hR : R (missing (c.hole wanted)) (missing' (E.hole (c.hole wanted)))) :
    (c.lacking wanted missing).Edited E R (c'.lacking (E.wanted wanted) missing') := by
  refine ⟨?_, h.fail wanted⟩
  show R (missing (c.hole wanted)) (missing' (c'.hole (E.wanted wanted)))
  rwa [h.hole]

variable (E) in
/-- A slot in two editions, whose token is of the text and of one of some kinds. -/
def Edition.Slots (p : Kind → Bool) (slot slot' : Slot) : Prop :=
  slot' = E.slot slot ∧ slot.All fun t => t ∈ E.text ∧ p t.kind = true

/-- A token is found in both editions or missing in both. -/
theorem edited_demand (h : c.Edited E c') (p : Kind → Bool) {wanted : Wanted}
    (hwanted : E.wanted wanted = wanted) :
    (c.demand p wanted).Edited E (E.Slots p) (c'.demand p wanted) := by
  -- nothing that was wanted is ahead: at a hole, at the end, or at a token of another kind
  have hnone : ∀ c c' : Cursor, c.Edited E c' →
      (c.lacking wanted .missing).Edited E (E.Slots p) (c'.lacking wanted .missing) := by
    intro c c' h
    have hmissing : E.Slots p (.missing (c.hole wanted)) (.missing (E.hole (c.hole wanted))) :=
      ⟨rfl, fun _ hfound => nomatch hfound⟩
    have hlacking := @edited_lacking E _ _ c c' (E.Slots p) .missing .missing h wanted hmissing
    rwa [hwanted] at hlacking
  cases h with
  | broken htext => exact hnone _ _ (.broken htext)
  | @reading ts htext =>
      cases ts with
      | nil => exact hnone _ _ (.reading htext)
      | cons t ts =>
          rw [List.map_cons, Cursor.demand, Cursor.demand, Edition.kind_token]
          split
          next hp =>
            refine ⟨⟨rfl, fun u hu => ?_⟩, .behind htext⟩
            cases hu
            exact ⟨htext List.mem_cons_self, hp⟩
          next => exact hnone _ _ (.reading htext)

theorem edited_expect (h : c.Edited E c') (kind : Kind) (site : Site) :
    (c.expect kind site).Edited E (E.Slots (· == kind)) (c'.expect kind site) :=
  edited_demand h _ rfl

/-- An identifier that is found is certainly a name. -/
theorem edited_identifier (h : c.Edited E c') (site : Site) :
    (c.identifier site).Edited E (fun slot slot' => slot' = E.slot slot ∧ slot.All E.Names)
      (c'.identifier site) := by
  have hname := edited_expect h .ident site
  refine ⟨⟨hname.tree.1, fun t ht => ?_⟩, hname.next⟩
  obtain ⟨htext, hkind⟩ := hname.tree.2 t ht
  exact ⟨htext, by rw [eq_of_beq hkind]; rfl⟩

theorem edited_optional (h : c.Edited E c') (p : Kind → Bool) :
    (c.optional p).Edited E (fun t t' => t' = t.map E.token) (c'.optional p) := by
  unfold Cursor.optional
  rcases h.take? p with ⟨hnone, hnone'⟩ | ⟨taken, taken', hsome, hsome', ht⟩
  · rw [hnone, hnone']
    exact .here rfl h
  · rw [hsome, hsome']
    exact ht.andThen fun c₁ c₁' _ _ h₁ => .here rfl h₁

/-- The tokens taken by a repetition are the edited ones, and all pass its test. -/
theorem edited_takeWhile (h : c.Edited E c') (p : Kind → Bool) :
    (c'.takeWhile p).tokens = (c.takeWhile p).tokens.map E.token ∧
      (c.takeWhile p).next.Edited E (c'.takeWhile p).next ∧
        ∀ t ∈ (c.takeWhile p).tokens, p t.kind = true := by
  cases h with
  | broken htext => exact ⟨rfl, .broken htext, fun _ ht => nomatch ht⟩
  | @reading ts htext =>
      refine ⟨takeWhile_map_token ts, ?_, List.all_eq_true.1 List.all_takeWhile⟩
      have hrest : (Cursor.reading (ts.dropWhile (p ·.kind))).Edited E _ :=
        .reading (List.Subset.trans (List.dropWhile_subset _) htext)
      rwa [← dropWhile_map_of_kind (f := E.token) (fun _ => rfl)] at hrest

/-- A run of tokens as a part of the tree. -/
theorem edited_run (h : c.Edited E c') (p : Kind → Bool) :
    (c.takeWhile p).parsed.Edited E
      (fun ts ts' => ts' = ts.map E.token ∧ ∀ t ∈ ts, p t.kind = true)
      (c'.takeWhile p).parsed := by
  obtain ⟨htokens, hnext, hkinds⟩ := edited_takeWhile h p
  exact ⟨⟨htokens, hkinds⟩, hnext⟩

/-- What is read behind a run of tokens. -/
theorem edited_before {R : β → β' → Prop} (h : c.Edited E c') (p : Kind → Bool)
    {next : List Token → (c₁ : Cursor) → Parsed β c₁.residue}
    {next' : List Token → (c₁ : Cursor) → Parsed β' c₁.residue}
    (hnext : ∀ ts c₁ c₁', c₁.Edited E c₁' →
      (next ts c₁).Edited E R (next' (ts.map E.token) c₁')) :
    ((c.takeWhile p).before next).Edited E R ((c'.takeWhile p).before next') := by
  obtain ⟨htokens, h₁, -⟩ := edited_takeWhile h p
  have hboth := hnext (c.takeWhile p).tokens _ _ h₁
  rw [← htokens] at hboth
  exact ⟨hboth.tree, hboth.next⟩

/-! ## Repetition -/

variable {R : α → α' → Prop}

/-- Parts between commas correspond if each part does. -/
theorem edited_commaSeparated {read : (c : Cursor) → Parsed α c.size}
    {read' : (c : Cursor) → Parsed α' c.size}
    (hread : ∀ c c', c.Edited E c' → (read c).Edited E R (read' c')) {c c' : Cursor}
    (h : c.Edited E c') :
    (c.commaSeparated read).Edited E (List.Forall₂ fun part part' => R part.2 part'.2)
      (c'.commaSeparated read') := by
  rw [Cursor.commaSeparated, Cursor.commaSeparated]
  rcases h.take? (· == .punct .comma) with ⟨hnone, hnone'⟩ | ⟨taken, taken', hsome, hsome', ht⟩
  · rw [hnone, hnone']
    exact .here .nil h
  · rw [hsome, hsome']
    refine ht.andThen fun c₁ c₁' hlt _ h₁ => ?_
    refine (hread c₁ c₁' h₁).andThen fun part part' c₂ c₂' hle _ hpart h₂ => ?_
    exact (edited_commaSeparated hread h₂).map fun hrest => .cons hpart hrest
termination_by c.size

/-- Parts correspond if each does, since recovery behind a broken one ends at the same token. -/
theorem edited_recovering {begins : Kind → Bool} {read : (c : Cursor) → Parsed α c.residue}
    {read' : (c : Cursor) → Parsed α' c.residue}
    (hread : ∀ c c', c.Edited E c' → (read c).Edited E R (read' c')) :
    ∀ {c c' : Cursor}, c.Edited E c' →
      (c.recovering begins read).Edited E (List.Forall₂ R) (c'.recovering begins read')
  | _, _, .broken htext => by
      rw [Cursor.recovering_broken, Cursor.recovering_broken]
      exact .here .nil (.broken htext)
  | _, _, @Cursor.Edited.reading _ [] htext => by
      rw [List.map_nil, Cursor.recovering_nil, Cursor.recovering_nil]
      exact .here .nil (.reading htext)
  | _, _, @Cursor.Edited.reading _ (t :: ts) htext => by
      rw [List.map_cons, Cursor.recovering, Cursor.recovering, Edition.kind_token]
      by_cases hbegins : begins t.kind = true
      · rw [if_pos hbegins, if_pos hbegins]
        refine ((hread _ _ (.reading htext)).andThen
          fun part part' c₁ c₁' hle _ hpart h₁ => ?_).atMost
        exact (edited_recovering hread h₁.mend).map fun hrest => .cons hpart hrest
      · rw [if_neg hbegins, if_neg hbegins]
        exact .here .nil (.reading htext)
termination_by c => c.size
decreasing_by
  simp only [Cursor.size_mend, Cursor.size_reading, Cursor.residue_cons, List.length_cons] at *
  omega

end Readers

end MiniC
