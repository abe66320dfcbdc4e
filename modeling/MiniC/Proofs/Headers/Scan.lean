import MiniC.Proofs.Ending.Mark

/-!
# `MiniC.Proofs.Headers.Scan` — a header is told before it is read

Where a declaration begins, the decision for a function is taken on the tokens ahead, before one
of them is read: a scan counts past qualifiers, a type and stars, and looks at the two tokens
behind.  It passes over the two tokens of a struct type without a look at the second, and over a
type that is not there.  The readers take the same tokens one by one, and break where a type is
faulty; up to there, both come to the same place.

## Contents
- `TokenStream.seesHeader`: the scan, by the number of tokens it has passed.
- `TokenStream.rest_pastRun`, `TokenStream.seesHeader_eq`: it is `Cursor.startsFunction`.
- `startsFunction_of_typeSpec`: behind a type that was read, the scan and the readers stand at the
  same token.
- `TokenStream.ForeseesHeader`, with `foreseesHeader`: **what the scan sees is what is read.**
-/

namespace MiniC

open Cursor (reading broken)

/-! ## The scan -/

namespace TokenStream

section

variable (stream : TokenStream)

/-- The first place from `k` on whose token is of no kind that satisfies `p`.  Behind the last
token the search ends. -/
def pastRun (p : Kind → Bool) (k : Nat) : Nat :=
  if k ≤ stream.ahead.length ∧ p (stream.peek k).kind = true then pastRun p (k + 1) else k
termination_by stream.ahead.length + 1 - k

/-- Count past qualifiers, a type and stars, and look for a name and a parenthesis behind them. -/
def seesHeader : Bool :=
  let typed := stream.pastRun Kind.isQualifier 1
  let starred :=
    if (stream.peek typed).kind = .keyword .kwStruct then typed + 2
    else stream.pastRun Kind.isTypeWord typed
  let named := stream.pastRun (· == .operator .star) starred
  (stream.peek named).kind.namesFunction && (stream.peek (named + 1)).kind == .punct .lparen

/-- The tokens from a place on. -/
def rest (k : Nat) : List Token := stream.ahead.drop (k - 1)

theorem peek_eq_headD (k : Nat) : stream.peek k = (stream.rest k).headD stream.mark := by
  rw [peek, rest, ← List.head?_drop, List.headD_eq_head?_getD]

theorem rest_add {k : Nat} (hk : 1 ≤ k) (n : Nat) :
    stream.rest (k + n) = (stream.rest k).drop n := by
  have hplace : k + n - 1 = k - 1 + n := by omega
  rw [rest, rest, List.drop_drop, hplace]

/-- A place that holds a token holds the first of the tokens from there on. -/
theorem rest_eq_cons {k : Nat} (hk : 1 ≤ k) (hle : k ≤ stream.ahead.length) :
    stream.rest k = stream.peek k :: stream.rest (k + 1) := by
  have hlt : k - 1 < stream.ahead.length := by omega
  rw [peek_eq_headD, rest_add stream hk 1, rest, List.drop_eq_getElem_cons hlt]
  rfl

/-- Counting past a run of tokens is to drop them. -/
theorem rest_pastRun (p : Kind → Bool) {k : Nat} (hk : 1 ≤ k) :
    stream.rest (stream.pastRun p k) = (stream.rest k).dropWhile (p ·.kind) ∧
      1 ≤ stream.pastRun p k := by
  induction k using pastRun.induct stream p with
  | case1 k h ih =>
      obtain ⟨hle, hp⟩ := h
      obtain ⟨hrest, hplace⟩ := ih (by omega)
      rw [pastRun, if_pos ⟨hle, hp⟩, rest_eq_cons stream hk hle,
        List.dropWhile_cons_of_pos (by exact hp)]
      exact ⟨hrest, hplace⟩
  | case2 k h =>
      rw [pastRun, if_neg h]
      refine ⟨?_, hk⟩
      by_cases hle : k ≤ stream.ahead.length
      · have hp : ¬p (stream.peek k).kind = true := fun hp => h ⟨hle, hp⟩
        rw [rest_eq_cons stream hk hle, List.dropWhile_cons_of_neg (by exact hp)]
      · have hnil : stream.rest k = [] := List.drop_eq_nil_of_le (by omega)
        rw [hnil]
        rfl

end

section

variable {stream : TokenStream} (hmark : stream.mark.isEof = true)

include hmark

/-- Behind the last token stands a token that is of no kind one looks for. -/
theorem kind_peek {q : Kind → Bool} (hq : q .eof = false) (k : Nat) :
    q (stream.peek k).kind = (stream.rest k).head?.any (q ·.kind) := by
  rw [peek_eq_headD]
  cases stream.rest k with
  | nil =>
      have hkind : stream.mark.kind = .eof := by simpa [Token.isEof] using hmark
      simp [hkind, hq]
  | cons t ts => rfl

/-- The bound on the search is never what ends it. -/
theorem pastRun_eq {p : Kind → Bool} (hp : p .eof = false) {k : Nat} (hk : 1 ≤ k) :
    stream.pastRun p k =
      if p (stream.peek k).kind = true then stream.pastRun p (k + 1) else k := by
  rw [pastRun]
  by_cases hle : k ≤ stream.ahead.length
  · simp only [hle, true_and]
  · have hnil : stream.rest k = [] := List.drop_eq_nil_of_le (by omega)
    have hno : ¬p (stream.peek k).kind = true := by
      rw [kind_peek hmark hp, hnil]
      exact Bool.false_ne_true
    rw [if_neg fun h => hle h.1, if_neg hno]

/-- The scan that counts tokens sees what is seen by dropping them. -/
theorem seesHeader_eq : stream.seesHeader = Cursor.startsFunction stream.ahead := by
  obtain ⟨htyped, hplace⟩ := stream.rest_pastRun Kind.isQualifier (Nat.le_refl 1)
  generalize htypedPlace : stream.pastRun Kind.isQualifier 1 = typed at htyped hplace
  have hspec : ∃ starred, starred = (if (stream.peek typed).kind = .keyword .kwStruct
      then typed + 2 else stream.pastRun Kind.isTypeWord typed) ∧ 1 ≤ starred ∧
        stream.rest starred = pastTypeSpec (stream.rest typed) := by
    refine ⟨_, rfl, ?_⟩
    have hword := kind_peek hmark (q := (· == .keyword .kwStruct)) rfl typed
    unfold pastTypeSpec
    rw [← hword]
    by_cases hstruct : (stream.peek typed).kind = .keyword .kwStruct
    · rw [if_pos hstruct, if_pos (by exact beq_iff_eq.2 hstruct)]
      exact ⟨by omega, rest_add stream hplace 2⟩
    · rw [if_neg hstruct, if_neg (by exact fun h => hstruct (beq_iff_eq.1 h))]
      obtain ⟨hrest, hnext⟩ := stream.rest_pastRun Kind.isTypeWord hplace
      exact ⟨hnext, hrest⟩
  obtain ⟨starred, hstarred, hplace', hspec⟩ := hspec
  obtain ⟨hnamed, hplace''⟩ := stream.rest_pastRun (· == .operator .star) hplace'
  have hpast : stream.rest (stream.pastRun (· == .operator .star) starred) =
      pastType stream.ahead := by
    rw [hnamed, hspec, htyped]
    rfl
  rw [seesHeader, htypedPlace, ← hstarred, startsFunction_eq]
  have hopening := kind_peek hmark (q := (· == .punct .lparen)) rfl
    (stream.pastRun (· == .operator .star) starred + 1)
  show (_ && _) = _
  rw [hopening, kind_peek hmark (q := Kind.namesFunction) rfl, rest_add stream hplace'' 1, hpast]
  rcases pastType stream.ahead with _ | ⟨name, _ | ⟨opening, behind⟩⟩
  · rfl
  · exact Bool.and_false _
  · rfl

end

end TokenStream

/-! ## The readers -/

/-- A call is seen where a name and a parenthesis stand. -/
theorem seesCall_shapes {ts : List Token} : seesCall (shapes ts) = true ↔
    ∃ name opening rest, ts = name :: opening :: rest ∧ name.kind.namesFunction = true ∧
      opening.kind = .punct .lparen := by
  rcases ts with _ | ⟨name, _ | ⟨opening, rest⟩⟩
  · simp [seesCall]
  · simp [seesCall]
  · simp only [seesCall, shapes, List.map_cons, Token.kind_shape, Bool.and_eq_true, beq_iff_eq]
    constructor
    · exact fun hkinds => ⟨name, opening, rest, rfl, hkinds⟩
    · rintro ⟨_, _, _, htokens, hkinds⟩
      cases htokens
      exact hkinds

namespace Cursor

variable {c : Cursor} {p : Kind → Bool} {wanted : Wanted}

/-- A token that was asked for is found under a cursor that is not broken. -/
theorem demand_eq_found {t : Token} (h : (c.demand p wanted).tree = .found t) :
    ∃ ts, c = reading (t :: ts) ∧ p t.kind = true ∧
      (c.demand p wanted).next = reading ts := by
  rcases c with (_ | ⟨u, ts⟩) | ⟨hole, after⟩
  · cases h
  · by_cases hp : p u.kind = true
    · simp only [demand, if_pos hp] at h ⊢
      cases h
      exact ⟨ts, rfl, hp, rfl⟩
    · simp only [demand, if_neg hp] at h
      cases h
  · cases h

/-- A token of the kind that is asked for is found. -/
theorem demand_reading {t : Token} (hp : p t.kind = true) (ts : List Token) (wanted : Wanted) :
    ((reading (t :: ts)).demand p wanted).tree = .found t ∧
      ((reading (t :: ts)).demand p wanted).next = reading ts := by
  rw [demand, if_pos hp]
  exact ⟨rfl, rfl⟩

/-- A cursor that stays whole while a token is asked for has found it. -/
theorem demand_next_reading {us : List Token} (h : (c.demand p wanted).next = reading us) :
    ∃ t, c = reading (t :: us) ∧ p t.kind = true := by
  rcases c with (_ | ⟨t, ts⟩) | ⟨hole, after⟩
  · cases h
  · by_cases hp : p t.kind = true
    · rw [(demand_reading hp ts wanted).2] at h
      cases h
      exact ⟨t, rfl, hp⟩
    · simp only [demand, if_neg hp] at h
      cases h
  · cases h

theorem takeWhile_next_reading {us : List Token} (h : (c.takeWhile p).next = reading us) :
    ∃ ts, c = reading ts ∧ us = ts.dropWhile (p ·.kind) := by
  cases c with
  | reading ts => exact ⟨ts, rfl, (reading.inj h).symm⟩
  | broken hole after => cases h

/-- A type specifier that is read is what the scan passes over. -/
theorem typeSpec_next_reading {us : List Token} (h : c.typeSpec.next = reading us) :
    ∃ ts, c = reading ts ∧ us = pastTypeSpec ts := by
  rcases c with (_ | ⟨t, ts⟩) | ⟨hole, after⟩
  · cases h
  · refine ⟨t :: ts, rfl, ?_⟩
    rw [typeSpec] at h
    by_cases hstruct : (t.kind == .keyword .kwStruct) = true
    · rw [if_pos hstruct] at h
      obtain ⟨name, hname, -⟩ := demand_next_reading h
      obtain rfl : ts = name :: us := reading.inj hname
      rw [pastTypeSpec, if_pos (by exact hstruct)]
      rfl
    · rw [if_neg hstruct] at h
      rw [pastTypeSpec, if_neg (by exact hstruct)]
      by_cases hword : t.kind.isTypeWord = true
      · rw [if_pos hword] at h
        rw [List.dropWhile_cons_of_pos (by exact hword)]
        exact (reading.inj h).symm
      · rw [if_neg hword] at h
        cases h
  · cases h

end Cursor

/-- Behind qualifiers and a type specifier that were read, the readers stand where the scan does:
what it sees is whether a call stands behind the stars. -/
theorem startsFunction_of_typeSpec {ts us : List Token}
    (h : (reading ts).qualifiers.next.typeSpec.next = reading us) :
    Cursor.startsFunction ts = seesCall (shapes (us.dropWhile (·.kind == .operator .star))) := by
  obtain ⟨vs, hvs, rfl⟩ := Cursor.typeSpec_next_reading h
  obtain rfl : ts.dropWhile (·.kind.isQualifier) = vs := reading.inj hvs
  rw [startsFunction_eq, pastType]

/-- The reader of headers finds the name and the parenthesis that the scan has seen, unless it
breaks before, at the type. -/
theorem header_found {ts us : List Token}
    (h : (reading ts).qualifiers.next.typeSpec.next = reading us)
    (hsees : Cursor.startsFunction ts = true) :
    ∃ name opening rest, (reading us).stars.next = reading (name :: opening :: rest) ∧
      (reading ts).header.tree.name = .found name ∧
        (reading ts).header.tree.opening = .found opening ∧ name.kind.namesFunction = true ∧
          opening.kind = .punct .lparen := by
  rw [startsFunction_of_typeSpec h] at hsees
  obtain ⟨name, opening, rest, hrest, hname, hopening⟩ := seesCall_shapes.1 hsees
  have hstars : (reading us).stars.next = reading (name :: opening :: rest) :=
    congrArg reading hrest
  obtain ⟨hnamed, hbehind⟩ := Cursor.demand_reading hname (opening :: rest) .functionName
  refine ⟨name, opening, rest, hstars, ?_, ?_, hname, hopening⟩
  · show ((reading ts).qualifiers.next.typeSpec.next.stars.next.demand Kind.namesFunction
      .functionName).tree = .found name
    rw [h, hstars, hnamed]
  · show (((reading ts).qualifiers.next.typeSpec.next.stars.next.demand Kind.namesFunction
      .functionName).next.expect (.punct .lparen) .parametersStart).tree = .found opening
    rw [h, hstars, hbehind]
    exact (Cursor.demand_reading (by simpa using hopening) rest _).1

/-- A header is seen without a type in front, too; its reader breaks where the type is missing. -/
example :
    let call : List Token := [⟨.operator .star, "*", ⟨1, 1⟩⟩, ⟨.ident, "f", ⟨1, 2⟩⟩,
      ⟨.punct .lparen, "(", ⟨1, 3⟩⟩]
    Cursor.startsFunction call = true ∧
      (reading call).typeSpec.next.hole?.map (·.wanted) = some .typeSpecifier := by
  decide

namespace Cursor

/-- The cursor behind the name of the first variable that a declaration declares. -/
def behindFirstName (c : Cursor) : Cursor :=
  (c.qualifiers.next.typeSpec.next.stars.next.identifier .declaredName).next

end Cursor

/-- Behind the name of the first variable of a declaration stands no parenthesis, if the scan saw
none. -/
theorem not_sees_behindFirstName {ts : List Token} {name : Token}
    (hsees : Cursor.startsFunction ts = false)
    (hname : (reading ts).declaration.tree.first.name = .found name) :
    (reading ts).behindFirstName.sees (· == .punct .lparen) = false := by
  obtain ⟨behind, hstars, hkind, hnext⟩ := Cursor.demand_eq_found hname
  obtain ⟨us, hspec, hrest⟩ := Cursor.takeWhile_next_reading hstars
  rw [startsFunction_of_typeSpec hspec, ← hrest] at hsees
  have hbehind : (reading ts).behindFirstName = reading behind := hnext
  rw [hbehind]
  refine Bool.eq_false_iff.2 fun hparen => ?_
  cases behind with
  | nil => cases hparen
  | cons opening behind =>
      have hnames : name.kind.namesFunction = true := by
        rw [beq_iff_eq.1 hkind]
        rfl
      have hopening : opening.kind = .punct .lparen := beq_iff_eq.1 hparen
      rw [seesCall_shapes.2 ⟨name, opening, behind, rfl, hnames, hopening⟩] at hsees
      cases hsees

/-! ## States of the parser -/

namespace TokenStream

/-- What the scan sees from the tokens of a stream on is what the readers find there. -/
structure ForeseesHeader (stream : TokenStream) : Prop where
  /-- The scan passes a token just if it is of a kind it counts past. -/
  counts : ∀ p : Kind → Bool, p .eof = false → ∀ k, 1 ≤ k → stream.pastRun p k =
    if p (stream.peek k).kind = true then stream.pastRun p (k + 1) else k
  /-- The decision of an analysis is the one of the scan. -/
  decides : stream.seesHeader = Cursor.startsFunction (stream.body ++ stream.beyond)
  /-- Where qualifiers and a type specifier can be read, a header is seen just if the cursor is at
  a name with a parenthesis behind it, once the stars are read too. -/
  predicts : ∀ us, (reading stream.body).qualifiers.next.typeSpec.next = reading us →
    (stream.seesHeader = true ↔ ∃ name opening rest,
      (reading us).stars.next = reading (name :: opening :: rest) ∧
        name.kind.namesFunction = true ∧ opening.kind = .punct .lparen)
  /-- Where a header is seen and the type is not at fault, the reader of headers finds a name and
  the parenthesis behind it. -/
  function : stream.seesHeader = true →
    (∃ hole after, (reading stream.body).qualifiers.next.typeSpec.next = broken hole after) ∨
      ∃ name opening, (reading stream.body).header.tree.name = .found name ∧
        (reading stream.body).header.tree.opening = .found opening
  /-- Where no header is seen, the reader of declarations finds no parenthesis behind the first
  name that it finds. -/
  declaration : stream.seesHeader = false → ∀ name,
    (reading stream.body).declaration.tree.first.name = .found name →
      (reading stream.body).behindFirstName.sees (· == .punct .lparen) = false

variable {stream : TokenStream}

/-- Where a type specifier can be read, nothing behind the end of the input is looked at. -/
theorem startsFunction_body {us : List Token}
    (h : (reading stream.body).qualifiers.next.typeSpec.next = reading us) :
    Cursor.startsFunction (stream.body ++ stream.beyond) = Cursor.startsFunction stream.body := by
  rcases startsFunction_append stream.beyond_beyond stream.body with hsame | hcut
  · exact hsame
  · obtain ⟨word, -, hbroken⟩ := hcut.typeSpec
    rw [hbroken] at h
    cases h

/-- **What the scan sees is what is read.** -/
theorem foreseesHeader (hmark : stream.mark.isEof = true) : stream.ForeseesHeader := by
  have hdecides : stream.seesHeader = Cursor.startsFunction (stream.body ++ stream.beyond) := by
    rw [seesHeader_eq hmark, body_append_beyond]
  constructor
  case counts => exact fun p hp k hk => pastRun_eq hmark hp hk
  case decides => exact hdecides
  case predicts =>
    intro us h
    rw [hdecides, startsFunction_body h, startsFunction_of_typeSpec h, seesCall_shapes]
    constructor
    · rintro ⟨name, opening, rest, hrest, hkinds⟩
      exact ⟨name, opening, rest, congrArg reading hrest, hkinds⟩
    · rintro ⟨name, opening, rest, hrest, hkinds⟩
      exact ⟨name, opening, rest, reading.inj hrest, hkinds⟩
  case function =>
    intro hsees
    cases h : (reading stream.body).qualifiers.next.typeSpec.next with
    | broken hole after => exact .inl ⟨hole, after, rfl⟩
    | reading us =>
        rw [hdecides, startsFunction_body h] at hsees
        obtain ⟨name, opening, -, -, hname, hopening, -⟩ := header_found h hsees
        exact .inr ⟨name, opening, hname, hopening⟩
  case declaration =>
    intro hsees name hname
    obtain ⟨behind, hstars, -⟩ := Cursor.demand_eq_found hname
    obtain ⟨us, hspec, -⟩ := Cursor.takeWhile_next_reading hstars
    rw [hdecides, startsFunction_body hspec] at hsees
    exact not_sees_behindFirstName hsees hname

end TokenStream

end MiniC
