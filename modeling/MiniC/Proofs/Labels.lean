import Mathlib.Data.Nat.Digits.Defs
import MiniC.Proofs.Exits
import MiniC.Proofs.Lexing.Decomposition

/-!
# `MiniC.Proofs.Labels` — labels of a switch that were there before

The body of a switch has labels, and a label must not be there twice.  While the body is checked,
the spellings of its labels so far are carried along; a switch inside of it, or a function, starts
afresh and hands nothing back.

Here the labels of a program are listed by going through its tree, each with the labels in front of
it in the same body.  The complaints about labels are those of the list, in order: one for each
label that repeats one in front of it, and none for any other.

A label repeats another if it is spelled in the same way.  So two numbers that differ in leading
zeros do not repeat each other, and a label is found to repeat a number if and only if an earlier
one is the same number with as many digits.

## Contents
- `Label`, `PlacedLabel`, with `repeats`; `labels` of a program.
- `Check.Says`, with one lemma for each combinator of checks, up to `says_stmt`.
- `Token.number`, `Token.Shortest`; `lexeme_eq_iff`: spellings and numbers.
- `labels_reported`: **labels are reported if they were there before.**
- `zeroLabel_unreported`: a number that is there twice, and not reported.
-/

namespace MiniC

/-! ## Labels -/

/-- A label in the body of a switch. -/
inductive Label
  | case (value : Token)
  | default (keyword : Token)
deriving DecidableEq

namespace Label

/-- The complaint about a label that was there before. -/
def issue : Label → Issue
  | case value => .fault (.duplicateCase value.lexeme) value
  | default keyword => .fault .duplicateDefault keyword

/-- Whether two labels are spelled in the same way. -/
def same : Label → Label → Bool
  | case value, case other => value.lexeme = other.lexeme
  | default _, default _ => true
  | _, _ => false

/-- The constant of a label, as it is spelled. -/
def spelling? : Label → Option String
  | case value => some value.lexeme
  | default _ => none

/-- Whether a label is that of the other values. -/
def isDefault : Label → Bool
  | case _ => false
  | default _ => true

end Label

/-- A label, with those in front of it in the same body, the nearest first. -/
structure PlacedLabel where
  label : Label
  earlier : List Label
deriving DecidableEq

namespace PlacedLabel

/-- Whether a label in front of it in the same body is spelled in the same way. -/
def repeats (p : PlacedLabel) : Bool := p.earlier.any p.label.same

/-- The complaints about those labels that repeat one in front of them. -/
def duplicates (labels : List PlacedLabel) : List Issue :=
  (labels.filter repeats).map (·.label.issue)

end PlacedLabel

mutual

/-- The labels of all switches in a statement, in order. -/
def Stmt.labels : Stmt → List PlacedLabel
  | .function _ body => body.labels
  | .ifThen _ _ body => body.labels
  | .ifElse _ _ body _ alternative => body.labels ++ alternative.labels
  | .whileLoop _ _ body => body.labels
  | .doWhile _ body _ _ _ => body.labels
  | .forLoop _ _ _ _ _ _ _ body => body.labels
  | .switch _ _ _ _ _ clauses _ => clauses.labels []
  | .block _ body _ => body.labels
  | _ => []

/-- The labels of all switches in statements. -/
def Stmts.labels : Stmts → List PlacedLabel
  | .nil => []
  | .cons first rest => first.labels ++ rest.labels

/-- The labels in the body of a switch, behind those that were there already, and of the switches
inside of it. -/
def Clauses.labels (earlier : List Label) : Clauses → List PlacedLabel
  | .nil => []
  | .case _ (.missing _) _ rest => rest.labels earlier
  | .case _ (.found value) _ rest =>
      ⟨.case value, earlier⟩ :: rest.labels (.case value :: earlier)
  | .default keyword _ rest =>
      ⟨.default keyword, earlier⟩ :: rest.labels (.default keyword :: earlier)
  | .stmt first rest => first.labels ++ rest.labels earlier

end

namespace PlacedLabel

variable {labels more : List PlacedLabel}

theorem duplicates_append : duplicates (labels ++ more) = duplicates labels ++ duplicates more := by
  simp [duplicates]

theorem duplicates_cons (p : PlacedLabel) :
    duplicates (p :: labels) =
      (if p.repeats then [p.label.issue] else []) ++ duplicates labels := by
  unfold duplicates
  by_cases h : p.repeats = true
  · rw [List.filter_cons_of_pos h, if_pos h]
    rfl
  · rw [List.filter_cons_of_neg h, if_neg h]
    rfl

/-- What is carried along while a body is checked: the spellings of its labels so far. -/
theorem repeats_case (value : Token) (earlier : List Label) :
    repeats ⟨.case value, earlier⟩ = decide (value.lexeme ∈ earlier.filterMap Label.spelling?) := by
  induction earlier with
  | nil => rfl
  | cons first rest ih =>
      unfold repeats at ih ⊢
      cases first with
      | case other =>
          have hspellings : (Label.case other :: rest).filterMap Label.spelling? =
              other.lexeme :: rest.filterMap Label.spelling? := rfl
          rw [List.any_cons, ih, hspellings]
          simp [Label.same]
      | default keyword => exact ih

/-- The other thing that is carried along: whether there was a default. -/
theorem repeats_default (keyword : Token) (earlier : List Label) :
    repeats ⟨.default keyword, earlier⟩ = earlier.any Label.isDefault := by
  have hsame : (Label.default keyword).same = Label.isDefault := by
    funext other
    cases other <;> rfl
  rw [repeats, hsame]

end PlacedLabel

/-! ## Complaints about labels -/

/-- Whether an issue is about a label. -/
def Issue.isLabel : Issue → Bool
  | missing _ => false
  | fault cause _ => cause.isLabel

/-- A fault that is not about a label. -/
def LabelFree (cause : Fault) : Prop := cause.isLabel = false

theorem common_labelFree : Common LabelFree := by
  intro cause hcause
  simp only [Bool.or_eq_false_iff] at hcause
  exact hcause.1.2

theorem exiting_labelFree : Exiting LabelFree := by
  intro cause hexit _
  cases cause <;> first | rfl | exact nomatch hexit

theorem labelFree_const (name : String) : LabelFree (.assignedConst name) := rfl

/-- A check of a part without holes that complains of labels as given, whatever the symbols are. -/
structure Check.Says {α : Type} (m : Check α) (said : List Issue) : Prop where
  whole : ∀ σ, ∃ a, (m σ).2.outcome = .ok a
  issues : ∀ σ, (m σ).2.issues.filter Issue.isLabel = said

namespace Check.Says

variable {α β : Type} {m : Check α} {next : α → Check β} {said more : List Issue}

/-- A part that has no label in it. -/
theorem sober {good : α → Prop} (hleaves : m.Leaves .clear) (hfinds : m.Finds LabelFree good) :
    m.Says [] where
  whole σ := Finding.exists_ok (congrArg Trace.stop (hleaves.trace σ))
  issues σ := (hfinds σ).filter_eq_nil (fun _ => rfl) fun _ _ hfree => hfree

theorem pure (a : α) : (Pure.pure a : Check α).Says [] := by
  have hfinds : (Pure.pure a : Check α).Finds LabelFree fun _ => True := .pure trivial
  exact sober (.pure a) hfinds

theorem reading {f : Symbols → Finding α} {good : α → Prop} (hleaves : ∀ σ, (f σ).Leaves .clear)
    (hfinds : ∀ σ, (f σ).Finds LabelFree good) : (Check.reading f).Says [] :=
  sober (.reading hleaves) (.reading hfinds)

theorem require {slot : Slot} (h : slot.trace = .clear) : (Check.lift slot.require).Says [] :=
  sober (h ▸ .require slot) (.require slot)

theorem bind (hm : m.Says said) (hnext : ∀ a, (next a).Says more) :
    (m >>= next).Says (said ++ more) := by
  constructor
  · intro σ
    obtain ⟨a, ha⟩ := hm.whole σ
    rw [Check.bind_run, ha]
    exact (hnext a).whole _
  · intro σ
    obtain ⟨a, ha⟩ := hm.whole σ
    rw [Check.bind_run, ha]
    show ((m σ).2.issues ++ (next a (m σ).1).2.issues).filter Issue.isLabel = said ++ more
    rw [List.filter_append, hm.issues, (hnext a).issues]

/-- Behind a part without labels. -/
theorem behind (hm : m.Says []) (hnext : ∀ a, (next a).Says said) : (m >>= next).Says said :=
  hm.bind hnext

/-- In front of a part without labels. -/
theorem before (hm : m.Says said) (hnext : ∀ a, (next a).Says []) : (m >>= next).Says said := by
  have hboth := hm.bind hnext
  rwa [List.append_nil] at hboth

theorem inScope (h : m.Says said) : (Check.inScope m).Says said :=
  ⟨fun σ => h.whole σ.enter, fun σ => h.issues σ.enter⟩

theorem settled {m : Check Unit} (h : m.Says said) : m.settled.Says said := by
  have hsame : ∀ σ, ((m.settled) σ).2 = (m σ).2 := by
    intro σ
    obtain ⟨a, ha⟩ := h.whole σ
    show (m σ).2.settledWith () = (m σ).2
    rw [Finding.settledWith, ha]
    exact Finding.ext rfl ha.symm
  exact ⟨fun σ => hsame σ ▸ h.whole σ, fun σ => hsame σ ▸ h.issues σ⟩

/-- A label, with the colon behind it: it was there before, or not. -/
theorem label {fine : Bool} {fault : Fault} {site : Token} {colon : Slot} {next : Check Unit}
    (hfault : fault.isLabel = true) (hcolon : colon.trace = .clear) (hnext : next.Says said) :
    (Check.lift (Finding.complain fine fault site) >>= fun _ =>
      (Check.lift colon.require).settled >>= fun _ => next).Says
      ((if fine then [] else [.fault fault site]) ++ said) := by
  have hlabel : (Check.lift (Finding.complain fine fault site)).Says
      (if fine then [] else [.fault fault site]) := by
    cases fine with
    | true => exact ⟨fun _ => ⟨(), rfl⟩, fun _ => rfl⟩
    | false => exact ⟨fun _ => ⟨(), rfl⟩, fun _ => List.filter_cons_of_pos hfault⟩
  exact hlabel.bind fun _ => (require hcolon).settled.behind fun _ => hnext

end Check.Says

/-! ## Statements -/

theorem labels_exitless {s : Stmt} (hs : s.Exitless) : s.labels = [] := by
  cases s <;> first | rfl | exact hs.elim

theorem says_exitless (context : Context) {s : Stmt} (hs : s.Exitless) (h : s.trace = .clear) :
    (s.check context).Says (PlacedLabel.duplicates s.labels) := by
  rw [labels_exitless hs]
  exact .sober (h ▸ leaves_stmt context s)
    (finds_exitless common_labelFree labelFree_const context hs)

theorem says_condition {c : Condition} (h : c.trace = .clear) (ruled : Ruled) :
    (Check.reading fun σ => c.check σ ruled).Says [] :=
  .reading (fun _ => h ▸ leaves_condition ruled c) fun _ => finds_condition common_labelFree ruled c

theorem says_header {header : Header} (h : header.trace = .clear) (defined : Bool) :
    (header.check defined).Says [] :=
  .sober (h ▸ leaves_header header defined) (finds_header common_labelFree header defined)

mutual

/-- **A statement without holes complains of the labels that repeat another,** and of no other. -/
theorem says_stmt (context : Context) :
    ∀ s : Stmt, s.trace = .clear → (s.check context).Says (PlacedLabel.duplicates s.labels)
  | .blank _, h => says_exitless context trivial h
  | .struct _, h => says_exitless context trivial h
  | .declaration _, h => says_exitless context trivial h
  | .prototype _ _, h => says_exitless context trivial h
  | .function header body, h => by
      obtain ⟨hheader, hbody⟩ := Trace.andThen_eq_clear.1 h
      exact ((says_header hheader true).behind fun f => says_stmt (.body f) body hbody).inScope
  | .ifThen _ condition body, h => by
      obtain ⟨hcondition, hbody⟩ := Trace.andThen_eq_clear.1 h
      exact (says_condition hcondition .ifElse).behind fun _ =>
        (says_stmt context body hbody).inScope
  | .ifElse _ condition body _ alternative, h => by
      obtain ⟨hcondition, hbody, halternative⟩ := by
        simpa only [Stmt.trace, Trace.andThen_eq_clear] using h
      rw [Stmt.labels, PlacedLabel.duplicates_append]
      exact (says_condition hcondition .ifElse).behind fun _ =>
        (says_stmt context body hbody).inScope.bind fun _ =>
          (says_stmt context alternative halternative).inScope
  | .whileLoop _ condition body, h => by
      obtain ⟨hcondition, hbody⟩ := Trace.andThen_eq_clear.1 h
      exact (says_condition hcondition .whileLoop).behind fun _ =>
        (says_stmt context.loop body hbody).inScope
  | .doWhile _ body whileWord condition semicolon, h => by
      obtain ⟨hbody, hword, hcondition, hsemicolon⟩ := by
        simpa only [Stmt.trace, Trace.andThen_eq_clear] using h
      exact (says_stmt context.loop body hbody).inScope.before fun _ =>
        (Check.Says.require hword).behind fun _ =>
          (says_condition hcondition .doWhile).behind fun _ => .require hsemicolon
  | .forLoop _ opening init test semicolon update closing body, h => by
      obtain ⟨hopening, hinit, htest, hsemicolon, hupdate, hclosing, hbody⟩ := by
        simpa only [Stmt.trace, Trace.andThen_eq_clear] using h
      have hinit : init.check.Says [] := .sober (hinit ▸ leaves_forInit init)
        (finds_forInit common_labelFree labelFree_const init)
      have htest : (checkForTest test).Says [] := .sober (htest ▸ leaves_checkForTest test)
        (finds_checkForTest common_labelFree test)
      have hupdate : (checkForUpdate update).Says [] :=
        .sober (hupdate ▸ leaves_checkForUpdate update)
          (finds_checkForUpdate common_labelFree labelFree_const update)
      have hheader := hinit.behind fun _ => htest.behind fun _ =>
        (Check.Says.require hsemicolon).behind fun _ => hupdate.behind fun _ =>
          (Check.Says.require hclosing).behind fun _ =>
            (says_stmt context.loop body hbody).inScope
      exact (Check.Says.require hopening).behind fun _ => hheader.inScope
  | .switch _ opening subject closing bodyStart clauses bodyEnd, h => by
      obtain ⟨hopening, hsubject, hclosing, hstart, hclauses, hend⟩ := by
        simpa only [Stmt.trace, Trace.andThen_eq_clear] using h
      have hsubject : (Check.reading fun σ => checkSubject σ subject).Says [] :=
        .reading (fun _ => hsubject ▸ leaves_checkSubject subject) fun _ =>
          finds_checkSubject common_labelFree subject
      have hbody := says_clauses context.switch [] clauses hclauses
      exact (Check.Says.require hopening).behind fun _ => hsubject.behind fun _ =>
        (Check.Says.require hclosing).behind fun _ => (Check.Says.require hstart).behind fun _ =>
          hbody.inScope.before fun _ => .require hend
  | .exit keyword semicolon, h =>
      .sober (leaves_stmt context (.exit keyword semicolon))
        (.lift (finds_checkExit exiting_labelFree context keyword))
  | .exitWith keyword value semicolon, h =>
      .sober (h ▸ leaves_stmt context (.exitWith keyword value semicolon))
        (finds_exitWith common_labelFree exiting_labelFree context keyword value semicolon)
  | .jump keyword semicolon, h => by
      have hjump : (Check.lift (context.checkJump keyword)).Says [] :=
        .sober (.complain _ rfl _) (.complain _ rfl rfl)
      exact hjump.behind fun _ => .require h
  | .block _ body closing, h => by
      obtain ⟨hbody, hclosing⟩ := Trace.andThen_eq_clear.1 h
      exact (says_stmts context body hbody).inScope.before fun _ => .require hclosing
  | .call _ _, h => says_exitless context trivial h
  | .printf _ _ _ _ _ _, h => says_exitless context trivial h
  | .scanf _ _ _ _ _ _, h => says_exitless context trivial h
  | .assignment _ _, h => says_exitless context trivial h
  | .missing _, h => nomatch congrArg Trace.stop h

theorem says_stmts (context : Context) :
    ∀ ss : Stmts, ss.trace = .clear → (ss.check context).Says (PlacedLabel.duplicates ss.labels)
  | .nil, _ => .pure ()
  | .cons first rest, h => by
      obtain ⟨hfirst, hrest⟩ := Trace.andThen_eq_clear.1 h
      rw [Stmts.labels, PlacedLabel.duplicates_append]
      exact (says_stmt context first (Trace.settled_eq_clear.1 hfirst)).settled.bind fun _ =>
        says_stmts context rest hrest

/-- The body of a switch is checked with what its labels so far leave to be carried along. -/
theorem says_clauses (context : Context) (earlier : List Label) :
    ∀ cs : Clauses, cs.trace = .clear →
      (cs.check context (earlier.filterMap Label.spelling?) (earlier.any Label.isDefault)).Says
        (PlacedLabel.duplicates (cs.labels earlier))
  | .nil, _ => .pure ()
  | .case _ value colon rest, h => by
      obtain ⟨hlabel, hrest⟩ := Trace.andThen_eq_clear.1 h
      obtain ⟨hvalue, hcolon⟩ := Trace.andThen_eq_clear.1 (Trace.settled_eq_clear.1 hlabel)
      obtain ⟨value, rfl⟩ := Slot.exists_of_clear hvalue
      have hissues : (if (⟨.case value, earlier⟩ : PlacedLabel).repeats then
            [(Label.case value).issue] else []) =
          if decide (value.lexeme ∉ earlier.filterMap Label.spelling?) then []
          else [.fault (.duplicateCase value.lexeme) value] := by
        rw [PlacedLabel.repeats_case]
        by_cases hseen : value.lexeme ∈ earlier.filterMap Label.spelling?
        · simp [hseen, Label.issue]
        · simp [hseen]
      rw [Clauses.labels, PlacedLabel.duplicates_cons, hissues]
      exact .label rfl hcolon (says_clauses context (.case value :: earlier) rest hrest)
  | .default keyword colon rest, h => by
      obtain ⟨hcolon, hrest⟩ := Trace.andThen_eq_clear.1 h
      have hissues : (if (⟨.default keyword, earlier⟩ : PlacedLabel).repeats then
            [(Label.default keyword).issue] else []) =
          if !earlier.any Label.isDefault then [] else [.fault .duplicateDefault keyword] := by
        rw [PlacedLabel.repeats_default]
        cases earlier.any Label.isDefault <;> rfl
      rw [Clauses.labels, PlacedLabel.duplicates_cons, hissues]
      exact .label rfl (Trace.settled_eq_clear.1 hcolon)
        (says_clauses context (.default keyword :: earlier) rest hrest)
  | .stmt first rest, h => by
      obtain ⟨hfirst, hrest⟩ := Trace.andThen_eq_clear.1 h
      rw [Clauses.labels, PlacedLabel.duplicates_append]
      exact (says_stmt context first (Trace.settled_eq_clear.1 hfirst)).settled.bind fun _ =>
        says_clauses context earlier rest hrest

end

/-! ## Spellings and numbers -/

/-- The digits of a number literal, the last one first. -/
def Token.digits (t : Token) : List Nat := t.lexeme.toList.reverse.map fun c => c.toNat - '0'.toNat

/-- The number that a literal stands for. -/
def Token.number (t : Token) : Nat := Nat.ofDigits 10 t.digits

/-- A token is written as those of its kind are in a source text. -/
def Token.Written (t : Token) : Prop := t.kind.Written t.lexeme.toList

/-- A number literal has no zero in front that could be left out. -/
def Token.Shortest (t : Token) : Prop := t.lexeme.toList.head? = some '0' → t.lexeme.toList = ['0']

section Numbers

variable {t u : Token}

theorem Token.Written.isDigit (h : t.Written) (hkind : t.kind = .literal .int) :
    t.lexeme.toList ≠ [] ∧ ∀ c ∈ t.lexeme.toList, c.isDigit = true := by
  unfold Token.Written at h
  rw [hkind] at h
  generalize t.lexeme.toList = chars at h
  cases h with
  | int hne hdigits => exact ⟨hne, hdigits⟩

/-- Digits are written as a number is. -/
theorem Token.Written.of_digits {digits : List Char} (hkind : t.kind = .literal .int)
    (hchars : t.lexeme.toList = digits) (hne : digits ≠ [])
    (hdigits : ∀ c ∈ digits, c.isDigit = true) : t.Written := by
  rw [Token.Written, hkind, hchars]
  exact .int hne hdigits

theorem digit_lt {c : Char} (h : c.isDigit = true) : c.toNat - '0'.toNat < 10 := by
  obtain ⟨-, hhigh⟩ := Char.isDigit_iff_toNat.1 h
  change c.toNat ≤ 57 at hhigh
  show c.toNat - 48 < 10
  omega

/-- A digit is told by its value. -/
theorem digit_injective {c d : Char} (hc : c.isDigit = true) (hd : d.isDigit = true)
    (h : c.toNat - '0'.toNat = d.toNat - '0'.toNat) : c = d := by
  obtain ⟨hclow, -⟩ := Char.isDigit_iff_toNat.1 hc
  obtain ⟨hdlow, -⟩ := Char.isDigit_iff_toNat.1 hd
  have hnat : c.toNat = d.toNat := by omega
  rw [← Char.ofNat_toNat c, hnat, Char.ofNat_toNat]

theorem Token.digits_lt (h : ∀ c ∈ t.lexeme.toList, c.isDigit = true) : ∀ n ∈ t.digits, n < 10 := by
  intro n hn
  obtain ⟨c, hc, rfl⟩ := List.mem_map.1 hn
  exact digit_lt (h c (List.mem_reverse.1 hc))

/-- A text of digits is told by their values. -/
theorem digits_injective {cs ds : List Char} (hcs : ∀ c ∈ cs, c.isDigit = true)
    (hds : ∀ d ∈ ds, d.isDigit = true)
    (h : cs.map (fun c => c.toNat - '0'.toNat) = ds.map fun c => c.toNat - '0'.toNat) :
    cs = ds := by
  induction cs generalizing ds with
  | nil => exact (List.map_eq_nil_iff.1 h.symm).symm
  | cons c cs ih =>
      cases ds with
      | nil => cases h
      | cons d ds =>
          obtain ⟨hc, hcs⟩ := List.forall_mem_cons.1 hcs
          obtain ⟨hd, hds⟩ := List.forall_mem_cons.1 hds
          obtain ⟨hfirst, hrest⟩ := List.cons.inj h
          rw [digit_injective hc hd hfirst, ih hcs hds hrest]

theorem lexeme_of_digits (ht : ∀ c ∈ t.lexeme.toList, c.isDigit = true)
    (hu : ∀ c ∈ u.lexeme.toList, c.isDigit = true) (h : t.digits = u.digits) :
    t.lexeme = u.lexeme := by
  have hreverse : t.lexeme.toList.reverse = u.lexeme.toList.reverse :=
    digits_injective (fun c hc => ht c (List.mem_reverse.1 hc))
      (fun c hc => hu c (List.mem_reverse.1 hc)) h
  exact String.toList_inj.1 (List.reverse_inj.1 hreverse)

/-- **Two number literals are spelled alike if and only if they are the same number with as many
digits.** -/
theorem lexeme_eq_iff (ht : t.Written) (htkind : t.kind = .literal .int) (hu : u.Written)
    (hukind : u.kind = .literal .int) :
    t.lexeme = u.lexeme ↔ t.number = u.number ∧ t.lexeme.length = u.lexeme.length := by
  constructor
  · intro h
    rw [Token.number, Token.number, Token.digits, Token.digits, h]
    exact ⟨rfl, rfl⟩
  · rintro ⟨hnumber, hlength⟩
    have htdigits := (ht.isDigit htkind).2
    have hudigits := (hu.isDigit hukind).2
    have hcount : t.digits.length = u.digits.length := by
      rw [Token.digits, Token.digits, List.length_map, List.length_map, List.length_reverse,
        List.length_reverse, String.length_toList, String.length_toList, hlength]
    exact lexeme_of_digits htdigits hudigits
      (Nat.ofDigits_inj_of_len_eq (by decide) hcount (Token.digits_lt htdigits)
        (Token.digits_lt hudigits) hnumber)

/-- Without zeros in front, the number tells the digits. -/
theorem Token.Shortest.digits (h : t.Shortest) (hwritten : t.Written)
    (hkind : t.kind = .literal .int) :
    t.digits = if t.number = 0 then [0] else Nat.digits 10 t.number := by
  obtain ⟨hne, hdigits⟩ := hwritten.isDigit hkind
  obtain ⟨c, cs, hchars⟩ := List.exists_cons_of_ne_nil hne
  have hlist : t.digits =
      cs.reverse.map (fun c => c.toNat - '0'.toNat) ++ [c.toNat - '0'.toNat] := by
    rw [Token.digits, hchars]
    simp
  by_cases hzero : c = '0'
  · subst hzero
    have hcs : cs = [] := (List.cons.inj (hchars.symm.trans (h (by rw [hchars]; rfl)))).2
    subst hcs
    have hnumber : t.number = 0 := by
      rw [Token.number, hlist]
      rfl
    rw [hnumber, hlist]
    rfl
  · have hlead : c.toNat - '0'.toNat ≠ 0 := by
      intro hvalue
      have hc := hdigits c (by rw [hchars]; exact List.mem_cons_self)
      exact hzero (digit_injective hc (by decide) hvalue)
    have hcanonical : Nat.digits 10 t.number = t.digits := by
      refine Nat.digits_ofDigits 10 (by decide) _ (Token.digits_lt hdigits) fun _ => ?_
      simpa [hlist] using hlead
    have hnumber : t.number ≠ 0 := by
      intro hnone
      rw [hnone, hlist] at hcanonical
      simp at hcanonical
    rw [if_neg hnumber, hcanonical]

/-- **Without zeros in front, two number literals are spelled alike if and only if they are the
same number.** -/
theorem lexeme_eq_iff_of_shortest (ht : t.Written) (htkind : t.kind = .literal .int)
    (htshort : t.Shortest) (hu : u.Written) (hukind : u.kind = .literal .int)
    (hushort : u.Shortest) : t.lexeme = u.lexeme ↔ t.number = u.number := by
  constructor
  · intro h
    exact ((lexeme_eq_iff ht htkind hu hukind).1 h).1
  · intro h
    refine lexeme_of_digits (ht.isDigit htkind).2 (hu.isDigit hukind).2 ?_
    rw [htshort.digits ht htkind, hushort.digits hu hukind, h]

end Numbers

/-! ## Labels that repeat another -/

section Repeats

variable {earlier : List Label} {value : Token}

theorem repeats_case_iff : PlacedLabel.repeats ⟨.case value, earlier⟩ = true ↔
    ∃ other, .case other ∈ earlier ∧ value.lexeme = other.lexeme := by
  rw [PlacedLabel.repeats, List.any_eq_true]
  constructor
  · rintro ⟨first, hfirst, hsame⟩
    cases first with
    | case other => exact ⟨other, hfirst, of_decide_eq_true hsame⟩
    | default keyword => cases hsame
  · rintro ⟨other, hother, hsame⟩
    exact ⟨.case other, hother, decide_eq_true hsame⟩

theorem repeats_default_iff (keyword : Token) :
    PlacedLabel.repeats ⟨.default keyword, earlier⟩ = true ↔
      ∃ other, .default other ∈ earlier := by
  rw [PlacedLabel.repeats, List.any_eq_true]
  constructor
  · rintro ⟨first, hfirst, hsame⟩
    cases first with
    | case other => cases hsame
    | default other => exact ⟨other, hfirst⟩
  · rintro ⟨other, hother⟩
    exact ⟨.default other, hother, rfl⟩

/-- A number repeats an earlier label only if that is a number, too. -/
theorem repeats_int_iff (hwritten : value.Written) (hkind : value.kind = .literal .int)
    (hearlier : ∀ other, .case other ∈ earlier → other.Written) :
    PlacedLabel.repeats ⟨.case value, earlier⟩ = true ↔
      ∃ other, .case other ∈ earlier ∧ other.kind = .literal .int ∧
        value.lexeme = other.lexeme := by
  rw [repeats_case_iff]
  refine exists_congr fun other => and_congr_right fun hother => ?_
  constructor
  · intro hsame
    have hother := hearlier other hother
    rw [Token.Written, ← hsame] at hother
    exact ⟨(hother.unique hwritten).trans hkind, hsame⟩
  · rintro ⟨-, hsame⟩
    exact hsame

end Repeats

/-! ## Programs -/

/-- **Labels are reported if they were there before.**  If there are no syntax errors, then the
diagnostics about labels are those of the labels of the program that repeat one in front of them in
the same body, in order, one for each of them.  A default repeats another if and only if there is
one.  A number repeats another if and only if there is one that is the same number, with as many
digits; how many digits there are makes no difference among numbers without zeros in front. -/
theorem labels_reported (tokens : List Token)
    (h : ∀ d ∈ (TokenStream.ofTokens tokens).analyze.diagnostics, d.severity ≠ .syntactic) :
    let stream := TokenStream.ofTokens tokens
    stream.analyze.diagnostics = stream.issues.map (·.diagnostic stream.stop.location) ∧
      stream.issues.filter Issue.isLabel =
        (stream.program.labels.filter PlacedLabel.repeats).map (·.label.issue) ∧
      ∀ p ∈ stream.program.labels,
        (∀ keyword, p.label = .default keyword →
          (p.repeats = true ↔ ∃ other, .default other ∈ p.earlier)) ∧
        ∀ value, p.label = .case value → value.kind = .literal .int → value.Written →
          (∀ other, .case other ∈ p.earlier → other.Written) →
          (p.repeats = true ↔ ∃ other, .case other ∈ p.earlier ∧ other.kind = .literal .int ∧
            value.number = other.number ∧ value.lexeme.length = other.lexeme.length) ∧
          (value.Shortest → (∀ other, .case other ∈ p.earlier → other.Shortest) →
            (p.repeats = true ↔ ∃ other, .case other ∈ p.earlier ∧ other.kind = .literal .int ∧
              value.number = other.number)) := by
  intro stream
  have hclear : stream.program.trace = .clear :=
    TokenStream.trace_program (TokenStream.holes_eq_nil h)
  refine ⟨TokenStream.diagnostics_analyze stream,
    (says_stmts .global stream.program hclear).inScope.issues .empty, ?_⟩
  rintro ⟨label, earlier⟩ -
  constructor
  · rintro keyword rfl
    exact repeats_default_iff keyword
  · rintro value rfl hkind hwritten hearlier
    constructor
    · rw [repeats_int_iff hwritten hkind hearlier]
      refine exists_congr fun other => and_congr_right fun hother => and_congr_right fun hint => ?_
      exact lexeme_eq_iff hwritten hkind (hearlier other hother) hint
    · intro hshort hothers
      rw [repeats_int_iff hwritten hkind hearlier]
      refine exists_congr fun other => and_congr_right fun hother => and_congr_right fun hint => ?_
      exact lexeme_eq_iff_of_shortest hwritten hkind hshort (hearlier other hother) hint
        (hothers other hother)

/-- A switch in another one:

```text
int main() {
  switch (1) {
    case 1:
      switch (2) { case 1: default: }
    case 1: default: default:
  }
}
```
-/
def nestedLabels : List Token :=
  [⟨.keyword (.type .int), "int", ⟨1, 1⟩⟩, ⟨.keyword .kwMain, "main", ⟨1, 5⟩⟩,
    ⟨.punct .lparen, "(", ⟨1, 9⟩⟩, ⟨.punct .rparen, ")", ⟨1, 10⟩⟩,
    ⟨.punct .lbrace, "\x7b", ⟨1, 12⟩⟩,
    ⟨.keyword .kwSwitch, "switch", ⟨2, 3⟩⟩, ⟨.punct .lparen, "(", ⟨2, 10⟩⟩,
    ⟨.literal .int, "1", ⟨2, 11⟩⟩, ⟨.punct .rparen, ")", ⟨2, 12⟩⟩,
    ⟨.punct .lbrace, "\x7b", ⟨2, 14⟩⟩,
    ⟨.keyword .kwCase, "case", ⟨3, 5⟩⟩, ⟨.literal .int, "1", ⟨3, 10⟩⟩,
    ⟨.punct .colon, ":", ⟨3, 11⟩⟩,
    ⟨.keyword .kwSwitch, "switch", ⟨4, 7⟩⟩, ⟨.punct .lparen, "(", ⟨4, 14⟩⟩,
    ⟨.literal .int, "2", ⟨4, 15⟩⟩, ⟨.punct .rparen, ")", ⟨4, 16⟩⟩,
    ⟨.punct .lbrace, "\x7b", ⟨4, 18⟩⟩, ⟨.keyword .kwCase, "case", ⟨4, 20⟩⟩,
    ⟨.literal .int, "1", ⟨4, 25⟩⟩, ⟨.punct .colon, ":", ⟨4, 26⟩⟩,
    ⟨.keyword .kwDefault, "default", ⟨4, 28⟩⟩, ⟨.punct .colon, ":", ⟨4, 35⟩⟩,
    ⟨.punct .rbrace, "\x7d", ⟨4, 37⟩⟩,
    ⟨.keyword .kwCase, "case", ⟨5, 5⟩⟩, ⟨.literal .int, "1", ⟨5, 10⟩⟩,
    ⟨.punct .colon, ":", ⟨5, 11⟩⟩, ⟨.keyword .kwDefault, "default", ⟨5, 13⟩⟩,
    ⟨.punct .colon, ":", ⟨5, 20⟩⟩, ⟨.keyword .kwDefault, "default", ⟨5, 22⟩⟩,
    ⟨.punct .colon, ":", ⟨5, 29⟩⟩, ⟨.punct .rbrace, "\x7d", ⟨6, 3⟩⟩,
    ⟨.punct .rbrace, "\x7d", ⟨7, 1⟩⟩]

/-- The labels of the inner switch repeat none of the outer one, but two of the outer one are there
twice in it; one of them is the number of an earlier label. -/
theorem nestedLabels_reported :
    let earlier : Token := ⟨.literal .int, "1", ⟨3, 10⟩⟩
    let later : Token := ⟨.literal .int, "1", ⟨5, 10⟩⟩
    let stream := TokenStream.ofTokens nestedLabels
    stream.analyze.diagnostics.map (·.location) = [⟨5, 10⟩, ⟨5, 22⟩] ∧
      stream.program.labels.length = 6 ∧
      stream.issues.filter Issue.isLabel =
        (stream.program.labels.filter PlacedLabel.repeats).map (·.label.issue) ∧
      ⟨.case later, [.case earlier]⟩ ∈ stream.program.labels ∧
      PlacedLabel.repeats ⟨.case later, [.case earlier]⟩ = true := by
  intro earlier later stream
  obtain ⟨-, hissues, hlabels⟩ := labels_reported nestedLabels (by decide +kernel)
  have hmem : ⟨.case later, [.case earlier]⟩ ∈ stream.program.labels := by decide +kernel
  have hchars : "1".toList = ['1'] := by decide
  have hwritten (place : Location) : Token.Written ⟨.literal .int, "1", place⟩ :=
    .of_digits rfl hchars (by decide) (by simp)
  have hshort (place : Location) : Token.Shortest ⟨.literal .int, "1", place⟩ := by
    intro hzero
    rw [hchars] at hzero
    cases hzero
  have honly : ∀ other, .case other ∈ [Label.case earlier] → other = earlier := by
    intro other hother
    exact Label.case.inj (List.mem_singleton.1 hother)
  have hnumbers := (hlabels _ hmem).2 later rfl rfl (hwritten _) fun other hother =>
    honly other hother ▸ hwritten _
  have hrepeats := (hnumbers.2 (hshort _) fun other hother => honly other hother ▸ hshort _).2
    ⟨earlier, List.mem_singleton_self _, rfl, rfl⟩
  exact ⟨by decide +kernel, by decide +kernel, hissues, hmem, hrepeats⟩

/-- A number that is there twice, once with a zero in front:

```text
int main() {
  switch (1) { case 1: case 01: ; }
}
```
-/
def zeroLabel : List Token :=
  [⟨.keyword (.type .int), "int", ⟨1, 1⟩⟩, ⟨.keyword .kwMain, "main", ⟨1, 5⟩⟩,
    ⟨.punct .lparen, "(", ⟨1, 9⟩⟩, ⟨.punct .rparen, ")", ⟨1, 10⟩⟩,
    ⟨.punct .lbrace, "\x7b", ⟨1, 12⟩⟩,
    ⟨.keyword .kwSwitch, "switch", ⟨2, 3⟩⟩, ⟨.punct .lparen, "(", ⟨2, 10⟩⟩,
    ⟨.literal .int, "1", ⟨2, 11⟩⟩, ⟨.punct .rparen, ")", ⟨2, 12⟩⟩,
    ⟨.punct .lbrace, "\x7b", ⟨2, 14⟩⟩,
    ⟨.keyword .kwCase, "case", ⟨2, 16⟩⟩, ⟨.literal .int, "1", ⟨2, 21⟩⟩,
    ⟨.punct .colon, ":", ⟨2, 22⟩⟩,
    ⟨.keyword .kwCase, "case", ⟨2, 24⟩⟩, ⟨.literal .int, "01", ⟨2, 29⟩⟩,
    ⟨.punct .colon, ":", ⟨2, 31⟩⟩, ⟨.punct .semicolon, ";", ⟨2, 33⟩⟩,
    ⟨.punct .rbrace, "\x7d", ⟨2, 35⟩⟩, ⟨.punct .rbrace, "\x7d", ⟨3, 1⟩⟩]

/-- Nothing is reported, although an earlier label of the same body is the same number. -/
theorem zeroLabel_unreported :
    let earlier : Token := ⟨.literal .int, "1", ⟨2, 21⟩⟩
    let later : Token := ⟨.literal .int, "01", ⟨2, 29⟩⟩
    (TokenStream.ofTokens zeroLabel).analyze.diagnostics = [] ∧
      ⟨.case later, [.case earlier]⟩ ∈ (TokenStream.ofTokens zeroLabel).program.labels ∧
      earlier.Written ∧ later.Written ∧ earlier.number = later.number := by
  intro earlier later
  have hearlier : earlier.Written :=
    .of_digits rfl (by decide : "1".toList = ['1']) (by decide) (by simp)
  have hlater : later.Written :=
    .of_digits rfl (by decide : "01".toList = ['0', '1']) (by decide) (by simp)
  exact ⟨by decide +kernel, by decide +kernel, hearlier, hlater, by decide⟩

end MiniC
