import Mathlib.Data.Finset.Basic
import Mathlib.Data.Fintype.EquivFin
import MiniC.Proofs.Checking.Faults
import MiniC.Proofs.Editing.Renaming
import MiniC.Proofs.Lexing.Decomposition
import MiniC.Proofs.Types.Compatibility

/-!
# `MiniC.Proofs.Types.Printing` — types in messages are told apart

The text of a type is its base, then a star for each pointer level, then `[]`.  No star and no
bracket stands in a base whose struct has a word for its name, so the text tells where the base
ends, and each of the three parts can be read off it.

The names of structs in a message are words because they stand in the source text.  An analysis
does not look into names: if a name that no token has could be met in a fault, one could rename it
without a change to the tokens, and the fault would have to stay as it is.  So a renaming that
keeps the tokens tells where the names in faults come from, and no check has to be followed.

A type is held against another only if it does not accept it, and every type accepts itself.  So a
message that shows two types shows two texts.

## Contents
- `IsWord`, `CType.Worded`: names that are words, and types whose struct has such a name.
- `describe_injective`: **the text of a type tells the type**.
- `Spelled`, `struct_spelled`: the structs in a fault have names that stand among the tokens.
- `types_told_apart`: **no message shows the same text for two types that do not fit**.
-/

namespace MiniC

/-! ## Words -/

/-- A name that is a word, as identifiers are. -/
def IsWord (name : String) : Prop :=
  ∃ c cs, name.toList = c :: cs ∧ Text.startsWord c = true ∧ Wholly Text.inWord cs

/-- The struct in the type, if it has one, has a word for its name. -/
def CType.Worded (t : CType) : Prop := ∀ name, t.base = .struct name → IsWord name

theorem IsWord.notMem {name : String} (h : IsWord name) {c : Char} (hc : Text.inWord c = false) :
    c ∉ name.toList := by
  obtain ⟨first, rest, hname, hfirst, hrest⟩ := h
  have hall : Wholly Text.inWord name.toList := by
    rw [hname]
    exact wholly_cons (Text.inWord_of_startsWord hfirst) hrest
  exact hall.notMem hc

/-! ## The text of a base -/

namespace BaseType

variable {base other : BaseType} {c : Char}

/-- A blank stands in the text of a struct only. -/
theorem blank_mem_describe : ' ' ∈ base.describe.toList ↔ ∃ name, base = struct name := by
  cases base with
  | struct name =>
      refine iff_of_true ?_ ⟨name, rfl⟩
      show ' ' ∈ ("struct " ++ name).toList
      rw [String.toList_append, List.mem_append]
      exact .inl (by decide +kernel)
  | _ => exact iff_of_false (by decide +kernel) (by simp)

/-- The text of a base tells the base. -/
theorem describe_injective (h : base.describe = other.describe) : base = other := by
  have hstruct : (∃ name, base = struct name) ↔ ∃ name, other = struct name := by
    rw [← blank_mem_describe, ← blank_mem_describe, h]
  have hplain : ∀ b ∈ [void, char, short, int, long, float, double, unknown],
      ∀ b' ∈ [void, char, short, int, long, float, double, unknown],
        b.describe = b'.describe → b = b' := by
    decide +kernel
  cases base with
  | struct name =>
      obtain ⟨name', rfl⟩ := hstruct.1 ⟨name, rfl⟩
      exact congrArg struct ((String.append_right_inj "struct ").1 h)
  | _ =>
      cases other with
      | struct name' => exact absurd (hstruct.2 ⟨name', rfl⟩) (by simp)
      | _ => exact hplain _ (by simp) _ (by simp) h

/-- Neither a star nor a bracket stands in the text of a base, unless in the name of a struct. -/
theorem notMem_describe (h : ∀ name, base = struct name → IsWord name) (hc : c = '*' ∨ c = '[') :
    c ∉ base.describe.toList := by
  cases base with
  | struct name =>
      show c ∉ ("struct " ++ name).toList
      rw [String.toList_append, List.mem_append]
      rintro (hmem | hmem)
      · rcases hc with rfl | rfl <;> exact absurd hmem (by decide +kernel)
      · refine (h name rfl).notMem ?_ hmem
        rcases hc with rfl | rfl <;> decide
  | _ => rcases hc with rfl | rfl <;> decide +kernel

end BaseType

/-! ## The text of a type -/

namespace CType

variable {s t : CType}

/-- The brackets of an array. -/
def brackets (t : CType) : List Char := if t.isArray then ['[', ']'] else []

theorem toList_describe (t : CType) :
    t.describe.toList =
      t.base.describe.toList ++ (List.replicate t.pointers '*' ++ t.brackets) := by
  unfold describe brackets
  rw [String.toList_append, String.toList_append, String.toList_ofList, List.append_assoc]
  split <;> rfl

/-- The base ends at the first star or bracket. -/
theorem takeWhile_describe (h : t.Worded) :
    t.describe.toList.takeWhile (fun c => c != '*' && c != '[') = t.base.describe.toList := by
  have hbase : ∀ c ∈ t.base.describe.toList, (c != '*' && c != '[') = true := by
    intro c hc
    rw [Bool.and_eq_true, bne_iff_ne, bne_iff_ne]
    constructor
    · rintro rfl
      exact BaseType.notMem_describe h (.inl rfl) hc
    · rintro rfl
      exact BaseType.notMem_describe h (.inr rfl) hc
  have hnone : (List.replicate t.pointers '*' ++ t.brackets).takeWhile
      (fun c => c != '*' && c != '[') = [] := by
    unfold brackets
    cases t.pointers <;> cases t.isArray <;> simp [List.replicate_succ]
  rw [toList_describe, List.takeWhile_append_of_pos hbase, hnone, List.append_nil]

/-- The stars are the pointer levels. -/
theorem count_describe (h : t.Worded) : t.describe.toList.count '*' = t.pointers := by
  have hbase := List.count_eq_zero.2 (BaseType.notMem_describe h (.inl rfl))
  have hbrackets : t.brackets.count '*' = 0 := by
    unfold brackets
    split <;> decide
  rw [toList_describe, List.count_append, List.count_append, hbase, hbrackets,
    List.count_replicate_self]
  omega

/-- A bracket is that of an array. -/
theorem bracket_mem_describe (h : t.Worded) : '[' ∈ t.describe.toList ↔ t.isArray = true := by
  have hbase := BaseType.notMem_describe h (.inr rfl)
  have hbrackets : '[' ∈ t.brackets ↔ t.isArray = true := by
    unfold brackets
    split <;> simp [*]
  rw [toList_describe, List.mem_append, List.mem_append, or_iff_right hbase,
    or_iff_right (by simp [List.mem_replicate]), hbrackets]

/-- **The text of a type tells the type,** if the names of structs are words. -/
theorem describe_injective (hs : s.Worded) (ht : t.Worded) (h : s.describe = t.describe) :
    s = t := by
  have hbase : s.base = t.base := by
    apply BaseType.describe_injective
    rw [← String.toList_inj, ← takeWhile_describe hs, ← takeWhile_describe ht, h]
  have hpointers : s.pointers = t.pointers := by
    rw [← count_describe hs, ← count_describe ht, h]
  have harray : s.isArray = t.isArray := by
    rw [Bool.eq_iff_iff, ← bracket_mem_describe hs, ← bracket_mem_describe ht, h]
  cases s
  cases t
  rw [mk.injEq]
  exact ⟨hbase, hpointers, harray⟩

/-- A name that is no word can look like a pointer level. -/
example : (plain (.struct "s*")).describe = (plain (.struct "s")).withPointer.describe := by
  decide +kernel

end CType

/-! ## The names of structs in faults -/

/-- A name stands among the tokens, or it is one that an analysis knows by itself. -/
def Spelled (tokens : List Token) (name : String) : Prop :=
  name ∈ builtins ∨ ∃ t ∈ tokens, t.kind.namesFunction = true ∧ t.lexeme = name

theorem Edition.mismatch?_fault (E : Edition) (cause : Fault) :
    (E.fault cause).mismatch? = cause.mismatch?.map (Prod.map E.type E.type) := by
  cases cause <;> rfl

/-- A renaming that changes none of the tokens changes no issue. -/
theorem Edition.issue_eq_self {E : Edition} (hplace : E.place = id)
    (hname : ∀ t ∈ E.text, t.kind = .ident → E.name t.lexeme = t.lexeme) :
    ∀ issue ∈ (TokenStream.ofTokens E.text).issues, E.issue issue = issue := by
  have htoken : ∀ t ∈ E.text, E.token t = id t := by
    intro t ht
    unfold Edition.token
    by_cases hident : t.kind = .ident
    · rw [if_pos hident, hname t ht hident, hplace]
      rfl
    · rw [if_neg hident, hplace]
      rfl
  have htokens : E.tokens = E.text := by
    unfold Edition.tokens
    rw [List.map_inj_left.2 htoken, List.map_id]
  have hissues := E.checked.2
  rw [htokens] at hissues
  intro issue hissue
  have hmap : (TokenStream.ofTokens E.text).issues.map E.issue =
      (TokenStream.ofTokens E.text).issues.map id := by rw [← hissues, List.map_id]
  exact List.map_inj_left.1 hmap issue hissue

section

variable {tokens : List Token} {cause : Fault} {site : Option Token} {expected found t : CType}
  {name : String}

/-- A name that is not spelled can be changed in an edition of the same tokens. -/
theorem exists_edition (h : ¬Spelled tokens name) :
    ∃ E : Edition, E.text = tokens ∧ E.place = id ∧
      (∀ t ∈ E.text, t.kind = .ident → E.name t.lexeme = t.lexeme) ∧ E.name name ≠ name := by
  obtain ⟨fresh, hfresh⟩ :=
    Infinite.exists_notMem_finset (name :: (builtins ++ tokens.map (·.lexeme))).toFinset
  rw [List.mem_toFinset, List.mem_cons, List.mem_append, List.mem_map, not_or, not_or] at hfresh
  obtain ⟨hne, hbuiltin, hlexeme⟩ := hfresh
  have hkept : ∀ t ∈ tokens, t.kind.namesFunction = true →
      Equiv.swap name fresh t.lexeme = t.lexeme := by
    intro t ht hkind
    apply Equiv.swap_apply_of_ne_of_ne
    · intro heq
      exact h (.inr ⟨t, ht, hkind, heq⟩)
    · intro heq
      exact hlexeme ⟨t, ht, heq⟩
  have hknown : ∀ b ∈ builtins, Equiv.swap name fresh b = b := by
    intro b hb
    apply Equiv.swap_apply_of_ne_of_ne
    · rintro rfl
      exact h (.inl hb)
    · rintro rfl
      exact hbuiltin hb
  let E : Edition :=
    { text := tokens
      name := Equiv.swap name fresh
      place := id
      injective := Equiv.injective _
      printf := hknown _ (by decide)
      scanf := hknown _ (by decide)
      main := fun t ht hkind => hkept t ht (by rw [hkind]; decide) }
  refine ⟨E, rfl, rfl, fun t ht hkind => hkept t ht (by rw [hkind]; decide), ?_⟩
  show Equiv.swap name fresh name ≠ name
  rw [Equiv.swap_apply_left]
  exact hne

/-- **The structs in a mismatch have names that stand among the tokens.**  Another name could be
changed without a change to the tokens, and would change the fault. -/
theorem struct_spelled (hissue : .fault cause site ∈ (TokenStream.ofTokens tokens).issues)
    (hcause : cause.mismatch? = some (expected, found)) (ht : t = expected ∨ t = found)
    (hbase : t.base = .struct name) : Spelled tokens name := by
  by_contra hnot
  obtain ⟨E, rfl, hplace, hkept, hchanged⟩ := exists_edition hnot
  have hfault := E.issue_eq_self hplace hkept _ hissue
  have htypes := E.mismatch?_fault cause
  rw [(Issue.fault.inj hfault).1, hcause, Option.map_some, Option.some.injEq, Prod.map_apply,
    Prod.mk.injEq] at htypes
  have htype : E.type t = t := by
    rcases ht with rfl | rfl
    · exact htypes.1.symm
    · exact htypes.2.symm
  have hstruct := congrArg CType.base htype
  rw [Edition.base_type, hbase] at hstruct
  exact hchanged (BaseType.struct.inj hstruct)

end

/-! ## The words of a source text -/

section

variable {source : String} {t : Token} {name : String}

theorem isWord_of_keyword {word : Keyword} (h : word.spelling.toList ≠ []) :
    IsWord word.spelling := by
  obtain ⟨c, cs, hname⟩ := List.exists_cons_of_ne_nil h
  obtain ⟨hfirst, hrest⟩ := keyword_isWord hname
  exact ⟨c, cs, hname, hfirst, hrest⟩

/-- What is written as a name is a word. -/
theorem Kind.Written.isWord {kind : Kind} {text : List Char} (h : kind.Written text)
    (hkind : kind.namesFunction = true) : IsWord (.ofList text) := by
  cases h with
  | @ident c cs hfirst hrest _ => exact ⟨c, cs, String.toList_ofList, hfirst, hrest⟩
  | keyword word =>
      obtain rfl : word = .kwMain := by simpa [namesFunction] using hkind
      rw [String.ofList_toList]
      exact isWord_of_keyword (by decide +kernel)
  | int | float | string | char | operator | punct => simp [namesFunction] at hkind

/-- What stands for a name in a source text is a word. -/
theorem isWord_of_mem_tokens (ht : t ∈ (tokenize source).tokens)
    (hkind : t.kind.namesFunction = true) : IsWord t.lexeme := by
  have hdirective : t.kind ≠ .directive := by
    intro heq
    simp [heq, Kind.namesFunction] at hkind
  have heof : t.kind ≠ .eof := by
    intro heq
    simp [heq, Kind.namesFunction] at hkind
  obtain ⟨-, text, rest, -, -, hfits⟩ := fits_of_mem_tokens ht hdirective heof
  generalize t.kind = kind at hfits hkind hdirective
  generalize t.lexeme = lexeme at hfits
  cases hfits with
  | token hwritten _ => exact hwritten.isWord hkind
  | closedDirective | lineDirective => exact absurd rfl hdirective

theorem isWord_of_mem_builtins (h : name ∈ builtins) : IsWord name := by
  have hwords : ∀ name ∈ builtins, ∃ c cs, name.toList = c :: cs ∧
      Text.startsWord c = true ∧ cs.all Text.inWord = true := by
    simp only [builtins, List.mem_cons, List.not_mem_nil, or_false, forall_eq_or_imp, forall_eq]
    exact ⟨⟨'p', ['r', 'i', 'n', 't', 'f'], by decide +kernel⟩,
      ⟨'s', ['c', 'a', 'n', 'f'], by decide +kernel⟩⟩
  obtain ⟨c, cs, hname, hfirst, hrest⟩ := hwords name h
  exact ⟨c, cs, hname, hfirst, List.all_eq_true.1 hrest⟩

theorem Spelled.isWord (h : Spelled (tokenize source).tokens name) : IsWord name := by
  rcases h with hbuiltin | ⟨t, ht, hkind, rfl⟩
  · exact isWord_of_mem_builtins hbuiltin
  · exact isWord_of_mem_tokens ht hkind

end

/-! ## Messages about two types -/

theorem CType.accepts_self (t : CType) : t.accepts t = true := CType.accepts_iff.2 (.same rfl)

theorem append_shown (front before first between second : String) :
    front ++ (before ++ first ++ between ++ second) =
      front ++ before ++ first ++ between ++ second := by
  simp only [String.append_assoc]

/-- The message of a mismatch shows the two types. -/
theorem message_mismatch {cause : Fault} {expected found : CType}
    (h : cause.mismatch? = some (expected, found)) :
    ∃ front between,
      cause.message = front ++ expected.describe ++ between ++ found.describe := by
  cases cause with
  | branches =>
      cases h
      exact ⟨_, _, rfl⟩
  | argumentType | initialValue | assignedValue | resultType =>
      cases h
      exact ⟨_, _, append_shown _ _ _ _ _⟩
  | _ => cases h

/-- Types are told apart by their texts, and so are those that a message about a source text holds
against each other. -/
structure TellsTypesApart (source : String) : Prop where
  /-- Identifiers are words. -/
  words : ∀ t ∈ (tokenize source).tokens, t.kind = .ident → IsWord t.lexeme
  /-- Two types have the same text only if they are the same. -/
  printing : ∀ s t : CType, s.Worded → t.Worded → s.describe = t.describe → s = t
  /-- The diagnostics behind those of the scanner are those of the issues. -/
  issues : analyze source = (tokenize source).diagnostics ++
    (TokenStream.ofTokens (tokenize source).tokens).issues.map
      (·.diagnostic (TokenStream.ofTokens (tokenize source).tokens).stop.location)
  /-- An issue that holds two types against each other is about different types, whose texts are
  different, and both texts stand in its message. -/
  mismatches : ∀ cause site expected found,
    .fault cause site ∈ (TokenStream.ofTokens (tokenize source).tokens).issues →
      cause.mismatch? = some (expected, found) →
        expected.Worded ∧ found.Worded ∧ expected ≠ found ∧
          expected.describe ≠ found.describe ∧
          ∃ front between, ∀ stop, ((Issue.fault cause site).diagnostic stop).message =
            front ++ expected.describe ++ between ++ found.describe

/-- **Types are told apart.**  The text of a type tells the type, as long as structs are called by
words, and in a source text they are.  So no message about an initial value, an assignment, an
argument, a result or the branches of a conditional shows the same text twice. -/
theorem types_told_apart (source : String) : TellsTypesApart source := by
  constructor
  case words =>
    intro t ht hkind
    exact isWord_of_mem_tokens ht (by rw [hkind]; decide)
  case printing => exact fun s t => CType.describe_injective
  case issues => rfl
  case mismatches =>
    intro cause site expected found hissue hcause
    have hexpected : expected.Worded := fun name hbase =>
      (struct_spelled hissue hcause (.inl rfl) hbase).isWord
    have hfound : found.Worded := fun name hbase =>
      (struct_spelled hissue hcause (.inr rfl) hbase).isWord
    have hfounded : cause.isUnfounded = false :=
      (((finds_stmts .global _).inScope .empty).faults cause site hissue).1
    have hne : expected ≠ found := by
      rintro rfl
      unfold Fault.isUnfounded at hfounded
      rw [hcause, Option.any_some, CType.accepts_self] at hfounded
      cases hfounded
    obtain ⟨front, between, hmessage⟩ := message_mismatch hcause
    refine ⟨hexpected, hfound, hne, ?_, front, between, fun _ => hmessage⟩
    intro hsame
    exact hne (CType.describe_injective hexpected hfound hsame)

end MiniC
