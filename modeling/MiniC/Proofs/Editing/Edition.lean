import MiniC.Check.Fault
import MiniC.Decl.Read
import MiniC.Expr.Typing
import Mathlib.Logic.Function.Basic

/-!
# `MiniC.Proofs.Editing.Edition` — a text with other names in other places

An edition of a text has its tokens in the same order, but the identifiers among them may be
spelled differently, and all of them may stand elsewhere.  Different names stay different, and the
names that an analysis knows by themselves are kept.  Whatever an analysis makes of the tokens is
edited along with them: types, faults and holes.

No test of a type tells a type from the edited one, and equal edited types were equal before.

## Contents
- `Edition`, with `token`, `type`, `hole`, `fault`, `issue`, …: **what an edition changes**.
- `Edition.Names`, `Edition.Fixed`: tokens that are certainly renamed, or certainly not.
- `type_accepts`, `type_promote`, …: **the rules of types do not depend on the names of structs**.
-/

namespace MiniC

/-- Another edition of a text: other names, other places. -/
structure Edition where
  /-- The tokens of the text. -/
  text : List Token
  /-- What a name is changed to. -/
  name : String → String
  /-- Where a token is moved to. -/
  place : Location → Location
  injective : Function.Injective name
  printf : name "printf" = "printf"
  scanf : name "scanf" = "scanf"
  main : ∀ t ∈ text, t.kind = .keyword .kwMain → name t.lexeme = t.lexeme

/-- A base type with the name of its struct changed. -/
def BaseType.renamed (name : String → String) : BaseType → BaseType
  | .struct s => .struct (name s)
  | base => base

/-- A type with the name of its struct changed. -/
def CType.renamed (name : String → String) (t : CType) : CType :=
  { t with base := t.base.renamed name }

namespace Edition

variable (E : Edition)

/-! ## What is edited -/

/-- A token in the edition. -/
def token (t : Token) : Token where
  kind := t.kind
  lexeme := if t.kind = .ident then E.name t.lexeme else t.lexeme
  location := E.place t.location

/-- A base type in the edition. -/
def base (base : BaseType) : BaseType := base.renamed E.name

/-- A type in the edition. -/
def type (t : CType) : CType := t.renamed E.name

/-- What the grammar asks for, in the edition. -/
def wanted : Wanted → Wanted
  | .assignmentOperator name => .assignmentOperator (E.name name)
  | wanted => wanted

/-- A hole in the edition. -/
def hole (h : Hole) : Hole where
  wanted := E.wanted h.wanted
  ahead := h.ahead.map E.token

/-- A refusal in the edition. -/
def refusal : Refusal → Refusal
  | .variableRedeclared name => .variableRedeclared (E.name name)
  | .functionRedeclared name => .functionRedeclared (E.name name)
  | .conflictingFunction name => .conflictingFunction (E.name name)
  | .structRedeclared name => .structRedeclared (E.name name)
  | .fieldRedeclared struct field => .fieldRedeclared (E.name struct) (E.name field)
  | .noOpenScope name => .noOpenScope (E.name name)

/-- A fault in the edition. -/
def fault : Fault → Fault
  | .undeclaredVariable name => .undeclaredVariable (E.name name)
  | .undeclaredFunction name => .undeclaredFunction (E.name name)
  | .undeclaredStruct name => .undeclaredStruct (E.name name)
  | .refused refusal => .refused (E.refusal refusal)
  | .voidVariable name => .voidVariable (E.name name)
  | .operands operator need left right => .operands operator need (E.type left) (E.type right)
  | .operandNotNumeric operator found => .operandNotNumeric operator (E.type found)
  | .branches first second => .branches (E.type first) (E.type second)
  | .notDereferenceable found => .notDereferenceable (E.type found)
  | .indexNotInteger found => .indexNotInteger (E.type found)
  | .notSubscriptable found => .notSubscriptable (E.type found)
  | .arrowOnNonPointer found => .arrowOnNonPointer (E.type found)
  | .dotOnPointer found => .dotOnPointer (E.type found)
  | .memberOfNonStruct member found => .memberOfNonStruct (E.name member) (E.type found)
  | .noSuchField struct field => .noSuchField (E.name struct) (E.name field)
  | .argumentCount function expected provided =>
      .argumentCount (E.name function) expected provided
  | .argumentType position function expected found =>
      .argumentType position (E.name function) (E.type expected) (E.type found)
  | .initialValue name expected found =>
      .initialValue (E.name name) (E.type expected) (E.type found)
  | .assignedValue name expected found =>
      .assignedValue (E.name name) (E.type expected) (E.type found)
  | .assignedArray name => .assignedArray (E.name name)
  | .assignedConst name => .assignedConst (E.name name)
  | .updateOperands operator need place value =>
      .updateOperands operator need (E.type place) (E.type value)
  | .condition ruled found => .condition ruled (E.type found)
  | .switchSubject found => .switchSubject (E.type found)
  | .duplicateCase value => .duplicateCase value
  | .duplicateDefault => .duplicateDefault
  | .missingResult function expected => .missingResult (E.name function) (E.type expected)
  | .resultOfVoid function => .resultOfVoid (E.name function)
  | .resultType function expected found =>
      .resultType (E.name function) (E.type expected) (E.type found)
  | .misplacedJump word switchWouldDo => .misplacedJump word switchWouldDo
  | .formatString call error => .formatString call error
  | .formatCount call expected provided => .formatCount call expected provided
  | .formatArgument call spec found => .formatArgument call spec (E.type found)
  | .scanfNotAddress found => .scanfNotAddress (E.type found)

/-- An issue in the edition. -/
def issue : Issue → Issue
  | .missing hole => .missing (E.hole hole)
  | .fault cause site => .fault (E.fault cause) (site.map E.token)

/-! ## Tokens -/

/-- A token of the text that may stand for a name. -/
def Names (t : Token) : Prop := t ∈ E.text ∧ t.kind.namesFunction = true

/-- A token that keeps its lexeme. -/
def Fixed (t : Token) : Prop := t.kind ≠ .ident

variable {E} {t : Token}

@[simp] theorem kind_token : (E.token t).kind = t.kind := rfl

@[simp] theorem location_token : (E.token t).location = E.place t.location := rfl

/-- Of all tokens only identifiers are respelled. -/
theorem Fixed.of_kind {kind : Kind} (hkind : t.kind = kind) (h : kind ≠ .ident) : Fixed t :=
  fun hident => h (hkind.symm.trans hident)

/-- The same, told by a test that an identifier does not pass. -/
theorem Fixed.of_test {p : Kind → Bool} (h : p t.kind = true) (hp : p .ident = false) :
    Fixed t := by
  intro hident
  rw [hident, hp] at h
  cases h

theorem Fixed.lexeme (h : Fixed t) : (E.token t).lexeme = t.lexeme := if_neg h

theorem Names.lexeme (h : E.Names t) : (E.token t).lexeme = E.name t.lexeme := by
  obtain ⟨htext, hkind⟩ := h
  by_cases hident : t.kind = .ident
  · exact if_pos hident
  -- the name of the main function is no identifier, and its spelling is kept
  · have hmain : t.kind = .keyword .kwMain := by simpa [Kind.namesFunction, hident] using hkind
    exact (Fixed.lexeme hident).trans (E.main t htext hmain).symm

theorem name_eq_printf {name : String} : E.name name = "printf" ↔ name = "printf" :=
  E.injective.eq_iff' E.printf

theorem name_eq_scanf {name : String} : E.name name = "scanf" ↔ name = "scanf" :=
  E.injective.eq_iff' E.scanf

/-- A name is that of a builtin in one text iff it is in the other. -/
theorem name_mem_builtins {name : String} : E.name name ∈ builtins ↔ name ∈ builtins := by
  simp [builtins, name_eq_printf, name_eq_scanf]

/-- Names are looked up in an edition as before. -/
theorem name_beq {name name' : String} : (E.name name == E.name name') = (name == name') :=
  Bool.eq_iff_iff.2 (by simp [E.injective.eq_iff])

/-! ## Types -/

section Types

variable {base : BaseType} {s t : CType} {need : Need}

/-- Different base types stay different, as different names do. -/
theorem base_injective : Function.Injective E.base := by
  intro b b' h
  cases b <;> cases b' <;> simp_all [Edition.base, BaseType.renamed, E.injective.eq_iff]

/-- Different types stay different. -/
theorem type_injective : Function.Injective E.type := by
  intro s t h
  cases s
  cases t
  rw [Edition.type, Edition.type, CType.renamed, CType.renamed, CType.mk.injEq] at h
  rw [CType.mk.injEq]
  exact ⟨base_injective h.1, h.2⟩

@[simp] theorem base_type : (E.type t).base = E.base t.base := rfl

@[simp] theorem pointers_type : (E.type t).pointers = t.pointers := rfl

@[simp] theorem isArray_type : (E.type t).isArray = t.isArray := rfl

theorem type_beq : (E.type s == E.type t) = (s == t) :=
  Bool.eq_iff_iff.2 (by simp [type_injective.eq_iff])

/-- A base type that is no struct is told apart as before. -/
theorem base_beq (h : E.base base = base) {other : BaseType} :
    (E.base other == base) = (other == base) := by
  rw [Bool.eq_iff_iff, beq_iff_eq, beq_iff_eq, ← h, base_injective.eq_iff, h]

@[simp] theorem rank?_base : (E.base base).rank? = base.rank? := by
  cases base <;> rfl

@[simp] theorem type_unknown : E.type .unknown = .unknown := rfl

@[simp] theorem type_int : E.type .int = .int := rfl

@[simp] theorem type_plain : E.type (.plain base) = .plain (E.base base) := rfl

@[simp] theorem type_withPointer : E.type t.withPointer = (E.type t).withPointer := rfl

@[simp] theorem type_withArray : E.type t.withArray = (E.type t).withArray := rfl

@[simp] theorem type_decayed : (E.type t).decayed = E.type t.decayed := by
  unfold CType.decayed
  rw [isArray_type]
  split <;> rfl

/-- What a pointer points to may be edited before or behind. -/
@[simp] theorem type_deref? : (E.type t).deref? = t.deref?.map E.type := by
  unfold CType.deref?
  rw [pointers_type]
  split <;> rfl

/-- So may the elements of an array. -/
@[simp] theorem type_element? : (E.type t).element? = t.element?.map E.type := by
  unfold CType.element?
  rw [isArray_type]
  split
  · rfl
  · exact type_deref?

@[simp] theorem type_addressOf : (E.type t).addressOf = E.type t.addressOf := by
  unfold CType.addressOf
  rw [isArray_type]
  split
  · exact type_decayed
  · rfl

@[simp] theorem isUnknown_type : (E.type t).isUnknown = t.isUnknown := base_beq rfl

@[simp] theorem isPointer_type : (E.type t).isPointer = t.isPointer := rfl

@[simp] theorem isScalar_type : (E.type t).isScalar = t.isScalar := rfl

@[simp] theorem isVoid_type : (E.type t).isVoid = t.isVoid :=
  congrArg (· && t.isScalar) (base_beq rfl)

/-- Ranks are given to arithmetic types, and no struct is one. -/
@[simp] theorem rank?_type : (E.type t).rank? = t.rank? := by
  unfold CType.rank?
  rw [isScalar_type, base_type, rank?_base]

@[simp] theorem isNumeric_type : (E.type t).isNumeric = t.isNumeric := by
  unfold CType.isNumeric
  rw [rank?_type]

@[simp] theorem isIntegral_type : (E.type t).isIntegral = t.isIntegral := by
  unfold CType.isIntegral
  rw [rank?_type]

@[simp] theorem isFloating_type : (E.type t).isFloating = t.isFloating := by
  unfold CType.isFloating
  rw [rank?_type]

@[simp] theorem isVoidPointer_type : (E.type t).isVoidPointer = t.isVoidPointer :=
  congrArg (· && t.pointers == 1) (base_beq rfl)

/-- The struct of a type is the one thing in it that has another name. -/
@[simp] theorem structName?_type : (E.type t).structName? = t.structName?.map E.name := by
  obtain ⟨base, pointers, isArray⟩ := t
  cases base with
  | struct name =>
      cases pointers
      · cases isArray <;> rfl
      · rfl
  | _ => rfl

/-- Pointers go together by what they point to, which is compared by name only. -/
theorem type_pointerCompatible :
    (E.type s).pointerCompatible (E.type t) = s.pointerCompatible t := by
  unfold CType.pointerCompatible
  rw [type_beq, isPointer_type, isPointer_type, isVoidPointer_type, isVoidPointer_type]

/-- **What may be stored where** does not depend on the names of structs. -/
@[simp] theorem type_accepts : (E.type s).accepts (E.type t) = s.accepts t := by
  unfold CType.accepts
  rw [isUnknown_type, isUnknown_type, type_beq, rank?_type, rank?_type, type_decayed,
    type_decayed, type_pointerCompatible]

/-- Two types are promoted to the same rank. -/
@[simp] theorem type_promote : (E.type s).promote (E.type t) = E.type (s.promote t) := by
  unfold CType.promote
  rw [rank?_type, rank?_type]
  split
  · exact (apply_ite E.type _ _ _).symm
  · rfl

/-- What an operand needs is told by its rank. -/
@[simp] theorem isMet_type : need.isMet (E.type t) = need.isMet t := by
  cases need
  · exact isIntegral_type
  · exact isNumeric_type

@[simp] theorem mayBeMet_type : need.mayBeMet (E.type t) = need.mayBeMet t := by
  unfold Need.mayBeMet
  rw [isUnknown_type, isMet_type]

/-- A conversion of `printf` does not ask for the name of a struct, -/
@[simp] theorem acceptsValue_type {conversion : Conversion} :
    conversion.acceptsValue (E.type t) = conversion.acceptsValue t := by
  have hchar : (E.base t.decayed.base == .char) = (t.decayed.base == .char) := base_beq rfl
  cases conversion <;> simp [Conversion.acceptsValue, hchar]

/-- nor does one of `scanf`. -/
@[simp] theorem acceptsTarget_type {conversion : Conversion} :
    conversion.acceptsTarget (E.type t) = conversion.acceptsTarget t := by
  have hchar : (E.type t == .plain .char) = (t == .plain .char) := type_beq (t := .plain .char)
  cases conversion <;> simp [Conversion.acceptsTarget, hchar]

end Types

end Edition

end MiniC
