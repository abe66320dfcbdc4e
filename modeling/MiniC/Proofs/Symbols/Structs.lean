import Mathlib.Data.List.Induction
import Mathlib.Data.List.Nodup
import MiniC.Symbols.Table

/-!
# `MiniC.Proofs.Symbols.Structs` — structs answer as their history says

Fields are added to a struct one after the other, and a field is refused if the struct has one of
its name.  Whatever is added, the struct lists the names in the order in which they were asked for
first, and each has the type with which it was asked for first.

A struct need not keep one list for both.  `KeyedStruct` keeps the types under the names of the
fields, and the names in their order beside them.  It lists its fields by going through the names,
and a name without a type would be passed over in silence; so the list is right only as long as
both know the same names.  That is kept by every addition, accepted or refused, and with it both
structs give the same answers.

Structs are declared among scopes, variables and functions, which leave them alone.  The first
definition of a name stands, and what is known of its fields is known for ever.

## Contents
- `StructDef.ofHistory`, `StructDef.accepted`: a struct behind a history of fields, and those of
  them that it accepts.
- `field?_ofHistory`, `names_ofHistory`, `fields_ofHistory`: **the fields are those of the
  history.**
- `KeyedStruct`, `KeyedStruct.Coherent`, with `toStruct_ofHistory`: **types and names beside each
  other are one struct.**
- `Symbols.Change`, `Symbols.behind`, with `struct?_behind`: **the first definition stands.**
- `ConsistentFields`, `KeepsPace`, `ConsistentStructs`, with `structs_consistent`: **structs answer
  as their history says.**
-/

namespace MiniC

variable {history : List (String × CType)} {field : String × CType} {name : String} {type : CType}
variable {refusal : Refusal}

/-! ## Names, their types, and refusals -/

/-- What is refused where something is known, and else accepted, is refused only there. -/
theorem answer_eq_error_iff {α : Type} {known : Prop} [Decidable known] {reason : Refusal}
    {old new : α} :
    ((if known then (old, .error reason) else (new, .ok ()) : Attempt α)).2 = .error refusal ↔
      refusal = reason ∧ known := by
  by_cases hknown : known
  · rw [if_pos hknown, Except.error.injEq, and_iff_left hknown]
    exact eq_comm
  · rw [if_neg hknown]
    constructor
    · intro hrefused
      cases hrefused
    · rintro ⟨-, hsome⟩
      exact absurd hsome hknown

/-- A name has a type in a list of fields if and only if there is a field of the name. -/
theorem isSome_lookup_iff :
    (history.lookup name).isSome = true ↔ name ∈ history.map Prod.fst := by
  rw [List.lookup_isSome_iff, List.mem_map]
  exact exists_congr fun other => and_congr_right fun _ => beq_iff_eq.trans eq_comm

/-- Where no name is listed twice, a name has the types with which it is listed. -/
theorem lookup_eq_some_iff_mem (h : (history.map Prod.fst).Nodup) :
    history.lookup name = some type ↔ (name, type) ∈ history := by
  rw [List.lookup_eq_some_iff]
  constructor
  · rintro ⟨before, behind, rfl, -⟩
    exact List.mem_append_right _ List.mem_cons_self
  · intro hmem
    obtain ⟨before, behind, rfl⟩ := List.append_of_mem hmem
    refine ⟨before, behind, rfl, fun other hother => ?_⟩
    rw [List.map_append, List.map_cons, List.nodup_append] at h
    have hdiffers := h.2.2 other.1 (List.mem_map_of_mem hother) name List.mem_cons_self
    simpa using Ne.symm hdiffers

/-- One more name stands behind the others, unless it is among them. -/
theorem eraseDups_concat (names : List String) (name : String) :
    (names ++ [name]).eraseDups =
      if name ∈ names then names.eraseDups else names.eraseDups ++ [name] := by
  rw [List.eraseDups_append]
  by_cases hmem : name ∈ names
  · have hnone : [name].removeAll names = [] := by simp [List.cons_removeAll, hmem]
    rw [if_pos hmem, hnone, List.eraseDups_nil, List.append_nil]
  · have hall : [name].removeAll names = [name] := by simp [List.cons_removeAll, hmem]
    rw [if_neg hmem, hall]
    rfl

/-! ## Histories of fields -/

namespace StructDef

/-- The struct behind a field that is asked for, accepted or refused. -/
def withField (struct : StructDef) (field : String × CType) : StructDef :=
  (struct.tryField field.1 field.2).1

/-- The struct behind a history of fields, where it had none to begin with. -/
def ofHistory (name : String) (line : Nat) (history : List (String × CType)) : StructDef :=
  history.foldl withField ⟨name, line, []⟩

/-- The fields of a history that a struct accepts, in the order in which it does. -/
def accepted (struct : StructDef) : List (String × CType) → List (String × CType)
  | [] => []
  | field :: later =>
    match struct.tryField field.1 field.2 with
    | (extended, .ok ()) => field :: extended.accepted later
    | (left, .error _) => left.accepted later

variable {struct : StructDef}

/-- A field is refused if and only if the struct has one of its name. -/
theorem addField_eq_error_iff : struct.addField name type = .error refusal ↔
    refusal = .fieldRedeclared struct.name name ∧ (struct.field? name).isSome = true := by
  refine Attempt.result_eq_error_iff.trans ?_
  unfold tryField
  exact answer_eq_error_iff

theorem withField_of_known (h : (struct.field? field.1).isSome = true) :
    struct.withField field = struct := by
  unfold withField
  rw [tryField_of_known h]

theorem withField_of_new (h : ¬(struct.field? field.1).isSome = true) :
    struct.withField field = { struct with fields := struct.fields ++ [field] } := by
  unfold withField
  rw [tryField_of_new h]

theorem name_withField (struct : StructDef) (field : String × CType) :
    (struct.withField field).name = struct.name := by
  by_cases hknown : (struct.field? field.1).isSome = true
  · rw [withField_of_known hknown]
  · rw [withField_of_new hknown]

/-- What one field does to the types of all names. -/
theorem field?_withField (struct : StructDef) (field : String × CType) (name : String) :
    (struct.withField field).field? name = (struct.field? name).or ([field].lookup name) := by
  by_cases hknown : (struct.field? field.1).isSome = true
  · rw [withField_of_known hknown]
    by_cases hname : name = field.1
    · subst hname
      rw [Option.or_of_isSome hknown]
    · have hother : [field].lookup name = none := List.lookup_eq_none_iff.2 (by simpa using hname)
      rw [hother, Option.or_none]
  · rw [withField_of_new hknown]
    exact List.lookup_append

/-- What one field does to the names that are listed. -/
theorem names_withField (struct : StructDef) (field : String × CType) :
    (struct.withField field).fields.map Prod.fst =
      if field.1 ∈ struct.fields.map Prod.fst then struct.fields.map Prod.fst
      else struct.fields.map Prod.fst ++ [field.1] := by
  have hlisted : (struct.field? field.1).isSome = true ↔ field.1 ∈ struct.fields.map Prod.fst :=
    isSome_lookup_iff
  by_cases hknown : (struct.field? field.1).isSome = true
  · rw [withField_of_known hknown, if_pos (hlisted.1 hknown)]
  · rw [withField_of_new hknown, if_neg (mt hlisted.2 hknown)]
    exact List.map_append

theorem ofHistory_concat (name : String) (line : Nat) (history : List (String × CType))
    (field : String × CType) :
    ofHistory name line (history ++ [field]) = (ofHistory name line history).withField field :=
  List.foldl_concat ..

theorem name_ofHistory (name : String) (line : Nat) (history : List (String × CType)) :
    (ofHistory name line history).name = name := by
  induction history using List.reverseRecOn with
  | nil => rfl
  | append_singleton history field ih => rw [ofHistory_concat, name_withField, ih]

/-- **A name has the type with which it was asked for first.** -/
theorem field?_ofHistory (struct : String) (line : Nat) (history : List (String × CType))
    (name : String) : (ofHistory struct line history).field? name = history.lookup name := by
  induction history using List.reverseRecOn with
  | nil => rfl
  | append_singleton history field ih =>
      rw [ofHistory_concat, field?_withField, ih, List.lookup_append]

/-- **The names are listed in the order in which they were asked for first.** -/
theorem names_ofHistory (name : String) (line : Nat) (history : List (String × CType)) :
    (ofHistory name line history).fields.map Prod.fst = (history.map Prod.fst).eraseDups := by
  induction history using List.reverseRecOn with
  | nil => rfl
  | append_singleton history field ih =>
      rw [ofHistory_concat, names_withField, ih, List.map_append, List.map_singleton,
        eraseDups_concat]
      simp only [List.mem_eraseDups]

/-- No name is listed twice. -/
theorem nodup_ofHistory (name : String) (line : Nat) (history : List (String × CType)) :
    ((ofHistory name line history).fields.map Prod.fst).Nodup := by
  induction history using List.reverseRecOn with
  | nil => exact List.nodup_nil
  | append_singleton history field ih =>
      rw [ofHistory_concat, names_withField]
      by_cases hlisted : field.1 ∈ (ofHistory name line history).fields.map Prod.fst
      · rwa [if_pos hlisted]
      · rw [if_neg hlisted, ← List.concat_eq_append]
        exact ih.concat hlisted

/-- Behind its own fields a struct lists those of a history that it accepts. -/
theorem fields_foldl (struct : StructDef) (history : List (String × CType)) :
    (history.foldl withField struct).fields = struct.fields ++ struct.accepted history := by
  induction history generalizing struct with
  | nil => exact (List.append_nil _).symm
  | cons field later ih =>
      rw [List.foldl_cons, ih, accepted]
      by_cases hknown : (struct.field? field.1).isSome = true
      · rw [withField_of_known hknown, tryField_of_known hknown]
      · rw [withField_of_new hknown, tryField_of_new hknown]
        exact List.append_assoc ..

/-- **The fields are those that were accepted.** -/
theorem fields_ofHistory (name : String) (line : Nat) (history : List (String × CType)) :
    (ofHistory name line history).fields = accepted ⟨name, line, []⟩ history :=
  fields_foldl ⟨name, line, []⟩ history

end StructDef

/-! ## Types and names beside each other -/

/-- A struct that keeps the types of its fields under their names, and the names in the order of
declaration beside them. -/
structure KeyedStruct where
  name : String
  /-- The line of the declaration. -/
  line : Nat
  types : Std.HashMap String CType
  order : List String

namespace KeyedStruct

/-- The type of a field. -/
def field? (struct : KeyedStruct) (name : String) : Option CType := struct.types[name]?

/-- The fields in the order of declaration.  A name without a type is passed over. -/
def fields (struct : KeyedStruct) : List (String × CType) :=
  struct.order.filterMap fun name => struct.types[name]?.map fun type => (name, type)

/-- Put a type under a name, and the name behind the others. -/
def insert (struct : KeyedStruct) (name : String) (type : CType) : KeyedStruct :=
  { struct with types := struct.types.insert name type, order := struct.order ++ [name] }

/-- Try to add a field behind the others. -/
def tryField (struct : KeyedStruct) (name : String) (type : CType) : Attempt KeyedStruct :=
  if name ∈ struct.types then (struct, .error (.fieldRedeclared struct.name name))
  else (struct.insert name type, .ok ())

/-- The struct with one more field, or why it is refused. -/
def addField (struct : KeyedStruct) (name : String) (type : CType) : Except Refusal KeyedStruct :=
  (struct.tryField name type).result

/-- The struct behind a field that is asked for, accepted or refused. -/
def withField (struct : KeyedStruct) (field : String × CType) : KeyedStruct :=
  (struct.tryField field.1 field.2).1

/-- The struct behind a history of fields, where it had none to begin with. -/
def ofHistory (name : String) (line : Nat) (history : List (String × CType)) : KeyedStruct :=
  history.foldl withField ⟨name, line, ∅, []⟩

/-- The struct with its fields in one list. -/
def toStruct (struct : KeyedStruct) : StructDef := ⟨struct.name, struct.line, struct.fields⟩

/-- The names in order are those that have a type. -/
def Coherent (struct : KeyedStruct) : Prop := ∀ name, name ∈ struct.order ↔ name ∈ struct.types

variable {struct : KeyedStruct}

theorem tryField_of_known (h : name ∈ struct.types) (type : CType) :
    struct.tryField name type = (struct, .error (.fieldRedeclared struct.name name)) :=
  if_pos h

theorem tryField_of_new (h : name ∉ struct.types) (type : CType) :
    struct.tryField name type = (struct.insert name type, .ok ()) :=
  if_neg h

theorem careful_tryField (name : String) (type : CType) : Careful (tryField · name type) :=
  .of_ite

theorem ofHistory_concat (name : String) (line : Nat) (history : List (String × CType))
    (field : String × CType) :
    ofHistory name line (history ++ [field]) = (ofHistory name line history).withField field :=
  List.foldl_concat ..

/-- Of the names that are gone through, those that have a type are found with it. -/
theorem lookup_filterMap (types : Std.HashMap String CType) (order : List String) (name : String) :
    (order.filterMap fun name => types[name]?.map fun type => (name, type)).lookup name =
      if name ∈ order then types[name]? else none := by
  induction order with
  | nil => rfl
  | cons first order ih =>
      rw [List.filterMap_cons]
      by_cases hname : name = first
      · subst hname
        -- the name may stand in the order again, but its type is the same there
        cases htype : types[name]? with
        | none => simp [ih, htype]
        | some type => simp
      · have hdiffers : (name == first) = false := beq_eq_false_iff_ne.2 hname
        cases types[first]? with
        | none => simpa [hname] using ih
        | some type => simpa [hname, hdiffers, List.lookup_cons] using ih

namespace Coherent

/-- A name has the same type in the list and in the map. -/
theorem field?_toStruct (h : struct.Coherent) (name : String) :
    struct.toStruct.field? name = struct.field? name := by
  refine (lookup_filterMap struct.types struct.order name).trans ?_
  by_cases hlisted : name ∈ struct.order
  · rw [if_pos hlisted]
    rfl
  · have hnone : struct.types[name]? = none :=
      Std.HashMap.getElem?_eq_none fun hmem => hlisted ((h name).2 hmem)
    rw [if_neg hlisted]
    exact hnone.symm

/-- A name that has no type stands nowhere in the order, so its field is listed once, and the
others as before. -/
theorem fields_insert (h : struct.Coherent) (hnew : name ∉ struct.types) (type : CType) :
    (struct.insert name type).fields = struct.fields ++ [(name, type)] := by
  -- a name in the order that had no type would come up with the new one
  have hothers : ∀ other ∈ struct.order,
      (struct.types.insert name type)[other]? = struct.types[other]? := by
    intro other hother
    have hdiffers : ¬(name == other) = true := by
      rw [beq_iff_eq]
      rintro rfl
      exact hnew ((h name).1 hother)
    rw [Std.HashMap.getElem?_insert, if_neg hdiffers]
  unfold KeyedStruct.fields KeyedStruct.insert
  rw [List.filterMap_append]
  congr 1
  · refine List.filterMap_congr fun other hother => ?_
    rw [hothers other hother]
  · simp

/-- Types and order know the same names behind one more. -/
theorem insert (h : struct.Coherent) (name : String) (type : CType) :
    (struct.insert name type).Coherent := by
  intro other
  show other ∈ struct.order ++ [name] ↔ other ∈ struct.types.insert name type
  rw [List.mem_append, List.mem_singleton, Std.HashMap.mem_insert, beq_iff_eq, h other, or_comm,
    eq_comm]

/-- Types and order know the same names behind a field, accepted or refused. -/
theorem withField (h : struct.Coherent) (field : String × CType) :
    (struct.withField field).Coherent := by
  unfold KeyedStruct.withField
  by_cases hknown : field.1 ∈ struct.types
  · rwa [tryField_of_known hknown]
  · rw [tryField_of_new hknown]
    exact h.insert field.1 field.2

/-- Both structs accept a field, or both refuse it, and the same is left. -/
theorem tryField_toStruct (h : struct.Coherent) (name : String) (type : CType) :
    (struct.tryField name type).map toStruct id = struct.toStruct.tryField name type := by
  have hsome : (struct.toStruct.field? name).isSome = true ↔ name ∈ struct.types := by
    rw [h.field?_toStruct]
    exact Std.HashMap.isSome_getElem?_iff_mem
  by_cases hknown : name ∈ struct.types
  · rw [tryField_of_known hknown, StructDef.tryField_of_known (hsome.2 hknown)]
    rfl
  · rw [tryField_of_new hknown, StructDef.tryField_of_new (mt hsome.1 hknown)]
    show (StructDef.mk struct.name struct.line (struct.insert name type).fields, _) = _
    rw [h.fields_insert hknown]
    rfl

theorem withField_toStruct (h : struct.Coherent) (field : String × CType) :
    (struct.withField field).toStruct = struct.toStruct.withField field := by
  unfold StructDef.withField KeyedStruct.withField
  rw [← h.tryField_toStruct]
  rfl

theorem addField_toStruct (h : struct.Coherent) (name : String) (type : CType) :
    (struct.addField name type).map toStruct = struct.toStruct.addField name type := by
  unfold StructDef.addField KeyedStruct.addField
  rw [← h.tryField_toStruct]
  obtain ⟨later, _ | _⟩ := struct.tryField name type <;> rfl

end Coherent

/-- **Behind every history, types and names beside each other are one struct.** -/
theorem toStruct_ofHistory (name : String) (line : Nat) (history : List (String × CType)) :
    (ofHistory name line history).Coherent ∧
      (ofHistory name line history).toStruct = StructDef.ofHistory name line history := by
  induction history using List.reverseRecOn with
  | nil => exact ⟨fun name => by simp [ofHistory], rfl⟩
  | append_singleton history field ih =>
      obtain ⟨hcoherent, hstruct⟩ := ih
      rw [ofHistory_concat, hcoherent.withField_toStruct, hstruct, StructDef.ofHistory_concat]
      exact ⟨hcoherent.withField field, rfl⟩

end KeyedStruct

/-! ## Histories of symbols -/

namespace Symbols

/-- What is done with the symbols of a program. -/
inductive Change
  | enter
  | leave
  | declareVariable (v : Variable)
  | declareFunction (f : Function)
  | declareStruct (struct : StructDef)
deriving DecidableEq, Repr

namespace Change

/-- The symbols behind a change, and whether it is refused. -/
def run : Change → Symbols → Attempt Symbols
  | enter, σ => (σ.enter, .ok ())
  | leave, σ => (σ.leave, .ok ())
  | declareVariable v, σ => σ.tryVariable v
  | declareFunction f, σ => σ.tryFunction f
  | declareStruct struct, σ => σ.tryStruct struct

/-- The struct that is to be declared. -/
def struct? : Change → Option StructDef
  | declareStruct struct => some struct
  | enter | leave | declareVariable _ | declareFunction _ => none

/-- A change that is refused leaves the symbols as they were. -/
theorem careful_run (change : Change) : Careful change.run := by
  intro σ refusal hrefused
  cases change with
  | enter => cases hrefused
  | leave => cases hrefused
  | declareVariable v => exact careful_tryVariable v σ refusal hrefused
  | declareFunction f => exact careful_tryFunction f σ refusal hrefused
  | declareStruct struct => exact careful_tryStruct struct σ refusal hrefused

end Change

/-- The symbols behind a change, accepted or refused. -/
def changed (σ : Symbols) (change : Change) : Symbols := (change.run σ).1

/-- The symbols behind a history of changes. -/
def behind (σ : Symbols) (history : List Change) : Symbols := history.foldl changed σ

variable {σ : Symbols} {struct : StructDef}

/-- A struct is refused if and only if there is one of its name. -/
theorem declareStruct_eq_error_iff : σ.declareStruct struct = .error refusal ↔
    refusal = .structRedeclared struct.name ∧ (σ.struct? struct.name).isSome = true := by
  refine Attempt.result_eq_error_iff.trans ?_
  unfold tryStruct
  exact answer_eq_error_iff

/-- What is not the definition of a struct leaves the structs alone. -/
theorem structs_changed {change : Change} (h : change.struct? = none) (σ : Symbols) :
    (σ.changed change).structs = σ.structs := by
  unfold changed
  cases change with
  | enter => rfl
  | leave => rfl
  | declareVariable v => rfl
  | declareFunction f =>
      show (σ.tryFunction f).1.structs = σ.structs
      have hdeclared := σ.declaresFunction f
      generalize σ.tryFunction f = attempt at hdeclared
      cases hdeclared with
      | first => rfl
      | redeclared => rfl
      | conflicting => rfl
      | defined => rfl
      | announced => rfl
  | declareStruct struct => cases h

/-- A struct that is declared is the struct of its name, unless there is one. -/
theorem struct?_declared (σ : Symbols) (struct : StructDef) (name : String) :
    (σ.changed (.declareStruct struct)).struct? name =
      (σ.struct? name).or ([struct].find? (·.name == name)) := by
  show (σ.tryStruct struct).1.struct? name = _
  by_cases hknown : (σ.struct? struct.name).isSome = true
  · rw [tryStruct_of_known hknown]
    by_cases hname : struct.name = name
    · subst hname
      exact (Option.or_of_isSome hknown).symm
    · rw [List.find?_cons_of_neg (by simpa using hname), List.find?_nil, Option.or_none]
  · rw [tryStruct_of_new hknown]
    show List.find? (·.name == name) (struct :: σ.structs) = _
    by_cases hname : struct.name = name
    · subst hname
      have hnone : σ.struct? struct.name = none := by simpa using hknown
      rw [hnone, Option.none_or, List.find?_cons_of_pos (by simp), List.find?_cons_of_pos (by simp)]
    · rw [List.find?_cons_of_neg (by simpa using hname),
        List.find?_cons_of_neg (by simpa using hname), List.find?_nil, Option.or_none]
      rfl

/-- **What one change does to the structs of all names.** -/
theorem struct?_changed (σ : Symbols) (change : Change) (name : String) :
    (σ.changed change).struct? name =
      (σ.struct? name).or (([change].filterMap Change.struct?).find? (·.name == name)) := by
  cases change with
  | declareStruct struct => exact struct?_declared σ struct name
  | enter | leave | declareVariable v | declareFunction f =>
      show (σ.changed _).struct? name = (σ.struct? name).or none
      rw [Option.or_none, struct?, structs_changed rfl]
      rfl

theorem behind_concat (σ : Symbols) (history : List Change) (change : Change) :
    σ.behind (history ++ [change]) = (σ.behind history).changed change :=
  List.foldl_concat ..

/-- **The first definition of a name stands.** -/
theorem struct?_behind (σ : Symbols) (history : List Change) (name : String) :
    (σ.behind history).struct? name =
      (σ.struct? name).or ((history.filterMap Change.struct?).find? (·.name == name)) := by
  induction history using List.reverseRecOn with
  | nil => exact (Option.or_none).symm
  | append_singleton history change ih =>
      rw [behind_concat, struct?_changed, ih, List.filterMap_append, List.find?_append,
        Option.or_assoc]

/-- What is known of the fields of a struct is known for ever. -/
theorem field?_behind (h : (σ.struct? name).isSome = true) (history : List Change)
    (field : String) : (σ.behind history).field? name field = σ.field? name field := by
  unfold field?
  rw [struct?_behind, Option.or_of_isSome h]

end Symbols

/-! ## Structs and their fields -/

/-- What a struct tells of the fields that it was asked for. -/
structure ConsistentFields (name : String) (line : Nat) (history : List (String × CType)) :
    Prop where
  /-- It lists those that it accepted, in the order in which it did. -/
  fields : (StructDef.ofHistory name line history).fields =
    StructDef.accepted ⟨name, line, []⟩ history
  /-- Their names are in the order in which they were asked for first. -/
  names : (StructDef.ofHistory name line history).fields.map Prod.fst =
    (history.map Prod.fst).eraseDups
  nodup : ((StructDef.ofHistory name line history).fields.map Prod.fst).Nodup
  /-- A name is found with the type with which it was asked for first. -/
  first : ∀ field, (StructDef.ofHistory name line history).field? field = history.lookup field
  /-- It is found with the type with which it is listed. -/
  listed : ∀ field type, (StructDef.ofHistory name line history).field? field = some type ↔
    (field, type) ∈ (StructDef.ofHistory name line history).fields
  /-- A field is refused if and only if one of its name was accepted. -/
  refused : ∀ field type refusal,
    (StructDef.ofHistory name line history).addField field type = .error refusal ↔
      refusal = .fieldRedeclared name field ∧
        field ∈ (StructDef.accepted ⟨name, line, []⟩ history).map Prod.fst
  /-- One that is refused changes nothing. -/
  unchanged : ∀ field type refusal,
    (StructDef.ofHistory name line history).addField field type = .error refusal →
      StructDef.ofHistory name line (history ++ [(field, type)]) =
        StructDef.ofHistory name line history

/-- A struct that keeps types and names beside each other tells the same. -/
structure KeepsPace (name : String) (line : Nat) (history : List (String × CType)) : Prop where
  listed : (KeyedStruct.ofHistory name line history).toStruct =
    StructDef.ofHistory name line history
  found : ∀ field, (KeyedStruct.ofHistory name line history).field? field =
    (StructDef.ofHistory name line history).field? field
  /-- The next field is answered in the same way, and leaves the same. -/
  answers : ∀ field type,
    ((KeyedStruct.ofHistory name line history).addField field type).map KeyedStruct.toStruct =
      (StructDef.ofHistory name line history).addField field type
  /-- A field that is refused changes neither types nor names. -/
  unchanged : ∀ field type refusal,
    (KeyedStruct.ofHistory name line history).addField field type = .error refusal →
      KeyedStruct.ofHistory name line (history ++ [(field, type)]) =
        KeyedStruct.ofHistory name line history

/-- What symbols tell of structs behind a history of changes. -/
structure ConsistentStructs (σ : Symbols) (history : List Symbols.Change) : Prop where
  /-- The struct of a name is the first definition of it. -/
  first : ∀ name, (σ.behind history).struct? name =
    (σ.struct? name).or ((history.filterMap Symbols.Change.struct?).find? (·.name == name))
  /-- A struct is refused if and only if there is one of its name. -/
  refused : ∀ struct refusal,
    (σ.behind history).declareStruct struct = .error refusal ↔
      refusal = .structRedeclared struct.name ∧
        ((σ.behind history).struct? struct.name).isSome = true
  /-- One that is refused changes nothing. -/
  unchanged : ∀ struct refusal,
    (σ.behind history).declareStruct struct = .error refusal →
      σ.behind (history ++ [.declareStruct struct]) = σ.behind history
  /-- The fields of a declared struct are for ever those it was declared with. -/
  settled : ∀ name field, (σ.struct? name).isSome = true →
    (σ.behind history).field? name field = σ.field? name field

/-- Behind every history of fields a struct is consistent. -/
theorem consistent_fields (name : String) (line : Nat) (history : List (String × CType)) :
    ConsistentFields name line history where
  fields := StructDef.fields_ofHistory name line history
  names := StructDef.names_ofHistory name line history
  nodup := StructDef.nodup_ofHistory name line history
  first := StructDef.field?_ofHistory name line history
  listed field type := lookup_eq_some_iff_mem (StructDef.nodup_ofHistory name line history)
  refused field type refusal := by
    rw [StructDef.addField_eq_error_iff, StructDef.name_ofHistory,
      ← StructDef.fields_ofHistory name line history]
    exact and_congr_right fun _ => isSome_lookup_iff
  unchanged field type refusal hrefused := by
    rw [StructDef.ofHistory_concat]
    exact StructDef.careful_tryField field type _ refusal
      (Attempt.result_eq_error_iff.1 hrefused)

/-- Behind every history of fields both structs are the same. -/
theorem keepsPace (name : String) (line : Nat) (history : List (String × CType)) :
    KeepsPace name line history := by
  obtain ⟨hcoherent, hstruct⟩ := KeyedStruct.toStruct_ofHistory name line history
  refine ⟨hstruct, fun field => ?_, fun field type => ?_, fun field type refusal hrefused => ?_⟩
  · rw [← hstruct, hcoherent.field?_toStruct]
  · rw [hcoherent.addField_toStruct, hstruct]
  · rw [KeyedStruct.ofHistory_concat]
    exact KeyedStruct.careful_tryField field type _ refusal
      (Attempt.result_eq_error_iff.1 hrefused)

/-- Behind every history of changes the first definitions stand. -/
theorem consistent_structs (σ : Symbols) (history : List Symbols.Change) :
    ConsistentStructs σ history where
  first := Symbols.struct?_behind σ history
  refused struct refusal := Symbols.declareStruct_eq_error_iff
  unchanged struct refusal hrefused := by
    rw [Symbols.behind_concat]
    exact Symbols.Change.careful_run (.declareStruct struct) _ refusal
      (Attempt.result_eq_error_iff.1 hrefused)
  settled name field hknown := Symbols.field?_behind hknown history field

/-- **Structs answer as their history says,** whatever fields are asked for, and whatever is
declared, and so do structs that keep types and names beside each other. -/
theorem structs_consistent :
    (∀ name line history, ConsistentFields name line history) ∧
      (∀ name line history, KeepsPace name line history) ∧
        ∀ σ history, ConsistentStructs σ history :=
  ⟨consistent_fields, keepsPace, consistent_structs⟩

/-- `int x; int y; char x;` -/
def pointHistory : List (String × CType) := [("x", .int), ("y", .int), ("x", .plain .char)]

/-- A point has the first `x` and no `y` more, with its types and names in one list or beside each
other.  Once it is declared it has no other definition, and never a `z`. -/
theorem pointHistory_consistent :
    let point := StructDef.ofHistory "Point" 1 pointHistory
    let keyed := KeyedStruct.ofHistory "Point" 1 pointHistory
    let other := StructDef.ofHistory "Point" 9 [("x", .plain .char), ("z", .int)]
    let σ := Symbols.empty.behind [.enter, .declareStruct point]
    point.fields = [("x", .int), ("y", .int)] ∧ keyed.fields = [("x", .int), ("y", .int)] ∧
      StructDef.ofHistory "Point" 1 (pointHistory ++ [("y", .plain .char)]) = point ∧
      KeyedStruct.ofHistory "Point" 1 (pointHistory ++ [("y", .plain .char)]) = keyed ∧
      Symbols.empty.behind ([.enter, .declareStruct point] ++ [.declareStruct other]) = σ ∧
      (σ.behind [.declareStruct other, .leave]).field? "Point" "x" = some .int ∧
      (σ.behind [.declareStruct other, .leave]).field? "Point" "z" = none := by
  intro point keyed other σ
  obtain ⟨hfields, hkeyed, hsymbols⟩ := structs_consistent
  have hpoint := hfields "Point" 1 pointHistory
  have hpace := hkeyed "Point" 1 pointHistory
  have hrefused : point.addField "y" (.plain .char) =
      .error (.fieldRedeclared "Point" "y") := rfl
  have hrefused' : keyed.addField "y" (.plain .char) =
      .error (.fieldRedeclared "Point" "y") := by
    have hanswer := hpace.answers "y" (.plain .char)
    rw [hrefused] at hanswer
    cases hkeyed : keyed.addField "y" (.plain .char) with
    | ok extended => rw [hkeyed] at hanswer; cases hanswer
    | error refusal => rw [hkeyed] at hanswer; cases hanswer; rfl
  have hknown : (σ.struct? "Point").isSome = true := rfl
  have hlater := (hsymbols σ [.declareStruct other, .leave]).settled "Point"
  exact ⟨hpoint.fields, (congrArg StructDef.fields hpace.listed).trans hpoint.fields,
    hpoint.unchanged _ _ _ hrefused, hpace.unchanged _ _ _ hrefused',
    (hsymbols .empty [.enter, .declareStruct point]).unchanged other _ rfl,
    hlater "x" hknown, hlater "z" hknown⟩

end MiniC
