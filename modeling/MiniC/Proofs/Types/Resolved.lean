import MiniC.Proofs.Syntactic
import MiniC.Proofs.Types.Carrying
import MiniC.Proofs.Types.Keeping

/-!
# `MiniC.Proofs.Types.Resolved` — an analysis without diagnostics leaves resolved types

Declarations keep types settled, and what they keep statements keep, whatever is around them.  So
at every moment of the analysis of a program the types of all that is declared are settled, and
behind it those of the functions and the structs are.

## Contents
- `lasting_settled`, `Declaring.preserves_settled`: **declarations carry settled types on.**
- `TokenStream.moments`: the moments of an analysis.
- `types_resolved`: **the structs that types mention are declared or complained about.**
-/

namespace MiniC

open Check (Course)

/-! ## Declarations among statements -/

/-- Scopes forget types and do not add any, and issues only make more structs known. -/
theorem lasting_settled : Lasting Moment.Settled where
  issues h _ := ⟨h.symbols.issues, fun s hs => (h.struct s hs).issues⟩
  enter h := ⟨h.symbols.enter, nofun⟩
  leave h := ⟨h.symbols.leave, nofun⟩

theorem Check.Course.Keeps.carries {α : Type} {m : Check α} {course : m.Course} {σ : Symbols}
    {found : List Issue} (h : course.KeepsTypes σ found) :
    course.Carries Moment.Settled σ found fun _ _ => True :=
  ⟨h.moments, ⟨h.settled, nofun⟩, fun _ _ => trivial⟩

/-- Whatever declares names keeps types settled. -/
theorem Declaring.preserves_settled (part : Declaring) : part.Preserves Moment.Settled := by
  cases part with
  | declaration d => exact fun σ found hσ => (d.keeps hσ.symbols).carries
  | struct s => exact fun σ found hσ => (s.keeps hσ.symbols).carries
  | function h defined => exact fun σ found hσ => (h.keeps hσ.symbols defined).carries

/-! ## Analyses -/

/-- The moments of the analysis of what the rest of a stream holds. -/
def TokenStream.moments (stream : TokenStream) : List Moment :=
  (Course.inScope ((Stmts.ofList stream.parts).course .global)).moments .empty

theorem TokenStream.keeps (stream : TokenStream) :
    (Course.inScope ((Stmts.ofList stream.parts).course .global)).KeepsTypes .empty [] := by
  have hstatements := (Stmts.ofList stream.parts).preserves lasting_settled .global
    fun part _ => part.preserves_settled
  have hcarries :=
    Check.Course.Preserves.inScope lasting_settled hstatements .empty [] ⟨nofun, nofun⟩
  -- no struct was known before, so none gets lost
  exact ⟨hcarries.moments, .of_structs nofun (List.nil_subset _), hcarries.behind.symbols,
    fun _ _ => trivial⟩

/-- A complaint that was found is among the diagnostics. -/
theorem Reported.diagnostic {stream : TokenStream} {name : String}
    (h : Reported stream.issues name) :
    ∃ d ∈ stream.analyze.diagnostics,
      d.severity = .semantic ∧ d.message = s!"Struct '{name}' not declared" := by
  obtain ⟨site, hsite⟩ := h
  exact ⟨_, List.mem_map_of_mem hsite, rfl, rfl⟩

/-- **The structs that types mention are declared or complained about.**  Behind an analysis no
function and no struct has an unknown type, and a struct that one of their types mentions is
declared, or there is a diagnostic that it is not; without diagnostics, all of them are declared.

At every moment of the analysis the same is true of all that is declared, the variables included,
and of the fields of the struct that is being declared, which may mention that struct; what was
found until then stands at the front of what is found in the end.  So whenever an access to a
member of a value of known type stays silent and has the type unknown, it was reported before
that the struct of the value is not declared. -/
theorem types_resolved (tokens : List Token) :
    let stream := TokenStream.ofTokens tokens
    (∀ t ∈ stream.analyze.symbols.registered, t.base ≠ .unknown ∧
      ∀ name, t.base = .struct name →
        (stream.analyze.symbols.struct? name).isSome = true ∨
          ∃ d ∈ stream.analyze.diagnostics,
            d.severity = .semantic ∧ d.message = s!"Struct '{name}' not declared") ∧
    (stream.analyze.diagnostics = [] → ∀ t ∈ stream.analyze.symbols.registered, ∀ name,
      t.base = .struct name → (stream.analyze.symbols.struct? name).isSome = true) ∧
    ∀ moment ∈ stream.moments,
      moment.found <+: stream.issues ∧ moment.Settled ∧
        ∀ (base : Expr) (t : CType) (access : Access) (operator field : Token),
          (base.typing moment.symbols).outcome = .ok t → t.base ≠ .unknown →
          memberType moment.symbols access operator t field = pure .unknown →
          ∃ name, t.base = .struct name ∧ moment.symbols.struct? name = none ∧
            Reported moment.found name := by
  intro stream
  have hkeeps := stream.keeps
  have hresolved : ∀ t ∈ stream.analyze.symbols.registered, t.base ≠ .unknown ∧
      ∀ name, t.base = .struct name →
        (stream.analyze.symbols.struct? name).isSome = true ∨
          ∃ d ∈ stream.analyze.diagnostics,
            d.severity = .semantic ∧ d.message = s!"Struct '{name}' not declared" := by
    intro t ht
    obtain ⟨hbase, hknows⟩ := hkeeps.settled t (List.mem_append_right _ ht)
    refine ⟨hbase, fun name hname => ?_⟩
    -- behind the analysis no struct is being declared, so none is allowed undeclared
    rcases hknows name hname with hdeclared | hreported | hallowed
    · exact .inl hdeclared
    · exact .inr hreported.diagnostic
    · cases hallowed
  refine ⟨hresolved, fun hclean t ht name hname => ?_, fun moment hmoment => ?_⟩
  · rcases (hresolved t ht).2 name hname with hdeclared | ⟨d, hd, -⟩
    · exact hdeclared
    · rw [hclean] at hd
      cases hd
  · have hsettled : moment.Settled := hkeeps.moments moment hmoment
    exact ⟨Check.Course.prefix_of_moments _ .empty moment hmoment, hsettled,
      fun _ _ _ _ _ ht hknown hsilent => silent_reported hsettled.symbols ht hknown hsilent⟩

/-- ```text
struct s {
  struct s *next;
};
```
-/
def linked : List Token :=
  [⟨.keyword .kwStruct, "struct", ⟨1, 1⟩⟩, ⟨.ident, "s", ⟨1, 8⟩⟩, ⟨.punct .lbrace, "\x7b", ⟨1, 10⟩⟩,
    ⟨.keyword .kwStruct, "struct", ⟨2, 3⟩⟩, ⟨.ident, "s", ⟨2, 10⟩⟩, ⟨.operator .star, "*", ⟨2, 12⟩⟩,
    ⟨.ident, "next", ⟨2, 13⟩⟩, ⟨.punct .semicolon, ";", ⟨2, 17⟩⟩, ⟨.punct .rbrace, "\x7d", ⟨3, 1⟩⟩,
    ⟨.punct .semicolon, ";", ⟨3, 2⟩⟩]

/-- The struct gets its field before it is declared; then its closing tokens are looked at, and
what stands behind it. -/
example : (TokenStream.ofTokens linked).moments.map
      (fun moment => (moment.struct.map (·.fields.length), moment.symbols.structs.length)) =
    [(some 0, 0), (some 1, 0), (none, 0), (none, 1), (none, 1), (none, 1), (none, 1), (none, 1),
      (none, 1), (none, 1)] := by
  decide +kernel

end MiniC
