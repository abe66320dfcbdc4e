import MiniC.Proofs.Editing.Analyses
import Mathlib.Logic.Equiv.Basic

/-!
# `MiniC.Proofs.Editing.Renaming` — an analysis does not look into names

A text in which the identifiers are spelled differently, each everywhere in the same way and
different ones differently, is an edition of it in which every token stays where it is.  An
analysis knows the names of the calls that a format string rules and the name of the main
function, which has a token of its own; a spelling that keeps these three changes nothing but the
names in what an analysis declares and in what it says.

## Contents
- `Token.renamed`: what is spelled differently.
- `Analysis.Renamed`, `analysis_renamed`: **what names are spelled like does not matter**.
-/

namespace MiniC

/-- A token whose lexeme is spelled differently if it is an identifier. -/
def Token.renamed (r : String → String) (t : Token) : Token :=
  { t with lexeme := if t.kind = .ident then r t.lexeme else t.lexeme }

/-- An analysis of renamed tokens: the verdict is the same, and so is where it was reached; what
was declared is renamed. -/
structure Analysis.Renamed (a a' : Analysis) (r : String → String) : Prop extends
    a.Agrees a' where
  diagnostics : a'.diagnostics.map (fun d => (d.severity, d.location)) =
    a.diagnostics.map fun d => (d.severity, d.location)
  functions : a'.symbols.functions = a.symbols.functions.map (Function.renamed r)
  structs : a'.symbols.structs = a.symbols.structs.map (StructDef.renamed r)

section

variable {E : Edition} (hplace : E.place = id)
include hplace

theorem Function.Edited.eq_renamed {f f' : Function} (h : f.Edited E f') :
    f' = f.renamed E.name := by
  obtain ⟨t, -, -, hline, hline'⟩ := h.declared
  -- no token is moved, so the declaration stays on its line
  rw [hplace, id_eq, ← hline] at hline'
  rw [h.eq_onLine, hline']
  rfl

theorem StructDef.Edited.eq_renamed {s s' : StructDef} (h : s.Edited E s') :
    s' = s.renamed E.name := by
  obtain ⟨t, -, -, hline, hline'⟩ := h.declared
  rw [hplace, id_eq, ← hline] at hline'
  rw [h.eq_onLine, hline']
  rfl

end

theorem map_of_forall₂ {α β : Type} {R : α → β → Prop} {f : α → β} {l : List α} {l' : List β}
    (hR : ∀ a b, R a b → b = f a) (h : List.Forall₂ R l l') : l' = l.map f := by
  induction h with
  | nil => rfl
  | cons hab _ ih => rw [List.map_cons, hR _ _ hab, ih]

/-- **What names are spelled like does not matter:** if a spelling keeps different names
different, and keeps the names that are known to an analysis, then the analysis of the renamed
tokens has the same verdict at the same places, and declares the same under the new names. -/
theorem analysis_renamed (tokens : List Token) (r : String → String)
    (hinjective : Function.Injective r) (hprintf : r "printf" = "printf")
    (hscanf : r "scanf" = "scanf") (hmain : r "main" = "main")
    (hspelled : ∀ t ∈ tokens, t.kind = .keyword .kwMain → t.lexeme = "main") :
    (TokenStream.ofTokens tokens).analyze.Renamed
      (TokenStream.ofTokens (tokens.map (Token.renamed r))).analyze r := by
  let E : Edition :=
    { text := tokens
      name := r
      place := id
      injective := hinjective
      printf := hprintf
      scanf := hscanf
      main := fun t ht hkind => by rw [hspelled t ht hkind, hmain] }
  have hsymbols := E.checked.1
  have hdiagnostics := E.diagnostics_agree
  exact ⟨E.agrees, hdiagnostics,
    map_of_forall₂ (fun _ _ => Function.Edited.eq_renamed rfl) hsymbols.functions,
    map_of_forall₂ (fun _ _ => StructDef.Edited.eq_renamed rfl) hsymbols.structs⟩

/-- ```text
struct s {
  int s;
};
int main(struct s s) {
  return s.t;
}
```
-/
def fieldlessAccess : List Token :=
  [⟨.keyword .kwStruct, "struct", ⟨1, 1⟩⟩, ⟨.ident, "s", ⟨1, 8⟩⟩,
    ⟨.punct .lbrace, "\x7b", ⟨1, 10⟩⟩,
    ⟨.keyword (.type .int), "int", ⟨2, 3⟩⟩, ⟨.ident, "s", ⟨2, 7⟩⟩, ⟨.punct .semicolon, ";", ⟨2, 8⟩⟩,
    ⟨.punct .rbrace, "\x7d", ⟨3, 1⟩⟩, ⟨.punct .semicolon, ";", ⟨3, 2⟩⟩,
    ⟨.keyword (.type .int), "int", ⟨4, 1⟩⟩, ⟨.keyword .kwMain, "main", ⟨4, 5⟩⟩,
    ⟨.punct .lparen, "(", ⟨4, 9⟩⟩, ⟨.keyword .kwStruct, "struct", ⟨4, 10⟩⟩,
    ⟨.ident, "s", ⟨4, 17⟩⟩, ⟨.ident, "s", ⟨4, 19⟩⟩, ⟨.punct .rparen, ")", ⟨4, 20⟩⟩,
    ⟨.punct .lbrace, "\x7b", ⟨4, 22⟩⟩, ⟨.keyword .kwReturn, "return", ⟨5, 3⟩⟩,
    ⟨.ident, "s", ⟨5, 10⟩⟩, ⟨.punct .dot, ".", ⟨5, 11⟩⟩, ⟨.ident, "t", ⟨5, 12⟩⟩,
    ⟨.punct .semicolon, ";", ⟨5, 13⟩⟩, ⟨.punct .rbrace, "\x7d", ⟨6, 1⟩⟩]

/-- A struct, its field and a parameter of its type are all called `s`, and then all `u`. -/
theorem fieldlessAccess_renamed :
    (TokenStream.ofTokens fieldlessAccess).analyze.diagnostics.map Diagnostic.message =
        ["Struct 's' has no field 't'"] ∧
      (TokenStream.ofTokens
          (fieldlessAccess.map (Token.renamed (Equiv.swap "s" "u")))).analyze.diagnostics.map
          Diagnostic.message = ["Struct 'u' has no field 't'"] ∧
      (TokenStream.ofTokens fieldlessAccess).analyze.Renamed
        (TokenStream.ofTokens (fieldlessAccess.map (Token.renamed (Equiv.swap "s" "u")))).analyze
        (Equiv.swap "s" "u") :=
  ⟨by decide +kernel, by decide +kernel,
    analysis_renamed fieldlessAccess (Equiv.swap "s" "u") (Equiv.injective _)
      (Equiv.swap_apply_of_ne_of_ne (by decide) (by decide))
      (Equiv.swap_apply_of_ne_of_ne (by decide) (by decide))
      (Equiv.swap_apply_of_ne_of_ne (by decide) (by decide)) (by decide)⟩

end MiniC
