import MiniC.Syntax.Cursor

/-!
# `MiniC.Syntax.TypeSpec` — type specifiers

```text
typeSpec ::= typeWord+ | "struct" identifier
stars    ::= "*"*
```
-/

namespace MiniC

/-- A type specifier. -/
inductive TypeSpec
  | words (first : Token) (rest : List Token)
  | struct (keyword : Token) (name : Slot)
  | missing (hole : Hole)
deriving DecidableEq, Repr

/-- Whether a type specifier may begin with the kind. -/
def Kind.startsTypeSpec (kind : Kind) : Bool := kind.isTypeWord || kind == .keyword .kwStruct

namespace Cursor

/-- Read an identifier, or break. -/
def identifier (c : Cursor) (site : Site) : Parsed Slot c.residue := c.expect .ident site

/-- Read qualifiers and storage classes. -/
def qualifiers (c : Cursor) : Run c := c.takeWhile Kind.isQualifier

/-- Read pointer stars. -/
def stars (c : Cursor) : Run c := c.takeWhile (· == .operator .star)

/-- Read a type specifier. -/
def typeSpec (c : Cursor) : Parsed TypeSpec c.residue :=
  match c with
  | .reading (t :: ts) =>
    if t.kind == .keyword .kwStruct then
      ((Cursor.reading ts).identifier .structName).atMost.map (.struct t)
    else if t.kind.isTypeWord then
      ((Cursor.reading ts).takeWhile Kind.isTypeWord).parsed.map (.words t)
    else (Cursor.reading (t :: ts)).lacking .typeSpecifier .missing
  | c => c.lacking .typeSpecifier .missing

end Cursor

end MiniC
