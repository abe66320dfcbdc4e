import MiniC.Decl.Basic

/-!
# `MiniC.Stmt.Basic` — the syntax trees of statements

## Contents
- `Place`, `Assignment`: what is written to, and how.
- `Condition`, `ForInit`: parts of control statements.
- `Stmt`, `Stmts` and `Clauses`, the contents of a switch body.
-/

namespace MiniC

/-! ## Assignments -/

/-- Something that can be written to: stars in front of a variable, with subscripts and member
accesses behind it.  The path is the variable with what stands behind. -/
structure Place where
  stars : List Token
  path : Expr
deriving DecidableEq

/-- An assignment, without a semicolon. -/
inductive Assignment
  /-- `++` or `--` in front of a place. -/
  | stepBefore (operator : Token) (place : Place)
  /-- `++` or `--` behind a place. -/
  | stepAfter (place : Place) (operator : Token)
  /-- `=` between a place and a value. -/
  | store (place : Place) (sign : Token) (value : Expr)
  /-- A compound assignment operator between a place and a value. -/
  | update (place : Place) (operator : Token) (value : Expr)
  /-- A place with no assignment operator behind it. -/
  | missing (place : Place) (hole : Hole)
deriving DecidableEq

/-! ## Parts of control statements -/

/-- A condition in parentheses. -/
structure Condition where
  opening : Slot
  test : Expr
  closing : Slot
deriving DecidableEq

/-- The first part of the header of a `for`. -/
inductive ForInit
  | none (semicolon : Token)
  | declaration (declaration : Declaration)
  | assignment (assignment : Assignment) (semicolon : Slot)
deriving DecidableEq

/-! ## Statements -/

mutual
/-- A statement. -/
inductive Stmt
  /-- A lone semicolon or a directive. -/
  | blank (token : Token)
  | struct (definition : StructDecl)
  | declaration (declaration : Declaration)
  | prototype (header : Header) (semicolon : Token)
  | function (header : Header) (body : Stmt)
  | ifThen (keyword : Token) (condition : Condition) (body : Stmt)
  | ifElse (keyword : Token) (condition : Condition) (body : Stmt) (elseWord : Token)
      (alternative : Stmt)
  | whileLoop (keyword : Token) (condition : Condition) (body : Stmt)
  | doWhile (keyword : Token) (body : Stmt) (whileWord : Slot) (condition : Condition)
      (semicolon : Slot)
  | forLoop (keyword : Token) (opening : Slot) (init : ForInit) (test : Option Expr)
      (semicolon : Slot) (update : Option Assignment) (closing : Slot) (body : Stmt)
  | switch (keyword : Token) (opening : Slot) (subject : Expr) (closing : Slot)
      (bodyStart : Slot) (clauses : Clauses) (bodyEnd : Slot)
  | exit (keyword : Token) (semicolon : Token)
  | exitWith (keyword : Token) (value : Expr) (semicolon : Slot)
  /-- `break` or `continue`. -/
  | jump (keyword : Token) (semicolon : Slot)
  | block (opening : Token) (body : Stmts) (closing : Slot)
  | call (call : Expr) (semicolon : Slot)
  | printf (name : Token) (opening : Slot) (format : Expr) (arguments : Trail) (closing : Slot)
      (semicolon : Slot)
  | scanf (name : Token) (opening : Slot) (format : Slot) (arguments : Trail) (closing : Slot)
      (semicolon : Slot)
  | assignment (assignment : Assignment) (semicolon : Slot)
  | missing (hole : Hole)

/-- Statements in sequence. -/
inductive Stmts
  | nil
  | cons (first : Stmt) (rest : Stmts)

/-- The labels and statements in the body of a switch. -/
inductive Clauses
  | nil
  | case (keyword : Token) (value : Slot) (colon : Slot) (rest : Clauses)
  | default (keyword : Token) (colon : Slot) (rest : Clauses)
  | stmt (first : Stmt) (rest : Clauses)
end

deriving instance DecidableEq for Stmt, Stmts, Clauses

/-- Whether the statement is a block. -/
def Stmt.isBlock : Stmt → Bool
  | block _ _ _ => true
  | _ => false

/-- The statements of a list in sequence. -/
def Stmts.ofList : List Stmt → Stmts
  | [] => .nil
  | first :: rest => .cons first (ofList rest)

end MiniC
