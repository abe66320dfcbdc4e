import MiniC.Decl.Check
import MiniC.Stmt.Basic

/-!
# `MiniC.Proofs.Reading.Trace` — the holes of a tree, in the order of the text

Whoever works through a tree from left to right stops at its first hole, unless the hole is in a
part that is recovered from: then it is reported and the work goes on behind that part.  The trace
of a tree says which holes are reported on the way and where the work stops, if it does.

## Contents
- `Trace` with `andThen`, `settled` and `all`.
- `trace` of every kind of tree.
-/

namespace MiniC

/-- The holes reported on the way through a tree, and the hole at which the way ends. -/
structure Trace where
  reported : List Hole
  stop : Option Hole

namespace Trace

/-- The trace of a tree without holes. -/
def clear : Trace := ⟨[], none⟩

/-- The trace of a hole. -/
def stopped (hole : Hole) : Trace := ⟨[], some hole⟩

/-- The trace of one part and another behind it. -/
def andThen (first second : Trace) : Trace :=
  match first.stop with
  | some _ => first
  | none => ⟨first.reported ++ second.reported, second.stop⟩

/-- The trace of a part that is recovered from. -/
def settled (t : Trace) : Trace := ⟨t.reported ++ t.stop.toList, none⟩

/-- The trace of parts in sequence. -/
def all (parts : List Trace) : Trace := parts.foldr andThen clear

@[simp] theorem clear_andThen (t : Trace) : clear.andThen t = t := rfl

@[simp] theorem andThen_clear (t : Trace) : t.andThen clear = t := by
  obtain ⟨reported, _ | hole⟩ := t
  · simp [andThen, clear]
  · rfl

theorem andThen_assoc (s t u : Trace) : (s.andThen t).andThen u = s.andThen (t.andThen u) := by
  obtain ⟨reported, _ | hole⟩ := s
  · obtain ⟨reported', _ | hole'⟩ := t
    · simp [andThen]
    · rfl
  · rfl

@[simp] theorem all_nil : all [] = clear := rfl

@[simp] theorem all_cons (t : Trace) (parts : List Trace) :
    all (t :: parts) = t.andThen (all parts) := rfl

end Trace

/-! ## Expressions -/

/-- The trace of a token. -/
def Slot.trace : Slot → Trace
  | found _ => .clear
  | missing hole => .stopped hole

/-- The trace of a type specifier. -/
def TypeSpec.trace : TypeSpec → Trace
  | words _ _ => .clear
  | struct _ name => name.trace
  | missing hole => .stopped hole

mutual

/-- The trace of an expression. -/
def Expr.trace : Expr → Trace
  | .literal _ _ => .clear
  | .var _ => .clear
  | .emptyCall _ _ closing => closing.trace
  | .call _ _ first others closing =>
      first.trace.andThen (others.trace.andThen closing.trace)
  | .deref _ operand => operand.trace
  | .address _ operand => operand.trace
  | .unary _ operand => operand.trace
  | .stepped operand _ => operand.trace
  | .index base _ subscript closing =>
      base.trace.andThen (subscript.trace.andThen closing.trace)
  | .member base _ _ field => base.trace.andThen field.trace
  | .binary _ left _ right => left.trace.andThen right.trace
  | .conditional condition _ first colon second =>
      condition.trace.andThen (first.trace.andThen (colon.trace.andThen second.trace))
  | .group _ inner closing => inner.trace.andThen closing.trace
  | .sizeofType _ opening spec _ closing =>
      opening.trace.andThen (spec.trace.andThen closing.trace)
  | .sizeofExpr _ opening operand closing =>
      opening.trace.andThen (operand.trace.andThen closing.trace)
  | .missing hole => .stopped hole

/-- The trace of arguments. -/
def Trail.trace : Trail → Trace
  | .nil => .clear
  | .cons _ argument rest => argument.trace.andThen rest.trace

end

/-! ## Declarations -/

/-- The trace of the brackets behind a declared name. -/
def ArraySuffix.trace (suffix : ArraySuffix) : Trace :=
  suffix.size.trace.andThen suffix.closing.trace

/-- The trace of a declared variable. -/
def Declarator.trace (d : Declarator) : Trace :=
  d.name.trace.andThen ((d.array.elim .clear ArraySuffix.trace).andThen
    (d.init.elim .clear (·.2.trace)))

/-- The trace of a declaration. -/
def Declaration.trace (d : Declaration) : Trace :=
  d.spec.trace.andThen ((Trace.all (d.first.trace :: d.others.map (·.2.trace))).andThen
    d.semicolon.trace)

/-- The trace of a field. -/
def Field.trace (f : Field) : Trace :=
  f.spec.trace.andThen (f.name.trace.andThen
    ((f.array.elim .clear ArraySuffix.trace).andThen f.semicolon.trace))

/-- The trace of the definition of a struct, whose fields are recovered from one by one. -/
def StructDecl.trace (s : StructDecl) : Trace :=
  (Trace.all (s.fields.map (·.trace.settled))).andThen (s.closing.trace.andThen s.semicolon.trace)

/-- The trace of a parameter. -/
def Param.trace (p : Param) : Trace :=
  p.spec.trace.andThen (p.name.trace.andThen (p.array.elim .clear (·.closing.trace)))

/-- The trace of parameters. -/
def Params.trace : Params → Trace
  | none => .clear
  | void _ => .clear
  | list first others => Trace.all (first.trace :: others.map (·.2.trace))

/-- The trace of the header of a function. -/
def Header.trace (h : Header) : Trace :=
  h.spec.trace.andThen (h.name.trace.andThen (h.opening.trace.andThen
    (h.params.trace.andThen h.closing.trace)))

/-! ## Statements -/

/-- The trace of an assignment. -/
def Assignment.trace : Assignment → Trace
  | stepBefore _ place => place.path.trace
  | stepAfter place _ => place.path.trace
  | store place _ value => place.path.trace.andThen value.trace
  | update place _ value => place.path.trace.andThen value.trace
  | missing place hole => place.path.trace.andThen (.stopped hole)

/-- The trace of a condition. -/
def Condition.trace (c : Condition) : Trace :=
  c.opening.trace.andThen (c.test.trace.andThen c.closing.trace)

/-- The trace of the first part of the header of a `for`. -/
def ForInit.trace : ForInit → Trace
  | none _ => .clear
  | declaration d => d.trace
  | assignment a semicolon => a.trace.andThen semicolon.trace

mutual

/-- The trace of a statement. -/
def Stmt.trace : Stmt → Trace
  | .blank _ => .clear
  | .struct definition => definition.trace
  | .declaration d => d.trace
  | .prototype header _ => header.trace
  | .function header body => header.trace.andThen body.trace
  | .ifThen _ condition body => condition.trace.andThen body.trace
  | .ifElse _ condition body _ alternative =>
      condition.trace.andThen (body.trace.andThen alternative.trace)
  | .whileLoop _ condition body => condition.trace.andThen body.trace
  | .doWhile _ body whileWord condition semicolon =>
      body.trace.andThen (whileWord.trace.andThen (condition.trace.andThen semicolon.trace))
  | .forLoop _ opening init test semicolon update closing body =>
      opening.trace.andThen (init.trace.andThen ((test.elim .clear Expr.trace).andThen
        (semicolon.trace.andThen ((update.elim .clear Assignment.trace).andThen
          (closing.trace.andThen body.trace)))))
  | .switch _ opening subject closing bodyStart clauses bodyEnd =>
      opening.trace.andThen (subject.trace.andThen (closing.trace.andThen
        (bodyStart.trace.andThen (clauses.trace.andThen bodyEnd.trace))))
  | .exit _ _ => .clear
  | .exitWith _ value semicolon => value.trace.andThen semicolon.trace
  | .jump _ semicolon => semicolon.trace
  | .block _ body closing => body.trace.andThen closing.trace
  | .call call semicolon => call.trace.andThen semicolon.trace
  | .printf _ opening format arguments closing semicolon =>
      opening.trace.andThen (format.trace.andThen (arguments.trace.andThen
        (closing.trace.andThen semicolon.trace)))
  | .scanf _ opening format arguments closing semicolon =>
      opening.trace.andThen (format.trace.andThen (arguments.trace.andThen
        (closing.trace.andThen semicolon.trace)))
  | .assignment a semicolon => a.trace.andThen semicolon.trace
  | .missing hole => .stopped hole

/-- The trace of statements, which are recovered from one by one. -/
def Stmts.trace : Stmts → Trace
  | .nil => .clear
  | .cons first rest => first.trace.settled.andThen rest.trace

/-- The trace of the body of a switch, whose labels and statements are recovered from one by
one. -/
def Clauses.trace : Clauses → Trace
  | .nil => .clear
  | .case _ value colon rest => (value.trace.andThen colon.trace).settled.andThen rest.trace
  | .default _ colon rest => colon.trace.settled.andThen rest.trace
  | .stmt first rest => first.trace.settled.andThen rest.trace

end

end MiniC
