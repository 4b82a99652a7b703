import EverEqual.Expression.Syntax

/-!
# Statements that end a function

A function with results must not reach its closing brace. Its last statement has to be one after
which nothing more is done: a return, a jump, a loop without condition that is not left, or a
statement whose branches all end so.

* `Stmt.hasBreak`: whether a statement is left by a jump;
* `Stmt.terminates`: whether nothing more is done after a statement.
-/

namespace EverEqual.Expression

namespace Stmt

mutual
/-- Whether the statement around this one is left by a jump out of it: a jump to its label or, if
asked for, a jump without a label. -/
def hasBreak (label : Option String) (implicit : Bool) : Stmt → Bool
  | .jump _ "break" none => implicit
  | .jump _ "break" (some n) => label = some n.text
  | .labelled _ s => hasBreak label implicit s
  | .block body => hasBreakIn label implicit body
  | .branch _ _ body none => hasBreakIn label implicit body
  | .branch _ _ body (some s) => hasBreakIn label implicit body || hasBreak label implicit s
  | .choose _ _ clauses | .chooseType _ _ _ clauses =>
    label.isSome && hasBreakInClauses label clauses
  | .chooseReady clauses => label.isSome && hasBreakInReady label clauses
  | .loop _ _ _ body | .range _ _ _ _ body => label.isSome && hasBreakIn label false body
  | _ => false
/-- Whether one of several statements leaves the statement around them. -/
def hasBreakIn (label : Option String) (implicit : Bool) : List Stmt → Bool
  | [] => false
  | s :: ss => hasBreak label implicit s || hasBreakIn label implicit ss
/-- Whether one of several clauses leaves a statement around the choice. -/
def hasBreakInClauses (label : Option String) : List (Clause (List Expr) Stmt) → Bool
  | [] => false
  | ⟨_, _, body⟩ :: cs => hasBreakIn label false body || hasBreakInClauses label cs
/-- Whether one of several clauses that wait leaves a statement around the choice. -/
def hasBreakInReady (label : Option String) : List (Clause Stmt Stmt) → Bool
  | [] => false
  | ⟨_, _, body⟩ :: cs => hasBreakIn label false body || hasBreakInReady label cs
end

/-- Whether a statement goes on with the next clause of a choice. -/
def falls : Stmt → Bool
  | .jump _ "fallthrough" _ => true
  | _ => false

/-- Whether a call, by the position of its end, is one after which nothing more is done. -/
def isPanic (panics : List Position) (e : Expr) : Bool :=
  match e.unparen with
  | .call _ _ _ closing => panics.contains closing
  | _ => false

/-- Whether a statement is empty. -/
def isEmpty : Stmt → Bool
  | .empty => true
  | _ => false

mutual
/-- Whether nothing more is done after a statement that may have a label. -/
def terminates (panics : List Position) (label : Option String) : Stmt → Bool
  | .labelled n s => terminates panics (some n.text) s
  | .eval e => isPanic panics e
  | .giveBack _ _ => true
  | .jump _ word _ => word = "goto" || word = "fallthrough"
  | .block body => listTerminates panics body
  | .branch _ _ body (some s) => listTerminates panics body && terminates panics none s
  | .choose _ _ clauses | .chooseType _ _ _ clauses =>
    clauses.any (·.guard.isNone) && clausesTerminate panics label clauses
  | .chooseReady clauses => readyTerminates panics label clauses
  | .loop _ none _ body => !hasBreakIn label true body
  | _ => false
/-- Whether nothing more is done after several statements; empty ones at the end do not count. -/
def listTerminates (panics : List Position) : List Stmt → Bool
  | [] => false
  | s :: ss => if ss.all isEmpty then terminates panics none s else listTerminates panics ss
/-- Whether nothing more is done after any of several clauses. -/
def clausesTerminate (panics : List Position) (label : Option String) :
    List (Clause (List Expr) Stmt) → Bool
  | [] => true
  | ⟨_, _, body⟩ :: cs =>
    listTerminates panics body && !hasBreakIn label true body && clausesTerminate panics label cs
/-- Whether nothing more is done after any of several clauses that wait. -/
def readyTerminates (panics : List Position) (label : Option String) :
    List (Clause Stmt Stmt) → Bool
  | [] => true
  | ⟨_, _, body⟩ :: cs =>
    listTerminates panics body && !hasBreakIn label true body && readyTerminates panics label cs
end

end Stmt

end EverEqual.Expression
