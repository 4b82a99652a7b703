import EverEqual.Check.Checker
import EverEqual.Check.Match
import EverEqual.Command.Config
import EverEqual.Expression.Meaning
import EverEqual.Report

/-!
# A run

A run gathers the pairs of operands that a configuration asks for, checks them, warns about operands
that could not be resolved, and delivers one report. Pairs of expressions come first, in the order
given, then the types of one name in the two packages to audit, in the order of the names. Nothing
is delivered unless all pairs are there and have been checked.

* `World.expressionPairs`, `World.auditPairs`: the two sources of pairs;
* `run`: the whole run.
-/

namespace EverEqual

/-- Why a run fails. -/
inductive RunError
  | loadPackage (e : LoadError)
  | leftOperand (e : EvalError)
  | rightOperand (e : EvalError)
  | loadLeft (e : LoadError)
  | loadRight (e : LoadError)
  /-- Two packages have no type of one name. -/
  | noMatches (left right : String)
  | check (e : CheckError)
  | report (e : ReportError)
deriving DecidableEq, Repr, Inhabited

/-- The text of a run error. -/
def RunError.message : RunError → String
  | loadPackage e => "load pkg: " ++ e.message
  | leftOperand e => "left operand: " ++ e.message
  | rightOperand e => "right operand: " ++ e.message
  | loadLeft e => "load left: " ++ e.message
  | loadRight e => "load right: " ++ e.message
  | noMatches left right =>
    "no matching types found between " ++ Text.quote left ++ " and " ++ Text.quote right
  | check e => "check: " ++ e.message
  | report e => "report: " ++ e.message

/-- The surroundings of a run. -/
structure Surroundings where
  /-- Whether the standard output can show colours. -/
  terminal : Bool := false
  /-- Whether the run was called off before it started to check. -/
  canceled : Bool := false
  /-- Why a destination cannot be written to. -/
  refusal : String → Option String := fun _ => none

/-- What a run did. -/
structure RunResult where
  /-- The number of pairs that can never be equal. -/
  failing : Nat
  delivery : Delivery
deriving DecidableEq, Repr, Inhabited

namespace World

/-- A result with its error named for the stage of the run. -/
def during {α ε : Type} (stage : ε → RunError) : Except ε α → Except RunError α
  | .ok a => .ok a
  | .error e => .error (stage e)

/-- The pair of operands that two expressions stand for. -/
def expressionPair (w : World) (path : String) (interfaces : List Ty) (pair : String × String) :
    Except RunError Operands := do
  let left ← during .leftOperand (w.evaluate path pair.1)
  let right ← during .rightOperand (w.evaluate path pair.2)
  return { leftText := pair.1, rightText := pair.2, left := some left, right := some right
           interfaces }

/-- The pairs of expressions of a configuration. -/
def expressionPairs (w : World) (c : Config) : Except RunError (List Operands) := do
  if c.pairs.isEmpty then return []
  else
    let interfaces ← during .loadPackage (w.exportedInterfaces c.pkg)
    c.pairs.mapM (w.expressionPair c.pkg interfaces)

/-- The pairs of types of one name in the two packages to audit. -/
def auditPairs (w : World) (c : Config) : Except RunError (List Operands) := do
  let left ← during .loadLeft (w.exportedTypes c.leftPkg)
  let right ← during .loadRight (w.exportedTypes c.rightPkg)
  let leftInterfaces ← during .loadLeft (w.exportedInterfaces c.leftPkg)
  let rightInterfaces ← during .loadRight (w.exportedInterfaces c.rightPkg)
  return (matchByName ExportedType.name left right).map fun (l, r) =>
    { leftText := w.shortTypeString l.type, rightText := w.shortTypeString r.type
      left := some l.type, right := some r.type
      interfaces := leftInterfaces ++ rightInterfaces }

/-- All pairs of a configuration; there is at least one. -/
def pairs (w : World) (c : Config) : Except RunError (List Operands) := do
  let expressions ← w.expressionPairs c
  let audited ← if c.audit then w.auditPairs c else pure []
  match expressions ++ audited with
  | [] => .error (.noMatches c.leftPkg c.rightPkg)
  | ps => .ok ps

end World

/-- The warning about a finding with an operand that could not be resolved. -/
def Finding.warning (f : Finding) : String :=
  "eqcheck: warning: " ++ f.left ++ " (" ++ f.leftKind.name ++ ") == " ++ f.right ++ " (" ++
    f.rightKind.name ++ "): unresolved operand, assumed comparable\n"

/-- The findings of a run. -/
def findings (w : World) (c : Config) (canceled : Bool) : Except RunError (List Finding) := do
  let pairs ← w.pairs c
  let options : CheckOptions := { directional := c.directional }
  let (fs, _) ← World.during .check (checkAll w options (some {}) canceled pairs)
  return fs

/-- The number of findings that can never be equal. -/
def failing (fs : List Finding) : Nat :=
  fs.countP (!·.mayBeEqual)

/-- A run: the warnings, and what it did or why it failed. -/
def run (w : World) (c : Config) (around : Surroundings) : String × Except RunError RunResult :=
  match findings w c around.canceled with
  | .error e => ("", .error e)
  | .ok fs =>
    let warnings := String.join ((fs.filter (·.hasUnknown)).map Finding.warning)
    let text := Report.render (c.colorEnabled && around.terminal) fs
    match Report.deliver around.refusal c.output text with
    | .error e => (warnings, .error (.report e))
    | .ok delivery => (warnings, .ok ⟨failing fs, delivery⟩)

end EverEqual
