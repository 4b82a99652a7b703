import EverEqual.Check.Finding
import EverEqual.Comparison.Cache
import EverEqual.Describe.Describer
import EverEqual.Types.Mentioned

/-!
# Checking operands

Two operands are checked by describing both in one fresh draft and asking both ways whether values
can be equal. Types are tested against the interfaces given with the pair and against all interfaces
that the operands mention.

* `Operands.describe`: the descriptors of both operands;
* `check`: the finding on one pair;
* `checkAll`: the findings on a list of pairs, in the order of the list.
-/

namespace EverEqual

/-- A left and a right operand of an equality. -/
structure Operands where
  /-- The operands as they were written. -/
  leftText : String
  rightText : String
  left : Option Ty
  right : Option Ty
  /-- Interfaces to test types against besides those that the operands mention. -/
  interfaces : List Ty := []
deriving DecidableEq, Repr, Inhabited

/-- Why a pair has no finding. -/
inductive CheckError
  | describe (e : DescribeError)
  /-- The comparison of two operands, as they were written, has no answer. -/
  | compare (left right : String) (e : CompareError)
  /-- The check was called off. -/
  | canceled
deriving DecidableEq, Repr, Inhabited

/-- The text of a check error. -/
def CheckError.message : CheckError → String
  | describe e => e.message
  | compare left right e => "check " ++ left ++ " = " ++ right ++ ": " ++ e.message
  | canceled => "context canceled"

/-- The describer for a pair: it knows the interfaces of the pair and those its operands mention. -/
def Operands.describer (w : World) (p : Operands) : Describer :=
  ((Describer.register w {} p.interfaces).register w (w.interfacesIn p.left)).register w
    (w.interfacesIn p.right)

/-- The descriptors of both operands in one graph; the left one is described first. -/
def Operands.describe (w : World) (p : Operands) : Except DescribeError (Ref × Ref × Graph) := do
  let (l, draft) ← Draft.describe w ⟨{}, p.describer w⟩ p.left
  let (r, draft) ← Draft.describe w draft p.right
  return (l, r, draft.graph)

/-- How findings are made. -/
structure CheckOptions where
  /-- Whether only the direction in which an equality is written counts. -/
  directional : Bool := false
deriving DecidableEq, Repr, Inhabited

/-- An answer on two descriptors by way of a cache, with the operands named in an error. -/
def answerFor (cache : Option Cache) (g : Graph) (l r : Ref) (left right : String) :
    Except CheckError (Bool × Option Cache) :=
  match askCached cache g Rule.defaults (some l) (some r) with
  | .ok (a, cache) => .ok (a.equal, cache)
  | .error e => .error (.compare left right e)

/-- The finding on one pair, and the cache afterwards. -/
def check (w : World) (options : CheckOptions) (cache : Option Cache) (p : Operands) :
    Except CheckError (Finding × Option Cache) := do
  let (l, r, g) ← match p.describe w with
    | .ok described => pure described
    | .error e => throw (.describe e)
  let (forward, cache) ← answerFor cache g l r p.leftText p.rightText
  let (reverse, cache) ← answerFor cache g r l p.rightText p.leftText
  let finding : Finding :=
    { left := p.leftText, right := p.rightText, forward, reverse, leftKind := (g.node l).kind
      rightKind := (g.node r).kind, directional := options.directional }
  return (finding, cache)

/-- The findings on a list of pairs one after the other, and the cache afterwards. -/
def checkEach (w : World) (options : CheckOptions) :
    Option Cache → List Operands → Except CheckError (List Finding × Option Cache)
  | cache, [] => .ok ([], cache)
  | cache, p :: ps => do
    let (f, cache) ← check w options cache p
    let (fs, cache) ← checkEach w options cache ps
    return (f :: fs, cache)

/-- The findings on a list of pairs, unless the check was called off. No pairs need no check. -/
def checkAll (w : World) (options : CheckOptions) (cache : Option Cache) (canceled : Bool)
    (ps : List Operands) : Except CheckError (List Finding × Option Cache) :=
  if ps.isEmpty then .ok ([], cache)
  else if canceled then .error .canceled
  else checkEach w options cache ps

end EverEqual
