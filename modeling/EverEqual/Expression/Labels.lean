import EverEqual.Expression.Cause
import EverEqual.Expression.Syntax

/-!
# Labels

A label stands in front of a statement, and jumps name it. A jump that leaves a statement or goes on
with its next turn names the label in front of a block around it; of several labels before a block,
the last one counts. A jump that goes to a statement names a label of its own block or of one around
it, which may also come later, unless a variable is declared on the way. In a function no two labels
have the same name, and each one is jumped to.

* `Jumps`: what is known on the way through a block;
* `Stmt.jumps`: follows the jumps of a statement;
* `checkLabels`: the labels of a function.
-/

namespace EverEqual.Expression

/-- What a label stands in front of. -/
inductive Labelled
  | loop
  | choice
  | other
deriving DecidableEq, Repr, Inhabited

/-- A label with what it stands in front of. -/
structure Front where
  name : String
  statement : Labelled
deriving DecidableEq, Repr, Inhabited

/-- What a label in front of a statement stands in front of. -/
def Stmt.labelledAs : Stmt → Labelled
  | .loop _ _ _ _ | .range _ _ _ _ _ => .loop
  | .choose _ _ _ | .chooseType _ _ _ _ | .chooseReady _ => .choice
  | _ => .other

/-- What is known on the way through a block. -/
structure Jumps where
  /-- The labels of the function that have been met. -/
  all : List Name := []
  /-- The names of those that are jumped to. -/
  used : List String := []
  /-- The names of those that are in this block. -/
  own : List String := []
  /-- The last label in this block. -/
  front : Option Front := none
  /-- The jumps to labels that have not been met. -/
  forward : List Name := []
  /-- Those of them that come before the last declaration of a variable, -/
  passed : List Name := []
  /-- and the line of that declaration. -/
  line : Nat := 0
deriving DecidableEq, Repr, Inhabited

/-- A walk through the statements of a function. -/
abbrev Walk := StateT Jumps (Except MeaningError)

namespace Jumps

/-- Notes that a variable is declared on a line. -/
def passVariable (line : Nat) : Walk Unit :=
  modify fun j => { j with passed := j.forward, line }

/-- Notes a label and the jumps that have been waiting for it. -/
def meet (n : Name) (statement : Labelled) : Walk Unit := do
  let j ← get
  if j.all.any (·.text = n.text) then throw ⟨n.position, .repeatedLabel n.text⟩
  else
    let arriving := j.forward.filter (·.text = n.text)
    match arriving.find? j.passed.contains with
    | some jump => throw ⟨jump.position, .overVariable n.text j.line⟩
    | none =>
      set { j with
        all := j.all ++ [n]
        used := if arriving.isEmpty then j.used else n.text :: j.used
        own := n.text :: j.own
        front := some ⟨n.text, statement⟩
        forward := j.forward.filter (·.text ≠ n.text) }

/-- Notes a jump to a label that has been met. -/
def use (n : Name) : Walk Unit :=
  modify fun j => { j with used := n.text :: j.used }

/-- Whether a jump can leave a statement or go on with its next turn. -/
def targets (word : String) : Labelled → Bool
  | .loop => true
  | .choice => word = "break"
  | .other => false

/-- Notes a jump. The labels in front of the blocks around it are given, and those inside them. -/
def jump (fronts : List Front) (outer : List String) (word : String) (n : Name) : Walk Unit := do
  if word = "goto" then
    if ((← get).own ++ outer).contains n.text then use n
    else modify fun j => { j with forward := j.forward ++ [n] }
  else if (fronts.find? (·.name = n.text)).any fun f => targets word f.statement then use n
  else throw ⟨n.position, .wrongLabel word n.text⟩

/-- Follows the jumps of a block inside this one, by the label in front of it. Jumps that wait for a
label go on waiting after it. -/
def inner (fronts : List Front) (outer : List String) (front : Option Front)
    (block : List Front → List String → Walk Unit) : Walk Unit := do
  let j ← get
  set ({ all := j.all, used := j.used, front } : Jumps)
  block (front.toList ++ fronts) (j.own ++ outer)
  let k ← get
  set { j with all := k.all, used := k.used, forward := j.forward ++ k.forward }

end Jumps

/-- The line on which a list of expressions starts. -/
def startLine (es : List Expr) : Nat :=
  (es.head?.map (·.position.line)).getD 0

namespace Stmt

mutual
/-- Follows the jumps of a statement. -/
def jumps (fronts : List Front) (outer : List String) : Stmt → Walk Unit
  | .declare p specs => if specs.any (·.kind = .var) then Jumps.passVariable p.line else return
  | .assign _ left ":=" _ => Jumps.passVariable (startLine left)
  | .jump _ word (some n) => Jumps.jump fronts outer word n
  | .labelled n s => do
    if n.text ≠ "_" then Jumps.meet n s.labelledAs
    jumps fronts outer s
  | .block body | .loop _ _ _ body | .range _ _ _ _ body | .branch _ _ body none => do
    Jumps.inner fronts outer (← get).front fun fronts outer => jumpsIn fronts outer body
  | .branch _ _ body (some s) => do
    Jumps.inner fronts outer (← get).front fun fronts outer => jumpsIn fronts outer body
    jumps fronts outer s
  | .choose _ _ clauses | .chooseType _ _ _ clauses => do
    Jumps.inner fronts outer (← get).front fun fronts outer => jumpsInClauses fronts outer clauses
  | .chooseReady clauses => do
    Jumps.inner fronts outer (← get).front fun fronts outer => jumpsInReady fronts outer clauses
  | _ => return
/-- Follows the jumps of several statements. -/
def jumpsIn (fronts : List Front) (outer : List String) : List Stmt → Walk Unit
  | [] => return
  | s :: ss => do
    jumps fronts outer s
    jumpsIn fronts outer ss
/-- Follows the jumps of several clauses. -/
def jumpsInClauses (fronts : List Front) (outer : List String) :
    List (Clause (List Expr) Stmt) → Walk Unit
  | [] => return
  | ⟨_, _, body⟩ :: cs => do
    Jumps.inner fronts outer none fun fronts outer => jumpsIn fronts outer body
    jumpsInClauses fronts outer cs
/-- Follows the jumps of several clauses that wait. -/
def jumpsInReady (fronts : List Front) (outer : List String) :
    List (Clause Stmt Stmt) → Walk Unit
  | [] => return
  | ⟨_, _, body⟩ :: cs => do
    Jumps.inner fronts outer none fun fronts outer => jumpsIn fronts outer body
    jumpsInReady fronts outer cs
end

end Stmt

/-- All labels that are jumped to must be there, and all that are there must be jumped to. -/
def checkLabels (body : List Stmt) : Except MeaningError Unit := do
  let (_, j) ← (Stmt.jumpsIn [] [] body).run {}
  match j.forward with
  | n :: _ =>
    let isInside := j.all.any (·.text = n.text)
    throw ⟨n.position, if isInside then .intoBlock n.text else .undefinedLabel n.text⟩
  | [] =>
    match j.all.find? fun n => !j.used.contains n.text with
    | some n => throw ⟨n.position, .unusedLabel n.text⟩
    | none => return

end EverEqual.Expression
