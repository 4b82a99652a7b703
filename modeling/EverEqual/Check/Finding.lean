import EverEqual.Descriptor.Kind

/-!
# Findings

The outcome of checking an equality between two operands both ways. Unless only the written
direction counts, the equality may hold if either direction allows it.

* `Finding.mayBeEqual`, `Finding.status`: the verdict on the equality;
* `Finding.hasUnknown`, `Finding.note`: what a reader should know about it.
-/

namespace EverEqual

/-- How a finding is reported. -/
inductive Status
  /-- Both directions agree that the equality may hold. -/
  | ok
  /-- The equality may hold, but the directions differ. -/
  | oneWay
  /-- The equality never holds. -/
  | alwaysFails
deriving DecidableEq, Repr, Inhabited

/-- The word for a status. -/
def Status.text : Status → String
  | ok => "ok"
  | oneWay => "one-way"
  | alwaysFails => "always-fails"

/-- The outcome of checking one pair of operands both ways. -/
structure Finding where
  /-- The operands as they were written. -/
  left : String
  right : String
  forward : Bool
  reverse : Bool
  leftKind : Kind
  rightKind : Kind
  /-- Whether only the forward direction counts. -/
  directional : Bool
deriving DecidableEq, Repr, Inhabited

namespace Finding

/-- Whether the equality could hold. -/
def mayBeEqual (f : Finding) : Bool :=
  if f.directional then f.forward else f.forward || f.reverse

/-- How the finding is reported. -/
def status (f : Finding) : Status :=
  if !f.mayBeEqual then .alwaysFails
  else if f.forward ≠ f.reverse then .oneWay
  else .ok

/-- Whether an operand could not be resolved. -/
def hasUnknown (f : Finding) : Bool :=
  f.leftKind = .unknown || f.rightKind = .unknown

/-- What is remarked on a finding; empty if there is nothing. -/
def note (f : Finding) : String :=
  if f.hasUnknown then "unresolved operand"
  else match f.forward, f.reverse with
    | true, false => "left to right only"
    | false, true => "right to left only"
    | _, _ => ""

end Finding

end EverEqual
