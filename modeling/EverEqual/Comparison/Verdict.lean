/-!
# Verdicts

The outcome of comparing two types: no two values can be equal, some could be, or the question was
met again while it was being answered. Verdicts are ordered by how much they allow, and what has to
hold of all parts is the least verdict of the parts.

* `Verdict.and`: the least of two verdicts, with its laws;
* `Verdict.code`, `Verdict.label`: the number of a verdict and the word for a number.
-/

namespace EverEqual

/-- The outcome of comparing two types. -/
inductive Verdict
  /-- No value of the one type equals a value of the other. -/
  | incompatible
  /-- The pair is being compared already. -/
  | assumed
  /-- Some value of the one type could equal a value of the other. -/
  | compatible
deriving DecidableEq, Repr, Inhabited

namespace Verdict

/-- The verdict on parts that must all be compatible. -/
def and : Verdict → Verdict → Verdict
  | incompatible, _ => incompatible
  | _, incompatible => incompatible
  | assumed, _ => assumed
  | _, assumed => assumed
  | compatible, compatible => compatible

/-- The number of a verdict. -/
def code : Verdict → Int
  | incompatible => 0
  | assumed => 1
  | compatible => 2

/-- The word for the verdict with a given number. -/
def label : Int → String
  | 0 => "incompatible"
  | 1 => "assumed"
  | 2 => "compatible"
  | n => "verdict(" ++ toString n ++ ")"

/-- The word for a verdict. -/
def name (v : Verdict) : String := label v.code

@[simp] theorem compatible_and (v : Verdict) : compatible.and v = v := by
  cases v <;> rfl

@[simp] theorem incompatible_and (v : Verdict) : incompatible.and v = incompatible := by
  cases v <;> rfl

end Verdict

end EverEqual
