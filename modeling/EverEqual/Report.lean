import EverEqual.Check.Finding

/-!
# Reports

A report has one line for each finding, with the status in a column of its own, and a last line that
counts findings, failures and one-way findings. The status may be coloured; the padding is inside
the colour, so that columns stay aligned.

* `Report.render`: the text of a report;
* `Report.deliver`: where the text goes, or why it cannot go there.
-/

namespace EverEqual

/-- Why a report is not delivered. -/
inductive ReportError
  | write (reason : String)
deriving DecidableEq, Repr, Inhabited

/-- The text of a report error. -/
def ReportError.message : ReportError → String
  | write reason => "write: " ++ reason

/-- A delivered report: what was printed and what a file holds. -/
structure Delivery where
  printed : String := ""
  file : Option String := none
deriving DecidableEq, Repr, Inhabited

/-- The colour of a status: how it starts and how it ends. -/
def Status.color : Status → String × String
  | ok => ("\x1b[32m", "\x1b[0m")
  | oneWay => ("\x1b[33m", "\x1b[0m")
  | alwaysFails => ("\x1b[31;1m", "\x1b[0;22m")

/-- The width of the column of statuses. -/
def statusWidth : Nat := 12

/-- A status in its column. -/
def Status.column (s : Status) (colored : Bool) : String :=
  let padded := s.text ++ String.ofList (List.replicate (statusWidth - s.text.length) ' ')
  if colored then s.color.1 ++ padded ++ s.color.2 else padded

namespace Report

/-- The line of one finding. -/
def row (colored : Bool) (f : Finding) : String :=
  f.status.column colored ++ "  " ++ f.left ++ " == " ++ f.right ++ "  (" ++ f.leftKind.name ++
    " vs " ++ f.rightKind.name ++ ")" ++ (if f.note = "" then "" else "  " ++ f.note) ++ "\n"

/-- The number of findings with a status. -/
def count (s : Status) (fs : List Finding) : Nat :=
  fs.countP (·.status = s)

/-- The last line. -/
def summary (fs : List Finding) : String :=
  "\n" ++ toString fs.length ++ " checked, " ++ toString (count .alwaysFails fs) ++
    " always fail, " ++ toString (count .oneWay fs) ++ " one-way\n"

/-- The text of a report. -/
def render (colored : Bool) (fs : List Finding) : String :=
  String.join (fs.map (row colored)) ++ summary fs

/-- Delivers a text to a file, or to the standard output if the name is empty. The first argument
says why a destination cannot be written to. -/
def deliver (refusal : String → Option String) (output text : String) :
    Except ReportError Delivery :=
  match refusal output with
  | some reason => .error (.write reason)
  | none => .ok (if output = "" then { printed := text } else { file := some text })

end Report

end EverEqual
