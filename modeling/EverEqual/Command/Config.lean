import EverEqual.Command.Flag
import EverEqual.Text.Blank

/-!
# The configuration of a run

The settings made by flags are turned into a configuration: pairs are split at the first equals
sign, package paths are trimmed, and what cannot be run is refused. If the version is asked for, the
rest does not matter and is left alone.

* `splitPair`: the two sides of a pair;
* `Config.ofSettings`: the configuration, or the first objection;
* `Config.ofArgs`: the configuration that a list of arguments asks for.
-/

namespace EverEqual

/-- Why arguments give no configuration. -/
inductive ConfigError
  | flag (e : FlagError)
  /-- A pair does not have two sides. -/
  | badPair (text : String)
  /-- One package to audit is given and the other is not. -/
  | halfAudit
  /-- There is nothing to check. -/
  | nothingToDo
  | blankPackage
  | negativeJobs
deriving DecidableEq, Repr, Inhabited

/-- The text of a configuration error. -/
def ConfigError.message : ConfigError → String
  | flag e => e.message
  | badPair text => "invalid --pair " ++ Text.quote text ++ ": want LEFT=RIGHT"
  | halfAudit => "--left-pkg and --right-pkg must be set together"
  | nothingToDo => "--pair or --left-pkg/--right-pkg is required"
  | blankPackage => "--pkg must not be empty"
  | negativeJobs => "--jobs must not be negative"

/-- What a run is asked to do. -/
structure Config where
  /-- The package in which expressions are read. -/
  pkg : String := "."
  /-- The pairs of expressions to check. -/
  pairs : List (String × String) := []
  /-- The packages whose types of one name are checked against each other. -/
  leftPkg : String := ""
  rightPkg : String := ""
  jobs : Int := 0
  directional : Bool := false
  /-- The file for the report; empty for the standard output. -/
  output : String := ""
  noColor : Bool := false
  showVersion : Bool := false
deriving DecidableEq, Repr, Inhabited

/-- The two sides of a pair, trimmed. Neither may be blank. -/
def splitPair (text : String) : Except ConfigError (String × String) :=
  let cs := text.toList
  let left := Text.trim (String.ofList (cs.takeWhile (· ≠ '=')))
  match cs.dropWhile (· ≠ '=') with
  | [] => .error (.badPair text)
  | _ :: rest =>
    let right := Text.trim (String.ofList rest)
    if left = "" || right = "" then .error (.badPair text) else .ok (left, right)

namespace Config

/-- Whether types of one name in two packages are checked. -/
def audit (c : Config) : Bool :=
  c.leftPkg ≠ "" && c.rightPkg ≠ ""

/-- Whether the report may be coloured. -/
def colorEnabled (c : Config) : Bool :=
  !c.noColor && c.output = ""

/-- The configuration that settings stand for, before anything is refused. -/
def ofPairs (s : Settings) (pairs : List (String × String)) : Config :=
  { pkg := s.pkg, pairs, leftPkg := Text.trim s.leftPkg, rightPkg := Text.trim s.rightPkg
    jobs := s.jobs, directional := s.directional, output := s.output, noColor := s.noColor }

/-- The first objection to a configuration. -/
def objection? (c : Config) : Option ConfigError :=
  if (c.leftPkg = "") ≠ (c.rightPkg = "") then some .halfAudit
  else if c.pairs.isEmpty && !c.audit then some .nothingToDo
  else if Text.trim c.pkg = "" then some .blankPackage
  else if c.jobs < 0 then some .negativeJobs
  else none

/-- The configuration that settings stand for. -/
def ofSettings (s : Settings) : Except ConfigError Config :=
  if s.version then
    .ok { pkg := s.pkg, leftPkg := s.leftPkg, rightPkg := s.rightPkg, jobs := s.jobs
          directional := s.directional, output := s.output, noColor := s.noColor
          showVersion := true }
  else do
    let c := ofPairs s (← s.pairs.mapM splitPair)
    match c.objection? with
    | some e => .error e
    | none => .ok c

/-- The configuration that arguments ask for. -/
def ofArgs (args : List String) : Except ConfigError Config :=
  match Settings.readAll {} args with
  | .error e => .error (.flag e)
  | .ok s => ofSettings s

end Config

end EverEqual
