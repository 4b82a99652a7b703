import EverEqual.Text.Integer
import EverEqual.Text.Quoted

/-!
# Flags

The flags of the command line and how a list of arguments sets them. A flag is written by its long
name after two dashes or by its letter after one; letters may be grouped. A value follows after an
equals sign, or as the rest of the group, or as the next argument; a switch takes one only after an
equals sign. Arguments that are no flags are ignored, and two dashes alone end the flags. A later
flag overrides an earlier one, except that pairs are gathered.

* `Flag`, `Settings`: the flags and what they set;
* `Settings.assign`: the effect of one flag with its value;
* `Settings.readAll`: the effect of a list of arguments, up to the first error.
-/

namespace EverEqual

/-- The flags. -/
inductive Flag
  | pkg
  | pair
  | leftPkg
  | rightPkg
  | jobs
  | directional
  | output
  | noColor
  | version
deriving DecidableEq, Repr, Inhabited

namespace Flag

/-- The long name of a flag. -/
def long : Flag → String
  | pkg => "pkg"
  | pair => "pair"
  | leftPkg => "left-pkg"
  | rightPkg => "right-pkg"
  | jobs => "jobs"
  | directional => "directional"
  | output => "output"
  | noColor => "no-color"
  | version => "version"

/-- The letter of a flag. -/
def letter? : Flag → Option Char
  | pkg => some 'p'
  | jobs => some 'j'
  | output => some 'o'
  | version => some 'v'
  | _ => none

/-- Whether a flag is a switch, which needs no value. -/
def isSwitch : Flag → Bool
  | directional | noColor | version => true
  | _ => false

/-- All flags. -/
def all : List Flag :=
  [pkg, pair, leftPkg, rightPkg, jobs, directional, output, noColor, version]

/-- The flag with a long name. -/
def ofLong? (s : String) : Option Flag := all.find? (·.long = s)

/-- The flag with a letter. -/
def ofLetter? (c : Char) : Option Flag := all.find? (·.letter? = some c)

/-- The text by which an error names a flag. -/
def display (f : Flag) : String :=
  match f.letter? with
  | some c => "-" ++ String.singleton c ++ ", --" ++ f.long
  | none => "--" ++ f.long

end Flag

/-- Why arguments set no flags. -/
inductive FlagError
  /-- Help is asked for. -/
  | help
  | badSyntax (arg : String)
  | unknownFlag (name : String)
  /-- A letter, the first of the given letters, names no flag. -/
  | unknownLetter (letter : Char) (group : String)
  | needsArgument (arg : String)
  /-- The flag of a letter, the first of the given letters, lacks its value. -/
  | letterNeedsArgument (letter : Char) (group : String)
  /-- The value of a flag is no number. -/
  | badNumber (flag : Flag) (value : String) (e : Text.IntegerError)
  /-- The value of a flag is no truth value. -/
  | badSwitch (flag : Flag) (value : String)
deriving DecidableEq, Repr, Inhabited

namespace FlagError

/-- The form in which a letter is shown. A letter beyond ASCII is shown by the first of the bytes
that encode its first byte, which is the same for all such letters. -/
def letterText (c : Char) : String :=
  Text.quoteChar (if c.toNat < 128 then c else 'Ã')

/-- The text of a flag error. -/
def message : FlagError → String
  | help => "pflag: help requested"
  | badSyntax arg => "bad flag syntax: " ++ arg
  | unknownFlag name => "unknown flag: --" ++ name
  | unknownLetter c group => "unknown shorthand flag: " ++ letterText c ++ " in -" ++ group
  | needsArgument arg => "flag needs an argument: " ++ arg
  | letterNeedsArgument c group =>
    "flag needs an argument: " ++ letterText c ++ " in -" ++ group
  | badNumber flag value e =>
    "invalid argument " ++ Text.quote value ++ " for " ++ Text.quote flag.display ++
      " flag: strconv.ParseInt: parsing " ++ Text.quote value ++ ": " ++ e.message
  | badSwitch flag value =>
    "invalid argument " ++ Text.quote value ++ " for " ++ Text.quote flag.display ++
      " flag: strconv.ParseBool: parsing " ++ Text.quote value ++ ": invalid syntax"

end FlagError

/-- What flags set. -/
structure Settings where
  pkg : String := "."
  /-- The pairs as they were written. -/
  pairs : List String := []
  leftPkg : String := ""
  rightPkg : String := ""
  jobs : Int := 0
  directional : Bool := false
  output : String := ""
  noColor : Bool := false
  version : Bool := false
deriving DecidableEq, Repr, Inhabited

/-- The truth value that a text stands for. -/
def readSwitch? (s : String) : Option Bool :=
  if ["1", "t", "T", "TRUE", "true", "True"].contains s then some true
  else if ["0", "f", "F", "FALSE", "false", "False"].contains s then some false
  else none

namespace Settings

/-- The settings after a flag with a value. -/
def assign (s : Settings) (flag : Flag) (value : String) : Except FlagError Settings :=
  let switch : Except FlagError Bool := match readSwitch? value with
    | some b => .ok b
    | none => .error (.badSwitch flag value)
  match flag with
  | .pkg => .ok { s with pkg := value }
  | .pair => .ok { s with pairs := s.pairs ++ [value] }
  | .leftPkg => .ok { s with leftPkg := value }
  | .rightPkg => .ok { s with rightPkg := value }
  | .jobs =>
    match Text.readInt value with
    | .ok n => .ok { s with jobs := n }
    | .error e => .error (.badNumber flag value e)
  | .directional => return { s with directional := ← switch }
  | .output => .ok { s with output := value }
  | .noColor => return { s with noColor := ← switch }
  | .version => return { s with version := ← switch }

/-- The settings after a long flag, given by the characters after the dashes, and whether it took
the next argument. -/
def readLong (s : Settings) (arg : String) (cs : List Char) (next : Option String) :
    Except FlagError (Settings × Bool) :=
  match cs with
  | [] | '-' :: _ | '=' :: _ => .error (.badSyntax arg)
  | _ =>
    let name := String.ofList (cs.takeWhile (· ≠ '='))
    match Flag.ofLong? name with
    | none => .error (if name = "help" then .help else .unknownFlag name)
    | some flag =>
      match cs.dropWhile (· ≠ '='), next with
      | _ :: value, _ => return (← s.assign flag (String.ofList value), false)
      | [], next =>
        if flag.isSwitch then return (← s.assign flag "true", false)
        else match next with
          | some value => return (← s.assign flag value, true)
          | none => .error (.needsArgument arg)

/-- The settings after a group of letters, and whether it took the next argument. What starts with
`test.` is ignored up to the end of the group. -/
def readShort (s : Settings) (next : Option String) :
    List Char → Except FlagError (Settings × Bool)
  | [] => .ok (s, false)
  | c :: cs =>
    if "test.".toList.isPrefixOf (c :: cs) then .ok (s, false)
    else match Flag.ofLetter? c with
      | none =>
        .error (if c = 'h' then .help else .unknownLetter c (String.ofList (c :: cs)))
      | some flag =>
        match cs with
        | '=' :: d :: value =>
          return (← s.assign flag (String.ofList (d :: value)), false)
        | _ =>
          if flag.isSwitch then do
            let s ← s.assign flag "true"
            readShort s next cs
          else match cs, next with
            | d :: value, _ => return (← s.assign flag (String.ofList (d :: value)), false)
            | [], some value => return (← s.assign flag value, true)
            | [], none => .error (.letterNeedsArgument c (String.ofList (c :: cs)))

/-- The settings after one argument, and whether it took the next one. -/
def readOne (s : Settings) (arg : String) (next : Option String) :
    Except FlagError (Settings × Bool) :=
  match arg.toList with
  | '-' :: '-' :: cs => s.readLong arg cs next
  | '-' :: c :: cs => s.readShort next (c :: cs)
  | _ => .ok (s, false)

/-- The settings after a list of arguments. -/
def readAll (s : Settings) : List String → Except FlagError Settings
  | [] => .ok s
  | "--" :: _ => .ok s
  | [arg] => return (← s.readOne arg none).1
  | arg :: next :: rest => do
    let (s, taken) ← s.readOne arg (some next)
    if taken then s.readAll rest else s.readAll (next :: rest)

end Settings

end EverEqual
