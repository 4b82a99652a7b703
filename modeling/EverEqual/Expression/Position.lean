import EverEqual.Expression.Number

/-!
# Positions

A position in a text is a line and a column, both counted from one; columns count bytes. A comment
that starts with the word `line` and ends in a line number, or in a line and a column number, says
where the text after it is to be taken from: the file it names, the line, and the column. If it
gives no column, columns are unknown from there on.

* `Position.text`: a position as it is shown;
* `Cursor`: where reading stands, and what the last such comment said;
* `readDirective`: what a comment says.
-/

namespace EverEqual.Expression

/-- A position: the name of the text, the line and the column; an unknown column is zero. -/
structure Position where
  file : String := "eval"
  line : Nat := 1
  column : Nat := 1
deriving DecidableEq, Repr, Inhabited

/-- A position as it is shown. -/
def Position.text (p : Position) : String :=
  (if p.file = "" then "" else p.file ++ ":") ++ toString p.line ++
    (if p.column = 0 then "" else ":" ++ toString p.column)

/-- Whether a position stands before another one of the same text. -/
def Position.isBefore (p q : Position) : Bool :=
  p.line < q.line || (p.line = q.line && p.column < q.column)

/-- A place in a text: the line and the column. -/
structure Place where
  line : Nat := 1
  column : Nat := 1
deriving DecidableEq, Repr, Inhabited

/-- The place after a character. -/
def Place.after (p : Place) (c : Char) : Place :=
  if c = '\n' then ⟨p.line + 1, 1⟩ else ⟨p.line, p.column + c.utf8Size⟩

/-- Where reading stands, and the place that was last given a position. -/
structure Cursor where
  here : Place := {}
  anchor : Place := {}
  /-- The position of the anchor. -/
  origin : Position := {}
deriving DecidableEq, Repr, Inhabited

namespace Cursor

/-- The cursor after some characters. -/
def advance (c : Cursor) (cs : List Char) : Cursor :=
  { c with here := cs.foldl Place.after c.here }

/-- The position of the cursor. -/
def position (c : Cursor) : Position :=
  { file := c.origin.file
    line := c.origin.line + (c.here.line - c.anchor.line)
    column :=
      if c.origin.column = 0 then 0
      else if c.here.line = c.anchor.line then c.origin.column + (c.here.column - c.anchor.column)
      else c.here.column }

end Cursor

/-! ### Comments that give a position -/

/-- A number that a comment gives after its last colon: the text before the colon and the number, if
what follows the colon is one. -/
def lastNumber? (cs : List Char) : Option (List Char × Option Nat) :=
  let digits := (cs.reverse.takeWhile (· ≠ ':')).reverse
  let before := cs.take (cs.length - digits.length)
  if before.isEmpty then none
  else
    let n := digitsValue 10 digits
    let isNumber := !digits.isEmpty && digits.all isDecimal && n < Text.wordBound
    some (before.dropLast, if isNumber then some n else none)

/-- What a comment says about the text after it: nothing, something wrong, or a file, a line and
perhaps a column. -/
inductive Directive
  | none
  | malformed
  | position (file : List Char) (line : Nat) (column : Option Nat)
deriving DecidableEq, Repr, Inhabited

/-- The greatest line and column that a comment can give. -/
def placeLimit : Nat := 0x40000000

/-- Whether a line or column number is one that a comment can give. -/
def isPlaceNumber (n : Nat) : Bool := 0 < n && n ≤ placeLimit

/-- What a comment says, by the characters between its marks. -/
def readDirective (cs : List Char) : Directive :=
  if !"line ".toList.isPrefixOf cs then .none
  else
    match lastNumber? (cs.drop 5) with
    | Option.none => .none
    | some (_, Option.none) => .malformed
    | some (before, some n) =>
      match lastNumber? before with
      | some (file, some line) =>
        if isPlaceNumber n && isPlaceNumber line then .position file line (some n)
        else .malformed
      | _ => if isPlaceNumber n then .position before n Option.none else .malformed

/-- The parts of a file name without steps that lead nowhere; the last part is first. -/
def cleanParts (rooted : Bool) (parts : List String) : List String :=
  parts.foldl (fun acc part =>
    if part = "" || part = "." then acc
    else if part = ".." then
      match acc with
      | top :: rest => if top = ".." then part :: acc else rest
      | [] => if rooted then [] else [part]
    else part :: acc) []

/-- A file name without steps that lead nowhere. -/
def cleanFile (name : String) : String :=
  let rooted := name.startsWith "/"
  let path := "/".intercalate (cleanParts rooted (name.splitOn "/")).reverse
  if rooted then "/" ++ path else if path = "" then "." else path

/-- The cursor after a comment that gives a position. A missing name keeps the file if there is a
column. -/
def Cursor.redirect (c : Cursor) (file : List Char) (line : Nat) (column : Option Nat) : Cursor :=
  let name :=
    if file.isEmpty then if column.isSome then c.origin.file else ""
    else cleanFile (String.ofList file)
  { c with anchor := c.here, origin := ⟨name, line, column.getD 0⟩ }

end EverEqual.Expression
