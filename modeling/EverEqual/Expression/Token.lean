import EverEqual.Expression.Literal
import EverEqual.Expression.Position
import EverEqual.Text.Digit
import EverEqual.Text.Letter

/-!
# Tokens of expressions

A text is cut into names, keywords, literals and symbols, each with its position. A line that ends
after a name, a literal or a closing bracket ends an item, as a semicolon would; so does the end of
the text. A byte order mark may stand at the very start of a text; there and nowhere else it is
skipped, and the zero character stands nowhere.

* `Lexeme`, `Token`: what a text is cut into;
* `readLexeme`: the first lexeme of a text, the characters it takes and what follows;
* `tokenize`: all tokens of a text, or nothing if a part of it has no place in it.
-/

namespace EverEqual.Expression

/-- A unit of a text. -/
inductive Lexeme
  | name (s : String)
  | keyword (s : String)
  | number (n : Numeral)
  /-- A text literal, by its value and the way it is written. -/
  | text (bytes : List UInt8) (source : String)
  /-- A character literal, by its code point and the way it is written. -/
  | character (code : Nat) (source : String)
  | symbol (s : String)
  /-- The end of a line, or of the text, that ends an item. -/
  | lineEnd
deriving DecidableEq, Repr, Inhabited

/-- A lexeme with its position. -/
structure Token where
  lexeme : Lexeme
  position : Position
deriving DecidableEq, Repr, Inhabited

/-- The reserved words. -/
def keywords : List String :=
  ["break", "case", "chan", "const", "continue", "default", "defer", "else", "fallthrough", "for",
    "func", "go", "goto", "if", "import", "interface", "map", "package", "range", "return",
    "select", "struct", "switch", "type", "var"]

/-- The symbols of more than one character, longer ones first. -/
def longSymbols : List (List Char) :=
  ["&^=", "<<=", ">>=", "...", "&&", "||", "<-", "++", "--", "==", "!=", "<=", ">=", ":=", "+=",
    "-=", "*=", "/=", "%=", "&=", "|=", "^=", "<<", ">>", "&^"].map String.toList

/-- The symbols of one character. -/
def shortSymbols : List Char :=
  ['+', '-', '*', '/', '%', '&', '|', '^', '<', '>', '=', '!', '(', ')', '[', ']', '\x7b', '\x7d',
    ',', ';', '.', ':', '~']

/-- Whether a line that ends after a lexeme ends an item. -/
def Lexeme.endsItem : Lexeme → Bool
  | name _ | number _ | text _ _ | character _ _ => true
  | keyword s => ["break", "continue", "fallthrough", "return"].contains s
  | symbol s => [")", "]", "\x7d", "++", "--"].contains s
  | lineEnd => false

/-- Whether a name can start with a character. -/
def startsName (c : Char) : Bool := c = '_' || Text.isLetter c

/-- Whether a name can go on with a character. -/
def continuesName (c : Char) : Bool := startsName c || Text.isDigit c

/-- What follows a comment between marks, after the first mark, and the characters before its second
mark. -/
def readComment : List Char → Option (List Char × List Char)
  | [] => none
  | '*' :: '/' :: rest => some ([], rest)
  | c :: cs => (readComment cs).map fun (comment, rest) => (c :: comment, rest)

/-- The symbol at the start of a text. -/
def symbolAt? (cs : List Char) : Option (List Char) :=
  match longSymbols.find? (·.isPrefixOf cs) with
  | some s => some s
  | none => match cs with
    | c :: _ => if shortSymbols.contains c then some [c] else none
    | [] => none

/-- A unit of a text, the characters it takes and what follows. -/
structure Cut where
  lexeme : Lexeme
  taken : List Char
  rest : List Char

/-- The name or keyword at the start of a text. -/
def cutName (cs : List Char) : Cut :=
  let (word, rest) := cs.span continuesName
  let s := String.ofList word
  ⟨if keywords.contains s then .keyword s else .name s, word, rest⟩

/-- The number at the start of a text. -/
def cutNumber? (cs : List Char) : Option Cut :=
  let (n, rest) := Numeral.read cs
  if n.isWellFormed then some ⟨.number n, n.text, rest⟩ else none

/-- The first lexeme of a text that does not start with blank space. -/
def readLexeme (cs : List Char) : Option Cut :=
  match cs with
  | [] => none
  | c :: rest =>
    if startsName c then some (cutName cs)
    else if isDecimal c || (c = '.' && (rest.head?.map isDecimal).getD false) then cutNumber? cs
    else if c = '"' then
      (readText rest).map fun (l, rest) =>
        ⟨.text l.bytes (String.ofList (c :: l.text)), c :: l.text, rest⟩
    else if c = '\x60' then
      (readRawText rest).map fun (l, rest) =>
        ⟨.text l.bytes (String.ofList (c :: l.text.filter (· ≠ '\r'))), c :: l.text, rest⟩
    else if c = '\x27' then
      (readCharacter rest).map fun (l, rest) =>
        ⟨.character ((l.units.head?.map Unit8.code).getD 0) (String.ofList (c :: l.text)),
          c :: l.text, rest⟩
    else (symbolAt? cs).map fun s => ⟨.symbol (String.ofList s), s, cs.drop s.length⟩

/-- The cursor after a comment; `none` if the comment gives a position that makes no sense. A
position given at the end of the text is of no use. -/
def Cursor.afterComment (c : Cursor) (comment rest : List Char) : Option Cursor :=
  match readDirective comment with
  | .none => some c
  | .malformed => none
  | .position file line column =>
    if rest.isEmpty then some c else some (c.redirect file line column)

/-- The tokens of a text. The flag says whether the end of a line ends an item here. -/
def tokenizeFrom : Nat → Bool → Cursor → List Char → Option (List Token)
  | 0, _, _, _ => none
  | _ + 1, ending, c, [] => some (if ending then [⟨.lineEnd, c.position⟩] else [])
  | fuel + 1, ending, c, '\n' :: cs => do
    let tokens ← tokenizeFrom fuel false (c.advance ['\n']) cs
    return if ending then ⟨.lineEnd, c.position⟩ :: tokens else tokens
  | fuel + 1, ending, c, '/' :: '/' :: cs => do
    let (comment, rest) := cs.span (· ≠ '\n')
    let shown := if comment.getLast? = some '\r' then comment.dropLast else comment
    let after := c.advance ('/' :: '/' :: comment)
    let next ← if c.here.column ≠ 1 then some after
      else
        match rest with
        | '\n' :: rest => do
          let redirected ← (after.advance ['\n']).afterComment shown rest
          some { redirected with here := after.here }
        | rest => after.afterComment shown rest
    tokenizeFrom fuel ending next rest
  | fuel + 1, ending, c, '/' :: '*' :: cs => do
    let (comment, rest) ← readComment cs
    let next ← (c.advance ('/' :: '*' :: comment ++ ['*', '/'])).afterComment comment rest
    if ending && comment.contains '\n' then
      return ⟨.lineEnd, c.position⟩ :: (← tokenizeFrom fuel false next rest)
    else tokenizeFrom fuel ending next rest
  | fuel + 1, ending, c, d :: cs =>
    if d = ' ' || d = '\t' || d = '\r' then tokenizeFrom fuel ending (c.advance [d]) cs
    else do
      let cut ← readLexeme (d :: cs)
      let tokens ← tokenizeFrom fuel cut.lexeme.endsItem (c.advance cut.taken) cut.rest
      return ⟨cut.lexeme, c.position⟩ :: tokens

/-- The byte order mark. -/
def byteOrderMark : Char := '\uFEFF'

/-- The tokens of a text; `none` if it cannot be cut into tokens. -/
def tokenize (s : String) : Option (List Token) :=
  let cs := s.toList
  let (mark, cs) := match cs with
    | c :: rest => if c = byteOrderMark then ([c], rest) else ([], cs)
    | [] => ([], [])
  if cs.any fun c => c = byteOrderMark || c.toNat = 0 then none
  else tokenizeFrom (cs.length + 1) false (Cursor.advance {} mark) cs

end EverEqual.Expression
