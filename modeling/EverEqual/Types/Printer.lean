import EverEqual.Text.Quoted
import EverEqual.Types.World

/-!
# The text of a type

A type is written as a program would write it, except that declared names carry their package:
either its path, which makes the text an identity, or its name, which is shorter. An alias is
written by its own name. A generic declaration is written with its parameters and their constraints.

* `Ty.render`: the text of a type for a given way of writing names;
* `World.typeString`: the text with paths;
* `World.shortTypeString`: the text with package names;
* `World.typeStringFrom`, `World.pathStringFrom`: the text as it reads inside a package.
-/

namespace EverEqual

/-- How declared names are written. -/
structure NameStyle where
  /-- The text of a name. -/
  qualify : TypeName → String
  /-- What follows the name of a declaration that stands without arguments. -/
  parameters : TypeName → String

/-- What a field tag adds to the text of a field. -/
def tagText (tag : List UInt8) : String :=
  if tag = [] then "" else " " ++ Text.quoteBytes tag

/-- The text of a type parameter. One that hides a predeclared name says what it is. -/
def parameterName (label : String) : String :=
  if isPredeclared label then label ++ "/* type parameter */" else label

namespace Ty

/-- Whether a type is a channel that can only be received from. -/
def isReceiveOnly : Ty → Bool
  | .chan .receive _ => true
  | _ => false

/-- The results of a function, by the texts of the results. A single result without a name stands
alone. -/
def resultText (results : List (Member Ty)) (texts : List String) : String :=
  match results, texts with
  | [], _ => ""
  | [⟨"", _, _, _, _⟩], [text] => " " ++ text
  | _, texts => " (" ++ ", ".intercalate texts ++ ")"

/-- A parameter of a function, by its name and the text of its type. -/
def paramText (name text : String) : String :=
  if name = "" then text else name ++ " " ++ text

mutual
/-- The text of a type. -/
def render (style : NameStyle) : Ty → String
  | .basic b => b.name
  | .named n [] => style.qualify n ++ style.parameters n
  | .named n (x :: xs) =>
    style.qualify n ++ "[" ++ ", ".intercalate (renderAll style (x :: xs)) ++ "]"
  | .param _ _ label => parameterName label
  | .pointer a => "*" ++ render style a
  | .slice a => "[]" ++ render style a
  | .array n a => "[" ++ toString n ++ "]" ++ render style a
  | .map k a => "map[" ++ render style k ++ "]" ++ render style a
  | .chan .both a =>
    if a.isReceiveOnly then "chan (" ++ render style a ++ ")" else "chan " ++ render style a
  | .chan .send a => "chan<- " ++ render style a
  | .chan .receive a => "<-chan " ++ render style a
  | .func ps rs v =>
    "func(" ++ ", ".intercalate (renderParams style v ps) ++ ")" ++
      resultText rs (renderParams style false rs)
  | .struct fs => "struct\x7b" ++ "; ".intercalate (renderFields style fs) ++ "\x7d"
  | .tuple xs => "(" ++ ", ".intercalate (renderAll style xs) ++ ")"
  | .interface .implicit [] [a] => render style a
  | .interface form ms es =>
    (if form = .implicit then "/* implicit */ " else "") ++ "interface\x7b" ++
      "; ".intercalate
        ((if form = .comparable then ["comparable"] else []) ++ renderMethods style ms ++
          renderAll style es) ++ "\x7d"
  | .union xs => " | ".intercalate (renderAll style xs)
  | .tilde a => "~" ++ render style a
/-- The texts of types. -/
def renderAll (style : NameStyle) : List Ty → List String
  | [] => []
  | x :: xs => render style x :: renderAll style xs
/-- The texts of parameters. The last one of a variadic list is written with dots: in front of its
elements, or behind its type if that is no slice type by itself. -/
def renderParams (style : NameStyle) (variadic : Bool) : List (Member Ty) → List String
  | [] => []
  | [⟨name, .slice a, _, _, _⟩] =>
    [paramText name ((if variadic then "..." else "[]") ++ render style a)]
  | [⟨name, t, _, _, _⟩] => [paramText name (render style t ++ if variadic then "..." else "")]
  | ⟨name, t, _, _, _⟩ :: xs => paramText name (render style t) :: renderParams style variadic xs
/-- The texts of fields. -/
def renderFields (style : NameStyle) : List (Member Ty) → List String
  | [] => []
  | ⟨name, t, _, embedded, tag⟩ :: xs =>
    ((if embedded then "" else name ++ " ") ++ render style t ++ tagText tag) ::
      renderFields style xs
/-- The texts of methods: the name, then the function type without the word for it. -/
def renderMethods (style : NameStyle) : List (Member Ty) → List String
  | [] => []
  | ⟨name, .func ps rs v, _, _, _⟩ :: xs =>
    (name ++ "(" ++ ", ".intercalate (renderParams style v ps) ++ ")" ++
      resultText rs (renderParams style false rs)) :: renderMethods style xs
  | ⟨name, t, _, _, _⟩ :: xs => (name ++ render style t) :: renderMethods style xs
end

/-- Whether two constraints are one and the same: a name used twice, but never two types that are
written out. -/
def isSameConstraint (a b : Ty) : Bool :=
  match a with
  | .basic _ | .named _ _ => a = b
  | _ => false

end Ty

/-- The parameters of a declaration. Neighbours that share a constraint show it once. -/
def parameterTexts (bound : Ty → String) : List TypeParam → List String
  | [] => []
  | [p] => [parameterName p.name ++ " " ++ bound p.constraint]
  | p :: q :: rest =>
    (if p.constraint.isSameConstraint q.constraint then parameterName p.name
      else parameterName p.name ++ " " ++ bound p.constraint) :: parameterTexts bound (q :: rest)

namespace World

/-- What follows the name of a declaration that stands without arguments: its parameters. -/
def parameterList (w : World) (qualify : TypeName → String) (n : TypeName) : String :=
  match w.declaration? n with
  | none => ""
  | some d =>
    if d.params.isEmpty then ""
    else "[" ++ ", ".intercalate
      (parameterTexts (Ty.render ⟨qualify, fun _ => ""⟩) d.params) ++ "]"

/-- A name behind a qualifier, if that is not empty. -/
def qualified (qualifier name : String) : String :=
  if qualifier = "" then name else qualifier ++ "." ++ name

/-- The text of a type, with package paths. It serves as the identity of the type. -/
def typeString (w : World) (t : Ty) : String :=
  let qualify (n : TypeName) := qualified n.path n.name
  t.render ⟨qualify, w.parameterList qualify⟩

/-- The text of a type, with package names. -/
def shortTypeString (w : World) (t : Ty) : String :=
  let qualify (n : TypeName) :=
    qualified (((w.package? n.path).map (·.name)).getD n.path) n.name
  t.render ⟨qualify, w.parameterList qualify⟩

/-- The text of a type as it reads inside a package: the names that it declares stand alone, others
follow the name of their package. -/
def typeStringFrom (w : World) (home : String) (t : Ty) : String :=
  let qualify (n : TypeName) :=
    if n.path = home then n.name
    else qualified (((w.package? n.path).map (·.name)).getD n.path) n.name
  t.render ⟨qualify, w.parameterList qualify⟩

/-- The text of a type with package paths, as it reads inside a package: a type that is declared in
a package without a name, such as that of a block, has the path of the package around. -/
def pathStringFrom (w : World) (home : String) (t : Ty) : String :=
  let qualify (n : TypeName) :=
    qualified (if (w.package? n.path).any (·.name = "") then home else n.path) n.name
  t.render ⟨qualify, w.parameterList qualify⟩

end World

end EverEqual
