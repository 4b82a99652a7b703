import EverEqual.Types.Identical

/-!
# Instances

An instance of a generic declaration is made once. A later one whose arguments are spelled alike is
the earlier one again, and so it is written with the earlier arguments: the names of parameters and
the order of a union come from the first time. Types share a register of instances if they are made
for one purpose, such as the types of a program.

* `Instances`: the instances made so far;
* `World.enter`: a type with every instance in it looked up in the register;
* `World.entered`: a world whose declarations have been entered.
-/

namespace EverEqual

/-- A register of instances, each by its type; the last one made is first. -/
structure Instances where
  made : List Ty := []
deriving DecidableEq, Repr, Inhabited

/-- A step that makes instances. -/
abbrev InstanceM := StateM Instances

namespace World

/-- The instance made earlier for arguments that are spelled alike. -/
def instance? (w : World) (s : Instances) (n : TypeName) (args : List Ty) : Option Ty :=
  s.made.find? fun
    | .named m xs => n = m && related w.spelledAlike xs args
    | _ => false

/-- The instance of a declaration for given arguments, made now or earlier. -/
def makeInstance (w : World) (n : TypeName) (args : List Ty) : InstanceM Ty := do
  match w.instance? (← get) n args with
  | some t => return t
  | none =>
    let t := Ty.named n args
    modify fun s => ⟨t :: s.made⟩
    return t

mutual
/-- The type with every instance in it looked up in the register, inner ones first. -/
def enter (w : World) : Ty → InstanceM Ty
  | .basic b => return .basic b
  | .named n [] => return .named n []
  | .named n (x :: xs) => do
    let y ← enter w x
    w.makeInstance n (y :: (← enterAll w xs))
  | .param b i l => return .param b i l
  | .pointer a => return .pointer (← enter w a)
  | .slice a => return .slice (← enter w a)
  | .array n a => return .array n (← enter w a)
  | .map k a => do
    let key ← enter w k
    return .map key (← enter w a)
  | .chan d a => return .chan d (← enter w a)
  | .func ps rs v => do
    let params ← enterMembers w ps
    return .func params (← enterMembers w rs) v
  | .struct fs => return .struct (← enterMembers w fs)
  | .tuple xs => return .tuple (← enterAll w xs)
  | .interface f ms es => do
    let methods ← enterMembers w ms
    return .interface f methods (← enterAll w es)
  | .union xs => return .union (← enterAll w xs)
  | .tilde a => return .tilde (← enter w a)
/-- A list of types with their instances looked up. -/
def enterAll (w : World) : List Ty → InstanceM (List Ty)
  | [] => return []
  | x :: xs => do
    let y ← enter w x
    return y :: (← enterAll w xs)
/-- A list of members with their instances looked up. -/
def enterMembers (w : World) : List (Member Ty) → InstanceM (List (Member Ty))
  | [] => return []
  | ⟨n, t, h, e, g⟩ :: xs => do
    let u ← enter w t
    return ⟨n, u, h, e, g⟩ :: (← enterMembers w xs)
end

/-- A declaration with its instances looked up. -/
def enterDeclaration (w : World) (d : Declaration) : InstanceM Declaration := do
  let params ← d.params.mapM fun p => return { p with constraint := ← w.enter p.constraint }
  let type ← w.enter d.type
  let methods ← d.methods.mapM fun m => return { m with signature := ← w.enter m.signature }
  return { d with params, type, methods }

/-- A package with its instances looked up. -/
def enterPackage (w : World) (p : Package) : InstanceM Package := do
  let declarations ← p.declarations.mapM w.enterDeclaration
  let consts ← p.consts.mapM fun (n, t) => return (n, ← w.enter t)
  let vars ← p.vars.mapM fun (n, t) => return (n, ← w.enter t)
  return { p with declarations, consts, vars }

/-- The world with the instances in its declarations made, and the register of them. -/
def entered (w : World) : World × Instances :=
  let (packages, s) := (w.packages.mapM w.enterPackage).run {}
  ({ w with packages }, s)

end World

end EverEqual
