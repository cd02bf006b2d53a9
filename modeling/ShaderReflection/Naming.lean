import ShaderReflection.Number.Digits
import ShaderReflection.Shader

/-! Names of struct members: declared ones, found through aliases, and numbered stand-ins. -/
namespace ShaderReflection

/-- Hands out numbered names; the number only grows. -/
structure Namer where
  next : Int
  deriving DecidableEq, Repr

/-- The next numbered name, with a suffix. A number that cannot be written is used up, too. -/
def Namer.take (n : Namer) (suffix : String) : Option String × Namer :=
  ((Number.decimal? n.next).map fun number => "unnamed_" ++ number ++ suffix, ⟨n.next + 1⟩)

@[simp] theorem Namer.next_take (n : Namer) (suffix : String) :
    (n.take suffix).2.next = n.next + 1 := rfl

namespace Shader

/-- How many aliases are followed before a declared name is given up. -/
def maxAliasHops : Nat := 32

/-- The declared name of a member, through at most a number of types. -/
def memberNameWithin (s : Shader) : (hops : Nat) → Id → Int → Option String
  | 0, _, _ => none
  | hops + 1, id, index =>
    match s.type? id with
    | none => none
    | some t =>
      match t.aliasOf with
      | none => s.memberName? t.selfId index
      | some other => s.memberNameWithin hops other index

def declaredName? (s : Shader) (id : Id) (index : Int) : Option String :=
  s.memberNameWithin maxAliasHops id index

/-- The name of a member with a suffix, which keeps several fields of one member apart. A member
without a declared name takes the next number. -/
def memberName (s : Shader) (id : Id) (index : Int) (suffix : String) (namer : Namer) :
    Option String × Namer :=
  match s.declaredName? id index with
  | some name => (some (name ++ suffix), namer)
  | none => namer.take suffix

end Shader
end ShaderReflection
