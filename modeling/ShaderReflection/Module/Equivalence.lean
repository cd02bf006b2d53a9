import ShaderReflection.Table
import ShaderReflection.Types

/-! Logical equivalence of struct types: equal shapes, and members that are equivalent in pairs. -/
namespace ShaderReflection.Module

/-- Test every element in order, up to the first that fails; `none` where a test does not end. -/
def everyEnds (p : α → Option Bool) : List α → Option Bool
  | [] => some true
  | x :: xs =>
    match p x with
    | some true => everyEnds p xs
    | r => r

/-- Everything about two types that is compared, their members apart. -/
def sameShape (a b : TypeDescriptor) : Bool :=
  a.baseType = b.baseType && a.width = b.width && a.vecsize = b.vecsize &&
    a.columns = b.columns && a.array = b.array && a.members.length = b.members.length

/-- Compare two types to a depth. Members are compared by their descriptors in the table, and an
unknown member equals nothing. The result is `none` if some branch goes deeper. -/
def equivalentTo? (types : Table Id TypeDescriptor) :
    (depth : Nat) → TypeDescriptor → TypeDescriptor → Option Bool
  | 0, _, _ => none
  | depth + 1, a, b =>
    if sameShape a b then
      everyEnds (fun (m, n) =>
        match types.get? m, types.get? n with
        | some s, some t => equivalentTo? types depth s t
        | _, _ => some false) (a.members.zip b.members)
    else some false

/-- The number of types that have members. -/
def compoundCount (types : Table Id TypeDescriptor) : Nat :=
  (types.values.filter fun t => !t.members.isEmpty).length

/-- Compare two types. A comparison that goes deeper than the number of pairs of types with
members has come back to a pair it started from; it never ends, and the result is `none`. -/
def equivalent? (types : Table Id TypeDescriptor) (a b : TypeDescriptor) : Option Bool :=
  equivalentTo? types (compoundCount types * compoundCount types + 2) a b

end ShaderReflection.Module
