import ShaderReflection.Document
import ShaderReflection.Layout.HostType
import ShaderReflection.Naming

/-! Tightly packed struct layouts: the parts of all members lie back to back, in order. -/
namespace ShaderReflection

/-- A part of a struct, by the place of the member that it belongs to. -/
structure Entry where
  index : Nat
  block : Block
  deriving DecidableEq, Repr

/-- The parts of members, of which the first has the given place. -/
def entriesFrom (index : Nat) : List TypeDescriptor → List Entry
  | [] => []
  | t :: ts => (MemberClass.ofType t).blocks.map (⟨index, ·⟩) ++ entriesFrom (index + 1) ts

/-- A field of a struct before it is given a place. -/
structure NamedBlock where
  name : String
  type : String
  byteLength : Int
  deriving DecidableEq, Repr

/-- Lay fields back to back. -/
def place (offset : Int) : List NamedBlock → List StructMember
  | [] => []
  | b :: bs =>
    { name := b.name, type := b.type, offset, byteLength := b.byteLength }
      :: place (offset + b.byteLength) bs

def total (lengths : List Int) : Int := lengths.foldr (· + ·) 0

@[simp] theorem total_nil : total [] = 0 := rfl

@[simp] theorem total_cons (n : Int) (ns : List Int) : total (n :: ns) = n + total ns := rfl

@[simp] theorem total_append (ms ns : List Int) : total (ms ++ ns) = total ms + total ns := by
  induction ms with
  | nil => simp
  | cons m ms ih => simp [ih]; omega

inductive MemberError where
  | notStruct (id : Id)
  | unresolved (member struct : Id)
  /-- A number in the name or the type of a field has too many digits. -/
  | unwritable
  deriving DecidableEq, Repr

def MemberError.message : MemberError → String
  | .notStruct id => "Type " ++ toString id ++ " is not a struct"
  | .unresolved m id =>
    "Unresolved member type " ++ toString m ++ " in struct " ++ toString id
  | .unwritable => Number.unwritableText

/-- Why a struct has no definition on the host. -/
inductive StructSkip where
  | notStruct
  /-- The compiler made the struct. -/
  | reserved (name : String)
  | unresolved (name : String) (member : Id)
  deriving DecidableEq, Repr

inductive Absence (ρ : Type) where
  | skipped (reason : ρ)
  /-- A number in the name or the type of a field has too many digits. -/
  | unwritable
  deriving DecidableEq, Repr

/-- The mark in the names of structs that the compiler makes. -/
def reservedMark : String := "_RESERVED_IDENTIFIER_"

/-- Whether a text occurs in another. -/
def occurs (part : List Char) : List Char → Bool
  | [] => part.isEmpty
  | c :: cs => part.isPrefixOf (c :: cs) || occurs part cs

/-- Whether a name says that the compiler made the struct. -/
def isReserved (name : String) : Bool := occurs reservedMark.toList name.toList

namespace Shader

/-- The descriptors of members, and the first member that has none; what lies behind that one is
not looked at. -/
def resolveAll (s : Shader) : List Id → List TypeDescriptor × Option Id
  | [] => ([], none)
  | m :: ms =>
    match s.type? m with
    | none => ([], some m)
    | some t =>
      let (ts, unknown) := s.resolveAll ms
      (t :: ts, unknown)

/-- Name the parts of a struct in order, as far as their numbers can be written. The type of a part
is written before its name is taken. -/
def nameEntries (s : Shader) (id : Id) (namer : Namer) :
    List Entry → Option (List NamedBlock) × Namer
  | [] => (some [], namer)
  | e :: es =>
    match e.block.type.text with
    | none => (none, namer)
    | some type =>
      match s.memberName id e.index e.block.suffix namer with
      | (none, namer) => (none, namer)
      | (some name, namer) =>
        let (rest, namer) := s.nameEntries id namer es
        (rest.map (⟨name, type, e.block.byteLength⟩ :: ·), namer)

/-- The fields that members of the given types get in a struct. -/
def layOut (s : Shader) (id : Id) (ts : List TypeDescriptor) (namer : Namer) :
    Option (List StructMember) × Namer :=
  let (named, namer) := s.nameEntries id namer (entriesFrom 0 ts)
  (named.map (place 0), namer)

/-- The fields of a struct. Names taken before a member that is not known stay taken. -/
def readMembers (s : Shader) (id : Id) (namer : Namer) :
    Except MemberError (List StructMember) × Namer :=
  match (s.type? id).filter (·.isStruct) with
  | none => (.error (.notStruct id), namer)
  | some t =>
    let (ts, unknown) := s.resolveAll t.members
    match s.layOut id ts namer, unknown with
    | (none, namer), _ => (.error .unwritable, namer)
    | (some _, namer), some m => (.error (.unresolved m id), namer)
    | (some members, namer), none => (.ok members, namer)

/-- The definition of a struct on the host. A struct that is left out takes no names. -/
def structDefinition (s : Shader) (id : Id) (namer : Namer) :
    Except (Absence StructSkip) StructDefinition × Namer :=
  match (s.type? id).filter (·.isStruct) with
  | none => (.error (.skipped .notStruct), namer)
  | some t =>
    let name := s.name id
    if isReserved name then (.error (.skipped (.reserved name)), namer)
    else
      match s.resolveAll t.members with
      | (_, some m) => (.error (.skipped (.unresolved name m)), namer)
      | (ts, none) =>
        match s.layOut id ts namer with
        | (none, namer) => (.error .unwritable, namer)
        | (some members, namer) =>
          (.ok { name, byteLength := total (ts.map (·.naturalSize)), members }, namer)

/-- The definitions of several structs, one after another, up to one that cannot be written. -/
def structOutcomes (s : Shader) (namer : Namer) :
    List Id → List (Except (Absence StructSkip) StructDefinition) × Namer
  | [] => ([], namer)
  | id :: ids =>
    match s.structDefinition id namer with
    | (.error .unwritable, namer) => ([.error .unwritable], namer)
    | (outcome, namer) =>
      let (rest, namer) := s.structOutcomes namer ids
      (outcome :: rest, namer)

/-- The definitions of all structs of a shader, each identity once, in order of declaration. -/
def allStructOutcomes (s : Shader) (namer : Namer) :
    List (Except (Absence StructSkip) StructDefinition) × Namer :=
  s.structOutcomes namer s.structIds.eraseDups

end Shader

def definitionsOf (outcomes : List (Except (Absence ρ) StructDefinition)) : List StructDefinition :=
  outcomes.filterMap fun
    | .ok d => some d
    | .error _ => none

def skipsOf (outcomes : List (Except (Absence ρ) StructDefinition)) : List ρ :=
  outcomes.filterMap fun
    | .error (.skipped reason) => some reason
    | _ => none

def isBroken (outcomes : List (Except (Absence ρ) StructDefinition)) : Bool :=
  outcomes.any fun
    | .error .unwritable => true
    | _ => false

end ShaderReflection
