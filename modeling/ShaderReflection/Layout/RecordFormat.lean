import ShaderReflection.Document
import ShaderReflection.Layout.RecordLibrary

/-! Record formats of structs: which fields and which size a library of arrays is asked for. -/
namespace ShaderReflection

namespace HostType

/-- The types of fixed size. -/
def fixed : List HostType :=
  [.matrix, .point, .vector3, .vector4, .boolean, .scalar, .uint32, .int32]

/-- The digits of `Padding<digits>`, in any script; one line break may follow. -/
def paddingDigits? (cs : List Char) : Option (List Char) :=
  let opening := "Padding<".toList
  if opening.isPrefixOf cs then
    let digits := (cs.drop opening.length).takeWhile Text.isDecimalDigit
    let rest := (cs.drop opening.length).dropWhile Text.isDecimalDigit
    if digits ≠ [] ∧ (rest = ['>'] ∨ rest = ['>', '\n']) then some digits else none
  else none

end HostType

namespace RecordFormat

section Fields

variable (library : RecordLibrary)

/-- The type of a name in the host's language. -/
def typeOfText (name : String) : Except RecordError HostType :=
  match HostType.fixed.find? (·.text = some name) with
  | some h => .ok h
  | none =>
    match HostType.paddingDigits? name.toList with
    | none => .error (.unknownType name)
    | some digits => (library.bytes digits).map .padding

/-- The field of a member: none for one without bytes, and one without a name is called after its
place. -/
def field? (index : Nat) (m : StructMember) : Except RecordError (Option RecordField) :=
  if m.byteLength = 0 then .ok none
  else do
    let type ← typeOfText library m.type
    return some {
      name := if m.name = "" then "f" ++ toString index else m.name
      offset := m.offset
      type }

/-- The fields of members, of which the first has the given place. -/
def fieldsFrom (index : Nat) : List StructMember → Except RecordError (List RecordField)
  | [] => .ok []
  | m :: ms => do
    let f ← field? library index m
    let fs ← fieldsFrom (index + 1) ms
    return f.toList ++ fs

end Fields

/-- The largest of some numbers and zero. -/
def maxEnd (stops : List Int) : Int := stops.foldl max 0

/-- The size that a struct claims: its byte length, or the end of its last member. -/
def claimedSize (s : StructDefinition) : Int :=
  max (maxEnd (s.members.map fun m => m.offset + m.byteLength)) s.byteLength

/-- The record format of a struct. -/
def ofStruct (s : StructDefinition) (library : RecordLibrary := .standard) :
    Except RecordError RecordFormat := do
  library.record (← fieldsFrom library 0 s.members) (claimedSize s)

end RecordFormat
end ShaderReflection
