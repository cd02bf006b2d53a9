import ShaderReflection.Assembly.Listing
import ShaderReflection.Module.Declarations
import ShaderReflection.Module.Equivalence
import ShaderReflection.Module.Opcode

/-! How each instruction at module scope adds to the declarations, and the declarations of a whole
listing. -/
namespace ShaderReflection.Module

open Assembly (Instruction Operand OperandError)

inductive DeclarationError where
  | operand (e : OperandError)
  | noResult (line : Nat) (opcode : String)
  /-- Two structs of one name contain themselves, and their comparison never ends. -/
  | endlessComparison
  deriving DecidableEq, Repr

def DeclarationError.message : DeclarationError → String
  | .operand e => e.message
  | .noResult line opcode => "line " ++ toString line ++ ": " ++ opcode ++ " has no result id"
  | .endlessComparison => "maximum recursion depth exceeded in comparison"

namespace Declarations

/-- Take an operand, or fail for want of it. -/
def ask (r : Except OperandError α) : Except DeclarationError α := r.mapError .operand

def result (d : Declarations) (i : Instruction) : Except DeclarationError (Id × Declarations) :=
  match i.result with
  | some name => .ok (d.intern name)
  | none => .error (.noResult i.line i.opcode)

def operandId (d : Declarations) (i : Instruction) (index : Int) :
    Except DeclarationError (Id × Declarations) := do
  let name ← ask (i.idAt index)
  return d.intern name

/-- The first root, in order, that has the given name and is equivalent to a struct. -/
def findRoot (d : Declarations) (t : TypeDescriptor) (name : String) :
    List Id → Except DeclarationError (Option Id)
  | [] => .ok none
  | root :: rest =>
    if d.names.get? root = some name then
      match d.types.get? root with
      | none => d.findRoot t name rest
      | some other =>
        match equivalent? d.types t other with
        | none => .error .endlessComparison
        | some true => .ok (some root)
        | some false => d.findRoot t name rest
    else d.findRoot t name rest

/-- A struct is an alias of the first root that has its name and is equivalent to it; if there is
none, it becomes a root. A struct without a name is neither. -/
def describeStruct (d : Declarations) (t : TypeDescriptor) :
    Except DeclarationError (Declarations × TypeDescriptor) := do
  let name := d.name t.selfId
  if name = "" then return (d, t)
  match ← d.findRoot t name d.roots with
  | some root => return (d, { t with aliasOf := some root })
  | none => return ({ d with roots := d.roots ++ [t.selfId] }, t)

/-- The number of elements in an array type, zero for one that is not a known constant. -/
def arrayLength (d : Declarations) (i : Instruction) :
    Except DeclarationError (Int × Declarations) := do
  let (length, d) ← d.operandId i 1
  return ((d.constants.get? length).getD 0, d)

def idNames (os : List Operand) : List String :=
  os.filterMap fun
    | .id name => some name
    | _ => none

/-- The descriptor of a declared type. A type over one that is not known has none. -/
def describe (d : Declarations) (id : Id) (kind : TypeOpcode) (i : Instruction) :
    Except DeclarationError (Declarations × Option TypeDescriptor) :=
  match kind with
  | .void => .ok (d, some { baseType := .void, selfId := id })
  -- Booleans take 32 bits where the host sees them.
  | .bool => .ok (d, some { baseType := .boolean, width := 32, selfId := id })
  | .int => do
    let width ← ask (i.intAt 0)
    let signed ← ask (i.intAt 1)
    return (d, some { baseType := .ofInt width (signed ≠ 0), width, selfId := id })
  | .float => do
    let width ← ask (i.intAt 0)
    return (d, some { baseType := .ofFloat width, width, selfId := id })
  | .vector => do
    let (component, d) ← d.operandId i 0
    match d.types.get? component with
    | none => return (d, none)
    | some t =>
      let vecsize ← ask (i.intAt 1)
      return (d, some { t with vecsize, columns := 1, selfId := id })
  | .matrix => do
    let (column, d) ← d.operandId i 0
    match d.types.get? column with
    | none => return (d, none)
    | some t =>
      let columns ← ask (i.intAt 1)
      return (d, some { t with columns, selfId := id })
  | .image =>
    let sampled := match i.operands[5]? with
      | some (Operand.int n) => n
      | _ => 1
    .ok ({ d with imageSampled := d.imageSampled.set id sampled },
      some { baseType := .image, selfId := id })
  | .sampler => .ok (d, some { baseType := .sampler, selfId := id })
  | .sampledImage => .ok (d, some { baseType := .sampledImage, selfId := id })
  | .array => do
    let (element, d) ← d.operandId i 0
    match d.types.get? element with
    | none => return (d, none)
    | some t =>
      let (length, d) ← d.arrayLength i
      return (d, some { t with array := t.array ++ [length] })
  | .runtimeArray => do
    let (element, d) ← d.operandId i 0
    return (d, (d.types.get? element).map fun t => { t with array := t.array ++ [0] })
  | .struct => do
    let (members, d) := d.internAll (idNames i.operands)
    let (d, t) ← d.describeStruct { baseType := .struct, selfId := id, members }
    return (d, some t)
  | .pointer => do
    let (pointee, d) ← d.operandId i 1
    return ({ d with pointees := d.pointees.set id pointee },
      (d.types.get? pointee).map fun t => { t with pointer := true })
  | .function => .ok (d, none)
  | .unknown => .ok (d, some { baseType := .unknown, selfId := id })

def declareType (d : Declarations) (kind : TypeOpcode) (i : Instruction) :
    Except DeclarationError Declarations := do
  let (id, d) ← d.result i
  match ← d.describe id kind i with
  | (d, some t) => return { d with types := d.types.set id t }
  | (d, none) => return d

def declare (d : Declarations) (i : Instruction) : Except DeclarationError Declarations :=
  match Opcode.ofName i.opcode with
  | .entryPoint => do
    let name ← ask (i.textAt 2)
    let model ← ask (i.textAt 0)
    return { d with entryPoints := d.entryPoints ++ [⟨name, .ofName model⟩] }
  | .name => do
    let name ← ask (i.textAt 1)
    let (id, d) ← d.operandId i 0
    return { d with names := d.names.set id name }
  | .memberName => do
    let (id, d) ← d.operandId i 0
    let name ← ask (i.textAt 2)
    let index ← ask (i.intAt 1)
    return { d with memberNames := d.memberNames.set (id, index) name }
  | .decorate => do
    let (id, d) ← d.operandId i 0
    let kind ← ask (i.textAt 1)
    return { d with decorations := d.decorations.set (id, kind) (i.operands.drop 2) }
  | .memberDecorate => do
    let (id, d) ← d.operandId i 0
    let index ← ask (i.intAt 1)
    let kind ← ask (i.textAt 2)
    return { d with
      memberDecorations := d.memberDecorations.set (id, index, kind) (i.operands.drop 3) }
  | .constant =>
    match i.operands[1]? with
    | none => .error (.operand .missing)
    | some (Operand.int n) => do
      let (id, d) ← d.result i
      return { d with constants := d.constants.set id n }
    | some _ => .ok d
  | .variable => do
    let (id, d) ← d.result i
    let (typeId, d) ← d.operandId i 0
    let storage ← ask (i.textAt 1)
    return { d with globals := d.globals ++ [⟨id, typeId, .ofName storage⟩] }
  | .type kind => d.declareType kind i
  | .silent => .ok d

def declareAll (d : Declarations) (is : List Instruction) :
    Except DeclarationError Declarations :=
  is.foldlM declare d

end Declarations

/-- The instructions outside of function bodies. -/
def moduleScope (inFunction : Bool) : List Instruction → List Instruction
  | [] => []
  | i :: rest =>
    if i.opcode = "OpFunction" then moduleScope true rest
    else if i.opcode = "OpFunctionEnd" then moduleScope false rest
    else if inFunction then moduleScope true rest
    else i :: moduleScope false rest

/-- What the instructions of a listing declare at module scope. -/
def Declarations.ofInstructions (is : List Instruction) :
    Except DeclarationError Declarations :=
  Declarations.empty.declareAll (moduleScope false is)

inductive LoadError where
  | listing (e : Assembly.ListingError)
  | declaration (e : DeclarationError)
  deriving DecidableEq, Repr

def LoadError.message : LoadError → String
  | .listing e => e.message
  | .declaration e => e.message

def load (source : String) : Except LoadError Declarations := do
  let is ← (Assembly.parse source).mapError .listing
  (Declarations.ofInstructions is).mapError .declaration

end ShaderReflection.Module
