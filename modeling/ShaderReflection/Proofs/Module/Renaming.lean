import Mathlib.Data.Set.Function
import ShaderReflection.Proofs.Module.Annotations
import ShaderReflection.Proofs.Reflection.Agreement

/-! Listings in which ids go by other names. As long as different ids keep different names, an id
has the same number in both runs, and every instruction does the same or fails in the same way. -/
namespace ShaderReflection

/-- The kinds of errors that a caller can tell apart. -/
inductive ErrorClass where
  | range
  | value
  | module
  | recursion
  | reflection
  | rendering
  | encoding
  | engine
  deriving DecidableEq, Repr

namespace Assembly

def OperandError.errorClass : OperandError → ErrorClass
  | .missing | .indexTooLarge => .range
  | .unexpected .. => .value

def Operand.rename (f : String → String) : Operand → Operand
  | .id name => .id (f name)
  | o => o

def Instruction.rename (f : String → String) (i : Instruction) : Instruction :=
  { i with operands := i.operands.map (·.rename f), result := i.result.map f }

def Instruction.idNames (i : Instruction) : List String :=
  i.result.toList ++ Module.Declarations.idNames i.operands

private theorem elementAt_map (g : α → β) (xs : List α) (index : Int) :
    elementAt (xs.map g) index = (elementAt xs index).map g := by
  unfold elementAt
  dsimp only
  rw [List.length_map]
  generalize (if 0 ≤ index then index else xs.length + index) = place
  split
  · rfl
  · split
    · rfl
    · rw [List.getElem?_map]
      cases xs[place.toNat]? <;> rfl

private theorem mem_of_elementAt_eq_ok {xs : List α} {index : Int} {x : α}
    (h : elementAt xs index = .ok x) : x ∈ xs := by
  unfold elementAt at h
  dsimp only at h
  generalize (if 0 ≤ index then index else xs.length + index) = place at h
  split at h
  · cases h
  · split at h
    · cases h
    · split at h
      case h_1 y hy =>
        rw [← Except.ok.inj h]
        exact List.mem_of_getElem? hy
      case h_2 => cases h

def SameOperandError (e e' : OperandError) : Prop := e.errorClass = e'.errorClass

section Operands

variable {f : String → String} {S : Set String} {i : Instruction}

theorem agree_readAt {P : α → β → Prop} {view : Operand → Option α} {view' : Operand → Option β}
    (h : ∀ o ∈ i.operands, Option.Rel P (view o) (view' (o.rename f))) (index : Int)
    (wanted : OperandKind) : Agree SameOperandError P (i.readAt index wanted view)
      ((i.rename f).readAt index wanted view') := by
  have helement : Agree SameOperandError (fun o o' => o ∈ i.operands ∧ o' = o.rename f)
      (elementAt i.operands index) (elementAt (i.rename f).operands index) := by
    have hmap : elementAt (i.rename f).operands index =
        (elementAt i.operands index).map (·.rename f) := elementAt_map ..
    rw [hmap]
    cases ho : elementAt i.operands index with
    | error e => exact .error rfl
    | ok o => exact .ok ⟨mem_of_elementAt_eq_ok ho, rfl⟩
  refine helement.bind ?_
  rintro o _ ⟨ho, rfl⟩
  have hview := h o ho
  generalize view o = a at hview ⊢
  generalize view' (o.rename f) = b at hview ⊢
  cases hview with
  | some hab => exact .ok hab
  | none => exact .error rfl

theorem agree_idAt (hi : ∀ n ∈ i.idNames, n ∈ S) (index : Int) :
    Agree SameOperandError (fun n m => n ∈ S ∧ m = f n) (i.idAt index)
      ((i.rename f).idAt index) := by
  refine agree_readAt (fun o ho => ?_) index .id
  cases o with
  | id name =>
    have hname : name ∈ i.idNames :=
      List.mem_append_right _ (List.mem_filterMap.mpr ⟨.id name, ho, rfl⟩)
    exact .some ⟨hi name hname, rfl⟩
  | _ => exact .none

theorem agree_intAt (index : Int) :
    Agree SameOperandError Eq (i.intAt index) ((i.rename f).intAt index) := by
  refine agree_readAt (fun o _ => ?_) index .integer
  cases o with
  | int n => exact .some rfl
  | _ => exact .none

theorem agree_textAt (index : Int) :
    Agree SameOperandError Eq (i.textAt index) ((i.rename f).textAt index) := by
  refine agree_readAt (fun o _ => ?_) index .string
  cases o with
  | string text | word text => exact .some rfl
  | _ => exact .none

theorem idNames_rename (os : List Operand) :
    Module.Declarations.idNames (os.map (·.rename f)) =
      (Module.Declarations.idNames os).map f := by
  unfold Module.Declarations.idNames
  rw [List.filterMap_map, List.map_filterMap]
  congr 1
  funext o
  cases o <;> rfl

end Operands

end Assembly

namespace Module

open Assembly (Instruction Operand OperandError SameOperandError agree_idAt agree_intAt
  agree_textAt idNames_rename)

def DeclarationError.errorClass : DeclarationError → ErrorClass
  | .operand e => e.errorClass
  | .noResult .. => .module
  | .endlessComparison => .recursion

def SameDeclarationError (e e' : DeclarationError) : Prop := e.errorClass = e'.errorClass

namespace Declarations

/-- `e` says what `d` says under other names of the ids. Annotations are left out. -/
structure Renamed (f : String → String) (S : Set String) (d e : Declarations) : Prop where
  known : ∀ n ∈ d.ids, n ∈ S
  ids : e.ids = d.ids.map f
  names : e.names = d.names
  types : e.types = d.types
  pointees : e.pointees = d.pointees
  imageSampled : e.imageSampled = d.imageSampled
  constants : e.constants = d.constants
  globals : e.globals = d.globals
  entryPoints : e.entryPoints = d.entryPoints
  roots : e.roots = d.roots

/-- The same id, and modules that differ in names only. -/
def RenamedResult (f : String → String) (S : Set String) (p q : Id × Declarations) : Prop :=
  p.1 = q.1 ∧ Renamed f S p.2 q.2

theorem agree_ask {P : α → β → Prop} {x : Except OperandError α} {y : Except OperandError β}
    (h : Agree SameOperandError P x y) : Agree SameDeclarationError P (ask x) (ask y) := by
  cases h with
  | ok h => exact .ok h
  | error h => exact .error h

section Reading

variable {f : String → String} {S : Set String} (hf : Set.InjOn f S)
include hf

private theorem idxOf?_map {names : List String} (hs : ∀ n ∈ names, n ∈ S) {name : String}
    (hn : name ∈ S) : (names.map f).idxOf? (f name) = names.idxOf? name := by
  induction names with
  | nil => rfl
  | cons n names ih =>
    rw [List.forall_mem_cons] at hs
    have hhead : (f n == f name) = (n == name) := by
      rw [Bool.eq_iff_iff, beq_iff_eq, beq_iff_eq]
      exact hf.eq_iff hs.1 hn
    rw [List.map_cons, List.idxOf?_cons, List.idxOf?_cons, hhead, ih hs.2]

variable {d e : Declarations}
  (h : Renamed f S d e) {i : Instruction} (hi : ∀ n ∈ i.idNames, n ∈ S)
include h

theorem idOf?_renamed {name : String} (hn : name ∈ S) : e.idOf? (f name) = d.idOf? name := by
  unfold idOf?
  rw [h.ids, idxOf?_map hf h.known hn]

theorem renamed_intern {name : String} (hn : name ∈ S) :
    RenamedResult f S (d.intern name) (e.intern (f name)) := by
  unfold intern
  rw [idOf?_renamed hf h hn]
  cases d.idOf? name with
  | some id => exact ⟨rfl, h⟩
  | none =>
    refine ⟨?_, { h with known := ?_, ids := ?_ }⟩
    · show (d.ids.length : Int) + 1 = e.ids.length + 1
      rw [h.ids, List.length_map]
    · exact List.forall_mem_append.mpr ⟨h.known, List.forall_mem_singleton.mpr hn⟩
    · show e.ids ++ [f name] = (d.ids ++ [name]).map f
      rw [h.ids, List.map_append, List.map_singleton]

theorem renamed_internAll {names : List String} (hn : ∀ n ∈ names, n ∈ S) :
    (d.internAll names).1 = (e.internAll (names.map f)).1 ∧
      Renamed f S (d.internAll names).2 (e.internAll (names.map f)).2 := by
  induction names generalizing d e with
  | nil => exact ⟨rfl, h⟩
  | cons name names ih =>
    rw [List.forall_mem_cons] at hn
    obtain ⟨hid, h⟩ := renamed_intern hf h hn.1
    obtain ⟨hids, h⟩ := ih h hn.2
    exact ⟨congrArg₂ List.cons hid hids, h⟩

include hi

theorem agree_result : Agree SameDeclarationError (RenamedResult f S) (d.result i)
    (e.result (i.rename f)) := by
  unfold result Instruction.rename
  cases hr : i.result with
  | none => exact .error rfl
  | some name =>
    have hn : name ∈ S := hi name (List.mem_append_left _ (by rw [hr]; exact List.mem_singleton_self _))
    exact .ok (renamed_intern hf h hn)

theorem agree_operandId (index : Int) : Agree SameDeclarationError (RenamedResult f S)
    (d.operandId i index) (e.operandId (i.rename f) index) := by
  refine (agree_ask (agree_idAt hi index)).bind fun name _ ⟨hn, hname⟩ => ?_
  rw [hname]
  exact .ok (renamed_intern hf h hn)

theorem agree_arrayLength : Agree SameDeclarationError
    (fun p q => p.1 = q.1 ∧ Renamed f S p.2 q.2) (d.arrayLength i)
    (e.arrayLength (i.rename f)) := by
  refine (agree_operandId hf h hi 1).bind fun p q ⟨hid, h⟩ => .ok ⟨?_, h⟩
  dsimp only
  rw [h.constants, hid]

end Reading

section Describing

variable {f : String → String} {S : Set String} {d e : Declarations} (h : Renamed f S d e)
include h

theorem findRoot_renamed (t : TypeDescriptor) (name : String) (roots : List Id) :
    e.findRoot t name roots = d.findRoot t name roots := by
  induction roots with
  | nil => rfl
  | cons root roots ih =>
    unfold findRoot
    rw [h.names, h.types, ih]

theorem agree_describeStruct (t : TypeDescriptor) :
    Agree SameDeclarationError (fun p q => Renamed f S p.1 q.1 ∧ p.2 = q.2) (d.describeStruct t)
      (e.describeStruct t) := by
  have hname : e.name t.selfId = d.name t.selfId := by
    unfold Declarations.name
    rw [h.names]
  unfold describeStruct
  rw [hname, h.roots]
  dsimp only
  split
  · exact .ok ⟨h, rfl⟩
  · rw [findRoot_renamed h]
    cases d.findRoot t (d.name t.selfId) d.roots with
    | error _ => exact .error rfl
    | ok root =>
      cases root with
      | some root => exact .ok ⟨h, rfl⟩
      | none =>
        exact .ok ⟨{ h with roots := rfl }, rfl⟩

variable (hf : Set.InjOn f S) {i : Instruction} (hi : ∀ n ∈ i.idNames, n ∈ S)
include hf hi

theorem agree_describe (x : Id) (kind : TypeOpcode) :
    Agree SameDeclarationError (fun p q => Renamed f S p.1 q.1 ∧ p.2 = q.2) (d.describe x kind i)
      (e.describe x kind (i.rename f)) := by
  cases kind with
  | void | bool | sampler | sampledImage | unknown | function => exact .ok ⟨h, rfl⟩
  | int =>
    refine (agree_ask (agree_intAt 0)).bind fun width _ hw => ?_
    refine (agree_ask (agree_intAt 1)).bind fun signed _ hs => ?_
    rw [hw, hs]
    exact .ok ⟨h, rfl⟩
  | float =>
    refine (agree_ask (agree_intAt 0)).bind fun width _ hw => ?_
    rw [hw]
    exact .ok ⟨h, rfl⟩
  | image =>
    have hoperand : (i.rename f).operands[5]? = i.operands[5]?.map (·.rename f) :=
      List.getElem?_map
    unfold describe
    dsimp only
    rw [hoperand, h.imageSampled]
    rcases i.operands[5]? with _ | o
    · exact .ok ⟨{ h with imageSampled := rfl }, rfl⟩
    · cases o <;> exact .ok ⟨{ h with imageSampled := rfl }, rfl⟩
  | vector | matrix =>
    refine (agree_operandId hf h hi 0).bind fun p q ⟨hc, h⟩ => ?_
    dsimp only
    rw [h.types, hc]
    split
    · exact .ok ⟨h, rfl⟩
    · refine (agree_ask (agree_intAt 1)).bind fun n _ hn => ?_
      rw [hn]
      exact .ok ⟨h, rfl⟩
  | array =>
    refine (agree_operandId hf h hi 0).bind fun p q ⟨hc, h⟩ => ?_
    dsimp only
    rw [h.types, hc]
    split
    · exact .ok ⟨h, rfl⟩
    · refine (agree_arrayLength hf h hi).bind fun p q ⟨hn, h⟩ => ?_
      rw [hn]
      exact .ok ⟨h, rfl⟩
  | runtimeArray =>
    refine (agree_operandId hf h hi 0).bind fun p q ⟨hc, h⟩ => .ok ⟨h, ?_⟩
    rw [h.types, hc]
  | struct =>
    have hnames : ∀ n ∈ idNames i.operands, n ∈ S := fun n hn =>
      hi n (List.mem_append_right _ hn)
    have hoperands : idNames (i.rename f).operands = (idNames i.operands).map f :=
      idNames_rename i.operands
    obtain ⟨hmembers, h⟩ := renamed_internAll hf h hnames
    unfold describe
    dsimp only
    rw [hoperands, ← hmembers]
    refine (agree_describeStruct h _).bind fun p q ⟨h, ht⟩ => .ok ⟨h, ?_⟩
    rw [ht]
  | pointer =>
    refine (agree_operandId hf h hi 1).bind fun p q ⟨hc, h⟩ => .ok ⟨{ h with pointees := ?_ }, ?_⟩
    · rw [h.pointees, hc]
    · rw [h.types, hc]

theorem agree_declareType (kind : TypeOpcode) :
    Agree SameDeclarationError (Renamed f S) (d.declareType kind i)
      (e.declareType kind (i.rename f)) := by
  refine (agree_result hf h hi).bind fun p q ⟨hid, h⟩ => ?_
  dsimp only
  rw [hid]
  refine (agree_describe h hf hi q.1 kind).bind fun a b ⟨h, ht⟩ => ?_
  obtain ⟨d₁, t?⟩ := a
  obtain ⟨e₁, u?⟩ := b
  obtain rfl : t? = u? := ht
  cases t? with
  | none => exact .ok h
  | some t =>
    refine .ok { h with types := ?_ }
    dsimp only
    rw [h.types]

end Describing

section Steps

variable {f : String → String} {S : Set String} {d e : Declarations} (h : Renamed f S d e)
  (hf : Set.InjOn f S) {i : Instruction} (hi : ∀ n ∈ i.idNames, n ∈ S)
include h hf hi

/-- An instruction that annotates nothing does the same under other names. -/
theorem agree_declare_plain (ha : annotates i = false) :
    Agree SameDeclarationError (Renamed f S) (d.declare i) (e.declare (i.rename f)) := by
  have hopcode : (i.rename f).opcode = i.opcode := rfl
  unfold declare
  unfold annotates at ha
  rw [hopcode]
  cases ho : Opcode.ofName i.opcode with
  | memberName | decorate | memberDecorate =>
    rw [ho] at ha
    cases ha
  | entryPoint =>
    refine (agree_ask (agree_textAt 2)).bind fun name _ hname => ?_
    refine (agree_ask (agree_textAt 0)).bind fun model _ hmodel => ?_
    rw [hname, hmodel]
    refine .ok { h with entryPoints := ?_ }
    rw [h.entryPoints]
  | name =>
    refine (agree_ask (agree_textAt 1)).bind fun text _ htext => ?_
    refine (agree_operandId hf h hi 0).bind fun p q ⟨hc, h⟩ => .ok { h with names := ?_ }
    rw [h.names, hc, htext]
  | constant =>
    dsimp only
    unfold Instruction.rename
    rw [List.getElem?_map]
    rcases i.operands[1]? with _ | o
    · exact .error rfl
    · cases o with
      | int n =>
        refine (agree_result hf h hi).bind fun p q ⟨hc, h⟩ => .ok { h with constants := ?_ }
        rw [h.constants, hc]
      | _ => exact .ok h
  | «variable» =>
    refine (agree_result hf h hi).bind fun p q ⟨hid, h⟩ => ?_
    refine (agree_operandId hf h hi 0).bind fun p' q' ⟨htype, h⟩ => ?_
    refine (agree_ask (agree_textAt 1)).bind fun storage _ hstorage => ?_
    refine .ok { h with globals := ?_ }
    rw [h.globals, hid, htype, hstorage]
  | type kind => exact agree_declareType h hf hi kind
  | silent => exact .ok h

end Steps

end Declarations
end Module
end ShaderReflection
