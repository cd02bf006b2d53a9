import Mathlib.Data.List.Nodup
import ShaderReflection.Proofs.Module.Equivalence
import ShaderReflection.Proofs.Module.Steps

/-! The type table of a listing that declares every type once: an id gets its descriptor when it is
declared, and nothing that comes later changes it. -/
namespace ShaderReflection.Module

open Assembly (Instruction Operand)

def isTypeDeclaration (i : Instruction) : Bool := "OpType".isPrefixOf i.opcode

def typeResults (is : List Instruction) : List String :=
  (is.filter isTypeDeclaration).filterMap (·.result)

@[simp] theorem typeResults_append (is js : List Instruction) :
    typeResults (is ++ js) = typeResults is ++ typeResults js := by
  simp [typeResults]

theorem typeResults_singleton {i : Instruction} {name : String} (hi : isTypeDeclaration i = true)
    (hn : i.result = some name) : typeResults [i] = [name] := by
  simp [typeResults, hi, hn]

theorem mem_of_lookup_eq_some {k : String} {a : α} {es : List (String × α)}
    (h : es.lookup k = some a) : (k, a) ∈ es := by
  induction es with
  | nil => cases h
  | cons e es ih =>
    obtain ⟨k', a'⟩ := e
    rw [List.lookup_cons] at h
    split at h
    case h_1 hk =>
      rw [eq_of_beq hk, Option.some.inj h]
      exact List.mem_cons_self
    case h_2 => exact List.mem_cons_of_mem _ (ih h)

/-- What the names of instructions say about the kinds of instructions. -/
theorem ofName_eq_type {name : String} {kind : TypeOpcode}
    (h : Opcode.ofName name = .type kind) :
    (name, kind) ∈ TypeOpcode.named ∨ "OpType".isPrefixOf name = true ∧ kind = .unknown := by
  unfold Opcode.ofName at h
  split at h
  case h_1 o ho =>
    have hm := mem_of_lookup_eq_some ho
    rw [h] at hm
    simp [Opcode.named] at hm
  case h_2 =>
    split at h
    case h_1 k hk =>
      left
      rw [← Opcode.type.inj h]
      exact mem_of_lookup_eq_some hk
    case h_2 =>
      right
      split_ifs at h with hp
      exact ⟨hp, (Opcode.type.inj h).symm⟩

theorem isTypeDeclaration_of_ofName {i : Instruction} {kind : TypeOpcode}
    (h : Opcode.ofName i.opcode = .type kind) : isTypeDeclaration i = true := by
  rcases ofName_eq_type h with hm | ⟨hp, -⟩
  · have hall : ∀ p ∈ TypeOpcode.named, "OpType".isPrefixOf p.1 = true := by
      decide +kernel
    exact hall _ hm
  · exact hp

/-- A type declaration that is resolved is known by one name. -/
theorem ofName_eq_type_iff {kind : TypeOpcode} {key name : String} (hk : kind ≠ .unknown)
    (hkey : Opcode.ofName key = .type kind)
    (hall : ∀ p ∈ TypeOpcode.named, p.2 = kind → p.1 = key) :
    Opcode.ofName name = .type kind ↔ name = key := by
  constructor
  · intro h
    rcases ofName_eq_type h with hm | ⟨-, hunknown⟩
    · exact hall _ hm rfl
    · exact absurd hunknown hk
  · rintro rfl
    exact hkey

theorem ofName_eq_struct_iff {name : String} :
    Opcode.ofName name = .type .struct ↔ name = "OpTypeStruct" :=
  ofName_eq_type_iff (by decide) (by decide) (by decide)

theorem ofName_eq_pointer_iff {name : String} :
    Opcode.ofName name = .type .pointer ↔ name = "OpTypePointer" :=
  ofName_eq_type_iff (by decide) (by decide) (by decide)

/-- Apart from types, an instruction that declares something is known by one name. -/
theorem ofName_eq_iff {o : Opcode} {key name : String} (ho : o ≠ .silent)
    (hk : ∀ kind, o ≠ .type kind) (hkey : Opcode.named.lookup key = some o)
    (hall : ∀ p ∈ Opcode.named, p.2 = o → p.1 = key) : Opcode.ofName name = o ↔ name = key := by
  constructor
  · intro h
    unfold Opcode.ofName at h
    split at h
    case h_1 o' ho' =>
      rw [h] at ho'
      exact hall _ (mem_of_lookup_eq_some ho') rfl
    case h_2 =>
      split at h
      case h_1 k _ => exact absurd h.symm (hk k)
      case h_2 =>
        split_ifs at h
        · exact absurd h.symm (hk _)
        · exact absurd h.symm ho
  · rintro rfl
    unfold Opcode.ofName
    rw [hkey]

theorem ofName_eq_name_iff {name : String} : Opcode.ofName name = .name ↔ name = "OpName" :=
  ofName_eq_iff (by decide) (by intro _ h; cases h) (by decide) (by decide)

theorem ofName_eq_memberName_iff {name : String} :
    Opcode.ofName name = .memberName ↔ name = "OpMemberName" :=
  ofName_eq_iff (by decide) (by intro _ h; cases h) (by decide) (by decide)

theorem ofName_eq_variable_iff {name : String} :
    Opcode.ofName name = .variable ↔ name = "OpVariable" :=
  ofName_eq_iff (by decide) (by intro _ h; cases h) (by decide) (by decide)

theorem compoundCount_le_set {types : Table Id TypeDescriptor} {x : Id}
    (hx : types.get? x = none) (t : TypeDescriptor) :
    compoundCount types ≤ compoundCount (types.set x t) := by
  unfold compoundCount Table.values
  rw [Table.entries_set_of_get?_eq_none hx, List.map_append, List.filter_append, List.length_append]
  exact Nat.le_add_right _ _

namespace Declarations

/-- The ids of the types that some instructions declare, as a module knows them. -/
def Settled (d : Declarations) (done : List Instruction) (x : Id) : Prop :=
  ∃ name ∈ typeResults done, d.idOf? name = some x

theorem Settled.append {d : Declarations} {done : List Instruction} {x : Id}
    (h : d.Settled done x) (rest : List Instruction) : d.Settled (done ++ rest) x := by
  obtain ⟨name, hm, hx⟩ := h
  exact ⟨name, by simp [hm], hx⟩

variable {d e m : Declarations} {before after : List Instruction} {i : Instruction}

theorem settled_of_result (hi : isTypeDeclaration i = true) {name : String}
    (hn : i.result = some name) {x : Id} (hx : m.idOf? name = some x) :
    m.Settled (before ++ [i]) x := by
  refine ⟨name, ?_, hx⟩
  rw [typeResults_append, typeResults_singleton hi hn]
  simp

theorem not_settled_of_once (once : (typeResults (before ++ i :: after)).Nodup)
    (hi : isTypeDeclaration i = true) {name : String} (hn : i.result = some name) {x : Id}
    (hx : m.idOf? name = some x) : ¬ m.Settled before x := by
  rintro ⟨name', hm, hx'⟩
  rw [← List.singleton_append, typeResults_append, typeResults_append,
    typeResults_singleton hi hn] at once
  rw [idOf?_injective hx' hx] at hm
  exact List.disjoint_of_nodup_append once hm (by simp)

/-- Where every type is declared once, an instruction changes no descriptor that is there. -/
theorem declare_types_once (once : (typeResults (before ++ i :: after)).Nodup)
    (h : d.declare i = .ok e) (hm : e.declareAll after = .ok m) :
    e.types = d.types ∨ ∃ kind x t, Opcode.ofName i.opcode = .type kind ∧
      ¬ m.Settled before x ∧ m.Settled (before ++ [i]) x ∧ Described d.types x kind t ∧
      e.types = d.types.set x t := by
  rcases declare_types h with hsame | ⟨kind, name, x, t, hk, hn, hx, hd, he⟩
  · exact .inl hsame
  · have hi := isTypeDeclaration_of_ofName hk
    have hxm := idOf?_mono (ids_declareAll hm) hx
    exact .inr ⟨kind, x, t, hk, not_settled_of_once once hi hn hxm, settled_of_result hi hn hxm, hd,
      he⟩

/-- Types that have descriptors have been declared, and stay so. -/
theorem settled_step (hs : ∀ x t, d.types.get? x = some t → m.Settled before x)
    (once : (typeResults (before ++ i :: after)).Nodup) (h : d.declare i = .ok e)
    (hm : e.declareAll after = .ok m) {x : Id} {t : TypeDescriptor}
    (hx : e.types.get? x = some t) : m.Settled (before ++ [i]) x := by
  rcases declare_types_once once h hm with hsame | ⟨_, y, u, -, -, hy, -, hset⟩
  · exact (hs x t (hsame ▸ hx)).append [i]
  · by_cases hxy : x = y
    · exact hxy ▸ hy
    · rw [hset, Table.get?_set_of_ne _ hxy] at hx
      exact (hs x t hx).append [i]

theorem types_get?_eq_none (hs : ∀ x t, d.types.get? x = some t → m.Settled before x) {x : Id}
    (hx : ¬ m.Settled before x) : d.types.get? x = none :=
  Option.eq_none_iff_forall_ne_some.mpr fun t ht => hx (hs x t ht)

end Declarations
end ShaderReflection.Module
