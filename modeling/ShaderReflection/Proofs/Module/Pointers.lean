import ShaderReflection.Module.Resources
import ShaderReflection.Proofs.Module.TypeTable

/-! Pointer types. A pointer copies the descriptor of the type that it points to when it is declared.
In a listing that declares every type once, the copy stays true: that type never changes again. -/
namespace ShaderReflection.Module

open Assembly (Instruction Operand)

def isPointerDeclaration (i : Instruction) : Bool := i.opcode = "OpTypePointer"

theorem isPointerDeclaration_iff {i : Instruction} :
    isPointerDeclaration i = true ↔ Opcode.ofName i.opcode = .type .pointer := by
  rw [ofName_eq_pointer_iff, isPointerDeclaration, decide_eq_true_eq]

namespace Declarations

structure PointerOf (d : Declarations) (i : Instruction) (x pointee : Id) : Prop where
  opcode : isPointerDeclaration i = true
  id : ∃ name, i.result = some name ∧ d.idOf? name = some x
  pointee : ∃ name, i.idAt 1 = .ok name ∧ d.idOf? name = some pointee

section Steps

variable {d e m : Declarations} {before after : List Instruction} {i : Instruction}

theorem PointerOf.mono {x c : Id} (hp : d.ids <+: e.ids) (h : PointerOf d i x c) :
    PointerOf e i x c where
  opcode := h.opcode
  id := h.id.imp fun _ ⟨hn, hx⟩ => ⟨hn, idOf?_mono hp hx⟩
  pointee := h.pointee.imp fun _ ⟨hn, hc⟩ => ⟨hn, idOf?_mono hp hc⟩

theorem PointerOf.settled {x c : Id} (h : PointerOf d i x c) (hi : i ∈ before) :
    d.Settled before x := by
  obtain ⟨name, hn, hx⟩ := h.id
  have ht := isTypeDeclaration_of_ofName (isPointerDeclaration_iff.mp h.opcode)
  exact ⟨name, List.mem_filterMap.mpr ⟨i, List.mem_filter.mpr ⟨hi, ht⟩, hn⟩, hx⟩

theorem describe_pointer_ok {x : Id} {t? : Option TypeDescriptor}
    (h : d.describe x .pointer i = .ok (e, t?)) :
    ∃ name c ids, d.ids <+: ids ∧ i.idAt 1 = .ok name ∧ idOf? { d with ids } name = some c ∧
      e = { d with ids, pointees := d.pointees.set x c } ∧
      t? = (d.types.get? c).map fun t => { t with pointer := true } := by
  obtain ⟨⟨c, d₁⟩, hc, h⟩ := bind_eq_ok.mp h
  obtain ⟨name, hn, hid⟩ := operandId_target hc
  obtain ⟨ids, hp, rfl⟩ := interned_operandId hc
  obtain ⟨rfl, rfl⟩ := Prod.mk.inj (pure_eq_ok.mp h)
  exact ⟨name, c, ids, hp, hn, hid, rfl, rfl⟩

/-- What an instruction does to pointers: nothing, or it declares one and copies the descriptor of
the type that this one points to, if there is one. -/
theorem declare_pointees (h : d.declare i = .ok e) :
    (isPointerDeclaration i = false ∧ e.pointees = d.pointees) ∨
      ∃ x c, PointerOf e i x c ∧ e.pointees = d.pointees.set x c ∧
        e.types = (d.types.get? c).elim d.types fun t => d.types.set x { t with pointer := true } := by
  have hd := declare_ok h
  have ho := isPointerDeclaration_iff (i := i)
  generalize Opcode.ofName i.opcode = o at hd ho
  have hother (hne : o ≠ .type .pointer) : isPointerDeclaration i = false :=
    Bool.eq_false_iff.mpr (mt ho.mp hne)
  cases hd with
  | @type kind _ ht =>
    obtain ⟨ids, name, x, d₁, t?, hp, hn, hx, hdescribe, rfl⟩ := declareType_ok ht
    by_cases hk : kind = .pointer
    · subst hk
      obtain ⟨pointee, c, ids', hp', hc, hid, rfl, rfl⟩ := describe_pointer_ok hdescribe
      have hxe := idOf?_mono (e := { d with ids := ids' }) hp' hx
      refine .inr ⟨x, c, ⟨ho.mpr rfl, ⟨name, hn, hxe⟩, ⟨pointee, hc, hid⟩⟩, rfl, ?_⟩
      dsimp only
      cases d.types.get? c <;> rfl
    · have hkept := (describe_sides hdescribe).1.resolve_left hk
      exact .inl ⟨hother (by simpa using hk), hkept⟩
  | _ => exact .inl ⟨hother (by simp), rfl⟩

/-- Pointer types are those that have been declared, and each one without a descriptor or with the
descriptor of the type that it points to. The ids are those of the whole module `m`. -/
structure PointersTrue (m : Declarations) (done : List Instruction) (d : Declarations) : Prop where
  settled : ∀ x t, d.types.get? x = some t → m.Settled done x
  declared : ∀ x c, d.pointees.get? x = some c → ∃ i ∈ done, PointerOf m i x c
  kept : ∀ i ∈ done, isPointerDeclaration i = true →
    ∃ x c, PointerOf m i x c ∧ d.pointees.get? x = some c
  types : ∀ x c, d.pointees.get? x = some c → d.types.get? x = none ∨
    ∃ t, d.types.get? c = some t ∧ d.types.get? x = some { t with pointer := true }

private theorem pointersTrue_empty (m : Declarations) : PointersTrue m [] empty where
  settled := fun _ _ h => by cases h
  declared := fun _ _ h => by cases h
  kept := fun _ h => by cases h
  types := fun _ _ h => by cases h

/-- A new type leaves the copies of the pointers that are there true. -/
theorem PointersTrue.types_kept (hp : PointersTrue m before d)
    (once : (typeResults (before ++ i :: after)).Nodup) (h : d.declare i = .ok e)
    (hm : e.declareAll after = .ok m) {x c : Id} (hx : d.pointees.get? x = some c) :
    e.types.get? x = none ∨
      ∃ t, e.types.get? c = some t ∧ e.types.get? x = some { t with pointer := true } := by
  obtain ⟨j, hj, hjx⟩ := hp.declared x c hx
  rcases declare_types_once once h hm with hsame | ⟨_, y, u, -, hy, -, -, hset⟩
  · rw [hsame]
    exact hp.types x c hx
  · have hxy : x ≠ y := fun hxy => hy (hxy ▸ hjx.settled hj)
    rw [hset, Table.get?_set_of_ne _ hxy]
    rcases hp.types x c hx with hnone | ⟨t, hc, ht⟩
    · exact .inl hnone
    · have hcy : c ≠ y := fun hcy => hy (hcy ▸ hp.settled c t hc)
      exact .inr ⟨t, by rw [Table.get?_set_of_ne _ hcy, hc], ht⟩

theorem PointersTrue.step_other (hp : PointersTrue m before d)
    (once : (typeResults (before ++ i :: after)).Nodup) (h : d.declare i = .ok e)
    (hm : e.declareAll after = .ok m) (hi : isPointerDeclaration i = false)
    (hpointees : e.pointees = d.pointees) : PointersTrue m (before ++ [i]) e where
  settled := fun _ _ hx => settled_step hp.settled once h hm hx
  declared := fun x c hx => by
    obtain ⟨j, hj, hjx⟩ := hp.declared x c (hpointees ▸ hx)
    exact ⟨j, List.mem_append_left _ hj, hjx⟩
  kept := fun j hj hopcode => by
    rcases List.mem_append.mp hj with hj | hj
    · rw [hpointees]
      exact hp.kept j hj hopcode
    · rw [List.mem_singleton.mp hj, hi] at hopcode
      cases hopcode
  types := fun _ _ hx => hp.types_kept once h hm (hpointees ▸ hx)

theorem PointersTrue.step_pointer (hp : PointersTrue m before d)
    (once : (typeResults (before ++ i :: after)).Nodup) (h : d.declare i = .ok e)
    (hm : e.declareAll after = .ok m) {x c : Id} (hx : PointerOf e i x c)
    (hpointees : e.pointees = d.pointees.set x c)
    (htypes : e.types =
      (d.types.get? c).elim d.types fun t => d.types.set x { t with pointer := true }) :
    PointersTrue m (before ++ [i]) e := by
  have hxm := hx.mono (ids_declareAll hm)
  have hnew : ¬m.Settled before x := by
    obtain ⟨name, hn, hid⟩ := hxm.id
    have ht := isTypeDeclaration_of_ofName (isPointerDeclaration_iff.mp hx.opcode)
    exact not_settled_of_once once ht hn hid
  constructor
  case settled => exact fun _ _ hy => settled_step hp.settled once h hm hy
  case declared =>
    intro y c' hy
    rw [hpointees, Table.get?_set] at hy
    split at hy
    case isTrue hyx =>
      rw [hyx, ← Option.some.inj hy]
      exact ⟨i, by simp, hxm⟩
    case isFalse =>
      obtain ⟨j, hj, hjy⟩ := hp.declared y c' hy
      exact ⟨j, List.mem_append_left _ hj, hjy⟩
  case kept =>
    intro j hj hopcode
    rw [hpointees]
    rcases List.mem_append.mp hj with hj | hj
    · obtain ⟨y, c', hy, hc'⟩ := hp.kept j hj hopcode
      have hyx : y ≠ x := fun hyx => hnew (hyx ▸ hy.settled hj)
      exact ⟨y, c', hy, by rw [Table.get?_set_of_ne _ hyx, hc']⟩
    · rw [List.mem_singleton.mp hj]
      exact ⟨x, c, hxm, Table.get?_set_self ..⟩
  case types =>
    intro y c' hy
    rw [hpointees, Table.get?_set] at hy
    split at hy
    case isFalse => exact hp.types_kept once h hm hy
    case isTrue hyx =>
      rw [hyx, ← Option.some.inj hy, htypes]
      cases hc : d.types.get? c with
      | none =>
        left
        rw [Option.elim_none, Option.eq_none_iff_forall_ne_some]
        exact fun t ht => hnew (hp.settled x t ht)
      | some t =>
        right
        have hcx : c ≠ x := fun hcx => hnew (hcx ▸ hp.settled c t hc)
        rw [Option.elim_some, Table.get?_set_self, Table.get?_set_of_ne _ hcx]
        exact ⟨t, hc, rfl⟩

theorem PointersTrue.step (hp : PointersTrue m before d)
    (once : (typeResults (before ++ i :: after)).Nodup) (h : d.declare i = .ok e)
    (hm : e.declareAll after = .ok m) : PointersTrue m (before ++ [i]) e := by
  rcases declare_pointees h with ⟨hi, hpointees⟩ | ⟨x, c, hx, hpointees, htypes⟩
  · exact hp.step_other once h hm hi hpointees
  · exact hp.step_pointer once h hm hx hpointees htypes

end Steps

/-- In a listing that declares every type once, pointers copy descriptors that stay as they are. -/
theorem pointersTrue {is : List Instruction} {d : Declarations} (h : ofInstructions is = .ok d)
    (once : (typeResults (moduleScope false is)).Nodup) :
    PointersTrue d (moduleScope false is) d := by
  refine declareAll_induction (P := PointersTrue d) [] h (pointersTrue_empty d)
    fun before i after s s' he hs hstep hrest => ?_
  have honce : (typeResults (before ++ i :: after)).Nodup := he ▸ once
  exact hs.step honce hstep hrest

/-- A type that is given for a variable is the one that it holds or points to, up to the flag that
marks pointers. -/
theorem type_of_baseType {is : List Instruction} {d : Declarations} (h : ofInstructions is = .ok d)
    (once : (typeResults (moduleScope false is)).Nodup) {v : Variable} {t : TypeDescriptor}
    (ht : d.types.get? v.typeId = some t) :
    ∃ u, d.types.get? (d.baseTypeId v) = some u ∧ t = { u with pointer := t.pointer } := by
  unfold baseTypeId
  cases hc : d.pointees.get? v.typeId with
  | none => exact ⟨t, ht, rfl⟩
  | some c =>
    rcases (pointersTrue h once).types v.typeId c hc with hnone | ⟨u, hu, ht'⟩
    · rw [ht] at hnone
      cases hnone
    · rw [ht] at ht'
      obtain rfl := Option.some.inj ht'
      exact ⟨u, hu, rfl⟩

end Declarations
end ShaderReflection.Module
