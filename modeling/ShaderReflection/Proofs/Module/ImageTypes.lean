import ShaderReflection.Proofs.Module.Stability

/-! Image types and arrays of them. An array copies the descriptor of its element; how an image is
used is kept in a table of its own, under the id of the image alone. -/
namespace ShaderReflection.Module

open Assembly (Instruction Operand)

def isImageDeclaration (i : Instruction) : Bool := i.opcode = "OpTypeImage"

def isArrayDeclaration (i : Instruction) : Bool :=
  i.opcode = "OpTypeArray" || i.opcode = "OpTypeRuntimeArray"

/-- How an image is used with samplers: the sixth operand of its declaration, or else 1. -/
def imageUse (i : Instruction) : Int :=
  match i.operands[5]? with
  | some (Operand.int n) => n
  | _ => 1

theorem isImageDeclaration_iff {i : Instruction} :
    isImageDeclaration i = true ↔ Opcode.ofName i.opcode = .type .image := by
  have himage : Opcode.ofName i.opcode = .type .image ↔ i.opcode = "OpTypeImage" :=
    ofName_eq_type_iff (by decide) (by decide) (by decide)
  rw [himage, isImageDeclaration, decide_eq_true_eq]

theorem isArrayDeclaration_iff {i : Instruction} :
    isArrayDeclaration i = true ↔
      Opcode.ofName i.opcode = .type .array ∨ Opcode.ofName i.opcode = .type .runtimeArray := by
  have harray : Opcode.ofName i.opcode = .type .array ↔ i.opcode = "OpTypeArray" :=
    ofName_eq_type_iff (by decide) (by decide) (by decide)
  have hruntime : Opcode.ofName i.opcode = .type .runtimeArray ↔
      i.opcode = "OpTypeRuntimeArray" := ofName_eq_type_iff (by decide) (by decide) (by decide)
  rw [harray, hruntime, isArrayDeclaration, Bool.or_eq_true, decide_eq_true_eq, decide_eq_true_eq]

private theorem isTypeDeclaration_of_array {i : Instruction} (h : isArrayDeclaration i = true) :
    isTypeDeclaration i = true := by
  rcases isArrayDeclaration_iff.mp h with hk | hk <;> exact isTypeDeclaration_of_ofName hk

namespace Declarations

section Steps

variable {d e : Declarations} {i : Instruction}

/-- The uses of images change by the declaration of an image type, which gets its descriptor at the
same time. -/
theorem declare_imageSampled (h : d.declare i = .ok e) :
    (isImageDeclaration i = false ∧ e.imageSampled = d.imageSampled) ∨
      isImageDeclaration i = true ∧ ∃ name x, i.result = some name ∧ e.idOf? name = some x ∧
        e.imageSampled = d.imageSampled.set x (imageUse i) ∧
        e.types = d.types.set x { baseType := .image, selfId := x } := by
  have hd := declare_ok h
  have ho := isImageDeclaration_iff (i := i)
  generalize Opcode.ofName i.opcode = o at hd ho
  have hother (hne : o ≠ .type .image) : isImageDeclaration i = false :=
    Bool.eq_false_iff.mpr (mt ho.mp hne)
  cases hd with
  | @type kind _ ht =>
    obtain ⟨ids, name, x, d₁, t?, -, hn, hx, hdescribe, rfl⟩ := declareType_ok ht
    by_cases hk : kind = .image
    · subst hk
      obtain ⟨rfl, rfl⟩ := Prod.mk.inj (Except.ok.inj hdescribe)
      exact .inr ⟨ho.mpr rfl, name, x, hn, hx, rfl, rfl⟩
    · exact .inl ⟨hother (by simpa using hk), (describe_sides hdescribe).2.resolve_left hk⟩
  | _ => exact .inl ⟨hother (by simp), rfl⟩

theorem imageSampled_writtenByTypes : WrittenByTypes (·.imageSampled) := by
  intro d e i h
  rcases declare_imageSampled h with ⟨-, hsame⟩ | ⟨hi, name, x, hn, hx, hset, -⟩
  · exact .inl hsame
  · exact .inr ⟨name, x, _, isTypeDeclaration_of_ofName (isImageDeclaration_iff.mp hi), hn, hx,
      hset⟩

theorem describe_array_ok {id : Id} {kind : TypeOpcode} {t? : Option TypeDescriptor}
    (hk : kind = .array ∨ kind = .runtimeArray) (h : d.describe id kind i = .ok (e, t?)) :
    ∃ element c length, i.idAt 0 = .ok element ∧ e.idOf? element = some c ∧
      t? = (d.types.get? c).map fun t => { t with array := t.array ++ [length] } := by
  rcases hk with rfl | rfl
  · obtain ⟨⟨c, d₁⟩, hc, h⟩ := bind_eq_ok.mp h
    obtain ⟨element, he, hid⟩ := operandId_target hc
    obtain ⟨ids, -, rfl⟩ := interned_operandId hc
    dsimp only at h
    split at h
    case h_1 hnone =>
      obtain ⟨rfl, rfl⟩ := Prod.mk.inj (pure_eq_ok.mp h)
      exact ⟨element, c, 0, he, hid, by rw [hnone]; rfl⟩
    case h_2 t ht =>
      obtain ⟨⟨length, d₂⟩, hlength, h⟩ := bind_eq_ok.mp h
      obtain ⟨rfl, rfl⟩ := Prod.mk.inj (pure_eq_ok.mp h)
      obtain ⟨ids', hp, rfl⟩ := interned_arrayLength hlength
      exact ⟨element, c, length, he, idOf?_mono (d := { d with ids }) hp hid, by rw [ht]; rfl⟩
  · obtain ⟨⟨c, d₁⟩, hc, h⟩ := bind_eq_ok.mp h
    obtain ⟨element, he, hid⟩ := operandId_target hc
    obtain ⟨ids, -, rfl⟩ := interned_operandId hc
    obtain ⟨rfl, rfl⟩ := Prod.mk.inj (pure_eq_ok.mp h)
    exact ⟨element, c, 0, he, hid, rfl⟩

/-- An array copies the descriptor of its element, if there is one. -/
theorem declare_array (hi : isArrayDeclaration i = true) (h : d.declare i = .ok e) :
    ∃ name x element c, i.result = some name ∧ e.idOf? name = some x ∧
      i.idAt 0 = .ok element ∧ e.idOf? element = some c ∧ e.imageSampled = d.imageSampled ∧
      ((d.types.get? c = none ∧ e.types = d.types) ∨ ∃ t length, d.types.get? c = some t ∧
        e.types = d.types.set x { t with array := t.array ++ [length] }) := by
  have hkind := isArrayDeclaration_iff.mp hi
  have hd := declare_ok h
  generalize Opcode.ofName i.opcode = o at hd hkind
  cases hd with
  | @type kind _ ht =>
    have hk : kind = .array ∨ kind = .runtimeArray := by simpa using hkind
    have himage : kind ≠ .image := by rcases hk with rfl | rfl <;> decide
    obtain ⟨ids, name, x, d₁, t?, hp, hn, hx, hdescribe, rfl⟩ := declareType_ok ht
    obtain ⟨element, c, length, he, hc, rfl⟩ := describe_array_ok hk hdescribe
    have hkept := (describe_sides hdescribe).2.resolve_left himage
    obtain ⟨_, _, _, _, hp', rfl, -, -⟩ := describe_ok hdescribe
    refine ⟨name, x, element, c, hn, idOf?_mono (d := { d with ids }) hp' hx, he, hc, hkept, ?_⟩
    cases ht : d.types.get? c with
    | none => exact .inl ⟨rfl, rfl⟩
    | some t => exact .inr ⟨t, length, rfl, rfl⟩
  | _ => simp at hkind

end Steps

section Listing

variable {is : List Instruction} {d : Declarations} (h : ofInstructions is = .ok d)
  (once : (typeResults (moduleScope false is)).Nodup)
include h once

/-- An image type keeps its descriptor, and the use that it was declared with. -/
theorem imageType {i : Instruction} (hi : i ∈ moduleScope false is)
    (ho : isImageDeclaration i = true) {name : String} (hn : i.result = some name) :
    ∃ x, d.idOf? name = some x ∧ d.imageSampled.get? x = some (imageUse i) ∧
      d.types.get? x = some { baseType := .image, selfId := x } := by
  have htype := isTypeDeclaration_of_ofName (isImageDeclaration_iff.mp ho)
  obtain ⟨before, s, s', hat⟩ := exists_declaredAt h once hi htype
  rcases declare_imageSampled hat.step with ⟨hother, -⟩ | ⟨-, name', x, hn', hx, huse, hset⟩
  · rw [ho] at hother
    cases hother
  · obtain rfl := Option.some.inj (hn.symm.trans hn')
    have hxd := idOf?_mono hat.ids hx
    have hsettled := (hat.new hn hxd).2
    refine ⟨x, hxd, ?_, ?_⟩
    · rw [hat.kept imageSampled_writtenByTypes hsettled, huse, Table.get?_set_self]
    · rw [hat.kept types_writtenByTypes hsettled, hset, Table.get?_set_self]

/-- An array type has no use of its own, and the base type of its element if it has a descriptor at
all. -/
theorem arrayType {i : Instruction} (hi : i ∈ moduleScope false is)
    (ho : isArrayDeclaration i = true) {name element : String} (hn : i.result = some name)
    (he : i.idAt 0 = .ok element) :
    ∃ x c, d.idOf? name = some x ∧ d.idOf? element = some c ∧ d.imageSampled.get? x = none ∧
      ∀ t, d.types.get? x = some t → ∃ u, d.types.get? c = some u ∧ t.baseType = u.baseType := by
  obtain ⟨before, s, s', hat⟩ := exists_declaredAt h once hi (isTypeDeclaration_of_array ho)
  obtain ⟨name', x, element', c, hn', hx, he', hc, huse, htypes⟩ := declare_array ho hat.step
  obtain rfl := Option.some.inj (hn.symm.trans hn')
  obtain rfl := Except.ok.inj (he.symm.trans he')
  have hxd := idOf?_mono hat.ids hx
  obtain ⟨hnew, hsettled⟩ := hat.new hn hxd
  refine ⟨x, c, hxd, idOf?_mono hat.ids hc, ?_, fun t ht => ?_⟩
  · rw [hat.kept imageSampled_writtenByTypes hsettled, huse, Option.eq_none_iff_forall_ne_some]
    exact fun n hx => hnew (hat.old imageSampled_writtenByTypes rfl hx)
  · rw [hat.kept types_writtenByTypes hsettled] at ht
    rcases htypes with ⟨-, hsame⟩ | ⟨u, length, hu, hset⟩
    · rw [hsame] at ht
      exact absurd (hat.old types_writtenByTypes rfl ht) hnew
    · rw [hset, Table.get?_set_self] at ht
      have hcs := hat.old types_writtenByTypes rfl hu
      have hcx : c ≠ x := fun hcx => hnew (hcx ▸ hcs)
      refine ⟨u, ?_, by rw [← Option.some.inj ht]⟩
      rw [hat.kept types_writtenByTypes (hcs.append [i]), hset, Table.get?_set_of_ne _ hcx, hu]

end Listing

end Declarations
end ShaderReflection.Module
