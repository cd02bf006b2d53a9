import Mathlib.Data.List.Sort
import ShaderReflection.Module.Slots
import ShaderReflection.Proofs.Reflection.Completeness

/-! When the inputs of a vertex shader form a struct: their locations are the first natural numbers,
each of them once, and all their types are known. The fields are then in order of location, whatever
the order of the inputs. -/
namespace ShaderReflection

private theorem firstRepeated_eq_none_iff [DecidableEq α] {seen xs : List α} :
    firstRepeated seen xs = none ↔ xs.Nodup ∧ ∀ x ∈ xs, x ∉ seen := by
  induction xs generalizing seen with
  | nil => simp [firstRepeated]
  | cons x xs ih =>
    unfold firstRepeated
    split
    case isTrue hx => simp [hx]
    case isFalse hx =>
      rw [ih, List.nodup_cons]
      constructor
      · rintro ⟨hn, hseen⟩
        refine ⟨⟨fun hmem => hseen x hmem List.mem_cons_self, hn⟩, fun y hy => ?_⟩
        rcases List.mem_cons.mp hy with rfl | hy
        · exact hx
        · exact fun h => hseen y hy (List.mem_cons_of_mem _ h)
      · rintro ⟨⟨hnot, hn⟩, hseen⟩
        refine ⟨hn, fun y hy h => ?_⟩
        rcases List.mem_cons.mp h with rfl | h
        · exact hnot hy
        · exact hseen y (List.mem_cons_of_mem _ hy) h

theorem mergeSort_eq_iff_perm {ms ns : List Int} (hn : ns.Pairwise (· ≤ ·)) :
    ms.mergeSort = ns ↔ ms.Perm ns := by
  have hperm := List.mergeSort_perm ms (· ≤ ·)
  constructor
  · intro h
    exact h ▸ hperm.symm
  · intro h
    exact (hperm.trans h).eq_of_pairwise' (List.pairwise_mergeSort' (· ≤ ·) ms) hn

theorem pairwise_naturals (n : Nat) : ((List.range n).map Int.ofNat).Pairwise (· ≤ ·) :=
  List.pairwise_lt_range.map _ fun _ _ h => Int.ofNat_le.mpr (Nat.le_of_lt h)

theorem nodup_naturals (n : Nat) : ((List.range n).map Int.ofNat).Nodup :=
  List.nodup_range.map fun _ _ => Int.ofNat.inj

theorem mapM_eq_ok_iff {f : α → Except ε β} {xs : List α} {ys : List β} :
    xs.mapM f = .ok ys ↔ List.Forall₂ (fun x y => f x = .ok y) xs ys := by
  induction xs generalizing ys with
  | nil =>
    rw [List.mapM_nil, List.forall₂_nil_left_iff]
    exact ⟨fun h => (Except.ok.inj h).symm, fun h => by rw [h]; rfl⟩
  | cons x xs ih =>
    rw [List.mapM_cons, List.forall₂_cons_left_iff]
    constructor
    · intro h
      obtain ⟨y, hy, h⟩ := Module.bind_eq_ok.mp h
      obtain ⟨rest, hrest, h⟩ := Module.bind_eq_ok.mp h
      exact ⟨y, rest, hy, ih.mp hrest, (Except.ok.inj h).symm⟩
    · rintro ⟨y, rest, hy, hrest, rfl⟩
      rw [hy, ih.mpr hrest]
      rfl

namespace Shader

section Locations

variable (s : Shader) (inputs : List Resource)

/-- The natural size of an input's type, zero if the type is not known. -/
def inputSize (r : Resource) : Int := ((s.type? r.typeId).map (·.naturalSize)).getD 0

/-- The locations of inputs are the first natural numbers in some order. -/
def LocationsFill : Prop :=
  (inputs.map s.location).Perm ((List.range inputs.length).map Int.ofNat)

def inputsBelow (l : Nat) : List Resource := inputs.filter (s.location · < l)

structure Holds (r : Resource) (b : NamedBlock) : Prop where
  name : b.name = r.name
  type : ∃ t, s.type? r.typeId = some t ∧ (vertexType t).text = some b.type ∧
    b.byteLength = t.naturalSize

/-- The field of a vertex struct at a location is that of the only input there, and it begins where
the inputs at smaller locations end. -/
structure FieldAt (l : Nat) (m : StructMember) : Prop where
  input : ∃ r, inputs.filter (s.location · = l) = [r] ∧ s.Holds r ⟨m.name, m.type, m.byteLength⟩
  offset : m.offset = total ((s.inputsBelow inputs l).map s.inputSize)

/-- The struct of all inputs in order of location. -/
structure VertexStructOf (d : StructDefinition) : Prop where
  name : d.name = vertexStructName
  length : d.members.length = inputs.length
  fields : ∀ l m, d.members[l]? = some m → s.FieldAt inputs l m
  byteLength : d.byteLength = total (inputs.map s.inputSize)

end Locations

section Filled

variable {s : Shader} {inputs : List Resource}

theorem Holds.byteLength_eq {r : Resource} {b : NamedBlock} (h : s.Holds r b) :
    b.byteLength = s.inputSize r := by
  obtain ⟨t, ht, -, hb⟩ := h.type
  simp [inputSize, ht, hb]

theorem vertexBlock_eq_ok_iff {l : Nat} {r : Resource}
    (h : inputs.filter (s.location · = l) = [r]) {b : NamedBlock} :
    s.vertexBlock inputs l = .ok b ↔ s.Holds r b := by
  have hfind : inputs.find? (s.location · = l) = some r := by
    rw [← List.head?_filter, h, List.head?_cons]
  have hinput : s.inputAt? inputs l = (s.type? r.typeId).map (r, ·) := by
    simp only [inputAt?, hfind, Option.bind_eq_bind, Option.bind_some]
    cases s.type? r.typeId <;> rfl
  unfold vertexBlock
  rw [hinput]
  constructor
  · intro hb
    cases ht : s.type? r.typeId with
    | none =>
      rw [ht] at hb
      cases hb
    | some t =>
      rw [ht, Option.map_some] at hb
      dsimp only at hb
      cases htype : (vertexType t).text with
      | none =>
        rw [htype] at hb
        cases hb
      | some type =>
        rw [htype] at hb
        obtain rfl := Except.ok.inj hb
        exact ⟨rfl, t, ht, htype, rfl⟩
  · rintro ⟨hname, t, ht, htype, hlength⟩
    rw [ht, Option.map_some]
    dsimp only
    rw [htype, ← hname, ← hlength]

/-- One location further, the inputs in front are those at the location more. -/
private theorem total_inputsBelow_succ (size : Resource → Int) (l : Nat) :
    total ((s.inputsBelow inputs (l + 1)).map size) =
      total ((s.inputsBelow inputs l).map size) +
        total ((inputs.filter (s.location · = l)).map size) := by
  have hperm := List.filter_append_perm (s.location · < (l : Int)) (s.inputsBelow inputs (l + 1))
  have hbelow : (s.inputsBelow inputs (l + 1)).filter (s.location · < (l : Int)) =
      s.inputsBelow inputs l := by
    unfold inputsBelow
    rw [List.filter_filter]
    refine List.filter_congr fun r _ => ?_
    grind
  have hat : (s.inputsBelow inputs (l + 1)).filter
      (fun r => ! decide (s.location r < (l : Int))) = inputs.filter (s.location · = l) := by
    unfold inputsBelow
    rw [List.filter_filter]
    refine List.filter_congr fun r _ => ?_
    grind
  rw [hbelow, hat] at hperm
  rw [← total_perm (hperm.map size), List.map_append, total_append]

variable (hfill : s.LocationsFill inputs)
include hfill

theorem exists_filter_location {l : Nat} (hl : l < inputs.length) :
    ∃ r, inputs.filter (s.location · = l) = [r] := by
  have hmem : Int.ofNat l ∈ (List.range inputs.length).map Int.ofNat :=
    List.mem_map_of_mem (List.mem_range.mpr hl)
  have hcount : (inputs.map s.location).count (Int.ofNat l) = 1 := by
    rw [hfill.count_eq]
    exact List.count_eq_one_of_mem (nodup_naturals _) hmem
  refine List.length_eq_one_iff.mp ?_
  rw [← hcount, List.count, List.countP_map, ← List.countP_eq_length_filter]
  rfl

theorem location_lt {r : Resource} (hr : r ∈ inputs) :
    0 ≤ s.location r ∧ s.location r < inputs.length := by
  have hmem := (hfill.mem_iff (a := s.location r)).mp (List.mem_map_of_mem hr)
  obtain ⟨l, hl, hloc⟩ := List.mem_map.mp hmem
  rw [← hloc]
  have := List.mem_range.mp hl
  exact ⟨Int.natCast_nonneg l, Int.ofNat_lt.mpr this⟩

private theorem inputsBelow_zero : s.inputsBelow inputs 0 = [] := by
  refine List.filter_eq_nil_iff.mpr fun r hr => ?_
  have := location_lt hfill hr
  simpa using this.1

private theorem inputsBelow_length : s.inputsBelow inputs inputs.length = inputs := by
  refine List.filter_eq_self.mpr fun r hr => ?_
  simpa using (location_lt hfill hr).2

theorem vertexStruct_of_locationsFill (hne : inputs ≠ []) :
    s.vertexStruct inputs =
      ((List.range inputs.length).mapM (s.vertexBlock inputs)).map vertexDefinition := by
  have hnodup : (inputs.map s.location).Nodup :=
    hfill.nodup_iff.mpr (nodup_naturals _)
  have hsorted : (inputs.map s.location).mergeSort =
      (List.range inputs.length).map Int.ofNat :=
    (mergeSort_eq_iff_perm (pairwise_naturals inputs.length)).mpr hfill
  unfold vertexStruct
  dsimp only
  rw [if_neg (by simpa using hne),
    firstRepeated_eq_none_iff.mpr ⟨hnodup, fun _ _ => List.not_mem_nil⟩]
  dsimp only
  rw [if_neg (not_not_intro hsorted)]
  cases (List.range inputs.length).mapM (s.vertexBlock inputs) <;> rfl

end Filled

section Fields

variable {s : Shader} {inputs : List Resource} {d : StructDefinition}

def BlocksAt (s : Shader) (inputs : List Resource) (bs : List NamedBlock) : Prop :=
  List.Forall₂ (fun l b => s.vertexBlock inputs l = .ok b) (List.range inputs.length) bs

theorem vertexStruct_eq_ok_iff :
    s.vertexStruct inputs = .ok d ↔ inputs ≠ [] ∧ s.LocationsFill inputs ∧
      ∃ bs, s.BlocksAt inputs bs ∧ d = vertexDefinition bs := by
  constructor
  · intro h
    have hne : inputs ≠ [] := by
      rintro rfl
      cases h
    have hfill : s.LocationsFill inputs := by
      unfold vertexStruct at h
      dsimp only at h
      split at h
      · cases h
      split at h
      · cases h
      split at h
      · cases h
      case isFalse hsorted =>
        exact (mergeSort_eq_iff_perm (pairwise_naturals _)).mp (not_not.mp hsorted)
    rw [vertexStruct_of_locationsFill hfill hne] at h
    cases hm : (List.range inputs.length).mapM (s.vertexBlock inputs) with
    | error e =>
      rw [hm] at h
      cases h
    | ok bs =>
      rw [hm] at h
      exact ⟨hne, hfill, bs, mapM_eq_ok_iff.mp hm, (Except.ok.inj h).symm⟩
  · rintro ⟨hne, hfill, bs, hbs, rfl⟩
    rw [vertexStruct_of_locationsFill hfill hne, mapM_eq_ok_iff.mpr hbs]
    rfl

section Blocks

variable {bs : List NamedBlock}

theorem BlocksAt.length_eq (hbs : s.BlocksAt inputs bs) : bs.length = inputs.length := by
  rw [← List.Forall₂.length_eq hbs, List.length_range]

variable (hfill : s.LocationsFill inputs) (hbs : s.BlocksAt inputs bs)
include hfill hbs

theorem BlocksAt.exists_holds {l : Nat} {b : NamedBlock} (hl : bs[l]? = some b) :
    ∃ r, inputs.filter (s.location · = l) = [r] ∧ s.Holds r b := by
  obtain ⟨hlt, rfl⟩ := List.getElem?_eq_some_iff.mp hl
  have hin : l < inputs.length := hbs.length_eq ▸ hlt
  obtain ⟨r, hr⟩ := exists_filter_location hfill hin
  have hb := (List.forall₂_iff_get.mp hbs).2 l (by simpa using hin) hlt
  rw [List.get_eq_getElem, List.get_eq_getElem, List.getElem_range] at hb
  exact ⟨r, hr, (vertexBlock_eq_ok_iff hr).mp hb⟩

theorem BlocksAt.type?_isSome {r : Resource} (hr : r ∈ inputs) :
    (s.type? r.typeId).isSome = true := by
  obtain ⟨hnonneg, hlt⟩ := location_lt hfill hr
  obtain ⟨l, hl⟩ := Int.eq_ofNat_of_zero_le hnonneg
  rw [hl, Int.ofNat_lt, ← hbs.length_eq] at hlt
  obtain ⟨q, hq, hb⟩ := hbs.exists_holds hfill (List.getElem?_eq_getElem hlt)
  have hmem : r ∈ inputs.filter (s.location · = l) :=
    List.mem_filter.mpr ⟨hr, decide_eq_true hl⟩
  obtain rfl : r = q := List.mem_singleton.mp (hq ▸ hmem)
  obtain ⟨t, ht, -⟩ := hb.type
  rw [ht]
  rfl

/-- The blocks in front of a location have the sizes of the inputs there. -/
theorem BlocksAt.total_take {l : Nat} (hl : l ≤ inputs.length) :
    total ((bs.take l).map (·.byteLength)) = total ((s.inputsBelow inputs l).map s.inputSize) := by
  induction l with
  | zero => rw [inputsBelow_zero hfill, List.take_zero, List.map_nil, List.map_nil]
  | succ l ih =>
    have hlt : l < bs.length := by
      rw [hbs.length_eq]
      omega
    obtain ⟨r, hr, hb⟩ := hbs.exists_holds hfill (List.getElem?_eq_getElem hlt)
    rw [total_inputsBelow_succ, hr, ← ih (by omega), List.take_succ_eq_append_getElem hlt,
      List.map_append, total_append, List.map_singleton, List.map_singleton, hb.byteLength_eq]

theorem BlocksAt.vertexStructOf : s.VertexStructOf inputs (vertexDefinition bs) where
  name := rfl
  length := by
    rw [← hbs.length_eq, ← List.length_map (·.name), vertexDefinition, map_name_place,
      List.length_map]
  fields := by
    intro l m hm
    rw [vertexDefinition, getElem?_place, Int.zero_add] at hm
    obtain ⟨b, hb, rfl⟩ := Option.map_eq_some_iff.mp hm
    have hl : l < bs.length := (List.getElem?_eq_some_iff.mp hb).1
    rw [hbs.length_eq] at hl
    exact ⟨hbs.exists_holds hfill hb, hbs.total_take hfill hl.le⟩
  byteLength := by
    have htotal := hbs.total_take hfill (Nat.le_refl _)
    rwa [inputsBelow_length hfill, ← hbs.length_eq, List.take_length] at htotal

/-- The blocks do not depend on the order of the inputs. -/
theorem BlocksAt.of_perm {rs : List Resource} (h : rs.Perm inputs) : s.BlocksAt rs bs := by
  have hmem := (List.forall₂_and_left _ _).mpr ⟨fun _ hl => hl, hbs⟩
  unfold BlocksAt
  rw [h.length_eq]
  refine hmem.imp fun l b ⟨hl, hb⟩ => ?_
  obtain ⟨r, hr⟩ := exists_filter_location hfill (List.mem_range.mp hl)
  have hrs : rs.filter (s.location · = l) = [r] :=
    List.perm_singleton.mp (hr ▸ h.filter (s.location · = l))
  exact (vertexBlock_eq_ok_iff hrs).mpr ((vertexBlock_eq_ok_iff hr).mp hb)

end Blocks

theorem LocationsFill.of_perm {rs : List Resource} (hfill : s.LocationsFill inputs)
    (h : rs.Perm inputs) : s.LocationsFill rs := by
  unfold LocationsFill
  rw [h.length_eq]
  exact (h.map s.location).trans hfill

end Fields

section Sizes

private theorem isWritable_of_oversized {t : TypeDescriptor} (h : (vertexType t).Oversized) :
    Number.isWritable t.naturalSize = false := by
  obtain ⟨bytes, hbytes, hw⟩ := h
  unfold vertexType at hbytes
  split_ifs at hbytes
  obtain rfl := HostType.padding.inj hbytes
  exact hw

variable {s : Shader} {inputs : List Resource}

def SizesWritable (s : Shader) (inputs : List Resource) : Prop :=
  ∀ r ∈ inputs, (Nat.toDigits 10 (s.inputSize r).natAbs).length ≤ Number.maxDigits

theorem SizesWritable.not_oversized (h : s.SizesWritable inputs) {r : Resource} (hr : r ∈ inputs)
    {t : TypeDescriptor} (ht : s.type? r.typeId = some t) : ¬ (vertexType t).Oversized := by
  intro ho
  have hsize : s.inputSize r = t.naturalSize := by simp [inputSize, ht]
  have hw := (Number.isWritable_iff _).mpr (hsize ▸ h r hr)
  rw [isWritable_of_oversized ho] at hw
  cases hw

theorem SizesWritable.exists_blocks (h : s.SizesWritable inputs) (hfill : s.LocationsFill inputs)
    (htyped : ∀ r ∈ inputs, (s.type? r.typeId).isSome = true) : ∃ bs, s.BlocksAt inputs bs := by
  cases hm : (List.range inputs.length).mapM (s.vertexBlock inputs) with
  | ok bs => exact ⟨bs, mapM_eq_ok_iff.mp hm⟩
  | error e =>
    obtain ⟨l, hl, he⟩ := exists_of_mapM_eq_error hm
    obtain ⟨r, hr⟩ := exists_filter_location hfill (List.mem_range.mp hl)
    have hmem : r ∈ inputs := List.mem_of_mem_filter (hr ▸ List.mem_singleton_self r)
    obtain ⟨t, ht⟩ := Option.isSome_iff_exists.mp (htyped r hmem)
    obtain ⟨type, htype⟩ := Option.ne_none_iff_exists'.mp fun hnone =>
      h.not_oversized hmem ht (HostType.text_eq_none_iff.mp hnone)
    have hb := (vertexBlock_eq_ok_iff hr (b := ⟨r.name, type, t.naturalSize⟩)).mpr
      ⟨rfl, t, ht, htype, rfl⟩
    rw [hb] at he
    cases he

end Sizes

/-- The inputs of a vertex shader form a struct just where there are some, their locations are the
first natural numbers in any order, and their types are all known. It has the inputs in order of
location, back to back, and does not depend on the order in which they are listed. -/
theorem vertexStruct_iff_locationsFill {s : Shader} {inputs : List Resource}
    (h : s.SizesWritable inputs) :
    ((∃ d, s.vertexStruct inputs = .ok d) ↔
      inputs ≠ [] ∧ s.LocationsFill inputs ∧
        ∀ r ∈ inputs, (s.type? r.typeId).isSome = true) ∧
    s.vertexStruct inputs ≠ .error .unwritable ∧
    ∀ d, s.vertexStruct inputs = .ok d →
      s.VertexStructOf inputs d ∧ ∀ rs, rs.Perm inputs → s.vertexStruct rs = .ok d := by
  refine ⟨⟨?_, ?_⟩, ?_, ?_⟩
  · rintro ⟨d, hd⟩
    obtain ⟨hne, hfill, bs, hbs, -⟩ := vertexStruct_eq_ok_iff.mp hd
    exact ⟨hne, hfill, fun r hr => hbs.type?_isSome hfill hr⟩
  · rintro ⟨hne, hfill, htyped⟩
    obtain ⟨bs, hbs⟩ := h.exists_blocks hfill htyped
    exact ⟨_, vertexStruct_eq_ok_iff.mpr ⟨hne, hfill, bs, hbs, rfl⟩⟩
  · intro hu
    obtain ⟨r, hr, t, ht, ho⟩ := s.vertexStruct_unwritable hu
    exact h.not_oversized hr ht ho
  · intro d hd
    obtain ⟨hne, hfill, bs, hbs, rfl⟩ := vertexStruct_eq_ok_iff.mp hd
    refine ⟨hbs.vertexStructOf hfill, fun rs hrs => ?_⟩
    have hrsne : rs ≠ [] := fun hnil => hne (List.nil_perm.mp (hnil ▸ hrs))
    exact vertexStruct_eq_ok_iff.mpr
      ⟨hrsne, hfill.of_perm hrs, bs, hbs.of_perm hfill hrs, rfl⟩

open ShaderReflection.Module (Declarations exists_ok_of_any)

/-- A vertex shader whose inputs are declared out of order, one of them a matrix. -/
def spriteListing : List Assembly.Instruction := [
  ⟨"OpDecorate", [.id "tint", .word "Location", .int 2], none, 1⟩,
  ⟨"OpDecorate", [.id "corner", .word "Location", .int 1], none, 2⟩,
  ⟨"OpTypeFloat", [.int 32], some "float", 3⟩,
  ⟨"OpTypeVector", [.id "float", .int 3], some "vector", 4⟩,
  ⟨"OpTypeMatrix", [.id "vector", .int 3], some "matrix", 5⟩,
  ⟨"OpTypePointer", [.word "Input", .id "vector"], some "toVector", 6⟩,
  ⟨"OpTypePointer", [.word "Input", .id "matrix"], some "toMatrix", 7⟩,
  ⟨"OpVariable", [.id "toVector", .word "Input"], some "tint", 8⟩,
  ⟨"OpVariable", [.id "toMatrix", .word "Input"], some "placement", 9⟩,
  ⟨"OpVariable", [.id "toVector", .word "Input"], some "corner", 10⟩]

theorem spriteListing_vertexStruct :
    ∃ d v, Declarations.ofInstructions spriteListing = .ok d ∧
      (d.resources .stageInputs).map d.shader.location = [2, 0, 1] ∧
      d.shader.SizesWritable (d.resources .stageInputs) ∧
      d.shader.vertexStruct (d.resources .stageInputs) = .ok v ∧
      d.shader.VertexStructOf (d.resources .stageInputs) v ∧
      ∀ rs, rs.Perm (d.resources .stageInputs) → d.shader.vertexStruct rs = .ok v := by
  obtain ⟨d, hd, hloc, hsizes, htyped⟩ := exists_ok_of_any
    (x := Declarations.ofInstructions spriteListing)
    (p := fun d => (d.resources .stageInputs).map d.shader.location = [2, 0, 1] ∧
      (∀ r ∈ d.resources .stageInputs,
        (Nat.toDigits 10 (d.shader.inputSize r).natAbs).length ≤ Number.maxDigits) ∧
      ∀ r ∈ d.resources .stageInputs, (d.shader.type? r.typeId).isSome = true)
    (by decide +kernel)
  obtain ⟨hiff, -, hof⟩ := vertexStruct_iff_locationsFill hsizes
  have hlen : (d.resources .stageInputs).length = 3 := by
    simpa using congrArg List.length hloc
  have hne : d.resources .stageInputs ≠ [] := List.ne_nil_of_length_pos (by omega)
  have hfill : d.shader.LocationsFill (d.resources .stageInputs) := by
    unfold LocationsFill
    rw [hloc, hlen]
    decide
  obtain ⟨v, hv⟩ := hiff.mpr ⟨hne, hfill, htyped⟩
  obtain ⟨hstruct, hperm⟩ := hof v hv
  exact ⟨d, v, hd, hloc, hsizes, hv, hstruct, hperm⟩

end Shader
end ShaderReflection
