import ShaderReflection.Proofs.Layout.Conservation
import ShaderReflection.Proofs.Layout.RecordFields
import ShaderReflection.Proofs.Reflection.VertexOrder

/-! Reflected structs as records. Structs of a shader, and the one that holds its vertices, are
packed: their members lie back to back and name types of their own lengths. So the fields of their
records tile them, whatever the shader. -/
open ShaderReflection.Module (Declarations exists_ok_of_any)

namespace ShaderReflection

private theorem exists_of_mem_place {offset : Int} {bs : List NamedBlock} {m : StructMember}
    (h : m ∈ place offset bs) : ∃ b ∈ bs, m.type = b.type ∧ m.byteLength = b.byteLength := by
  induction bs generalizing offset with
  | nil => cases h
  | cons b bs ih =>
    rcases List.mem_cons.mp h with rfl | h
    · exact ⟨b, List.mem_cons_self, rfl, rfl⟩
    · obtain ⟨b', hb', heq⟩ := ih h
      exact ⟨b', List.mem_cons_of_mem _ hb', heq⟩

private theorem byteSize_of_mem_blocks {c : MemberClass} {b : Block} (h : b ∈ c.blocks) :
    b.type.byteSize = b.byteLength := by
  cases c with
  | composite host | bytes count =>
    obtain rfl := List.mem_singleton.mp h
    rfl
  | single host padding =>
    rcases List.mem_cons.mp h with rfl | h
    · rfl
    · split at h
      · cases h
      · obtain rfl := List.mem_singleton.mp h
        rfl

private theorem byteSize_vertexType (t : TypeDescriptor) :
    (vertexType t).byteSize = t.naturalSize := by
  unfold vertexType
  split_ifs with h2 h4 h3
  · rw [naturalSize_of_isFloat32Vector h2]
    rfl
  · rw [naturalSize_of_isFloat32Vector h4]
    rfl
  · rw [naturalSize_of_isFloat32Vector h3]
    rfl
  · rfl

private theorem naturalSizes_le_total (ts : List TypeDescriptor) (index : Nat) :
    total (ts.map (·.naturalSize)) ≤
      total (((entriesFrom index ts).map (·.block)).map (·.byteLength)) := by
  induction ts generalizing index with
  | nil => exact Int.le_refl 0
  | cons t ts ih =>
    have ht := naturalSize_le_total_blocks t
    have hts := ih (index + 1)
    rw [map_block_entriesFrom, List.map_append, total_append, List.map_cons, total_cons]
    omega

/-- Fields that have the lengths of blocks, and the texts of their types, name types of their
lengths. -/
theorem typed_place {bs : List Block} {ns : List NamedBlock} (hw : List.Forall₂ Writes bs ns)
    (hbs : ∀ b ∈ bs, b.type.byteSize = b.byteLength) {offset : Int} {m : StructMember}
    (hm : m ∈ place offset ns) : m.Typed := by
  obtain ⟨n, hn, htype, hlength⟩ := exists_of_mem_place hm
  obtain ⟨b, hb, htext, hbn⟩ := exists_of_mem_related hw.flip hn
  refine ⟨b.type, ?_, ?_⟩
  · rw [htype]
    exact htext
  · rw [hbs b hb, hlength]
    exact hbn.symm

namespace Shader

variable {s : Shader} {d : StructDefinition}

theorem packed_structDefinition {id : Id} {n n' : Namer}
    (h : s.structDefinition id n = (.ok d, n')) : Packed d := by
  obtain ⟨t, ts, ns, -, -, -, hn, rfl⟩ := structDefinition_ok h
  have hw := nameEntries_writes hn
  constructor
  · exact contiguous_place 0 ns
  · intro m hm
    refine typed_place hw (fun b hb => ?_) hm
    obtain ⟨e, he, rfl⟩ := List.mem_map.mp hb
    obtain ⟨u, -, hu⟩ := exists_of_mem_entriesFrom he
    exact byteSize_of_mem_blocks hu
  · rw [map_byteLength_place, map_byteLength_of_writes hw]
    exact naturalSizes_le_total ts 0

theorem packed_vertexStruct {inputs : List Resource} (h : s.vertexStruct inputs = .ok d) :
    Packed d := by
  obtain ⟨-, hfill, bs, hbs, rfl⟩ := vertexStruct_eq_ok_iff.mp h
  constructor
  · exact contiguous_place 0 bs
  · intro m hm
    obtain ⟨b, hb, htype, hlength⟩ := exists_of_mem_place hm
    obtain ⟨l, hl⟩ := List.getElem?_of_mem hb
    obtain ⟨r, -, hr⟩ := hbs.exists_holds hfill hl
    obtain ⟨t, -, htext, hsize⟩ := hr.type
    refine ⟨vertexType t, ?_, ?_⟩
    · rw [htype]
      exact htext
    · rw [byteSize_vertexType, hlength, hsize]
  · exact Int.le_of_eq (congrArg total (map_byteLength_place 0 bs)).symm

/-- A struct that reflection gives: one of the shader's, or the one that holds a vertex. -/
def Reflects (s : Shader) (d : StructDefinition) : Prop :=
  (∃ id n n', s.structDefinition id n = (.ok d, n')) ∨ ∃ inputs, s.vertexStruct inputs = .ok d

theorem Reflects.packed (h : s.Reflects d) : Packed d := by
  rcases h with ⟨id, n, n', h⟩ | ⟨inputs, h⟩
  · exact packed_structDefinition h
  · exact packed_vertexStruct h

end Shader

open RecordFormat
open RecordLibrary (maxSize)

/-- A reflected struct without negative lengths is a record just where its fields have names of
their own and 32 bits are enough for its size. The fields are then its members that have bytes, and
tile the record from its first byte to its last. A member that is too long for any type is an error
of type; everything else that goes wrong is an error of value. -/
theorem recordFormat_tiles_struct {library : RecordLibrary} (hlib : library.Documented)
    {s : Shader} {d : StructDefinition} (h : s.Reflects d)
    (hpos : ∀ m ∈ d.members, 0 ≤ m.byteLength) :
    ((∃ r, ofStruct d library = .ok r) ↔
      (fieldNames d).Nodup ∧ total (d.members.map (·.byteLength)) ≤ maxSize) ∧
    (∀ r, ofStruct d library = .ok r → RecordOf d r) ∧
    ∀ e, ofStruct d library = .error e →
      e.kind = if ∃ m ∈ d.members, maxSize < m.byteLength then .type else .value := by
  have hrecord := packedRecord_ofStruct hlib h.packed hpos
  generalize ofStruct d library = x at hrecord ⊢
  cases hrecord with
  | @record r hnames hsize hr =>
    refine ⟨iff_of_true ⟨r, rfl⟩ ⟨hnames, hsize⟩, fun r' hr' => ?_, fun e he => nomatch he⟩
    obtain rfl := Except.ok.inj hr'
    exact hr
  | @tooLong e hlong hkind =>
    have htotal := total_of_long hpos hlong
    refine ⟨iff_of_false (fun ⟨_, hr⟩ => nomatch hr) fun hfits => by omega,
      (fun _ hr => nomatch hr), fun e' he => ?_⟩
    obtain rfl := Except.error.inj he
    rw [if_pos hlong]
    exact hkind
  | @refused e hlengths hfits hkind =>
    refine ⟨iff_of_false (fun ⟨_, hr⟩ => nomatch hr) hfits,
      (fun _ hr => nomatch hr), fun e' he => ?_⟩
    obtain rfl := Except.error.inj he
    rw [if_neg hlengths]
    exact hkind

/-- A struct of a flag, an image, which has no bytes, and a vector. -/
def switchboardListing : List Assembly.Instruction := [
  ⟨"OpTypeBool", [], some "flag", 1⟩,
  ⟨"OpTypeFloat", [.int 32], some "float", 2⟩,
  ⟨"OpTypeImage", [.id "float"], some "image", 3⟩,
  ⟨"OpTypeVector", [.id "float", .int 3], some "vector", 4⟩,
  ⟨"OpTypeStruct", [.id "flag", .id "image", .id "vector"], some "switchboard", 5⟩]

def switchboardDefinition : StructDefinition where
  name := ""
  byteLength := 16
  members := [
    ⟨"unnamed_0", "bool", 0, 1⟩, ⟨"unnamed_1_pad", "Padding<3>", 1, 3⟩,
    ⟨"unnamed_2", "Padding<0>", 4, 0⟩, ⟨"unnamed_3", "Vector3", 4, 12⟩]

theorem switchboard_recordFormat :
    RecordLibrary.standard.Documented ∧
    (∃ d, Declarations.ofInstructions switchboardListing = .ok d ∧
      d.shader.Reflects switchboardDefinition) ∧
    (∀ m ∈ switchboardDefinition.members, 0 ≤ m.byteLength) ∧
    ∃ r, ofStruct switchboardDefinition = .ok r ∧ RecordOf switchboardDefinition r ∧
      r.itemSize = 16 ∧ r.fields.length = 3 := by
  obtain ⟨d, hd, hs⟩ := exists_ok_of_any
    (x := Declarations.ofInstructions switchboardListing)
    (p := fun d => d.shader.structDefinition 5 ⟨0⟩ = (.ok switchboardDefinition, ⟨4⟩))
    (by decide +kernel)
  have hlib := RecordLibrary.standard_documented
  have hreflects : d.shader.Reflects switchboardDefinition := .inl ⟨5, ⟨0⟩, ⟨4⟩, hs⟩
  have hpos : ∀ m ∈ switchboardDefinition.members, 0 ≤ m.byteLength := by decide
  obtain ⟨hiff, hof, -⟩ := recordFormat_tiles_struct hlib hreflects hpos
  obtain ⟨r, hr⟩ := hiff.mpr (by decide +kernel)
  have hrecord := hof r hr
  refine ⟨hlib, ⟨d, hd, hreflects⟩, hpos, r, hr, hrecord, ?_, ?_⟩
  · rw [hrecord.itemSize]
    decide
  · rw [← hrecord.fields.length_eq]
    decide +kernel

def wideRecordListing : List Assembly.Instruction := [
  ⟨"OpTypeInt", [.int 17179869216, .int 0], some "wide", 1⟩,
  ⟨"OpTypeStruct", [.id "wide"], some "record", 2⟩]

def wideRecordDefinition : StructDefinition where
  name := ""
  byteLength := 2147483652
  members := [⟨"unnamed_0", "Padding<2147483652>", 0, 2147483652⟩]

/-- A struct without negative lengths and with distinct names, too large for a record, is not always
an error of value. -/
theorem wideRecord_error_of_type :
    (∃ d, Declarations.ofInstructions wideRecordListing = .ok d ∧
      d.shader.Reflects wideRecordDefinition) ∧
    (∀ m ∈ wideRecordDefinition.members, 0 ≤ m.byteLength) ∧
    (fieldNames wideRecordDefinition).Nodup ∧
    ¬ total (wideRecordDefinition.members.map (·.byteLength)) ≤ maxSize ∧
    ∃ e, ofStruct wideRecordDefinition = .error e ∧ e.kind = .type ∧ e.kind ≠ .value := by
  obtain ⟨d, hd, hs⟩ := exists_ok_of_any
    (x := Declarations.ofInstructions wideRecordListing)
    (p := fun d => d.shader.structDefinition 2 ⟨0⟩ = (.ok wideRecordDefinition, ⟨1⟩))
    (by decide +kernel)
  have herror : ofStruct wideRecordDefinition = .error (.paddingSize "2147483652".toList) := by
    decide +kernel
  exact ⟨⟨d, hd, .inl ⟨2, ⟨0⟩, ⟨1⟩, hs⟩⟩, by decide, by decide +kernel, by decide, _, herror, rfl,
    by decide⟩

end ShaderReflection
