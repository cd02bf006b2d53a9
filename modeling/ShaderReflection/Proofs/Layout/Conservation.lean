import ShaderReflection.Module.Slots
import ShaderReflection.Proofs.Layout.Placement
import ShaderReflection.Proofs.Module.Steps

/-! Every byte of a reflected struct belongs to one member. The size of a struct is a sum of natural
sizes and its fields have host sizes; the two agree since the types that the host knows as single
values always have 32 bits. -/
namespace ShaderReflection

open Assembly (Instruction)
open ShaderReflection.Module (Declarations)

/-- A type whose single values the host knows is declared with 32 bits. -/
def HostWide (t : TypeDescriptor) : Prop := (HostType.ofBaseType? t.baseType).isSome → t.width = 32

private theorem hostWide_ofInt (width : Int) (signed : Bool) (id : Id) :
    HostWide { baseType := .ofInt width signed, width, selfId := id } := by
  intro h
  dsimp only at h ⊢
  by_contra hw
  cases signed <;> simp [BaseType.ofInt, hw, HostType.ofBaseType?] at h <;> split_ifs at h <;>
    simp at h

private theorem hostWide_ofFloat (width : Int) (id : Id) :
    HostWide { baseType := .ofFloat width, width, selfId := id } := by
  intro h
  dsimp only at h ⊢
  by_contra hw
  simp [BaseType.ofFloat, hw, HostType.ofBaseType?] at h
  split_ifs at h <;> simp at h

/-- A new descriptor keeps the width of the one it is made from. -/
theorem hostWide_of_described {types : Table Id TypeDescriptor} {id : Id} {t : TypeDescriptor}
    (ht : ∀ c u, types.get? c = some u → HostWide u) {kind : Module.TypeOpcode}
    (h : Declarations.Described types id kind t) : HostWide t := by
  cases h with
  | plain hb =>
    intro h
    simp only [List.mem_cons, Prod.mk.injEq, List.not_mem_nil, or_false] at hb
    rcases hb with ⟨-, rfl⟩ | ⟨-, rfl⟩ | ⟨-, rfl⟩ | ⟨-, rfl⟩ | ⟨-, rfl⟩ <;> cases h
  | bool => exact fun _ => rfl
  | int width signed => exact hostWide_ofInt width signed id
  | float width => exact hostWide_ofFloat width id
  | struct => exact fun h => by cases h
  | vector hg | matrix hg | array hg | runtimeArray hg | pointer hg =>
    have hw := ht _ _ hg
    exact hw

/-- All types of a module are declared with the widths that the host knows. -/
theorem hostWide_types {is : List Instruction} {d : Declarations}
    (h : Declarations.ofInstructions is = .ok d) {c : Id} {t : TypeDescriptor}
    (ht : d.types.get? c = some t) : HostWide t := by
  have hall : ∀ c u, d.types.get? c = some u → HostWide u := by
    refine Declarations.declareAll_induction (P := fun _ d => ∀ c u, d.types.get? c = some u →
      HostWide u) [] h (fun c u hu => by cases hu) fun _ i _ d e _ hd he _ c u hu => ?_
    rcases Declarations.declare_types he with hsame | ⟨kind, -, id, t, -, -, -, hdescribed, hset⟩
    · exact hd c u (hsame ▸ hu)
    · rw [hset, Table.get?_set] at hu
      split_ifs at hu
      · rw [← Option.some.inj hu]
        exact hostWide_of_described hd hdescribed
      · exact hd c u hu
  exact hall c t ht

theorem naturalSize_of_isFloat32Matrix {t : TypeDescriptor} (h : t.isFloat32Matrix = true) :
    t.naturalSize = HostType.matrix.byteSize := by
  simp only [TypeDescriptor.isFloat32Matrix, Bool.and_eq_true, decide_eq_true_eq] at h
  unfold TypeDescriptor.naturalSize
  rw [h.1.2, h.1.1.2, h.1.1.1.2]
  rfl

theorem naturalSize_of_isFloat32Vector {t : TypeDescriptor} {size : Int}
    (h : t.isFloat32Vector size = true) : t.naturalSize = 4 * size := by
  simp only [TypeDescriptor.isFloat32Vector, Bool.and_eq_true, decide_eq_true_eq] at h
  unfold TypeDescriptor.naturalSize
  rw [h.2, h.1.2, h.1.1.2, Int.mul_one, Int.fdiv_eq_ediv_of_nonneg _ (by decide)]
  omega

private theorem total_blocks_single (h : HostType) (padding : Int) :
    total ((MemberClass.single h padding).blocks.map (·.byteLength)) = h.byteSize + padding := by
  by_cases hp : padding = 0 <;> simp [MemberClass.blocks, hp]

private theorem byteSize_of_ofBaseType? {b : BaseType} {h : HostType}
    (hb : HostType.ofBaseType? b = some h) :
    0 < h.byteSize ∧ h.byteSize ≤ 4 := by
  unfold HostType.ofBaseType? at hb
  split at hb <;> cases hb <;> decide

/-- The parts of a type take its natural size, unless the host knows it as a single value: those take
the larger one of the type's bytes and the host's. -/
theorem total_blocks_cases (t : TypeDescriptor) :
    total ((MemberClass.ofType t).blocks.map (·.byteLength)) = t.naturalSize ∨
    ∃ h, HostType.ofBaseType? t.baseType = some h ∧ t.naturalSize = t.width.fdiv 8 ∧
      total ((MemberClass.ofType t).blocks.map (·.byteLength)) =
        max (t.width.fdiv 8) h.byteSize := by
  unfold MemberClass.ofType
  split
  case isTrue hm => simp [MemberClass.blocks, naturalSize_of_isFloat32Matrix hm]
  split
  case isTrue hv => simp [MemberClass.blocks, naturalSize_of_isFloat32Vector hv, HostType.byteSize]
  split
  case isTrue hv => simp [MemberClass.blocks, naturalSize_of_isFloat32Vector hv, HostType.byteSize]
  split
  case isTrue hv => simp [MemberClass.blocks, naturalSize_of_isFloat32Vector hv, HostType.byteSize]
  split
  case h_1 host hh =>
    split
    case isTrue hsingle =>
      refine .inr ⟨host, hh, ?_, ?_⟩
      · unfold TypeDescriptor.naturalSize
        rw [hsingle.1, hsingle.2, Int.mul_one, Int.mul_one]
      · rw [total_blocks_single]
        omega
    case isFalse => simp [MemberClass.blocks]
  case h_2 => simp [MemberClass.blocks]

theorem total_blocks {t : TypeDescriptor} (ht : HostWide t) :
    total ((MemberClass.ofType t).blocks.map (·.byteLength)) = t.naturalSize := by
  rcases total_blocks_cases t with h | ⟨host, hh, hsize, h⟩
  · exact h
  · have hb := byteSize_of_ofBaseType? hh
    have hd : t.width.fdiv 8 = 4 := by
      rw [ht (by rw [hh]; rfl)]
      rfl
    omega

/-- No type takes fewer bytes than its natural size. -/
theorem naturalSize_le_total_blocks (t : TypeDescriptor) :
    t.naturalSize ≤ total ((MemberClass.ofType t).blocks.map (·.byteLength)) := by
  rcases total_blocks_cases t with h | ⟨host, -, hsize, h⟩
  · exact Int.le_of_eq h.symm
  · omega

theorem map_block_entriesFrom (index : Nat) (t : TypeDescriptor) (ts : List TypeDescriptor) :
    (entriesFrom index (t :: ts)).map (·.block) =
      (MemberClass.ofType t).blocks ++ (entriesFrom (index + 1) ts).map (·.block) := by
  simp [entriesFrom, Function.comp_def]

theorem total_entriesFrom {ts : List TypeDescriptor} (ht : ∀ t ∈ ts, HostWide t) (index : Nat) :
    total (((entriesFrom index ts).map (·.block)).map (·.byteLength)) =
      total (ts.map (·.naturalSize)) := by
  induction ts generalizing index with
  | nil => rfl
  | cons u us ih =>
    rw [map_block_entriesFrom, List.map_append, total_append, total_blocks (ht u (by simp)),
      ih (fun t h => ht t (by simp [h])), List.map_cons, total_cons]

/-- The fields of one member: one, or a single value with the padding behind it. They lie back to
back from an offset on and take the natural size of the member's type. -/
structure MemberRun (t : TypeDescriptor) (offset : Int) (run : List StructMember) : Prop where
  types : run.map (fun m => some m.type) = (MemberClass.ofType t).blocks.map (·.type.text)
  shape : (∃ m, run = [m]) ∨
    ∃ m p host padding, run = [m, p] ∧ MemberClass.ofType t = .single host padding
  contiguous : Contiguous offset run
  bytes : total (run.map (·.byteLength)) = t.naturalSize

theorem memberRun_place {t : TypeDescriptor} (ht : HostWide t) {ns : List NamedBlock}
    (hw : List.Forall₂ Writes (MemberClass.ofType t).blocks ns) (offset : Int) :
    MemberRun t offset (place offset ns) where
  types := by rw [map_type_place, map_type_of_writes hw]
  shape := by
    have hlen := hw.length_eq
    cases hc : MemberClass.ofType t with
    | composite host | bytes count =>
      left
      rw [hc] at hlen
      obtain ⟨n, rfl⟩ := List.length_eq_one_iff.mp hlen.symm
      exact ⟨_, rfl⟩
    | single host padding =>
      rw [hc, MemberClass.blocks] at hlen
      split_ifs at hlen with hp
      · obtain ⟨n, rfl⟩ := List.length_eq_one_iff.mp hlen.symm
        exact .inl ⟨_, rfl⟩
      · obtain ⟨m, n, rfl⟩ := List.length_eq_two.mp hlen.symm
        exact .inr ⟨_, _, host, padding, rfl, rfl⟩
  contiguous := contiguous_place offset ns
  bytes := by rw [map_byteLength_place, map_byteLength_of_writes hw, total_blocks ht]

/-- The fields of all members are the runs of the members, one after another. -/
theorem exists_runs {ts : List TypeDescriptor} (ht : ∀ t ∈ ts, HostWide t) {index : Nat}
    {ns : List NamedBlock} (hw : List.Forall₂ Writes ((entriesFrom index ts).map (·.block)) ns)
    (offset : Int) :
    ∃ runs : List (List StructMember), runs.flatten = place offset ns ∧ runs.length = ts.length ∧
      ∀ i t, ts[i]? = some t → ∃ run, runs[i]? = some run ∧
        MemberRun t (offset + total ((ts.take i).map (·.naturalSize))) run := by
  induction ts generalizing index ns offset with
  | nil =>
    cases hw
    exact ⟨[], rfl, rfl, fun i t hi => by cases hi⟩
  | cons u us ih =>
    rw [map_block_entriesFrom] at hw
    obtain ⟨ms, rest, rfl, hms, hrest⟩ := exists_append_of_related hw
    have hu := ht u (by simp)
    obtain ⟨runs, hflat, hlen, hruns⟩ := ih (fun t h => ht t (by simp [h])) hrest
      (offset + u.naturalSize)
    refine ⟨place offset ms :: runs, ?_, by simp [hlen], ?_⟩
    · rw [place_append, map_byteLength_of_writes hms, total_blocks hu, List.flatten_cons, hflat]
    · intro i t hi
      cases i with
      | zero =>
        obtain rfl : u = t := Option.some.inj hi
        exact ⟨_, rfl, by simpa using memberRun_place hu hms offset⟩
      | succ i =>
        obtain ⟨run, hr, hrun⟩ := hruns i t hi
        exact ⟨run, hr, by simpa [Int.add_assoc] using hrun⟩

/-- The bytes of a reflected struct are those of its members. Its fields start at zero and leave no
gap, their lengths sum to the size of the struct, and the run of each member begins where the natural
sizes of the members before it end. -/
theorem structDefinition_conserves_bytes {is : List Instruction} {d : Declarations}
    (h : Declarations.ofInstructions is = .ok d) {id : Id} {namer namer' : Namer}
    {s : StructDefinition} (hs : d.shader.structDefinition id namer = (.ok s, namer')) :
    Contiguous 0 s.members ∧ total (s.members.map (·.byteLength)) = s.byteLength ∧
      ∃ (t : TypeDescriptor) (ts : List TypeDescriptor) (runs : List (List StructMember)),
        d.shader.type? id = some t ∧ t.members.map d.shader.type? = ts.map some ∧
        runs.flatten = s.members ∧ runs.length = ts.length ∧
        ∀ i u, ts[i]? = some u → ∃ run, runs[i]? = some run ∧
          MemberRun u (total ((ts.take i).map (·.naturalSize))) run := by
  obtain ⟨t, ts, ns, ht, -, hts, hn, rfl⟩ := Shader.structDefinition_ok hs
  have hwide : ∀ u ∈ ts, HostWide u := by
    intro u hu
    have hm : some u ∈ t.members.map d.shader.type? := hts ▸ List.mem_map_of_mem hu
    obtain ⟨c, -, hc⟩ := List.mem_map.mp hm
    exact hostWide_types h hc
  have hw := Shader.nameEntries_writes hn
  obtain ⟨runs, hflat, hlen, hruns⟩ := exists_runs hwide hw 0
  simp only [Int.zero_add] at hruns
  refine ⟨contiguous_place 0 ns, ?_, t, ts, runs, ht, hts, hflat, hlen, hruns⟩
  rw [map_byteLength_place, map_byteLength_of_writes hw, total_entriesFrom hwide]

/-- A light: a direction, a switch, a vector with a negative count, and an array of bytes. -/
def lightListing : List Instruction := [
  ⟨"OpTypeFloat", [.int 32], some "float", 1⟩,
  ⟨"OpTypeVector", [.id "float", .int 3], some "direction", 2⟩,
  ⟨"OpTypeBool", [], some "switch", 3⟩,
  ⟨"OpTypeVector", [.id "float", .int (-2)], some "reversed", 4⟩,
  ⟨"OpTypeInt", [.int 8, .int 0], some "byte", 5⟩,
  ⟨"OpTypeRuntimeArray", [.id "byte"], some "bytes", 6⟩,
  ⟨"OpTypeStruct", [.id "direction", .id "switch", .id "reversed", .id "bytes"], some "light", 7⟩]

def lightDefinition : StructDefinition where
  name := ""
  byteLength := 9
  members := [
    ⟨"unnamed_0", "Vector3", 0, 12⟩, ⟨"unnamed_1", "bool", 12, 1⟩,
    ⟨"unnamed_2_pad", "Padding<3>", 13, 3⟩, ⟨"unnamed_3", "Padding<-8>", 16, -8⟩,
    ⟨"unnamed_4", "Padding<1>", 8, 1⟩]

theorem light_conserves_bytes :
    ∃ d, Declarations.ofInstructions lightListing = .ok d ∧
      d.shader.structDefinition 7 ⟨0⟩ = (.ok lightDefinition, ⟨5⟩) ∧
      Contiguous 0 lightDefinition.members ∧
      total (lightDefinition.members.map (·.byteLength)) = lightDefinition.byteLength ∧
      ∃ (t : TypeDescriptor) (ts : List TypeDescriptor) (runs : List (List StructMember)),
        d.shader.type? 7 = some t ∧ t.members.map d.shader.type? = ts.map some ∧
        runs.flatten = lightDefinition.members ∧ runs.length = ts.length ∧
        ∀ i u, ts[i]? = some u → ∃ run, runs[i]? = some run ∧
          MemberRun u (total ((ts.take i).map (·.naturalSize))) run := by
  obtain ⟨d, hd, hs⟩ := Module.exists_ok_of_any
    (x := Declarations.ofInstructions lightListing)
    (p := fun d => d.shader.structDefinition 7 ⟨0⟩ = (.ok lightDefinition, ⟨5⟩)) (by decide +kernel)
  exact ⟨d, hd, hs, structDefinition_conserves_bytes hd hs⟩

end ShaderReflection
