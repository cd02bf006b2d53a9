import ShaderReflection.Proofs.Layout.Conservation

/-! The size of a struct and the bytes of its fields, whatever widths and counts its types declare.
The two differ by what single values gain: a value of the host is never narrower than its host type,
also where its declared type is. -/
namespace ShaderReflection

private theorem total_eq_zero_iff {ns : List Int} (h : ∀ n ∈ ns, 0 ≤ n) :
    total ns = 0 ↔ ∀ n ∈ ns, n = 0 := by
  constructor
  · intro hzero n hn
    have hle := le_total_of_mem h hn
    have hnonneg := h n hn
    omega
  · intro hall
    induction ns with
    | nil => rfl
    | cons n ns ih =>
      have hn := hall n List.mem_cons_self
      have hns := ih (fun m hm => h m (List.mem_cons_of_mem _ hm))
        (fun m hm => hall m (List.mem_cons_of_mem _ hm))
      rw [total_cons]
      omega

namespace TypeDescriptor

/-- The host's type for a member that is one value of a base type that the host knows. -/
def hostValue? (t : TypeDescriptor) : Option HostType :=
  if t.columns = 1 ∧ t.vecsize = 1 then HostType.ofBaseType? t.baseType else none

inductive HeldAs (t : TypeDescriptor) : HostType → Prop where
  | matrix (h : t.isFloat32Matrix = true) : HeldAs t .matrix
  | point (h : t.isFloat32Vector 2 = true) : HeldAs t .point
  | vector3 (h : t.isFloat32Vector 3 = true) : HeldAs t .vector3
  | vector4 (h : t.isFloat32Vector 4 = true) : HeldAs t .vector4

/-- By how many bytes the host's type for a single value exceeds the whole bytes that are declared. -/
def widening (t : TypeDescriptor) : Int :=
  match t.hostValue? with
  | some host => max 0 (host.byteSize - t.width.fdiv 8)
  | none => 0

variable {t : TypeDescriptor} {host : HostType}

theorem widening_of_hostValue? (h : t.hostValue? = some host) :
    t.widening = max 0 (host.byteSize - t.width.fdiv 8) := by
  unfold widening
  rw [h]

theorem widening_of_hostValue?_eq_none (h : t.hostValue? = none) : t.widening = 0 := by
  unfold widening
  rw [h]

theorem widening_nonneg (t : TypeDescriptor) : 0 ≤ t.widening := by
  unfold widening
  split
  · exact Int.le_max_left _ _
  · exact Int.le_refl _

private theorem naturalSize_of_hostValue? (h : t.hostValue? = some host) :
    t.naturalSize = t.width.fdiv 8 := by
  unfold hostValue? at h
  split_ifs at h with hsingle
  unfold naturalSize
  rw [hsingle.1, hsingle.2, Int.mul_one, Int.mul_one]

/-- Nothing is gained just where the declared width covers the host's type. -/
theorem widening_eq_zero_iff :
    t.widening = 0 ↔ ∀ host, t.hostValue? = some host → 8 * host.byteSize ≤ t.width := by
  cases h : t.hostValue? with
  | none => simp [widening_of_hostValue?_eq_none h]
  | some host =>
    rw [widening_of_hostValue? h, Int.fdiv_eq_ediv_of_nonneg _ (by omega)]
    constructor
    · rintro hzero _ ⟨⟩
      omega
    · intro hwide
      have := hwide host rfl
      omega

private theorem HeldAs.naturalSize_eq (h : t.HeldAs host) : t.naturalSize = host.byteSize := by
  cases h with
  | matrix h => exact naturalSize_of_isFloat32Matrix h
  | point h | vector3 h | vector4 h => exact naturalSize_of_isFloat32Vector h

/-- A vector or matrix is not a single value. -/
theorem HeldAs.hostValue?_eq_none (h : t.HeldAs host) : t.hostValue? = none := by
  apply if_neg
  intro hsingle
  cases h with
  | matrix h => simp [isFloat32Matrix, hsingle.1] at h
  | point h | vector3 h | vector4 h => simp [isFloat32Vector, hsingle.2] at h

end TypeDescriptor

/-- The first choice that fits wins, and no two of them fit a type. -/
theorem MemberClass.ofType_cases (t : TypeDescriptor) :
    (∃ host, t.HeldAs host ∧ MemberClass.ofType t = .composite host) ∨
    (∃ host, t.hostValue? = some host ∧
      MemberClass.ofType t = .single host (max (t.width.fdiv 8 - host.byteSize) 0)) ∨
    ((∀ host, ¬t.HeldAs host) ∧ t.hostValue? = none ∧
      MemberClass.ofType t = .bytes t.naturalSize) := by
  by_cases hm : t.isFloat32Matrix = true
  · exact .inl ⟨.matrix, .matrix hm, by simp [ofType, hm]⟩
  by_cases h2 : t.isFloat32Vector 2 = true
  · exact .inl ⟨.point, .point h2, by simp [ofType, hm, h2]⟩
  by_cases h3 : t.isFloat32Vector 3 = true
  · exact .inl ⟨.vector3, .vector3 h3, by simp [ofType, hm, h2, h3]⟩
  by_cases h4 : t.isFloat32Vector 4 = true
  · exact .inl ⟨.vector4, .vector4 h4, by simp [ofType, hm, h2, h3, h4]⟩
  right
  have hheld : ∀ host, ¬t.HeldAs host := by
    intro host hheld
    cases hheld <;> contradiction
  unfold TypeDescriptor.hostValue?
  cases hb : HostType.ofBaseType? t.baseType with
  | none => exact .inr ⟨hheld, by simp, by simp [ofType, hm, h2, h3, h4, hb]⟩
  | some host =>
    by_cases hsingle : t.columns = 1 ∧ t.vecsize = 1
    · exact .inl ⟨host, by simp [hsingle], by simp [ofType, hm, h2, h3, h4, hb, hsingle]⟩
    · exact .inr ⟨hheld, by simp [hsingle], by simp [ofType, hm, h2, h3, h4, hb, hsingle]⟩

/-- The fields that a member of a type gets in a struct. -/
inductive MemberFields (t : TypeDescriptor) : List StructMember → Prop where
  /-- A vector or matrix of the host. -/
  | composite {host : HostType} {m : StructMember} (held : t.HeldAs host)
      (type : host.text = some m.type) (bytes : m.byteLength = t.naturalSize) :
      MemberFields t [m]
  /-- A single value whose declared bytes fit into the host's type. -/
  | value {host : HostType} {m : StructMember} (value : t.hostValue? = some host)
      (fits : t.width.fdiv 8 ≤ host.byteSize) (type : host.text = some m.type)
      (bytes : m.byteLength = host.byteSize) : MemberFields t [m]
  /-- A single value that is declared wider than the host's type, and the rest of it. -/
  | padded {host : HostType} {m p : StructMember} (value : t.hostValue? = some host)
      (wider : host.byteSize < t.width.fdiv 8) (type : host.text = some m.type)
      (bytes : m.byteLength = host.byteSize)
      (restType : (HostType.padding p.byteLength).text = some p.type)
      (restBytes : p.byteLength = t.width.fdiv 8 - host.byteSize) : MemberFields t [m, p]
  /-- Anything else, as bytes. -/
  | carried {m : StructMember} (unheld : ∀ host, ¬t.HeldAs host) (value : t.hostValue? = none)
      (type : (HostType.padding m.byteLength).text = some m.type)
      (bytes : m.byteLength = t.naturalSize) : MemberFields t [m]

namespace MemberFields

variable {t : TypeDescriptor} {run : List StructMember}

/-- The fields of a member take its natural size and what it gains. -/
theorem total_byteLength (h : MemberFields t run) :
    total (run.map (·.byteLength)) = t.naturalSize + t.widening := by
  cases h with
  | composite held type bytes =>
    rw [TypeDescriptor.widening_of_hostValue?_eq_none held.hostValue?_eq_none]
    simpa using bytes
  | value value fits type bytes =>
    rw [TypeDescriptor.widening_of_hostValue? value, TypeDescriptor.naturalSize_of_hostValue? value]
    simp only [List.map_cons, List.map_nil, total_cons, total_nil]
    omega
  | padded value wider type bytes restType restBytes =>
    rw [TypeDescriptor.widening_of_hostValue? value, TypeDescriptor.naturalSize_of_hostValue? value]
    simp only [List.map_cons, List.map_nil, total_cons, total_nil]
    omega
  | carried unheld value type bytes =>
    rw [TypeDescriptor.widening_of_hostValue?_eq_none value]
    simpa using bytes

/-- There is a second field just behind a single value that is declared wider than the host's type. -/
theorem length_eq_two_iff (h : MemberFields t run) :
    run.length = 2 ↔ ∃ host, t.hostValue? = some host ∧ host.byteSize < t.width.fdiv 8 := by
  cases h with
  | composite held => simp [held.hostValue?_eq_none]
  | value value fits =>
    constructor
    · intro hlength
      cases hlength
    · rintro ⟨host, hvalue, hwider⟩
      obtain rfl := Option.some.inj (value.symm.trans hvalue)
      omega
  | padded value wider =>
    constructor
    · intro _
      exact ⟨_, value, wider⟩
    · intro _
      rfl
  | carried unheld value => simp [value]

end MemberFields

/-- The fields that are made from the parts of a type are those of a member. -/
theorem memberFields_place {t : TypeDescriptor} {ns : List NamedBlock}
    (hw : List.Forall₂ Writes (MemberClass.ofType t).blocks ns) (offset : Int) :
    MemberFields t (place offset ns) := by
  rcases MemberClass.ofType_cases t with
    ⟨host, hheld, hclass⟩ | ⟨host, hvalue, hclass⟩ | ⟨hheld, hvalue, hclass⟩
  · rw [hclass, MemberClass.blocks] at hw
    cases hw with
    | cons hn hrest =>
      cases hrest
      exact .composite hheld hn.1 (hn.2.trans hheld.naturalSize_eq.symm)
  · rw [hclass, MemberClass.blocks] at hw
    cases hw with
    | cons hn hrest =>
      split_ifs at hrest with hpadding
      · cases hrest
        exact .value hvalue (by omega) hn.1 hn.2
      · cases hrest with
        | cons hp hrest =>
          cases hrest
          have hlength := hp.2
          dsimp only at hlength
          have htext := hp.1
          dsimp only at htext
          rw [← hlength] at htext
          exact .padded hvalue (by omega) hn.1 hn.2 htext (by dsimp only; omega)
  · rw [hclass, MemberClass.blocks] at hw
    cases hw with
    | cons hn hrest =>
      cases hrest
      have htext := hn.1
      rw [show t.naturalSize = _ from hn.2.symm] at htext
      exact .carried hheld hvalue htext hn.2

/-- The fields of a struct are those of its members, one after another. -/
theorem exists_memberFields {ts : List TypeDescriptor} {index : Nat} {ns : List NamedBlock}
    (hw : List.Forall₂ Writes ((entriesFrom index ts).map (·.block)) ns) (offset : Int) :
    ∃ runs : List (List StructMember),
      runs.flatten = place offset ns ∧ List.Forall₂ MemberFields ts runs := by
  induction ts generalizing index ns offset with
  | nil =>
    cases hw
    exact ⟨[], rfl, .nil⟩
  | cons t ts ih =>
    rw [map_block_entriesFrom] at hw
    obtain ⟨ms, rest, rfl, hms, hrest⟩ := exists_append_of_related hw
    obtain ⟨runs, hflatten, hruns⟩ := ih hrest (offset + total (ms.map (·.byteLength)))
    refine ⟨place offset ms :: runs, ?_, .cons (memberFields_place hms offset) hruns⟩
    rw [List.flatten_cons, hflatten, place_append]

theorem total_byteLength_flatten {ts : List TypeDescriptor} {runs : List (List StructMember)}
    (h : List.Forall₂ MemberFields ts runs) :
    total (runs.flatten.map (·.byteLength)) =
      total (ts.map (·.naturalSize)) + total (ts.map (·.widening)) := by
  induction h with
  | nil => rfl
  | cons hrun _ ih =>
    have hbytes := hrun.total_byteLength
    simp only [List.flatten_cons, List.map_append, total_append, List.map_cons, total_cons]
    omega

theorem total_widening_nonneg (ts : List TypeDescriptor) : 0 ≤ total (ts.map (·.widening)) := by
  apply total_nonneg
  intro n hn
  obtain ⟨t, -, rfl⟩ := List.mem_map.mp hn
  exact t.widening_nonneg

theorem total_widening_eq_zero_iff {ts : List TypeDescriptor} :
    total (ts.map (·.widening)) = 0 ↔
      ∀ t ∈ ts, ∀ host, t.hostValue? = some host → 8 * host.byteSize ≤ t.width := by
  have hnonneg : ∀ n ∈ ts.map (·.widening), 0 ≤ n := by
    intro n hn
    obtain ⟨t, -, rfl⟩ := List.mem_map.mp hn
    exact t.widening_nonneg
  rw [total_eq_zero_iff hnonneg, List.forall_mem_map]
  exact forall₂_congr fun t _ => t.widening_eq_zero_iff

/-- The bytes of a struct's fields are its size and what its single values gain, for all types that a
shader can hold. So the fields never take less than the size, and take just that if no single value
is declared narrower than its host type. Padding stands just behind a single value that is declared
wider. -/
theorem structDefinition_accounts_for_bytes {s : Shader} {id : Id} {namer namer' : Namer}
    {d : StructDefinition} (h : s.structDefinition id namer = (.ok d, namer')) :
    Contiguous 0 d.members ∧ d.byteLength ≤ total (d.members.map (·.byteLength)) ∧
      ∃ (t : TypeDescriptor) (ts : List TypeDescriptor) (runs : List (List StructMember)),
        s.type? id = some t ∧ t.members.map s.type? = ts.map some ∧
        d.byteLength = total (ts.map (·.naturalSize)) ∧
        runs.flatten = d.members ∧ List.Forall₂ MemberFields ts runs ∧
        List.Forall₂ (fun u run => run.length = 2 ↔
          ∃ host, u.hostValue? = some host ∧ host.byteSize < u.width.fdiv 8) ts runs ∧
        total (d.members.map (·.byteLength)) = d.byteLength + total (ts.map (·.widening)) ∧
        (total (d.members.map (·.byteLength)) = d.byteLength ↔
          ∀ u ∈ ts, ∀ host, u.hostValue? = some host → 8 * host.byteSize ≤ u.width) := by
  obtain ⟨t, ts, ns, ht, -, hts, hn, rfl⟩ := Shader.structDefinition_ok h
  obtain ⟨runs, hflatten, hruns⟩ := exists_memberFields (Shader.nameEntries_writes hn) 0
  have htotal := total_byteLength_flatten hruns
  rw [hflatten] at htotal
  have hnonneg := total_widening_nonneg ts
  refine ⟨contiguous_place 0 ns, by dsimp only; omega, t, ts, runs, ht, hts, rfl, hflatten, hruns,
    hruns.imp fun _ _ hrun => hrun.length_eq_two_iff, htotal, ?_⟩
  rw [← total_widening_eq_zero_iff, htotal]
  dsimp only
  omega

/-- A shader whose types have widths that no listing gives them. -/
def oddShader : Shader where
  entryPoints := []
  resources _ := []
  type? id := [
    (1, { baseType := .struct, selfId := 1, members := [2, 3, 4, 5, 6] }),
    (2, { baseType := .boolean }),
    (3, { baseType := .uint, width := 75 }),
    (4, { baseType := .float, width := 32, vecsize := 3 }),
    (5, { baseType := .int, width := -9 }),
    (6, { baseType := .double, width := 64, columns := -1 })].lookup id
  name _ := "Odd"
  decoration _ _ := 0
  slots _ := []
  memberName? _ _ := none
  structIds := [1]

def oddDefinition : StructDefinition where
  name := "Odd"
  byteLength := 11
  members := [
    ⟨"unnamed_0", "bool", 0, 1⟩, ⟨"unnamed_1", "uint32_t", 1, 4⟩,
    ⟨"unnamed_2_pad", "Padding<5>", 5, 5⟩, ⟨"unnamed_3", "Vector3", 10, 12⟩,
    ⟨"unnamed_4", "int32_t", 22, 4⟩, ⟨"unnamed_5", "Padding<-8>", 26, -8⟩]

/-- Two of the single values gain bytes, seven of them. -/
theorem oddDefinition_accounts_for_bytes :
    oddShader.structDefinition 1 ⟨0⟩ = (.ok oddDefinition, ⟨6⟩) ∧
      total (oddDefinition.members.map (·.byteLength)) = oddDefinition.byteLength + 7 ∧
      Contiguous 0 oddDefinition.members ∧
      oddDefinition.byteLength ≤ total (oddDefinition.members.map (·.byteLength)) ∧
      ∃ (t : TypeDescriptor) (ts : List TypeDescriptor) (runs : List (List StructMember)),
        oddShader.type? 1 = some t ∧ t.members.map oddShader.type? = ts.map some ∧
        oddDefinition.byteLength = total (ts.map (·.naturalSize)) ∧
        runs.flatten = oddDefinition.members ∧ List.Forall₂ MemberFields ts runs ∧
        List.Forall₂ (fun u run => run.length = 2 ↔
          ∃ host, u.hostValue? = some host ∧ host.byteSize < u.width.fdiv 8) ts runs ∧
        total (oddDefinition.members.map (·.byteLength)) =
          oddDefinition.byteLength + total (ts.map (·.widening)) ∧
        (total (oddDefinition.members.map (·.byteLength)) = oddDefinition.byteLength ↔
          ∀ u ∈ ts, ∀ host, u.hostValue? = some host → 8 * host.byteSize ≤ u.width) := by
  have h : oddShader.structDefinition 1 ⟨0⟩ = (.ok oddDefinition, ⟨6⟩) := by decide +kernel
  exact ⟨h, by decide, structDefinition_accounts_for_bytes h⟩

end ShaderReflection
