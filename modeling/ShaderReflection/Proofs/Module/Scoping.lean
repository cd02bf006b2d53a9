import Mathlib.Data.List.Nodup
import Mathlib.Data.Set.Function
import ShaderReflection.Module.Resources
import ShaderReflection.Proofs.Module.Aliasing
import ShaderReflection.Proofs.Module.Annotations
import ShaderReflection.Proofs.Module.ImageTypes
import ShaderReflection.Proofs.Module.Pointers
import ShaderReflection.Proofs.Module.Variables

/-! The scope of ids. After every instruction the ids that have been given out are 1 to some number,
one for each name, and no table holds any other. Whatever a descriptor or the list of roots names as
a type has a descriptor itself. -/
namespace ShaderReflection.Module.Declarations

open Assembly (Instruction Operand)

def InScope (d : Declarations) (x : Int) : Prop := 1 ≤ x ∧ x ≤ d.ids.length

def HasType (d : Declarations) (x : Id) : Prop := x ∈ d.types.keys

/-- What a descriptor says about other ids: its members have been given out, and its identity and
the struct that it is an alias of are known as types. -/
structure TypeScoped (d : Declarations) (known : Id → Prop) (t : TypeDescriptor) : Prop where
  selfId : known t.selfId
  members : ∀ m ∈ t.members, d.InScope m
  aliasOf : ∀ r, t.aliasOf = some r → known r

/-- No table holds an id that has not been given out, and types are made of types that are known. -/
structure WellScoped (d : Declarations) : Prop where
  ids : d.ids.Nodup
  names : ∀ e ∈ d.names.entries, d.InScope e.1
  memberNames : ∀ e ∈ d.memberNames.entries, d.InScope e.1.1
  decorations : ∀ e ∈ d.decorations.entries, d.InScope e.1.1
  memberDecorations : ∀ e ∈ d.memberDecorations.entries, d.InScope e.1.1
  types : ∀ e ∈ d.types.entries, d.InScope e.1 ∧ d.TypeScoped d.HasType e.2
  pointees : ∀ e ∈ d.pointees.entries, d.InScope e.1 ∧ d.InScope e.2
  imageSampled : ∀ e ∈ d.imageSampled.entries, d.InScope e.1
  constants : ∀ e ∈ d.constants.entries, d.InScope e.1
  globals : ∀ v ∈ d.globals, d.InScope v.id ∧ d.InScope v.typeId
  roots : ∀ r ∈ d.roots, d.HasType r

private theorem wellScoped_empty : WellScoped empty := by
  constructor <;> simp [empty, Table.empty]

section Ids

variable {d e : Declarations} {i : Instruction} {name : String} {x : Int}

theorem inScope_of_idOf? (h : d.idOf? name = some x) : d.InScope x := by
  obtain ⟨k, hk, rfl⟩ := idOf?_eq_some_iff.mp h
  obtain ⟨hlt, -, -⟩ := List.findIdx?_eq_some_iff_getElem.mp hk
  unfold InScope
  omega

theorem exists_idOf?_of_mem (h : name ∈ d.ids) : ∃ x, d.idOf? name = some x := by
  have hsome : (d.ids.findIdx? (· == name)).isSome = true := by
    rw [List.findIdx?_isSome, List.any_eq_true]
    exact ⟨name, h, beq_self_eq_true name⟩
  obtain ⟨k, hk⟩ := Option.isSome_iff_exists.mp hsome
  exact ⟨k + 1, idOf?_eq_some_iff.mpr ⟨k, hk, rfl⟩⟩

/-- The names of a list without repetitions have the ids from 1 to its length. -/
private theorem exists_name_of_inScope (hids : d.ids.Nodup) (h : d.InScope x) :
    ∃ name ∈ d.ids, d.idOf? name = some x := by
  obtain ⟨k, rfl⟩ : ∃ k : Nat, x = k + 1 := ⟨(x - 1).toNat, by unfold InScope at h; omega⟩
  have hk : k < d.ids.length := by unfold InScope at h; omega
  refine ⟨d.ids[k], List.getElem_mem hk, idOf?_eq_some_iff.mpr ⟨k, ?_, rfl⟩⟩
  refine List.findIdx?_eq_some_iff_getElem.mpr ⟨hk, beq_self_eq_true _, fun j hj => ?_⟩
  have hne : d.ids[j] ≠ d.ids[k] := fun heq => by
    have := (List.Nodup.getElem_inj_iff hids).mp heq
    omega
  simpa using hne

/-- Interning is a bijection between the names that have been given ids and the ids from 1 on. -/
theorem bijOn_idOf? (hids : d.ids.Nodup) :
    Set.BijOn (fun name => (d.idOf? name).getD 0) {name | name ∈ d.ids}
      {x : Int | 1 ≤ x ∧ x ≤ d.ids.length} := by
  refine ⟨fun name hm => ?_, fun name hm name' hm' heq => ?_, fun x hx => ?_⟩
  · obtain ⟨x, hx⟩ := exists_idOf?_of_mem hm
    simp only [hx, Option.getD_some]
    exact inScope_of_idOf? hx
  · obtain ⟨x, hx⟩ := exists_idOf?_of_mem hm
    obtain ⟨x', hx'⟩ := exists_idOf?_of_mem hm'
    simp only [hx, hx', Option.getD_some] at heq
    exact idOf?_injective hx (heq ▸ hx')
  · obtain ⟨name, hm, hname⟩ := exists_name_of_inScope hids hx
    exact ⟨name, hm, by simp [hname]⟩

theorem InScope.mono (hp : d.ids <+: e.ids) (h : d.InScope x) : e.InScope x := by
  have hle := hp.length_le
  unfold InScope at h ⊢
  omega

theorem nodup_intern (hids : d.ids.Nodup) (name : String) : (d.intern name).2.ids.Nodup := by
  unfold intern
  split
  case h_1 => exact hids
  case h_2 hnone =>
    refine List.nodup_append.mpr ⟨hids, List.nodup_singleton _, fun n hn m hm heq => ?_⟩
    rw [List.mem_singleton.mp hm] at heq
    obtain ⟨x, hx⟩ := exists_idOf?_of_mem (heq ▸ hn)
    rw [hnone] at hx
    cases hx

theorem nodup_internAll (hids : d.ids.Nodup) (names : List String) :
    (d.internAll names).2.ids.Nodup := by
  induction names generalizing d with
  | nil => exact hids
  | cons n ns ih => exact ih (nodup_intern hids n)

theorem nodup_result (hids : d.ids.Nodup) (h : d.result i = .ok (x, e)) : e.ids.Nodup := by
  obtain ⟨name, -, he⟩ := result_ok h
  have hname := nodup_intern hids name
  rwa [he] at hname

theorem nodup_operandId (hids : d.ids.Nodup) {index : Int}
    (h : d.operandId i index = .ok (x, e)) : e.ids.Nodup := by
  obtain ⟨name, -, he⟩ := operandId_ok h
  have hname := nodup_intern hids name
  rwa [he] at hname

theorem nodup_arrayLength (hids : d.ids.Nodup) {n : Int} (h : d.arrayLength i = .ok (n, e)) :
    e.ids.Nodup := by
  obtain ⟨⟨_, _⟩, hl, he⟩ := bind_eq_ok.mp h
  obtain ⟨-, rfl⟩ := Prod.mk.inj (pure_eq_ok.mp he)
  exact nodup_operandId hids hl

theorem nodup_describe (hids : d.ids.Nodup) {kind : TypeOpcode} {t? : Option TypeDescriptor}
    (h : d.describe x kind i = .ok (e, t?)) : e.ids.Nodup := by
  cases kind with
  | void | bool | sampler | sampledImage | function | unknown | image =>
    obtain ⟨rfl, -⟩ := Prod.mk.inj (Except.ok.inj h)
    exact hids
  | int =>
    obtain ⟨width, -, h⟩ := bind_eq_ok.mp h
    obtain ⟨signed, -, h⟩ := bind_eq_ok.mp h
    obtain ⟨rfl, -⟩ := Prod.mk.inj (pure_eq_ok.mp h)
    exact hids
  | float =>
    obtain ⟨width, -, h⟩ := bind_eq_ok.mp h
    obtain ⟨rfl, -⟩ := Prod.mk.inj (pure_eq_ok.mp h)
    exact hids
  | vector | matrix =>
    obtain ⟨⟨c, d₁⟩, hc, h⟩ := bind_eq_ok.mp h
    have hids := nodup_operandId hids hc
    dsimp only at h
    split at h
    · obtain ⟨rfl, -⟩ := Prod.mk.inj (pure_eq_ok.mp h)
      exact hids
    · obtain ⟨n, -, h⟩ := bind_eq_ok.mp h
      obtain ⟨rfl, -⟩ := Prod.mk.inj (pure_eq_ok.mp h)
      exact hids
  | array =>
    obtain ⟨⟨c, d₁⟩, hc, h⟩ := bind_eq_ok.mp h
    have hids := nodup_operandId hids hc
    dsimp only at h
    split at h
    · obtain ⟨rfl, -⟩ := Prod.mk.inj (pure_eq_ok.mp h)
      exact hids
    · obtain ⟨⟨n, d₂⟩, hn, h⟩ := bind_eq_ok.mp h
      obtain ⟨rfl, -⟩ := Prod.mk.inj (pure_eq_ok.mp h)
      exact nodup_arrayLength hids hn
  | runtimeArray | pointer =>
    obtain ⟨⟨c, d₁⟩, hc, h⟩ := bind_eq_ok.mp h
    have hids := nodup_operandId hids hc
    obtain ⟨rfl, -⟩ := Prod.mk.inj (pure_eq_ok.mp h)
    exact hids
  | struct =>
    obtain ⟨⟨d₁, t⟩, hs, h⟩ := bind_eq_ok.mp h
    obtain ⟨rfl, -⟩ := Prod.mk.inj (pure_eq_ok.mp h)
    obtain ⟨roots, -, rfl, -⟩ := (describeStruct_ok hs).frame
    exact nodup_internAll hids (idNames i.operands)

/-- An instruction gives out ids for new names only. -/
theorem nodup_declare (hids : d.ids.Nodup) (h : d.declare i = .ok e) : e.ids.Nodup := by
  unfold declare at h
  split at h
  case h_1 =>
    obtain ⟨_, -, h⟩ := bind_eq_ok.mp h
    obtain ⟨_, -, h⟩ := bind_eq_ok.mp h
    rw [← pure_eq_ok.mp h]
    exact hids
  case h_2 =>
    obtain ⟨_, -, h⟩ := bind_eq_ok.mp h
    obtain ⟨_, hc, h⟩ := bind_eq_ok.mp h
    have hids := nodup_operandId hids hc
    rw [← pure_eq_ok.mp h]
    exact hids
  case h_3 | h_5 =>
    obtain ⟨_, hc, h⟩ := bind_eq_ok.mp h
    obtain ⟨_, -, h⟩ := bind_eq_ok.mp h
    obtain ⟨_, -, h⟩ := bind_eq_ok.mp h
    have hids := nodup_operandId hids hc
    rw [← pure_eq_ok.mp h]
    exact hids
  case h_4 =>
    obtain ⟨_, hc, h⟩ := bind_eq_ok.mp h
    obtain ⟨_, -, h⟩ := bind_eq_ok.mp h
    have hids := nodup_operandId hids hc
    rw [← pure_eq_ok.mp h]
    exact hids
  case h_6 =>
    split at h
    · cases h
    · obtain ⟨_, hr, h⟩ := bind_eq_ok.mp h
      have hids := nodup_result hids hr
      rw [← pure_eq_ok.mp h]
      exact hids
    · cases h
      exact hids
  case h_7 =>
    obtain ⟨_, hr, h⟩ := bind_eq_ok.mp h
    obtain ⟨_, hc, h⟩ := bind_eq_ok.mp h
    obtain ⟨_, -, h⟩ := bind_eq_ok.mp h
    have hids := nodup_operandId (nodup_result hids hr) hc
    rw [← pure_eq_ok.mp h]
    exact hids
  case h_8 =>
    obtain ⟨_, hr, h⟩ := bind_eq_ok.mp h
    obtain ⟨⟨_, t?⟩, hd, h⟩ := bind_eq_ok.mp h
    have hids := nodup_describe (nodup_result hids hr) hd
    cases t? <;> rw [← pure_eq_ok.mp h] <;> exact hids
  case h_9 =>
    cases h
    exact hids

end Ids

/-- A table that an instruction changes at most under a key whose id has been given out. -/
def WritesScoped (table : Declarations → Table κ α) [DecidableEq κ] (key : κ → Id) : Prop :=
  ∀ {d e : Declarations} {i : Instruction}, d.declare i = .ok e → table e = table d ∨
    ∃ k a, e.InScope (key k) ∧ table e = (table d).set k a

section Tables

variable {d e : Declarations} {i : Instruction}

theorem WritesScoped.step [DecidableEq κ] {table : Declarations → Table κ α} {key : κ → Id}
    (ht : WritesScoped table key) (h : d.declare i = .ok e)
    (hd : ∀ p ∈ (table d).entries, d.InScope (key p.1)) :
    ∀ p ∈ (table e).entries, e.InScope (key p.1) := by
  have hold : ∀ p ∈ (table d).entries, e.InScope (key p.1) :=
    fun p hp => (hd p hp).mono (declare_ids h)
  rcases ht h with hsame | ⟨k, a, hk, hset⟩
  · rwa [hsame]
  · rw [hset]
    intro p hp
    rcases Table.mem_entries_of_mem_set hp with rfl | hp
    · exact hk
    · exact hold p hp

theorem names_writesScoped : WritesScoped (·.names) (·) := by
  intro d e i h
  have hd := declare_ok h
  generalize Opcode.ofName i.opcode = o at hd
  cases hd with
  | name hp ht hid hx => exact .inr ⟨_, _, inScope_of_idOf? hid, rfl⟩
  | type ht =>
    obtain ⟨_, _, _, _, _, -, rfl, -⟩ := declareType_frame ht
    exact .inl rfl
  | _ => exact .inl rfl

theorem constants_writesScoped : WritesScoped (·.constants) (·) := by
  intro d e i h
  by_cases ho : Opcode.ofName i.opcode = .constant
  · unfold declare at h
    rw [ho] at h
    dsimp only at h
    split at h
    · cases h
    · obtain ⟨⟨x, d₁⟩, hr, h⟩ := bind_eq_ok.mp h
      obtain ⟨⟨ids, -, rfl⟩, name, -, hx⟩ := result_target hr
      rw [← pure_eq_ok.mp h]
      exact .inr ⟨_, _, inScope_of_idOf? hx, rfl⟩
    · cases h
      exact .inl rfl
  · have hd := declare_ok h
    generalize Opcode.ofName i.opcode = o at hd ho
    cases hd with
    | constant => exact absurd rfl ho
    | type ht =>
      obtain ⟨_, _, _, _, _, -, rfl, -⟩ := declareType_frame ht
      exact .inl rfl
    | _ => exact .inl rfl

theorem imageSampled_writesScoped : WritesScoped (·.imageSampled) (·) := by
  intro d e i h
  rcases declare_imageSampled h with ⟨-, hsame⟩ | ⟨-, name, x, -, hx, hset, -⟩
  · exact .inl hsame
  · exact .inr ⟨x, _, inScope_of_idOf? hx, hset⟩

/-- An annotation is written down for an id that has been given out. -/
theorem declare_annotation_cases (h : d.declare i = .ok e) :
    (e.memberNames = d.memberNames ∧ e.decorations = d.decorations ∧
      e.memberDecorations = d.memberDecorations) ∨
    ∃ ids x, ∃ m : Note, InScope { d with ids } x ∧ e = m.addTo x { d with ids } := by
  cases ha : annotates i with
  | false => exact .inl (declare_annotations h ha)
  | true =>
    obtain ⟨m, hm⟩ := exists_note h ha
    have he := Except.ok.inj (h.symm.trans (declare_of_note? hm d))
    have hx := inScope_of_idOf? (idOf?_intern d m.target)
    obtain ⟨ids, -, hi⟩ := interned_intern d m.target
    rw [hi] at he hx
    exact .inr ⟨ids, _, m, hx, he⟩

theorem memberNames_writesScoped : WritesScoped (·.memberNames) (·.1) := by
  intro d e i h
  rcases declare_annotation_cases h with ⟨hsame, -⟩ | ⟨ids, x, m, hx, rfl⟩
  · exact .inl hsame
  · cases m with
    | memberName => exact .inr ⟨(x, _), _, hx, rfl⟩
    | decoration | memberDecoration => exact .inl rfl

theorem decorations_writesScoped : WritesScoped (·.decorations) (·.1) := by
  intro d e i h
  rcases declare_annotation_cases h with ⟨-, hsame, -⟩ | ⟨ids, x, m, hx, rfl⟩
  · exact .inl hsame
  · cases m with
    | decoration => exact .inr ⟨(x, _), _, hx, rfl⟩
    | memberName | memberDecoration => exact .inl rfl

theorem memberDecorations_writesScoped : WritesScoped (·.memberDecorations) (·.1) := by
  intro d e i h
  rcases declare_annotation_cases h with ⟨-, -, hsame⟩ | ⟨ids, x, m, hx, rfl⟩
  · exact .inl hsame
  · cases m with
    | memberDecoration => exact .inr ⟨(x, _, _), _, hx, rfl⟩
    | memberName | decoration => exact .inl rfl

end Tables

section Types

variable {d e : Declarations} {i : Instruction} {x : Id} {t : TypeDescriptor}

theorem TypeScoped.mono {known known' : Id → Prop} (h : d.TypeScoped known t)
    (hids : d.ids <+: e.ids) (hknown : ∀ y, known y → known' y) : e.TypeScoped known' t where
  selfId := hknown _ h.selfId
  members := fun m hm => (h.members m hm).mono hids
  aliasOf := fun r hr => hknown r (h.aliasOf r hr)

private theorem hasType_set (he : e.types = d.types.set x t) {y : Id} :
    e.HasType y ↔ y = x ∨ d.HasType y := by
  unfold HasType
  rw [he, Table.keys_set]
  split_ifs with hx
  · exact ⟨.inr, fun h => h.elim (fun h => h ▸ hx) id⟩
  · rw [List.mem_append, List.mem_singleton, or_comm]

theorem WellScoped.get? (hd : WellScoped d) (hx : d.types.get? x = some t) :
    d.InScope x ∧ d.TypeScoped d.HasType t := hd.types _ (Table.mem_entries_of_get? hx)

/-- Apart from a struct, a type names its own id or what the type that it is made of names. -/
theorem WellScoped.typeScoped_of_described (hd : WellScoped d) {kind : TypeOpcode}
    (h : Described d.types x kind t) (hk : kind ≠ .struct) :
    d.TypeScoped (fun y => y = x ∨ d.HasType y) t := by
  cases h with
  | plain | bool | int | float => exact ⟨.inl rfl, by simp, by simp⟩
  | struct => exact absurd rfl hk
  | vector hc | matrix hc =>
    obtain ⟨-, hu⟩ := hd.get? hc
    exact ⟨.inl rfl, hu.members, fun r hr => .inr (hu.aliasOf r hr)⟩
  | array hc | runtimeArray hc | pointer hc =>
    obtain ⟨-, hu⟩ := hd.get? hc
    exact ⟨.inr hu.selfId, hu.members, fun r hr => .inr (hu.aliasOf r hr)⟩

/-- A struct is made of members that have been given ids, and it is an alias of a root if of
anything. -/
theorem WellScoped.declare_struct (hd : WellScoped d) (ho : i.opcode = "OpTypeStruct")
    (h : d.declare i = .ok e) : ∃ x t, e.types = d.types.set x t ∧ e.InScope x ∧
      e.TypeScoped (fun y => y = x ∨ d.HasType y) t ∧ ∀ r ∈ e.roots, r = x ∨ r ∈ d.roots := by
  obtain ⟨ids, name, x, members, d₁, t, -, -, hx, hm, hs, he⟩ := declare_struct_ok ho h
  obtain ⟨roots, aliasOf, hd₁, ht⟩ := hs.frame
  have hids : ids <+: e.ids := by
    have heq : e.ids = ids := by rw [he, hd₁]
    exact heq ▸ List.prefix_refl ids
  have htypes : e.types = d.types.set x t := by rw [he, hd₁]
  have hroots : e.roots = d₁.roots := by rw [he]
  have hmembers : ∀ y ∈ t.members, e.InScope y := by
    intro y hy
    rw [ht] at hy
    obtain ⟨n, -, hn⟩ := exists_of_mem_related hm.flip hy
    exact (inScope_of_idOf? hn).mono (d := { d with ids }) hids
  have hself : t.selfId = x := by rw [ht]
  refine ⟨x, t, htypes, (inScope_of_idOf? hx).mono (d := { d with ids }) hids,
    ⟨.inl hself, hmembers, ?_⟩, ?_⟩
  · intro r hr
    cases hs with
    | anonymous | root => cases hr
    | aliased hn hf =>
      obtain ⟨hmem, -⟩ := findRoot_eq_some hf
      exact .inr (hd.roots r (Option.some.inj hr ▸ hmem))
  · intro r hr
    rw [hroots] at hr
    cases hs with
    | anonymous | aliased => exact .inr hr
    | root => exact (List.mem_append.mp hr).symm.imp_left List.mem_singleton.mp

/-- What an instruction does to the types and the roots. -/
theorem WellScoped.declare_types (hd : WellScoped d) (h : d.declare i = .ok e) :
    (e.types = d.types ∧ e.roots = d.roots) ∨ ∃ x t, e.types = d.types.set x t ∧ e.InScope x ∧
      e.TypeScoped (fun y => y = x ∨ d.HasType y) t ∧ ∀ r ∈ e.roots, r = x ∨ r ∈ d.roots := by
  by_cases ho : i.opcode = "OpTypeStruct"
  · exact .inr (hd.declare_struct ho h)
  · have hroots := declare_roots ho h
    rcases Declarations.declare_types h with hsame | ⟨kind, name, x, t, hk, -, hx, ht, he⟩
    · exact .inl ⟨hsame, hroots⟩
    · have hne : kind ≠ .struct := by
        rintro rfl
        exact ho (ofName_eq_struct_iff.mp hk)
      exact .inr ⟨x, t, he, inScope_of_idOf? hx,
        (hd.typeScoped_of_described ht hne).mono (declare_ids h) fun _ => id,
        fun r hr => .inr (hroots ▸ hr)⟩

theorem WellScoped.types_step (hd : WellScoped d) (h : d.declare i = .ok e) :
    (∀ p ∈ e.types.entries, e.InScope p.1 ∧ e.TypeScoped e.HasType p.2) ∧
      ∀ r ∈ e.roots, e.HasType r := by
  have hids := declare_ids h
  rcases hd.declare_types h with ⟨htypes, hroots⟩ | ⟨x, t, he, hx, ht, hroots⟩
  · have hhas : e.HasType = d.HasType := by
      unfold HasType
      rw [htypes]
    rw [htypes, hroots, hhas]
    exact ⟨fun p hp => ⟨(hd.types p hp).1.mono hids, (hd.types p hp).2.mono hids fun _ => id⟩,
      hd.roots⟩
  · have hhas : ∀ y, y = x ∨ d.HasType y → e.HasType y := fun y => (hasType_set he).mpr
    refine ⟨fun p hp => ?_, fun r hr => hhas r ((hroots r hr).imp_right (hd.roots r))⟩
    rw [he] at hp
    rcases Table.mem_entries_of_mem_set hp with rfl | hp
    · exact ⟨hx, ht.mono (List.prefix_refl _) hhas⟩
    · exact ⟨(hd.types p hp).1.mono hids, (hd.types p hp).2.mono hids fun y hy => hhas y (.inr hy)⟩

end Types

section Step

variable {d e : Declarations} {i : Instruction}

theorem WellScoped.pointees_step (hd : WellScoped d) (h : d.declare i = .ok e) :
    ∀ p ∈ e.pointees.entries, e.InScope p.1 ∧ e.InScope p.2 := by
  have hold : ∀ p ∈ d.pointees.entries, e.InScope p.1 ∧ e.InScope p.2 := fun p hp =>
    (hd.pointees p hp).imp (.mono (declare_ids h)) (.mono (declare_ids h))
  rcases declare_pointees h with ⟨-, hsame⟩ | ⟨x, c, hpointer, hset, -⟩
  · rwa [hsame]
  · rw [hset]
    intro p hp
    rcases Table.mem_entries_of_mem_set hp with rfl | hp
    · obtain ⟨_, -, hx⟩ := hpointer.id
      obtain ⟨_, -, hc⟩ := hpointer.pointee
      exact ⟨inScope_of_idOf? hx, inScope_of_idOf? hc⟩
    · exact hold p hp

theorem WellScoped.globals_step (hd : WellScoped d) (h : d.declare i = .ok e) :
    ∀ v ∈ e.globals, e.InScope v.id ∧ e.InScope v.typeId := by
  have hold : ∀ v ∈ d.globals, e.InScope v.id ∧ e.InScope v.typeId := fun v hv =>
    (hd.globals v hv).imp (.mono (declare_ids h)) (.mono (declare_ids h))
  rcases declare_globals h with ⟨-, hsame⟩ | ⟨-, v, hv, hadd⟩
  · rwa [hsame]
  · rw [hadd]
    intro w hw
    rcases List.mem_append.mp hw with hw | hw
    · exact hold w hw
    · rw [List.mem_singleton.mp hw]
      obtain ⟨_, -, hx⟩ := hv.id
      obtain ⟨_, -, ht⟩ := hv.typeId
      exact ⟨inScope_of_idOf? hx, inScope_of_idOf? ht⟩

/-- An instruction leaves all ids in scope. -/
theorem WellScoped.step (hd : WellScoped d) (h : d.declare i = .ok e) : WellScoped e where
  ids := nodup_declare hd.ids h
  names := names_writesScoped.step h hd.names
  memberNames := memberNames_writesScoped.step h hd.memberNames
  decorations := decorations_writesScoped.step h hd.decorations
  memberDecorations := memberDecorations_writesScoped.step h hd.memberDecorations
  types := (hd.types_step h).1
  pointees := hd.pointees_step h
  imageSampled := imageSampled_writesScoped.step h hd.imageSampled
  constants := constants_writesScoped.step h hd.constants
  globals := hd.globals_step h
  roots := (hd.types_step h).2

end Step

/-- Whatever instructions have been processed, all ids are in scope. -/
theorem wellScoped {is : List Instruction} {d : Declarations} (h : ofInstructions is = .ok d) :
    WellScoped d :=
  declareAll_induction (P := fun _ => WellScoped) [] h wellScoped_empty
    fun _ _ _ _ _ _ hd hstep _ => hd.step hstep

section Consequences

variable {d : Declarations} (hd : WellScoped d)
include hd

/-- No type is known by the id 0, so that it is free to stand for "none". -/
theorem WellScoped.types_get?_zero : d.types.get? 0 = none := by
  cases h : d.types.get? 0 with
  | none => rfl
  | some t =>
    have hx := (hd.get? h).1.1
    omega

theorem WellScoped.inScope_of_hasType {x : Id} (h : d.HasType x) : d.InScope x := by
  obtain ⟨t, ht⟩ := Option.isSome_iff_exists.mp ((Table.get?_isSome_iff d.types x).mpr h)
  exact (hd.get? ht).1

theorem WellScoped.aliasOf_ne_zero {x : Id} {t : TypeDescriptor} (hx : d.types.get? x = some t) :
    t.aliasOf ≠ some 0 := by
  intro h
  have hzero := hd.inScope_of_hasType ((hd.get? hx).2.aliasOf 0 h)
  have := hzero.1
  omega

theorem WellScoped.baseTypeId {v : Variable} (hv : v ∈ d.globals) : d.InScope (d.baseTypeId v) := by
  unfold Declarations.baseTypeId
  cases h : d.pointees.get? v.typeId with
  | none => exact (hd.globals v hv).2
  | some c => exact (hd.pointees _ (Table.mem_entries_of_get? h)).2

theorem WellScoped.resources {c : Category} {r : Resource} (hr : r ∈ d.resources c) :
    d.InScope r.id ∧ d.InScope r.typeId ∧ d.InScope r.baseTypeId := by
  obtain ⟨v, hv, -, rfl⟩ := mem_resources.mp hr
  exact ⟨(hd.globals v hv).1, (hd.globals v hv).2, hd.baseTypeId hv⟩

end Consequences

/-- After each instruction of a listing, interning is a bijection between names and the ids from 1
on, and no table holds other ids. Hence 0 is no type and no alias, every root that the search for
aliases looks up has a descriptor, and resources are made of ids that have been given out. -/
theorem ids_inScope_afterEach {is : List Instruction} {k : Nat} {d : Declarations}
    (h : ofInstructions (is.take k) = .ok d) :
    Set.BijOn (fun name => (d.idOf? name).getD 0) {name | name ∈ d.ids}
      {x : Int | 1 ≤ x ∧ x ≤ d.ids.length} ∧
    d.WellScoped ∧ (∀ x, d.HasType x → d.InScope x) ∧
    d.types.get? 0 = none ∧ (∀ x t, d.types.get? x = some t → t.aliasOf ≠ some 0) ∧
    (∀ r ∈ d.roots, ∃ t, d.types.get? r = some t) ∧
    ∀ c, ∀ r ∈ d.resources c, d.InScope r.id ∧ d.InScope r.typeId ∧ d.InScope r.baseTypeId := by
  have hd := wellScoped h
  refine ⟨bijOn_idOf? hd.ids, hd, fun x => hd.inScope_of_hasType, hd.types_get?_zero,
    fun x t hx => hd.aliasOf_ne_zero hx, fun r hr => ?_, fun c r hr => hd.resources hr⟩
  exact Option.isSome_iff_exists.mp ((Table.get?_isSome_iff d.types r).mpr (hd.roots r hr))

/-- Ids that are named and decorated before they are declared, a type that is declared twice, an
array whose length is never declared, and an alias. -/
def tangledListing : List Instruction := [
  ⟨"OpName", [.id "point", .string "Point"], none, 1⟩,
  ⟨"OpName", [.id "copy", .string "Point"], none, 2⟩,
  ⟨"OpDecorate", [.id "buffer", .word "Binding", .int 2], none, 3⟩,
  ⟨"OpTypeFloat", [.int 32], some "float", 4⟩,
  ⟨"OpTypeStruct", [.id "float"], some "point", 5⟩,
  ⟨"OpTypeStruct", [.id "float"], some "copy", 6⟩,
  ⟨"OpTypeInt", [.int 32, .int 0], some "float", 7⟩,
  ⟨"OpTypeArray", [.id "copy", .id "two"], some "pair", 8⟩,
  ⟨"OpTypePointer", [.word "Uniform", .id "pair"], some "toPair", 9⟩,
  ⟨"OpVariable", [.id "toPair", .word "Uniform"], some "buffer", 10⟩]

theorem tangledListing_inScope : ∃ d, ofInstructions (tangledListing.take 8) = .ok d ∧
    d.ids = ["point", "copy", "buffer", "float", "pair", "two"] ∧
    (d.types.get? 5).bind (·.aliasOf) = some 1 ∧ d.roots = [1] ∧
    Set.BijOn (fun name => (d.idOf? name).getD 0) {name | name ∈ d.ids} {x : Int | 1 ≤ x ∧ x ≤ 6} ∧
    d.WellScoped ∧ d.types.get? 0 = none := by
  obtain ⟨d, hd, hids, halias, hroots⟩ := exists_ok_of_any
    (x := ofInstructions (tangledListing.take 8))
    (p := fun d => d.ids = ["point", "copy", "buffer", "float", "pair", "two"] ∧
      (d.types.get? 5).bind (·.aliasOf) = some 1 ∧ d.roots = [1]) (by decide +kernel)
  obtain ⟨hbij, hscoped, -, hzero, -⟩ := ids_inScope_afterEach hd
  rw [hids] at hbij
  refine ⟨d, hd, hids, halias, hroots, ?_, hscoped, hzero⟩
  rw [hids]
  exact hbij

end ShaderReflection.Module.Declarations
