import ShaderReflection.Proofs.Module.SlotOrder

/-! Allocation of slots. One pass over the sorted resources advances three counters; each resource
gets its ranks among those that take slots of the same kinds. -/
namespace ShaderReflection.Module

def slotCategories : List Category :=
  [.uniformBuffers, .sampledImages, .separateImages, .separateSamplers]

def bufferUsers : List Category := [.uniformBuffers]

def textureUsers : List Category := [.sampledImages, .separateImages]

def samplerUsers : List Category := [.sampledImages, .separateSamplers]

def usersAmong (cs : List Claimant) (users : List Category) : List Claimant :=
  cs.filter (·.category ∈ users)

def SlotCounts.addAll (n : SlotCounts) (cs : List Claimant) : SlotCounts :=
  cs.foldl (fun n c => n.add c.category) n

/-- Each counter counts the resources that take slots of its kind. -/
theorem SlotCounts.addAll_eq (n : SlotCounts) (cs : List Claimant) : n.addAll cs =
    { buffers := n.buffers + cs.countP (·.category ∈ bufferUsers)
      textures := n.textures + cs.countP (·.category ∈ textureUsers)
      samplers := n.samplers + cs.countP (·.category ∈ samplerUsers) } := by
  induction cs generalizing n with
  | nil => rfl
  | cons c cs ih =>
    unfold addAll at ih ⊢
    rw [List.foldl_cons, ih]
    obtain ⟨category, id⟩ := c
    cases category <;>
      simp [add, bufferUsers, textureUsers, samplerUsers] <;> omega

private theorem allocate_append (n : SlotCounts) (cs ds : List Claimant) :
    allocate n (cs ++ ds) = allocate n cs ++ allocate (n.addAll cs) ds := by
  induction cs generalizing n with
  | nil => rfl
  | cons c cs ih =>
    rw [List.cons_append, allocate, allocate, ih, List.cons_append]
    rfl

@[simp] theorem map_fst_allocate (n : SlotCounts) (cs : List Claimant) :
    (allocate n cs).map (·.1) = cs.map (·.id) := by
  induction cs generalizing n with
  | nil => rfl
  | cons c cs ih => simp [allocate, ih]

/-- The ranks of a resource among the users of each kind of slot. -/
def SlotCounts.ranks (key : Claimant → SlotKey) (cs : List Claimant) (c : Claimant) :
    SlotCounts where
  buffers := rank key (usersAmong cs bufferUsers) c
  textures := rank key (usersAmong cs textureUsers) c
  samplers := rank key (usersAmong cs samplerUsers) c

/-- A sorted pass gives every resource its ranks. -/
theorem mem_allocate_of_sorted {key : Claimant → SlotKey} {cs : List Claimant}
    (h : cs.Pairwise fun a b => (key a).Before (key b)) {c : Claimant} (hc : c ∈ cs) :
    (c.id, (SlotCounts.ranks key cs c).next c.category) ∈ allocate {} cs := by
  obtain ⟨before, after, rfl⟩ := List.append_of_mem hc
  have hr : SlotCounts.ranks key (before ++ c :: after) c = SlotCounts.addAll {} before := by
    unfold SlotCounts.ranks usersAmong
    rw [rank_filter_of_sorted h, rank_filter_of_sorted h, rank_filter_of_sorted h,
      SlotCounts.addAll_eq]
    simp
  rw [hr, allocate_append]
  exact List.mem_append_right _ List.mem_cons_self

theorem SlotCounts.ranks_perm {key : Claimant → SlotKey} {cs ds : List Claimant}
    (h : cs.Perm ds) : SlotCounts.ranks key cs = SlotCounts.ranks key ds := by
  funext c
  unfold SlotCounts.ranks usersAmong
  rw [rank_perm (h.filter _), rank_perm (h.filter _), rank_perm (h.filter _)]

private theorem lookup_eq_some_of_mem [BEq κ] [LawfulBEq κ] {es : List (κ × α)}
    (hn : (es.map (·.1)).Nodup) {k : κ} {a : α} (h : (k, a) ∈ es) : es.lookup k = some a := by
  obtain ⟨before, after, rfl⟩ := List.append_of_mem h
  refine List.lookup_eq_some_iff.mpr ⟨before, after, rfl, fun p hp => ?_⟩
  rw [List.map_append, List.map_cons] at hn
  have hne : p.1 ≠ k := by
    rintro rfl
    exact List.disjoint_of_nodup_append hn (List.mem_map_of_mem hp) List.mem_cons_self
  simpa using hne.symm

namespace Declarations

/-- Where no id is assigned to twice, each has the slots that it was assigned. -/
theorem slotsIn_of_mem {table : List (Id × Slots)} (hn : (table.map (·.1)).Nodup) {x : Id}
    {s : Slots} (h : (x, s) ∈ table) : slotsIn table x = s := by
  have hr : (table.reverse.map (·.1)).Nodup := by
    rw [List.map_reverse]
    exact List.nodup_reverse.mpr hn
  unfold slotsIn
  rw [lookup_eq_some_of_mem hr (List.mem_reverse.mpr h)]
  rfl

theorem slotsIn_of_not_mem {table : List (Id × Slots)} {x : Id}
    (h : x ∉ table.map (·.1)) : slotsIn table x = {} := by
  have hn : table.reverse.lookup x = none := by
    rw [List.lookup_eq_none_iff]
    intro p hp
    have hne : p.1 ≠ x := by
      rintro rfl
      exact h (List.mem_map_of_mem (List.mem_reverse.mp hp))
    simpa using hne.symm
  unfold slotsIn
  rw [hn]
  rfl

def claimKey (d : Declarations) (c : Claimant) : SlotKey := d.slotKey c.id

section Distinct

variable {d : Declarations} (hn : (d.globals.map (·.id)).Nodup)
include hn

theorem eq_of_id_eq {v w : Variable} (hv : v ∈ d.globals) (hw : w ∈ d.globals) (h : v.id = w.id) :
    v = w := List.inj_on_of_nodup_map hn hv hw h

/-- Where every variable has its own id, no resource takes slots twice. -/
theorem nodup_claimants : (d.claimants.map (·.id)).Nodup := by
  unfold claimants
  rw [List.map_flatMap]
  refine List.nodup_flatMap.mpr ⟨fun c _ => ?_, ?_⟩
  · have hs : ((d.globals.filter (d.category? · = some c)).map (·.id)).Nodup :=
      hn.sublist (List.filter_sublist.map _)
    simpa [resources, resource, Function.comp_def] using hs
  · refine List.Pairwise.imp (R := (· ≠ ·)) (fun {c c'} hne => ?_) (by decide)
    intro x hx hx'
    simp only [resources, resource, List.map_map, List.mem_map, List.mem_filter, Function.comp_def,
      decide_eq_true_eq] at hx hx'
    obtain ⟨v, ⟨hv, hc⟩, rfl⟩ := hx
    obtain ⟨w, ⟨hw, hc'⟩, he⟩ := hx'
    rw [eq_of_id_eq hn hw hv he, hc] at hc'
    exact hne (Option.some.inj hc')

end Distinct

end Declarations
end ShaderReflection.Module
