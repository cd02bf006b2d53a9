import ShaderReflection.Proofs.Module.Variables

/-! Slots as ranks. The slots of a resource are its ranks among the resources that take slots of the
same kinds, by descriptor set, binding and place of declaration. -/
namespace ShaderReflection.Module

open Assembly (Instruction)

private theorem lastIndex_eq_length {p : α → Bool} {before after : List α} {x : α} (hx : p x = true)
    (ha : ∀ y ∈ after, p y = false) : lastIndex p (before ++ x :: after) = before.length := by
  have hr : ¬ after.reverse.findIdx p < after.reverse.length := by
    rw [List.findIdx_lt_length]
    rintro ⟨y, hy, hp⟩
    rw [ha y (List.mem_reverse.mp hy)] at hp
    cases hp
  unfold lastIndex
  rw [List.reverse_append, List.reverse_cons, List.append_assoc, List.singleton_append,
    List.findIdx_append, if_neg hr, List.findIdx_cons, hx]
  simp only [List.length_append, List.length_cons, List.length_reverse, cond_true]
  omega

namespace Declarations

section Distinct

variable {d : Declarations} (hn : (d.globals.map (·.id)).Nodup)
include hn

/-- The position of a variable in its key is its place among the variables. -/
theorem position_slotKey {v : Variable} (hv : v ∈ d.globals) :
    (d.slotKey v.id).position = (d.globals.map (·.id)).idxOf v.id := by
  obtain ⟨before, after, hd⟩ := List.append_of_mem hv
  unfold slotKey
  rw [hd] at hn ⊢
  rw [List.map_append, List.map_cons] at hn ⊢
  have hb : v.id ∉ before.map (·.id) := fun hm =>
    List.disjoint_of_nodup_append hn hm List.mem_cons_self
  have ha := (List.nodup_cons.mp hn.of_append_right).1
  rw [List.idxOf_append_of_notMem hb, List.idxOf_cons_self, List.length_map]
  refine lastIndex_eq_length (by simp) fun w hw => ?_
  refine decide_eq_false fun he => ha ?_
  rw [← he]
  exact List.mem_map_of_mem hw

private theorem slotKey_inj {v w : Variable} (hv : v ∈ d.globals) (hw : w ∈ d.globals)
    (h : d.slotKey v.id = d.slotKey w.id) : v.id = w.id := by
  have hp : (d.slotKey v.id).position = (d.slotKey w.id).position := by rw [h]
  rw [position_slotKey hn hv, position_slotKey hn hw] at hp
  exact (List.idxOf_inj (List.mem_map_of_mem hv)).mp hp

theorem nodup_claimKeys : (d.claimants.map d.claimKey).Nodup := by
  have hmem : ∀ x ∈ d.claimants.map (·.id), ∃ v ∈ d.globals, v.id = x := by
    intro x hx
    simp only [claimants, List.mem_map, List.mem_flatMap, mem_resources] at hx
    obtain ⟨_, ⟨c, -, _, ⟨v, hv, -, rfl⟩, rfl⟩, rfl⟩ := hx
    exact ⟨v, hv, rfl⟩
  have hm : ((d.claimants.map (·.id)).map d.slotKey).Nodup := by
    refine List.Nodup.map_on (fun x hx y hy hxy => ?_) (nodup_claimants hn)
    obtain ⟨v, hv, rfl⟩ := hmem x hx
    obtain ⟨w, hw, rfl⟩ := hmem y hy
    exact slotKey_inj hn hv hw hxy
  rwa [List.map_map] at hm

/-- A resource that takes slots gets its ranks. -/
theorem slots_claimant {c : Claimant} (hc : c ∈ d.claimants) :
    d.slots c.id = (SlotCounts.ranks d.claimKey d.claimants c).next c.category := by
  have hp := List.mergeSort_perm d.claimants fun a b => (d.claimKey a).le (d.claimKey b)
  have hs := mem_allocate_of_sorted (pairwise_before_mergeSort (nodup_claimKeys hn))
    (hp.mem_iff.mpr hc)
  rw [SlotCounts.ranks_perm hp] at hs
  refine slotsIn_of_mem ?_ hs
  rw [slotTable, map_fst_allocate]
  exact (hp.map _).nodup_iff.mpr (nodup_claimants hn)

end Distinct

/-- An id that stands for no resource that takes slots has none. -/
theorem slots_of_not_claimant {d : Declarations} {x : Id} (hx : x ∉ d.claimants.map (·.id)) :
    d.slots x = {} := by
  refine slotsIn_of_not_mem ?_
  rw [slotTable, map_fst_allocate]
  have hp := List.mergeSort_perm d.claimants fun a b => (d.slotKey a.id).le (d.slotKey b.id)
  exact fun hm => hx ((hp.map _).mem_iff.mp hm)

def claimsOf (d : Declarations) (c : Category) : List Claimant :=
  (d.resources c).map fun r => ⟨c, r.id⟩

theorem usersAmong_claimants (d : Declarations) :
    usersAmong d.claimants bufferUsers = d.claimsOf .uniformBuffers ∧
      usersAmong d.claimants textureUsers =
        d.claimsOf .sampledImages ++ d.claimsOf .separateImages ∧
      usersAmong d.claimants samplerUsers =
        d.claimsOf .sampledImages ++ d.claimsOf .separateSamplers := by
  simp [usersAmong, claimants, claimsOf, bufferUsers, textureUsers, samplerUsers,
    List.filter_append, List.filter_map, Function.comp_def]

/-- The key of a resource: its descriptor set, its binding, and the place of its declaration among
the variables of a listing. -/
def declaredKey (d : Declarations) (is : List Instruction) (r : Resource) : SlotKey where
  descriptorSet := d.decoration r.id .descriptorSet
  binding := d.decoration r.id .binding
  position := (d.variableIds is).idxOf r.id

/-- The number of resources of a list with smaller keys. -/
def declaredRank (d : Declarations) (is : List Instruction) : List Resource → Resource → Nat :=
  rank (d.declaredKey is)

section Ranks

variable {d : Declarations} {is : List Instruction} (h : ofInstructions is = .ok d)
  (hn : (variableNames is).Nodup)
include h hn

theorem slotKey_eq_declaredKey {c : Category} {r : Resource} (hr : r ∈ d.resources c) :
    d.slotKey r.id = d.declaredKey is r := by
  obtain ⟨v, hv, -, rfl⟩ := mem_resources.mp hr
  have hp : (d.slotKey v.id).position = (d.variableIds is).idxOf (d.resource c v).id := by
    rw [variableIds_eq h]
    exact position_slotKey (nodup_globals h hn) hv
  unfold declaredKey
  rw [← hp]
  rfl

/-- Ranks among claims are ranks among resources. -/
theorem rank_claimsOf {c c' : Category} {r : Resource} (hr : r ∈ d.resources c) :
    rank d.claimKey (d.claimsOf c') ⟨c, r.id⟩ = d.declaredRank is (d.resources c') r := by
  unfold claimsOf declaredRank rank
  rw [List.countP_map]
  refine List.countP_congr fun r' hr' => ?_
  rw [Function.comp_apply, claimKey, claimKey, slotKey_eq_declaredKey h hn hr,
    slotKey_eq_declaredKey h hn hr']

/-- The slots of a resource, by its category. -/
theorem slots_resource {c : Category} (hc : c ∈ slotCategories) {r : Resource}
    (hr : r ∈ d.resources c) :
    d.slots r.id = SlotCounts.next
      { buffers := d.declaredRank is (d.resources .uniformBuffers) r
        textures := d.declaredRank is (d.resources .sampledImages ++ d.resources .separateImages) r
        samplers :=
          d.declaredRank is (d.resources .sampledImages ++ d.resources .separateSamplers) r } c := by
  have hm : ⟨c, r.id⟩ ∈ d.claimants :=
    List.mem_flatMap.mpr ⟨c, hc, List.mem_map_of_mem hr⟩
  obtain ⟨hb, ht, hs⟩ := usersAmong_claimants d
  rw [slots_claimant (nodup_globals h hn) hm]
  unfold SlotCounts.ranks
  rw [hb, ht, hs, rank_append, rank_append, rank_claimsOf h hn hr, rank_claimsOf h hn hr,
    rank_claimsOf h hn hr, rank_claimsOf h hn hr]
  unfold declaredRank
  rw [rank_append, rank_append]

theorem map_claimKey_claimsOf (c : Category) :
    (d.claimsOf c).map d.claimKey = (d.resources c).map (d.declaredKey is) := by
  unfold claimsOf
  rw [List.map_map]
  exact List.map_congr_left fun r hr => slotKey_eq_declaredKey h hn hr

/-- Resources that take slots of one kind have different keys. -/
theorem nodup_declaredKeys {users : List Category} {rs : List Resource}
    (hu : (usersAmong d.claimants users).map d.claimKey = rs.map (d.declaredKey is)) :
    (rs.map (d.declaredKey is)).Nodup := by
  rw [← hu]
  exact (nodup_claimKeys (nodup_globals h hn)).sublist (List.filter_sublist.map _)

end Ranks

def TakesSlots (d : Declarations) (x : Id) : Prop :=
  ∃ c ∈ slotCategories, ∃ r ∈ d.resources c, r.id = x

def naturals (n : Nat) : List Int := (List.range n).map Int.ofNat

/-- Every resource that takes slots has its ranks, and no other id has slots. -/
structure SlotsAreRanks (d : Declarations) (is : List Instruction) : Prop where
  uniformBuffer : ∀ r ∈ d.resources .uniformBuffers,
    d.slots r.id = { first := d.declaredRank is (d.resources .uniformBuffers) r }
  sampledImage : ∀ r ∈ d.resources .sampledImages, d.slots r.id = {
    first := d.declaredRank is (d.resources .sampledImages ++ d.resources .separateImages) r
    second := d.declaredRank is (d.resources .sampledImages ++ d.resources .separateSamplers) r }
  separateImage : ∀ r ∈ d.resources .separateImages, d.slots r.id = {
    first := d.declaredRank is (d.resources .sampledImages ++ d.resources .separateImages) r }
  separateSampler : ∀ r ∈ d.resources .separateSamplers, d.slots r.id = {
    first := d.declaredRank is (d.resources .sampledImages ++ d.resources .separateSamplers) r }
  other : ∀ x, ¬ d.TakesSlots x → d.slots x = {}

/-- The buffer, texture and sampler slots in use are the first natural numbers, each once. -/
structure SlotsAreDense (d : Declarations) : Prop where
  buffers : ((d.resources .uniformBuffers).map fun r => (d.slots r.id).first).Perm
    (naturals (d.resources .uniformBuffers).length)
  textures : ((d.resources .sampledImages ++ d.resources .separateImages).map
      fun r => (d.slots r.id).first).Perm
    (naturals (d.resources .sampledImages ++ d.resources .separateImages).length)
  samplers : ((d.resources .sampledImages).map (fun r => (d.slots r.id).second) ++
      (d.resources .separateSamplers).map fun r => (d.slots r.id).first).Perm
    (naturals (d.resources .sampledImages ++ d.resources .separateSamplers).length)

section Assignment

variable {d : Declarations} {is : List Instruction} (h : ofInstructions is = .ok d)
  (hn : (variableNames is).Nodup)
include h hn

theorem slotsAreRanks : d.SlotsAreRanks is where
  uniformBuffer := fun r hr => slots_resource h hn (by decide) hr
  sampledImage := fun r hr => slots_resource h hn (by decide) hr
  separateImage := fun r hr => slots_resource h hn (by decide) hr
  separateSampler := fun r hr => slots_resource h hn (by decide) hr
  other := fun x hx => by
    refine slots_of_not_claimant fun hm => ?_
    simp only [claimants, List.mem_map, List.mem_flatMap] at hm
    obtain ⟨_, ⟨c, hc, r, hr, rfl⟩, rfl⟩ := hm
    exact hx ⟨c, hc, r, hr, rfl⟩

/-- Where the keys of a list are different, its ranks are the first natural numbers. -/
theorem map_declaredRank_perm (users : List Category) (rs : List Resource)
    (hu : (usersAmong d.claimants users).map d.claimKey = rs.map (d.declaredKey is)) :
    (rs.map fun r => (d.declaredRank is rs r : Int)).Perm (naturals rs.length) := by
  have hp := (map_rank_perm_range (nodup_declaredKeys h hn hu)).map Int.ofNat
  rwa [List.map_map] at hp

theorem slotsAreDense : d.SlotsAreDense := by
  obtain ⟨hb, ht, hs⟩ := usersAmong_claimants d
  have hranks := slotsAreRanks h hn
  have hkeys := map_claimKey_claimsOf h hn
  refine ⟨?_, ?_, ?_⟩
  · have hp := map_declaredRank_perm h hn bufferUsers _ (hb ▸ hkeys .uniformBuffers)
    refine List.Perm.trans (List.Perm.of_eq (List.map_congr_left fun r hr => ?_)) hp
    rw [hranks.uniformBuffer r hr]
  · have hp := map_declaredRank_perm h hn textureUsers
      (d.resources .sampledImages ++ d.resources .separateImages)
      (by rw [ht, List.map_append, List.map_append, hkeys, hkeys])
    refine List.Perm.trans (List.Perm.of_eq (List.map_congr_left fun r hr => ?_)) hp
    rcases List.mem_append.mp hr with hr | hr
    · rw [hranks.sampledImage r hr]
    · rw [hranks.separateImage r hr]
  · have hp := map_declaredRank_perm h hn samplerUsers
      (d.resources .sampledImages ++ d.resources .separateSamplers)
      (by rw [hs, List.map_append, List.map_append, hkeys, hkeys])
    rw [List.map_append] at hp
    refine List.Perm.trans (List.Perm.of_eq (congrArg₂ _ ?_ ?_)) hp
    · exact List.map_congr_left fun r hr => by rw [hranks.sampledImage r hr]
    · exact List.map_congr_left fun r hr => by rw [hranks.separateSampler r hr]

end Assignment

end Declarations
end ShaderReflection.Module
