import Mathlib.Data.List.Perm.Basic
import ShaderReflection.Proofs.Module.AlikeQueries
import ShaderReflection.Proofs.Module.SlotRank

/-! Slots and the order of declarations. The order of variables decides between resources of one
descriptor set and binding only; apart from that no slot depends on it. -/
namespace ShaderReflection.Module

open Assembly (Instruction)

def unnumbered (i : Instruction) : Instruction := { i with line := 0 }

/-- Two listings that differ in their lines and in the order of their variables only. -/
structure VariablesPermuted (is js : List Instruction) : Prop where
  rest : ((moduleScope false is).filter (!isVariable ·)).map unnumbered =
    ((moduleScope false js).filter (!isVariable ·)).map unnumbered
  reordered : ((variablesOf is).map unnumbered).Perm ((variablesOf js).map unnumbered)

theorem eq_of_unnumbered_eq {i j : Instruction} (h : unnumbered i = unnumbered j) :
    j = { i with line := j.line } := by
  obtain ⟨o, os, r, l⟩ := i
  obtain ⟨o', os', r', l'⟩ := j
  unfold unnumbered at h
  simp only [Instruction.mk.injEq] at h ⊢
  obtain ⟨rfl, rfl, rfl, -⟩ := h
  simp

namespace Declarations

private theorem aligned_of_no_rest {js : List Instruction}
    (h : (js.filter (!isVariable ·)).map unnumbered = [])
    (hj : ∀ j ∈ js, isVariable j = true → HasVariable j) : Aligned True [] js := by
  induction js with
  | nil => exact .nil
  | cons j js ih =>
    have hv : isVariable j = true := by
      by_contra hv
      rw [List.filter_cons_of_pos (by simpa using hv)] at h
      cases h
    rw [List.filter_cons_of_neg (by simpa using hv)] at h
    exact .right j (isVariable_iff.mp hv) (hj j List.mem_cons_self hv)
      (ih h fun k hk => hj k (List.mem_cons_of_mem _ hk))

/-- Listings that are the same apart from their variables are aligned. -/
theorem aligned_of_rest {is js : List Instruction}
    (h : (is.filter (!isVariable ·)).map unnumbered = (js.filter (!isVariable ·)).map unnumbered)
    (hj : ∀ j ∈ js, isVariable j = true → HasVariable j) : Aligned True is js := by
  induction is generalizing js with
  | nil => exact aligned_of_no_rest h.symm hj
  | cons i is ih =>
    by_cases hi : isVariable i = true
    · rw [List.filter_cons_of_neg (by simpa using hi)] at h
      exact .left i (.inl (isVariable_iff.mp hi)) (ih h hj)
    · rw [List.filter_cons_of_pos (by simpa using hi), List.map_cons] at h
      induction js with
      | nil => cases h
      | cons j js ihj =>
        have hjs : ∀ k ∈ js, isVariable k = true → HasVariable k :=
          fun k hk => hj k (List.mem_cons_of_mem _ hk)
        by_cases hv : isVariable j = true
        · rw [List.filter_cons_of_neg (by simpa using hv)] at h
          exact .right j (isVariable_iff.mp hv) (hj j List.mem_cons_self hv) (ihj h hjs)
        · rw [List.filter_cons_of_pos (by simpa using hv), List.map_cons] at h
          obtain ⟨hij, hrest⟩ := List.cons.inj h
          rw [eq_of_unnumbered_eq hij]
          exact .both i j.line (mt isVariable_iff.mpr hi) (fun _ => trivial) (ih hrest hjs)

private theorem variableOf_unnumbered {d : Declarations} {i : Instruction} {v : Variable} :
    VariableOf d (unnumbered i) v ↔ VariableOf d i v :=
  ⟨fun h => ⟨h.id, h.typeId, h.storage⟩, fun h => ⟨h.id, h.typeId, h.storage⟩⟩

theorem forall₂_unnumbered {is : List Instruction} {d : Declarations}
    (h : ofInstructions is = .ok d) :
    List.Forall₂ (VariableOf d) ((variablesOf is).map unnumbered) d.globals := by
  rw [List.forall₂_map_left_iff]
  exact (globals_ofInstructions h).imp fun _ _ hv => variableOf_unnumbered.mpr hv

theorem variableNames_perm {is js : List Instruction} (hp : VariablesPermuted is js) :
    (variableNames is).Perm (variableNames js) := by
  have hr := hp.reordered.filterMap (·.result)
  rw [List.filterMap_map, List.filterMap_map] at hr
  exact hr

section Permuted

variable {is js : List Instruction} {d e : Declarations} (hp : VariablesPermuted is js)
  (hd : ofInstructions is = .ok d)
include hp hd

/-- A listing with permuted variables makes a module that says the same about the same names. -/
theorem exists_alike : ∃ e, ofInstructions js = .ok e ∧ Alike True d e := by
  refine (aligned_of_rest hp.rest fun j hj hv => ?_).declareAll (alike_empty True) hd
  have hm : unnumbered j ∈ (variablesOf is).map unnumbered := by
    rw [hp.reordered.mem_iff]
    exact List.mem_map_of_mem (List.mem_filter.mpr ⟨hj, hv⟩)
  obtain ⟨i, hi, hij⟩ := List.mem_map.mp hm
  obtain ⟨v, -, hv⟩ := exists_variable_of_mem hd hi
  have hhas := hv.hasVariable
  rw [eq_of_unnumbered_eq hij]
  exact ⟨hhas.result, hhas.typeId, hhas.storage⟩

/-- The globals of the two modules are the same variables in another order. -/
theorem exists_globals_perm (he : ofInstructions js = .ok e) :
    ∃ gs, List.Forall₂ (SameVariable (SameId d.ids e.ids)) d.globals gs ∧ gs.Perm e.globals := by
  obtain ⟨gs, hg, hperm⟩ := List.perm_comp_forall₂ hp.reordered (forall₂_unnumbered he)
  refine ⟨gs, trans_of_related (S := VariableOf e) (fun v i w hv hw => ?_)
    (forall₂_unnumbered hd).flip hg, hperm⟩
  exact sameVariable_of_variableOf hv hw

end Permuted

private theorem idxOf_filterMap {f : String → Option Id}
    (hf : ∀ a b x, f a = some x → f b = some x → a = b)
    {ns : List String} (hs : ∀ n ∈ ns, (f n).isSome) {n : String} {x : Id} (hx : f n = some x) :
    (ns.filterMap f).idxOf x = ns.idxOf n := by
  induction ns with
  | nil => rfl
  | cons a ns ih =>
    obtain ⟨z, hz⟩ := Option.isSome_iff_exists.mp (hs a List.mem_cons_self)
    rw [List.filterMap_cons_some hz]
    by_cases ha : a = n
    · subst ha
      obtain rfl := Option.some.inj (hz.symm.trans hx)
      rw [List.idxOf_cons_self, List.idxOf_cons_self]
    · have hne : z ≠ x := by
        rintro rfl
        exact ha (hf _ _ _ hz hx)
      rw [List.idxOf_cons_ne _ hne, List.idxOf_cons_ne _ ha,
        ih fun m hm => hs m (List.mem_cons_of_mem _ hm)]

theorem idxOf_variableIds {is : List Instruction} {d : Declarations}
    (h : ofInstructions is = .ok d) {n : String} {x : Id} (hx : d.idOf? n = some x) :
    (d.variableIds is).idxOf x = (variableNames is).idxOf n := by
  refine idxOf_filterMap (fun _ _ _ ha hb => idOf?_injective ha hb) (fun m hm => ?_) hx
  obtain ⟨i, hi, hn⟩ := List.mem_filterMap.mp hm
  obtain ⟨v, -, hv⟩ := exists_variable_of_mem h hi
  obtain ⟨m', hm', hid⟩ := hv.id
  obtain rfl : m' = m := Option.some.inj (hm'.symm.trans hn)
  rw [hid]
  rfl

/-- Resources that take slots and share descriptor set and binding are declared in the same order
by two listings. -/
def KeepsTies (d : Declarations) (is js : List Instruction) : Prop :=
  ∀ a b x y, d.idOf? a = some x → d.idOf? b = some y → d.TakesSlots x → d.TakesSlots y →
    d.decoration x .descriptorSet = d.decoration y .descriptorSet →
    d.decoration x .binding = d.decoration y .binding →
    (variableNames is).idxOf a < (variableNames is).idxOf b →
    (variableNames js).idxOf a < (variableNames js).idxOf b

private theorem mem_variableNames {is : List Instruction} {d : Declarations}
    (h : ofInstructions is = .ok d)
    {a : String} {x : Id} (hx : d.idOf? a = some x) (ht : d.TakesSlots x) :
    a ∈ variableNames is := by
  obtain ⟨c, -, r, hr, rfl⟩ := ht
  obtain ⟨v, hv, -, rfl⟩ := mem_resources.mp hr
  have hm : v.id ∈ d.variableIds is := by
    rw [variableIds_eq h]
    exact List.mem_map_of_mem hv
  obtain ⟨n, hn, hid⟩ := List.mem_filterMap.mp hm
  rwa [idOf?_injective hx hid]

section Ranks

variable {is js : List Instruction} {d e : Declarations} (hp : VariablesPermuted is js)
  (hd : ofInstructions is = .ok d) (he : ofInstructions js = .ok e) (h : Alike True d e)
  (hn : (variableNames is).Nodup) (hk : d.KeepsTies is js)
include hd he h hk

/-- Resources of the same names have keys in the same order. -/
private theorem before_iff {r s q t : Resource} (hr : SameId d.ids e.ids r.id q.id)
    (hs : SameId d.ids e.ids s.id t.id) (htr : d.TakesSlots r.id) (hts : d.TakesSlots s.id) :
    (d.declaredKey is r).Before (d.declaredKey is s) ↔
      (e.declaredKey js q).Before (e.declaredKey js t) := by
  obtain ⟨a, har, haq⟩ := hr
  obtain ⟨b, hbs, hbt⟩ := hs
  have hset := decoration_eq h ⟨a, har, haq⟩ .descriptorSet
  have hset' := decoration_eq h ⟨b, hbs, hbt⟩ .descriptorSet
  have hbind := decoration_eq h ⟨a, har, haq⟩ .binding
  have hbind' := decoration_eq h ⟨b, hbs, hbt⟩ .binding
  have hlt := hk a b _ _ har hbs htr hts
  have hgt := hk b a _ _ hbs har hts htr
  unfold SlotKey.Before declaredKey
  rw [idxOf_variableIds hd har, idxOf_variableIds hd hbs, idxOf_variableIds he haq,
    idxOf_variableIds he hbt, ← hset, ← hset', ← hbind, ← hbind']
  dsimp only
  refine or_congr Iff.rfl (and_congr_right fun hse => or_congr Iff.rfl
    (and_congr_right fun hbe => ⟨hlt hse hbe, fun hq => ?_⟩))
  by_contra hp
  rcases Nat.lt_or_eq_of_le (Nat.le_of_not_lt hp) with hp | hp
  · have hq' := hgt hse.symm hbe.symm hp
    omega
  · rw [(List.idxOf_inj (mem_variableNames hd hbs hts)).mp hp] at hq
    omega

theorem declaredRank_eq {gs : List Variable}
    (hg : List.Forall₂ (SameVariable (SameId d.ids e.ids)) d.globals gs)
    (hperm : gs.Perm e.globals) {c c' : Category} (hc : c ∈ slotCategories)
    (hc' : c' ∈ slotCategories) {v w : Variable} (hv : v ∈ d.globals) (hcv : d.category? v = some c)
    (hvw : SameVariable (SameId d.ids e.ids) v w) :
    d.declaredRank is (d.resources c') (d.resource c v) =
      e.declaredRank js (e.resources c') (e.resource c w) := by
  have htakes {c : Category} {u : Variable} (hc : c ∈ slotCategories) (hu : u ∈ d.globals)
      (hcu : d.category? u = some c) : d.TakesSlots (d.resource c u).id :=
    ⟨c, hc, d.resource c u, mem_resources.mpr ⟨u, hu, hcu, rfl⟩, rfl⟩
  unfold declaredRank rank resources
  rw [List.countP_map, List.countP_map, List.countP_filter, List.countP_filter,
    ← hperm.countP_eq]
  refine countP_of_related hg fun u hu u' huu' => ?_
  rw [category?_eq h huu']
  by_cases hcu : e.category? u' = some c'
  · have hcu' : d.category? u = some c' := (category?_eq h huu').trans hcu
    rw [Function.comp_apply, Function.comp_apply, decide_eq_decide.mpr
      (before_iff hd he h hk (r := d.resource c' u) (s := d.resource c v) (q := e.resource c' u')
        (t := e.resource c w) huu'.id hvw.id (htakes hc' hu hcu') (htakes hc hv hcv))]
  · simp [hcu]

end Ranks

theorem takesSlots_iff {d : Declarations} (hn : (d.globals.map (·.id)).Nodup) {v : Variable}
    (hv : v ∈ d.globals) : d.TakesSlots v.id ↔ ∃ c ∈ slotCategories, d.category? v = some c := by
  constructor
  · rintro ⟨c, hc, r, hr, he⟩
    obtain ⟨u, hu, hcu, rfl⟩ := mem_resources.mp hr
    rw [← eq_of_id_eq hn hu hv he]
    exact ⟨c, hc, hcu⟩
  · rintro ⟨c, hc, hcv⟩
    exact ⟨c, hc, d.resource c v, mem_resources.mpr ⟨v, hv, hcv, rfl⟩, rfl⟩

/-- Permuting variables changes no slots, where those that share descriptor set and binding keep
their order. -/
theorem slots_eq_of_permuted {is js : List Instruction} {d e : Declarations}
    (hp : VariablesPermuted is js) (hd : ofInstructions is = .ok d)
    (he : ofInstructions js = .ok e) (h : Alike True d e) (hn : (variableNames is).Nodup)
    (hk : d.KeepsTies is js) {v : Variable} (hv : v ∈ d.globals) :
    ∃ n y, d.idOf? n = some v.id ∧ e.idOf? n = some y ∧ d.slots v.id = e.slots y := by
  obtain ⟨gs, hg, hperm⟩ := exists_globals_perm hp hd he
  obtain ⟨w, hw, hvw⟩ := exists_of_mem_related hg hv
  have hw := hperm.mem_iff.mp hw
  have hn' : (variableNames js).Nodup := (variableNames_perm hp).nodup_iff.mp hn
  obtain ⟨n, hx, hy⟩ := hvw.id
  refine ⟨n, w.id, hx, hy, ?_⟩
  by_cases ht : ∃ c ∈ slotCategories, d.category? v = some c
  · obtain ⟨c, hc, hcv⟩ := ht
    have hcw : e.category? w = some c := (category?_eq h hvw).symm.trans hcv
    have hr : d.resource c v ∈ d.resources c := mem_resources.mpr ⟨v, hv, hcv, rfl⟩
    have hq : e.resource c w ∈ e.resources c := mem_resources.mpr ⟨w, hw, hcw, rfl⟩
    have hrank {c' : Category} (hc' : c' ∈ slotCategories) :=
      declaredRank_eq hd he h hk hg hperm hc hc' hv hcv hvw
    have hslots := slots_resource hd hn hc hr
    have hslots' := slots_resource he hn' hc hq
    unfold declaredRank at hrank hslots hslots'
    rw [rank_append, rank_append, hrank (by decide), hrank (by decide), hrank (by decide),
      hrank (by decide), ← rank_append, ← rank_append] at hslots
    exact hslots.trans hslots'.symm
  · have hd' := mt (takesSlots_iff (nodup_globals hd hn) hv).mp ht
    rw [category?_eq h hvw] at ht
    have he' := mt (takesSlots_iff (nodup_globals he hn') hw).mp ht
    rw [(slotsAreRanks hd hn).other _ hd', (slotsAreRanks he hn').other _ he']

/-- The slots of a resource are its ranks by descriptor set, binding and place of declaration among
the resources that take slots of the same kinds. The slots of each kind in use are the first natural
numbers, and permuting variables changes no slots, where those that share descriptor set and binding
keep their order. -/
theorem slots_are_ranks {is : List Instruction} {d : Declarations}
    (h : ofInstructions is = .ok d) (hn : (variableNames is).Nodup) :
    d.SlotsAreRanks is ∧ d.SlotsAreDense ∧
      ∀ js, VariablesPermuted is js → d.KeepsTies is js → ∃ e, ofInstructions js = .ok e ∧
        ∀ n ∈ variableNames is, ∃ x y, d.idOf? n = some x ∧ e.idOf? n = some y ∧
          d.slots x = e.slots y := by
  refine ⟨slotsAreRanks h hn, slotsAreDense h hn, fun js hp hk => ?_⟩
  obtain ⟨e, he, halike⟩ := exists_alike hp h
  refine ⟨e, he, fun n hm => ?_⟩
  obtain ⟨i, hi, hin⟩ := List.mem_filterMap.mp hm
  obtain ⟨v, hv, hiv⟩ := exists_variable_of_mem h hi
  obtain ⟨m, y, hx, hy, hs⟩ := slots_eq_of_permuted hp h he halike hn hk hv
  obtain ⟨n', hn', hid⟩ := hiv.id
  obtain rfl : n' = n := Option.some.inj (hn'.symm.trans hin)
  rw [idOf?_injective hx hid] at hy
  exact ⟨v.id, y, hid, hy, hs⟩

/-- Where no two resources share descriptor set and binding, every order keeps ties. -/
theorem keepsTies_of_nodup {d : Declarations} (is js : List Instruction)
    (hn : (d.claimants.map fun c =>
      (d.decoration c.id .descriptorSet, d.decoration c.id .binding)).Nodup) :
    d.KeepsTies is js := by
  have hclaim {x : Id} (hx : d.TakesSlots x) : ∃ c ∈ d.claimants, c.id = x := by
    obtain ⟨c, hc, r, hr, rfl⟩ := hx
    exact ⟨⟨c, r.id⟩, List.mem_flatMap.mpr ⟨c, hc, List.mem_map_of_mem hr⟩, rfl⟩
  intro a b x y ha hb hx hy hs hbind hlt
  obtain ⟨c, hc, rfl⟩ := hclaim hx
  obtain ⟨c', hc', rfl⟩ := hclaim hy
  rw [List.inj_on_of_nodup_map hn hc hc' (Prod.ext hs hbind)] at ha
  rw [idOf?_injective ha hb] at hlt
  omega

def resourceListing (vs : List Instruction) : List Instruction := [
  ⟨"OpDecorate", [.id "block", .word "Block"], none, 1⟩,
  ⟨"OpDecorate", [.id "late", .word "Binding", .int 7], none, 2⟩,
  ⟨"OpDecorate", [.id "photo", .word "DescriptorSet", .int (-1)], none, 3⟩,
  ⟨"OpDecorate", [.id "sampler", .word "Binding", .int 2], none, 4⟩,
  ⟨"OpTypeFloat", [.int 32], some "float", 5⟩,
  ⟨"OpTypeStruct", [.id "float"], some "block", 6⟩,
  ⟨"OpTypeImage", [.id "float", .word "2D"], some "image", 7⟩,
  ⟨"OpTypeSampledImage", [.id "image"], some "sampled", 8⟩,
  ⟨"OpTypeSampler", [], some "sampling", 9⟩,
  ⟨"OpTypePointer", [.word "Uniform", .id "block"], some "toBlock", 10⟩,
  ⟨"OpTypePointer", [.word "UniformConstant", .id "sampled"], some "toSampled", 11⟩,
  ⟨"OpTypePointer", [.word "UniformConstant", .id "image"], some "toImage", 12⟩,
  ⟨"OpTypePointer", [.word "UniformConstant", .id "sampling"], some "toSampling", 13⟩] ++ vs

/-- Variables of all kinds, of which no two share descriptor set and binding. -/
def someVariables : List Instruction := [
  ⟨"OpVariable", [.id "toBlock", .word "Uniform"], some "late", 14⟩,
  ⟨"OpVariable", [.id "toImage", .word "UniformConstant"], some "image0", 15⟩,
  ⟨"OpVariable", [.id "toSampling", .word "UniformConstant"], some "sampler", 16⟩,
  ⟨"OpVariable", [.id "toSampled", .word "UniformConstant"], some "photo", 17⟩]

theorem someVariables_slots :
    (variableNames (resourceListing someVariables)).Nodup ∧
    VariablesPermuted (resourceListing someVariables) (resourceListing someVariables.reverse) ∧
    ∃ d, ofInstructions (resourceListing someVariables) = .ok d ∧
      d.KeepsTies (resourceListing someVariables) (resourceListing someVariables.reverse) ∧
      d.claimants.length = 4 ∧ d.SlotsAreRanks (resourceListing someVariables) ∧
      d.SlotsAreDense ∧
      ∃ e, ofInstructions (resourceListing someVariables.reverse) = .ok e ∧
        ∀ n ∈ variableNames (resourceListing someVariables), ∃ x y,
          d.idOf? n = some x ∧ e.idOf? n = some y ∧ d.slots x = e.slots y := by
  have hn : (variableNames (resourceListing someVariables)).Nodup := by decide +kernel
  have hp : VariablesPermuted (resourceListing someVariables)
      (resourceListing someVariables.reverse) := ⟨by decide +kernel, by decide +kernel⟩
  obtain ⟨d, hd, hlen, hk⟩ := exists_ok_of_any
    (x := ofInstructions (resourceListing someVariables))
    (p := fun d => d.claimants.length = 4 ∧ (d.claimants.map fun c =>
      (d.decoration c.id .descriptorSet, d.decoration c.id .binding)).Nodup)
    (by decide +kernel)
  have hties := keepsTies_of_nodup (resourceListing someVariables)
    (resourceListing someVariables.reverse) hk
  obtain ⟨hr, hdense, hperm⟩ := slots_are_ranks hd hn
  exact ⟨hn, hp, d, hd, hties, hlen, hr, hdense, hperm _ hp hties⟩

def tiedVariables : List Instruction := [
  ⟨"OpVariable", [.id "toBlock", .word "Uniform"], some "first", 14⟩,
  ⟨"OpVariable", [.id "toBlock", .word "Uniform"], some "second", 15⟩]

theorem slots_of_mem_ranks {is : List Instruction} {d : Declarations}
    (h : ofInstructions is = .ok d) (hn : (variableNames is).Nodup) {x : Id} {n : Nat}
    (hx : (x, n) ∈ (d.resources .uniformBuffers).map fun r =>
      (r.id, d.declaredRank is (d.resources .uniformBuffers) r)) : d.slots x = { first := n } := by
  obtain ⟨r, hr, he⟩ := List.mem_map.mp hx
  obtain ⟨rfl, rfl⟩ := Prod.mk.inj he
  exact (slotsAreRanks h hn).uniformBuffer r hr

/-- Resources that share descriptor set and binding take their slots in the order of declaration, so
that permuting their variables changes them. -/
theorem tied_slots_follow_declarations :
    (variableNames (resourceListing tiedVariables)).Nodup ∧
    VariablesPermuted (resourceListing tiedVariables) (resourceListing tiedVariables.reverse) ∧
    ∃ d e x y, ofInstructions (resourceListing tiedVariables) = .ok d ∧
      ofInstructions (resourceListing tiedVariables.reverse) = .ok e ∧
      d.idOf? "first" = some x ∧ e.idOf? "first" = some y ∧
      d.slots x = { first := 0 } ∧ e.slots y = { first := 1 } := by
  have hn : (variableNames (resourceListing tiedVariables)).Nodup := by decide +kernel
  have hp : VariablesPermuted (resourceListing tiedVariables)
      (resourceListing tiedVariables.reverse) := ⟨by decide +kernel, by decide +kernel⟩
  obtain ⟨d, hd, hx, hr⟩ := exists_ok_of_any (x := ofInstructions (resourceListing tiedVariables))
    (p := fun d => d.idOf? "first" = some 13 ∧ (13, 0) ∈ (d.resources .uniformBuffers).map fun r =>
      (r.id, d.declaredRank (resourceListing tiedVariables) (d.resources .uniformBuffers) r))
    (by decide +kernel)
  obtain ⟨e, he, hy, hs⟩ := exists_ok_of_any
    (x := ofInstructions (resourceListing tiedVariables.reverse))
    (p := fun e => e.idOf? "first" = some 14 ∧ (14, 1) ∈ (e.resources .uniformBuffers).map fun r =>
      (r.id, e.declaredRank (resourceListing tiedVariables.reverse)
        (e.resources .uniformBuffers) r))
    (by decide +kernel)
  have hn' := (variableNames_perm hp).nodup_iff.mp hn
  exact ⟨hn, hp, d, e, 13, 14, hd, he, hx, hy, slots_of_mem_ranks hd hn hr,
    slots_of_mem_ranks he hn' hs⟩

end Declarations
end ShaderReflection.Module
