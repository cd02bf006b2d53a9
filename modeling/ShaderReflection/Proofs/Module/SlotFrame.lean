import ShaderReflection.Proofs.Module.SlotRank
import ShaderReflection.Proofs.RelatedLists

/-! Variables that take no slots. Leaving one out of a module changes the slots of no other. -/
namespace ShaderReflection.Module

/-- Leaving elements out of a list keeps the order of those that stay. -/
private theorem idxOf_filter_le_iff [DecidableEq α] {p : α → Bool} {xs : List α} {a b : α}
    (ha : p a = true) (hb : p b = true) :
    (xs.filter p).idxOf a ≤ (xs.filter p).idxOf b ↔ xs.idxOf a ≤ xs.idxOf b := by
  induction xs with
  | nil => simp
  | cons x xs ih =>
    by_cases hxa : x = a
    · subst hxa
      rw [List.filter_cons_of_pos ha]
      simp
    · by_cases hxb : x = b
      · subst hxb
        rw [List.filter_cons_of_pos hb, List.idxOf_cons_ne _ hxa, List.idxOf_cons_ne _ hxa]
        simp
      · rw [List.idxOf_cons_ne _ hxa, List.idxOf_cons_ne _ hxb]
        cases hx : p x with
        | true =>
          rw [List.filter_cons_of_pos hx, List.idxOf_cons_ne _ hxa, List.idxOf_cons_ne _ hxb]
          simp only [Nat.succ_le_succ_iff, ih]
        | false =>
          rw [List.filter_cons_of_neg (by simp [hx])]
          simp only [Nat.succ_le_succ_iff, ih]

namespace Declarations

def without (d : Declarations) (x : Id) : Declarations :=
  { d with globals := d.globals.filter (·.id ≠ x) }

section Frame

variable {d : Declarations} {x : Id}

theorem resources_without {c : Category} (hx : ∀ r ∈ d.resources c, r.id ≠ x) :
    (d.without x).resources c = d.resources c := by
  -- Neither the category of a variable nor its entry depends on the other variables.
  have hcategory : (d.without x).category? = d.category? := rfl
  have hresource : (d.without x).resource = d.resource := rfl
  unfold resources
  rw [hcategory, hresource]
  show (List.filter _ (List.filter _ _)).map _ = _
  rw [List.filter_filter]
  refine congrArg _ (List.filter_congr fun v hv => ?_)
  by_cases hc : d.category? v = some c
  · have hvx : v.id ≠ x := hx (d.resource c v) (mem_resources.mpr ⟨v, hv, hc, rfl⟩)
    simp [hc, hvx]
  · simp [hc]

section Unlisted

variable (hx : x ∉ d.claimants.map (·.id))
include hx

theorem claimants_without : (d.without x).claimants = d.claimants := by
  refine List.flatMap_congr fun c hc => ?_
  rw [resources_without]
  rintro r hr rfl
  exact hx (List.mem_map.mpr ⟨⟨c, r.id⟩,
    List.mem_flatMap.mpr ⟨c, hc, List.mem_map_of_mem hr⟩, rfl⟩)

variable (hn : (d.globals.map (·.id)).Nodup)
include hn

theorem slotKey_le_without {b c : Claimant} (hb : b ∈ d.claimants) (hc : c ∈ d.claimants) :
    ((d.without x).slotKey b.id).le ((d.without x).slotKey c.id) =
      (d.slotKey b.id).le (d.slotKey c.id) := by
  have hids : ((d.without x).globals.map (·.id)) = (d.globals.map (·.id)).filter (· ≠ x) := by
    rw [List.filter_map]
    rfl
  have hn' : ((d.without x).globals.map (·.id)).Nodup := hids ▸ hn.filter _
  have hposition {c : Claimant} (hc : c ∈ d.claimants) : c.id ≠ x ∧
      (d.slotKey c.id).position = (d.globals.map (·.id)).idxOf c.id ∧
      ((d.without x).slotKey c.id).position =
        ((d.globals.map (·.id)).filter (· ≠ x)).idxOf c.id := by
    have hcx : c.id ≠ x := fun h => hx (h ▸ List.mem_map_of_mem hc)
    obtain ⟨category, -, hclaim⟩ := List.mem_flatMap.mp hc
    obtain ⟨r, hr, rfl⟩ := List.mem_map.mp hclaim
    obtain ⟨v, hv, -, rfl⟩ := mem_resources.mp hr
    have hv' : v ∈ (d.without x).globals := List.mem_filter.mpr ⟨hv, decide_eq_true hcx⟩
    refine ⟨hcx, position_slotKey hn hv, ?_⟩
    rw [← hids]
    exact position_slotKey hn' hv'
  obtain ⟨hbx, hb, hb'⟩ := hposition hb
  obtain ⟨hcx, hc, hc'⟩ := hposition hc
  have hle : ((d.globals.map (·.id)).filter (· ≠ x)).idxOf b.id ≤
      ((d.globals.map (·.id)).filter (· ≠ x)).idxOf c.id ↔
        (d.globals.map (·.id)).idxOf b.id ≤ (d.globals.map (·.id)).idxOf c.id :=
    idxOf_filter_le_iff (decide_eq_true hbx) (decide_eq_true hcx)
  rw [← hb', ← hc', ← hb, ← hc] at hle
  have hset (y : Id) : ((d.without x).slotKey y).descriptorSet = (d.slotKey y).descriptorSet := rfl
  have hbinding (y : Id) : ((d.without x).slotKey y).binding = (d.slotKey y).binding := rfl
  unfold SlotKey.le
  rw [hset, hset, hbinding, hbinding, decide_eq_decide.mpr hle]

/-- Where an id takes no slots, its variable leaves all slots as they are. -/
theorem slots_without (y : Id) : (d.without x).slots y = d.slots y := by
  have hsorted : List.Forall₂ (fun b c => b = c ∧ b ∈ d.claimants)
      (d.claimants.mergeSort fun b c => ((d.without x).slotKey b.id).le ((d.without x).slotKey c.id))
      (d.claimants.mergeSort fun b c => (d.slotKey b.id).le (d.slotKey c.id)) := by
    refine mergeSort_of_related ?_ (List.forall₂_same.mpr fun c hc => ⟨rfl, hc⟩)
    rintro b _ ⟨rfl, hb⟩ c _ ⟨rfl, hc⟩
    exact slotKey_le_without hx hn hb hc
  have heq := List.forall₂_eq_eq_eq ▸ hsorted.imp fun _ _ (h : _ = _ ∧ _) => h.1
  unfold slots slotTable
  rw [claimants_without hx, heq]

end Unlisted

end Frame

end Declarations
end ShaderReflection.Module
