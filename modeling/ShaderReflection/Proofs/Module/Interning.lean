import Mathlib.Data.List.Forall2
import ShaderReflection.Module.Declare

/-! The ids of names: a name keeps the id that it was given, and no two names share one. -/
namespace ShaderReflection.Module.Declarations

section Interning

variable {d e f : Declarations} {name : String} {id : Id}

theorem idOf?_eq_some_iff :
    d.idOf? name = some id ↔ ∃ k : Nat, d.ids.idxOf? name = some k ∧ (k : Int) + 1 = id :=
  Option.map_eq_some_iff

/-- An id stands for one name only. -/
theorem idOf?_injective {name' : String} (h : d.idOf? name = some id)
    (h' : d.idOf? name' = some id) : name = name' := by
  obtain ⟨k, hk, rfl⟩ := idOf?_eq_some_iff.mp h
  obtain ⟨k', hk', he⟩ := idOf?_eq_some_iff.mp h'
  obtain rfl : k' = k := by omega
  obtain ⟨_, hn, -⟩ := List.findIdx?_eq_some_iff_getElem.mp hk
  obtain ⟨_, hn', -⟩ := List.findIdx?_eq_some_iff_getElem.mp hk'
  rw [← eq_of_beq hn, eq_of_beq hn']

/-- `e` has given out more ids than `d`, and holds the same facts. -/
def Interned (d e : Declarations) : Prop := ∃ ids, d.ids <+: ids ∧ e = { d with ids }

theorem Interned.refl (d : Declarations) : Interned d d := ⟨d.ids, List.prefix_refl _, rfl⟩

theorem Interned.trans (h : Interned d e) (h' : Interned e f) : Interned d f := by
  obtain ⟨ids, hp, rfl⟩ := h
  obtain ⟨ids', hp', rfl⟩ := h'
  exact ⟨ids', hp.trans hp', rfl⟩

/-- Ids that have been given out stay. -/
theorem idOf?_mono (hp : d.ids <+: e.ids) (h : d.idOf? name = some id) :
    e.idOf? name = some id := by
  obtain ⟨rest, hr⟩ := hp
  obtain ⟨k, hk, rfl⟩ := idOf?_eq_some_iff.mp h
  refine idOf?_eq_some_iff.mpr ⟨k, ?_, rfl⟩
  unfold List.idxOf? at hk ⊢
  rw [← hr, List.findIdx?_append, hk]
  rfl

theorem interned_intern (d : Declarations) (name : String) : Interned d (d.intern name).2 := by
  unfold intern
  split
  · exact .refl d
  · exact ⟨_, List.prefix_append .., rfl⟩

theorem idOf?_intern (d : Declarations) (name : String) :
    (d.intern name).2.idOf? name = some (d.intern name).1 := by
  unfold intern
  split
  case h_1 h => exact h
  case h_2 h =>
    have hn : d.ids.findIdx? (· == name) = none := Option.map_eq_none_iff.mp h
    refine idOf?_eq_some_iff.mpr ⟨d.ids.length, ?_, rfl⟩
    unfold List.idxOf?
    rw [List.findIdx?_append, hn]
    simp

theorem interned_internAll (d : Declarations) (names : List String) :
    Interned d (d.internAll names).2 := by
  induction names generalizing d with
  | nil => exact .refl d
  | cons n ns ih => exact (interned_intern d n).trans (ih _)

/-- The ids of several names, each as it was given out. -/
theorem internAll_ids (d : Declarations) (names : List String) :
    List.Forall₂ (fun n x => (d.internAll names).2.idOf? n = some x) names
      (d.internAll names).1 := by
  induction names generalizing d with
  | nil => exact .nil
  | cons n ns ih =>
    obtain ⟨_, hp, he⟩ := interned_internAll (d.intern n).2 ns
    refine .cons (idOf?_mono ?_ (idOf?_intern d n)) (ih _)
    change _ <+: ((d.intern n).2.internAll ns).2.ids
    rw [he]
    exact hp

end Interning

end ShaderReflection.Module.Declarations
