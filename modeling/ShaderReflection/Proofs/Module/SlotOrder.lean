import Mathlib.Data.List.Nodup
import ShaderReflection.Module.Slots

/-! The order of allocation. Keys are ordered strictly, and in a list that is sorted by key the
number of elements of a kind before one is its rank among them. -/
namespace ShaderReflection.Module

/-- A key is smaller: by descriptor set, then by binding, then by position. -/
def SlotKey.Before (a b : SlotKey) : Prop :=
  a.descriptorSet < b.descriptorSet ∨ a.descriptorSet = b.descriptorSet ∧
    (a.binding < b.binding ∨ a.binding = b.binding ∧ a.position < b.position)

instance (a b : SlotKey) : Decidable (a.Before b) := inferInstanceAs (Decidable (_ ∨ _))

namespace SlotKey

variable {a b c : SlotKey}

theorem Before.irrefl (a : SlotKey) : ¬ a.Before a := by
  unfold Before
  omega

theorem Before.asymm (h : a.Before b) : ¬ b.Before a := by
  unfold Before at h ⊢
  omega

theorem le_iff : a.le b = true ↔ ¬ b.Before a := by
  unfold le Before
  split_ifs <;> rw [decide_eq_true_eq] <;> omega

theorem before_of_le_of_ne (h : a.le b = true) (hne : a ≠ b) : a.Before b := by
  rw [le_iff] at h
  by_contra hab
  refine hne ?_
  obtain ⟨s, n, p⟩ := a
  obtain ⟨s', n', p'⟩ := b
  unfold Before at h hab
  dsimp only at h hab
  obtain ⟨rfl, rfl, rfl⟩ : s = s' ∧ n = n' ∧ p = p' := by omega
  rfl

theorem le_trans (h : a.le b = true) (h' : b.le c = true) : a.le c = true := by
  rw [le_iff] at h h' ⊢
  unfold Before at h h' ⊢
  omega

theorem le_total (a b : SlotKey) : (a.le b || b.le a) = true := by
  rw [Bool.or_eq_true, le_iff, le_iff]
  by_cases h : b.Before a
  · exact .inr h.asymm
  · exact .inl h

end SlotKey

def rank (key : α → SlotKey) (xs : List α) (x : α) : Nat :=
  xs.countP fun y => (key y).Before (key x)

section Rank

variable {key : α → SlotKey}

theorem rank_append (xs ys : List α) (x : α) :
    rank key (xs ++ ys) x = rank key xs x + rank key ys x := List.countP_append

theorem rank_perm {xs ys : List α} (h : xs.Perm ys) (x : α) : rank key xs x = rank key ys x :=
  h.countP_eq _

/-- In a sorted list the elements before one are those with smaller keys. -/
theorem rank_filter_of_sorted {before after : List α} {x : α}
    (h : (before ++ x :: after).Pairwise fun a b => (key a).Before (key b)) (p : α → Bool) :
    rank key ((before ++ x :: after).filter p) x = before.countP p := by
  obtain ⟨-, hx, hb⟩ := List.pairwise_append.mp h
  have ha := (List.pairwise_cons.mp hx).1
  have hfront : before.countP (fun y => (key y).Before (key x) && p y) = before.countP p :=
    List.countP_congr fun y hy => by simp [hb y hy x List.mem_cons_self]
  have hback : (x :: after).countP (fun y => (key y).Before (key x) && p y) = 0 := by
    refine List.countP_eq_zero.mpr fun y hy => ?_
    rcases List.mem_cons.mp hy with rfl | hy
    · simp [SlotKey.Before.irrefl]
    · simp [(ha y hy).asymm]
  unfold rank
  rw [List.countP_filter, List.countP_append, hfront, hback, Nat.add_zero]

/-- Where all keys are different, sorting by key is strict. -/
theorem pairwise_before_mergeSort {xs : List α} (hn : (xs.map key).Nodup) :
    (xs.mergeSort fun a b => (key a).le (key b)).Pairwise fun a b => (key a).Before (key b) := by
  have hs : (xs.mergeSort fun a b => (key a).le (key b)).Pairwise
      fun a b => (key a).le (key b) = true := by
    refine List.pairwise_mergeSort ?_ ?_ xs
    · exact fun a b c hab hbc => SlotKey.le_trans hab hbc
    · exact fun a b => SlotKey.le_total (key a) (key b)
  have hd : ((xs.mergeSort fun a b => (key a).le (key b)).map key).Nodup :=
    ((List.mergeSort_perm ..).map key).nodup_iff.mpr hn
  exact (hs.and (List.pairwise_map.mp hd)).imp fun ⟨hle, hne⟩ =>
    SlotKey.before_of_le_of_ne hle hne

/-- The ranks of a list are the numbers below its length, in the order of the keys. -/
private theorem map_rank_of_sorted {xs : List α}
    (h : xs.Pairwise fun a b => (key a).Before (key b)) :
    xs.map (rank key xs) = List.range xs.length := by
  refine List.ext_getElem (by simp) fun i hi _ => ?_
  rw [List.length_map] at hi
  have he : xs = xs.take i ++ xs[i] :: xs.drop (i + 1) := by simp
  have hr := rank_filter_of_sorted (he ▸ h) fun _ => true
  rw [← he, List.filter_true, List.countP_true, List.length_take] at hr
  rw [List.getElem_map, List.getElem_range, hr]
  omega

/-- Where all keys are different, every number below the length is a rank, once. -/
theorem map_rank_perm_range {xs : List α} (hn : (xs.map key).Nodup) :
    (xs.map (rank key xs)).Perm (List.range xs.length) := by
  have hp := List.mergeSort_perm xs fun a b => (key a).le (key b)
  have hs := map_rank_of_sorted (pairwise_before_mergeSort hn)
  rw [hp.length_eq, List.map_congr_left fun x _ => rank_perm hp x] at hs
  rw [← hs]
  exact (hp.map _).symm

end Rank
end ShaderReflection.Module
