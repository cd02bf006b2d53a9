import Mathlib.Data.List.Forall2
import Mathlib.Logic.Relator

/-! Lists whose elements are related one by one. What a function of lists finds, keeps or puts in
order in one of them is related to what it does so in the other. -/
namespace ShaderReflection

open Relator (BiUnique)

theorem trans_of_related {R : α → β → Prop} {S : β → γ → Prop} {T : α → γ → Prop}
    (h : ∀ x y z, R x y → S y z → T x z) {xs : List α} {ys : List β} {zs : List γ}
    (hr : List.Forall₂ R xs ys) (hs : List.Forall₂ S ys zs) : List.Forall₂ T xs zs := by
  induction hr generalizing zs with
  | nil =>
    cases hs
    exact .nil
  | cons hxy _ ih =>
    obtain ⟨z, zs, hyz, hyzs, rfl⟩ := List.forall₂_cons_left_iff.mp hs
    exact .cons (h _ _ _ hxy hyz) (ih hyzs)

theorem exists_append_of_related {R : α → β → Prop} {xs ys : List α} {zs : List β}
    (h : List.Forall₂ R (xs ++ ys) zs) :
    ∃ us vs, zs = us ++ vs ∧ List.Forall₂ R xs us ∧ List.Forall₂ R ys vs := by
  induction xs generalizing zs with
  | nil => exact ⟨[], zs, rfl, .nil, h⟩
  | cons x xs ih =>
    obtain ⟨z, zs, hz, hzs, rfl⟩ := List.forall₂_cons_left_iff.mp h
    obtain ⟨us, vs, rfl, hu, hv⟩ := ih hzs
    exact ⟨z :: us, vs, rfl, .cons hz hu, hv⟩

theorem zip_of_related {S : α → β → Prop} {xs : List α} {ys : List β} (h : List.Forall₂ S xs ys)
    {xs' : List α} {ys' : List β} (h' : List.Forall₂ S xs' ys') :
    List.Forall₂ (fun p q => S p.1 q.1 ∧ S p.2 q.2) (xs.zip xs') (ys.zip ys') := by
  induction h generalizing xs' ys' with
  | nil => exact .nil
  | cons hxy _ ih =>
    cases h' with
    | nil => exact .nil
    | cons hxy' h' => exact .cons ⟨hxy, hxy'⟩ (ih h')

theorem exists_of_mem_related {R : α → β → Prop} {xs : List α} {ys : List β}
    (h : List.Forall₂ R xs ys) {x : α} (hx : x ∈ xs) : ∃ y ∈ ys, R x y := by
  induction h with
  | nil => cases hx
  | cons hxy _ ih =>
    rcases List.mem_cons.mp hx with rfl | hx
    · exact ⟨_, List.mem_cons_self, hxy⟩
    · obtain ⟨y, hy, hr⟩ := ih hx
      exact ⟨y, List.mem_cons_of_mem _ hy, hr⟩

theorem countP_of_related {R : α → β → Prop} {xs : List α} {ys : List β}
    (h : List.Forall₂ R xs ys) {p : α → Bool} {q : β → Bool}
    (hpq : ∀ x ∈ xs, ∀ y, R x y → p x = q y) : xs.countP p = ys.countP q := by
  induction h with
  | nil => rfl
  | cons hxy _ ih =>
    rw [List.countP_cons, List.countP_cons, hpq _ List.mem_cons_self _ hxy,
      ih fun x hx => hpq x (List.mem_cons_of_mem _ hx)]

section Search

variable {P : α → β → Prop} {p : α → Bool} {q : β → Bool} (hpq : ∀ a b, P a b → p a = q b)
  {xs : List α} {ys : List β}
include hpq

theorem find?_of_related (h : List.Forall₂ P xs ys) : Option.Rel P (xs.find? p) (ys.find? q) := by
  induction h with
  | nil => exact .none
  | @cons a b _ _ hab _ ih =>
    rw [List.find?_cons, List.find?_cons, hpq a b hab]
    cases q b with
    | true => exact .some hab
    | false => exact ih

theorem findIdx_of_related (h : List.Forall₂ P xs ys) : xs.findIdx p = ys.findIdx q := by
  induction h with
  | nil => rfl
  | @cons a b _ _ hab _ ih => rw [List.findIdx_cons, List.findIdx_cons, hpq a b hab, ih]

theorem filter_of_related (h : List.Forall₂ P xs ys) :
    List.Forall₂ P (xs.filter p) (ys.filter q) := by
  refine List.rel_filter (fun a b hab => ?_) h
  show p a = true ↔ q b = true
  rw [hpq a b hab]

end Search

/-- Related lists keep related elements when they lose their repetitions. -/
theorem eraseDups_of_related [DecidableEq α] [DecidableEq β] {R : α → β → Prop} (hb : BiUnique R)
    {xs : List α} {ys : List β} (h : List.Forall₂ R xs ys) :
    List.Forall₂ R xs.eraseDups ys.eraseDups := by
  match h with
  | .nil => exact .nil
  | @List.Forall₂.cons _ _ _ x y xs ys hxy h =>
    rw [List.eraseDups_cons, List.eraseDups_cons]
    refine .cons hxy (eraseDups_of_related hb (filter_of_related (fun a b hab => ?_) h))
    have he := Relator.rel_eq hb hab hxy
    simp [he]
termination_by xs.length
decreasing_by exact Nat.lt_succ_of_le (List.length_filter_le _ xs)

theorem exists_pairs_of_related {P : α → β → Prop} {xs : List α} {ys : List β}
    (h : List.Forall₂ P xs ys) :
    ∃ ps : List (α × β), ps.map (·.1) = xs ∧ ps.map (·.2) = ys ∧ ∀ p ∈ ps, P p.1 p.2 := by
  induction h with
  | nil => exact ⟨[], rfl, rfl, fun _ hp => by cases hp⟩
  | @cons a b _ _ hab _ ih =>
    obtain ⟨ps, rfl, rfl, hps⟩ := ih
    exact ⟨(a, b) :: ps, rfl, rfl, List.forall_mem_cons.mpr ⟨hab, hps⟩⟩

/-- Related lists are sorted alike by orders that agree on related elements. -/
theorem mergeSort_of_related {P : α → β → Prop} {le : α → α → Bool} {le' : β → β → Bool}
    (hle : ∀ a b, P a b → ∀ c d, P c d → le a c = le' b d) {xs : List α} {ys : List β}
    (h : List.Forall₂ P xs ys) : List.Forall₂ P (xs.mergeSort le) (ys.mergeSort le') := by
  obtain ⟨ps, rfl, rfl, hps⟩ := exists_pairs_of_related h
  have hfst := List.map_mergeSort (r := fun p q => le p.1 q.1) (s := le) (f := Prod.fst) (l := ps)
    fun _ _ _ _ => rfl
  have hsnd := List.map_mergeSort (r := fun p q => le p.1 q.1) (s := le') (f := Prod.snd) (l := ps)
    fun p hp q hq => hle _ _ (hps p hp) _ _ (hps q hq)
  rw [← hfst, ← hsnd, List.forall₂_map_left_iff, List.forall₂_map_right_iff, List.forall₂_same]
  exact fun p hp => hps p (List.mem_mergeSort.mp hp)

theorem lookup_of_related [DecidableEq κ] [DecidableEq κ'] {R : κ → κ' → Prop} (hb : BiUnique R)
    {ps : List (κ × α)} {qs : List (κ' × α)}
    (h : List.Forall₂ (fun p q => R p.1 q.1 ∧ p.2 = q.2) ps qs) {k : κ} {k' : κ'} (hk : R k k') :
    ps.lookup k = qs.lookup k' := by
  induction h with
  | nil => rfl
  | @cons p q _ _ hpq _ ih =>
    have hkey : (k == p.1) = (k' == q.1) := by
      rw [Bool.eq_iff_iff, beq_iff_eq, beq_iff_eq]
      exact Relator.rel_eq hb hk hpq.1
    rw [List.lookup_cons, List.lookup_cons, hkey, hpq.2, ih]

/-- Two lists that agree in the elements that satisfy a condition; others may stand anywhere. -/
inductive Interleaved (p : α → Bool) : List α → List α → Prop where
  | nil : Interleaved p [] []
  | both {xs ys : List α} (x : α) (hx : p x = true) (h : Interleaved p xs ys) :
      Interleaved p (x :: xs) (x :: ys)
  | left {xs ys : List α} (x : α) (hx : p x = false) (h : Interleaved p xs ys) :
      Interleaved p (x :: xs) ys
  | right {xs ys : List α} (y : α) (hy : p y = false) (h : Interleaved p xs ys) :
      Interleaved p xs (y :: ys)

theorem interleaved_of_filter_eq {p : α → Bool} {xs ys : List α}
    (h : xs.filter p = ys.filter p) : Interleaved p xs ys := by
  induction xs generalizing ys with
  | nil =>
    induction ys with
    | nil => exact .nil
    | cons y ys ih =>
      cases hy : p y with
      | true =>
        rw [List.filter_cons_of_pos hy] at h
        cases h
      | false =>
        rw [List.filter_cons_of_neg (by simp [hy])] at h
        exact .right y hy (ih h)
  | cons x xs ih =>
    cases hx : p x with
    | false =>
      rw [List.filter_cons_of_neg (by simp [hx])] at h
      exact .left x hx (ih h)
    | true =>
      rw [List.filter_cons_of_pos hx] at h
      induction ys with
      | nil => cases h
      | cons y ys ih' =>
        cases hy : p y with
        | true =>
          rw [List.filter_cons_of_pos hy] at h
          obtain ⟨hxy, hrest⟩ := List.cons.inj h
          rw [← hxy]
          exact .both x hx (ih hrest)
        | false =>
          rw [List.filter_cons_of_neg (by simp [hy])] at h
          exact .right y hy (ih' h)

end ShaderReflection
