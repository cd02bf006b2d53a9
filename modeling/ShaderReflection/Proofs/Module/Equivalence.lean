import Mathlib.Data.List.Zip
import ShaderReflection.Module.Equivalence
import ShaderReflection.Proofs.RelatedLists

/-! Equivalence of struct types is symmetric and transitive, a verdict stays when the comparison may
go deeper, and it depends on the types that the members reach only. -/
namespace ShaderReflection.Module

theorem everyEnds_eq_true_iff {p : α → Option Bool} {xs : List α} :
    everyEnds p xs = some true ↔ ∀ x ∈ xs, p x = some true := by
  induction xs with
  | nil => simp [everyEnds]
  | cons x xs ih =>
    unfold everyEnds
    rw [List.forall_mem_cons, ← ih]
    split
    case h_1 hx => simp [hx]
    case h_2 hx => exact ⟨fun h => absurd h hx, fun h => absurd h.1 hx⟩

theorem everyEnds_congr {p q : α → Option Bool} {xs : List α} (h : ∀ x ∈ xs, p x = q x) :
    everyEnds p xs = everyEnds q xs := by
  induction xs with
  | nil => rfl
  | cons x xs ih =>
    unfold everyEnds
    rw [h x (by simp), ih fun y hy => h y (by simp [hy])]

private theorem everyEnds_map (p : β → Option Bool) (f : α → β) (xs : List α) :
    everyEnds p (xs.map f) = everyEnds (fun x => p (f x)) xs := by
  induction xs with
  | nil => rfl
  | cons x xs ih =>
    rw [List.map_cons]
    unfold everyEnds
    rw [ih]

private theorem everyEnds_mono {p q : α → Option Bool} {xs : List α} {r : Bool}
    (h : everyEnds p xs = some r) (hpq : ∀ x ∈ xs, ∀ b, p x = some b → q x = some b) :
    everyEnds q xs = some r := by
  induction xs with
  | nil => exact h
  | cons x xs ih =>
    unfold everyEnds at h ⊢
    split at h
    case h_1 hx =>
      rw [hpq x (by simp) true hx]
      exact ih h fun y hy => hpq y (by simp [hy])
    case h_2 hx =>
      rw [hpq x (by simp) r h]
      cases r with
      | true => exact absurd h hx
      | false => rfl

section Depth

variable {types : Table Id TypeDescriptor} {a b c : TypeDescriptor}

/-- Compare the types of two members; an unknown one equals nothing. -/
def membersTo? (types : Table Id TypeDescriptor) (depth : Nat) (p : Id × Id) : Option Bool :=
  match types.get? p.1, types.get? p.2 with
  | some s, some t => equivalentTo? types depth s t
  | _, _ => some false

theorem equivalentTo?_succ (depth : Nat) : equivalentTo? types (depth + 1) a b =
    if sameShape a b then everyEnds (membersTo? types depth) (a.members.zip b.members)
    else some false := rfl

theorem sameShape_comm : sameShape a b = sameShape b a := by
  unfold sameShape
  simp only [eq_comm]

theorem sameShape_trans (h : sameShape a b = true) (h' : sameShape b c = true) :
    sameShape a c = true := by
  simp only [sameShape, Bool.and_eq_true, decide_eq_true_eq] at h h' ⊢
  simp [h, h']

/-- A comparison that ended gives the same verdict with more depth. -/
theorem equivalentTo?_mono {n k : Nat} {r : Bool} (h : equivalentTo? types n a b = some r)
    (hnk : n ≤ k) : equivalentTo? types k a b = some r := by
  induction n generalizing k a b r with
  | zero => cases h
  | succ n ih =>
    obtain ⟨k, rfl⟩ : ∃ j, k = j + 1 := ⟨k - 1, by omega⟩
    rw [equivalentTo?_succ] at h ⊢
    split_ifs at h ⊢ with hs
    · refine everyEnds_mono h fun p _ v hv => ?_
      unfold membersTo? at hv ⊢
      split at hv
      case h_1 => exact ih hv (by omega)
      case h_2 => exact hv
    · exact h

theorem equivalentTo?_comm (n : Nat) : equivalentTo? types n a b = equivalentTo? types n b a := by
  induction n generalizing a b with
  | zero => rfl
  | succ n ih =>
    rw [equivalentTo?_succ, equivalentTo?_succ, sameShape_comm, ← List.zip_swap, everyEnds_map]
    refine if_congr Iff.rfl (everyEnds_congr fun p _ => ?_) rfl
    unfold membersTo?
    rw [Prod.fst_swap, Prod.snd_swap]
    cases types.get? p.1 <;> cases types.get? p.2 <;> first | rfl | exact ih

theorem membersTo?_eq_true_iff {n : Nat} {p : Id × Id} : membersTo? types n p = some true ↔
    ∃ s t, types.get? p.1 = some s ∧ types.get? p.2 = some t ∧
      equivalentTo? types n s t = some true := by
  unfold membersTo?
  split
  case h_1 s t hs ht => simp [hs, ht]
  case h_2 h =>
    constructor
    · intro hf
      cases hf
    · rintro ⟨s, t, hs, ht, -⟩
      exact absurd ht (h s t hs)

/-- Two types are equivalent iff their shapes are the same and their members are known and
equivalent in pairs. -/
theorem equivalentTo?_succ_eq_true_iff {n : Nat} :
    equivalentTo? types (n + 1) a b = some true ↔ sameShape a b = true ∧
      List.Forall₂ (fun x y => membersTo? types n (x, y) = some true) a.members b.members := by
  rw [equivalentTo?_succ]
  split_ifs with hs
  · have hlen : a.members.length = b.members.length := by
      simp only [sameShape, Bool.and_eq_true, decide_eq_true_eq] at hs
      exact hs.2
    rw [everyEnds_eq_true_iff, List.forall₂_iff_zip]
    constructor
    · exact fun h => ⟨hs, hlen, fun hp => h _ hp⟩
    · exact fun h p hp => h.2.2 hp
  · constructor
    · intro h
      cases h
    · exact fun h => absurd h.1 hs

theorem equivalentTo?_trans {n : Nat} (h : equivalentTo? types n a b = some true)
    (h' : equivalentTo? types n b c = some true) : equivalentTo? types n a c = some true := by
  induction n generalizing a b c with
  | zero => cases h
  | succ n ih =>
    rw [equivalentTo?_succ_eq_true_iff] at h h' ⊢
    refine ⟨sameShape_trans h.1 h'.1, trans_of_related (fun x y z hxy hyz => ?_) h.2 h'.2⟩
    obtain ⟨s, t, hs, ht, hst⟩ := membersTo?_eq_true_iff.mp hxy
    obtain ⟨t', u, ht', hu, htu⟩ := membersTo?_eq_true_iff.mp hyz
    obtain rfl : t = t' := Option.some.inj (ht.symm.trans ht')
    exact membersTo?_eq_true_iff.mpr ⟨s, u, hs, hu, ih hst htu⟩

end Depth

section Growth

variable {types types' : Table Id TypeDescriptor}

/-- `types'` has the same types as `types` for a set of ids that is closed under members. -/
structure AgreeOn (settled : Id → Prop) (types types' : Table Id TypeDescriptor) : Prop where
  get? : ∀ x, settled x → types'.get? x = types.get? x
  members : ∀ x t, settled x → types.get? x = some t → ∀ m ∈ t.members, settled m

/-- The verdict on two types depends on the types that their members reach only. -/
theorem AgreeOn.equivalentTo?_eq {settled : Id → Prop} (h : AgreeOn settled types types')
    {a b : TypeDescriptor} (ha : ∀ m ∈ a.members, settled m) (hb : ∀ m ∈ b.members, settled m)
    (n : Nat) : equivalentTo? types' n a b = equivalentTo? types n a b := by
  induction n generalizing a b with
  | zero => rfl
  | succ n ih =>
    rw [equivalentTo?_succ, equivalentTo?_succ]
    refine if_congr Iff.rfl (everyEnds_congr fun p hp => ?_) rfl
    obtain ⟨hx, hy⟩ := List.of_mem_zip hp
    unfold membersTo?
    rw [h.get? _ (ha _ hx), h.get? _ (hb _ hy)]
    split
    case h_1 s t hs ht => exact ih (h.members _ s (ha _ hx) hs) (h.members _ t (hb _ hy) ht)
    case h_2 => rfl

/-- A verdict is kept by a larger table that agrees on what the types reach. -/
theorem AgreeOn.equivalent?_eq_some {settled : Id → Prop} (h : AgreeOn settled types types')
    (hc : compoundCount types ≤ compoundCount types') {a b : TypeDescriptor}
    (ha : ∀ m ∈ a.members, settled m) (hb : ∀ m ∈ b.members, settled m) {r : Bool}
    (hr : equivalent? types a b = some r) : equivalent? types' a b = some r := by
  unfold equivalent? at hr ⊢
  have hle := Nat.mul_le_mul hc hc
  refine equivalentTo?_mono (n := compoundCount types * compoundCount types + 2) ?_ (by omega)
  rw [h.equivalentTo?_eq ha hb, hr]

end Growth

section Verdict

variable {types : Table Id TypeDescriptor} {a b c : TypeDescriptor}

theorem equivalent?_comm : equivalent? types a b = equivalent? types b a := equivalentTo?_comm _

theorem equivalent?_trans (h : equivalent? types a b = some true)
    (h' : equivalent? types b c = some true) : equivalent? types a c = some true :=
  equivalentTo?_trans h h'

end Verdict
end ShaderReflection.Module
