import Mathlib.Data.Option.Basic
import ShaderReflection.Proofs.Module.Equivalence
import ShaderReflection.Proofs.Module.Interning

/-! Tables that say the same about related keys. Where keys are related one to one, setting related
keys to related values keeps tables alike, and related look-ups have related results. -/
namespace ShaderReflection

open Relator (BiUnique)

/-- Two tables hold related values at related keys, and nothing else. -/
structure LikeTable (R : κ → κ' → Prop) (V : α → β → Prop) [DecidableEq κ] [DecidableEq κ']
    (t : Table κ α) (u : Table κ' β) : Prop where
  left : ∀ k a, t.get? k = some a → ∃ k' b, R k k' ∧ V a b ∧ u.get? k' = some b
  right : ∀ k' b, u.get? k' = some b → ∃ k a, R k k' ∧ V a b ∧ t.get? k = some a

/-- Two tables hold related values at related keys, in the same order. -/
def LikeEntries (R : κ → κ' → Prop) (V : α → β → Prop) (t : Table κ α) (u : Table κ' β) : Prop :=
  List.Forall₂ (fun p q => R p.1 q.1 ∧ V p.2 q.2) t.entries u.entries

theorem LikeEntries.mono {R S : κ → κ' → Prop} {V W : α → β → Prop} {t : Table κ α}
    {u : Table κ' β} (h : LikeEntries R V t u) (hR : ∀ k k', R k k' → S k k')
    (hV : ∀ a b, V a b → W a b) : LikeEntries S W t u :=
  List.Forall₂.imp (fun _ _ hp => ⟨hR _ _ hp.1, hV _ _ hp.2⟩) h

theorem biUnique_eq {α : Type u} : BiUnique (Eq : α → α → Prop) :=
  ⟨fun _ _ _ h h' => h.trans h'.symm, fun _ _ _ h h' => h.symm.trans h'⟩

section Tables

variable {R S : κ → κ' → Prop} {V W : α → β → Prop} [DecidableEq κ] [DecidableEq κ']
  {t : Table κ α} {u : Table κ' β} {k : κ} {k' : κ'} {a : α} {b : β}

theorem LikeTable.empty : LikeTable R V (.empty : Table κ α) (.empty : Table κ' β) where
  left := fun _ _ h => by cases h
  right := fun _ _ h => by cases h

theorem LikeTable.mono (h : LikeTable R V t u) (hR : ∀ k k', R k k' → S k k')
    (hV : ∀ a b, V a b → W a b) : LikeTable S W t u where
  left := fun k a ha => by
    obtain ⟨k', b, hk, hv, hb⟩ := h.left k a ha
    exact ⟨k', b, hR _ _ hk, hV _ _ hv, hb⟩
  right := fun k' b hb => by
    obtain ⟨k, a, hk, hv, ha⟩ := h.right k' b hb
    exact ⟨k, a, hR _ _ hk, hV _ _ hv, ha⟩

theorem LikeTable.get? (hb : BiUnique R) (h : LikeTable R V t u) (hk : R k k') :
    Option.Rel V (t.get? k) (u.get? k') := by
  cases hl : t.get? k with
  | some a =>
    obtain ⟨l', b, hl', hv, hu⟩ := h.left k a hl
    obtain rfl := hb.2 hl' hk
    rw [hu]
    exact .some hv
  | none =>
    cases hr : u.get? k' with
    | none => exact .none
    | some b =>
      obtain ⟨l, a, hl', -, ht⟩ := h.right k' b hr
      obtain rfl := hb.1 hl' hk
      rw [ht] at hl
      cases hl

theorem LikeTable.set (hb : BiUnique R) (h : LikeTable R V t u) (hk : R k k') (hv : V a b) :
    LikeTable R V (t.set k a) (u.set k' b) where
  left := fun l c hl => by
    by_cases hlk : l = k
    · subst hlk
      rw [Table.get?_set_self] at hl
      obtain rfl := Option.some.inj hl
      exact ⟨k', b, hk, hv, Table.get?_set_self ..⟩
    · rw [Table.get?_set_of_ne _ hlk] at hl
      obtain ⟨l', c', hl', hv', hu⟩ := h.left l c hl
      refine ⟨l', c', hl', hv', ?_⟩
      rw [Table.get?_set_of_ne _ (mt (Relator.rel_eq hb hl' hk).mpr hlk), hu]
  right := fun l' c hl => by
    by_cases hlk : l' = k'
    · subst hlk
      rw [Table.get?_set_self] at hl
      obtain rfl := Option.some.inj hl
      exact ⟨k, a, hk, hv, Table.get?_set_self ..⟩
    · rw [Table.get?_set_of_ne _ hlk] at hl
      obtain ⟨l, c', hl', hv', ht⟩ := h.right l' c hl
      refine ⟨l, c', hl', hv', ?_⟩
      rw [Table.get?_set_of_ne _ (mt (Relator.rel_eq hb hl' hk).mp hlk), ht]

theorem LikeEntries.get? (hb : BiUnique R) (h : LikeEntries R V t u) (hk : R k k') :
    Option.Rel V (t.get? k) (u.get? k') := by
  unfold LikeEntries at h
  unfold Table.get?
  generalize t.entries = es at h ⊢
  generalize u.entries = fs at h ⊢
  induction h with
  | nil => exact .none
  | @cons p q _ _ hp _ ih =>
    obtain ⟨l, c⟩ := p
    obtain ⟨l', c'⟩ := q
    unfold Table.find
    by_cases hl : l = k
    · rw [if_pos hl, if_pos ((Relator.rel_eq hb hp.1 hk).mp hl)]
      exact .some hp.2
    · rw [if_neg hl, if_neg (mt (Relator.rel_eq hb hp.1 hk).mpr hl)]
      exact ih

theorem LikeEntries.set (hb : BiUnique R) (h : LikeEntries R V t u) (hk : R k k') (hv : V a b) :
    LikeEntries R V (t.set k a) (u.set k' b) := by
  unfold LikeEntries Table.set at *
  dsimp only
  generalize t.entries = es at h ⊢
  generalize u.entries = fs at h ⊢
  induction h with
  | nil => exact .cons ⟨hk, hv⟩ .nil
  | @cons p q _ _ hp hps ih =>
    obtain ⟨l, c⟩ := p
    obtain ⟨l', c'⟩ := q
    unfold Table.put
    by_cases hl : l = k
    · rw [if_pos hl, if_pos ((Relator.rel_eq hb hp.1 hk).mp hl)]
      exact .cons ⟨hk, hv⟩ hps
    · rw [if_neg hl, if_neg (mt (Relator.rel_eq hb hp.1 hk).mpr hl)]
      exact .cons hp ih

end Tables

namespace Module

theorem eq_of_optionRel_eq {a b : Option α} (h : Option.Rel Eq a b) : a = b := by
  cases h with
  | some hab => rw [hab]
  | none => rfl

def SameId (ns ms : List String) (x y : Id) : Prop :=
  ∃ n, (ns.idxOf? n).map (fun i : Nat => (i : Int) + 1) = some x ∧
    (ms.idxOf? n).map (fun i : Nat => (i : Int) + 1) = some y

/-- Two keys that start with ids of one name and go on alike. -/
def SameKey (R : Id → Id → Prop) (k k' : Id × α) : Prop := R k.1 k'.1 ∧ k.2 = k'.2

section SameId

variable {d e : Declarations} {x y : Id} {R : Id → Id → Prop}

/-- An id stands for one name, and a name has one id. -/
theorem biUnique_sameId (ns ms : List String) : BiUnique (SameId ns ms) := by
  have hinj (ls : List String) {n n' : String} {x : Id}
      (h : (ls.idxOf? n).map (fun i : Nat => (i : Int) + 1) = some x)
      (h' : (ls.idxOf? n').map (fun i : Nat => (i : Int) + 1) = some x) : n = n' :=
    Declarations.idOf?_injective (d := { Declarations.empty with ids := ls }) h h'
  constructor
  · rintro x z y ⟨n, hx, hy⟩ ⟨n', hz, hy'⟩
    obtain rfl := hinj ms hy hy'
    exact Option.some.inj (hx.symm.trans hz)
  · rintro x y z ⟨n, hx, hy⟩ ⟨n', hx', hz⟩
    obtain rfl := hinj ns hx hx'
    exact Option.some.inj (hy.symm.trans hz)

theorem SameId.mono {ns ms ns' ms' : List String} (h : SameId ns ms x y) (hn : ns <+: ns')
    (hm : ms <+: ms') : SameId ns' ms' x y := by
  have hmono {ls ls' : List String} (hp : ls <+: ls') {n : String} {z : Id} :=
    @Declarations.idOf?_mono { Declarations.empty with ids := ls }
      { Declarations.empty with ids := ls' } n z hp
  obtain ⟨n, hx, hy⟩ := h
  exact ⟨n, hmono hn hx, hmono hm hy⟩

theorem biUnique_sameKey (hb : BiUnique R) : BiUnique (SameKey R : Id × α → Id × α → Prop) := by
  constructor
  · intro k l k' hk hl
    exact Prod.ext (hb.1 hk.1 hl.1) (hk.2.trans hl.2.symm)
  · intro k k' l' hk hl
    exact Prod.ext (hb.2 hk.1 hl.1) (hk.2.symm.trans hl.2)

end SameId

end Module
end ShaderReflection
