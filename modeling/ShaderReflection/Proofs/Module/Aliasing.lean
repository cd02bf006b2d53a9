import Mathlib.Data.List.Pairwise
import ShaderReflection.Proofs.Module.TypeTable

/-! Aliases of structs. In a listing where names come first and members come before the structs
that hold them, two named structs have the same root iff they have the same name and are equivalent,
and the root of a struct is the first of its kind. -/
namespace ShaderReflection.Module

open Assembly (Instruction Operand)

def Verdict (types : Table Id TypeDescriptor) (v : Bool) (x y : Id) : Prop :=
  ∃ t u, types.get? x = some t ∧ types.get? y = some u ∧ equivalent? types t u = some v

section Verdict

variable {types : Table Id TypeDescriptor} {v : Bool} {x y z : Id}

theorem Verdict.symm (h : Verdict types v x y) : Verdict types v y x := by
  obtain ⟨t, u, ht, hu, hv⟩ := h
  exact ⟨u, t, hu, ht, by rw [equivalent?_comm, hv]⟩

theorem Verdict.trans (h : Verdict types true x y) (h' : Verdict types true y z) :
    Verdict types true x z := by
  obtain ⟨t, u, ht, hu, hv⟩ := h
  obtain ⟨u', w, hu', hw, hv'⟩ := h'
  obtain rfl : u = u' := Option.some.inj (hu.symm.trans hu')
  exact ⟨t, w, ht, hw, equivalent?_trans hv hv'⟩

theorem Verdict.unique {v' : Bool} (h : Verdict types v x y) (h' : Verdict types v' x y) :
    v = v' := by
  obtain ⟨t, u, ht, hu, hv⟩ := h
  obtain ⟨t', u', ht', hu', hv'⟩ := h'
  obtain rfl : t = t' := Option.some.inj (ht.symm.trans ht')
  obtain rfl : u = u' := Option.some.inj (hu.symm.trans hu')
  exact Option.some.inj (hv.symm.trans hv')

/-- Two ids are one struct, or structs of one name that are equivalent. -/
def SameStruct (name : Id → String) (types : Table Id TypeDescriptor) (x y : Id) : Prop :=
  x = y ∨ name x = name y ∧ Verdict types true x y

theorem SameStruct.symm {name : Id → String} (h : SameStruct name types x y) :
    SameStruct name types y x :=
  h.imp Eq.symm fun ⟨hn, hv⟩ => ⟨hn.symm, hv.symm⟩

theorem SameStruct.trans {name : Id → String} (h : SameStruct name types x y)
    (h' : SameStruct name types y z) : SameStruct name types x z := by
  rcases h with rfl | ⟨hn, hv⟩
  · exact h'
  · rcases h' with rfl | ⟨hn', hv'⟩
    · exact .inr ⟨hn, hv⟩
    · exact .inr ⟨hn.trans hn', hv.trans hv'⟩

theorem SameStruct.name_eq {name : Id → String} (h : SameStruct name types x y) :
    name x = name y := by
  rcases h with rfl | ⟨hn, -⟩
  · rfl
  · exact hn

end Verdict

/-- A listing in which every type is declared once, after all names and after the types of its
members. -/
structure InOrder (is : List Instruction) : Prop where
  once : (typeResults is).Nodup
  namesFirst : is.Pairwise fun i j => isTypeDeclaration i = true → j.opcode ≠ "OpName"
  membersFirst : ∀ k : Fin is.length, is[k].opcode = "OpTypeStruct" →
    ∀ name ∈ Declarations.idNames is[k].operands, name ∈ typeResults (is.take k)

def MembersFirst (is : List Instruction) : Prop :=
  ∀ k : Fin is.length, is[k].opcode = "OpTypeStruct" →
    ∀ name ∈ Declarations.idNames is[k].operands, name ∈ typeResults (is.take k)

namespace Declarations

def declaredStructs (d : Declarations) (is : List Instruction) : List Id :=
  (is.filter (·.opcode = "OpTypeStruct")).filterMap fun i => i.result.bind d.idOf?

/-- The struct that lends its member names to a struct: an earlier one, or the struct itself. -/
def root (d : Declarations) (x : Id) : Id := ((d.types.get? x).bind (·.aliasOf)).getD x

theorem settled_of_mem_declaredStructs {m : Declarations} {done : List Instruction} {x : Id}
    (h : x ∈ m.declaredStructs done) : m.Settled done x := by
  obtain ⟨i, hi, hx⟩ := List.mem_filterMap.mp h
  obtain ⟨name, hn, hid⟩ := Option.bind_eq_some_iff.mp hx
  obtain ⟨hi, ho⟩ := List.mem_filter.mp hi
  have ht := isTypeDeclaration_of_ofName (ofName_eq_struct_iff.mpr (of_decide_eq_true ho))
  exact ⟨name, List.mem_filterMap.mpr ⟨i, List.mem_filter.mpr ⟨hi, ht⟩, hn⟩, hid⟩

theorem declaredStructs_append_struct (m : Declarations) (done : List Instruction) {i : Instruction}
    (ho : i.opcode = "OpTypeStruct") {name : String} (hn : i.result = some name) {x : Id}
    (hx : m.idOf? name = some x) :
    m.declaredStructs (done ++ [i]) = m.declaredStructs done ++ [x] := by
  simp [declaredStructs, ho, hn, hx]

private theorem declaredStructs_append_other (m : Declarations) (done : List Instruction)
    {i : Instruction} (ho : i.opcode ≠ "OpTypeStruct") :
    m.declaredStructs (done ++ [i]) = m.declaredStructs done := by
  simp [declaredStructs, ho]

section Search

variable {d : Declarations} {t : TypeDescriptor} {name : String} {rs : List Id}

theorem findRoot_eq_some {root : Id} (h : d.findRoot t name rs = .ok (some root)) :
    root ∈ rs ∧ d.names.get? root = some name ∧
      ∃ u, d.types.get? root = some u ∧ equivalent? d.types t u = some true := by
  induction rs with
  | nil => cases h
  | cons r rs ih =>
    have hrest (hr : d.findRoot t name rs = .ok (some root)) := ih hr
    unfold findRoot at h
    split at h
    case isFalse =>
      obtain ⟨hm, hr⟩ := hrest h
      exact ⟨List.mem_cons_of_mem _ hm, hr⟩
    case isTrue hn =>
      split at h
      case h_1 =>
        obtain ⟨hm, hr⟩ := hrest h
        exact ⟨List.mem_cons_of_mem _ hm, hr⟩
      case h_2 u hu =>
        split at h
        · cases h
        case h_2 hv =>
          obtain rfl : r = root := Option.some.inj (Except.ok.inj h)
          exact ⟨List.mem_cons_self, hn, u, hu, hv⟩
        case h_3 =>
          obtain ⟨hm, hr⟩ := hrest h
          exact ⟨List.mem_cons_of_mem _ hm, hr⟩

/-- Where no root was found, those of the name have been compared, and differ. -/
private theorem findRoot_eq_none (h : d.findRoot t name rs = .ok none) {r : Id} (hr : r ∈ rs)
    (hn : d.names.get? r = some name) {u : TypeDescriptor} (hu : d.types.get? r = some u) :
    equivalent? d.types t u = some false := by
  induction rs with
  | nil => cases hr
  | cons s rs ih =>
    unfold findRoot at h
    rcases List.mem_cons.mp hr with rfl | hr
    · rw [if_pos hn, hu] at h
      dsimp only at h
      split at h
      · cases h
      · cases h
      case h_3 hv => exact hv
    · refine ih ?_ hr
      split at h
      case isFalse => exact h
      case isTrue =>
        split at h
        case h_1 => exact h
        case h_2 =>
          split at h
          · cases h
          · cases h
          · exact h

theorem names_get?_eq_some_iff {x : Id} (h : name ≠ "") :
    d.names.get? x = some name ↔ d.name x = name := by
  unfold Declarations.name
  cases d.names.get? x with
  | none => simpa using h.symm
  | some _ => simp

end Search

/-- After the last name the names stay. -/
theorem names_declareAll {d m : Declarations} {is : List Instruction}
    (h : d.declareAll is = .ok m) (hn : ∀ i ∈ is, i.opcode ≠ "OpName") : m.names = d.names := by
  induction is generalizing d with
  | nil => rw [← pure_eq_ok.mp h]
  | cons i is ih =>
    obtain ⟨d₁, h₁, h⟩ := bind_eq_ok.mp h
    rw [ih h fun j hj => hn j (by simp [hj])]
    have hd := declare_ok h₁
    have ho := mt ofName_eq_name_iff.mp (hn i (by simp))
    generalize Opcode.ofName i.opcode = o at hd ho
    cases hd with
    | name => exact absurd rfl ho
    | type ht =>
      obtain ⟨_, _, _, _, _, -, rfl, -⟩ := declareType_frame ht
      rfl
    | _ => rfl

section Growth

variable {m : Declarations} {done : List Instruction} {types types' : Table Id TypeDescriptor}

/-- Only settled ids have descriptors, and only settled ids are members. -/
def Known (m : Declarations) (done : List Instruction) (types : Table Id TypeDescriptor) : Prop :=
  ∀ x t, types.get? x = some t → m.Settled done x ∧ ∀ y ∈ t.members, m.Settled done y

/-- A table that has at least the types that were settled in another one. -/
structure Grows (m : Declarations) (done : List Instruction)
    (types types' : Table Id TypeDescriptor) : Prop where
  agree : AgreeOn (m.Settled done) types types'
  count : compoundCount types ≤ compoundCount types'

theorem Known.append (h : m.Known done types) (rest : List Instruction) :
    m.Known (done ++ rest) types := fun x t hx =>
  ⟨(h x t hx).1.append rest, fun y hy => ((h x t hx).2 y hy).append rest⟩

theorem Known.grows_refl (h : m.Known done types) : m.Grows done types types where
  agree := ⟨fun _ _ => rfl, fun x t _ hx => (h x t hx).2⟩
  count := Nat.le_refl _

section Set

variable {x : Id} {t : TypeDescriptor} (h : m.Known done types) (hx : ¬ m.Settled done x)
include h hx

theorem Known.grows_set : m.Grows done types (types.set x t) where
  agree := by
    refine ⟨fun y hy => Table.get?_set_of_ne _ ?_ _, h.grows_refl.agree.members⟩
    rintro rfl
    exact hx hy
  count := by
    refine compoundCount_le_set ?_ t
    cases hg : types.get? x with
    | none => rfl
    | some u => exact absurd (h x u hg).1 hx

theorem Known.set {i : Instruction} (hx' : m.Settled (done ++ [i]) x)
    (ht : ∀ y ∈ t.members, m.Settled done y) : m.Known (done ++ [i]) (types.set x t) := by
  intro y u hy
  by_cases hxy : y = x
  · subst hxy
    rw [Table.get?_set_self] at hy
    rw [← Option.some.inj hy]
    exact ⟨hx', fun z hz => (ht z hz).append [i]⟩
  · rw [Table.get?_set_of_ne _ hxy] at hy
    exact h.append [i] y u hy

end Set

/-- A verdict on descriptors whose members are settled stays. -/
theorem Grows.equivalent? (h : m.Grows done types types') {a b : TypeDescriptor}
    (ha : ∀ y ∈ a.members, m.Settled done y) (hb : ∀ y ∈ b.members, m.Settled done y) {v : Bool}
    (hv : Module.equivalent? types a b = some v) : Module.equivalent? types' a b = some v :=
  h.agree.equivalent?_eq_some h.count ha hb hv

theorem Grows.verdict (h : m.Grows done types types') (hk : m.Known done types) {v : Bool}
    {x y : Id} (hv : Verdict types v x y) : Verdict types' v x y := by
  obtain ⟨t, u, ht, hu, hv⟩ := hv
  obtain ⟨hx, hxs⟩ := hk x t ht
  obtain ⟨hy, hys⟩ := hk y u hu
  refine ⟨t, u, ?_, ?_, h.equivalent? hxs hys hv⟩
  · rw [h.agree.get? x hx, ht]
  · rw [h.agree.get? y hy, hu]

/-- A type that is not a struct has members only if it is made of a type that has them. -/
theorem Described.members {id : Id} {kind : TypeOpcode} {t : TypeDescriptor}
    (h : Described types id kind t) (hk : kind ≠ .struct) :
    t.members = [] ∨ ∃ c u, types.get? c = some u ∧ t.members = u.members := by
  cases h with
  | plain | bool | int | float => exact .inl rfl
  | struct => exact absurd rfl hk
  | vector hc | matrix hc | array hc | runtimeArray hc | pointer hc => exact .inr ⟨_, _, hc, rfl⟩

end Growth

section Step

variable {m d e : Declarations} {before after : List Instruction} {i : Instruction}

theorem declare_struct_ok (ho : i.opcode = "OpTypeStruct") (h : d.declare i = .ok e) :
    ∃ ids name x members d₁ t, d.ids <+: ids ∧ i.result = some name ∧
      idOf? { d with ids } name = some x ∧
      List.Forall₂ (fun n y => idOf? { d with ids } n = some y) (idNames i.operands) members ∧
      StructDescribed { d with ids } { baseType := .struct, selfId := x, members } d₁ t ∧
      e = { d₁ with types := d₁.types.set x t } := by
  have hd := declare_ok h
  rw [ofName_eq_struct_iff.mpr ho] at hd
  cases hd with
  | type ht =>
    obtain ⟨ids, name, x, d₁, t?, hp, hn, hx, hd, rfl⟩ := declareType_ok ht
    obtain ⟨ids', members, t, hp', rfl, hm, hs⟩ := describe_struct_ok hd
    exact ⟨ids', name, x, members, d₁, t, hp.trans hp', hn, idOf?_mono (d := { d with ids }) hp' hx,
      hm, hs, rfl⟩

theorem StructDescribed.frame {t u : TypeDescriptor} (h : StructDescribed d t e u) :
    ∃ roots aliasOf, e = { d with roots } ∧ u = { t with aliasOf } := by
  cases h with
  | anonymous | aliased | root => exact ⟨_, _, rfl, rfl⟩

/-- Where the search for aliases stands: the roots are structs that differ from each other, and
every named struct has a root that is the same and came no later. -/
structure Classified (m : Declarations) (done : List Instruction) (d : Declarations) : Prop where
  known : m.Known done d.types
  described : ∀ x ∈ m.declaredStructs done, ∃ t, d.types.get? x = some t
  roots : ∀ r ∈ d.roots, r ∈ m.declaredStructs done
  apart : d.roots.Pairwise fun r r' => m.name r = m.name r' → Verdict d.types false r r'
  classes : ∀ x ∈ m.declaredStructs done, m.name x ≠ "" → d.root x ∈ d.roots ∧
    SameStruct m.name d.types x (d.root x) ∧
    (m.declaredStructs done).idxOf (d.root x) ≤ (m.declaredStructs done).idxOf x

theorem Grows.root_eq (hg : m.Grows before d.types e.types) {x : Id}
    (hx : x ∈ m.declaredStructs before) : e.root x = d.root x := by
  unfold root
  rw [hg.agree.get? x (settled_of_mem_declaredStructs hx)]

theorem Classified.same (h : m.Classified before d) (hg : m.Grows before d.types e.types) {x y : Id}
    (hs : SameStruct m.name d.types x y) : SameStruct m.name e.types x y :=
  hs.imp_right fun ⟨hn, hv⟩ => ⟨hn, hg.verdict h.known hv⟩

theorem Classified.described_grows (h : m.Classified before d)
    (hg : m.Grows before d.types e.types) {x : Id} (hx : x ∈ m.declaredStructs before) :
    ∃ t, e.types.get? x = some t := by
  rw [hg.agree.get? x (settled_of_mem_declaredStructs hx)]
  exact h.described x hx

/-- An instruction that declares no struct and leaves the roots. -/
theorem Classified.step_other (h : m.Classified before d) (ho : i.opcode ≠ "OpTypeStruct")
    (hg : m.Grows before d.types e.types) (hk : m.Known (before ++ [i]) e.types)
    (hr : e.roots = d.roots) : m.Classified (before ++ [i]) e := by
  have hs := declaredStructs_append_other m before ho
  refine ⟨hk, ?_, ?_, ?_, ?_⟩
  · intro x hx
    rw [hs] at hx
    exact h.described_grows hg hx
  · rw [hr, hs]
    exact h.roots
  · rw [hr]
    exact h.apart.imp fun hv hn => hg.verdict h.known (hv hn)
  · rw [hr, hs]
    intro x hx hn
    obtain ⟨hm, hsame, hle⟩ := h.classes x hx hn
    rw [hg.root_eq hx]
    exact ⟨hm, h.same hg hsame, hle⟩

/-- A new struct, of which it is known how it relates to the roots. -/
theorem Classified.step_struct (h : m.Classified before d) {x : Id}
    (hx : ¬ m.Settled before x)
    (hs : m.declaredStructs (before ++ [i]) = m.declaredStructs before ++ [x])
    (hg : m.Grows before d.types e.types) (hk : m.Known (before ++ [i]) e.types)
    (hd : ∃ t, e.types.get? x = some t) (hsub : d.roots ⊆ e.roots)
    (hroots : ∀ r ∈ e.roots, r ∈ d.roots ∨ r = x)
    (hapart : e.roots.Pairwise fun r r' => m.name r = m.name r' → Verdict e.types false r r')
    (hclass : m.name x ≠ "" → e.root x ∈ e.roots ∧ SameStruct m.name e.types x (e.root x)) :
    m.Classified (before ++ [i]) e := by
  have hnew : x ∉ m.declaredStructs before := fun hm => hx (settled_of_mem_declaredStructs hm)
  have hin : ∀ r ∈ e.roots, r ∈ m.declaredStructs before ++ [x] := by
    intro r hr
    rcases hroots r hr with hr | rfl
    · exact List.mem_append_left _ (h.roots r hr)
    · simp
  refine ⟨hk, ?_, ?_, hapart, ?_⟩
  · rw [hs]
    intro y hy
    rcases List.mem_append.mp hy with hy | hy
    · exact h.described_grows hg hy
    · rw [List.mem_singleton.mp hy]
      exact hd
  · rw [hs]
    exact hin
  · rw [hs]
    intro y hy hn
    rcases List.mem_append.mp hy with hy | hy
    · obtain ⟨hm, hsame, hle⟩ := h.classes y hy hn
      rw [hg.root_eq hy, List.idxOf_append_of_mem (h.roots _ hm), List.idxOf_append_of_mem hy]
      exact ⟨hsub hm, h.same hg hsame, hle⟩
    · obtain rfl := List.mem_singleton.mp hy
      obtain ⟨hm, hsame⟩ := hclass hn
      refine ⟨hm, hsame, ?_⟩
      have hlt := List.idxOf_lt_length_of_mem (hin _ hm)
      rw [List.idxOf_append_of_notMem hnew, List.idxOf_cons_self]
      rw [List.length_append, List.length_singleton] at hlt
      omega

theorem declare_roots (ho : i.opcode ≠ "OpTypeStruct") (h : d.declare i = .ok e) :
    e.roots = d.roots := by
  have hd := declare_ok h
  have hk := mt ofName_eq_struct_iff.mp ho
  generalize Opcode.ofName i.opcode = o at hd hk
  cases hd with
  | type ht =>
    obtain ⟨_, _, _, _, _, -, rfl, hr⟩ := declareType_frame ht
    exact hr fun he => hk (congrArg _ he)
  | _ => rfl

/-- The members of a struct are settled where all members come before their struct. -/
theorem settled_of_members (first : MembersFirst (before ++ i :: after))
    (ho : i.opcode = "OpTypeStruct") {ids : List String} (hp : ids <+: m.ids) {members : List Id}
    (hm : List.Forall₂ (fun n y => idOf? { d with ids } n = some y) (idNames i.operands) members) :
    ∀ y ∈ members, m.Settled before y := by
  have hall : ∀ n ∈ idNames i.operands, n ∈ typeResults before := by
    have hk := first ⟨before.length, by simp⟩
    simp only [Fin.getElem_fin, List.getElem_append_right, Nat.le_refl, Nat.sub_self,
      List.getElem_cons_zero, List.take_left] at hk
    exact hk ho
  clear first
  generalize idNames i.operands = names at hall hm
  induction hm with
  | nil => simp
  | cons hy _ ih =>
    rw [List.forall_mem_cons] at hall ⊢
    exact ⟨⟨_, hall.1, idOf?_mono (d := { d with ids }) hp hy⟩, ih hall.2⟩

/-- Names stay as they are from the declaration of a struct on. -/
theorem name_eq_of_namesFirst (namesFirst : (before ++ i :: after).Pairwise fun i j =>
      isTypeDeclaration i = true → j.opcode ≠ "OpName")
    (ho : i.opcode = "OpTypeStruct") (h : d.declare i = .ok e) (hm : e.declareAll after = .ok m) :
    m.name = d.name := by
  have hi := isTypeDeclaration_of_ofName (ofName_eq_struct_iff.mpr ho)
  have hlate := (List.pairwise_cons.mp (List.pairwise_append.mp namesFirst).2.1).1
  have hnone : ∀ j ∈ i :: after, j.opcode ≠ "OpName" := by
    rw [List.forall_mem_cons]
    exact ⟨by rw [ho]; decide, fun j hj => hlate j hj hi⟩
  have hrun : d.declareAll (i :: after) = .ok m := bind_eq_ok.mpr ⟨e, h, hm⟩
  funext y
  unfold Declarations.name
  rw [names_declareAll hrun hnone]

theorem Classified.step_declare_struct (order : InOrder (before ++ i :: after))
    (ho : i.opcode = "OpTypeStruct") (h : d.declare i = .ok e) (hm : e.declareAll after = .ok m)
    (hc : m.Classified before d) : m.Classified (before ++ [i]) e := by
  have hi := isTypeDeclaration_of_ofName (ofName_eq_struct_iff.mpr ho)
  have hids := ids_declareAll hm
  have hnames := name_eq_of_namesFirst order.namesFirst ho h hm
  obtain ⟨ids, name, x, members, d₁, t, hp, hn, hid, hmem, hs, rfl⟩ := declare_struct_ok ho h
  obtain ⟨roots, aliasOf, hd₁, ht⟩ := hs.frame
  have hpm : ids <+: m.ids := by rwa [hd₁] at hids
  have hxm : m.idOf? name = some x := idOf?_mono (d := { d with ids }) hpm hid
  have hx := not_settled_of_once order.once hi hn hxm
  have hx' : m.Settled (before ++ [i]) x :=
    ⟨name, by rw [typeResults_append, typeResults_singleton hi hn]; simp, hxm⟩
  have hys := settled_of_members order.membersFirst ho hpm hmem
  have hg : m.Grows before d.types (d.types.set x t) := hc.known.grows_set hx
  have hk : m.Known (before ++ [i]) (d.types.set x t) := by
    refine hc.known.set hx hx' ?_
    rw [ht]
    exact hys
  -- An alias is compared in the same way as the struct that it was made of.
  have hverdict {r : Id} {u : TypeDescriptor} {v : Bool} (hu : d.types.get? r = some u)
      (hv : equivalent? d.types { baseType := .struct, selfId := x, members } u = some v) :
      Verdict (d.types.set x t) v x r := by
    refine ⟨t, u, Table.get?_set_self .., ?_, ?_⟩
    · rw [hg.agree.get? r (hc.known r u hu).1, hu]
    · have hsame : equivalent? (d.types.set x t) t u = equivalent? (d.types.set x t)
          { baseType := .struct, selfId := x, members } u := by
        rw [ht]
        rfl
      rw [hsame]
      exact hg.equivalent? hys (hc.known r u hu).2 hv
  have hroot : (d.types.set x t).get? x = some t := Table.get?_set_self ..
  have hlist := declaredStructs_append_struct m before ho hn hxm
  have happart : d.roots.Pairwise fun r r' =>
      m.name r = m.name r' → Verdict (d.types.set x t) false r r' :=
    hc.apart.imp fun hv hn => hg.verdict hc.known (hv hn)
  cases hs with
  | anonymous hempty =>
    refine hc.step_struct hx hlist hg hk ⟨_, hroot⟩ (List.Subset.refl _) (fun r => .inl) happart ?_
    rw [hnames]
    exact fun hn => absurd hempty hn
  | aliased hnon hf =>
    obtain ⟨hr, hrn, u, hu, hv⟩ := findRoot_eq_some hf
    refine hc.step_struct hx hlist hg hk ⟨_, hroot⟩ (List.Subset.refl _) (fun r => .inl) happart ?_
    intro _
    unfold Declarations.root
    rw [hroot]
    refine ⟨hr, .inr ⟨?_, hverdict hu hv⟩⟩
    rw [hnames]
    exact ((names_get?_eq_some_iff hnon).mp hrn).symm
  | root hnon hf =>
    refine hc.step_struct hx hlist hg hk ⟨_, hroot⟩ (List.subset_append_left ..) ?_ ?_ ?_
    · intro r hr
      rwa [List.mem_append, List.mem_singleton] at hr
    · refine List.pairwise_append.mpr ⟨happart, List.pairwise_singleton .., ?_⟩
      intro r hr y hy hn
      obtain rfl := List.mem_singleton.mp hy
      obtain ⟨u, hu⟩ := hc.described r (hc.roots r hr)
      rw [hnames] at hn
      exact (hverdict hu (findRoot_eq_none hf hr ((names_get?_eq_some_iff hnon).mpr hn) hu)).symm
    · intro _
      unfold Declarations.root
      rw [hroot]
      exact ⟨List.mem_append_right _ List.mem_cons_self, .inl rfl⟩

theorem Classified.step (order : InOrder (before ++ i :: after)) (h : d.declare i = .ok e)
    (hm : e.declareAll after = .ok m) (hc : m.Classified before d) :
    m.Classified (before ++ [i]) e := by
  by_cases ho : i.opcode = "OpTypeStruct"
  · exact hc.step_declare_struct order ho h hm
  · have hr := declare_roots ho h
    rcases declare_types_once order.once h hm with hsame | ⟨kind, x, t, hk, hx, hx', hd, he⟩
    · refine hc.step_other ho ?_ ?_ hr
      · rw [hsame]
        exact hc.known.grows_refl
      · rw [hsame]
        exact hc.known.append [i]
    · have hmembers : ∀ y ∈ t.members, m.Settled before y := by
        have hne : kind ≠ .struct := by
          rintro rfl
          exact ho (ofName_eq_struct_iff.mp hk)
        rcases hd.members hne with hnil | ⟨c, u, hc', hu⟩
        · simp [hnil]
        · rw [hu]
          exact (hc.known c u hc').2
      refine hc.step_other ho ?_ ?_ hr
      · rw [he]
        exact hc.known.grows_set hx
      · rw [he]
        exact hc.known.set hx hx' hmembers

end Step

private theorem classified_empty (m : Declarations) : m.Classified [] empty where
  known := fun _ _ h => by cases h
  described := fun _ h => by cases h
  roots := fun _ h => by cases h
  apart := .nil
  classes := fun _ h => by cases h

/-- Two named structs have the same root iff they are the same, and the root of a struct is the
first that is the same as the struct. -/
theorem root_eq_iff_sameStruct {is : List Instruction} {d : Declarations}
    (order : InOrder (moduleScope false is)) (h : ofInstructions is = .ok d) :
    (∀ x ∈ d.declaredStructs (moduleScope false is),
      ∀ y ∈ d.declaredStructs (moduleScope false is), d.name x ≠ "" → d.name y ≠ "" →
        (d.root x = d.root y ↔ SameStruct d.name d.types x y)) ∧
    ∀ x ∈ d.declaredStructs (moduleScope false is), d.name x ≠ "" →
      d.root x ∈ d.declaredStructs (moduleScope false is) ∧ SameStruct d.name d.types x (d.root x) ∧
      ∀ y ∈ d.declaredStructs (moduleScope false is), SameStruct d.name d.types x y →
        (d.declaredStructs (moduleScope false is)).idxOf (d.root x) ≤
          (d.declaredStructs (moduleScope false is)).idxOf y := by
  have hc : d.Classified (moduleScope false is) d :=
    declareAll_induction [] h (classified_empty d) fun before i after d₁ d₂ he hp h₁ h₂ =>
      hp.step (he ▸ order) h₁ h₂
  have hiff {x y : Id} (hx : x ∈ d.declaredStructs (moduleScope false is))
      (hy : y ∈ d.declaredStructs (moduleScope false is)) (hnx : d.name x ≠ "")
      (hny : d.name y ≠ "") : d.root x = d.root y ↔ SameStruct d.name d.types x y := by
    obtain ⟨hmx, hsx, -⟩ := hc.classes x hx hnx
    obtain ⟨hmy, hsy, -⟩ := hc.classes y hy hny
    constructor
    · intro hr
      rw [hr] at hsx
      exact hsx.trans hsy.symm
    · intro hs
      by_contra hne
      rcases hsx.symm.trans (hs.trans hsy) with hr | ⟨hn, hv⟩
      · exact hne hr
      · have hsymm : Std.Symm fun r r' => d.name r = d.name r' → Verdict d.types false r r' :=
          ⟨fun _ _ hv hn => (hv hn.symm).symm⟩
        exact absurd (hv.unique (hc.apart.forall hmx hmy hne hn)) (by decide)
  refine ⟨fun x hx y hy hnx hny => hiff hx hy hnx hny, fun x hx hn => ?_⟩
  obtain ⟨hm, hs, -⟩ := hc.classes x hx hn
  refine ⟨hc.roots _ hm, hs, fun y hy hxy => ?_⟩
  have hny : d.name y ≠ "" := by rwa [← hxy.name_eq]
  rw [(hiff hx hy hn hny).mpr hxy]
  exact (hc.classes y hy hny).2.2

/-- Three structs of one name: the second repeats the first, the third has one more member. -/
def lightsListing : List Instruction := [
  ⟨"OpName", [.id "light", .string "Light"], none, 1⟩,
  ⟨"OpName", [.id "copy", .string "Light"], none, 2⟩,
  ⟨"OpName", [.id "wide", .string "Light"], none, 3⟩,
  ⟨"OpTypeFloat", [.int 32], some "float", 4⟩,
  ⟨"OpTypeStruct", [.id "float"], some "light", 5⟩,
  ⟨"OpTypeStruct", [.id "float"], some "copy", 6⟩,
  ⟨"OpTypeStruct", [.id "float", .id "float"], some "wide", 7⟩]

theorem lights_root_eq : InOrder (moduleScope false lightsListing) ∧
    ∃ d, ofInstructions lightsListing = .ok d ∧
      d.declaredStructs (moduleScope false lightsListing) = [1, 2, 3] ∧
      d.root 1 = 1 ∧ d.root 2 = 1 ∧ d.root 3 = 3 ∧
      SameStruct d.name d.types 1 2 ∧ ¬ SameStruct d.name d.types 2 3 := by
  have order : InOrder (moduleScope false lightsListing) :=
    ⟨by decide +kernel, by decide +kernel, by decide +kernel⟩
  obtain ⟨d, hd, hs, h₁, h₂, h₃, hn⟩ := exists_ok_of_any (x := ofInstructions lightsListing)
    (p := fun d => d.declaredStructs (moduleScope false lightsListing) = [1, 2, 3] ∧
      d.root 1 = 1 ∧ d.root 2 = 1 ∧ d.root 3 = 3 ∧ [1, 2, 3].all (d.name · ≠ ""))
    (by decide +kernel)
  obtain ⟨hiff, -⟩ := root_eq_iff_sameStruct order hd
  rw [hs] at hiff
  have hn : d.name 1 ≠ "" ∧ d.name 2 ≠ "" ∧ d.name 3 ≠ "" := by simpa using hn
  refine ⟨order, d, hd, hs, h₁, h₂, h₃, ?_, ?_⟩
  · exact (hiff 1 (by simp) 2 (by simp) hn.1 hn.2.1).mp (h₁.trans h₂.symm)
  · intro h
    have hr := (hiff 2 (by simp) 3 (by simp) hn.2.1 hn.2.2).mpr h
    rw [h₂, h₃] at hr
    cases hr

end Declarations
end ShaderReflection.Module
