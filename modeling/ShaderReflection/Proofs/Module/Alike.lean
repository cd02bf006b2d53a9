import ShaderReflection.Proofs.Layout.SameLayout
import ShaderReflection.Proofs.Module.LikeTables
import ShaderReflection.Proofs.Module.Steps

/-! Modules that say the same about the same names, whatever the numbers of their ids. Such modules
compare types alike. -/
namespace ShaderReflection.Module

open Relator (BiUnique)

/-- Two descriptors that differ in their ids only. Aliases count where names do. -/
structure LikeType (named : Prop) (R : Id → Id → Prop) (t u : TypeDescriptor) : Prop where
  baseType : t.baseType = u.baseType
  width : t.width = u.width
  vecsize : t.vecsize = u.vecsize
  columns : t.columns = u.columns
  selfId : R t.selfId u.selfId
  array : t.array = u.array
  pointer : t.pointer = u.pointer
  members : List.Forall₂ R t.members u.members
  aliasOf : named → Option.Rel R t.aliasOf u.aliasOf

theorem LikeType.sameLayout {named : Prop} {R : Id → Id → Prop} {t u : TypeDescriptor}
    (h : LikeType named R t u) : SameLayout t u :=
  ⟨h.baseType, h.width, h.vecsize, h.columns, h.array⟩

theorem optionRel_imp {R S : α → β → Prop} (hRS : ∀ a b, R a b → S a b) {a : Option α}
    {b : Option β} (h : Option.Rel R a b) : Option.Rel S a b := by
  cases h with
  | some hr => exact .some (hRS _ _ hr)
  | none => exact .none

theorem LikeType.mono {named : Prop} {R S : Id → Id → Prop} (hRS : ∀ x y, R x y → S x y)
    {t u : TypeDescriptor} (h : LikeType named R t u) : LikeType named S t u where
  baseType := h.baseType
  width := h.width
  vecsize := h.vecsize
  columns := h.columns
  selfId := hRS _ _ h.selfId
  array := h.array
  pointer := h.pointer
  members := h.members.imp hRS
  aliasOf := fun hn => optionRel_imp hRS (h.aliasOf hn)

/-- Two modules whose facts are the same about related ids. Where names do not count, the second
module has none. Variables are left out. -/
structure AlikeBy (named : Prop) (R : Id → Id → Prop) (d e : Declarations) : Prop where
  names : named → LikeTable R Eq d.names e.names
  memberNames : named → LikeTable (SameKey R) Eq d.memberNames e.memberNames
  noNames : ¬named → ∀ x, e.names.get? x = none
  noMemberNames : ¬named → ∀ k, e.memberNames.get? k = none
  decorations : LikeTable (SameKey R) Eq d.decorations e.decorations
  memberDecorations : LikeTable (SameKey R) Eq d.memberDecorations e.memberDecorations
  types : LikeEntries R (LikeType named R) d.types e.types
  pointees : LikeTable R R d.pointees e.pointees
  imageSampled : LikeTable R Eq d.imageSampled e.imageSampled
  constants : LikeTable R Eq d.constants e.constants
  entryPoints : d.entryPoints = e.entryPoints
  roots : named → List.Forall₂ R d.roots e.roots

def Alike (named : Prop) (d e : Declarations) : Prop := AlikeBy named (SameId d.ids e.ids) d e

theorem AlikeBy.mono {named : Prop} {R S : Id → Id → Prop} (hRS : ∀ x y, R x y → S x y)
    {d e : Declarations} (h : AlikeBy named R d e) : AlikeBy named S d e := by
  have hkey {α : Type} (k k' : Id × α) (hk : SameKey R k k') : SameKey S k k' :=
    ⟨hRS _ _ hk.1, hk.2⟩
  exact {
    names := fun hn => (h.names hn).mono hRS fun _ _ => id
    memberNames := fun hn => (h.memberNames hn).mono hkey fun _ _ => id
    noNames := h.noNames
    noMemberNames := h.noMemberNames
    decorations := h.decorations.mono hkey fun _ _ => id
    memberDecorations := h.memberDecorations.mono hkey fun _ _ => id
    types := h.types.mono hRS fun _ _ => LikeType.mono hRS
    pointees := h.pointees.mono hRS hRS
    imageSampled := h.imageSampled.mono hRS fun _ _ => id
    constants := h.constants.mono hRS fun _ _ => id
    entryPoints := h.entryPoints
    roots := fun hn => (h.roots hn).imp hRS }

theorem alike_empty (named : Prop) : Alike named .empty .empty where
  names := fun _ => .empty
  memberNames := fun _ => .empty
  noNames := fun _ _ => rfl
  noMemberNames := fun _ _ => rfl
  decorations := .empty
  memberDecorations := .empty
  types := .nil
  pointees := .empty
  imageSampled := .empty
  constants := .empty
  entryPoints := rfl
  roots := fun _ => .nil

/-- Modules that are alike stay so when they give out more ids. -/
theorem Alike.ids {named : Prop} {d e : Declarations} (h : Alike named d e) {ns ms : List String}
    (hn : d.ids <+: ns) (hm : e.ids <+: ms) :
    Alike named { d with ids := ns } { e with ids := ms } := by
  have hs := AlikeBy.mono (fun x y hxy => SameId.mono hxy hn hm) h
  exact { hs with }

section Comparison

variable {named : Prop} {R : Id → Id → Prop} {types types' : Table Id TypeDescriptor}

private theorem everyEnds_eq_of_forall₂ {p : α → Option Bool} {q : β → Option Bool} {xs : List α}
    {ys : List β} (h : List.Forall₂ (fun x y => p x = q y) xs ys) :
    everyEnds p xs = everyEnds q ys := by
  induction h with
  | nil => rfl
  | cons hxy _ ih =>
    unfold everyEnds
    rw [hxy, ih]

theorem LikeType.sameShape {t t' u u' : TypeDescriptor} (h : LikeType named R t u)
    (h' : LikeType named R t' u') : sameShape t t' = sameShape u u' := by
  unfold Module.sameShape
  rw [h.baseType, h.width, h.vecsize, h.columns, h.array, h.members.length_eq, h'.baseType,
    h'.width, h'.vecsize, h'.columns, h'.array, h'.members.length_eq]

/-- Types that are alike are compared with the same verdict. -/
theorem equivalentTo?_of_like
    (hg : ∀ x y, R x y → Option.Rel (LikeType named R) (types.get? x) (types'.get? y))
    {t t' u u' : TypeDescriptor} (h : LikeType named R t u) (h' : LikeType named R t' u') (n : Nat) :
    equivalentTo? types n t t' = equivalentTo? types' n u u' := by
  induction n generalizing t t' u u' with
  | zero => rfl
  | succ n ih =>
    rw [equivalentTo?_succ, equivalentTo?_succ, h.sameShape h']
    refine if_congr Iff.rfl (everyEnds_eq_of_forall₂ ?_) rfl
    refine (zip_of_related h.members h'.members).imp fun p q ⟨hp, hq⟩ => ?_
    unfold membersTo?
    have h₁ := hg _ _ hp
    have h₂ := hg _ _ hq
    generalize types.get? p.1 = a₁ at h₁ ⊢
    generalize types'.get? q.1 = b₁ at h₁ ⊢
    generalize types.get? p.2 = a₂ at h₂ ⊢
    generalize types'.get? q.2 = b₂ at h₂ ⊢
    cases h₁ with
    | none => rfl
    | some h₁ =>
      cases h₂ with
      | none => rfl
      | some h₂ => exact ih h₁ h₂

theorem compoundCount_of_like (h : LikeEntries R (LikeType named R) types types') :
    compoundCount types = compoundCount types' := by
  unfold LikeEntries at h
  unfold compoundCount Table.values
  generalize types.entries = es at h ⊢
  generalize types'.entries = fs at h ⊢
  induction h with
  | nil => rfl
  | @cons p q _ _ hp _ ih =>
    have hm : p.2.members.isEmpty = q.2.members.isEmpty := by
      rw [Bool.eq_iff_iff, List.isEmpty_iff_length_eq_zero, List.isEmpty_iff_length_eq_zero,
        hp.2.members.length_eq]
    rw [List.map_cons, List.map_cons, List.filter_cons, List.filter_cons, hm]
    split
    · rw [List.length_cons, List.length_cons, ih]
    · exact ih

theorem equivalent?_of_like (hb : BiUnique R) (h : LikeEntries R (LikeType named R) types types')
    {t t' u u' : TypeDescriptor} (ht : LikeType named R t u) (ht' : LikeType named R t' u') :
    equivalent? types t t' = equivalent? types' u u' := by
  unfold equivalent?
  rw [compoundCount_of_like h]
  exact equivalentTo?_of_like (fun _ _ hxy => h.get? hb hxy) ht ht' _

end Comparison

end ShaderReflection.Module
