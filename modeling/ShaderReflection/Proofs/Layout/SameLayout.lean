import Mathlib.Data.List.Forall2
import ShaderReflection.Layout.StructLayout

/-! What a layout reads of the types of members. Two structs whose members agree on it in pairs, and
whose declared member names are the same, get the same fields. -/
namespace ShaderReflection

/-- Two types that agree on everything that a layout reads. -/
structure SameLayout (t u : TypeDescriptor) : Prop where
  baseType : t.baseType = u.baseType
  width : t.width = u.width
  vecsize : t.vecsize = u.vecsize
  columns : t.columns = u.columns
  array : t.array = u.array

namespace SameLayout

variable {t u : TypeDescriptor}

theorem isStruct (h : SameLayout t u) : t.isStruct = u.isStruct := by
  unfold TypeDescriptor.isStruct
  rw [h.baseType]

theorem naturalSize (h : SameLayout t u) : t.naturalSize = u.naturalSize := by
  unfold TypeDescriptor.naturalSize
  rw [h.width, h.vecsize, h.columns]

theorem isFloat32Vector (h : SameLayout t u) (size : Int) :
    t.isFloat32Vector size = u.isFloat32Vector size := by
  unfold TypeDescriptor.isFloat32Vector
  rw [h.baseType, h.width, h.columns, h.vecsize]

theorem memberClass (h : SameLayout t u) : MemberClass.ofType t = MemberClass.ofType u := by
  have hm : t.isFloat32Matrix = u.isFloat32Matrix := by
    unfold TypeDescriptor.isFloat32Matrix
    rw [h.baseType, h.width, h.columns, h.vecsize, h.array]
  unfold MemberClass.ofType
  rw [hm, h.isFloat32Vector, h.isFloat32Vector, h.isFloat32Vector, h.baseType, h.columns,
    h.vecsize, h.width, h.naturalSize]

end SameLayout

section Members

variable {ts us : List TypeDescriptor}

theorem entriesFrom_of_sameLayout (index : Nat) (h : List.Forall₂ SameLayout ts us) :
    entriesFrom index ts = entriesFrom index us := by
  induction h generalizing index with
  | nil => rfl
  | cons ht _ ih => rw [entriesFrom, entriesFrom, ht.memberClass, ih]

theorem map_naturalSize_of_sameLayout (h : List.Forall₂ SameLayout ts us) :
    ts.map (·.naturalSize) = us.map (·.naturalSize) := by
  induction h with
  | nil => rfl
  | cons ht _ ih => rw [List.map_cons, List.map_cons, ht.naturalSize, ih]

end Members

namespace Shader

variable {s s' : Shader} {x y : Id}

/-- The names of fields depend on the declared names of members only. -/
theorem nameEntries_congr (h : s.declaredName? x = s'.declaredName? y) (es : List Entry)
    (n : Namer) : s.nameEntries x n es = s'.nameEntries y n es := by
  induction es generalizing n with
  | nil => rfl
  | cons e es ih =>
    have hname (m : Namer) : s.memberName x e.index e.block.suffix m =
        s'.memberName y e.index e.block.suffix m := by
      unfold memberName
      rw [h]
    unfold nameEntries
    simp only [hname, ih]

theorem layOut_congr (h : s.declaredName? x = s'.declaredName? y) {ts us : List TypeDescriptor}
    (hts : List.Forall₂ SameLayout ts us) (n : Namer) : s.layOut x ts n = s'.layOut y us n := by
  unfold layOut
  rw [entriesFrom_of_sameLayout 0 hts, nameEntries_congr h]

end Shader
end ShaderReflection
