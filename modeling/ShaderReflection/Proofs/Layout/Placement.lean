import ShaderReflection.Layout.StructLayout
import ShaderReflection.Proofs.RelatedLists

/-! Where the fields of a struct lie: back to back, with the lengths of the blocks they are made
from, one run of fields for each member. -/
namespace ShaderReflection

def Contiguous (offset : Int) : List StructMember → Prop
  | [] => True
  | m :: ms => m.offset = offset ∧ Contiguous (offset + m.byteLength) ms

theorem contiguous_place (offset : Int) (bs : List NamedBlock) :
    Contiguous offset (place offset bs) := by
  induction bs generalizing offset with
  | nil => exact trivial
  | cons b bs ih => exact ⟨rfl, ih _⟩

@[simp] theorem map_byteLength_place (offset : Int) (bs : List NamedBlock) :
    (place offset bs).map (·.byteLength) = bs.map (·.byteLength) := by
  induction bs generalizing offset with
  | nil => rfl
  | cons b bs ih => simp [place, ih]

@[simp] theorem map_name_place (offset : Int) (bs : List NamedBlock) :
    (place offset bs).map (·.name) = bs.map (·.name) := by
  induction bs generalizing offset with
  | nil => rfl
  | cons b bs ih => simp [place, ih]

theorem map_type_place (offset : Int) (bs : List NamedBlock) :
    (place offset bs).map (fun m => some m.type) = bs.map (fun b => some b.type) := by
  induction bs generalizing offset with
  | nil => rfl
  | cons b bs ih => simp [place, ih]

theorem place_append (offset : Int) (bs cs : List NamedBlock) :
    place offset (bs ++ cs) =
      place offset bs ++ place (offset + total (bs.map (·.byteLength))) cs := by
  induction bs generalizing offset with
  | nil => simp [place]
  | cons b bs ih => simp [place, ih, Int.add_assoc]

theorem total_perm {ms ns : List Int} (h : ms.Perm ns) : total ms = total ns := by
  induction h with
  | nil => rfl
  | cons n _ ih => rw [total_cons, total_cons, ih]
  | swap m n ns =>
    simp only [total_cons]
    omega
  | trans _ _ ih ih' => exact ih.trans ih'

theorem total_nonneg {ns : List Int} (h : ∀ n ∈ ns, 0 ≤ n) : 0 ≤ total ns := by
  induction ns with
  | nil => exact Int.le_refl 0
  | cons n ns ih =>
    have hn := h n List.mem_cons_self
    have hns := ih fun n hn => h n (List.mem_cons_of_mem _ hn)
    rw [total_cons]
    omega

theorem le_total_of_mem {ns : List Int} (h : ∀ n ∈ ns, 0 ≤ n) {n : Int} (hn : n ∈ ns) :
    n ≤ total ns := by
  obtain ⟨before, after, rfl⟩ := List.append_of_mem hn
  have hbefore := total_nonneg fun n hn => h n (List.mem_append_left _ hn)
  have hafter := total_nonneg fun n hn => h n (List.mem_append_right _ (List.mem_cons_of_mem _ hn))
  rw [total_append, total_cons]
  omega

/-- A field lies where the lengths of the fields before it end. -/
theorem getElem?_place (offset : Int) (bs : List NamedBlock) (j : Nat) :
    (place offset bs)[j]? = bs[j]?.map fun b =>
      ⟨b.name, b.type, offset + total ((bs.take j).map (·.byteLength)), b.byteLength⟩ := by
  induction bs generalizing offset j with
  | nil => rfl
  | cons b bs ih =>
    cases j with
    | zero => simp [place]
    | succ j => simp [place, ih, Int.add_assoc]

/-- A field has the length of a block, and the text of its type. -/
def Writes (b : Block) (n : NamedBlock) : Prop :=
  b.type.text = some n.type ∧ n.byteLength = b.byteLength

theorem map_byteLength_of_writes {bs : List Block} {ns : List NamedBlock}
    (h : List.Forall₂ Writes bs ns) : ns.map (·.byteLength) = bs.map (·.byteLength) := by
  induction h with
  | nil => rfl
  | cons h _ ih => rw [List.map_cons, List.map_cons, ih, h.2]

theorem map_type_of_writes {bs : List Block} {ns : List NamedBlock}
    (h : List.Forall₂ Writes bs ns) : ns.map (fun n => some n.type) = bs.map (·.type.text) := by
  induction h with
  | nil => rfl
  | cons h _ ih => rw [List.map_cons, List.map_cons, ih, h.1]

/-- Each part of a struct comes from one of its members. -/
theorem exists_of_mem_entriesFrom {ts : List TypeDescriptor} {index : Nat} {e : Entry}
    (he : e ∈ entriesFrom index ts) : ∃ t ∈ ts, e.block ∈ (MemberClass.ofType t).blocks := by
  induction ts generalizing index with
  | nil => cases he
  | cons t ts ih =>
    rcases List.mem_append.mp he with he | he
    · obtain ⟨b, hb, rfl⟩ := List.mem_map.mp he
      exact ⟨t, List.mem_cons_self, hb⟩
    · obtain ⟨u, hu, hb⟩ := ih he
      exact ⟨u, List.mem_cons_of_mem _ hu, hb⟩

namespace Shader

variable {s : Shader}

/-- The parts of a struct are named one after another: one is written with its name, and the namer
that is left names the rest. -/
theorem nameEntries_cons_iff {id : Id} {n n' : Namer} {e : Entry} {es : List Entry}
    {ns : List NamedBlock} :
    s.nameEntries id n (e :: es) = (some ns, n') ↔
      ∃ name type rest m, e.block.type.text = some type ∧
        s.memberName id e.index e.block.suffix n = (some name, m) ∧
        s.nameEntries id m es = (some rest, n') ∧
        ns = ⟨name, type, e.block.byteLength⟩ :: rest := by
  constructor
  · intro h
    unfold nameEntries at h
    split at h
    · cases h
    case h_2 type htype =>
      split at h
      · cases h
      case h_2 name m hname =>
        obtain ⟨hns, hn⟩ := Prod.mk.inj h
        obtain ⟨rest, hrest, rfl⟩ := Option.map_eq_some_iff.mp hns
        exact ⟨name, type, rest, m, htype, hname, Prod.ext hrest hn, rfl⟩
  · rintro ⟨name, type, rest, m, htype, hname, hrest, rfl⟩
    unfold nameEntries
    rw [htype]
    dsimp only
    rw [hname]
    dsimp only
    rw [hrest]
    rfl

theorem nameEntries_writes {id : Id} {namer namer' : Namer} {es : List Entry}
    {ns : List NamedBlock} (h : s.nameEntries id namer es = (some ns, namer')) :
    List.Forall₂ Writes (es.map (·.block)) ns := by
  induction es generalizing namer ns with
  | nil =>
    cases h
    exact .nil
  | cons e es ih =>
    obtain ⟨name, type, rest, m, htype, -, hrest, rfl⟩ := nameEntries_cons_iff.mp h
    exact .cons ⟨htype, rfl⟩ (ih hrest)

theorem resolveAll_eq_iff {ms : List Id} {ts : List TypeDescriptor} :
    s.resolveAll ms = (ts, none) ↔ ms.map s.type? = ts.map some := by
  induction ms generalizing ts with
  | nil =>
    constructor
    · intro h
      cases h
      rfl
    · intro h
      rw [List.map_eq_nil_iff.mp h.symm]
      rfl
  | cons m ms ih =>
    unfold resolveAll
    split
    case h_1 hm => cases ts <;> simp [hm]
    case h_2 t hm =>
      constructor
      · intro h
        obtain ⟨rfl, hn⟩ := Prod.mk.inj h
        rw [List.map_cons, List.map_cons, hm, ih.mp (Prod.ext rfl hn)]
      · intro h
        cases ts with
        | nil => cases h
        | cons u us =>
          obtain ⟨hu, hs⟩ := List.cons.inj h
          obtain rfl : t = u := Option.some.inj (hm.symm.trans hu)
          rw [ih.mpr hs]

/-- A struct that has a definition is one whose members are all known and whose parts were all
named. -/
theorem structDefinition_ok {id : Id} {namer namer' : Namer} {d : StructDefinition}
    (h : s.structDefinition id namer = (.ok d, namer')) :
    ∃ t ts ns, s.type? id = some t ∧ t.isStruct = true ∧ t.members.map s.type? = ts.map some ∧
      s.nameEntries id namer (entriesFrom 0 ts) = (some ns, namer') ∧
      d = { name := s.name id, byteLength := total (ts.map (·.naturalSize)),
            members := place 0 ns } := by
  unfold structDefinition at h
  split at h
  · cases h
  case h_2 t ht =>
    obtain ⟨ht, hs⟩ := Option.filter_eq_some_iff.mp ht
    dsimp only at h
    split at h
    · cases h
    · split at h
      · cases h
      case h_2 ts hr =>
        unfold layOut at h
        cases hn : s.nameEntries id namer (entriesFrom 0 ts) with
        | mk named namer₁ =>
          rw [hn] at h
          cases named with
          | none => cases h
          | some ns =>
            cases h
            exact ⟨t, ts, ns, ht, hs, resolveAll_eq_iff.mp hr, hn, rfl⟩

end Shader
end ShaderReflection
