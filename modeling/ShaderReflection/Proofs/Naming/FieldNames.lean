import ShaderReflection.Module.Slots
import ShaderReflection.Proofs.Module.Steps
import ShaderReflection.Proofs.Reflection.Unwritable

/-! Names of the fields of one struct. They come from three sources: declared names, declared names
with the suffix for padding, and numbered names. Names of one source never meet. A suffix only keeps
the two fields of one member apart, so that names of different sources may. -/
namespace ShaderReflection

def TypeDescriptor.isPadded (t : TypeDescriptor) : Bool :=
  (MemberClass.ofType t).blocks.any (·.suffix = "_pad")

theorem map_suffix_blocks (t : TypeDescriptor) :
    (MemberClass.ofType t).blocks.map (·.suffix) = if t.isPadded then ["", "_pad"] else [""] := by
  unfold TypeDescriptor.isPadded
  cases MemberClass.ofType t with
  | composite host | bytes count => rfl
  | single host padding => by_cases hp : padding = 0 <;> simp [MemberClass.blocks, hp]

namespace Shader

def declaredNames (s : Shader) (id : Id) (ms : List (TypeDescriptor × Nat)) : List String :=
  ms.filterMap fun m => s.declaredName? id m.2

/-- What fields of padding are called that belong to members with declared names. -/
def paddingNames (s : Shader) (id : Id) (ms : List (TypeDescriptor × Nat)) : List String :=
  (s.declaredNames id (ms.filter (·.1.isPadded))).map (· ++ "_pad")

/-- No member is declared with the name that padding of another one gets. -/
def PaddingApart (s : Shader) (id : Id) (ts : List TypeDescriptor) : Prop :=
  (s.declaredNames id ts.zipIdx).Disjoint (s.paddingNames id ts.zipIdx)

/-- No declared name, and no name that padding gets from it, is one that the namer hands out for
another field. -/
def NumbersApart (s : Shader) (id : Id) (ts : List TypeDescriptor) (n : Namer) : Prop :=
  (s.declaredNames id ts.zipIdx ++ s.paddingNames id ts.zipIdx).Disjoint (s.memberNames id n)

section Names

variable {s : Shader} {id : Id}

/-- A field has a declared name with a suffix, or one that the namer hands out. -/
theorem map_name_nameEntries_perm {n n' : Namer} {es : List Entry} {bs : List NamedBlock}
    (h : s.nameEntries id n es = (some bs, n')) :
    (bs.map (·.name)).Perm
      ((es.filterMap fun e => (s.declaredName? id e.index).map (· ++ e.block.suffix)) ++
        s.takenNames id n es) := by
  induction es generalizing n bs with
  | nil =>
    cases h
    exact .nil
  | cons e es ih =>
    obtain ⟨name, type, rest, m, htype, hname, hrest, rfl⟩ := nameEntries_cons_iff.mp h
    have hrun := ih hrest
    rw [s.takenNames_cons htype hname]
    unfold memberName at hname
    unfold takenName
    cases hd : s.declaredName? id e.index with
    | some declared =>
      simp only [hd, Prod.mk.injEq, Option.some.injEq] at hname
      rw [List.filterMap_cons_some (by rw [hd]; rfl), List.map_cons, ← hname.1]
      exact hrun.cons _
    | none =>
      simp only [hd] at hname
      rw [List.filterMap_cons_none (by rw [hd]; rfl), List.map_cons, hname]
      exact (hrun.cons _).trans List.perm_middle.symm

/-- What padding of a member is called, if it takes any. -/
private theorem paddingNames_cons (t : TypeDescriptor) (index : Nat)
    (ms : List (TypeDescriptor × Nat)) :
    s.paddingNames id ((t, index) :: ms) =
      (if t.isPadded then (s.declaredName? id index).toList.map (· ++ "_pad") else []) ++
        s.paddingNames id ms := by
  unfold paddingNames declaredNames
  cases hp : t.isPadded with
  | false => simp [hp]
  | true => cases hd : s.declaredName? id index <;> simp [hp, hd]

private theorem declaredNames_cons (t : TypeDescriptor) (index : Nat)
    (ms : List (TypeDescriptor × Nat)) :
    s.declaredNames id ((t, index) :: ms) =
      (s.declaredName? id index).toList ++ s.declaredNames id ms := by
  unfold declaredNames
  cases hd : s.declaredName? id index <;> simp [hd]

/-- One member gives its declared name to a field, and to one of padding if it takes any. -/
private theorem filterMap_memberEntries (t : TypeDescriptor) (index : Nat) :
    ((MemberClass.ofType t).blocks.map (Entry.mk index)).filterMap
        (fun e => (s.declaredName? id e.index).map (· ++ e.block.suffix)) =
      (s.declaredName? id index).toList ++
        if t.isPadded then (s.declaredName? id index).toList.map (· ++ "_pad") else [] := by
  rw [List.filterMap_map]
  cases hd : s.declaredName? id index with
  | none => simp [hd]
  | some name =>
    have hsuffix := congrArg (List.map (name ++ ·)) (map_suffix_blocks t)
    rw [List.map_map] at hsuffix
    simp only [Function.comp_def, hd, Option.map_some, List.filterMap_eq_map']
    rw [← Function.comp_def, hsuffix]
    cases t.isPadded <;> simp

theorem filterMap_entriesFrom_perm (index : Nat) (ts : List TypeDescriptor) :
    ((entriesFrom index ts).filterMap fun e =>
        (s.declaredName? id e.index).map (· ++ e.block.suffix)).Perm
      (s.declaredNames id (ts.zipIdx index) ++ s.paddingNames id (ts.zipIdx index)) := by
  induction ts generalizing index with
  | nil => exact .nil
  | cons t ts ih =>
    unfold entriesFrom
    rw [List.filterMap_append, filterMap_memberEntries, List.zipIdx_cons, declaredNames_cons,
      paddingNames_cons, List.append_assoc, List.append_assoc]
    exact (((ih (index + 1)).append_left _).trans (List.perm_append_comm_assoc ..)).append_left _

/-- Names of one source never meet, so that only those of different sources are to be compared. -/
theorem nodup_fieldNames_iff {n n' : Namer} {ts : List TypeDescriptor} {bs : List NamedBlock}
    (h : s.nameEntries id n (entriesFrom 0 ts) = (some bs, n'))
    (hd : (s.declaredNames id ts.zipIdx).Nodup) :
    (bs.map (·.name)).Nodup ↔ s.PaddingApart id ts ∧
      (s.declaredNames id ts.zipIdx ++ s.paddingNames id ts.zipIdx).Disjoint
        (s.takenNames id n (entriesFrom 0 ts)) := by
  have hpads : (s.paddingNames id ts.zipIdx).Nodup := by
    have hsub := (List.filter_sublist (p := fun m => m.1.isPadded) (l := ts.zipIdx)).filterMap
      fun m => s.declaredName? id m.2
    exact (hd.sublist hsub).map fun _ _ he => (String.append_left_inj _).mp he
  have htaken : (s.takenNames id n (entriesFrom 0 ts)).Nodup :=
    (s.handsOut_nameEntries id n fun _ he => noDigitHead_entriesFrom he).nodup
  have hperm := (map_name_nameEntries_perm h).trans
    ((filterMap_entriesFrom_perm 0 ts).append_right _)
  rw [hperm.nodup_iff, List.nodup_append', List.nodup_append']
  unfold PaddingApart
  tauto

end Names

end Shader

/-- The names of the fields of a struct are pairwise distinct just if no name of padding is the
declared name of another member, and no number is handed out that is taken. The members have
different declared names, if any. A struct has no fields only where a number cannot be written. -/
theorem readMembers_names_nodup_iff {s : Shader} {id : Id} {t : TypeDescriptor}
    {ts : List TypeDescriptor} (h : s.Readable id t ts)
    (hd : (s.declaredNames id ts.zipIdx).Nodup) (n : Namer) :
    (∃ members, (s.readMembers id n).1 = .ok members ∧
      ((members.map (·.name)).Nodup ↔ s.PaddingApart id ts ∧ s.NumbersApart id ts n)) ∨
    ((s.readMembers id n).1 = .error .unwritable ∧
      ((∃ u ∈ ts, u.Oversized) ∨ Overflows n (s.readMembers id n).2)) := by
  rw [h.readMembers_eq]
  cases hl : s.layOut id ts n with
  | mk members? n' =>
    cases members? with
    | none => exact .inr ⟨rfl, Shader.layOut_eq_none hl⟩
    | some members =>
      refine .inl ⟨members, rfl, ?_⟩
      obtain ⟨bs, hbs, rfl⟩ := Option.map_eq_some_iff.mp (congrArg Prod.fst hl)
      have hrun := Shader.nodup_fieldNames_iff (Prod.ext hbs rfl) hd
      have htaken : s.memberNames id n = s.takenNames id n (entriesFrom 0 ts) := by
        unfold Shader.memberNames
        rw [Option.filter_eq_some_iff.mpr ⟨h.type, h.isStruct⟩]
        dsimp only
        rw [Shader.resolveAll_eq_iff.mpr h.members]
      rw [map_name_place, hrun]
      unfold Shader.NumbersApart
      rw [htaken]

def switchListing : List Assembly.Instruction := [
  ⟨"OpMemberName", [.id "apart", .int 0, .string "on"], none, 1⟩,
  ⟨"OpMemberName", [.id "apart", .int 1, .string "level"], none, 2⟩,
  ⟨"OpMemberName", [.id "padded", .int 0, .string "on"], none, 3⟩,
  ⟨"OpMemberName", [.id "padded", .int 1, .string "on_pad"], none, 4⟩,
  ⟨"OpMemberName", [.id "numbered", .int 1, .string "unnamed_0"], none, 5⟩,
  ⟨"OpTypeBool", [], some "bool", 6⟩,
  ⟨"OpTypeFloat", [.int 32], some "float", 7⟩,
  ⟨"OpTypeStruct", [.id "bool", .id "float", .id "bool"], some "apart", 8⟩,
  ⟨"OpTypeStruct", [.id "bool", .id "float"], some "padded", 9⟩,
  ⟨"OpTypeStruct", [.id "float", .id "float"], some "numbered", 10⟩]

def switchBool : TypeDescriptor := { baseType := .boolean, width := 32, selfId := 4 }

def switchFloat : TypeDescriptor := { baseType := .float, width := 32, selfId := 5 }

/-- The fields of a struct with two declared names and one number are told apart. -/
theorem switchListing_apart :
    ∃ d, Module.Declarations.ofInstructions switchListing = .ok d ∧ ∃ t ts,
      d.shader.Readable 1 t ts ∧ (d.shader.declaredNames 1 ts.zipIdx).Nodup ∧
      (d.shader.readMembers 1 ⟨0⟩).1.toOption.map (·.map (·.name)) =
        some ["on", "on_pad", "level", "unnamed_0", "unnamed_1_pad"] ∧
      ((∃ members, (d.shader.readMembers 1 ⟨0⟩).1 = .ok members ∧ ((members.map (·.name)).Nodup ↔
          d.shader.PaddingApart 1 ts ∧ d.shader.NumbersApart 1 ts ⟨0⟩)) ∨
        ((d.shader.readMembers 1 ⟨0⟩).1 = .error .unwritable ∧
          ((∃ u ∈ ts, u.Oversized) ∨ Overflows ⟨0⟩ (d.shader.readMembers 1 ⟨0⟩).2))) := by
  obtain ⟨d, hd, h, hn, hnames⟩ := Module.exists_ok_of_any
    (x := Module.Declarations.ofInstructions switchListing)
    (p := fun d => d.shader.Readable 1
        { baseType := .struct, selfId := 1, members := [4, 5, 4] }
        [switchBool, switchFloat, switchBool] ∧
      (d.shader.declaredNames 1 [switchBool, switchFloat, switchBool].zipIdx).Nodup ∧
      (d.shader.readMembers 1 ⟨0⟩).1.toOption.map (·.map (·.name)) =
        some ["on", "on_pad", "level", "unnamed_0", "unnamed_1_pad"])
    (by decide +kernel)
  exact ⟨d, hd, _, _, h, hn, hnames, readMembers_names_nodup_iff h hn ⟨0⟩⟩

/-- Padding gets the declared name of the next member, and a number one that is declared. -/
theorem switchListing_names_repeat :
    ∃ d, Module.Declarations.ofInstructions switchListing = .ok d ∧
      (∃ t ts ms, d.shader.Readable 2 t ts ∧
        d.shader.declaredNames 2 ts.zipIdx = ["on", "on_pad"] ∧
        (d.shader.readMembers 2 ⟨0⟩).1 = .ok ms ∧ ¬(ms.map (·.name)).Nodup) ∧
      ∃ t ts ms, d.shader.Readable 3 t ts ∧
        d.shader.declaredNames 3 ts.zipIdx = ["unnamed_0"] ∧
        (d.shader.readMembers 3 ⟨0⟩).1 = .ok ms ∧ ¬(ms.map (·.name)).Nodup := by
  obtain ⟨d, hd, h, hn, hnames, h', hn', hnames'⟩ := Module.exists_ok_of_any
    (x := Module.Declarations.ofInstructions switchListing)
    (p := fun d =>
      d.shader.Readable 2 { baseType := .struct, selfId := 2, members := [4, 5] }
        [switchBool, switchFloat] ∧
      d.shader.declaredNames 2 [switchBool, switchFloat].zipIdx = ["on", "on_pad"] ∧
      (d.shader.readMembers 2 ⟨0⟩).1.toOption.any (fun ms => ¬(ms.map (·.name)).Nodup) = true ∧
      d.shader.Readable 3 { baseType := .struct, selfId := 3, members := [5, 5] }
        [switchFloat, switchFloat] ∧
      d.shader.declaredNames 3 [switchFloat, switchFloat].zipIdx = ["unnamed_0"] ∧
      (d.shader.readMembers 3 ⟨0⟩).1.toOption.any (fun ms => ¬(ms.map (·.name)).Nodup) = true)
    (by decide +kernel)
  obtain ⟨ms, hms, hrepeat⟩ := Module.exists_ok_of_any hnames
  obtain ⟨ms', hms', hrepeat'⟩ := Module.exists_ok_of_any hnames'
  exact ⟨d, hd, ⟨_, _, ms, h, hn, hms, hrepeat⟩, _, _, ms', h', hn', hms', hrepeat'⟩

end ShaderReflection
