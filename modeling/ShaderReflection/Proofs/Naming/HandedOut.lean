import Mathlib.Data.List.Nodup
import ShaderReflection.Proofs.Layout.Placement
import ShaderReflection.Proofs.Number.DecimalText
import ShaderReflection.Reflection

/-! The names that a namer hands out while it is passed from one operation to the next. Each of them
takes the next number, also where the operation fails later on, and the number of a name can be read
back from it; so no name comes twice. -/
namespace ShaderReflection

open Number (NoDigitHead)

def numbered (n : Int) (suffix : String) : String := "unnamed_" ++ toString n ++ suffix

private theorem numbered_injective {n m : Int} {s t : String} (hs : NoDigitHead s.toList)
    (ht : NoDigitHead t.toList) (h : numbered n s = numbered m t) : n = m ∧ s = t := by
  unfold numbered at h
  rw [String.append_assoc, String.append_assoc] at h
  exact Number.toString_append_injective hs ht ((String.append_right_inj _).mp h)

theorem Namer.take_eq (n : Namer) (suffix : String) :
    n.take suffix =
      (if Number.isWritable n.next then some (numbered n.next suffix) else none, ⟨n.next + 1⟩) := by
  unfold Namer.take Number.decimal?
  split <;> rfl

/-- A namer hands out names, one number after another, and becomes another namer. A number that
cannot be written is used up without a name. -/
inductive HandsOut : Namer → List String → Namer → Prop where
  | nil (n : Namer) : HandsOut n [] n
  | take {n m : Namer} {suffix : String} {names : List String} (hs : NoDigitHead suffix.toList)
      (h : HandsOut (n.take suffix).2 names m) :
      HandsOut n ((n.take suffix).1.toList ++ names) m

namespace HandsOut

variable {n m k : Namer} {xs ys : List String}

theorem single (n : Namer) (suffix : String) (hs : NoDigitHead suffix.toList) :
    HandsOut n (n.take suffix).1.toList (n.take suffix).2 := by
  have h : HandsOut n ((n.take suffix).1.toList ++ []) (n.take suffix).2 := .take hs (.nil _)
  rwa [List.append_nil] at h

theorem trans (h : HandsOut n xs m) (h' : HandsOut m ys k) : HandsOut n (xs ++ ys) k := by
  induction h with
  | nil => exact h'
  | take hs _ ih =>
    rw [List.append_assoc]
    exact .take hs (ih h')

theorem next_le (h : HandsOut n xs m) : n.next ≤ m.next := by
  induction h with
  | nil => exact Int.le_refl _
  | take _ _ ih =>
    rw [Namer.next_take] at ih
    omega

/-- Every name is made from a number that the namer went past. -/
private theorem exists_numbered (h : HandsOut n xs m) {x : String} (hx : x ∈ xs) :
    ∃ i suffix, n.next ≤ i ∧ i < m.next ∧ NoDigitHead suffix.toList ∧ x = numbered i suffix := by
  induction h with
  | nil => cases hx
  | @take n m suffix names hs h ih =>
    rcases List.mem_append.mp hx with hx | hx
    · have hnext := h.next_le
      rw [Namer.take_eq] at hx hnext
      dsimp only at hx hnext
      split at hx
      · obtain rfl := List.mem_singleton.mp hx
        exact ⟨n.next, suffix, Int.le_refl _, by omega, hs, rfl⟩
      · cases hx
    · obtain ⟨i, suffix', hi, hm, hs', rfl⟩ := ih hx
      rw [Namer.next_take] at hi
      exact ⟨i, suffix', by omega, hm, hs', rfl⟩

/-- No name is handed out twice: the numbers only grow, and each can be read back. -/
theorem nodup (h : HandsOut n xs m) : xs.Nodup := by
  induction h with
  | nil => exact List.nodup_nil
  | @take n m suffix names hs h ih =>
    rw [Namer.take_eq] at h ⊢
    dsimp only at h ⊢
    split
    · refine List.nodup_cons.mpr ⟨fun hmem => ?_, ih⟩
      obtain ⟨i, suffix', hi, -, hs', he⟩ := h.exists_numbered hmem
      have hnext : n.next = i := (numbered_injective hs hs' he).1
      dsimp only at hi
      omega
    · exact ih

end HandsOut

private theorem noDigitHead_suffix {t : TypeDescriptor} {b : Block}
    (hb : b ∈ (MemberClass.ofType t).blocks) : NoDigitHead b.suffix.toList := by
  have hsuffix : b.suffix = "" ∨ b.suffix = "_pad" := by
    generalize MemberClass.ofType t = c at hb
    cases c with
    | composite host | bytes count =>
      obtain rfl := List.mem_singleton.mp hb
      exact .inl rfl
    | single host padding =>
      rcases List.mem_cons.mp hb with rfl | hb
      · exact .inl rfl
      · split at hb
        · cases hb
        · obtain rfl := List.mem_singleton.mp hb
          exact .inr rfl
  intro c hc
  rcases hsuffix with hs | hs <;> rw [hs] at hc
  · cases hc
  · have hc : '_' = c := Option.some.inj hc
    rw [← hc]
    rfl

theorem noDigitHead_entriesFrom {ts : List TypeDescriptor} {index : Nat} {e : Entry}
    (he : e ∈ entriesFrom index ts) : NoDigitHead e.block.suffix.toList := by
  obtain ⟨t, -, hb⟩ := exists_of_mem_entriesFrom he
  exact noDigitHead_suffix hb

namespace Shader

/-- What the namer hands out for one name: nothing if a name is declared. -/
def takenName (s : Shader) (id : Id) (index : Int) (suffix : String) (n : Namer) : List String :=
  match s.declaredName? id index with
  | some _ => []
  | none => (n.take suffix).1.toList

/-- What the namer hands out for the parts of a struct, up to one that cannot be written. -/
def takenNames (s : Shader) (id : Id) (n : Namer) : List Entry → List String
  | [] => []
  | e :: es =>
    match e.block.type.text with
    | none => []
    | some _ =>
      s.takenName id e.index e.block.suffix n ++
        match s.memberName id e.index e.block.suffix n with
        | (none, _) => []
        | (some _, n) => s.takenNames id n es

def memberNames (s : Shader) (id : Id) (n : Namer) : List String :=
  match (s.type? id).filter (·.isStruct) with
  | none => []
  | some t => s.takenNames id n (entriesFrom 0 (s.resolveAll t.members).1)

def structNames (s : Shader) (id : Id) (n : Namer) : List String :=
  match (s.type? id).filter (·.isStruct) with
  | none => []
  | some t =>
    if isReserved (s.name id) then []
    else
      match s.resolveAll t.members with
      | (_, some _) => []
      | (ts, none) => s.takenNames id n (entriesFrom 0 ts)

def structsNames (s : Shader) (n : Namer) : List Id → List String
  | [] => []
  | id :: ids =>
    s.structNames id n ++
      match s.structDefinition id n with
      | (.error .unwritable, _) => []
      | (_, n) => s.structsNames n ids

/-- What the namer hands out for a document. A shader that fails before its structs are looked at
takes no names. -/
def documentNames (s : Shader) (n : Namer) : List String :=
  match s.entryPoint, s.interface with
  | .ok entry, .ok _ =>
    if isBroken (s.vertexOutcomes entry.model) then [] else s.structsNames n s.structIds.eraseDups
  | _, _ => []

section Runs

variable (s : Shader)

theorem handsOut_memberName (id : Id) (index : Int) (suffix : String)
    (hs : NoDigitHead suffix.toList) (n : Namer) :
    HandsOut n (s.takenName id index suffix n) (s.memberName id index suffix n).2 := by
  unfold takenName memberName
  cases s.declaredName? id index with
  | some name => exact .nil n
  | none => exact .single n suffix hs

theorem handsOut_nameEntries (id : Id) (n : Namer) {es : List Entry}
    (hs : ∀ e ∈ es, NoDigitHead e.block.suffix.toList) :
    HandsOut n (s.takenNames id n es) (s.nameEntries id n es).2 := by
  induction es generalizing n with
  | nil => exact .nil n
  | cons e es ih =>
    unfold takenNames nameEntries
    cases e.block.type.text with
    | none => exact .nil n
    | some type =>
      have hname := s.handsOut_memberName id e.index e.block.suffix (hs e List.mem_cons_self) n
      generalize s.memberName id e.index e.block.suffix n = p at hname ⊢
      obtain ⟨name?, n'⟩ := p
      cases name? with
      | none =>
        dsimp only at hname ⊢
        rwa [List.append_nil]
      | some name => exact hname.trans (ih n' fun e he => hs e (List.mem_cons_of_mem _ he))

theorem handsOut_layOut (id : Id) (n : Namer) (ts : List TypeDescriptor) :
    HandsOut n (s.takenNames id n (entriesFrom 0 ts)) (s.layOut id ts n).2 :=
  s.handsOut_nameEntries id n fun _ he => noDigitHead_entriesFrom he

theorem handsOut_readMembers (id : Id) (n : Namer) :
    HandsOut n (s.memberNames id n) (s.readMembers id n).2 := by
  unfold memberNames readMembers
  cases (s.type? id).filter (·.isStruct) with
  | none => exact .nil n
  | some t =>
    have h := s.handsOut_layOut id n (s.resolveAll t.members).1
    dsimp only
    generalize s.layOut id (s.resolveAll t.members).1 n = p at h ⊢
    generalize (s.resolveAll t.members).2 = unknown
    obtain ⟨_ | members, n'⟩ := p
    · exact h
    · cases unknown <;> exact h

theorem handsOut_structDefinition (id : Id) (n : Namer) :
    HandsOut n (s.structNames id n) (s.structDefinition id n).2 := by
  unfold structNames structDefinition
  cases (s.type? id).filter (·.isStruct) with
  | none => exact .nil n
  | some t =>
    dsimp only
    by_cases hr : isReserved (s.name id) = true
    · rw [if_pos hr, if_pos hr]
      exact .nil n
    · rw [if_neg hr, if_neg hr]
      obtain ⟨ts, _ | m⟩ := s.resolveAll t.members
      · have h := s.handsOut_layOut id n ts
        dsimp only
        generalize s.layOut id ts n = p at h ⊢
        obtain ⟨_ | members, n'⟩ := p <;> exact h
      · exact .nil n

theorem handsOut_structOutcomes (n : Namer) (ids : List Id) :
    HandsOut n (s.structsNames n ids) (s.structOutcomes n ids).2 := by
  induction ids generalizing n with
  | nil => exact .nil n
  | cons id ids ih =>
    have h := s.handsOut_structDefinition id n
    unfold structsNames structOutcomes
    generalize s.structDefinition id n = p at h ⊢
    obtain ⟨outcome, n'⟩ := p
    match outcome with
    | .error .unwritable =>
      dsimp only at h ⊢
      rwa [List.append_nil]
    | .error (.skipped _) => exact h.trans (ih n')
    | .ok _ => exact h.trans (ih n')

theorem handsOut_reflect (o : ReflectionOptions) (n : Namer) :
    HandsOut n (s.documentNames n) (s.reflect o n).2 := by
  unfold documentNames reflect
  cases s.entryPoint with
  | error e => exact .nil n
  | ok entry =>
    cases s.interface with
    | error e => exact .nil n
    | ok i =>
      dsimp only
      by_cases hv : isBroken (s.vertexOutcomes entry.model) = true
      · rw [if_pos hv, if_pos hv]
        exact .nil n
      · rw [if_neg hv, if_neg hv]
        have h : HandsOut n (s.structsNames n s.structIds.eraseDups) (s.allStructOutcomes n).2 :=
          s.handsOut_structOutcomes n s.structIds.eraseDups
        generalize s.allStructOutcomes n = p at h ⊢
        obtain ⟨outcomes, n'⟩ := p
        dsimp only at h ⊢
        split <;> exact h

/-- A part that is written takes its own name first, and leaves the rest to the namer behind it. -/
theorem takenNames_cons {id : Id} {n m : Namer} {e : Entry} {es : List Entry} {type name : String}
    (htype : e.block.type.text = some type)
    (hname : s.memberName id e.index e.block.suffix n = (some name, m)) :
    s.takenNames id n (e :: es) =
      s.takenName id e.index e.block.suffix n ++ s.takenNames id m es := by
  rw [takenNames, htype]
  dsimp only
  rw [hname]

/-- Of the parts of a struct, those without a declared name bear the names handed out for them. -/
theorem takenNames_eq {id : Id} {n n' : Namer} {es : List Entry} {bs : List NamedBlock}
    (h : s.nameEntries id n es = (some bs, n')) :
    s.takenNames id n es = (es.zip bs).filterMap fun p =>
      if (s.declaredName? id p.1.index).isSome then none else some p.2.name := by
  induction es generalizing n bs with
  | nil => rfl
  | cons e es ih =>
    obtain ⟨name, type, rest, m, htype, hname, hrest, rfl⟩ := nameEntries_cons_iff.mp h
    rw [s.takenNames_cons htype hname, ih hrest, List.zip_cons_cons, List.filterMap_cons]
    unfold memberName at hname
    unfold takenName
    cases hd : s.declaredName? id e.index with
    | some declared => simp
    | none =>
      simp only [hd] at hname
      simp [hname]

end Runs

end Shader

/-- What can be asked of a namer, directly or through a shader. -/
inductive Operation where
  | nextName (suffix : String)
  | memberName (s : Shader) (id : Id) (index : Int) (suffix : String)
  | readMembers (s : Shader) (id : Id)
  | structDefinition (s : Shader) (id : Id)
  | structDefinitions (s : Shader)
  | reflect (s : Shader) (o : ReflectionOptions)

namespace Operation

def after (n : Namer) : Operation → Namer
  | nextName suffix => (n.take suffix).2
  | memberName s id index suffix => (s.memberName id index suffix n).2
  | readMembers s id => (s.readMembers id n).2
  | structDefinition s id => (s.structDefinition id n).2
  | structDefinitions s => (s.allStructOutcomes n).2
  | reflect s o => (s.reflect o n).2

def names (n : Namer) : Operation → List String
  | nextName suffix => (n.take suffix).1.toList
  | memberName s id index suffix => s.takenName id index suffix n
  | readMembers s id => s.memberNames id n
  | structDefinition s id => s.structNames id n
  | structDefinitions s => s.structsNames n s.structIds.eraseDups
  | reflect s _ => s.documentNames n

def Plain : Operation → Prop
  | nextName suffix | memberName _ _ _ suffix => NoDigitHead suffix.toList
  | _ => True

theorem handsOut {op : Operation} (h : op.Plain) (n : Namer) :
    HandsOut n (op.names n) (op.after n) := by
  cases op with
  | nextName suffix => exact .single n suffix h
  | memberName s id index suffix => exact s.handsOut_memberName id index suffix h n
  | readMembers s id => exact s.handsOut_readMembers id n
  | structDefinition s id => exact s.handsOut_structDefinition id n
  | structDefinitions s => exact s.handsOut_structOutcomes n _
  | reflect s o => exact s.handsOut_reflect o n

end Operation

def Namer.afterAll (n : Namer) (ops : List Operation) : Namer := ops.foldl Operation.after n

def Namer.namesOfAll (n : Namer) : List Operation → List String
  | [] => []
  | op :: ops => op.names n ++ (op.after n).namesOfAll ops

theorem Namer.handsOut_afterAll {ops : List Operation} (h : ∀ op ∈ ops, op.Plain) (n : Namer) :
    HandsOut n (n.namesOfAll ops) (n.afterAll ops) := by
  induction ops generalizing n with
  | nil => exact .nil n
  | cons op ops ih =>
    have hop : op.Plain := h op List.mem_cons_self
    exact (op.handsOut hop n).trans (ih (fun op' ho => h op' (List.mem_cons_of_mem _ ho)) _)

/-- Over a whole run the names that a namer hands out are pairwise distinct. They are those of the
numbers from the first to the last one, so none is missing. -/
theorem namesOfAll_nodup (start : Int) {ops : List Operation} (h : ∀ op ∈ ops, op.Plain) :
    (Namer.namesOfAll ⟨start⟩ ops).Nodup ∧
      HandsOut ⟨start⟩ (Namer.namesOfAll ⟨start⟩ ops) (Namer.afterAll ⟨start⟩ ops) := by
  have hrun := Namer.handsOut_afterAll h ⟨start⟩
  exact ⟨hrun.nodup, hrun⟩

/-- A shader without entry points, and with a struct whose second member is not known. -/
def brokenShader : Shader where
  entryPoints := []
  resources := fun _ => []
  type? := fun
    | 1 => some { baseType := .boolean, width := 32, selfId := 1 }
    | 2 => some { baseType := .struct, selfId := 2, members := [1, 9] }
    | _ => none
  name := fun _ => ""
  decoration := fun _ _ => 0
  slots := fun _ => []
  memberName? := fun _ _ => none
  structIds := [2]

def mixedOperations : List Operation := [
  .nextName "", .readMembers brokenShader 2, .memberName brokenShader 2 0 "_pad",
  .reflect brokenShader ⟨"s", "s.h"⟩, .structDefinitions brokenShader, .nextName "x"]

theorem mixedOperations_nodup :
    (∀ op ∈ mixedOperations, op.Plain) ∧
    (brokenShader.readMembers 2 ⟨-1⟩).1 = .error (.unresolved 9 2) ∧
    Namer.namesOfAll ⟨-2⟩ mixedOperations =
      ["unnamed_-2", "unnamed_-1", "unnamed_0_pad", "unnamed_1_pad", "unnamed_2x"] ∧
    (Namer.namesOfAll ⟨-2⟩ mixedOperations).Nodup ∧
    HandsOut ⟨-2⟩ (Namer.namesOfAll ⟨-2⟩ mixedOperations)
      (Namer.afterAll ⟨-2⟩ mixedOperations) := by
  have hplain : ∀ op ∈ mixedOperations, op.Plain := by
    simp [mixedOperations, Operation.Plain, NoDigitHead, Text.Stops]
  exact ⟨hplain, by decide +kernel, by decide +kernel, namesOfAll_nodup (-2) hplain⟩

end ShaderReflection
