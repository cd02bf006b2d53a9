import ShaderReflection.Proofs.Layout.Placement
import ShaderReflection.Proofs.Naming.HandedOut
import ShaderReflection.Proofs.Reflection.Nameless

/-! Structs that fail when their fields are laid out. The members have been looked up by then, so
what can still go wrong is a number with too many digits: the size of padding, or a number that the
namer hands out. -/
namespace ShaderReflection

def HostType.Oversized (h : HostType) : Prop :=
  ∃ bytes, h = .padding bytes ∧ Number.isWritable bytes = false

theorem HostType.text_eq_none_iff {h : HostType} : h.text = none ↔ h.Oversized := by
  unfold Oversized text Number.decimal?
  cases h with
  | padding bytes => simp
  | _ => simp

/-- A type that a struct can hold only with padding of a size that cannot be written. -/
def TypeDescriptor.Oversized (t : TypeDescriptor) : Prop :=
  ∃ b ∈ (MemberClass.ofType t).blocks, b.type.Oversized

theorem exists_of_namelessBlocks_eq_none {es : List Entry} (h : namelessBlocks es = none) :
    ∃ e ∈ es, e.block.type.Oversized := by
  induction es with
  | nil => cases h
  | cons e es ih =>
    cases ht : e.block.type.text with
    | none => exact ⟨e, List.mem_cons_self, HostType.text_eq_none_iff.mp ht⟩
    | some type =>
      have hrest : namelessBlocks es = none := by
        unfold namelessBlocks at h ⊢
        rw [List.mapM_cons, ht] at h
        cases hes : es.mapM fun e => e.block.type.text.map fun type =>
            (⟨"", type, e.block.byteLength⟩ : NamedBlock) with
        | none => rfl
        | some bs =>
          rw [hes] at h
          cases h
      obtain ⟨e', he', ho⟩ := ih hrest
      exact ⟨e', List.mem_cons_of_mem _ he', ho⟩

theorem isBroken_cons_of_ne {o : Except (Absence ρ) StructDefinition}
    (h : o ≠ .error .unwritable) (os : List (Except (Absence ρ) StructDefinition)) :
    isBroken (o :: os) = isBroken os := by
  unfold isBroken
  rw [List.any_cons]
  cases o with
  | ok d => rfl
  | error absence =>
    cases absence with
    | skipped reason => rfl
    | unwritable => exact absurd rfl h

namespace Shader

structure Readable (s : Shader) (id : Id) (t : TypeDescriptor) (ts : List TypeDescriptor) :
    Prop where
  type : s.type? id = some t
  isStruct : t.isStruct = true
  members : t.members.map s.type? = ts.map some

instance (s : Shader) (id : Id) (t : TypeDescriptor) (ts : List TypeDescriptor) :
    Decidable (s.Readable id t ts) :=
  decidable_of_iff (s.type? id = some t ∧ t.isStruct = true ∧ t.members.map s.type? = ts.map some)
    ⟨fun ⟨h, hs, hm⟩ => ⟨h, hs, hm⟩, fun h => ⟨h.type, h.isStruct, h.members⟩⟩

/-- A struct that has a definition: its name is not reserved, and the types of its members are all
known. -/
structure Definable (s : Shader) (id : Id) (t : TypeDescriptor) (ts : List TypeDescriptor) :
    Prop where
  type : s.type? id = some t
  isStruct : t.isStruct = true
  notReserved : isReserved (s.name id) = false
  members : t.members.map s.type? = ts.map some

/-- A struct that has a definition but for the size of padding. -/
def OversizedStruct (s : Shader) (id : Id) : Prop :=
  ∃ t ts, s.Definable id t ts ∧ ∃ u ∈ ts, u.Oversized

/-- What becomes of a struct, for some namer under which its numbers can be written. -/
structure Outcome (s : Shader) (id : Id) (o : Except (Absence StructSkip) StructDefinition) :
    Prop where
  run : ∃ n n', s.structDefinition id n = (o, n')
  writable : o ≠ .error .unwritable

section Laying

variable {s : Shader} {id : Id} {n n' : Namer}

theorem layOut_eq_none {ts : List TypeDescriptor} (h : s.layOut id ts n = (none, n')) :
    (∃ t ∈ ts, t.Oversized) ∨ Overflows n n' := by
  have hnamed : (s.nameEntries id n (entriesFrom 0 ts)).1 = none :=
    Option.map_eq_none_iff.mp (congrArg Prod.fst h)
  have hafter : (s.nameEntries id n (entriesFrom 0 ts)).2 = n' := congrArg Prod.snd h
  rcases (s.nameEntries_nameless id n (entriesFrom 0 ts)).2 with hsame | ⟨-, ho⟩
  · left
    rw [hnamed] at hsame
    obtain ⟨e, he, ho⟩ := exists_of_namelessBlocks_eq_none hsame.symm
    obtain ⟨t, ht, hb⟩ := exists_of_mem_entriesFrom he
    exact ⟨t, ht, e.block, hb, ho⟩
  · right
    rwa [hafter] at ho

theorem Definable.filter_type? {t : TypeDescriptor} {ts : List TypeDescriptor}
    (h : s.Definable id t ts) : (s.type? id).filter (·.isStruct) = some t :=
  Option.filter_eq_some_iff.mpr ⟨h.type, h.isStruct⟩

/-- The fields of a struct are laid out; no member is missing. -/
theorem Readable.readMembers_eq {t : TypeDescriptor} {ts : List TypeDescriptor}
    (h : s.Readable id t ts) (n : Namer) :
    s.readMembers id n =
      (match (s.layOut id ts n).1 with
        | none => .error .unwritable
        | some members => .ok members, (s.layOut id ts n).2) := by
  unfold readMembers
  rw [Option.filter_eq_some_iff.mpr ⟨h.type, h.isStruct⟩]
  dsimp only
  rw [resolveAll_eq_iff.mpr h.members]
  dsimp only
  generalize s.layOut id ts n = p
  obtain ⟨_ | members, n'⟩ := p <;> rfl

theorem Definable.readable {t : TypeDescriptor} {ts : List TypeDescriptor}
    (h : s.Definable id t ts) : s.Readable id t ts := ⟨h.type, h.isStruct, h.members⟩

theorem Definable.structDefinition_eq {t : TypeDescriptor} {ts : List TypeDescriptor}
    (h : s.Definable id t ts) (n : Namer) :
    s.structDefinition id n =
      (match (s.layOut id ts n).1 with
        | none => .error .unwritable
        | some members => .ok {
            name := s.name id, byteLength := total (ts.map (·.naturalSize)), members },
        (s.layOut id ts n).2) := by
  unfold structDefinition
  rw [h.filter_type?]
  dsimp only
  rw [if_neg (Bool.eq_false_iff.mp h.notReserved), resolveAll_eq_iff.mpr h.members]
  dsimp only
  generalize s.layOut id ts n = p
  obtain ⟨_ | members, n'⟩ := p <;> rfl

/-- A struct is left out, and takes no names, just where it is not one that has a definition. -/
theorem structDefinition_cases (s : Shader) (id : Id) (n : Namer) :
    (∃ t ts, s.Definable id t ts) ∨
      (¬ ∃ t ts, s.Definable id t ts) ∧
        ∃ reason, s.structDefinition id n = (.error (.skipped reason), n) := by
  by_cases hd : ∃ t ts, s.Definable id t ts
  · exact .inl hd
  right
  refine ⟨hd, ?_⟩
  unfold structDefinition
  cases ht : (s.type? id).filter (·.isStruct) with
  | none => exact ⟨_, rfl⟩
  | some t =>
    dsimp only
    by_cases hr : isReserved (s.name id) = true
    · rw [if_pos hr]
      exact ⟨_, rfl⟩
    · rw [if_neg hr]
      cases hts : s.resolveAll t.members with
      | mk ts unknown =>
        cases unknown with
        | some m => exact ⟨_, rfl⟩
        | none =>
          obtain ⟨htype, hs⟩ := Option.filter_eq_some_iff.mp ht
          have hdefinable : s.Definable id t ts :=
            ⟨htype, hs, Bool.eq_false_iff.mpr hr, resolveAll_eq_iff.mp hts⟩
          exact absurd ⟨t, ts, hdefinable⟩ hd

theorem structDefinition_unwritable (h : s.structDefinition id n = (.error .unwritable, n')) :
    s.OversizedStruct id ∨ Overflows n n' := by
  rcases s.structDefinition_cases id n with ⟨t, ts, hd⟩ | ⟨-, reason, hskip⟩
  · rw [hd.structDefinition_eq] at h
    cases hl : s.layOut id ts n with
    | mk members? n₁ =>
      rw [hl] at h
      cases members? with
      | some members => cases h
      | none =>
        obtain rfl : n₁ = n' := congrArg Prod.snd h
        exact (layOut_eq_none hl).imp_left fun ho => ⟨t, ts, hd, ho⟩
  · rw [hskip] at h
    cases h

theorem structOutcomes_cons_unwritable {ids : List Id}
    (h : s.structDefinition id n = (.error .unwritable, n')) :
    s.structOutcomes n (id :: ids) = ([.error .unwritable], n') := by
  unfold structOutcomes
  rw [h]

theorem structOutcomes_cons {outcome : Except (Absence StructSkip) StructDefinition}
    (h : s.structDefinition id n = (outcome, n')) (hw : outcome ≠ .error .unwritable)
    (ids : List Id) :
    s.structOutcomes n (id :: ids) =
      (outcome :: (s.structOutcomes n' ids).1, (s.structOutcomes n' ids).2) := by
  rw [structOutcomes, h]
  cases outcome with
  | ok d => rfl
  | error absence =>
    cases absence with
    | skipped reason => rfl
    | unwritable => exact absurd rfl hw

/-- Structs are broken off only by a number that cannot be written. -/
theorem structOutcomes_broken {ids : List Id} (h : isBroken (s.structOutcomes n ids).1 = true) :
    (∃ id ∈ ids, s.OversizedStruct id) ∨ Overflows n (s.structOutcomes n ids).2 := by
  induction ids generalizing n with
  | nil => cases h
  | cons id ids ih =>
    have hle : n.next ≤ (s.structDefinition id n).2.next :=
      (s.handsOut_structDefinition id n).next_le
    cases hd : s.structDefinition id n with
    | mk outcome n₁ =>
      rw [hd] at hle
      by_cases hw : outcome = .error .unwritable
      · rw [hw] at hd
        rw [structOutcomes_cons_unwritable hd]
        exact (structDefinition_unwritable hd).imp_left fun ho => ⟨id, List.mem_cons_self, ho⟩
      · rw [structOutcomes_cons hd hw, isBroken_cons_of_ne hw] at h
        rw [structOutcomes_cons hd hw]
        rcases ih h with ⟨id', hid', ho⟩ | ho
        · exact .inl ⟨id', List.mem_cons_of_mem _ hid', ho⟩
        · exact .inr (ho.mono hle (Int.le_refl _))

/-- Without a number that cannot be written, every struct has an outcome of its own. -/
theorem structOutcomes_related {ids : List Id} (h : isBroken (s.structOutcomes n ids).1 = false) :
    List.Forall₂ s.Outcome ids (s.structOutcomes n ids).1 := by
  induction ids generalizing n with
  | nil => exact .nil
  | cons id ids ih =>
    cases hd : s.structDefinition id n with
    | mk outcome n₁ =>
      by_cases hw : outcome = .error .unwritable
      · rw [hw] at hd
        rw [structOutcomes_cons_unwritable hd] at h
        cases h
      · rw [structOutcomes_cons hd hw, isBroken_cons_of_ne hw] at h
        rw [structOutcomes_cons hd hw]
        exact .cons ⟨⟨n, n₁, hd⟩, hw⟩ (ih h)

end Laying

end Shader
end ShaderReflection
