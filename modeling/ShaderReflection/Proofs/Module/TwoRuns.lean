import ShaderReflection.Proofs.Module.Alike
import ShaderReflection.Proofs.Module.Variables

/-! Two runs side by side. From modules that are alike the same instruction leads to modules that
are alike; this is shown for each part of an instruction in the order in which it is read. -/
namespace ShaderReflection.Module

open Assembly (Instruction)

/-- Whatever the first computation gives, the second gives something related. -/
def Simulates (P : α → β → Prop) (x : Except ε α) (y : Except ε β) : Prop :=
  ∀ a, x = .ok a → ∃ b, y = .ok b ∧ P a b

section Simulates

variable {P : α → β → Prop} {Q : γ → δ → Prop} {x : Except ε α} {y : Except ε β}

theorem Simulates.bind {f : α → Except ε γ} {g : β → Except ε δ} (h : Simulates P x y)
    (hf : ∀ a b, P a b → Simulates Q (f a) (g b)) : Simulates Q (x >>= f) (y >>= g) := by
  intro c hc
  obtain ⟨a, ha, hc⟩ := bind_eq_ok.mp hc
  obtain ⟨b, hb, hp⟩ := h a ha
  obtain ⟨c', hc', hq⟩ := hf a b hp c hc
  exact ⟨c', bind_eq_ok.mpr ⟨b, hb, hc'⟩, hq⟩

theorem Simulates.pure {a : α} {b : β} (h : P a b) :
    Simulates P (pure a : Except ε α) (pure b : Except ε β) := by
  intro c hc
  rw [← pure_eq_ok.mp hc]
  exact ⟨b, rfl, h⟩

theorem Simulates.refl (x : Except ε α) : Simulates Eq x x := fun a ha => ⟨a, ha, rfl⟩

end Simulates

/-- Modules after `d` and `e` that have kept all ids and are alike. -/
structure Later (named : Prop) (d e d' e' : Declarations) : Prop where
  left : d.ids <+: d'.ids
  right : e.ids <+: e'.ids
  alike : Alike named d' e'

theorem Alike.later {named : Prop} {d e : Declarations} (h : Alike named d e) :
    Later named d e d e := ⟨List.prefix_refl _, List.prefix_refl _, h⟩

theorem Later.trans {named : Prop} {d e d₁ e₁ d₂ e₂ : Declarations} (h : Later named d e d₁ e₁)
    (h' : Later named d₁ e₁ d₂ e₂) : Later named d e d₂ e₂ :=
  ⟨h.left.trans h'.left, h.right.trans h'.right, h'.alike⟩

theorem Later.sameId {named : Prop} {d e d' e' : Declarations} (h : Later named d e d' e')
    {x y : Id} (hxy : SameId d.ids e.ids x y) : SameId d'.ids e'.ids x y :=
  hxy.mono h.left h.right

/-- Ids of one name, with the modules after they were given out. -/
def SameResult (named : Prop) (d e : Declarations) (p q : Id × Declarations) : Prop :=
  SameId p.2.ids q.2.ids p.1 q.1 ∧ Later named d e p.2 q.2

namespace Declarations

theorem sameIds {d e : Declarations} {names : List String} {xs ys : List Id}
    (hd : List.Forall₂ (fun n x => d.idOf? n = some x) names xs)
    (he : List.Forall₂ (fun n y => e.idOf? n = some y) names ys) :
    List.Forall₂ (SameId d.ids e.ids) xs ys := by
  induction hd generalizing ys with
  | nil =>
    cases he
    exact .nil
  | cons hx _ ih =>
    cases he with
    | cons hy he => exact .cons ⟨_, hx, hy⟩ (ih he)

section Reading

variable {named : Prop} {d e : Declarations} (h : Alike named d e) (i : Instruction) (line : Nat)
include h

theorem later_of_interned {d' e' : Declarations} (hd : Interned d d') (he : Interned e e') :
    Later named d e d' e' := by
  obtain ⟨ns, hn, rfl⟩ := hd
  obtain ⟨ms, hm, rfl⟩ := he
  exact ⟨hn, hm, h.ids hn hm⟩

theorem sameResult_intern (name : String) :
    SameResult named d e (d.intern name) (e.intern name) :=
  ⟨⟨name, idOf?_intern d name, idOf?_intern e name⟩,
    later_of_interned h (interned_intern d name) (interned_intern e name)⟩

theorem simulates_result :
    Simulates (SameResult named d e) (d.result i) (e.result { i with line }) := by
  rintro ⟨x, d'⟩ hp
  obtain ⟨name, hn, hi⟩ := result_ok hp
  rw [← hi]
  refine ⟨e.intern name, ?_, sameResult_intern h name⟩
  unfold result
  rw [hn]

theorem simulates_operandId (index : Int) :
    Simulates (SameResult named d e) (d.operandId i index)
      (e.operandId { i with line } index) := by
  refine Simulates.bind (.refl _) fun name name' hname => ?_
  rw [hname]
  exact .pure (sameResult_intern h name')

theorem sameResult_internAll (names : List String) :
    List.Forall₂ (SameId (d.internAll names).2.ids (e.internAll names).2.ids)
      (d.internAll names).1 (e.internAll names).1 ∧
    Later named d e (d.internAll names).2 (e.internAll names).2 :=
  ⟨sameIds (internAll_ids d names) (internAll_ids e names),
    later_of_interned h (interned_internAll d names) (interned_internAll e names)⟩

theorem simulates_arrayLength :
    Simulates (fun p q => p.1 = q.1 ∧ Later named d e p.2 q.2) (d.arrayLength i)
      (e.arrayLength { i with line }) := by
  refine Simulates.bind (simulates_operandId h i line 1) fun p q ⟨hid, hl⟩ => .pure ⟨?_, hl⟩
  have hc := hl.alike.constants.get? (biUnique_sameId ..) hid
  generalize p.2.constants.get? p.1 = a at hc ⊢
  generalize q.2.constants.get? q.1 = b at hc ⊢
  cases hc with
  | none => rfl
  | some hab => exact hab

end Reading

section Aliases

variable {named : Prop} {d e : Declarations} (h : Alike named d e)
include h

theorem names_get?_eq (hn : named) {x y : Id} (hxy : SameId d.ids e.ids x y) :
    d.names.get? x = e.names.get? y := by
  have hg := (h.names hn).get? (biUnique_sameId ..) hxy
  generalize d.names.get? x = a at hg ⊢
  generalize e.names.get? y = b at hg ⊢
  cases hg with
  | none => rfl
  | some hab => rw [hab]

theorem simulates_findRoot (hn : named) {t u : TypeDescriptor}
    (ht : LikeType named (SameId d.ids e.ids) t u) (name : String) {rs ss : List Id}
    (hr : List.Forall₂ (SameId d.ids e.ids) rs ss) :
    Simulates (Option.Rel (SameId d.ids e.ids)) (d.findRoot t name rs)
      (e.findRoot u name ss) := by
  induction hr with
  | nil => exact .pure .none
  | @cons r s _ _ hrs _ ih =>
    unfold findRoot
    rw [names_get?_eq h hn hrs]
    split
    case isFalse => exact ih
    case isTrue =>
      have hg := h.types.get? (biUnique_sameId ..) hrs
      generalize d.types.get? r = a at hg ⊢
      generalize e.types.get? s = b at hg ⊢
      cases hg with
      | none => exact ih
      | some hab =>
        dsimp only
        rw [equivalent?_of_like (biUnique_sameId ..) h.types ht hab]
        split
        case h_1 =>
          intro a ha
          cases ha
        case h_2 => exact .pure (.some hrs)
        case h_3 => exact ih

theorem simulates_describeStruct {t u : TypeDescriptor}
    (ht : LikeType named (SameId d.ids e.ids) t u) :
    Simulates (fun p q => Later named d e p.1 q.1 ∧
      LikeType named (SameId p.1.ids q.1.ids) p.2 q.2) (d.describeStruct t)
      (e.describeStruct u) := by
  by_cases hn : named
  · have hname : d.name t.selfId = e.name u.selfId := by
      unfold Declarations.name
      rw [names_get?_eq h hn ht.selfId]
    unfold describeStruct
    rw [hname]
    dsimp only
    split
    · exact .pure ⟨h.later, ht⟩
    · refine Simulates.bind (simulates_findRoot h hn ht _ (h.roots hn)) fun a b hab => ?_
      cases hab with
      | some hab => exact .pure ⟨h.later, { ht with aliasOf := fun _ => .some hab }⟩
      | none =>
        refine .pure ⟨⟨List.prefix_refl _, List.prefix_refl _, ?_⟩, ht⟩
        have hroots := List.rel_append (h.roots hn) (.cons ht.selfId .nil)
        exact { h with roots := fun _ => hroots }
  · -- The second module has no names, and so neither aliases nor roots.
    rintro ⟨d', t'⟩ hd
    have hname : e.name u.selfId = "" := by
      unfold Declarations.name
      rw [h.noNames hn]
      rfl
    refine ⟨(e, u), ?_, ?_⟩
    · unfold describeStruct
      rw [hname]
      rfl
    · cases describeStruct_ok hd with
      | anonymous => exact ⟨h.later, ht⟩
      | aliased => exact ⟨h.later, { ht with aliasOf := fun hn' => absurd hn' hn }⟩
      | root =>
        refine ⟨⟨List.prefix_refl _, List.prefix_refl _, ?_⟩, ht⟩
        exact { h with roots := fun hn' => absurd hn' hn }

end Aliases

section Types

variable {named : Prop} {d e : Declarations} (h : Alike named d e) (i : Instruction) (line : Nat)
include h

theorem types_get? {x y : Id} (hxy : SameId d.ids e.ids x y) :
    Option.Rel (LikeType named (SameId d.ids e.ids)) (d.types.get? x) (e.types.get? y) :=
  h.types.get? (biUnique_sameId ..) hxy

theorem simulates_describe {x y : Id} (hxy : SameId d.ids e.ids x y) (kind : TypeOpcode) :
    Simulates (fun p q => Later named d e p.1 q.1 ∧
      Option.Rel (LikeType named (SameId p.1.ids q.1.ids)) p.2 q.2) (d.describe x kind i)
      (e.describe y kind { i with line }) := by
  have hbasic (b : BaseType) (width : Int) : LikeType named (SameId d.ids e.ids)
      { baseType := b, width, selfId := x } { baseType := b, width, selfId := y } :=
    ⟨rfl, rfl, rfl, rfl, hxy, rfl, rfl, .nil, fun _ => .none⟩
  cases kind with
  | void | bool | sampler | sampledImage | unknown => exact .pure ⟨h.later, .some (hbasic ..)⟩
  | function => exact .pure ⟨h.later, .none⟩
  | int =>
    refine Simulates.bind (.refl _) fun width _ hw => ?_
    refine Simulates.bind (.refl _) fun signed _ hs => ?_
    rw [← hw, ← hs]
    exact .pure ⟨h.later, .some (hbasic ..)⟩
  | float =>
    refine Simulates.bind (.refl _) fun width _ hw => ?_
    rw [← hw]
    exact .pure ⟨h.later, .some (hbasic ..)⟩
  | image =>
    refine .pure ⟨⟨List.prefix_refl _, List.prefix_refl _, ?_⟩, .some (hbasic ..)⟩
    exact { h with imageSampled := h.imageSampled.set (biUnique_sameId ..) hxy rfl }
  | vector | matrix =>
    refine Simulates.bind (simulates_operandId h i line 0) fun p q ⟨hc, hl⟩ => ?_
    have hg := types_get? hl.alike hc
    dsimp only
    generalize p.2.types.get? p.1 = a at hg ⊢
    generalize q.2.types.get? q.1 = b at hg ⊢
    cases hg with
    | none => exact .pure ⟨hl, .none⟩
    | some ht =>
      refine Simulates.bind (.refl _) fun n _ hn => ?_
      rw [← hn]
      refine .pure ⟨hl, .some ?_⟩
      first
        | exact { ht with vecsize := rfl, columns := rfl, selfId := hl.sameId hxy }
        | exact { ht with columns := rfl, selfId := hl.sameId hxy }
  | array =>
    refine Simulates.bind (simulates_operandId h i line 0) fun p q ⟨hc, hl⟩ => ?_
    have hg := types_get? hl.alike hc
    dsimp only
    generalize p.2.types.get? p.1 = a at hg ⊢
    generalize q.2.types.get? q.1 = b at hg ⊢
    cases hg with
    | none => exact .pure ⟨hl, .none⟩
    | some ht =>
      refine Simulates.bind (simulates_arrayLength hl.alike i line) fun p' q' ⟨hn, hl'⟩ => ?_
      refine .pure ⟨hl.trans hl', .some ?_⟩
      have ht := ht.mono fun _ _ => hl'.sameId
      exact { ht with array := by rw [ht.array, hn] }
  | runtimeArray =>
    refine Simulates.bind (simulates_operandId h i line 0) fun p q ⟨hc, hl⟩ => .pure ⟨hl, ?_⟩
    have hg := types_get? hl.alike hc
    generalize p.2.types.get? p.1 = a at hg ⊢
    generalize q.2.types.get? q.1 = b at hg ⊢
    cases hg with
    | none => exact .none
    | some ht => exact .some { ht with array := congrArg (· ++ [0]) ht.array }
  | struct =>
    obtain ⟨hm, hl⟩ := sameResult_internAll h (idNames i.operands)
    have ht : LikeType named (SameId (d.internAll (idNames i.operands)).2.ids
        (e.internAll (idNames i.operands)).2.ids)
        { baseType := .struct, selfId := x, members := (d.internAll (idNames i.operands)).1 }
        { baseType := .struct, selfId := y, members := (e.internAll (idNames i.operands)).1 } :=
      ⟨rfl, rfl, rfl, rfl, hl.sameId hxy, rfl, rfl, hm, fun _ => .none⟩
    exact Simulates.bind (simulates_describeStruct hl.alike ht) fun p q ⟨hl', ht'⟩ =>
      .pure ⟨hl.trans hl', .some ht'⟩
  | pointer =>
    refine Simulates.bind (simulates_operandId h i line 1) fun p q ⟨hc, hl⟩ => .pure ⟨?_, ?_⟩
    · refine ⟨hl.left, hl.right, ?_⟩
      exact { hl.alike with
        pointees := hl.alike.pointees.set (biUnique_sameId ..) (hl.sameId hxy) hc }
    · have hg := types_get? hl.alike hc
      generalize p.2.types.get? p.1 = a at hg ⊢
      generalize q.2.types.get? q.1 = b at hg ⊢
      cases hg with
      | none => exact .none
      | some ht => exact .some { ht with pointer := rfl }

theorem simulates_declareType (kind : TypeOpcode) :
    Simulates (Later named d e) (d.declareType kind i) (e.declareType kind { i with line }) := by
  refine Simulates.bind (simulates_result h i line) fun p q ⟨hxy, hl⟩ => ?_
  refine Simulates.bind (simulates_describe hl.alike i line hxy kind) fun a b ⟨hl', ht⟩ => ?_
  obtain ⟨d₁, t?⟩ := a
  obtain ⟨e₁, u?⟩ := b
  cases ht with
  | none => exact .pure (hl.trans hl')
  | some ht =>
    refine .pure (hl.trans ⟨hl'.left, hl'.right, ?_⟩)
    exact { hl'.alike with
      types := hl'.alike.types.set (biUnique_sameId ..) (hl'.sameId hxy) ht }

end Types

section Steps

variable {named : Prop} {d e d' e' : Declarations} (h : Alike named d e)
include h

/-- From modules that are alike, an instruction that declares no variable leads to modules that are
alike. A name does so only where names count. -/
theorem simulates_declare (i : Instruction) (line : Nat)
    (hv : Opcode.ofName i.opcode ≠ .variable)
    (hn : Opcode.ofName i.opcode = .name ∨ Opcode.ofName i.opcode = .memberName → named) :
    Simulates (Later named d e) (d.declare i) (e.declare { i with line }) := by
  unfold declare
  dsimp only
  generalize Opcode.ofName i.opcode = o at hv hn ⊢
  cases o with
  | entryPoint =>
    refine Simulates.bind (.refl _) fun name _ hname => ?_
    refine Simulates.bind (.refl _) fun model _ hmodel => ?_
    rw [← hname, ← hmodel]
    refine .pure ⟨List.prefix_refl _, List.prefix_refl _, ?_⟩
    exact { h with entryPoints := congrArg (· ++ [⟨name, .ofName model⟩]) h.entryPoints }
  | name =>
    refine Simulates.bind (.refl _) fun text _ htext => ?_
    refine Simulates.bind (simulates_operandId h i line 0) fun p q ⟨hc, hl⟩ => ?_
    rw [← htext]
    refine .pure ⟨hl.left, hl.right, ?_⟩
    have hnamed := hn (.inl rfl)
    have hset := (hl.alike.names hnamed).set (biUnique_sameId ..) hc (Eq.refl text)
    exact { hl.alike with
      names := fun _ => hset
      noNames := fun hn' => absurd hnamed hn' }
  | memberName =>
    refine Simulates.bind (simulates_operandId h i line 0) fun p q ⟨hc, hl⟩ => ?_
    refine Simulates.bind (.refl _) fun text _ htext => ?_
    refine Simulates.bind (.refl _) fun index _ hindex => ?_
    rw [← htext, ← hindex]
    refine .pure ⟨hl.left, hl.right, ?_⟩
    have hnamed := hn (.inr rfl)
    have hkey : SameKey (SameId p.2.ids q.2.ids) (p.1, index) (q.1, index) := ⟨hc, rfl⟩
    have hset := (hl.alike.memberNames hnamed).set (biUnique_sameKey (biUnique_sameId ..)) hkey
      (Eq.refl text)
    exact { hl.alike with
      memberNames := fun _ => hset
      noMemberNames := fun hn' => absurd hnamed hn' }
  | decorate =>
    refine Simulates.bind (simulates_operandId h i line 0) fun p q ⟨hc, hl⟩ => ?_
    refine Simulates.bind (.refl _) fun kind _ hkind => ?_
    rw [← hkind]
    refine .pure ⟨hl.left, hl.right, ?_⟩
    exact { hl.alike with
      decorations := hl.alike.decorations.set (biUnique_sameKey (biUnique_sameId ..))
        ⟨hc, rfl⟩ rfl }
  | memberDecorate =>
    refine Simulates.bind (simulates_operandId h i line 0) fun p q ⟨hc, hl⟩ => ?_
    refine Simulates.bind (.refl _) fun index _ hindex => ?_
    refine Simulates.bind (.refl _) fun kind _ hkind => ?_
    rw [← hindex, ← hkind]
    refine .pure ⟨hl.left, hl.right, ?_⟩
    exact { hl.alike with
      memberDecorations := hl.alike.memberDecorations.set (biUnique_sameKey (biUnique_sameId ..))
        ⟨hc, rfl⟩ rfl }
  | constant =>
    dsimp only
    split
    · intro a ha
      cases ha
    · refine Simulates.bind (simulates_result h i line) fun p q ⟨hc, hl⟩ => ?_
      refine .pure ⟨hl.left, hl.right, ?_⟩
      exact { hl.alike with
        constants := hl.alike.constants.set (biUnique_sameId ..) hc rfl }
    · exact .pure h.later
  | «variable» => exact absurd rfl hv
  | type kind => exact simulates_declareType h i line kind
  | silent => exact .pure h.later

/-- A variable adds no fact, and neither does a name where names do not count. -/
theorem alike_left {i : Instruction} (hd : d.declare i = .ok d')
    (ho : Opcode.ofName i.opcode = .variable ∨
      ¬named ∧ (Opcode.ofName i.opcode = .name ∨ Opcode.ofName i.opcode = .memberName)) :
    Alike named d' e := by
  have hd := declare_ok hd
  generalize Opcode.ofName i.opcode = o at hd ho
  cases hd with
  | global hp =>
    have hs := h.ids hp (List.prefix_refl e.ids)
    exact { hs with }
  | name hp =>
    have hs := h.ids hp (List.prefix_refl e.ids)
    have hn : ¬named := by simpa using ho
    exact { hs with names := fun hn' => absurd hn' hn }
  | memberName hp =>
    have hs := h.ids hp (List.prefix_refl e.ids)
    have hn : ¬named := by simpa using ho
    exact { hs with memberNames := fun hn' => absurd hn' hn }
  | _ => simp at ho

theorem alike_right {i : Instruction} (he : e.declare i = .ok e')
    (ho : Opcode.ofName i.opcode = .variable) : Alike named d e' := by
  have he := declare_ok he
  rw [ho] at he
  cases he with
  | global hp =>
    have hs := h.ids (List.prefix_refl d.ids) hp
    exact { hs with }

end Steps

structure HasVariable (i : Instruction) : Prop where
  result : ∃ name, i.result = some name
  typeId : ∃ name, i.idAt 0 = .ok name
  storage : ∃ name, i.textAt 1 = .ok name

theorem VariableOf.hasVariable {d : Declarations} {i : Instruction} {v : Variable}
    (h : VariableOf d i v) : HasVariable i where
  result := h.id.imp fun _ ⟨hn, _⟩ => hn
  typeId := h.typeId.imp fun _ ⟨hn, _⟩ => hn
  storage := h.storage.imp fun _ ⟨hn, _⟩ => hn

theorem exists_ok_bind {x : Except ε α} {f : α → Except ε β} {a : α} (h : x = .ok a)
    (hf : ∃ b, f a = .ok b) : ∃ b, x >>= f = .ok b := by
  obtain ⟨b, hb⟩ := hf
  exact ⟨b, bind_eq_ok.mpr ⟨a, h, hb⟩⟩

/-- Whether a variable can be declared does not depend on the module. -/
theorem declare_of_hasVariable {i : Instruction} (ho : Opcode.ofName i.opcode = .variable)
    (hi : HasVariable i) (d : Declarations) : ∃ e, d.declare i = .ok e := by
  obtain ⟨name, hn⟩ := hi.result
  obtain ⟨typeName, ht⟩ := hi.typeId
  obtain ⟨storage, hs⟩ := hi.storage
  unfold declare
  rw [ho]
  have hr : d.result i = .ok (d.intern name) := by
    unfold result
    rw [hn]
  have hc : (d.intern name).2.operandId i 0 = .ok ((d.intern name).2.intern typeName) :=
    bind_eq_ok.mpr ⟨typeName, ask_eq_ok.mpr ht, rfl⟩
  exact exists_ok_bind hr (exists_ok_bind hc (exists_ok_bind (ask_eq_ok.mpr hs) ⟨_, rfl⟩))

/-- Two listings with the same instructions up to their lines, variables apart. Where names do not
count, the second listing has none. -/
inductive Aligned (named : Prop) : List Instruction → List Instruction → Prop where
  | nil : Aligned named [] []
  | both {is js : List Instruction} (i : Instruction) (line : Nat)
      (hv : Opcode.ofName i.opcode ≠ .variable)
      (hn : Opcode.ofName i.opcode = .name ∨ Opcode.ofName i.opcode = .memberName → named)
      (h : Aligned named is js) : Aligned named (i :: is) ({ i with line } :: js)
  | left {is js : List Instruction} (i : Instruction)
      (ho : Opcode.ofName i.opcode = .variable ∨
        ¬named ∧ (Opcode.ofName i.opcode = .name ∨ Opcode.ofName i.opcode = .memberName))
      (h : Aligned named is js) : Aligned named (i :: is) js
  | right {is js : List Instruction} (j : Instruction) (ho : Opcode.ofName j.opcode = .variable)
      (hj : HasVariable j) (h : Aligned named is js) : Aligned named is (j :: js)

/-- Where the first of two aligned listings makes a module, so does the second, and the modules are
alike. -/
theorem Aligned.declareAll {named : Prop} {is js : List Instruction} (ha : Aligned named is js)
    {d e d' : Declarations} (h : Alike named d e) (hd : d.declareAll is = .ok d') :
    ∃ e', e.declareAll js = .ok e' ∧ Alike named d' e' := by
  induction ha generalizing d e with
  | nil =>
    rw [← pure_eq_ok.mp hd]
    exact ⟨e, rfl, h⟩
  | both i line hv hn _ ih =>
    obtain ⟨d₁, h₁, hd⟩ := bind_eq_ok.mp hd
    obtain ⟨e₁, he₁, hl⟩ := simulates_declare h i line hv hn d₁ h₁
    obtain ⟨e', he, halike⟩ := ih hl.alike hd
    exact ⟨e', bind_eq_ok.mpr ⟨e₁, he₁, he⟩, halike⟩
  | left i ho _ ih =>
    obtain ⟨d₁, h₁, hd⟩ := bind_eq_ok.mp hd
    exact ih (alike_left h h₁ ho) hd
  | right j ho hj _ ih =>
    obtain ⟨e₁, he₁⟩ := declare_of_hasVariable ho hj e
    obtain ⟨e', he, halike⟩ := ih (alike_right h he₁ ho) hd
    exact ⟨e', bind_eq_ok.mpr ⟨e₁, he₁, he⟩, halike⟩

end Declarations
end ShaderReflection.Module
