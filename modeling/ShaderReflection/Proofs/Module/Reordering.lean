import ShaderReflection.Proofs.Module.AlikeQueries
import ShaderReflection.Proofs.Module.Renaming
import ShaderReflection.Proofs.Reflection.AlikeModules

/-! Listings whose annotations stand in other places. The rest of an instruction list does not see
the annotations, and what they leave does not depend on their places, so that the two modules say
the same about the same names. -/
namespace ShaderReflection.Module

open Assembly (Instruction Operand)

private theorem rename_id (i : Instruction) : i.rename id = i := by
  have hoperands : i.operands.map (·.rename id) = i.operands := by
    rw [List.map_congr_left (g := id) fun o _ => by cases o <;> rfl, List.map_id]
  unfold Instruction.rename
  rw [hoperands, Option.map_id, id]

/-- Two listings with the same instructions at module scope, in orders that differ in where the
annotations stand: those about one key keep their order, and so do all other instructions. -/
def Reordered (is js : List Instruction) : Prop :=
  ∀ k : Option NoteKey, (moduleScope false is).filter (noteKey? · = k) =
    (moduleScope false js).filter (noteKey? · = k)

/-- Two neighbours at module scope have changed places. One of them is an annotation, and the other
one is not about the same. -/
structure Swapped (is js : List Instruction) : Prop where
  places : ∃ before i j after, moduleScope false is = before ++ i :: j :: after ∧
    moduleScope false js = before ++ j :: i :: after ∧
    (annotates i = true ∨ annotates j = true) ∧
    ¬∃ k, noteKey? i = some k ∧ noteKey? j = some k

namespace Declarations

def bare (d : Declarations) : Declarations :=
  { d with memberNames := .empty, decorations := .empty, memberDecorations := .empty }

section Steps

variable {d e : Declarations} {i : Instruction}

private theorem renamed_bare (d : Declarations) : Renamed id Set.univ d d.bare where
  known := fun _ _ => trivial
  ids := (List.map_id _).symm
  names := rfl
  types := rfl
  pointees := rfl
  imageSampled := rfl
  constants := rfl
  globals := rfl
  entryPoints := rfl
  roots := rfl

/-- An instruction that annotates nothing does the same without annotations. -/
theorem agree_declare_bare (ha : annotates i = false) :
    Agree SameDeclarationError (fun e x => x = e.bare) (d.declare i) (d.bare.declare i) := by
  have hagree := agree_declare_plain (renamed_bare d) (Set.injOn_id _) (fun _ _ => trivial) ha
  rw [rename_id] at hagree
  apply hagree.imp
  intro e x _ hx hr
  obtain ⟨hm, hd, hmd⟩ := declare_annotations hx ha
  have hids : x.ids = e.ids := hr.ids.trans (List.map_id _)
  obtain ⟨_, hids', hnames, htypes, hpointees, himages, hconstants, hglobals, hentries, hroots⟩ := hr
  cases x
  simp_all [bare]

theorem declare_bare (h : d.declare i = .ok e) (ha : annotates i = false) :
    d.bare.declare i = .ok e.bare := by
  have hagree := agree_declare_bare (d := d) ha
  rw [h] at hagree
  generalize d.bare.declare i = y at hagree ⊢
  cases hagree with
  | ok hx => rw [hx]

theorem exists_declare_of_bare {x : Declarations} (h : d.bare.declare i = .ok x)
    (ha : annotates i = false) : ∃ e, d.declare i = .ok e ∧ x = e.bare := by
  have hagree := agree_declare_bare (d := d) ha
  rw [h] at hagree
  generalize d.declare i = y at hagree ⊢
  cases hagree with
  | ok hx => exact ⟨_, rfl, hx⟩

/-- An annotation adds ids to what is left without annotations. -/
theorem bare_of_annotation (h : d.declare i = .ok e) (ha : annotates i = true) :
    ∃ ids, d.bare.ids <+: ids ∧ e.bare = { d.bare with ids } := by
  obtain ⟨m, hm⟩ := exists_note h ha
  have he := declare_of_note? hm d
  rw [h] at he
  obtain rfl := Except.ok.inj he
  obtain ⟨ids, hp, hd⟩ := interned_intern d m.target
  refine ⟨ids, hp, ?_⟩
  rw [hd]
  cases m <;> rfl

end Steps

/-- Where what is left of two modules without annotations is alike, listings that agree apart from
their annotations lead to such modules again. -/
theorem interleaved_declareAll {is js : List Instruction}
    (hi : Interleaved (!annotates ·) is js)
    (hjs : ∀ j ∈ js, annotates j = true → ∃ m, note? j = some m) {d e d' : Declarations}
    (h : Alike True d.bare e.bare) (hd : d.declareAll is = .ok d') :
    ∃ e', e.declareAll js = .ok e' ∧ Alike True d'.bare e'.bare := by
  induction hi generalizing d e with
  | nil =>
    rw [← pure_eq_ok.mp hd]
    exact ⟨e, rfl, h⟩
  | both i hplain _ ih =>
    have ha : annotates i = false := by simpa using hplain
    rw [List.forall_mem_cons] at hjs
    obtain ⟨d₁, h₁, hd⟩ := bind_eq_ok.mp hd
    obtain ⟨e₁, he₁, halike⟩ : ∃ e₁, e.declare i = .ok e₁ ∧ Alike True d₁.bare e₁.bare := by
      have hbare := declare_bare h₁ ha
      by_cases hv : Opcode.ofName i.opcode = .variable
      · have hi : isVariable i = true := isVariable_iff.mpr hv
        rcases declare_globals h₁ with ⟨hi', -⟩ | ⟨-, v, hvar, -⟩
        · rw [hi] at hi'
          cases hi'
        · obtain ⟨e₁, he₁⟩ := declare_of_hasVariable hv hvar.hasVariable e
          exact ⟨e₁, he₁, alike_right (alike_left h hbare (.inl hv)) (declare_bare he₁ ha) hv⟩
      · obtain ⟨x, hx, hl⟩ := simulates_declare h i i.line hv (fun _ => trivial) _ hbare
        obtain ⟨e₁, he₁, rfl⟩ := exists_declare_of_bare hx ha
        exact ⟨e₁, he₁, hl.alike⟩
    obtain ⟨e', he, halike⟩ := ih hjs.2 halike hd
    exact ⟨e', bind_eq_ok.mpr ⟨e₁, he₁, he⟩, halike⟩
  | left i hplain _ ih =>
    obtain ⟨d₁, h₁, hd⟩ := bind_eq_ok.mp hd
    obtain ⟨ids, hp, hb⟩ := bare_of_annotation h₁ (by simpa using hplain)
    refine ih hjs ?_ hd
    rw [hb]
    exact h.ids hp (List.prefix_refl e.bare.ids)
  | right j hplain _ ih =>
    have ha : annotates j = true := by simpa using hplain
    rw [List.forall_mem_cons] at hjs
    obtain ⟨m, hm⟩ := hjs.1 ha
    have he₁ := declare_of_note? hm e
    obtain ⟨ids, hp, hb⟩ := bare_of_annotation he₁ ha
    have halike : Alike True d.bare (m.addTo (e.intern m.target).1 (e.intern m.target).2).bare := by
      rw [hb]
      exact h.ids (List.prefix_refl d.bare.ids) hp
    obtain ⟨e', he, halike⟩ := ih hjs.2 halike hd
    exact ⟨e', bind_eq_ok.mpr ⟨_, he₁, he⟩, halike⟩

section Reordered

variable {is js : List Instruction} {d : Declarations}

/-- In a listing that makes a module, every annotation has a note. -/
theorem exists_note_of_mem {d' : Declarations} (h : d.declareAll is = .ok d') {i : Instruction}
    (hi : i ∈ is) (ha : annotates i = true) : ∃ m, note? i = some m := by
  induction is generalizing d with
  | nil => cases hi
  | cons j is ih =>
    obtain ⟨d₁, h₁, h⟩ := bind_eq_ok.mp h
    rcases List.mem_cons.mp hi with rfl | hi
    · exact exists_note h₁ ha
    · exact ih h hi

theorem annotates_eq_false_of_noteKey? {i : Instruction} (hk : noteKey? i = none)
    (hn : annotates i = true → ∃ m, note? i = some m) : annotates i = false := by
  apply Bool.eq_false_iff.mpr
  intro ha
  obtain ⟨m, hm⟩ := hn ha
  simp [noteKey?, hm] at hk

theorem annotates_of_noteKey? {i : Instruction} {k : NoteKey} (h : noteKey? i = some k) :
    annotates i = true := by
  obtain ⟨m, hm, -⟩ := Option.map_eq_some_iff.mp h
  exact annotates_of_note? hm

theorem reordered_of_swapped (hs : Swapped is js) (h : ofInstructions is = .ok d) :
    Reordered is js := by
  obtain ⟨before, i, j, after, his, hjs, ha, hk⟩ := hs.places
  have hnote (l : Instruction) (hl : l ∈ [i, j]) (ha : annotates l = true) :
      ∃ m, note? l = some m := by
    refine exists_note_of_mem h ?_ ha
    rw [his]
    rcases List.mem_pair.mp hl with rfl | rfl <;> simp
  have hne : noteKey? i ≠ noteKey? j := by
    intro heq
    cases hi : noteKey? i with
    | some k => exact hk ⟨k, hi, heq ▸ hi⟩
    | none =>
      have hj : noteKey? j = none := heq ▸ hi
      rcases ha with ha | ha
      · rw [annotates_eq_false_of_noteKey? hi (hnote i (by simp))] at ha
        cases ha
      · rw [annotates_eq_false_of_noteKey? hj (hnote j (by simp))] at ha
        cases ha
  intro k
  rw [his, hjs]
  have hpair : [i, j].filter (noteKey? · = k) = [j, i].filter (noteKey? · = k) := by
    by_cases hi : noteKey? i = k
    · have hj : noteKey? j ≠ k := fun hj => hne (hi.trans hj.symm)
      simp [hi, hj]
    · simp [List.filter_cons, hi]
  have hsplit (x y : Instruction) : (before ++ x :: y :: after).filter (noteKey? · = k) =
      before.filter (noteKey? · = k) ++ ([x, y].filter (noteKey? · = k) ++
        after.filter (noteKey? · = k)) := by
    rw [← List.filter_append, ← List.filter_append]
    rfl
  rw [hsplit, hsplit, hpair]

/-- All annotations may go to the end. -/
theorem reordered_annotationsLast (h : ofInstructions is = .ok d)
    (hjs : moduleScope false js = (moduleScope false is).filter (!annotates ·) ++
      (moduleScope false is).filter annotates) : Reordered is js := by
  intro k
  rw [hjs, List.filter_append, List.filter_filter, List.filter_filter]
  cases k with
  | none =>
    have hnone : ∀ i ∈ moduleScope false is, noteKey? i = none → annotates i = false :=
      fun i hi hk => annotates_eq_false_of_noteKey? hk (exists_note_of_mem h hi)
    have hempty : (moduleScope false is).filter
        (fun i => decide (noteKey? i = none) && annotates i) = [] := by
      rw [List.filter_eq_nil_iff]
      intro i hi hk
      simp [hnone i hi (by simpa using (Bool.and_eq_true_iff.mp hk).1)] at hk
    rw [hempty, List.append_nil]
    apply List.filter_congr
    intro i hi
    by_cases hk : noteKey? i = none
    · simp [hk, hnone i hi hk]
    · simp [hk]
  | some k =>
    have hempty : (moduleScope false is).filter
        (fun i => decide (noteKey? i = some k) && !annotates i) = [] := by
      rw [List.filter_eq_nil_iff]
      intro i _ hk
      have hkey : noteKey? i = some k := by simpa using (Bool.and_eq_true_iff.mp hk).1
      simp [annotates_of_noteKey? hkey] at hk
    rw [hempty, List.nil_append]
    apply List.filter_congr
    intro i _
    by_cases hk : noteKey? i = some k
    · simp [hk, annotates_of_noteKey? hk]
    · simp [hk]

/-- A listing whose annotations have moved makes a module that says the same. -/
theorem exists_alikeModules_of_reordered (hr : Reordered is js) (h : ofInstructions is = .ok d) :
    ∃ e, ofInstructions js = .ok e ∧ AlikeModules True d e := by
  have hplain (p : Instruction → Bool) (hp : ∀ i, p i = true → noteKey? i = none) :
      (moduleScope false is).filter p = (moduleScope false js).filter p := by
    have hnone := congrArg (List.filter p) (hr none)
    rw [List.filter_filter, List.filter_filter] at hnone
    have hand : (fun i => p i && decide (noteKey? i = none)) = p := by
      funext i
      cases hi : p i with
      | false => rfl
      | true => simp [hp i hi]
    rwa [hand] at hnone
  have hnotes : ∀ j ∈ moduleScope false js, annotates j = true → ∃ m, note? j = some m := by
    intro j hj ha
    have hmem : j ∈ (moduleScope false is).filter (noteKey? · = noteKey? j) := by
      rw [hr]
      simpa using hj
    exact exists_note_of_mem h (List.mem_of_mem_filter hmem) ha
  have hinterleaved : Interleaved (!annotates ·) (moduleScope false is) (moduleScope false js) :=
    interleaved_of_filter_eq <| hplain _ fun i hi => by
      cases hk : noteKey? i with
      | none => rfl
      | some k => simp [annotates_of_noteKey? hk] at hi
  have hempty : Alike True empty.bare empty.bare := alike_empty True
  obtain ⟨e, he, hbare⟩ := interleaved_declareAll hinterleaved hnotes hempty h
  have hget (k : NoteKey) : (Notes.empty.addAll (moduleScope false is)).get? k =
      (Notes.empty.addAll (moduleScope false js)).get? k := by
    have his := Notes.get?_addAll (t := .empty) (k := k) rfl (moduleScope false is)
    have hjs := Notes.get?_addAll (t := .empty) (k := k) rfl (moduleScope false js)
    rw [his, hjs, hr]
  obtain ⟨hm, hd, hmd⟩ := like_annotations (noted_declareAll h) (noted_declareAll he) hget
  have hvariables : variablesOf is = variablesOf js := hplain _ fun i hi => by
    cases hk : noteKey? i with
    | none => rfl
    | some k =>
      have ha := annotates_of_noteKey? hk
      unfold annotates at ha
      rw [isVariable_iff.mp hi] at ha
      cases ha
  have hg := globals_ofInstructions (d := e) he
  rw [← hvariables] at hg
  refine ⟨e, he, ?_, trans_of_related (S := VariableOf e) (fun v i w hv hw => ?_)
    (globals_ofInstructions h).flip hg⟩
  · exact { hbare with
      memberNames := fun _ => hm
      noMemberNames := fun hn => absurd trivial hn
      decorations := hd
      memberDecorations := hmd }
  · exact sameVariable_of_variableOf hv hw

end Reordered

end Declarations
end ShaderReflection.Module
