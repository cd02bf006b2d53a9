import ShaderReflection.Proofs.Reflection.AlikeDocuments
import ShaderReflection.Proofs.Reflection.FirstFailure
import ShaderReflection.Proofs.Reflection.Unwritable

/-! Reflection is all or nothing: a document with all resources, or the first failure. -/
namespace ShaderReflection

namespace Shader

/-- The definition of a struct from its fields as `readMembers` gives them. A struct that is left
out has none; what goes wrong with the fields is passed on. -/
def definitionFromMembers (s : Shader) (id : Id) (n : Namer) :
    Except MemberError (Option StructDefinition) × Namer :=
  match (s.type? id).filter (·.isStruct) with
  | none => (.ok none, n)
  | some t =>
    if isReserved (s.name id) then (.ok none, n)
    else
      match s.resolveAll t.members with
      | (_, some _) => (.ok none, n)
      | (ts, none) =>
        match s.readMembers id n with
        | (.error e, n) => (.error e, n)
        | (.ok members, n) =>
          (.ok (some {
            name := s.name id, byteLength := total (ts.map (·.naturalSize)), members }), n)

def ofOutcome : Except (Absence StructSkip) StructDefinition →
    Except MemberError (Option StructDefinition)
  | .ok d => .ok (some d)
  | .error (.skipped _) => .ok none
  | .error .unwritable => .error .unwritable

/-- Members are screened before their fields are read, so nothing goes wrong with the fields of a
struct but for a number that cannot be written. -/
theorem definitionFromMembers_eq (s : Shader) (id : Id) (n : Namer) :
    s.definitionFromMembers id n =
      (ofOutcome (s.structDefinition id n).1, (s.structDefinition id n).2) := by
  unfold definitionFromMembers structDefinition
  cases ht : (s.type? id).filter (·.isStruct) with
  | none => rfl
  | some t =>
    dsimp only
    by_cases hr : isReserved (s.name id) = true
    · rw [if_pos hr, if_pos hr]
      rfl
    · rw [if_neg hr, if_neg hr]
      cases hts : s.resolveAll t.members with
      | mk ts unknown =>
        cases unknown with
        | some m => rfl
        | none =>
          obtain ⟨htype, hs⟩ := Option.filter_eq_some_iff.mp ht
          have hd : s.Definable id t ts :=
            ⟨htype, hs, Bool.eq_false_iff.mpr hr, resolveAll_eq_iff.mp hts⟩
          dsimp only
          rw [hd.readable.readMembers_eq]
          generalize s.layOut id ts n = p
          obtain ⟨_ | members, n'⟩ := p <;> rfl

/-- Some number cannot be written on the way to a document: the size of padding in the vertex struct
or in another one, or a number that the namer hands out. -/
inductive MeetsUnwritable (s : Shader) (n n' : Namer) : Prop where
  | vertex {r : Resource} {t : TypeDescriptor} (hr : r ∈ s.resources .stageInputs)
      (ht : s.type? r.typeId = some t) (ho : (vertexType t).Oversized)
  | struct {id : Id} (hid : id ∈ s.structIds) (ho : s.OversizedStruct id)
  | handedOut (h : Overflows n n')

/-- A document tells of the entry point, has a binding for every resource in order, and has the
vertex struct of a vertex shader, if there is one, in front of the other structs. -/
structure DocumentOf (s : Shader) (o : ReflectionOptions) (n : Namer) (entry : EntryPoint)
    (d : Document) : Prop where
  entryPoint : d.entryPoint = entry.name
  stage : d.stage = entry.model.stage
  shaderName : d.shaderName = o.shaderName
  headerFileName : d.headerFileName = o.headerFileName
  bindings : s.InterfaceOf ⟨d.uniformBuffers, d.stageInputs, d.sampledImages, d.stageOutputs⟩
  structs : d.structs =
    (if entry.model = .vertex then (s.vertexStruct (s.resources .stageInputs)).toOption.toList
      else []) ++ definitionsOf (s.allStructOutcomes n).1

section Vertex

variable (s : Shader)

theorem definitionsOf_vertexOutcomes (model : ExecutionModel) :
    definitionsOf (s.vertexOutcomes model) =
      if model = .vertex then (s.vertexStruct (s.resources .stageInputs)).toOption.toList
      else [] := by
  unfold vertexOutcomes
  split
  · cases s.vertexStruct (s.resources .stageInputs) <;> rfl
  · rfl

theorem exists_of_mapM_eq_error {f : α → Except ε β} {xs : List α} {e : ε}
    (h : xs.mapM f = .error e) : ∃ x ∈ xs, f x = .error e := by
  induction xs with
  | nil => cases h
  | cons x xs ih =>
    rw [List.mapM_cons] at h
    cases hx : f x with
    | error e' =>
      rw [hx] at h
      obtain rfl := Except.error.inj h
      exact ⟨x, List.mem_cons_self, hx⟩
    | ok y =>
      cases hxs : xs.mapM f with
      | ok ys =>
        rw [hx, hxs] at h
        cases h
      | error e' =>
        rw [hx, hxs] at h
        obtain rfl := Except.error.inj h
        obtain ⟨x', hx', he⟩ := ih hxs
        exact ⟨x', List.mem_cons_of_mem _ hx', he⟩

theorem vertexBlock_unwritable {inputs : List Resource} {l : Nat}
    (h : s.vertexBlock inputs l = .error .unwritable) :
    ∃ r ∈ inputs, ∃ t, s.type? r.typeId = some t ∧ (vertexType t).Oversized := by
  unfold vertexBlock at h
  split at h
  · cases h
  case h_2 r t hin =>
    split at h
    case h_2 => cases h
    case h_1 hnone =>
      obtain ⟨q, hq, hin⟩ := Option.bind_eq_some_iff.mp hin
      obtain ⟨u, hu, hin⟩ := Option.bind_eq_some_iff.mp hin
      obtain ⟨rfl, rfl⟩ := Prod.mk.inj (Option.some.inj hin)
      exact ⟨q, List.mem_of_find?_eq_some hq, u, hu, HostType.text_eq_none_iff.mp hnone⟩

theorem vertexStruct_unwritable {inputs : List Resource}
    (h : s.vertexStruct inputs = .error .unwritable) :
    ∃ r ∈ inputs, ∃ t, s.type? r.typeId = some t ∧ (vertexType t).Oversized := by
  unfold vertexStruct at h
  dsimp only at h
  split at h
  · cases h
  split at h
  · cases h
  split at h
  · cases h
  cases hm : (List.range inputs.length).mapM (s.vertexBlock inputs) with
  | ok blocks =>
    rw [hm] at h
    cases h
  | error e =>
    rw [hm] at h
    obtain rfl := Except.error.inj h
    obtain ⟨l, -, hl⟩ := exists_of_mapM_eq_error hm
    exact s.vertexBlock_unwritable hl

theorem meetsUnwritable_of_vertexOutcomes {model : ExecutionModel}
    (h : isBroken (s.vertexOutcomes model) = true) (n n' : Namer) : s.MeetsUnwritable n n' := by
  have hv : s.vertexStruct (s.resources .stageInputs) = .error .unwritable := by
    unfold vertexOutcomes isBroken at h
    split at h
    · match hv : s.vertexStruct (s.resources .stageInputs) with
      | .error .unwritable => rfl
      | .error (.skipped _) | .ok _ => simp [hv] at h
    · cases h
  obtain ⟨r, hr, t, ht, ho⟩ := s.vertexStruct_unwritable hv
  exact .vertex hr ht ho

end Vertex

/-- What becomes of a shader that has all it must have: a document, unless a number cannot be
written. -/
inductive CompleteRun (s : Shader) (o : ReflectionOptions) (n : Namer) :
    Except ReflectionError Reflection × Namer → Prop where
  | unwritable (v : List VertexSkip) (t : List StructSkip) {n' : Namer}
      (h : s.MeetsUnwritable n n') : CompleteRun s o n (.error (.unwritable v t), n')
  | document {r : Reflection} {entry : EntryPoint} (he : s.entryPoints = [entry])
      (hd : s.DocumentOf o n entry r.document)
      (hs : isBroken (s.allStructOutcomes n).1 = false) :
      CompleteRun s o n (.ok r, (s.allStructOutcomes n).2)

theorem Complete.reflect_run {s : Shader} (h : s.Complete) (o : ReflectionOptions) (n : Namer) :
    s.CompleteRun o n (s.reflect o n) := by
  obtain ⟨entry, i, hentry, hok, hi, hof⟩ := h.exists_interface
  unfold reflect
  rw [hok, hi]
  dsimp only
  by_cases hv : isBroken (s.vertexOutcomes entry.model) = true
  · rw [if_pos hv]
    exact .unwritable [] [] (s.meetsUnwritable_of_vertexOutcomes hv n n)
  · rw [if_neg hv]
    by_cases hs : isBroken (s.allStructOutcomes n).1 = true
    · rw [if_pos hs]
      refine .unwritable _ _ ?_
      rcases structOutcomes_broken hs with ⟨id, hid, ho⟩ | ho
      · exact .struct (List.mem_eraseDups.mp hid) ho
      · exact .handedOut ho
    · rw [if_neg hs]
      refine .document hentry ⟨rfl, rfl, rfl, rfl, hof, ?_⟩ (Bool.eq_false_iff.mpr hs)
      dsimp only
      rw [definitionsOf_vertexOutcomes]

theorem not_isUnwritable_of_firstFailure? {s : Shader} {e : ReflectionError}
    (h : s.firstFailure? = some e) : ¬ IsUnwritable (.error e) := by
  rintro ⟨v, t, he⟩
  obtain rfl := Except.error.inj he
  unfold firstFailure? at h
  split at h
  · obtain ⟨p, -, hp⟩ := Option.map_eq_some_iff.mp h
    cases hp
  · cases h

/-- Reflection is all or nothing. A shader has a document iff it has one entry point and every
resource has a type, numbers that cannot be written apart; otherwise the first failure is reported.
A document has every resource, and every struct that has a definition. -/
theorem reflect_all_or_nothing (s : Shader) (o : ReflectionOptions) (n : Namer) :
    ((s.reflect o n).1.isOk = true ↔ s.Complete ∧ ¬ IsUnwritable (s.reflect o n).1) ∧
    (¬ s.Complete → ∃ e, s.firstFailure? = some e ∧ s.reflect o n = (.error e, n)) ∧
    (IsUnwritable (s.reflect o n).1 → s.Complete ∧ s.MeetsUnwritable n (s.reflect o n).2) ∧
    (∀ r, (s.reflect o n).1 = .ok r → ∃ entry, s.entryPoints = [entry] ∧
      s.DocumentOf o n entry r.document ∧ isBroken (s.allStructOutcomes n).1 = false) ∧
    ∀ id m, s.definitionFromMembers id m =
      (ofOutcome (s.structDefinition id m).1, (s.structDefinition id m).2) := by
  have hfields := s.definitionFromMembers_eq
  by_cases hc : s.Complete
  · have hrun := hc.reflect_run o n
    generalize s.reflect o n = p at hrun ⊢
    cases hrun with
    | unwritable v t h =>
      have hw : IsUnwritable (.error (.unwritable v t)) := ⟨v, t, rfl⟩
      exact ⟨⟨nofun, fun h => absurd hw h.2⟩, fun h => absurd hc h, fun _ => ⟨hc, h⟩, nofun,
        hfields⟩
    | @document r entry he hd hs =>
      have hw : ¬ IsUnwritable (.ok r) := by nofun
      refine ⟨⟨fun _ => ⟨hc, hw⟩, fun _ => rfl⟩, fun h => absurd hc h, fun h => absurd h hw,
        fun r' hr => ?_, hfields⟩
      obtain rfl := Except.ok.inj hr
      exact ⟨entry, he, hd, hs⟩
  · obtain ⟨e, he⟩ := Option.ne_none_iff_exists'.mp (mt s.firstFailure?_eq_none_iff.mp hc)
    have hw := not_isUnwritable_of_firstFailure? he
    rw [s.reflect_eq_error he]
    exact ⟨⟨nofun, fun h => absurd h.1 hc⟩, fun _ => ⟨e, he, rfl⟩, fun h => absurd h hw, nofun,
      hfields⟩

def surfaceShader (sampler : Option TypeDescriptor) : Shader where
  entryPoints := [⟨"main", .vertex⟩]
  resources := fun
    | .uniformBuffers => [⟨10, 2, 2, "block"⟩]
    | .stageInputs => [⟨11, 1, 1, "position"⟩]
    | .separateImages => [⟨12, 3, 3, "texture"⟩]
    | .separateSamplers => [⟨13, 4, 4, "sampler"⟩]
    | _ => []
  type? := fun
    | 1 => some { baseType := .float, width := 32, vecsize := 4, selfId := 1 }
    | 2 => some { baseType := .struct, selfId := 2, members := [1, 1] }
    | 3 => some { baseType := .image, selfId := 3 }
    | 4 => sampler
    | _ => none
  name := fun _ => ""
  decoration := fun _ _ => 0
  slots := fun _ => []
  memberName? := fun _ _ => none
  structIds := [2, 2]

theorem surfaceShader_all_or_nothing :
    (∃ r entry, ((surfaceShader (some { baseType := .sampler })).reflect ⟨"s", "s.h"⟩ ⟨0⟩).1 =
        .ok r ∧ r.document.sampledImages.map (·.name) = ["texture", "sampler"] ∧
      r.document.structs.map (·.name) = ["PerVertexData", ""] ∧
      (surfaceShader (some { baseType := .sampler })).DocumentOf ⟨"s", "s.h"⟩ ⟨0⟩ entry
        r.document) ∧
    ∃ e, (surfaceShader none).reflect ⟨"s", "s.h"⟩ ⟨0⟩ = (.error e, ⟨0⟩) ∧
      e = .unresolved .sampledImages [⟨13, 4, 4, "sampler"⟩] ∧
      e.message = "Could not reflect sampled images" := by
  constructor
  · obtain ⟨r, hr, himages, hstructs⟩ := Module.exists_ok_of_any
      (x := ((surfaceShader (some { baseType := .sampler })).reflect ⟨"s", "s.h"⟩ ⟨0⟩).1)
      (p := fun r => r.document.sampledImages.map (·.name) = ["texture", "sampler"] ∧
        r.document.structs.map (·.name) = ["PerVertexData", ""]) (by decide +kernel)
    obtain ⟨entry, -, hd, -⟩ := (reflect_all_or_nothing _ _ _).2.2.2.1 r hr
    exact ⟨r, entry, hr, himages, hstructs, hd⟩
  · have hincomplete : ¬ (surfaceShader none).Complete := fun h =>
      absurd (h.typed .separateSamplers ⟨13, 4, 4, "sampler"⟩ List.mem_cons_self) (by decide)
    obtain ⟨e, he, hreflect⟩ :=
      (reflect_all_or_nothing (surfaceShader none) ⟨"s", "s.h"⟩ ⟨0⟩).2.1 hincomplete
    have hfirst : (surfaceShader none).firstFailure? =
        some (.unresolved .sampledImages [⟨13, 4, 4, "sampler"⟩]) := by decide
    obtain rfl := Option.some.inj (hfirst.symm.trans he)
    exact ⟨_, hreflect, rfl, rfl⟩

end Shader
end ShaderReflection
