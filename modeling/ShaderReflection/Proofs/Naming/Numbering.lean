import ShaderReflection.Proofs.Layout.SizeAccounting
import ShaderReflection.Proofs.Naming.FieldNames
import ShaderReflection.Proofs.Reflection.Completeness

/-! The numbers of a document. The fields of members without a declared name get consecutive numbers
in the order of the document, and nothing else takes a number: not a struct that is left out, not the
vertex struct, and not a reflection that fails. -/
namespace ShaderReflection

/-- The fields that are named while a namer becomes another one, each with what its name has behind
the number. No number is left out. -/
structure Numbers (n : Namer) (fields : List (StructMember × String)) (n' : Namer) : Prop where
  next : n'.next = n.next + fields.length
  names : ∀ (j : Nat) f, fields[j]? = some f → f.1.name = numbered (n.next + j) f.2

namespace Numbers

variable {n m k : Namer} {fs gs : List (StructMember × String)}

theorem nil (n : Namer) : Numbers n [] n where
  next := by simp
  names j f hf := by simp at hf

theorem cons {f : StructMember × String} (hname : f.1.name = numbered n.next f.2)
    (hnext : m.next = n.next + 1) (h : Numbers m fs k) : Numbers n (f :: fs) k where
  next := by
    have hk := h.next
    rw [List.length_cons]
    omega
  names j g hg := by
    cases j with
    | zero =>
      obtain rfl : f = g := Option.some.inj hg
      simpa using hname
    | succ j =>
      have hrest := h.names j g hg
      have hsame : n.next + ((j + 1 : Nat) : Int) = m.next + (j : Int) := by omega
      rw [hsame]
      exact hrest

theorem append (h : Numbers n fs m) (h' : Numbers m gs k) : Numbers n (fs ++ gs) k where
  next := by
    have hm := h.next
    have hk := h'.next
    rw [List.length_append]
    omega
  names j f hf := by
    by_cases hj : j < fs.length
    · rw [List.getElem?_append_left hj] at hf
      exact h.names j f hf
    · rw [List.getElem?_append_right (by omega)] at hf
      have hrest := h'.names (j - fs.length) f hf
      have hm := h.next
      have hsame : n.next + (j : Int) = m.next + ((j - fs.length : Nat) : Int) := by omega
      rw [hsame]
      exact hrest

end Numbers

structure LaidStruct where
  id : Id
  definition : StructDefinition
  runs : List (List StructMember)

namespace Shader

/-- The fields of members without a declared name, each with its suffix. The first member has the
given place; a second field of a member is padding. -/
def unnamedFrom (s : Shader) (id : Id) (index : Nat) :
    List (List StructMember) → List (StructMember × String)
  | [] => []
  | run :: runs =>
    (if (s.declaredName? id index).isSome then [] else run.zip ["", "_pad"]) ++
      s.unnamedFrom id (index + 1) runs

def unnamedFields (s : Shader) (l : LaidStruct) : List (StructMember × String) :=
  s.unnamedFrom l.id 0 l.runs

/-- A struct that has a definition, made up of the fields of its members. -/
structure LaidOut (s : Shader) (l : LaidStruct) : Prop where
  run : ∃ n n', s.structDefinition l.id n = (.ok l.definition, n')
  members : ∃ t ts, s.Definable l.id t ts ∧ List.Forall₂ MemberFields ts l.runs
  fields : l.runs.flatten = l.definition.members

section Fields

variable {s : Shader} {id : Id} {n n' : Namer}

theorem nameEntries_append {es es' : List Entry} {ns : List NamedBlock}
    (h : s.nameEntries id n (es ++ es') = (some ns, n')) :
    ∃ ms rest m, s.nameEntries id n es = (some ms, m) ∧ s.nameEntries id m es' = (some rest, n') ∧
      ns = ms ++ rest := by
  induction es generalizing n ns with
  | nil => exact ⟨[], ns, n, rfl, h, rfl⟩
  | cons e es ih =>
    obtain ⟨name, type, tail, m, htype, hname, htail, rfl⟩ := nameEntries_cons_iff.mp h
    obtain ⟨ms, rest, k, hms, hrest, rfl⟩ := ih htail
    have hfirst := nameEntries_cons_iff.mpr ⟨name, type, ms, m, htype, hname, hms, rfl⟩
    exact ⟨_, rest, k, hfirst, hrest, rfl⟩

private theorem memberName_unnamed {index : Int} {suffix name : String}
    (hd : s.declaredName? id index = none)
    (h : s.memberName id index suffix n = (some name, n')) :
    name = numbered n.next suffix ∧ n'.next = n.next + 1 := by
  unfold memberName at h
  rw [hd, Namer.take_eq] at h
  dsimp only at h
  obtain ⟨hname, rfl⟩ := Prod.mk.inj h
  split at hname
  · exact ⟨(Option.some.inj hname).symm, rfl⟩
  · cases hname

private theorem memberName_declared {index : Int} {suffix : String} {name? : Option String}
    (hd : (s.declaredName? id index).isSome = true)
    (h : s.memberName id index suffix n = (name?, n')) : n' = n := by
  obtain ⟨declared, hdeclared⟩ := Option.isSome_iff_exists.mp hd
  unfold memberName at h
  rw [hdeclared] at h
  exact (congrArg Prod.snd h).symm

/-- The parts of a member with a declared name take no numbers. -/
theorem nameEntries_declared {index : Nat} (hd : (s.declaredName? id index).isSome = true)
    {bs : List Block} {ns : List NamedBlock}
    (h : s.nameEntries id n (bs.map (⟨index, ·⟩)) = (some ns, n')) : n' = n := by
  induction bs generalizing n ns with
  | nil => exact (congrArg Prod.snd h).symm
  | cons b bs ih =>
    obtain ⟨name, type, rest, m, -, hname, hrest, -⟩ := nameEntries_cons_iff.mp h
    have hm : m = n := memberName_declared hd hname
    exact (ih hrest).trans hm

/-- The parts of a member without a declared name take one number each. -/
theorem nameEntries_unnamed {index : Nat} (hd : s.declaredName? id index = none)
    {bs : List Block} {suffixes : List String} (hs : bs.map (·.suffix) <+: suffixes)
    {ns : List NamedBlock} (h : s.nameEntries id n (bs.map (⟨index, ·⟩)) = (some ns, n'))
    (offset : Int) : Numbers n ((place offset ns).zip suffixes) n' := by
  induction bs generalizing n ns offset suffixes with
  | nil =>
    cases h
    exact .nil _
  | cons b bs ih =>
    obtain ⟨name, type, rest, m, -, hname, hrest, rfl⟩ := nameEntries_cons_iff.mp h
    obtain ⟨others, rfl⟩ := hs
    obtain ⟨hnumber, hnext⟩ := memberName_unnamed hd hname
    have htail := ih (List.prefix_append _ others) hrest (offset + b.byteLength)
    exact .cons hnumber hnext htail

private theorem map_suffix_isPrefix (t : TypeDescriptor) :
    (MemberClass.ofType t).blocks.map (·.suffix) <+: ["", "_pad"] := by
  rw [map_suffix_blocks]
  split
  · exact List.prefix_rfl
  · exact ⟨["_pad"], rfl⟩

/-- The fields of the members of a struct, with the numbers of those without a declared name. The
first member has the given place. -/
private theorem exists_numbers {ts : List TypeDescriptor} {index : Nat} {ns : List NamedBlock}
    (h : s.nameEntries id n (entriesFrom index ts) = (some ns, n')) (offset : Int) :
    ∃ runs : List (List StructMember), runs.flatten = place offset ns ∧
      List.Forall₂ MemberFields ts runs ∧ Numbers n (s.unnamedFrom id index runs) n' := by
  induction ts generalizing index ns n offset with
  | nil =>
    cases h
    exact ⟨[], rfl, .nil, .nil _⟩
  | cons t ts ih =>
    obtain ⟨ms, rest, m, hms, hrest, rfl⟩ := nameEntries_append h
    have hwrites := nameEntries_writes hms
    rw [List.map_map, Function.comp_def, List.map_id'' fun _ => rfl] at hwrites
    obtain ⟨runs, hflatten, hfields, hnumbers⟩ :=
      ih hrest (offset + total (ms.map (·.byteLength)))
    have hfirst : Numbers n (if (s.declaredName? id index).isSome then []
        else (place offset ms).zip ["", "_pad"]) m := by
      cases hd : s.declaredName? id index with
      | some name =>
        obtain rfl := nameEntries_declared (by rw [hd]; rfl) hms
        exact .nil m
      | none => exact nameEntries_unnamed hd (map_suffix_isPrefix t) hms offset
    refine ⟨place offset ms :: runs, ?_, .cons (memberFields_place hwrites offset) hfields,
      hfirst.append hnumbers⟩
    rw [List.flatten_cons, hflatten, place_append]

theorem structDefinition_numbers {d : StructDefinition}
    (h : s.structDefinition id n = (.ok d, n')) :
    ∃ runs, s.LaidOut ⟨id, d, runs⟩ ∧ Numbers n (s.unnamedFields ⟨id, d, runs⟩) n' := by
  rcases s.structDefinition_cases id n with ⟨t, ts, hd⟩ | ⟨-, reason, hskip⟩
  · obtain ⟨t', ts', ns, ht, -, hts, hn, hdef⟩ := structDefinition_ok h
    obtain rfl : t = t' := Option.some.inj (hd.type.symm.trans ht)
    obtain ⟨runs, hflatten, hfields, hnumbers⟩ := exists_numbers hn 0
    have hdefinable : s.Definable id t ts' := ⟨ht, hd.isStruct, hd.notReserved, hts⟩
    refine ⟨runs, ⟨⟨n, n', h⟩, ⟨t, ts', hdefinable, hfields⟩, ?_⟩, hnumbers⟩
    rw [hflatten, hdef]
  · rw [hskip] at h
    cases h

theorem structDefinition_skipped {reason : StructSkip}
    (h : (s.structDefinition id n).1 = .error (.skipped reason)) :
    (¬∃ t ts, s.Definable id t ts) ∧ (s.structDefinition id n).2 = n := by
  rcases s.structDefinition_cases id n with ⟨t, ts, hd⟩ | ⟨hnone, reason', hskip⟩
  · rw [hd.structDefinition_eq] at h
    dsimp only at h
    split at h <;> cases h
  · exact ⟨hnone, by rw [hskip]⟩

/-- The structs of some identities that have definitions, in order, share the numbers that are handed
out. -/
theorem structOutcomes_numbers {ids : List Id} (h : isBroken (s.structOutcomes n ids).1 = false) :
    ∃ laid : List LaidStruct,
      definitionsOf (s.structOutcomes n ids).1 = laid.map (·.definition) ∧
      (laid.map (·.id)).Sublist ids ∧
      (∀ id ∈ ids, id ∈ laid.map (·.id) ↔ ∃ t ts, s.Definable id t ts) ∧
      (∀ l ∈ laid, s.LaidOut l) ∧
      Numbers n (laid.flatMap s.unnamedFields) (s.structOutcomes n ids).2 := by
  induction ids generalizing n with
  | nil => exact ⟨[], rfl, List.Sublist.slnil, by simp, by simp, .nil n⟩
  | cons id ids ih =>
    cases hd : s.structDefinition id n with
    | mk outcome m =>
      by_cases hw : outcome = .error .unwritable
      · rw [hw] at hd
        rw [structOutcomes_cons_unwritable hd] at h
        cases h
      · rw [structOutcomes_cons hd hw, isBroken_cons_of_ne hw] at h
        rw [structOutcomes_cons hd hw]
        obtain ⟨laid, hdefs, hsub, hids, hlaid, hnumbers⟩ := ih h
        cases outcome with
        | ok d =>
          obtain ⟨runs, hl, hfirst⟩ := structDefinition_numbers hd
          refine ⟨⟨id, d, runs⟩ :: laid, congrArg (d :: ·) hdefs, hsub.cons_cons id, ?_,
            List.forall_mem_cons.mpr ⟨hl, hlaid⟩, hfirst.append hnumbers⟩
          have hdefinable : ∃ t ts, s.Definable id t ts := by
            obtain ⟨t, ts, hdefinable, -⟩ := hl.members
            exact ⟨t, ts, hdefinable⟩
          intro x hx
          by_cases hxid : x = id
          · subst hxid
            exact iff_of_true List.mem_cons_self hdefinable
          · have hx : x ∈ ids := (List.mem_cons.mp hx).resolve_left hxid
            rw [← hids x hx, List.map_cons, List.mem_cons]
            exact or_iff_right hxid
        | error absence =>
          cases absence with
          | unwritable => exact absurd rfl hw
          | skipped reason =>
            obtain ⟨hnone, hsame⟩ := structDefinition_skipped (congrArg Prod.fst hd)
            rw [hd] at hsame
            dsimp only at hsame
            rw [← hsame]
            refine ⟨laid, hdefs, hsub.cons id, ?_, hlaid, hnumbers⟩
            intro x hx
            by_cases hin : x ∈ ids
            · exact hids x hin
            · obtain rfl : x = id := (List.mem_cons.mp hx).resolve_right hin
              exact iff_of_false (fun hmem => hin (hsub.subset hmem)) hnone

end Fields

/-- The numbering of a document has no gaps. A reflection that fails leaves the namer as it was, a
number that cannot be written apart. One that succeeds numbers the fields without declared names over
all structs with definitions, in the order of the document, from the next number on. A struct that is
left out takes no number, and neither does the vertex struct. -/
theorem reflect_numbers (s : Shader) (o : ReflectionOptions) (n : Namer) :
    (∀ e, (s.reflect o n).1 = .error e → ¬IsUnwritable (s.reflect o n).1 →
      (s.reflect o n).2 = n) ∧
    (∀ r, (s.reflect o n).1 = .ok r → ∃ (entry : EntryPoint) (laid : List LaidStruct),
      s.entryPoints = [entry] ∧
      r.document.structs =
        definitionsOf (s.vertexOutcomes entry.model) ++ laid.map (·.definition) ∧
      definitionsOf (s.allStructOutcomes n).1 = laid.map (·.definition) ∧
      (laid.map (·.id)).Sublist s.structIds.eraseDups ∧
      (∀ id ∈ s.structIds, id ∈ laid.map (·.id) ↔ ∃ t ts, s.Definable id t ts) ∧
      (∀ l ∈ laid, s.LaidOut l) ∧
      Numbers n (laid.flatMap s.unnamedFields) (s.reflect o n).2) ∧
    ∀ id m reason, (s.structDefinition id m).1 = .error (.skipped reason) →
      (s.structDefinition id m).2 = m := by
  have hskipped : ∀ id m reason, (s.structDefinition id m).1 = .error (.skipped reason) →
      (s.structDefinition id m).2 = m :=
    fun _ _ _ hskip => (structDefinition_skipped hskip).2
  by_cases hc : s.Complete
  · have hrun := hc.reflect_run o n
    generalize s.reflect o n = p at hrun ⊢
    cases hrun with
    | unwritable v t _ =>
      refine ⟨?_, nofun, hskipped⟩
      intro e _ hwritable
      exact absurd ⟨v, t, rfl⟩ hwritable
    | @document r entry he hd hs =>
      refine ⟨nofun, ?_, hskipped⟩
      intro r' hr
      obtain rfl := Except.ok.inj hr
      obtain ⟨laid, hdefs, hsub, hids, hlaid, hnumbers⟩ := structOutcomes_numbers hs
      refine ⟨entry, laid, he, ?_, hdefs, hsub, ?_, hlaid, hnumbers⟩
      · rw [hd.structs, s.definitionsOf_vertexOutcomes, ← hdefs]
        rfl
      · intro id hid
        exact hids id (List.mem_eraseDups.mpr hid)
  · obtain ⟨e, he⟩ := Option.ne_none_iff_exists'.mp (mt s.firstFailure?_eq_none_iff.mp hc)
    rw [s.reflect_eq_error he]
    exact ⟨fun _ _ _ => rfl, nofun, hskipped⟩

/-- A vertex shader with four structs. The first one names its first member only, the compiler made
the second, the third has a member without a type, and the last one has no names. -/
def numberedShader : Shader where
  entryPoints := [⟨"main", .vertex⟩]
  resources
    | .stageInputs => [⟨20, 5, 5, "position"⟩]
    | _ => []
  type? id := [
    (1, { baseType := .struct, selfId := 1, members := [6, 6, 5] }),
    (2, { baseType := .struct, selfId := 2, members := [5] }),
    (3, { baseType := .struct, selfId := 3, members := [5, 9] }),
    (4, { baseType := .struct, selfId := 4, members := [5, 6] }),
    (5, { baseType := .float, width := 32, vecsize := 4, selfId := 5 }),
    (6, { baseType := .boolean, width := 32, selfId := 6 })].lookup id
  name id := if id = 2 then "_RESERVED_IDENTIFIER_FIXUP_hidden" else "Struct"
  decoration _ _ := 0
  slots _ := []
  memberName? id index := if id = 1 ∧ index = 0 then some "on" else none
  structIds := [1, 2, 1, 3, 4]

def entrylessShader : Shader := { numberedShader with entryPoints := [] }

/-- The names of all fields of the document; the vertex struct comes first. -/
def numberedFields : List (List String) := [
  ["position"], ["on", "on_pad", "unnamed_7", "unnamed_8_pad", "unnamed_9"],
  ["unnamed_10", "unnamed_11", "unnamed_12_pad"]]

theorem numberedShader_numbers :
    (∃ (r : Reflection) (entry : EntryPoint) (laid : List LaidStruct),
      (numberedShader.reflect ⟨"s", "s.h"⟩ ⟨7⟩).1 = .ok r ∧
      (numberedShader.reflect ⟨"s", "s.h"⟩ ⟨7⟩).2 = ⟨13⟩ ∧
      r.document.structs.map (·.members.map (·.name)) = numberedFields ∧
      r.document.structs =
        definitionsOf (numberedShader.vertexOutcomes entry.model) ++ laid.map (·.definition) ∧
      (∀ l ∈ laid, numberedShader.LaidOut l) ∧
      Numbers ⟨7⟩ (laid.flatMap numberedShader.unnamedFields) ⟨13⟩) ∧
    (∃ e, (entrylessShader.reflect ⟨"s", "s.h"⟩ ⟨7⟩).1 = .error e ∧
      (entrylessShader.reflect ⟨"s", "s.h"⟩ ⟨7⟩).2 = ⟨7⟩) ∧
    (numberedShader.structDefinition 3 ⟨7⟩).2 = ⟨7⟩ := by
  refine ⟨?_, ?_, ?_⟩
  · obtain ⟨r, hr, hnext, hnames⟩ := Module.exists_ok_of_any
      (x := (numberedShader.reflect ⟨"s", "s.h"⟩ ⟨7⟩).1)
      (p := fun r => (numberedShader.reflect ⟨"s", "s.h"⟩ ⟨7⟩).2 = ⟨13⟩ ∧
        r.document.structs.map (·.members.map (·.name)) = numberedFields) (by decide +kernel)
    obtain ⟨entry, laid, -, hstructs, -, -, -, hlaid, hnumbers⟩ :=
      (reflect_numbers numberedShader ⟨"s", "s.h"⟩ ⟨7⟩).2.1 r hr
    rw [hnext] at hnumbers
    exact ⟨r, entry, laid, hr, hnext, hnames, hstructs, hlaid, hnumbers⟩
  · have he : (entrylessShader.reflect ⟨"s", "s.h"⟩ ⟨7⟩).1 = .error (.entryPointCount 0) := by
      decide +kernel
    have hwritable : ¬IsUnwritable (entrylessShader.reflect ⟨"s", "s.h"⟩ ⟨7⟩).1 := by
      rw [he]
      rintro ⟨v, t, ht⟩
      cases ht
    exact ⟨_, he, (reflect_numbers entrylessShader ⟨"s", "s.h"⟩ ⟨7⟩).1 _ he hwritable⟩
  · have hskip : (numberedShader.structDefinition 3 ⟨7⟩).1 =
        .error (.skipped (.unresolved "Struct" 9)) := by decide +kernel
    exact (reflect_numbers numberedShader ⟨"s", "s.h"⟩ ⟨7⟩).2.2 3 ⟨7⟩ _ hskip

end Shader
end ShaderReflection
