import ShaderReflection.Proofs.Artifact.Reading

/-! What a reader finds in the implementation: the checks of structs, and the arrays with what they
list. Only these two begin as they do; all other lines begin with one of a few characters. -/
namespace ShaderReflection.Artifact

section Readers

/-- The checks of one struct: the offset of each member, and the size. -/
structure CheckText where
  name : String
  offsets : List (String × Int)
  size : Int
  deriving DecidableEq, Repr

def offsetCheck? (struct line : String) : Option (String × Int) := do
  let (inside, offset) ←
    (between ("static_assert(offsetof(Shader::" ++ struct ++ ", ") ");" line).bind lastNumber?
  let member ← between "" ") == " inside
  return (member, offset)

def check? (b : Block String) : Option CheckText := do
  let offsets ← b.inside.mapM (offsetCheck? b.opening)
  let closing ← b.closing
  let size ← (between ("static_assert(sizeof(Shader::" ++ b.opening ++ ") == ") ");"
    closing).bind integer?
  return { name := b.opening, offsets, size }

def assertionsIn (lines : List String) : List String := lines.filter (begins "static_assert(")

def checksIn (lines : List String) : Option (List CheckText) :=
  (blocksIn (between "static_assert(std::is_standard_layout_v<Shader::" ">);")
    (begins "static_assert(offsetof(") (assertionsIn lines)).mapM check?

/-- An array as it is defined, with the lines of what it lists. -/
structure ArrayText where
  name : String
  length : Int
  entries : List String
  deriving DecidableEq, Repr

def array? (b : Block String) : Option ArrayText := do
  let length ← integer? b.opening
  let first ← b.inside.head?
  let name ← between "    Shader::" " = \x7b" first
  if b.closing = some "\x7d;" then some { name, length, entries := b.inside.tail } else none

def insideArray (line : String) : Bool := begins "    Shader::" line || begins "  &Shader::" line

def arraysIn (lines : List String) : Option (List ArrayText) :=
  (blocksIn (between "const std::array<const ShaderStageIOSlot*, " ">") insideArray lines).mapM
    array?

end Readers

section Marks

/-- How lines begin that are neither checks nor arrays. -/
def plainMarks : List Char := ['/', '#', 'n', 'u', ' ', '\x7d']

/-- Characters with which a plain line can begin; it can also be empty. -/
def BeginsPlain (cs : List Char) : Prop := cs.head?.all (· ∈ plainMarks) = true

instance (cs : List Char) : Decidable (BeginsPlain cs) := inferInstanceAs (Decidable (_ = true))

def Marked (o : String) : Prop := ∃ m ∉ plainMarks, o.toList.head? = some m

theorem marked_ofList {m : Char} {cs : List Char} (h : m ∉ plainMarks) :
    Marked (String.ofList (m :: cs)) :=
  ⟨m, h, by rw [String.toList_ofList, List.head?_cons]⟩

variable {o : String} (ho : Marked o)
include ho

theorem Marked.unlike {line : String} (h : BeginsPlain line.toList) :
    Unlike o line := by
  obtain ⟨m, hm, hhead⟩ := ho
  rintro ⟨rest, hrest⟩
  have hline : line.toList.head? = some m := by
    rw [← hrest, List.head?_append, hhead, Option.some_or]
  unfold BeginsPlain at h
  rw [hline] at h
  exact hm (of_decide_eq_true h)

theorem Marked.literal {cs : List Char} (h : BeginsPlain cs) :
    Unlike o (String.ofList cs) := by
  refine ho.unlike ?_
  rwa [String.toList_ofList]

theorem Marked.append {c : Char} {cs : List Char} (h : BeginsPlain (c :: cs)) (rest : String) :
    Unlike o (String.ofList (c :: cs) ++ rest) := by
  refine ho.unlike ?_
  rwa [String.toList_append, String.toList_ofList]

theorem Marked.opening (d : Document) : ∀ l ∈ preamble d ++ implementationOpening d,
    Unlike o l := by
  unfold preamble implementationOpening
  simp only [String.append_assoc, List.forall_mem_append, List.forall_mem_cons]
  exact ⟨⟨ho.literal (by decide), ho.append (by decide) _, ho.literal (by decide),
    List.forall_mem_nil _⟩, ho.append (by decide) _, ho.literal (by decide),
    ho.literal (by decide), ho.literal (by decide), ho.literal (by decide),
    ho.literal (by decide), ho.append (by decide) _, ho.literal (by decide),
    List.forall_mem_nil _⟩

theorem Marked.entries (bs : List ResourceBinding) (constant : ResourceBinding → String) :
    ∀ l ∈ bs.map fun b => slotEntry (constant b) b, Unlike o l := by
  rw [List.forall_mem_map]
  intro b _
  unfold slotEntry
  simp only [String.append_assoc]
  exact ho.append (by decide) _

def arrayDefinition (comment name : String) (constant : ResourceBinding → String)
    (bs : List ResourceBinding) : List String :=
  slotArrayDefinition comment name (bs.map fun b => slotEntry (constant b) b)

def arrayLines (d : Document) : List String :=
  [""] ++ arrayDefinition "// Stage inputs, in declaration order." "kAllShaderStageInputs"
      inputConstant d.stageInputs
    ++ arrayDefinition "// Stage outputs, in declaration order." "kAllShaderStageOutputs"
      outputConstant d.stageOutputs
    ++ ["\x7d  // namespace impeller"]

omit ho in
theorem implementationLines_eq (d : Document) : implementationLines d =
    (preamble d ++ implementationOpening d) ++ d.structs.flatMap structChecks ++ arrayLines d := by
  unfold implementationLines arrayLines arrayDefinition
  simp only [List.append_assoc]

end Marks

section Checks

def checkedStruct (s : StructDefinition) : CheckText where
  name := s.name
  offsets := s.members.map fun m => (m.name, m.offset)
  size := s.byteLength

private theorem begins_of_mem_structChecks {s : StructDefinition} :
    ∀ l ∈ structChecks s, begins "static_assert(" l = true := by
  unfold structChecks standardLayoutCheck offsetCheck sizeCheck
  simp only [String.append_assoc, List.cons_append, List.forall_mem_append, List.forall_mem_cons,
    List.forall_mem_map]
  exact ⟨begins_ofList_append (by decide) _, fun m _ => begins_ofList_append (by decide) _,
    begins_ofList_append (by decide) _, List.forall_mem_nil _⟩

/-- Nothing but structs is checked. -/
theorem assertionsIn_implementationLines (d : Document) :
    assertionsIn (implementationLines d) = d.structs.flatMap structChecks := by
  have hmark : Marked "static_assert(" := marked_ofList (by decide)
  have harray {cs : List Char} (hcs : BeginsPlain cs) (name : String)
      (constant : ResourceBinding → String) (bs : List ResourceBinding) :
      ∀ l ∈ arrayDefinition (String.ofList cs) name constant bs, Unlike "static_assert(" l := by
    unfold arrayDefinition slotArrayDefinition
    simp only [String.append_assoc, List.forall_mem_append, List.forall_mem_cons]
    exact ⟨⟨⟨hmark.literal hcs, (apart_ofList (by decide)).unlike_append _,
      hmark.append (by decide) _, List.forall_mem_nil _⟩, hmark.entries bs constant⟩,
      hmark.literal (by decide), hmark.literal (by decide), List.forall_mem_nil _⟩
  have hafter : ∀ l ∈ arrayLines d, Unlike "static_assert(" l := by
    unfold arrayLines
    simp only [List.forall_mem_append, List.forall_mem_singleton]
    exact ⟨⟨⟨hmark.literal (by decide), harray (by decide) _ _ _⟩, harray (by decide) _ _ _⟩,
      hmark.literal (by decide)⟩
  have hnone {ls : List String} (h : ∀ l ∈ ls, Unlike "static_assert(" l) :
      ls.filter (begins "static_assert(") = [] :=
    List.filter_eq_nil_iff.mpr fun l hl => Bool.eq_false_iff.mp (h l hl).begins_eq_false
  have hchecks : (d.structs.flatMap structChecks).filter (begins "static_assert(") =
      d.structs.flatMap structChecks := by
    rw [List.filter_eq_self, List.forall_mem_flatMap]
    exact fun s _ => begins_of_mem_structChecks
  unfold assertionsIn
  rw [implementationLines_eq, List.filter_append, List.filter_append, hnone (hmark.opening d),
    hchecks, hnone hafter, List.nil_append, List.append_nil]

theorem offsetCheck?_offsetCheck (s : StructDefinition) (m : StructMember) :
    offsetCheck? s.name (offsetCheck s m) = some (m.name, m.offset) := by
  have hline : offsetCheck s m = "static_assert(offsetof(Shader::" ++ s.name ++ ", "
      ++ (m.name ++ ") == " ++ toString m.offset) ++ ");" := by
    unfold offsetCheck
    simp only [String.append_assoc]
  have hoffset : lastNumber? (m.name ++ ") == " ++ toString m.offset) =
      some (m.name ++ ") == ", m.offset) := lastNumber?_append m.name (by decide) m.offset
  unfold offsetCheck?
  rw [hline, between_append, Option.bind_some, hoffset]
  dsimp only [bind, Option.bind]
  rw [between_empty_append]
  rfl

theorem check?_checked (s : StructDefinition) :
    check? ⟨s.name, s.members.map (offsetCheck s), some (sizeCheck s)⟩ =
      some (checkedStruct s) := by
  have hoffsets : (s.members.map (offsetCheck s)).mapM (offsetCheck? s.name) =
      some (s.members.map fun m => (m.name, m.offset)) :=
    mapM_map_eq_some fun m _ => offsetCheck?_offsetCheck s m
  have hsize : between ("static_assert(sizeof(Shader::" ++ s.name ++ ") == ") ");" (sizeCheck s) =
      some (toString s.byteLength) := between_append _ _ _
  unfold check?
  dsimp only [bind, Option.bind]
  rw [hoffsets]
  dsimp only
  rw [hsize]
  dsimp only
  rw [integer?_toString]
  rfl

theorem blocksIn_structChecks (s : StructDefinition) (rest : List String) :
    blocksIn (between "static_assert(std::is_standard_layout_v<Shader::" ">);")
        (begins "static_assert(offsetof(") (structChecks s ++ rest) =
      ⟨s.name, s.members.map (offsetCheck s), some (sizeCheck s)⟩ ::
        blocksIn (between "static_assert(std::is_standard_layout_v<Shader::" ">);")
          (begins "static_assert(offsetof(") rest := by
  have hopening : between "static_assert(std::is_standard_layout_v<Shader::" ">);"
      (standardLayoutCheck s) = some s.name := between_append _ _ _
  have hmembers : ∀ l ∈ s.members.map (offsetCheck s), begins "static_assert(offsetof(" l = true ∧
      between "static_assert(std::is_standard_layout_v<Shader::" ">);" l = none := by
    rw [List.forall_mem_map]
    intro m _
    unfold offsetCheck
    simp only [String.append_assoc]
    exact ⟨begins_ofList_append (by decide) _,
      ((apart_ofList (by decide)).unlike_append _).between_eq_none _⟩
  have hclosing : begins "static_assert(offsetof(" (sizeCheck s) = false ∧
      between "static_assert(std::is_standard_layout_v<Shader::" ">);" (sizeCheck s) = none := by
    unfold sizeCheck
    simp only [String.append_assoc]
    exact ⟨((apart_ofList (by decide)).unlike_append _).begins_eq_false,
      ((apart_ofList (by decide)).unlike_append _).between_eq_none _⟩
  have hlines : structChecks s ++ rest = standardLayoutCheck s :: s.members.map (offsetCheck s)
      ++ sizeCheck s :: rest := by
    unfold structChecks
    rw [List.append_assoc, List.singleton_append]
  rw [hlines, blocksIn_block hopening hmembers hclosing]

/-- The checks of each struct stand together, in the order of structs. -/
theorem checksIn_implementationLines (d : Document) :
    checksIn (implementationLines d) = some (d.structs.map checkedStruct) := by
  have hblocks : blocksIn (between "static_assert(std::is_standard_layout_v<Shader::" ">);")
      (begins "static_assert(offsetof(") (d.structs.flatMap structChecks ++ []) =
      d.structs.map (fun s => ⟨s.name, s.members.map (offsetCheck s), some (sizeCheck s)⟩) ++ [] :=
    blocksIn_flatMap (fun s _ => blocksIn_structChecks s) []
  unfold checksIn
  rw [assertionsIn_implementationLines, ← List.append_nil (d.structs.flatMap structChecks), hblocks,
    List.append_nil]
  exact mapM_map_eq_some fun s _ => check?_checked s

end Checks

section Arrays

/-- An array of the addresses of constants, with names in comments. -/
def listing (constants names : List String) : List String :=
  List.zipWith (fun c n => "  &Shader::" ++ c ++ ",  // " ++ n) constants names

private theorem map_slotEntry (constant : ResourceBinding → String) (bs : List ResourceBinding) :
    (bs.map fun b => slotEntry (constant b) b) = listing (bs.map constant) (bs.map (·.name)) := by
  unfold listing slotEntry
  rw [List.zipWith_map, List.zipWith_self]

/-- The lines of an array behind its first one belong to it and begin no other array. -/
private theorem insideArray_of_mem (name : String) (constant : ResourceBinding → String)
    (bs : List ResourceBinding) :
    ∀ l ∈ ("    Shader::" ++ name ++ " = \x7b") :: bs.map fun b => slotEntry (constant b) b,
      insideArray l = true ∧ between "const std::array<const ShaderStageIOSlot*, " ">" l = none := by
  have hmark : Marked "const std::array<const ShaderStageIOSlot*, " := marked_ofList (by decide)
  rw [List.forall_mem_cons, List.forall_mem_map]
  refine ⟨⟨?_, ?_⟩, fun b hb => ⟨?_, ?_⟩⟩
  · unfold insideArray
    rw [String.append_assoc, begins_append, Bool.true_or]
  · rw [String.append_assoc]
    exact (hmark.append (by decide) _).between_eq_none _
  · unfold insideArray slotEntry
    rw [String.append_assoc, String.append_assoc, begins_append "  &Shader::", Bool.or_true]
  · exact (hmark.entries bs constant _ (List.mem_map_of_mem hb)).between_eq_none _

theorem blocksIn_arrayDefinition {cs : List Char} (hcs : BeginsPlain cs)
    (name : String) (constant : ResourceBinding → String) (bs : List ResourceBinding)
    (rest : List String) :
    blocksIn (between "const std::array<const ShaderStageIOSlot*, " ">") insideArray
        (arrayDefinition (String.ofList cs) name constant bs ++ rest) =
      ⟨toString bs.length,
        ("    Shader::" ++ name ++ " = \x7b") :: bs.map fun b => slotEntry (constant b) b,
        some "\x7d;"⟩ ::
        blocksIn (between "const std::array<const ShaderStageIOSlot*, " ">") insideArray rest := by
  have hmark : Marked "const std::array<const ShaderStageIOSlot*, " := marked_ofList (by decide)
  have hcomment : ∀ l ∈ [String.ofList cs],
      between "const std::array<const ShaderStageIOSlot*, " ">" l = none := by
    rw [List.forall_mem_singleton]
    exact (hmark.literal hcs).between_eq_none _
  have hblank : Unlike "const std::array<const ShaderStageIOSlot*, " "" := hmark.literal (by decide)
  have hempty : ∀ l ∈ [""], between "const std::array<const ShaderStageIOSlot*, " ">" l = none := by
    rw [List.forall_mem_singleton]
    exact hblank.between_eq_none _
  have hopening : between "const std::array<const ShaderStageIOSlot*, " ">"
      ("const std::array<const ShaderStageIOSlot*, " ++ toString bs.length ++ ">") =
      some (toString bs.length) := between_append _ _ _
  have hclosing : insideArray "\x7d;" = false ∧
      between "const std::array<const ShaderStageIOSlot*, " ">" "\x7d;" = none := by
    refine ⟨?_, (hmark.literal (by decide)).between_eq_none _⟩
    unfold insideArray
    rw [(unlike_ofList (by decide)).begins_eq_false, (unlike_ofList (by decide)).begins_eq_false]
    rfl
  have hlines : arrayDefinition (String.ofList cs) name constant bs ++ rest = [String.ofList cs]
      ++ (("const std::array<const ShaderStageIOSlot*, " ++ toString bs.length ++ ">")
        :: (("    Shader::" ++ name ++ " = \x7b") :: bs.map fun b => slotEntry (constant b) b)
        ++ "\x7d;" :: ([""] ++ rest)) := by
    unfold arrayDefinition slotArrayDefinition
    rw [List.length_map]
    simp only [List.append_assoc, List.cons_append, List.nil_append]
  rw [hlines, blocksIn_append_of_none hcomment,
    blocksIn_block hopening (insideArray_of_mem name constant bs) hclosing,
    blocksIn_append_of_none hempty]

theorem array?_listing (name : String) (constant : ResourceBinding → String)
    (bs : List ResourceBinding) :
    array? ⟨toString bs.length,
        ("    Shader::" ++ name ++ " = \x7b") :: bs.map fun b => slotEntry (constant b) b,
        some "\x7d;"⟩ =
      some ⟨name, bs.length, listing (bs.map constant) (bs.map (·.name))⟩ := by
  have hlength : integer? (toString bs.length) = some (bs.length : Int) :=
    integer?_toString bs.length
  have hname : between "    Shader::" " = \x7b" ("    Shader::" ++ name ++ " = \x7b") =
      some name := between_append _ _ _
  unfold array?
  dsimp only [bind, Option.bind]
  rw [hlength, List.head?_cons]
  dsimp only
  rw [hname]
  dsimp only
  rw [if_pos rfl, List.tail_cons, map_slotEntry]

theorem unlike_structChecks {o : String} (s : StructDefinition)
    (hlayout : Apart o "static_assert(std::is_standard_layout_v<Shader::")
    (hoffset : Apart o "static_assert(offsetof(Shader::")
    (hsize : Apart o "static_assert(sizeof(Shader::") : ∀ l ∈ structChecks s, Unlike o l := by
  unfold structChecks standardLayoutCheck offsetCheck sizeCheck
  simp only [String.append_assoc, List.cons_append, List.forall_mem_append, List.forall_mem_cons,
    List.forall_mem_map]
  exact ⟨hlayout.unlike_append _, fun m _ => hoffset.unlike_append _, hsize.unlike_append _,
    List.forall_mem_nil _⟩

/-- The implementation defines two arrays. -/
theorem arraysIn_implementationLines (d : Document) : arraysIn (implementationLines d) = some [
    { name := "kAllShaderStageInputs"
      length := d.stageInputs.length
      entries := listing (d.stageInputs.map inputConstant) (d.stageInputs.map (·.name)) },
    { name := "kAllShaderStageOutputs"
      length := d.stageOutputs.length
      entries := listing (d.stageOutputs.map outputConstant) (d.stageOutputs.map (·.name)) }] := by
  have hmark : Marked "const std::array<const ShaderStageIOSlot*, " := marked_ofList (by decide)
  have hchecks : ∀ l ∈ d.structs.flatMap structChecks,
      Unlike "const std::array<const ShaderStageIOSlot*, " l :=
    List.forall_mem_flatMap.mpr fun s _ => unlike_structChecks s (apart_ofList (by decide))
      (apart_ofList (by decide)) (apart_ofList (by decide))
  have hbefore : ∀ l ∈ (preamble d ++ implementationOpening d) ++ d.structs.flatMap structChecks
      ++ [""], Unlike "const std::array<const ShaderStageIOSlot*, " l := by
    rw [List.forall_mem_append, List.forall_mem_append, List.forall_mem_singleton]
    exact ⟨⟨hmark.opening d, hchecks⟩, hmark.literal (by decide)⟩
  have hafter : ∀ l ∈ ["\x7d  // namespace impeller"],
      between "const std::array<const ShaderStageIOSlot*, " ">" l = none := by
    rw [List.forall_mem_singleton]
    exact (hmark.literal (by decide)).between_eq_none _
  have hlines : implementationLines d = ((preamble d ++ implementationOpening d)
      ++ d.structs.flatMap structChecks ++ [""])
      ++ (arrayDefinition "// Stage inputs, in declaration order." "kAllShaderStageInputs"
          inputConstant d.stageInputs
        ++ (arrayDefinition "// Stage outputs, in declaration order." "kAllShaderStageOutputs"
            outputConstant d.stageOutputs
          ++ (["\x7d  // namespace impeller"] ++ []))) := by
    rw [implementationLines_eq]
    unfold arrayLines
    simp only [List.append_assoc, List.append_nil]
  unfold arraysIn
  rw [hlines, blocksIn_append_of_none fun l hl => (hbefore l hl).between_eq_none _,
    blocksIn_arrayDefinition (by decide), blocksIn_arrayDefinition (by decide),
    blocksIn_append_of_none hafter, blocksIn]
  simp only [List.mapM_cons, List.mapM_nil, array?_listing]
  rfl

end Arrays

end ShaderReflection.Artifact
