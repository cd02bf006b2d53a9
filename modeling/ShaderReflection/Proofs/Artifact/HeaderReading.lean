import ShaderReflection.Proofs.Artifact.Reading

/-! What a reader finds in the header: the constants of inputs and outputs, the arrays that are to
list them, and the structs with their members. Declarations begin with two blanks and an `s`, as few
other lines do, and these go on in other ways. -/
namespace ShaderReflection.Artifact

section Readers

def constantsIn (kind : String) (lines : List String) : List String :=
  (lines.filterMap (between ("  static constexpr auto " ++ kind) " = ShaderStageIOSlot \x7b")).map
    (kind ++ ·)

/-- An array is declared as its length, `> ` and its name. -/
def arrayLength? (declaration : String) : Option (String × Int) := do
  let (length, rest) ← firstNumber? declaration
  let name ← between "> " "" rest
  return (name, length)

def arrayLengthsIn (lines : List String) : Option (List (String × Int)) :=
  (lines.filterMap (between "  static const std::array<const ShaderStageIOSlot*, " ";")).mapM
    arrayLength?

/-- A member as it is declared: type and name, and where it lies. -/
structure MemberText where
  declarator : String
  offset : Int
  size : Int
  deriving DecidableEq, Repr

def member? (line : String) : Option MemberText := do
  let (inside, size) ← (between "    " ")" line).bind lastNumber?
  let (inside, offset) ← (between "" ", size " inside).bind lastNumber?
  let declarator ← between "" "; // (offset " inside
  return { declarator, offset, size }

structure StructText where
  name : String
  members : List MemberText
  size : Int
  deriving DecidableEq, Repr

def struct? (b : Block String) : Option StructText := do
  let members ← b.inside.mapM member?
  let closing ← b.closing
  let size ← (between ("  \x7d; // struct " ++ b.opening ++ " (size ") ")" closing).bind integer?
  return { name := b.opening, members, size }

def structsIn (lines : List String) : Option (List StructText) :=
  (blocksIn (between "  struct " " \x7b") (begins "    ") lines).mapM struct?

end Readers

section Openings

theorem unlike_slotOpening {o : String} (h : Apart o "  static constexpr auto ")
    (constant : String) : Unlike o (slotOpening constant) := by
  unfold slotOpening
  rw [String.append_assoc]
  exact h.unlike_append _

theorem unlike_slotArray {o : String}
    (h : Apart o "  static const std::array<const ShaderStageIOSlot*, ") (name : String)
    (count : Nat) : Unlike o (slotArray name count) := by
  unfold slotArray
  rw [String.append_assoc, String.append_assoc, String.append_assoc]
  exact h.unlike_append _

/-- A text with which a declaration begins. It begins as all declarations do, and goes on in another
way than the other lines that begin so. -/
structure Opening (o : String) : Prop where
  mark : "  s".toList <+: o.toList
  label : Apart o "  static constexpr std::string_view kLabel = \""
  entryPoint : Apart o "  static constexpr std::string_view kEntrypointName = \""
  stage : Apart o "  static constexpr ShaderStage kShaderStage = "
  resource : Apart o "  static constexpr auto kResource"

variable {o : String} (ho : Opening o)
include ho

theorem Opening.literal {cs : List Char} (h : ¬ [' ', ' ', 's'] <+: cs) :
    Unlike o (String.ofList cs) :=
  (unlike_ofList h).extend ho.mark

theorem Opening.append {cs : List Char} (h : ¬ [' ', ' ', 's'] <+: cs ∧ ¬ cs <+: [' ', ' ', 's'])
    (rest : String) : Unlike o (String.ofList cs ++ rest) :=
  ((apart_ofList h).unlike_append rest).extend ho.mark

theorem Opening.banner (title : String) : ∀ l ∈ banner title, Unlike o l := by
  unfold Artifact.banner
  simp only [String.append_assoc, List.forall_mem_cons]
  exact ⟨ho.literal (by decide), ho.append (by decide) _, ho.literal (by decide),
    List.forall_mem_nil _⟩

theorem Opening.preamble (d : Document) : ∀ l ∈ preamble d, Unlike o l := by
  unfold Artifact.preamble
  simp only [String.append_assoc, List.forall_mem_cons]
  exact ⟨ho.literal (by decide), ho.append (by decide) _, ho.literal (by decide),
    List.forall_mem_nil _⟩

theorem Opening.headerOpening (d : Document) : ∀ l ∈ headerOpening d, Unlike o l := by
  unfold Artifact.headerOpening
  simp only [String.append_assoc, List.forall_mem_cons]
  refine ⟨?_, ?_, ?_, ?_, ?_, ?_, ?_, ?_, ?_, ?_, ?_, ?_, ?_, ?_, ho.append (by decide) _,
    List.forall_mem_nil _⟩
  all_goals exact ho.literal (by decide)

theorem Opening.stageInfo (d : Document) : ∀ l ∈ stageInfo d, Unlike o l := by
  unfold Artifact.stageInfo
  simp only [String.append_assoc, List.forall_mem_append, List.forall_mem_cons]
  exact ⟨ho.banner _, ho.label.unlike_append _, ho.entryPoint.unlike_append _,
    ho.stage.unlike_append _, List.forall_mem_nil _⟩

theorem Opening.bufferSection (d : Document) : ∀ l ∈ bufferSection d, Unlike o l := by
  have hbuffer (b : ResourceBinding) : ∀ l ∈ bufferDeclaration b, Unlike o l := by
    unfold bufferDeclaration
    simp only [String.append_assoc, List.forall_mem_cons]
    exact ⟨ho.literal (by decide), ho.resource.unlike_append _, ho.append (by decide) _,
      ho.append (by decide) _, ho.append (by decide) _, ho.literal (by decide),
      List.forall_mem_nil _⟩
  unfold Artifact.bufferSection
  split_ifs
  · exact List.forall_mem_nil _
  · simp only [List.cons_append, List.forall_mem_cons, List.forall_mem_append,
      List.forall_mem_flatMap]
    exact ⟨ho.literal (by decide), ho.banner _, fun b _ => hbuffer b⟩

theorem Opening.imageSection (d : Document) : ∀ l ∈ imageSection d, Unlike o l := by
  have himage (b : ResourceBinding) : ∀ l ∈ imageDeclaration b, Unlike o l := by
    unfold imageDeclaration
    simp only [String.append_assoc, List.forall_mem_cons]
    exact ⟨ho.literal (by decide), ho.resource.unlike_append _, ho.append (by decide) _,
      ho.append (by decide) _, ho.append (by decide) _, ho.append (by decide) _,
      ho.append (by decide) _, ho.literal (by decide), List.forall_mem_nil _⟩
  unfold Artifact.imageSection
  split_ifs
  · exact List.forall_mem_nil _
  · simp only [List.cons_append, List.forall_mem_cons, List.forall_mem_append,
      List.forall_mem_flatMap]
    exact ⟨ho.literal (by decide), ho.banner _, fun b _ => himage b⟩

theorem Opening.headerClosing (d : Document) : ∀ l ∈ headerClosing d, Unlike o l := by
  unfold Artifact.headerClosing
  simp only [List.forall_mem_cons]
  exact ⟨ho.append (by decide) _, ho.literal (by decide), ho.literal (by decide),
    List.forall_mem_nil _⟩

/-- The lines of slots, and of the array that is to list them. -/
def slotSection (title array : String) (constant : ResourceBinding → String)
    (bs : List ResourceBinding) : List String :=
  "" :: Artifact.banner title ++ bs.flatMap (fun b => slotDeclaration (constant b) b)
    ++ [slotArray array bs.length]

/-- The lines of a slot behind its first one. -/
theorem Opening.slotDeclaration (constant : String) (b : ResourceBinding) :
    ∃ body, slotDeclaration constant b = slotOpening constant :: body ∧
      ∀ l ∈ body, Unlike o l := by
  unfold Artifact.slotDeclaration
  refine ⟨_, rfl, ?_⟩
  simp only [String.append_assoc, List.forall_mem_cons]
  exact ⟨ho.append (by decide) _, ho.append (by decide) _, ho.append (by decide) _,
    ho.append (by decide) _, ho.append (by decide) _, ho.append (by decide) _,
    ho.append (by decide) _, ho.append (by decide) _, ho.literal (by decide),
    List.forall_mem_nil _⟩

theorem Opening.filterMap_slotSection (closing title array : String)
    (constant : ResourceBinding → String) (bs : List ResourceBinding) :
    (slotSection title array constant bs).filterMap (between o closing) =
      bs.filterMap (fun b => between o closing (slotOpening (constant b)))
        ++ (between o closing (slotArray array bs.length)).toList := by
  have hslot (b : ResourceBinding) :
      (Artifact.slotDeclaration (constant b) b).filterMap (between o closing) =
        (between o closing (slotOpening (constant b))).toList := by
    obtain ⟨body, hbody, hunlike⟩ := ho.slotDeclaration (constant b) b
    rw [hbody, List.filterMap_cons, filterMap_between_eq_nil hunlike]
    cases between o closing (slotOpening (constant b)) <;> rfl
  have hblank : Unlike o "" := ho.literal (by decide)
  unfold slotSection
  rw [List.cons_append, List.filterMap_append, List.filterMap_cons,
    hblank.between_eq_none]
  dsimp only
  rw [List.filterMap_append, filterMap_between_eq_nil (ho.banner title), List.nil_append,
    List.filterMap_flatMap]
  congr 1
  simp only [hslot, List.filterMap_eq_flatMap_toList]

theorem Opening.unlike_slotSection (hauto : Apart o "  static constexpr auto ")
    (harray : Apart o "  static const std::array<const ShaderStageIOSlot*, ")
    (title array : String) (constant : ResourceBinding → String) (bs : List ResourceBinding) :
    ∀ l ∈ slotSection title array constant bs, Unlike o l := by
  have hslot (b : ResourceBinding) :
      ∀ l ∈ Artifact.slotDeclaration (constant b) b, Unlike o l := by
    obtain ⟨body, hbody, hunlike⟩ := ho.slotDeclaration (constant b) b
    rw [hbody, List.forall_mem_cons]
    exact ⟨unlike_slotOpening hauto _, hunlike⟩
  unfold slotSection
  simp only [List.cons_append, List.forall_mem_append, List.forall_mem_cons,
    List.forall_mem_flatMap]
  exact ⟨ho.literal (by decide), ⟨ho.banner title, fun b _ => hslot b⟩,
    unlike_slotArray harray _ _, List.forall_mem_nil _⟩

theorem Opening.unlike_structSection (hstruct : Apart o "  struct ") (d : Document) :
    ∀ l ∈ structSection d, Unlike o l := by
  have hs (s : StructDefinition) : ∀ l ∈ structDeclaration s, Unlike o l := by
    unfold structDeclaration structOpening structClosing memberDeclaration
    simp only [String.append_assoc, List.forall_mem_append, List.forall_mem_cons,
      List.forall_mem_map]
    exact ⟨⟨⟨ho.literal (by decide), hstruct.unlike_append _, List.forall_mem_nil _⟩,
      fun m _ => ho.append (by decide) _⟩, ho.append (by decide) _, List.forall_mem_nil _⟩
  unfold structSection
  split_ifs
  · exact List.forall_mem_nil _
  · rw [List.forall_mem_append, List.forall_mem_flatMap]
    exact ⟨ho.banner _, fun s _ => hs s⟩

end Openings

section Slots

/-- Declarations of slots and arrays are those of inputs, and then those of outputs. -/
theorem Opening.filterMap_headerLines {o : String} (ho : Opening o) (hstruct : Apart o "  struct ")
    (closing : String) (d : Document) :
    (headerLines d).filterMap (between o closing) =
      (slotSection "Stage Inputs" "kAllShaderStageInputs" inputConstant d.stageInputs).filterMap
        (between o closing) ++
      (slotSection "Stage Outputs" "kAllShaderStageOutputs" outputConstant d.stageOutputs).filterMap
        (between o closing) := by
  unfold headerLines
  simp only [List.filterMap_append, filterMap_between_eq_nil (ho.preamble d),
    filterMap_between_eq_nil (ho.headerOpening d), filterMap_between_eq_nil (ho.stageInfo d),
    filterMap_between_eq_nil (ho.unlike_structSection hstruct d),
    filterMap_between_eq_nil (ho.bufferSection d), filterMap_between_eq_nil (ho.imageSection d),
    filterMap_between_eq_nil (ho.headerClosing d), List.nil_append, List.append_nil]
  rfl

/-- An opening behind which the constants of a kind are named. -/
theorem opening_constant {kind : String} (hkind : Apart kind "kResource") :
    Opening ("  static constexpr auto " ++ kind) := by
  have hresource : "  static constexpr auto " ++ "kResource" =
      "  static constexpr auto kResource" := String.ofList_append.symm
  refine ⟨?_, ?_, ?_, ?_, ?_⟩
  · rw [String.toList_append]
    exact (prefix_ofList (by decide)).trans (List.prefix_append _ _)
  · exact Apart.append_left (apart_ofList (by decide)) kind
  · exact Apart.append_left (apart_ofList (by decide)) kind
  · exact Apart.append_left (apart_ofList (by decide)) kind
  · rw [← hresource]
    exact hkind.append_right _

section Kinds

variable {kind other : String} (hkind : Apart kind "kResource") (title array : String)
  (name : ResourceBinding → String) (bs : List ResourceBinding)
include hkind

theorem filterMap_slotSection_constants :
    (slotSection title array (fun b => kind ++ name b) bs).filterMap
        (between ("  static constexpr auto " ++ kind) " = ShaderStageIOSlot \x7b") =
      bs.map name := by
  have harray : Unlike ("  static constexpr auto " ++ kind) (slotArray array bs.length) :=
    unlike_slotArray (Apart.append_left (apart_ofList (by decide)) kind) _ _
  have hslot (b : ResourceBinding) : between ("  static constexpr auto " ++ kind)
      " = ShaderStageIOSlot \x7b" (slotOpening (kind ++ name b)) = some (name b) := by
    unfold slotOpening
    rw [← String.append_assoc]
    exact between_append _ _ _
  rw [(opening_constant hkind).filterMap_slotSection, harray.between_eq_none]
  simp only [hslot, Option.toList_none, List.append_nil]
  exact List.filterMap_eq_map_iff_forall_eq_some.mpr fun b _ => rfl

theorem filterMap_slotSection_otherConstants (hother : Apart kind other) :
    (slotSection title array (fun b => other ++ name b) bs).filterMap
        (between ("  static constexpr auto " ++ kind) " = ShaderStageIOSlot \x7b") = [] := by
  have harray : Unlike ("  static constexpr auto " ++ kind) (slotArray array bs.length) :=
    unlike_slotArray (Apart.append_left (apart_ofList (by decide)) kind) _ _
  have hslot (b : ResourceBinding) :
      Unlike ("  static constexpr auto " ++ kind) (slotOpening (other ++ name b)) := by
    unfold slotOpening
    rw [← String.append_assoc, String.append_assoc]
    exact (hother.append_right _).unlike_append _
  rw [(opening_constant hkind).filterMap_slotSection, harray.between_eq_none]
  simp only [(hslot _).between_eq_none, Option.toList_none, List.append_nil]
  exact List.filterMap_eq_nil_iff.mpr fun b _ => rfl

end Kinds

/-- The header declares a constant for each input, in order. -/
theorem constantsIn_headerLines_inputs (d : Document) :
    constantsIn "kInput" (headerLines d) = d.stageInputs.map inputConstant := by
  have hkind : Apart "kInput" "kResource" := apart_ofList (by decide)
  have hother : Apart "kInput" "kOutput" := apart_ofList (by decide)
  have hstruct : Apart ("  static constexpr auto " ++ "kInput") "  struct " :=
    Apart.append_left (apart_ofList (by decide)) _
  have hinputs := filterMap_slotSection_constants hkind "Stage Inputs" "kAllShaderStageInputs"
    (fun b => Text.camelCase b.name) d.stageInputs
  have houtputs := filterMap_slotSection_otherConstants hkind "Stage Outputs"
    "kAllShaderStageOutputs" (fun b => Text.camelCase b.name) d.stageOutputs hother
  unfold constantsIn
  rw [(opening_constant hkind).filterMap_headerLines hstruct]
  unfold inputConstant outputConstant
  rw [hinputs, houtputs, List.append_nil, List.map_map]
  rfl

/-- The header declares a constant for each output, in order. -/
theorem constantsIn_headerLines_outputs (d : Document) :
    constantsIn "kOutput" (headerLines d) = d.stageOutputs.map outputConstant := by
  have hkind : Apart "kOutput" "kResource" := apart_ofList (by decide)
  have hother : Apart "kOutput" "kInput" := apart_ofList (by decide)
  have hstruct : Apart ("  static constexpr auto " ++ "kOutput") "  struct " :=
    Apart.append_left (apart_ofList (by decide)) _
  have hinputs := filterMap_slotSection_otherConstants hkind "Stage Inputs"
    "kAllShaderStageInputs" (fun b => Text.camelCase b.name) d.stageInputs hother
  have houtputs := filterMap_slotSection_constants hkind "Stage Outputs" "kAllShaderStageOutputs"
    (fun b => Text.camelCase b.name) d.stageOutputs
  unfold constantsIn
  rw [(opening_constant hkind).filterMap_headerLines hstruct]
  unfold inputConstant outputConstant
  rw [hinputs, houtputs, List.nil_append, List.map_map]
  rfl

end Slots

section Arrays

theorem opening_array : Opening "  static const std::array<const ShaderStageIOSlot*, " := by
  refine ⟨prefix_ofList (by decide), ?_, ?_, ?_, ?_⟩
  all_goals exact apart_ofList (by decide)

private theorem arrayLength?_append (n : Nat) (name : String) :
    arrayLength? (toString n ++ ("> " ++ name)) = some (name, (n : Int)) := by
  have hfirst : firstNumber? (toString n ++ ("> " ++ name)) = some ((n : Int), "> " ++ name) :=
    firstNumber?_append n (by decide) name
  unfold arrayLength?
  rw [hfirst]
  dsimp only [bind, Option.bind]
  rw [between_append_empty]
  rfl

private theorem filterMap_slotSection_array (title array : String)
    (constant : ResourceBinding → String) (bs : List ResourceBinding) :
    (slotSection title array constant bs).filterMap
        (between "  static const std::array<const ShaderStageIOSlot*, " ";") =
      [toString bs.length ++ ("> " ++ array)] := by
  have hslot (b : ResourceBinding) :
      Unlike "  static const std::array<const ShaderStageIOSlot*, " (slotOpening (constant b)) :=
    unlike_slotOpening (apart_ofList (by decide)) _
  have harray : between "  static const std::array<const ShaderStageIOSlot*, " ";"
      (slotArray array bs.length) = some (toString bs.length ++ ("> " ++ array)) := by
    have hline : slotArray array bs.length = "  static const std::array<const ShaderStageIOSlot*, "
        ++ (toString bs.length ++ ("> " ++ array)) ++ ";" := by
      unfold slotArray
      simp only [String.append_assoc]
    rw [hline, between_append]
  rw [opening_array.filterMap_slotSection, harray]
  simp only [(hslot _).between_eq_none]
  rw [List.filterMap_eq_nil_iff.mpr fun b _ => rfl]
  rfl

/-- The header declares two arrays, with the numbers of inputs and of outputs. -/
theorem arrayLengthsIn_headerLines (d : Document) : arrayLengthsIn (headerLines d) =
    some [("kAllShaderStageInputs", (d.stageInputs.length : Int)),
      ("kAllShaderStageOutputs", (d.stageOutputs.length : Int))] := by
  have hstruct : Apart "  static const std::array<const ShaderStageIOSlot*, " "  struct " :=
    apart_ofList (by decide)
  unfold arrayLengthsIn
  rw [opening_array.filterMap_headerLines hstruct, filterMap_slotSection_array,
    filterMap_slotSection_array]
  simp only [List.cons_append, List.nil_append, List.mapM_cons, List.mapM_nil,
    arrayLength?_append]
  rfl

end Arrays

section Structs

def declaredMember (m : StructMember) : MemberText where
  declarator := m.type ++ " " ++ m.name
  offset := m.offset
  size := m.byteLength

def declaredStruct (s : StructDefinition) : StructText where
  name := s.name
  members := s.members.map declaredMember
  size := s.byteLength

theorem opening_struct : Opening "  struct " := by
  refine ⟨prefix_ofList (by decide), ?_, ?_, ?_, ?_⟩
  all_goals exact apart_ofList (by decide)

private theorem member?_memberDeclaration (m : StructMember) :
    member? (memberDeclaration m) = some (declaredMember m) := by
  have hline : memberDeclaration m = "    " ++ (m.type ++ " " ++ m.name ++ "; // (offset "
      ++ toString m.offset ++ ", size " ++ toString m.byteLength) ++ ")" := by
    unfold memberDeclaration
    simp only [String.append_assoc]
  have hsize : lastNumber? (m.type ++ " " ++ m.name ++ "; // (offset " ++ toString m.offset
      ++ ", size " ++ toString m.byteLength) = some (m.type ++ " " ++ m.name ++ "; // (offset "
        ++ toString m.offset ++ ", size ", m.byteLength) :=
    lastNumber?_append _ (by decide) m.byteLength
  have hoffset : lastNumber? (m.type ++ " " ++ m.name ++ "; // (offset " ++ toString m.offset) =
      some (m.type ++ " " ++ m.name ++ "; // (offset ", m.offset) :=
    lastNumber?_append _ (by decide) m.offset
  unfold member?
  rw [hline, between_append, Option.bind_some, hsize]
  dsimp only [bind, Option.bind]
  rw [between_empty_append]
  dsimp only
  rw [hoffset]
  dsimp only
  rw [between_empty_append]
  rfl

private theorem blocksIn_structDeclaration (s : StructDefinition) (rest : List String) :
    blocksIn (between "  struct " " \x7b") (begins "    ") (structDeclaration s ++ rest) =
      ⟨s.name, s.members.map memberDeclaration, some (structClosing s)⟩ ::
        blocksIn (between "  struct " " \x7b") (begins "    ") rest := by
  have hblank : Unlike "  struct " "" := opening_struct.literal (by decide)
  have hempty : ∀ l ∈ [""], between "  struct " " \x7b" l = none := by
    rw [List.forall_mem_singleton]
    exact hblank.between_eq_none _
  have hopening : between "  struct " " \x7b" (structOpening s) = some s.name :=
    between_append _ _ _
  have hmembers : ∀ l ∈ s.members.map memberDeclaration,
      begins "    " l = true ∧ between "  struct " " \x7b" l = none := by
    rw [List.forall_mem_map]
    intro m _
    unfold memberDeclaration
    simp only [String.append_assoc]
    exact ⟨begins_append _ _, (opening_struct.append (by decide) _).between_eq_none _⟩
  have hclosing : begins "    " (structClosing s) = false ∧
      between "  struct " " \x7b" (structClosing s) = none := by
    unfold structClosing
    simp only [String.append_assoc]
    exact ⟨((apart_ofList (by decide)).unlike_append _).begins_eq_false,
      (opening_struct.append (by decide) _).between_eq_none _⟩
  have hlines : structDeclaration s ++ rest = [""] ++
      (structOpening s :: s.members.map memberDeclaration ++ structClosing s :: rest) := by
    unfold structDeclaration
    simp only [List.cons_append, List.nil_append, List.append_assoc]
  rw [hlines, blocksIn_append_of_none hempty, blocksIn_block hopening hmembers hclosing]

theorem blocksIn_structSection (d : Document) (rest : List String) :
    blocksIn (between "  struct " " \x7b") (begins "    ") (structSection d ++ rest) =
      d.structs.map (fun s => ⟨s.name, s.members.map memberDeclaration, some (structClosing s)⟩) ++
        blocksIn (between "  struct " " \x7b") (begins "    ") rest := by
  have hbanner : ∀ l ∈ banner "Struct Definitions", between "  struct " " \x7b" l = none :=
    fun l hl => (opening_struct.banner _ l hl).between_eq_none _
  unfold structSection
  split_ifs with hnone
  · rw [List.isEmpty_iff.mp hnone]
    rfl
  · rw [List.append_assoc, blocksIn_append_of_none hbanner]
    exact blocksIn_flatMap (fun s _ => blocksIn_structDeclaration s) rest

theorem struct?_declared (s : StructDefinition) :
    struct? ⟨s.name, s.members.map memberDeclaration, some (structClosing s)⟩ =
      some (declaredStruct s) := by
  have hmembers : (s.members.map memberDeclaration).mapM member? =
      some (s.members.map declaredMember) :=
    mapM_map_eq_some fun m _ => member?_memberDeclaration m
  have hclosing : between ("  \x7d; // struct " ++ s.name ++ " (size ") ")" (structClosing s) =
      some (toString s.byteLength) := between_append _ _ _
  unfold struct?
  dsimp only [bind, Option.bind]
  rw [hmembers]
  dsimp only
  rw [hclosing]
  dsimp only
  rw [integer?_toString]
  rfl

/-- The header declares each struct once, in order, with its members in order. -/
theorem structsIn_headerLines (d : Document) :
    structsIn (headerLines d) = some (d.structs.map declaredStruct) := by
  have hauto : Apart "  struct " "  static constexpr auto " := apart_ofList (by decide)
  have harray : Apart "  struct " "  static const std::array<const ShaderStageIOSlot*, " :=
    apart_ofList (by decide)
  have hbefore : ∀ l ∈ preamble d ++ headerOpening d ++ stageInfo d, Unlike "  struct " l := by
    simp only [List.forall_mem_append]
    exact ⟨⟨opening_struct.preamble d, opening_struct.headerOpening d⟩, opening_struct.stageInfo d⟩
  have hslots := opening_struct.unlike_slotSection hauto harray
  have hafter : ∀ l ∈ bufferSection d ++ inputSection d ++ imageSection d ++ outputSection d
      ++ headerClosing d, Unlike "  struct " l := by
    simp only [List.forall_mem_append]
    exact ⟨⟨⟨⟨opening_struct.bufferSection d, hslots _ _ _ _⟩, opening_struct.imageSection d⟩,
      hslots _ _ _ _⟩, opening_struct.headerClosing d⟩
  have hlines : headerLines d = (preamble d ++ headerOpening d ++ stageInfo d)
      ++ (structSection d ++ ((bufferSection d ++ inputSection d ++ imageSection d
        ++ outputSection d ++ headerClosing d) ++ [])) := by
    unfold headerLines
    simp only [List.append_assoc, List.append_nil]
  have hblocks : blocksIn (between "  struct " " \x7b") (begins "    ") (headerLines d) =
      d.structs.map fun s =>
        ⟨s.name, s.members.map memberDeclaration, some (structClosing s)⟩ := by
    rw [hlines, blocksIn_append_of_none fun l hl => (hbefore l hl).between_eq_none _,
      blocksIn_structSection, blocksIn_append_of_none fun l hl => (hafter l hl).between_eq_none _]
    exact List.append_nil _
  unfold structsIn
  rw [hblocks]
  exact mapM_map_eq_some fun s _ => struct?_declared s

example : structsIn [
    "  struct Light \x7b",
    "    Vector3 color; // (offset 0, size 12)",
    "    Padding<4> color_pad; // (offset 12, size 4)",
    "  \x7d; // struct Light (size 16)"] =
      some [⟨"Light", [⟨"Vector3 color", 0, 12⟩, ⟨"Padding<4> color_pad", 12, 4⟩], 16⟩] := by
  decide +kernel

end Structs

end ShaderReflection.Artifact
