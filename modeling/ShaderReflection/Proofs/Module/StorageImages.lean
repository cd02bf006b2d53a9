import ShaderReflection.Proofs.Module.BuiltIns
import ShaderReflection.Proofs.Module.ImageTypes
import ShaderReflection.Proofs.Module.SlotFrame

/-! Storage images among the resources. An image that is declared for storage is no resource and
takes no slots. The use of an image is not looked up through arrays: an array of storage images is
taken for a separate image. -/
namespace ShaderReflection.Module

open Assembly (Instruction)

structure ConstantVariable (is : List Instruction) (i : Instruction) (name pointee : String) :
    Prop where
  mem : i ∈ variablesOf is
  result : i.result = some name
  storage : i.textAt 1 = .ok "UniformConstant"
  type : VariablePointsTo is i pointee

/-- A type is an image, or an array of images, or of such arrays; the depth counts the arrays. -/
inductive ImageNest (is : List Instruction) (image : Instruction) : Nat → String → Prop where
  | image {name : String} (hi : image ∈ moduleScope false is)
      (ho : isImageDeclaration image = true) (hn : image.result = some name) :
      ImageNest is image 0 name
  | array {i : Instruction} {name element : String} {depth : Nat} (hi : i ∈ moduleScope false is)
      (ho : isArrayDeclaration i = true) (hn : i.result = some name) (he : i.idAt 0 = .ok element)
      (h : ImageNest is image depth element) : ImageNest is image (depth + 1) name

namespace Declarations

def Resolves (d : Declarations) (name : String) : Prop :=
  ((d.idOf? name).bind d.types.get?).isSome = true

def ListedIn (d : Declarations) (c : Category) (name : String) : Prop :=
  ∃ r ∈ d.resources c, d.idOf? name = some r.id

instance (d : Declarations) (name : String) : Decidable (d.Resolves name) :=
  inferInstanceAs (Decidable (_ = true))

instance (d : Declarations) (c : Category) (name : String) : Decidable (d.ListedIn c name) :=
  inferInstanceAs (Decidable (∃ r ∈ d.resources c, _))

/-- A variable is no resource. It has no slots, and all slots are as they would be without it. -/
structure LeftOut (d : Declarations) (name : String) : Prop where
  unlisted : ∀ c, ¬d.ListedIn c name
  slots : ∃ x, d.idOf? name = some x ∧ d.slots x = {} ∧ ∀ y, (d.without x).slots y = d.slots y

/-- A variable is a separate image, with its rank among the users of textures as its slot. -/
def TakesTexture (d : Declarations) (is : List Instruction) (name : String) : Prop :=
  ∃ r ∈ d.resources .separateImages, d.idOf? name = some r.id ∧ d.slots r.id = {
    first := d.declaredRank is (d.resources .sampledImages ++ d.resources .separateImages) r }

section Constants

variable {is : List Instruction} {d : Declarations} (h : ofInstructions is = .ok d)
include h

/-- What is known of images and arrays of images: only an image itself has its use. -/
theorem imageNest_type (once : (typeResults (moduleScope false is)).Nodup) {image : Instruction}
    {depth : Nat} {name : String} (hnest : ImageNest is image depth name) :
    ∃ x, d.idOf? name = some x ∧ (∀ t, d.types.get? x = some t → t.baseType = .image) ∧
      d.imageSampled.get? x = if depth = 0 then some (imageUse image) else none := by
  induction hnest with
  | image hi ho hn =>
    obtain ⟨x, hx, huse, htype⟩ := imageType h once hi ho hn
    refine ⟨x, hx, fun t ht => ?_, huse⟩
    rw [← Option.some.inj (htype.symm.trans ht)]
  | array hi ho hn he _ ih =>
    obtain ⟨x, c, hx, hc, huse, helement⟩ := arrayType h once hi ho hn he
    obtain ⟨c', hc', himage, -⟩ := ih
    obtain rfl := Option.some.inj (hc.symm.trans hc')
    refine ⟨x, hx, fun t ht => ?_, huse⟩
    obtain ⟨u, hu, hbase⟩ := helement t ht
    rw [hbase, himage u hu]

/-- Images and arrays of images are separate images, but for an image that is for storage itself. -/
theorem category?_imageNest (once : (typeResults (moduleScope false is)).Nodup) {v : Variable}
    (hv : v.storage = .uniformConstant) {pointee : String}
    (hbase : d.idOf? pointee = some (d.baseTypeId v)) {image : Instruction} {depth : Nat}
    (hnest : ImageNest is image depth pointee) :
    d.category? v = if (depth = 0 ∧ imageUse image = storageImage) ∨ ¬d.Resolves pointee then none
      else some .separateImages := by
  obtain ⟨x, hx, himage, huse⟩ := imageNest_type h once hnest
  obtain rfl := Option.some.inj (hx.symm.trans hbase)
  have hresolves : d.Resolves pointee ↔ (d.types.get? (d.baseTypeId v)).isSome = true := by
    unfold Resolves
    rw [hbase]
    rfl
  simp only [hresolves]
  unfold category?
  rw [hv]
  cases ht : d.types.get? (d.baseTypeId v) with
  | none => simp
  | some t =>
    have hstored : (d.imageSampled.get? (d.baseTypeId v)).getD 1 = storageImage ↔
        depth = 0 ∧ imageUse image = storageImage := by
      rw [huse]
      by_cases hd : depth = 0
      · simp [hd]
      · simp [hd, storageImage]
    show d.constantCategory? _ t = _
    unfold constantCategory?
    rw [himage t ht]
    simp only [hstored, Option.isSome_some, not_true_eq_false, or_false]

variable (hn : (variableNames is).Nodup) {v : Variable} (hv : v ∈ d.globals) {name : String}
  (hid : d.idOf? name = some v.id)
include hn hv hid

private theorem leftOut_of_category (hc : d.category? v = none) : d.LeftOut name := by
  have hglobals := nodup_globals h hn
  have hnone (c : Category) : ∀ r ∈ d.resources c, r.id ≠ v.id := by
    intro r hr hrv
    obtain ⟨w, hw, hcw, rfl⟩ := mem_resources.mp hr
    rw [eq_of_id_eq hglobals hw hv hrv, hc] at hcw
    cases hcw
  have hclaim : v.id ∉ d.claimants.map (·.id) := by
    simp only [claimants, List.mem_map, List.mem_flatMap]
    rintro ⟨_, ⟨c, -, r, hr, rfl⟩, hrv⟩
    exact hnone c r hr hrv
  refine ⟨?_, v.id, hid, slots_of_not_claimant hclaim, slots_without hclaim hglobals⟩
  rintro c ⟨r, hr, hname⟩
  exact hnone c r hr (Option.some.inj (hname.symm.trans hid))

private theorem takesTexture_of_category (hc : d.category? v = some .separateImages) :
    d.TakesTexture is name := by
  have hr := mem_resources.mpr ⟨v, hv, hc, rfl⟩
  exact ⟨_, hr, hid, (slotsAreRanks h hn).separateImage _ hr⟩

end Constants

/-- Which of the variables for images and arrays of images are resources. One for a storage image
is left out and shifts no slots. One for an array of images at any depth takes a texture slot,
whether the images are for storage or not; only an array that has no descriptor is left out. -/
theorem imageVariable_leftOut_or_texture {is : List Instruction} {d : Declarations}
    (h : ofInstructions is = .ok d) (once : (typeResults (moduleScope false is)).Nodup)
    (hn : (variableNames is).Nodup) {i image : Instruction} {name pointee : String} {depth : Nat}
    (hi : ConstantVariable is i name pointee) (hnest : ImageNest is image depth pointee) :
    (((depth = 0 ∧ imageUse image = storageImage) ∨ ¬d.Resolves pointee) → d.LeftOut name) ∧
      (¬((depth = 0 ∧ imageUse image = storageImage) ∨ ¬d.Resolves pointee) →
        d.TakesTexture is name) := by
  obtain ⟨v, hv, hof, hid, hbase⟩ := exists_variable_pointing h once hi.mem hi.result hi.type
  have hstorage : v.storage = .uniformConstant := by
    obtain ⟨s, hs, hstorage⟩ := hof.storage
    obtain rfl := Except.ok.inj (hi.storage.symm.trans hs)
    exact hstorage.trans (by decide)
  have hcategory := category?_imageNest h once hstorage hbase hnest
  constructor
  · intro hout
    rw [if_pos hout] at hcategory
    exact leftOut_of_category h hn hv hid hcategory
  · intro hin
    rw [if_neg hin] at hcategory
    exact takesTexture_of_category h hn hv hid hcategory

/-- A shader with a storage image, an array of them, and an image that is read with a sampler. -/
def canvasListing : List Instruction := [
  ⟨"OpTypeFloat", [.int 32], some "float", 1⟩,
  ⟨"OpTypeInt", [.int 32, .int 0], some "uint", 2⟩,
  ⟨"OpConstant", [.id "uint", .int 2], some "two", 3⟩,
  ⟨"OpTypeImage", [.id "float", .word "2D", .int 0, .int 0, .int 0, .int 2, .word "Rgba8"],
    some "canvas", 4⟩,
  ⟨"OpTypeArray", [.id "canvas", .id "two"], some "canvases", 5⟩,
  ⟨"OpTypeImage", [.id "float", .word "2D", .int 0, .int 0, .int 0, .int 1, .word "Unknown"],
    some "picture", 6⟩,
  ⟨"OpTypePointer", [.word "UniformConstant", .id "canvas"], some "toCanvas", 7⟩,
  ⟨"OpTypePointer", [.word "UniformConstant", .id "canvases"], some "toCanvases", 8⟩,
  ⟨"OpTypePointer", [.word "UniformConstant", .id "picture"], some "toPicture", 9⟩,
  ⟨"OpVariable", [.id "toCanvas", .word "UniformConstant"], some "page", 10⟩,
  ⟨"OpVariable", [.id "toCanvases", .word "UniformConstant"], some "pages", 11⟩,
  ⟨"OpVariable", [.id "toPicture", .word "UniformConstant"], some "photo", 12⟩]

theorem canvasListing_page : ConstantVariable canvasListing canvasListing[9] "page" "canvas" :=
  ⟨by decide +kernel, by decide, by decide,
    "toCanvas", by decide,
    .pointer ⟨canvasListing[6], by decide +kernel, by decide, by decide, by decide⟩⟩

theorem canvasListing_pages : ConstantVariable canvasListing canvasListing[10] "pages" "canvases" :=
  ⟨by decide +kernel, by decide, by decide,
    "toCanvases", by decide,
    .pointer ⟨canvasListing[7], by decide +kernel, by decide, by decide, by decide⟩⟩

theorem canvasListing_canvas : ImageNest canvasListing canvasListing[3] 0 "canvas" :=
  .image (by decide +kernel) (by decide) (by decide)

theorem canvasListing_canvases : ImageNest canvasListing canvasListing[3] 1 "canvases" :=
  .array (i := canvasListing[4]) (by decide +kernel) (by decide) (by decide) (by decide)
    canvasListing_canvas

/-- The storage image is left out, and the array of them is not. -/
theorem canvasListing_leftOut_or_texture :
    (typeResults (moduleScope false canvasListing)).Nodup ∧ (variableNames canvasListing).Nodup ∧
    ∃ d, ofInstructions canvasListing = .ok d ∧ imageUse canvasListing[3] = storageImage ∧
      d.LeftOut "page" ∧ d.TakesTexture canvasListing "pages" := by
  have once : (typeResults (moduleScope false canvasListing)).Nodup := by decide +kernel
  have hn : (variableNames canvasListing).Nodup := by decide +kernel
  obtain ⟨d, hd, hresolves⟩ := exists_ok_of_any (x := ofInstructions canvasListing)
    (p := fun d => d.Resolves "canvases") (by decide +kernel)
  have hpage := imageVariable_leftOut_or_texture hd once hn canvasListing_page canvasListing_canvas
  have hpages :=
    imageVariable_leftOut_or_texture hd once hn canvasListing_pages canvasListing_canvases
  exact ⟨once, hn, d, hd, by decide, hpage.1 (.inl (by decide)),
    hpages.2 (by simp [hresolves])⟩

def claimRanks (d : Declarations) : List (Id × Slots) :=
  d.claimants.map fun c => (c.id, (SlotCounts.ranks d.claimKey d.claimants c).next c.category)

private theorem slots_of_mem_claimRanks {d : Declarations} (hn : (d.globals.map (·.id)).Nodup)
    {x : Id} {s : Slots} (hx : (x, s) ∈ d.claimRanks) : d.slots x = s := by
  obtain ⟨c, hc, he⟩ := List.mem_map.mp hx
  obtain ⟨rfl, rfl⟩ := Prod.mk.inj he
  exact slots_claimant hn hc

/-- An array of storage images is listed among the separate images, and the next image gets another
slot than it would have without it. -/
theorem storageImages_shift_slots :
    ((moduleScope false canvasListing).filterMap (·.result)).Nodup ∧
    ConstantVariable canvasListing canvasListing[10] "pages" "canvases" ∧
    ImageNest canvasListing canvasListing[3] 1 "canvases" ∧
    imageUse canvasListing[3] = storageImage ∧
    ∃ d x y, ofInstructions canvasListing = .ok d ∧ d.idOf? "pages" = some x ∧
      d.idOf? "photo" = some y ∧ d.ListedIn .separateImages "pages" ∧
      d.slots x = { first := 0 } ∧ d.slots y = { first := 1 } ∧
      (d.without x).slots y = { first := 0 } := by
  obtain ⟨d, hd, hx, hy, hlisted, hn, hn', hpages, hphoto, hmoved⟩ := exists_ok_of_any
    (x := ofInstructions canvasListing) (p := fun d => d.idOf? "pages" = some 11 ∧
      d.idOf? "photo" = some 12 ∧ d.ListedIn .separateImages "pages" ∧
      (d.globals.map (·.id)).Nodup ∧ ((d.without 11).globals.map (·.id)).Nodup ∧
      (11, { first := 0 }) ∈ d.claimRanks ∧ (12, { first := 1 }) ∈ d.claimRanks ∧
      (12, { first := 0 }) ∈ (d.without 11).claimRanks)
    (by decide +kernel)
  exact ⟨by decide +kernel, canvasListing_pages, canvasListing_canvases, by decide, d, 11, 12, hd,
    hx, hy, hlisted, slots_of_mem_claimRanks hn hpages, slots_of_mem_claimRanks hn hphoto,
    slots_of_mem_claimRanks hn' hmoved⟩

end Declarations
end ShaderReflection.Module
