import Mathlib.Data.List.Nodup
import ShaderReflection.Layout.RecordFormat
import ShaderReflection.Proofs.Layout.Placement
import ShaderReflection.Proofs.Layout.RecordLibrary
import ShaderReflection.Proofs.Number.DecimalText

/-! Record formats of packed structs, whose members lie back to back and name types of their own
lengths. The fields tile the record; what can go wrong is a repeated name, a record of more than 32
bits, or a member that is longer than any type can be. -/
namespace ShaderReflection

/-- A member is as long as the type that it names. -/
def StructMember.Typed (m : StructMember) : Prop :=
  ∃ h : HostType, h.text = some m.type ∧ h.byteSize = m.byteLength

/-- The members of a struct lie back to back, name types of their lengths, and take all of its
bytes. -/
structure Packed (d : StructDefinition) : Prop where
  contiguous : Contiguous 0 d.members
  typed : ∀ m ∈ d.members, m.Typed
  covered : d.byteLength ≤ total (d.members.map (·.byteLength))

namespace RecordFormat

open RecordLibrary (Fits firstWide? fits32 fits64 maxSize)
open Text (takeWhile_append_of_stops dropWhile_append_of_stops)

variable {library : RecordLibrary}

section Types

private theorem find?_fixed_padding (size : String) :
    HostType.fixed.find? (·.text = some ("Padding<" ++ size ++ ">")) = none := by
  refine List.find?_eq_none.mpr fun h hh => ?_
  rw [decide_eq_true_eq]
  intro ht
  simp only [HostType.fixed, List.mem_cons, List.not_mem_nil, or_false] at hh
  rcases hh with rfl | rfl | rfl | rfl | rfl | rfl | rfl | rfl <;>
    · have := congrArg String.toList (Option.some.inj ht)
      simp [String.toList_append] at this

private theorem paddingDigits?_toString (n : Nat) :
    HostType.paddingDigits? ("Padding<" ++ toString (n : Int) ++ ">").toList =
      some (Nat.toDigits 10 n) := by
  have hdigits : ∀ c ∈ Nat.toDigits 10 n, Text.isDecimalDigit c = true := fun c hc =>
    Text.isDecimalDigit_of_isDigit (Nat.isDigit_of_mem_toDigits (by decide) (by decide) hc)
  have hstops : Text.Stops Text.isDecimalDigit ['>'] := by
    rintro c ⟨⟩
    decide
  have htext : ("Padding<" ++ toString (n : Int) ++ ">").toList =
      "Padding<".toList ++ (Nat.toDigits 10 n ++ ['>']) := by
    have hn : ¬ (n : Int) < 0 := by omega
    rw [String.toList_append, String.toList_append, Number.toList_toString, if_neg hn,
      Int.natAbs_natCast, List.nil_append, List.append_assoc]
    rfl
  unfold HostType.paddingDigits?
  simp only [htext, List.isPrefixOf_iff_prefix, List.prefix_append, if_true, List.drop_left,
    takeWhile_append_of_stops hdigits hstops, dropWhile_append_of_stops hdigits hstops]
  simp

private theorem typeOfText_padding (n : Nat) :
    typeOfText library ("Padding<" ++ toString (n : Int) ++ ">") =
      (library.bytes (Nat.toDigits 10 n)).map .padding := by
  unfold typeOfText
  rw [find?_fixed_padding, paddingDigits?_toString]

/-- The text of a type of positive size is read as that type, unless no type can be so large. -/
private theorem typeOfText_text (hlib : library.Documented) {h : HostType} {name : String}
    (ht : h.text = some name) (hpos : 0 < h.byteSize) :
    if h.byteSize ≤ maxSize then typeOfText library name = .ok h
    else ∃ e, typeOfText library name = .error e ∧ e.kind = .type := by
  cases h with
  | padding bytes =>
    obtain ⟨n, rfl⟩ := Int.eq_ofNat_of_zero_le (Int.le_of_lt hpos)
    simp only [HostType.text, Number.decimal?, Option.map_eq_some_iff,
      Option.ite_none_right_eq_some, Option.some.injEq] at ht
    obtain ⟨_, ⟨-, rfl⟩, rfl⟩ := ht
    rw [typeOfText_padding]
    show if (n : Int) ≤ maxSize then _ else _
    split_ifs with hsize
    · rw [hlib.bytes_eq_ok n hsize]
      rfl
    · obtain ⟨e, he, hkind⟩ := hlib.bytes_eq_error n (Int.not_le.mp hsize)
      rw [he]
      exact ⟨e, rfl, hkind⟩
  | _ =>
    obtain rfl := Option.some.inj ht
    exact rfl

end Types

section Fields

def fieldName (index : Nat) (m : StructMember) : String :=
  if m.name = "" then "f" ++ toString index else m.name

/-- The members that have bytes, with their places, of which the first is given. -/
def filledFrom (index : Nat) (ms : List StructMember) : List (StructMember × Nat) :=
  (ms.zipIdx index).filter (·.1.byteLength ≠ 0)

structure FieldOf (p : StructMember × Nat) (f : RecordField) : Prop where
  name : f.name = fieldName p.2 p.1
  offset : f.offset = p.1.offset
  type : f.type.text = some p.1.type
  size : f.type.byteSize = p.1.byteLength

/-- Fields follow one another from an offset to another one, without a gap and without an
overlap. -/
def Tiles : Int → List RecordField → Int → Prop
  | lo, [], hi => lo = hi
  | lo, f :: fs, hi => f.offset = lo ∧ Tiles (lo + f.type.byteSize) fs hi

theorem filledFrom_cons (index : Nat) (m : StructMember) (ms : List StructMember) :
    filledFrom index (m :: ms) =
      if m.byteLength = 0 then filledFrom (index + 1) ms
      else (m, index) :: filledFrom (index + 1) ms := by
  unfold filledFrom
  rw [List.zipIdx_cons, List.filter_cons]
  by_cases h : m.byteLength = 0 <;> simp [h]

variable {m : StructMember} {ms : List StructMember} {index : Nat}

private theorem mem_of_mem_filledFrom {p : StructMember × Nat} (h : p ∈ filledFrom index ms) :
    p.1 ∈ ms := by
  have hp := (List.mem_filter.mp h).1
  exact List.fst_mem_of_mem_zipIdx hp

private theorem field?_eq_none (h : m.byteLength = 0) : field? library index m = .ok none :=
  if_pos h

section Documented

variable (hlib : library.Documented)
include hlib

private theorem exists_field (index : Nat) (ht : m.Typed) (hpos : 0 < m.byteLength)
    (hsize : m.byteLength ≤ maxSize) :
    ∃ f, field? library index m = .ok (some f) ∧ FieldOf (m, index) f := by
  obtain ⟨h, htext, hlength⟩ := ht
  have htype := typeOfText_text hlib htext (by omega)
  rw [if_pos (by omega)] at htype
  refine ⟨⟨fieldName index m, m.offset, h⟩, ?_, rfl, rfl, htext, hlength⟩
  unfold field?
  rw [if_neg (by omega), htype]
  rfl

private theorem field?_eq_error (index : Nat) (ht : m.Typed) (hsize : maxSize < m.byteLength) :
    ∃ e, field? library index m = .error e ∧ e.kind = .type := by
  obtain ⟨h, htext, hlength⟩ := ht
  have hmax : 0 < maxSize := by decide
  have htype := typeOfText_text hlib htext (by omega)
  rw [if_neg (by omega)] at htype
  obtain ⟨e, he, hkind⟩ := htype
  refine ⟨e, ?_, hkind⟩
  unfold field?
  rw [if_neg (by omega), he]
  rfl

def Measured (ms : List StructMember) : Prop := ∀ m ∈ ms, m.Typed ∧ 0 ≤ m.byteLength

theorem exists_fieldsFrom (index : Nat) (h : Measured ms)
    (hsize : ∀ m ∈ ms, m.byteLength ≤ maxSize) :
    ∃ fs, fieldsFrom library index ms = .ok fs ∧
      List.Forall₂ FieldOf (filledFrom index ms) fs := by
  induction ms generalizing index with
  | nil => exact ⟨[], rfl, .nil⟩
  | cons m ms ih =>
    obtain ⟨ht, hpos⟩ := h m List.mem_cons_self
    obtain ⟨fs, hfs, hof⟩ := ih (index + 1) (fun m hm => h m (List.mem_cons_of_mem _ hm))
      fun m hm => hsize m (List.mem_cons_of_mem _ hm)
    rw [filledFrom_cons, fieldsFrom, hfs]
    by_cases hzero : m.byteLength = 0
    · rw [if_pos hzero, field?_eq_none hzero]
      exact ⟨fs, rfl, hof⟩
    · obtain ⟨f, hf, hmf⟩ := exists_field hlib index ht (by omega)
        (hsize m List.mem_cons_self)
      rw [if_neg hzero, hf]
      exact ⟨f :: fs, rfl, .cons hmf hof⟩

/-- A member that is longer than any type is reported before anything else. -/
theorem fieldsFrom_eq_error (index : Nat) (h : Measured ms)
    (hlong : ∃ m ∈ ms, maxSize < m.byteLength) :
    ∃ e, fieldsFrom library index ms = .error e ∧ e.kind = .type := by
  induction ms generalizing index with
  | nil => simp at hlong
  | cons m ms ih =>
    obtain ⟨ht, hpos⟩ := h m List.mem_cons_self
    unfold fieldsFrom
    by_cases hsize : maxSize < m.byteLength
    · obtain ⟨e, he, hkind⟩ := field?_eq_error hlib index ht hsize
      rw [he]
      exact ⟨e, rfl, hkind⟩
    · simp only [List.mem_cons, exists_eq_or_imp] at hlong
      obtain ⟨e, he, hkind⟩ := ih (index + 1) (fun m hm => h m (List.mem_cons_of_mem _ hm))
        (hlong.resolve_left hsize)
      rw [he]
      by_cases hzero : m.byteLength = 0
      · rw [field?_eq_none hzero]
        exact ⟨e, rfl, hkind⟩
      · obtain ⟨f, hf, -⟩ := exists_field hlib index ht (by omega) (by omega)
        rw [hf]
        exact ⟨e, rfl, hkind⟩

end Documented

/-- The fields of members that lie back to back tile them: a member without bytes leaves no gap. -/
theorem tiles_of_contiguous {fs : List RecordField} {offset : Int} (hc : Contiguous offset ms)
    (hfs : List.Forall₂ FieldOf (filledFrom index ms) fs) :
    Tiles offset fs (offset + total (ms.map (·.byteLength))) := by
  induction ms generalizing index fs offset with
  | nil =>
    cases hfs
    exact (Int.add_zero offset).symm
  | cons m ms ih =>
    obtain ⟨rfl, hc⟩ := hc
    rw [filledFrom_cons] at hfs
    rw [List.map_cons, total_cons, ← Int.add_assoc]
    by_cases hzero : m.byteLength = 0
    · rw [if_pos hzero] at hfs
      simpa [hzero] using ih hc hfs
    · rw [if_neg hzero] at hfs
      cases hfs with
      | @cons _ f _ fs hf hfs =>
        have hsize : f.type.byteSize = m.byteLength := hf.size
        refine ⟨hf.offset, ?_⟩
        rw [hsize]
        exact ih hc hfs

end Fields

section Places

variable {fs : List RecordField} {lo hi : Int}

private theorem le_of_tiles (htiles : Tiles lo fs hi) (hpos : ∀ f ∈ fs, 0 ≤ f.type.byteSize) :
    lo ≤ hi := by
  induction fs generalizing lo with
  | nil => exact Int.le_of_eq htiles
  | cons f fs ih =>
    have hrest := ih htiles.2 fun f hf => hpos f (List.mem_cons_of_mem _ hf)
    have hf := hpos f List.mem_cons_self
    omega

private theorem place_of_tiles (htiles : Tiles lo fs hi)
    (hpos : ∀ f ∈ fs, 0 ≤ f.type.byteSize) : ∀ f ∈ fs, lo ≤ f.offset ∧ f.stop ≤ hi := by
  induction fs generalizing lo with
  | nil => exact fun f hf => nomatch hf
  | cons f fs ih =>
    obtain ⟨rfl, htiles⟩ := htiles
    have hrest := fun g hg => hpos g (List.mem_cons_of_mem f hg)
    have hle := le_of_tiles htiles hrest
    have hf := hpos f List.mem_cons_self
    intro g hg
    rcases List.mem_cons.mp hg with rfl | hg
    · exact ⟨Int.le_refl _, hle⟩
    · obtain ⟨hlow, hstop⟩ := ih htiles hrest g hg
      exact ⟨by omega, hstop⟩

/-- Fields that tile a record fit into it, if they have names of their own and 32 bits are enough
for the size. -/
theorem fits_iff_of_tiles (htiles : Tiles 0 fs hi) (hpos : ∀ f ∈ fs, 0 ≤ f.type.byteSize) :
    Fits fs hi ↔ (fs.map (·.name)).Nodup ∧ hi ≤ maxSize := by
  refine ⟨fun h => ⟨h.names, h.size.2⟩, fun ⟨hnames, hsize⟩ => ⟨hnames, fun f hf => ?_,
    fun f hf => (place_of_tiles htiles hpos f hf).2, le_of_tiles htiles hpos, hsize⟩⟩
  obtain ⟨hlow, hstop⟩ := place_of_tiles htiles hpos f hf
  have hf := hpos f hf
  unfold RecordField.stop at hstop
  omega

/-- No field is longer than `maxSize`, so an offset beyond 32 bits is met before one beyond 64. -/
theorem fits64_of_firstWide? (htiles : Tiles lo fs hi) (hlo : 0 ≤ lo) (hmax : lo ≤ 2 * maxSize)
    (hsize : ∀ f ∈ fs, 0 ≤ f.type.byteSize ∧ f.type.byteSize ≤ maxSize) {n : Int}
    (hn : firstWide? fs hi = some n) : fits64 n = true := by
  have hwide (m : Int) (hpos : 0 ≤ m) (hm : m ≤ 2 * maxSize) : fits64 m = true := by
    unfold maxSize at hm
    unfold fits64
    rw [decide_eq_true_eq]
    omega
  induction fs generalizing lo with
  | nil =>
    obtain rfl : lo = hi := htiles
    obtain ⟨-, rfl⟩ : fits32 lo = false ∧ lo = n := by simpa [firstWide?] using hn
    exact hwide lo hlo hmax
  | cons f fs ih =>
    obtain ⟨rfl, htiles⟩ := htiles
    obtain ⟨hpos, hfield⟩ := hsize f List.mem_cons_self
    cases h32 : fits32 f.offset with
    | false =>
      obtain rfl : f.offset = n := by simpa [firstWide?, h32] using hn
      exact hwide _ hlo hmax
    | true =>
      have hoffset : f.offset ≤ maxSize := by
        unfold fits32 at h32
        unfold maxSize
        rw [decide_eq_true_eq] at h32
        exact h32.2
      refine ih htiles (by omega) (by omega) (fun f hf => hsize f (List.mem_cons_of_mem _ hf)) ?_
      simpa [firstWide?, h32] using hn

/-- The ends of members that lie back to back have the last one as their largest. -/
private theorem foldl_max_ends {ms : List StructMember} {offset : Int} (hc : Contiguous offset ms)
    (hpos : ∀ m ∈ ms, 0 ≤ m.byteLength) :
    (ms.map fun m => m.offset + m.byteLength).foldl max offset =
      offset + total (ms.map (·.byteLength)) := by
  induction ms generalizing offset with
  | nil => exact (Int.add_zero offset).symm
  | cons m ms ih =>
    obtain ⟨rfl, hc⟩ := hc
    have hm := hpos m List.mem_cons_self
    have hmax : max m.offset (m.offset + m.byteLength) = m.offset + m.byteLength := by omega
    rw [List.map_cons, List.foldl_cons, hmax, ih hc fun m hm => hpos m (List.mem_cons_of_mem _ hm),
      List.map_cons, total_cons, Int.add_assoc]

end Places

section Records

variable {d : StructDefinition}

def fieldNames (d : StructDefinition) : List String :=
  (filledFrom 0 d.members).map fun p => fieldName p.2 p.1

/-- A record format has a field for each member of a struct that has bytes, in order. The fields
tile the record, which has the bytes of all members and no fewer than the struct claims. -/
structure RecordOf (d : StructDefinition) (r : RecordFormat) : Prop where
  fields : List.Forall₂ FieldOf (filledFrom 0 d.members) r.fields
  tiles : Tiles 0 r.fields r.itemSize
  itemSize : r.itemSize = total (d.members.map (·.byteLength))
  covers : d.byteLength ≤ r.itemSize

inductive PackedRecord (d : StructDefinition) : Except RecordError RecordFormat → Prop where
  | record {r : RecordFormat} (hnames : (fieldNames d).Nodup)
      (hsize : total (d.members.map (·.byteLength)) ≤ maxSize) (hr : RecordOf d r) :
      PackedRecord d (.ok r)
  | tooLong {e : RecordError} (hlong : ∃ m ∈ d.members, maxSize < m.byteLength)
      (hkind : e.kind = .type) : PackedRecord d (.error e)
  | refused {e : RecordError} (hlengths : ¬∃ m ∈ d.members, maxSize < m.byteLength)
      (hfits : ¬((fieldNames d).Nodup ∧ total (d.members.map (·.byteLength)) ≤ maxSize))
      (hkind : e.kind = .value) : PackedRecord d (.error e)

private theorem map_name_of_fields {ps : List (StructMember × Nat)} {fs : List RecordField}
    (h : List.Forall₂ FieldOf ps fs) : fs.map (·.name) = ps.map fun p => fieldName p.2 p.1 := by
  induction h with
  | nil => rfl
  | cons hf _ ih => rw [List.map_cons, List.map_cons, ih, hf.name]

private theorem claimedSize_of_packed (h : Packed d) (hpos : ∀ m ∈ d.members, 0 ≤ m.byteLength) :
    claimedSize d = total (d.members.map (·.byteLength)) := by
  have hends := foldl_max_ends h.contiguous hpos
  have hcovered := h.covered
  rw [Int.zero_add] at hends
  unfold claimedSize maxEnd
  rw [hends]
  omega

theorem packedRecord_ofStruct (hlib : library.Documented) (h : Packed d)
    (hpos : ∀ m ∈ d.members, 0 ≤ m.byteLength) : PackedRecord d (ofStruct d library) := by
  have hmeasured : Measured d.members := fun m hm => ⟨h.typed m hm, hpos m hm⟩
  unfold ofStruct
  by_cases hlong : ∃ m ∈ d.members, maxSize < m.byteLength
  · obtain ⟨e, he, hkind⟩ := fieldsFrom_eq_error hlib 0 hmeasured hlong
    rw [he]
    exact .tooLong hlong hkind
  · have hlengths : ∀ m ∈ d.members, m.byteLength ≤ maxSize := fun m hm =>
      Int.not_lt.mp fun hm' => hlong ⟨m, hm, hm'⟩
    obtain ⟨fs, hfs, hof⟩ := exists_fieldsFrom hlib 0 hmeasured hlengths
    have htiles := tiles_of_contiguous h.contiguous hof
    rw [Int.zero_add] at htiles
    have hsizes : ∀ f ∈ fs, 0 ≤ f.type.byteSize ∧ f.type.byteSize ≤ maxSize := by
      intro f hf
      obtain ⟨p, hp, hpf⟩ := exists_of_mem_related hof.flip hf
      have hm := mem_of_mem_filledFrom hp
      rw [FieldOf.size hpf]
      exact ⟨hpos _ hm, hlengths _ hm⟩
    have hplaces := place_of_tiles htiles fun f hf => (hsizes f hf).1
    have hfits := fits_iff_of_tiles htiles fun f hf => (hsizes f hf).1
    rw [map_name_of_fields hof] at hfits
    rw [hfs, claimedSize_of_packed h hpos]
    show PackedRecord d (library.record fs (total (d.members.map (·.byteLength))))
    by_cases hfit : Fits fs (total (d.members.map (·.byteLength)))
    · obtain ⟨hnames, hsize⟩ := hfits.mp hfit
      rw [hlib.record_eq_ok _ _ hfit]
      exact .record hnames hsize ⟨hof, htiles, rfl, h.covered⟩
    · obtain ⟨e, he⟩ := hlib.record_eq_error _ _ (fun f hf => .inl (hplaces f hf).2) hfit
      have hkind := hlib.kind_eq_value _ _ _ he fun n hn =>
        fits64_of_firstWide? htiles (Int.le_refl 0) (by decide) hsizes hn
      rw [he]
      exact .refused hlong (fun hfields => hfit (hfits.mpr hfields)) hkind

/-- A member that is too long for any type is too long for a record. -/
theorem total_of_long (hpos : ∀ m ∈ d.members, 0 ≤ m.byteLength)
    (hlong : ∃ m ∈ d.members, maxSize < m.byteLength) :
    maxSize < total (d.members.map (·.byteLength)) := by
  obtain ⟨m, hm, hlong⟩ := hlong
  have hle : m.byteLength ≤ total (d.members.map (·.byteLength)) :=
    le_total_of_mem (by simpa using hpos) (List.mem_map_of_mem hm)
  omega

end Records

end RecordFormat
end ShaderReflection
