import Mathlib.Data.List.Nodup
import ShaderReflection.Layout.RecordLibrary
import ShaderReflection.Proofs.Module.Steps

/-! What may be expected of a library of arrays, and that the one of the command keeps to it. A record
is made just where its fields have names of their own and lie inside it, and 32 bits are enough for
all of its numbers. -/
open ShaderReflection.Module (bind_eq_ok)

namespace ShaderReflection

/-- The kinds of errors of a library of arrays: a type that it does not have, a number that it cannot
hold, and a value that it refuses. -/
inductive RecordErrorKind where
  | type
  | overflow
  | value
  deriving DecidableEq, Repr

def RecordError.kind : RecordError → RecordErrorKind
  | .paddingSize _ => .type
  | .beyond64Bits => .overflow
  | _ => .value

namespace RecordLibrary

def maxSize : Int := 0x7FFFFFFF

structure Fits (fs : List RecordField) (size : Int) : Prop where
  names : (fs.map (·.name)).Nodup
  offsets : ∀ f ∈ fs, 0 ≤ f.offset ∧ f.offset ≤ maxSize
  stops : ∀ f ∈ fs, f.stop ≤ size
  size : 0 ≤ size ∧ size ≤ maxSize

/-- The first of the offsets of fields and the size that 32 bits cannot hold. -/
def firstWide? (fs : List RecordField) (size : Int) : Option Int :=
  (fs.map (·.offset) ++ [size]).find? (!fits32 ·)

/-- What the documentation of a library of arrays says. Ends of fields that are beyond both the
record and 32 bits are left open. -/
structure Documented (library : RecordLibrary) : Prop where
  bytes_eq_ok : ∀ n : Nat, n ≤ maxSize → library.bytes (Nat.toDigits 10 n) = .ok n
  bytes_eq_error : ∀ n : Nat, maxSize < n →
    ∃ e, library.bytes (Nat.toDigits 10 n) = .error e ∧ e.kind = .type
  record_eq_ok : ∀ fs size, Fits fs size → library.record fs size = .ok ⟨size, fs⟩
  record_eq_error : ∀ fs size, (∀ f ∈ fs, f.stop ≤ size ∨ f.stop ≤ maxSize) → ¬Fits fs size →
    ∃ e, library.record fs size = .error e
  /-- Only a number that 64 bits cannot hold is an error of another kind, if it is the first. -/
  kind_eq_value : ∀ fs size e, library.record fs size = .error e →
    (∀ n, firstWide? fs size = some n → fits64 n = true) → e.kind = .value

section Standard

variable {fs : List RecordField} {names : List String} {size n : Int} {e : RecordError}

private theorem fits32_iff : fits32 n = true ↔ -maxSize - 1 ≤ n ∧ n ≤ maxSize := by
  unfold fits32 maxSize
  rw [decide_eq_true_eq]
  rfl

private theorem fits32_of_offset (h : 0 ≤ n ∧ n ≤ maxSize) : fits32 n = true :=
  fits32_iff.mpr ⟨by unfold maxSize; omega, h.2⟩

private theorem fits64_of_fits32 (h : fits32 n = true) : fits64 n = true := by
  have := fits32_iff.mp h
  unfold maxSize at this
  unfold fits64
  rw [decide_eq_true_eq]
  omega

private theorem checkWidth_of_fits (h : fits32 n = true) : checkWidth n = .ok () := by
  unfold checkWidth
  rw [h, fits64_of_fits32 h]
  rfl

private theorem exists_checkWidth_eq_error (h : fits32 n = false) :
    ∃ e, checkWidth n = .error e ∧ (fits64 n = true → e.kind = .value) := by
  unfold checkWidth
  rw [h]
  cases fits64 n with
  | false => exact ⟨.beyond64Bits, rfl, nofun⟩
  | true => exact ⟨.beyond32Bits, rfl, fun _ => rfl⟩

private theorem checkWidth_eq_ok_iff : checkWidth n = .ok () ↔ fits32 n = true := by
  cases h : fits32 n with
  | false =>
    obtain ⟨e, he, -⟩ := exists_checkWidth_eq_error h
    rw [he]
    exact iff_of_false nofun nofun
  | true => exact iff_of_true (checkWidth_of_fits h) rfl

private theorem checkField_of_wide {f : RecordField} (h : checkWidth f.offset = .error e) :
    checkField names f = .error e := by
  unfold checkField
  rw [h]
  rfl

private theorem checkField_eq {f : RecordField} (h : fits32 f.offset = true) :
    checkField names f =
      if f.offset < 0 then .error (.negativeOffset f.offset)
      else if f.name ∈ names then .error .repeatedName
      else .ok () := by
  unfold checkField
  rw [checkWidth_of_fits h]
  by_cases hneg : f.offset < 0
  · simp only [if_pos hneg]
    rfl
  · simp only [if_neg hneg]
    by_cases hname : f.name ∈ names
    · simp only [if_pos hname]
      rfl
    · simp only [if_neg hname]
      rfl

/-- Names are distinct and new behind some that were seen, if the first is new and the others are
so behind it too. -/
private theorem freshNames_cons {f : RecordField} :
    (((f :: fs).map (·.name)).Nodup ∧ ∀ g ∈ f :: fs, g.name ∉ names) ↔
      f.name ∉ names ∧ (fs.map (·.name)).Nodup ∧ ∀ g ∈ fs, g.name ∉ f.name :: names := by
  have hfirst : f.name ∉ fs.map (·.name) ↔ ∀ g ∈ fs, g.name ≠ f.name := by
    rw [List.mem_map]
    push Not
    rfl
  have hrest : (∀ g ∈ fs, g.name ∉ f.name :: names) ↔
      (∀ g ∈ fs, g.name ≠ f.name) ∧ ∀ g ∈ fs, g.name ∉ names := by
    simp only [List.mem_cons, not_or]
    exact forall₂_and
  rw [List.map_cons, List.nodup_cons, List.forall_mem_cons, hfirst, hrest]
  constructor
  · rintro ⟨⟨hapart, hnodup⟩, hnew, hothers⟩
    exact ⟨hnew, hnodup, hapart, hothers⟩
  · rintro ⟨hnew, hnodup, hapart, hothers⟩
    exact ⟨⟨hapart, hnodup⟩, hnew, hothers⟩

private def Fresh (names : List String) (fs : List RecordField) : Prop :=
  (∀ f ∈ fs, 0 ≤ f.offset ∧ f.offset ≤ maxSize) ∧
    (fs.map (·.name)).Nodup ∧ ∀ f ∈ fs, f.name ∉ names

private theorem checkField_eq_ok_iff {f : RecordField} :
    checkField names f = .ok () ↔ (0 ≤ f.offset ∧ f.offset ≤ maxSize) ∧ f.name ∉ names := by
  cases h : fits32 f.offset with
  | false =>
    have hwide : ¬ (0 ≤ f.offset ∧ f.offset ≤ maxSize) := fun hoffset => by
      rw [fits32_of_offset hoffset] at h
      cases h
    obtain ⟨e, he, -⟩ := exists_checkWidth_eq_error h
    rw [checkField_of_wide he]
    exact iff_of_false nofun fun hfield => hwide hfield.1
  | true =>
    have hmax := (fits32_iff.mp h).2
    rw [checkField_eq h]
    split_ifs with hneg hname
    · exact iff_of_false nofun fun h => by omega
    · exact iff_of_false nofun fun h => h.2 hname
    · exact iff_of_true rfl ⟨by omega, hname⟩

private theorem checkFields_eq_ok_iff : checkFields names fs = .ok () ↔ Fresh names fs := by
  induction fs generalizing names with
  | nil => simp [checkFields, Fresh]
  | cons f fs ih =>
    have hcons : Fresh names (f :: fs) ↔
        ((0 ≤ f.offset ∧ f.offset ≤ maxSize) ∧ f.name ∉ names) ∧ Fresh (f.name :: names) fs := by
      unfold Fresh
      rw [freshNames_cons, List.forall_mem_cons]
      tauto
    rw [hcons, ← checkField_eq_ok_iff, ← ih, checkFields, bind_eq_ok]
    exact ⟨fun ⟨_, hf, hfs⟩ => ⟨hf, hfs⟩, fun ⟨hf, hfs⟩ => ⟨(), hf, hfs⟩⟩

/-- A field that is refused for the width of its offset is the first with such an offset. -/
private theorem kind_of_checkFields (h : checkFields names fs = .error e)
    (hfirst : ∀ n, firstWide? fs size = some n → fits64 n = true) : e.kind = .value := by
  induction fs generalizing names with
  | nil => cases h
  | cons f fs ih =>
    rw [checkFields] at h
    cases h32 : fits32 f.offset with
    | false =>
      have hwide : firstWide? (f :: fs) size = some f.offset := by
        simp [firstWide?, h32]
      obtain ⟨e', he, hkind⟩ := exists_checkWidth_eq_error h32
      rw [checkField_of_wide he] at h
      obtain rfl := Except.error.inj h
      exact hkind (hfirst _ hwide)
    | true =>
      have hrest : firstWide? (f :: fs) size = firstWide? fs size := by
        simp [firstWide?, h32]
      rw [checkField_eq h32] at h
      split_ifs at h
      · obtain rfl := Except.error.inj h
        rfl
      · obtain rfl := Except.error.inj h
        rfl
      · exact ih h (hrest ▸ hfirst)

/-- Ends that 32 bits can hold are not folded, so the fields need the largest of them. -/
private theorem foldl_extend_le {stops : List Int} {low : Int} (hlow : 0 ≤ low)
    (h : ∀ n ∈ stops, n ≤ maxSize) :
    stops.foldl extend low ≤ size ↔ low ≤ size ∧ ∀ n ∈ stops, n ≤ size := by
  induction stops generalizing low with
  | nil => simp
  | cons n stops ih =>
    have hn := h n List.mem_cons_self
    have hstep : extend low n = max low n := by
      unfold extend
      split_ifs with hlt
      · rw [Int.bmod_eq_of_le (by omega) (by unfold maxSize at hn; omega)]
        omega
      · omega
    rw [List.foldl_cons, hstep, ih (by omega) fun n hn => h n (List.mem_cons_of_mem _ hn),
      List.forall_mem_cons, Int.max_le, and_assoc]

private theorem fits_iff (hstops : ∀ f ∈ fs, f.stop ≤ size ∨ f.stop ≤ maxSize) :
    Fits fs size ↔ checkFields [] fs = .ok () ∧ fits32 size = true ∧
      neededSize (fs.map (·.stop)) ≤ size := by
  rw [checkFields_eq_ok_iff, fits32_iff]
  constructor
  · rintro ⟨hnames, hoffsets, hends, hsize⟩
    refine ⟨⟨hoffsets, hnames, fun _ _ => List.not_mem_nil⟩, ⟨by omega, hsize.2⟩, ?_⟩
    refine (foldl_extend_le (Int.le_refl 0) fun n hn => ?_).mpr ⟨hsize.1, fun n hn => ?_⟩
    · obtain ⟨f, hf, rfl⟩ := List.mem_map.mp hn
      have := hends f hf
      omega
    · obtain ⟨f, hf, rfl⟩ := List.mem_map.mp hn
      exact hends f hf
  · rintro ⟨⟨hoffsets, hnames, -⟩, hsize, hneeded⟩
    have hbounds : ∀ n ∈ fs.map (·.stop), n ≤ maxSize := fun n hn => by
      obtain ⟨f, hf, rfl⟩ := List.mem_map.mp hn
      have := hstops f hf
      omega
    obtain ⟨hpos, hends⟩ := (foldl_extend_le (Int.le_refl 0) hbounds).mp hneeded
    exact ⟨hnames, hoffsets, fun f hf => hends _ (List.mem_map_of_mem hf), hpos, hsize.2⟩

private theorem recordOf_eq_ok_iff {r : RecordFormat} : recordOf fs size = .ok r ↔
    (checkFields [] fs = .ok () ∧ fits32 size = true ∧ neededSize (fs.map (·.stop)) ≤ size) ∧
      ⟨size, fs⟩ = r := by
  unfold recordOf
  rw [bind_eq_ok, ← checkWidth_eq_ok_iff]
  constructor
  · rintro ⟨_, hfields, h⟩
    obtain ⟨_, hwidth, h⟩ := bind_eq_ok.mp h
    dsimp only at h
    split_ifs at h with hsize
    exact ⟨⟨hfields, hwidth, Int.not_lt.mp hsize⟩, Except.ok.inj h⟩
  · rintro ⟨⟨hfields, hwidth, hsize⟩, rfl⟩
    refine ⟨(), hfields, bind_eq_ok.mpr ⟨(), hwidth, ?_⟩⟩
    exact if_neg (Int.not_lt.mpr hsize)

private theorem firstWide?_eq_size (h : ∀ f ∈ fs, fits32 f.offset = true)
    (hsize : fits32 size = false) : firstWide? fs size = some size := by
  unfold firstWide?
  rw [List.find?_append, List.find?_eq_none.mpr fun n hn => ?_]
  · simp [hsize]
  · obtain ⟨f, hf, rfl⟩ := List.mem_map.mp hn
    simp [h f hf]

private theorem kind_of_recordOf (h : recordOf fs size = .error e)
    (hfirst : ∀ n, firstWide? fs size = some n → fits64 n = true) : e.kind = .value := by
  unfold recordOf at h
  cases hfields : checkFields [] fs with
  | error e' =>
    rw [hfields] at h
    obtain rfl := Except.error.inj h
    exact kind_of_checkFields hfields hfirst
  | ok _ =>
    rw [hfields] at h
    cases h32 : fits32 size with
    | false =>
      obtain ⟨e', he, hkind⟩ := exists_checkWidth_eq_error h32
      rw [he] at h
      obtain rfl := Except.error.inj h
      have hoffsets := (checkFields_eq_ok_iff.mp hfields).1
      refine hkind (hfirst size ?_)
      exact firstWide?_eq_size (fun f hf => fits32_of_offset (hoffsets f hf)) h32
    | true =>
      rw [checkWidth_of_fits h32] at h
      dsimp only [bind, Except.bind] at h
      split_ifs at h
      obtain rfl := Except.error.inj h
      rfl

theorem standard_documented : standard.Documented where
  bytes_eq_ok n h := by
    have hdigits : (Nat.toDigits 10 n).all Char.isDigit = true :=
      List.all_eq_true.mpr fun c hc => Nat.isDigit_of_mem_toDigits (by decide) (by decide) hc
    have hvalue : Nat.ofDigitChars 10 (Nat.toDigits 10 n) 0 = n :=
      Nat.ofDigitChars_toDigits (by decide) (by decide)
    show sizeOf _ = _
    unfold sizeOf
    rw [hvalue, if_pos ⟨hdigits, by unfold maxSize at h; omega⟩]
  bytes_eq_error n h := by
    have hvalue : Nat.ofDigitChars 10 (Nat.toDigits 10 n) 0 = n :=
      Nat.ofDigitChars_toDigits (by decide) (by decide)
    refine ⟨.paddingSize (Nat.toDigits 10 n), ?_, rfl⟩
    show sizeOf _ = _
    unfold sizeOf
    rw [hvalue, if_neg fun hsize => by unfold maxSize at h; omega]
  record_eq_ok fs size h :=
    recordOf_eq_ok_iff.mpr ⟨(fits_iff fun f hf => .inl (h.stops f hf)).mp h, rfl⟩
  record_eq_error fs size hstops h := by
    cases hr : standard.record fs size with
    | error e => exact ⟨e, rfl⟩
    | ok r => exact absurd ((fits_iff hstops).mpr (recordOf_eq_ok_iff.mp hr).1) h
  kind_eq_value _ _ _ := kind_of_recordOf

end Standard

end RecordLibrary
end ShaderReflection
