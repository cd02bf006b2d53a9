import Mathlib.Data.String.Basic
import ShaderReflection.CommandLine.Path

/-! Paths by their names. A text is cut at its slashes, so that no name of a path has one, and a
text without slashes is one name. -/
namespace ShaderReflection

section Slashes

open String (utf8Len ofList)

section Position

variable (l m : List Char) (c : Char) (r : List Char)

private theorem Text.atEnd_behind :
    String.Pos.Raw.atEnd (ofList (l ++ m ++ c :: r)) ⟨utf8Len l + utf8Len m⟩ = false := by
  have hc := c.utf8Size_pos
  simp only [Bool.eq_false_iff, ne_eq, String.atEnd_iff, String.rawEndPos_ofList,
    String.utf8Len_append, String.utf8Len_cons, String.Pos.Raw.mk_le_mk]
  omega

private theorem Text.get_behind :
    String.Pos.Raw.get (ofList (l ++ m ++ c :: r)) ⟨utf8Len l + utf8Len m⟩ = c := by
  have hvalid := String.get_of_valid (l ++ m) (c :: r)
  rwa [String.utf8Len_append] at hvalid

private theorem Text.next_behind :
    String.Pos.Raw.next (ofList (l ++ m ++ c :: r)) ⟨utf8Len l + utf8Len m⟩ =
      ⟨utf8Len l + utf8Len m + c.utf8Size⟩ := by
  have hvalid := String.next_of_valid (l ++ m) c r
  rwa [String.utf8Len_append] at hvalid

end Position

/-- Cutting a text at its slashes, where `l` and `m` have been read and `m` is behind the last
slash. -/
private theorem Text.splitOnAux_slash (r l m : List Char) (acc : List String) :
    String.splitOnAux (ofList (l ++ m ++ r)) "/" ⟨utf8Len l⟩ ⟨utf8Len l + utf8Len m⟩ 0 acc =
      acc.reverse ++ (List.splitOnPPrepend (· == '/') r m.reverse).map ofList := by
  have hextract := String.extract_of_valid l m r
  induction r generalizing l m acc with
  | nil =>
    have hend : String.Pos.Raw.atEnd (ofList (l ++ m ++ [])) ⟨utf8Len l + utf8Len m⟩ = true := by
      simp [String.atEnd_iff, String.rawEndPos_ofList, -String.ofList_append]
    rw [String.splitOnAux.eq_def, if_pos hend, hextract]
    simp
  | cons c r ih =>
    have hend := atEnd_behind l m c r
    have hnext := next_behind l m c r
    have hslash : String.Pos.Raw.get "/" 0 = '/' := rfl
    rw [String.splitOnAux.eq_def, if_neg (by rw [hend]; simp), get_behind l m c r, hslash,
      List.splitOnPPrepend_cons_eq_if]
    by_cases hc : c = '/'
    · subst hc
      have hafter := ih (l ++ m ++ ['/']) [] (ofList m :: acc) (String.extract_of_valid _ _ _)
      have hnextSlash : String.Pos.Raw.next "/" 0 = ⟨1⟩ := rfl
      have hendSlash : String.Pos.Raw.atEnd "/" ⟨1⟩ = true := rfl
      have hback : (⟨utf8Len l + utf8Len m + 1⟩ : String.Pos.Raw).unoffsetBy ⟨1⟩ =
        ⟨utf8Len l + utf8Len m⟩ := rfl
      have hsize : '/'.utf8Size = 1 := rfl
      simp only [beq_self_eq_true, if_true, hnext, hnextSlash, hendSlash, hsize, hback, hextract]
      simpa [String.utf8Len_append, hsize, Nat.add_assoc, -String.ofList_append] using hafter
    · have hafter := ih l (m ++ [c]) acc (String.extract_of_valid _ _ _)
      have hlist : l ++ m ++ c :: r = l ++ (m ++ [c]) ++ r := by simp
      have hback : ∀ p : String.Pos.Raw, p.unoffsetBy 0 = p := fun _ => rfl
      rw [if_neg (by simpa using hc), if_neg (by simpa using hc), hback, hnext, hlist]
      simpa [String.utf8Len_append, Nat.add_assoc, -String.ofList_append] using hafter

theorem Text.splitOn_slash (s : String) :
    s.splitOn "/" = (s.toList.splitOnP (· == '/')).map ofList := by
  have hall := splitOnAux_slash s.toList [] [] []
  simpa [String.splitOn] using hall

private theorem Text.not_mem_of_mem_splitOnP {p : Char → Bool} {cs part : List Char}
    (h : part ∈ cs.splitOnP p) : ∀ c ∈ part, p c = false := by
  induction cs generalizing part with
  | nil =>
    rw [List.splitOnP_nil] at h
    rw [List.mem_singleton.mp h]
    simp
  | cons c cs ih =>
    rw [List.splitOnP_cons_eq_if_modifyHead] at h
    split at h
    · rcases List.mem_cons.mp h with rfl | h
      · simp
      · exact ih h
    case isFalse hc =>
      cases hparts : cs.splitOnP p with
      | nil =>
        rw [hparts] at h
        cases h
      | cons first rest =>
        rw [hparts] at h ih
        rcases List.mem_cons.mp h with rfl | h
        · exact List.forall_mem_cons.mpr ⟨Bool.eq_false_iff.mpr hc, ih List.mem_cons_self⟩
        · exact ih (List.mem_cons_of_mem first h)

end Slashes

namespace CommandLine

namespace Path

theorem slash_not_mem_of_mem_parts {s name : String} (h : name ∈ (ofText s).parts) :
    '/' ∉ name.toList := by
  have hname := (List.mem_filter.mp h).1
  rw [Text.splitOn_slash] at hname
  obtain ⟨part, hpart, rfl⟩ := List.mem_map.mp hname
  intro hslash
  rw [String.toList_ofList] at hslash
  cases Text.not_mem_of_mem_splitOnP hpart '/' hslash

structure IsName (s : String) : Prop where
  noSlash : '/' ∉ s.toList
  ne_empty : s ≠ ""
  ne_dot : s ≠ "."
  ne_dots : s ≠ ".."

instance (s : String) : Decidable (IsName s) :=
  decidable_of_iff ('/' ∉ s.toList ∧ s ≠ "" ∧ s ≠ "." ∧ s ≠ "..")
    ⟨fun ⟨noSlash, empty, dot, dots⟩ => ⟨noSlash, empty, dot, dots⟩,
      fun h => ⟨h.noSlash, h.ne_empty, h.ne_dot, h.ne_dots⟩⟩

theorem isName_append {s ending : String} (hs : '/' ∉ s.toList) (hending : '/' ∉ ending.toList)
    (hlong : 2 < ending.length) : IsName (s ++ ending) := by
  have hne : ∀ t : String, t.length ≤ 2 → s ++ ending ≠ t := by
    rintro t ht rfl
    rw [String.length_append] at ht
    omega
  refine ⟨?_, hne "" (by decide), hne "." (by decide), hne ".." (by decide)⟩
  rw [String.toList_append, List.mem_append]
  exact not_or.mpr ⟨hs, hending⟩

private theorem rootOf_eq_empty {s : String} (h : '/' ∉ s.toList) : rootOf s = "" := by
  have hstart : ∀ t : String, '/' ∈ t.toList → ¬ t.isPrefixOf s = true := by
    intro t ht hts
    exact h ((String.startsWith_string_iff.mp hts).subset ht)
  unfold rootOf
  rw [if_neg (hstart "///" (by decide)), if_neg (hstart "//" (by decide)),
    if_neg (hstart "/" (by decide))]

theorem IsName.splitOn_slash {s : String} (h : IsName s) : s.splitOn "/" = [s] := by
  rw [Text.splitOn_slash, List.splitOnP_eq_singleton, List.map_singleton, String.ofList_toList]
  intro c hc
  have hne : c ≠ '/' := by
    rintro rfl
    exact h.noSlash hc
  simpa using hne

/-- A name is a path with nothing else in it. -/
theorem IsName.ofText_eq {s : String} (h : IsName s) : ofText s = ⟨"", [s]⟩ := by
  unfold ofText
  rw [rootOf_eq_empty h.noSlash, h.splitOn_slash]
  simp [h.ne_empty, h.ne_dot]

theorem slash_not_mem_name (s : String) : '/' ∉ (ofText s).name.toList := by
  unfold name
  cases hlast : (ofText s).parts.getLast? with
  | none => exact List.not_mem_nil
  | some name => exact slash_not_mem_of_mem_parts (List.mem_of_getLast? hlast)

theorem slash_not_mem_stem (s : String) : '/' ∉ (ofText s).stem.toList := by
  have hname := slash_not_mem_name s
  unfold stem
  dsimp only
  split
  · exact hname
  · rw [String.toList_ofList, List.mem_reverse]
    intro h
    have hsuffix := (List.drop_suffix 1 _).trans
      (List.dropWhile_suffix (· ≠ '.') (l := (ofText s).name.toList.reverse))
    exact hname (List.mem_reverse.mp (hsuffix.subset h))

end Path

end CommandLine
end ShaderReflection
