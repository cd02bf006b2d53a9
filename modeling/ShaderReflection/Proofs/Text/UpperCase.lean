import ShaderReflection.Text.CamelCase

/-! What upper-casing can bring into a text: a character that is no image under the case tables
occurs in the upper case of no other character. -/
namespace ShaderReflection.Text

private theorem ofNat_ne {n : Nat} {x : Char} (hx : 0 < x.toNat) (h : n ≠ x.toNat) :
    Char.ofNat n ≠ x := by
  rintro rfl
  by_cases hvalid : n.isValidChar
  · have hofNat : Char.ofNat n = Char.ofNatAux n hvalid := dif_pos hvalid
    rw [hofNat] at h
    exact h rfl
  · have hofNat : Char.ofNat n = '\x00' := dif_neg hvalid
    rw [hofNat] at hx
    cases hx

/-- A run of characters that is moved either stays below a character or comes to lie above it. -/
def CaseRun.misses (r : CaseRun) (x : Char) : Bool :=
  r.last + r.distance < x.toNat || x.toNat < r.first + r.distance

/-- A character that the case tables do not lead to is in the upper case of no other one. -/
theorem notMem_upper {c x : Char} (hx : 0 < x.toNat)
    (hexpansions : ∀ e ∈ caseExpansions, ∀ n ∈ e.2, n ≠ x.toNat)
    (hruns : ∀ r ∈ caseRuns, r.misses x = true) (h : c ≠ x) : x ∉ upper c := by
  unfold upper
  split
  case h_1 ns hns =>
    intro hmem
    obtain ⟨n, hn, hc⟩ := List.mem_map.mp hmem
    obtain ⟨l, r, hl, -⟩ := List.lookup_eq_some_iff.mp hns
    have he : (c.toNat, ns) ∈ caseExpansions := by simp [hl]
    exact ofNat_ne hx (hexpansions _ he n hn) hc
  case h_2 =>
    split
    case h_1 r hr =>
      rw [List.mem_singleton]
      refine (ofNat_ne hx ?_).symm
      have hcovers := List.find?_some hr
      have hmoved := hruns r (List.mem_of_find?_eq_some hr)
      simp only [CaseRun.covers, CaseRun.misses, Bool.and_eq_true, Bool.or_eq_true,
        decide_eq_true_eq] at hcovers hmoved
      omega
    case h_2 => rwa [List.mem_singleton, eq_comm]

/-- No character has a line break in its upper case. -/
theorem newline_notMem_upper {c : Char} (h : c ≠ '\n') : '\n' ∉ upper c :=
  notMem_upper (by decide) (by decide +kernel) (by decide +kernel) h

/-- No other character has an underscore in its upper case. -/
theorem underscore_notMem_upper {c : Char} (h : c ≠ '_') : '_' ∉ upper c :=
  notMem_upper (by decide) (by decide +kernel) (by decide +kernel) h

theorem upper_underscore : upper '_' = ['_'] := by decide +kernel

end ShaderReflection.Text
