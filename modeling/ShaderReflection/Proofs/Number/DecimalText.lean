import ShaderReflection.Number.Digits

/-! The decimal text of an integer: a sign where it is negative, then its digits. What follows the
text can be told from it unless it begins with a digit. -/
namespace ShaderReflection

def Text.Stops (p : Char → Bool) (cs : List Char) : Prop := ∀ c ∈ cs.head?, p c = false

theorem Text.takeWhile_append_of_stops {p : Char → Bool} {cs rest : List Char}
    (hcs : ∀ c ∈ cs, p c = true) (hr : Stops p rest) : (cs ++ rest).takeWhile p = cs := by
  rw [List.takeWhile_append_of_pos hcs]
  cases rest with
  | nil => simp
  | cons c rest => simp [hr c rfl]

theorem Text.dropWhile_append_of_stops {p : Char → Bool} {cs rest : List Char}
    (hcs : ∀ c ∈ cs, p c = true) (hr : Stops p rest) : (cs ++ rest).dropWhile p = rest := by
  have h := List.takeWhile_append_dropWhile (p := p) (l := cs ++ rest)
  rw [takeWhile_append_of_stops hcs hr] at h
  exact List.append_cancel_left h

namespace Number

open Text (Stops takeWhile_append_of_stops)

theorem toList_toString (n : Int) :
    (toString n).toList = (if n < 0 then ['-'] else []) ++ Nat.toDigits 10 n.natAbs := by
  cases n with
  | ofNat k =>
    have hn : ¬ (Int.ofNat k < 0) := by simp
    rw [if_neg hn]
    exact Nat.toList_repr
  | negSucc k =>
    have hn : Int.negSucc k < 0 := Int.negSucc_lt_zero k
    have ht : toString (Int.negSucc k) = "-" ++ Nat.repr (k + 1) := rfl
    rw [if_pos hn, ht, String.toList_append, Nat.toList_repr]
    rfl

theorem exists_sign_digits (n : Int) :
    ∃ sign c cs, (toString n).toList = sign ++ c :: cs ∧ (sign = [] ∨ sign = ['-']) ∧
      ∀ d ∈ c :: cs, d.isDigit = true := by
  obtain ⟨c, cs, hcs⟩ :=
    List.exists_cons_of_ne_nil (Nat.toDigits_ne_nil (b := 10) (n := n.natAbs))
  have hdigits : ∀ d ∈ c :: cs, d.isDigit = true := fun d hd =>
    Nat.isDigit_of_mem_toDigits (by decide) (by decide) (hcs ▸ hd)
  rw [toList_toString, hcs]
  split
  · exact ⟨['-'], c, cs, rfl, .inr rfl, hdigits⟩
  · exact ⟨[], c, cs, rfl, .inl rfl, hdigits⟩

/-- Only zero is written with a zero in front. -/
theorem head?_toDigits_ne_zero {n : Nat} (h : n ≠ 0) :
    (Nat.toDigits 10 n).head? ≠ some '0' := by
  have hdigit : ∀ d < 10, d ≠ 0 → Nat.digitChar d ≠ '0' := by decide
  induction n using Nat.strongRecOn with
  | ind n ih =>
    rw [Nat.toDigits_eq_if (by decide)]
    split
    case isTrue hn => simpa using hdigit n hn h
    case isFalse hn =>
      have hhead := ih (n / 10) (by omega) (by omega)
      obtain ⟨c, cs, hcs⟩ :=
        List.exists_cons_of_ne_nil (Nat.toDigits_ne_nil (b := 10) (n := n / 10))
      rw [hcs] at hhead ⊢
      exact hhead

def NoDigitHead (cs : List Char) : Prop := Stops Char.isDigit cs

private theorem takeWhile_isDigit_append {n : Nat} {cs : List Char} (h : NoDigitHead cs) :
    (Nat.toDigits 10 n ++ cs).takeWhile Char.isDigit = Nat.toDigits 10 n := by
  have hdigits : ∀ c ∈ Nat.toDigits 10 n, c.isDigit = true := fun c hc =>
    Nat.isDigit_of_mem_toDigits (by decide) (by decide) hc
  exact takeWhile_append_of_stops hdigits h

theorem toDigits_append_injective {n m : Nat} {cs ds : List Char} (hc : NoDigitHead cs)
    (hd : NoDigitHead ds) (h : Nat.toDigits 10 n ++ cs = Nat.toDigits 10 m ++ ds) :
    n = m ∧ cs = ds := by
  have ht : Nat.toDigits 10 n = Nat.toDigits 10 m := by
    rw [← takeWhile_isDigit_append hc, h, takeWhile_isDigit_append hd]
  have hn : n = m := by
    have hv := congrArg (fun ds => Nat.ofDigitChars 10 ds 0) ht
    simpa using hv
  rw [ht] at h
  exact ⟨hn, List.append_cancel_left h⟩

/-- No text of digits begins with a sign. -/
theorem toDigits_append_ne_sign (n : Nat) (cs ds : List Char) :
    Nat.toDigits 10 n ++ cs ≠ '-' :: ds := by
  intro h
  have hne : Nat.toDigits 10 n ≠ [] := Nat.toDigits_ne_nil
  cases ht : Nat.toDigits 10 n with
  | nil => exact hne ht
  | cons c rest =>
    rw [ht] at h
    have hc : c.isDigit = true :=
      Nat.isDigit_of_mem_toDigits (n := n) (by decide) (by decide) (ht ▸ List.mem_cons_self)
    obtain rfl : c = '-' := (List.cons.inj h).1
    cases hc

theorem toString_append_injective {n m : Int} {s t : String} (hs : NoDigitHead s.toList)
    (ht : NoDigitHead t.toList) (h : toString n ++ s = toString m ++ t) : n = m ∧ s = t := by
  have hl := congrArg String.toList h
  rw [String.toList_append, String.toList_append, toList_toString, toList_toString] at hl
  have hcases : n.natAbs = m.natAbs ∧ s.toList = t.toList ∧ (n < 0 ↔ m < 0) := by
    by_cases hn : n < 0 <;> by_cases hm : m < 0
    · simp only [hn, hm, if_true, List.cons_append, List.nil_append, List.cons.injEq,
        true_and] at hl
      obtain ⟨hnm, hst⟩ := toDigits_append_injective hs ht hl
      exact ⟨hnm, hst, by simp [hn, hm]⟩
    · simp only [hn, hm, if_true, if_false, List.cons_append, List.nil_append] at hl
      exact absurd hl.symm (toDigits_append_ne_sign _ _ _)
    · simp only [hn, hm, if_true, if_false, List.cons_append, List.nil_append] at hl
      exact absurd hl (toDigits_append_ne_sign _ _ _)
    · simp only [hn, hm, if_false, List.nil_append] at hl
      obtain ⟨hnm, hst⟩ := toDigits_append_injective hs ht hl
      exact ⟨hnm, hst, by simp [hn, hm]⟩
  obtain ⟨habs, hst, hsign⟩ := hcases
  exact ⟨by omega, String.toList_inj.mp hst⟩

end Number
end ShaderReflection
