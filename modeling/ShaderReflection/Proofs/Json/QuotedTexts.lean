import Mathlib.Algebra.Ring.Nat
import Mathlib.Data.Char
import Mathlib.Tactic.SplitIfs
import ShaderReflection.Json
import ShaderReflection.Proofs.Json.Reader

/-! Texts between quotes are read back, character by character: those that stand for themselves,
those with a short escape, and those with one or two units of UTF-16. -/
namespace ShaderReflection.Json

open Reader
open Text (hexDigits)

section Units

private theorem hexValue?_digitChar : ∀ d < 16, hexValue? (Nat.digitChar d) = some d := by decide

private theorem hex?_add (w v n : Nat) (cs : List Char) :
    hex? (w + v) n cs = (hex? w n cs).bind fun (m, rest) => hex? v m rest := by
  induction w generalizing n cs with
  | zero => simp [hex?]
  | succ w ih =>
    rw [Nat.succ_add]
    cases cs with
    | nil => rfl
    | cons c cs =>
      simp only [hex?]
      cases hexValue? c with
      | none => rfl
      | some d => exact ih (16 * n + d) cs

theorem hex?_hexDigits (w n m : Nat) (rest : List Char) :
    hex? w n (hexDigits w m ++ rest) = some (16 ^ w * n + m % 16 ^ w, rest) := by
  induction w generalizing m rest with
  | zero => simp [hex?, hexDigits, Nat.mod_one]
  | succ w ih =>
    have hd := hexValue?_digitChar (m % 16) (Nat.mod_lt m (by decide))
    have hm : m % 16 ^ (w + 1) = m % 16 + 16 * (m / 16 % 16 ^ w) := by
      rw [Nat.pow_succ', Nat.mod_mul]
    rw [hexDigits, List.append_assoc, hex?_add, ih, hm, Nat.pow_succ']
    simp only [Option.bind_some, List.cons_append, List.nil_append, hex?, hd]
    rw [Nat.mul_add, Nat.mul_assoc, Nat.add_assoc, Nat.add_comm (16 * (m / 16 % 16 ^ w))]

theorem hex?_unit {n : Nat} (h : n < 0x10000) (rest : List Char) :
    hex? 4 0 (hexDigits 4 n ++ rest) = some (n, rest) := by
  have hmod : n % 16 ^ 4 = n := Nat.mod_eq_of_lt h
  rw [hex?_hexDigits, hmod, Nat.mul_zero, Nat.zero_add]

end Units

section Characters

variable {c : Char}

private theorem character?_unit (h : c.toNat < 0x10000) (rest : List Char) :
    character? (unitEscape c.toNat ++ rest) = some (c, rest) := by
  have hvalid : c.toNat < 0xD800 ∨ 0xDFFF < c.toNat ∧ c.toNat < 0x110000 := c.valid
  have hhigh : ¬ (0xD800 ≤ c.toNat ∧ c.toNat < 0xDC00) := by omega
  have hlow : ¬ (0xDC00 ≤ c.toNat ∧ c.toNat < 0xE000) := by omega
  simp only [unitEscape, List.cons_append, character?, escape?, units?, hex?_unit h,
    Option.bind_some, if_neg hhigh, if_neg hlow, Char.ofNat_toNat]

private theorem character?_high {high : Nat} (h : 0xD800 ≤ high ∧ high < 0xDC00)
    (rest : List Char) :
    character? (unitEscape high ++ rest) = lowHalf? high rest := by
  simp only [unitEscape, List.cons_append, character?, escape?, units?,
    hex?_unit (n := high) (by omega), Option.bind_some, if_pos h]

private theorem lowHalf?_low {low : Nat} (h : 0xDC00 ≤ low ∧ low < 0xE000) (high : Nat)
    (rest : List Char) : lowHalf? high (unitEscape low ++ rest) =
      some (Char.ofNat (0x10000 + (high - 0xD800) * 0x400 + (low - 0xDC00)), rest) := by
  simp only [unitEscape, List.cons_append, lowHalf?, hex?_unit (n := low) (by omega),
    Option.bind_some, if_pos h]

private theorem character?_pair (h : 0x10000 ≤ c.toNat) (rest : List Char) :
    character? (unitEscape (0xD800 + (c.toNat - 0x10000) / 0x400) ++
      (unitEscape (0xDC00 + (c.toNat - 0x10000) % 0x400) ++ rest)) = some (c, rest) := by
  have hvalid : c.toNat < 0xD800 ∨ 0xDFFF < c.toNat ∧ c.toNat < 0x110000 := c.valid
  generalize hhigh : 0xD800 + (c.toNat - 0x10000) / 0x400 = high
  generalize hlow : 0xDC00 + (c.toNat - 0x10000) % 0x400 = low
  have hc : 0x10000 + (high - 0xD800) * 0x400 + (low - 0xDC00) = c.toNat := by omega
  rw [character?_high (by omega), lowHalf?_low (by omega), hc, Char.ofNat_toNat]

private theorem character?_self (hquote : c ≠ '"') (hslash : c ≠ '\\') (h : ' ' ≤ c)
    (rest : List Char) :
    character? (c :: rest) = some (c, rest) := by
  have hn : ¬ (c = '"' ∨ c < ' ') := not_or.mpr ⟨hquote, not_lt.mpr h⟩
  simp [character?, hn]

theorem character?_escaped (c : Char) (rest : List Char) :
    character? (escaped c ++ rest) = some (c, rest) := by
  unfold escaped
  split
  case isTrue h => rcases h with rfl | rfl <;> rfl
  case isFalse hself =>
    obtain ⟨hquote, hslash⟩ := not_or.mp hself
    split_ifs with hn hr ht hf hb hplain hunit
    · subst hn; rfl
    · subst hr; rfl
    · subst ht; rfl
    · subst hf; rfl
    · subst hb; rfl
    · exact character?_self hquote hslash hplain.1 rest
    · exact character?_unit hunit rest
    · rw [List.append_assoc]
      exact character?_pair (Nat.le_of_not_lt hunit) rest

/-- No character begins like the end of a text. -/
private theorem exists_escaped_eq_cons (c : Char) : ∃ d ds, escaped c = d :: ds ∧ d ≠ '"' := by
  unfold escaped
  split_ifs with hself
  all_goals first
    | exact ⟨'\\', _, rfl, by decide⟩
    | exact ⟨c, [], rfl, fun h => hself (.inl h)⟩

private theorem ascii_of_mem_hexDigits {w n : Nat} {d : Char} (h : d ∈ hexDigits w n) :
    d.toNat < 128 := by
  have hdigit : ∀ k < 16, (Nat.digitChar k).toNat < 128 := by decide
  induction w generalizing n with
  | zero => cases h
  | succ w ih =>
    rcases List.mem_append.mp h with h | h
    · exact ih h
    · rw [List.mem_singleton.mp h]
      exact hdigit (n % 16) (Nat.mod_lt n (by decide))

private theorem ascii_of_mem_unitEscape {n : Nat} {d : Char} (h : d ∈ unitEscape n) :
    d.toNat < 128 := by
  rcases List.mem_cons.mp h with rfl | h
  · decide
  · rcases List.mem_cons.mp h with rfl | h
    · decide
    · exact ascii_of_mem_hexDigits h

private theorem ascii_of_mem_short {d e : Char} (he : e.toNat < 128) (h : d ∈ ['\\', e]) :
    d.toNat < 128 := by
  have hd : d = '\\' ∨ d = e := by simpa using h
  rcases hd with rfl | rfl
  · decide
  · exact he

theorem ascii_of_mem_escaped {d : Char} (h : d ∈ escaped c) : d.toNat < 128 := by
  unfold escaped at h
  split at h
  case isTrue hc => exact ascii_of_mem_short (by rcases hc with rfl | rfl <;> decide) h
  case isFalse =>
    split_ifs at h with _ _ _ _ _ hplain
    iterate 5 exact ascii_of_mem_short (by decide) h
    · rw [List.mem_singleton.mp h]
      exact Nat.lt_of_le_of_lt (Char.le_def.mp hplain.2) (by decide)
    · exact ascii_of_mem_unitEscape h
    · rcases List.mem_append.mp h with h | h
      · exact ascii_of_mem_unitEscape h
      · exact ascii_of_mem_unitEscape h

end Characters

section Texts

theorem characters?_escaped {steps : Nat} {s : List Char} (h : (s.flatMap escaped).length < steps)
    (rest : List Char) : characters? steps (s.flatMap escaped ++ '"' :: rest) = some (s, rest) := by
  induction s generalizing steps with
  | nil =>
    obtain ⟨steps, rfl⟩ := Nat.exists_eq_add_one_of_ne_zero (Nat.ne_of_gt h)
    rfl
  | cons c s ih =>
    obtain ⟨steps, rfl⟩ := Nat.exists_eq_add_one_of_ne_zero (Nat.ne_zero_of_lt h)
    obtain ⟨d, ds, hd, hne⟩ := exists_escaped_eq_cons c
    have hc := character?_escaped c (s.flatMap escaped ++ '"' :: rest)
    rw [List.flatMap_cons, List.length_append, hd, List.length_cons] at h
    rw [List.flatMap_cons, List.append_assoc]
    rw [hd, List.cons_append] at hc ⊢
    have htail := @ih steps (by omega)
    simp [characters?, hne, hc, htail]

theorem text?_quoted (s : String) (rest : List Char) :
    ∃ cs, quoted s ++ rest = '"' :: cs ∧ text? cs = some (s, rest) := by
  refine ⟨s.toList.flatMap escaped ++ '"' :: rest, by simp [quoted], ?_⟩
  unfold text?
  rw [characters?_escaped (by simp)]
  simp

theorem ascii_of_mem_quoted {s : String} {d : Char} (h : d ∈ quoted s) : d.toNat < 128 := by
  have hd : d = '"' ∨ ∃ c ∈ s.toList, d ∈ escaped c := by
    simpa [quoted, or_comm, or_assoc] using h
  rcases hd with rfl | ⟨c, -, hd⟩
  · decide
  · exact ascii_of_mem_escaped hd

end Texts

end ShaderReflection.Json
