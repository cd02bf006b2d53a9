import Mathlib.Data.List.TakeWhile
import Mathlib.Data.Nat.Digits.Defs
import ShaderReflection.Assembly.Numeral
import ShaderReflection.Proofs.Assembly.NumberSpelling
import ShaderReflection.Proofs.Number.PowerRounding

/-! What number literals stand for, by the parts that they are spelled with, and that reading one gives
what it stands for. Digits are valued by their place among all digits, and a float is the number of
the format that the exact value rounds to. -/
namespace ShaderReflection.Assembly

open Binary64 (RoundsTo ofBinary_roundsTo ofDecimal_roundsTo)
open Computability

def digitValue (c : Char) : Nat := "0123456789abcdef".toList.idxOf c.toLower

/-- The natural number that digits stand for in a base, the last one for the ones. -/
def digitsValue (b : Nat) (ds : List Char) : Nat := Nat.ofDigits b (ds.reverse.map digitValue)

def pointValue (b : Nat) (whole fraction : List Char) : ℚ :=
  digitsValue b whole + digitsValue b fraction / b ^ fraction.length

section Digits

variable {b : Nat} {c : Char} {ds : List Char}

theorem digitsValue_concat (b : Nat) (ds : List Char) (c : Char) :
    digitsValue b (ds ++ [c]) = b * digitsValue b ds + digitValue c := by
  unfold digitsValue
  rw [List.reverse_concat, List.map_cons, Nat.ofDigits_cons, add_comm]

theorem digitsValue_append (b : Nat) (xs ys : List Char) :
    digitsValue b (xs ++ ys) = digitsValue b xs * b ^ ys.length + digitsValue b ys := by
  unfold digitsValue
  rw [List.reverse_append, List.map_append, Nat.ofDigits_append, List.length_map,
    List.length_reverse, mul_comm, add_comm]

/-- Adding up digits from the first one on gives their value. -/
theorem foldl_eq_digitsValue {f : Char → Nat} (h : ∀ c ∈ ds, f c = digitValue c) :
    ds.foldl (fun n c => b * n + f c) 0 = digitsValue b ds := by
  induction ds using List.reverseRecOn with
  | nil => rfl
  | append_singleton ds c ih =>
    have hds := ih fun d hd => h d (List.mem_append_left _ hd)
    have hc := h c (List.mem_append_right _ (List.mem_singleton_self c))
    rw [List.foldl_concat, hds, digitsValue_concat, hc]

theorem digitsValue_lt (hb : 1 < b) (h : ∀ c ∈ ds, digitValue c < b) :
    digitsValue b ds < b ^ ds.length := by
  have hlength : (ds.reverse.map digitValue).length = ds.length := by simp
  rw [← hlength]
  apply Nat.ofDigits_lt_base_pow_length hb
  intro n hn
  obtain ⟨c, hc, rfl⟩ := List.mem_map.mp hn
  exact h c (List.mem_reverse.mp hc)

/-- Zeros in front do not count. -/
theorem digitsValue_dropWhile (b : Nat) (ds : List Char) :
    digitsValue b (ds.dropWhile (· = '0')) = digitsValue b ds := by
  induction ds with
  | nil => rfl
  | cons c ds ih =>
    rw [List.dropWhile_cons]
    split_ifs with hc
    · obtain rfl := of_decide_eq_true hc
      have hzero : digitsValue b ['0'] = 0 := rfl
      rw [ih, ← List.singleton_append, digitsValue_append, hzero, Nat.zero_mul, Nat.zero_add]
    · rfl

theorem pointValue_eq (hb : 0 < b) (whole fraction : List Char) :
    pointValue b whole fraction =
      (digitsValue b (whole ++ fraction) : ℚ) / b ^ fraction.length := by
  have hpos : (b : ℚ) ^ fraction.length ≠ 0 := pow_ne_zero _ (Nat.cast_ne_zero.mpr hb.ne')
  unfold pointValue
  rw [digitsValue_append]
  push_cast
  rw [add_div, mul_div_cancel_right₀ _ hpos]

private theorem toNat_lt_of_isHexDigit (h : isHexDigit c = true) : c.toNat < 128 := by
  simp only [isHexDigit, Char.isDigit, Bool.or_eq_true, Bool.and_eq_true, decide_eq_true_eq] at h
  rcases h with (⟨-, h⟩ | ⟨-, h⟩) | ⟨-, h⟩
  all_goals exact Nat.lt_of_le_of_lt (UInt32.le_iff_toNat_le.mp h) (by decide)

theorem isHexDigit_of_isDigit (h : c.isDigit = true) : isHexDigit c = true := by
  unfold isHexDigit
  rw [h]
  rfl

/-- What holds of all ASCII characters holds of a digit. -/
theorem of_isHexDigit {P : Char → Prop} (hall : ∀ n < 128, P (Char.ofNat n))
    (h : isHexDigit c = true) : P c := by
  have hc := hall c.toNat (toNat_lt_of_isHexDigit h)
  rwa [Char.ofNat_toNat] at hc

/-- A digit is read as its place among all digits. -/
theorem hexDigit_eq_digitValue (h : isHexDigit c = true) :
    Numeral.hexDigit c = digitValue c ∧ digitValue c < 16 :=
  of_isHexDigit (P := fun c => isHexDigit c = true →
    Numeral.hexDigit c = digitValue c ∧ digitValue c < 16) (by decide +kernel) h h

theorem decimalDigit_eq_digitValue (h : c.isDigit = true) :
    c.toNat - '0'.toNat = digitValue c ∧ digitValue c < 10 :=
  of_isHexDigit (P := fun c => c.isDigit = true →
    c.toNat - '0'.toNat = digitValue c ∧ digitValue c < 10) (by decide +kernel)
    (isHexDigit_of_isDigit h) h

private theorem digitValue_ne_zero (h : c.isDigit = true) (hc : c ≠ '0') : digitValue c ≠ 0 :=
  of_isHexDigit (P := fun c => c.isDigit = true → c ≠ '0' → digitValue c ≠ 0) (by decide +kernel)
    (isHexDigit_of_isDigit h) h hc

theorem isSign_eq_false_of_isDigit (h : c.isDigit = true) : isSign c = false := by
  cases hc : isSign c with
  | false => rfl
  | true =>
    rw [isDigit_eq_false_of_isSign hc] at h
    cases h

theorem ofHex_eq_digitsValue (h : ∀ c ∈ ds, isHexDigit c = true) :
    Numeral.ofHex ds = digitsValue 16 ds :=
  foldl_eq_digitsValue fun c hc => (hexDigit_eq_digitValue (h c hc)).1

theorem ofDecimal_eq_digitsValue (h : ∀ c ∈ ds, c.isDigit = true) :
    Numeral.ofDecimal ds = digitsValue 10 ds :=
  foldl_eq_digitsValue fun c hc => (decimalDigit_eq_digitValue (h c hc)).1

/-- Digits without a zero in front have the value that their count says. -/
theorem pow_le_digitsValue (h : ∀ c ∈ ds, c.isDigit = true) (hhead : ds.head? ≠ some '0')
    (hne : digitsValue 10 ds ≠ 0) : 10 ^ ds.length ≤ 10 * digitsValue 10 ds := by
  cases ds with
  | nil => exact absurd rfl hne
  | cons c ds =>
    have hc : digitValue c ≠ 0 := by
      apply digitValue_ne_zero (h c List.mem_cons_self)
      intro hzero
      exact hhead (congrArg some hzero)
    have hfirst : digitsValue 10 [c] = digitValue c := by simp [digitsValue]
    have hsum := digitsValue_append 10 [c] ds
    rw [hfirst, List.singleton_append] at hsum
    have hpow : 10 ^ ds.length ≤ digitValue c * 10 ^ ds.length :=
      Nat.le_mul_of_pos_left _ (Nat.pos_of_ne_zero hc)
    rw [List.length_cons, Nat.pow_succ]
    omega

end Digits

namespace Numeral

def isMinus (s : List Char) : Bool := s = ['-']

inductive FractionOf (l : Language Char) : List Char → List Char → Prop
  | none : FractionOf l [] []
  | digits {ds : List Char} (h : ds ∈ l) : FractionOf l ('.' :: ds) ds

inductive ExponentOf (mark : Char → Bool) : List Char → Int → Prop
  | intro {c : Char} {s ds : List Char} (hc : mark c = true) (hs : s ∈ Spelling.sign)
      (hds : ds ∈ someOf Char.isDigit) :
      ExponentOf mark (c :: (s ++ ds)) (signed (isMinus s) (digitsValue 10 ds))

/-- What a number literal stands for. -/
inductive Denotes : List Char → Except NumeralError Operand → Prop
  /-- Hexadecimal digits are the exact integer. -/
  | hexInteger {s m ds : List Char} (hs : s ∈ Spelling.sign) (hm : m ∈ Spelling.hexMark)
      (hds : ds ∈ someOf isHexDigit) :
      Denotes (s ++ (m ++ ds)) (.ok (.int (signed (isMinus s) (digitsValue 16 ds))))
  /-- Decimal digits are the exact integer if there are not too many of them. -/
  | decimalInteger {s ds : List Char} (hs : s ∈ Spelling.sign) (hds : ds ∈ someOf Char.isDigit)
      (few : ds.length ≤ 4300) :
      Denotes (s ++ ds) (.ok (.int (signed (isMinus s) (digitsValue 10 ds))))
  | tooManyDigits {s ds : List Char} (hs : s ∈ Spelling.sign) (hds : ds ∈ someOf Char.isDigit)
      (many : 4300 < ds.length) : Denotes (s ++ ds) (.error (.tooManyDigits ds.length))
  /-- A hexadecimal float is rounded to a number that is finite. -/
  | hexFloat {s m whole f fraction t : List Char} {e q : Int} {k : Nat} (hs : s ∈ Spelling.sign)
      (hm : m ∈ Spelling.hexMark) (hw : whole ∈ someOf isHexDigit)
      (hf : FractionOf (oneOf isHexDigit)∗ f fraction) (ht : ExponentOf isBinaryMark t e)
      (hx : RoundsTo (isMinus s) (pointValue 16 whole fraction * 2 ^ e) (.finite (isMinus s) k q)) :
      Denotes (s ++ (m ++ (whole ++ (f ++ t)))) (.ok (.float (.finite (isMinus s) k q)))
  | hexTooLarge {s m whole f fraction t : List Char} {e : Int} (hs : s ∈ Spelling.sign)
      (hm : m ∈ Spelling.hexMark) (hw : whole ∈ someOf isHexDigit)
      (hf : FractionOf (oneOf isHexDigit)∗ f fraction) (ht : ExponentOf isBinaryMark t e)
      (hx : RoundsTo (isMinus s) (pointValue 16 whole fraction * 2 ^ e) (.infinite (isMinus s))) :
      Denotes (s ++ (m ++ (whole ++ (f ++ t)))) (.error .hexTooLarge)
  /-- A decimal float has a point or an exponent; it is rounded, perhaps to an infinite one. -/
  | decimalFloat {s whole f fraction t : List Char} {e : Int} {x : Binary64}
      (hs : s ∈ Spelling.sign) (hw : whole ∈ someOf Char.isDigit)
      (hf : FractionOf (someOf Char.isDigit) f fraction)
      (ht : t = [] ∧ e = 0 ∨ ExponentOf isDecimalMark t e) (float : f ≠ [] ∨ t ≠ [])
      (hx : RoundsTo (isMinus s) (pointValue 10 whole fraction * 10 ^ e) x) :
      Denotes (s ++ (whole ++ (f ++ t))) (.ok (.float x))

section Parts

variable {s body whole f fraction t : List Char} {p : Char → Bool} {c : Char}

theorem splitAt_append (h : ∀ d ∈ whole, p d = false) (hc : p c = true) (rest : List Char) :
    splitAt p (whole ++ c :: rest) = (whole, rest) := by
  unfold splitAt
  have hall : ∀ d ∈ whole, (!p d) = true := fun d hd => by rw [h d hd]; rfl
  rw [List.takeWhile_append_of_pos hall, List.dropWhile_append_of_pos hall,
    List.takeWhile_cons_of_neg (by simp [hc]), List.dropWhile_cons_of_neg (by simp [hc]),
    List.append_nil]
  rfl

theorem splitAt_eq_self (h : ∀ d ∈ whole, p d = false) : splitAt p whole = (whole, []) := by
  have hall : ∀ d ∈ whole, (!p d) = true := fun d hd => by rw [h d hd]; rfl
  unfold splitAt
  rw [List.takeWhile_eq_self_iff.mpr hall, List.dropWhile_eq_nil_iff.mpr hall]
  rfl

theorem splitSign_append (hs : s ∈ Spelling.sign) (hbody : ∀ c ∈ body.head?, isSign c = false) :
    splitSign (s ++ body) = (isMinus s, body) := by
  rcases hs with rfl | ⟨c, hc, rfl⟩
  · cases body with
    | nil => rfl
    | cons d body =>
      have hd := hbody d rfl
      unfold splitSign
      split
      case h_1 rest h =>
        rw [(List.cons.inj h).1] at hd
        exact absurd hd (by decide)
      case h_2 rest h =>
        rw [(List.cons.inj h).1] at hd
        exact absurd hd (by decide)
      case h_3 => rfl
  · simp only [isSign, Bool.or_eq_true, decide_eq_true_eq] at hc
    rcases hc with rfl | rfl <;> rfl

theorem FractionOf.splitAt {l : Language Char} (h : FractionOf l f fraction)
    (hw : '.' ∉ whole) : splitAt (· = '.') (whole ++ f) = (whole, fraction) := by
  have hwhole : ∀ d ∈ whole, decide (d = '.') = false := by
    intro d hd
    apply decide_eq_false
    rintro rfl
    exact hw hd
  cases h with
  | none =>
    rw [List.append_nil]
    exact splitAt_eq_self hwhole
  | digits => exact splitAt_append hwhole rfl fraction

theorem exponent_append {ds : List Char} (hs : s ∈ Spelling.sign) (hds : ds ∈ someOf Char.isDigit) :
    exponent (s ++ ds) = signed (isMinus s) (digitsValue 10 ds) := by
  have hdigits := (mem_someOf.mp hds).2
  have hhead : ∀ c ∈ ds.head?, isSign c = false := by
    intro c hc
    exact isSign_eq_false_of_isDigit (hdigits c (List.mem_of_mem_head? hc))
  unfold exponent
  rw [splitSign_append hs hhead]
  dsimp only
  rw [ofDecimal_eq_digitsValue hdigits]

/-- A number is split at the mark of its exponent; without a mark the exponent is zero. -/
theorem splitAt_exponent {e : Int} (hcs : ∀ d ∈ body, p d = false)
    (ht : t = [] ∧ e = 0 ∨ ExponentOf p t e) :
    (splitAt p (body ++ t)).1 = body ∧ exponent (splitAt p (body ++ t)).2 = e := by
  rcases ht with ⟨rfl, rfl⟩ | ⟨hc, hs, hds⟩
  · rw [List.append_nil, splitAt_eq_self hcs]
    exact ⟨rfl, rfl⟩
  · rw [splitAt_append hcs hc]
    exact ⟨rfl, exponent_append hs hds⟩

end Parts

section Floats

variable {s m whole f fraction t : List Char} {e : Int}

theorem FractionOf.eq_cons {l : Language Char} (h : FractionOf l f fraction) :
    f = [] ∧ fraction = [] ∨ f = '.' :: fraction := by
  cases h with
  | none => exact .inl ⟨rfl, rfl⟩
  | digits => exact .inr rfl

theorem FractionOf.forall_hexDigit (h : FractionOf (oneOf isHexDigit)∗ f fraction) :
    ∀ c ∈ fraction, isHexDigit c = true := by
  cases h with
  | none => nofun
  | digits h => exact mem_kstar_oneOf.mp h

theorem FractionOf.forall_digit (h : FractionOf (someOf Char.isDigit) f fraction) :
    ∀ c ∈ fraction, c.isDigit = true := by
  cases h with
  | none => nofun
  | digits h => exact (mem_someOf.mp h).2

/-- A mark that is no digit and no point stands in no mantissa. -/
theorem FractionOf.forall_mantissa {l : Language Char} {p q : Char → Bool}
    (h : FractionOf l f fraction) (hw : ∀ c ∈ whole, q c = true) (hf : ∀ c ∈ fraction, q c = true)
    (hq : ∀ c, q c = true → p c = false) (hpoint : p '.' = false) :
    ∀ c ∈ whole ++ f, p c = false := by
  intro c hc
  rcases List.mem_append.mp hc with hc | hc
  · exact hq c (hw c hc)
  · rcases h.eq_cons with ⟨rfl, -⟩ | rfl
    · cases hc
    · rcases List.mem_cons.mp hc with rfl | hc
      · exact hpoint
      · exact hq c (hf c hc)

/-- A hexadecimal float is read as the number that its exact value rounds to. -/
theorem hexFloat_roundsTo (negative : Bool) (hw : whole ∈ someOf isHexDigit)
    (hf : FractionOf (oneOf isHexDigit)∗ f fraction) (ht : ExponentOf isBinaryMark t e) :
    ∃ x, RoundsTo negative (pointValue 16 whole fraction * 2 ^ e) x ∧
      hexFloat negative (whole ++ (f ++ t)) =
        match x with
        | .infinite _ => .error .hexTooLarge
        | x => .ok (.float x) := by
  have hwhole := (mem_someOf.mp hw).2
  have hfraction := hf.forall_hexDigit
  have hmarks : ∀ c ∈ whole ++ f, isBinaryMark c = false :=
    hf.forall_mantissa hwhole hfraction (fun c hc => (isHexDigit_marks hc).2) rfl
  have hpoint : '.' ∉ whole := fun hmem => (isHexDigit_marks (hwhole _ hmem)).1 rfl
  obtain ⟨hmantissa, hexponent⟩ := splitAt_exponent hmarks (.inr ht)
  rw [List.append_assoc] at hmantissa hexponent
  have hdigits : ofHex (whole ++ fraction) = digitsValue 16 (whole ++ fraction) :=
    ofHex_eq_digitsValue (List.forall_mem_append.mpr ⟨hwhole, hfraction⟩)
  have hvalue : pointValue 16 whole fraction * 2 ^ e =
      (digitsValue 16 (whole ++ fraction) : ℚ) * 2 ^ (e - 4 * fraction.length) := by
    have hsixteen : ((16 : Nat) : ℚ) ^ fraction.length = 2 ^ (4 * fraction.length : Int) := by
      rw [zpow_mul, zpow_natCast]
      norm_num
    rw [pointValue_eq (by decide), hsixteen, zpow_sub₀ (by norm_num), div_mul_eq_mul_div,
      mul_div_assoc]
  have hround := ofBinary_roundsTo negative (digitsValue 16 (whole ++ fraction))
    (e - 4 * fraction.length)
  rw [← hvalue] at hround
  refine ⟨_, hround, ?_⟩
  unfold hexFloat
  dsimp only
  rw [hmantissa, hexponent, hf.splitAt hpoint]
  exact hdigits ▸ rfl

/-- A decimal float is read as the number that its exact value rounds to. -/
theorem decimalFloat_roundsTo (negative : Bool) (hw : whole ∈ someOf Char.isDigit)
    (hf : FractionOf (someOf Char.isDigit) f fraction)
    (ht : t = [] ∧ e = 0 ∨ ExponentOf isDecimalMark t e) :
    RoundsTo negative (pointValue 10 whole fraction * 10 ^ e)
      (decimalFloat negative (whole ++ (f ++ t))) := by
  have hwhole := (mem_someOf.mp hw).2
  have hfraction := hf.forall_digit
  have hmarks : ∀ c ∈ whole ++ f, isDecimalMark c = false :=
    hf.forall_mantissa hwhole hfraction (fun c hc => (isDigit_marks hc).2.1) rfl
  have hpoint : '.' ∉ whole := fun hmem => (isDigit_marks (hwhole _ hmem)).1 rfl
  obtain ⟨hmantissa, hexponent⟩ := splitAt_exponent hmarks ht
  rw [List.append_assoc] at hmantissa hexponent
  have hall : ∀ c ∈ (whole ++ fraction).dropWhile (· = '0'), c.isDigit = true := by
    intro c hc
    have hc := (List.dropWhile_sublist _).subset hc
    exact List.forall_mem_append.mpr ⟨hwhole, hfraction⟩ c hc
  have hdigits := ofDecimal_eq_digitsValue hall
  have hhead : ((whole ++ fraction).dropWhile (· = '0')).head? ≠ some '0' := by
    intro hzero
    have hnot := List.head?_dropWhile_not (fun c : Char => decide (c = '0')) (whole ++ fraction)
    rw [hzero] at hnot
    cases hnot
  have hvalue : pointValue 10 whole fraction * 10 ^ e =
      (digitsValue 10 ((whole ++ fraction).dropWhile (· = '0')) : ℚ) *
        10 ^ (e - fraction.length) := by
    rw [pointValue_eq (by decide), digitsValue_dropWhile, zpow_sub₀ (by norm_num), zpow_natCast,
      div_mul_eq_mul_div, mul_div_assoc]
    rfl
  have hround := ofDecimal_roundsTo negative (e - fraction.length)
    (fun hne => pow_le_digitsValue hall hhead hne)
    (digitsValue_lt (by decide) fun c hc => (decimalDigit_eq_digitValue (hall c hc)).2)
  unfold decimalFloat
  dsimp only
  rw [hmantissa, hexponent, hf.splitAt hpoint, hvalue]
  dsimp only
  rw [hdigits]
  exact hround

end Floats

section Reading

variable {s m ds body : List Char} {w : List Char} {a : Except NumeralError Operand}

private theorem mem_hexMark (hm : m ∈ Spelling.hexMark) : m = ['0', 'x'] ∨ m = ['0', 'X'] := by
  obtain ⟨_, ⟨c, hc, rfl⟩, _, ⟨d, hd, rfl⟩, rfl⟩ := hm
  obtain rfl := of_decide_eq_true hc
  simp only [Bool.or_eq_true, decide_eq_true_eq] at hd
  rcases hd with rfl | rfl
  · exact .inl rfl
  · exact .inr rfl

/-- Behind a hexadecimal mark, only a binary mark makes a float. -/
private theorem read_hexMark (hs : s ∈ Spelling.sign) (hm : m ∈ Spelling.hexMark) (ds : List Char) :
    read (s ++ (m ++ ds)) =
      if ds.any isBinaryMark then hexFloat (isMinus s) ds
      else .ok (.int (signed (isMinus s) (ofHex ds))) := by
  have hsplit : splitSign (s ++ (m ++ ds)) = (isMinus s, m ++ ds) := by
    apply splitSign_append hs
    intro c hc
    rcases mem_hexMark hm with rfl | rfl <;> obtain rfl : '0' = c := Option.some.inj hc <;> rfl
  unfold read
  rw [hsplit]
  rcases mem_hexMark hm with rfl | rfl <;> rfl

/-- A text that begins with a digit, and with no hexadecimal mark, is decimal. -/
theorem read_decimalText (hs : s ∈ Spelling.sign) (hbody : ∀ c ∈ body.head?, c.isDigit = true)
    (hmark : ∀ m ∈ Spelling.hexMark, ∀ ds, m ++ ds ≠ body) :
    read (s ++ body) =
      if body.any fun c => c = '.' || isDecimalMark c then
        .ok (.float (decimalFloat (isMinus s) body))
      else if Number.maxDigits < body.length then .error (.tooManyDigits body.length)
      else .ok (.int (signed (isMinus s) (ofDecimal body))) := by
  have hsplit : splitSign (s ++ body) = (isMinus s, body) := by
    apply splitSign_append hs
    intro c hc
    exact isSign_eq_false_of_isDigit (hbody c hc)
  unfold read
  rw [hsplit]
  dsimp only
  split
  case h_1 ds => exact absurd rfl (hmark ['0', 'x'] ⟨_, ⟨_, rfl, rfl⟩, _, ⟨_, rfl, rfl⟩, rfl⟩ ds)
  case h_2 ds => exact absurd rfl (hmark ['0', 'X'] ⟨_, ⟨_, rfl, rfl⟩, _, ⟨_, rfl, rfl⟩, rfl⟩ ds)
  case h_3 => rfl

private theorem any_isBinaryMark_eq_false (hds : ds ∈ someOf isHexDigit) :
    ds.any isBinaryMark = false := by
  rw [List.any_eq_false]
  intro c hc
  have hmark : isBinaryMark c = false := (isHexDigit_marks ((mem_someOf.mp hds).2 c hc)).2
  rw [hmark]
  exact Bool.false_ne_true

theorem ExponentOf.any {p : Char → Bool} {t : List Char} {e : Int} (h : ExponentOf p t e)
    (xs : List Char) : (xs ++ t).any p = true := by
  cases h with
  | intro hc => simp [hc]

private theorem FractionOf.mem {l : Language Char} {f fraction : List Char}
    (h : FractionOf l f fraction) :
    f ∈ 1 + oneOf (· = '.') * l := by
  cases h with
  | none => exact .inl rfl
  | digits h => exact .inr (cons_mem_oneOf_mul.mpr ⟨rfl, h⟩)

private theorem ExponentOf.mem {p : Char → Bool} {t : List Char} {e : Int} (h : ExponentOf p t e) :
    t ∈ oneOf p * Spelling.exponent := by
  cases h with
  | intro hc hs hds => exact cons_mem_oneOf_mul.mpr ⟨hc, Language.append_mem_mul hs hds⟩

theorem decimal_mem {whole f fraction t : List Char} {e : Int} (hw : whole ∈ someOf Char.isDigit)
    (hf : FractionOf (someOf Char.isDigit) f fraction)
    (ht : t = [] ∧ e = 0 ∨ ExponentOf isDecimalMark t e) :
    whole ++ (f ++ t) ∈ Spelling.decimal := by
  have hexponent : t ∈ 1 + oneOf (fun c => c = 'e' || c = 'E') * Spelling.exponent := by
    rcases ht with ⟨rfl, -⟩ | ht
    · exact .inl rfl
    · exact .inr ht.mem
  exact Language.append_mem_mul hw (Language.append_mem_mul hf.mem hexponent)

/-- A decimal number is read as one: no hexadecimal mark stands at its beginning. -/
theorem read_decimalParts {whole f fraction t : List Char} {e : Int} (hs : s ∈ Spelling.sign)
    (hw : whole ∈ someOf Char.isDigit) (hf : FractionOf (someOf Char.isDigit) f fraction)
    (ht : t = [] ∧ e = 0 ∨ ExponentOf isDecimalMark t e) :
    read (s ++ (whole ++ (f ++ t))) =
      if (whole ++ (f ++ t)).any fun c => c = '.' || isDecimalMark c then
        .ok (.float (decimalFloat (isMinus s) (whole ++ (f ++ t))))
      else if Number.maxDigits < (whole ++ (f ++ t)).length then
        .error (.tooManyDigits (whole ++ (f ++ t)).length)
      else .ok (.int (signed (isMinus s) (ofDecimal (whole ++ (f ++ t))))) := by
  apply read_decimalText hs
  · intro c hc
    obtain ⟨hne, hdigits⟩ := mem_someOf.mp hw
    rw [List.head?_append_of_ne_nil _ hne] at hc
    exact hdigits c (List.mem_of_mem_head? hc)
  · intro m hm ds heq
    have hmem := decimal_mem hw hf ht
    rw [← heq] at hmem
    exact hexMark_append_notMem_decimal hm hmem

/-- Decimal digits are read as an integer. -/
theorem read_digits (hs : s ∈ Spelling.sign) (hds : ds ∈ someOf Char.isDigit) :
    read (s ++ ds) =
      if Number.maxDigits < ds.length then .error (.tooManyDigits ds.length)
      else .ok (.int (signed (isMinus s) (digitsValue 10 ds))) := by
  have hdigits := (mem_someOf.mp hds).2
  have hparts := read_decimalParts (t := []) hs hds .none (.inl ⟨rfl, rfl⟩)
  have hany : ds.any (fun c => c = '.' || isDecimalMark c) = false := by
    rw [List.any_eq_false]
    intro c hc
    obtain ⟨hpoint, hmark, -⟩ := isDigit_marks (hdigits c hc)
    have hdecimal : isDecimalMark c = false := hmark
    simp [hpoint, hdecimal]
  rw [List.append_nil, List.append_nil, hany, ofDecimal_eq_digitsValue hdigits] at hparts
  exact hparts

/-- A literal is read as what it stands for. -/
theorem Denotes.read_eq (h : Denotes w a) : read w = a := by
  cases h with
  | hexInteger hs hm hds =>
    rw [read_hexMark hs hm, any_isBinaryMark_eq_false hds,
      ofHex_eq_digitsValue (mem_someOf.mp hds).2]
    rfl
  | decimalInteger hs hds few =>
    rw [read_digits hs hds]
    exact if_neg (Nat.not_lt.mpr few)
  | tooManyDigits hs hds many =>
    rw [read_digits hs hds]
    exact if_pos many
  | @hexFloat s m whole f fraction t e q k hs hm hw hf ht hx =>
    obtain ⟨x, hround, hread⟩ := hexFloat_roundsTo (isMinus s) hw hf ht
    obtain rfl := hround.unique hx
    rw [read_hexMark hs hm, ← List.append_assoc, ht.any, List.append_assoc, if_pos rfl, hread]
  | @hexTooLarge s m whole f fraction t e hs hm hw hf ht hx =>
    obtain ⟨x, hround, hread⟩ := hexFloat_roundsTo (isMinus s) hw hf ht
    obtain rfl := hround.unique hx
    rw [read_hexMark hs hm, ← List.append_assoc, ht.any, List.append_assoc, if_pos rfl, hread]
  | @decimalFloat s whole f fraction t e x hs hw hf ht float hx =>
    have hround := decimalFloat_roundsTo (isMinus s) hw hf ht
    obtain rfl := hround.unique hx
    rw [read_decimalParts hs hw hf ht, if_pos]
    have hmark : (f ++ t).any (fun c => c = '.' || isDecimalMark c) = true := by
      rw [List.any_append, Bool.or_eq_true]
      rcases hf.eq_cons with ⟨rfl, -⟩ | rfl
      · right
        rcases ht with ⟨rfl, -⟩ | ht
        · simp at float
        · obtain ⟨hc, _, _⟩ := ht
          simp [hc]
      · left
        rfl
    rw [List.any_append, hmark, Bool.or_true]

theorem exists_of_roundsTo {negative : Bool} {r : ℚ} {x : Binary64} (h : RoundsTo negative r x) :
    (∃ k q, x = .finite negative k q) ∨ x = .infinite negative := by
  cases h with
  | finite => exact .inl ⟨_, _, rfl⟩
  | infinite => exact .inr rfl

theorem exists_fractionOf {l : Language Char} {f : List Char} (h : f ∈ 1 + oneOf (· = '.') * l) :
    ∃ fraction, FractionOf l f fraction := by
  rcases h with rfl | h
  · exact ⟨[], .none⟩
  · obtain ⟨c, ds, rfl, hc, hds⟩ := exists_of_mem_oneOf_mul h
    obtain rfl := of_decide_eq_true hc
    exact ⟨ds, .digits hds⟩

theorem exists_exponentOf {p : Char → Bool} {t : List Char} (h : t ∈ oneOf p * Spelling.exponent) :
    ∃ e, ExponentOf p t e := by
  obtain ⟨c, _, rfl, hc, s, hs, ds, hds, rfl⟩ := exists_of_mem_oneOf_mul h
  exact ⟨_, .intro hc hs hds⟩

/-- Every number literal stands for something. -/
theorem exists_denotes (h : w ∈ Spelling.number) : ∃ a, Denotes w a := by
  obtain ⟨s, hs, body, hbody, rfl⟩ := h
  rcases hbody with hbody | hbody | hbody
  · obtain ⟨m, hm, _, ⟨whole, hw, _, ⟨f, hf, t, ht, rfl⟩, rfl⟩, rfl⟩ := hbody
    obtain ⟨fraction, hf⟩ := exists_fractionOf hf
    obtain ⟨e, ht⟩ := exists_exponentOf ht
    obtain ⟨x, hround, -⟩ := hexFloat_roundsTo (isMinus s) hw hf ht
    rcases exists_of_roundsTo hround with ⟨k, q, rfl⟩ | rfl
    · exact ⟨_, .hexFloat hs hm hw hf ht hround⟩
    · exact ⟨_, .hexTooLarge hs hm hw hf ht hround⟩
  · obtain ⟨m, hm, ds, hds, rfl⟩ := hbody
    exact ⟨_, .hexInteger hs hm hds⟩
  · obtain ⟨whole, hw, _, ⟨f, hf, t, ht, rfl⟩, rfl⟩ := hbody
    obtain ⟨fraction, hf⟩ := exists_fractionOf hf
    obtain ⟨e, he⟩ : ∃ e, t = [] ∧ e = 0 ∨ ExponentOf isDecimalMark t e := by
      rcases ht with rfl | ht
      · exact ⟨0, .inl ⟨rfl, rfl⟩⟩
      · obtain ⟨e, ht⟩ := exists_exponentOf ht
        exact ⟨e, .inr ht⟩
    by_cases hfloat : f ≠ [] ∨ t ≠ []
    · exact ⟨_, .decimalFloat hs hw hf he hfloat (decimalFloat_roundsTo (isMinus s) hw hf he)⟩
    · push Not at hfloat
      obtain ⟨rfl, rfl⟩ := hfloat
      dsimp only
      rw [List.append_nil, List.append_nil]
      rcases Nat.lt_or_ge 4300 whole.length with hmany | hfew
      · exact ⟨_, .tooManyDigits hs hw hmany⟩
      · exact ⟨_, .decimalInteger hs hw hfew⟩

theorem denotes_iff (h : w ∈ Spelling.number) : Denotes w a ↔ read w = a := by
  constructor
  · exact Denotes.read_eq
  · intro hread
    obtain ⟨b, hb⟩ := exists_denotes h
    rwa [← hread, hb.read_eq]

end Reading

end Numeral
end ShaderReflection.Assembly
