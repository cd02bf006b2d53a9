import Mathlib.Computability.Language
import ShaderReflection.Assembly.Pattern

/-! The languages of patterns. A pattern finds an end behind each prefix of the text that is in its
language; where it lists longer matches first, the most preferred match is the longest one. -/
namespace ShaderReflection.Assembly

open Computability

def oneOf (p : Char → Bool) : Language Char := {w | ∃ c, p c = true ∧ w = [c]}

def someOf (p : Char → Bool) : Language Char := oneOf p * (oneOf p)∗

section OneOf

variable {p : Char → Bool} {l m : Language Char} {c : Char} {w : List Char}

theorem cons_mem_oneOf : c :: w ∈ oneOf p ↔ p c = true ∧ w = [] := by
  constructor
  · rintro ⟨d, hd, h⟩
    obtain ⟨rfl, rfl⟩ := List.cons.inj h
    exact ⟨hd, rfl⟩
  · rintro ⟨hc, rfl⟩
    exact ⟨c, hc, rfl⟩

theorem nil_mem_oneOf_mul : [] ∈ oneOf p * l ↔ False := by
  refine iff_of_false ?_ not_false
  rintro ⟨_, ⟨c, -, rfl⟩, v, -, h⟩
  cases h

theorem cons_mem_oneOf_mul : c :: w ∈ oneOf p * l ↔ p c = true ∧ w ∈ l := by
  constructor
  · rintro ⟨_, ⟨d, hd, rfl⟩, v, hv, h⟩
    obtain ⟨rfl, rfl⟩ := List.cons.inj h
    exact ⟨hd, hv⟩
  · rintro ⟨hc, hw⟩
    exact ⟨[c], ⟨c, hc, rfl⟩, w, hw, rfl⟩

theorem exists_of_mem_oneOf_mul (h : w ∈ oneOf p * l) :
    ∃ c v, w = c :: v ∧ p c = true ∧ v ∈ l := by
  obtain ⟨_, ⟨c, hc, rfl⟩, v, hv, rfl⟩ := h
  exact ⟨c, v, rfl, hc, hv⟩

theorem kstar_oneOf_eq : (oneOf p)∗ = 1 + oneOf p * (oneOf p)∗ :=
  (Language.one_add_self_mul_kstar_eq_kstar _).symm

theorem mem_kstar_oneOf : w ∈ (oneOf p)∗ ↔ ∀ c ∈ w, p c = true := by
  induction w with
  | nil => exact iff_of_true (Language.nil_mem_kstar _) nofun
  | cons c w ih =>
    rw [kstar_oneOf_eq, Language.mem_add, Language.mem_one, cons_mem_oneOf_mul, ih]
    simp

theorem mem_someOf : w ∈ someOf p ↔ w ≠ [] ∧ ∀ c ∈ w, p c = true := by
  unfold someOf
  cases w with
  | nil => simp [nil_mem_oneOf_mul]
  | cons c w => simp [cons_mem_oneOf_mul, mem_kstar_oneOf]

theorem cons_mem_someOf_mul (h : c :: w ∈ someOf p * l) : p c = true := by
  unfold someOf at h
  rw [mul_assoc] at h
  exact (cons_mem_oneOf_mul.mp h).1

theorem cons_mem_optional (h : c :: w ∈ 1 + oneOf p * l) : p c = true ∧ w ∈ l := by
  rcases h with h | h
  · cases h
  · exact cons_mem_oneOf_mul.mp h

theorem cons_mem_optional_mul (h : c :: w ∈ (1 + oneOf p * l) * m) :
    p c = true ∨ c :: w ∈ m := by
  rw [add_mul, one_mul, mul_assoc] at h
  rcases h with h | h
  · exact .inr h
  · exact .inl (cons_mem_oneOf_mul.mp h).1

end OneOf

namespace Pattern

/-- The ends of a pattern are those of the prefixes in a language. -/
def Denotes (a : Pattern) (l : Language Char) : Prop :=
  ∀ s t, t ∈ a s ↔ ∃ w ∈ l, s.rest = w ++ t.rest ∧ t.taken = s.taken + w.length

section Denotes

variable {p : Char → Bool} {a b : Pattern} {l m : Language Char}

theorem one_denotes : (one p).Denotes (oneOf p) := by
  rintro ⟨n, cs⟩ t
  constructor
  · intro ht
    cases cs with
    | nil => cases ht
    | cons c cs =>
      unfold one at ht
      dsimp only at ht
      split at ht
      case isTrue hc =>
        obtain rfl := List.mem_singleton.mp ht
        exact ⟨[c], ⟨c, hc, rfl⟩, rfl, rfl⟩
      case isFalse => cases ht
  · rintro ⟨_, ⟨c, hc, rfl⟩, hrest, htaken⟩
    obtain ⟨m, ds⟩ := t
    obtain rfl : cs = c :: ds := hrest
    obtain rfl : m = n + 1 := htaken
    simp [one, hc]

/-- A place is the end of a word in a text, possibly of the empty one. -/
private theorem cut_eq_or_exists_cons {q : List Char → Prop} {n : Nat} {c : Char} {cs : List Char}
    {t : Cut} :
    (∃ w, q w ∧ c :: cs = w ++ t.rest ∧ t.taken = n + w.length) ↔
      q [] ∧ t = ⟨n, c :: cs⟩ ∨
        ∃ w, q (c :: w) ∧ cs = w ++ t.rest ∧ t.taken = n + 1 + w.length := by
  obtain ⟨k, ds⟩ := t
  constructor
  · rintro ⟨w, hq, hrest, htaken⟩
    cases w with
    | nil =>
      obtain rfl : c :: cs = ds := hrest
      obtain rfl : k = n := htaken
      exact .inl ⟨hq, rfl⟩
    | cons d w =>
      obtain ⟨rfl, rfl⟩ := List.cons.inj hrest
      refine .inr ⟨w, hq, rfl, ?_⟩
      rw [htaken, List.length_cons]
      omega
  · rintro (⟨hq, h⟩ | ⟨w, hq, rfl, htaken⟩)
    · cases h
      exact ⟨[], hq, rfl, rfl⟩
    · refine ⟨c :: w, hq, rfl, ?_⟩
      rw [htaken, List.length_cons]
      omega

theorem mem_runFrom_iff {n : Nat} {found : List Cut} {cs : List Char} {t : Cut} :
    t ∈ runFrom p n found cs ↔
      t ∈ found ∨ ∃ w, (∀ c ∈ w, p c = true) ∧ cs = w ++ t.rest ∧ t.taken = n + w.length := by
  induction cs generalizing n found with
  | nil =>
    obtain ⟨k, ds⟩ := t
    simp only [runFrom, List.mem_cons, Cut.mk.injEq, List.nil_eq, List.append_eq_nil_iff]
    constructor
    · rintro (⟨rfl, rfl⟩ | hfound)
      · exact .inr ⟨[], List.forall_mem_nil _, ⟨rfl, rfl⟩, rfl⟩
      · exact .inl hfound
    · rintro (hfound | ⟨w, -, ⟨rfl, rfl⟩, rfl⟩)
      · exact .inr hfound
      · exact .inl ⟨rfl, rfl⟩
  | cons c cs ih =>
    rw [cut_eq_or_exists_cons, runFrom]
    split
    case isTrue hc =>
      rw [ih, List.mem_cons, or_assoc, or_left_comm]
      simp [hc]
    case isFalse hc =>
      rw [List.mem_cons, or_comm]
      simp [hc]

theorem many_denotes : (many p).Denotes (oneOf p)∗ := by
  intro s t
  unfold many
  rw [mem_runFrom_iff]
  simp [mem_kstar_oneOf]

theorem Denotes.seq (ha : a.Denotes l) (hb : b.Denotes m) : (a.seq b).Denotes (l * m) := by
  intro s t
  unfold Pattern.seq
  rw [List.mem_flatMap]
  constructor
  · rintro ⟨u, hu, ht⟩
    obtain ⟨v, hv, hrest, htaken⟩ := (ha s u).mp hu
    obtain ⟨w, hw, hrest', htaken'⟩ := (hb u t).mp ht
    refine ⟨v ++ w, Language.append_mem_mul hv hw, ?_, ?_⟩
    · rw [hrest, hrest', List.append_assoc]
    · rw [htaken', htaken, List.length_append, Nat.add_assoc]
  · rintro ⟨_, ⟨v, hv, w, hw, rfl⟩, hrest, htaken⟩
    rw [List.append_assoc] at hrest
    rw [List.length_append, ← Nat.add_assoc] at htaken
    exact ⟨⟨s.taken + v.length, w ++ t.rest⟩, (ha s _).mpr ⟨v, hv, hrest, rfl⟩,
      (hb _ t).mpr ⟨w, hw, rfl, htaken⟩⟩

theorem Denotes.alt (ha : a.Denotes l) (hb : b.Denotes m) : (a.alt b).Denotes (l + m) := by
  intro s t
  unfold Pattern.alt
  rw [List.mem_append, ha, hb]
  simp only [Language.mem_add, or_and_right, exists_or]

theorem Denotes.opt (ha : a.Denotes l) : a.opt.Denotes (1 + l) := by
  intro s t
  unfold Pattern.opt
  rw [List.mem_append, ha, List.mem_singleton, or_comm]
  simp only [Language.mem_add, Language.mem_one, or_and_right, exists_or, exists_eq_left]
  refine or_congr_left ?_
  obtain ⟨n, cs⟩ := s
  obtain ⟨k, ds⟩ := t
  simp [eq_comm, and_comm]

theorem many1_denotes : (many1 p).Denotes (someOf p) := one_denotes.seq many_denotes

end Denotes
/-- A pattern that lists its ends from the last one to the first one. -/
def Descending (a : Pattern) : Prop := ∀ s, (a s).Pairwise fun t u => u.taken < t.taken

section Order

variable {p : Char → Bool} {a b : Pattern} {l m : Language Char}

theorem one_descending : (one p).Descending := by
  rintro ⟨n, cs⟩
  cases cs with
  | nil => exact .nil
  | cons c cs =>
    unfold one
    dsimp only
    split
    · exact List.pairwise_singleton _ _
    · exact .nil

theorem runFrom_descending {n : Nat} {found : List Cut} {cs : List Char}
    (hfound : found.Pairwise fun t u => u.taken < t.taken) (hn : ∀ t ∈ found, t.taken < n) :
    (runFrom p n found cs).Pairwise fun t u => u.taken < t.taken := by
  induction cs generalizing n found with
  | nil => exact .cons hn hfound
  | cons c cs ih =>
    rw [runFrom]
    split
    · refine ih (.cons hn hfound) fun t ht => ?_
      rcases List.mem_cons.mp ht with rfl | ht
      · exact Nat.lt_succ_self n
      · exact Nat.lt_succ_of_lt (hn t ht)
    · exact .cons hn hfound

theorem many_descending : (many p).Descending := fun _ => runFrom_descending .nil nofun

theorem Descending.opt (ha : a.Descending) (hc : a.Consumes) : a.opt.Descending := by
  intro s
  unfold Pattern.opt
  rw [List.pairwise_append]
  refine ⟨ha s, List.pairwise_singleton _ _, fun t ht u hu => ?_⟩
  rw [List.mem_singleton.mp hu]
  exact hc s t ht

/-- Of two prefixes of a text, the longer one goes on with the character behind the other one. -/
private theorem exists_cons_of_append_eq {v w xs ys : List Char} (h : v ++ xs = w ++ ys)
    (hlt : v.length < w.length) : ∃ c u, w = v ++ c :: u ∧ xs = c :: (u ++ ys) := by
  obtain ⟨u, rfl, hxs⟩ | ⟨u, rfl, -⟩ := List.append_eq_append_iff.mp h
  · cases u with
    | nil => simp at hlt
    | cons c u => exact ⟨c, u, rfl, hxs⟩
  · rw [List.length_append] at hlt
    omega

/-- The ends of the first pattern come first if none of its words begins a word of the second. -/
theorem Descending.alt (ha : a.Descending) (hb : b.Descending) (hla : a.Denotes l)
    (hlb : b.Denotes m) (h : ∀ v ∈ l, ∀ w, v ++ w ∉ m) : (a.alt b).Descending := by
  intro s
  refine List.pairwise_append.mpr ⟨ha s, hb s, fun t ht u hu => ?_⟩
  obtain ⟨v, hv, hrest, htaken⟩ := (hla s t).mp ht
  obtain ⟨w, hw, hrest', htaken'⟩ := (hlb s u).mp hu
  refine Nat.lt_of_not_le fun hle => ?_
  rw [htaken, htaken', Nat.add_le_add_iff_left] at hle
  obtain ⟨z, rfl⟩ := List.prefix_of_prefix_length_le ⟨t.rest, hrest.symm⟩ ⟨u.rest, hrest'.symm⟩ hle
  exact h v hv z hw

/-- The ends come in order if the second pattern finds nothing but the empty match wherever the first
one could have gone on. -/
theorem Descending.seq (ha : a.Descending) (hb : b.Descending) (hla : a.Denotes l)
    (hlb : b.Denotes m) (h : ∀ v c w, v ∈ l → v ++ c :: w ∈ l → ∀ z, c :: z ∉ m) :
    (a.seq b).Descending := by
  intro s
  have hlater {t u v w : Cut} (ht : t ∈ a s) (hu : u ∈ a s) (hlt : u.taken < t.taken)
      (hv : v ∈ b t) (hw : w ∈ b u) : w.taken < v.taken := by
    obtain ⟨x, hx, hrest, htaken⟩ := (hla s t).mp ht
    obtain ⟨y, hy, hrest', htaken'⟩ := (hla s u).mp hu
    obtain ⟨x', -, -, hvtaken⟩ := (hlb t v).mp hv
    obtain ⟨z, hz, hwrest, hwtaken⟩ := (hlb u w).mp hw
    obtain ⟨c, tail, rfl, htail⟩ :=
      exists_cons_of_append_eq (hrest'.symm.trans hrest) (by omega)
    have hnil : z = [] := by
      cases z with
      | nil => rfl
      | cons d z =>
        rw [htail] at hwrest
        obtain ⟨rfl, -⟩ := List.cons.inj hwrest
        exact absurd hz (h y c tail hy hx z)
    rw [hwtaken, hnil, List.length_nil]
    omega
  have hends (ts : List Cut) (hts : ∀ t ∈ ts, t ∈ a s)
      (hdescending : ts.Pairwise fun t u => u.taken < t.taken) :
      (ts.flatMap b).Pairwise fun t u => u.taken < t.taken := by
    induction hdescending with
    | nil => exact .nil
    | cons hfirst _ ih =>
      obtain ⟨ht, hts⟩ := List.forall_mem_cons.mp hts
      rw [List.flatMap_cons, List.pairwise_append]
      refine ⟨hb _, ih hts, fun v hv w hw => ?_⟩
      obtain ⟨u, hu, hw⟩ := List.mem_flatMap.mp hw
      exact hlater ht (hts u hu) (hfirst u hu) hv hw
  exact hends (a s) (fun _ ht => ht) (ha s)

theorem Descending.one_seq (hb : b.Descending) (hlb : b.Denotes m) :
    ((one p).seq b).Descending := by
  refine one_descending.seq hb one_denotes hlb ?_
  rintro _ c w ⟨d, -, rfl⟩ ⟨e, -, h⟩
  cases h

theorem many1_descending : (many1 p).Descending := many_descending.one_seq many_denotes

theorem Descending.many1_seq (hb : b.Descending) (hlb : b.Denotes m)
    (h : ∀ c z, p c = true → c :: z ∉ m) : ((many1 p).seq b).Descending :=
  many1_descending.seq hb many1_denotes hlb fun _ c _ _ hvc z =>
    h c z ((mem_someOf.mp hvc).2 c (by simp))

theorem Descending.opt_one_seq (hb : b.Descending) (hlb : b.Denotes m)
    (h : ∀ c z, p c = true → c :: z ∉ m) : ((one p).opt.seq b).Descending := by
  refine (one_descending.opt (one_consumes p)).seq hb one_denotes.opt hlb ?_
  intro v c w _ hvc z
  have hword {d : Char} {u : List Char} (hd : d :: u ∈ 1 + oneOf p) : p d = true ∧ u = [] := by
    rcases hd with hd | hd
    · cases hd
    · exact cons_mem_oneOf.mp hd
  cases v with
  | nil => exact h c z (hword hvc).1
  | cons d v => exact absurd (hword hvc).2 (by simp)

/-- An optional part that begins with one class of characters and goes on with another one, before
what begins with neither. -/
theorem Descending.opt_seq {q : Char → Bool} (ha : a.Descending) (hadvances : a.Advances)
    (hla : a.Denotes l) (hl : ∀ u ∈ l, ∀ c ∈ u, q c = true) (hb : b.Descending)
    (hlb : b.Denotes m) (h : ∀ c z, p c = true ∨ q c = true → c :: z ∉ m) :
    (((one p).seq a).opt.seq b).Descending := by
  have hpart := (ha.one_seq hla (p := p)).opt ((one_consumes p).seq hadvances)
  refine hpart.seq hb (one_denotes.seq hla).opt hlb ?_
  intro v c w _ hvc z
  cases v with
  | nil => exact h c z (.inl (cons_mem_optional hvc).1)
  | cons d v => exact h c z (.inr (hl _ (cons_mem_optional hvc).2 c (by simp)))

/-- The match that is preferred is one that the following text allows. -/
theorem Denotes.of_length?_before (ha : a.Denotes l) {allowed : List Char → Bool} {cs : List Char}
    {n : Nat} (h : (a.before allowed).length? cs = some n) :
    cs.take n ∈ l ∧ allowed (cs.drop n) = true := by
  unfold length? at h
  obtain ⟨t, ht, rfl⟩ := Option.map_eq_some_iff.mp h
  obtain ⟨hmem, hallowed⟩ := List.mem_filter.mp (List.mem_of_head? ht)
  obtain ⟨w, hw, hrest, htaken⟩ := (ha _ t).mp hmem
  obtain rfl : cs = w ++ t.rest := hrest
  rw [htaken, Nat.zero_add, List.take_left, List.drop_left]
  exact ⟨hw, hallowed⟩

/-- No longer match is allowed than the preferred one. -/
theorem Descending.le_length?_before (hd : a.Descending) (ha : a.Denotes l)
    {allowed : List Char → Bool} {w rest : List Char} (hw : w ∈ l) (hr : allowed rest = true) :
    ∃ n, (a.before allowed).length? (w ++ rest) = some n ∧ w.length ≤ n := by
  have hmem : ⟨w.length, rest⟩ ∈ (a.before allowed) ⟨0, w ++ rest⟩ :=
    List.mem_filter.mpr ⟨(ha _ _).mpr ⟨w, hw, rfl, (Nat.zero_add _).symm⟩, hr⟩
  have hpairwise := (hd ⟨0, w ++ rest⟩).filter (allowed ·.rest)
  unfold length?
  unfold before at hmem ⊢
  cases hends : (a ⟨0, w ++ rest⟩).filter (allowed ·.rest) with
  | nil =>
    rw [hends] at hmem
    cases hmem
  | cons t ts =>
    rw [hends] at hmem hpairwise
    refine ⟨t.taken, rfl, ?_⟩
    rcases List.mem_cons.mp hmem with rfl | hlater
    · exact Nat.le_refl _
    · exact Nat.le_of_lt (List.rel_of_pairwise_cons hpairwise hlater)

end Order
end Pattern
end ShaderReflection.Assembly
