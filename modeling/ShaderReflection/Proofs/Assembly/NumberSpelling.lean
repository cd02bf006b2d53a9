import ShaderReflection.Proofs.Assembly.Spelling

/-! Numbers are found by patterns that list longer matches first: wherever a part of a number could
have gone on, what comes next in the pattern finds nothing. -/
namespace ShaderReflection.Assembly

open Computability

section Numbers

open Lexeme Pattern

theorem exponentDigits_denotes : exponentDigits.Denotes Spelling.exponent :=
  one_denotes.opt.seq many1_denotes

theorem hexMark_denotes : hexMark.Denotes Spelling.hexMark := one_denotes.seq one_denotes

theorem hexFloat_denotes : hexFloat.Denotes Spelling.hexFloat :=
  hexMark_denotes.seq <| many1_denotes.seq <| (one_denotes.seq many_denotes).opt.seq <|
    one_denotes.seq exponentDigits_denotes

theorem hexInteger_denotes : hexInteger.Denotes Spelling.hexInteger :=
  hexMark_denotes.seq many1_denotes

theorem decimal_denotes : decimal.Denotes Spelling.decimal :=
  many1_denotes.seq <| (one_denotes.seq many1_denotes).opt.seq <|
    (one_denotes.seq exponentDigits_denotes).opt

theorem isDigit_eq_false_of_isSign {c : Char} (h : isSign c = true) : c.isDigit = false := by
  simp only [isSign, Bool.or_eq_true, decide_eq_true_eq] at h
  rcases h with rfl | rfl <;> rfl

theorem exponentDigits_descending : exponentDigits.Descending := by
  refine many1_descending.opt_one_seq many1_denotes fun c z hsign hz => ?_
  have hdigit := (mem_someOf.mp hz).2 c List.mem_cons_self
  rw [isDigit_eq_false_of_isSign hsign] at hdigit
  cases hdigit

theorem hexMark_descending : hexMark.Descending := one_descending.one_seq one_denotes

theorem length_of_mem_hexMark {w : List Char} (h : w ∈ Spelling.hexMark) : w.length = 2 := by
  obtain ⟨_, ⟨c, -, rfl⟩, _, ⟨d, -, rfl⟩, rfl⟩ := h
  rfl

theorem hexMark_seq_descending {a : Pattern} {l : Language Char} (ha : a.Descending)
    (hla : a.Denotes l) : (hexMark.seq a).Descending := by
  refine hexMark_descending.seq ha hexMark_denotes hla fun v c w hv h => ?_
  have hlength := length_of_mem_hexMark hv
  have hlonger := length_of_mem_hexMark h
  rw [List.length_append, List.length_cons] at hlonger
  omega

theorem hexInteger_descending : hexInteger.Descending :=
  hexMark_seq_descending many1_descending many1_denotes

theorem isHexDigit_marks {c : Char} (h : isHexDigit c = true) :
    c ≠ '.' ∧ (c = 'p' || c = 'P') = false := by
  have hne {d : Char} (hd : isHexDigit d = false) : c ≠ d := by
    rintro rfl
    rw [h] at hd
    cases hd
  simp [hne (d := '.') (by decide), hne (d := 'p') (by decide), hne (d := 'P') (by decide)]

theorem hexFloat_descending : hexFloat.Descending := by
  have hexponent : (seq (one fun c => c = 'p' || c = 'P') exponentDigits).Denotes _ :=
    one_denotes.seq exponentDigits_denotes
  have hfraction : (seq (one (· = '.')) (many isHexDigit)).opt.Denotes _ :=
    (one_denotes.seq many_denotes).opt
  have htail : ((seq (one (· = '.')) (many isHexDigit)).opt.seq
      (seq (one fun c => c = 'p' || c = 'P') exponentDigits)).Descending := by
    refine many_descending.opt_seq (many_advances isHexDigit) many_denotes
      (fun u hu => mem_kstar_oneOf.mp hu)
      (exponentDigits_descending.one_seq exponentDigits_denotes) hexponent fun c z hc hz => ?_
    have hmark := (cons_mem_oneOf_mul.mp hz).1
    rcases hc with hc | hc
    · obtain rfl := of_decide_eq_true hc
      cases hmark
    · rw [(isHexDigit_marks hc).2] at hmark
      cases hmark
  refine hexMark_seq_descending (htail.many1_seq (hfraction.seq hexponent) fun c z hc hz => ?_)
    (many1_denotes.seq (hfraction.seq hexponent))
  rcases cons_mem_optional_mul hz with hdot | hz
  · exact (isHexDigit_marks hc).1 (of_decide_eq_true hdot)
  · have hmark := (cons_mem_oneOf_mul.mp hz).1
    rw [(isHexDigit_marks hc).2] at hmark
    cases hmark

theorem isDigit_marks {c : Char} (h : c.isDigit = true) :
    c ≠ '.' ∧ (c = 'e' || c = 'E') = false ∧ (c = 'x' || c = 'X') = false := by
  have hne {d : Char} (hd : d.isDigit = false) : c ≠ d := by
    rintro rfl
    rw [h] at hd
    cases hd
  simp [hne (d := '.') (by decide), hne (d := 'e') (by decide), hne (d := 'E') (by decide),
    hne (d := 'x') (by decide), hne (d := 'X') (by decide)]

theorem decimal_descending : decimal.Descending := by
  have hexponent : (seq (one fun c => c = 'e' || c = 'E') exponentDigits).opt.Denotes _ :=
    (one_denotes.seq exponentDigits_denotes).opt
  have hfraction : (seq (one (· = '.')) (many1 Char.isDigit)).opt.Denotes _ :=
    (one_denotes.seq many1_denotes).opt
  have htail : ((seq (one (· = '.')) (many1 Char.isDigit)).opt.seq
      (seq (one fun c => c = 'e' || c = 'E') exponentDigits).opt).Descending := by
    refine many1_descending.opt_seq (many1_advances Char.isDigit) many1_denotes
      (fun u hu => (mem_someOf.mp hu).2)
      ((exponentDigits_descending.one_seq exponentDigits_denotes).opt
        ((one_consumes _).seq exponentDigits_advances)) hexponent fun c z hc hz => ?_
    have hmark := (cons_mem_optional hz).1
    rcases hc with hc | hc
    · obtain rfl := of_decide_eq_true hc
      cases hmark
    · rw [(isDigit_marks hc).2.1] at hmark
      cases hmark
  refine htail.many1_seq (hfraction.seq hexponent) fun c z hc hz => ?_
  rcases cons_mem_optional_mul hz with hdot | hz
  · exact (isDigit_marks hc).1 (of_decide_eq_true hdot)
  · have hmark := (cons_mem_optional hz).1
    rw [(isDigit_marks hc).2.1] at hmark
    cases hmark

/-- No decimal number begins as a hexadecimal one does. -/
theorem hexMark_append_notMem_decimal {v w : List Char} (hv : v ∈ Spelling.hexMark) :
    v ++ w ∉ Spelling.decimal := by
  obtain ⟨_, ⟨c, -, rfl⟩, _, ⟨d, hd, rfl⟩, rfl⟩ := hv
  rintro ⟨u, hu, y, hy, h⟩
  obtain ⟨hne, hdigits⟩ := mem_someOf.mp hu
  match u with
  | [] => exact hne rfl
  | [e] =>
    obtain rfl : y = d :: w := (List.cons.inj h).2
    have hmark : d = '.' ∨ (d = 'e' || d = 'E') = true :=
      (cons_mem_optional_mul hy).imp of_decide_eq_true fun hy => (cons_mem_optional hy).1
    simp only [Bool.or_eq_true, decide_eq_true_eq] at hd hmark
    rcases hd with rfl | rfl <;> simp at hmark
  | e :: f :: u =>
    obtain rfl : f = d := (List.cons.inj (List.cons.inj h).2).1
    have hmark := (isDigit_marks (hdigits f (by simp))).2.2
    exact Bool.false_ne_true (hmark.symm.trans hd)

private theorem hexFloat_append_notMem_hexInteger {v w : List Char} (hv : v ∈ Spelling.hexFloat) :
    v ++ w ∉ Spelling.hexInteger := by
  obtain ⟨m, hm, _, ⟨x, -, _, ⟨f, -, _, ⟨_, ⟨c, hc, rfl⟩, e, -, rfl⟩, rfl⟩, rfl⟩, rfl⟩ := hv
  rintro ⟨m', hm', y, hy, h⟩
  have hlength := (length_of_mem_hexMark hm').trans (length_of_mem_hexMark hm).symm
  simp only [List.append_assoc] at h
  obtain ⟨-, rfl⟩ := List.append_inj h hlength
  have hmark := (isHexDigit_marks ((mem_someOf.mp hy).2 c (by simp))).2
  exact Bool.false_ne_true (hmark.symm.trans hc)

private theorem cons_mem_hexMark_mul {c : Char} {w : List Char} {l : Language Char}
    (h : c :: w ∈ Spelling.hexMark * l) : c = '0' := by
  unfold Spelling.hexMark at h
  rw [mul_assoc] at h
  exact of_decide_eq_true (cons_mem_oneOf_mul.mp h).1

theorem number_descending : (seq (opt (one isSign))
    (alt hexFloat (alt hexInteger decimal))).Descending := by
  have hinteger : (alt hexInteger decimal).Descending := by
    refine hexInteger_descending.alt decimal_descending hexInteger_denotes decimal_denotes ?_
    rintro _ ⟨m, hm, v, -, rfl⟩ w hw
    dsimp only at hw
    rw [List.append_assoc] at hw
    exact hexMark_append_notMem_decimal hm hw
  have hbody : (alt hexFloat (alt hexInteger decimal)).Descending := by
    refine hexFloat_descending.alt hinteger hexFloat_denotes
      (hexInteger_denotes.alt decimal_denotes) fun v hv w hw => ?_
    rcases hw with hw | hw
    · exact hexFloat_append_notMem_hexInteger hv hw
    · obtain ⟨m, hm, v, -, rfl⟩ := hv
      dsimp only at hw
      rw [List.append_assoc] at hw
      exact hexMark_append_notMem_decimal hm hw
  refine hbody.opt_one_seq
    (hexFloat_denotes.alt (hexInteger_denotes.alt decimal_denotes)) fun c z hsign hz => ?_
  have hdigit : c.isDigit = true := by
    rcases hz with hz | hz | hz
    · rw [cons_mem_hexMark_mul hz]
      rfl
    · rw [cons_mem_hexMark_mul hz]
      rfl
    · exact cons_mem_someOf_mul hz
  rw [isDigit_eq_false_of_isSign hsign] at hdigit
  cases hdigit

theorem number_denotes : (seq (opt (one isSign))
    (alt hexFloat (alt hexInteger decimal))).Denotes Spelling.number :=
  one_denotes.opt.seq (hexFloat_denotes.alt (hexInteger_denotes.alt decimal_denotes))

theorem mayFollowNumber_iff {rest : List Char} :
    mayFollowNumber rest = true ↔ ∀ c ∈ rest.head?, c.isAlpha = false ∧ c ≠ '_' := by
  cases rest with
  | nil => exact iff_of_true rfl nofun
  | cons c rest => simp [mayFollowNumber]

theorem Terminal.number_findsLongest : FindsLongest .number where
  sound h := by
    obtain ⟨hspelled, hfollow⟩ := number_denotes.of_length?_before h
    exact ⟨hspelled, fun _ => mayFollowNumber_iff.mp hfollow⟩
  longest h :=
    number_descending.le_length?_before number_denotes h.spelled
      (mayFollowNumber_iff.mpr (h.follow rfl))

end Numbers

end ShaderReflection.Assembly
