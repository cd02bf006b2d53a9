import ShaderReflection.Proofs.Assembly.NumberSpelling

/-! The lexeme of a terminal is its longest match, for newline tokens with the empty lines below them
as for all others. -/
namespace ShaderReflection.Assembly

open Computability

section Newlines

open Lexeme (newlineRun)

def Spelling.newlineRun (inComment : Bool) : Language Char :=
  if inComment then (oneOf (· ≠ '\n'))∗ * emptyLine∗
  else (oneOf isBlank)∗ * ((1 + comment) * emptyLine∗)

private theorem kstar_emptyLine_eq :
    Spelling.emptyLine∗ = 1 + Spelling.lineBreak * Spelling.newlineRun false := by
  have hstar := Language.one_add_self_mul_kstar_eq_kstar Spelling.emptyLine
  conv_lhs => rw [← hstar]
  conv_lhs => enter [2, 1]; unfold Spelling.emptyLine
  simp only [mul_assoc]
  rfl

theorem lineBreak_mul (l : Language Char) : Spelling.lineBreak * l =
    oneOf (· = '\n') * l + oneOf (· = '\r') * (oneOf (· = '\n') * l) := by
  unfold Spelling.lineBreak
  simp only [add_mul, one_mul, mul_assoc]

theorem newlineRun_false_eq : Spelling.newlineRun false =
    Spelling.emptyLine∗ + oneOf (· = ';') * Spelling.newlineRun true +
      oneOf isBlank * Spelling.newlineRun false := by
  have hstar := kstar_oneOf_eq (p := isBlank)
  have hunfold : Spelling.newlineRun false =
      (oneOf isBlank)∗ * ((1 + Spelling.comment) * Spelling.emptyLine∗) := rfl
  conv_lhs => rw [hunfold, hstar]
  rw [add_mul, one_mul, mul_assoc, ← hunfold, add_mul, one_mul]
  conv_lhs => enter [1, 2]; unfold Spelling.comment
  rw [mul_assoc]
  rfl

theorem newlineRun_true_eq : Spelling.newlineRun true =
    Spelling.emptyLine∗ + oneOf (· ≠ '\n') * Spelling.newlineRun true := by
  have hstar := kstar_oneOf_eq (p := fun c => c ≠ '\n')
  have hunfold : Spelling.newlineRun true =
      (oneOf (· ≠ '\n'))∗ * Spelling.emptyLine∗ := rfl
  conv_lhs => rw [hunfold, hstar]
  rw [add_mul, one_mul, mul_assoc, ← hunfold]

section Membership

variable {c : Char} {w cs : List Char} {n : Nat} {inComment : Bool}

theorem cons_mem_lineBreak_mul {l : Language Char} : c :: w ∈ Spelling.lineBreak * l ↔
    c = '\n' ∧ w ∈ l ∨ c = '\r' ∧ w ∈ oneOf (· = '\n') * l := by
  rw [lineBreak_mul]
  simp only [Language.mem_add, cons_mem_oneOf_mul, decide_eq_true_eq]

theorem cons_mem_kstar_emptyLine : c :: w ∈ Spelling.emptyLine∗ ↔
    c :: w ∈ Spelling.lineBreak * Spelling.newlineRun false := by
  rw [kstar_emptyLine_eq, Language.mem_add, Language.mem_one]
  simp

theorem cons_mem_newlineRun_false : c :: w ∈ Spelling.newlineRun false ↔
    c :: w ∈ Spelling.lineBreak * Spelling.newlineRun false ∨
      c = ';' ∧ w ∈ Spelling.newlineRun true ∨ isBlank c = true ∧ w ∈ Spelling.newlineRun false := by
  conv_lhs => rw [newlineRun_false_eq]
  simp only [Language.mem_add, cons_mem_oneOf_mul, decide_eq_true_eq, cons_mem_kstar_emptyLine,
    or_assoc]

theorem cons_mem_newlineRun_true : c :: w ∈ Spelling.newlineRun true ↔
    c :: w ∈ Spelling.lineBreak * Spelling.newlineRun false ∨
      c ≠ '\n' ∧ w ∈ Spelling.newlineRun true := by
  conv_lhs => rw [newlineRun_true_eq]
  simp only [Language.mem_add, cons_mem_oneOf_mul, decide_eq_true_eq, cons_mem_kstar_emptyLine]

private theorem nil_mem_newlineRun : [] ∈ Spelling.newlineRun inComment := by
  have hnil : [] ∈ Spelling.emptyLine∗ := Language.nil_mem_kstar _
  cases inComment with
  | false =>
    rw [newlineRun_false_eq]
    exact .inl (.inl hnil)
  | true =>
    rw [newlineRun_true_eq]
    exact .inl hnil

theorem lineBreak_mem_newlineRun
    (h : c :: w ∈ Spelling.lineBreak * Spelling.newlineRun false) :
    c :: w ∈ Spelling.newlineRun inComment := by
  cases inComment with
  | false => exact cons_mem_newlineRun_false.mpr (.inl h)
  | true => exact cons_mem_newlineRun_true.mpr (.inl h)

/-- A newline token is spelled as one. -/
theorem take_newlineRun (inComment : Bool) (cs : List Char) :
    cs.take (newlineRun inComment cs) ∈ Spelling.newlineRun inComment := by
  fun_induction newlineRun inComment cs with
  | case1 => exact nil_mem_newlineRun
  | case2 inComment cs ih =>
    exact lineBreak_mem_newlineRun (cons_mem_lineBreak_mul.mpr (.inl ⟨rfl, ih⟩))
  | case3 inComment cs ih =>
    exact lineBreak_mem_newlineRun
      (cons_mem_lineBreak_mul.mpr (.inr ⟨rfl, cons_mem_oneOf_mul.mpr ⟨rfl, ih⟩⟩))
  | case4 c cs hn hr ih => exact cons_mem_newlineRun_true.mpr (.inr ⟨hn, ih⟩)
  | case5 inComment c cs hn hr hcomment hb ih =>
    obtain rfl := Bool.eq_false_iff.mpr hcomment
    exact cons_mem_newlineRun_false.mpr (.inr (.inr ⟨hb, ih⟩))
  | case6 inComment cs hcomment hn hr hb ih =>
    obtain rfl := Bool.eq_false_iff.mpr hcomment
    exact cons_mem_newlineRun_false.mpr (.inr (.inl ⟨rfl, ih⟩))
  | case7 => exact nil_mem_newlineRun

/-- Nothing that is spelled as a newline token goes beyond it. -/
theorem length_le_newlineRun (h : w ∈ Spelling.newlineRun inComment) (rest : List Char) :
    w.length ≤ newlineRun inComment (w ++ rest) := by
  induction w generalizing inComment with
  | nil => exact Nat.zero_le _
  | cons c w ih =>
    have hstep {next : Bool} (hrun : runStep inComment c (w ++ rest).head? = some next)
        (hw : w ∈ Spelling.newlineRun next) :
        (c :: w).length ≤ newlineRun inComment (c :: (w ++ rest)) := by
      rw [newlineRun_cons_eq, hrun]
      exact Nat.succ_le_succ (ih hw)
    have hbreak (hw : c :: w ∈ Spelling.lineBreak * Spelling.newlineRun false) :
        (c :: w).length ≤ newlineRun inComment (c :: (w ++ rest)) := by
      rcases cons_mem_lineBreak_mul.mp hw with ⟨rfl, hw'⟩ | ⟨rfl, hw'⟩
      · exact hstep rfl hw'
      · obtain ⟨d, v, rfl, hd, hv⟩ := exists_of_mem_oneOf_mul hw'
        obtain rfl := of_decide_eq_true hd
        exact hstep rfl (lineBreak_mem_newlineRun (cons_mem_lineBreak_mul.mpr (.inl ⟨rfl, hv⟩)))
    rw [List.cons_append]
    cases inComment with
    | false =>
      rcases cons_mem_newlineRun_false.mp h with hw | ⟨rfl, hw⟩ | ⟨hb, hw⟩
      · exact hbreak hw
      · exact hstep rfl hw
      · refine hstep ?_ hw
        simp only [isBlank, Bool.or_eq_true, decide_eq_true_eq] at hb
        rcases hb with rfl | rfl <;> rfl
    | true =>
      rcases cons_mem_newlineRun_true.mp h with hw | ⟨hc, hw⟩
      · exact hbreak hw
      · refine hstep ?_ hw
        simp [runStep, hc]

private theorem spelling_newline_eq :
    Spelling.newline = Spelling.lineBreak * Spelling.newlineRun false := by
  unfold Spelling.newline
  conv_lhs => enter [1]; unfold Spelling.emptyLine
  simp only [mul_assoc]
  rfl

theorem Terminal.newline_findsLongest : FindsLongest .newline where
  sound {cs n} h := by
    refine ⟨?_, nofun⟩
    show cs.take n ∈ Spelling.newline
    rw [spelling_newline_eq]
    simp only [length?, Lexeme.newline] at h
    split at h
    · obtain rfl := Option.some.inj h
      exact cons_mem_lineBreak_mul.mpr (.inl ⟨rfl, take_newlineRun false _⟩)
    · obtain rfl := Option.some.inj h
      exact cons_mem_lineBreak_mul.mpr
        (.inr ⟨rfl, cons_mem_oneOf_mul.mpr ⟨rfl, take_newlineRun false _⟩⟩)
    · cases h
  longest {w rest} h := by
    have hw : w ∈ Spelling.newline := h.spelled
    rw [spelling_newline_eq, lineBreak_mul, Language.mem_add] at hw
    rcases hw with hw | hw
    · obtain ⟨c, v, rfl, hc, hv⟩ := exists_of_mem_oneOf_mul hw
      obtain rfl := of_decide_eq_true hc
      exact ⟨_, rfl, Nat.succ_le_succ (length_le_newlineRun hv rest)⟩
    · obtain ⟨c, _, rfl, hc, hw⟩ := exists_of_mem_oneOf_mul hw
      obtain ⟨d, v, rfl, hd, hv⟩ := exists_of_mem_oneOf_mul hw
      obtain rfl := of_decide_eq_true hc
      obtain rfl := of_decide_eq_true hd
      exact ⟨_, rfl, Nat.succ_le_succ (Nat.succ_le_succ (length_le_newlineRun hv rest))⟩

end Membership

end Newlines

namespace Terminal

theorem findsLongest (t : Terminal) : t.FindsLongest := by
  cases t with
  | newline => exact newline_findsLongest
  | id => exact id_findsLongest
  | equals => exact equals_findsLongest
  | opcode => exact opcode_findsLongest
  | string => exact string_findsLongest
  | number => exact number_findsLongest
  | word => exact word_findsLongest

/-- The longest match of a terminal at the beginning of a text. -/
structure IsLexeme (t : Terminal) (lexeme rest : List Char) : Prop where
  matched : t.Matches lexeme rest
  longest {w rest' : List Char} (hw : w ++ rest' = lexeme ++ rest) (h : t.Matches w rest') :
    w.length ≤ lexeme.length

theorem isLexeme_iff {t : Terminal} {lexeme rest : List Char} :
    t.IsLexeme lexeme rest ↔ t.length? (lexeme ++ rest) = some lexeme.length := by
  constructor
  · intro h
    obtain ⟨n, hn, hle⟩ := t.findsLongest.longest h.matched
    have hmatches := t.findsLongest.sound hn
    have hbound := h.longest (List.take_append_drop n _) hmatches
    rw [List.length_take_of_le (length?_le hn)] at hbound
    rw [hn, Nat.le_antisymm hbound hle]
  · intro h
    have hmatches := t.findsLongest.sound h
    rw [List.take_left, List.drop_left] at hmatches
    refine ⟨hmatches, fun {w rest'} hw hw' => ?_⟩
    obtain ⟨n, hn, hle⟩ := t.findsLongest.longest hw'
    rw [hw, h] at hn
    obtain rfl := Option.some.inj hn
    exact hle

theorem length?_eq_none_iff {t : Terminal} {cs : List Char} :
    t.length? cs = none ↔ ∀ w rest, cs = w ++ rest → ¬t.Matches w rest := by
  constructor
  · rintro h w rest rfl hw
    obtain ⟨n, hn, -⟩ := t.findsLongest.longest hw
    rw [h] at hn
    cases hn
  · intro h
    cases hn : t.length? cs with
    | none => rfl
    | some n =>
      exact absurd (t.findsLongest.sound hn) (h _ _ (List.take_append_drop n cs).symm)

end Terminal

end ShaderReflection.Assembly
