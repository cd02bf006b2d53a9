import ShaderReflection.Proofs.Assembly.Reading

/-! One step of reading. Before a lexeme, blanks and at most one comment are dropped. Of the
terminals that are allowed in a phase, at most one fits there besides numbers. -/
namespace ShaderReflection.Assembly

open Text (Stops)

/-- What is dropped before a text: all blanks, and a comment with the rest of its line. -/
inductive Skips : List Char → List Char → Prop where
  | blanks {bs rest : List Char} (hb : bs.all isBlank = true)
      (hr : ∀ c ∈ rest.head?, isBlank c = false ∧ c ≠ ';') : Skips bs rest
  | comment {bs text rest : List Char} (hb : bs.all isBlank = true) (ht : '\n' ∉ text)
      (hr : AtLineEnd rest) : Skips (bs ++ ';' :: text) rest

section Skips

variable {skipped rest : List Char}

private theorem gap_eq_zero_of_head {cs : List Char}
    (h : ∀ c ∈ cs.head?, isBlank c = false ∧ c ≠ ';') :
    gap false cs = 0 := by
  cases cs with
  | nil => rfl
  | cons c cs =>
    obtain ⟨hb, hc⟩ := h c rfl
    simp [gap, hb, hc]

theorem Skips.gap_rest (h : Skips skipped rest) : gap false rest = 0 := by
  cases h with
  | blanks _ hr => exact gap_eq_zero_of_head hr
  | comment _ _ hr => exact gap_of_atLineEnd hr false

theorem Skips.gap_append (h : Skips skipped rest) :
    gap false (skipped ++ rest) = skipped.length + gap false rest := by
  cases h with
  | blanks hb _ => exact gap_blank_append hb rest
  | @comment bs text _ hb ht hr =>
    rw [List.append_assoc, gap_blank_append hb, gap_of_atLineEnd hr, List.cons_append, gap,
      if_neg (by decide), if_neg (by decide), if_neg (by decide), if_pos rfl,
      gap_comment_append ht hr, List.length_append]
    rfl

theorem Skips.lineBreaks_eq (h : Skips skipped rest) : lineBreaks skipped = 0 := by
  cases h with
  | blanks hb _ => exact lineBreaks_eq_zero (newline_not_mem_of_blank hb)
  | comment hb ht _ =>
    refine lineBreaks_eq_zero ?_
    rw [List.mem_append, List.mem_cons, not_or, not_or]
    exact ⟨newline_not_mem_of_blank hb, by decide, ht⟩

theorem exists_skips (cs : List Char) : ∃ skipped rest, cs = skipped ++ rest ∧ Skips skipped rest := by
  have hblanks : (cs.takeWhile isBlank).all isBlank = true := List.all_takeWhile
  have hsplit : cs = cs.takeWhile isBlank ++ cs.dropWhile isBlank :=
    List.takeWhile_append_dropWhile.symm
  by_cases hc : ∃ tail, cs.dropWhile isBlank = ';' :: tail
  · obtain ⟨tail, htail⟩ := hc
    refine ⟨cs.takeWhile isBlank ++ ';' :: tail.takeWhile (· ≠ '\n'), tail.dropWhile (· ≠ '\n'),
      ?_, .comment hblanks (fun hmem => ?_) fun c hhead => ?_⟩
    · rw [List.append_assoc, List.cons_append, List.takeWhile_append_dropWhile, ← htail, ← hsplit]
    · have hne := List.all_eq_true.mp (List.all_takeWhile (p := (· ≠ '\n')) (l := tail)) _ hmem
      simp at hne
    · have hstop := List.head?_dropWhile_not (fun d => decide (d ≠ '\n')) tail
      rw [hhead] at hstop
      simpa using hstop
  · refine ⟨_, _, hsplit, .blanks hblanks fun c hhead => ⟨?_, ?_⟩⟩
    · have hstop := List.head?_dropWhile_not isBlank cs
      rw [hhead] at hstop
      simpa using hstop
    · rintro rfl
      obtain ⟨tail, htail⟩ := List.head?_eq_some_iff.mp hhead
      exact hc ⟨tail, htail⟩

theorem Skips.of_head?_eq {skipped rest rest' : List Char} (h : Skips skipped rest)
    (hhead : rest'.head? = rest.head?) : Skips skipped rest' := by
  cases h with
  | blanks hb hr => exact .blanks hb (by rwa [hhead])
  | comment hb ht hr => exact .comment hb ht (by unfold AtLineEnd; rwa [hhead])

theorem Skips.newline {skipped : List Char} (h : Skips skipped []) (cs : List Char) :
    Skips skipped ('\n' :: cs) := by
  have hhead {c : Char} (hc : c ∈ ('\n' :: cs).head?) : c = '\n' := (Option.some.inj hc).symm
  cases h with
  | blanks hb _ =>
    refine .blanks hb fun c hc => ?_
    rw [hhead hc]
    decide
  | comment hb ht _ => exact .comment hb ht fun c hc => hhead hc

theorem Skips.head {c : Char} {skipped rest : List Char} (h : Skips (c :: skipped) rest) :
    isBlank c = true ∨ c = ';' := by
  generalize hcs : c :: skipped = cs at h
  cases h with
  | blanks hb _ =>
    subst hcs
    exact .inl (List.all_eq_true.mp hb c List.mem_cons_self)
  | @comment bs text _ hb _ _ =>
    cases bs with
    | nil => exact .inr (List.cons.inj hcs).1
    | cons b bs =>
      obtain rfl := (List.cons.inj hcs).1
      exact .inl (List.all_eq_true.mp hb c List.mem_cons_self)

end Skips

def Terminal.begunBy (c : Char) : Terminal :=
  if c = '\n' ∨ c = '\r' then .newline
  else if c = '%' then .id
  else if c = '=' then .equals
  else if c = '"' then .string
  else .word

theorem eq_begunBy {t : Terminal} {c : Char} (hn : t ≠ .number) (ho : t ≠ .opcode)
    (hc : t.canStart c = true) : t = .begunBy c := by
  cases t with
  | word =>
    have hne {d : Char} (hd : isNameChar d = false) : c ≠ d := by
      rintro rfl
      rw [show isNameChar c = true from hc] at hd
      cases hd
    simp [Terminal.begunBy, hne (d := '\n') (by decide), hne (d := '\r') (by decide),
      hne (d := '%') (by decide), hne (d := '=') (by decide), hne (d := '"') (by decide)]
  | newline => exact (if_pos (by simpa [Terminal.canStart] using hc)).symm
  | id | equals | string =>
    obtain rfl := of_decide_eq_true hc
    rfl
  | number => exact absurd rfl hn
  | opcode => exact absurd rfl ho

/-- An opcode begins as a word does, but no phase allows both. -/
private theorem eq_opcode_of_canStart {p q r : Phase} {t : Terminal} (ho : p.next? .opcode = some q)
    (ht : p.next? t = some r) (hn : t ≠ .number) {c : Char} (hoc : Terminal.opcode.canStart c = true)
    (htc : t.canStart c = true) : t = .opcode := by
  refine Decidable.byContradiction fun hne => ?_
  have hword : t = .word := by
    have hbegun := eq_begunBy hn hne htc
    obtain rfl := of_decide_eq_true hoc
    exact hbegun
  have hp : p = .operands := by
    rw [hword] at ht
    cases p <;> first | rfl | cases ht
  rw [hp] at ho
  cases ho

/-- Terminals that compete in one phase begin with different characters, but for numbers. -/
theorem eq_of_canStart {p q r : Phase} {t u : Terminal} (ht : p.next? t = some q)
    (hu : p.next? u = some r) (htn : t ≠ .number) (hun : u ≠ .number) {c : Char}
    (htc : t.canStart c = true) (huc : u.canStart c = true) : t = u := by
  by_cases hto : t = .opcode
  · subst hto
    exact (eq_opcode_of_canStart ht hu hun htc huc).symm
  · by_cases huo : u = .opcode
    · subst huo
      exact eq_opcode_of_canStart hu ht htn huc htc
    · exact (eq_begunBy htn hto htc).trans (eq_begunBy hun huo huc).symm

theorem canStart_of_length? {t : Terminal} {c : Char} {cs : List Char} {n : Nat}
    (h : t.length? (c :: cs) = some n) : t.canStart c = true := by
  cases hc : t.canStart c with
  | true => rfl
  | false =>
    rw [Terminal.length?_eq_none hc] at h
    cases h

/-- Of the terminals that are allowed, at most one matches besides numbers. -/
theorem eq_of_length? {p q r : Phase} {t u : Terminal} (ht : p.next? t = some q)
    (hu : p.next? u = some r) (htn : t ≠ .number) (hun : u ≠ .number) {cs : List Char} {n m : Nat}
    (htm : t.length? cs = some n) (hum : u.length? cs = some m) : t = u := by
  cases cs with
  | nil => cases t <;> cases htm
  | cons c cs =>
    exact eq_of_canStart ht hu htn hun (canStart_of_length? htm) (canStart_of_length? hum)

private theorem ne_of_mem_before {t u : Terminal} (h : u ∈ Terminal.byPriority.takeWhile (· ≠ t)) :
    u ≠ t ∧ t ≠ .number := by
  constructor
  · rintro rfl
    have hne := List.all_eq_true.mp List.all_takeWhile u h
    simp at hne
  · rintro rfl
    cases h

/-- A number is read wherever one stands and is allowed. -/
theorem Phase.scan_number {p q : Phase} {cs : List Char} {n : Nat} (hq : p.next? .number = some q)
    (hn : Terminal.number.length? cs = some n) : p.scan cs = some (.number, q, n) :=
  scan_of_first hq hn fun u hu => by cases hu

/-- The terminal that is read is a number if one stands there and is allowed, and otherwise the one
that is allowed and matches. -/
theorem Phase.scan_eq_some_iff {p q : Phase} {cs : List Char} {t : Terminal} {n : Nat} :
    p.scan cs = some (t, q, n) ↔ p.next? t = some q ∧ t.length? cs = some n ∧
      (t ≠ .number → p.next? .number = none ∨ Terminal.number.length? cs = none) := by
  constructor
  · intro h
    obtain ⟨hq, hn⟩ := scan_eq_some h
    refine ⟨hq, hn, fun htn => ?_⟩
    cases hr : p.next? .number with
    | none => exact .inl rfl
    | some r =>
      right
      cases hm : Terminal.number.length? cs with
      | none => rfl
      | some m =>
        have hscan := h.symm.trans (scan_number hr hm)
        exact absurd (congrArg Prod.fst (Option.some.inj hscan)) htn
  · rintro ⟨hq, hn, hnumber⟩
    refine scan_of_first hq hn fun u hu => ?_
    obtain ⟨hut, htn⟩ := ne_of_mem_before hu
    by_cases hun : u = .number
    · subst hun
      exact hnumber htn
    cases hr : p.next? u with
    | none => exact .inl rfl
    | some r =>
      right
      cases hm : u.length? cs with
      | none => rfl
      | some m => exact absurd (eq_of_length? hr hq hun htn hm hn) hut

theorem Phase.exists_lexeme {p q : Phase} {cs : List Char} {t : Terminal} {n : Nat}
    (h : p.scan cs = some (t, q, n)) :
    ∃ lexeme rest, cs = lexeme ++ rest ∧ 0 < lexeme.length ∧
      p.scan (lexeme ++ rest) = some (t, q, lexeme.length) := by
  have hn := (scan_eq_some h).2
  have hlength : (cs.take n).length = n := List.length_take_of_le (Terminal.length?_le hn)
  refine ⟨cs.take n, cs.drop n, (List.take_append_drop n cs).symm, ?_, ?_⟩
  · rw [hlength]
    exact Terminal.length?_pos hn
  · rw [List.take_append_drop, hlength, h]

theorem Phase.next?_newline_iff {p q : Phase} {t : Terminal} (h : p.next? t = some q) :
    t = .newline ↔ q = .lineStart := by
  cases p <;> cases t <;> cases h <;> decide

/-- At the beginning of a line everything is read as at the beginning of a text, but line breaks. -/
theorem Phase.scan_lineStart {q : Phase} {cs : List Char} {t : Terminal} {n : Nat}
    (ht : t ≠ .newline) (h : start.scan cs = some (t, q, n)) :
    lineStart.scan cs = some (t, q, n) := by
  rw [scan_eq_some_iff] at h ⊢
  obtain ⟨hq, hn, -⟩ := h
  refine ⟨?_, hn, fun _ => .inl rfl⟩
  cases t with
  | newline => exact absurd rfl ht
  | id | opcode => exact hq
  | equals | string | number | word => cases hq

/-- No line break is allowed at the beginning of a line. -/
theorem head?_of_scan_lineStart {q : Phase} {cs : List Char} {t : Terminal} {n : Nat}
    (h : Phase.lineStart.scan cs = some (t, q, n)) :
    ∃ c rest, cs = c :: rest ∧ (c = '%' ∨ c = 'O') := by
  obtain ⟨hq, hn⟩ := Phase.scan_eq_some h
  cases cs with
  | nil => cases t <;> cases hn
  | cons c cs =>
    have hc := canStart_of_length? hn
    refine ⟨c, cs, rfl, ?_⟩
    cases t with
    | id => exact .inl (of_decide_eq_true hc)
    | opcode => exact .inr (of_decide_eq_true hc)
    | newline | equals | string | number | word => cases hq

section Appending

variable {rest : List Char}

private theorem takeWhile_append_eq {p : Char → Bool} (hr : Stops p rest) (cs : List Char) :
    (cs ++ rest).takeWhile p = cs.takeWhile p := by
  have hnil : rest.takeWhile p = [] := by
    cases rest with
    | nil => rfl
    | cons c rest => exact List.takeWhile_cons_of_neg (by rw [hr c rfl]; decide)
  rw [List.takeWhile_append, hnil, List.append_nil]
  split
  case isTrue hall => exact ((List.takeWhile_sublist p).eq_of_length hall).symm
  case isFalse => rfl

theorem Lexeme.stringTail_append {cs : List Char} {n : Nat} (h : stringTail cs = some n) :
    stringTail (cs ++ rest) = some n := by
  fun_induction stringTail cs generalizing n with
  | case1 | case3 | case5 => cases h
  | case2 => exact h
  | case4 c cs hc ih =>
    obtain ⟨m, hm, rfl⟩ := Option.map_eq_some_iff.mp h
    rw [List.cons_append, List.cons_append, stringTail.eq_4 _ _ hc, ih hm]
    rfl
  | case6 c cs hq hn he hb ih =>
    obtain ⟨m, hm, rfl⟩ := Option.map_eq_some_iff.mp h
    have hbackslash : c ≠ '\\' := by
      rintro rfl
      cases cs with
      | nil => exact hb rfl rfl
      | cons d cs => exact he d cs rfl rfl
    rw [List.cons_append, stringTail, ih hm]
    · rfl
    · exact hq
    · exact fun _ hc => absurd hc hbackslash
    · exact fun _ _ hc => absurd hc hbackslash
    · exact fun hc => absurd hc hbackslash

/-- A lexeme is found whatever follows behind a delimiter, but for line breaks, which take in the
empty lines below them. -/
theorem Terminal.length?_append (hr : Delimited rest) {t : Terminal} (ht : t ≠ .newline)
    {cs : List Char} {n : Nat} (h : t.length? cs = some n) : t.length? (cs ++ rest) = some n := by
  cases t with
  | newline => exact absurd rfl ht
  | number => exact ((Lexeme.number_local hr).length?_append cs).trans h
  | equals =>
    simp only [length?, Lexeme.equals] at h ⊢
    split at h
    · exact h
    · cases h
  | id =>
    have hrun := takeWhile_append_eq (hr.stops (p := isIdChar) (by decide))
    simp only [length?, Lexeme.id] at h ⊢
    split at h
    · simpa only [List.cons_append, hrun] using h
    · cases h
  | opcode =>
    have hrun := takeWhile_append_eq (hr.stops (p := isNameChar) (by decide))
    simp only [length?, Lexeme.opcode] at h ⊢
    split at h
    · simpa only [List.cons_append, hrun] using h
    · cases h
  | word =>
    have hrun := takeWhile_append_eq (hr.stops (p := isWordChar) (by decide))
    simp only [length?, Lexeme.word] at h ⊢
    split at h
    · simpa only [List.cons_append, hrun] using h
    · cases h
  | string =>
    simp only [length?, Lexeme.string] at h ⊢
    split at h
    · obtain ⟨m, hm, rfl⟩ := Option.map_eq_some_iff.mp h
      simp only [List.cons_append, Lexeme.stringTail_append hm, Option.map_some]
    · cases h

/-- The same lexeme is read when more text follows behind a delimiter. -/
theorem Phase.scan_append (hr : Delimited rest) {p q : Phase} {t : Terminal} (ht : t ≠ .newline)
    {cs : List Char} {n : Nat} (h : p.scan cs = some (t, q, n)) :
    p.scan (cs ++ rest) = some (t, q, n) := by
  rw [scan_eq_some_iff] at h ⊢
  obtain ⟨hq, hn, hnumber⟩ := h
  refine ⟨hq, Terminal.length?_append hr ht hn, fun htn => (hnumber htn).imp_right fun hnone => ?_⟩
  exact ((Lexeme.number_local hr).length?_append cs).trans hnone

end Appending

end ShaderReflection.Assembly
