import ShaderReflection.Proofs.Assembly.Delimited
import ShaderReflection.Proofs.Assembly.Printing

/-! Printed operands, ids and opcodes are read as the tokens that they were printed for. -/
namespace ShaderReflection.Assembly

open Text (Stops takeWhile_append_of_stops)

theorem unescape_escape (cs : List Char) : unescape (escape cs) = cs := by
  induction cs with
  | nil => rfl
  | cons c cs ih =>
    unfold escape
    split
    · rw [unescape, ih]
    case isFalse h =>
      have hc : c ≠ '\\' := fun hc => h (.inr hc)
      rw [unescape.eq_2 _ _ (fun _ _ he _ => hc he), ih]

namespace Lexeme

variable {rest : List Char}

theorem stringTail_escape (cs : List Char) :
    stringTail (escape cs ++ '"' :: rest) = some ((escape cs).length + 1) := by
  induction cs with
  | nil => rfl
  | cons c cs ih =>
    unfold escape
    split
    case isTrue h =>
      have hc : c ≠ '\n' := by
        rintro rfl
        rcases h with h | h <;> cases h
      rw [List.cons_append, List.cons_append, stringTail.eq_4 _ _ hc, ih]
      rfl
    case isFalse h =>
      have hq : c ≠ '"' := fun hc => h (.inl hc)
      have hb : c ≠ '\\' := fun hc => h (.inr hc)
      rw [List.cons_append, stringTail, ih]
      · rfl
      all_goals simp_all

theorem string_printed (text : List Char) :
    string ('"' :: (escape text ++ ['"']) ++ rest) =
      some ('"' :: (escape text ++ ['"'])).length := by
  have h : '"' :: (escape text ++ ['"']) ++ rest = '"' :: (escape text ++ '"' :: rest) := by simp
  rw [h, string, stringTail_escape]
  simp

private theorem newlineRun_le (inComment : Bool) (cs : List Char) :
    newlineRun inComment cs ≤ cs.length := by
  fun_induction newlineRun inComment cs <;> simp only [List.length_cons, List.length_nil] <;> omega

private theorem stringTail_le {cs : List Char} {n : Nat} (h : stringTail cs = some n) :
    n ≤ cs.length := by
  fun_induction stringTail cs generalizing n with
  | case1 | case3 | case5 => cases h
  | case2 =>
    obtain rfl := Option.some.inj h
    exact Nat.succ_le_succ (Nat.zero_le _)
  | case4 _ _ _ ih | case6 _ _ _ _ _ _ ih =>
    obtain ⟨m, hm, rfl⟩ := Option.map_eq_some_iff.mp h
    have hrest := ih hm
    simp only [List.length_cons]
    omega

theorem takeWhile_length_le (p : Char → Bool) (cs : List Char) :
    (cs.takeWhile p).length ≤ cs.length := (List.takeWhile_sublist p).length_le

theorem id_printed {name : String} (hn : isIdName name = true) (hr : Stops isIdChar rest) :
    id ('%' :: name.toList ++ rest) = some ('%' :: name.toList).length := by
  simp only [isIdName, Bool.and_eq_true, Bool.not_eq_true', List.all_eq_true] at hn
  obtain ⟨c, cs, hcs⟩ := List.exists_cons_of_ne_nil (List.isEmpty_eq_false_iff.mp hn.1)
  rw [List.cons_append, id, takeWhile_append_of_stops hn.2 hr, hcs]
  rfl

theorem opcode_printed {name : String} (hn : isOpcodeName name = true)
    (hr : Stops isNameChar rest) :
    opcode (name.toList ++ rest) = some name.toList.length := by
  unfold isOpcodeName at hn
  split at hn
  case h_2 => cases hn
  case h_1 c cs hcs =>
    have hall : ∀ d ∈ c :: cs, isNameChar d = true := List.all_eq_true.mp hn
    rw [hcs, List.cons_append, List.cons_append, opcode, takeWhile_append_of_stops hall hr]
    rfl

theorem word_printed {c : Char} {cs : List Char} (hc : isNameChar c = true)
    (hcs : ∀ d ∈ cs, isWordChar d = true) (hr : Stops isWordChar rest) :
    word (c :: cs ++ rest) = some (c :: cs).length := by
  rw [List.cons_append, word, if_pos hc, takeWhile_append_of_stops hcs hr]
  rfl

end Lexeme

namespace Terminal

def canStart : Terminal → Char → Bool
  | .newline, c => c = '\n' || c = '\r'
  | .id, c => c = '%'
  | .equals, c => c = '='
  | .opcode, c => c = 'O'
  | .string, c => c = '"'
  | .number, c => isSign c || c.isDigit
  | .word, c => isNameChar c

theorem length?_eq_none {t : Terminal} {c : Char} (h : t.canStart c = false) (cs : List Char) :
    t.length? (c :: cs) = none := by
  cases t with
  | number =>
    obtain ⟨hs, hd⟩ := Bool.or_eq_false_iff.mp h
    exact Lexeme.number_length?_eq_none hs hd cs
  | word => simp_all [canStart, length?, Lexeme.word]
  | newline | id | equals | opcode | string =>
    simp only [canStart, Bool.or_eq_false_iff, decide_eq_false_iff_not] at h
    simp only [length?, Lexeme.newline, Lexeme.id, Lexeme.equals, Lexeme.opcode, Lexeme.string]
    split <;> simp_all

/-- A lexeme is part of the text. -/
theorem length?_le {t : Terminal} {cs : List Char} {n : Nat} (h : t.length? cs = some n) :
    n ≤ cs.length := by
  cases t with
  | number => exact (Pattern.length?_bounds Lexeme.number_advances Lexeme.number_consumes h).2
  | newline =>
    simp only [length?, Lexeme.newline] at h
    split at h
    case h_1 cs | h_2 cs =>
      have hrun := Lexeme.newlineRun_le false cs
      obtain rfl := Option.some.inj h
      simp only [List.length_cons]
      omega
    case h_3 => cases h
  | id | opcode | word =>
    simp only [length?, Lexeme.id, Lexeme.opcode, Lexeme.word] at h
    grind [Lexeme.takeWhile_length_le]
  | equals =>
    simp only [length?, Lexeme.equals] at h
    grind
  | string =>
    simp only [length?, Lexeme.string] at h
    split at h
    case h_1 cs =>
      obtain ⟨m, hm, rfl⟩ := Option.map_eq_some_iff.mp h
      exact Nat.succ_le_succ (Lexeme.stringTail_le hm)
    case h_2 => cases h

end Terminal

private theorem findSome?_of_first {α β : Type} [DecidableEq α] {f : α → Option β} {x : α} {y : β}
    {xs : List α} (hx : x ∈ xs) (hy : f x = some y)
    (h : ∀ u ∈ xs.takeWhile (· ≠ x), f u = none) : xs.findSome? f = some y := by
  induction xs with
  | nil => cases hx
  | cons z xs ih =>
    by_cases hz : z = x
    · rw [List.findSome?_cons, hz, hy]
    · rw [List.takeWhile_cons_of_pos (by simp [hz])] at h
      obtain ⟨hzn, hrest⟩ := List.forall_mem_cons.mp h
      have hmem : x ∈ xs := (List.mem_cons.mp hx).resolve_left (Ne.symm hz)
      rw [List.findSome?_cons, hzn]
      exact ih hmem hrest

namespace Phase

/-- A terminal that is allowed and matches is read if none of those tried before it does. -/
theorem scan_of_first {p q : Phase} {t : Terminal} {cs : List Char} {n : Nat}
    (hq : p.next? t = some q) (hn : t.length? cs = some n)
    (h : ∀ u ∈ Terminal.byPriority.takeWhile (· ≠ t), p.next? u = none ∨ u.length? cs = none) :
    p.scan cs = some (t, q, n) := by
  refine findSome?_of_first (Terminal.mem_byPriority t) ?_ fun u hu => ?_
  · rw [hq, hn]
    rfl
  · rcases h u hu with hu | hu
    · rw [hu]
      rfl
    · rw [hu]
      cases p.next? u <;> rfl

/-- The same where the terminals tried before cannot start with the first character. -/
theorem scan_of_head {p q : Phase} {t : Terminal} {c : Char} {cs : List Char} {n : Nat}
    (hq : p.next? t = some q) (hn : t.length? (c :: cs) = some n)
    (h : ∀ u ∈ Terminal.byPriority.takeWhile (· ≠ t), p.next? u = none ∨ u.canStart c = false) :
    p.scan (c :: cs) = some (t, q, n) :=
  scan_of_first hq hn fun u hu => (h u hu).imp_right fun hc => Terminal.length?_eq_none hc cs

end Phase

theorem Solid.not_mem {p : Char → Bool} (hp : Solid p) {c : Char} (hc : p c = true) :
    c ∉ delimiters := fun hd => by
  rw [hp.eq_false hd] at hc
  cases hc

/-- No blanks and no comment stand before a character that is no delimiter. -/
theorem gap_eq_zero {c : Char} (hc : c ∉ delimiters) (cs : List Char) :
    gap false (c :: cs) = 0 := by
  simp only [delimiters, List.mem_cons, List.not_mem_nil, or_false, not_or] at hc
  simp [gap, isBlank, hc]

namespace Numeral

private theorem splitSign_decimal (n : Int) :
    splitSign (toString n).toList = (decide (n < 0), Nat.toDigits 10 n.natAbs) := by
  rw [Number.toList_toString]
  by_cases hn : n < 0
  · simp [hn, splitSign]
  · obtain ⟨c, cs, hcs⟩ :=
      List.exists_cons_of_ne_nil (Nat.toDigits_ne_nil (b := 10) (n := n.natAbs))
    have hc : c.isDigit = true :=
      Nat.isDigit_of_mem_toDigits (n := n.natAbs) (by decide) (by decide) (hcs ▸ List.mem_cons_self)
    have hminus : c ≠ '-' := by
      rintro rfl
      cases hc
    have hplus : c ≠ '+' := by
      rintro rfl
      cases hc
    rw [if_neg hn, List.nil_append, hcs, splitSign]
    · simp [hn]
    · exact fun cs' he => hminus (List.cons.inj he).1
    · exact fun cs' he => hplus (List.cons.inj he).1

/-- The decimal text of an integer is read as that integer. -/
theorem read_decimal {n : Int} (h : Number.isWritable n = true) :
    read (toString n).toList = .ok (.int n) := by
  have hdigits : ∀ c ∈ Nat.toDigits 10 n.natAbs, c.isDigit = true := fun c hc =>
    Nat.isDigit_of_mem_toDigits (by decide) (by decide) hc
  have hlen : ¬ Number.maxDigits < (Nat.toDigits 10 n.natAbs).length :=
    Nat.not_lt.mpr ((Number.isWritable_iff n).mp h)
  have hvalue : signed (decide (n < 0)) (ofDecimal (Nat.toDigits 10 n.natAbs)) = n := by
    unfold signed ofDecimal
    rw [Nat.ofDigitChars_toDigits (by decide) (by decide)]
    by_cases hn : n < 0
    · rw [decide_eq_true hn]
      show -(n.natAbs : Int) = n
      omega
    · rw [decide_eq_false hn]
      show (n.natAbs : Int) = n
      omega
  have hplain : ((Nat.toDigits 10 n.natAbs).any fun c => c = '.' || isDecimalMark c) = false := by
    rw [List.any_eq_false]
    intro c hc hmark
    have hd := hdigits c hc
    simp only [isDecimalMark, Bool.or_eq_true, decide_eq_true_eq] at hmark
    rcases hmark with rfl | rfl | rfl <;> cases hd
  unfold read
  rw [splitSign_decimal]
  dsimp only
  split
  case h_1 ds hds =>
    have hx : 'x'.isDigit = true := hdigits 'x' (by rw [hds]; simp)
    cases hx
  case h_2 ds hds =>
    have hx : 'X'.isDigit = true := hdigits 'X' (by rw [hds]; simp)
    cases hx
  case h_3 => rw [hplain, if_neg hlen, hvalue]; rfl

end Numeral

theorem exists_of_isPlainWord {text : String} (h : isPlainWord text = true) :
    ∃ c cs, text.toList = c :: cs ∧ isNameChar c = true ∧ (∀ d ∈ cs, isWordChar d = true) ∧
      Lexeme.number.length? (c :: cs) = none := by
  unfold isPlainWord at h
  split at h
  case h_2 => cases h
  case h_1 c cs hcs =>
    rw [Bool.and_eq_true, Bool.and_eq_true, List.all_eq_true, Option.isNone_iff_eq_none] at h
    exact ⟨c, cs, hcs, h.1.1, h.1.2, h.2⟩

/-- Signs, quotes and line breaks do not begin a name. -/
theorem Terminal.canStart_eq_false {c : Char} (hc : isNameChar c = true) {t : Terminal}
    (ht : t = .newline ∨ t = .id ∨ t = .string) : t.canStart c = false := by
  have hne {d : Char} (hd : isNameChar d = false) : c ≠ d := by
    rintro rfl
    rw [hc] at hd
    cases hd
  rcases ht with rfl | rfl | rfl
  · simp [canStart, hne (d := '\n') (by decide), hne (d := '\r') (by decide)]
  · exact decide_eq_false (hne (by decide))
  · exact decide_eq_false (hne (by decide))

theorem Lexeme.number_printed (n : Int) {rest : List Char} (hr : Delimited rest) :
    number.length? ((toString n).toList ++ rest) = some (toString n).toList.length := by
  obtain ⟨sign, c, cs, htext, hsign, hdigits⟩ := Number.exists_sign_digits n
  rw [(number_local hr).length?_append, htext]
  exact number_length?_decimal hsign (List.cons_ne_nil c cs) hdigits

/-- A word is read whole: no number stands at its start, and nothing else that is tried before words
can begin as it does. -/
theorem Phase.scan_plainWord {text : String} (h : isPlainWord text = true) {rest : List Char}
    (hr : Delimited rest) :
    operands.scan (text.toList ++ rest) = some (.word, .operands, text.toList.length) := by
  obtain ⟨c, cs, hcs, hc, hall, hnone⟩ := exists_of_isPlainWord h
  have hword := Lexeme.word_printed hc hall (hr.stops (p := isWordChar) (by decide))
  rw [hcs]
  refine scan_of_first (t := .word) rfl hword fun u hu => ?_
  cases u with
  | number =>
    right
    show Lexeme.number.length? (c :: cs ++ rest) = none
    rw [(Lexeme.number_local hr).length?_append, hnone]
  | newline | id | string =>
    exact .inr (Terminal.length?_eq_none (Terminal.canStart_eq_false hc (by simp)) _)
  | equals | opcode => exact .inl rfl
  | word => exact absurd hu (by decide)

namespace Operand

def terminal : Operand → Terminal
  | .id _ => .id
  | .string _ => .string
  | .int _ | .float _ => .number
  | .word _ => .word

theorem terminal_ne_newline (o : Operand) : o.terminal ≠ .newline := by cases o <;> nofun

section Printed

variable {o : Operand} (h : o.isPrintable = true)
include h

theorem exists_printed_cons : ∃ c cs, o.printed = c :: cs ∧ c ∉ delimiters := by
  cases o with
  | id name => exact ⟨'%', _, rfl, by decide⟩
  | string text => exact ⟨'"', _, rfl, by decide⟩
  | float value => cases h
  | int value =>
    have hprinted : (Operand.int value).printed = (toString value).toList := rfl
    obtain ⟨sign, c, cs, htext, hsign, hdigits⟩ := Number.exists_sign_digits value
    rw [hprinted, htext]
    rcases hsign with rfl | rfl
    · have hc : c.isDigit = true := hdigits c List.mem_cons_self
      exact ⟨c, cs, rfl, Solid.not_mem (p := Char.isDigit) (by decide) hc⟩
    · exact ⟨'-', c :: cs, rfl, by decide⟩
  | word text =>
    obtain ⟨c, cs, hcs, hc, -, -⟩ := exists_of_isPlainWord h
    exact ⟨c, cs, hcs, Solid.not_mem (p := isNameChar) (by decide) hc⟩

/-- Before a delimiter, a printed operand is read as one token. -/
theorem scan_printed {rest : List Char} (hr : Delimited rest) :
    Phase.operands.scan (o.printed ++ rest) = some (o.terminal, .operands, o.printed.length) := by
  cases o with
  | id name =>
    have hid := Lexeme.id_printed h (hr.stops (p := isIdChar) (by decide))
    exact Phase.scan_of_head (t := .id) rfl hid (by decide)
  | string text =>
    exact Phase.scan_of_head (t := .string) rfl (Lexeme.string_printed text.toList) (by decide)
  | float value => cases h
  | int value =>
    exact Phase.scan_of_first (t := .number) rfl (Lexeme.number_printed value hr)
      fun u hu => by cases hu
  | word text => exact Phase.scan_plainWord h hr

theorem operand_printed (offset line : Nat) :
    Token.operand ⟨o.terminal, o.printed, offset, line⟩ = .ok o := by
  cases o with
  | id name =>
    show Except.ok (Operand.id (String.ofList name.toList)) = _
    rw [String.ofList_toList]
  | string text =>
    have htext : unquote (Operand.string text).printed = text.toList := by
      unfold unquote printed
      rw [List.drop_one, List.tail_cons, List.dropLast_concat, unescape_escape]
    show Except.ok (Operand.string (String.ofList (unquote (Operand.string text).printed))) = _
    rw [htext, String.ofList_toList]
  | float value => cases h
  | int value => exact Numeral.read_decimal h
  | word text =>
    show Except.ok (Operand.word (String.ofList text.toList)) = _
    rw [String.ofList_toList]

end Printed

end Operand
end ShaderReflection.Assembly
