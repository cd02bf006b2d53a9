import ShaderReflection.Proofs.Assembly.PatternLanguage
import ShaderReflection.Proofs.Assembly.Scanning

/-! The texts that terminals stand for, as languages. What a terminal finds at the beginning of a text
is its longest match there. -/
namespace ShaderReflection.Assembly

open Computability

namespace Spelling

def lineBreak : Language Char := (1 + oneOf (· = '\r')) * oneOf (· = '\n')

def comment : Language Char := oneOf (· = ';') * (oneOf (· ≠ '\n'))∗

/-- A line break with blanks and a comment on the line below it. -/
def emptyLine : Language Char := lineBreak * ((oneOf isBlank)∗ * (1 + comment))

def newline : Language Char := emptyLine * emptyLine∗

def id : Language Char := oneOf (· = '%') * someOf isIdChar

def opcode : Language Char := oneOf (· = 'O') * (oneOf (· = 'p') * someOf isNameChar)

/-- A backslash covers the next character unless that ends the line. -/
def stringChar : Language Char :=
  oneOf (fun c => c ≠ '"' && c ≠ '\\') + oneOf (· = '\\') * oneOf (· ≠ '\n')

def string : Language Char := oneOf (· = '"') * (stringChar∗ * oneOf (· = '"'))

def word : Language Char := oneOf isNameChar * (oneOf isWordChar)∗

def sign : Language Char := 1 + oneOf isSign

def exponent : Language Char := sign * someOf Char.isDigit

def hexMark : Language Char := oneOf (· = '0') * oneOf fun c => c = 'x' || c = 'X'

def hexFloat : Language Char :=
  hexMark * (someOf isHexDigit * ((1 + oneOf (· = '.') * (oneOf isHexDigit)∗) *
    (oneOf (fun c => c = 'p' || c = 'P') * exponent)))

def hexInteger : Language Char := hexMark * someOf isHexDigit

def decimal : Language Char :=
  someOf Char.isDigit * ((1 + oneOf (· = '.') * someOf Char.isDigit) *
    (1 + oneOf (fun c => c = 'e' || c = 'E') * exponent))

def number : Language Char := sign * (hexFloat + (hexInteger + decimal))

end Spelling

namespace Terminal

def spelling : Terminal → Language Char
  | .newline => Spelling.newline
  | .id => Spelling.id
  | .equals => oneOf (· = '=')
  | .opcode => Spelling.opcode
  | .string => Spelling.string
  | .number => Spelling.number
  | .word => Spelling.word

/-- A text that a terminal stands for, before another text. No letter and no underscore follows a
number. -/
structure Matches (t : Terminal) (w rest : List Char) : Prop where
  spelled : w ∈ t.spelling
  follow : t = .number → ∀ c ∈ rest.head?, c.isAlpha = false ∧ c ≠ '_'

/-- What a terminal finds at the beginning of a text is its longest match. -/
structure FindsLongest (t : Terminal) : Prop where
  sound {cs : List Char} {n : Nat} (h : t.length? cs = some n) : t.Matches (cs.take n) (cs.drop n)
  longest {w rest : List Char} (h : t.Matches w rest) :
    ∃ n, t.length? (w ++ rest) = some n ∧ w.length ≤ n

end Terminal

section Runs

variable {p : Char → Bool} {cs w : List Char}

theorem take_takeWhile (p : Char → Bool) (cs : List Char) :
    cs.take (cs.takeWhile p).length = cs.takeWhile p :=
  (List.prefix_iff_eq_take.mp (List.takeWhile_prefix p)).symm

theorem length_le_takeWhile (h : ∀ c ∈ w, p c = true) (rest : List Char) :
    w.length ≤ ((w ++ rest).takeWhile p).length := by
  rw [List.takeWhile_append_of_pos h, List.length_append]
  exact Nat.le_add_right _ _

theorem take_mem_someOf {n : Nat} (h : (cs.takeWhile p).length = n + 1) :
    cs.take (n + 1) ∈ someOf p := by
  rw [← h, take_takeWhile, mem_someOf]
  refine ⟨fun hnil => ?_, List.all_eq_true.mp List.all_takeWhile⟩
  rw [hnil] at h
  cases h

theorem exists_takeWhile_of_someOf (h : w ∈ someOf p) (rest : List Char) :
    ∃ n, ((w ++ rest).takeWhile p).length = n + 1 ∧ w.length ≤ n + 1 := by
  obtain ⟨hne, hall⟩ := mem_someOf.mp h
  have hle := length_le_takeWhile hall rest
  obtain ⟨n, hn⟩ : ∃ n, ((w ++ rest).takeWhile p).length = n + 1 := by
    refine Nat.exists_eq_add_one.mpr (Nat.lt_of_lt_of_le ?_ hle)
    exact List.length_pos_iff.mpr hne
  exact ⟨n, hn, hn ▸ hle⟩

end Runs

namespace Terminal

theorem id_findsLongest : FindsLongest .id where
  sound {cs n} h := by
    refine ⟨?_, nofun⟩
    simp only [length?, Lexeme.id] at h
    split at h
    · split at h
      · cases h
      case h_2 hn =>
        obtain rfl := Option.some.inj h
        exact cons_mem_oneOf_mul.mpr ⟨rfl, take_mem_someOf hn⟩
    · cases h
  longest {w rest} h := by
    obtain ⟨c, v, rfl, hc, hv⟩ := exists_of_mem_oneOf_mul h.spelled
    obtain rfl := of_decide_eq_true hc
    obtain ⟨n, hn, hle⟩ := exists_takeWhile_of_someOf hv rest
    refine ⟨n + 2, ?_, ?_⟩
    · simp [length?, Lexeme.id, hn]
    · exact Nat.succ_le_succ hle

theorem opcode_findsLongest : FindsLongest .opcode where
  sound {cs n} h := by
    refine ⟨?_, nofun⟩
    simp only [length?, Lexeme.opcode] at h
    split at h
    · split at h
      · cases h
      case h_2 hn =>
        obtain rfl := Option.some.inj h
        exact cons_mem_oneOf_mul.mpr ⟨rfl, cons_mem_oneOf_mul.mpr ⟨rfl, take_mem_someOf hn⟩⟩
    · cases h
  longest {w rest} h := by
    obtain ⟨c, _, rfl, hc, hw⟩ := exists_of_mem_oneOf_mul h.spelled
    obtain ⟨d, v, rfl, hd, hv⟩ := exists_of_mem_oneOf_mul hw
    obtain rfl := of_decide_eq_true hc
    obtain rfl := of_decide_eq_true hd
    obtain ⟨n, hn, hle⟩ := exists_takeWhile_of_someOf hv rest
    refine ⟨n + 3, ?_, ?_⟩
    · simp [length?, Lexeme.opcode, hn]
    · exact Nat.succ_le_succ (Nat.succ_le_succ hle)

theorem equals_findsLongest : FindsLongest .equals where
  sound {cs n} h := by
    refine ⟨?_, nofun⟩
    simp only [length?, Lexeme.equals] at h
    split at h
    · obtain rfl := Option.some.inj h
      exact ⟨'=', rfl, rfl⟩
    · cases h
  longest {w rest} h := by
    obtain ⟨c, hc, rfl⟩ := h.spelled
    obtain rfl := of_decide_eq_true hc
    exact ⟨1, rfl, Nat.le_refl 1⟩

theorem word_findsLongest : FindsLongest .word where
  sound {cs n} h := by
    refine ⟨?_, nofun⟩
    simp only [length?, Lexeme.word] at h
    split at h
    · split at h
      case isTrue hc =>
        obtain rfl := Option.some.inj h
        rw [List.take_succ_cons, take_takeWhile]
        exact cons_mem_oneOf_mul.mpr
          ⟨hc, mem_kstar_oneOf.mpr (List.all_eq_true.mp List.all_takeWhile)⟩
      case isFalse => cases h
    · cases h
  longest {w rest} h := by
    obtain ⟨c, v, rfl, hc, hv⟩ := exists_of_mem_oneOf_mul h.spelled
    have hle := length_le_takeWhile (mem_kstar_oneOf.mp hv) rest
    exact ⟨_, if_pos hc, Nat.succ_le_succ hle⟩

end Terminal

section Strings

open Lexeme (stringTail)

def Spelling.stringTail : Language Char := stringChar∗ * oneOf (· = '"')

private theorem stringTail_eq : Spelling.stringTail =
    oneOf (· = '"') + (oneOf (fun c => c ≠ '"' && c ≠ '\\') * Spelling.stringTail +
      oneOf (· = '\\') * (oneOf (· ≠ '\n') * Spelling.stringTail)) := by
  have hstar := Language.one_add_self_mul_kstar_eq_kstar Spelling.stringChar
  conv_lhs => unfold Spelling.stringTail; rw [← hstar]
  unfold Spelling.stringTail
  rw [add_mul, one_mul, mul_assoc]
  conv_lhs => enter [2]; unfold Spelling.stringChar
  rw [add_mul, mul_assoc]
  rfl

theorem cons_mem_stringTail {c : Char} {w : List Char} : c :: w ∈ Spelling.stringTail ↔
    c = '"' ∧ w = [] ∨ (c ≠ '"' ∧ c ≠ '\\') ∧ w ∈ Spelling.stringTail ∨
      c = '\\' ∧ w ∈ oneOf (· ≠ '\n') * Spelling.stringTail := by
  conv_lhs => rw [stringTail_eq]
  simp only [Language.mem_add, cons_mem_oneOf, cons_mem_oneOf_mul, decide_eq_true_eq,
    Bool.and_eq_true]

private theorem nil_notMem_stringTail : [] ∉ Spelling.stringTail := by
  rintro ⟨v, -, _, ⟨c, -, rfl⟩, h⟩
  simp at h

theorem take_stringTail {cs : List Char} {n : Nat} (h : stringTail cs = some n) :
    cs.take n ∈ Spelling.stringTail := by
  fun_induction stringTail cs generalizing n with
  | case1 | case3 | case5 => cases h
  | case2 =>
    obtain rfl := Option.some.inj h
    exact cons_mem_stringTail.mpr (.inl ⟨rfl, rfl⟩)
  | case4 c cs hc ih =>
    obtain ⟨m, hm, rfl⟩ := Option.map_eq_some_iff.mp h
    refine cons_mem_stringTail.mpr (.inr (.inr ⟨rfl, cons_mem_oneOf_mul.mpr ⟨?_, ih hm⟩⟩))
    exact decide_eq_true hc
  | case6 c cs hq hn he hb ih =>
    obtain ⟨m, hm, rfl⟩ := Option.map_eq_some_iff.mp h
    have hbackslash : c ≠ '\\' := by
      rintro rfl
      cases cs with
      | nil => exact hb rfl rfl
      | cons d cs => exact he d cs rfl rfl
    exact cons_mem_stringTail.mpr (.inr (.inl ⟨⟨hq, hbackslash⟩, ih hm⟩))

theorem stringTail_of_mem {w : List Char} (h : w ∈ Spelling.stringTail) :
    stringTail w = some w.length := by
  fun_induction stringTail w with
  | case1 => exact absurd h nil_notMem_stringTail
  | case2 w =>
    have hw : w = [] := by simpa using cons_mem_stringTail.mp h
    rw [hw]
    rfl
  | case3 => simpa [cons_mem_oneOf_mul] using cons_mem_stringTail.mp h
  | case4 c w hc ih =>
    have hw : c ≠ '\n' ∧ w ∈ Spelling.stringTail := by
      simpa [cons_mem_oneOf_mul] using cons_mem_stringTail.mp h
    rw [ih hw.2]
    rfl
  | case5 => simpa [nil_mem_oneOf_mul] using cons_mem_stringTail.mp h
  | case6 c w hq hn he hb ih =>
    rcases cons_mem_stringTail.mp h with ⟨hc, -⟩ | ⟨-, hw⟩ | ⟨rfl, hw⟩
    · exact absurd hc hq
    · rw [ih hw]
      rfl
    · cases w with
      | nil => exact (hb rfl rfl).elim
      | cons d w => exact (he d w rfl rfl).elim

theorem Terminal.string_findsLongest : FindsLongest .string where
  sound {cs n} h := by
    refine ⟨?_, nofun⟩
    simp only [length?, Lexeme.string] at h
    split at h
    · obtain ⟨m, hm, rfl⟩ := Option.map_eq_some_iff.mp h
      exact cons_mem_oneOf_mul.mpr ⟨rfl, take_stringTail hm⟩
    · cases h
  longest {w rest} h := by
    obtain ⟨c, v, rfl, hc, hv⟩ := exists_of_mem_oneOf_mul h.spelled
    obtain rfl := of_decide_eq_true hc
    have htail : stringTail (v ++ rest) = some v.length :=
      Lexeme.stringTail_append (stringTail_of_mem hv)
    refine ⟨v.length + 1, ?_, Nat.le_refl _⟩
    simp [length?, Lexeme.string, htail]

end Strings

end ShaderReflection.Assembly
