import Mathlib.Computability.RegularExpressions
import ShaderReflection.Assembly.Token

/-! The grammar of listings as a regular expression over terminals. The phases in which tokens are
read are an automaton for it: from each phase the rest of a listing is read that the grammar allows
there. -/
namespace ShaderReflection.Assembly

open Computability

namespace Grammar

open RegularExpression (char)

def optional (r : RegularExpression Terminal) : RegularExpression Terminal := 1 + r

def operand : RegularExpression Terminal :=
  char .id + char .string + char .number + char .word

def instruction : RegularExpression Terminal :=
  optional (char .id * char .equals) * (char .opcode * operand.star)

/-- At most one line break, instructions with a line break behind each, and at most one more. -/
def listing : RegularExpression Terminal :=
  optional (char .newline) *
    ((instruction * char Terminal.newline).star * optional instruction)

end Grammar

def Sentence (ts : List Terminal) : Prop := ts ∈ Grammar.listing.matches'

def Viable (ts : List Terminal) : Prop := ∃ rest, Sentence (ts ++ rest)

def Allows (read : List Terminal) (t : Terminal) : Prop := Viable (read ++ [t])

namespace Phase

open Grammar

def afterOpcode (lines : Language Terminal) : Language Terminal :=
  operand.matches'∗ * (1 + {[.newline]} * lines)

def lines : Language Terminal :=
  (instruction.matches' * {[.newline]})∗ * (1 + instruction.matches')

def language : Phase → Language Terminal
  | .start => listing.matches'
  | .lineStart => lines
  | .afterResult => {[.equals]} * ({[.opcode]} * afterOpcode lines)
  | .afterEquals => {[.opcode]} * afterOpcode lines
  | .operands => afterOpcode lines

section Equations

/-- An instruction with what may follow it. -/
theorem instruction_mul (l : Language Terminal) :
    instruction.matches' * (1 + {[.newline]} * l) =
      {[.id]} * ({[.equals]} * ({[.opcode]} * afterOpcode l)) + {[.opcode]} * afterOpcode l := by
  have hmatches : instruction.matches' =
      (1 + {[.id]} * {[.equals]}) * ({[.opcode]} * operand.matches'∗) := rfl
  rw [hmatches]
  unfold afterOpcode
  simp only [add_mul, one_mul, mul_assoc]
  exact add_comm _ _

theorem lines_eq : lines = 1 + ({[.id]} * ({[.equals]} * ({[.opcode]} * afterOpcode lines)) +
    {[.opcode]} * afterOpcode lines) := by
  have hstar := Language.one_add_self_mul_kstar_eq_kstar
    (instruction.matches' * ({[.newline]} : Language Terminal))
  have hunfold : lines = 1 + instruction.matches' * (1 + {[.newline]} * lines) := by
    conv_lhs => unfold lines; rw [← hstar]
    unfold lines
    simp only [add_mul, mul_add, one_mul, mul_one, mul_assoc]
    ac_rfl
  rwa [instruction_mul] at hunfold

theorem afterOpcode_eq (l : Language Terminal) :
    afterOpcode l = 1 + {[.newline]} * l + ({[.id]} * afterOpcode l + {[.string]} * afterOpcode l +
      {[.number]} * afterOpcode l + {[.word]} * afterOpcode l) := by
  have hmatches : operand.matches' = {[.id]} + {[.string]} + {[.number]} + {[.word]} := rfl
  have hstar := Language.one_add_self_mul_kstar_eq_kstar operand.matches'
  conv_lhs => unfold afterOpcode; rw [← hstar]
  unfold afterOpcode
  rw [hmatches]
  simp only [add_mul, one_mul, mul_assoc]

theorem listing_eq : listing.matches' = lines + {[.newline]} * lines := by
  have hmatches : listing.matches' = (1 + {[.newline]}) * lines := rfl
  rw [hmatches, add_mul, one_mul]

end Equations

section Steps

variable {t u : Terminal} {ts : List Terminal} {l : Language Terminal}

theorem nil_mem_singleton_mul : [] ∈ ({[t]} : Language Terminal) * l ↔ False := by
  refine iff_of_false ?_ not_false
  rintro ⟨_, rfl, ts, -, h⟩
  cases h

theorem cons_mem_singleton_mul :
    u :: ts ∈ ({[t]} : Language Terminal) * l ↔ u = t ∧ ts ∈ l := by
  constructor
  · rintro ⟨_, rfl, ts', hts, h⟩
    obtain ⟨rfl, rfl⟩ := List.cons.inj h
    exact ⟨rfl, hts⟩
  · rintro ⟨rfl, hts⟩
    exact ⟨[u], rfl, ts, hts, rfl⟩

theorem nil_mem_lines : [] ∈ lines := by
  rw [lines_eq]
  exact .inl rfl

theorem cons_mem_lines :
    t :: ts ∈ lines ↔ ∃ q, lineStart.next? t = some q ∧ ts ∈ q.language := by
  rw [lines_eq]
  simp only [Language.mem_add, Language.mem_one, cons_mem_singleton_mul]
  cases t <;> simp [next?, language]

theorem nil_mem_language (p : Phase) : [] ∈ p.language ↔ p.isFinal = true := by
  cases p with
  | start =>
    rw [language, listing_eq]
    exact iff_of_true (.inl nil_mem_lines) rfl
  | lineStart => exact iff_of_true nil_mem_lines rfl
  | afterResult | afterEquals => simp [language, isFinal, nil_mem_singleton_mul]
  | operands =>
    rw [language, afterOpcode_eq]
    exact iff_of_true (.inl (.inl rfl)) rfl

/-- One terminal leads from what may follow in a phase to what may follow in the next one. -/
theorem cons_mem_language (p : Phase) :
    t :: ts ∈ p.language ↔ ∃ q, p.next? t = some q ∧ ts ∈ q.language := by
  cases p with
  | start =>
    rw [language, listing_eq, Language.mem_add, cons_mem_lines, cons_mem_singleton_mul]
    cases t <;> simp [next?, language]
  | lineStart => exact cons_mem_lines
  | afterResult | afterEquals =>
    simp only [language, cons_mem_singleton_mul]
    cases t <;> simp [next?]
  | operands =>
    rw [language, afterOpcode_eq]
    simp only [Language.mem_add, Language.mem_one, cons_mem_singleton_mul]
    cases t <;> simp [next?, language]

end Steps

/-- The phase after several terminals, if the grammar allows them. -/
def after? (p : Phase) (ts : List Terminal) : Option Phase := ts.foldlM next? p

@[simp] theorem after?_nil (p : Phase) : p.after? [] = some p := rfl

@[simp] theorem after?_cons (p : Phase) (t : Terminal) (ts : List Terminal) :
    p.after? (t :: ts) = (p.next? t).bind (·.after? ts) := rfl

@[simp] theorem after?_concat (p : Phase) (ts : List Terminal) (t : Terminal) :
    p.after? (ts ++ [t]) = (p.after? ts).bind (·.next? t) := by
  unfold after?
  rw [List.foldlM_append]
  cases List.foldlM next? p ts <;> simp

/-- What follows some terminals is what may follow in the phase after them. -/
theorem append_mem_language (p : Phase) (read rest : List Terminal) :
    read ++ rest ∈ p.language ↔ ∃ q, p.after? read = some q ∧ rest ∈ q.language := by
  induction read generalizing p with
  | nil => simp
  | cons t read ih =>
    rw [List.cons_append, cons_mem_language, after?_cons]
    simp only [ih, Option.bind_eq_some_iff]
    grind

theorem mem_language_iff (p : Phase) (ts : List Terminal) :
    ts ∈ p.language ↔ ∃ q, p.after? ts = some q ∧ q.isFinal = true := by
  have h := append_mem_language p ts []
  rw [List.append_nil] at h
  simp only [nil_mem_language] at h
  exact h

/-- No phase is a dead end. -/
theorem exists_mem_language (p : Phase) : ∃ rest, rest ∈ p.language := by
  simp only [mem_language_iff]
  cases p with
  | start => exact ⟨[], .start, rfl, rfl⟩
  | lineStart => exact ⟨[], .lineStart, rfl, rfl⟩
  | afterResult => exact ⟨[.equals, .opcode], .operands, rfl, rfl⟩
  | afterEquals => exact ⟨[.opcode], .operands, rfl, rfl⟩
  | operands => exact ⟨[], .operands, rfl, rfl⟩

end Phase

section Prefixes

variable {read : List Terminal}

theorem sentence_iff :
    Sentence read ↔ ∃ p, Phase.start.after? read = some p ∧ p.isFinal = true :=
  Phase.mem_language_iff .start read

theorem viable_iff : Viable read ↔ ∃ p, Phase.start.after? read = some p := by
  constructor
  · rintro ⟨rest, h⟩
    obtain ⟨p, hp, -⟩ := (Phase.append_mem_language .start read rest).mp h
    exact ⟨p, hp⟩
  · rintro ⟨p, hp⟩
    obtain ⟨rest, hrest⟩ := p.exists_mem_language
    exact ⟨rest, (Phase.append_mem_language .start read rest).mpr ⟨p, hp, hrest⟩⟩

theorem allows_iff {p : Phase} (hp : Phase.start.after? read = some p) {t : Terminal} :
    Allows read t ↔ ∃ q, p.next? t = some q := by
  unfold Allows
  rw [viable_iff, Phase.after?_concat, hp]
  rfl

end Prefixes

end ShaderReflection.Assembly
