import ShaderReflection.Assembly.Token
import ShaderReflection.Proofs.Number.DecimalText

/-! Matches that end before a delimiter. A pattern whose characters are no delimiters finds the same
matches in a text whatever follows behind a delimiter. -/
namespace ShaderReflection.Assembly

open Text (Stops)

/-- The characters that end every token but a string: blanks, the start of a comment, and those of a
line break. -/
def delimiters : List Char := [' ', '\t', ';', '\n', '\r']

def Delimited (cs : List Char) : Prop := ∀ c ∈ cs.head?, c ∈ delimiters

def Solid (p : Char → Bool) : Prop := (delimiters.all fun c => !p c) = true

instance (p : Char → Bool) : Decidable (Solid p) := instDecidableEqBool _ _

theorem Solid.eq_false {p : Char → Bool} (hp : Solid p) {c : Char} (hc : c ∈ delimiters) :
    p c = false := Bool.not_eq_true' _ ▸ List.all_eq_true.mp hp c hc

theorem Delimited.stops {p : Char → Bool} {cs : List Char} (h : Delimited cs) (hp : Solid p) :
    Stops p cs := fun c hc => hp.eq_false (h c hc)

def Cut.extend (rest : List Char) (s : Cut) : Cut := ⟨s.taken, s.rest ++ rest⟩

namespace Pattern

/-- A pattern that finds the same matches when more text follows. -/
def Local (rest : List Char) (a : Pattern) : Prop :=
  ∀ s, a (s.extend rest) = (a s).map (Cut.extend rest)

section Local

variable {rest : List Char} {p : Char → Bool} {a b : Pattern}

theorem one_local (hr : Stops p rest) : (one p).Local rest := by
  intro s
  obtain ⟨n, cs⟩ := s
  cases cs with
  | nil =>
    cases rest with
    | nil => rfl
    | cons c rest => simp [one, Cut.extend, hr c rfl]
  | cons c cs => by_cases h : p c <;> simp [one, Cut.extend, h]

theorem runFrom_extend (hr : Stops p rest) (n : Nat) (found : List Cut)
    (cs : List Char) :
    runFrom p n (found.map (Cut.extend rest)) (cs ++ rest) =
      (runFrom p n found cs).map (Cut.extend rest) := by
  induction cs generalizing n found with
  | nil =>
    cases rest with
    | nil => rfl
    | cons c rest => simp [runFrom, Cut.extend, hr c rfl]
  | cons c cs ih =>
    rw [List.cons_append, runFrom, runFrom]
    split
    · exact ih (n + 1) (⟨n, c :: cs⟩ :: found)
    · rfl

theorem many_local (hr : Stops p rest) : (many p).Local rest := fun s =>
  runFrom_extend hr s.taken [] s.rest

theorem Local.seq (ha : a.Local rest) (hb : b.Local rest) : (a.seq b).Local rest := by
  intro s
  unfold Pattern.seq
  rw [ha s, List.flatMap_map, List.map_flatMap]
  exact congrArg (List.flatMap · (a s)) (funext hb)

theorem Local.alt (ha : a.Local rest) (hb : b.Local rest) : (a.alt b).Local rest := by
  intro s
  unfold Pattern.alt
  rw [ha s, hb s, List.map_append]

theorem Local.opt (ha : a.Local rest) : a.opt.Local rest := by
  intro s
  unfold Pattern.opt
  rw [ha s, List.map_append]
  rfl

theorem Local.before (ha : a.Local rest) {allowed : List Char → Bool}
    (h : ∀ cs, allowed (cs ++ rest) = allowed cs) : (a.before allowed).Local rest := by
  intro s
  unfold Pattern.before
  rw [ha s, List.filter_map]
  exact congrArg (fun q => ((a s).filter q).map _) (funext fun t => h t.rest)

theorem many1_local (hr : Stops p rest) : (many1 p).Local rest :=
  (one_local hr).seq (many_local hr)

theorem Local.length?_append (ha : a.Local rest) (cs : List Char) :
    a.length? (cs ++ rest) = a.length? cs := by
  have h : a ⟨0, cs ++ rest⟩ = (a ⟨0, cs⟩).map (Cut.extend rest) := ha ⟨0, cs⟩
  unfold length?
  rw [h, List.head?_map, Option.map_map]
  rfl

end Local

section Preferred

variable {p : Char → Bool} {a b : Pattern} {s t u : Cut}

theorem head?_seq (ha : (a s).head? = some t) (hb : (b t).head? = some u) :
    (a.seq b s).head? = some u := by
  obtain ⟨ts, hts⟩ := List.head?_eq_some_iff.mp ha
  unfold seq
  rw [hts, List.flatMap_cons, List.head?_append, hb]
  rfl

theorem head?_opt_of_eq_nil (h : a s = []) : (a.opt s).head? = some s := by
  unfold opt
  rw [h]
  rfl

theorem head?_runFrom {cs : List Char} (h : ∀ c ∈ cs, p c = true) (n : Nat) (found : List Cut) :
    (runFrom p n found cs).head? = some ⟨n + cs.length, []⟩ := by
  induction cs generalizing n found with
  | nil => rfl
  | cons c cs ih =>
    obtain ⟨hc, hcs⟩ := List.forall_mem_cons.mp h
    rw [runFrom, if_pos hc, ih hcs, List.length_cons, Nat.add_right_comm, Nat.add_assoc]

theorem head?_many1 {c : Char} {cs : List Char} (h : ∀ d ∈ c :: cs, p d = true) (n : Nat) :
    (many1 p ⟨n, c :: cs⟩).head? = some ⟨n + (c :: cs).length, []⟩ := by
  obtain ⟨hc, hcs⟩ := List.forall_mem_cons.mp h
  have hone : (one p ⟨n, c :: cs⟩).head? = some ⟨n + 1, cs⟩ := by simp [one, hc]
  have hmany : (many p ⟨n + 1, cs⟩).head? = some ⟨n + 1 + cs.length, []⟩ :=
    head?_runFrom hcs (n + 1) []
  unfold many1
  rw [head?_seq hone hmany, List.length_cons, Nat.add_right_comm, Nat.add_assoc]

end Preferred

end Pattern

namespace Lexeme

open Pattern

section Number

variable {rest : List Char}

private theorem mayFollowNumber_append (hr : Delimited rest) (cs : List Char) :
    mayFollowNumber (cs ++ rest) = mayFollowNumber cs := by
  cases cs with
  | cons c cs => rfl
  | nil =>
    cases rest with
    | nil => rfl
    | cons c rest =>
      have hc : (c.isAlpha || c = '_') = false :=
        hr.stops (p := fun c => c.isAlpha || c = '_') (by decide) c rfl
      simp only [List.nil_append, mayFollowNumber, hc]
      rfl

/-- What follows a number behind a delimiter does not matter to it. -/
theorem number_local (hr : Delimited rest) : number.Local rest := by
  have hmark : hexMark.Local rest :=
    (one_local (hr.stops (by decide))).seq (one_local (hr.stops (by decide)))
  have hexponent : exponentDigits.Local rest :=
    (one_local (hr.stops (by decide))).opt.seq (many1_local (hr.stops (by decide)))
  have hfloat : hexFloat.Local rest := hmark.seq <| (many1_local (hr.stops (by decide))).seq <|
    ((one_local (hr.stops (by decide))).seq (many_local (hr.stops (by decide)))).opt.seq <|
      (one_local (hr.stops (by decide))).seq hexponent
  have hinteger : hexInteger.Local rest := hmark.seq (many1_local (hr.stops (by decide)))
  have hdecimal : decimal.Local rest := (many1_local (hr.stops (by decide))).seq <|
    ((one_local (hr.stops (by decide))).seq (many1_local (hr.stops (by decide)))).opt.seq <|
      ((one_local (hr.stops (by decide))).seq hexponent).opt
  exact ((one_local (hr.stops (by decide))).opt.seq (hfloat.alt (hinteger.alt hdecimal))).before
    (mayFollowNumber_append hr)

/-- A number begins with a sign or a digit. -/
theorem number_length?_eq_none {c : Char} (hs : isSign c = false) (hd : c.isDigit = false)
    (cs : List Char) : number.length? (c :: cs) = none := by
  have hzero : c ≠ '0' := by
    rintro rfl
    cases hd
  simp [number, Pattern.length?, Pattern.before, Pattern.seq, Pattern.opt, Pattern.alt, one, hs,
    hexFloat, hexInteger, hexMark, decimal, many1, hzero, hd]

theorem decimal_head? {c : Char} {cs : List Char} (h : ∀ d ∈ c :: cs, d.isDigit = true) (n : Nat) :
    (decimal ⟨n, c :: cs⟩).head? = some ⟨n + (c :: cs).length, []⟩ :=
  head?_seq (head?_many1 h n) (head?_seq (head?_opt_of_eq_nil rfl) (head?_opt_of_eq_nil rfl))

private theorem hexMark_eq_nil {cs : List Char} (h : ∀ d ∈ cs, d.isDigit = true) (n : Nat) :
    hexMark ⟨n, cs⟩ = [] := by
  match cs with
  | [] => rfl
  | [c] => by_cases hc : c = '0' <;> simp [hexMark, Pattern.seq, one, hc]
  | c :: d :: cs =>
    have hd : d.isDigit = true := h d (by simp)
    have hx : ¬ (d = 'x' ∨ d = 'X') := by
      rintro (rfl | rfl) <;> cases hd
    by_cases hc : c = '0' <;> simp [hexMark, Pattern.seq, one, hc, hx]

/-- Digits with at most a minus sign before them are one number. -/
theorem number_length?_decimal {sign cs : List Char} (hs : sign = [] ∨ sign = ['-'])
    (hne : cs ≠ []) (h : ∀ d ∈ cs, d.isDigit = true) :
    number.length? (sign ++ cs) = some (sign ++ cs).length := by
  obtain ⟨c, cs, rfl⟩ := List.exists_cons_of_ne_nil hne
  have hbody (n : Nat) : (hexFloat.alt (hexInteger.alt decimal) ⟨n, c :: cs⟩).head? =
      some ⟨n + (c :: cs).length, []⟩ := by
    have hmark := hexMark_eq_nil h n
    simp only [Pattern.alt, hexFloat, hexInteger, Pattern.seq, hmark, List.flatMap_nil,
      List.nil_append]
    exact decimal_head? h n
  have hsign : (opt (one isSign) ⟨0, sign ++ c :: cs⟩).head? = some ⟨sign.length, c :: cs⟩ := by
    rcases hs with rfl | rfl
    · have hc : isSign c = false := by
        have hdigit := h c List.mem_cons_self
        refine Bool.eq_false_iff.mpr fun hsign => ?_
        simp only [isSign, Bool.or_eq_true, decide_eq_true_eq] at hsign
        rcases hsign with rfl | rfl <;> cases hdigit
      exact head?_opt_of_eq_nil (by simp [one, hc])
    · rfl
  obtain ⟨ts, hts⟩ := List.head?_eq_some_iff.mp (head?_seq hsign (hbody sign.length))
  unfold Pattern.length? number Pattern.before
  rw [hts, List.filter_cons_of_pos rfl, List.length_append]
  rfl

end Number

end Lexeme
end ShaderReflection.Assembly
