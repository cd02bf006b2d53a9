import ShaderReflection.Proofs.Assembly.Lexemes

/-! Reading a listing from some place on. Blanks and comments are passed over, and a lexeme gives a
token. -/
namespace ShaderReflection.Assembly

theorem tokensFrom_eq (p : Phase) (offset line : Nat) (cs : List Char) :
    tokensFrom p offset line cs =
      if cs.drop (gap false cs) = [] then ([], if p.isFinal then .complete else .truncated)
      else
        match p.scan (cs.drop (gap false cs)) with
        | none => ([], .stuck (offset + gap false cs))
        | some (t, q, n) =>
          let text := (cs.drop (gap false cs)).take n
          let (ts, ending) := tokensFrom q (offset + gap false cs + n) (line + lineBreaks text)
            ((cs.drop (gap false cs)).drop n)
          (⟨t, text, offset + gap false cs, line⟩ :: ts, ending) := by
  rw [tokensFrom]
  dsimp only
  split
  · rfl
  · split
    case h_1 h => rw [h]
    case h_2 t q n h => rw [h]

theorem tokensFrom_skip {skipped cs : List Char}
    (h : gap false (skipped ++ cs) = skipped.length + gap false cs) (p : Phase)
    (offset line : Nat) :
    tokensFrom p offset line (skipped ++ cs) =
      tokensFrom p (offset + skipped.length) line cs := by
  have hdrop : (skipped ++ cs).drop (gap false (skipped ++ cs)) = cs.drop (gap false cs) := by
    rw [h, ← List.drop_drop, List.drop_left]
  rw [tokensFrom_eq, tokensFrom_eq _ _ _ cs, hdrop, h, Nat.add_assoc]

theorem tokensFrom_lexeme {p q : Phase} {t : Terminal} {lexeme cs : List Char}
    (hgap : gap false (lexeme ++ cs) = 0)
    (hscan : p.scan (lexeme ++ cs) = some (t, q, lexeme.length)) (offset line : Nat) :
    tokensFrom p offset line (lexeme ++ cs) =
      (⟨t, lexeme, offset, line⟩ ::
          (tokensFrom q (offset + lexeme.length) (line + lineBreaks lexeme) cs).1,
        (tokensFrom q (offset + lexeme.length) (line + lineBreaks lexeme) cs).2) := by
  have hpos : 0 < lexeme.length := Terminal.length?_pos (Phase.scan_eq_some hscan).2
  have hne : lexeme ++ cs ≠ [] := by
    rintro h
    rw [(List.append_eq_nil_iff.mp h).1] at hpos
    cases hpos
  rw [tokensFrom_eq, hgap, List.drop_zero, if_neg hne, hscan]
  simp only [List.take_left, List.drop_left, Nat.add_zero]

/-- Behind some text, a listing can be read to its end, and gives tokens with a property. -/
def Reads (p : Phase) (before cs : List Char) (P : List Token → Prop) : Prop :=
  ∃ ts, tokensFrom p before.length (lineBreaks before + 1) cs = (ts, .complete) ∧ P ts

def tokenAt (before : List Char) (t : Terminal) (lexeme : List Char) : Token :=
  ⟨t, lexeme, before.length, lineBreaks before + 1⟩

namespace Reads

variable {p q : Phase} {before cs : List Char} {P Q : List Token → Prop}

theorem nil (hp : p.isFinal = true) (hP : P []) : Reads p before [] P := by
  refine ⟨[], ?_, hP⟩
  rw [tokensFrom_eq]
  simp [hp]

theorem skip {skipped : List Char}
    (hgap : gap false (skipped ++ cs) = skipped.length + gap false cs)
    (hline : lineBreaks skipped = 0) (h : Reads p (before ++ skipped) cs P) :
    Reads p before (skipped ++ cs) P := by
  obtain ⟨ts, hts, hP⟩ := h
  refine ⟨ts, ?_, hP⟩
  unfold lineBreaks at hts hline
  rw [List.length_append, List.count_append, hline] at hts
  rw [tokensFrom_skip hgap]
  exact hts

theorem lexeme {t : Terminal} {text : List Char} (hgap : gap false (text ++ cs) = 0)
    (hscan : p.scan (text ++ cs) = some (t, q, text.length)) (h : Reads q (before ++ text) cs Q)
    (hP : ∀ ts, Q ts → P (tokenAt before t text :: ts)) : Reads p before (text ++ cs) P := by
  obtain ⟨ts, hts, hQ⟩ := h
  refine ⟨tokenAt before t text :: ts, ?_, hP ts hQ⟩
  have hline : lineBreaks before + 1 + lineBreaks text = lineBreaks (before ++ text) + 1 := by
    unfold lineBreaks
    rw [List.count_append]
    omega
  rw [List.length_append] at hts
  rw [tokensFrom_lexeme hgap hscan, hline, hts]
  rfl

theorem imp (h : Reads p before cs P) (hPQ : ∀ ts, P ts → Q ts) : Reads p before cs Q := by
  obtain ⟨ts, hts, hP⟩ := h
  exact ⟨ts, hts, hPQ ts hP⟩

end Reads

section Blanks

theorem gap_blank_append {bs : List Char} (h : bs.all isBlank = true) (cs : List Char) :
    gap false (bs ++ cs) = bs.length + gap false cs := by
  induction bs with
  | nil => simp
  | cons b bs ih =>
    rw [List.all_cons, Bool.and_eq_true] at h
    have hb : b ≠ '\n' := by
      rintro rfl
      cases h.1
    rw [List.cons_append, gap, if_neg hb, if_neg (by decide), if_pos h.1, ih h.2, List.length_cons]
    omega

theorem lineBreaks_append (cs ds : List Char) :
    lineBreaks (cs ++ ds) = lineBreaks cs + lineBreaks ds := List.count_append

theorem lineBreaks_eq_zero {cs : List Char} (h : '\n' ∉ cs) : lineBreaks cs = 0 :=
  List.count_eq_zero.mpr h

theorem newline_not_mem_of_blank {bs : List Char} (h : bs.all isBlank = true) : '\n' ∉ bs := by
  intro hmem
  have hb := List.all_eq_true.mp h _ hmem
  cases hb

theorem Reads.blanks {p : Phase} {before bs cs : List Char} {P : List Token → Prop}
    (hb : bs.all isBlank = true) (h : Reads p (before ++ bs) cs P) : Reads p before (bs ++ cs) P :=
  h.skip (gap_blank_append hb cs) (lineBreaks_eq_zero (newline_not_mem_of_blank hb))

def AtLineEnd (cs : List Char) : Prop := ∀ c ∈ cs.head?, c = '\n'

theorem gap_of_atLineEnd {cs : List Char} (h : AtLineEnd cs) (inComment : Bool) :
    gap inComment cs = 0 := by
  cases cs with
  | nil => rfl
  | cons c cs =>
    obtain rfl : c = '\n' := h c rfl
    rfl

theorem gap_comment_append {text cs : List Char} (h : '\n' ∉ text) (hcs : AtLineEnd cs) :
    gap true (text ++ cs) = text.length := by
  induction text with
  | nil => exact gap_of_atLineEnd hcs true
  | cons c text ih =>
    rw [List.mem_cons, not_or] at h
    rw [List.cons_append, gap, if_neg (Ne.symm h.1), if_pos rfl, ih h.2, List.length_cons]

theorem Reads.comment {p : Phase} {before text cs : List Char} {P : List Token → Prop}
    (ht : '\n' ∉ text) (hcs : AtLineEnd cs) (h : Reads p (before ++ ';' :: text) cs P) :
    Reads p before (';' :: text ++ cs) P := by
  refine h.skip ?_ (lineBreaks_eq_zero ?_)
  · have hgap := gap_comment_append ht hcs
    rw [gap_of_atLineEnd hcs, List.cons_append, gap, if_neg (by decide), if_neg (by decide),
      if_neg (by decide), if_pos rfl, hgap]
    rfl
  · rw [List.mem_cons, not_or]
    exact ⟨by decide, ht⟩

end Blanks

section LineBreaks

open Lexeme (newlineRun)

theorem newlineRun_cons {c : Char} (hn : c ≠ '\n') (hr : c ≠ '\r') (inComment : Bool)
    (cs : List Char) :
    newlineRun inComment (c :: cs) =
      if inComment then newlineRun true cs + 1
      else if isBlank c then newlineRun false cs + 1
      else if c = ';' then newlineRun true cs + 1
      else 0 := by
  rw [newlineRun]
  · exact hn
  · exact fun _ hc => absurd hc hr

/-- Whether a comment goes on behind a character of a newline token; none if the token ends before
it. Outside a comment a carriage return only counts with the line feed that follows. -/
def runStep (inComment : Bool) (c : Char) (next : Option Char) : Option Bool :=
  if c = '\n' then some false
  else if c = '\r' ∧ next = some '\n' then some inComment
  else if inComment then some true
  else if isBlank c then some false
  else if c = ';' then some true
  else none

theorem newlineRun_cons_eq (inComment : Bool) (c : Char) (cs : List Char) :
    newlineRun inComment (c :: cs) =
      (runStep inComment c cs.head?).elim 0 (newlineRun · cs + 1) := by
  unfold runStep
  by_cases hn : c = '\n'
  · subst hn
    rw [newlineRun, if_pos rfl]
    rfl
  by_cases hr : c = '\r' ∧ cs.head? = some '\n'
  · obtain ⟨rfl, hhead⟩ := hr
    obtain ⟨tail, rfl⟩ := List.head?_eq_some_iff.mp hhead
    rw [newlineRun, if_neg (by decide), if_pos ⟨rfl, rfl⟩, Option.elim_some, newlineRun]
  · rw [if_neg hn, if_neg hr, newlineRun]
    · cases inComment <;> cases isBlank c <;> by_cases hc : c = ';' <;> simp [hc]
    · exact hn
    · rintro tail rfl rfl
      exact hr ⟨rfl, rfl⟩

theorem newlineRun_blank_append {bs : List Char} (h : bs.all isBlank = true) (cs : List Char) :
    newlineRun false (bs ++ cs) = bs.length + newlineRun false cs := by
  induction bs with
  | nil => simp
  | cons b bs ih =>
    rw [List.all_cons, Bool.and_eq_true] at h
    have hne {d : Char} (hd : isBlank d = false) : b ≠ d := by
      rintro rfl
      rw [h.1] at hd
      cases hd
    rw [List.cons_append, newlineRun_cons (hne (by decide)) (hne (by decide)), if_neg (by decide),
      if_pos h.1, ih h.2, List.length_cons]
    omega

theorem newlineRun_carriageReturn {cs : List Char} (h : cs.head? ≠ some '\n') :
    newlineRun true ('\r' :: cs) = newlineRun true cs + 1 := by
  cases cs with
  | nil => rfl
  | cons d cs =>
    have hd : d ≠ '\n' := by
      rintro rfl
      exact h rfl
    rw [newlineRun]
    · rfl
    · decide
    · intro cs' _ he
      exact hd (List.cons.inj he).1

theorem head?_ne_newline {text : List Char} (h : '\n' ∉ text) : text.head? ≠ some '\n' := fun hd =>
  h (List.mem_of_mem_head? hd)

theorem newlineRun_comment {text : List Char} (h : '\n' ∉ text) :
    newlineRun true text = text.length := by
  induction text with
  | nil => rfl
  | cons c text ih =>
    rw [List.mem_cons, not_or] at h
    by_cases hr : c = '\r'
    · rw [hr, newlineRun_carriageReturn (head?_ne_newline h.2), ih h.2, List.length_cons]
    · rw [newlineRun_cons (Ne.symm h.1) hr, if_pos rfl, ih h.2, List.length_cons]

/-- A comment ends with its line, also where a carriage return stands before the line feed. -/
theorem newlineRun_comment_append {text : List Char} (h : '\n' ∉ text) (cs : List Char) :
    newlineRun true (text ++ '\n' :: cs) = text.length + 1 + newlineRun false cs := by
  induction text with
  | nil =>
    rw [List.nil_append, newlineRun]
    simp
    omega
  | cons c text ih =>
    rw [List.mem_cons, not_or] at h
    by_cases hr : c = '\r'
    · subst hr
      cases text with
      | nil =>
        rw [List.cons_append, List.nil_append, newlineRun]
        simp
        omega
      | cons d text =>
        have hhead : (d :: text ++ '\n' :: cs).head? ≠ some '\n' := by
          intro hd
          exact head?_ne_newline h.2 hd
        rw [List.cons_append, newlineRun_carriageReturn hhead, ih h.2]
        simp only [List.length_cons]
        omega
    · rw [List.cons_append, newlineRun_cons (Ne.symm h.1) hr, if_pos rfl, ih h.2, List.length_cons]
      omega

/-- A text that belongs to one newline token, whatever follows. -/
def Swallows (text : List Char) : Prop :=
  ∀ cs, Lexeme.newline (text ++ cs) = some (text.length + newlineRun false cs)

/-- What a line break has before the line feed. -/
def LineEnd.carry : LineEnd → List Char
  | .lf => []
  | .crlf => ['\r']

theorem LineEnd.text_eq (e : LineEnd) : e.text = e.carry ++ ['\n'] := by cases e <;> rfl

theorem LineEnd.newline_not_mem_carry (e : LineEnd) : '\n' ∉ e.carry := by cases e <;> decide

theorem swallows_lf : Swallows ['\n'] := fun cs => by
  rw [List.singleton_append, Lexeme.newline, List.length_singleton, Nat.add_comm]

theorem LineEnd.swallows (e : LineEnd) : Swallows e.text := by
  cases e with
  | lf => exact swallows_lf
  | crlf =>
    intro cs
    show Lexeme.newline ('\r' :: '\n' :: cs) = _
    rw [Lexeme.newline, Nat.add_comm]
    rfl

theorem LineEnd.newlineRun_append (e : LineEnd) (cs : List Char) :
    newlineRun false (e.text ++ cs) = e.text.length + newlineRun false cs := by
  have h (n : Nat) : newlineRun false cs + n = n + newlineRun false cs := Nat.add_comm _ _
  cases e with
  | lf => exact h 1
  | crlf => exact h 2

/-- A line without an instruction is swallowed with the line break behind it. -/
theorem Filler.newlineRun_append (f : Filler) (e : LineEnd) (cs : List Char) :
    newlineRun false (f.text ++ (e.text ++ cs)) =
      f.text.length + (e.text.length + newlineRun false cs) := by
  unfold text
  rw [List.append_assoc, newlineRun_blank_append f.blanks.blank, List.length_append]
  cases f.comment with
  | none =>
    simp only [Option.elim_none, List.nil_append, List.length_nil]
    rw [e.newlineRun_append]
    omega
  | some c =>
    have hcarry : '\n' ∉ c.text ++ e.carry := by
      rw [List.mem_append, not_or]
      exact ⟨c.oneLine, e.newline_not_mem_carry⟩
    have htext : c.text ++ (e.text ++ cs) = c.text ++ e.carry ++ '\n' :: cs := by
      rw [e.text_eq]
      simp
    simp only [Option.elim_some, List.cons_append]
    rw [htext, newlineRun_cons (by decide) (by decide), if_neg (by decide), if_neg (by decide),
      if_pos rfl, newlineRun_comment_append hcarry, e.text_eq]
    simp only [List.length_append, List.length_cons, List.length_nil]
    omega

theorem Filler.newlineRun_eq (f : Filler) : newlineRun false f.text = f.text.length := by
  unfold text
  rw [newlineRun_blank_append f.blanks.blank, List.length_append]
  cases f.comment with
  | none => rfl
  | some c =>
    simp only [Option.elim_some]
    rw [newlineRun_cons (by decide) (by decide), if_neg (by decide), if_neg (by decide), if_pos rfl,
      newlineRun_comment c.oneLine]
    rfl

theorem Swallows.append_line {text : List Char} (h : Swallows text) (f : Filler) (e : LineEnd) :
    Swallows (text ++ (f.text ++ e.text)) := by
  intro cs
  rw [List.append_assoc, List.append_assoc, h, f.newlineRun_append, List.length_append,
    List.length_append]
  congr 1
  omega

theorem newline_head {cs : List Char} {n : Nat} (h : Lexeme.newline cs = some n) :
    ∃ c rest, cs = c :: rest ∧ (c = '\n' ∨ c = '\r') := by
  unfold Lexeme.newline at h
  split at h
  · exact ⟨_, _, rfl, .inl rfl⟩
  · exact ⟨_, _, rfl, .inr rfl⟩
  · cases h

theorem gap_of_newline {cs : List Char} {n : Nat} (h : Lexeme.newline cs = some n) :
    gap false cs = 0 := by
  obtain ⟨c, rest, rfl, hc⟩ := newline_head h
  rcases hc with rfl | rfl <;> rfl

/-- A newline token is read wherever one stands and is allowed. -/
theorem Phase.scan_newline {p q : Phase} {cs : List Char} {n : Nat} (hq : p.next? .newline = some q)
    (h : Lexeme.newline cs = some n) : p.scan cs = some (.newline, q, n) := by
  obtain ⟨c, rest, rfl, hc⟩ := newline_head h
  have hnumber : Terminal.number.canStart c = false := by rcases hc with rfl | rfl <;> decide
  refine scan_of_head hq h fun u hu => ?_
  obtain rfl : u = .number := List.mem_singleton.mp hu
  exact .inr hnumber

/-- The newline token reaches over the indentation of the next line that holds an instruction. -/
theorem Reads.newline {p : Phase} {before text skipped cs : List Char} {P Q : List Token → Prop}
    (hp : p = .start ∨ p = .operands) (ht : Swallows text)
    (hrun : newlineRun false (skipped ++ cs) = skipped.length)
    (h : Reads .lineStart (before ++ (text ++ skipped)) cs Q)
    (hP : ∀ ts, Q ts → P (tokenAt before .newline (text ++ skipped) :: ts)) :
    Reads p before (text ++ (skipped ++ cs)) P := by
  have hlexeme : Lexeme.newline (text ++ skipped ++ cs) = some (text ++ skipped).length := by
    rw [List.append_assoc, ht, hrun, List.length_append]
  have hq : p.next? .newline = some .lineStart := by rcases hp with rfl | rfl <;> rfl
  rw [← List.append_assoc]
  exact h.lexeme (gap_of_newline hlexeme) (Phase.scan_newline hq hlexeme) hP

end LineBreaks

end ShaderReflection.Assembly
