import ShaderReflection.Proofs.Assembly.Scanning

/-! Where a newline token ends. It takes in everything up to the next instruction, and at the end of a
text it goes on with what stands behind. -/
namespace ShaderReflection.Assembly

open Lexeme (newlineRun)

section Runs

variable {inComment : Bool}

private theorem of_runStep_eq_none {c : Char} {next : Option Char}
    (h : runStep inComment c next = none) :
    isBlank c = false ∧ c ≠ ';' ∧ (c ≠ '\r' → ∀ next', runStep inComment c next' = none) := by
  unfold runStep at h ⊢
  grind

/-- What goes on with a token at the end of a text goes on with it before a line feed, too. -/
private theorem runStep_before_newline {c : Char} {next : Bool}
    (h : runStep inComment c none = some next) :
    ∃ next', runStep inComment c (some '\n') = some next' := by
  unfold runStep at h ⊢
  grind

variable {xs : List Char}

/-- A newline token ends before a character that could go on with it, and all the same if something
else stands behind that character. -/
theorem newlineRun_stops {c : Char} {ys : List Char}
    (h : newlineRun inComment (xs ++ c :: ys) = xs.length) :
    isBlank c = false ∧ c ≠ ';' ∧
      (c ≠ '\r' → ∀ zs, newlineRun inComment (xs ++ c :: zs) = xs.length) := by
  induction xs generalizing inComment with
  | nil =>
    rw [List.nil_append, newlineRun_cons_eq] at h
    cases hstep : runStep inComment c ys.head? with
    | some next =>
      rw [hstep] at h
      cases h
    | none =>
      obtain ⟨hb, hs, hnext⟩ := of_runStep_eq_none hstep
      refine ⟨hb, hs, fun hr zs => ?_⟩
      rw [List.nil_append, newlineRun_cons_eq, hnext hr]
      rfl
  | cons x xs ih =>
    rw [List.cons_append, newlineRun_cons_eq] at h
    have hhead (zs : List Char) : (xs ++ c :: zs).head? = (xs ++ [c]).head? := by cases xs <;> rfl
    cases hrun : runStep inComment x (xs ++ [c]).head? with
    | none =>
      rw [hhead, hrun] at h
      cases h
    | some next =>
      rw [hhead, hrun] at h
      obtain ⟨hb, hs, hrest⟩ := ih (Nat.succ.inj h)
      refine ⟨hb, hs, fun hr zs => ?_⟩
      rw [List.cons_append, newlineRun_cons_eq, hhead, hrun]
      exact congrArg (· + 1) (hrest hr zs)

/-- A newline token at the end of a text goes on with a line feed behind it. -/
theorem newlineRun_append_newline (h : newlineRun inComment xs = xs.length) (cs : List Char) :
    newlineRun inComment (xs ++ '\n' :: cs) = xs.length + 1 + newlineRun false cs := by
  induction xs generalizing inComment with
  | nil =>
    rw [List.nil_append, newlineRun, List.length_nil]
    omega
  | cons x xs ih =>
    rw [newlineRun_cons_eq] at h
    rw [List.cons_append, newlineRun_cons_eq]
    cases hstep : runStep inComment x xs.head? with
    | none =>
      rw [hstep] at h
      cases h
    | some next =>
      rw [hstep] at h
      cases xs with
      | nil =>
        obtain ⟨next', hnext⟩ := runStep_before_newline hstep
        rw [List.nil_append, List.head?_cons, hnext, Option.elim_some, newlineRun,
          List.length_singleton]
        omega
      | cons y ys =>
        rw [List.head?_cons] at hstep
        have hrun := ih (Nat.succ.inj h)
        rw [List.cons_append] at hrun
        rw [List.cons_append, List.head?_cons, hstep, Option.elim_some, hrun]
        simp only [List.length_cons]
        omega

theorem newlineRun_of_newline {cs : List Char} {n : Nat} (h : Lexeme.newline cs = some n) :
    newlineRun false cs = n := by
  unfold Lexeme.newline at h
  split at h
  · obtain rfl := Option.some.inj h
    rw [newlineRun]
  · obtain rfl := Option.some.inj h
    rw [newlineRun]
  · cases h

/-- Whether a newline token begins does not depend on what stands behind it. -/
theorem newline_append_eq {lexeme rest : List Char}
    (h : Lexeme.newline (lexeme ++ rest) = some lexeme.length) (cs : List Char) :
    Lexeme.newline (lexeme ++ cs) = some (newlineRun false (lexeme ++ cs)) := by
  match lexeme with
  | [] =>
    have hpos := Terminal.length?_pos (t := .newline) h
    cases hpos
  | [c] =>
    unfold Lexeme.newline at h
    split at h
    case h_1 hc =>
      obtain rfl := (List.cons.inj hc).1
      rw [List.singleton_append, Lexeme.newline, newlineRun]
    case h_2 => cases h
    case h_3 => cases h
  | c :: d :: lexeme =>
    unfold Lexeme.newline at h
    split at h
    case h_1 hc =>
      obtain rfl := (List.cons.inj hc).1
      rw [List.cons_append, Lexeme.newline, newlineRun]
    case h_2 hc =>
      obtain ⟨rfl, hd⟩ := List.cons.inj hc
      obtain rfl := (List.cons.inj hd).1
      rw [List.cons_append, List.cons_append, Lexeme.newline, newlineRun]
    case h_3 => cases h

section AtEnd

variable {swallowed rest : List Char}
  (hrun : newlineRun false (swallowed ++ rest) = swallowed.length)
include hrun

theorem newline_cons_swallowed :
    Lexeme.newline ('\n' :: swallowed ++ rest) = some ('\n' :: swallowed).length := by
  rw [List.cons_append, Lexeme.newline, hrun, List.length_cons]

/-- A newline token at the end of a text takes in a line feed behind it and what that swallows. -/
theorem newline_append_swallowed {lexeme : List Char}
    (h : Lexeme.newline lexeme = some lexeme.length) :
    Lexeme.newline (lexeme ++ '\n' :: swallowed ++ rest) =
      some (lexeme ++ '\n' :: swallowed).length := by
  have hend := newlineRun_append_newline (newlineRun_of_newline h) (swallowed ++ rest)
  have hnil : Lexeme.newline (lexeme ++ []) = some lexeme.length := by rwa [List.append_nil]
  rw [List.append_assoc, newline_append_eq hnil, List.cons_append, hend, hrun, List.length_append,
    List.length_cons, Nat.add_right_comm, Nat.add_assoc]

end AtEnd

/-- Blanks and a comment would be swallowed by a newline token before them. -/
theorem Skips.newlineRun_append {skipped rest : List Char} (h : Skips skipped rest) :
    newlineRun false (skipped ++ rest) = skipped.length + newlineRun false rest := by
  cases h with
  | blanks hb _ => exact newlineRun_blank_append hb rest
  | @comment bs text _ hb ht hr =>
    rw [List.append_assoc, newlineRun_blank_append hb, List.cons_append,
      newlineRun_cons (by decide) (by decide), if_neg (by decide), if_neg (by decide), if_pos rfl,
      List.length_append, List.length_cons]
    cases rest with
    | nil =>
      rw [List.append_nil, newlineRun_comment ht, newlineRun]
      omega
    | cons c rest =>
      obtain rfl := hr c rfl
      rw [newlineRun_comment_append ht, newlineRun]
      omega

/-- Nothing is dropped behind a newline token. -/
theorem Skips.eq_nil_of_newline {skipped rest lexeme : List Char} (h : Skips skipped rest)
    (hlexeme : Lexeme.newline (lexeme ++ (skipped ++ rest)) = some lexeme.length) :
    skipped = [] := by
  cases skipped with
  | nil => rfl
  | cons c skipped =>
    obtain ⟨hb, hs, -⟩ := newlineRun_stops (newlineRun_of_newline hlexeme)
    rcases h.head with hblank | hcomment
    · rw [hb] at hblank
      cases hblank
    · exact absurd hcomment hs

end Runs

end ShaderReflection.Assembly
