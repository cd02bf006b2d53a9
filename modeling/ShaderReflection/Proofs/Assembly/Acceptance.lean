import ShaderReflection.Proofs.Assembly.Grammar
import ShaderReflection.Proofs.Assembly.LongestLexeme

/-! Which texts are listings, and where others fail. Tokens are read from left to right: blanks and
comments are dropped, and only terminals that the grammar allows next compete for the text. A text is
accepted just if its tokens are a sentence; otherwise it is refused at the first place where no
terminal fits, or at its last token if it ends too early. -/
namespace ShaderReflection.Assembly

def kinds (ts : List Token) : List Terminal := ts.map (·.terminal)

def NoneFits (read : List Terminal) (cs : List Char) : Prop :=
  ∀ t, Allows read t → ∀ w rest, cs = w ++ rest → ¬t.Matches w rest

/-- The terminal that is read next, with its lexeme. It is one that the grammar allows, and a number
if one stands there and is allowed. -/
structure Chosen (read : List Terminal) (t : Terminal) (lexeme rest : List Char) : Prop where
  allowed : Allows read t
  isLexeme : t.IsLexeme lexeme rest
  numberFirst : t ≠ .number → Allows read .number →
    ∀ w rest', lexeme ++ rest = w ++ rest' → ¬Terminal.number.Matches w rest'

/-- Tokens at the beginning of a text, with the part that they were read from and the part that is
left. -/
inductive Lexed (source : List Char) : List Char → List Token → List Char → Prop where
  | start : Lexed source [] [] source
  | token {before skipped lexeme rest : List Char} {ts : List Token} {t : Terminal}
      (h : Lexed source before ts (skipped ++ (lexeme ++ rest)))
      (hs : Skips skipped (lexeme ++ rest)) (hc : Chosen (kinds ts) t lexeme rest) :
      Lexed source (before ++ skipped ++ lexeme) (ts ++ [tokenAt (before ++ skipped) t lexeme]) rest

def TokensOf (source : List Char) (ts : List Token) : Prop :=
  ∃ before skipped, Lexed source before ts skipped ∧ Skips skipped []

/-- Where a text cannot continue, once tokens have been read with which a listing can begin. -/
inductive FailsAt (source : List Char) : Nat → Prop where
  /-- No terminal that is allowed fits behind the last token. -/
  | stuck {before skipped rest : List Char} {ts : List Token}
      (h : Lexed source before ts (skipped ++ rest)) (hv : Viable (kinds ts))
      (hs : Skips skipped rest) (hne : rest ≠ [])
      (hnone : NoneFits (kinds ts) rest) :
      FailsAt source (before ++ skipped).length
  /-- The text ends behind a token where a listing cannot end. -/
  | truncated {before skipped : List Char} {ts : List Token} {t : Token}
      (h : Lexed source before (ts ++ [t]) skipped) (hv : Viable (kinds (ts ++ [t])))
      (hs : Skips skipped []) (hn : ¬Sentence (kinds (ts ++ [t]))) : FailsAt source t.offset

/-- The line and the column of an offset, both counted from 1. The column counts the characters
since the last line break. -/
def PositionOf (source : List Char) (offset line column : Nat) : Prop :=
  ∃ above current, source.take offset = above ++ current ∧ '\n' ∉ current ∧
    (above = [] ∨ above.getLast? = some '\n') ∧
    line = 1 + lineBreaks (source.take offset) ∧ column = 1 + current.length

section Choice

variable {read : List Terminal} {p : Phase} (hp : Phase.start.after? read = some p)
include hp

/-- Scanning finds the terminal that is read next. -/
theorem chosen_iff {t : Terminal} {lexeme rest : List Char} :
    Chosen read t lexeme rest ↔ ∃ q, p.scan (lexeme ++ rest) = some (t, q, lexeme.length) := by
  simp only [Phase.scan_eq_some_iff]
  constructor
  · intro h
    obtain ⟨q, hq⟩ := (allows_iff hp).mp h.allowed
    refine ⟨q, hq, Terminal.isLexeme_iff.mp h.isLexeme, fun htn => ?_⟩
    cases hr : p.next? .number with
    | none => exact .inl rfl
    | some r =>
      have hnone := h.numberFirst htn ((allows_iff hp).mpr ⟨r, hr⟩)
      exact .inr (Terminal.length?_eq_none_iff.mpr hnone)
  · rintro ⟨q, hq, hn, hnumber⟩
    refine ⟨(allows_iff hp).mpr ⟨q, hq⟩, Terminal.isLexeme_iff.mpr hn, fun htn hallowed => ?_⟩
    obtain ⟨r, hr⟩ := (allows_iff hp).mp hallowed
    refine Terminal.length?_eq_none_iff.mp ((hnumber htn).resolve_left ?_)
    rw [hr]
    exact Option.some_ne_none r

/-- Scanning finds nothing just if no terminal that is allowed matches. -/
theorem scan_eq_none_iff {cs : List Char} : p.scan cs = none ↔ NoneFits read cs := by
  unfold Phase.scan NoneFits
  rw [List.findSome?_eq_none_iff]
  simp only [← Terminal.length?_eq_none_iff]
  constructor
  · intro h t ht
    obtain ⟨q, hq⟩ := (allows_iff hp).mp ht
    have hnone := h t (Terminal.mem_byPriority t)
    rw [hq] at hnone
    cases hn : t.length? cs with
    | none => rfl
    | some n =>
      rw [hn] at hnone
      cases hnone
  · intro h t _
    cases hq : p.next? t with
    | none => rfl
    | some q =>
      rw [h t ((allows_iff hp).mpr ⟨q, hq⟩)]
      rfl

end Choice

theorem Lexed.tokens_eq {source before rest : List Char} {ts : List Token}
    (h : Lexed source before ts rest) :
    source = before ++ rest ∧ ∃ p, Phase.start.after? (kinds ts) = some p ∧
      tokens source = (ts ++ (tokensFrom p before.length (lineBreaks before + 1) rest).1,
        (tokensFrom p before.length (lineBreaks before + 1) rest).2) := by
  induction h with
  | start => exact ⟨rfl, .start, rfl, rfl⟩
  | @token before skipped lexeme rest ts t _ hs hc ih =>
    obtain ⟨hsource, p, hp, htokens⟩ := ih
    obtain ⟨q, hscan⟩ := (chosen_iff hp).mp hc
    refine ⟨by rw [hsource]; simp, q, ?_, ?_⟩
    · unfold kinds at hp ⊢
      rw [List.map_append, List.map_singleton, Phase.after?_concat, hp]
      exact (Phase.scan_eq_some hscan).1
    · rw [htokens, tokensFrom_skip hs.gap_append, tokensFrom_lexeme hs.gap_rest hscan]
      have hlines : lineBreaks (before ++ skipped) = lineBreaks before := by
        rw [lineBreaks_append, hs.lineBreaks_eq, Nat.add_zero]
      have hafter : lineBreaks (before ++ skipped ++ lexeme) + 1 =
          lineBreaks before + 1 + lineBreaks lexeme := by
        rw [lineBreaks_append, hlines]
        omega
      simp only [tokenAt, hafter, hlines, List.length_append, List.append_assoc ts,
        List.singleton_append]

section Ends

variable {source before skipped rest : List Char} {ts : List Token}

/-- Where the text ends, the tokens are those of a listing just if they are a sentence. -/
theorem Lexed.tokens_of_end (h : Lexed source before ts skipped) (hs : Skips skipped []) :
    tokens source = (ts, .complete) ∧ Sentence (kinds ts) ∨
      tokens source = (ts, .truncated) ∧ ¬Sentence (kinds ts) := by
  obtain ⟨-, p, hp, htokens⟩ := h.tokens_eq
  have hend := tokensFrom_skip hs.gap_append p before.length (lineBreaks before + 1)
  rw [List.append_nil, tokensFrom_eq _ _ _ [], List.drop_nil, if_pos rfl] at hend
  rw [htokens, hend, List.append_nil, sentence_iff, hp]
  cases hfinal : p.isFinal <;> simp [hfinal]

/-- Where nothing that is allowed matches, no more tokens are read. -/
theorem Lexed.tokens_of_stuck (h : Lexed source before ts (skipped ++ rest)) (hs : Skips skipped rest)
    (hne : rest ≠ []) (hnone : NoneFits (kinds ts) rest) :
    tokens source = (ts, .stuck (before ++ skipped).length) := by
  obtain ⟨-, p, hp, htokens⟩ := h.tokens_eq
  have hscan := (scan_eq_none_iff hp).mpr hnone
  have hend := tokensFrom_skip hs.gap_append p before.length (lineBreaks before + 1)
  rw [tokensFrom_eq _ _ _ rest, hs.gap_rest, List.drop_zero, if_neg hne, hscan] at hend
  rw [htokens, hend, List.append_nil, List.length_append]
  rfl

/-- A text ends, or nothing that is allowed matches, or one more token can be read. -/
theorem Lexed.step (h : Lexed source before ts rest) :
    (∃ skipped rest', rest = skipped ++ rest' ∧ Skips skipped rest' ∧
      (rest' = [] ∨ rest' ≠ [] ∧ NoneFits (kinds ts) rest')) ∨
    ∃ before' us rest', Lexed source before' us rest' ∧ rest'.length < rest.length := by
  obtain ⟨skipped, rest', rfl, hs⟩ := exists_skips rest
  by_cases hnil : rest' = []
  · exact .inl ⟨skipped, rest', rfl, hs, .inl hnil⟩
  obtain ⟨-, p, hp, -⟩ := h.tokens_eq
  cases hscan : p.scan rest' with
  | none => exact .inl ⟨skipped, rest', rfl, hs, .inr ⟨hnil, (scan_eq_none_iff hp).mp hscan⟩⟩
  | some found =>
    obtain ⟨t, q, n⟩ := found
    obtain ⟨lexeme, tail, rfl, hpos, hlexeme⟩ := Phase.exists_lexeme hscan
    refine .inr ⟨_, _, tail, h.token hs ((chosen_iff hp).mpr ⟨q, hlexeme⟩), ?_⟩
    rw [List.length_append, List.length_append]
    omega

/-- Tokens can be read until the text ends or nothing matches. -/
theorem Lexed.exists_end (h : Lexed source before ts rest) :
    ∃ before' skipped rest' us, Lexed source before' us (skipped ++ rest') ∧ Skips skipped rest' ∧
      (rest' = [] ∨ rest' ≠ [] ∧ NoneFits (kinds us) rest') := by
  induction hlength : rest.length using Nat.strongRecOn generalizing before ts rest with
  | ind n ih =>
    rcases h.step with ⟨skipped, rest', rfl, hs, hend⟩ | ⟨before', us, rest', hread, hlt⟩
    · exact ⟨before, skipped, rest', ts, h, hs, hend⟩
    · exact ih rest'.length (hlength ▸ hlt) hread rfl

end Ends

private theorem SyntaxError.lastLine_split (cs : List Char) :
    ∃ above, cs = above ++ lastLine cs ∧ '\n' ∉ lastLine cs ∧
      (above = [] ∨ above.getLast? = some '\n') := by
  refine ⟨(cs.reverse.dropWhile (· ≠ '\n')).reverse, ?_, ?_, ?_⟩
  · unfold lastLine
    rw [← List.reverse_append, List.takeWhile_append_dropWhile, List.reverse_reverse]
  · unfold lastLine
    rw [List.mem_reverse]
    intro hmem
    have hne := List.all_eq_true.mp (List.all_takeWhile (p := (· ≠ '\n')) (l := cs.reverse)) _ hmem
    simp at hne
  · have hstop := List.head?_dropWhile_not (fun c => decide (c ≠ '\n')) cs.reverse
    rw [List.getLast?_reverse, List.reverse_eq_nil_iff]
    cases hd : cs.reverse.dropWhile (fun c => decide (c ≠ '\n')) with
    | nil => exact .inl rfl
    | cons c rest =>
      rw [hd] at hstop
      right
      simpa using hstop

theorem SyntaxError.positionOf (source : List Char) (offset : Nat) :
    PositionOf source offset (ofOffset source offset).line (ofOffset source offset).column := by
  obtain ⟨above, hsplit, hnot, habove⟩ := lastLine_split (source.take offset)
  exact ⟨above, _, hsplit, hnot, habove, Nat.add_comm _ _, Nat.add_comm _ _⟩

section Outcomes

variable {source : String} {ts : List Token}

theorem parse_of_sentence (h : TokensOf source.toList ts) (hs : Sentence (kinds ts)) :
    parse source = (instructions ts).mapError .numeral := by
  obtain ⟨before, skipped, hread, hskip⟩ := h
  rcases hread.tokens_of_end hskip with ⟨htokens, -⟩ | ⟨-, hn⟩
  · unfold parse
    dsimp only
    rw [htokens]
  · exact absurd hs hn

theorem parse_of_failsAt {offset : Nat} (h : FailsAt source.toList offset) :
    parse source = .error (.syntaxError (.ofOffset source.toList offset)) := by
  unfold parse
  dsimp only
  cases h with
  | stuck hread _ hs hne hnone => rw [hread.tokens_of_stuck hs hne hnone]
  | truncated hread _ hs hn =>
    rcases hread.tokens_of_end hs with ⟨-, hsentence⟩ | ⟨htokens, -⟩
    · exact absurd hsentence hn
    · rw [htokens]
      dsimp only
      rw [List.getLast?_concat]
      rfl

private theorem sentence_nil : Sentence [] := sentence_iff.mpr ⟨.start, rfl, rfl⟩

/-- Every text is a listing, or fails at some place. -/
theorem sentence_or_failsAt (source : List Char) :
    (∃ ts, TokensOf source ts ∧ Sentence (kinds ts)) ∨ ∃ offset, FailsAt source offset := by
  have hstart : Lexed source [] [] source := .start
  obtain ⟨before, skipped, rest, ts, hread, hs, hend⟩ := hstart.exists_end
  have hviable : Viable (kinds ts) := by
    obtain ⟨-, p, hp, -⟩ := hread.tokens_eq
    exact viable_iff.mpr ⟨p, hp⟩
  rcases hend with rfl | ⟨hne, hnone⟩
  · rw [List.append_nil] at hread
    by_cases hsentence : Sentence (kinds ts)
    · exact .inl ⟨ts, ⟨before, skipped, hread, hs⟩, hsentence⟩
    · have hts : ts ≠ [] := by
        rintro rfl
        exact hsentence sentence_nil
      rw [← List.dropLast_concat_getLast hts] at hread hviable hsentence
      exact .inr ⟨_, .truncated hread hviable hs hsentence⟩
  · exact .inr ⟨_, .stuck hread hviable hs hne hnone⟩

end Outcomes

/-- A text whose tokens are a sentence is a listing, and nothing but a number can refuse it. Every
other text is refused where it fails, whatever numbers it holds. The position of the error is that
place. -/
theorem parse_accepts_sentences (source : String) :
    (∀ ts, TokensOf source.toList ts → Sentence (kinds ts) →
      parse source = (instructions ts).mapError .numeral) ∧
    ((∃ e, parse source = .error (.syntaxError e)) ↔
      ¬∃ ts, TokensOf source.toList ts ∧ Sentence (kinds ts)) ∧
    (∀ offset, FailsAt source.toList offset →
      parse source = .error (.syntaxError (.ofOffset source.toList offset))) ∧
    ∀ e, parse source = .error (.syntaxError e) →
      ∃ offset, FailsAt source.toList offset ∧ PositionOf source.toList offset e.line e.column := by
  have hnumeral {ts : List Token} {e : SyntaxError}
      (h : (instructions ts).mapError ListingError.numeral = .error (.syntaxError e)) : False := by
    cases hts : instructions ts <;> rw [hts] at h <;> cases h
  refine ⟨fun ts => parse_of_sentence, ⟨?_, ?_⟩, fun offset => parse_of_failsAt, ?_⟩
  · rintro ⟨e, he⟩ ⟨ts, hts, hs⟩
    exact hnumeral ((parse_of_sentence hts hs).symm.trans he)
  · intro hnone
    obtain ⟨offset, hfails⟩ := (sentence_or_failsAt source.toList).resolve_left hnone
    exact ⟨_, parse_of_failsAt hfails⟩
  · intro e he
    rcases sentence_or_failsAt source.toList with ⟨ts, hts, hs⟩ | ⟨offset, hfails⟩
    · exact absurd ((parse_of_sentence hts hs).symm.trans he) hnumeral
    · have hsame := (parse_of_failsAt hfails).symm.trans he
      cases hsame
      exact ⟨offset, hfails, SyntaxError.positionOf _ _⟩

/-- A number stands where an opcode should; the number on the line above has no value. -/
example : (match parse "OpNop 0x1p9999\n%x = 42" with
    | .error (.syntaxError e) => some (e.line, e.column)
    | _ => none) = some (2, 6) := by decide +kernel

end ShaderReflection.Assembly
