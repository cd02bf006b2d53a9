import ShaderReflection.Proofs.Assembly.MovedTokens
import ShaderReflection.Proofs.Assembly.NewlineTokens

/-! Listings one behind another, with a line feed between them. The line feed belongs to one token
with the empty lines around it, so that the last token of the first listing and the first one of the
second may change; they are line breaks, which no instruction shows. -/
namespace ShaderReflection.Assembly

open Lexeme (newlineRun)

/-- A text behind another one is read to its end, and gives tokens. -/
inductive ReadsTo : Phase → List Char → List Char → List Token → Prop where
  | nil {p : Phase} {before skipped : List Char} (hs : Skips skipped []) (hp : p.isFinal = true) :
      ReadsTo p before skipped []
  | token {p q : Phase} {t : Terminal} {before skipped lexeme rest : List Char} {ts : List Token}
      (hs : Skips skipped (lexeme ++ rest))
      (hscan : p.scan (lexeme ++ rest) = some (t, q, lexeme.length))
      (h : ReadsTo q (before ++ skipped ++ lexeme) rest ts) :
      ReadsTo p before (skipped ++ (lexeme ++ rest)) (tokenAt (before ++ skipped) t lexeme :: ts)

section Reading

variable {p : Phase} {before cs : List Char} {ts : List Token}

theorem ReadsTo.reads (h : ReadsTo p before cs ts) : Reads p before cs (· = ts) := by
  induction h with
  | @nil p before skipped hs hp =>
    have hend : Reads p (before ++ skipped) [] (· = []) := Reads.nil hp rfl
    have hskip := hend.skip hs.gap_append hs.lineBreaks_eq
    rwa [List.append_nil] at hskip
  | token hs hscan _ ih =>
    exact Reads.skip hs.gap_append hs.lineBreaks_eq
      (ih.lexeme hs.gap_rest hscan fun _ hts => by rw [hts])

theorem readsTo_of_tokensFrom
    (h : tokensFrom p before.length (lineBreaks before + 1) cs = (ts, .complete)) :
    ReadsTo p before cs ts := by
  -- A lexeme takes any number of characters, so the induction is on how many are left.
  induction hlength : cs.length using Nat.strongRecOn generalizing p before cs ts with
  | ind n ih =>
    obtain ⟨skipped, rest, rfl, hs⟩ := exists_skips cs
    have hlines : lineBreaks (before ++ skipped) = lineBreaks before := by
      rw [lineBreaks_append, hs.lineBreaks_eq, Nat.add_zero]
    rw [tokensFrom_skip hs.gap_append, ← List.length_append, ← hlines] at h
    by_cases hnil : rest = []
    · subst hnil
      rw [tokensFrom_eq, List.drop_nil, if_pos rfl] at h
      rw [List.append_nil]
      cases hfinal : p.isFinal with
      | false => rw [hfinal] at h; cases h
      | true =>
        rw [hfinal] at h
        obtain rfl := congrArg Prod.fst h
        exact .nil hs hfinal
    cases hscan : p.scan rest with
    | none =>
      rw [tokensFrom_eq, hs.gap_rest, List.drop_zero, if_neg hnil, hscan] at h
      cases h
    | some found =>
      obtain ⟨t, q, n⟩ := found
      obtain ⟨lexeme, tail, rfl, hpos, hlexeme⟩ := Phase.exists_lexeme hscan
      have hafter : lineBreaks (before ++ skipped) + 1 + lineBreaks lexeme =
          lineBreaks (before ++ skipped ++ lexeme) + 1 := by
        rw [lineBreaks_append (before ++ skipped)]
        omega
      rw [tokensFrom_lexeme hs.gap_rest hlexeme, ← List.length_append, hafter] at h
      obtain ⟨rfl, hcomplete⟩ := Prod.mk.inj h
      refine .token hs hlexeme (ih tail.length ?_ (Prod.ext rfl hcomplete) rfl)
      rw [← hlength, List.length_append, List.length_append]
      omega

theorem ReadsTo.behind (h : ReadsTo p before cs ts) (above : List Char) :
    ReadsTo p (above ++ before) cs (ts.map (·.behind above)) := by
  induction h with
  | nil hs hp => exact .nil hs hp
  | token hs hscan _ ih =>
    rw [← List.append_assoc, ← List.append_assoc] at ih
    rw [List.map_cons, tokenAt_behind, ← List.append_assoc above]
    exact .token hs hscan ih

end Reading

section Joining

variable {before cs : List Char} {ts us : List Token}

/-- Behind a line break, a text is read without the newline token at its beginning, or else the blanks
and the comment that are dropped there. -/
theorem ReadsTo.exists_lineStart (h : ReadsTo .start before cs us) :
    ∃ swallowed rest us', cs = swallowed ++ rest ∧
      newlineRun false cs = swallowed.length ∧
      ReadsTo .lineStart (before ++ swallowed) rest us' ∧ instructions us' = instructions us := by
  cases h with
  | nil hs _ =>
    have hrun := hs.newlineRun_append
    rw [List.append_nil] at hrun
    exact ⟨cs, [], [], (List.append_nil cs).symm, hrun, .nil (.blanks rfl nofun) rfl, rfl⟩
  | @token _ q t _ skipped lexeme rest ts hs hscan h =>
    obtain ⟨hq, hn⟩ := Phase.scan_eq_some hscan
    by_cases ht : t = .newline
    · subst ht
      obtain rfl := Option.some.inj hq
      refine ⟨skipped ++ lexeme, rest, ts, (List.append_assoc ..).symm, ?_, ?_,
        (instructions_newline rfl ts).symm⟩
      · rw [hs.newlineRun_append, newlineRun_of_newline hn, List.length_append]
      · rwa [← List.append_assoc]
    · have hscan' := Phase.scan_lineStart ht hscan
      obtain ⟨c, tail, hcs, hc⟩ := head?_of_scan_lineStart hscan'
      have hrun : newlineRun false (lexeme ++ rest) = 0 := by
        rw [hcs]
        rcases hc with rfl | rfl <;> rfl
      have hread : ReadsTo .lineStart (before ++ skipped) (lexeme ++ rest)
          (tokenAt (before ++ skipped) t lexeme :: ts) := by
        have hnone : Skips [] (lexeme ++ rest) := by
          refine .blanks rfl fun d hd => ?_
          rw [hcs] at hd
          obtain rfl := Option.some.inj hd
          rcases hc with rfl | rfl <;> decide
        rw [← List.append_nil (before ++ skipped)] at h
        have htoken := ReadsTo.token hnone hscan' h
        rwa [List.append_nil] at htoken
      exact ⟨skipped, lexeme ++ rest, _, rfl, by rw [hs.newlineRun_append, hrun, Nat.add_zero],
        hread, rfl⟩

/-- Behind a newline token, a text ends or goes on with an instruction, and more text behind it does
not change the token. -/
private theorem ReadsTo.lineStart_cases (h : ReadsTo .lineStart before cs ts) {lexeme : List Char}
    (hlexeme : Lexeme.newline (lexeme ++ cs) = some lexeme.length) :
    cs = [] ∧ ts = [] ∨
      ts ≠ [] ∧ ∀ ds, Lexeme.newline (lexeme ++ (cs ++ ds)) = some lexeme.length := by
  cases h with
  | nil hs _ =>
    rw [← List.append_nil cs] at hlexeme
    exact .inl ⟨hs.eq_nil_of_newline hlexeme, rfl⟩
  | token hs hscan _ =>
    obtain rfl := hs.eq_nil_of_newline hlexeme
    obtain ⟨c, tail, hcs, hc⟩ := head?_of_scan_lineStart hscan
    rw [List.nil_append, hcs] at hlexeme ⊢
    refine .inr ⟨nofun, fun ds => ?_⟩
    obtain ⟨-, -, hrun⟩ := newlineRun_stops (newlineRun_of_newline hlexeme)
    have hreturn : c ≠ '\r' := by rcases hc with rfl | rfl <;> decide
    rw [newline_append_eq hlexeme, List.cons_append, hrun hreturn]

/-- A line feed behind a text goes on with the newline token at its end, or else is a token of its
own, with the empty lines that follow. -/
theorem ReadsTo.join {p : Phase} (h : ReadsTo p before cs ts) (hts : p = .lineStart → ts ≠ [])
    {swallowed rest : List Char} (hrun : newlineRun false (swallowed ++ rest) = swallowed.length)
    (hrest : ReadsTo .lineStart (before ++ cs ++ '\n' :: swallowed) rest us) :
    ∃ body t trailing, ts = body ++ trailing ∧ t.terminal = .newline ∧
      (trailing = [] ∨ ∃ u, trailing = [u] ∧ u.terminal = .newline) ∧
      ReadsTo p before (cs ++ '\n' :: (swallowed ++ rest)) (body ++ t :: us) := by
  -- By induction on the reading of the first text. Only its end changes: blanks and comments are
  -- dropped before the line feed as before the end of the text.
  induction h with
  | @nil p before skipped hs hp =>
    have hq : p.next? .newline = some .lineStart := by
      cases p with
      | start | operands => rfl
      | lineStart => exact absurd rfl (hts rfl)
      | afterResult | afterEquals => cases hp
    exact ⟨[], _, [], rfl, rfl, .inl rfl,
      .token (hs.newline _) (Phase.scan_newline hq (newline_cons_swallowed hrun)) hrest⟩
  | @token p q t before skipped lexeme tail ts hs hscan h ih =>
    have hpos : 0 < lexeme.length := Terminal.length?_pos (Phase.scan_eq_some hscan).2
    have hskips (ds : List Char) : Skips skipped (lexeme ++ ds) := by
      refine hs.of_head?_eq ?_
      cases lexeme with
      | nil => cases hpos
      | cons c lexeme => rfl
    have htext (cs : List Char) : skipped ++ (lexeme ++ tail) ++ cs =
        skipped ++ (lexeme ++ (tail ++ cs)) := by simp
    rw [← List.append_assoc before, ← List.append_assoc] at hrest
    rw [htext]
    by_cases ht : t = .newline
    · subst ht
      obtain ⟨hq, hn⟩ := Phase.scan_eq_some hscan
      obtain rfl := (Phase.next?_newline_iff hq).mp rfl
      rcases h.lineStart_cases hn with ⟨rfl, rfl⟩ | ⟨hne, hmore⟩
      -- The text ends with this newline token, which goes on with the line feed.
      · rw [List.append_nil] at hn
        have hlexeme := newline_append_swallowed hrun hn
        have hskips' : Skips skipped (lexeme ++ '\n' :: swallowed ++ rest) := by
          rw [List.append_assoc]
          exact hskips _
        rw [List.append_nil, List.append_assoc _ lexeme] at hrest
        have hread := ReadsTo.token hskips' (Phase.scan_newline hq hlexeme) hrest
        rw [List.append_assoc lexeme] at hread
        exact ⟨[], _, [_], rfl, rfl, .inr ⟨_, rfl, rfl⟩, hread⟩
      -- An instruction follows, before which the newline token ends whatever follows.
      · obtain ⟨body, u, trailing, rfl, hu, htrailing, hread⟩ := ih (fun _ => hne) hrest
        exact ⟨_ :: body, u, trailing, rfl, hu, htrailing,
          .token (hskips _) (Phase.scan_newline hq (hmore _)) hread⟩
    · have hdelimited : Delimited ('\n' :: (swallowed ++ rest)) := by
        intro c hc
        obtain rfl := Option.some.inj hc
        decide
      have hq : q ≠ .lineStart :=
        mt (Phase.next?_newline_iff (Phase.scan_eq_some hscan).1).mpr ht
      have hscan' := Phase.scan_append hdelimited ht hscan
      rw [List.append_assoc] at hscan'
      obtain ⟨body, u, trailing, rfl, hu, htrailing, hread⟩ := ih (fun h => absurd h hq) hrest
      exact ⟨_ :: body, u, trailing, rfl, hu, htrailing, .token (hskips _) hscan' hread⟩

end Joining

theorem parse_eq_ok {source : String} {is : List Instruction} :
    parse source = .ok is ↔
      ∃ ts, ReadsTo .start [] source.toList ts ∧ instructions ts = .ok is := by
  constructor
  · intro h
    unfold parse at h
    dsimp only at h
    cases htokens : tokens source.toList with
    | mk ts ending =>
      rw [htokens] at h
      cases ending with
      | truncated | stuck => cases h
      | complete =>
        dsimp only at h
        refine ⟨ts, readsTo_of_tokensFrom htokens, ?_⟩
        cases his : instructions ts with
        | error e => rw [his] at h; cases h
        | ok is' => rw [his] at h; cases h; rfl
  · rintro ⟨ts, hread, his⟩
    obtain ⟨ts', hts, hsame⟩ := hread.reads
    have htokens : tokens source.toList = (ts, .complete) := hsame ▸ hts
    unfold parse
    dsimp only
    rw [htokens]
    dsimp only
    rw [his]
    rfl

/-- Listings can be put one behind another. The instructions of the second one are the same, some
lines further down. -/
theorem parse_append_line {a b : String} {is js : List Instruction} (ha : parse a = .ok is)
    (hb : parse b = .ok js) :
    parse (a ++ "\n" ++ b) = .ok (is ++ js.map (·.lower (1 + lineBreaks a.toList))) := by
  obtain ⟨ts, hts, his⟩ := parse_eq_ok.mp ha
  obtain ⟨us, hus, hjs⟩ := parse_eq_ok.mp hb
  have hbehind := hus.behind (a.toList ++ ['\n'])
  rw [List.append_nil] at hbehind
  obtain ⟨swallowed, rest, us', hsplit, hrun, hrest, hinstructions⟩ := hbehind.exists_lineStart
  rw [hsplit] at hrun
  rw [List.append_assoc, List.singleton_append] at hrest
  obtain ⟨body, t, trailing, rfl, ht, htrailing, hread⟩ := hts.join nofun hrun hrest
  have hbody : instructions body = .ok is := by
    rcases htrailing with rfl | ⟨u, rfl, hu⟩
    · rwa [List.append_nil] at his
    · rwa [instructions_concat_newline hu] at his
  have hlines : lineBreaks (a.toList ++ ['\n']) = 1 + lineBreaks a.toList := by
    rw [lineBreaks_append, Nat.add_comm]
    rfl
  refine parse_eq_ok.mpr ⟨body ++ t :: us', ?_, ?_⟩
  · rw [String.toList_append, String.toList_append, hsplit, List.append_assoc]
    exact hread
  · rw [instructions_append_newline ht, hbody, hinstructions, instructions_behind, hjs, hlines]
    rfl

/-- One newline token holds the comments on both sides and the line feed between the texts. -/
theorem comments_joined :
    parse "%1 = OpString \"x\ny\"\n ; end" = .ok [⟨"OpString", [.string "x\ny"], some "1", 1⟩] ∧
    parse "\r\n\t;c\nOpNop" = .ok [⟨"OpNop", [], none, 3⟩] ∧
    parse ("%1 = OpString \"x\ny\"\n ; end" ++ "\n" ++ "\r\n\t;c\nOpNop") =
      .ok [⟨"OpString", [.string "x\ny"], some "1", 1⟩, ⟨"OpNop", [], none, 6⟩] := by
  have hok {source : String} {is : List Instruction} (h : (parse source).toOption = some is) :
      parse source = .ok is := by
    cases hparse : parse source with
    | error e => rw [hparse] at h; cases h
    | ok js => rw [hparse] at h; exact congrArg Except.ok (Option.some.inj h)
  have hfirst : parse "%1 = OpString \"x\ny\"\n ; end" =
      .ok [⟨"OpString", [.string "x\ny"], some "1", 1⟩] := hok (by decide +kernel)
  have hsecond : parse "\r\n\t;c\nOpNop" = .ok [⟨"OpNop", [], none, 3⟩] := hok (by decide +kernel)
  have hlines : lineBreaks "%1 = OpString \"x\ny\"\n ; end".toList = 2 := by decide +kernel
  have hjoined := parse_append_line hfirst hsecond
  rw [hlines] at hjoined
  exact ⟨hfirst, hsecond, hjoined⟩

end ShaderReflection.Assembly
