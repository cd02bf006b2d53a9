import ShaderReflection.Proofs.Assembly.Reading

/-! Reading undoes printing. What a printed listing is read as does not depend on how it is set. -/
namespace ShaderReflection.Assembly

open Lexeme (newlineRun)
open Text (Stops)

theorem splitLines_cons_newline {t : Token} (ht : t.terminal = .newline) (ts : List Token) :
    splitLines (t :: ts) = [] :: splitLines ts := by
  rw [splitLines, if_pos ht]

theorem splitLines_append {line ts head : List Token} {tail : List (List Token)}
    (hl : ∀ t ∈ line, t.terminal ≠ .newline) (h : splitLines ts = head :: tail) :
    splitLines (line ++ ts) = (line ++ head) :: tail := by
  induction line with
  | nil => exact h
  | cons t line ih =>
    obtain ⟨ht, hl⟩ := List.forall_mem_cons.mp hl
    rw [List.cons_append, splitLines, if_neg ht, ih hl]
    rfl

theorem instructions_nil : instructions [] = .ok [] := rfl

theorem instructions_newline {t : Token} (ht : t.terminal = .newline) (ts : List Token) :
    instructions (t :: ts) = instructions ts := by
  unfold instructions
  rw [splitLines_cons_newline ht, List.mapM_cons]
  cases (splitLines ts).mapM lineInstruction <;> rfl

/-- What stands behind a line: nothing, or a line break and tokens that give some instructions. -/
def Follow (is : List Instruction) (ts : List Token) : Prop :=
  (ts = [] ∧ is = []) ∨ ∃ t ts', ts = t :: ts' ∧ t.terminal = .newline ∧ instructions ts' = .ok is

theorem Follow.instructions_eq {is : List Instruction} {ts : List Token} (h : Follow is ts) :
    instructions ts = .ok is := by
  rcases h with ⟨rfl, rfl⟩ | ⟨t, ts', rfl, ht, his⟩
  · exact instructions_nil
  · rw [instructions_newline ht, his]

theorem instructions_line {line ts : List Token} {i : Instruction} {is : List Instruction}
    (hl : ∀ t ∈ line, t.terminal ≠ .newline) (hi : lineInstruction line = .ok (some i))
    (h : Follow is ts) : instructions (line ++ ts) = .ok (i :: is) := by
  rcases h with ⟨rfl, rfl⟩ | ⟨t, ts', rfl, ht, his⟩
  · have hnil : splitLines [] = [[]] := rfl
    have hsplit : splitLines (line ++ []) = [line] := by
      rw [splitLines_append hl hnil, List.append_nil]
    unfold instructions
    rw [hsplit, List.mapM_cons, hi]
    rfl
  · have hsplit : splitLines (line ++ t :: ts') = line :: splitLines ts' := by
      rw [splitLines_append hl (splitLines_cons_newline ht ts'), List.append_nil]
    unfold instructions at his ⊢
    rw [hsplit, List.mapM_cons, hi]
    cases hlines : (splitLines ts').mapM lineInstruction with
    | error e =>
      rw [hlines] at his
      cases his
    | ok lines =>
      rw [hlines] at his
      obtain rfl := Except.ok.inj his
      rfl

/-- A line of tokens that gives an instruction, and what follows it. -/
def LineThen (i : Instruction) (Q : List Token → Prop) (ts : List Token) : Prop :=
  ∃ line ts', ts = line ++ ts' ∧ (∀ t ∈ line, t.terminal ≠ .newline) ∧
    lineInstruction line = .ok (some i) ∧ Q ts'

def OperandsThen (os : List Operand) (Q : List Token → Prop) (ts : List Token) : Prop :=
  ∃ toks ts', ts = toks ++ ts' ∧ (∀ t ∈ toks, t.terminal ≠ .newline) ∧
    toks.mapM Token.operand = .ok os ∧ Q ts'

private theorem mem_delimiters_of_isBlank {c : Char} (h : isBlank c = true) : c ∈ delimiters := by
  simp only [isBlank, Bool.or_eq_true, decide_eq_true_eq] at h
  rcases h with rfl | rfl <;> decide

/-- The first character of blanks with a text behind them is a delimiter or that of the text. -/
theorem forall_head?_blank_append {P : Char → Prop} (hP : ∀ c ∈ delimiters, P c)
    {bs cs : List Char} (hb : bs.all isBlank = true) (h : bs = [] → ∀ c ∈ cs.head?, P c) :
    ∀ c ∈ (bs ++ cs).head?, P c := by
  intro c hc
  cases bs with
  | nil => exact h rfl c hc
  | cons b bs =>
    obtain rfl : b = c := Option.some.inj hc
    exact hP b (mem_delimiters_of_isBlank (List.all_eq_true.mp hb b List.mem_cons_self))

theorem Spacing.delimited (s : Spacing) (cs : List Char) : Delimited (s.text ++ cs) :=
  forall_head?_blank_append (fun _ hc => hc) s.blank fun hempty => absurd hempty s.nonempty

theorem delimited_operandsText (gaps : Nat → Spacing) (place : Nat) (os : List Operand)
    {cs : List Char} (h : Delimited cs) : Delimited (operandsText gaps place os ++ cs) := by
  cases os with
  | nil => exact h
  | cons o os =>
    rw [operandsText, List.append_assoc]
    exact (gaps place).delimited _

/-- Operands are read one by one, each behind its gap. -/
theorem reads_operands {os : List Operand} (hos : ∀ o ∈ os, o.isPrintable = true)
    (gaps : Nat → Spacing) (place : Nat) {before cs : List Char} {Q : List Token → Prop}
    (hcs : Delimited cs) (h : Reads .operands (before ++ operandsText gaps place os) cs Q) :
    Reads .operands before (operandsText gaps place os ++ cs) (OperandsThen os Q) := by
  induction os generalizing place before with
  | nil =>
    rw [operandsText, List.append_nil] at h
    exact h.imp fun ts hts => ⟨[], ts, rfl, by simp, rfl, hts⟩
  | cons o os ih =>
    obtain ⟨ho, hos⟩ := List.forall_mem_cons.mp hos
    rw [operandsText, ← List.append_assoc, ← List.append_assoc] at h
    rw [operandsText, List.append_assoc, List.append_assoc]
    have hrest := delimited_operandsText gaps (place + 1) os hcs
    obtain ⟨c, tail, hprinted, hc⟩ := Operand.exists_printed_cons ho
    have hgap : gap false (o.printed ++ (operandsText gaps (place + 1) os ++ cs)) = 0 := by
      rw [hprinted]
      exact gap_eq_zero hc _
    refine Reads.blanks (gaps place).blank ?_
    refine (ih hos (place + 1) h).lexeme hgap (Operand.scan_printed ho hrest) ?_
    rintro ts ⟨toks, ts', rfl, hnewline, htoks, hQ⟩
    refine ⟨tokenAt _ o.terminal o.printed :: toks, ts', rfl, ?_, ?_, hQ⟩
    · exact List.forall_mem_cons.mpr ⟨o.terminal_ne_newline, hnewline⟩
    · rw [List.mapM_cons, htoks]
      unfold tokenAt
      rw [Operand.operand_printed ho]
      rfl

theorem exists_of_isOpcodeName {name : String} (h : isOpcodeName name = true) :
    ∃ cs, name.toList = 'O' :: cs := by
  unfold isOpcodeName at h
  split at h
  case h_1 c cs hcs => exact ⟨_, hcs⟩
  case h_2 => cases h

theorem instruction_eq {toks : List Token} {os : List Operand}
    (h : toks.mapM Token.operand = .ok os) (result : Option String) (opcode : Token) :
    instruction result opcode toks =
      .ok { opcode := String.ofList opcode.text, operands := os, result, line := opcode.line } := by
  unfold instruction
  rw [h]
  rfl

namespace Setting

variable (l : Setting) {p : Phase} {before cs : List Char} {Q : List Token → Prop}

theorem stops_beforeEquals (cs : List Char) :
    Stops isIdChar (l.beforeEquals.text ++ '=' :: cs) := by
  have hsolid : Solid isIdChar := by decide
  refine forall_head?_blank_append (fun _ => hsolid.eq_false) l.beforeEquals.blank fun _ c hc => ?_
  obtain rfl : '=' = c := Option.some.inj hc
  rfl

/-- A result is read with its mark and leaves the opcode to be read. -/
theorem reads_result {name : String} (hn : isIdName name = true)
    (hp : p = .start ∨ p = .lineStart)
    (h : Reads .afterEquals
      (before ++ '%' :: (name.toList ++ (l.beforeEquals.text ++ '=' :: l.afterEquals.text))) cs Q) :
    Reads p before
      ('%' :: (name.toList ++ (l.beforeEquals.text ++ '=' :: l.afterEquals.text)) ++ cs)
      (fun ts => ∃ equals ts', ts = tokenAt before .id ('%' :: name.toList) :: equals :: ts' ∧
        equals.terminal = .equals ∧ Q ts') := by
  have htext : '%' :: (name.toList ++ (l.beforeEquals.text ++ '=' :: l.afterEquals.text)) ++ cs =
      '%' :: name.toList ++ (l.beforeEquals.text ++ (['='] ++ (l.afterEquals.text ++ cs))) := by
    simp
  have hbefore : before ++
      '%' :: (name.toList ++ (l.beforeEquals.text ++ '=' :: l.afterEquals.text)) =
        before ++ '%' :: name.toList ++ l.beforeEquals.text ++ ['='] ++ l.afterEquals.text := by
    simp
  rw [hbefore] at h
  rw [htext]
  have hid := Lexeme.id_printed hn (l.stops_beforeEquals (l.afterEquals.text ++ cs))
  have hscan : p.scan ('%' :: name.toList ++ (l.beforeEquals.text ++ (['='] ++
      (l.afterEquals.text ++ cs)))) = some (.id, .afterResult, ('%' :: name.toList).length) := by
    have hq : p.next? .id = some .afterResult := by rcases hp with rfl | rfl <;> rfl
    exact Phase.scan_of_head hq hid fun u hu => .inr (by revert u; decide)
  have hequals : Reads .afterResult (before ++ '%' :: name.toList)
      (l.beforeEquals.text ++ (['='] ++ (l.afterEquals.text ++ cs)))
      (fun ts => ∃ equals ts', ts = equals :: ts' ∧ equals.terminal = .equals ∧ Q ts') := by
    refine Reads.blanks l.beforeEquals.blank ?_
    refine (Reads.blanks l.afterEquals.blank h).lexeme (t := .equals) ?_ ?_
      fun ts hts => ⟨_, ts, rfl, rfl, hts⟩
    · exact gap_eq_zero (by decide) _
    · exact Phase.scan_of_head rfl rfl (by decide)
  refine hequals.lexeme (gap_eq_zero (by decide) _) hscan ?_
  rintro _ ⟨equals, ts', rfl, hequals, hQ⟩
  exact ⟨equals, ts', rfl, hequals, hQ⟩

end Setting

namespace Statement

variable (s : Statement) (l : Setting) {p : Phase} {before cs : List Char}
  {Q : List Token → Prop}

def BodyThen (before : List Char) (Q : List Token → Prop) (ts : List Token) : Prop :=
  ∃ toks, ts = tokenAt before .opcode s.opcode.toList :: toks ∧ OperandsThen s.operands Q toks

theorem reads_body (hp : p.next? .opcode = some .operands) (hcs : Delimited cs)
    (h : Reads .operands (before ++ s.bodyText l) cs Q) :
    Reads p before (s.bodyText l ++ cs) (s.BodyThen before Q) := by
  have hrest := delimited_operandsText l.gaps 0 s.operands hcs
  have hoperands : ∀ o ∈ s.operands, o.isPrintable = true := List.all_eq_true.mp s.printable
  have hlexeme := Lexeme.opcode_printed s.opcodeName (hrest.stops (p := isNameChar) (by decide))
  obtain ⟨tail, htail⟩ := exists_of_isOpcodeName s.opcodeName
  unfold bodyText at h ⊢
  rw [← List.append_assoc] at h
  rw [List.append_assoc]
  refine (reads_operands hoperands l.gaps 0 hcs h).lexeme (t := .opcode) ?_ ?_
    fun ts hts => ⟨ts, rfl, hts⟩
  · rw [htail]
    exact gap_eq_zero (by decide) _
  · rw [htail] at hlexeme ⊢
    exact Phase.scan_of_head hp hlexeme fun u hu => .inr (by revert u; decide)

theorem instruction_of_body {result : Option String} (hr : s.result = result) {toks : List Token}
    (h : toks.mapM Token.operand = .ok s.operands) (before : List Char) :
    Assembly.instruction result (tokenAt before .opcode s.opcode.toList) toks =
      .ok (s.instruction (lineBreaks before + 1)) := by
  rw [instruction_eq h, ← hr]
  unfold tokenAt
  rw [String.ofList_toList]
  rfl

private theorem lineThen_of_body (hr : s.result = none) {ts : List Token}
    (h : s.BodyThen before Q ts) :
    LineThen (s.instruction (lineBreaks before + 1)) Q ts := by
  obtain ⟨_, rfl, toks, ts', rfl, hnewline, htoks, hQ⟩ := h
  refine ⟨tokenAt before .opcode s.opcode.toList :: toks, ts', rfl, ?_, ?_, hQ⟩
  · exact List.forall_mem_cons.mpr ⟨nofun, hnewline⟩
  · show some <$> Assembly.instruction none (tokenAt before .opcode s.opcode.toList) toks = _
    rw [s.instruction_of_body hr htoks]
    rfl

private theorem lineThen_of_result {name : String} (hr : s.result = some name) {before' : List Char}
    {equals : Token} (he : equals.terminal = .equals) {ts : List Token}
    (h : s.BodyThen before Q ts) :
    LineThen (s.instruction (lineBreaks before + 1)) Q
      (tokenAt before' .id ('%' :: name.toList) :: equals :: ts) := by
  obtain ⟨_, rfl, toks, ts', rfl, hnewline, htoks, hQ⟩ := h
  have hresult : s.result = some (Assembly.idName ('%' :: name.toList)) := by
    rw [hr]
    unfold Assembly.idName
    rw [List.drop_one, List.tail_cons, String.ofList_toList]
  have hequals : equals.terminal ≠ .newline := by
    rw [he]
    nofun
  refine ⟨tokenAt before' .id ('%' :: name.toList) :: equals ::
    tokenAt before .opcode s.opcode.toList :: toks, ts', rfl, ?_, ?_, hQ⟩
  · exact List.forall_mem_cons.mpr ⟨nofun, List.forall_mem_cons.mpr
      ⟨hequals, List.forall_mem_cons.mpr ⟨nofun, hnewline⟩⟩⟩
  · show some <$> Assembly.instruction (some (Assembly.idName ('%' :: name.toList)))
      (tokenAt before .opcode s.opcode.toList) toks = _
    rw [s.instruction_of_body hresult htoks]
    rfl

/-- What stands before the opcode has no influence but on the place of the opcode. -/
theorem reads_line (hp : p = .start ∨ p = .lineStart) (hcs : Delimited cs)
    (h : Reads .operands (before ++ s.resultText l ++ s.bodyText l) cs Q) :
    Reads p before (s.resultText l ++ (s.bodyText l ++ cs))
      (LineThen (s.instruction (lineBreaks (before ++ s.resultText l) + 1)) Q) := by
  unfold resultText at h ⊢
  cases hr : s.result with
  | none =>
    rw [hr, Option.elim_none, List.append_nil] at h
    rw [Option.elim_none, List.append_nil, List.nil_append]
    have hq : p.next? .opcode = some .operands := by rcases hp with rfl | rfl <;> rfl
    exact (s.reads_body l hq hcs h).imp fun ts => s.lineThen_of_body hr
  | some name =>
    rw [hr, Option.elim_some] at h
    rw [Option.elim_some]
    have hn : isIdName name = true := by
      have hall := s.idName
      rwa [hr] at hall
    refine (l.reads_result hn hp (s.reads_body l rfl hcs h)).imp ?_
    rintro _ ⟨equals, ts, rfl, hequals, hbody⟩
    exact s.lineThen_of_result hr hequals hbody

theorem newlineRun_eq_zero : newlineRun false (s.resultText l ++ (s.bodyText l ++ cs)) = 0 := by
  have hhead : ∃ c rest, s.resultText l ++ (s.bodyText l ++ cs) = c :: rest ∧
      (c = '%' ∨ c = 'O') := by
    unfold resultText bodyText
    cases s.result with
    | some name => exact ⟨'%', _, rfl, .inl rfl⟩
    | none =>
      obtain ⟨tail, htail⟩ := exists_of_isOpcodeName s.opcodeName
      rw [htail]
      exact ⟨'O', _, rfl, .inr rfl⟩
  obtain ⟨c, rest, hc, hchar⟩ := hhead
  rw [hc]
  rcases hchar with rfl | rfl <;> rfl

end Statement

theorem delimited_linesText (lines : List (LineEnd × Line)) : Delimited (linesText lines) := by
  intro c hc
  match lines with
  | [] => cases hc
  | (.lf, l) :: lines | (.crlf, l) :: lines =>
    obtain rfl := Option.some.inj hc
    decide

theorem Filler.delimited (f : Filler) {cs : List Char} (h : Delimited cs) :
    Delimited (f.text ++ cs) := by
  unfold text
  rw [List.append_assoc]
  refine forall_head?_blank_append (fun _ hc => hc) f.blanks.blank fun _ => ?_
  cases f.comment with
  | none => exact h
  | some comment =>
    intro c hc
    obtain rfl : ';' = c := Option.some.inj hc
    decide

theorem Reads.filler {f : Filler} {p : Phase} {before cs : List Char} {P : List Token → Prop}
    (hcs : f.comment.isSome = true → AtLineEnd cs) (h : Reads p (before ++ f.text) cs P) :
    Reads p before (f.text ++ cs) P := by
  unfold Filler.text at h ⊢
  rw [List.append_assoc]
  rw [← List.append_assoc] at h
  refine Reads.blanks f.blanks.blank ?_
  cases hf : f.comment with
  | none =>
    rw [hf, Option.elim_none, List.append_nil] at h
    exact h
  | some c =>
    rw [hf, Option.elim_some] at h
    exact Reads.comment c.oneLine (hcs (by rw [hf]; rfl)) h

/-- Lines behind a line are read up to the end of the listing. -/
def ReadsLines (lines : List (LineEnd × Line)) : Prop :=
  ∀ p before f, (p = .start ∨ p = .operands) →
    Reads p before (Filler.text f ++ linesText lines)
      (Follow (instructionsFrom (before ++ f.text) lines))

def ReadsLine (l : Line) (lines : List (LineEnd × Line)) : Prop :=
  ∀ p before text, (p = .start ∨ p = .operands) → Swallows text →
    Reads p before (text ++ (l.text ++ linesText lines))
      (Follow (l.instructions (before ++ text) ++
        instructionsFrom (before ++ text ++ l.text) lines))

theorem readsLines_nil : ReadsLines [] := by
  intro p before f hp
  have hfinal : p.isFinal = true := by rcases hp with rfl | rfl <;> rfl
  exact Reads.filler (fun _ => nofun) (Reads.nil hfinal (.inl ⟨rfl, rfl⟩))

theorem linesText_cons (e : LineEnd) (l : Line) (lines : List (LineEnd × Line)) :
    linesText ((e, l) :: lines) = e.text ++ (l.text ++ linesText lines) := by
  unfold linesText
  rw [List.flatMap_cons, List.append_assoc]

/-- A comment takes the carriage return before its line feed along. -/
theorem readsLines_cons {e : LineEnd} {l : Line} {lines : List (LineEnd × Line)}
    (h : ReadsLine l lines) : ReadsLines ((e, l) :: lines) := by
  intro p before f hp
  rw [linesText_cons]
  cases hf : f.comment with
  | none =>
    refine Reads.filler (fun hsome => ?_) (h p (before ++ f.text) e.text hp e.swallows)
    rw [hf] at hsome
    cases hsome
  | some c =>
    have hcarry : '\n' ∉ c.text ++ e.carry := by
      rw [List.mem_append, not_or]
      exact ⟨c.oneLine, e.newline_not_mem_carry⟩
    let g : Filler := { f with comment := some ⟨c.text ++ e.carry, hcarry⟩ }
    have hg : f.text ++ e.text = g.text ++ ['\n'] := by
      simp [g, Filler.text, hf, e.text_eq]
    have hread := h p (before ++ g.text) ['\n'] hp swallows_lf
    rw [List.append_assoc before, ← hg, ← List.append_assoc before] at hread
    rw [← List.append_assoc, hg, List.append_assoc]
    exact Reads.filler (fun _ => fun c hc => (Option.some.inj hc).symm) hread

private theorem readsLine_empty_nil (f : Filler) : ReadsLine (.empty f) [] := by
  intro p before text hp ht
  have hrun : newlineRun false (f.text ++ linesText []) = f.text.length := by
    rw [linesText, List.flatMap_nil, List.append_nil, f.newlineRun_eq]
  refine Reads.newline hp ht hrun (Reads.nil (P := (· = [])) rfl rfl) ?_
  rintro _ rfl
  exact .inr ⟨_, [], rfl, rfl, instructions_nil⟩

private theorem readsLine_empty_cons (f : Filler) {e : LineEnd} {l : Line}
    {lines : List (LineEnd × Line)}
    (h : ReadsLine l lines) : ReadsLine (.empty f) ((e, l) :: lines) := by
  intro p before text hp ht
  have hread := h p before (text ++ (f.text ++ e.text)) hp (ht.append_line f e)
  have htext : text ++ ((Line.empty f).text ++ linesText ((e, l) :: lines)) =
      text ++ (f.text ++ e.text) ++ (l.text ++ linesText lines) := by
    rw [linesText_cons]
    simp [Line.text]
  have hbefore : before ++ (text ++ (f.text ++ e.text)) =
      before ++ text ++ (Line.empty f).text ++ e.text := by simp [Line.text]
  rw [htext]
  rw [hbefore] at hread
  exact hread

theorem Line.statement_text (s : Statement) (l : Setting) (cs : List Char) :
    (Line.statement s l).text ++ cs =
      l.indent.text ++ (s.resultText l ++ (s.bodyText l ++ (l.trailing.text ++ cs))) := by
  simp [Line.text, Statement.headText]

/-- A line with an instruction is read behind its indentation. -/
theorem reads_statement (s : Statement) (l : Setting) {lines : List (LineEnd × Line)}
    (h : ReadsLines lines) {p : Phase} (hp : p = .start ∨ p = .lineStart) (before : List Char) :
    Reads p (before ++ l.indent.text)
      (s.resultText l ++ (s.bodyText l ++ (l.trailing.text ++ linesText lines)))
      (LineThen (s.instruction (lineBreaks (before ++ s.headText l) + 1))
        (Follow (instructionsFrom (before ++ (Line.statement s l).text) lines))) := by
  have hcs : Delimited (l.trailing.text ++ linesText lines) :=
    l.trailing.delimited (delimited_linesText lines)
  have hrest := h .operands (before ++ l.indent.text ++ s.resultText l ++ s.bodyText l) l.trailing
    (.inr rfl)
  have htext : before ++ l.indent.text ++ s.resultText l ++ s.bodyText l ++ l.trailing.text =
      before ++ (Line.statement s l).text := by simp [Line.text, Statement.headText]
  have hhead : before ++ l.indent.text ++ s.resultText l = before ++ s.headText l := by
    simp [Statement.headText]
  rw [htext] at hrest
  have hline := s.reads_line l hp hcs hrest
  rwa [hhead] at hline

theorem readsLine_statement (s : Statement) (l : Setting) {lines : List (LineEnd × Line)}
    (h : ReadsLines lines) : ReadsLine (.statement s l) lines := by
  intro p before text hp ht
  have hrun : newlineRun false (l.indent.text ++ (s.resultText l ++ (s.bodyText l ++
      (l.trailing.text ++ linesText lines)))) = l.indent.text.length := by
    rw [newlineRun_blank_append l.indent.blank, s.newlineRun_eq_zero, Nat.add_zero]
  have hline := reads_statement s l h (.inr rfl) (before ++ text)
  rw [List.append_assoc before text l.indent.text] at hline
  rw [Line.statement_text]
  refine Reads.newline hp ht hrun hline ?_
  rintro _ ⟨line, ts', rfl, hnewline, hi, hfollow⟩
  exact .inr ⟨_, _, rfl, rfl, instructions_line hnewline hi hfollow⟩

theorem readsLine (l : Line) (lines : List (LineEnd × Line)) : ReadsLine l lines := by
  induction lines generalizing l with
  | nil =>
    cases l with
    | empty f => exact readsLine_empty_nil f
    | statement s l => exact readsLine_statement s l readsLines_nil
  | cons line lines ih =>
    obtain ⟨e, l'⟩ := line
    cases l with
    | empty f => exact readsLine_empty_cons f (ih l')
    | statement s l => exact readsLine_statement s l (readsLines_cons (ih l'))

theorem readsLines (lines : List (LineEnd × Line)) : ReadsLines lines := by
  cases lines with
  | nil => exact readsLines_nil
  | cons line lines => exact readsLines_cons (readsLine line.2 lines)

/-- Reading undoes printing: a listing is read as the instructions that it was printed from,
whatever blanks, comments, empty lines and line breaks stand between them. -/
theorem parse_printed (s : Source) : parse (String.ofList s.text) = .ok s.instructions := by
  have hread : Reads .start [] s.text (fun ts => instructions ts = .ok s.instructions) := by
    unfold Source.text Source.instructions
    cases s.first with
    | empty f =>
      have hlines := readsLines s.rest .start [] f (.inl rfl)
      exact hlines.imp fun ts hts => hts.instructions_eq
    | statement t l =>
      have hline := reads_statement t l (readsLines s.rest) (.inl rfl) []
      rw [Line.statement_text]
      refine Reads.blanks l.indent.blank (hline.imp ?_)
      rintro _ ⟨line, ts', rfl, hnewline, hi, hfollow⟩
      exact instructions_line hnewline hi hfollow
  obtain ⟨ts, hts, his⟩ := hread
  have htokens : tokens s.text = (ts, .complete) := hts
  unfold parse
  rw [String.toList_ofList]
  dsimp only
  rw [htokens]
  show (instructions ts).mapError ListingError.numeral = _
  rw [his]
  rfl

def space : Spacing := ⟨⟨[' '], by decide⟩, by decide⟩

/-- A listing with a string over two lines, words that look like numbers, and comments at the ends of
lines of both kinds. -/
def noisySource : Source where
  first := .empty ⟨⟨[], by decide⟩, some ⟨"%1 = OpNop".toList, by decide⟩⟩
  rest := [
    (.crlf, .empty ⟨⟨[' ', '\t'], by decide⟩, none⟩),
    (.lf, .statement
      { result := some "1", opcode := "OpString", operands := [.string "a\n\"\\\"é", .word "0x"]
        idName := by decide, opcodeName := by decide, printable := by decide +kernel }
      { indent := ⟨['\t'], by decide⟩, beforeEquals := ⟨[], by decide⟩
        afterEquals := ⟨[], by decide⟩, gaps := fun _ => space
        trailing := ⟨⟨[], by decide⟩, some ⟨"\"".toList, by decide⟩⟩ }),
    (.crlf, .statement
      { result := none, opcode := "Op_2"
        operands := [.int (-12), .word "2D", .id "x.1", .word "a|b"]
        idName := by decide, opcodeName := by decide, printable := by decide +kernel }
      { indent := ⟨[], by decide⟩, beforeEquals := ⟨[], by decide⟩, afterEquals := ⟨[], by decide⟩
        gaps := fun _ => space, trailing := ⟨⟨[' '], by decide⟩, none⟩ }),
    (.lf, .empty ⟨⟨[], by decide⟩, none⟩)]

theorem noisySource_parsed :
    noisySource.text = (";%1 = OpNop\r\n \t\n\t%1=OpString \"a\n\\\"\\\\\\\"é\" 0x;\"\r\n" ++
      "Op_2 -12 2D %x.1 a|b \n").toList ∧
    parse (String.ofList noisySource.text) = .ok [
      ⟨"OpString", [.string "a\n\"\\\"é", .word "0x"], some "1", 3⟩,
      ⟨"Op_2", [.int (-12), .word "2D", .id "x.1", .word "a|b"], none, 5⟩] :=
  ⟨by decide +kernel, parse_printed noisySource⟩

end ShaderReflection.Assembly
