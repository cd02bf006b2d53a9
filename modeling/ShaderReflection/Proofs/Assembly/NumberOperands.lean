import ShaderReflection.Proofs.Assembly.Acceptance
import ShaderReflection.Proofs.Assembly.Concatenation
import ShaderReflection.Proofs.Assembly.NumeralValues
import ShaderReflection.Proofs.Module.Steps

/-! Number literals as operands. A literal that stands where an operand is allowed is one token, and
this token gives one operand of the instruction of its line, or refuses the listing. -/
namespace ShaderReflection.Assembly

section Lines

variable {ts us line : List Token}

def EndsLine (ts : List Token) : Prop := ∀ t ∈ ts.getLast?, t.terminal = .newline

private theorem instructions_of_line (hl : ∀ t ∈ line, t.terminal ≠ .newline) :
    instructions line = Option.toList <$> lineInstruction line := by
  have hsplit : splitLines (line ++ []) = [line ++ []] := splitLines_append hl rfl
  rw [List.append_nil] at hsplit
  unfold instructions
  rw [hsplit, List.mapM_cons, List.mapM_nil]
  cases lineInstruction line with
  | error e => rfl
  | ok i => cases i <;> rfl

private theorem instructions_append_of_endsLine (h : EndsLine ts) (us : List Token) :
    instructions (ts ++ us) = do
      let is ← instructions ts
      let js ← instructions us
      return is ++ js := by
  rcases List.eq_nil_or_concat' ts with rfl | ⟨ts, t, rfl⟩
  · rw [instructions_nil, List.nil_append]
    cases instructions us <;> rfl
  · have ht : t.terminal = .newline := h t (by simp)
    rw [List.append_assoc, List.singleton_append, instructions_append_newline ht,
      instructions_concat_newline ht]

private theorem instructions_append_of_head (h : ∀ t ∈ us.head?, t.terminal = .newline)
    (ts : List Token) :
    instructions (ts ++ us) = do
      let is ← instructions ts
      let js ← instructions us
      return is ++ js := by
  cases us with
  | nil =>
    rw [instructions_nil, List.append_nil]
    cases instructions ts with
    | error e => rfl
    | ok is => exact congrArg Except.ok (List.append_nil is).symm
  | cons t us =>
    have ht : t.terminal = .newline := h t rfl
    rw [instructions_append_newline ht, instructions_newline ht]

/-- What stands before an opcode, with the result that it names. -/
inductive ResultOf : List Token → Option String → Prop
  | none : ResultOf [] none
  | id {t u : Token} (ht : t.terminal = .id) (hu : u.terminal = .equals) :
      ResultOf [t, u] (some (idName t.text))

variable {above args : List Token} {result : Option String} {opcode : Token}

private theorem lineInstruction_of_opcode {head : List Token} (hr : ResultOf head result)
    (ho : opcode.terminal = .opcode) (args : List Token) :
    lineInstruction (head ++ opcode :: args) = some <$> instruction result opcode args := by
  cases hr with
  | none =>
    rw [List.nil_append]
    unfold lineInstruction
    dsimp only
    rw [ho]
  | id ht hu =>
    rw [List.cons_append, List.singleton_append]
    unfold lineInstruction
    dsimp only
    rw [ht]

/-- The tokens before an operand: those of the lines above, and the line of the operand up to it. -/
structure OperandPlace (ts above : List Token) (result : Option String) (opcode : Token)
    (args : List Token) : Prop where
  split : ∃ head, ResultOf head result ∧ ts = above ++ (head ++ opcode :: args)
  endsLine : EndsLine above
  isOpcode : opcode.terminal = .opcode
  oneLine : ∀ t ∈ args, t.terminal ≠ .newline

theorem OperandPlace.concat (h : OperandPlace ts above result opcode args) {t : Token}
    (ht : t.terminal ≠ .newline) :
    OperandPlace (ts ++ [t]) above result opcode (args ++ [t]) where
  split := by
    obtain ⟨head, hr, rfl⟩ := h.split
    exact ⟨head, hr, by simp⟩
  endsLine := h.endsLine
  isOpcode := h.isOpcode
  oneLine := List.forall_mem_append.mpr ⟨h.oneLine, by simpa using ht⟩

/-- The tokens that have been read when a phase is reached. -/
inductive Phase.Reached : Phase → List Token → Prop
  | start : Reached .start []
  | lineStart {t : Token} (ts : List Token) (ht : t.terminal = .newline) :
      Reached .lineStart (ts ++ [t])
  | afterResult {above : List Token} {t : Token} (ha : EndsLine above) (ht : t.terminal = .id) :
      Reached .afterResult (above ++ [t])
  | afterEquals {above head : List Token} {result : Option String} (ha : EndsLine above)
      (hr : ResultOf head result) : Reached .afterEquals (above ++ head)
  | operands {ts above args : List Token} {result : Option String} {opcode : Token}
      (h : OperandPlace ts above result opcode args) : Reached .operands ts

private theorem endsLine_concat {t : Token} (ht : t.terminal = .newline) (ts : List Token) :
    EndsLine (ts ++ [t]) := by
  intro u hu
  rw [List.getLast?_concat] at hu
  obtain rfl := Option.some.inj hu
  exact ht

/-- An opcode opens the operands of its line. -/
theorem operandPlace_of_opcode {head : List Token} (ha : EndsLine above) (hr : ResultOf head result)
    (ho : opcode.terminal = .opcode) :
    OperandPlace (above ++ head ++ [opcode]) above result opcode [] where
  split := ⟨head, hr, List.append_assoc ..⟩
  endsLine := ha
  isOpcode := ho
  oneLine := nofun

/-- Behind the lines above, an id or an opcode begins the next line. -/
theorem Phase.Reached.beginLine {p q : Phase} {t : Token} (ha : EndsLine ts)
    (hp : p = .start ∨ p = .lineStart) (hq : p.next? t.terminal = some q) :
    Reached q (ts ++ [t]) := by
  cases ht : t.terminal with
  | newline =>
    rw [ht] at hq
    rcases hp with rfl | rfl <;> cases hq
    exact .lineStart ts ht
  | id =>
    rw [ht] at hq
    rcases hp with rfl | rfl <;> cases hq <;> exact .afterResult ha ht
  | opcode =>
    have hplace := operandPlace_of_opcode ha .none ht
    rw [List.append_nil] at hplace
    rw [ht] at hq
    rcases hp with rfl | rfl <;> cases hq <;> exact .operands hplace
  | equals | string | number | word =>
    rw [ht] at hq
    rcases hp with rfl | rfl <;> cases hq

theorem Phase.Reached.step {p q : Phase} {t : Token} (h : Reached p ts)
    (hq : p.next? t.terminal = some q) : Reached q (ts ++ [t]) := by
  -- Each phase allows few terminals; the other cases have no next phase.
  cases h with
  | start => exact beginLine nofun (.inl rfl) hq
  | lineStart ts hlast => exact beginLine (endsLine_concat hlast ts) (.inr rfl) hq
  | @afterResult above u ha hu =>
    cases ht : t.terminal <;> rw [ht] at hq <;> cases hq
    rw [List.append_assoc]
    exact .afterEquals ha (.id hu ht)
  | afterEquals ha hr =>
    cases ht : t.terminal <;> rw [ht] at hq <;> cases hq
    exact .operands (operandPlace_of_opcode ha hr ht)
  | operands hplace =>
    by_cases ht : t.terminal = .newline
    · rw [ht] at hq
      cases hq
      exact .lineStart ts ht
    · have hoperands : q = .operands := by
        cases hk : t.terminal <;> rw [hk] at hq ht <;> cases hq
        · exact absurd rfl ht
        all_goals rfl
      rw [hoperands]
      exact .operands (hplace.concat ht)

/-- What has been read is known from the phase alone. -/
theorem reached_of_after? {p : Phase} (h : Phase.start.after? (kinds ts) = some p) :
    p.Reached ts := by
  induction ts using List.reverseRecOn generalizing p with
  | nil =>
    obtain rfl := Option.some.inj h
    exact .start
  | append_singleton ts t ih =>
    unfold kinds at h
    rw [List.map_append, List.map_singleton, Phase.after?_concat] at h
    obtain ⟨q, hq, hstep⟩ := Option.bind_eq_some_iff.mp h
    exact (ih hq).step hstep

/-- Where an operand stands, the operands of its line are those of the tokens before it, its own, and
those of the tokens behind it up to the end of the line. -/
theorem OperandPlace.instructions_eq (h : OperandPlace ts above result opcode args) {t : Token}
    (ht : t.terminal ≠ .newline) (more : List Token) :
    instructions (ts ++ t :: more) = do
      let is ← instructions above
      let os ← args.mapM Token.operand
      let o ← t.operand
      let os' ← (more.takeWhile (·.terminal ≠ .newline)).mapM Token.operand
      let js ← instructions (more.dropWhile (·.terminal ≠ .newline))
      return is ++ ⟨String.ofList opcode.text, os ++ o :: os', result, opcode.line⟩ :: js := by
  obtain ⟨head, hr, rfl⟩ := h.split
  have hline : ∀ u ∈ head ++ opcode :: (args ++ t :: more.takeWhile (·.terminal ≠ .newline)),
      u.terminal ≠ .newline := by
    have hhead : ∀ u ∈ head, u.terminal ≠ .newline := by
      cases hr with
      | none => simp
      | id ht hu => simp [ht, hu]
    have hmore : ∀ u ∈ more.takeWhile (·.terminal ≠ .newline), u.terminal ≠ .newline := by
      intro u hu
      exact of_decide_eq_true (List.all_eq_true.mp List.all_takeWhile u hu)
    intro u hu
    simp only [List.mem_append, List.mem_cons] at hu
    rcases hu with hu | rfl | hu | rfl | hu
    · exact hhead u hu
    · simp [h.isOpcode]
    · exact h.oneLine u hu
    · exact ht
    · exact hmore u hu
  have htail : ∀ u ∈ (more.dropWhile (·.terminal ≠ .newline)).head?, u.terminal = .newline := by
    intro u hu
    have hstop := List.head?_dropWhile_not (fun v : Token => decide (v.terminal ≠ .newline)) more
    rw [hu] at hstop
    simpa using hstop
  -- The tokens are those of the lines above, those of this line, and those from its end on.
  have hsplit : above ++ (head ++ opcode :: args) ++ t :: more =
      above ++ (head ++ opcode :: (args ++ t :: more.takeWhile (·.terminal ≠ .newline)) ++
        more.dropWhile (·.terminal ≠ .newline)) := by
    simp [List.takeWhile_append_dropWhile]
  rw [hsplit, instructions_append_of_endsLine h.endsLine, instructions_append_of_head htail,
    instructions_of_line hline, lineInstruction_of_opcode hr h.isOpcode]
  unfold instruction
  rw [List.mapM_append, List.mapM_cons]
  cases instructions above with
  | error e => rfl
  | ok is =>
    cases args.mapM Token.operand with
    | error e => rfl
    | ok os =>
      cases t.operand with
      | error e => rfl
      | ok o =>
        cases (more.takeWhile (·.terminal ≠ .newline)).mapM Token.operand with
        | error e => rfl
        | ok os' => cases instructions (more.dropWhile (·.terminal ≠ .newline)) <;> rfl

end Lines

section Values

variable {ts : List Token}

theorem exists_mapM_eq_ok {α β ε : Type} {f : α → Except ε β} {xs : List α}
    (h : ∀ x ∈ xs, ∃ y, f x = .ok y) : ∃ ys, xs.mapM f = .ok ys := by
  induction xs with
  | nil => exact ⟨[], rfl⟩
  | cons x xs ih =>
    obtain ⟨⟨y, hy⟩, hxs⟩ := List.forall_mem_cons.mp h
    obtain ⟨ys, hys⟩ := ih hxs
    rw [List.mapM_cons, hy, hys]
    exact ⟨y :: ys, rfl⟩

private theorem mem_of_mem_splitLines {line : List Token} (h : line ∈ splitLines ts) :
    ∀ t ∈ line, t ∈ ts := by
  induction ts generalizing line with
  | nil =>
    obtain rfl := List.mem_singleton.mp h
    nofun
  | cons u ts ih =>
    obtain ⟨first, lines, hlines⟩ := List.exists_cons_of_ne_nil (splitLines_ne_nil ts)
    rw [hlines] at ih
    rw [splitLines, hlines] at h
    intro t ht
    split at h
    · rcases List.mem_cons.mp h with rfl | h
      · cases ht
      · exact List.mem_cons_of_mem u (ih h t ht)
    · rcases List.mem_cons.mp h with rfl | h
      · rcases List.mem_cons.mp ht with rfl | ht
        · exact List.mem_cons_self
        · exact List.mem_cons_of_mem u (ih List.mem_cons_self t ht)
      · exact List.mem_cons_of_mem u (ih (List.mem_cons_of_mem first h) t ht)

theorem exists_lineInstruction_eq_ok (h : ∀ t ∈ ts, ∃ o, t.operand = .ok o) :
    ∃ i, lineInstruction ts = .ok i := by
  have hinstruction (result : Option String) (opcode : Token) {args : List Token}
      (hargs : ∀ t ∈ args, t ∈ ts) : ∃ i, some <$> instruction result opcode args = .ok i := by
    obtain ⟨os, hos⟩ := exists_mapM_eq_ok fun t ht => h t (hargs t ht)
    rw [instruction_eq hos]
    exact ⟨_, rfl⟩
  unfold lineInstruction
  split
  · exact ⟨none, rfl⟩
  · split
    · apply hinstruction
      intro t ht
      simp [ht]
    · apply hinstruction
      intro t ht
      exact List.mem_cons_of_mem _ ht

/-- Tokens that all have values give instructions. -/
theorem exists_instructions_eq_ok (h : ∀ t ∈ ts, ∃ o, t.operand = .ok o) :
    ∃ is, instructions ts = .ok is := by
  obtain ⟨lines, hlines⟩ := exists_mapM_eq_ok fun line hline =>
    exists_lineInstruction_eq_ok fun t ht => h t (mem_of_mem_splitLines hline t ht)
  unfold instructions
  rw [hlines]
  exact ⟨_, rfl⟩

end Values

/-- The operand of a token among the instructions of a listing, where tokens stand before it and
others behind it. -/
def OperandAt (ts more : List Token) (o : Operand) (is : List Instruction) : Prop :=
  ∃ above result opcode args before behind os os',
    OperandPlace ts above result opcode args ∧ instructions above = .ok before ∧
    args.mapM Token.operand = .ok os ∧
    (more.takeWhile (·.terminal ≠ .newline)).mapM Token.operand = .ok os' ∧
    instructions (more.dropWhile (·.terminal ≠ .newline)) = .ok behind ∧
    is = before ++ ⟨String.ofList opcode.text, os ++ o :: os', result, opcode.line⟩ :: behind

section Places

variable {ts above args : List Token} {result : Option String} {opcode t : Token}

/-- Where tokens give instructions, one that stands for an operand gives one operand. -/
theorem OperandPlace.operandAt (h : OperandPlace ts above result opcode args)
    (ht : t.terminal ≠ .newline) {more : List Token} {is : List Instruction}
    (his : instructions (ts ++ t :: more) = .ok is) :
    ∃ o, t.operand = .ok o ∧ OperandAt ts more o is := by
  rw [h.instructions_eq ht more] at his
  obtain ⟨before, hbefore, his⟩ := Module.bind_eq_ok.mp his
  obtain ⟨os, hos, his⟩ := Module.bind_eq_ok.mp his
  obtain ⟨o, ho, his⟩ := Module.bind_eq_ok.mp his
  obtain ⟨os', hos', his⟩ := Module.bind_eq_ok.mp his
  obtain ⟨behind, hbehind, his⟩ := Module.bind_eq_ok.mp his
  exact ⟨o, ho, above, result, opcode, args, before, behind, os, os', h, hbefore, hos, hos',
    hbehind, (Except.ok.inj his).symm⟩

/-- The first token without a value refuses its listing. -/
theorem OperandPlace.instructions_eq_error (h : OperandPlace ts above result opcode args)
    (ht : t.terminal ≠ .newline) {e : NumeralError} (he : t.operand = .error e)
    (hall : ∀ u ∈ ts, ∃ o, u.operand = .ok o) (more : List Token) :
    instructions (ts ++ t :: more) = .error e := by
  have hmem : (∀ u ∈ above, u ∈ ts) ∧ ∀ u ∈ args, u ∈ ts := by
    obtain ⟨head, -, rfl⟩ := h.split
    constructor
    · intro u hu
      exact List.mem_append_left _ hu
    · intro u hu
      simp [hu]
  obtain ⟨is, his⟩ := exists_instructions_eq_ok fun u hu => hall u (hmem.1 u hu)
  obtain ⟨os, hos⟩ := exists_mapM_eq_ok fun u hu => hall u (hmem.2 u hu)
  rw [h.instructions_eq ht more, his, hos, he]
  rfl

end Places

/-- A number literal that stands where an operand is allowed, before a delimiter or the end. -/
structure OperandLiteral (source before : List Char) (ts : List Token)
    (skipped w rest : List Char) : Prop where
  read : Lexed source before ts (skipped ++ (w ++ rest))
  skips : Skips skipped (w ++ rest)
  allowed : Allows (kinds ts) .number
  spelled : w ∈ Spelling.number
  delimited : Delimited rest

section Literals

variable {before skipped w rest : List Char} {ts : List Token}

/-- A number before a delimiter is read whole. -/
theorem number_length?_eq (hw : w ∈ Spelling.number) (hr : Delimited rest) :
    Terminal.number.length? (w ++ rest) = some w.length := by
  have hmatches : Terminal.number.Matches w [] := ⟨hw, fun _ => nofun⟩
  obtain ⟨n, hn, hle⟩ := Terminal.number_findsLongest.longest hmatches
  rw [List.append_nil] at hn
  obtain rfl : w.length = n := Nat.le_antisymm hle (Terminal.length?_le hn)
  exact ((Lexeme.number_local hr).length?_append w).trans hn

/-- A number literal is one token, behind an opcode. -/
theorem OperandLiteral.tokens_eq {source : List Char}
    (h : OperandLiteral source before ts skipped w rest) :
    ∃ above result opcode args more ending, OperandPlace ts above result opcode args ∧
      tokens source = (ts ++ tokenAt (before ++ skipped) .number w :: more, ending) := by
  obtain ⟨-, p, hp, -⟩ := h.read.tokens_eq
  obtain ⟨q, hq⟩ := (allows_iff hp).mp h.allowed
  have hscan := Phase.scan_number hq (number_length?_eq h.spelled h.delimited)
  have hnext := h.read.token h.skips ((chosen_iff hp).mpr ⟨q, hscan⟩)
  obtain ⟨-, _, -, htokens⟩ := hnext.tokens_eq
  rw [List.append_assoc, List.singleton_append] at htokens
  cases reached_of_after? hp with
  | operands hplace => exact ⟨_, _, _, _, _, _, hplace, htokens⟩
  | start | lineStart | afterResult | afterEquals => cases hq

theorem instructions_of_parse {source : String} {ending : Ending} {is : List Instruction}
    (htokens : tokens source.toList = (ts, ending)) (h : parse source = .ok is) :
    instructions ts = .ok is := by
  obtain ⟨us, hread, his⟩ := parse_eq_ok.mp h
  obtain ⟨us', hus, rfl⟩ := hread.reads
  have hsame : (us', Ending.complete) = (ts, ending) := hus.symm.trans htokens
  obtain ⟨rfl, -⟩ := Prod.mk.inj hsame
  exact his

theorem parse_of_complete {source : String} (htokens : tokens source.toList = (ts, .complete)) :
    parse source = (instructions ts).mapError .numeral := by
  unfold parse
  dsimp only
  rw [htokens]

/-- A number literal that is an operand denotes one thing. It is one token, and gives the operand
that it denotes, between those of the tokens around it; a listing is read if nothing else refuses it.
A literal without a value refuses every listing, and is the reason if no other one stands before it
and the listing is complete. -/
theorem parse_operandLiteral {source : String}
    (h : OperandLiteral source.toList before ts skipped w rest) :
    (∃! a, Numeral.Denotes w a) ∧
    ∃ more ending,
      tokens source.toList = (ts ++ tokenAt (before ++ skipped) .number w :: more, ending) ∧
      (∀ o, Numeral.Denotes w (.ok o) →
        (∀ is, parse source = .ok is → OperandAt ts more o is) ∧
        (ending = .complete → (∀ t ∈ ts ++ more, ∃ o, t.operand = .ok o) →
          ∃ is, parse source = .ok is)) ∧
      ∀ e, Numeral.Denotes w (.error e) →
        (∀ is, parse source ≠ .ok is) ∧
        (ending = .complete → (∀ t ∈ ts, ∃ o, t.operand = .ok o) →
          parse source = .error (.numeral e)) := by
  obtain ⟨above, result, opcode, args, more, ending, hplace, htokens⟩ := h.tokens_eq
  have hvalue : (tokenAt (before ++ skipped) .number w).operand = Numeral.read w := rfl
  have hkind : (tokenAt (before ++ skipped) .number w).terminal ≠ .newline := nofun
  have hoperand {is : List Instruction} (his : parse source = .ok is) :
      ∃ o, Numeral.read w = .ok o ∧ OperandAt ts more o is :=
    hplace.operandAt hkind (instructions_of_parse htokens his)
  refine ⟨?_, more, ending, htokens, ?_, ?_⟩
  · obtain ⟨a, ha⟩ := Numeral.exists_denotes h.spelled
    exact ⟨a, ha, fun b hb => hb.read_eq.symm.trans ha.read_eq⟩
  · intro o ho
    constructor
    · intro is his
      obtain ⟨o', ho', hat⟩ := hoperand his
      obtain rfl := Except.ok.inj (ho'.symm.trans ho.read_eq)
      exact hat
    · rintro rfl hall
      have hvalues : ∀ t ∈ ts ++ tokenAt (before ++ skipped) .number w :: more,
          ∃ o, t.operand = .ok o := by
        obtain ⟨hts, hmore⟩ := List.forall_mem_append.mp hall
        have hbehind := List.forall_mem_cons.mpr ⟨⟨o, hvalue.trans ho.read_eq⟩, hmore⟩
        exact List.forall_mem_append.mpr ⟨hts, hbehind⟩
      obtain ⟨is, his⟩ := exists_instructions_eq_ok hvalues
      rw [parse_of_complete htokens, his]
      exact ⟨is, rfl⟩
  · intro e he
    constructor
    · intro is his
      obtain ⟨o, ho, -⟩ := hoperand his
      cases ho.symm.trans he.read_eq
    · rintro rfl hall
      rw [parse_of_complete htokens,
        hplace.instructions_eq_error hkind (hvalue.trans he.read_eq) hall]
      rfl

end Literals

/-- A listing with hexadecimal digits among which is the mark of a decimal exponent, and with a float
halfway between the two smallest ones that are not zero. -/
def tiedListing : String := "OpConstant 0x1e5 0x1.8p-1074;c"

private theorem tiedListing_literal :
    OperandLiteral tiedListing.toList "OpConstant 0x1e5".toList
      [tokenAt [] .opcode "OpConstant".toList,
        tokenAt "OpConstant ".toList .number "0x1e5".toList]
      [' '] "0x1.8p-1074".toList ";c".toList := by
  have hskips {bs rest : List Char} {c : Char} (hb : bs.all isBlank = true)
      (hhead : rest.head? = some c) (hc : isBlank c = false ∧ c ≠ ';') : Skips bs rest := by
    apply Skips.blanks hb
    intro d hd
    rw [hhead] at hd
    obtain rfl := Option.some.inj hd
    exact hc
  have hsource : tiedListing.toList =
      [] ++ ("OpConstant".toList ++ ([' '] ++ ("0x1e5".toList ++
        ([' '] ++ ("0x1.8p-1074".toList ++ ";c".toList))))) := by decide +kernel
  have hstart : Lexed tiedListing.toList [] [] tiedListing.toList := .start
  rw [hsource] at hstart ⊢
  have hopcode := hstart.token (hskips (c := 'O') rfl (by decide +kernel) (by decide))
    ((chosen_iff (p := .start) (t := .opcode) rfl).mpr ⟨.operands, by decide +kernel⟩)
  have hinteger := hopcode.token (hskips (c := '0') rfl (by decide +kernel) (by decide))
    ((chosen_iff (p := .operands) (t := .number) rfl).mpr ⟨.operands, by decide +kernel⟩)
  have hlexeme : Terminal.number.length? ("0x1.8p-1074".toList ++ ";c".toList) =
      some "0x1.8p-1074".toList.length := by decide +kernel
  have hend : ";c".toList.head? = some ';' := by decide +kernel
  exact {
    read := hinteger
    skips := hskips (c := '0') rfl (by decide +kernel) (by decide)
    allowed := (allows_iff (p := .operands) rfl).mpr ⟨.operands, rfl⟩
    spelled := (Terminal.isLexeme_iff.mpr hlexeme).matched.spelled
    delimited := by
      intro c hc
      rw [hend] at hc
      obtain rfl := Option.some.inj hc
      decide }

theorem tiedListing_operand :
    Numeral.Denotes "0x1.8p-1074".toList (.ok (.float (.finite false 2 (-1074)))) ∧
    ∃ more, OperandAt [tokenAt [] .opcode "OpConstant".toList,
        tokenAt "OpConstant ".toList .number "0x1e5".toList] more (.float (.finite false 2 (-1074)))
      [⟨"OpConstant", [.int 485, .float (.finite false 2 (-1074))], none, 1⟩] := by
  have hdenotes : Numeral.Denotes "0x1.8p-1074".toList (.ok (.float (.finite false 2 (-1074)))) :=
    (Numeral.denotes_iff tiedListing_literal.spelled).mpr (by decide +kernel)
  have hparse : parse tiedListing =
      .ok [⟨"OpConstant", [.int 485, .float (.finite false 2 (-1074))], none, 1⟩] := by
    decide +kernel
  obtain ⟨-, more, ending, -, hvalue, -⟩ := parse_operandLiteral tiedListing_literal
  exact ⟨hdenotes, more, (hvalue _ hdenotes).1 _ hparse⟩

end ShaderReflection.Assembly
