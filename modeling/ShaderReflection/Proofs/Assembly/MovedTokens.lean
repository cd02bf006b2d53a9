import ShaderReflection.Proofs.Assembly.RoundTrip

/-! Tokens at another place of a text. They give the same instructions, with other line numbers; so do
lists of tokens with a newline token between them. -/
namespace ShaderReflection.Assembly

section Instructions

theorem splitLines_ne_nil (ts : List Token) : splitLines ts ≠ [] := by
  cases ts with
  | nil => exact List.cons_ne_nil _ _
  | cons t ts =>
    unfold splitLines
    split
    · exact List.cons_ne_nil _ _
    · split <;> exact List.cons_ne_nil _ _

/-- A newline token ends a line, whatever stands on either side. -/
private theorem splitLines_append_newline {t : Token} (ht : t.terminal = .newline)
    (ts us : List Token) :
    splitLines (ts ++ t :: us) = splitLines ts ++ splitLines us := by
  induction ts with
  | nil => exact splitLines_cons_newline ht us
  | cons u ts ih =>
    obtain ⟨line, lines, hlines⟩ := List.exists_cons_of_ne_nil (splitLines_ne_nil ts)
    rw [List.cons_append, splitLines, ih, splitLines, hlines]
    split <;> rfl

theorem instructions_append_newline {t : Token} (ht : t.terminal = .newline)
    (ts us : List Token) :
    instructions (ts ++ t :: us) = do
      let is ← instructions ts
      let js ← instructions us
      return is ++ js := by
  unfold instructions
  rw [splitLines_append_newline ht, List.mapM_append]
  cases (splitLines ts).mapM lineInstruction with
  | error e => rfl
  | ok lines =>
    cases (splitLines us).mapM lineInstruction with
    | error e => rfl
    | ok lines' => exact congrArg Except.ok (List.filterMap_append ..)

theorem instructions_concat_newline {t : Token} (ht : t.terminal = .newline) (ts : List Token) :
    instructions (ts ++ [t]) = instructions ts := by
  rw [instructions_append_newline ht, instructions_nil]
  cases instructions ts with
  | error e => rfl
  | ok is => exact congrArg Except.ok (List.append_nil is)

def Token.behind (before : List Char) (t : Token) : Token :=
  { t with offset := before.length + t.offset, line := t.line + lineBreaks before }

def Instruction.lower (n : Nat) (i : Instruction) : Instruction := { i with line := i.line + n }

variable (before : List Char)

theorem splitLines_behind (ts : List Token) :
    splitLines (ts.map (·.behind before)) = (splitLines ts).map (·.map (·.behind before)) := by
  induction ts with
  | nil => rfl
  | cons t ts ih =>
    obtain ⟨line, lines, hlines⟩ := List.exists_cons_of_ne_nil (splitLines_ne_nil ts)
    have hterminal : (t.behind before).terminal = t.terminal := rfl
    rw [List.map_cons, splitLines, splitLines, ih, hlines, hterminal]
    split <;> rfl

theorem instruction_behind (result : Option String) (opcode : Token) (operands : List Token) :
    instruction result (opcode.behind before) (operands.map (·.behind before)) =
      (·.lower (lineBreaks before)) <$> instruction result opcode operands := by
  have hoperands : (operands.map (·.behind before)).mapM Token.operand =
      operands.mapM Token.operand := List.mapM_map
  unfold instruction
  rw [hoperands]
  cases operands.mapM Token.operand <;> rfl

theorem lineInstruction_behind (line : List Token) :
    lineInstruction (line.map (·.behind before)) =
      (·.map (·.lower (lineBreaks before))) <$> lineInstruction line := by
  have hinstruction (result : Option String) (opcode : Token) (operands : List Token) :
      some <$> instruction result (opcode.behind before) (operands.map (·.behind before)) =
        (·.map (·.lower (lineBreaks before))) <$> some <$> instruction result opcode operands := by
    rw [instruction_behind]
    cases instruction result opcode operands <;> rfl
  cases line with
  | nil => rfl
  | cons t ts =>
    have hterminal : (t.behind before).terminal = t.terminal := rfl
    unfold lineInstruction
    rw [List.map_cons]
    dsimp only
    rw [hterminal]
    cases t.terminal with
    | id =>
      match ts with
      | [] => exact hinstruction none t []
      | [equals] => exact hinstruction none t [equals]
      | _ :: opcode :: operands => exact hinstruction _ opcode operands
    | newline | equals | opcode | string | number | word => exact hinstruction none t ts

theorem instructions_behind (ts : List Token) :
    instructions (ts.map (·.behind before)) =
      (·.map (·.lower (lineBreaks before))) <$> instructions ts := by
  unfold instructions
  rw [splitLines_behind, List.mapM_map]
  have hlines (lines : List (List Token)) :
      lines.mapM (lineInstruction ∘ (·.map (·.behind before))) =
        (·.map (·.map (·.lower (lineBreaks before)))) <$> lines.mapM lineInstruction := by
    induction lines with
    | nil => rfl
    | cons line lines ih =>
      rw [List.mapM_cons, List.mapM_cons, ih, Function.comp_apply, lineInstruction_behind]
      cases lineInstruction line with
      | error e => rfl
      | ok i => cases lines.mapM lineInstruction <;> rfl
  rw [hlines]
  cases (splitLines ts).mapM lineInstruction with
  | error e => rfl
  | ok lines =>
    refine congrArg Except.ok ?_
    dsimp only
    rw [List.filterMap_map, List.map_filterMap]
    rfl

theorem tokenAt_behind (before' : List Char) (t : Terminal) (lexeme : List Char) :
    (tokenAt before' t lexeme).behind before = tokenAt (before ++ before') t lexeme := by
  unfold Token.behind tokenAt
  rw [List.length_append, lineBreaks_append, Nat.add_comm (lineBreaks before), Nat.add_right_comm]

end Instructions

end ShaderReflection.Assembly
