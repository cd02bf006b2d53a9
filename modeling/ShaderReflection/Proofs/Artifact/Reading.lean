import Mathlib.Data.List.DropRight
import ShaderReflection.Proofs.Artifact.OneLine
import ShaderReflection.Proofs.Json.RoundTrip

/-! Reading generated sources line by line: what stands between fixed texts of a line, numbers at
the ends of a text, and blocks of lines. The reader does not know what a source was made from. -/
namespace ShaderReflection.Artifact

open Text (OneLine)

section Lines

/-- The lines of a source, each of which is ended. -/
def linesOf (source : String) : List String :=
  ((source.toList.splitOn '\n').dropLast).map String.ofList

theorem toList_text (lines : List String) :
    (text lines).toList = ['\n'].intercalate (lines.map String.toList ++ [[]]) := by
  unfold text
  rw [String.toList_join]
  induction lines with
  | nil => rfl
  | cons l ls ih =>
    obtain ⟨m, ms, hms⟩ : ∃ m ms, ls.map String.toList ++ [[]] = m :: ms :=
      List.exists_cons_of_ne_nil (by simp)
    rw [List.map_cons, List.flatMap_cons, ih, List.map_cons, List.cons_append, hms,
      List.intercalate_cons_cons, String.toList_append]
    rfl

/-- A source is read as the lines that it was made from. -/
theorem linesOf_text {lines : List String} (h : ∀ l ∈ lines, OneLine l) :
    linesOf (text lines) = lines := by
  have hsplit : (text lines).toList.splitOn '\n' = lines.map String.toList ++ [[]] := by
    rw [toList_text]
    refine List.splitOn_intercalate '\n' (fun l hl => ?_) (by simp)
    rcases List.mem_append.mp hl with hl | hl
    · obtain ⟨s, hs, rfl⟩ := List.mem_map.mp hl
      exact h s hs
    · rw [List.mem_singleton.mp hl]
      exact List.not_mem_nil
  unfold linesOf
  rw [hsplit, List.dropLast_concat, List.map_map]
  simp

end Lines

section Beginnings

def Unlike (opening line : String) : Prop := ¬ opening.toList <+: line.toList

/-- Two texts that differ before either of them ends. -/
def Apart (s t : String) : Prop := Unlike s t ∧ Unlike t s

def begins (opening line : String) : Bool := opening.toList.isPrefixOf line.toList

theorem begins_append (opening rest : String) : begins opening (opening ++ rest) = true := by
  unfold begins
  rw [List.isPrefixOf_iff_prefix, String.toList_append]
  exact List.prefix_append _ _

theorem Unlike.begins_eq_false {opening line : String} (h : Unlike opening line) :
    begins opening line = false := by
  unfold begins
  rwa [← Bool.not_eq_true, List.isPrefixOf_iff_prefix]

theorem unlike_ofList {cs ds : List Char} (h : ¬ cs <+: ds) :
    Unlike (String.ofList cs) (String.ofList ds) := by
  unfold Unlike
  rwa [String.toList_ofList, String.toList_ofList]

theorem apart_ofList {cs ds : List Char} (h : ¬ cs <+: ds ∧ ¬ ds <+: cs) :
    Apart (String.ofList cs) (String.ofList ds) :=
  ⟨unlike_ofList h.1, unlike_ofList h.2⟩

theorem Apart.unlike_append {s t : String} (h : Apart s t) (rest : String) :
    Unlike s (t ++ rest) := by
  intro hs
  rw [String.toList_append] at hs
  rcases List.prefix_or_prefix_of_prefix hs (List.prefix_append t.toList rest.toList) with hst | hts
  · exact h.1 hst
  · exact h.2 hts

theorem Apart.append_left {s t : String} (h : Apart s t) (rest : String) : Apart (s ++ rest) t := by
  refine ⟨fun ht => h.1 (List.IsPrefix.trans ?_ ht), Apart.unlike_append ⟨h.2, h.1⟩ rest⟩
  rw [String.toList_append]
  exact List.prefix_append _ _

theorem Apart.append_right {s t : String} (h : Apart s t) (u : String) :
    Apart (u ++ s) (u ++ t) := by
  unfold Apart Unlike at h ⊢
  simpa only [String.toList_append, List.prefix_append_right_inj] using h

theorem Unlike.extend {s t line : String} (h : Unlike s line) (hst : s.toList <+: t.toList) :
    Unlike t line := fun ht => h (hst.trans ht)

theorem prefix_ofList {cs ds : List Char} (h : cs <+: ds) :
    (String.ofList cs).toList <+: (String.ofList ds).toList := by
  rwa [String.toList_ofList, String.toList_ofList]

theorem begins_ofList_append {cs ds : List Char} (h : cs <+: ds) (rest : String) :
    begins (String.ofList cs) (String.ofList ds ++ rest) = true := by
  unfold begins
  rw [List.isPrefixOf_iff_prefix, String.toList_append]
  exact (prefix_ofList h).trans (List.prefix_append _ _)

end Beginnings

section Pieces

/-- What stands between two texts, which begin and end a line. -/
def between (opening closing line : String) : Option String :=
  ((line.toList.dropPrefix? opening.toList).bind (·.dropSuffix? closing.toList)).map String.ofList

theorem between_append (opening inside closing : String) :
    between opening closing (opening ++ inside ++ closing) = some inside := by
  have hopening : (opening.toList ++ (inside.toList ++ closing.toList)).dropPrefix? opening.toList =
      some (inside.toList ++ closing.toList) :=
    List.dropPrefix?_eq_some_iff.mpr ⟨_, rfl, BEq.rfl⟩
  have hclosing : (inside.toList ++ closing.toList).dropSuffix? closing.toList =
      some inside.toList :=
    List.dropSuffix?_eq_some_iff.mpr ⟨_, rfl, BEq.rfl⟩
  unfold between
  rw [String.toList_append, String.toList_append, List.append_assoc, hopening, Option.bind_some,
    hclosing, Option.map_some, String.ofList_toList]

theorem between_empty_append (inside closing : String) :
    between "" closing (inside ++ closing) = some inside := by
  have hinside := between_append "" inside closing
  rwa [String.empty_append] at hinside

theorem between_append_empty (opening inside : String) :
    between opening "" (opening ++ inside) = some inside := by
  have hinside := between_append opening inside ""
  rwa [String.append_empty] at hinside

theorem Unlike.between_eq_none {opening line : String} (h : Unlike opening line)
    (closing : String) : between opening closing line = none := by
  have hopening : line.toList.dropPrefix? opening.toList = none := by
    refine Option.eq_none_iff_forall_ne_some.mpr fun rest hrest => h ?_
    obtain ⟨p, hp, heq⟩ := List.dropPrefix?_eq_some_iff.mp hrest
    exact ⟨rest, by rw [hp, eq_of_beq heq]⟩
  unfold between
  rw [hopening]
  rfl

theorem filterMap_between_eq_nil {opening closing : String} {lines : List String}
    (h : ∀ l ∈ lines, Unlike opening l) : lines.filterMap (between opening closing) = [] :=
  List.filterMap_eq_nil_iff.mpr fun l hl => (h l hl).between_eq_none closing

/-- The value of a text that is one integer, written as integers are in JSON. -/
def integer? (s : String) : Option Int :=
  match Json.Reader.number? s.toList with
  | some (.integer n, []) => some n
  | _ => none

theorem integer?_toString (n : Int) : integer? (toString n) = some n := by
  have hread := Json.number?_toString n [] nofun
  rw [List.append_nil] at hread
  unfold integer?
  rw [hread]

def isNumeral (c : Char) : Bool := c.isDigit || c = '-'

/-- The number that ends a text, and what stands in front of it. -/
def lastNumber? (s : String) : Option (String × Int) :=
  (integer? (String.ofList (s.toList.rtakeWhile isNumeral))).map
    (String.ofList (s.toList.rdropWhile isNumeral), ·)

theorem isNumeral_of_mem_toString {n : Int} {c : Char} (h : c ∈ (toString n).toList) :
    isNumeral c = true := by
  obtain ⟨sign, d, ds, hn, hsign, hdigits⟩ := Number.exists_sign_digits n
  rw [hn] at h
  rcases List.mem_append.mp h with h | h
  · rcases hsign with rfl | rfl
    · cases h
    · rw [List.mem_singleton.mp h]
      rfl
  · unfold isNumeral
    rw [hdigits c h, Bool.true_or]

/-- The number is read back if it stands behind a literal text that does not end as a number. -/
theorem lastNumber?_append (s : String) {cs : List Char}
    (h : cs.getLast?.any (!isNumeral ·) = true) (n : Int) :
    lastNumber? (s ++ String.ofList cs ++ toString n) = some (s ++ String.ofList cs, n) := by
  have hstops : Text.Stops isNumeral (s ++ String.ofList cs).toList.reverse := by
    unfold Text.Stops
    cases hlast : cs.getLast? with
    | none =>
      rw [hlast] at h
      cases h
    | some c =>
      rw [hlast] at h
      have hc : isNumeral c = false := by simpa using h
      rw [List.head?_reverse, String.toList_append, String.toList_ofList, List.getLast?_append,
        hlast, Option.some_or]
      exact fun _ hmem => Option.some.inj hmem ▸ hc
  have hnumerals : ∀ c ∈ (toString n).toList.reverse, isNumeral c = true := fun c hc =>
    isNumeral_of_mem_toString (List.mem_reverse.mp hc)
  unfold lastNumber? List.rtakeWhile List.rdropWhile
  rw [String.toList_append, List.reverse_append,
    Text.takeWhile_append_of_stops hnumerals hstops,
    Text.dropWhile_append_of_stops hnumerals hstops, List.reverse_reverse, List.reverse_reverse,
    String.ofList_toList, String.ofList_toList, integer?_toString, Option.map_some]

def firstNumber? (s : String) : Option (Int × String) :=
  (integer? (String.ofList (s.toList.takeWhile isNumeral))).map
    (·, String.ofList (s.toList.dropWhile isNumeral))

/-- The number is read back if a literal text behind it does not go on as a number. -/
theorem firstNumber?_append (n : Int) {cs : List Char} (h : cs.head?.any (!isNumeral ·) = true)
    (s : String) :
    firstNumber? (toString n ++ (String.ofList cs ++ s)) = some (n, String.ofList cs ++ s) := by
  have hstops : Text.Stops isNumeral (String.ofList cs ++ s).toList := by
    unfold Text.Stops
    cases cs with
    | nil => cases h
    | cons c cs =>
      have hc : isNumeral c = false := by simpa using h
      rw [String.toList_append, String.toList_ofList, List.cons_append, List.head?_cons]
      exact fun _ hmem => Option.some.inj hmem ▸ hc
  have hnumerals : ∀ c ∈ (toString n).toList, isNumeral c = true := fun c hc =>
    isNumeral_of_mem_toString hc
  unfold firstNumber?
  rw [String.toList_append, Text.takeWhile_append_of_stops hnumerals hstops,
    Text.dropWhile_append_of_stops hnumerals hstops, String.ofList_toList, String.ofList_toList,
    integer?_toString, Option.map_some]

end Pieces

section Blocks

/-- A block of lines: what its first line says, the lines inside, and the line behind them. -/
structure Block (α : Type) where
  opening : α
  inside : List String
  closing : Option String

/-- The blocks of lines. Some lines open a block, and it goes on as long as lines belong inside. -/
def blocksIn (opens : String → Option α) (inside : String → Bool) : List String → List (Block α)
  | [] => []
  | l :: ls =>
    match opens l with
    | some a => ⟨a, ls.takeWhile inside, (ls.dropWhile inside).head?⟩ :: blocksIn opens inside ls
    | none => blocksIn opens inside ls

variable {opens : String → Option α} {inside : String → Bool}

theorem blocksIn_append_of_none {ls : List String} (h : ∀ l ∈ ls, opens l = none)
    (rest : List String) : blocksIn opens inside (ls ++ rest) = blocksIn opens inside rest := by
  induction ls with
  | nil => rfl
  | cons l ls ih =>
    rw [List.forall_mem_cons] at h
    rw [List.cons_append, blocksIn, h.1]
    exact ih h.2

theorem blocksIn_block {l c : String} {body : List String} {a : α} (hl : opens l = some a)
    (hbody : ∀ m ∈ body, inside m = true ∧ opens m = none) (hc : inside c = false ∧ opens c = none)
    (rest : List String) : blocksIn opens inside (l :: body ++ c :: rest) =
      ⟨a, body, some c⟩ :: blocksIn opens inside rest := by
  have hinside : ∀ m ∈ body, inside m = true := fun m hm => (hbody m hm).1
  have hquiet : ∀ m ∈ body ++ [c], opens m = none := by
    rw [List.forall_mem_append]
    exact ⟨fun m hm => (hbody m hm).2, by simpa using hc.2⟩
  have htake : (body ++ c :: rest).takeWhile inside = body := by
    rw [List.takeWhile_append_of_pos hinside, List.takeWhile_cons_of_neg (by simp [hc.1]),
      List.append_nil]
  have hdrop : (body ++ c :: rest).dropWhile inside = c :: rest := by
    rw [List.dropWhile_append_of_pos hinside, List.dropWhile_cons_of_neg (by simp [hc.1])]
  have hrest : blocksIn opens inside (body ++ c :: rest) = blocksIn opens inside rest := by
    rw [← List.singleton_append, ← List.append_assoc]
    exact blocksIn_append_of_none hquiet rest
  rw [List.cons_append, blocksIn, hl]
  dsimp only
  rw [htake, hdrop, List.head?_cons, hrest]

/-- Where the lines of each element are read as one block, those of all elements are. -/
theorem blocksIn_flatMap {xs : List β} {lines : β → List String} {block : β → Block α}
    (h : ∀ x ∈ xs, ∀ rest, blocksIn opens inside (lines x ++ rest) =
      block x :: blocksIn opens inside rest) (rest : List String) :
    blocksIn opens inside (xs.flatMap lines ++ rest) =
      xs.map block ++ blocksIn opens inside rest := by
  induction xs with
  | nil => rfl
  | cons x xs ih =>
    rw [List.forall_mem_cons] at h
    rw [List.flatMap_cons, List.append_assoc, h.1, ih h.2, List.map_cons, List.cons_append]

theorem mapM_map_eq_some {f : β → Option γ} {g : α → β} {h : α → γ} {xs : List α}
    (hfg : ∀ x ∈ xs, f (g x) = some (h x)) : (xs.map g).mapM f = some (xs.map h) := by
  induction xs with
  | nil => rfl
  | cons x xs ih =>
    rw [List.forall_mem_cons] at hfg
    rw [List.map_cons, List.mapM_cons, hfg.1, ih hfg.2]
    rfl

end Blocks

end ShaderReflection.Artifact
