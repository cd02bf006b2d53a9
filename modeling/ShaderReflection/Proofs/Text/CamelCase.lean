import Mathlib.Data.List.Basic
import ShaderReflection.Proofs.Text.UpperCase
import ShaderReflection.Text.CamelCase

/-! Camel case in closed form. A name is cut into runs of underscores and the words behind them. Half
of each run stays, and the length of a run decides about the first character behind it: the scanner
takes every other underscore of a run for the character that it was to raise. -/
namespace ShaderReflection.Text

/-- A run of underscores and the word behind it. -/
structure Chunk where
  underscores : Nat
  word : List Char
  deriving DecidableEq, Repr

def Chunk.text (p : Chunk) : List Char := List.replicate p.underscores '_' ++ p.word

/-- A name as its first run, which may be empty, and the others. Words hold no underscores, and only
the last one may be empty, so that no run can be made longer. -/
structure Chunks where
  first : Chunk
  rest : List Chunk
  plain : ∀ p ∈ first :: rest, '_' ∉ p.word
  runs : ∀ p ∈ rest, 0 < p.underscores
  words : ∀ p ∈ (first :: rest).dropLast, p.word ≠ []

/-- Another first chunk leaves all words but the last filled. -/
theorem filled_of_first {p q : Chunk} {rest : List Chunk} (hpq : p.word ≠ [] → q.word ≠ [])
    (h : ∀ r ∈ (p :: rest).dropLast, r.word ≠ []) : ∀ r ∈ (q :: rest).dropLast, r.word ≠ [] := by
  cases rest with
  | nil => simp
  | cons r rs =>
    rw [List.dropLast_cons_cons, List.forall_mem_cons] at h ⊢
    exact ⟨hpq h.1, h.2⟩

namespace Chunks

def text (s : Chunks) : List Char := (s.first :: s.rest).flatMap Chunk.text

def empty : Chunks where
  first := ⟨0, []⟩
  rest := []
  plain := by simp
  runs := by simp
  words := by simp

def underscore (s : Chunks) : Chunks where
  first := { s.first with underscores := s.first.underscores + 1 }
  rest := s.rest
  plain := by simpa using s.plain
  runs := s.runs
  words := filled_of_first (p := s.first) id s.words

def letter (c : Char) (hc : c ≠ '_') (s : Chunks) : Chunks :=
  if hfirst : s.first.underscores = 0 then
    { first := ⟨0, c :: s.first.word⟩
      rest := s.rest
      plain := by simpa [hc.symm] using s.plain
      runs := s.runs
      words := filled_of_first (fun _ => List.cons_ne_nil _ _) s.words }
  else
    { first := ⟨0, [c]⟩
      rest := s.first :: s.rest
      plain := by simpa [hc.symm] using s.plain
      runs := by
        have hpos := Nat.pos_of_ne_zero hfirst
        simpa [hpos] using s.runs
      words := by simpa using s.words }

def ofChars : List Char → Chunks
  | [] => empty
  | c :: cs => if hc : c = '_' then (ofChars cs).underscore else (ofChars cs).letter c hc

private theorem text_underscore (s : Chunks) : s.underscore.text = '_' :: s.text := by
  simp [text, underscore, Chunk.text, List.replicate_succ]

private theorem text_letter (c : Char) (hc : c ≠ '_') (s : Chunks) :
    (s.letter c hc).text = c :: s.text := by
  unfold letter
  split
  case isTrue hfirst => simp [text, Chunk.text, hfirst]
  case isFalse => simp [text, Chunk.text]

/-- Every name is cut into chunks. -/
theorem text_ofChars (cs : List Char) : (ofChars cs).text = cs := by
  induction cs with
  | nil => rfl
  | cons c cs ih =>
    unfold ofChars
    split
    case isTrue hc => rw [text_underscore, ih, hc]
    case isFalse hc => rw [text_letter, ih]

end Chunks

/-- A word whose first character is in upper case, or as it was. -/
def raiseFirst (raised : Bool) : List Char → List Char
  | [] => []
  | c :: cs => (if raised then upper c else [c]) ++ cs

section Scanning

variable (raised : Bool)

/-- Half of the underscores stay, and the scanner changes its state with every one of them. -/
theorem camelCaseFrom_underscores (k : Nat) (cs : List Char) :
    camelCaseFrom raised (List.replicate k '_' ++ cs) =
      List.replicate ((k + raised.toNat) / 2) '_' ++
        camelCaseFrom (raised ^^ decide (k % 2 = 1)) cs := by
  induction k generalizing raised with
  | zero => cases raised <;> simp
  | succ k ih =>
    have hparity : decide ((k + 1) % 2 = 1) = !decide (k % 2 = 1) := by
      rw [← decide_not, decide_eq_decide]
      omega
    rw [List.replicate_succ, List.cons_append, camelCaseFrom, hparity]
    cases raised with
    | true =>
      have hhalf : (k + 1 + true.toNat) / 2 = k / 2 + 1 := by
        rw [Bool.toNat_true]
        omega
      rw [if_pos rfl, upper_underscore, ih, hhalf]
      simp [List.replicate_succ]
    | false =>
      rw [if_neg Bool.false_ne_true, if_pos rfl, ih]
      simp

/-- In the state that raises nothing, the scanner leaves a word as it is. -/
private theorem camelCaseFrom_plain {w : List Char} (hw : '_' ∉ w) (cs : List Char) :
    camelCaseFrom false (w ++ cs) = w ++ camelCaseFrom false cs := by
  induction w with
  | nil => rfl
  | cons c w ih =>
    rw [List.mem_cons, not_or] at hw
    rw [List.cons_append, camelCaseFrom, if_neg Bool.false_ne_true, if_neg (Ne.symm hw.1), ih hw.2,
      List.cons_append]

/-- Of a word the scanner raises the first character at most. A state that raises gets past a word
only if the word has a character, or at the end of the name. -/
theorem camelCaseFrom_word {w : List Char} (hw : '_' ∉ w) {cs : List Char} (h : w ≠ [] ∨ cs = []) :
    camelCaseFrom raised (w ++ cs) = raiseFirst raised w ++ camelCaseFrom false cs := by
  cases w with
  | nil =>
    obtain rfl := h.resolve_left (by simp)
    rfl
  | cons c w =>
    have htail : '_' ∉ w := fun hmem => hw (List.mem_cons_of_mem c hmem)
    cases raised with
    | true =>
      rw [List.cons_append, camelCaseFrom, if_pos rfl, camelCaseFrom_plain htail]
      simp [raiseFirst]
    | false =>
      rw [camelCaseFrom_plain hw]
      rfl

/-- What becomes of a chunk that the scanner comes to in one of its states. -/
def Chunk.camelCase (p : Chunk) : List Char :=
  List.replicate ((p.underscores + raised.toNat) / 2) '_' ++
    raiseFirst (raised ^^ decide (p.underscores % 2 = 1)) p.word

theorem Chunk.camelCase_true (p : Chunk) : p.camelCase true =
    List.replicate ((p.underscores + 1) / 2) '_' ++ raiseFirst (p.underscores % 2 = 0) p.word := by
  have hparity : (true ^^ decide (p.underscores % 2 = 1)) = decide (p.underscores % 2 = 0) := by
    rw [Bool.true_xor, ← decide_not, decide_eq_decide]
    omega
  rw [camelCase, hparity]
  rfl

theorem Chunk.camelCase_false (p : Chunk) : p.camelCase false =
    List.replicate (p.underscores / 2) '_' ++ raiseFirst (p.underscores % 2 = 1) p.word := by
  rw [camelCase, Bool.false_xor]
  rfl

/-- An empty run at the start and a single underscore elsewhere leave nothing but a raised word. -/
theorem Chunk.camelCase_eq_raiseFirst {p : Chunk} (h : p.underscores + raised.toNat = 1) :
    p.camelCase raised = raiseFirst true p.word := by
  unfold camelCase
  rw [h]
  cases raised with
  | true =>
    obtain hk : p.underscores = 0 := by simpa using h
    rw [hk]
    rfl
  | false =>
    obtain hk : p.underscores = 1 := by simpa using h
    rw [hk]
    rfl

theorem camelCaseFrom_chunk {p : Chunk} (hp : '_' ∉ p.word) {cs : List Char}
    (h : p.word ≠ [] ∨ cs = []) :
    camelCaseFrom raised (p.text ++ cs) = p.camelCase raised ++ camelCaseFrom false cs := by
  rw [Chunk.text, List.append_assoc, camelCaseFrom_underscores, camelCaseFrom_word _ hp h,
    Chunk.camelCase, List.append_assoc]

/-- The scanner comes to every chunk but the first one from a word, in the state that raises
nothing. -/
theorem camelCaseFrom_chunks {p : Chunk} {rest : List Chunk} (hp : ∀ r ∈ p :: rest, '_' ∉ r.word)
    (h : ∀ r ∈ (p :: rest).dropLast, r.word ≠ []) :
    camelCaseFrom raised ((p :: rest).flatMap Chunk.text) =
      p.camelCase raised ++ rest.flatMap (Chunk.camelCase false) := by
  induction rest generalizing p raised with
  | nil =>
    rw [List.flatMap_cons, List.flatMap_nil,
      camelCaseFrom_chunk raised (hp p List.mem_cons_self) (.inr rfl)]
    rfl
  | cons q rest ih =>
    rw [List.dropLast_cons_cons, List.forall_mem_cons] at h
    rw [List.forall_mem_cons] at hp
    rw [List.flatMap_cons, camelCaseFrom_chunk raised hp.1 (.inl h.1), ih false hp.2 h.2,
      List.flatMap_cons]

end Scanning

section Segments

variable {s : Chunks}

/-- Words behind single underscores are the segments between the underscores. -/
theorem splitOn_words {w : List Char} {ps : List Chunk} (hw : '_' ∉ w)
    (hplain : ∀ p ∈ ps, '_' ∉ p.word) (hone : ∀ p ∈ ps, p.underscores = 1) :
    (w ++ ps.flatMap Chunk.text).splitOn '_' = w :: ps.map (·.word) := by
  induction ps generalizing w with
  | nil =>
    rw [List.flatMap_nil, List.append_nil, List.splitOn_eq_singleton hw]
    rfl
  | cons p ps ih =>
    rw [List.forall_mem_cons] at hplain hone
    have htext : p.text = '_' :: p.word := by rw [Chunk.text, hone.1]; rfl
    rw [List.flatMap_cons, htext, List.cons_append, List.splitOn_append_cons_self_of_not_mem hw,
      ih hplain.1 hplain.2 hone.2, List.map_cons]

theorem Chunks.first_underscores_eq_zero (h : s.text.head? ≠ some '_') :
    s.first.underscores = 0 := by
  cases hk : s.first.underscores with
  | zero => rfl
  | succ k =>
    exfalso
    apply h
    simp [text, Chunk.text, hk, List.replicate_succ]

theorem Chunks.underscores_eq_one (h : ¬['_', '_'] <:+: s.text) {p : Chunk} (hp : p ∈ s.rest) :
    p.underscores = 1 := by
  have hpos := s.runs p hp
  by_contra hne
  obtain ⟨k, hk⟩ : ∃ k, p.underscores = 2 + k := ⟨p.underscores - 2, by omega⟩
  apply h
  have hpair : ['_', '_'] <:+: p.text := by
    rw [Chunk.text, hk, List.replicate_add, List.append_assoc]
    exact List.infix_append' [] _ _
  obtain ⟨before, after, hsplit⟩ := List.append_of_mem (List.mem_cons_of_mem s.first hp)
  refine hpair.trans ?_
  rw [text, hsplit, List.flatMap_append, List.flatMap_cons]
  exact ⟨_, _, List.append_assoc _ _ _⟩

private theorem underscore_notMem_raiseFirst {w : List Char} (hw : '_' ∉ w) (raised : Bool) :
    '_' ∉ raiseFirst raised w := by
  cases w with
  | nil => exact hw
  | cons c w =>
    rw [List.mem_cons, not_or] at hw
    rw [raiseFirst, List.mem_append, not_or]
    refine ⟨?_, hw.2⟩
    cases raised with
    | true => exact underscore_notMem_upper (Ne.symm hw.1)
    | false => simpa using hw.1

end Segments

theorem toList_camelCase {name : String} {s : Chunks} (hs : s.text = name.toList) :
    (camelCase name).toList = s.first.camelCase true ++ s.rest.flatMap (Chunk.camelCase false) := by
  rw [camelCase, String.toList_ofList, ← hs]
  exact camelCaseFrom_chunks true s.plain s.words

/-- Without an underscore at the start and without two in a row, the segments of a name are its
words, each of which is raised. -/
theorem toList_camelCase_of_segments {name : String} (hhead : name.toList.head? ≠ some '_')
    (hpair : ¬['_', '_'] <:+: name.toList) :
    (∀ w ∈ name.toList.splitOn '_', '_' ∉ w) ∧
      (camelCase name).toList = (name.toList.splitOn '_').flatMap (raiseFirst true) := by
  obtain ⟨s, hs⟩ : ∃ s : Chunks, s.text = name.toList := ⟨_, Chunks.text_ofChars _⟩
  rw [← hs] at hhead hpair
  have hfirst := Chunks.first_underscores_eq_zero hhead
  have hone (p : Chunk) (hp : p ∈ s.rest) : p.underscores = 1 := Chunks.underscores_eq_one hpair hp
  have hplain := List.forall_mem_cons.mp s.plain
  have hsegments : name.toList.splitOn '_' = (s.first :: s.rest).map (·.word) := by
    have htext : s.text = s.first.word ++ s.rest.flatMap Chunk.text := by
      rw [Chunks.text, List.flatMap_cons, Chunk.text, hfirst]
      rfl
    rw [← hs, htext, splitOn_words hplain.1 hplain.2 hone]
    rfl
  have hrest : s.rest.flatMap (Chunk.camelCase false) =
      s.rest.flatMap fun p => raiseFirst true p.word :=
    List.flatMap_congr fun p hp => Chunk.camelCase_eq_raiseFirst false (hone p hp)
  rw [hsegments]
  constructor
  · intro w hw
    obtain ⟨p, hp, rfl⟩ := List.mem_map.mp hw
    exact s.plain p hp
  · rw [toList_camelCase hs, Chunk.camelCase_eq_raiseFirst true (by rw [hfirst]; rfl), hrest,
      List.flatMap_map, List.flatMap_cons]

/-- Every name is cut into chunks, and in camel case they stay in their order: of a run of `k`
underscores half are kept, rounded up at the start of the name and down elsewhere, and the character
behind it is raised where `k` is even at the start and odd elsewhere. A name without an underscore at
its start and without two in a row becomes its segments with their first characters raised; no
underscore is left, since the upper case of other characters has none. -/
theorem camelCase_by_runs (name : String) :
    (∃ s : Chunks, s.text = name.toList) ∧
    (∀ s : Chunks, s.text = name.toList → (camelCase name).toList =
      List.replicate ((s.first.underscores + 1) / 2) '_' ++
        raiseFirst (s.first.underscores % 2 = 0) s.first.word ++
        s.rest.flatMap fun p =>
          List.replicate (p.underscores / 2) '_' ++ raiseFirst (p.underscores % 2 = 1) p.word) ∧
    (name.toList.head? ≠ some '_' → ¬['_', '_'] <:+: name.toList →
      (camelCase name).toList = (name.toList.splitOn '_').flatMap (raiseFirst true) ∧
        '_' ∉ (camelCase name).toList) ∧
    upper '_' = ['_'] ∧ ∀ c, c ≠ '_' → '_' ∉ upper c := by
  refine ⟨⟨_, Chunks.text_ofChars _⟩, fun s hs => ?_, fun hhead hpair => ?_, upper_underscore,
    fun c => underscore_notMem_upper⟩
  · rw [toList_camelCase hs, Chunk.camelCase_true]
    exact congrArg _ (List.flatMap_congr fun p _ => p.camelCase_false)
  · obtain ⟨hplain, hsegments⟩ := toList_camelCase_of_segments hhead hpair
    refine ⟨hsegments, ?_⟩
    rw [hsegments, List.mem_flatMap]
    rintro ⟨w, hw, hmem⟩
    exact underscore_notMem_raiseFirst (hplain w hw) true hmem

/-- A name with runs of either parity, at the start, between words and at the end, and one with
segments. -/
theorem camelCase_unevenRuns :
    (Chunks.ofChars "_late__bloom___ßeta_x_".toList).text = "_late__bloom___ßeta_x_".toList ∧
    (camelCase "_late__bloom___ßeta_x_").toList = "_late_bloom_SSetaX".toList ∧
    "frame_info".toList.head? ≠ some '_' ∧ ¬['_', '_'] <:+: "frame_info".toList ∧
    (camelCase "frame_info").toList = "FrameInfo".toList ∧
    '_' ∉ (camelCase "frame_info").toList := by
  have htext := Chunks.text_ofChars "_late__bloom___ßeta_x_".toList
  have hruns := (camelCase_by_runs "_late__bloom___ßeta_x_").2.1 _ htext
  have hhead : "frame_info".toList.head? ≠ some '_' := by decide +kernel
  have hpair : ¬['_', '_'] <:+: "frame_info".toList := by decide +kernel
  obtain ⟨hsegments, hnone⟩ := (camelCase_by_runs "frame_info").2.2.1 hhead hpair
  refine ⟨htext, hruns.trans ?_, hhead, hpair, hsegments.trans ?_, hnone⟩
  · decide +kernel
  · decide +kernel

end ShaderReflection.Text
