import Mathlib.Algebra.Order.BigOperators.Group.List
import Mathlib.Algebra.Order.Ring.Nat
import Mathlib.Data.List.Forall2
import ShaderReflection.Proofs.Json.QuotedTexts
import ShaderReflection.Proofs.Number.DecimalText

/-! Whatever is written as JSON is ASCII and is read back as it was: numbers, texts, and arrays and
objects of any depth with their line breaks and indents. -/
namespace ShaderReflection.Json

open Reader
open Text (Stops takeWhile_append_of_stops dropWhile_append_of_stops)

mutual

def value : Json → Value
  | .int n => .integer n
  | .text s => .text s
  | .array elements => .array (elementValues elements)
  | .object fields => .object (fieldValues fields)

def elementValues : List Json → List Value
  | [] => []
  | e :: es => value e :: elementValues es

def fieldValues : List (String × Json) → List (String × Value)
  | [] => []
  | f :: fs => fieldValue f :: fieldValues fs

def fieldValue : String × Json → String × Value
  | (key, v) => (key, value v)

end

def continuesNumber (c : Char) : Bool := c.isDigit || c = '.' || c = 'e' || c = 'E'

/-- A reader takes just this text, whatever is behind it that no number could go on with. -/
def Reads {α : Type} (item : Reader α) (text : List Char) (a : α) : Prop :=
  ∀ rest, Stops continuesNumber rest → item (text ++ rest) = some (a, rest)

section Numbers

private theorem digits?_append {ds rest : List Char} (hne : ds ≠ [])
    (hds : ∀ d ∈ ds, d.isDigit = true)
    (hr : Stops Char.isDigit rest) : digits? (ds ++ rest) = some (ds, rest) := by
  obtain ⟨d, ds, rfl⟩ := List.exists_cons_of_ne_nil hne
  unfold digits?
  rw [takeWhile_append_of_stops hds hr, dropWhile_append_of_stops hds hr]

private theorem whole?_toDigits (n : Nat) {rest : List Char} (hr : Stops Char.isDigit rest) :
    whole? (Nat.toDigits 10 n ++ rest) = some (Nat.toDigits 10 n, rest) := by
  have hdigits := digits?_append Nat.toDigits_ne_nil
    (fun d hd => Nat.isDigit_of_mem_toDigits (b := 10) (n := n) (by decide) (by decide) hd) hr
  unfold whole?
  rw [hdigits]
  split
  case h_1 ds r h =>
    obtain ⟨hzero, rfl⟩ := Prod.mk.inj (Option.some.inj h)
    have hn : n = 0 := by
      by_contra hn
      exact Number.head?_toDigits_ne_zero hn (by rw [hzero]; rfl)
    subst hn
    cases hzero
  case h_2 => rfl

private theorem unsigned?_toDigits (negative : Bool) (n : Nat) :
    Reads (unsigned? negative) (Nat.toDigits 10 n) (.integer (signed negative n)) := by
  intro rest hr
  have hstop : Stops Char.isDigit rest := fun c hc => by
    have := hr c hc
    simp only [continuesNumber, Bool.or_eq_false_iff] at this
    exact this.1.1.1
  have hfraction : fraction? rest = some (none, rest) := by
    unfold fraction?
    split
    · cases hr '.' rfl
    · rfl
  have hexponent : exponent? rest = some (none, rest) := by
    unfold exponent?
    split
    any_goals first | cases hr 'e' rfl | cases hr 'E' rfl
    rfl
  have hvalue : magnitude (Nat.toDigits 10 n) = n :=
    Nat.ofDigitChars_toDigits (by decide) (by decide)
  simp [unsigned?, whole?_toDigits n hstop, hfraction, hexponent, ofParts, hvalue]

theorem number?_toString (n : Int) : Reads number? (toString n).toList (.integer n) := by
  intro rest hr
  rw [Number.toList_toString]
  by_cases hn : n < 0
  · have hsigned : signed true n.natAbs = n := by simp only [signed, if_true]; omega
    have hread := unsigned?_toDigits true n.natAbs rest hr
    rw [hsigned] at hread
    rw [if_pos hn]
    exact hread
  · have hsigned : signed false n.natAbs = n := by
      simp only [signed, Bool.false_eq_true, if_false]
      omega
    have hne : ∀ cs, Nat.toDigits 10 n.natAbs ++ rest ≠ '-' :: cs :=
      Number.toDigits_append_ne_sign _ _
    have hread := unsigned?_toDigits false n.natAbs rest hr
    rw [hsigned] at hread
    rw [if_neg hn, List.nil_append]
    unfold number?
    split
    · exact absurd ‹_› (hne _)
    · exact hread

/-- A text that begins like a number is read as one. -/
private theorem value?_eq_number? {c : Char} (hc : c = '-' ∨ c.isDigit = true) (steps : Nat)
    (cs : List Char) : value? (steps + 1) (c :: cs) = number? (c :: cs) := by
  unfold value?
  split
  case h_7 => rfl
  all_goals
    obtain ⟨rfl, -⟩ := List.cons.inj ‹c :: cs = _›
    rcases hc with hc | hc <;> cases hc

theorem value?_toString (n : Int) (steps : Nat) :
    Reads (value? (steps + 1)) (toString n).toList (.integer n) := by
  intro rest hr
  have hread := number?_toString n rest hr
  obtain ⟨sign, c, cs, ht, hsign, hdigits⟩ := Number.exists_sign_digits n
  rw [ht] at hread ⊢
  rcases hsign with rfl | rfl
  · rw [← hread]
    exact value?_eq_number? (.inr (hdigits c (by simp))) steps (cs ++ rest)
  · rw [← hread]
    exact value?_eq_number? (.inl rfl) steps (c :: cs ++ rest)

end Numbers

section Blocks

variable {α : Type} {item : Reader α} {closing : Char}

/-- A text can stand first between brackets: it is neither blank there nor the end of the block. -/
def StartsItem (cs : List Char) : Prop :=
  ∃ c rest, cs = c :: rest ∧ isBlank c = false ∧ c ≠ ']' ∧ c ≠ '\x7d'

theorem skipBlanks_cons {c : Char} (h : isBlank c = false) (cs : List Char) :
    skipBlanks (c :: cs) = c :: cs := by
  simp [skipBlanks, h]

theorem skipBlanks_newline_append (depth : Nat) (cs : List Char) :
    skipBlanks (newline depth ++ cs) = skipBlanks cs := by
  refine List.dropWhile_append_of_pos fun c hc => ?_
  rcases List.mem_cons.mp hc with rfl | hc
  · rfl
  · rw [List.eq_of_mem_replicate hc]
    rfl

theorem StartsItem.skipBlanks {cs : List Char} (h : StartsItem cs) (rest : List Char) :
    Reader.skipBlanks (cs ++ rest) = cs ++ rest := by
  obtain ⟨c, cs, rfl, hblank, -⟩ := h
  exact skipBlanks_cons hblank (cs ++ rest)

/-- Items, each on a line of its own, up to the closing bracket. -/
theorem items?_texts (hclosing : closing = ']' ∨ closing = '\x7d') {texts : List (List Char)}
    {as : List α} (h : List.Forall₂ (fun t a => StartsItem t ∧ Reads item t a) texts as)
    {text : List Char} {a : α} (htext : Reads item text a) {steps : Nat}
    (hsteps : texts.length < steps) (depth : Nat) (rest : List Char) :
    items? item closing steps (text ++ (texts.flatMap (fun t => ',' :: newline (depth + 1) ++ t) ++
      (newline depth ++ closing :: rest))) = some (a :: as, rest) := by
  obtain ⟨steps, rfl⟩ := Nat.exists_eq_add_one_of_ne_zero (Nat.ne_zero_of_lt hsteps)
  -- Behind an item stands a comma or a line break, with which no number could go on.
  induction h generalizing text a steps with
  | nil =>
    have hread := htext (newline depth ++ closing :: rest) (by rintro c ⟨⟩; rfl)
    have hskip : skipBlanks (newline depth ++ closing :: rest) = closing :: rest := by
      rw [skipBlanks_newline_append, skipBlanks_cons]
      rcases hclosing with rfl | rfl <;> rfl
    simp only [items?, List.flatMap_nil, List.nil_append, hread, hskip, Option.bind_some]
    rcases hclosing with rfl | rfl <;> rfl
  | @cons t b texts bs ht _ ih =>
    generalize hbehind : t ++ (texts.flatMap (fun t => ',' :: newline (depth + 1) ++ t) ++
      (newline depth ++ closing :: rest)) = behind
    have hread := htext (',' :: newline (depth + 1) ++ behind) (by rintro c ⟨⟩; rfl)
    have hskip : skipBlanks (newline (depth + 1) ++ behind) = behind := by
      rw [skipBlanks_newline_append, ← hbehind, ht.1.skipBlanks]
    rw [List.length_cons] at hsteps
    have hitems := ih ht.2 (steps - 1) (by omega)
    rw [Nat.sub_add_cancel (by omega)] at hitems
    rw [hbehind] at hitems
    have hshape : (t :: texts).flatMap (fun t => ',' :: newline (depth + 1) ++ t) ++
        (newline depth ++ closing :: rest) = ',' :: newline (depth + 1) ++ behind := by
      rw [List.flatMap_cons, List.append_assoc, List.append_assoc, hbehind]
    have hcomma := skipBlanks_cons (c := ',') rfl (newline (depth + 1) ++ behind)
    rw [hshape, items?, hread]
    simp [hcomma, hskip, hitems]

theorem bracketed?_block (hclosing : closing = ']' ∨ closing = '\x7d') {texts : List (List Char)}
    {as : List α} (h : List.Forall₂ (fun t a => StartsItem t ∧ Reads item t a) texts as)
    {steps : Nat} (hsteps : texts.length ≤ steps) (depth : Nat) (opening : Char)
    (rest : List Char) :
    ∃ cs, block opening closing depth texts ++ rest = opening :: cs ∧
      bracketed? item closing steps cs = some (as, rest) := by
  cases h with
  | nil =>
    have hskip : skipBlanks (closing :: rest) = closing :: rest := by
      rcases hclosing with rfl | rfl <;> rfl
    exact ⟨closing :: rest, rfl, by simp [bracketed?, hskip]⟩
  | @cons t a texts as ht h =>
    refine ⟨newline (depth + 1) ++ (t ++ (texts.flatMap (fun t => ',' :: newline (depth + 1) ++ t)
      ++ (newline depth ++ closing :: rest))), by simp [block], ?_⟩
    have hitems := items?_texts hclosing h ht.2 hsteps depth rest
    unfold bracketed?
    rw [skipBlanks_newline_append, ht.1.skipBlanks]
    obtain ⟨c, cs, rfl, -, hsquare, hcurly⟩ := ht.1
    have hc : c ≠ closing := by rcases hclosing with rfl | rfl <;> assumption
    simp only [List.cons_append, if_neg hc]
    exact hitems

private theorem startsItem_block (opening closing : Char) (depth : Nat) (texts : List (List Char))
    (h : opening = '[' ∨ opening = '\x7b') : StartsItem (block opening closing depth texts) := by
  have hopening : isBlank opening = false ∧ opening ≠ ']' ∧ opening ≠ '\x7d' := by
    rcases h with rfl | rfl <;> decide
  cases texts with
  | nil => exact ⟨opening, _, rfl, hopening⟩
  | cons t texts => exact ⟨opening, _, rfl, hopening⟩

private theorem length_texts_lt (opening closing : Char) (depth : Nat) (texts : List (List Char)) :
    (texts.map List.length).sum + texts.length < (block opening closing depth texts).length := by
  have hle : (texts.map List.length).sum + texts.length ≤
      (texts.flatMap (fun t => ',' :: newline (depth + 1) ++ t)).length := by
    induction texts with
    | nil => simp
    | cons t texts ih =>
      simp only [List.map_cons, List.sum_cons, List.length_cons, List.flatMap_cons,
        List.length_append]
      omega
  cases texts with
  | nil => simp [block]
  | cons t texts =>
    simp only [block, List.map_cons, List.sum_cons, List.length_cons, List.flatMap_cons,
      List.length_append, newline] at hle ⊢
    omega

/-- The brackets pay for a step: items are shorter than their block, and fewer than its
characters. -/
private theorem length_le_of_block {opening closing : Char} {depth : Nat} {texts : List (List Char)}
    {steps : Nat} (h : (block opening closing depth texts).length ≤ steps + 1) :
    texts.length ≤ steps ∧ ∀ t ∈ texts, t.length ≤ steps := by
  have hlen := length_texts_lt opening closing depth texts
  refine ⟨by omega, fun t ht => ?_⟩
  have hsum := List.le_sum_of_mem (List.mem_map_of_mem (f := List.length) ht)
  omega

end Blocks

section Values

variable {depth steps : Nat}

theorem startsItem_quoted_append (s : String) (cs : List Char) : StartsItem (quoted s ++ cs) :=
  ⟨'"', _, rfl, rfl, by decide, by decide⟩

private theorem startsItem_of_isDigit {c : Char} (h : c.isDigit = true) (cs : List Char) :
    StartsItem (c :: cs) := by
  refine ⟨c, cs, rfl, ?_, ?_⟩
  · simp only [isBlank, Bool.or_eq_false_iff, decide_eq_false_iff_not]
    refine ⟨⟨⟨?_, ?_⟩, ?_⟩, ?_⟩ <;> rintro rfl <;> cases h
  · constructor <;> rintro rfl <;> cases h

theorem startsItem_textAt (depth : Nat) (v : Json) : StartsItem (textAt depth v) := by
  cases v with
  | int n =>
    obtain ⟨sign, c, cs, ht, hsign, hdigits⟩ := Number.exists_sign_digits n
    rw [textAt, ht]
    rcases hsign with rfl | rfl
    · exact startsItem_of_isDigit (hdigits c (by simp)) cs
    · exact ⟨'-', c :: cs, rfl, rfl, by decide, by decide⟩
  | text s => simpa [textAt] using startsItem_quoted_append s []
  | array elements => exact startsItem_block _ _ _ _ (.inl rfl)
  | object fields => exact startsItem_block _ _ _ _ (.inr rfl)

theorem reads_quoted (s : String) (steps : Nat) :
    Reads (value? (steps + 1)) (quoted s) (.text s) := by
  intro rest _
  obtain ⟨cs, hcs, hread⟩ := text?_quoted s rest
  rw [hcs, value?, hread]
  rfl

theorem reads_array {texts : List (List Char)} {vs : List Value}
    (h : List.Forall₂ (fun t v => StartsItem t ∧ Reads (value? steps) t v) texts vs)
    (hsteps : texts.length ≤ steps) :
    Reads (value? (steps + 1)) (block '[' ']' depth texts) (.array vs) := by
  intro rest _
  obtain ⟨cs, hcs, hread⟩ := bracketed?_block (.inl rfl) h hsteps depth '[' rest
  rw [hcs, value?, hread]
  rfl

theorem reads_object {texts : List (List Char)} {fs : List (String × Value)}
    (h : List.Forall₂ (fun t f => StartsItem t ∧ Reads (field? (value? steps)) t f) texts fs)
    (hsteps : texts.length ≤ steps) :
    Reads (value? (steps + 1)) (block '\x7b' '\x7d' depth texts) (.object fs) := by
  intro rest _
  obtain ⟨cs, hcs, hread⟩ := bracketed?_block (.inr rfl) h hsteps depth '\x7b' rest
  rw [hcs, value?, hread]
  rfl

theorem reads_field {text : List Char} {v : Value} (hstart : StartsItem text)
    (h : Reads (value? steps) text v) (key : String) :
    Reads (field? (value? steps)) (quoted key ++ ':' :: ' ' :: text) (key, v) := by
  intro rest hr
  obtain ⟨cs, hcs, hkey⟩ := text?_quoted key (':' :: ' ' :: (text ++ rest))
  have hcolon := skipBlanks_cons (c := ':') rfl (' ' :: (text ++ rest))
  have hskip : skipBlanks (' ' :: (text ++ rest)) = text ++ rest := hstart.skipBlanks rest
  rw [List.append_assoc, List.cons_append, List.cons_append, hcs, field?, hkey]
  simp [hcolon, hskip, h rest hr]

mutual

/-- The text of a value is read back as the value, with as many steps as it has characters. -/
theorem reads_textAt : ∀ (v : Json) (depth steps : Nat), (textAt depth v).length ≤ steps →
    Reads (value? steps) (textAt depth v) v.value
  | v, depth, steps, h => by
    obtain ⟨steps, rfl⟩ : ∃ n, steps = n + 1 := by
      obtain ⟨c, cs, ht, -⟩ := startsItem_textAt depth v
      rw [ht, List.length_cons] at h
      exact Nat.exists_eq_add_one_of_ne_zero (by omega)
    match v with
    | .int n => exact value?_toString n steps
    | .text s => exact reads_quoted s steps
    | .array elements =>
      rw [textAt] at h
      obtain ⟨hcount, hitems⟩ := length_le_of_block h
      exact reads_array (reads_elementTexts elements (depth + 1) steps hitems) hcount
    | .object fields =>
      rw [textAt] at h
      obtain ⟨hcount, hitems⟩ := length_le_of_block h
      exact reads_object (reads_fieldTexts fields (depth + 1) steps hitems) hcount

theorem reads_elementTexts : ∀ (es : List Json) (depth steps : Nat),
    (∀ t ∈ elementTexts depth es, t.length ≤ steps) →
    List.Forall₂ (fun t v => StartsItem t ∧ Reads (value? steps) t v) (elementTexts depth es)
      (elementValues es)
  | [], _, _, _ => .nil
  | e :: es, depth, steps, h => by
    have hhead := reads_textAt e depth steps (h _ (by simp [elementTexts]))
    have htail := reads_elementTexts es depth steps fun t ht => h t (by simp [elementTexts, ht])
    exact .cons ⟨startsItem_textAt depth e, hhead⟩ htail

theorem reads_fieldTexts : ∀ (fs : List (String × Json)) (depth steps : Nat),
    (∀ t ∈ fieldTexts depth fs, t.length ≤ steps) →
    List.Forall₂ (fun t f => StartsItem t ∧ Reads (field? (value? steps)) t f)
      (fieldTexts depth fs) (fieldValues fs)
  | [], _, _, _ => .nil
  | (key, v) :: fs, depth, steps, h => by
    have hlen : (fieldText depth (key, v)).length ≤ steps := h _ (by simp [fieldTexts])
    have hv := reads_textAt v depth steps (by simp [fieldText] at hlen; omega)
    have hhead := reads_field (startsItem_textAt depth v) hv key
    have htail := reads_fieldTexts fs depth steps fun t ht => h t (by simp [fieldTexts, ht])
    exact .cons ⟨startsItem_quoted_append key _, hhead⟩ htail

end

/-- The written text of a value is read as that value. -/
theorem read?_toText (v : Json) : read? v.toText = some v.value := by
  have hread := reads_textAt v 0 (textAt 0 v ++ ['\n']).length (by simp) ['\n'] (by rintro c ⟨⟩; rfl)
  have hskip := (startsItem_textAt 0 v).skipBlanks ['\n']
  unfold read? toText
  rw [String.toList_ofList, hskip, hread]
  rfl

end Values

section Ascii

private theorem ascii_of_mem_newline {depth : Nat} {c : Char} (h : c ∈ newline depth) :
    c.toNat < 128 := by
  rcases List.mem_cons.mp h with rfl | h
  · decide
  · rw [List.eq_of_mem_replicate h]
    decide

private theorem ascii_of_mem_block {opening closing : Char} (ho : opening.toNat < 128)
    (hc : closing.toNat < 128) {depth : Nat} {texts : List (List Char)}
    (h : ∀ t ∈ texts, ∀ c ∈ t, c.toNat < 128) {c : Char}
    (hmem : c ∈ block opening closing depth texts) : c.toNat < 128 := by
  cases texts with
  | nil =>
    have hends : c = opening ∨ c = closing := by simpa [block] using hmem
    rcases hends with rfl | rfl <;> assumption
  | cons t texts =>
    simp only [block, List.mem_cons, List.mem_append, List.mem_flatMap, List.not_mem_nil,
      or_false] at hmem
    rcases hmem with rfl | (((hn | ht) | ⟨u, hu, (rfl | hn) | hmem⟩) | hn) | rfl
    · exact ho
    · exact ascii_of_mem_newline hn
    · exact h t (by simp) c ht
    · decide
    · exact ascii_of_mem_newline hn
    · exact h u (by simp [hu]) c hmem
    · exact ascii_of_mem_newline hn
    · exact hc

private theorem ascii_of_mem_toString {n : Int} {c : Char} (h : c ∈ (toString n).toList) :
    c.toNat < 128 := by
  obtain ⟨sign, d, ds, ht, hsign, hdigits⟩ := Number.exists_sign_digits n
  rw [ht] at h
  rcases List.mem_append.mp h with h | h
  · rcases hsign with rfl | rfl
    · cases h
    · rw [List.mem_singleton.mp h]
      decide
  · have hdigit := hdigits c h
    simp only [Char.isDigit, Bool.and_eq_true, decide_eq_true_eq] at hdigit
    exact Nat.lt_of_le_of_lt (UInt32.le_iff_toNat_le.mp hdigit.2) (by decide)

mutual

theorem ascii_of_mem_textAt : ∀ (v : Json) (depth : Nat), ∀ c ∈ textAt depth v, c.toNat < 128
  | .int _, _, _, h => ascii_of_mem_toString h
  | .text _, _, _, h => ascii_of_mem_quoted h
  | .array elements, depth, _, h =>
    ascii_of_mem_block (by decide) (by decide) (ascii_of_mem_elementTexts elements (depth + 1)) h
  | .object fields, depth, _, h =>
    ascii_of_mem_block (by decide) (by decide) (ascii_of_mem_fieldTexts fields (depth + 1)) h

theorem ascii_of_mem_elementTexts : ∀ (es : List Json) (depth : Nat),
    ∀ t ∈ elementTexts depth es, ∀ c ∈ t, c.toNat < 128
  | [], _, _, h => by cases h
  | e :: es, depth, t, h => by
    rcases List.mem_cons.mp h with rfl | h
    · exact ascii_of_mem_textAt e depth
    · exact ascii_of_mem_elementTexts es depth t h

theorem ascii_of_mem_fieldTexts : ∀ (fs : List (String × Json)) (depth : Nat),
    ∀ t ∈ fieldTexts depth fs, ∀ c ∈ t, c.toNat < 128
  | [], _, _, h => by cases h
  | (key, v) :: fs, depth, t, h => by
    rcases List.mem_cons.mp h with rfl | h
    · intro c hc
      simp only [fieldText, List.mem_append, List.mem_cons] at hc
      rcases hc with hc | rfl | rfl | hc
      · exact ascii_of_mem_quoted hc
      · decide
      · decide
      · exact ascii_of_mem_textAt v depth c hc
    · exact ascii_of_mem_fieldTexts fs depth t h

end

end Ascii

section Injectivity

mutual

theorem value_injective : ∀ v w : Json, v.value = w.value → v = w
  | .int n, w, h => by
    cases w with
    | int m => rw [Value.integer.inj h]
    | _ => cases h
  | .text s, w, h => by
    cases w with
    | text t => rw [Value.text.inj h]
    | _ => cases h
  | .array es, w, h => by
    cases w with
    | array fs => rw [elementValues_injective es fs (Value.array.inj h)]
    | _ => cases h
  | .object fs, w, h => by
    cases w with
    | object gs => rw [fieldValues_injective fs gs (Value.object.inj h)]
    | _ => cases h

theorem elementValues_injective : ∀ es fs : List Json, elementValues es = elementValues fs → es = fs
  | [], [], _ => rfl
  | [], _ :: _, h => by cases h
  | _ :: _, [], h => by cases h
  | e :: es, f :: fs, h => by
    obtain ⟨hhead, htail⟩ := List.cons.inj h
    rw [value_injective e f hhead, elementValues_injective es fs htail]

theorem fieldValues_injective : ∀ fs gs : List (String × Json),
    fieldValues fs = fieldValues gs → fs = gs
  | [], [], _ => rfl
  | [], _ :: _, h => by cases h
  | _ :: _, [], h => by cases h
  | (key, v) :: fs, (key', w) :: gs, h => by
    obtain ⟨hhead, htail⟩ := List.cons.inj h
    obtain ⟨rfl, hv⟩ := Prod.mk.inj hhead
    rw [value_injective v w hv, fieldValues_injective fs gs htail]

end

/-- Different values have different texts. -/
theorem toText_injective {v w : Json} (h : v.toText = w.toText) : v = w := by
  have hread := read?_toText w
  rw [← h, read?_toText v] at hread
  exact value_injective v w (Option.some.inj hread)

end Injectivity
end ShaderReflection.Json
