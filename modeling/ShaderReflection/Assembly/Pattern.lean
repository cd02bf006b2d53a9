/-! Patterns that list every place where a match may end, the most preferred first. -/
namespace ShaderReflection.Assembly

/-- A place in a text: how many characters lie before it, and the characters after it. -/
structure Cut where
  taken : Nat
  rest : List Char
  deriving DecidableEq, Repr

/-- The ends of the matches that start at a place, in order of preference. -/
abbrev Pattern := Cut → List Cut

namespace Pattern

def one (p : Char → Bool) : Pattern := fun s =>
  match s.rest with
  | c :: cs => if p c then [⟨s.taken + 1, cs⟩] else []
  | [] => []

/-- The ends of a run, added in front of those already found. -/
def runFrom (p : Char → Bool) (taken : Nat) (found : List Cut) : List Char → List Cut
  | [] => ⟨taken, []⟩ :: found
  | c :: cs =>
    if p c then runFrom p (taken + 1) (⟨taken, c :: cs⟩ :: found) cs
    else ⟨taken, c :: cs⟩ :: found

/-- A run of characters of a class, as long as possible. -/
def many (p : Char → Bool) : Pattern := fun s => runFrom p s.taken [] s.rest

def seq (a b : Pattern) : Pattern := fun s => (a s).flatMap b

/-- The first pattern, or else the second. -/
def alt (a b : Pattern) : Pattern := fun s => a s ++ b s

def opt (a : Pattern) : Pattern := fun s => a s ++ [s]

def many1 (p : Char → Bool) : Pattern := seq (one p) (many p)

/-- The ends that the following text allows. -/
def before (a : Pattern) (allowed : List Char → Bool) : Pattern := fun s =>
  (a s).filter (allowed ·.rest)

/-- The length of the most preferred match at the start of a text. -/
def length? (a : Pattern) (cs : List Char) : Option Nat := (a ⟨0, cs⟩).head?.map (·.taken)

/-- Every end of a pattern is a later place of the same text. -/
def Advances (a : Pattern) : Prop :=
  ∀ s, ∀ t ∈ a s, s.taken ≤ t.taken ∧ t.rest = s.rest.drop (t.taken - s.taken) ∧
    t.taken - s.taken ≤ s.rest.length

/-- Every end of a pattern lies at least one character further. -/
def Consumes (a : Pattern) : Prop := ∀ s, ∀ t ∈ a s, s.taken < t.taken

theorem one_advances (p : Char → Bool) : (one p).Advances := by
  intro s t ht
  obtain ⟨n, cs⟩ := s
  cases cs with
  | nil => simp [one] at ht
  | cons c cs =>
    by_cases h : p c <;> simp [one, h] at ht
    subst ht
    simp

theorem one_consumes (p : Char → Bool) : (one p).Consumes := by
  intro s t ht
  obtain ⟨n, cs⟩ := s
  cases cs with
  | nil => simp [one] at ht
  | cons c cs =>
    by_cases h : p c <;> simp [one, h] at ht
    subst ht
    simp

theorem mem_runFrom {p : Char → Bool} {n : Nat} {found : List Cut} {cs : List Char} {t : Cut}
    (ht : t ∈ runFrom p n found cs) :
    t ∈ found ∨ n ≤ t.taken ∧ t.rest = cs.drop (t.taken - n) ∧ t.taken - n ≤ cs.length := by
  induction cs generalizing n found with
  | nil =>
    simp only [runFrom, List.mem_cons] at ht
    rcases ht with rfl | h
    · right; simp
    · exact .inl h
  | cons c cs ih =>
    by_cases hp : p c <;> simp only [runFrom, hp, if_true, Bool.false_eq_true, if_false] at ht
    · rcases ih ht with h | ⟨h1, h2, h3⟩
      · rcases List.mem_cons.1 h with rfl | h
        · right; simp
        · exact .inl h
      · refine .inr ⟨by omega, ?_, by simp; omega⟩
        have : t.taken - n = (t.taken - (n + 1)) + 1 := by omega
        rw [this, List.drop_succ_cons, h2]
    · rcases List.mem_cons.1 ht with rfl | h
      · right; simp
      · exact .inl h

theorem many_advances (p : Char → Bool) : (many p).Advances := by
  intro s t ht
  rcases mem_runFrom ht with h | h
  · simp at h
  · exact h

theorem Advances.seq {a b : Pattern} (ha : a.Advances) (hb : b.Advances) :
    (a.seq b).Advances := by
  intro s t ht
  obtain ⟨u, hu, ht⟩ := List.mem_flatMap.1 ht
  obtain ⟨h1, h2, h3⟩ := ha s u hu
  obtain ⟨k1, k2, k3⟩ := hb u t ht
  have hd : t.taken - s.taken = (u.taken - s.taken) + (t.taken - u.taken) := by omega
  refine ⟨by omega, ?_, ?_⟩
  · rw [k2, h2, List.drop_drop, hd]
  · rw [h2, List.length_drop] at k3; omega

theorem Advances.alt {a b : Pattern} (ha : a.Advances) (hb : b.Advances) :
    (a.alt b).Advances := by
  intro s t ht
  rcases List.mem_append.1 ht with h | h
  · exact ha s t h
  · exact hb s t h

theorem Advances.opt {a : Pattern} (ha : a.Advances) : a.opt.Advances := by
  intro s t ht
  rcases List.mem_append.1 ht with h | h
  · exact ha s t h
  · simp at h; subst h; simp

theorem Advances.before {a : Pattern} (ha : a.Advances) (allowed : List Char → Bool) :
    (a.before allowed).Advances :=
  fun s t ht => ha s t (List.mem_filter.1 ht).1

theorem many1_advances (p : Char → Bool) : (many1 p).Advances :=
  (one_advances p).seq (many_advances p)

theorem Consumes.seq {a b : Pattern} (ha : a.Consumes) (hb : b.Advances) :
    (a.seq b).Consumes := by
  intro s t ht
  obtain ⟨u, hu, ht⟩ := List.mem_flatMap.1 ht
  exact Nat.lt_of_lt_of_le (ha s u hu) (hb u t ht).1

theorem Consumes.seq_right {a b : Pattern} (ha : a.Advances) (hb : b.Consumes) :
    (a.seq b).Consumes := by
  intro s t ht
  obtain ⟨u, hu, ht⟩ := List.mem_flatMap.1 ht
  exact Nat.lt_of_le_of_lt (ha s u hu).1 (hb u t ht)

theorem Consumes.alt {a b : Pattern} (ha : a.Consumes) (hb : b.Consumes) :
    (a.alt b).Consumes := by
  intro s t ht
  rcases List.mem_append.1 ht with h | h
  · exact ha s t h
  · exact hb s t h

theorem Consumes.before {a : Pattern} (ha : a.Consumes) (allowed : List Char → Bool) :
    (a.before allowed).Consumes :=
  fun s t ht => ha s t (List.mem_filter.1 ht).1

theorem many1_consumes (p : Char → Bool) : (many1 p).Consumes :=
  (one_consumes p).seq (many_advances p)

theorem length?_bounds {a : Pattern} (ha : a.Advances) (hc : a.Consumes) {cs : List Char} {n : Nat}
    (h : a.length? cs = some n) : 0 < n ∧ n ≤ cs.length := by
  unfold length? at h
  cases hd : a ⟨0, cs⟩ with
  | nil => simp [hd] at h
  | cons t ts =>
    simp only [hd, List.head?_cons, Option.map_some, Option.some.injEq] at h
    have hm : t ∈ a ⟨0, cs⟩ := by simp [hd]
    have h1 := hc _ t hm
    have h2 := (ha _ t hm).2.2
    simp at h1 h2
    omega

end Pattern
end ShaderReflection.Assembly
