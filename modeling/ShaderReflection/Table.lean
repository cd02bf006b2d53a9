/-! Finite maps that remember the order in which their keys were first set. -/
namespace ShaderReflection

/-- A finite map. Its entries are in the order of the first `set` of their keys. -/
structure Table (κ : Type u) (α : Type v) where
  entries : List (κ × α)
  deriving DecidableEq, Repr

namespace Table

variable {κ : Type u} {α : Type v} [DecidableEq κ]

def empty : Table κ α := ⟨[]⟩

/-- The first value that a list of entries has for a key. -/
def find (k : κ) : List (κ × α) → Option α
  | [] => none
  | (k', a) :: rest => if k' = k then some a else find k rest

/-- Replace the first value for a key, or add the key at the end. -/
def put (k : κ) (a : α) : List (κ × α) → List (κ × α)
  | [] => [(k, a)]
  | (k', a') :: rest => if k' = k then (k, a) :: rest else (k', a') :: put k a rest

def get? (t : Table κ α) (k : κ) : Option α := find k t.entries

/-- Set the value at a key; a key that is there keeps its place. -/
def set (t : Table κ α) (k : κ) (a : α) : Table κ α := ⟨put k a t.entries⟩

def keys (t : Table κ α) : List κ := t.entries.map (·.1)

/-- The values in the order of their keys. -/
def values (t : Table κ α) : List α := t.entries.map (·.2)

def contains (t : Table κ α) (k : κ) : Bool := (t.get? k).isSome

theorem find_put (k k' : κ) (a : α) (es : List (κ × α)) :
    find k' (put k a es) = if k' = k then some a else find k' es := by
  induction es with
  | nil => simp [put, find, eq_comm]
  | cons e rest ih => grind [put, find]

@[simp] theorem get?_empty (k : κ) : (empty : Table κ α).get? k = none := rfl

theorem get?_set (t : Table κ α) (k k' : κ) (a : α) :
    (t.set k a).get? k' = if k' = k then some a else t.get? k' := find_put k k' a t.entries

@[simp] theorem get?_set_self (t : Table κ α) (k : κ) (a : α) :
    (t.set k a).get? k = some a := by simp [get?_set]

theorem get?_set_of_ne (t : Table κ α) {k k' : κ} (h : k' ≠ k) (a : α) :
    (t.set k a).get? k' = t.get? k' := by simp [get?_set, h]

theorem mem_of_find {k : κ} {a : α} {es : List (κ × α)} (h : find k es = some a) : (k, a) ∈ es := by
  induction es with
  | nil => cases h
  | cons e rest ih => grind [find]

theorem mem_entries_of_get? {t : Table κ α} {k : κ} {a : α} (h : t.get? k = some a) :
    (k, a) ∈ t.entries := mem_of_find h

theorem mem_of_mem_put {k : κ} {a : α} {es : List (κ × α)} {e : κ × α} (h : e ∈ put k a es) :
    e = (k, a) ∨ e ∈ es := by
  induction es with
  | nil => exact .inl (List.mem_singleton.mp h)
  | cons e' rest ih => grind [put]

theorem mem_entries_of_mem_set {t : Table κ α} {k : κ} {a : α} {e : κ × α}
    (h : e ∈ (t.set k a).entries) : e = (k, a) ∨ e ∈ t.entries := mem_of_mem_put h

theorem find_isSome_iff (k : κ) (es : List (κ × α)) :
    (find k es).isSome ↔ k ∈ es.map (·.1) := by
  induction es with
  | nil => simp [find]
  | cons e rest ih => grind [find]

theorem get?_isSome_iff (t : Table κ α) (k : κ) : (t.get? k).isSome ↔ k ∈ t.keys :=
  find_isSome_iff k t.entries

theorem map_fst_put (k : κ) (a : α) (es : List (κ × α)) :
    (put k a es).map (·.1) =
      if k ∈ es.map (·.1) then es.map (·.1) else es.map (·.1) ++ [k] := by
  induction es with
  | nil => simp [put]
  | cons e rest ih =>
    by_cases h : e.1 = k
    · simp [put, h]
    · simp only [put, h, if_false, List.map_cons, ih, List.mem_cons, Ne.symm h, false_or]
      split <;> simp

/-- Setting a key keeps the order of all keys. -/
theorem keys_set (t : Table κ α) (k : κ) (a : α) :
    (t.set k a).keys = if k ∈ t.keys then t.keys else t.keys ++ [k] :=
  map_fst_put k a t.entries

theorem put_of_find_eq_none {k : κ} {es : List (κ × α)} (h : find k es = none) (a : α) :
    put k a es = es ++ [(k, a)] := by
  induction es with
  | nil => rfl
  | cons e rest ih => grind [put, find]

/-- A new key goes to the end. -/
theorem entries_set_of_get?_eq_none {t : Table κ α} {k : κ} (h : t.get? k = none) (a : α) :
    (t.set k a).entries = t.entries ++ [(k, a)] := put_of_find_eq_none h a

end Table
end ShaderReflection
