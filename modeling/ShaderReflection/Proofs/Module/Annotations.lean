import ShaderReflection.Proofs.Module.LikeTables
import ShaderReflection.Proofs.Module.Steps

/-! Annotations: the instructions that decorate an id or a member, or name a member. What they leave
in a module is read off the listing, for each target and key from the last annotation. -/
namespace ShaderReflection.Module

open Assembly (Instruction Operand OperandError)
open Relator (BiUnique)

def annotates (i : Instruction) : Bool :=
  match Opcode.ofName i.opcode with
  | .memberName | .decorate | .memberDecorate => true
  | _ => false

/-- What an annotation is about: a name for a member, or a kind of decoration. -/
inductive NoteKey where
  | memberName (target : String) (index : Int)
  | decoration (target kind : String)
  | memberDecoration (target : String) (index : Int) (kind : String)
  deriving DecidableEq, Repr

inductive Note where
  | memberName (target : String) (index : Int) (text : String)
  | decoration (target kind : String) (operands : List Operand)
  | memberDecoration (target : String) (index : Int) (kind : String) (operands : List Operand)
  deriving DecidableEq, Repr

namespace Note

def key : Note → NoteKey
  | .memberName target index _ => .memberName target index
  | .decoration target kind _ => .decoration target kind
  | .memberDecoration target index kind _ => .memberDecoration target index kind

def target : Note → String
  | .memberName target .. | .decoration target .. | .memberDecoration target .. => target

def addTo (x : Id) (d : Declarations) : Note → Declarations
  | .memberName _ index text => { d with memberNames := d.memberNames.set (x, index) text }
  | .decoration _ kind operands => { d with decorations := d.decorations.set (x, kind) operands }
  | .memberDecoration _ index kind operands =>
    { d with memberDecorations := d.memberDecorations.set (x, index, kind) operands }

end Note

def note? (i : Instruction) : Option Note :=
  match Opcode.ofName i.opcode with
  | .memberName => do
    let target ← (i.idAt 0).toOption
    let text ← (i.textAt 2).toOption
    let index ← (i.intAt 1).toOption
    return .memberName target index text
  | .decorate => do
    let target ← (i.idAt 0).toOption
    let kind ← (i.textAt 1).toOption
    return .decoration target kind (i.operands.drop 2)
  | .memberDecorate => do
    let target ← (i.idAt 0).toOption
    let index ← (i.intAt 1).toOption
    let kind ← (i.textAt 2).toOption
    return .memberDecoration target index kind (i.operands.drop 3)
  | _ => none

def noteKey? (i : Instruction) : Option NoteKey := (note? i).map Note.key

theorem toOption_eq_some {x : Except ε α} {a : α} : x.toOption = some a ↔ x = .ok a := by
  cases x <;> simp [Except.toOption]

theorem annotates_of_note? {i : Instruction} {m : Note} (h : note? i = some m) :
    annotates i = true := by
  unfold note? at h
  unfold annotates
  split at h <;> simp_all

namespace Declarations

section Steps

variable {d e : Declarations} {i : Instruction} {m : Note}

theorem operandId_of_idAt {name : String} {index : Int} (h : i.idAt index = .ok name)
    (d : Declarations) : d.operandId i index = .ok (d.intern name) :=
  bind_eq_ok.mpr ⟨name, ask_eq_ok.mpr h, rfl⟩

/-- What an annotation does depends on its note only. -/
theorem declare_of_note? (h : note? i = some m) (d : Declarations) :
    d.declare i = .ok (m.addTo (d.intern m.target).1 (d.intern m.target).2) := by
  unfold note? at h
  unfold declare
  split at h
  case h_1 ho =>
    obtain ⟨target, ht, h⟩ := Option.bind_eq_some_iff.mp h
    obtain ⟨text, hx, h⟩ := Option.bind_eq_some_iff.mp h
    obtain ⟨index, hi, h⟩ := Option.bind_eq_some_iff.mp h
    obtain rfl := Option.some.inj h
    have hid := operandId_of_idAt (toOption_eq_some.mp ht) d
    have hx := ask_eq_ok.mpr (toOption_eq_some.mp hx)
    have hi := ask_eq_ok.mpr (toOption_eq_some.mp hi)
    rw [ho]
    exact bind_eq_ok.mpr ⟨_, hid, bind_eq_ok.mpr ⟨_, hx, bind_eq_ok.mpr ⟨_, hi, rfl⟩⟩⟩
  case h_2 ho =>
    obtain ⟨target, ht, h⟩ := Option.bind_eq_some_iff.mp h
    obtain ⟨kind, hk, h⟩ := Option.bind_eq_some_iff.mp h
    obtain rfl := Option.some.inj h
    have hid := operandId_of_idAt (toOption_eq_some.mp ht) d
    have hk := ask_eq_ok.mpr (toOption_eq_some.mp hk)
    rw [ho]
    exact bind_eq_ok.mpr ⟨_, hid, bind_eq_ok.mpr ⟨_, hk, rfl⟩⟩
  case h_3 ho =>
    obtain ⟨target, ht, h⟩ := Option.bind_eq_some_iff.mp h
    obtain ⟨index, hi, h⟩ := Option.bind_eq_some_iff.mp h
    obtain ⟨kind, hk, h⟩ := Option.bind_eq_some_iff.mp h
    obtain rfl := Option.some.inj h
    have hid := operandId_of_idAt (toOption_eq_some.mp ht) d
    have hi := ask_eq_ok.mpr (toOption_eq_some.mp hi)
    have hk := ask_eq_ok.mpr (toOption_eq_some.mp hk)
    rw [ho]
    exact bind_eq_ok.mpr ⟨_, hid, bind_eq_ok.mpr ⟨_, hi, bind_eq_ok.mpr ⟨_, hk, rfl⟩⟩⟩
  case h_4 => cases h

/-- An annotation that can be declared has a note. -/
theorem exists_note (h : d.declare i = .ok e) (ha : annotates i = true) :
    ∃ m, note? i = some m := by
  have hopcode := ha
  unfold declare at h
  unfold annotates at hopcode
  split at hopcode
  case h_1 ho =>
    rw [ho] at h
    obtain ⟨_, hc, h⟩ := bind_eq_ok.mp h
    obtain ⟨text, hx, h⟩ := bind_eq_ok.mp h
    obtain ⟨index, hi, -⟩ := bind_eq_ok.mp h
    obtain ⟨target, ht, -⟩ := operandId_ok hc
    refine ⟨.memberName target index text, ?_⟩
    unfold note?
    rw [ho, ht, ask_eq_ok.mp hx, ask_eq_ok.mp hi]
    rfl
  case h_2 ho =>
    rw [ho] at h
    obtain ⟨_, hc, h⟩ := bind_eq_ok.mp h
    obtain ⟨kind, hk, -⟩ := bind_eq_ok.mp h
    obtain ⟨target, ht, -⟩ := operandId_ok hc
    refine ⟨.decoration target kind (i.operands.drop 2), ?_⟩
    unfold note?
    rw [ho, ht, ask_eq_ok.mp hk]
    rfl
  case h_3 ho =>
    rw [ho] at h
    obtain ⟨_, hc, h⟩ := bind_eq_ok.mp h
    obtain ⟨index, hi, h⟩ := bind_eq_ok.mp h
    obtain ⟨kind, hk, -⟩ := bind_eq_ok.mp h
    obtain ⟨target, ht, -⟩ := operandId_ok hc
    refine ⟨.memberDecoration target index kind (i.operands.drop 3), ?_⟩
    unfold note?
    rw [ho, ht, ask_eq_ok.mp hi, ask_eq_ok.mp hk]
    rfl
  case h_4 => cases hopcode

/-- An instruction that annotates nothing leaves all annotations. -/
theorem declare_annotations (h : d.declare i = .ok e)
    (ha : annotates i = false) : e.memberNames = d.memberNames ∧
      e.decorations = d.decorations ∧ e.memberDecorations = d.memberDecorations := by
  have hd := declare_ok h
  unfold annotates at ha
  generalize Opcode.ofName i.opcode = o at hd ha
  cases hd with
  | memberName | decorate | memberDecorate => cases ha
  | type ht =>
    obtain ⟨_, _, _, _, _, -, rfl, -⟩ := declareType_frame ht
    exact ⟨rfl, rfl, rfl⟩
  | _ => exact ⟨rfl, rfl, rfl⟩

end Steps

end Declarations

/-- The annotations of a listing, under the names of their targets. -/
structure Notes where
  memberNames : Table (String × Int) String
  decorations : Table (String × String) (List Operand)
  memberDecorations : Table (String × Int × String) (List Operand)

namespace Notes

def empty : Notes := ⟨.empty, .empty, .empty⟩

/-- Add a note. It takes the place of an earlier one about the same. -/
def add (t : Notes) : Note → Notes
  | .memberName target index text => { t with memberNames := t.memberNames.set (target, index) text }
  | .decoration target kind operands =>
    { t with decorations := t.decorations.set (target, kind) operands }
  | .memberDecoration target index kind operands =>
    { t with memberDecorations := t.memberDecorations.set (target, index, kind) operands }

def get? (t : Notes) : NoteKey → Option Note
  | .memberName target index =>
    (t.memberNames.get? (target, index)).map (.memberName target index ·)
  | .decoration target kind => (t.decorations.get? (target, kind)).map (.decoration target kind ·)
  | .memberDecoration target index kind =>
    (t.memberDecorations.get? (target, index, kind)).map (.memberDecoration target index kind ·)

theorem get?_add (t : Notes) (m : Note) (k : NoteKey) :
    (t.add m).get? k = if k = m.key then some m else t.get? k := by
  cases m <;> cases k <;> simp [add, get?, Note.key, Table.get?_set] <;> split <;> simp_all

def addAll (t : Notes) (is : List Instruction) : Notes := (is.filterMap note?).foldl add t

/-- What is noted about a key depends on the annotations with this key. -/
theorem get?_addAll {t u : Notes} {k : NoteKey} (h : t.get? k = u.get? k) (is : List Instruction) :
    (t.addAll is).get? k = (u.addAll (is.filter (noteKey? · = some k))).get? k := by
  unfold addAll
  induction is generalizing t u with
  | nil => exact h
  | cons i is ih =>
    cases hm : note? i with
    | none =>
      have hi : noteKey? i ≠ some k := by simp [noteKey?, hm]
      rw [List.filterMap_cons_none hm, List.filter_cons_of_neg (by simpa using hi)]
      exact ih h
    | some m =>
      have hkey : noteKey? i = some m.key := by simp [noteKey?, hm]
      rw [List.filterMap_cons_some hm, List.foldl_cons]
      by_cases hk : m.key = k
      · rw [List.filter_cons_of_pos (by simp [hkey, hk]), List.filterMap_cons_some hm,
          List.foldl_cons]
        apply ih
        rw [get?_add, get?_add, if_pos hk.symm, if_pos hk.symm]
      · rw [List.filter_cons_of_neg (by simp [hkey, hk])]
        apply ih
        rw [get?_add, if_neg (Ne.symm hk), h]

end Notes

namespace Declarations

/-- A key of a table in a module, and the key that it has under the name of its id. -/
def NamedKey (d : Declarations) (k : Id × α) (l : String × α) : Prop :=
  d.idOf? l.1 = some k.1 ∧ k.2 = l.2

theorem biUnique_namedKey (d : Declarations) :
    BiUnique (NamedKey d : Id × α → String × α → Prop) := by
  constructor
  · rintro k k' l ⟨hk, hr⟩ ⟨hk', hr'⟩
    exact Prod.ext (Option.some.inj (hk.symm.trans hk')) (hr.trans hr'.symm)
  · rintro k l l' ⟨hl, hr⟩ ⟨hl', hr'⟩
    exact Prod.ext (idOf?_injective hl hl') (hr.symm.trans hr')

structure Noted (d : Declarations) (t : Notes) : Prop where
  memberNames : LikeTable (NamedKey d) Eq d.memberNames t.memberNames
  decorations : LikeTable (NamedKey d) Eq d.decorations t.decorations
  memberDecorations : LikeTable (NamedKey d) Eq d.memberDecorations t.memberDecorations

private theorem noted_empty : Noted .empty .empty := ⟨.empty, .empty, .empty⟩

section Noted

variable {d e : Declarations} {t u : Notes} {i : Instruction}

/-- Annotations stay noted when more ids are given out. -/
theorem Noted.mono (h : Noted d t) (hp : d.ids <+: e.ids) (hm : e.memberNames = d.memberNames)
    (hd : e.decorations = d.decorations) (hmd : e.memberDecorations = d.memberDecorations) :
    Noted e t := by
  have hkey {α : Type} (k : Id × α) (l : String × α) (hk : NamedKey d k l) : NamedKey e k l :=
    ⟨idOf?_mono hp hk.1, hk.2⟩
  constructor
  · rw [hm]
    exact h.memberNames.mono hkey fun _ _ => id
  · rw [hd]
    exact h.decorations.mono hkey fun _ _ => id
  · rw [hmd]
    exact h.memberDecorations.mono hkey fun _ _ => id

theorem Noted.addTo (h : Noted d t) {m : Note} {x : Id} (hx : d.idOf? m.target = some x) :
    Noted (m.addTo x d) (t.add m) := by
  cases m with
  | memberName target index text =>
    exact { h with memberNames := h.memberNames.set (biUnique_namedKey d) ⟨hx, rfl⟩ rfl }
  | decoration target kind operands =>
    exact { h with decorations := h.decorations.set (biUnique_namedKey d) ⟨hx, rfl⟩ rfl }
  | memberDecoration target index kind operands =>
    exact { h with
      memberDecorations := h.memberDecorations.set (biUnique_namedKey d) ⟨hx, rfl⟩ rfl }

/-- An instruction notes what it says as an annotation. -/
theorem Noted.declare (h : Noted d t) (hs : d.declare i = .ok e) : Noted e (t.addAll [i]) := by
  by_cases ha : annotates i = true
  · obtain ⟨m, hm⟩ := exists_note hs ha
    have he := declare_of_note? hm d
    rw [hs] at he
    obtain rfl := Except.ok.inj he
    obtain ⟨ids, hp, hd⟩ := interned_intern d m.target
    have hid := idOf?_intern d m.target
    have hnoted : Noted (d.intern m.target).2 t := by
      rw [hd]
      exact h.mono hp rfl rfl rfl
    have hall : t.addAll [i] = t.add m := by
      unfold Notes.addAll
      rw [List.filterMap_cons_some hm]
      rfl
    rw [hall]
    exact hnoted.addTo hid
  · have hnone : note? i = none := by
      cases hm : note? i with
      | none => rfl
      | some m => exact absurd (annotates_of_note? hm) ha
    have hall : t.addAll [i] = t := by
      unfold Notes.addAll
      rw [List.filterMap_cons_none hnone]
      rfl
    obtain ⟨hm, hd, hmd⟩ := declare_annotations hs (Bool.eq_false_iff.mpr ha)
    rw [hall]
    exact h.mono (declare_ids hs) hm hd hmd

private theorem addAll_append (t : Notes) (is js : List Instruction) :
    t.addAll (is ++ js) = (t.addAll is).addAll js := by
  unfold Notes.addAll
  rw [List.filterMap_append, List.foldl_append]

/-- The annotations in a module are those of its listing. -/
theorem noted_declareAll {is : List Instruction} (h : Declarations.empty.declareAll is = .ok d) :
    Noted d (Notes.empty.addAll is) := by
  refine declareAll_induction (P := fun done s => Noted s (Notes.empty.addAll done)) [] h
    noted_empty fun before i after s s' _ hs hstep _ => ?_
  rw [addAll_append]
  exact hs.declare hstep

end Noted

section Comparison

variable {d e : Declarations} {t u : Notes}

/-- Tables that hold the same under names hold the same for the ids of one name. -/
private theorem like_of_named {p : Table (Id × α) β} {q : Table (Id × α) β}
    {p' q' : Table (String × α) β} [DecidableEq α] (hp : LikeTable (NamedKey d) Eq p p')
    (hq : LikeTable (NamedKey e) Eq q q') (h : ∀ l, p'.get? l = q'.get? l) :
    LikeTable (SameKey (SameId d.ids e.ids)) Eq p q where
  left := fun k b hk => by
    obtain ⟨l, _, ⟨hid, hkey⟩, rfl, hl⟩ := hp.left k b hk
    obtain ⟨k', _, ⟨hid', hkey'⟩, rfl, hk'⟩ := hq.right l _ ((h l).symm.trans hl)
    exact ⟨k', _, ⟨⟨l.1, hid, hid'⟩, hkey.trans hkey'.symm⟩, rfl, hk'⟩
  right := fun k' b hk' => by
    obtain ⟨l, _, ⟨hid', hkey'⟩, rfl, hl⟩ := hq.left k' b hk'
    obtain ⟨k, _, ⟨hid, hkey⟩, rfl, hk⟩ := hp.right l _ ((h l).trans hl)
    exact ⟨k, _, ⟨⟨l.1, hid, hid'⟩, hkey.trans hkey'.symm⟩, rfl, hk⟩

/-- Modules in which the same is noted are annotated alike. -/
theorem like_annotations (hd : Noted d t) (he : Noted e u) (h : ∀ k, t.get? k = u.get? k) :
    LikeTable (SameKey (SameId d.ids e.ids)) Eq d.memberNames e.memberNames ∧
    LikeTable (SameKey (SameId d.ids e.ids)) Eq d.decorations e.decorations ∧
    LikeTable (SameKey (SameId d.ids e.ids)) Eq d.memberDecorations e.memberDecorations := by
  refine ⟨like_of_named hd.memberNames he.memberNames fun l => ?_,
    like_of_named hd.decorations he.decorations fun l => ?_,
    like_of_named hd.memberDecorations he.memberDecorations fun l => ?_⟩
  · apply Option.map_injective _ (h (.memberName l.1 l.2))
    exact fun _ _ hm => (Note.memberName.inj hm).2.2
  · apply Option.map_injective _ (h (.decoration l.1 l.2))
    exact fun _ _ hm => (Note.decoration.inj hm).2.2
  · apply Option.map_injective _ (h (.memberDecoration l.1 l.2.1 l.2.2))
    exact fun _ _ hm => (Note.memberDecoration.inj hm).2.2.2

end Comparison

end Declarations
end ShaderReflection.Module
