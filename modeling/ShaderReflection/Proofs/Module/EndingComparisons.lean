import Mathlib.Data.List.Chain
import Mathlib.Data.List.Perm.Subperm
import Mathlib.Logic.Relation
import ShaderReflection.Proofs.Module.Aliasing

/-! Comparisons of structs that end. A comparison goes from a root to the types of its members, and
on to theirs; in a table where no struct holds itself it comes to no id twice. So it goes no deeper
than the table has types. -/
namespace ShaderReflection.Module

open Assembly (Instruction Operand OperandError)
open Relation (TransGen)

def MemberOf (types : Table Id TypeDescriptor) (x y : Id) : Prop :=
  ∃ t u, types.get? x = some t ∧ y ∈ t.members ∧ types.get? y = some u

/-- No struct of a table comes back to itself through members of known types. -/
def Acyclic (types : Table Id TypeDescriptor) : Prop :=
  ∀ x t, types.get? x = some t → t.isStruct = true → ¬TransGen (MemberOf types) x x

section Depth

variable {types : Table Id TypeDescriptor} {a b : TypeDescriptor} {x y : Id}

private theorem everyEnds_eq_none {p : α → Option Bool} {xs : List α} (h : everyEnds p xs = none) :
    ∃ x ∈ xs, p x = none := by
  induction xs with
  | nil => cases h
  | cons x xs ih =>
    unfold everyEnds at h
    split at h
    · obtain ⟨z, hz, hp⟩ := ih h
      exact ⟨z, List.mem_cons_of_mem _ hz, hp⟩
    · exact ⟨x, List.mem_cons_self, h⟩

/-- A comparison that goes deeper than it may has followed members all the way down. -/
theorem exists_chain {depth : Nat} (hy : types.get? y = some b)
    (h : equivalentTo? types depth a b = none) :
    ∃ l : List Id, l.length = depth ∧ (y :: l).IsChain (MemberOf types) := by
  induction depth generalizing a b y with
  | zero => exact ⟨[], rfl, .singleton y⟩
  | succ depth ih =>
    rw [equivalentTo?_succ] at h
    split_ifs at h
    obtain ⟨⟨m, n⟩, hmem, hnone⟩ := everyEnds_eq_none h
    have hn : n ∈ b.members := (List.of_mem_zip hmem).2
    unfold membersTo? at hnone
    split at hnone
    case h_2 => cases hnone
    case h_1 s t hs ht =>
      obtain ⟨l, hlength, hchain⟩ := ih ht hnone
      have hstep : MemberOf types y n := ⟨b, t, hy, hn, ht⟩
      exact ⟨n :: l, congrArg (· + 1) hlength, .cons_cons hstep hchain⟩

private theorem nodup_of_isChain {r : α → α → Prop} (hr : ∀ x, ¬TransGen r x x) {l : List α}
    (h : l.IsChain r) : l.Nodup := by
  have hpairs : l.Pairwise (TransGen r) := (h.imp fun _ _ => TransGen.single).pairwise
  refine hpairs.imp fun hxy heq => ?_
  rw [heq] at hxy
  exact hr _ hxy

/-- On a chain, something follows each element but the last. -/
private theorem exists_of_mem_dropLast {r : α → α → Prop} {l : List α} (h : l.IsChain r) {x : α}
    (hx : x ∈ l.dropLast) : ∃ y, r x y := by
  induction h with
  | nil => cases hx
  | singleton => cases hx
  | @cons_cons a b l hab _ ih =>
    rw [List.dropLast_cons_cons] at hx
    rcases List.mem_cons.mp hx with rfl | hx
    · exact ⟨b, hab⟩
    · exact ih hx

/-- There are no more ids of types with members than types with members. -/
theorem length_le_compoundCount {l : List Id} (hn : l.Nodup)
    (h : ∀ x ∈ l, ∃ t, types.get? x = some t ∧ t.members ≠ []) :
    l.length ≤ compoundCount types := by
  have hsub : l ⊆ (types.entries.filter fun e => !e.2.members.isEmpty).map (·.1) := by
    intro x hx
    obtain ⟨t, ht, hmembers⟩ := h x hx
    refine List.mem_map.mpr ⟨(x, t), List.mem_filter.mpr ⟨Table.mem_entries_of_get? ht, ?_⟩, rfl⟩
    simpa using hmembers
  have hle := (List.subperm_of_subset hn hsub).length_le
  unfold compoundCount Table.values
  rw [List.filter_map, List.length_map]
  rwa [List.length_map] at hle

theorem compoundCount_le_length : compoundCount types ≤ types.values.length :=
  List.length_filter_le ..

/-- Without cycles a comparison with a known type ends. -/
theorem exists_verdict (hr : ∀ x, ¬TransGen (MemberOf types) x x) (hy : types.get? y = some b)
    (a : TypeDescriptor) :
    ∃ v, equivalentTo? types (compoundCount types + 1) a b = some v := by
  apply Option.ne_none_iff_exists'.mp
  intro hnone
  obtain ⟨l, hlength, hchain⟩ := exists_chain hy hnone
  have hnodup : (y :: l).dropLast.Nodup :=
    (nodup_of_isChain hr hchain).sublist (List.dropLast_sublist _)
  have hle : (y :: l).dropLast.length ≤ compoundCount types := by
    apply length_le_compoundCount hnodup
    intro x hx
    obtain ⟨z, t, u, ht, hz, -⟩ := exists_of_mem_dropLast hchain hx
    exact ⟨t, ht, List.ne_nil_of_mem hz⟩
  rw [List.length_dropLast, List.length_cons] at hle
  omega

/-- The depth to which a comparison goes is at most one more than the number of types. -/
theorem verdict_within_length {v : Bool}
    (h : equivalentTo? types (compoundCount types + 1) a b = some v) :
    equivalentTo? types (types.values.length + 1) a b = some v ∧
      equivalent? types a b = some v := by
  have hlength : compoundCount types ≤ types.values.length := compoundCount_le_length
  have hsquare := Nat.le_mul_self (compoundCount types)
  constructor
  · exact equivalentTo?_mono h (by omega)
  · exact equivalentTo?_mono h (by omega)

end Depth

section Growth

variable {types : Table Id TypeDescriptor} {x : Id} {t : TypeDescriptor}

/-- A table stays without cycles when it gets a type that is no member of any other one, nor of
itself. -/
private theorem not_transGen_set (hr : ∀ y, ¬TransGen (MemberOf types) y y)
    (hx : ∀ z u, types.get? z = some u → x ∉ u.members) (ht : x ∉ t.members) (y : Id) :
    ¬TransGen (MemberOf (types.set x t)) y y := by
  have hstep : ∀ y z, MemberOf (types.set x t) y z → z ≠ x := by
    rintro y _ ⟨u, w, hu, hz, -⟩ rfl
    rw [Table.get?_set] at hu
    split_ifs at hu with hyx
    · obtain rfl := Option.some.inj hu
      exact ht hz
    · exact hx y u hu hz
  have htarget : ∀ y z, TransGen (MemberOf (types.set x t)) y z → z ≠ x := by
    intro y z h
    cases h with
    | single h => exact hstep _ _ h
    | tail _ h => exact hstep _ _ h
  have hold : ∀ y z, MemberOf (types.set x t) y z → y ≠ x → MemberOf types y z := by
    rintro y z h hyx
    have hzx := hstep y z h
    obtain ⟨u, w, hu, hz, hw⟩ := h
    rw [Table.get?_set_of_ne _ hyx] at hu
    rw [Table.get?_set_of_ne _ hzx] at hw
    exact ⟨u, w, hu, hz, hw⟩
  have hpath : ∀ y z, TransGen (MemberOf (types.set x t)) y z → y ≠ x →
      TransGen (MemberOf types) y z := by
    intro y z h hyx
    induction h with
    | single h => exact .single (hold _ _ h hyx)
    | tail h hlast ih => exact ih.tail (hold _ _ hlast (htarget _ _ h))
  intro h
  exact hr y (hpath y y h (htarget y y h))

end Growth

theorem MembersFirst.of_prefix {is js : List Instruction} (h : MembersFirst is) (hp : js <+: is) :
    MembersFirst js := by
  obtain ⟨rest, rfl⟩ := hp
  intro k ho name hname
  have hlt : (k : Nat) < (js ++ rest).length := by
    have hk := k.isLt
    rw [List.length_append]
    omega
  have hk := h ⟨k, hlt⟩
  simp only [Fin.getElem_fin, List.getElem_append_left k.isLt,
    List.take_append_of_le_length (Nat.le_of_lt k.isLt)] at hk
  exact hk ho name hname

namespace Declarations

/-- A struct is compared with a root of its name while a listing is declared: the instructions in
front of it have been read, and the names of its members have ids. -/
inductive Compared (is : List Instruction) : Declarations → TypeDescriptor → TypeDescriptor → Prop
  | intro {before after : List Instruction} {i : Instruction} {d d₁ e : Declarations} {id root : Id}
      {members : List Id} {other : TypeDescriptor} (split : is = before ++ i :: after)
      (run : empty.declareAll before = .ok d) (opcode : i.opcode = "OpTypeStruct")
      (result : d.result i = .ok (id, d₁))
      (interned : d₁.internAll (idNames i.operands) = (members, e)) (named : e.name id ≠ "")
      (mem : root ∈ e.roots) (same : e.names.get? root = some (e.name id))
      (type : e.types.get? root = some other) :
      Compared is e { baseType := .struct, selfId := id, members } other

/-- A computation does not fail for a comparison without end. -/
def Ends (r : Except DeclarationError α) : Prop := r ≠ .error .endlessComparison

section Ends

variable {d : Declarations} {i : Instruction}

theorem ends_ok (a : α) : Ends (.ok a) := nofun

theorem Ends.bind {x : Except DeclarationError α} {f : α → Except DeclarationError β}
    (hx : Ends x) (hf : ∀ a, x = .ok a → Ends (f a)) : Ends (x >>= f) := by
  cases x with
  | error e =>
    intro he
    exact hx (congrArg Except.error (Except.error.inj he))
  | ok a => exact hf a rfl

theorem ends_ask (r : Except OperandError α) : Ends (ask r) := by
  cases r with
  | error e => nofun
  | ok a => nofun

theorem ends_result : Ends (d.result i) := by
  unfold result
  split <;> nofun

theorem ends_operandId (index : Int) : Ends (d.operandId i index) :=
  (ends_ask _).bind fun _ _ => ends_ok _

theorem ends_findRoot {t : TypeDescriptor} {name : String} {rs : List Id}
    (h : ∀ root ∈ rs, d.names.get? root = some name → ∀ other, d.types.get? root = some other →
      ∃ v, equivalent? d.types t other = some v) : Ends (d.findRoot t name rs) := by
  induction rs with
  | nil => exact ends_ok none
  | cons root rs ih =>
    have hrest := ih fun r hr => h r (List.mem_cons_of_mem _ hr)
    unfold findRoot
    split
    case isFalse => exact hrest
    case isTrue hname =>
      cases htype : d.types.get? root with
      | none => exact hrest
      | some other =>
        obtain ⟨v, hv⟩ := h root List.mem_cons_self hname other htype
        dsimp only
        rw [hv]
        cases v with
        | true => exact ends_ok (some root)
        | false => exact hrest

/-- Describing a type other than a struct compares nothing. -/
theorem ends_describe {kind : TypeOpcode} (hk : kind ≠ .struct) (id : Id) :
    Ends (d.describe id kind i) := by
  cases kind with
  | void | bool | image | sampler | sampledImage | function | unknown => exact ends_ok _
  | int => exact (ends_ask _).bind fun _ _ => (ends_ask _).bind fun _ _ => ends_ok _
  | float => exact (ends_ask _).bind fun _ _ => ends_ok _
  | vector | matrix =>
    refine (ends_operandId 0).bind fun p _ => ?_
    dsimp only
    split
    · exact ends_ok _
    · exact (ends_ask _).bind fun _ _ => ends_ok _
  | array =>
    refine (ends_operandId 0).bind fun p _ => ?_
    dsimp only
    split
    · exact ends_ok _
    · exact ((ends_operandId 1).bind fun _ _ => ends_ok _).bind fun _ _ => ends_ok _
  | runtimeArray => exact (ends_operandId 0).bind fun _ _ => ends_ok _
  | struct => exact absurd rfl hk
  | pointer => exact (ends_operandId 1).bind fun _ _ => ends_ok _

/-- Only the declaration of a struct compares types. -/
theorem ends_declare (h : i.opcode = "OpTypeStruct" → ∀ id d₁, d.result i = .ok (id, d₁) →
    Ends (d₁.describe id .struct i)) : Ends (d.declare i) := by
  unfold declare
  split
  case h_1 => exact (ends_ask _).bind fun _ _ => (ends_ask _).bind fun _ _ => ends_ok _
  case h_2 => exact (ends_ask _).bind fun _ _ => (ends_operandId 0).bind fun _ _ => ends_ok _
  case h_3 | h_5 =>
    exact (ends_operandId 0).bind fun _ _ => (ends_ask _).bind fun _ _ =>
      (ends_ask _).bind fun _ _ => ends_ok _
  case h_4 => exact (ends_operandId 0).bind fun _ _ => (ends_ask _).bind fun _ _ => ends_ok _
  case h_6 =>
    split
    · nofun
    · exact ends_result.bind fun _ _ => ends_ok _
    · nofun
  case h_7 =>
    exact ends_result.bind fun _ _ => (ends_operandId 0).bind fun _ _ =>
      (ends_ask _).bind fun _ _ => ends_ok _
  case h_8 kind ho =>
    refine ends_result.bind fun p hp => ?_
    obtain ⟨id, d₁⟩ := p
    have hdescribe : Ends (d₁.describe id kind i) := by
      by_cases hk : kind = .struct
      · subst hk
        exact h (ofName_eq_struct_iff.mp ho) id d₁ hp
      · exact ends_describe hk id
    refine hdescribe.bind fun q _ => ?_
    obtain ⟨e, t?⟩ := q
    cases t? <;> exact ends_ok _
  case h_9 => nofun

theorem ends_declareAll {is : List Instruction}
    (h : ∀ before i after e, is = before ++ i :: after → d.declareAll before = .ok e →
      Ends (e.declare i)) : Ends (d.declareAll is) := by
  induction is generalizing d with
  | nil => nofun
  | cons i is ih =>
    refine (h [] i is d rfl rfl).bind fun e he => ?_
    apply ih
    intro before j after f hsplit hrun
    refine h (i :: before) j after f (congrArg (i :: ·) hsplit) ?_
    exact bind_eq_ok.mpr ⟨e, he, hrun⟩

end Ends

section Run

variable {d e m : Declarations} {is before after : List Instruction} {i : Instruction}

/-- Only descriptors of structs have members: vectors, arrays and pointers copy those of the type that
they are made of. -/
theorem Described.isStruct_of_members {types : Table Id TypeDescriptor} {id : Id} {kind : TypeOpcode}
    {t : TypeDescriptor} (h : Described types id kind t)
    (ht : ∀ c u, types.get? c = some u → u.members ≠ [] → u.isStruct = true)
    (hm : t.members ≠ []) : t.isStruct = true := by
  cases h with
  | plain | bool | int | float => exact absurd rfl hm
  | struct => rfl
  | vector hc | matrix hc | array hc | runtimeArray hc | pointer hc =>
    have hstruct := ht _ _ hc hm
    exact hstruct

theorem isStruct_of_members (h : empty.declareAll is = .ok d) {x : Id} {t : TypeDescriptor}
    (hx : d.types.get? x = some t) (hm : t.members ≠ []) : t.isStruct = true := by
  have hall : ∀ x t, d.types.get? x = some t → t.members ≠ [] → t.isStruct = true := by
    refine declareAll_induction (P := fun _ e => ∀ x t, e.types.get? x = some t →
      t.members ≠ [] → t.isStruct = true) [] h (fun x t hx => by cases hx) ?_
    intro before i after e e' _ he hstep _ x t hx
    rcases declare_types hstep with hsame | ⟨kind, name, y, u, -, -, -, hu, hset⟩
    · rw [hsame] at hx
      exact he x t hx
    · rw [hset, Table.get?_set] at hx
      split_ifs at hx
      · obtain rfl := Option.some.inj hx
        exact hu.isStruct_of_members he
      · exact he x t hx
  exact hall x t hx hm

/-- No id comes back to itself where no struct does. -/
theorem not_transGen_of_acyclic (h : empty.declareAll is = .ok d) (hac : Acyclic d.types) (x : Id) :
    ¬TransGen (MemberOf d.types) x x := by
  intro hcycle
  obtain ⟨z, ⟨t, u, ht, hz, -⟩, -⟩ := Relation.TransGen.head'_iff.mp hcycle
  have hstruct : t.isStruct = true := isStruct_of_members h ht (List.ne_nil_of_mem hz)
  exact hac x t ht hstruct hcycle

/-- A comparison looks at the types that were declared before the struct. -/
theorem Compared.exists_run {t other : TypeDescriptor} (h : Compared is e t other) :
    ∃ before d, empty.declareAll before = .ok d ∧ before <+: is ∧ e.types = d.types := by
  cases h with
  | @intro before after i d d₁ _ _ _ _ _ split run _ result interned =>
    obtain ⟨⟨_, -, hd₁⟩, -⟩ := result_target result
    obtain ⟨_, -, he⟩ := interned_internAll d₁ (idNames i.operands)
    rw [interned] at he
    dsimp only at he
    refine ⟨before, d, run, ?_, ?_⟩
    · rw [split]
      exact List.prefix_append _ _
    · rw [he, hd₁]

/-- Every comparison ends, no deeper than the table has types and one more. -/
theorem Compared.exists_verdict {t other : TypeDescriptor} (h : Compared is e t other)
    (hac : Acyclic e.types) :
    ∃ v, equivalentTo? e.types (e.types.values.length + 1) t other = some v ∧
      equivalent? e.types t other = some v := by
  obtain ⟨before, d, hrun, -, htypes⟩ := h.exists_run
  have hcycle : ∀ x, ¬TransGen (MemberOf e.types) x x := by
    rw [htypes] at hac ⊢
    exact not_transGen_of_acyclic hrun hac
  obtain ⟨root, htype⟩ : ∃ root, e.types.get? root = some other := by
    cases h with
    | intro _ _ _ _ _ _ _ _ type => exact ⟨_, type⟩
  obtain ⟨v, hv⟩ := Module.exists_verdict hcycle htype t
  exact ⟨v, verdict_within_length hv⟩

theorem ends_describeStruct {t : TypeDescriptor}
    (h : d.name t.selfId ≠ "" → Ends (d.findRoot t (d.name t.selfId) d.roots)) :
    Ends (d.describeStruct t) := by
  unfold describeStruct
  dsimp only
  split
  · exact ends_ok _
  case isFalse hnamed =>
    refine (h hnamed).bind fun root? _ => ?_
    cases root? <;> exact ends_ok _

/-- A listing is declared without an endless comparison if each comparison ends. -/
theorem ends_ofCompared (h : ∀ e t other, Compared is e t other →
    ∃ v, equivalent? e.types t other = some v) : Ends (empty.declareAll is) := by
  apply ends_declareAll
  intro before i after d hsplit hrun
  apply ends_declare
  intro ho id d₁ hresult
  cases hinterned : d₁.internAll (idNames i.operands) with
  | mk members e =>
    unfold describe
    dsimp only
    rw [hinterned]
    dsimp only
    refine Ends.bind (ends_describeStruct fun hnamed => ends_findRoot ?_) fun _ _ => ends_ok _
    intro root hroot hsame other htype
    exact h e _ other (.intro hsplit hrun ho hresult hinterned hnamed hroot hsame htype)

/-- Where members come first, an instruction changes no descriptor that is there, and all members of
a descriptor that it adds have been declared. -/
theorem declare_types_first (once : (typeResults (before ++ i :: after)).Nodup)
    (first : MembersFirst (before ++ i :: after)) (hk : m.Known before d.types)
    (h : d.declare i = .ok e) (hm : e.declareAll after = .ok m) :
    e.types = d.types ∨ ∃ x t, ¬m.Settled before x ∧ m.Settled (before ++ [i]) x ∧
      (∀ y ∈ t.members, m.Settled before y) ∧ e.types = d.types.set x t := by
  by_cases ho : i.opcode = "OpTypeStruct"
  · have hi := isTypeDeclaration_of_ofName (ofName_eq_struct_iff.mpr ho)
    have hids := ids_declareAll hm
    obtain ⟨ids, name, x, members, d₁, t, -, hn, hid, hmem, hs, rfl⟩ := declare_struct_ok ho h
    obtain ⟨roots, aliasOf, hd₁, ht⟩ := hs.frame
    have hpm : ids <+: m.ids := by rwa [hd₁] at hids
    have hxm : m.idOf? name = some x := idOf?_mono (d := { d with ids }) hpm hid
    have hmembers : ∀ y ∈ t.members, m.Settled before y := by
      rw [ht]
      exact settled_of_members first ho hpm hmem
    have htypes : d₁.types = d.types := by rw [hd₁]
    exact .inr ⟨x, t, not_settled_of_once once hi hn hxm, settled_of_result hi hn hxm, hmembers,
      by rw [htypes]⟩
  · rcases declare_types_once once h hm with hsame | ⟨kind, x, t, hkind, hx, hx', hd, he⟩
    · exact .inl hsame
    · have hne : kind ≠ .struct := by
        rintro rfl
        exact ho (ofName_eq_struct_iff.mp hkind)
      refine .inr ⟨x, t, hx, hx', ?_, he⟩
      rcases hd.members hne with hnil | ⟨c, u, hc, hu⟩
      · simp [hnil]
      · rw [hu]
        exact (hk c u hc).2

/-- Where members come first, a declared type has only members that are declared before it, so that no
id comes back to itself. -/
theorem not_transGen_of_membersFirst (once : (typeResults is).Nodup) (first : MembersFirst is)
    (h : empty.declareAll is = .ok d) (x : Id) : ¬TransGen (MemberOf d.types) x x := by
  have hall : d.Known is d.types ∧ ∀ x, ¬TransGen (MemberOf d.types) x x := by
    refine declareAll_induction (P := fun done e => d.Known done e.types ∧
      ∀ x, ¬TransGen (MemberOf e.types) x x) [] h ⟨?_, ?_⟩ ?_
    · intro x t hx
      cases hx
    · intro x hcycle
      obtain ⟨z, ⟨t, u, ht, -⟩, -⟩ := Relation.TransGen.head'_iff.mp hcycle
      cases ht
    · intro before i after e e' hsplit hP hstep hrest
      obtain ⟨hk, hcycle⟩ := hP
      rw [List.nil_append] at hsplit
      rw [hsplit] at once first
      rcases declare_types_first once first hk hstep hrest with
        hsame | ⟨y, t, hy, hy', hmembers, hset⟩
      · rw [hsame]
        exact ⟨hk.append [i], hcycle⟩
      · rw [hset]
        constructor
        · exact hk.set hy hy' hmembers
        · apply not_transGen_set hcycle
          · intro z u hz hmem
            exact hy ((hk z u hz).2 y hmem)
          · intro hmem
            exact hy (hmembers y hmem)
  exact hall.2 x

end Run

/-- Comparisons of structs end where no struct in the table holds itself: they go at most one deeper
than the table has types, and no listing fails for them. This is so if the members of all structs are
declared before them. -/
theorem comparisons_end {is : List Instruction}
    (once : (typeResults (moduleScope false is)).Nodup) :
    ((∀ d t other, Compared (moduleScope false is) d t other → Acyclic d.types) →
      (∀ d t other, Compared (moduleScope false is) d t other →
        ∃ v, equivalentTo? d.types (d.types.values.length + 1) t other = some v ∧
          equivalent? d.types t other = some v) ∧
      ofInstructions is ≠ .error .endlessComparison) ∧
    (MembersFirst (moduleScope false is) →
      ∀ d t other, Compared (moduleScope false is) d t other → Acyclic d.types) := by
  constructor
  · intro hac
    have hverdict : ∀ d t other, Compared (moduleScope false is) d t other →
        ∃ v, equivalentTo? d.types (d.types.values.length + 1) t other = some v ∧
          equivalent? d.types t other = some v :=
      fun d t other h => h.exists_verdict (hac d t other h)
    refine ⟨hverdict, ?_⟩
    apply ends_ofCompared
    intro d t other h
    obtain ⟨v, -, hv⟩ := hverdict d t other h
    exact ⟨v, hv⟩
  · intro first d t other h x u _ _
    obtain ⟨before, d', hrun, hprefix, htypes⟩ := h.exists_run
    have hfirst : MembersFirst before := first.of_prefix hprefix
    have honce : (typeResults before).Nodup := by
      obtain ⟨rest, hrest⟩ := hprefix
      rw [← hrest, typeResults_append] at once
      exact once.of_append_left
    rw [htypes]
    exact not_transGen_of_membersFirst honce hfirst hrun x

/-- Two structs of one name, each with an array of pointers to a struct. -/
def nestedListing : List Instruction := [
  ⟨"OpName", [.id "scene", .string "Scene"], none, 1⟩,
  ⟨"OpName", [.id "copy", .string "Scene"], none, 2⟩,
  ⟨"OpTypeFloat", [.int 32], some "float", 3⟩,
  ⟨"OpTypeStruct", [.id "float"], some "light", 4⟩,
  ⟨"OpTypePointer", [.word "Uniform", .id "light"], some "toLight", 5⟩,
  ⟨"OpTypeRuntimeArray", [.id "toLight"], some "lights", 6⟩,
  ⟨"OpTypeStruct", [.id "lights"], some "scene", 7⟩,
  ⟨"OpTypeStruct", [.id "lights"], some "copy", 8⟩]

def nestedScene : TypeDescriptor := { baseType := .struct, selfId := 1, members := [6] }

theorem nestedListing_comparisons_end :
    (typeResults (moduleScope false nestedListing)).Nodup ∧
    MembersFirst (moduleScope false nestedListing) ∧
    (∃ d, Compared (moduleScope false nestedListing) d { nestedScene with selfId := 2 } nestedScene ∧
      Acyclic d.types ∧ d.types.values.length = 5 ∧
      ∃ v, equivalentTo? d.types 6 { nestedScene with selfId := 2 } nestedScene = some v ∧
        equivalent? d.types { nestedScene with selfId := 2 } nestedScene = some v) ∧
    ofInstructions nestedListing ≠ .error .endlessComparison := by
  have once : (typeResults (moduleScope false nestedListing)).Nodup := by decide +kernel
  have first : MembersFirst (moduleScope false nestedListing) := by
    unfold MembersFirst
    decide +kernel
  have hac := (comparisons_end once).2 first
  obtain ⟨hverdict, hends⟩ := (comparisons_end once).1 hac
  refine ⟨once, first, ?_, hends⟩
  obtain ⟨d, hrun, hresult, hinterned, hnamed, hroot, hsame, htype, hlength⟩ := exists_ok_of_any
    (x := empty.declareAll (nestedListing.take 7))
    (p := fun d => d.result ⟨"OpTypeStruct", [.id "lights"], some "copy", 8⟩ = .ok (2, d) ∧
      d.internAll ["lights"] = ([6], d) ∧ d.name 2 ≠ "" ∧ 1 ∈ d.roots ∧
      d.names.get? 1 = some (d.name 2) ∧ d.types.get? 1 = some nestedScene ∧
      d.types.values.length = 5) (by decide +kernel)
  have hsplit : moduleScope false nestedListing = nestedListing.take 7 ++
      [⟨"OpTypeStruct", [.id "lights"], some "copy", 8⟩] := rfl
  have hcompared : Compared (moduleScope false nestedListing) d { nestedScene with selfId := 2 }
      nestedScene := .intro hsplit hrun rfl hresult hinterned hnamed hroot hsame htype
  obtain ⟨v, hv⟩ := hverdict d _ _ hcompared
  rw [hlength] at hv
  exact ⟨d, hcompared, hac d _ _ hcompared, hlength, v, hv⟩

end Declarations
end ShaderReflection.Module
