import ShaderReflection.Proofs.Module.TypeTable

/-! What a declaration has settled stays. Some tables are written by type declarations only, each
under its own result. In a listing that declares every type once, such a table keeps what it says
about a type from its declaration to the end. -/
namespace ShaderReflection.Module.Declarations

open Assembly (Instruction)

/-- A table that only type declarations write, each under its own result. -/
def WrittenByTypes (table : Declarations → Table Id α) : Prop :=
  ∀ {d e : Declarations} {i : Instruction}, d.declare i = .ok e → table e = table d ∨
    ∃ name x a, isTypeDeclaration i = true ∧ i.result = some name ∧ e.idOf? name = some x ∧
      table e = (table d).set x a

theorem types_writtenByTypes : WrittenByTypes (·.types) := by
  intro d e i h
  rcases declare_types h with hsame | ⟨kind, name, x, t, hk, hn, hx, -, he⟩
  · exact .inl hsame
  · exact .inr ⟨name, x, t, isTypeDeclaration_of_ofName hk, hn, hx, he⟩

/-- The states around one instruction of a run. -/
theorem exists_states {d m : Declarations} {before after : List Instruction} {i : Instruction}
    (h : d.declareAll (before ++ i :: after) = .ok m) :
    ∃ s s', d.declareAll before = .ok s ∧ s.declare i = .ok s' ∧ s'.declareAll after = .ok m := by
  unfold declareAll at h
  rw [List.foldlM_append] at h
  obtain ⟨s, hs, h⟩ := bind_eq_ok.mp h
  obtain ⟨s', hs', h⟩ := bind_eq_ok.mp h
  exact ⟨s, s', hs, hs', h⟩

section Tables

variable {table : Declarations → Table Id α} (ht : WrittenByTypes table) {d m : Declarations}
  {before after : List Instruction}
include ht

/-- Only types that have been declared stand in the table. -/
theorem settled_of_get? (he : table empty = .empty) (h : empty.declareAll before = .ok d)
    (hm : d.ids <+: m.ids) {x : Id} {a : α} (hx : (table d).get? x = some a) :
    m.Settled before x := by
  have hall : ∀ y b, (table d).get? y = some b → m.Settled before y := by
    refine declareAll_induction (P := fun done s => ∀ y b, (table s).get? y = some b →
      m.Settled done y) [] h (fun y b hy => ?_) fun done i rest s s' _ hs hstep hrest y b hy => ?_
    · rw [he] at hy
      cases hy
    · have hids : s'.ids <+: m.ids := (ids_declareAll hrest).trans hm
      rcases ht hstep with hsame | ⟨name, z, c, hi, hn, hz, hset⟩
      · exact (hs y b (hsame ▸ hy)).append [i]
      · by_cases hyz : y = z
        · rw [hyz]
          exact settled_of_result hi hn (idOf?_mono hids hz)
        · rw [hset, Table.get?_set_of_ne _ hyz] at hy
          exact (hs y b hy).append [i]
  exact hall x a hx

/-- What the table says about a type that has been declared stays to the end. -/
theorem get?_of_settled (once : (typeResults (before ++ after)).Nodup)
    (h : d.declareAll after = .ok m) {x : Id} (hx : m.Settled before x) :
    (table m).get? x = (table d).get? x := by
  have hrun : before <+: before ++ after ∧ (table m).get? x = (table d).get? x := by
    refine declareAll_induction (P := fun done s => before <+: done ∧
      (table s).get? x = (table d).get? x) before h ⟨List.prefix_refl _, rfl⟩
      fun done i rest s s' hsplit ⟨hp, hs⟩ hstep hrest => ?_
    refine ⟨hp.trans (List.prefix_append _ _), ?_⟩
    rcases ht hstep with hsame | ⟨name, z, c, hi, hn, hz, hset⟩
    · rw [hsame, hs]
    · have hzm := idOf?_mono (ids_declareAll hrest) hz
      have hnew : ¬m.Settled done z := not_settled_of_once (hsplit ▸ once) hi hn hzm
      have hxz : x ≠ z := by
        rintro rfl
        obtain ⟨more, rfl⟩ := hp
        exact hnew (hx.append more)
      rw [hset, Table.get?_set_of_ne _ hxz, hs]
  exact hrun.2

end Tables

/-- Where a type declaration stands in a run: the states around it, and what the whole module `m`
keeps of them. -/
structure DeclaredAt (m s s' : Declarations) (before : List Instruction) (i : Instruction) :
    Prop where
  step : s.declare i = .ok s'
  ids : s'.ids <+: m.ids
  /-- Whatever stands in a table has been declared. -/
  old : ∀ {α : Type} {table : Declarations → Table Id α}, WrittenByTypes table →
    table empty = .empty → ∀ {x a}, (table s).get? x = some a → m.Settled before x
  /-- Whatever has been declared stays in a table as it is. -/
  kept : ∀ {α : Type} {table : Declarations → Table Id α}, WrittenByTypes table →
    ∀ {x}, m.Settled (before ++ [i]) x → (table m).get? x = (table s').get? x
  new : ∀ {name x}, i.result = some name → m.idOf? name = some x →
    ¬m.Settled before x ∧ m.Settled (before ++ [i]) x

theorem exists_declaredAt {is : List Instruction} {m : Declarations}
    (h : ofInstructions is = .ok m) (once : (typeResults (moduleScope false is)).Nodup)
    {i : Instruction} (hi : i ∈ moduleScope false is) (ht : isTypeDeclaration i = true) :
    ∃ before s s', DeclaredAt m s s' before i := by
  obtain ⟨before, after, hsplit⟩ := List.append_of_mem hi
  have hrun : empty.declareAll (before ++ i :: after) = .ok m := hsplit ▸ h
  obtain ⟨s, s', hbefore, hstep, hrest⟩ := exists_states hrun
  have hids := ids_declareAll hrest
  have honce : (typeResults (before ++ [i] ++ after)).Nodup := by
    rwa [hsplit, List.append_cons] at once
  refine ⟨before, s, s', hstep, hids, ?_, ?_, ?_⟩
  · exact fun htable he _ _ hx =>
      settled_of_get? htable he hbefore ((declare_ids hstep).trans hids) hx
  · exact fun htable _ hx => get?_of_settled htable honce hrest hx
  · exact fun hn hx => ⟨not_settled_of_once (hsplit ▸ once) ht hn hx, settled_of_result ht hn hx⟩

end ShaderReflection.Module.Declarations
