import ShaderReflection.Proofs.Module.Interning

/-! What a single declaration changes. Interning only adds ids, a type declaration sets at most the
descriptor of its own result, and every fact about all modules follows by induction on the run. -/
namespace ShaderReflection.Module

open Assembly (Instruction Operand OperandError)

theorem bind_eq_ok {x : Except ε α} {f : α → Except ε β} {b : β} :
    x >>= f = .ok b ↔ ∃ a, x = .ok a ∧ f a = .ok b := by
  cases x <;> simp [bind, Except.bind]

theorem pure_eq_ok {a b : α} : (pure a : Except ε α) = .ok b ↔ a = b := by
  simp [pure, Except.pure]

theorem exists_ok_of_any {x : Except ε α} {p : α → Prop} [DecidablePred p]
    (h : x.toOption.any (fun a => decide (p a)) = true) : ∃ a, x = .ok a ∧ p a := by
  cases x with
  | error e => cases h
  | ok a => exact ⟨a, rfl, of_decide_eq_true h⟩

namespace Declarations

theorem ask_eq_ok {r : Except OperandError α} {a : α} : ask r = .ok a ↔ r = .ok a := by
  cases r <;> simp [ask, Except.mapError]

section Reading

variable {d e : Declarations} {i : Instruction}

theorem result_ok {id : Id} (h : d.result i = .ok (id, e)) :
    ∃ name, i.result = some name ∧ d.intern name = (id, e) := by
  unfold result at h
  split at h
  case h_1 name hn => exact ⟨name, hn, Except.ok.inj h⟩
  case h_2 => cases h

theorem operandId_ok {index : Int} {id : Id} (h : d.operandId i index = .ok (id, e)) :
    ∃ name, i.idAt index = .ok name ∧ d.intern name = (id, e) := by
  obtain ⟨name, hn, he⟩ := bind_eq_ok.mp h
  exact ⟨name, ask_eq_ok.mp hn, pure_eq_ok.mp he⟩

theorem interned_operandId {index : Int} {id : Id} (h : d.operandId i index = .ok (id, e)) :
    Interned d e := by
  obtain ⟨name, -, he⟩ := operandId_ok h
  have hi := interned_intern d name
  rwa [he] at hi

theorem interned_arrayLength {n : Int} (h : d.arrayLength i = .ok (n, e)) : Interned d e := by
  obtain ⟨⟨_, _⟩, hl, he⟩ := bind_eq_ok.mp h
  obtain ⟨-, rfl⟩ := Prod.mk.inj (pure_eq_ok.mp he)
  exact interned_operandId hl

end Reading

/-- The descriptors that a type declaration of each kind can give to an id: one that stands for
itself, or a change to the descriptor of a type that is already known. -/
inductive Described (types : Table Id TypeDescriptor) (id : Id) :
    TypeOpcode → TypeDescriptor → Prop where
  | plain {kind : TypeOpcode} {b : BaseType} (h : (kind, b) ∈ [(.void, .void), (.image, .image),
      (.sampler, .sampler), (.sampledImage, .sampledImage), (.unknown, BaseType.unknown)]) :
      Described types id kind { baseType := b, selfId := id }
  | bool : Described types id .bool { baseType := .boolean, width := 32, selfId := id }
  | int (width : Int) (signed : Bool) :
      Described types id .int { baseType := .ofInt width signed, width, selfId := id }
  | float (width : Int) :
      Described types id .float { baseType := .ofFloat width, width, selfId := id }
  | vector {c : Id} {t : TypeDescriptor} (h : types.get? c = some t) (vecsize : Int) :
      Described types id .vector { t with vecsize, columns := 1, selfId := id }
  | matrix {c : Id} {t : TypeDescriptor} (h : types.get? c = some t) (columns : Int) :
      Described types id .matrix { t with columns, selfId := id }
  | array {c : Id} {t : TypeDescriptor} (h : types.get? c = some t) (length : Int) :
      Described types id .array { t with array := t.array ++ [length] }
  | runtimeArray {c : Id} {t : TypeDescriptor} (h : types.get? c = some t) :
      Described types id .runtimeArray { t with array := t.array ++ [0] }
  | struct (members : List Id) (aliasOf : Option Id) :
      Described types id .struct { baseType := .struct, selfId := id, members, aliasOf }
  | pointer {c : Id} {t : TypeDescriptor} (h : types.get? c = some t) :
      Described types id .pointer { t with pointer := true }

/-- What becomes of a struct: it has no name, or it is an alias, or it becomes a root. -/
inductive StructDescribed (d : Declarations) (t : TypeDescriptor) :
    Declarations → TypeDescriptor → Prop where
  | anonymous (hn : d.name t.selfId = "") : StructDescribed d t d t
  | aliased {root : Id} (hn : d.name t.selfId ≠ "")
      (hf : d.findRoot t (d.name t.selfId) d.roots = .ok (some root)) :
      StructDescribed d t d { t with aliasOf := some root }
  | root (hn : d.name t.selfId ≠ "")
      (hf : d.findRoot t (d.name t.selfId) d.roots = .ok none) :
      StructDescribed d t { d with roots := d.roots ++ [t.selfId] } t

section Describing

variable {d e : Declarations} {i : Instruction} {id : Id}

theorem describeStruct_ok {t u : TypeDescriptor} (h : d.describeStruct t = .ok (e, u)) :
    StructDescribed d t e u := by
  unfold describeStruct at h
  dsimp only at h
  split at h
  case isTrue hn =>
    obtain ⟨rfl, rfl⟩ := Prod.mk.inj (pure_eq_ok.mp h)
    exact .anonymous hn
  case isFalse hn =>
    obtain ⟨root, hf, h⟩ := bind_eq_ok.mp h
    cases root with
    | some root =>
      obtain ⟨rfl, rfl⟩ := Prod.mk.inj (pure_eq_ok.mp h)
      exact .aliased hn hf
    | none =>
      obtain ⟨rfl, rfl⟩ := Prod.mk.inj (pure_eq_ok.mp h)
      exact .root hn hf

/-- What `describe` may change: ids, and the tables that belong to its kind of type. -/
def Describes (d : Declarations) (id : Id) (kind : TypeOpcode) (e : Declarations)
    (t? : Option TypeDescriptor) : Prop :=
  ∃ ids pointees imageSampled roots, d.ids <+: ids ∧
    e = { d with ids, pointees, imageSampled, roots } ∧ (kind ≠ .struct → roots = d.roots) ∧
    ∀ t, t? = some t → Described d.types id kind t

theorem Interned.describes {kind : TypeOpcode} (h : Interned d e) {t? : Option TypeDescriptor}
    (ht : ∀ t, t? = some t → Described d.types id kind t) : Describes d id kind e t? := by
  obtain ⟨ids, hp, rfl⟩ := h
  exact ⟨ids, _, _, _, hp, rfl, fun _ => rfl, ht⟩

/-- The members of a new struct, and what becomes of it. -/
theorem describe_struct_ok {t? : Option TypeDescriptor}
    (h : d.describe id .struct i = .ok (e, t?)) :
    ∃ ids members t, d.ids <+: ids ∧ t? = some t ∧
      List.Forall₂ (fun n x => idOf? { d with ids } n = some x) (idNames i.operands) members ∧
      StructDescribed { d with ids } { baseType := .struct, selfId := id, members } e t := by
  obtain ⟨⟨_, t⟩, hs, h⟩ := bind_eq_ok.mp h
  obtain ⟨rfl, rfl⟩ := Prod.mk.inj (pure_eq_ok.mp h)
  have hm := internAll_ids d (idNames i.operands)
  have hs := describeStruct_ok hs
  obtain ⟨ids, hp, hd⟩ := interned_internAll d (idNames i.operands)
  rw [hd] at hs hm
  exact ⟨ids, _, t, hp, rfl, hm, hs⟩

theorem describe_ok {kind : TypeOpcode} {t? : Option TypeDescriptor}
    (h : d.describe id kind i = .ok (e, t?)) : Describes d id kind e t? := by
  cases kind with
  | void | sampler | sampledImage | unknown =>
    obtain ⟨rfl, rfl⟩ := Prod.mk.inj (Except.ok.inj h)
    refine (Interned.refl d).describes fun t ht => ?_
    cases ht
    exact .plain (by decide)
  | bool =>
    obtain ⟨rfl, rfl⟩ := Prod.mk.inj (Except.ok.inj h)
    refine (Interned.refl d).describes fun t ht => ?_
    cases ht
    exact .bool
  | function =>
    obtain ⟨rfl, rfl⟩ := Prod.mk.inj (Except.ok.inj h)
    exact (Interned.refl d).describes fun t ht => by cases ht
  | int =>
    obtain ⟨width, -, h⟩ := bind_eq_ok.mp h
    obtain ⟨signed, -, h⟩ := bind_eq_ok.mp h
    obtain ⟨rfl, rfl⟩ := Prod.mk.inj (pure_eq_ok.mp h)
    refine (Interned.refl d).describes fun t ht => ?_
    cases ht
    exact .int width _
  | float =>
    obtain ⟨width, -, h⟩ := bind_eq_ok.mp h
    obtain ⟨rfl, rfl⟩ := Prod.mk.inj (pure_eq_ok.mp h)
    refine (Interned.refl d).describes fun t ht => ?_
    cases ht
    exact .float width
  | image =>
    obtain ⟨rfl, rfl⟩ := Prod.mk.inj (Except.ok.inj h)
    refine ⟨_, _, _, _, List.prefix_refl _, rfl, fun _ => rfl, fun t ht => ?_⟩
    cases ht
    exact .plain (by decide)
  | vector | matrix =>
    obtain ⟨⟨c, d₁⟩, hc, h⟩ := bind_eq_ok.mp h
    obtain ⟨ids, hp, rfl⟩ := interned_operandId hc
    dsimp only at h
    split at h
    · obtain ⟨rfl, rfl⟩ := Prod.mk.inj (pure_eq_ok.mp h)
      exact ⟨ids, _, _, _, hp, rfl, fun _ => rfl, fun t ht => by cases ht⟩
    case h_2 t hg =>
      obtain ⟨n, -, h⟩ := bind_eq_ok.mp h
      obtain ⟨rfl, rfl⟩ := Prod.mk.inj (pure_eq_ok.mp h)
      refine ⟨ids, _, _, _, hp, rfl, fun _ => rfl, fun t ht => ?_⟩
      cases ht
      first | exact .vector hg n | exact .matrix hg n
  | array =>
    obtain ⟨⟨c, d₁⟩, hc, h⟩ := bind_eq_ok.mp h
    have hi := interned_operandId hc
    dsimp only at h
    split at h
    · obtain ⟨rfl, rfl⟩ := Prod.mk.inj (pure_eq_ok.mp h)
      exact hi.describes fun t ht => by cases ht
    case h_2 t hg =>
      obtain ⟨⟨n, d₂⟩, hn, h⟩ := bind_eq_ok.mp h
      obtain ⟨rfl, rfl⟩ := Prod.mk.inj (pure_eq_ok.mp h)
      refine (hi.trans (interned_arrayLength hn)).describes fun t ht => ?_
      obtain ⟨ids, -, rfl⟩ := hi
      cases ht
      exact .array hg n
  | runtimeArray =>
    obtain ⟨⟨c, d₁⟩, hc, h⟩ := bind_eq_ok.mp h
    obtain ⟨ids, hp, rfl⟩ := interned_operandId hc
    obtain ⟨rfl, rfl⟩ := Prod.mk.inj (pure_eq_ok.mp h)
    refine ⟨ids, _, _, _, hp, rfl, fun _ => rfl, fun t ht => ?_⟩
    obtain ⟨u, hg, rfl⟩ := Option.map_eq_some_iff.mp ht
    exact .runtimeArray hg
  | struct =>
    obtain ⟨ids, members, t, hp, rfl, -, hs⟩ := describe_struct_ok h
    cases hs with
    | anonymous | aliased | root =>
      refine ⟨ids, _, _, _, hp, rfl, fun h => absurd rfl h, fun t ht => ?_⟩
      cases ht
      exact .struct _ _
  | pointer =>
    obtain ⟨⟨c, d₁⟩, hc, h⟩ := bind_eq_ok.mp h
    obtain ⟨ids, hp, rfl⟩ := interned_operandId hc
    obtain ⟨rfl, rfl⟩ := Prod.mk.inj (pure_eq_ok.mp h)
    refine ⟨ids, _, _, _, hp, rfl, fun _ => rfl, fun t ht => ?_⟩
    obtain ⟨u, hg, rfl⟩ := Option.map_eq_some_iff.mp ht
    exact .pointer hg

theorem Interned.sides (h : Interned d e) :
    e.pointees = d.pointees ∧ e.imageSampled = d.imageSampled := by
  obtain ⟨ids, -, rfl⟩ := h
  exact ⟨rfl, rfl⟩

/-- Only pointer types say what they point to, and only image types how they are used. -/
theorem describe_sides {kind : TypeOpcode} {t? : Option TypeDescriptor}
    (h : d.describe id kind i = .ok (e, t?)) :
    (kind = .pointer ∨ e.pointees = d.pointees) ∧
      (kind = .image ∨ e.imageSampled = d.imageSampled) := by
  have hboth (hs : e.pointees = d.pointees ∧ e.imageSampled = d.imageSampled) :
      (kind = .pointer ∨ e.pointees = d.pointees) ∧
        (kind = .image ∨ e.imageSampled = d.imageSampled) := ⟨.inr hs.1, .inr hs.2⟩
  cases kind with
  | void | bool | sampler | sampledImage | function | unknown =>
    obtain ⟨rfl, -⟩ := Prod.mk.inj (Except.ok.inj h)
    exact hboth ⟨rfl, rfl⟩
  | image =>
    obtain ⟨rfl, -⟩ := Prod.mk.inj (Except.ok.inj h)
    exact ⟨.inr rfl, .inl rfl⟩
  | int =>
    obtain ⟨width, -, h⟩ := bind_eq_ok.mp h
    obtain ⟨signed, -, h⟩ := bind_eq_ok.mp h
    obtain ⟨rfl, -⟩ := Prod.mk.inj (pure_eq_ok.mp h)
    exact hboth ⟨rfl, rfl⟩
  | float =>
    obtain ⟨width, -, h⟩ := bind_eq_ok.mp h
    obtain ⟨rfl, -⟩ := Prod.mk.inj (pure_eq_ok.mp h)
    exact hboth ⟨rfl, rfl⟩
  | vector | matrix =>
    obtain ⟨⟨c, d₁⟩, hc, h⟩ := bind_eq_ok.mp h
    have hs := (interned_operandId hc).sides
    dsimp only at h
    split at h
    · obtain ⟨rfl, -⟩ := Prod.mk.inj (pure_eq_ok.mp h)
      exact hboth hs
    · obtain ⟨n, -, h⟩ := bind_eq_ok.mp h
      obtain ⟨rfl, -⟩ := Prod.mk.inj (pure_eq_ok.mp h)
      exact hboth hs
  | array =>
    obtain ⟨⟨c, d₁⟩, hc, h⟩ := bind_eq_ok.mp h
    have hi := interned_operandId hc
    dsimp only at h
    split at h
    · obtain ⟨rfl, -⟩ := Prod.mk.inj (pure_eq_ok.mp h)
      exact hboth hi.sides
    · obtain ⟨⟨n, d₂⟩, hn, h⟩ := bind_eq_ok.mp h
      obtain ⟨rfl, -⟩ := Prod.mk.inj (pure_eq_ok.mp h)
      exact hboth (hi.trans (interned_arrayLength hn)).sides
  | runtimeArray =>
    obtain ⟨⟨c, d₁⟩, hc, h⟩ := bind_eq_ok.mp h
    obtain ⟨rfl, -⟩ := Prod.mk.inj (pure_eq_ok.mp h)
    exact hboth (interned_operandId hc).sides
  | struct =>
    obtain ⟨ids, members, t, -, -, -, hs⟩ := describe_struct_ok h
    cases hs <;> exact hboth ⟨rfl, rfl⟩
  | pointer =>
    obtain ⟨⟨c, d₁⟩, hc, h⟩ := bind_eq_ok.mp h
    obtain ⟨rfl, -⟩ := Prod.mk.inj (pure_eq_ok.mp h)
    exact ⟨.inl rfl, .inr (interned_operandId hc).sides.2⟩

/-- The parts of a type declaration: the id of the result, what it describes, and the table. -/
theorem declareType_ok {kind : TypeOpcode} (h : d.declareType kind i = .ok e) :
    ∃ ids name id d₁ t?, d.ids <+: ids ∧ i.result = some name ∧
      idOf? { d with ids } name = some id ∧ describe { d with ids } id kind i = .ok (d₁, t?) ∧
      e = { d₁ with types := t?.elim d₁.types (d₁.types.set id) } := by
  obtain ⟨⟨id, d₁⟩, hr, h⟩ := bind_eq_ok.mp h
  obtain ⟨name, hn, hi⟩ := result_ok hr
  obtain ⟨⟨d₂, t?⟩, hd, h⟩ := bind_eq_ok.mp h
  have hid := idOf?_intern d name
  have hi₁ := interned_intern d name
  rw [hi] at hid hi₁
  obtain ⟨ids, hp, rfl⟩ := hi₁
  refine ⟨ids, name, id, d₂, t?, hp, hn, hid, hd, ?_⟩
  cases t? with
  | none => rw [← pure_eq_ok.mp h]; rfl
  | some t => rw [← pure_eq_ok.mp h]; rfl

/-- Apart from the tables of types a type declaration adds ids only. -/
theorem declareType_frame {kind : TypeOpcode} (h : d.declareType kind i = .ok e) :
    ∃ ids types pointees imageSampled roots, d.ids <+: ids ∧
      e = { d with ids, types, pointees, imageSampled, roots } ∧
      (kind ≠ .struct → roots = d.roots) := by
  obtain ⟨ids, name, id, d₁, t?, hp, -, -, hd, rfl⟩ := declareType_ok h
  obtain ⟨_, _, _, _, hp', rfl, hr, -⟩ := describe_ok hd
  exact ⟨_, _, _, _, _, hp.trans hp', rfl, hr⟩

end Describing

inductive Declared (d : Declarations) (i : Instruction) : Opcode → Declarations → Prop where
  | entryPoint {name model : String} (hn : i.textAt 2 = .ok name) (hm : i.textAt 0 = .ok model) :
      Declared d i .entryPoint { d with entryPoints := d.entryPoints ++ [⟨name, .ofName model⟩] }
  | name {ids : List String} {target text : String} {id : Id} (hp : d.ids <+: ids)
      (ht : i.idAt 0 = .ok target) (hid : idOf? { d with ids } target = some id)
      (hx : i.textAt 1 = .ok text) :
      Declared d i .name { d with ids, names := d.names.set id text }
  | memberName {ids : List String} (hp : d.ids <+: ids) (key : Id × Int) (text : String) :
      Declared d i .memberName { d with ids, memberNames := d.memberNames.set key text }
  | decorate {ids : List String} (hp : d.ids <+: ids) (key : Id × String) (os : List Operand) :
      Declared d i .decorate { d with ids, decorations := d.decorations.set key os }
  | memberDecorate {ids : List String} (hp : d.ids <+: ids) (key : Id × Int × String)
      (os : List Operand) : Declared d i .memberDecorate
        { d with ids, memberDecorations := d.memberDecorations.set key os }
  | constant {ids : List String} (hp : d.ids <+: ids) (id : Id) (n : Int) :
      Declared d i .constant { d with ids, constants := d.constants.set id n }
  | otherConstant : Declared d i .constant d
  | global {ids : List String} {name typeName storage : String} {id typeId : Id}
      (hp : d.ids <+: ids) (hr : i.result = some name) (hid : idOf? { d with ids } name = some id)
      (ht : i.idAt 0 = .ok typeName) (htid : idOf? { d with ids } typeName = some typeId)
      (hs : i.textAt 1 = .ok storage) : Declared d i .variable
        { d with ids, globals := d.globals ++ [⟨id, typeId, .ofName storage⟩] }
  | type {kind : TypeOpcode} {e : Declarations} (h : d.declareType kind i = .ok e) :
      Declared d i (.type kind) e
  | silent : Declared d i .silent d

section Declaring

variable {d e : Declarations} {i : Instruction}

theorem operandId_target {index : Int} {id : Id} (h : d.operandId i index = .ok (id, e)) :
    ∃ name, i.idAt index = .ok name ∧ e.idOf? name = some id := by
  obtain ⟨name, hn, hi⟩ := operandId_ok h
  have hid := idOf?_intern d name
  rw [hi] at hid
  exact ⟨name, hn, hid⟩

theorem result_target {id : Id} (h : d.result i = .ok (id, e)) :
    Interned d e ∧ ∃ name, i.result = some name ∧ e.idOf? name = some id := by
  obtain ⟨name, hn, hi⟩ := result_ok h
  have hid := idOf?_intern d name
  have hd := interned_intern d name
  rw [hi] at hid hd
  exact ⟨hd, name, hn, hid⟩

/-- A vector or a matrix is what it is made of with other sizes and an identity of its own. -/
theorem describe_stacked_ok {id : Id} {kind : TypeOpcode} {t : TypeDescriptor}
    (hk : kind = .vector ∨ kind = .matrix) (h : d.describe id kind i = .ok (e, some t)) :
    ∃ name c u vecsize columns, i.idAt 0 = .ok name ∧ e.idOf? name = some c ∧
      d.types.get? c = some u ∧ t = { u with vecsize, columns, selfId := id } := by
  rcases hk with rfl | rfl
  all_goals
    obtain ⟨⟨c, d₁⟩, hc, h⟩ := bind_eq_ok.mp h
    obtain ⟨name, hn, hid⟩ := operandId_target hc
    obtain ⟨ids, -, rfl⟩ := interned_operandId hc
    dsimp only at h
    split at h
    · cases pure_eq_ok.mp h
    case h_2 u hu =>
      obtain ⟨size, -, h⟩ := bind_eq_ok.mp h
      obtain ⟨rfl, ht⟩ := Prod.mk.inj (pure_eq_ok.mp h)
      exact ⟨name, c, u, _, _, hn, hid, hu, (Option.some.inj ht).symm⟩

theorem declare_ok (h : d.declare i = .ok e) : Declared d i (Opcode.ofName i.opcode) e := by
  unfold declare at h
  split at h
  case h_1 ho =>
    obtain ⟨name, hn, h⟩ := bind_eq_ok.mp h
    obtain ⟨model, hm, h⟩ := bind_eq_ok.mp h
    rw [ho, ← pure_eq_ok.mp h]
    exact .entryPoint (ask_eq_ok.mp hn) (ask_eq_ok.mp hm)
  case h_2 ho =>
    obtain ⟨text, hx, h⟩ := bind_eq_ok.mp h
    obtain ⟨⟨id, d₁⟩, hc, h⟩ := bind_eq_ok.mp h
    obtain ⟨target, ht, hid⟩ := operandId_target hc
    obtain ⟨ids, hp, rfl⟩ := interned_operandId hc
    rw [ho, ← pure_eq_ok.mp h]
    exact .name hp ht hid (ask_eq_ok.mp hx)
  case h_3 ho =>
    obtain ⟨⟨id, d₁⟩, hc, h⟩ := bind_eq_ok.mp h
    obtain ⟨text, -, h⟩ := bind_eq_ok.mp h
    obtain ⟨index, -, h⟩ := bind_eq_ok.mp h
    obtain ⟨ids, hp, rfl⟩ := interned_operandId hc
    rw [ho, ← pure_eq_ok.mp h]
    exact .memberName hp _ _
  case h_4 ho =>
    obtain ⟨⟨id, d₁⟩, hc, h⟩ := bind_eq_ok.mp h
    obtain ⟨kind, -, h⟩ := bind_eq_ok.mp h
    obtain ⟨ids, hp, rfl⟩ := interned_operandId hc
    rw [ho, ← pure_eq_ok.mp h]
    exact .decorate hp _ _
  case h_5 ho =>
    obtain ⟨⟨id, d₁⟩, hc, h⟩ := bind_eq_ok.mp h
    obtain ⟨index, -, h⟩ := bind_eq_ok.mp h
    obtain ⟨kind, -, h⟩ := bind_eq_ok.mp h
    obtain ⟨ids, hp, rfl⟩ := interned_operandId hc
    rw [ho, ← pure_eq_ok.mp h]
    exact .memberDecorate hp _ _
  case h_6 ho =>
    rw [ho]
    split at h
    · cases h
    · obtain ⟨⟨id, d₁⟩, hr, h⟩ := bind_eq_ok.mp h
      obtain ⟨⟨ids, hp, rfl⟩, -⟩ := result_target hr
      rw [← pure_eq_ok.mp h]
      exact .constant hp _ _
    · cases h
      exact .otherConstant
  case h_7 ho =>
    obtain ⟨⟨id, d₁⟩, hr, h⟩ := bind_eq_ok.mp h
    obtain ⟨⟨typeId, d₂⟩, hc, h⟩ := bind_eq_ok.mp h
    obtain ⟨storage, hs, h⟩ := bind_eq_ok.mp h
    obtain ⟨hi, name, hn, hid⟩ := result_target hr
    obtain ⟨typeName, ht, htid⟩ := operandId_target hc
    obtain ⟨ids₁, hp₁, rfl⟩ := hi
    obtain ⟨ids, hp, rfl⟩ := interned_operandId hc
    rw [ho, ← pure_eq_ok.mp h]
    exact .global (hp₁.trans hp) hn (idOf?_mono hp hid) ht htid (ask_eq_ok.mp hs)
  case h_8 kind ho =>
    rw [ho]
    exact .type h
  case h_9 ho =>
    cases h
    rw [ho]
    exact .silent

/-- An instruction describes its own result, or leaves all descriptors. -/
theorem declare_described (h : d.declare i = .ok e) :
    e.types = d.types ∨ ∃ kind name x ids d₁ t, Opcode.ofName i.opcode = .type kind ∧
      i.result = some name ∧ e.idOf? name = some x ∧ d.ids <+: ids ∧
      describe { d with ids } x kind i = .ok (d₁, some t) ∧ d₁.ids = e.ids ∧
      e.types = d.types.set x t := by
  have hd := declare_ok h
  generalize Opcode.ofName i.opcode = o at hd
  cases hd with
  | @type kind _ htype =>
    obtain ⟨ids, name, x, d₁, t?, hp, hn, hx, hdescribe, rfl⟩ := declareType_ok htype
    obtain ⟨ids', _, _, _, hp', rfl, -, -⟩ := describe_ok hdescribe
    cases t? with
    | none => exact .inl rfl
    | some t =>
      exact .inr ⟨kind, name, x, ids, _, t, rfl, hn, idOf?_mono (d := { d with ids }) hp' hx, hp,
        hdescribe, rfl, rfl⟩
  | _ => exact .inl rfl

/-- An instruction sets the descriptor of its own result, or leaves all descriptors. -/
theorem declare_types (h : d.declare i = .ok e) :
    e.types = d.types ∨ ∃ kind name id t, Opcode.ofName i.opcode = .type kind ∧
      i.result = some name ∧ e.idOf? name = some id ∧ Described d.types id kind t ∧
      e.types = d.types.set id t := by
  rcases declare_described h with hsame | ⟨kind, name, x, ids, d₁, t, hk, hn, hx, -, hd, -, hset⟩
  · exact .inl hsame
  · obtain ⟨_, _, _, _, -, -, -, ht⟩ := describe_ok hd
    exact .inr ⟨kind, name, x, t, hk, hn, hx, ht t rfl, hset⟩

theorem declare_ids (h : d.declare i = .ok e) : d.ids <+: e.ids := by
  have hd := declare_ok h
  generalize Opcode.ofName i.opcode = o at hd
  cases hd with
  | entryPoint | otherConstant | silent => exact List.prefix_refl _
  | type ht =>
    obtain ⟨_, _, _, _, _, hp, rfl, -⟩ := declareType_frame ht
    exact hp
  | _ => assumption

end Declaring

theorem ids_declareAll {d e : Declarations} {is : List Instruction}
    (h : d.declareAll is = .ok e) : d.ids <+: e.ids := by
  induction is generalizing d with
  | nil =>
    obtain rfl : d = e := pure_eq_ok.mp h
    exact List.prefix_refl _
  | cons i is ih =>
    obtain ⟨d₁, h₁, h⟩ := bind_eq_ok.mp h
    exact (declare_ids h₁).trans (ih h)

/-- What holds at the start, and is kept by each instruction of a run, holds at its end. -/
theorem declareAll_induction {P : List Instruction → Declarations → Prop}
    (done : List Instruction) {is : List Instruction} {d e : Declarations}
    (h : d.declareAll is = .ok e) (start : P done d)
    (step : ∀ before i after d d', done ++ is = before ++ i :: after → P before d →
      declare d i = .ok d' → d'.declareAll after = .ok e → P (before ++ [i]) d') :
    P (done ++ is) e := by
  induction is generalizing d done with
  | nil =>
    rw [← pure_eq_ok.mp h, List.append_nil]
    exact start
  | cons i is ih =>
    obtain ⟨d₁, h₁, h⟩ := bind_eq_ok.mp h
    have hs := ih (done ++ [i]) h (step done i is d d₁ rfl start h₁ h) fun before j after d d' he =>
      step before j after d d' (by rw [← he]; simp)
    rwa [List.append_assoc] at hs

end Declarations
end ShaderReflection.Module
