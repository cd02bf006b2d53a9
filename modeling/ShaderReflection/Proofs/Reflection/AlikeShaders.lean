import ShaderReflection.Proofs.Module.Alike
import ShaderReflection.Proofs.Reflection.Agreement
import ShaderReflection.Proofs.Reflection.Nameless

/-! Shaders that answer alike under related ids. Names apart, they have the same bindings and the
same structs, as long as their namers do not overflow. -/
namespace ShaderReflection

open Relator (BiUnique)

namespace Module

theorem LikeType.info {named : Prop} {R : Id → Id → Prop} {t u : TypeDescriptor}
    (h : LikeType named R t u) : t.info = u.info := by
  unfold TypeDescriptor.info
  rw [h.baseType, h.width, h.vecsize, h.columns]

end Module

open ShaderReflection.Module (LikeType)

structure LikeResource (R : Id → Id → Prop) (r q : Resource) : Prop where
  id : R r.id q.id
  typeId : R r.typeId q.typeId

/-- Two shaders that answer alike when they are asked about related ids, names apart. -/
structure AlikeShaders (R : Id → Id → Prop) (s s' : Shader) : Prop where
  biUnique : BiUnique R
  entryPoints : s.entryPoints = s'.entryPoints
  resources : ∀ c, List.Forall₂ (LikeResource R) (s.resources c) (s'.resources c)
  type? : ∀ x y, R x y → Option.Rel (LikeType False R) (s.type? x) (s'.type? y)
  decoration : ∀ x y, R x y → s.decoration x = s'.decoration y
  slots : ∀ x y, R x y → s.slots x = s'.slots y
  reserved : ∀ x y, R x y → isReserved (s.name x) = isReserved (s'.name y)
  structIds : List.Forall₂ R s.structIds s'.structIds

inductive SameAbsence : Absence ρ → Absence ρ → Prop where
  | skipped (r r' : ρ) : SameAbsence (.skipped r) (.skipped r')
  | unwritable : SameAbsence .unwritable .unwritable

def SameOutcome : Except (Absence ρ) StructDefinition → Except (Absence ρ) StructDefinition → Prop :=
  Agree SameAbsence fun t u => t.nameless = u.nameless

/-- Two runs come to related results, unless one of their namers overflows on the way; a run whose
namer overflows is broken off. -/
def UnlessOverflow (same : α → α → Prop) (broken : α → Prop) (n m : Namer) (p q : α × Namer) :
    Prop :=
  n.next ≤ p.2.next ∧ m.next ≤ q.2.next ∧
    (same p.1 q.1 ∨ (broken p.1 ∧ Overflows n p.2) ∨ (broken q.1 ∧ Overflows m q.2))

private theorem isBroken_cons (o : Except (Absence ρ) StructDefinition)
    {os : List (Except (Absence ρ) StructDefinition)} (h : isBroken os = true) :
    isBroken (o :: os) = true := by
  unfold isBroken at h ⊢
  rw [List.any_cons, h, Bool.or_true]

/-- Runs over more structs that start with the same outcome. -/
theorem UnlessOverflow.cons {n m n₁ m₁ : Namer}
    {p q : List (Except (Absence ρ) StructDefinition) × Namer}
    (h : UnlessOverflow (List.Forall₂ SameOutcome) (isBroken · = true) n₁ m₁ p q)
    {o o' : Except (Absence ρ) StructDefinition} (ho : SameOutcome o o') (hn : n.next ≤ n₁.next)
    (hm : m.next ≤ m₁.next) : UnlessOverflow (List.Forall₂ SameOutcome) (isBroken · = true) n m
      (o :: p.1, p.2) (o' :: q.1, q.2) := by
  obtain ⟨hn', hm', hsame⟩ := h
  refine ⟨Int.le_trans hn hn', Int.le_trans hm hm', ?_⟩
  rcases hsame with hsame | ⟨hb, hover⟩ | ⟨hb, hover⟩
  · exact .inl (.cons ho hsame)
  · exact .inr (.inl ⟨isBroken_cons o hb, hover.mono hn (Int.le_refl _)⟩)
  · exact .inr (.inr ⟨isBroken_cons o' hb, hover.mono hm (Int.le_refl _)⟩)

def definitionOf (name : String) (ts : List TypeDescriptor) :
    Option (List StructMember) × Namer → Except (Absence StructSkip) StructDefinition × Namer
  | (none, namer) => (.error .unwritable, namer)
  | (some members, namer) =>
    (.ok { name, byteLength := total (ts.map (·.naturalSize)), members }, namer)

namespace Shader

theorem layOut_alike (s s' : Shader) {ts us : List TypeDescriptor}
    (h : List.Forall₂ SameLayout ts us) (x y : Id) (n m : Namer) :
    UnlessOverflow (fun a b =>
        a.map (·.map StructMember.nameless) = b.map (·.map StructMember.nameless))
      (· = none) n m (s.layOut x ts n) (s'.layOut y us m) := by
  obtain ⟨hn, hs⟩ := s.nameEntries_nameless x n (entriesFrom 0 ts)
  obtain ⟨hm, hs'⟩ := s'.nameEntries_nameless y m (entriesFrom 0 us)
  refine ⟨hn, hm, ?_⟩
  have hplace : (fun bs => ((place 0 bs).map StructMember.nameless)) =
      fun bs => place 0 (bs.map NamedBlock.nameless) := funext fun bs => map_nameless_place 0 bs
  unfold layOut
  dsimp only
  rcases hs with hs | ⟨hs, ho⟩
  · rcases hs' with hs' | ⟨hs', ho⟩
    · left
      rw [Option.map_map, Option.map_map]
      change Option.map (fun bs => (place 0 bs).map StructMember.nameless) _ =
        Option.map (fun bs => (place 0 bs).map StructMember.nameless) _
      rw [hplace]
      have he : Option.map (·.map NamedBlock.nameless) (s.nameEntries x n (entriesFrom 0 ts)).1 =
          Option.map (·.map NamedBlock.nameless) (s'.nameEntries y m (entriesFrom 0 us)).1 := by
        rw [hs, hs', entriesFrom_of_sameLayout 0 h]
      have hmap := congrArg (Option.map (place 0)) he
      rwa [Option.map_map, Option.map_map] at hmap
    · rw [hs']
      exact .inr (.inr ⟨rfl, ho⟩)
  · rw [hs]
    exact .inr (.inl ⟨rfl, ho⟩)

section Alike

variable {R : Id → Id → Prop} {s s' : Shader} (h : AlikeShaders R s s')
include h

theorem resolveAll_alike {xs ys : List Id} (hxy : List.Forall₂ R xs ys) :
    List.Forall₂ (LikeType False R) (s.resolveAll xs).1 (s'.resolveAll ys).1 ∧
      Option.Rel R (s.resolveAll xs).2 (s'.resolveAll ys).2 := by
  induction hxy with
  | nil => exact ⟨.nil, .none⟩
  | @cons x y _ _ hxy _ ih =>
    have ht := h.type? x y hxy
    unfold resolveAll
    generalize s.type? x = a at ht ⊢
    generalize s'.type? y = b at ht ⊢
    cases ht with
    | none => exact ⟨.nil, .some hxy⟩
    | some ht => exact ⟨.cons ht ih.1, ih.2⟩

/-- Two related structs are both left out, or both are laid out with members of like types. -/
theorem structDefinition_related {x y : Id} (hxy : R x y) :
    (∃ r r', ∀ n m, s.structDefinition x n = (.error (.skipped r), n) ∧
      s'.structDefinition y m = (.error (.skipped r'), m)) ∨
    ∃ ts us, List.Forall₂ SameLayout ts us ∧ ∀ n m,
      s.structDefinition x n = definitionOf (s.name x) ts (s.layOut x ts n) ∧
      s'.structDefinition y m = definitionOf (s'.name y) us (s'.layOut y us m) := by
  have ht := h.type? x y hxy
  unfold structDefinition
  generalize s.type? x = a at ht ⊢
  generalize s'.type? y = b at ht ⊢
  cases ht with
  | none => exact .inl ⟨_, _, fun _ _ => ⟨rfl, rfl⟩⟩
  | @some t u ht =>
    rw [Option.filter_some, Option.filter_some, ht.sameLayout.isStruct]
    cases u.isStruct with
    | false => exact .inl ⟨_, _, fun _ _ => ⟨rfl, rfl⟩⟩
    | true =>
      dsimp only
      rw [if_pos rfl, if_pos rfl]
      dsimp only
      rw [h.reserved x y hxy]
      cases isReserved (s'.name y) with
      | true => exact .inl ⟨_, _, fun _ _ => ⟨rfl, rfl⟩⟩
      | false =>
        obtain ⟨hts, hunknown⟩ := resolveAll_alike h ht.members
        generalize s.resolveAll t.members = p at hts hunknown ⊢
        generalize s'.resolveAll u.members = q at hts hunknown ⊢
        obtain ⟨ts, unknown⟩ := p
        obtain ⟨us, unknown'⟩ := q
        dsimp only at hts hunknown
        cases hunknown with
        | some => exact .inl ⟨_, _, fun _ _ => ⟨rfl, rfl⟩⟩
        | none =>
          exact .inr ⟨ts, us, hts.imp fun _ _ => LikeType.sameLayout, fun _ _ => ⟨rfl, rfl⟩⟩

theorem structDefinition_alike {x y : Id} (hxy : R x y) (n m : Namer) :
    UnlessOverflow SameOutcome (· = .error .unwritable) n m
      (s.structDefinition x n) (s'.structDefinition y m) := by
  rcases structDefinition_related h hxy with ⟨r, r', hskip⟩ | ⟨ts, us, hts, hlaid⟩
  · rw [(hskip n m).1, (hskip n m).2]
    exact ⟨Int.le_refl _, Int.le_refl _, .inl (.error (.skipped r r'))⟩
  · obtain ⟨hn, hm, hsame⟩ := layOut_alike s s' hts x y n m
    rw [(hlaid n m).1, (hlaid n m).2]
    generalize s.layOut x ts n = p at hn hsame ⊢
    generalize s'.layOut y us m = q at hm hsame ⊢
    obtain ⟨members, n'⟩ := p
    obtain ⟨members', m'⟩ := q
    refine ⟨?_, ?_, ?_⟩
    · cases members <;> exact hn
    · cases members' <;> exact hm
    · rcases hsame with hsame | ⟨rfl, ho⟩ | ⟨rfl, ho⟩
      · cases members with
        | none =>
          cases members' with
          | none => exact .inl (.error .unwritable)
          | some => cases hsame
        | some ms =>
          cases members' with
          | none => cases hsame
          | some ms' =>
            have hms : ms.map StructMember.nameless = ms'.map StructMember.nameless :=
              Option.some.inj hsame
            refine .inl (.ok ?_)
            unfold StructDefinition.nameless
            dsimp only
            rw [map_naturalSize_of_sameLayout hts, hms]
      · exact .inr (.inl ⟨rfl, ho⟩)
      · exact .inr (.inr ⟨rfl, ho⟩)

theorem structOutcomes_alike {xs ys : List Id} (hxy : List.Forall₂ R xs ys) (n m : Namer) :
    UnlessOverflow (List.Forall₂ SameOutcome) (isBroken · = true) n m
      (s.structOutcomes n xs) (s'.structOutcomes m ys) := by
  induction hxy generalizing n m with
  | nil => exact ⟨Int.le_refl _, Int.le_refl _, .inl .nil⟩
  | @cons x y xs ys hxy _ ih =>
    obtain ⟨hn, hm, hsame⟩ := structDefinition_alike h hxy n m
    unfold structOutcomes
    generalize s.structDefinition x n = p at hn hsame ⊢
    generalize s'.structDefinition y m = q at hm hsame ⊢
    obtain ⟨o, n₁⟩ := p
    obtain ⟨o', m₁⟩ := q
    dsimp only at hn hm hsame
    have hrest := ih n₁ m₁
    have hn' : n.next ≤ (s.structOutcomes n₁ xs).2.next := Int.le_trans hn hrest.1
    have hm' : m.next ≤ (s'.structOutcomes m₁ ys).2.next := Int.le_trans hm hrest.2.1
    rcases hsame with hsame | ⟨rfl, hover⟩ | ⟨rfl, hover⟩
    · cases hsame with
      | ok ho => exact hrest.cons (.ok ho) hn hm
      | error he =>
        cases he with
        | skipped r r' => exact hrest.cons (.error (.skipped r r')) hn hm
        | unwritable => exact ⟨hn, hm, .inl (.cons (.error .unwritable) .nil)⟩
    -- One run is broken off here; the other one may go on or not.
    · rcases o' with (_ | _) | _
      · exact ⟨hn, hm', .inr (.inl ⟨rfl, hover⟩)⟩
      · exact ⟨hn, hm, .inr (.inl ⟨rfl, hover⟩)⟩
      · exact ⟨hn, hm', .inr (.inl ⟨rfl, hover⟩)⟩
    · rcases o with (_ | _) | _
      · exact ⟨hn', hm, .inr (.inr ⟨rfl, hover⟩)⟩
      · exact ⟨hn, hm, .inr (.inr ⟨rfl, hover⟩)⟩
      · exact ⟨hn', hm, .inr (.inr ⟨rfl, hover⟩)⟩

end Alike

end Shader
end ShaderReflection
