import Mathlib.Data.List.Nodup
import ShaderReflection.CommandLine.Run

/-! What making directories and writing files leaves alone. No directory ever goes away, so a path
keeps leading to its place. -/
namespace ShaderReflection.CommandLine

theorem mem_lineage_iff {p q : Path} :
    q ∈ lineage p ↔ ∃ n ≤ p.parts.length, q = { p with parts := p.parts.take n } := by
  simp only [lineage, List.mem_map, List.mem_range, Nat.lt_succ_iff, eq_comm]

private theorem mem_lineage_self (p : Path) : p ∈ lineage p :=
  mem_lineage_iff.mpr ⟨p.parts.length, Nat.le_refl _, by simp⟩

private theorem mem_lineage_of_parent {p q : Path} (h : q ∈ lineage p.parent) : q ∈ lineage p := by
  obtain ⟨n, hn, rfl⟩ := mem_lineage_iff.mp h
  have hlen : p.parent.parts.length ≤ p.parts.length := by simp [Path.parent]
  refine mem_lineage_iff.mpr ⟨n, Nat.le_trans hn hlen, ?_⟩
  rw [Path.parent, List.length_dropLast] at hn
  simp [Path.parent, List.dropLast_eq_take, List.take_take, hn]

namespace FileTree

section Walking

variable {t t' : FileTree}

theorem walk_eq_ok {names : List String} {l l' : Location} (h : t.walk l names = .ok l') :
    l' = names.foldl (fun l name => if name = ".." then l.dropLast else l ++ [name]) l := by
  induction names generalizing l with
  | nil => exact (Except.ok.inj h).symm
  | cons name names ih =>
    unfold walk at h
    split at h
    · split at h
      · cases h
      · exact ih h
    · cases h
    · cases h

/-- Where a path leads to depends on the path and the starting directory only. -/
theorem locate_eq_ok {p : Path} {l : Location} (h : t.locate p = .ok l) : l = placeOf t.cwd p := by
  unfold locate at h
  split at h
  · cases h
  · split at h
    · cases h
    · exact walk_eq_ok h

structure KeepsDirectories (t t' : FileTree) : Prop where
  cwd : t'.cwd = t.cwd
  directory : ∀ l, t.node? l = some .directory → t'.node? l = some .directory

theorem KeepsDirectories.refl (t : FileTree) : t.KeepsDirectories t := ⟨rfl, fun _ h => h⟩

theorem KeepsDirectories.trans {t'' : FileTree} (h : t.KeepsDirectories t')
    (h' : t'.KeepsDirectories t'') : t.KeepsDirectories t'' :=
  ⟨h'.cwd.trans h.cwd, fun l hl => h'.directory l (h.directory l hl)⟩

theorem KeepsDirectories.walk (h : t.KeepsDirectories t') {names : List String} {l l' : Location}
    (hwalk : t.walk l names = .ok l') : t'.walk l names = .ok l' := by
  induction names generalizing l with
  | nil => exact hwalk
  | cons name names ih =>
    unfold FileTree.walk at hwalk ⊢
    split at hwalk
    case h_1 hdir =>
      rw [h.directory l hdir]
      split at hwalk
      · cases hwalk
      case isFalse hname =>
        dsimp only
        rw [if_neg hname]
        exact ih hwalk
    · cases hwalk
    · cases hwalk

theorem KeepsDirectories.locate (h : t.KeepsDirectories t') {p : Path} {l : Location}
    (hl : t.locate p = .ok l) : t'.locate p = .ok l := by
  unfold FileTree.locate at hl ⊢
  rw [h.cwd]
  split at hl
  · cases hl
  case isFalse hnull =>
    rw [if_neg hnull]
    split at hl
    · cases hl
    case isFalse hlong =>
      rw [if_neg hlong]
      exact h.walk hl

theorem lookup_eq_ok {p : Path} {l : Location} {n : Node} (hl : t.locate p = .ok l)
    (hn : t.node? l = some n) : t.lookup p = .ok n := by
  simp [lookup, hl, hn, bind, Except.bind, pure, Except.pure]

end Walking

section Setting

variable (t : FileTree)

theorem node?_set {l : Location} (h : t.node? l ≠ some .directory) (n : Node) (l' : Location) :
    node? { t with entries := t.entries.set l n } l' = if l' = l then some n else t.node? l' := by
  have habove : l.isPrefixOf t.cwd = false := by
    by_contra hp
    exact h (if_pos (Bool.not_eq_false _ ▸ hp))
  unfold node?
  dsimp only
  rw [Table.get?_set]
  by_cases hl : l' = l
  · subst hl
    simp [habove]
  · simp [hl]

end Setting

section Directories

variable {t t' t'' : FileTree} {ps : List Path} {p : Path}

/-- Two trees are the same but for directories where nothing was, at the places of given paths. -/
structure Grown (ps : List Path) (t t' : FileTree) : Prop where
  cwd : t'.cwd = t.cwd
  node? : ∀ l, t'.node? l = t.node? l ∨
    (∃ p ∈ ps, placeOf t.cwd p = l) ∧ t.node? l = none ∧ t'.node? l = some .directory

theorem Grown.refl (ps : List Path) (t : FileTree) : Grown ps t t := ⟨rfl, fun _ => .inl rfl⟩

theorem Grown.trans (h : Grown ps t t') (h' : Grown ps t' t'') : Grown ps t t'' where
  cwd := h'.cwd.trans h.cwd
  node? := fun l => by
    rcases h'.node? l with heq' | ⟨hp, hnone, hdir⟩
    · rw [heq']
      exact h.node? l
    · rw [h.cwd] at hp
      rcases h.node? l with heq | ⟨-, -, hdir'⟩
      · exact .inr ⟨hp, heq ▸ hnone, hdir⟩
      · rw [hnone] at hdir'
        cases hdir'

theorem Grown.mono {qs : List Path} (h : Grown ps t t') (hps : ∀ p ∈ ps, p ∈ qs) : Grown qs t t' where
  cwd := h.cwd
  node? := fun l => (h.node? l).imp_right fun ⟨⟨p, hp, hl⟩, hnone, hdir⟩ =>
    ⟨⟨p, hps p hp, hl⟩, hnone, hdir⟩

theorem makeDirectory_grown (h : t.makeDirectory p = .ok t') : Grown [p] t t' := by
  unfold makeDirectory at h
  cases hl : t.locate p with
  | error e =>
    rw [hl] at h
    cases h
  | ok l =>
    rw [hl] at h
    dsimp only [bind, Except.bind] at h
    split at h
    · cases h
    case h_2 hnone =>
      obtain rfl := Except.ok.inj h
      have hne : t.node? l ≠ some .directory := by simp [hnone]
      refine ⟨rfl, fun l' => ?_⟩
      rw [node?_set t hne]
      by_cases hl' : l' = l
      · subst hl'
        exact .inr ⟨⟨p, by simp, (locate_eq_ok hl).symm⟩, hnone, if_pos rfl⟩
      · exact .inl (if_neg hl')

theorem ensureDirectory_grown (t : FileTree) (p : Path) :
    Grown (lineage p) t (t.ensureDirectory p).1 := by
  unfold ensureDirectory
  split
  case h_1 t' h =>
    exact (makeDirectory_grown h).mono fun q hq => List.mem_singleton.mp hq ▸ mem_lineage_self p
  case h_2 =>
    split
    · exact .refl _ t
    · exact .refl _ t

/-- Only directories on the way to a path are made, where nothing was before. -/
theorem makeDirectories_grown (t : FileTree) (p : Path) (above : Nat) :
    Grown (lineage p) t (t.makeDirectories p above).1 := by
  induction above generalizing p with
  | zero =>
    unfold makeDirectories
    split
    · exact .refl _ t
    · exact ensureDirectory_grown t p
  | succ above ih =>
    unfold makeDirectories
    split
    · have habove := (ih p.parent).mono fun q hq => mem_lineage_of_parent hq
      split
      case h_1 u hu =>
        rw [hu] at habove
        exact habove.trans (ensureDirectory_grown u p)
      · exact habove
    · exact ensureDirectory_grown t p

end Directories

section Files

variable {t t' : FileTree} {p : Path} {bytes : List UInt8}

/-- A file is written at the place of its path, and nowhere else. -/
theorem write_eq_ok (h : t.write p bytes = .ok t') :
    t.locate p = .ok (placeOf t.cwd p) ∧ t.KeepsDirectories t' ∧
      ∀ l, t'.node? l = if l = placeOf t.cwd p then some (.file bytes) else t.node? l := by
  unfold write at h
  split at h
  · cases h
  case h_2 l hl =>
    split at h
    · cases h
    case h_2 hne =>
      obtain rfl := Except.ok.inj h
      obtain rfl := locate_eq_ok hl
      have hnode := node?_set t hne (.file bytes)
      refine ⟨hl, ⟨rfl, fun l' hl' => ?_⟩, hnode⟩
      rw [hnode, if_neg (by rintro rfl; exact hne hl')]
      exact hl'

end Files

end FileTree
end ShaderReflection.CommandLine
