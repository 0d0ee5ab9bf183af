import Libparted.Fs.Fat.Groups

/-!
# The invariant of the duplication

A fragment *moves* if `needs_duplicating` says so.  While windows of the old file system
are read and written, three things hold together (`Progress`).

* Every fragment that has been given a cluster has one that was available at the start
  and is marked now, and no two have the same.
* Nothing on the device has changed but the targets of those fragments.
* The fragments in front of the group being collected are at their targets, and the
  remap table says so.

This module follows the invariant through the writing of a window
(`writeFragments_spec`).

The group being collected is a run: the allocator skips only clusters that are marked,
so that as long as it does not fall below the start of the group, which `write_fragments`
asserts, it moves upwards.
-/

namespace Libparted.Fat

open Library

variable {β : Type}

/-- The fragment is to be copied. -/
def Moves (ctx : FatOpContext) (info : ℕ → FatClusterInfo) (f : ℕ) : Prop :=
  needsDuplicating ctx info f = .ok true

/-- The fragment is in use. -/
def Active (ctx : FatOpContext) (info : ℕ → FatClusterInfo) (f : ℕ) : Prop :=
  fatIsFragmentActive ctx.oldFs info f = .ok true

section Fragments

variable {ctx : FatOpContext} {info : ℕ → FatClusterInfo} {f : ℕ}

/-- The flags of the fragments in use. -/
theorem active_iff : Active ctx info f ↔
    fatGetFragmentFlag ctx.oldFs info f = .ok .file ∨
      fatGetFragmentFlag ctx.oldFs info f = .ok .directory := by
  unfold Active fatIsFragmentActive
  rw [bind_eq_ok]
  constructor
  · rintro ⟨flag, hflag, h⟩
    cases flag <;> simp_all
  · rintro (h | h)
    · exact ⟨_, h, rfl⟩
    · exact ⟨_, h, rfl⟩

theorem fatGetFragmentFlag_range {flag : FatClusterFlag}
    (h : fatGetFragmentFlag ctx.oldFs info f = .ok flag) : (f : ℤ) < ctx.oldFs.fragCount := by
  obtain ⟨b, hb, -⟩ := bind_eq_ok.mp h
  exact (fatFragToCluster_eq_ok.mp hb).2.1

theorem Active.lt (h : Active ctx info f) : (f : ℤ) < ctx.oldFs.fragCount := by
  rcases active_iff.mp h with h | h <;> exact fatGetFragmentFlag_range h

/-- Which fragments move. -/
theorem moves_iff : Moves ctx info f ↔
    fatGetFragmentFlag ctx.oldFs info f = .ok .directory ∨
      fatGetFragmentFlag ctx.oldFs info f = .ok .file ∧
        fatOpContextMapStaticFragment ctx f = -1 := by
  unfold Moves needsDuplicating
  constructor
  · intro h
    obtain ⟨cluster, -, h⟩ := bind_eq_ok.mp h
    obtain ⟨-, -, h⟩ := bind_eq_ok.mp h
    obtain ⟨flag, hflag, h⟩ := bind_eq_ok.mp h
    cases flag with
    | free => simp at h
    | bad => simp at h
    | directory => exact .inl hflag
    | file => exact .inr ⟨hflag, by simpa using h⟩
  · intro h
    -- the assertions are those that computing the flag has passed
    have hflag : ∃ flag, fatGetFragmentFlag ctx.oldFs info f = .ok flag := by
      rcases h with h | ⟨h, -⟩ <;> exact ⟨_, h⟩
    obtain ⟨flag, hflag⟩ := hflag
    obtain ⟨cluster, hcluster, hrest⟩ := bind_eq_ok.mp hflag
    obtain ⟨u, hassert, -⟩ := bind_eq_ok.mp hrest
    have hassert' : pedAssert (2 ≤ cluster && cluster < ctx.oldFs.clusterCount + 2)
        "cluster >= 2 && cluster < old_fs_info->cluster_count + 2" = .ok () := by
      unfold pedAssert at hassert ⊢
      split at hassert
      · rename_i hc
        rw [if_pos hc]
      · simp at hassert
    rw [hcluster, ok_bind, hassert', ok_bind]
    rcases h with h | ⟨h, hstatic⟩
    · simp [h]
    · simp [h, hstatic]

theorem Moves.active (h : Moves ctx info f) : Active ctx info f := by
  rcases moves_iff.mp h with h | ⟨h, -⟩
  · exact active_iff.mpr (.inr h)
  · exact active_iff.mpr (.inl h)

/-- A fragment in use that does not move is mapped statically. -/
theorem Active.static_ne (h : Active ctx info f) (hstay : ¬ Moves ctx info f) :
    fatOpContextMapStaticFragment ctx f ≠ -1 := by
  intro hstatic
  rcases active_iff.mp h with h | h
  · exact hstay (moves_iff.mpr (.inr ⟨h, hstatic⟩))
  · exact hstay (moves_iff.mpr (.inl h))

end Fragments

/-! ## Clusters as fragments -/

/-- The first fragment of a cluster. -/
def FatSpecific.clusterFrag (fs : FatSpecific) (c : ℕ) : ℤ := ((c : ℤ) - 2) * fs.clusterFrags

section Clusters

variable {ctx : FatOpContext} {c d : ℕ}

theorem FatOpContext.Grid.newFrags_pos (hgrid : ctx.Grid) : (0 : ℤ) < ctx.newFs.clusterFrags := by
  have hpos := ctx.newFs.clusterSectors_pos
  rw [hgrid.new_sectors] at hpos
  exact_mod_cast Nat.pos_of_mul_pos_right hpos

theorem FatOpContext.Grid.clusterFrag_lt_iff (hgrid : ctx.Grid) :
    ctx.newFs.clusterFrag c < ctx.newFs.clusterFrag d ↔ c < d := by
  unfold FatSpecific.clusterFrag
  rw [mul_lt_mul_iff_left₀ hgrid.newFrags_pos]
  omega

theorem FatOpContext.Grid.clusterFrag_inj (hgrid : ctx.Grid)
    (h : ctx.newFs.clusterFrag c = ctx.newFs.clusterFrag d) : c = d := by
  rcases lt_trichotomy c d with hlt | heq | hgt
  · exact absurd h (hgrid.clusterFrag_lt_iff.mpr hlt).ne
  · exact heq
  · exact absurd h (hgrid.clusterFrag_lt_iff.mpr hgt).ne'

theorem FatOpContext.Grid.clusterFrag_range (hgrid : ctx.Grid) (hc : ctx.newFs.IsCluster c) :
    0 ≤ ctx.newFs.clusterFrag c ∧ ctx.newFs.clusterFrag c < ctx.newFs.fragCount := by
  obtain ⟨h2, hlt⟩ := hc
  have hk := hgrid.newFrags_pos
  unfold FatSpecific.clusterFrag
  rw [hgrid.new_count]
  exact ⟨mul_nonneg (by omega) hk.le, mul_lt_mul_of_pos_right (by omega) hk⟩

theorem FatOpContext.Grid.fatClusterToFrag_eq (hgrid : ctx.Grid) {p : ℤ}
    (h : fatClusterToFrag ctx.newFs c = .ok p) :
    ctx.newFs.IsCluster c ∧ p = ctx.newFs.clusterFrag c := by
  unfold fatClusterToFrag pedAssert at h
  split at h
  · rename_i hassert
    simp only [Bool.and_eq_true, decide_eq_true_eq] at hassert
    simp only [ok_bind, pure_eq_ok, Except.ok.injEq] at h
    obtain ⟨hlow, hhigh⟩ := hgrid.clusterFrag_range hassert
    have hcast : (((c - 2) * ctx.newFs.clusterFrags : ℕ) : ℤ) = ctx.newFs.clusterFrag c := by
      unfold FatSpecific.clusterFrag
      push_cast [hassert.1]
      rfl
    have := hgrid.new_lt
    rw [hcast, toFragment_eq (by omega) (by omega)] at h
    exact ⟨hassert, h.symm⟩
  · simp at h

theorem FatOpContext.Grid.fatClusterToFrag_of_isCluster (hgrid : ctx.Grid)
    (hc : ctx.newFs.IsCluster c) :
    fatClusterToFrag ctx.newFs c = .ok (ctx.newFs.clusterFrag c) := by
  cases h : fatClusterToFrag ctx.newFs c with
  | error e =>
    unfold fatClusterToFrag pedAssert at h
    simp [hc.1, hc.2] at h
  | ok p => rw [(hgrid.fatClusterToFrag_eq h).2]

/-- The sectors of the first fragment of a cluster are in the cluster. -/
theorem FatOpContext.Grid.inCluster_of_clusterFrag (hgrid : ctx.Grid) {x : ℤ}
    (h : ctx.newFs.InFragment (ctx.newFs.clusterFrag c) x) : ctx.newFs.InCluster c x := by
  rw [inCluster_iff_div hgrid.newCut.sectors h]
  exact Int.mul_ediv_cancel _ hgrid.newFrags_pos.ne'

end Clusters

/-! ## Progress -/

/-- How far the duplication has come.  The moving fragments below `allocated` have a target,
and those below `written` are there. -/
structure Progress (ctx : FatOpContext) (info : ℕ → FatClusterInfo) (s₀ : Duplication β)
    (target : ℕ → ℤ) (allocated written : ℕ) (s : Duplication β) : Prop where
  le : written ≤ allocated
  shape : s₀.fat.SameShape s.fat
  marked : ∀ c, s₀.fat.entry c ≠ 0 → s.fat.entry c ≠ 0
  placed : ∀ f, Moves ctx info f → f < allocated → ∃ c, ctx.newFs.IsCluster c ∧
    target f = ctx.newFs.clusterFrag c ∧ s₀.fat.entry c = 0 ∧ s.fat.entry c ≠ 0
  inj : ∀ f g, Moves ctx info f → Moves ctx info g → f < allocated → g < allocated →
    target f = target g → f = g
  keep : ∀ x, (∀ f, Moves ctx info f → f < written → ¬ ctx.newFs.InFragment (target f) x) →
    s.disk x = s₀.disk x
  data : ∀ f, Moves ctx info f → f < written → target f ∉ s.failures → ∀ r < ctx.fragSectors,
    s.disk (ctx.newFs.fragStart (target f) + r) = s₀.disk (ctx.oldFs.fragStart f + r)
  remap_moved : ∀ f, Moves ctx info f → f < written → s.remap f = target f
  remap_static : ∀ f, ¬ (Moves ctx info f ∧ f < written) →
    s.remap f = fatOpContextMapStaticFragment ctx f
  suffix : s.singleWrites <:+ s₀.singleWrites
  failures : ∀ p ∈ s.failures,
    (∃ f, Moves ctx info f ∧ f < written ∧ p = target f) ∧ ∃ o ∈ s₀.singleWrites, o ≠ .done

/-- The window that is being written: `i` of its fragments have been looked at. -/
structure Window (ctx : FatOpContext) (info : ℕ → FatClusterInfo) (s₀ : Duplication β)
    (target : ℕ → ℤ) (b i written : ℕ) (s : Duplication β) : Prop
    extends Progress ctx info s₀ target (b + i) written s where
  offset : s.bufferOffset = b
  map_iff : ∀ j < ctx.bufferFrags, s.bufferMap j ≠ -1 ↔ Moves ctx info (b + j)
  map_done : ∀ j < i, Moves ctx info (b + j) → s.bufferMap j = target (b + j)
  buffer : ∀ j < ctx.bufferFrags, Moves ctx info (b + j) → ∀ r < ctx.fragSectors,
    s.oldBuffer (j * ctx.fragSectors + r) = s₀.disk (ctx.oldFs.fragStart (b + j : ℕ) + r)

/-- A group that waits to be written. -/
structure Pending (ctx : FatOpContext) (info : ℕ → FatClusterInfo) (target : ℕ → ℤ)
    (b i first last : ℕ) : Prop where
  le : first ≤ last
  lt : last < i
  first_moves : Moves ctx info (b + first)
  last_moves : Moves ctx info (b + last)
  rest : ∀ j, last < j → j < i → ¬ Moves ctx info (b + j)
  increasing : ∀ j k, first ≤ j → j < k → k ≤ last → Moves ctx info (b + j) →
    Moves ctx info (b + k) → target (b + j) < target (b + k)

/-- The allocator stands at the end of the group, and no cluster between the ends of the
group is available. -/
structure Tip (ctx : FatOpContext) (target : ℕ → ℤ) (b first last : ℕ) (fat : FatTable) :
    Prop where
  last : target (b + last) = ctx.newFs.clusterFrag fat.lastAlloc
  filled : ∀ c, target (b + first) ≤ ctx.newFs.clusterFrag c → c ≤ fat.lastAlloc →
    fat.entry c ≠ 0

section Run

variable {ctx : FatOpContext} {info : ℕ → FatClusterInfo} {s₀ : Duplication β}
variable {target : ℕ → ℤ} {s : Duplication β}

/-- Stretches without a moving fragment count as done. -/
theorem Progress.extend {a w a' w' : ℕ} (h : Progress ctx info s₀ target a w s)
    (hle : w' ≤ a') (ha : ∀ f, Moves ctx info f → (f < a' ↔ f < a))
    (hw : ∀ f, Moves ctx info f → (f < w' ↔ f < w)) :
    Progress ctx info s₀ target a' w' s where
  le := hle
  shape := h.shape
  marked := h.marked
  placed f hf hlt := h.placed f hf ((ha f hf).mp hlt)
  inj f g hf hg hlt hlt' := h.inj f g hf hg ((ha f hf).mp hlt) ((ha g hg).mp hlt')
  keep x hx := h.keep x fun f hf hlt => hx f hf ((hw f hf).mpr hlt)
  data f hf hlt := h.data f hf ((hw f hf).mp hlt)
  remap_moved f hf hlt := h.remap_moved f hf ((hw f hf).mp hlt)
  remap_static f hnot := h.remap_static f fun ⟨hf, hlt⟩ => hnot ⟨hf, (hw f hf).mpr hlt⟩
  suffix := h.suffix
  failures p hp := by
    obtain ⟨⟨f, hf, hlt, heq⟩, hfail⟩ := h.failures p hp
    exact ⟨⟨f, hf, (hw f hf).mpr hlt, heq⟩, hfail⟩

theorem Window.extend {b i w w' : ℕ} (h : Window ctx info s₀ target b i w s)
    (hle : w' ≤ b + i) (hw : ∀ f, Moves ctx info f → (f < w' ↔ f < w)) :
    Window ctx info s₀ target b i w' s :=
  { h with toProgress := h.toProgress.extend hle (fun _ _ => Iff.rfl) hw }

theorem Window.target_nonneg {b i w : ℕ} (hgrid : ctx.Grid)
    (h : Window ctx info s₀ target b i w s) {j : ℕ} (hj : j < i)
    (hmoves : Moves ctx info (b + j)) :
    0 ≤ target (b + j) ∧ target (b + j) < ctx.newFs.fragCount := by
  obtain ⟨c, hc, heq, -⟩ := h.placed (b + j) hmoves (by omega)
  rw [heq]
  exact hgrid.clusterFrag_range hc

/-- A pending group is a run of the map. -/
theorem Window.isRun {b m i w first last : ℕ} (hgrid : ctx.Grid)
    (h : Window ctx info s₀ target b m w s) (hp : Pending ctx info target b i first last)
    (him : i ≤ m) (hm : m ≤ ctx.bufferFrags) : IsRun s.bufferMap first last := by
  have hlt := hp.lt
  have hle := hp.le
  have hmap {j : ℕ} (hj : j ≤ last) (hne : s.bufferMap j ≠ -1) :
      Moves ctx info (b + j) ∧ s.bufferMap j = target (b + j) := by
    have hmoves := (h.map_iff j (by omega)).mp hne
    exact ⟨hmoves, h.map_done j (by omega) hmoves⟩
  refine ⟨hle, (h.map_iff first (by omega)).mpr hp.first_moves,
    (h.map_iff last (by omega)).mpr hp.last_moves, fun j hj hj' hne => ?_,
    fun j k hj hjk hk hnej hnek => ?_⟩
  · obtain ⟨hmoves, heq⟩ := hmap hj' hne
    rw [heq]
    exact (h.target_nonneg hgrid (by omega) hmoves).1
  · obtain ⟨hmoves, heq⟩ := hmap (by omega) hnej
    obtain ⟨hmoves', heq'⟩ := hmap hk hnek
    rw [heq, heq']
    exact hp.increasing j k hj hjk hk hmoves hmoves'

/-- **The write of a pending group** takes it to its targets. -/
theorem Window.groupWrite_spec {b m i first last : ℕ} (hgrid : ctx.Grid)
    (hignore : s₀.Ignoring) (h : Window ctx info s₀ target b m (b + first) s)
    (hp : Pending ctx info target b i first last) (him : i ≤ m) (hm : m ≤ ctx.bufferFrags) :
    Spec (fun _ => True) (groupWrite ctx first last) s fun ok s' => ok = true →
      Window ctx info s₀ target b m (b + i) s' ∧ s'.fat = s.fat := by
  have hrun := h.isRun hgrid hp him hm
  have hlt := hp.lt
  have hle := hp.le
  have hdone {j : ℕ} (hj : j ≤ last) (hmoves : Moves ctx info (b + j)) :
      s.bufferMap j = target (b + j) := h.map_done j (by omega) hmoves
  have hlast : s.bufferMap last < ctx.newFs.fragCount := by
    rw [hdone le_rfl hp.last_moves]
    exact (h.target_nonneg hgrid (by omega) hp.last_moves).2
  have htargeted {p : ℤ} (ht : Targeted s.bufferMap first last p) :
      ∃ j, first ≤ j ∧ j ≤ last ∧ Moves ctx info (b + j) ∧ p = target (b + j) := by
    obtain ⟨j, hj, hj', rfl, hne⟩ := ht
    have hmoves := (h.map_iff j (by omega)).mp hne
    exact ⟨j, hj, hj', hmoves, hdone hj' hmoves⟩
  refine (Fat.groupWrite_spec hgrid.cut hrun hlast (hignore.suffix h.suffix)).imp fun ok s' hs hok => ?_
  obtain ⟨t, heff, rfl⟩ := hs hok
  have hoffset := h.offset
  refine ⟨⟨⟨by omega, by rw [heff.fat]; exact h.shape, ?_, ?_, h.inj, ?_, ?_, ?_, ?_, heff.suffix.trans h.suffix, ?_⟩,
    ?_, ?_, ?_, ?_⟩, heff.fat⟩
  · intro c hc
    change t.fat.entry c ≠ 0
    rw [heff.fat]
    exact h.marked c hc
  · intro f hf hlt'
    change ∃ c, ctx.newFs.IsCluster c ∧ _ ∧ _ ∧ t.fat.entry c ≠ 0
    rw [heff.fat]
    exact h.placed f hf hlt'
  · intro x hx
    refine (heff.keep x fun p ht hin => ?_).trans (h.keep x fun f hf hlt' => hx f hf (by omega))
    obtain ⟨j, hj, hj', hmoves, rfl⟩ := htargeted ht
    exact hx (b + j) hmoves (by omega) hin
  · intro f hf hlt' hclean r hr
    by_cases hbefore : f < b + first
    · -- written earlier, and no target of this group
      refine (heff.keep _ fun p ht hin => ?_).trans
        (h.data f hf hbefore (fun hmem => hclean (heff.failures_sub _ hmem)) r hr)
      obtain ⟨j, hj, hj', hmoves, rfl⟩ := htargeted ht
      have hself : ctx.newFs.InFragment (target f) (ctx.newFs.fragStart (target f) + r) :=
        ⟨by omega, by rw [hgrid.new_frag]; omega⟩
      have := h.inj f (b + j) hf hmoves (by omega) (by omega)
        (FatSpecific.fragment_disjoint hself hin)
      omega
    · obtain ⟨j, rfl⟩ := Nat.exists_eq_add_of_le (show b ≤ f by omega)
      have hj : j ≤ last := by
        by_contra hgt
        exact hp.rest j (by omega) (by omega) hf
      rw [← hdone hj hf] at hclean ⊢
      refine (heff.data j (by omega) hj ((h.map_iff j (by omega)).mpr hf) trivial hclean r
        hr).trans ?_
      exact h.buffer j (by omega) hf r hr
  · intro f hf hlt'
    change (if _ then _ else _) = _
    by_cases hbefore : f < b + first
    · rw [if_neg (by omega)]
      exact h.remap_moved f hf hbefore
    · obtain ⟨j, rfl⟩ := Nat.exists_eq_add_of_le (show b ≤ f by omega)
      have hj : j ≤ last := by
        by_contra hgt
        exact hp.rest j (by omega) (by omega) hf
      rw [hoffset, Nat.add_sub_cancel_left,
        if_pos ⟨by omega, by omega, (h.map_iff j (by omega)).mpr hf⟩, hdone hj hf]
  · intro f hnot
    change (if _ then _ else _) = _
    rw [if_neg]
    · exact h.remap_static f fun ⟨hf, hlt'⟩ => hnot ⟨hf, by omega⟩
    · rintro ⟨h1, h2, hne⟩
      rw [hoffset] at h1 h2 hne
      obtain ⟨j, rfl⟩ := Nat.exists_eq_add_of_le (show b ≤ f by omega)
      rw [Nat.add_sub_cancel_left] at hne
      exact hnot ⟨(h.map_iff j (by omega)).mp hne, by omega⟩
  · intro p hp'
    rcases heff.failures_new p hp' with hp' | ⟨ht, o, ho, hfail⟩
    · obtain ⟨⟨f, hf, hlt', heq⟩, hfail⟩ := h.failures p hp'
      exact ⟨⟨f, hf, by omega, heq⟩, hfail⟩
    · obtain ⟨j, hj, hj', hmoves, rfl⟩ := htargeted ht
      exact ⟨⟨b + j, hmoves, by omega, rfl⟩, o, h.suffix.subset ho, hfail⟩
  · exact heff.bufferOffset.trans hoffset
  · intro j hj
    change t.bufferMap j ≠ -1 ↔ _
    rw [heff.bufferMap]
    exact h.map_iff j hj
  · intro j hj hmoves
    change t.bufferMap j = _
    rw [heff.bufferMap]
    exact h.map_done j hj hmoves
  · intro j hj hmoves r hr
    change t.oldBuffer _ = _
    rw [heff.oldBuffer]
    exact h.buffer j hj hmoves r hr

/-! ## Collecting a group -/

theorem spec_onFat {α : Type} {E : Fault → Prop} {x : TableM α} {Q : α → Duplication β → Prop}
    (h : Spec E x s.fat fun a fat => Q a { s with fat }) : Spec E (onFat x) s Q := by
  unfold Spec at h
  unfold Spec onFat
  cases hx : x s.fat with
  | error e => simpa [hx] using h
  | ok r => simpa [hx] using h

/-- A fragment that does not move is passed over. -/
theorem Window.skip {b i w : ℕ} (h : Window ctx info s₀ target b i w s)
    (hstay : ¬ Moves ctx info (b + i)) : Window ctx info s₀ target b (i + 1) w s := by
  have hsame (f : ℕ) (hf : Moves ctx info f) : f < b + (i + 1) ↔ f < b + i := by
    constructor
    · intro hlt
      refine lt_of_le_of_ne (by omega) ?_
      rintro rfl
      exact hstay hf
    · omega
  refine ⟨h.toProgress.extend (le_trans h.le (by omega)) hsame fun _ _ => Iff.rfl, h.offset,
    h.map_iff, fun j hj hmoves => ?_, h.buffer⟩
  refine h.map_done j (lt_of_le_of_ne (by omega) ?_) hmoves
  rintro rfl
  exact hstay hmoves

/-- A cluster that was available and is marked now becomes the target of the next
fragment. -/
theorem Window.place {b i w c code : ℕ} {fat : FatTable} (fragsDuped : ℕ) (hgrid : ctx.Grid)
    (h : Window ctx info s₀ target b i w s) (hi : i < ctx.bufferFrags)
    (hmoves : Moves ctx info (b + i)) (hc : ctx.newFs.IsCluster c) (hzero : s.fat.entry c = 0)
    (hshape : s.fat.SameShape fat) (hcode : code ≠ 0)
    (hfat : fat.entry = Function.update s.fat.entry c code) :
    Window ctx info s₀ (Function.update target (b + i) (ctx.newFs.clusterFrag c))
      b (i + 1) w
      { s with
        fat, fragsDuped
        bufferMap := Function.update s.bufferMap i (ctx.newFs.clusterFrag c) } := by
  have hmark (d : ℕ) (hd : s.fat.entry d ≠ 0) : fat.entry d ≠ 0 := by
    rw [hfat, Function.update_apply]
    split_ifs
    · exact hcode
    · exact hd
  have hold {f : ℕ} (hlt : f < b + i) :
      Function.update target (b + i) (ctx.newFs.clusterFrag c) f = target f :=
    Function.update_of_ne hlt.ne _ _
  have hw := h.le
  -- the targets given out before are marked, this one was not
  have hfresh {f : ℕ} (hf : Moves ctx info f) (hlt : f < b + i) :
      target f ≠ ctx.newFs.clusterFrag c := by
    obtain ⟨d, -, heq, -, hd⟩ := h.placed f hf hlt
    intro hsame
    exact hd (hgrid.clusterFrag_inj (heq.symm.trans hsame) ▸ hzero)
  refine ⟨⟨by omega, h.shape.trans hshape, fun d hd => hmark d (h.marked d hd), fun f hf hlt => ?_,
    fun f g hf hg hlt hlt' heq => ?_, fun x hx => h.keep x fun f hf hlt => ?_,
    fun f hf hlt hclean r hr => ?_, fun f hf hlt => ?_, h.remap_static, h.suffix,
    fun p hp => ?_⟩, h.offset, fun j hj => ?_, fun j hj hmoves' => ?_, h.buffer⟩
  · obtain hlt | rfl : f < b + i ∨ f = b + i := by omega
    · obtain ⟨d, hd, heq, hzero', hd'⟩ := h.placed f hf hlt
      exact ⟨d, hd, (hold hlt).trans heq, hzero', hmark d hd'⟩
    · refine ⟨c, hc, Function.update_self .., ?_, ?_⟩
      · by_contra hne
        exact h.marked c hne hzero
      · simp [hfat, hcode]
  · obtain hlt | rfl : f < b + i ∨ f = b + i := by omega
    all_goals obtain hlt' | rfl : g < b + i ∨ g = b + i := by omega
    · rw [hold hlt, hold hlt'] at heq
      exact h.inj f g hf hg hlt hlt' heq
    · rw [hold hlt, Function.update_self] at heq
      exact absurd heq (hfresh hf hlt)
    · rw [hold hlt', Function.update_self] at heq
      exact absurd heq.symm (hfresh hg hlt')
    · rfl
  · have := hx f hf hlt
    rwa [hold (by omega)] at this
  · rw [hold (by omega)] at hclean ⊢
    exact h.data f hf hlt hclean r hr
  · rw [hold (by omega)]
    exact h.remap_moved f hf hlt
  · obtain ⟨⟨f, hf, hlt, heq⟩, hfail⟩ := h.failures p hp
    exact ⟨⟨f, hf, hlt, by rw [hold (by omega), heq]⟩, hfail⟩
  · dsimp only
    rw [← h.map_iff j hj, Function.update_apply]
    split_ifs with hji
    · have := (hgrid.clusterFrag_range hc).1
      exact ⟨fun _ => (h.map_iff j hj).mpr (hji ▸ hmoves), fun _ => by omega⟩
    · rfl
  · dsimp only
    rcases Nat.lt_succ_iff_lt_or_eq.mp hj with hj | rfl
    · rw [hold (by omega), Function.update_of_ne (by omega)]
      exact h.map_done j hj hmoves'
    · rw [Function.update_self, Function.update_self]

/-- The state of `write_fragments` in front of fragment `i` of the window. -/
def Collecting (ctx : FatOpContext) (info : ℕ → FatClusterInfo) (s₀ : Duplication β)
    (target : ℕ → ℤ) (b i : ℕ) : Option (ℕ × ℕ) → Duplication β → Prop
  | none, s => Window ctx info s₀ target b i b s ∧ ∀ j < i, ¬ Moves ctx info (b + j)
  | some (first, last), s => Window ctx info s₀ target b i (b + first) s ∧
      Pending ctx info target b i first last ∧ Tip ctx target b first last s.fat

theorem Collecting.window {b i : ℕ} {group : Option (ℕ × ℕ)}
    (h : Collecting ctx info s₀ target b i group s) :
    ∃ w, Window ctx info s₀ target b i w s := by
  cases group with
  | none => exact ⟨_, h.1⟩
  | some group => exact ⟨_, h.1⟩

theorem Collecting.skip {b i : ℕ} {group : Option (ℕ × ℕ)}
    (h : Collecting ctx info s₀ target b i group s) (hstay : ¬ Moves ctx info (b + i)) :
    Collecting ctx info s₀ target b (i + 1) group s := by
  cases group with
  | none =>
    refine ⟨h.1.skip hstay, fun j hj => ?_⟩
    rcases Nat.lt_succ_iff_lt_or_eq.mp hj with hj | rfl
    · exact h.2 j hj
    · exact hstay
  | some group =>
    obtain ⟨first, last⟩ := group
    obtain ⟨hwindow, hp, htip⟩ := h
    refine ⟨hwindow.skip hstay, { hp with lt := by have := hp.lt; omega, rest := ?_ }, htip⟩
    intro j hj hj'
    rcases Nat.lt_succ_iff_lt_or_eq.mp hj' with hj' | rfl
    · exact hp.rest j hj hj'
    · exact hstay

/-- A group of one fragment. -/
theorem Collecting.single {b i c : ℕ} (h : Window ctx info s₀ target b (i + 1) (b + i) s)
    (hgrid : ctx.Grid) (hmoves : Moves ctx info (b + i))
    (htarget : target (b + i) = ctx.newFs.clusterFrag c) (hlast : s.fat.lastAlloc = c)
    (hmarked : s.fat.entry c ≠ 0) :
    Collecting ctx info s₀ target b (i + 1) (some (i, i)) s := by
  refine ⟨h, ⟨le_rfl, by omega, hmoves, hmoves, fun j hj hj' => by omega,
    fun j k hj hjk hk => by omega⟩, by rw [htarget, hlast], fun d hd hd' => ?_⟩
  rw [htarget] at hd
  obtain rfl : d = c := by
    refine le_antisymm (hlast ▸ hd') ?_
    by_contra hlt
    exact absurd (hgrid.clusterFrag_lt_iff.mpr (not_le.mp hlt)) (not_lt.mpr hd)
  exact hmarked

/-- A group takes in a fragment: the allocator has moved upwards. -/
theorem Pending.snoc {b i first last c : ℕ} {fat : FatTable} (hgrid : ctx.Grid)
    (hp : Pending ctx info target b i first last) (htip : Tip ctx target b first last fat)
    (hmoves : Moves ctx info (b + i)) (hzero : fat.entry c = 0)
    (hge : target (b + first) ≤ ctx.newFs.clusterFrag c) :
    Pending ctx info (Function.update target (b + i) (ctx.newFs.clusterFrag c))
      b (i + 1) first i := by
  have hlt := hp.lt
  have hle := hp.le
  have hold {j : ℕ} (hj : j < i) :
      Function.update target (b + i) (ctx.newFs.clusterFrag c) (b + j) = target (b + j) :=
    Function.update_of_ne (by omega) _ _
  have habove : target (b + last) < ctx.newFs.clusterFrag c := by
    rw [htip.last, hgrid.clusterFrag_lt_iff]
    by_contra hnot
    exact htip.filled c hge (not_lt.mp hnot) hzero
  refine ⟨by omega, by omega, hp.first_moves, hmoves, fun j hj hj' => by omega,
    fun j k hj hjk hk hmj hmk => ?_⟩
  rw [hold (by omega)]
  rcases hk.eq_or_lt with rfl | hk
  · rw [Function.update_self]
    -- the moving fragments of the group end with the last one
    have hj' : j ≤ last := by
      by_contra hgt
      exact hp.rest j (by omega) hjk hmj
    rcases hj'.eq_or_lt with rfl | hj'
    · exact habove
    · exact (hp.increasing j last hj hj' le_rfl hmj hp.last_moves).trans habove
  · rw [hold hk]
    have hk' : k ≤ last := by
      by_contra hgt
      exact hp.rest k (by omega) hk hmk
    exact hp.increasing j k hj hjk hk' hmj hmk

theorem Tip.snoc {b i first last c code : ℕ} {fat fat' : FatTable} (hfirst : first < i) (htip : Tip ctx target b first last fat)
    (hskip : ∀ d, fat.lastAlloc < d → d < c → fat.entry d ≠ 0) (hcode : code ≠ 0)
    (hfat : fat'.entry = Function.update fat.entry c code) (hlast : fat'.lastAlloc = c) :
    Tip ctx (Function.update target (b + i) (ctx.newFs.clusterFrag c)) b first i fat' := by
  refine ⟨by rw [Function.update_self, hlast], fun d hd hd' => ?_⟩
  rw [Function.update_of_ne (by omega)] at hd
  rw [hfat, Function.update_apply]
  split_ifs with hdc
  · exact hcode
  · rcases Nat.lt_or_ge fat.lastAlloc d with hlt | hge
    · exact hskip d hlt (by omega)
    · exact htip.filled d hd hge

/-- **The loop of `write_fragments`.** -/
theorem writeLoop_spec (hgrid : ctx.Grid) (hignore : s₀.Ignoring) {b i count : ℕ} {group : Option (ℕ × ℕ)}
    (hcount : i + count = ctx.bufferFrags)
    (h : Collecting ctx info s₀ target b i group s) :
    Spec (fun _ => True) (writeLoop ctx (List.range' i count) group) s fun result s' =>
      ∀ group', result = some group' →
        ∃ target, Collecting ctx info s₀ target b ctx.bufferFrags group' s' := by
  induction count generalizing i group target s with
  | zero =>
    obtain rfl : i = ctx.bufferFrags := by omega
    refine spec_pure.mpr fun group' hg => ⟨target, ?_⟩
    obtain rfl : group = group' := by simpa using hg
    exact h
  | succ count ih =>
    rw [List.range'_succ, writeLoop]
    obtain ⟨w, hwindow⟩ := h.window
    have hiff := hwindow.map_iff i (by omega)
    refine spec_bind.mpr (spec_get.mpr (Spec.ite (fun hnone => ?_) fun hsome => ?_))
    · exact ih (by omega) (h.skip fun hmoves => hiff.mpr hmoves hnone)
    · have hmoves := hiff.mp hsome
      refine spec_bind.mpr (spec_modify.mpr (spec_bind.mpr (spec_onFat ?_)))
      refine (fatTableAllocCluster_spec _).imp fun c fat₁ ⟨hshape, hentry, halloc⟩ => ?_
      refine Spec.ite (fun _ => spec_pure.mpr (by simp)) fun hc0 => ?_
      obtain ⟨hzero, hlt, hlast, hskip⟩ := halloc hc0
      refine spec_bind.mpr (spec_onFat ((fatTableSetEof_spec fat₁ c).imp ?_))
      intro ok fat₂ ⟨_, hok, hmark, _⟩
      have hmark := hmark (hok.mpr (by rw [hshape.clusterCount]; omega))
      have hfat₂ : fat₂.entry = Function.update s.fat.entry c (eofCode fat₁.fatType) := by
        rw [hmark.entry, hentry]
      have hlast₂ : fat₂.lastAlloc = c := hmark.lastAlloc.trans hlast
      refine spec_bind.mpr (Spec.lift (fun _ _ => trivial) fun newFrag hfrag => ?_)
      obtain ⟨hcluster, rfl⟩ := hgrid.fatClusterToFrag_eq hfrag
      refine spec_bind.mpr (spec_modify.mpr ?_)
      -- the window behind the allocation, wherever its group begins
      have hplace {w : ℕ} (hw : Window ctx info s₀ target b i w s) :=
        hw.place (s.fragsDuped + 1) hgrid (by omega) hmoves hcluster hzero
          (hshape.trans hmark.shape) hmark.marked hfat₂
      have hmarked : fat₂.entry c ≠ 0 := by simp [hfat₂, hmark.marked]
      cases group with
      | none =>
        refine spec_bind.mpr (spec_get.mpr (spec_bind.mpr (Spec.lift (fun _ _ => trivial) ?_)))
        intro _ _
        have hstay (f : ℕ) (hf : Moves ctx info f) : f < b + i ↔ f < b := by
          refine ⟨fun hlt => ?_, fun hlt => by omega⟩
          by_contra hge
          obtain ⟨j, rfl⟩ := Nat.exists_eq_add_of_le (show b ≤ f by omega)
          exact h.2 j (by omega) hf
        refine Spec.ite (fun _ => ?_) fun hlong => ?_
        · exact ih (by omega) (Collecting.single ((hplace h.1).extend (by omega) hstay) hgrid hmoves
            (Function.update_self ..) hlast₂ hmarked)
        · simp at hlong
          omega
      | some group =>
        obtain ⟨first, last⟩ := group
        obtain ⟨hwindow, hp, htip⟩ := h
        have hlt' := hp.lt
        have hle := hp.le
        have hstart : Function.update s.bufferMap i (ctx.newFs.clusterFrag c) first
            = target (b + first) := by
          rw [Function.update_of_ne (by omega)]
          exact hwindow.map_done first (by omega) hp.first_moves
        refine spec_bind.mpr (spec_get.mpr (spec_bind.mpr (Spec.lift (fun _ _ => trivial) ?_)))
        intro _ hassert
        have hge : target (b + first) ≤ ctx.newFs.clusterFrag c := by
          by_contra hnot
          rw [← hstart] at hnot
          simp [pedAssert, hnot] at hassert
        refine Spec.ite (fun _ => ?_) fun _ => ?_
        · exact ih (by omega) ⟨hplace hwindow, hp.snoc hgrid htip hmoves hzero hge,
            htip.snoc (by omega) hskip hmark.marked hfat₂ hlast₂⟩
        · have hp' : Pending ctx info (Function.update target (b + i) (ctx.newFs.clusterFrag c))
              b i first last := by
            refine { hp with increasing := fun j k hj hjk hk hmj hmk => ?_ }
            rw [Function.update_of_ne (by omega), Function.update_of_ne (by omega)]
            exact hp.increasing j k hj hjk hk hmj hmk
          refine ((hplace hwindow).groupWrite_spec hgrid hignore hp' (by omega) (by omega)).seq
            fun ok s' hs => ?_
          cases ok with
          | false => exact spec_pure.mpr (by simp)
          | true =>
            obtain ⟨hwindow', hfat'⟩ := hs rfl
            exact ih (by omega) (Collecting.single hwindow' hgrid hmoves (Function.update_self ..)
              (by rw [hfat']; exact hlast₂) (by rw [hfat']; exact hmarked))

/-- **`write_fragments`** takes the moving fragments of a window to their targets. -/
theorem writeFragments_spec (hgrid : ctx.Grid) (hignore : s₀.Ignoring) {b : ℕ}
    (h : Window ctx info s₀ target b 0 b s) :
    Spec (fun _ => True) (writeFragments ctx) s fun ok s' => ok = true →
      ∃ target, Progress ctx info s₀ target (b + ctx.bufferFrags) (b + ctx.bufferFrags) s' ∧
        s'.bufferOffset = b := by
  unfold writeFragments
  refine spec_bind.mpr (spec_get.mpr (spec_bind.mpr (Spec.lift (fun _ _ => trivial) ?_)))
  intro _ _
  have hstart : Collecting ctx info s₀ target b 0 none s := ⟨h, fun j hj => by omega⟩
  refine (writeLoop_spec hgrid hignore (by omega) hstart).seq fun result s' hs => ?_
  cases result with
  | none => exact spec_pure.mpr (by simp)
  | some group =>
    cases group with
    | none => exact spec_throw.mpr trivial
    | some group =>
      obtain ⟨first, last⟩ := group
      obtain ⟨target, hwindow, hp, -⟩ := hs _ rfl
      refine (hwindow.groupWrite_spec hgrid hignore hp le_rfl le_rfl).imp fun ok s'' h' hok => ?_
      exact ⟨target, (h' hok).1.toProgress, (h' hok).1.offset⟩

end Run

end Libparted.Fat
