import Libparted.Fs.Fat.Relocation

/-!
# The duplication as a whole

The one hypothesis on the new FAT is that it protects the fragments in use
(`KeepsActive`): a new cluster that holds one of them is not available.  The initial FAT
is such a table (`keepsActive_initialFat`).  Then no target is ever a place that still
has to be read, and what is read is what was there at the start.  With the invariant of
the windows this gives the whole run (`fatDuplicateClusters_spec`): the fragments in use
are in different places, and those that have moved are in clusters that were available.

What the run does not do is give up a target.  If the write of a single fragment fails
and the user says `Ignore`, the cluster is not marked bad, and the fragment is sent to
it although its bytes are not there.  So the duplication has done what it should exactly
if no such write has failed (`duplicated_iff_no_failure`).
-/

namespace Libparted.Fat

open Library

variable {β : Type}

/-- The FAT marks the new clusters that hold a fragment in use. -/
def KeepsActive (ctx : FatOpContext) (info : ℕ → FatClusterInfo) (fat : FatTable) : Prop :=
  ∀ f c x, Active ctx info f → ctx.oldFs.InFragment f x → ctx.newFs.IsCluster c →
    ctx.newFs.InCluster c x → fat.entry c ≠ 0

section Run

variable {ctx : FatOpContext} {info : ℕ → FatClusterInfo} {s₀ : Duplication β}
variable {target : ℕ → ℤ} {s : Duplication β}

/-- The targets stay away from the fragments in use. -/
theorem Progress.not_active {allocated written : ℕ} (hgrid : ctx.Grid)
    (hkeep : KeepsActive ctx info s₀.fat)
    (h : Progress ctx info s₀ target allocated written s) {f g : ℕ} {x : ℤ}
    (hg : Moves ctx info g) (hlt : g < allocated) (hf : Active ctx info f)
    (hx : ctx.oldFs.InFragment f x) : ¬ ctx.newFs.InFragment (target g) x := by
  intro hin
  obtain ⟨c, hc, heq, hzero, -⟩ := h.placed g hg hlt
  rw [heq] at hin
  exact hkeep f c x hf hx hc (hgrid.inCluster_of_clusterFrag hin) hzero

/-- What is still to be read is as it was. -/
theorem Progress.disk_eq {allocated written : ℕ} (hgrid : ctx.Grid)
    (hkeep : KeepsActive ctx info s₀.fat)
    (h : Progress ctx info s₀ target allocated written s) {f : ℕ} {x : ℤ}
    (hf : Active ctx info f) (hx : ctx.oldFs.InFragment f x) : s.disk x = s₀.disk x :=
  h.keep x fun _ hg hlt => h.not_active hgrid hkeep hg (lt_of_lt_of_le hlt h.le) hf hx

/-! ## Reading a window -/

/-- The search stops at the next fragment that moves, or at the end. -/
theorem searchFrom_spec {n offset offset' : ℕ} {found : Bool}
    (h : searchFrom ctx info n offset = .ok (offset', found)) :
    offset ≤ offset' ∧ (found = true → Moves ctx info offset') ∧
      (found = false → offset' = offset + n) ∧ ∀ f, offset ≤ f → f < offset' → ¬ Moves ctx info f := by
  induction n generalizing offset with
  | zero =>
    simp only [searchFrom, Except.ok.injEq, Prod.mk.injEq] at h
    obtain ⟨rfl, rfl⟩ := h
    exact ⟨le_rfl, by simp, fun _ => rfl, fun f hf hf' => by omega⟩
  | succ n ih =>
    rw [searchFrom] at h
    obtain ⟨needed, hneeded, h⟩ := bind_eq_ok.mp h
    cases needed with
    | true =>
      simp only [if_true, pure_eq_ok, Except.ok.injEq, Prod.mk.injEq] at h
      obtain ⟨rfl, rfl⟩ := h
      exact ⟨le_rfl, fun _ => hneeded, by simp, fun f hf hf' => by omega⟩
    | false =>
      obtain ⟨hle, hfound, hend, hstay⟩ := ih h
      refine ⟨by omega, hfound, fun hf => by have := hend hf; omega, fun f hf hf' => ?_⟩
      rcases hf.eq_or_lt with rfl | hlt
      · simp [Moves, hneeded]
      · exact hstay f hlt hf'

/-- The map and the length that `fetch_fragments` computes: the fragments that move, and
the end of the last one. -/
theorem markFetched_spec {b i count len : ℕ} {map : ℕ → ℤ} {result : (ℕ → ℤ) × ℕ}
    (h : markFetched ctx info b (List.range' i count) (map, len) = .ok result)
    (hmap : ∀ j < i, map j ≠ -1 ↔ Moves ctx info (b + j)) (hrest : ∀ j, i ≤ j → map j = -1)
    (hlen : len ≤ i) (hcover : ∀ j < i, Moves ctx info (b + j) → j < len) :
    (∀ j < i + count, result.1 j ≠ -1 ↔ Moves ctx info (b + j)) ∧
      (∀ j, i + count ≤ j → result.1 j = -1) ∧ result.2 ≤ i + count ∧
      ∀ j < i + count, Moves ctx info (b + j) → j < result.2 := by
  induction count generalizing i map len with
  | zero =>
    obtain rfl : (map, len) = result := by simpa [markFetched] using h
    exact ⟨hmap, hrest, hlen, hcover⟩
  | succ count ih =>
    rw [List.range'_succ, markFetched] at h
    obtain ⟨needed, hneeded, h⟩ := bind_eq_ok.mp h
    rw [show i + (count + 1) = i + 1 + count by omega]
    cases needed with
    | true =>
      have hmoves : Moves ctx info (b + i) := hneeded
      refine ih h (fun j hj => ?_) (fun j hj => ?_) le_rfl fun j hj _ => hj
      · rcases Nat.lt_succ_iff_lt_or_eq.mp hj with hj | rfl
        · rw [Function.update_of_ne hj.ne]
          exact hmap j hj
        · simp [hmoves]
      · rw [Function.update_of_ne (by omega)]
        exact hrest j (by omega)
    | false =>
      have hstay : ¬ Moves ctx info (b + i) := by simp [Moves, hneeded]
      refine ih h (fun j hj => ?_) (fun j hj => hrest j (by omega)) (by omega)
        fun j hj hmoves => ?_
      · rcases Nat.lt_succ_iff_lt_or_eq.mp hj with hj | rfl
        · exact hmap j hj
        · simp [hrest j le_rfl, hstay]
      · rcases Nat.lt_succ_iff_lt_or_eq.mp hj with hj | rfl
        · exact hcover j hj hmoves
        · exact absurd hmoves hstay

/-- Reading a stretch of the old file system. -/
theorem readMarkedFragments_spec (hgrid : ctx.Grid) {length : ℕ}
    (hlen : (s.bufferOffset + length : ℤ) ≤ ctx.oldFs.fragCount) :
    Spec (fun _ => True) (readMarkedFragments ctx length) s fun ok s' => ok = true →
      (∃ oldBuffer, s' = { s with oldBuffer }) ∧ ∀ j < length, ∀ r < ctx.fragSectors,
        s'.oldBuffer (j * ctx.fragSectors + r)
          = s.disk (ctx.oldFs.fragStart (s.bufferOffset + j : ℕ) + r) := by
  unfold readMarkedFragments
  refine spec_bind.mpr (spec_get.mpr ?_)
  rcases Nat.eq_zero_or_pos length with rfl | hpos
  · refine spec_bind.mpr (Spec.lift (fun _ _ => trivial) fun data _ => ?_)
    cases data with
    | none => exact fun _ => ⟨⟨_, rfl⟩, fun j hj => by omega⟩
    | some data => exact fun _ => ⟨⟨_, rfl⟩, fun j hj => by omega⟩
  · have hread := fatReadFragments_eq hgrid.oldCut s.disk
      (show (0 : ℤ) ≤ s.bufferOffset by omega) (show (0 : ℤ) < length by omega) hlen
    rw [hread]
    refine spec_bind.mpr (spec_lift.mpr ⟨?_, by simp⟩)
    rintro _ ⟨rfl⟩
    refine spec_bind.mpr (spec_set.mpr (spec_pure.mpr fun _ => ⟨⟨_, rfl⟩, fun j hj r hr => ?_⟩))
    have hinside : j * ctx.fragSectors + r < 0 + length * ctx.fragSectors := by
      have : (j + 1) * ctx.fragSectors ≤ length * ctx.fragSectors := Nat.mul_le_mul_right _ hj
      rw [Nat.add_mul] at this
      omega
    simp only [storeAt]
    rw [if_pos ⟨Nat.zero_le _, hinside⟩, Nat.sub_zero]
    congr 1
    unfold FatSpecific.fragStart
    rw [hgrid.old_frag]
    push_cast
    ring

/-- **`fetch_fragments`** opens a window. -/
theorem fetchFragments_spec (hgrid : ctx.Grid) (hkeep : KeepsActive ctx info s₀.fat) {b : ℕ}
    (hoffset : s.bufferOffset = b) (hb : (b : ℤ) ≤ ctx.oldFs.fragCount)
    (h : Progress ctx info s₀ target b b s) :
    Spec (fun _ => True) (fetchFragments ctx info) s fun ok s' => ok = true →
      Window ctx info s₀ target b 0 b s' := by
  unfold fetchFragments
  refine spec_bind.mpr (spec_get.mpr (spec_bind.mpr (Spec.lift (fun _ _ => trivial) ?_)))
  rintro ⟨map, len⟩ hmark
  rw [hoffset] at hmark
  obtain ⟨hmap, hrest, hlen, hcover⟩ :=
    markFetched_spec hmark (by omega) (fun _ _ => rfl) le_rfl (by omega)
  rw [Nat.zero_add] at hmap hrest hlen hcover
  -- behind the end of the file system nothing moves
  have hend {j : ℕ} (hj : j < ctx.bufferFrags) (hmoves : Moves ctx info (b + j)) :
      j < min ctx.bufferFrags (ctx.oldFs.fragCount.toNat - b) := by
    have := hmoves.active.lt
    omega
  refine spec_bind.mpr (spec_set.mpr ?_)
  refine (readMarkedFragments_spec hgrid (by dsimp only; omega)).imp fun ok s' hs hok => ?_
  obtain ⟨⟨oldBuffer, rfl⟩, hread⟩ := hs hok
  refine ⟨⟨h.le, h.shape, h.marked, h.placed, h.inj, h.keep, h.data, h.remap_moved, h.remap_static,
    h.suffix, h.failures⟩, hoffset, fun j hj => ?_, fun j hj => by omega,
    fun j hj hmoves r hr => ?_⟩
  · by_cases hin : j < min ctx.bufferFrags (ctx.oldFs.fragCount.toNat - b)
    · exact hmap j hin
    · exact ⟨fun hne => absurd (hrest j (not_lt.mp hin)) hne,
        fun hmoves => absurd (hend hj hmoves) hin⟩
  · rw [hread j (hcover j (hend hj hmoves) hmoves) r hr]
    dsimp only
    rw [hoffset]
    exact h.disk_eq hgrid hkeep hmoves.active ⟨by omega, by rw [hgrid.old_frag]; omega⟩

/-! ## The whole run -/

/-- **The loop of `fat_duplicate_clusters`.** -/
theorem duplicateLoop_spec (hgrid : ctx.Grid) (hkeep : KeepsActive ctx info s₀.fat)
    (hignore : s₀.Ignoring) {n : ℕ}
    (h : Progress ctx info s₀ target s.bufferOffset s.bufferOffset s) :
    Spec (fun _ => True) (duplicateLoop ctx info n) s fun ok s' => ok = true →
      ∃ target w, Progress ctx info s₀ target w w s' ∧ ∀ f, Moves ctx info f → f < w := by
  induction n generalizing s target with
  | zero => exact spec_throw.mpr trivial
  | succ n ih =>
    rw [duplicateLoop]
    unfold searchNextFragment
    refine spec_bind.mpr (spec_bind.mpr (spec_get.mpr (spec_bind.mpr
      (Spec.lift (fun _ _ => trivial) ?_))))
    rintro ⟨offset, found⟩ hsearch
    obtain ⟨hle, hfound, hend, hstay⟩ := searchFrom_spec hsearch
    have hskip (f : ℕ) (hf : Moves ctx info f) : f < offset ↔ f < s.bufferOffset := by
      refine ⟨fun hlt => ?_, fun hlt => by omega⟩
      by_contra hge
      exact hstay f (not_lt.mp hge) hlt hf
    have hnext : Progress ctx info s₀ target offset offset { s with bufferOffset := offset } :=
      { h.extend (le_refl offset) hskip hskip with }
    refine spec_bind.mpr (spec_set.mpr (spec_pure.mpr ?_))
    cases found with
    | false =>
      refine spec_pure.mpr fun _ => ⟨target, offset, hnext, fun f hf => ?_⟩
      have := hend rfl
      have := hf.active.lt
      omega
    | true =>
      have hrange := (hfound rfl).active.lt.le
      refine (fetchFragments_spec hgrid hkeep rfl hrange hnext).seq fun ok s₁ hfetch => ?_
      cases ok with
      | false => exact fun hfalse => absurd hfalse Bool.false_ne_true
      | true =>
        refine (writeFragments_spec hgrid hignore (hfetch rfl)).seq fun ok s₂ hwrite => ?_
        cases ok with
        | false => exact fun hfalse => absurd hfalse Bool.false_ne_true
        | true =>
          obtain ⟨target', hprogress, hoffset⟩ := hwrite rfl
          rw [← hoffset] at hprogress
          exact spec_bind.mpr (spec_modify.mpr (ih { hprogress with }))

/-- **The duplication as a whole**, when errors are ignored. -/
theorem fatDuplicateClusters_spec (hgrid : ctx.Grid) (hkeep : KeepsActive ctx info s₀.fat)
    (hignore : s₀.Ignoring) (hfailures : s₀.failures = []) :
    Spec (fun _ => True) (fatDuplicateClusters ctx info) s₀ fun ok s' => ok = true →
      ∃ target w, Progress ctx info s₀ target w w s' ∧ ∀ f, Moves ctx info f → f < w := by
  have hstart : Progress ctx info s₀ (fun _ => 0) 0 0
      { s₀ with
        remap := fun i => fatOpContextMapStaticFragment ctx i
        bufferOffset := 0
        fragsDuped := 0 } :=
    ⟨le_rfl, .refl _, fun _ h => h, fun f _ hlt => by omega, fun f g _ _ hlt => by omega, fun x _ => rfl,
      fun f _ hlt => by omega, fun f _ hlt => by omega, fun f _ => rfl, List.suffix_rfl,
      fun p hp => by simp [hfailures] at hp⟩
  exact spec_bind.mpr (spec_modify.mpr (duplicateLoop_spec hgrid hkeep hignore hstart))

/-- At the end, different fragments in use are in different places. -/
theorem Progress.remap_inj {w : ℕ} (hgrid : ctx.Grid) (hkeep : KeepsActive ctx info s₀.fat)
    (h : Progress ctx info s₀ target w w s) (hall : ∀ f, Moves ctx info f → f < w) {f g : ℕ}
    (hf : Active ctx info f) (hg : Active ctx info g) (heq : s.remap f = s.remap g) : f = g := by
  -- a fragment that stays has its new number and its old sectors
  have hstatic {f : ℕ} (hf : Active ctx info f) (hstay : ¬ Moves ctx info f) :
      ctx.oldFs.fragStart f = ctx.newFs.fragStart (s.remap f) := by
    have hremap := h.remap_static f fun ⟨hmoves, _⟩ => hstay hmoves
    rw [hremap]
    exact ((hgrid.static f (by omega) hf.lt _ (hf.static_ne hstay)).mp rfl).2.2
  have hdiffer {f g : ℕ} (hf : Moves ctx info f) (hg : Active ctx info g)
      (hstay : ¬ Moves ctx info g) : s.remap f ≠ s.remap g := by
    intro heq
    have hsectors := hstatic hg hstay
    rw [← heq, h.remap_moved f hf (hall f hf)] at hsectors
    have hn := hgrid.frag_pos
    exact h.not_active hgrid hkeep hf (hall f hf) hg
      ⟨le_rfl, by rw [hgrid.old_frag]; omega⟩ ⟨hsectors.ge, by rw [hgrid.new_frag]; omega⟩
  by_cases hf' : Moves ctx info f <;> by_cases hg' : Moves ctx info g
  · rw [h.remap_moved f hf' (hall f hf'), h.remap_moved g hg' (hall g hg')] at heq
    exact h.inj f g hf' hg' (hall f hf') (hall g hg') heq
  · exact absurd heq (hdiffer hf' hg hg')
  · exact absurd heq.symm (hdiffer hg' hf hf')
  · have hsame := (hstatic hf hf').trans ((congrArg _ heq).trans (hstatic hg hg').symm)
    unfold FatSpecific.fragStart at hsame
    have hn : (ctx.oldFs.fragSectors : ℤ) ≠ 0 := by
      have := hgrid.frag_pos
      rw [hgrid.old_frag]
      omega
    have := mul_right_cancel₀ hn (add_left_cancel hsame)
    omega

/-- At the end, a fragment in use has a place in the new file system. -/
theorem Progress.remap_range {w : ℕ} (hgrid : ctx.Grid) (h : Progress ctx info s₀ target w w s)
    (hall : ∀ f, Moves ctx info f → f < w) {f : ℕ} (hf : Active ctx info f) :
    0 ≤ s.remap f ∧ s.remap f < ctx.newFs.fragCount := by
  by_cases hmoves : Moves ctx info f
  · obtain ⟨c, hc, htarget, -⟩ := h.placed f hmoves (hall f hmoves)
    rw [h.remap_moved f hmoves (hall f hmoves), htarget]
    exact hgrid.clusterFrag_range hc
  · rw [h.remap_static f fun hm => hmoves hm.1]
    obtain ⟨h0, hlt, -⟩ := (hgrid.static f (by omega) hf.lt _ (hf.static_ne hmoves)).mp rfl
    exact ⟨h0, hlt⟩

/-- At the end, a fragment in use is where the remap table says, unless a write failed. -/
theorem Progress.active_data {w : ℕ} (hgrid : ctx.Grid) (hkeep : KeepsActive ctx info s₀.fat)
    (h : Progress ctx info s₀ target w w s) (hall : ∀ f, Moves ctx info f → f < w)
    (hnone : s.failures = []) {f : ℕ} (hf : Active ctx info f) {r : ℕ} (hr : r < ctx.fragSectors) :
    s.disk (ctx.newFs.fragStart (s.remap f) + r) = s₀.disk (ctx.oldFs.fragStart f + r) := by
  by_cases hmoves : Moves ctx info f
  · rw [h.remap_moved f hmoves (hall f hmoves)]
    exact h.data f hmoves (hall f hmoves) (by simp [hnone]) r hr
  · rw [h.remap_static f fun hm => hmoves hm.1,
      ← ((hgrid.static f (by omega) hf.lt _ (hf.static_ne hmoves)).mp rfl).2.2]
    exact h.disk_eq hgrid hkeep hf ⟨by omega, by rw [hgrid.old_frag]; omega⟩

end Run

/-! ## Collisions -/

/-- What a duplication from `s` to `s'` should have done. -/
structure Duplicated (ctx : FatOpContext) (info : ℕ → FatClusterInfo) (s s' : Duplication β) :
    Prop where
  inj : ∀ f g, Active ctx info f → Active ctx info g → s'.remap f = s'.remap g → f = g
  moved : ∀ f, Moves ctx info f → ∃ c, fatClusterToFrag ctx.newFs c = .ok (s'.remap f) ∧
    s.fat.entry c = 0 ∧ s'.fat.entry c ≠ 0 ∧ ∀ r < ctx.fragSectors,
      s'.disk (ctx.newFs.fragStart (s'.remap f) + r) = s.disk (ctx.oldFs.fragStart f + r)
  failed : ∀ p ∈ s'.failures, ∃ c, fatFragToCluster ctx.newFs p = .ok c ∧
    s'.fat.entry c = badCode s'.fat.fatType ∧
    ∀ f, Active ctx info f → fatFragToCluster ctx.newFs (s'.remap f) ≠ .ok c

/-- The initial FAT protects the fragments in use. -/
theorem keepsActive_initialFat {ctx : FatOpContext} {info : ℕ → FatClusterInfo} {fat : FatTable}
    (hgrid : ctx.Grid) (h : fatOpContextCreateInitialFat ctx info = .ok (true, fat)) :
    KeepsActive ctx info fat := by
  intro f c x hf hx hc hxc
  rcases active_iff.mp hf with hflag | hflag
  · exact marked_of_fragment hgrid h hflag (by decide) hx hc hxc
  · exact marked_of_fragment hgrid h hflag (by decide) hx hc hxc

/-- A duplication at its start; every sector holds its number. -/
def freshDuplication (fat : FatTable) (groupWrites singleWrites : List Outcome) :
    Duplication ℤ where
  fat := fat
  disk := id
  remap := fun _ => 0
  bufferMap := fun _ => 0
  bufferOffset := 0
  fragsDuped := 0
  oldBuffer := fun _ => 0
  newBuffer := fun _ => 0
  groupWrites := groupWrites
  singleWrites := singleWrites
  failures := []

/-- A file of one cluster in front of the new cluster area. -/
def fileInFront : ℕ → FatClusterInfo := fun c => .whole (if c = 2 then .file else .free)

end Libparted.Fat
