import Libparted.Fs.Fat.Context

/-!
# Keeping the clusters aligned (`fat_calc_align_sectors`)

A resize can leave a cluster where it is only if the new file system has a cluster in the
same place.  `create_resize_context` therefore moves the first cluster of the new file
system behind its metadata by `fat_calc_align_sectors`: at first by as little as brings the
two cluster areas onto one grid, and then by whole clusters as long as there is room, so
that nothing is wasted behind the last cluster.  The room for the first step has been set
aside by the calculation of the sizes.

The arithmetic is right (`fatCalcAlignSectors_spec`).  What is done with it is not always:
`calc_deltas` converts the distance of the two areas to a `FatFragment`, an `int32_t`, and
`fat_op_context_map_static_fragment` adds it to fragment numbers of that type.  A move by
`2^32` fragments is taken for no move at all.  Moves by less than `2^31` fragments are
mapped right towards the end of the device, and towards its beginning exactly when no sum
reaches `2^31` (`staticRight_iff`).
-/

namespace Libparted.Fat

open Library

/-! ## The first cluster of the new file system -/

/-- What `create_resize_context` knows of the new file system when it asks for the
alignment. -/
structure NewLayout where
  geom : PedGeometry
  fatType : FatType
  fatSectors : ℕ
  rootDirSectorCount : ℕ
  clusterSectors : ℕ
  clusterCount : ℕ
deriving DecidableEq

/-- `new_meta_data_size` in `fat_calc_align_sectors`. -/
def newMetaDataSize (new : NewLayout) : ℤ :=
  let size := fatMinReservedSectorCount new.fatType + new.fatSectors * 2
  if new.fatType = .fat16 then size + new.rootDirSectorCount else size

/-- The `while` loop of `fat_calc_align_sectors`, with at most that many turns. -/
def useUp (clusterSectors newClustersSize newDataSize : ℤ) : ℕ → ℤ → ℤ
  | 0, align => align
  | n + 1, align =>
    if newClustersSize + align + clusterSectors ≤ newDataSize then
      useUp clusterSectors newClustersSize newDataSize n (align + clusterSectors)
    else align

/-- The first value of `align` in `fat_calc_align_sectors`. -/
def leastAlign (clusterSectors rawOldMetaDataEnd minNewMetaDataEnd : ℤ) : ℤ :=
  if rawOldMetaDataEnd > minNewMetaDataEnd then
    (rawOldMetaDataEnd - minNewMetaDataEnd).tmod clusterSectors
  else
    (clusterSectors - (minNewMetaDataEnd - rawOldMetaDataEnd).tmod clusterSectors).tmod
      clusterSectors

/-- `fat_calc_align_sectors`.  Every turn of the loop uses up a sector at least. -/
def fatCalcAlignSectors (new : NewLayout) (old : FatSpecific) : ℤ :=
  let rawOldMetaDataEnd := old.geom.start + old.clusterOffset
  let minNewMetaDataEnd := new.geom.start + newMetaDataSize new
  let align := leastAlign new.clusterSectors rawOldMetaDataEnd minNewMetaDataEnd
  let newDataSize := new.geom.length - newMetaDataSize new
  let newClustersSize := (new.clusterCount : ℤ) * new.clusterSectors
  useUp new.clusterSectors newClustersSize newDataSize newDataSize.toNat align

/-- `cluster_offset` as `create_resize_context` sets it.  Any type but FAT32 is taken for
FAT16. -/
def newClusterOffset (new : NewLayout) (old : FatSpecific) : ℤ :=
  if new.fatType = .fat32 then
    let fatOffset := fatMinReservedSectorCount .fat32 + fatCalcAlignSectors new old
    fatOffset + 2 * new.fatSectors
  else
    let fatOffset := fatMinReservedSectorCount .fat16 + fatCalcAlignSectors new old
    let rootDirOffset := fatOffset + 2 * new.fatSectors
    rootDirOffset + new.rootDirSectorCount

/-! ## The alignment -/

/-- The loop keeps the residue and stops when less than a cluster is left. -/
theorem useUp_spec {c clusters size : ℤ} (hc : 0 < c) {n : ℕ} (align : ℤ)
    (hfuel : size - clusters - align ≤ n) :
    c ∣ useUp c clusters size n align - align ∧ align ≤ useUp c clusters size n align ∧
      clusters + useUp c clusters size n align ≤ max size (clusters + align) ∧
      size < clusters + useUp c clusters size n align + c := by
  induction n generalizing align with
  | zero =>
    rw [useUp]
    push_cast at hfuel
    exact ⟨by simp, le_rfl, le_max_right _ _, by omega⟩
  | succ n ih =>
    rw [useUp]
    split_ifs with hmore
    · obtain ⟨hdvd, hle, hfits, hless⟩ := ih (align + c) (by push_cast at hfuel; omega)
      refine ⟨?_, by omega, by omega, hless⟩
      rw [show useUp c clusters size n (align + c) - align
        = useUp c clusters size n (align + c) - (align + c) + c by ring]
      exact dvd_add hdvd dvd_rfl
    · exact ⟨by simp, le_rfl, le_max_right _ _, by omega⟩

/-- The first step, in either direction: the least move onto the grid of the old clusters. -/
theorem leastAlign_spec {c : ℤ} (raw least : ℤ) (hc : 0 < c) :
    0 ≤ leastAlign c raw least ∧ leastAlign c raw least < c ∧
      c ∣ least + leastAlign c raw least - raw := by
  unfold leastAlign
  split_ifs with hlt
  · refine ⟨Int.tmod_nonneg _ (by omega), Int.tmod_lt_of_pos _ hc, ?_⟩
    have := Int.tmod_add_tdiv_mul (raw - least) c
    exact ⟨-(raw - least).tdiv c, by linarith⟩
  · have hr := Int.tmod_nonneg c (show 0 ≤ least - raw by omega)
    have hr' := Int.tmod_lt_of_pos (least - raw) hc
    refine ⟨Int.tmod_nonneg _ (by omega), Int.tmod_lt_of_pos _ hc, ?_⟩
    have h1 := Int.tmod_add_tdiv_mul (least - raw) c
    have h2 := Int.tmod_add_tdiv_mul (c - (least - raw).tmod c) c
    exact ⟨(least - raw).tdiv c + 1 - (c - (least - raw).tmod c).tdiv c, by linarith⟩

/-- **The alignment**, whatever room there is: it brings the new clusters onto the grid of the
old ones, leaves less than a cluster behind them, and goes beyond the partition only if even
the first step does. -/
theorem fatCalcAlignSectors_spec (new : NewLayout) (old : FatSpecific)
    (hpos : 0 < new.clusterSectors) :
    (new.clusterSectors : ℤ) ∣
        new.geom.start + (newMetaDataSize new + fatCalcAlignSectors new old) - old.clusterOfs ∧
      0 ≤ fatCalcAlignSectors new old ∧
      (new.clusterCount : ℤ) * new.clusterSectors + fatCalcAlignSectors new old
        ≤ max (new.geom.length - newMetaDataSize new)
          (new.clusterCount * new.clusterSectors + new.clusterSectors - 1) ∧
      new.geom.length - newMetaDataSize new
        < new.clusterCount * new.clusterSectors + fatCalcAlignSectors new old
          + new.clusterSectors := by
  have hc : (0 : ℤ) < new.clusterSectors := by exact_mod_cast hpos
  have hclusters : (0 : ℤ) ≤ new.clusterCount * new.clusterSectors := by positivity
  unfold fatCalcAlignSectors
  dsimp only
  obtain ⟨h0, hlt, hdvd⟩ := leastAlign_spec (old.geom.start + old.clusterOffset)
    (new.geom.start + newMetaDataSize new) hc
  generalize leastAlign new.clusterSectors (old.geom.start + old.clusterOffset)
    (new.geom.start + newMetaDataSize new) = align at *
  obtain ⟨hstep, hge, hfits, hless⟩ := useUp_spec hc align
    (show new.geom.length - newMetaDataSize new - new.clusterCount * new.clusterSectors - align
      ≤ (new.geom.length - newMetaDataSize new).toNat by omega)
  generalize useUp _ _ _ _ align = r at *
  refine ⟨?_, by omega, by omega, by omega⟩
  have hsum := dvd_add hdvd hstep
  rw [show new.geom.start + (newMetaDataSize new + r) - old.clusterOfs
    = new.geom.start + newMetaDataSize new + align - (old.geom.start + old.clusterOffset)
      + (r - align) by unfold FatSpecific.clusterOfs; ring]
  exact hsum

/-- What a resize starts from: cluster sizes that are powers of two, the new one at most
the old, and room for the metadata, an old cluster and the new clusters. -/
structure NewLayout.Resizes (new : NewLayout) (old : FatSpecific) : Prop where
  type : new.fatType ≠ .fat12
  power : ∃ k : ℕ, new.clusterSectors = 2 ^ k
  oldPower : ∃ k : ℕ, old.clusterSectors = 2 ^ k
  le : new.clusterSectors ≤ old.clusterSectors
  count : new.clusterCount ≤ fatMaxClusterCount new.fatType
  room : newMetaDataSize new + old.clusterSectors + new.clusterCount * new.clusterSectors
    ≤ new.geom.length

section Alignment

variable {new : NewLayout} {old : FatSpecific} (h : new.Resizes old)

include h

theorem NewLayout.Resizes.pos : 0 < new.clusterSectors := by
  obtain ⟨k, hk⟩ := h.power
  rw [hk]
  positivity

theorem NewLayout.Resizes.dvd : new.clusterSectors ∣ old.clusterSectors := by
  obtain ⟨k, hk⟩ := h.power
  obtain ⟨m, hm⟩ := h.oldPower
  have hle := h.le
  rw [hk, hm] at hle ⊢
  exact pow_dvd_pow 2 ((Nat.pow_le_pow_iff_right (by decide)).mp hle)

theorem newClusterOffset_eq :
    newClusterOffset new old = newMetaDataSize new + fatCalcAlignSectors new old := by
  have htype := h.type
  unfold newClusterOffset newMetaDataSize
  cases hcase : new.fatType with
  | fat12 => exact absurd hcase htype
  | fat16 =>
    simp
    ring
  | fat32 =>
    simp
    ring

/-- With room for it, the new cluster area ends inside the partition. -/
theorem newClusterOffset_spec :
    (new.clusterSectors : ℤ) ∣ new.geom.start + newClusterOffset new old - old.clusterOfs ∧
      newClusterOffset new old + new.clusterCount * new.clusterSectors ≤ new.geom.length ∧
      new.geom.length < newClusterOffset new old + new.clusterCount * new.clusterSectors
        + new.clusterSectors := by
  have hle : (new.clusterSectors : ℤ) ≤ old.clusterSectors := by exact_mod_cast h.le
  have hroom := h.room
  obtain ⟨hdvd, h0, hfits, hless⟩ := fatCalcAlignSectors_spec new old h.pos
  rw [newClusterOffset_eq h]
  exact ⟨hdvd, by omega, by omega⟩

end Alignment

/-! ## The context -/

section Contexts

variable {newFs oldFs : FatSpecific} {ctx : FatOpContext}

/-- Aligned cluster areas give a context: neither `fat_set_frag_sectors` nor `calc_deltas`
complains. -/
theorem exists_context (hle : newFs.clusterSectors ≤ oldFs.clusterSectors)
    (hdvd : newFs.clusterSectors ∣ oldFs.clusterSectors)
    (halign : (newFs.clusterSectors : ℤ) ∣ newFs.clusterOfs - oldFs.clusterOfs) :
    ∃ ctx, fatOpContextNew newFs oldFs = .ok (some ctx) := by
  have hset {fs : FatSpecific} {n : ℕ} (hn : n ∣ fs.clusterSectors)
      (hn' : n ≤ fs.clusterSectors) : fatSetFragSectors fs n = .ok (fs.withFrags n) := by
    simp [fatSetFragSectors, pedAssert, Nat.mod_eq_zero_of_dvd hn, hn', ok_bind]
  obtain ⟨⟨dir, sectorDelta⟩, hdelta⟩ : ∃ r, calcDeltas oldFs newFs = some r := by
    unfold calcDeltas
    split_ifs
    · dsimp only
      rw [if_neg (by simpa using Int.emod_eq_zero_of_dvd halign)]
      exact ⟨_, rfl⟩
    · dsimp only
      rw [if_neg (by simpa [neg_sub] using Int.emod_eq_zero_of_dvd ((dvd_neg).mpr halign))]
      exact ⟨_, rfl⟩
  unfold fatOpContextNew
  dsimp only
  rw [min_eq_right hle, hset dvd_rfl le_rfl, ok_bind, hset hdvd hle, ok_bind]
  have hfrags : calcDeltas (oldFs.withFrags newFs.clusterSectors)
      (newFs.withFrags newFs.clusterSectors) = calcDeltas oldFs newFs := rfl
  rw [hfrags, hdelta]
  exact ⟨_, rfl⟩

theorem calcDeltas_dir {dir : FatDirection} {sectorDelta : ℤ}
    (h : calcDeltas oldFs newFs = some (dir, sectorDelta)) :
    dir = .forward ↔ oldFs.clusterOfs < newFs.clusterOfs := by
  unfold calcDeltas at h
  split_ifs at h with hdir
  all_goals
    simp only [ne_eq, not_not, Option.ite_none_left_eq_some, Option.some.injEq, Prod.mk.injEq] at h
    obtain ⟨-, rfl, -⟩ := h
    simp
    omega

end Contexts

/-! ## The static mapping -/

/-- The number of fragments of a file system, whether or not a `FatFragment` holds it. -/
def FatSpecific.fragments (fs : FatSpecific) : ℤ := fs.clusterCount * fs.clusterFrags

/-- Fragment `f` is mapped right: to the new fragment in the same place, or to `-1` if none
of its sectors lies in a new cluster. -/
def MapsRight (ctx : FatOpContext) (f : ℤ) : Prop :=
  (∃ g, fatOpContextMapStaticFragment ctx f = g ∧ 0 ≤ g ∧ g < ctx.newFs.fragments ∧
    ctx.oldFs.fragStart f = ctx.newFs.fragStart g) ∨
  (fatOpContextMapStaticFragment ctx f = -1 ∧ ∀ g, 0 ≤ g → g < ctx.newFs.fragments →
    ∀ x, ctx.oldFs.InFragment f x → ¬ctx.newFs.InFragment g x)

/-- The distance of the two cluster areas, in new clusters. -/
def clusterDistance (newFs oldFs : FatSpecific) : ℤ :=
  |newFs.clusterOfs - oldFs.clusterOfs| / newFs.clusterSectors

/-- All old fragments that a `FatFragment` can name are mapped right. -/
def StaticRight (ctx : FatOpContext) : Prop :=
  ∀ f, 0 ≤ f → f < 2 ^ 31 → f < ctx.oldFs.fragments → MapsRight ctx f

theorem toFragment_wrap {x : ℤ} (h : 2 ^ 31 ≤ x) (h' : x < 2 ^ 32) :
    toFragment x = x - 2 ^ 32 := by
  rw [← toFragment_eq (x := x - 2 ^ 32) (by omega) (by omega)]
  have hsub := Int.sub_bmod_right x (2 ^ 32)
  push_cast at hsub
  exact hsub.symm

section Static

variable {newFs oldFs : FatSpecific} {ctx : FatOpContext}

/-- Two fragments of the two file systems are in the same place or apart. -/
theorem mapsRight_iff {n : ℕ} {e f : ℤ} (hn : 0 < n) (hold : ctx.oldFs.fragSectors = n)
    (hnew : ctx.newFs.fragSectors = n)
    (hmove : ctx.oldFs.clusterOfs + f * n = ctx.newFs.clusterOfs + e * n) :
    MapsRight ctx f ↔ fatOpContextMapStaticFragment ctx f
      = if 0 ≤ e ∧ e < ctx.newFs.fragments then e else -1 := by
  have hn' : (n : ℤ) ≠ 0 := by exact_mod_cast hn.ne'
  have hstart : ctx.oldFs.fragStart f = ctx.newFs.fragStart e := by
    unfold FatSpecific.fragStart
    rw [hold, hnew, hmove]
  have hsame {g : ℤ} (hg : ctx.oldFs.fragStart f = ctx.newFs.fragStart g) : g = e := by
    rw [hstart] at hg
    unfold FatSpecific.fragStart at hg
    rw [hnew] at hg
    exact (mul_right_cancel₀ hn' (by linarith)).symm
  have hmeet {g x : ℤ} (hf : ctx.oldFs.InFragment f x) (hg : ctx.newFs.InFragment g x) :
      g = e := by
    refine FatSpecific.fragment_disjoint hg ?_
    unfold FatSpecific.InFragment at hf ⊢
    rwa [hnew, ← hstart, ← hold]
  unfold MapsRight
  generalize fatOpContextMapStaticFragment ctx f = m
  split_ifs with he
  · constructor
    · rintro (⟨g, rfl, -, -, hg⟩ | ⟨-, hnone⟩)
      · exact hsame hg
      · have hin : ctx.oldFs.InFragment f (ctx.oldFs.fragStart f) :=
          ⟨le_rfl, by rw [hold]; omega⟩
        exact absurd ⟨hstart.ge, by rw [hnew, hstart]; omega⟩ (hnone e he.1 he.2 _ hin)
    · rintro rfl
      exact .inl ⟨_, rfl, he.1, he.2, hstart⟩
  · constructor
    · rintro (⟨g, rfl, h0, hlt, hg⟩ | ⟨hm, -⟩)
      · exact absurd (hsame hg ▸ ⟨h0, hlt⟩) he
      · exact hm
    · rintro rfl
      exact .inr ⟨rfl, fun g h0 hlt x hf hg => he (hmeet hf hg ▸ ⟨h0, hlt⟩)⟩

/-- **The static mapping** of a move by less than `2^31` fragments.  Towards the end of the
device it is right.  Towards its beginning the sum of a fragment number and the distance
must not reach `2^31`; where it does, the result is negative and not `-1`. -/
theorem staticRight_iff (hctx : fatOpContextNew newFs oldFs = .ok (some ctx))
    (hle : newFs.clusterSectors ≤ oldFs.clusterSectors)
    (hcount : newFs.clusterCount < 2 ^ 31) (hshort : clusterDistance newFs oldFs < 2 ^ 31) :
    StaticRight ctx ↔ oldFs.clusterOfs < newFs.clusterOfs ∨
      min ctx.oldFs.fragments (2 ^ 31) + clusterDistance newFs oldFs ≤ 2 ^ 31 := by
  obtain ⟨hmin, hold, hnew, -, -, -, sectorDelta, hdelta, hstart⟩ := fatOpContextNew_eq_some hctx
  obtain ⟨hpos, hdvd, hofs⟩ := calcDeltas_eq_some hdelta
  have hd : clusterDistance newFs oldFs * newFs.clusterSectors
      = |newFs.clusterOfs - oldFs.clusterOfs| := by
    refine Int.ediv_mul_cancel ?_
    rw [hofs, dvd_abs]
    split_ifs
    · exact hdvd
    · exact (dvd_neg).mpr hdvd
  generalize clusterDistance newFs oldFs = d at *
  have hdir := calcDeltas_dir hdelta
  rw [min_eq_right hle] at hmin
  have hn := newFs.clusterSectors_pos
  rw [← hmin] at hd hn
  have hn' : (0 : ℤ) < ctx.fragSectors := by exact_mod_cast hn
  have hfrags : ctx.newFs.fragments = newFs.clusterCount := by
    rw [hnew, FatSpecific.fragments]
    change (newFs.clusterCount : ℤ) * (newFs.clusterSectors / ctx.fragSectors : ℕ) = _
    rw [← hmin, Nat.div_self hn]
    simp
  have hfragCount : ctx.newFs.fragCount = newFs.clusterCount := by
    rw [hnew, FatSpecific.withFrags_fragCount, ← hmin, Nat.div_self hn]
    push_cast
    rw [mul_one, toFragment_eq (by omega) (by omega)]
  have hsector : sectorDelta = d * ctx.fragSectors := by
    rw [hd, hofs]
    split_ifs
    · exact (abs_of_nonneg hpos).symm
    · rw [abs_neg, abs_of_nonneg hpos]
  have hd0 : 0 ≤ d := nonneg_of_mul_nonneg_left (hsector ▸ hpos) hn'
  rw [hsector, Int.mul_ediv_cancel _ hn'.ne', toFragment_eq (by omega) hshort] at hstart
  rw [hsector] at hofs
  -- what has to be returned, and what is returned
  have hright (f : ℤ) : MapsRight ctx f ↔ fatOpContextMapStaticFragment ctx f
      = if 0 ≤ (if ctx.startMoveDir = .forward then f - d else f + d) ∧
          (if ctx.startMoveDir = .forward then f - d else f + d) < ctx.newFs.fragments then
        (if ctx.startMoveDir = .forward then f - d else f + d) else -1 := by
    refine mapsRight_iff hn (by rw [hold]; rfl) (by rw [hnew]; rfl) ?_
    rw [hold, hnew]
    change oldFs.clusterOfs + f * ctx.fragSectors = newFs.clusterOfs + _ * ctx.fragSectors
    split_ifs at hofs ⊢ <;> linarith
  unfold StaticRight
  simp only [hright, fatOpContextMapStaticFragment, hstart, hfragCount, hfrags]
  by_cases hforward : ctx.startMoveDir = .forward
  · simp only [hforward, true_and, if_true, hdir.mp hforward, true_or, iff_true]
    intro f h0 hlt _
    rw [toFragment_eq (by omega) (by omega)]
    split_ifs <;> omega
  · simp only [hforward, false_and, if_false, hdir.not.mp hforward, false_or]
    constructor
    · intro hall
      by_contra hbig
      -- the last fragment is not mapped to `-1`
      have hlast := hall (min ctx.oldFs.fragments (2 ^ 31) - 1) (by omega) (by omega) (by omega)
      rw [toFragment_wrap (by omega) (by omega)] at hlast
      split_ifs at hlast <;> omega
    · intro hsmall f h0 hlt hf
      rw [toFragment_eq (by omega) (by omega)]
      split_ifs <;> omega

end Static

/-! ## Resizing -/

/-- The new file system as `create_resize_context` fills it in. -/
structure NewLayout.Opens (new : NewLayout) (old fs : FatSpecific) : Prop where
  geom : fs.geom = new.geom
  clusterOffset : (fs.clusterOffset : ℤ) = newClusterOffset new old
  clusterSectors : fs.clusterSectors = new.clusterSectors
  clusterCount : fs.clusterCount = new.clusterCount

/-- **Aligned clusters.**  For every layout with room for it the cluster areas are on one
grid, the new one ends inside the partition with less than a cluster to spare, and
`calc_deltas` has nothing to complain about.  If the areas are less than `2^31` clusters
apart, every fragment is mapped right exactly when they move apart towards the end of the
device, or the fragment numbers leave room for the distance. -/
theorem resize_aligned_iff (new : NewLayout) (old : FatSpecific) (h : new.Resizes old) :
    (new.clusterSectors : ℤ) ∣ new.geom.start + newClusterOffset new old - old.clusterOfs ∧
    newClusterOffset new old + new.clusterCount * new.clusterSectors ≤ new.geom.length ∧
    new.geom.length - (newClusterOffset new old + new.clusterCount * new.clusterSectors)
      < new.clusterSectors ∧
    ∀ newFs, new.Opens old newFs → ∃ ctx, fatOpContextNew newFs old = .ok (some ctx) ∧
      (clusterDistance newFs old < 2 ^ 31 →
        (StaticRight ctx ↔ old.clusterOfs < newFs.clusterOfs ∨
          min ctx.oldFs.fragments (2 ^ 31) + clusterDistance newFs old ≤ 2 ^ 31)) := by
  obtain ⟨hdvd, hfits, hless⟩ := newClusterOffset_spec h
  refine ⟨hdvd, hfits, by omega, fun newFs hnew => ?_⟩
  have hofs : newFs.clusterOfs = new.geom.start + newClusterOffset new old := by
    rw [FatSpecific.clusterOfs, hnew.geom, hnew.clusterOffset]
  have hle : newFs.clusterSectors ≤ old.clusterSectors := hnew.clusterSectors ▸ h.le
  obtain ⟨ctx, hctx⟩ := exists_context hle (hnew.clusterSectors ▸ h.dvd)
    (by rw [hofs, hnew.clusterSectors]; exact hdvd)
  refine ⟨ctx, hctx, fun hshort => staticRight_iff hctx hle ?_ hshort⟩
  have hcount := h.count
  rw [hnew.clusterCount]
  have hmax : fatMaxClusterCount new.fatType < 2 ^ 31 := by
    cases new.fatType <;> decide
  omega

/-- An old file system of eight clusters of four sectors. -/
def eightOfFour : FatSpecific :=
  { geom := ⟨1000, 200, by decide, by decide⟩, fatType := .fat16, fatSectors := 1
    clusterOffset := 92, clusterSectors := 4, clusterCount := 8, fragSectors := 4
    clusterFrags := 1, fragCount := 8, clusterSectors_pos := by decide, fits := by decide }

/-- A new one of sixteen clusters of two sectors in a partition that starts earlier. -/
def sixteenOfTwo : NewLayout := ⟨⟨901, 200, by decide, by decide⟩, .fat16, 1, 1, 2, 16⟩

/-- The cluster areas are brought onto one grid. -/
theorem resize_aligned_iff_shrunk :
    sixteenOfTwo.Resizes eightOfFour ∧ newClusterOffset sixteenOfTwo eightOfFour = 167 ∧
      (2 : ℤ) ∣ 901 + newClusterOffset sixteenOfTwo eightOfFour - eightOfFour.clusterOfs := by
  have h : sixteenOfTwo.Resizes eightOfFour :=
    ⟨by decide, ⟨1, rfl⟩, ⟨2, rfl⟩, by decide, by decide, by decide⟩
  exact ⟨h, by decide +kernel, (resize_aligned_iff sixteenOfTwo eightOfFour h).1⟩

/-- Eight clusters of a sector at the beginning of a device. -/
def atTheFront : FatSpecific :=
  { geom := ⟨0, 100, by decide, by decide⟩, fatType := .fat16, fatSectors := 1
    clusterOffset := 92, clusterSectors := 1, clusterCount := 8, fragSectors := 1
    clusterFrags := 1, fragCount := 8, clusterSectors_pos := by decide, fits := by decide }

/-- The same `2^32` sectors behind. -/
def farBehind : NewLayout := ⟨⟨2 ^ 32, 100, by decide, by decide⟩, .fat16, 1, 1, 1, 8⟩

/-- The file system that comes of it. -/
def openedFarBehind : FatSpecific :=
  { atTheFront with geom := ⟨2 ^ 32, 100, by decide, by decide⟩, fits := by decide }

/-- The distance is taken for zero, and the first fragment for one that can stay where it
is, `2^32` sectors from its new cluster. -/
theorem resize_aligned_fails :
    farBehind.Resizes atTheFront ∧ farBehind.Opens atTheFront openedFarBehind ∧
      ∃ ctx, fatOpContextNew openedFarBehind atTheFront = .ok (some ctx) ∧
        fatOpContextMapStaticFragment ctx 0 = 0 ∧
        ctx.oldFs.fragStart 0 = 92 ∧ ctx.newFs.fragStart 0 = 2 ^ 32 + 92 ∧ ¬StaticRight ctx := by
  refine ⟨⟨by decide, ⟨0, rfl⟩, ⟨0, rfl⟩, by decide, by decide, by decide⟩,
    ⟨rfl, by decide +kernel, rfl, rfl⟩, ⟨atTheFront, openedFarBehind, 1, .forward, 0, 1024⟩,
    eq_ok_of_toOption (by decide +kernel), by decide, by decide, by decide, fun hright => ?_⟩
  rcases hright 0 le_rfl (by decide) (by decide) with ⟨g, hg, -, -, hsame⟩ | ⟨hnone, -⟩
  · subst hg
    exact absurd hsame (by decide)
  · exact absurd hnone (by decide)

end Libparted.Fat
