import Libparted.Fs.Fat.Table

/-!
# Resizing: two file systems on one device (`context.c`, `calc.c`, `count.c`)

During a resize the old and the new file system share the sectors of one device.
Both are cut into *fragments* of the smaller of the two cluster sizes.
`calc_deltas` demands that the two cluster areas lie on one grid of new clusters, so
that a fragment of the old file system is, where the areas overlap, a fragment of
the new one under another number.  `fat_op_context_map_static_fragment` computes
that number.

`fat_op_context_create_initial_fat` marks in the new FAT what must not be
overwritten: the clusters that hold a fragment in use or a bad one, and those that
hold metadata of the old file system.  Its result is known exactly
(`initialFat_entry_iff`).  The first part does what it should.  The second goes
through `ped_geometry_map`, which refuses a sector counted from the start of the old
partition unless it is also at least that start; metadata in front of that is left
unmarked.

A `FatFragment` is an `int32_t`.  The number of fragments and the distance between
the two cluster areas are converted to it, and `Representable` says that nothing is
lost in this.  Both file systems are on one device, as all geometries are here.
-/

namespace Libparted.Fat

open Library

/-! ## File systems -/

/-- The conversion to `FatFragment`. -/
def toFragment (x : ℤ) : ℤ := Int.bmod x (2 ^ 32)

theorem toFragment_eq {x : ℤ} (h : -2 ^ 31 ≤ x) (h' : x < 2 ^ 31) : toFragment x = x := by
  unfold toFragment
  exact Int.bmod_eq_of_le (by omega) (by omega)

/-- `BUFFER_SIZE`. -/
def bufferSize : ℕ := 1024

/-- The part of `FatSpecific`, and of the file system that points to it, that a resize
reads.  The clusters lie inside the partition. -/
structure FatSpecific where
  geom : PedGeometry
  fatType : FatType
  fatSectors : ℕ
  clusterOffset : ℕ
  clusterSectors : ℕ
  clusterCount : ℕ
  fragSectors : ℕ
  clusterFrags : ℕ
  fragCount : ℤ
  clusterSectors_pos : 0 < clusterSectors
  fits : (clusterOffset : ℤ) + clusterSectors * clusterCount ≤ geom.length
deriving DecidableEq

/-- The fields `fat_set_frag_sectors` sets. -/
def FatSpecific.withFrags (fs : FatSpecific) (fragSectors : ℕ) : FatSpecific :=
  { fs with
    fragSectors
    clusterFrags := fs.clusterSectors / fragSectors
    fragCount := toFragment (fs.clusterCount * (fs.clusterSectors / fragSectors : ℕ)) }

theorem FatSpecific.withFrags_fragCount (fs : FatSpecific) (n : ℕ) :
    (fs.withFrags n).fragCount = toFragment (fs.clusterCount * (fs.clusterSectors / n : ℕ)) := by
  simp only [FatSpecific.withFrags]

/-- `fat_set_frag_sectors`. -/
def fatSetFragSectors (fs : FatSpecific) (fragSectors : ℕ) : Except Fault FatSpecific := do
  pedAssert (fs.clusterSectors % fragSectors = 0 && fragSectors ≤ fs.clusterSectors)
    "fs_info->cluster_sectors % frag_sectors == 0 && frag_sectors <= fs_info->cluster_sectors"
  return fs.withFrags fragSectors

/-- `fat_frag_to_cluster`. -/
def fatFragToCluster (fs : FatSpecific) (frag : ℤ) : Except Fault ℕ := do
  pedAssert (0 ≤ frag && frag < fs.fragCount) "frag >= 0 && frag < fs_info->frag_count"
  return frag.toNat / fs.clusterFrags + 2

/-- `fat_cluster_to_frag`. -/
def fatClusterToFrag (fs : FatSpecific) (cluster : ℕ) : Except Fault ℤ := do
  pedAssert (2 ≤ cluster && cluster < fs.clusterCount + 2)
    "cluster >= 2 && cluster < fs_info->cluster_count + 2"
  return toFragment ((cluster - 2 : ℕ) * fs.clusterFrags : ℕ)

/-- `fat_frag_to_sector`. -/
def fatFragToSector (fs : FatSpecific) (frag : ℤ) : Except Fault ℤ := do
  pedAssert (0 ≤ frag && frag < fs.fragCount) "frag >= 0 && frag < fs_info->frag_count"
  return frag * fs.fragSectors + fs.clusterOffset

/-- `fat_is_sector_in_clusters`. -/
def fatIsSectorInClusters (fs : FatSpecific) (sector : ℤ) : Bool :=
  sector ≥ fs.clusterOffset && sector < fs.clusterOffset + fs.clusterSectors * fs.clusterCount

/-- `fat_sector_to_cluster`. -/
def fatSectorToCluster (fs : FatSpecific) (sector : ℤ) : Except Fault ℕ := do
  pedAssert (sector ≥ fs.clusterOffset) "sector >= fs_info->cluster_offset"
  return ((sector - fs.clusterOffset).toNat / fs.clusterSectors) + 2

/-! ## Cluster flags -/

/-- `FatClusterFlag`. -/
inductive FatClusterFlag where
  | free
  | file
  | directory
  | bad
deriving DecidableEq, Repr

/-- `FatClusterInfo`.  Zero units stand for 64. -/
structure FatClusterInfo where
  unitsUsed : Fin 64
  flag : FatClusterFlag

/-- `fat_get_cluster_usage`. -/
def fatGetClusterUsage (fs : FatSpecific) (info : ℕ → FatClusterInfo) (cluster : ℕ) : ℤ :=
  if (info cluster).flag = .free then 0
  else
    let fraction : ℕ := if (info cluster).unitsUsed = 0 then 64 else (info cluster).unitsUsed
    (fraction * fs.clusterSectors : ℤ).tdiv 64

/-- A cluster used to its end. -/
def FatClusterInfo.whole (flag : FatClusterFlag) : FatClusterInfo := ⟨0, flag⟩

/-- `fat_get_fragment_flag`. -/
def fatGetFragmentFlag (fs : FatSpecific) (info : ℕ → FatClusterInfo) (frag : ℤ) :
    Except Fault FatClusterFlag := do
  let cluster ← fatFragToCluster fs frag
  let offset := frag % fs.clusterFrags
  pedAssert (2 ≤ cluster && cluster < fs.clusterCount + 2)
    "cluster >= 2 && cluster < fs_info->cluster_count + 2"
  let flag := (info cluster).flag
  if flag ≠ .file ∧ flag ≠ .directory then return flag
  let lastFragUsed := (fatGetClusterUsage fs info cluster - 1).tdiv fs.fragSectors
  if offset > lastFragUsed then return .free else return flag

/-- `fat_is_fragment_active`. -/
def fatIsFragmentActive (fs : FatSpecific) (info : ℕ → FatClusterInfo) (frag : ℤ) :
    Except Fault Bool := do
  match ← fatGetFragmentFlag fs info frag with
  | .free => return false
  | .bad => return false
  | .file => return true
  | .directory => return true

/-! ## The context of a resize -/

/-- `FatDirection`. -/
inductive FatDirection where
  | forward
  | backward
deriving DecidableEq, Repr

/-- The part of `FatOpContext` that does not change during the resize. -/
structure FatOpContext where
  oldFs : FatSpecific
  newFs : FatSpecific
  fragSectors : ℕ
  startMoveDir : FatDirection
  startMoveDelta : ℤ
  bufferFrags : ℕ
deriving DecidableEq

/-- Where the first cluster of a file system begins on the device. -/
def FatSpecific.clusterOfs (fs : FatSpecific) : ℤ := fs.geom.start + fs.clusterOffset

/-- `calc_deltas`: the direction and the distance in sectors.  `none` is its complaint
that the distance is not a multiple of the new cluster size. -/
def calcDeltas (oldFs newFs : FatSpecific) : Option (FatDirection × ℤ) :=
  let (dir, sectorDelta) :=
    if newFs.clusterOfs > oldFs.clusterOfs then
      (FatDirection.forward, newFs.clusterOfs - oldFs.clusterOfs)
    else (FatDirection.backward, oldFs.clusterOfs - newFs.clusterOfs)
  if sectorDelta % newFs.clusterSectors ≠ 0 then none else some (dir, sectorDelta)

/-- `fat_op_context_new`. -/
def fatOpContextNew (newFs oldFs : FatSpecific) : Except Fault (Option FatOpContext) := do
  let fragSectors := min oldFs.clusterSectors newFs.clusterSectors
  let newFs ← fatSetFragSectors newFs fragSectors
  let oldFs ← fatSetFragSectors oldFs fragSectors
  match calcDeltas oldFs newFs with
  | none => return none
  | some (dir, sectorDelta) =>
    return some
      { oldFs, newFs, fragSectors
        startMoveDir := dir
        startMoveDelta := toFragment (sectorDelta / fragSectors)
        bufferFrags := bufferSize / fragSectors }

/-- `fat_op_context_map_static_fragment`. -/
def fatOpContextMapStaticFragment (ctx : FatOpContext) (frag : ℤ) : ℤ :=
  if ctx.startMoveDir = .forward ∧ frag < ctx.startMoveDelta then -1
  else
    let result :=
      if ctx.startMoveDir = .forward then toFragment (frag - ctx.startMoveDelta)
      else toFragment (frag + ctx.startMoveDelta)
    if result ≥ ctx.newFs.fragCount then -1 else result

/-! ## The initial FAT -/

/-- One turn of the first loop: a fragment in use or bad marks the cluster it lies in. -/
def markFragment (ctx : FatOpContext) (info : ℕ → FatClusterInfo) (frag : ℕ) : TableM Bool := do
  let fragFlag ← fatGetFragmentFlag ctx.oldFs info frag
  if fragFlag = .free then return true
  let newFrag := fatOpContextMapStaticFragment ctx frag
  if newFrag = -1 then return true
  let newClst ← fatFragToCluster ctx.newFs newFrag
  pedAssert (newClst ≠ 0) "new_clst != 0"
  if fragFlag = .bad then fatTableSetBad newClst else fatTableSetEof newClst

/-- One turn of the second loop: a sector of the old metadata marks the cluster it lies in. -/
def markMetadata (ctx : FatOpContext) (sect : ℕ) : TableM Bool := do
  let newSect := pedGeometryMap ctx.newFs.geom ctx.oldFs.geom sect
  if newSect = -1 ∨ !fatIsSectorInClusters ctx.newFs newSect then return true
  let clst ← fatSectorToCluster ctx.newFs newSect
  pedAssert (clst ≠ 0) "clst != 0"
  fatTableSetEof clst

/-- What `fat_op_context_create_initial_fat` does to the table it has made. -/
def markInitialFat (ctx : FatOpContext) (info : ℕ → FatClusterInfo) : TableM Bool := do
  fatTableSetClusterCount ctx.newFs.clusterCount
  if ← allOf (markFragment ctx info) (List.range' 0 ctx.oldFs.fragCount.toNat) then
    allOf (markMetadata ctx) (List.range' 0 ctx.oldFs.clusterOffset)
  else return false

/-- `fat_op_context_create_initial_fat`: did it succeed, and the table it made. -/
def fatOpContextCreateInitialFat (ctx : FatOpContext) (info : ℕ → FatClusterInfo) :
    Except Fault (Bool × FatTable) := do
  let fat ← fatTableNew ctx.newFs.fatType
    (ctx.newFs.fatSectors * 512 / fatTableEntrySize ctx.newFs.fatType)
  markInitialFat ctx info fat

/-! ## The common grid -/

/-- Where a fragment begins on the device. -/
def FatSpecific.fragStart (fs : FatSpecific) (frag : ℤ) : ℤ := fs.clusterOfs + frag * fs.fragSectors

/-- Where a cluster begins on the device. -/
def FatSpecific.clusterStart (fs : FatSpecific) (cluster : ℕ) : ℤ :=
  fs.clusterOfs + ((cluster : ℤ) - 2) * fs.clusterSectors

/-- The numbers of fragments, and those a fragment can be moved to, are values of
`FatFragment`. -/
structure FatOpContext.Representable (ctx : FatOpContext) : Prop where
  old : |ctx.newFs.clusterOfs - ctx.oldFs.clusterOfs| / ctx.fragSectors
    + ctx.oldFs.clusterCount * (ctx.oldFs.clusterSectors / ctx.fragSectors : ℕ) < 2 ^ 31
  new : (ctx.newFs.clusterCount : ℤ) * (ctx.newFs.clusterSectors / ctx.fragSectors : ℕ) < 2 ^ 31

/-- The arithmetic of a context. -/
structure FatOpContext.Grid (ctx : FatOpContext) : Prop where
  frag_pos : 0 < ctx.fragSectors
  old_frag : ctx.oldFs.fragSectors = ctx.fragSectors
  new_frag : ctx.newFs.fragSectors = ctx.fragSectors
  old_sectors : ctx.oldFs.clusterSectors = ctx.oldFs.clusterFrags * ctx.fragSectors
  new_sectors : ctx.newFs.clusterSectors = ctx.newFs.clusterFrags * ctx.fragSectors
  old_count : ctx.oldFs.fragCount = ctx.oldFs.clusterCount * ctx.oldFs.clusterFrags
  new_count : ctx.newFs.fragCount = ctx.newFs.clusterCount * ctx.newFs.clusterFrags
  old_lt : ctx.oldFs.fragCount < 2 ^ 31
  new_lt : ctx.newFs.fragCount < 2 ^ 31
  aligned : (ctx.newFs.clusterSectors : ℤ) ∣ ctx.newFs.clusterOfs - ctx.oldFs.clusterOfs
  static : ∀ frag, 0 ≤ frag → frag < ctx.oldFs.fragCount → ∀ g, g ≠ -1 →
    (fatOpContextMapStaticFragment ctx frag = g ↔
      0 ≤ g ∧ g < ctx.newFs.fragCount ∧ ctx.oldFs.fragStart frag = ctx.newFs.fragStart g)

section Contexts

variable {oldFs newFs : FatSpecific} {ctx : FatOpContext}

theorem fatSetFragSectors_eq_ok {fs fs' : FatSpecific} {n : ℕ}
    (h : fatSetFragSectors fs n = .ok fs') :
    n ∣ fs.clusterSectors ∧ n ≤ fs.clusterSectors ∧ fs' = fs.withFrags n := by
  unfold fatSetFragSectors pedAssert at h
  split at h
  · rename_i hassert
    simp only [Bool.and_eq_true, decide_eq_true_eq] at hassert
    exact ⟨Nat.dvd_of_mod_eq_zero hassert.1, hassert.2, by simpa using h.symm⟩
  · simp at h

/-- What `calc_deltas` returns, with its sign. -/
theorem calcDeltas_eq_some {dir : FatDirection} {sectorDelta : ℤ}
    (h : calcDeltas oldFs newFs = some (dir, sectorDelta)) :
    0 ≤ sectorDelta ∧ (newFs.clusterSectors : ℤ) ∣ sectorDelta ∧
      newFs.clusterOfs - oldFs.clusterOfs
        = (if dir = .forward then sectorDelta else -sectorDelta) := by
  unfold calcDeltas at h
  split_ifs at h with hdir
  all_goals
    simp only [ne_eq, not_not, Option.ite_none_left_eq_some, Option.some.injEq, Prod.mk.injEq] at h
    obtain ⟨hmod, rfl, rfl⟩ := h
    refine ⟨by omega, Int.dvd_of_emod_eq_zero hmod, by simp⟩

theorem fatOpContextNew_eq_some (h : fatOpContextNew newFs oldFs = .ok (some ctx)) :
    ctx.fragSectors = min oldFs.clusterSectors newFs.clusterSectors ∧
      ctx.oldFs = oldFs.withFrags ctx.fragSectors ∧ ctx.newFs = newFs.withFrags ctx.fragSectors ∧
      ctx.fragSectors ∣ oldFs.clusterSectors ∧ ctx.fragSectors ∣ newFs.clusterSectors ∧
      ctx.bufferFrags = bufferSize / ctx.fragSectors ∧
      ∃ sectorDelta, calcDeltas oldFs newFs = some (ctx.startMoveDir, sectorDelta) ∧
        ctx.startMoveDelta = toFragment (sectorDelta / ctx.fragSectors) := by
  unfold fatOpContextNew at h
  obtain ⟨newFs', hnew, h⟩ := bind_eq_ok.mp h
  obtain ⟨oldFs', hold, h⟩ := bind_eq_ok.mp h
  obtain ⟨hnewDvd, -, rfl⟩ := fatSetFragSectors_eq_ok hnew
  obtain ⟨holdDvd, -, rfl⟩ := fatSetFragSectors_eq_ok hold
  change (match calcDeltas oldFs newFs with | none => _ | some (_, _) => _) = _ at h
  split at h
  · simp at h
  · rename_i dir sectorDelta hdelta
    simp only [pure_eq_ok, Except.ok.injEq, Option.some.injEq] at h
    subst h
    exact ⟨rfl, rfl, rfl, holdDvd, hnewDvd, rfl, sectorDelta, hdelta, rfl⟩

/-- **The grid of a context.**  A fragment that is mapped statically keeps its sectors, and
a fragment whose sectors are those of a new one is mapped to it. -/
theorem grid_of_context (h : fatOpContextNew newFs oldFs = .ok (some ctx))
    (hrep : ctx.Representable) : ctx.Grid := by
  obtain ⟨hmin, hold, hnew, holdDvd, hnewDvd, -, sectorDelta, hdelta, hstart⟩ :=
    fatOpContextNew_eq_some h
  obtain ⟨hpos, hdvd, hofs⟩ := calcDeltas_eq_some hdelta
  set n := ctx.fragSectors with hn
  have hn0 : 0 < n := by
    have := oldFs.clusterSectors_pos
    have := newFs.clusterSectors_pos
    omega
  have hmul {fs : FatSpecific} (hfs : n ∣ fs.clusterSectors) :
      fs.clusterSectors = fs.clusterSectors / n * n := (Nat.div_mul_cancel hfs).symm
  obtain ⟨d, hd⟩ : (n : ℤ) ∣ sectorDelta := (Int.natCast_dvd_natCast.mpr hnewDvd).trans hdvd
  have hnz : (n : ℤ) ≠ 0 := by omega
  have hd0 : 0 ≤ d := by
    by_contra hneg
    nlinarith
  have hdiv : sectorDelta / n = d := by rw [hd, Int.mul_ediv_cancel_left d hnz]
  have habs : |newFs.clusterOfs - oldFs.clusterOfs| = sectorDelta := by
    rw [hofs]
    split_ifs
    · exact abs_of_nonneg hpos
    · rw [abs_neg, abs_of_nonneg hpos]
  have hrepOld := hrep.old
  have hrepNew := hrep.new
  rw [hold, hnew] at hrepOld
  rw [hnew] at hrepNew
  change |newFs.clusterOfs - oldFs.clusterOfs| / (n : ℤ)
    + oldFs.clusterCount * (oldFs.clusterSectors / n : ℕ) < 2 ^ 31 at hrepOld
  change (newFs.clusterCount : ℤ) * (newFs.clusterSectors / n : ℕ) < 2 ^ 31 at hrepNew
  rw [habs, hdiv] at hrepOld
  have hcountOld : 0 ≤ (oldFs.clusterCount : ℤ) * (oldFs.clusterSectors / n : ℕ) := by positivity
  have hcountNew : 0 ≤ (newFs.clusterCount : ℤ) * (newFs.clusterSectors / n : ℕ) := by positivity
  have hfragOld : ctx.oldFs.fragCount
      = oldFs.clusterCount * (oldFs.clusterSectors / n : ℕ) := by
    rw [hold, FatSpecific.withFrags_fragCount, toFragment_eq (by omega) (by omega)]
  have hfragNew : ctx.newFs.fragCount
      = newFs.clusterCount * (newFs.clusterSectors / n : ℕ) := by
    rw [hnew, FatSpecific.withFrags_fragCount, toFragment_eq (by omega) (by omega)]
  have hmove : ctx.startMoveDelta = d := by
    rw [hstart, hdiv]
    exact toFragment_eq (by omega) (by omega)
  refine ⟨hn0, by rw [hold]; rfl, by rw [hnew]; rfl, ?_, ?_, ?_, ?_, by omega, ?_, ?_, ?_⟩
  · rw [hold]; exact hmul holdDvd
  · rw [hnew]; exact hmul hnewDvd
  · rw [hfragOld, hold]; rfl
  · rw [hfragNew, hnew]; rfl
  · rw [hfragNew]; exact hrepNew
  · rw [hold, hnew]
    change (newFs.clusterSectors : ℤ) ∣ newFs.clusterOfs - oldFs.clusterOfs
    rw [hofs]
    split_ifs
    · exact hdvd
    · exact (dvd_neg).mpr hdvd
  · intro frag hfrag hfrag' g hg
    -- equal sectors are a fixed distance of fragment numbers
    have hsame : ctx.oldFs.fragStart frag = ctx.newFs.fragStart g ↔
        g = if ctx.startMoveDir = .forward then frag - d else frag + d := by
      rw [hold, hnew]
      change oldFs.clusterOfs + frag * n = newFs.clusterOfs + g * n ↔ _
      have hline : newFs.clusterOfs = oldFs.clusterOfs
          + (if ctx.startMoveDir = .forward then d else -d) * n := by
        split_ifs with hdir
        · rw [if_pos hdir] at hofs; linarith [mul_comm (n : ℤ) d]
        · rw [if_neg hdir] at hofs; linarith [mul_comm (n : ℤ) d]
      rw [hline]
      constructor
      · intro heq
        have : (frag - g - if ctx.startMoveDir = .forward then d else -d) * n = 0 := by
          linear_combination heq
        have := (mul_eq_zero.mp this).resolve_right hnz
        split_ifs at this ⊢ <;> omega
      · rintro rfl
        split_ifs <;> ring
    rw [hsame]
    unfold fatOpContextMapStaticFragment
    rw [hmove, toFragment_eq (x := frag - d) (by omega) (by omega),
      toFragment_eq (x := frag + d) (by omega) (by omega)]
    by_cases hdir : ctx.startMoveDir = .forward
    · simp only [hdir, true_and, if_true]
      split_ifs <;> omega
    · simp only [hdir, false_and, if_false]
      split_ifs <;> omega

end Contexts

/-! ## What the initial FAT marks -/

/-- Fragment `frag` marks cluster `c` in the first loop. -/
def FragmentMarks (ctx : FatOpContext) (info : ℕ → FatClusterInfo) (frag c : ℕ) : Prop :=
  ∃ flag, fatGetFragmentFlag ctx.oldFs info frag = .ok flag ∧ flag ≠ .free ∧
    fatOpContextMapStaticFragment ctx frag ≠ -1 ∧
    fatFragToCluster ctx.newFs (fatOpContextMapStaticFragment ctx frag) = .ok c

/-- Sector `sect` of the old file system marks cluster `c` in the second loop. -/
def MetadataMarks (ctx : FatOpContext) (sect c : ℕ) : Prop :=
  pedGeometryMap ctx.newFs.geom ctx.oldFs.geom sect ≠ -1 ∧
    fatIsSectorInClusters ctx.newFs (pedGeometryMap ctx.newFs.geom ctx.oldFs.geom sect) ∧
    fatSectorToCluster ctx.newFs (pedGeometryMap ctx.newFs.geom ctx.oldFs.geom sect) = .ok c

section InitialFat

variable {ctx : FatOpContext} {info : ℕ → FatClusterInfo}

/-- The clusters a set of events has marked, on top of those marked before. -/
def MarkedBy (ft ft' : FatTable) (P : ℕ → Prop) : Prop :=
  ft.SameShape ft' ∧ ∀ c, ft'.entry c ≠ 0 ↔ ft.entry c ≠ 0 ∨ P c

theorem MarkedBy.none (ft : FatTable) : MarkedBy ft ft fun _ => False :=
  ⟨.refl _, fun _ => by simp⟩

theorem MarkedBy.trans {ft ft₁ ft₂ : FatTable} {P Q : ℕ → Prop} (h : MarkedBy ft ft₁ P)
    (h' : MarkedBy ft₁ ft₂ Q) : MarkedBy ft ft₂ fun c => P c ∨ Q c := by
  refine ⟨h.1.trans h'.1, fun c => ?_⟩
  rw [h'.2, h.2, or_assoc]

theorem MarkedBy.congr {ft ft₁ : FatTable} {P Q : ℕ → Prop} (h : MarkedBy ft ft₁ P)
    (hPQ : ∀ c, P c ↔ Q c) : MarkedBy ft ft₁ Q :=
  ⟨h.1, fun c => by rw [h.2, hPQ]⟩

theorem FatTable.MarkedAt.markedBy {ft ft' : FatTable} {cluster code : ℕ}
    (h : ft.MarkedAt ft' cluster code) : MarkedBy ft ft' fun c => cluster = c := by
  refine ⟨h.shape, fun c => ?_⟩
  rw [h.entry, Function.update_apply]
  split_ifs with hc
  · exact ⟨fun _ => .inr hc.symm, fun _ => h.marked⟩
  · exact ⟨.inl, fun hor => hor.resolve_right fun heq => hc heq.symm⟩

theorem markFragment_spec (ft : FatTable) (frag : ℕ) :
    Spec (fun _ => True) (markFragment ctx info frag) ft fun ok ft' =>
      ok = true → MarkedBy ft ft' (FragmentMarks ctx info frag) := by
  unfold markFragment
  refine spec_bind.mpr (Spec.lift (fun _ _ => trivial) fun flag hflag => ?_)
  refine Spec.ite (fun hfree => ?_) fun hfree => Spec.ite (fun hstatic => ?_) fun hstatic => ?_
  · refine spec_pure.mpr fun _ => (MarkedBy.none ft).congr fun c => ?_
    simp [FragmentMarks, hflag, hfree]
  · refine spec_pure.mpr fun _ => (MarkedBy.none ft).congr fun c => ?_
    simp [FragmentMarks, hstatic]
  · refine spec_bind.mpr (Spec.lift (fun _ _ => trivial) fun newClst hclst => ?_)
    refine spec_bind.mpr (Spec.lift (fun _ _ => trivial) fun _ _ => ?_)
    have hmarks (c : ℕ) : newClst = c ↔ FragmentMarks ctx info frag c := by
      simp [FragmentMarks, hflag, hfree, hstatic, hclst]
    refine Spec.ite (fun _ => ?_) fun _ => ?_
    · exact (fatTableSetBad_spec ft newClst).imp fun ok ft' h hok =>
        (h.2.2.1 hok).markedBy.congr hmarks
    · exact (fatTableSetEof_spec ft newClst).imp fun ok ft' h hok =>
        (h.2.2.1 hok).markedBy.congr hmarks

theorem markMetadata_spec (ft : FatTable) (sect : ℕ) :
    Spec (fun _ => True) (markMetadata ctx sect) ft fun ok ft' =>
      ok = true → MarkedBy ft ft' (MetadataMarks ctx sect) := by
  unfold markMetadata
  refine Spec.ite (fun hskip => ?_) fun hskip => ?_
  · refine spec_pure.mpr fun _ => (MarkedBy.none ft).congr fun c => ?_
    simp only [MetadataMarks, false_iff]
    rintro ⟨hmapped, hin, -⟩
    simp [hmapped, hin] at hskip
  · refine spec_bind.mpr (Spec.lift (fun _ _ => trivial) fun clst hclst => ?_)
    refine spec_bind.mpr (Spec.lift (fun _ _ => trivial) fun _ _ => ?_)
    refine (fatTableSetEof_spec ft clst).imp fun ok ft' h hok =>
      (h.2.2.1 hok).markedBy.congr fun c => ?_
    simp only [not_or, Bool.not_eq_true, Bool.not_eq_false'] at hskip
    simp [MetadataMarks, hskip.1, hskip.2, hclst]

/-- A loop in which each turn marks what it should marks all of it. -/
theorem allOf_markedBy {step : ℕ → TableM Bool} {P : ℕ → ℕ → Prop} (n : ℕ) (ft : FatTable)
    (hstep : ∀ i ft, Spec (fun _ => True) (step i) ft fun ok ft' =>
      ok = true → MarkedBy ft ft' (P i)) :
    Spec (fun _ => True) (allOf step (List.range' 0 n)) ft fun ok ft' =>
      ok = true → MarkedBy ft ft' fun c => ∃ i < n, P i c := by
  have hrun : Spec (fun _ => True) (allOf step (List.range' 0 n)) ft fun ok ft' =>
      ok = true → MarkedBy ft ft' fun c => ∃ i < 0 + n, P i c := Spec.allOf_range
    (I := fun k ft' => MarkedBy ft ft' fun c => ∃ i < k, P i c)
    (fun i ft' _ _ hft' => (hstep i ft').imp fun ok ft'' h hok =>
      (hft'.trans (h hok)).congr fun c => by
        simp only [Nat.lt_succ_iff_lt_or_eq, or_and_right, exists_or, exists_eq_left])
    ((MarkedBy.none ft).congr fun c => by simp)
  simpa using hrun

theorem markInitialFat_spec (ft₀ : FatTable) :
    Spec (fun _ => True) (markInitialFat ctx info) ft₀ fun ok ft => ok = true →
      ft.fatType = ft₀.fatType ∧ ft.clusterCount = ctx.newFs.clusterCount ∧
        ∀ c, ft.entry c ≠ 0 ↔ ft₀.entry c ≠ 0 ∨
          (∃ frag < ctx.oldFs.fragCount.toNat, FragmentMarks ctx info frag c) ∨
            ∃ sect < ctx.oldFs.clusterOffset, MetadataMarks ctx sect c := by
  refine (fatTableSetClusterCount_spec ft₀ _).seq fun _ ft₁ ⟨htype, _, hcount, _, hentry, _⟩ => ?_
  refine (allOf_markedBy _ ft₁ fun i ft => markFragment_spec ft i).seq fun ok ft₂ hfrags => ?_
  cases ok with
  | false => exact fun hfalse => absurd hfalse Bool.false_ne_true
  | true =>
    refine (allOf_markedBy _ ft₂ fun i ft => markMetadata_spec ft i).imp
      fun ok ft₃ hmeta hok => ?_
    obtain ⟨hshape, hmarked⟩ := (hfrags rfl).trans (hmeta hok)
    rw [hentry] at hmarked
    exact ⟨hshape.fatType.trans htype, hshape.clusterCount.trans hcount, hmarked⟩

/-- **The initial FAT, exactly.** -/
theorem initialFat_entry_iff {ft : FatTable}
    (h : fatOpContextCreateInitialFat ctx info = .ok (true, ft)) :
    ft.fatType = ctx.newFs.fatType ∧ ft.clusterCount = ctx.newFs.clusterCount ∧
      ft.entry 0 ≠ 0 ∧ ft.entry 1 ≠ 0 ∧
      ∀ c, 2 ≤ c → (ft.entry c ≠ 0 ↔
        (∃ frag < ctx.oldFs.fragCount.toNat, FragmentMarks ctx info frag c) ∨
          ∃ sect < ctx.oldFs.clusterOffset, MetadataMarks ctx sect c) := by
  unfold fatOpContextCreateInitialFat at h
  obtain ⟨ft₀, hnew, h⟩ := bind_eq_ok.mp h
  obtain ⟨hshape₀, -, h0, h1, hempty⟩ := fatTableNew_spec hnew
  obtain ⟨htype, hcount, hmarked⟩ := (markInitialFat_spec ft₀).of_ok h rfl
  refine ⟨htype.trans hshape₀.fatType, hcount, (hmarked 0).mpr (.inl h0),
    (hmarked 1).mpr (.inl h1), fun c hc => ?_⟩
  rw [hmarked, hempty c hc]
  simp

end InitialFat

/-! ## Sectors and marks -/

/-- `c` is the number of a cluster. -/
def FatSpecific.IsCluster (fs : FatSpecific) (c : ℕ) : Prop := 2 ≤ c ∧ c < fs.clusterCount + 2

/-- Sector `x` of the device lies in cluster `c`. -/
def FatSpecific.InCluster (fs : FatSpecific) (c : ℕ) (x : ℤ) : Prop :=
  fs.clusterStart c ≤ x ∧ x < fs.clusterStart c + fs.clusterSectors

/-- Sector `x` of the device lies in fragment `frag`. -/
def FatSpecific.InFragment (fs : FatSpecific) (frag x : ℤ) : Prop :=
  fs.fragStart frag ≤ x ∧ x < fs.fragStart frag + fs.fragSectors

/-- Different fragments have no sector in common. -/
theorem FatSpecific.fragment_disjoint {fs : FatSpecific} {p q x : ℤ} (hp : fs.InFragment p x)
    (hq : fs.InFragment q x) : p = q := by
  have hn : (0 : ℤ) ≤ fs.fragSectors := by positivity
  unfold FatSpecific.InFragment FatSpecific.fragStart at hp hq
  have h1 : p * fs.fragSectors < (q + 1) * fs.fragSectors := by linarith
  have h2 : q * fs.fragSectors < (p + 1) * fs.fragSectors := by linarith
  have := lt_of_mul_lt_mul_right h1 hn
  have := lt_of_mul_lt_mul_right h2 hn
  omega

/-- A fragment lies in the cluster that division gives, with all its sectors. -/
theorem inCluster_iff_div {fs : FatSpecific} {c : ℕ} {g x : ℤ}
    (hsectors : fs.clusterSectors = fs.clusterFrags * fs.fragSectors)
    (hgx : fs.InFragment g x) : fs.InCluster c x ↔ g / fs.clusterFrags = (c : ℤ) - 2 := by
  have hpos := fs.clusterSectors_pos
  have hk : (0 : ℤ) < fs.clusterFrags := by
    exact_mod_cast Nat.pos_of_ne_zero fun h => by simp [hsectors, h] at hpos
  have hn : (0 : ℤ) < fs.fragSectors := by
    exact_mod_cast Nat.pos_of_ne_zero fun h => by simp [hsectors, h] at hpos
  unfold FatSpecific.InCluster FatSpecific.clusterStart
  unfold FatSpecific.InFragment FatSpecific.fragStart at hgx
  rw [hsectors]
  push_cast
  have hlow := Int.le_ediv_iff_mul_le (a := (c : ℤ) - 2) (b := g) hk
  have hhigh := Int.ediv_lt_iff_lt_mul (a := g) (b := (c : ℤ) - 2 + 1) hk
  have hsame : g / fs.clusterFrags = (c : ℤ) - 2 ↔
      ((c : ℤ) - 2) * fs.clusterFrags ≤ g ∧ g < ((c : ℤ) - 2 + 1) * fs.clusterFrags := by
    rw [← hlow, ← hhigh]
    omega
  rw [hsame]
  constructor
  · rintro ⟨hleft, hright⟩
    constructor
    · have : ((c : ℤ) - 2) * fs.clusterFrags * fs.fragSectors < (g + 1) * fs.fragSectors := by
        linarith
      have := lt_of_mul_lt_mul_right this hn.le
      omega
    · refine lt_of_mul_lt_mul_right (a := (fs.fragSectors : ℤ)) ?_ hn.le
      linarith
  · rintro ⟨hleft, hright⟩
    have h1 := mul_le_mul_of_nonneg_right hleft hn.le
    have h2 := mul_le_mul_of_nonneg_right (Int.add_one_le_iff.mpr hright) hn.le
    constructor <;> linarith

theorem fatFragToCluster_eq_ok {fs : FatSpecific} {frag : ℤ} {c : ℕ} :
    fatFragToCluster fs frag = .ok c ↔
      0 ≤ frag ∧ frag < fs.fragCount ∧ frag / fs.clusterFrags = (c : ℤ) - 2 ∧ 2 ≤ c := by
  unfold fatFragToCluster pedAssert
  by_cases h : 0 ≤ frag ∧ frag < fs.fragCount
  · obtain ⟨m, rfl⟩ := Int.eq_ofNat_of_zero_le h.1
    have hcast : ((m : ℤ) / fs.clusterFrags) = (m / fs.clusterFrags : ℕ) := by norm_cast
    rw [hcast, if_pos (by simpa using h)]
    simp only [ok_bind, pure_eq_ok, Except.ok.injEq, Int.toNat_natCast]
    constructor
    · rintro rfl
      exact ⟨h.1, h.2, by omega, Nat.le_add_left 2 _⟩
    · rintro ⟨-, -, hdiv, -⟩
      omega
  · rw [if_neg (by simpa using h)]
    simp only [error_bind, reduceCtorEq, false_iff]
    tauto

/-- The fragment of a sector of the cluster area. -/
theorem exists_inFragment {fs : FatSpecific} {c : ℕ} {x : ℤ}
    (hsectors : fs.clusterSectors = fs.clusterFrags * fs.fragSectors)
    (hc : fs.IsCluster c) (hx : fs.InCluster c x) :
    ∃ g : ℤ, 0 ≤ g ∧ g < fs.clusterCount * fs.clusterFrags ∧ fs.InFragment g x := by
  have hpos := fs.clusterSectors_pos
  have hk : (0 : ℤ) < fs.clusterFrags := by
    exact_mod_cast Nat.pos_of_ne_zero fun h => by simp [hsectors, h] at hpos
  have hn : (0 : ℤ) < fs.fragSectors := by
    exact_mod_cast Nat.pos_of_ne_zero fun h => by simp [hsectors, h] at hpos
  set g := (x - fs.clusterOfs) / fs.fragSectors with hg
  have hin : fs.InFragment g x := by
    have h1 := Int.ediv_mul_le (x - fs.clusterOfs) hn.ne'
    have h2 := Int.lt_ediv_add_one_mul_self (x - fs.clusterOfs) hn
    unfold FatSpecific.InFragment FatSpecific.fragStart
    constructor <;> linarith
  have hdiv := (inCluster_iff_div hsectors hin).mp hx
  have h1 := Int.ediv_mul_le g hk.ne'
  have h2 := Int.lt_ediv_add_one_mul_self g hk
  rw [hdiv] at h1 h2
  refine ⟨g, ?_, ?_, hin⟩
  · have : 0 ≤ ((c : ℤ) - 2) * fs.clusterFrags := by
      have := hc.1
      exact mul_nonneg (by omega) hk.le
    linarith
  · have : ((c : ℤ) - 2 + 1) * fs.clusterFrags ≤ fs.clusterCount * fs.clusterFrags := by
      have := hc.2
      exact mul_le_mul_of_nonneg_right (by omega) hk.le
    linarith

section Marks

variable {ctx : FatOpContext} {info : ℕ → FatClusterInfo}

/-- Fragments with a common sector begin together. -/
theorem FatOpContext.Grid.fragStart_eq (hgrid : ctx.Grid) {frag g x : ℤ}
    (hold : ctx.oldFs.InFragment frag x) (hnew : ctx.newFs.InFragment g x) :
    ctx.oldFs.fragStart frag = ctx.newFs.fragStart g := by
  have hdvd : (ctx.fragSectors : ℤ) ∣ ctx.oldFs.fragStart frag - ctx.newFs.fragStart g := by
    have hofs : (ctx.fragSectors : ℤ) ∣ ctx.newFs.clusterOfs - ctx.oldFs.clusterOfs := by
      refine dvd_trans ?_ hgrid.aligned
      rw [hgrid.new_sectors]
      exact ⟨ctx.newFs.clusterFrags, by push_cast; ring⟩
    obtain ⟨k, hk⟩ := hofs
    refine ⟨frag - g - k, ?_⟩
    unfold FatSpecific.fragStart
    rw [hgrid.old_frag, hgrid.new_frag]
    linear_combination -hk
  have hlt : |ctx.oldFs.fragStart frag - ctx.newFs.fragStart g| < ctx.fragSectors := by
    obtain ⟨h1, h2⟩ := hold
    obtain ⟨h3, h4⟩ := hnew
    rw [hgrid.old_frag] at h2
    rw [hgrid.new_frag] at h4
    rw [abs_lt]
    omega
  have := Int.eq_zero_of_abs_lt_dvd hdvd hlt
  omega

/-- A fragment marks the new clusters it shares a sector with, unless it is free. -/
theorem fragmentMarks_iff (hgrid : ctx.Grid) {frag c : ℕ} {flag : FatClusterFlag}
    (hfrag : (frag : ℤ) < ctx.oldFs.fragCount)
    (hflag : fatGetFragmentFlag ctx.oldFs info frag = .ok flag) (hc : ctx.newFs.IsCluster c) :
    FragmentMarks ctx info frag c ↔
      flag ≠ .free ∧ ∃ x, ctx.oldFs.InFragment frag x ∧ ctx.newFs.InCluster c x := by
  have hsectors : ctx.newFs.clusterSectors = ctx.newFs.clusterFrags * ctx.newFs.fragSectors := by
    rw [hgrid.new_sectors, hgrid.new_frag]
  have hmove {g x : ℤ} (hstart : ctx.oldFs.fragStart frag = ctx.newFs.fragStart g) :
      ctx.oldFs.InFragment frag x ↔ ctx.newFs.InFragment g x := by
    rw [FatSpecific.InFragment, FatSpecific.InFragment, hstart, hgrid.old_frag, hgrid.new_frag]
  have hstatic := hgrid.static frag (by omega) hfrag
  simp only [FragmentMarks, hflag, Except.ok.injEq, exists_eq_left', fatFragToCluster_eq_ok]
  refine and_congr_right fun _ => ?_
  constructor
  · rintro ⟨hne, -, -, hdiv, -⟩
    obtain ⟨-, -, hstart⟩ := (hstatic _ hne).mp rfl
    have hfirst : ctx.oldFs.InFragment frag (ctx.oldFs.fragStart frag) :=
      ⟨le_rfl, by rw [hgrid.old_frag]; have := hgrid.frag_pos; omega⟩
    exact ⟨_, hfirst, (inCluster_iff_div hsectors ((hmove hstart).mp hfirst)).mpr hdiv⟩
  · rintro ⟨x, hold, hnew⟩
    obtain ⟨g, hg, hg', hin⟩ := exists_inFragment hsectors hc hnew
    have hstart := hgrid.fragStart_eq hold hin
    have hmap := (hstatic g (by omega)).mpr ⟨hg, by rw [hgrid.new_count]; exact hg', hstart⟩
    rw [hmap]
    exact ⟨by omega, hg, by rw [hgrid.new_count]; exact hg',
      (inCluster_iff_div hsectors hin).mp hnew, hc.1⟩

/-- The flag of a fragment, from that of its cluster. -/
theorem fatGetFragmentFlag_of_bad {b : ℕ} {frag : ℤ}
    (hb : ctx.oldFs.IsCluster b) (hfrag : 0 ≤ frag) (hfrag' : frag < ctx.oldFs.fragCount)
    (hdiv : frag / ctx.oldFs.clusterFrags = (b : ℤ) - 2) (hbad : (info b).flag = .bad) :
    fatGetFragmentFlag ctx.oldFs info frag = .ok .bad := by
  have hclst := fatFragToCluster_eq_ok.mpr ⟨hfrag, hfrag', hdiv, hb.1⟩
  simp [fatGetFragmentFlag, hclst, pedAssert, hb.1, hb.2, hbad]

/-- A sector of the metadata marks the new cluster it lies in, if its number counted from
the start of the partition is at least that start. -/
theorem metadataMarks_iff {sect c : ℕ} (hsect : sect < ctx.oldFs.clusterOffset)
    (hc : ctx.newFs.IsCluster c) :
    MetadataMarks ctx sect c ↔
      ctx.oldFs.geom.start ≤ sect ∧ ctx.newFs.InCluster c (ctx.oldFs.geom.start + sect) := by
  have hpos : (0 : ℤ) < ctx.newFs.clusterSectors := by exact_mod_cast ctx.newFs.clusterSectors_pos
  have hfits := ctx.newFs.fits
  have holdFits := ctx.oldFs.fits
  have hlast : (sect : ℤ) ≤ ctx.oldFs.geom.end := by
    have := ctx.oldFs.geom.start_nonneg
    have : (0 : ℤ) ≤ ctx.oldFs.clusterSectors * ctx.oldFs.clusterCount := by positivity
    unfold PedGeometry.end
    omega
  simp only [MetadataMarks, FatSpecific.InCluster, FatSpecific.clusterStart,
    FatSpecific.clusterOfs, fatIsSectorInClusters, Bool.and_eq_true, decide_eq_true_eq]
  constructor
  · rintro ⟨hne, ⟨hlow, hhigh⟩, hclst⟩
    obtain ⟨hstart, -, -, -, hsame⟩ := (pedGeometryMap_eq hne).mp rfl
    set r := pedGeometryMap ctx.newFs.geom ctx.oldFs.geom sect with hr
    rw [fatSectorToCluster, pedAssert, if_pos (by simpa using hlow)] at hclst
    simp only [ok_bind, pure_eq_ok, Except.ok.injEq] at hclst
    obtain ⟨y, hy⟩ := Int.eq_ofNat_of_zero_le (show 0 ≤ r - ctx.newFs.clusterOffset by omega)
    rw [hy, Int.toNat_natCast] at hclst
    have h1 := Int.ediv_mul_le (y : ℤ) hpos.ne'
    have h2 := Int.lt_ediv_add_one_mul_self (y : ℤ) hpos
    have hc2 : (y : ℤ) / ctx.newFs.clusterSectors = (c : ℤ) - 2 := by
      rw [← hclst]
      push_cast
      ring
    rw [hc2] at h1 h2
    refine ⟨hstart, by linarith, by linarith⟩
  · rintro ⟨hstart, hlow, hhigh⟩
    set r := ctx.oldFs.geom.start + sect - ctx.newFs.geom.start with hr
    obtain ⟨hc1, hc2⟩ := hc
    have hbelow : ((c : ℤ) - 2) * ctx.newFs.clusterSectors + ctx.newFs.clusterSectors
        ≤ ctx.newFs.clusterSectors * ctx.newFs.clusterCount := by
      have : ((c : ℤ) - 2 + 1) * ctx.newFs.clusterSectors
          ≤ ctx.newFs.clusterCount * ctx.newFs.clusterSectors :=
        mul_le_mul_of_nonneg_right (by omega) hpos.le
      linarith
    have habove : 0 ≤ ((c : ℤ) - 2) * ctx.newFs.clusterSectors :=
      mul_nonneg (by omega) hpos.le
    have hmap : pedGeometryMap ctx.newFs.geom ctx.oldFs.geom sect = r :=
      (pedGeometryMap_eq (by omega)).mpr ⟨hstart, hlast, by omega, by omega, by omega⟩
    rw [hmap]
    refine ⟨by omega, ⟨by omega, by omega⟩, ?_⟩
    rw [fatSectorToCluster, pedAssert, if_pos (by simp; omega)]
    simp only [ok_bind, pure_eq_ok, Except.ok.injEq]
    obtain ⟨y, hy⟩ := Int.eq_ofNat_of_zero_le (show 0 ≤ r - ctx.newFs.clusterOffset by omega)
    rw [hy, Int.toNat_natCast]
    have hdiv : y / ctx.newFs.clusterSectors = c - 2 := by
      refine Nat.div_eq_of_lt_le ?_ ?_
      · zify [hc1]
        linarith
      · zify [hc1]
        linarith
    omega

end Marks

/-! ## Protection -/

/-- Sector `x` of the device holds metadata of the file system: it lies in front of the
first cluster. -/
def FatSpecific.InMetadata (fs : FatSpecific) (x : ℤ) : Prop :=
  fs.geom.start ≤ x ∧ x < fs.clusterOfs

/-- The cluster is marked, and nothing that happens to the table makes an allocation
return it. -/
def Protected (ft : FatTable) (c : ℕ) : Prop :=
  ft.entry c ≠ 0 ∧ ∀ ft₁ ft₂, Marks ft ft₁ → fatTableAllocCluster ft₁ ≠ .ok (c, ft₂)

theorem protected_iff {ft : FatTable} {c : ℕ} (hc : 2 ≤ c) : Protected ft c ↔ ft.entry c ≠ 0 :=
  ⟨fun h => h.1, fun h => ⟨h, fun _ _ hmarks => hmarks.not_allocated h (by omega)⟩⟩

section Protection

variable {ctx : FatOpContext} {info : ℕ → FatClusterInfo} {ft : FatTable}

/-- A fragment that is not free is protected. -/
theorem marked_of_fragment (hgrid : ctx.Grid)
    (h : fatOpContextCreateInitialFat ctx info = .ok (true, ft)) {c : ℕ} {frag x : ℤ}
    {flag : FatClusterFlag} (hflag : fatGetFragmentFlag ctx.oldFs info frag = .ok flag)
    (hfree : flag ≠ .free) (hx : ctx.oldFs.InFragment frag x) (hc : ctx.newFs.IsCluster c)
    (hxc : ctx.newFs.InCluster c x) : ft.entry c ≠ 0 := by
  obtain ⟨b, hb, -⟩ := bind_eq_ok.mp hflag
  obtain ⟨hfrag, hfrag', -⟩ := fatFragToCluster_eq_ok.mp hb
  obtain ⟨m, rfl⟩ := Int.eq_ofNat_of_zero_le hfrag
  obtain ⟨-, -, -, -, hmarked⟩ := initialFat_entry_iff h
  rw [hmarked c hc.1]
  exact .inl ⟨m, by omega, (fragmentMarks_iff hgrid hfrag' hflag hc).mpr ⟨hfree, x, hx, hxc⟩⟩

/-- The first cluster of the old file system begins with a cluster of the new one, so
that no new cluster has sectors on both sides of it. -/
theorem FatOpContext.Grid.not_straddles (hgrid : ctx.Grid) {c : ℕ} {x y : ℤ}
    (hx : ctx.newFs.InCluster c x) (hy : ctx.newFs.InCluster c y) (hlt : x < ctx.oldFs.clusterOfs) :
    y < ctx.oldFs.clusterOfs := by
  obtain ⟨k, hk⟩ := hgrid.aligned
  have hpos : (0 : ℤ) < ctx.newFs.clusterSectors := by exact_mod_cast ctx.newFs.clusterSectors_pos
  unfold FatSpecific.InCluster FatSpecific.clusterStart at hx hy
  have hbelow : ((c : ℤ) - 2) * ctx.newFs.clusterSectors < -k * ctx.newFs.clusterSectors := by
    linarith [mul_comm (ctx.newFs.clusterSectors : ℤ) k]
  have hstep : ((c : ℤ) - 2 + 1) * ctx.newFs.clusterSectors ≤ -k * ctx.newFs.clusterSectors :=
    mul_le_mul_of_nonneg_right
      (Int.add_one_le_iff.mpr (lt_of_mul_lt_mul_right hbelow hpos.le)) hpos.le
  linarith [mul_comm (ctx.newFs.clusterSectors : ℤ) k]

/-- Which clusters with old metadata are marked. -/
theorem marked_of_metadata_iff (hgrid : ctx.Grid)
    (h : fatOpContextCreateInitialFat ctx info = .ok (true, ft)) {c : ℕ} {x : ℤ}
    (hc : ctx.newFs.IsCluster c) (hxc : ctx.newFs.InCluster c x) (hx : ctx.oldFs.InMetadata x) :
    ft.entry c ≠ 0 ↔ ∃ y, ctx.newFs.InCluster c y ∧ ctx.oldFs.InMetadata y ∧
      ctx.oldFs.geom.start ≤ y - ctx.oldFs.geom.start := by
  obtain ⟨-, -, -, -, hmarked⟩ := initialFat_entry_iff h
  rw [hmarked c hc.1]
  constructor
  · rintro (⟨frag, hfrag, hmarks⟩ | ⟨sect, hsect, hmarks⟩)
    · -- a fragment has no sector in front of the first cluster
      obtain ⟨flag, hflag, -⟩ := id hmarks
      obtain ⟨-, y, hy, hyc⟩ := (fragmentMarks_iff hgrid (by omega) hflag hc).mp hmarks
      have hlt := hgrid.not_straddles hxc hyc hx.2
      have hge := hy.1
      have : 0 ≤ (frag : ℤ) * ctx.oldFs.fragSectors := by positivity
      unfold FatSpecific.fragStart at hge
      omega
    · obtain ⟨hstart, hin⟩ := (metadataMarks_iff hsect hc).mp hmarks
      refine ⟨ctx.oldFs.geom.start + sect, hin, ⟨by omega, ?_⟩, by omega⟩
      unfold FatSpecific.clusterOfs
      omega
  · rintro ⟨y, hyc, ⟨hlow, hhigh⟩, hstart⟩
    obtain ⟨sect, hsect⟩ := Int.eq_ofNat_of_zero_le (show 0 ≤ y - ctx.oldFs.geom.start by omega)
    unfold FatSpecific.clusterOfs at hhigh
    have hlt : sect < ctx.oldFs.clusterOffset := by omega
    refine .inr ⟨sect, hlt, (metadataMarks_iff hlt hc).mpr ⟨by omega, ?_⟩⟩
    rwa [← hsect, add_sub_cancel]

end Protection

/-- **What the initial FAT protects.**  Bad clusters and fragments in use always; the old
metadata exactly if every new cluster that holds some of it holds a sector of it whose
number, counted from the start of the old partition, is at least that start. -/
theorem initialFat_protects_iff (oldFs newFs : FatSpecific) (ctx : FatOpContext)
    (info : ℕ → FatClusterInfo) (ft : FatTable)
    (hctx : fatOpContextNew newFs oldFs = .ok (some ctx)) (hrep : ctx.Representable)
    (h : fatOpContextCreateInitialFat ctx info = .ok (true, ft)) :
    (∀ c x, ctx.newFs.IsCluster c → ctx.newFs.InCluster c x →
      (∃ b, ctx.oldFs.IsCluster b ∧ (info b).flag = .bad ∧ ctx.oldFs.InCluster b x) →
        Protected ft c) ∧
    (∀ c x, ctx.newFs.IsCluster c → ctx.newFs.InCluster c x →
      (∃ frag, fatIsFragmentActive ctx.oldFs info frag = .ok true ∧
        ctx.oldFs.InFragment frag x) → Protected ft c) ∧
    ((∀ c x, ctx.newFs.IsCluster c → ctx.newFs.InCluster c x → ctx.oldFs.InMetadata x →
        Protected ft c) ↔
      ∀ c x, ctx.newFs.IsCluster c → ctx.newFs.InCluster c x → ctx.oldFs.InMetadata x →
        ∃ y, ctx.newFs.InCluster c y ∧ ctx.oldFs.InMetadata y ∧
          ctx.oldFs.geom.start ≤ y - ctx.oldFs.geom.start) := by
  have hgrid := grid_of_context hctx hrep
  refine ⟨?_, ?_, ?_⟩
  · rintro c x hc hxc ⟨b, hb, hbad, hxb⟩
    have hsectors : ctx.oldFs.clusterSectors
        = ctx.oldFs.clusterFrags * ctx.oldFs.fragSectors := by
      rw [hgrid.old_sectors, hgrid.old_frag]
    obtain ⟨frag, hfrag, hfrag', hin⟩ := exists_inFragment hsectors hb hxb
    have hflag := fatGetFragmentFlag_of_bad hb hfrag (by rw [hgrid.old_count]; exact hfrag')
      ((inCluster_iff_div hsectors hin).mp hxb) hbad
    exact (protected_iff hc.1).mpr (marked_of_fragment hgrid h hflag (by decide) hin hc hxc)
  · rintro c x hc hxc ⟨frag, hactive, hin⟩
    obtain ⟨flag, hflag, hcode⟩ := bind_eq_ok.mp hactive
    have hfree : flag ≠ .free := by
      rintro rfl
      simp at hcode
    exact (protected_iff hc.1).mpr (marked_of_fragment hgrid h hflag hfree hin hc hxc)
  · constructor
    · intro hall c x hc hxc hx
      exact (marked_of_metadata_iff hgrid h hc hxc hx).mp (hall c x hc hxc hx).1
    · intro hall c x hc hxc hx
      exact (protected_iff hc.1).mpr
        ((marked_of_metadata_iff hgrid h hc hxc hx).mpr (hall c x hc hxc hx))

/-- A FAT16 file system with one-sector clusters and four sectors of metadata. -/
def smallFs (start : ℤ) (hstart : 0 ≤ start) (clusterCount : ℕ) : FatSpecific where
  geom := ⟨start, 4 + clusterCount, hstart, by omega⟩
  fatType := .fat16
  fatSectors := 1
  clusterOffset := 4
  clusterSectors := 1
  clusterCount := clusterCount
  fragSectors := 1
  clusterFrags := 1
  fragCount := clusterCount
  clusterSectors_pos := Nat.one_pos
  fits := by push_cast; omega

/-- The theorem where the file system grows to the right: the fourth cluster is bad, and
the new cluster there is protected. -/
theorem initialFat_protects_sample :
    ∃ ctx ft, fatOpContextNew (smallFs 2 (by decide) 8) (smallFs 0 (by decide) 8) = .ok (some ctx) ∧
      ctx.Representable ∧
      fatOpContextCreateInitialFat ctx (fun c => ⟨0, if c = 5 then .bad else .free⟩)
        = .ok (true, ft) ∧
      Protected ft 3 := by
  set newFs := smallFs 2 (by decide) 8 with hnew
  set oldFs := smallFs 0 (by decide) 8 with hold
  set info : ℕ → FatClusterInfo := fun c => ⟨0, if c = 5 then .bad else .free⟩ with hinfo
  set ctx : FatOpContext := ⟨oldFs.withFrags 1, newFs.withFrags 1, 1, .forward, 2, 1024⟩ with hctx
  have hrun : fatOpContextNew newFs oldFs = .ok (some ctx) :=
    eq_ok_of_toOption (by decide +kernel)
  have hrep : ctx.Representable := ⟨by decide +kernel, by decide +kernel⟩
  obtain ⟨⟨ok, ft⟩, hft, hok⟩ : ∃ r, fatOpContextCreateInitialFat ctx info = .ok r ∧ r.1 = true :=
    exists_ok_of_map (by decide +kernel)
  cases ok with
  | false => cases hok
  | true =>
    refine ⟨ctx, ft, hrun, hrep, hft, ?_⟩
    refine (initialFat_protects_iff oldFs newFs ctx info ft hrun hrep hft).1 3 7
      ⟨by decide +kernel, by decide +kernel⟩ ⟨by decide +kernel, by decide +kernel⟩
      ⟨5, ⟨by decide +kernel, by decide +kernel⟩, rfl, by decide +kernel, by decide +kernel⟩

/-- A file system that grows to the left: the old partition starts at sector 8, in the
first cluster of the new one, and the next allocation returns that cluster. -/
theorem initialFat_protects_fails :
    ∃ ctx ft ft', fatOpContextNew (smallFs 4 (by decide) 12) (smallFs 8 (by decide) 8)
        = .ok (some ctx) ∧
      fatOpContextCreateInitialFat ctx (fun _ => ⟨0, .free⟩) = .ok (true, ft) ∧
      ctx.newFs.IsCluster 2 ∧ ctx.newFs.InCluster 2 8 ∧ ctx.oldFs.InMetadata 8 ∧
      fatTableAllocCluster ft = .ok (2, ft') := by
  set newFs := smallFs 4 (by decide) 12 with hnew
  set oldFs := smallFs 8 (by decide) 8 with hold
  set ctx : FatOpContext := ⟨oldFs.withFrags 1, newFs.withFrags 1, 1, .backward, 4, 1024⟩ with hctx
  have hrun : fatOpContextNew newFs oldFs = .ok (some ctx) :=
    eq_ok_of_toOption (by decide +kernel)
  obtain ⟨⟨ok, ft⟩, hft, hok⟩ :
      ∃ r, fatOpContextCreateInitialFat ctx (fun _ => ⟨0, .free⟩) = .ok r ∧
        (r.1, (fatTableAllocCluster r.2).toOption.map Prod.fst) = (true, some 2) :=
    exists_ok_of_map (by decide +kernel)
  obtain ⟨rfl, halloc⟩ := Prod.mk.inj hok
  obtain ⟨⟨c, ft'⟩, hft', rfl⟩ := exists_ok_of_map halloc
  exact ⟨ctx, ft, ft', hrun, hft, ⟨by decide +kernel, by decide +kernel⟩,
    ⟨by decide +kernel, by decide +kernel⟩, ⟨by decide +kernel, by decide +kernel⟩, hft'⟩

end Libparted.Fat
