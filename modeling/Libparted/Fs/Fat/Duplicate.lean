import Libparted.Fs.Fat.Context

/-!
# Moving clusters (`libparted/fs/r/fat/clstdup.c`)

`fat_duplicate_clusters` copies what cannot stay where it is: the fragments of files
that are not part of the new file system, and all fragments of directories.  It works
through the old file system one buffer at a time.  A window of fragments is read; for
each of those to be copied a new cluster is allocated and marked; then runs of new
clusters that fit into a buffer are written in one go.  Such a run may include
clusters that belong to somebody else.  Their contents, the *underlay*, are read first
and written back.

If the write of a run fails, `slow_group_write` writes its fragments one by one.  A
fragment that cannot be written is to be moved to another cluster.  There
`fat_table_set_bad` and `fat_table_alloc_cluster` are used with cluster numbers and
fragment numbers as if these were the same: the cluster marked bad is two in front of
the one that failed, and the data go two behind the one allocated, which is not
marked.

The device is a function from sectors to their contents.  Reads do not fail on the
device.  What happens to the writes is given in advance by two lists of outcomes, one
for the writes of runs and one for the writes of single fragments; behind the end of a
list everything succeeds.  The source syncs after each write, and a sync that fails
counts as a failed write.  During the write of a run exceptions are not put to the
user.  `count_frags_to_dup` serves the progress timer only and is left out.
-/

namespace Libparted.Fat

open Library

/-! ## Device and buffers -/

/-- What becomes of a write: all of it is done; it fails after some of its sectors have
been written and returns 0; or it fails in this way, the user says `Ignore`, and it
returns 1. -/
inductive Outcome where
  | done
  | failed (written : ℤ → Bool)
  | ignored (written : ℤ → Bool)

/-- Which sectors of a write reach the device. -/
def Outcome.written : Outcome → ℤ → Bool
  | .done => fun _ => true
  | .failed w => w
  | .ignored w => w

/-- What the write returns, when exceptions are fetched or put to the user. -/
def Outcome.status (fetchAll : Bool) : Outcome → Bool
  | .done => true
  | .failed _ => false
  | .ignored _ => !fetchAll

variable {β : Type}

/-- The state of a duplication: the mutable part of the `FatOpContext`, the FAT and the
buffer of the new file system, the buffer of the old one, the device with the writes to
come, and a record of the fragments at which a single write has failed. -/
structure Duplication (β : Type) where
  fat : FatTable
  disk : ℤ → β
  remap : ℕ → ℤ
  bufferMap : ℕ → ℤ
  bufferOffset : ℕ
  fragsDuped : ℕ
  oldBuffer : ℕ → β
  newBuffer : ℕ → β
  groupWrites : List Outcome
  singleWrites : List Outcome
  failures : List ℤ

/-- Programs on this state. -/
abbrev DupM (β α : Type) : Type := Prog Fault (Duplication β) α

/-- An operation on the new FAT. -/
def onFat {α : Type} (x : TableM α) : DupM β α := fun s =>
  match x s.fat with
  | .ok (a, fat) => .ok (a, { s with fat })
  | .error e => .error e

/-- `count` sectors of a buffer replaced from `pos` on. -/
def storeAt (buffer : ℕ → β) (pos count : ℕ) (data : ℕ → β) : ℕ → β := fun k =>
  if pos ≤ k ∧ k < pos + count then data (k - pos) else buffer k

/-- Those of the sectors from `start` on replaced that are written. -/
def writeSectors (disk : ℤ → β) (start count : ℤ) (data : ℕ → β) (written : ℤ → Bool) :
    ℤ → β := fun x =>
  if start ≤ x ∧ x < start + count ∧ written x then data (x - start).toNat else disk x

/-- `ped_geometry_read`: the sectors read, `none` if the range is not in the geometry. -/
def pedGeometryRead (geom : PedGeometry) (disk : ℤ → β) (offset count : ℤ) :
    Except Fault (Option (ℕ → β)) := do
  pedAssert (offset ≥ 0) "offset >= 0"
  pedAssert (count ≥ 0) "count >= 0"
  if geom.start + offset + count - 1 > geom.end then return none
  return some fun i => disk (geom.start + offset + i)

/-- `fat_read_fragments`. -/
def fatReadFragments (fs : FatSpecific) (disk : ℤ → β) (frag count : ℤ) :
    Except Fault (Option (ℕ → β)) := do
  let sector ← fatFragToSector fs frag
  pedGeometryRead fs.geom disk sector (count * fs.fragSectors)

/-- The sectors a write of fragments covers, or `none` if they are not in the geometry:
`fat_write_fragments` up to the call of `ped_device_write`. -/
def writeRange (fs : FatSpecific) (frag count : ℤ) : Except Fault (Option (ℤ × ℤ)) := do
  let sector ← fatFragToSector fs frag
  pedAssert (sector ≥ 0) "offset >= 0"
  pedAssert (count * fs.fragSectors ≥ 0) "count >= 0"
  if fs.geom.start + sector + count * fs.fragSectors - 1 > fs.geom.end then return none
  return some (fs.geom.start + sector, count * fs.fragSectors)

/-- `fat_write_sync_fragments` in the fast path.  Outside of the geometry an exception is
thrown, which nobody sees. -/
def writeGroup (fs : FatSpecific) (data : ℕ → β) (frag count : ℤ) : DupM β Bool := do
  match ← liftM (writeRange fs frag count) with
  | none => return false
  | some (start, sectors) =>
    let s ← get
    let outcome := s.groupWrites.headD .done
    set { s with
      disk := writeSectors s.disk start sectors data outcome.written
      groupWrites := s.groupWrites.tail }
    return outcome.status true

/-- `fat_write_sync_fragment` in the slow path.  The exception outside of the geometry is
answered with `Ignore`. -/
def writeSingle (fs : FatSpecific) (data : ℕ → β) (frag : ℤ) : DupM β Bool := do
  match ← liftM (writeRange fs frag 1) with
  | none => return true
  | some (start, sectors) =>
    let s ← get
    let outcome := s.singleWrites.headD .done
    set { s with
      disk := writeSectors s.disk start sectors data outcome.written
      singleWrites := s.singleWrites.tail
      failures :=
        match outcome with
        | .done => s.failures
        | _ => frag :: s.failures }
    return outcome.status false

/-! ## Reading a window -/

/-- `needs_duplicating`. -/
def needsDuplicating (ctx : FatOpContext) (info : ℕ → FatClusterInfo) (frag : ℕ) :
    Except Fault Bool := do
  let cluster ← fatFragToCluster ctx.oldFs frag
  pedAssert (2 ≤ cluster && cluster < ctx.oldFs.clusterCount + 2)
    "cluster >= 2 && cluster < old_fs_info->cluster_count + 2"
  match ← fatGetFragmentFlag ctx.oldFs info frag with
  | .free => return false
  | .directory => return true
  | .file => return fatOpContextMapStaticFragment ctx frag = -1
  | .bad => return false

/-- The loop of `search_next_fragment`, with at most that many fragments left. -/
def searchFrom (ctx : FatOpContext) (info : ℕ → FatClusterInfo) : ℕ → ℕ → Except Fault (ℕ × Bool)
  | 0, offset => .ok (offset, false)
  | n + 1, offset => do
    if ← needsDuplicating ctx info offset then return (offset, true)
    else searchFrom ctx info n (offset + 1)

/-- `search_next_fragment`. -/
def searchNextFragment (ctx : FatOpContext) (info : ℕ → FatClusterInfo) : DupM β Bool := do
  let s ← get
  let (offset, found) ←
    liftM (searchFrom ctx info (ctx.oldFs.fragCount.toNat - s.bufferOffset) s.bufferOffset)
  set { s with bufferOffset := offset }
  return found

/-- One turn of the fallback of `read_marked_fragments`.  The test is on the value of the
map, and `-1` passes it. -/
def readMarkedFragment (ctx : FatOpContext) (i : ℕ) : DupM β Bool := do
  let s ← get
  if s.bufferMap i = 0 then return true
  match ← liftM (fatReadFragments ctx.oldFs s.disk (s.bufferOffset + i : ℕ) 1) with
  | none => return false
  | some data =>
    set { s with
      oldBuffer := storeAt s.oldBuffer (i * ctx.fragSectors) ctx.fragSectors data }
    return true

/-- `read_marked_fragments`. -/
def readMarkedFragments (ctx : FatOpContext) (length : ℕ) : DupM β Bool := do
  let s ← get
  match ← liftM (fatReadFragments ctx.oldFs s.disk s.bufferOffset length) with
  | some data =>
    set { s with oldBuffer := storeAt s.oldBuffer 0 (length * ctx.fragSectors) data }
    return true
  | none => allOf (readMarkedFragment ctx) (List.range' 0 length)

/-- The second loop of `fetch_fragments`: the map and the length to fetch. -/
def markFetched (ctx : FatOpContext) (info : ℕ → FatClusterInfo) (offset : ℕ) :
    List ℕ → (ℕ → ℤ) × ℕ → Except Fault ((ℕ → ℤ) × ℕ)
  | [], acc => .ok acc
  | frag :: frags, (map, fetchLength) => do
    if ← needsDuplicating ctx info (offset + frag) then
      markFetched ctx info offset frags (Function.update map frag 1, frag + 1)
    else markFetched ctx info offset frags (map, fetchLength)

/-- `fetch_fragments`. -/
def fetchFragments (ctx : FatOpContext) (info : ℕ → FatClusterInfo) : DupM β Bool := do
  let s ← get
  let count := min ctx.bufferFrags (ctx.oldFs.fragCount.toNat - s.bufferOffset)
  let (map, fetchLength) ←
    liftM (markFetched ctx info s.bufferOffset (List.range' 0 count) (fun _ => -1, 0))
  set { s with bufferMap := map }
  readMarkedFragments ctx fetchLength

/-! ## Writing a run -/

/-- The loop of `get_first_underlay` and, with step `-1`, of `get_last_underlay`, over the
entries of the map that are not `-1`: the first value that is skipped. -/
def gapFrom (step : ℤ) : ℤ → List ℤ → ℤ
  | _, [] => -1
  | new, m :: ms => if m ≠ new + step then new + step else gapFrom step (new + step) ms

/-- `get_first_underlay`. -/
def getFirstUnderlay (map : ℕ → ℤ) (first last : ℕ) : ℤ :=
  gapFrom 1 (map first)
    (((List.range' (first + 1) (last - first)).map map).filter fun m => m ≠ -1)

/-- `get_last_underlay`. -/
def getLastUnderlay (map : ℕ → ℤ) (first last : ℕ) : ℤ :=
  gapFrom (-1) (map last)
    (((List.range' first (last - first)).reverse.map map).filter fun m => m ≠ -1)

/-- `quick_group_write_read_underlay`. -/
def quickGroupWriteReadUnderlay (ctx : FatOpContext) (first last : ℕ) : DupM β Bool := do
  let s ← get
  let firstUnderlay := getFirstUnderlay s.bufferMap first last
  if firstUnderlay = -1 then return true
  let lastUnderlay := getLastUnderlay s.bufferMap first last
  pedAssert (firstUnderlay ≤ lastUnderlay) "first_underlay <= last_underlay"
  let underlayLength := lastUnderlay - firstUnderlay + 1
  match ← liftM (fatReadFragments ctx.newFs s.disk firstUnderlay underlayLength) with
  | none => return false
  | some data =>
    set { s with
      newBuffer := storeAt s.newBuffer
        ((firstUnderlay - s.bufferMap first).toNat * ctx.fragSectors)
        (underlayLength.toNat * ctx.fragSectors) data }
    return true

/-- The copy loop of `quick_group_write`: fragments of the old buffer into the new one. -/
def copyFragments (fragSectors : ℕ) (map : ℕ → ℤ) (first : ℕ) (oldBuffer : ℕ → β) :
    List ℕ → (ℕ → β) → ℕ → β
  | [], newBuffer => newBuffer
  | i :: is, newBuffer =>
    if map i = -1 then copyFragments fragSectors map first oldBuffer is newBuffer
    else
      copyFragments fragSectors map first oldBuffer is
        (storeAt newBuffer ((map i - map first).toNat * fragSectors) fragSectors
          fun k => oldBuffer (i * fragSectors + k))

/-- `quick_group_write`. -/
def quickGroupWrite (ctx : FatOpContext) (first last : ℕ) : DupM β Bool := do
  pedAssert (first ≤ last) "first <= last"
  if ← quickGroupWriteReadUnderlay ctx first last then
    let s ← get
    let newBuffer := copyFragments ctx.fragSectors s.bufferMap first s.oldBuffer
      (List.range' first (last + 1 - first)) s.newBuffer
    set { s with newBuffer }
    writeGroup ctx.newFs newBuffer (s.bufferMap first) (s.bufferMap last - s.bufferMap first + 1)
  else return false

/-- The `while` loop of `slow_group_write`.  The fragment number is used as a cluster number
in one place, and the cluster number as a fragment number in the other. -/
def slowWriteFragment (ctx : FatOpContext) (i : ℕ) : ℕ → DupM β Bool
  | 0 => throw .outOfFuel
  | n + 1 => do
    let s ← get
    if ← writeSingle ctx.newFs (fun k => s.oldBuffer (i * ctx.fragSectors + k)) (s.bufferMap i) then
      return true
    else
      let _ ← onFat (fatTableSetBad (s.bufferMap i).toNat)
      let cluster ← onFat fatTableAllocCluster
      modify fun s => { s with bufferMap := Function.update s.bufferMap i cluster }
      if cluster = 0 then return false
      slowWriteFragment ctx i n

/-- One turn of the `for` loop of `slow_group_write`. -/
def slowWrite (ctx : FatOpContext) (i : ℕ) : DupM β Bool := do
  let s ← get
  if s.bufferMap i = -1 then return true
  -- each failure uses up an outcome
  slowWriteFragment ctx i (s.singleWrites.length + 1)

/-- `slow_group_write`. -/
def slowGroupWrite (ctx : FatOpContext) (first last : ℕ) : DupM β Bool := do
  pedAssert (first ≤ last) "first <= last"
  allOf (slowWrite ctx) (List.range' first (last + 1 - first))

/-- `update_remap`. -/
def updateRemap (first last : ℕ) : DupM β Unit :=
  modify fun s =>
    { s with
      remap := fun f =>
        if s.bufferOffset + first ≤ f ∧ f ≤ s.bufferOffset + last
            ∧ s.bufferMap (f - s.bufferOffset) ≠ -1 then s.bufferMap (f - s.bufferOffset)
        else s.remap f }

/-- `group_write`. -/
def groupWrite (ctx : FatOpContext) (first last : ℕ) : DupM β Bool := do
  if ← quickGroupWrite ctx first last then
    updateRemap first last
    return true
  else if ← slowGroupWrite ctx first last then
    updateRemap first last
    return true
  else return false

/-! ## The main loops -/

/-- The loop of `write_fragments`: `group_start` and `group_end`, `none` while there is no
group.  The result is `none` if the function returns 0. -/
def writeLoop (ctx : FatOpContext) :
    List ℕ → Option (ℕ × ℕ) → DupM β (Option (Option (ℕ × ℕ)))
  | [], group => return some group
  | i :: is, group => do
    if (← get).bufferMap i = -1 then writeLoop ctx is group
    else
      modify fun s => { s with fragsDuped := s.fragsDuped + 1 }
      let newCluster ← onFat fatTableAllocCluster
      if newCluster = 0 then return none
      let _ ← onFat (fatTableSetEof newCluster)
      let newFrag ← liftM (fatClusterToFrag ctx.newFs newCluster)
      modify fun s => { s with bufferMap := Function.update s.bufferMap i newFrag }
      let (groupStart, groupEnd) := group.getD (i, i)
      let start := (← get).bufferMap groupStart
      pedAssert (newFrag ≥ start) "ctx->buffer_map [i] >= ctx->buffer_map [group_start]"
      if newFrag - start + 1 ≤ ctx.bufferFrags then writeLoop ctx is (some (groupStart, i))
      else if ← groupWrite ctx groupStart groupEnd then writeLoop ctx is (some (i, i))
      else return none

/-- `write_fragments`. -/
def writeFragments (ctx : FatOpContext) : DupM β Bool := do
  pedAssert ((← get).bufferOffset < ctx.oldFs.fragCount)
    "ctx->buffer_offset < old_fs_info->frag_count"
  match ← writeLoop ctx (List.range' 0 ctx.bufferFrags) none with
  | none => return false
  | some none => throw (.assertion "group_start != -1")
  | some (some (groupStart, groupEnd)) => groupWrite ctx groupStart groupEnd

/-- The `while` loop of `fat_duplicate_clusters`. -/
def duplicateLoop (ctx : FatOpContext) (info : ℕ → FatClusterInfo) : ℕ → DupM β Bool
  | 0 => throw .outOfFuel
  | n + 1 => do
    if ← searchNextFragment ctx info then
      if ← fetchFragments ctx info then
        if ← writeFragments ctx then
          modify fun s => { s with bufferOffset := s.bufferOffset + ctx.bufferFrags }
          duplicateLoop ctx info n
        else return false
      else return false
    else return true

/-- `fat_duplicate_clusters`, with `init_remap`.  Each turn of the loop takes the offset
further, so that there are no more turns than fragments. -/
def fatDuplicateClusters (ctx : FatOpContext) (info : ℕ → FatClusterInfo) : DupM β Bool := do
  modify fun s =>
    { s with
      remap := fun i => fatOpContextMapStaticFragment ctx i
      bufferOffset := 0
      fragsDuped := 0 }
  duplicateLoop ctx info (ctx.oldFs.fragCount.toNat + 1)

/-! ## The underlay of a run -/

/-- What the search for a gap finds in a list that is strictly monotone in the direction
of its step. -/
theorem gapFrom_spec {d : ℤ} (hd : d = 1 ∨ d = -1) {new : ℤ} {ms : List ℤ} (hnew : 0 ≤ new)
    (hms : ∀ m ∈ ms, 0 ≤ m) (hsorted : (new :: ms).Pairwise fun a b => d * a < d * b) :
    (gapFrom d new ms = -1 →
      ∀ p, d * new < d * p → (∃ m ∈ ms, d * p ≤ d * m) → p ∈ ms) ∧
    (gapFrom d new ms ≠ -1 → d * new < d * gapFrom d new ms ∧ gapFrom d new ms ∉ ms ∧
      (∃ m ∈ ms, d * gapFrom d new ms < d * m) ∧
      ∀ p, d * new < d * p → d * p < d * gapFrom d new ms → p ∈ ms) := by
  induction ms generalizing new with
  | nil => simp [gapFrom]
  | cons m ms ih =>
    obtain ⟨hlt, htail⟩ := List.pairwise_cons.mp hsorted
    have hm := hlt m List.mem_cons_self
    have hm0 := hms m List.mem_cons_self
    rw [gapFrom]
    split_ifs with hgap
    · have hbefore : d * (new + d) < d * m := by rcases hd with rfl | rfl <;> omega
      refine ⟨?_, fun _ => ⟨?_, fun hmem => ?_, ⟨m, List.mem_cons_self, hbefore⟩, ?_⟩⟩
      · rcases hd with rfl | rfl <;> intro h <;> omega
      · rcases hd with rfl | rfl <;> omega
      · rcases List.mem_cons.mp hmem with heq | htl
        · exact hgap heq.symm
        · have := (List.pairwise_cons.mp htail).1 _ htl
          omega
      · intro p hp hp'
        rcases hd with rfl | rfl <;> omega
    · obtain rfl : m = new + d := by simpa using hgap
      obtain ⟨hnone, hsome⟩ :=
        ih hm0 (fun m' hm' => hms m' (List.mem_cons_of_mem _ hm')) htail
      -- the step itself is in the list; beyond it the hypothesis applies
      have hnext {p : ℤ} (hp : d * new < d * p) (hne : p ≠ new + d) : d * (new + d) < d * p := by
        rcases hd with rfl | rfl <;> omega
      constructor
      · rintro h p hp ⟨q, hq, hpq⟩
        rcases eq_or_ne p (new + d) with rfl | hne
        · exact List.mem_cons_self
        · refine List.mem_cons_of_mem _ (hnone h p (hnext hp hne) ⟨q, ?_, hpq⟩)
          refine (List.mem_cons.mp hq).resolve_left ?_
          rintro rfl
          exact absurd (hnext hp hne) (by omega)
      · intro h
        obtain ⟨h1, h2, ⟨q, hq, hlt'⟩, h4⟩ := hsome h
        refine ⟨by omega, ?_, ⟨q, List.mem_cons_of_mem _ hq, hlt'⟩, fun p hp hp' => ?_⟩
        · rw [List.mem_cons, not_or]
          exact ⟨fun heq => by rw [heq] at h1; omega, h2⟩
        · rcases eq_or_ne p (new + d) with rfl | hne
          · exact List.mem_cons_self
          · exact List.mem_cons_of_mem _ (h4 p (hnext hp hne) hp')

/-- A stretch of the map that can be written in one go: it begins and ends with a
fragment, and the targets increase. -/
structure IsRun (map : ℕ → ℤ) (first last : ℕ) : Prop where
  le : first ≤ last
  first_ne : map first ≠ -1
  last_ne : map last ≠ -1
  nonneg : ∀ i, first ≤ i → i ≤ last → map i ≠ -1 → 0 ≤ map i
  increasing : ∀ i j, first ≤ i → i < j → j ≤ last → map i ≠ -1 → map j ≠ -1 → map i < map j

/-- Fragment `p` is a target of the run. -/
def Targeted (map : ℕ → ℤ) (first last : ℕ) (p : ℤ) : Prop :=
  ∃ i, first ≤ i ∧ i ≤ last ∧ map i = p ∧ p ≠ -1

namespace IsRun

variable {map : ℕ → ℤ} {first last : ℕ} (hrun : IsRun map first last)

include hrun

theorem first_le {i : ℕ} (h : first ≤ i) (h' : i ≤ last) (hi : map i ≠ -1) :
    map first ≤ map i := by
  rcases h.eq_or_lt with rfl | hlt
  · exact le_rfl
  · exact (hrun.increasing first i le_rfl hlt h' hrun.first_ne hi).le

theorem le_last {i : ℕ} (h : first ≤ i) (h' : i ≤ last) (hi : map i ≠ -1) :
    map i ≤ map last := by
  rcases h'.eq_or_lt with rfl | hlt
  · exact le_rfl
  · exact (hrun.increasing i last h hlt le_rfl hi hrun.last_ne).le

theorem inj {i j : ℕ} (hi : first ≤ i) (hi' : i ≤ last) (hj : first ≤ j) (hj' : j ≤ last)
    (hne : map i ≠ -1) (h : map i = map j) : i = j := by
  rcases lt_trichotomy i j with hlt | heq | hgt
  · have := hrun.increasing i j hi hlt hj' hne (h ▸ hne)
    omega
  · exact heq
  · have := hrun.increasing j i hj hgt hi' (h ▸ hne) hne
    omega

/-- The search for a gap, started at one end of a run. -/
theorem gap_spec {d : ℤ} (hd : d = 1 ∨ d = -1) (near : ℤ) (ms : List ℤ) {far : ℤ}
    (htarget : ∀ p, Targeted map first last p ↔ p = near ∨ p ∈ ms)
    (hsorted : (near :: ms).Pairwise fun a b => d * a < d * b)
    (hfar : Targeted map first last far) :
    (gapFrom d near ms = -1 →
      ∀ p, d * near ≤ d * p → d * p ≤ d * far → Targeted map first last p) ∧
    (gapFrom d near ms ≠ -1 → ¬ Targeted map first last (gapFrom d near ms) ∧
      d * near < d * gapFrom d near ms ∧
      (∃ m, Targeted map first last m ∧ d * gapFrom d near ms < d * m) ∧
      ∀ p, d * near ≤ d * p → d * p < d * gapFrom d near ms → Targeted map first last p) := by
  have hnonneg {p : ℤ} (h : Targeted map first last p) : 0 ≤ p := by
    obtain ⟨i, h1, h2, rfl, hne⟩ := h
    exact hrun.nonneg i h1 h2 hne
  obtain ⟨hnone, hsome⟩ := gapFrom_spec hd (hnonneg ((htarget near).mpr (.inl rfl)))
    (fun m hm => hnonneg ((htarget m).mpr (.inr hm))) hsorted
  have hsplit {p : ℤ} (h : d * near ≤ d * p) : p = near ∨ d * near < d * p := by
    rcases hd with rfl | rfl <;> omega
  constructor
  · intro h p hp hp'
    rcases hsplit hp with rfl | hlt
    · exact (htarget p).mpr (.inl rfl)
    · refine (htarget p).mpr (.inr (hnone h p hlt ⟨far, ?_, hp'⟩))
      refine ((htarget far).mp hfar).resolve_left ?_
      rintro rfl
      omega
  · intro h
    obtain ⟨h1, h2, ⟨m, hm, hlt⟩, h4⟩ := hsome h
    refine ⟨fun ht => ?_, h1, ⟨m, (htarget m).mpr (.inr hm), hlt⟩, fun p hp hp' => ?_⟩
    · rcases (htarget _).mp ht with heq | hin
      · rw [heq] at h1
        omega
      · exact h2 hin
    · rcases hsplit hp with rfl | hlt'
      · exact (htarget p).mpr (.inl rfl)
      · exact (htarget p).mpr (.inr (h4 p hlt' hp'))

omit hrun in
/-- The entries of a stretch of the map that are not `-1`. -/
theorem mem_filter_map {is : List ℕ} {p : ℤ} :
    p ∈ (is.map map).filter (fun m => m ≠ -1) ↔ ∃ i ∈ is, map i = p ∧ p ≠ -1 := by
  simp only [List.mem_filter, List.mem_map, decide_eq_true_eq]
  constructor
  · rintro ⟨⟨i, hi, rfl⟩, hne⟩
    exact ⟨i, hi, rfl, hne⟩
  · rintro ⟨i, hi, rfl, hne⟩
    exact ⟨⟨i, hi, rfl⟩, hne⟩

theorem targeted_first : Targeted map first last (map first) :=
  ⟨first, le_rfl, hrun.le, rfl, hrun.first_ne⟩

theorem targeted_last : Targeted map first last (map last) :=
  ⟨last, hrun.le, le_rfl, rfl, hrun.last_ne⟩

theorem le_of_targeted {p : ℤ} (h : Targeted map first last p) : map first ≤ p ∧ p ≤ map last := by
  obtain ⟨i, h1, h2, rfl, hne⟩ := h
  exact ⟨hrun.first_le h1 h2 hne, hrun.le_last h1 h2 hne⟩

/-- What `get_first_underlay` returns: the first fragment behind the first target that is
not a target itself. -/
theorem firstUnderlay :
    (getFirstUnderlay map first last = -1 →
      ∀ p, map first ≤ p → p ≤ map last → Targeted map first last p) ∧
    (getFirstUnderlay map first last ≠ -1 →
      ¬ Targeted map first last (getFirstUnderlay map first last) ∧
      map first < getFirstUnderlay map first last ∧
      getFirstUnderlay map first last < map last ∧
      ∀ p, map first ≤ p → p < getFirstUnderlay map first last → Targeted map first last p) := by
  have hspec := hrun.gap_spec (.inl rfl) (map first)
    (((List.range' (first + 1) (last - first)).map map).filter fun m => m ≠ -1)
    (fun p => by
      rw [mem_filter_map]
      constructor
      · rintro ⟨i, h1, h2, rfl, hne⟩
        rcases h1.eq_or_lt with rfl | hlt
        · exact .inl rfl
        · exact .inr ⟨i, List.mem_range'_1.mpr (by omega), rfl, hne⟩
      · rintro (rfl | ⟨i, hi, rfl, hne⟩)
        · exact hrun.targeted_first
        · rw [List.mem_range'_1] at hi
          exact ⟨i, by omega, by omega, rfl, hne⟩)
    (by
      refine List.pairwise_cons.mpr ⟨fun m hm => ?_, ?_⟩
      · obtain ⟨i, hi, rfl, hne⟩ := mem_filter_map.mp hm
        rw [List.mem_range'_1] at hi
        have := hrun.increasing first i le_rfl (by omega) (by omega) hrun.first_ne hne
        omega
      · rw [List.pairwise_filter, List.pairwise_map]
        refine List.Pairwise.imp_of_mem ?_ List.pairwise_lt_range'
        intro i j hi hj hlt hne hne'
        rw [List.mem_range'_1] at hi hj
        have := hrun.increasing i j (by omega) hlt (by omega) (by simpa using hne)
          (by simpa using hne')
        omega)
    hrun.targeted_last
  simp only [one_mul] at hspec
  refine ⟨hspec.1, fun h => ?_⟩
  obtain ⟨h1, h2, ⟨m, hm, hlt⟩, h4⟩ := hspec.2 h
  exact ⟨h1, h2, lt_of_lt_of_le hlt (hrun.le_of_targeted hm).2, h4⟩

/-- What `get_last_underlay` returns: the last fragment in front of the last target that is
not a target itself. -/
theorem lastUnderlay :
    (getLastUnderlay map first last = -1 →
      ∀ p, map first ≤ p → p ≤ map last → Targeted map first last p) ∧
    (getLastUnderlay map first last ≠ -1 →
      getLastUnderlay map first last < map last ∧
      ∀ p, getLastUnderlay map first last < p → p ≤ map last → Targeted map first last p) := by
  have hspec := hrun.gap_spec (.inr rfl) (map last)
    (((List.range' first (last - first)).reverse.map map).filter fun m => m ≠ -1)
    (fun p => by
      rw [mem_filter_map]
      constructor
      · rintro ⟨i, h1, h2, rfl, hne⟩
        rcases h2.eq_or_lt with rfl | hlt
        · exact .inl rfl
        · exact .inr ⟨i, List.mem_reverse.mpr (List.mem_range'_1.mpr (by omega)), rfl, hne⟩
      · rintro (rfl | ⟨i, hi, rfl, hne⟩)
        · exact hrun.targeted_last
        · rw [List.mem_reverse, List.mem_range'_1] at hi
          exact ⟨i, by omega, by omega, rfl, hne⟩)
    (by
      refine List.pairwise_cons.mpr ⟨fun m hm => ?_, ?_⟩
      · obtain ⟨i, hi, rfl, hne⟩ := mem_filter_map.mp hm
        rw [List.mem_reverse, List.mem_range'_1] at hi
        have := hrun.increasing i last (by omega) (by omega) le_rfl hne hrun.last_ne
        omega
      · rw [List.pairwise_filter, List.pairwise_map, List.pairwise_reverse]
        refine List.Pairwise.imp_of_mem ?_ List.pairwise_lt_range'
        intro i j hi hj hlt hne hne'
        rw [List.mem_range'_1] at hi hj
        have := hrun.increasing i j (by omega) hlt (by omega) (by simpa using hne')
          (by simpa using hne)
        omega)
    hrun.targeted_first
  refine ⟨fun h p hp hp' => hspec.1 h p (by omega) (by omega), fun h => ?_⟩
  obtain ⟨-, h2, -, h4⟩ := hspec.2 h
  change -1 * map last < -1 * getLastUnderlay map first last at h2
  refine ⟨by omega, fun p hp hp' => h4 p (by omega) ?_⟩
  change -1 * p < -1 * getLastUnderlay map first last
  omega

/-- **The underlay.**  It lies strictly inside the run, and contains every fragment
there that is not a target; without one there is none. -/
theorem underlay :
    (getFirstUnderlay map first last = -1 →
      ∀ p, map first ≤ p → p ≤ map last → Targeted map first last p) ∧
    (getFirstUnderlay map first last ≠ -1 →
      map first < getFirstUnderlay map first last ∧
      getFirstUnderlay map first last ≤ getLastUnderlay map first last ∧
      getLastUnderlay map first last < map last ∧
      ∀ p, map first ≤ p → p ≤ map last → ¬ Targeted map first last p →
        getFirstUnderlay map first last ≤ p ∧ p ≤ getLastUnderlay map first last) := by
  refine ⟨hrun.firstUnderlay.1, fun h => ?_⟩
  obtain ⟨hgap, h1, h2, h3⟩ := hrun.firstUnderlay.2 h
  have hlast : getLastUnderlay map first last ≠ -1 := fun hnone =>
    hgap (hrun.lastUnderlay.1 hnone _ h1.le h2.le)
  obtain ⟨h4, h5⟩ := hrun.lastUnderlay.2 hlast
  refine ⟨h1, ?_, h4, fun p hp hp' hnot => ⟨?_, ?_⟩⟩
  · by_contra hlt
    exact hgap (h5 _ (by omega) h2.le)
  · by_contra hlt
    exact hnot (h3 p hp (by omega))
  · by_contra hlt
    exact hnot (h5 p (by omega) hp')

end IsRun

end Libparted.Fat
