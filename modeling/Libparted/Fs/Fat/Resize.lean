import Libparted.Fs.Fat.Collisions

/-!
# The FAT of the resized file system (`libparted/fs/r/fat/resize.c`)

When the clusters have been moved, `fat_construct_new_fat` writes the new FAT from
scratch.  It goes through the fragments of the old file system.  The successor of a
fragment is the next fragment of its cluster, or the first fragment of the next cluster
of the chain; a fragment that is not in use ends the chain (`_get_next_old_frag`).  The
code of a new cluster is the new cluster of the successor.

So the fragments in use of an old chain, in order, become the clusters of a new chain
(`FragChain.fatChain`).  Each code is written once and stays, since no two fragments in
use have one place, and none has the place of a bad fragment (`constructFragment_spec`).
With what `fat_duplicate_clusters` does to the device this gives the main result: every
file has the contents it had (`resize_preserves_files`).

A new cluster is one fragment here.  What `count.c` records about a chain is a
hypothesis (`OldChain`): its clusters are flagged, and all but the last are used up.
-/

namespace Libparted.Fat

open Library

/-! ## The functions -/

/-- `_get_next_old_frag`. -/
def getNextOldFrag (ctx : FatOpContext) (info : ℕ → FatClusterInfo) (oldFat : FatTable)
    (frag : ℕ) : Except Fault ℤ :=
  if (frag + 1) % ctx.oldFs.clusterFrags ≠ 0 then do
    if ← fatIsFragmentActive ctx.oldFs info (frag + 1 : ℕ) then return (frag + 1 : ℕ)
    else return -1
  else do
    let cluster ← fatFragToCluster ctx.oldFs frag
    let nextCluster ← fatTableGet oldFat cluster
    if fatTableIsEof oldFat nextCluster then return -1
    else fatClusterToFrag ctx.oldFs nextCluster

/-- `fat_op_context_map_cluster`; `fat_op_context_map_fragment` is the remap table. -/
def fatOpContextMapCluster (ctx : FatOpContext) (remap : ℕ → ℤ) (clst : ℕ) : Except Fault ℕ := do
  let frag ← fatClusterToFrag ctx.oldFs clst
  let mappedFrag := remap frag.toNat
  if mappedFrag ≠ -1 then fatFragToCluster ctx.newFs mappedFrag else return 0

/-- One turn of the loop of `fat_construct_new_fat`. -/
def constructFragment (ctx : FatOpContext) (info : ℕ → FatClusterInfo) (oldFat : FatTable)
    (remap : ℕ → ℤ) (oldFrag : ℕ) : TableM Unit := do
  match ← liftM (fatGetFragmentFlag ctx.oldFs info oldFrag) with
  | .free => return ()
  | .bad =>
    let newFrag := fatOpContextMapStaticFragment ctx oldFrag
    if newFrag = -1 then return ()
    let newCluster ← liftM (fatFragToCluster ctx.newFs newFrag)
    let _ ← fatTableSetBad newCluster
  | _ =>
    let newCluster ← liftM (fatFragToCluster ctx.newFs (remap oldFrag))
    let oldNextFrag ← liftM (getNextOldFrag ctx info oldFat oldFrag)
    if oldNextFrag = -1 then
      let _ ← fatTableSetEof newCluster
    else
      let newNextFrag := remap oldNextFrag.toNat
      pedAssert (newNextFrag ≠ -1) "new_next_frag != -1"
      let newNextCluster ← liftM (fatFragToCluster ctx.newFs newNextFrag)
      pedAssert (newNextCluster ≠ newCluster) "new_next_cluster != new_cluster"
      let _ ← fatTableSet newCluster newNextCluster

/-- The links between the clusters of a root directory made for FAT32. -/
def linkRootDir : List ℕ → TableM Unit
  | [] => return ()
  | [c] => do
    let _ ← fatTableSetEof c
  | c :: d :: cs => do
    let _ ← fatTableSet c d
    linkRootDir (d :: cs)

/-- `fat_construct_new_fat`.  The result is the root cluster, where it is set. -/
def fatConstructNewFat (ctx : FatOpContext) (info : ℕ → FatClusterInfo) (oldFat : FatTable)
    (remap : ℕ → ℤ) (rootCluster : ℕ) (newRootDir : List ℕ) : TableM (Option ℕ) := do
  fatTableClear
  fatTableSetClusterCount ctx.newFs.clusterCount
  runAll (constructFragment ctx info oldFat remap) (List.range' 0 ctx.oldFs.fragCount.toNat)
  let newRoot ←
    if ctx.oldFs.fatType = .fat32 ∧ ctx.newFs.fatType = .fat32 then do
      let root ← liftM (fatOpContextMapCluster ctx remap rootCluster)
      pure (some root)
    else pure none
  if ctx.oldFs.fatType = .fat16 ∧ ctx.newFs.fatType = .fat32 then linkRootDir newRootDir
  return newRoot

/-! ## Chains -/

/-- The clusters of a chain, from the first one on.  It ends with a code for the end of a
file that is not the code of a bad cluster. -/
inductive FatChain (ft : FatTable) : ℕ → List ℕ → Prop
  | last {c code : ℕ} (hget : fatTableGet ft c = .ok code) (hend : badCode ft.fatType < code) :
      FatChain ft c [c]
  | link {c d : ℕ} {ds : List ℕ} (hget : fatTableGet ft c = .ok d)
      (hlink : fatTableIsEof ft d = false) (hrest : FatChain ft d ds) : FatChain ft c (c :: ds)

/-- The fragments in use of a chain, in the order of `_get_next_old_frag`. -/
inductive FragChain (ctx : FatOpContext) (info : ℕ → FatClusterInfo) (oldFat : FatTable) :
    ℕ → List ℕ → Prop
  | last {f : ℕ} (hactive : Active ctx info f)
      (hnext : getNextOldFrag ctx info oldFat f = .ok (-1)) : FragChain ctx info oldFat f [f]
  | link {f g : ℕ} {gs : List ℕ} (hactive : Active ctx info f)
      (hnext : getNextOldFrag ctx info oldFat f = .ok g)
      (hrest : FragChain ctx info oldFat g gs) : FragChain ctx info oldFat f (f :: gs)

/-- `fat_is_fragment_active`, where it does not fail. -/
def isActive (fs : FatSpecific) (info : ℕ → FatClusterInfo) (frag : ℕ) : Bool :=
  match fatIsFragmentActive fs info frag with
  | .ok active => active
  | .error _ => false

/-- The fragments in use of a cluster. -/
def activeFragments (fs : FatSpecific) (info : ℕ → FatClusterInfo) (c : ℕ) : List ℕ :=
  (List.range' ((c - 2) * fs.clusterFrags) fs.clusterFrags).filter (isActive fs info)

/-- What is known about a cluster of a file or a directory: it is flagged, and some of it
is used. -/
structure InUse (fs : FatSpecific) (info : ℕ → FatClusterInfo) (c : ℕ) : Prop where
  cluster : fs.IsCluster c
  flag : (info c).flag = .file ∨ (info c).flag = .directory
  usage : 0 < fatGetClusterUsage fs info c

/-- A chain of the old file system, with what is recorded about it. -/
structure OldChain (fs : FatSpecific) (info : ℕ → FatClusterInfo) (oldFat : FatTable) (c : ℕ)
    (cs : List ℕ) : Prop where
  chain : FatChain oldFat c cs
  inUse : ∀ d ∈ cs, InUse fs info d
  full : ∀ d ∈ cs.dropLast, (info d).unitsUsed = 0

/-! ## The fragments of an old chain -/

section OldChains

variable {ctx : FatOpContext} {info : ℕ → FatClusterInfo} {oldFat : FatTable} {c j : ℕ}

theorem FatOpContext.Grid.oldFrags_pos (hgrid : ctx.Grid) : 0 < ctx.oldFs.clusterFrags := by
  have hpos := ctx.oldFs.clusterSectors_pos
  rw [hgrid.old_sectors] at hpos
  exact Nat.pos_of_mul_pos_right hpos

theorem FatOpContext.Grid.oldClusterToFrag_eq (hgrid : ctx.Grid) (hc : ctx.oldFs.IsCluster c) :
    fatClusterToFrag ctx.oldFs c = .ok ((c - 2) * ctx.oldFs.clusterFrags : ℕ) := by
  have hlt : (c - 2) * ctx.oldFs.clusterFrags
      < ctx.oldFs.clusterCount * ctx.oldFs.clusterFrags :=
    Nat.mul_lt_mul_of_pos_right (by have := hc.1; have := hc.2; omega) hgrid.oldFrags_pos
  have hcount := hgrid.old_count
  have hmax := hgrid.old_lt
  rw [hcount] at hmax
  unfold fatClusterToFrag pedAssert
  rw [if_pos (by simp [hc.1, hc.2]), ok_bind, toFragment_eq]
  · rfl
  · exact le_trans (by decide) (Int.natCast_nonneg _)
  · refine lt_trans ?_ hmax
    exact_mod_cast hlt

/-- How many fragments of a cluster are in use: one more than `last_frag_used`, as far as
the cluster goes. -/
def usedFrags (fs : FatSpecific) (info : ℕ → FatClusterInfo) (c : ℕ) : ℕ :=
  min fs.clusterFrags (((fatGetClusterUsage fs info c - 1).tdiv fs.fragSectors).toNat + 1)

/-- Fragment `j` of a cluster. -/
theorem FatOpContext.Grid.fragment_of_cluster (hgrid : ctx.Grid) (hc : ctx.oldFs.IsCluster c)
    (hj : j < ctx.oldFs.clusterFrags) :
    fatFragToCluster ctx.oldFs ((c - 2) * ctx.oldFs.clusterFrags + j : ℕ) = .ok c ∧
      ((c - 2) * ctx.oldFs.clusterFrags + j) % ctx.oldFs.clusterFrags = j := by
  obtain ⟨hc2, hlt⟩ := hc
  have hbound : (c - 2) * ctx.oldFs.clusterFrags + j
      < ctx.oldFs.clusterCount * ctx.oldFs.clusterFrags := by
    have : (c - 2 + 1) * ctx.oldFs.clusterFrags
        ≤ ctx.oldFs.clusterCount * ctx.oldFs.clusterFrags :=
      Nat.mul_le_mul_right _ (by omega)
    rw [Nat.add_mul, Nat.one_mul] at this
    omega
  have hdiv : ((c - 2) * ctx.oldFs.clusterFrags + j) / ctx.oldFs.clusterFrags = c - 2 := by
    rw [Nat.add_comm, Nat.add_mul_div_right _ _ hgrid.oldFrags_pos, Nat.div_eq_of_lt hj,
      Nat.zero_add]
  refine ⟨fatFragToCluster_eq_ok.mpr ⟨by positivity, ?_, ?_, hc2⟩, ?_⟩
  · rw [hgrid.old_count]
    exact_mod_cast hbound
  · rw [← Int.natCast_div, hdiv]
    omega
  · rw [Nat.add_comm, Nat.add_mul_mod_self_right, Nat.mod_eq_of_lt hj]

/-- The fragments in use of a cluster are the first ones. -/
theorem InUse.active_iff (hgrid : ctx.Grid) (h : InUse ctx.oldFs info c)
    (hj : j < ctx.oldFs.clusterFrags) :
    fatIsFragmentActive ctx.oldFs info ((c - 2) * ctx.oldFs.clusterFrags + j : ℕ)
      = .ok (decide (j < usedFrags ctx.oldFs info c)) := by
  obtain ⟨hclst, hmod⟩ := hgrid.fragment_of_cluster h.cluster hj
  have hmod' : (((c - 2) * ctx.oldFs.clusterFrags + j : ℕ) : ℤ) % ctx.oldFs.clusterFrags = j := by
    exact_mod_cast hmod
  have hflag : ¬ ((info c).flag ≠ .file ∧ (info c).flag ≠ .directory) := by
    rcases h.flag with h | h <;> simp [h]
  have hused : 0 ≤ (fatGetClusterUsage ctx.oldFs info c - 1).tdiv ctx.oldFs.fragSectors :=
    Int.tdiv_nonneg (by have := h.usage; omega) (by positivity)
  unfold fatIsFragmentActive fatGetFragmentFlag
  rw [hclst]
  simp only [ok_bind, pedAssert, h.cluster.1, h.cluster.2, decide_true, Bool.and_self, if_true,
    hmod', if_neg hflag]
  by_cases hlt : j < usedFrags ctx.oldFs info c
  · unfold usedFrags at hlt
    rw [if_neg (by omega)]
    rcases h.flag with hf | hf <;> simp [hf, usedFrags] <;> omega
  · unfold usedFrags at hlt
    rw [if_pos (by omega)]
    simp [usedFrags]
    omega

theorem FatOpContext.Grid.usedFrags_pos (hgrid : ctx.Grid) (info : ℕ → FatClusterInfo) (c : ℕ) :
    0 < usedFrags ctx.oldFs info c := by
  have := hgrid.oldFrags_pos
  unfold usedFrags
  omega

theorem usedFrags_le (fs : FatSpecific) (info : ℕ → FatClusterInfo) (c : ℕ) :
    usedFrags fs info c ≤ fs.clusterFrags :=
  Nat.min_le_left _ _

/-- A cluster that is used up has all its fragments in use. -/
theorem InUse.usedFrags_full (hgrid : ctx.Grid) (h : InUse ctx.oldFs info c)
    (hfull : (info c).unitsUsed = 0) : usedFrags ctx.oldFs info c = ctx.oldFs.clusterFrags := by
  have hk := hgrid.oldFrags_pos
  have hn := hgrid.frag_pos
  have hfree : (info c).flag ≠ .free := by
    rcases h.flag with h | h <;> simp [h]
  have husage : fatGetClusterUsage ctx.oldFs info c
      = ctx.oldFs.clusterFrags * ctx.oldFs.fragSectors := by
    unfold fatGetClusterUsage
    rw [if_neg hfree, hfull, hgrid.oldCut.sectors]
    push_cast
    exact Int.mul_tdiv_cancel_left _ (by decide)
  unfold usedFrags
  rw [husage, hgrid.old_frag]
  have hlast : ((ctx.oldFs.clusterFrags : ℤ) * ctx.fragSectors - 1).tdiv ctx.fragSectors
      = ctx.oldFs.clusterFrags - 1 := by
    have hpos : 0 ≤ (ctx.oldFs.clusterFrags : ℤ) * ctx.fragSectors - 1 := by
      have : 0 < (ctx.oldFs.clusterFrags : ℤ) * ctx.fragSectors := by positivity
      omega
    rw [Int.tdiv_eq_ediv_of_nonneg hpos]
    refine Int.ediv_eq_iff_of_pos (by exact_mod_cast hn) |>.mpr ⟨?_, ?_⟩
    · linarith
    · linarith
  rw [hlast]
  omega

theorem InUse.activeFragments_eq (hgrid : ctx.Grid) (h : InUse ctx.oldFs info c) :
    activeFragments ctx.oldFs info c
      = List.range' ((c - 2) * ctx.oldFs.clusterFrags) (usedFrags ctx.oldFs info c) := by
  have hsplit : List.range' ((c - 2) * ctx.oldFs.clusterFrags) ctx.oldFs.clusterFrags
      = List.range' ((c - 2) * ctx.oldFs.clusterFrags) (usedFrags ctx.oldFs info c)
        ++ List.range' ((c - 2) * ctx.oldFs.clusterFrags + usedFrags ctx.oldFs info c)
          (ctx.oldFs.clusterFrags - usedFrags ctx.oldFs info c) := by
    rw [List.range'_append_1, Nat.add_sub_cancel' (usedFrags_le _ _ _)]
  have hactive {f : ℕ} (hf : (c - 2) * ctx.oldFs.clusterFrags ≤ f)
      (hf' : f < (c - 2) * ctx.oldFs.clusterFrags + ctx.oldFs.clusterFrags) :
      isActive ctx.oldFs info f = true
        ↔ f < (c - 2) * ctx.oldFs.clusterFrags + usedFrags ctx.oldFs info c := by
    obtain ⟨j, rfl⟩ := Nat.exists_eq_add_of_le hf
    rw [isActive, h.active_iff hgrid (by omega)]
    simp
  have hle := usedFrags_le ctx.oldFs info c
  unfold activeFragments
  rw [hsplit, List.filter_append, List.filter_eq_self.mpr, List.filter_eq_nil_iff.mpr,
    List.append_nil]
  · intro f hf
    rw [List.mem_range'_1] at hf
    rw [hactive (by omega) (by omega)]
    omega
  · intro f hf
    rw [List.mem_range'_1] at hf
    exact (hactive hf.1 (by omega)).mpr hf.2

/-- The chain of the fragments of one cluster, in front of what comes behind it. -/
theorem InUse.fragChain (hgrid : ctx.Grid) (h : InUse ctx.oldFs info c) {rest : List ℕ}
    (hlast : FragChain ctx info oldFat
      ((c - 2) * ctx.oldFs.clusterFrags + (usedFrags ctx.oldFs info c - 1))
      (((c - 2) * ctx.oldFs.clusterFrags + (usedFrags ctx.oldFs info c - 1)) :: rest)) :
    FragChain ctx info oldFat ((c - 2) * ctx.oldFs.clusterFrags)
      (activeFragments ctx.oldFs info c ++ rest) := by
  have hpos := hgrid.usedFrags_pos info c
  have hle := usedFrags_le ctx.oldFs info c
  rw [h.activeFragments_eq hgrid]
  set b := (c - 2) * ctx.oldFs.clusterFrags with hb
  -- backwards from the last fragment in use
  have hback (m : ℕ) (hm : m < usedFrags ctx.oldFs info c) :
      FragChain ctx info oldFat (b + (usedFrags ctx.oldFs info c - 1 - m))
        (List.range' (b + (usedFrags ctx.oldFs info c - 1 - m)) (m + 1) ++ rest) := by
    induction m with
    | zero => simpa using hlast
    | succ m ih =>
      set j := usedFrags ctx.oldFs info c - 1 - (m + 1) with hj
      have hnext : usedFrags ctx.oldFs info c - 1 - m = j + 1 := by omega
      rw [List.range'_succ, List.cons_append]
      refine .link ?_ ?_ (show FragChain ctx info oldFat (b + (j + 1)) _ from ?_)
      · exact (h.active_iff hgrid (by omega)).trans (by simp; omega)
      · have hmod := (hgrid.fragment_of_cluster h.cluster (show j + 1 < _ by omega)).2
        unfold getNextOldFrag
        rw [if_pos (by rw [Nat.add_assoc, hmod]; omega), Nat.add_assoc,
          h.active_iff hgrid (by omega)]
        have : j + 1 < usedFrags ctx.oldFs info c := by omega
        simp [this]
      · have := ih (by omega)
        rwa [hnext] at this
  have := hback (usedFrags ctx.oldFs info c - 1) (by omega)
  rwa [Nat.sub_self, Nat.add_zero, Nat.sub_add_cancel hpos] at this

theorem FatChain.head {ft : FatTable} {cs : List ℕ} (h : FatChain ft c cs) : c ∈ cs := by
  cases h <;> exact List.mem_cons_self

/-- **The fragments in use of an old chain**, in order, are a chain of fragments. -/
theorem OldChain.fragChain {cs : List ℕ} (hgrid : ctx.Grid)
    (h : OldChain ctx.oldFs info oldFat c cs) :
    FragChain ctx info oldFat ((c - 2) * ctx.oldFs.clusterFrags)
      (cs.flatMap (activeFragments ctx.oldFs info)) := by
  obtain ⟨hchain, hinUse, hfull⟩ := h
  have hk := hgrid.oldFrags_pos
  induction hchain with
  | @last c code hget hend =>
    have hc := hinUse c List.mem_cons_self
    have hpos := hgrid.usedFrags_pos info c
    have hle := usedFrags_le ctx.oldFs info c
    rw [List.flatMap_singleton, ← List.append_nil (activeFragments _ _ _)]
    refine hc.fragChain hgrid (.last ?_ ?_)
    · exact (hc.active_iff hgrid (by omega)).trans (by simp; omega)
    · unfold getNextOldFrag
      rw [Nat.add_assoc, Nat.sub_add_cancel hpos]
      rcases hle.eq_or_lt with heq | hlt
      · -- the end of the last cluster
        obtain ⟨hclst, -⟩ := hgrid.fragment_of_cluster hc.cluster
          (show usedFrags ctx.oldFs info c - 1 < _ by omega)
        have heof : fatTableIsEof oldFat code = true := by
          simp [fatTableIsEof, testCodeEof, hend.le]
        rw [if_neg (by rw [heq, ← Nat.succ_mul]; simp), hclst, ok_bind, hget, ok_bind, heof]
        rfl
      · rw [if_pos (by rw [(hgrid.fragment_of_cluster hc.cluster hlt).2]; omega),
          hc.active_iff hgrid hlt]
        simp
  | @link c d ds hget hlink hrest ih =>
    have hc := hinUse c List.mem_cons_self
    have hd := hinUse d (List.mem_cons_of_mem _ hrest.head)
    have hne : ds ≠ [] := List.ne_nil_of_mem hrest.head
    have hused := hc.usedFrags_full hgrid (hfull c (by simp [List.dropLast_cons_of_ne_nil hne]))
    have hrest' := ih (fun e he => hinUse e (List.mem_cons_of_mem _ he)) fun e he =>
      hfull e (by rw [List.dropLast_cons_of_ne_nil hne]; exact List.mem_cons_of_mem _ he)
    rw [List.flatMap_cons]
    refine hc.fragChain hgrid (.link ?_ ?_ hrest')
    · exact (hc.active_iff hgrid (by omega)).trans (by simp; omega)
    · obtain ⟨hclst, -⟩ := hgrid.fragment_of_cluster hc.cluster
        (show usedFrags ctx.oldFs info c - 1 < _ by omega)
      unfold getNextOldFrag
      rw [Nat.add_assoc, Nat.sub_add_cancel (by omega), if_neg (by rw [hused, ← Nat.succ_mul]; simp),
        hclst, ok_bind, hget, ok_bind, hlink]
      exact hgrid.oldClusterToFrag_eq hd.cluster

end OldChains

/-! ## The construction of the new FAT -/

/-- The new cluster of an old fragment, where a cluster is one fragment. -/
def newCluster (remap : ℕ → ℤ) (f : ℕ) : ℕ := (remap f).toNat + 2

/-- What the construction needs to know about the remap table. -/
structure Remapped (ctx : FatOpContext) (info : ℕ → FatClusterInfo) (remap : ℕ → ℤ) : Prop where
  one : ctx.newFs.clusterFrags = 1
  range : ∀ f, Active ctx info f → 0 ≤ remap f ∧ remap f < ctx.newFs.fragCount
  inj : ∀ f g, Active ctx info f → Active ctx info g → remap f = remap g → f = g
  not_bad : ∀ f (b : ℕ), Active ctx info f → fatGetFragmentFlag ctx.oldFs info b = .ok .bad →
    fatOpContextMapStaticFragment ctx b ≠ -1 → remap f ≠ fatOpContextMapStaticFragment ctx b

/-- The code of the cluster of fragment `f` is the one its successor calls for. -/
def Linked (ctx : FatOpContext) (info : ℕ → FatClusterInfo) (oldFat : FatTable) (remap : ℕ → ℤ)
    (ft : FatTable) (f : ℕ) : Prop :=
  ∀ next, getNextOldFrag ctx info oldFat f = .ok next →
    ft.entry (newCluster remap f)
      = if next = -1 then eofCode ft.fatType
        else storedCode ft.fatType (newCluster remap next.toNat)

section Construction

variable {ctx : FatOpContext} {info : ℕ → FatClusterInfo} {oldFat : FatTable} {remap : ℕ → ℤ}

theorem fatFragToCluster_one {fs : FatSpecific} {p : ℤ} {c : ℕ} (hone : fs.clusterFrags = 1)
    (h : fatFragToCluster fs p = .ok c) : 0 ≤ p ∧ p < fs.fragCount ∧ c = p.toNat + 2 := by
  obtain ⟨h0, hlt, hdiv, hc⟩ := fatFragToCluster_eq_ok.mp h
  rw [hone, Nat.cast_one, Int.ediv_one] at hdiv
  exact ⟨h0, hlt, by omega⟩

theorem Remapped.fatFragToCluster_eq (h : Remapped ctx info remap) {f : ℕ}
    (hf : Active ctx info f) :
    fatFragToCluster ctx.newFs (remap f) = .ok (newCluster remap f) := by
  obtain ⟨h0, hlt⟩ := h.range f hf
  refine fatFragToCluster_eq_ok.mpr ⟨h0, hlt, ?_, Nat.le_add_left 2 _⟩
  rw [h.one, newCluster, Nat.cast_one, Int.ediv_one]
  omega

theorem Remapped.newCluster_inj (h : Remapped ctx info remap) {f g : ℕ} (hf : Active ctx info f)
    (hg : Active ctx info g) (heq : newCluster remap f = newCluster remap g) : f = g := by
  have := h.range f hf
  have := h.range g hg
  unfold newCluster at heq
  exact h.inj f g hf hg (by omega)

theorem Remapped.isCluster (hgrid : ctx.Grid) (h : Remapped ctx info remap) {f : ℕ}
    (hf : Active ctx info f) : ctx.newFs.IsCluster (newCluster remap f) := by
  obtain ⟨h0, hlt⟩ := h.range f hf
  rw [hgrid.new_count, h.one, Nat.cast_one, mul_one] at hlt
  refine ⟨Nat.le_add_left 2 _, ?_⟩
  unfold newCluster
  omega

/-- A code that is not touched stays. -/
theorem Linked.congr {ft ft' : FatTable} {f : ℕ} (h : Linked ctx info oldFat remap ft f)
    (hshape : ft.SameShape ft')
    (hentry : ft'.entry (newCluster remap f) = ft.entry (newCluster remap f)) :
    Linked ctx info oldFat remap ft' f := by
  intro next hnext
  rw [hentry, hshape.fatType]
  exact h next hnext

/-- How far the construction has come. -/
structure Constructed (ctx : FatOpContext) (info : ℕ → FatClusterInfo) (oldFat : FatTable)
    (remap : ℕ → ℤ) (fatType : FatType) (i : ℕ) (ft : FatTable) : Prop where
  fatType : ft.fatType = fatType
  count : ft.clusterCount = ctx.newFs.clusterCount
  linked : ∀ f < i, Active ctx info f → Linked ctx info oldFat remap ft f

/-- A turn that writes the code of one cluster: the clusters of the earlier fragments are
others, and the code is right if the fragment of this turn is in use. -/
theorem Constructed.next {fatType : FatType} {i cluster code : ℕ} {ft ft' : FatTable}
    (h : Constructed ctx info oldFat remap fatType i ft) (hshape : ft.SameShape ft')
    (hentry : ft'.entry = Function.update ft.entry cluster code)
    (hother : ∀ f < i, Active ctx info f → newCluster remap f ≠ cluster)
    (hself : Active ctx info i → Linked ctx info oldFat remap ft' i) :
    Constructed ctx info oldFat remap fatType (i + 1) ft' := by
  refine ⟨hshape.fatType.trans h.fatType, hshape.clusterCount.trans h.count, fun f hf hactive => ?_⟩
  rcases Nat.lt_succ_iff_lt_or_eq.mp hf with hf | rfl
  · refine (h.linked f hf hactive).congr hshape ?_
    rw [hentry, Function.update_of_ne (hother f hf hactive)]
  · exact hself hactive

theorem Constructed.skip {fatType : FatType} {i : ℕ} {ft : FatTable}
    (h : Constructed ctx info oldFat remap fatType i ft) (hi : ¬ Active ctx info i) :
    Constructed ctx info oldFat remap fatType (i + 1) ft := by
  refine ⟨h.fatType, h.count, fun f hf hactive => h.linked f ?_ hactive⟩
  refine lt_of_le_of_ne (Nat.lt_succ_iff.mp hf) ?_
  rintro rfl
  exact hi hactive

/-- **One turn of the construction.** -/
theorem constructFragment_spec (hgrid : ctx.Grid) (hremap : Remapped ctx info remap)
    {fatType : FatType} {i : ℕ} {ft : FatTable}
    (h : Constructed ctx info oldFat remap fatType i ft) :
    Spec (fun _ => True) (constructFragment ctx info oldFat remap i) ft fun _ ft' =>
      Constructed ctx info oldFat remap fatType (i + 1) ft' := by
  unfold constructFragment
  refine spec_bind.mpr (Spec.lift (fun _ _ => trivial) fun flag hflag => ?_)
  have hinside {p : ℤ} {c : ℕ} (hc : fatFragToCluster ctx.newFs p = .ok c) :
      c < ft.clusterCount + 2 := by
    obtain ⟨h0, hlt, rfl⟩ := fatFragToCluster_one hremap.one hc
    rw [hgrid.new_count, hremap.one, Nat.cast_one, mul_one] at hlt
    rw [h.count]
    omega
  -- a fragment in use, whatever its flag
  have huse (hactive : Active ctx info i) :
      Spec (fun _ => True) (do
        let newCluster ← liftM (fatFragToCluster ctx.newFs (remap i))
        let oldNextFrag ← liftM (getNextOldFrag ctx info oldFat i)
        if oldNextFrag = -1 then
          let _ ← fatTableSetEof newCluster
        else
          let newNextFrag := remap oldNextFrag.toNat
          pedAssert (newNextFrag ≠ -1) "new_next_frag != -1"
          let newNextCluster ← liftM (fatFragToCluster ctx.newFs newNextFrag)
          pedAssert (newNextCluster ≠ newCluster) "new_next_cluster != new_cluster"
          let _ ← fatTableSet newCluster newNextCluster) ft fun _ ft' =>
        Constructed ctx info oldFat remap fatType (i + 1) ft' := by
    have hother (f : ℕ) (hf : f < i) (hactive' : Active ctx info f) :
        newCluster remap f ≠ newCluster remap i := fun heq =>
      hf.ne (hremap.newCluster_inj hactive' hactive heq)
    rw [hremap.fatFragToCluster_eq hactive]
    have hin := hinside (hremap.fatFragToCluster_eq hactive)
    refine spec_bind.mpr (spec_lift.mpr ⟨?_, by simp⟩)
    rintro _ ⟨rfl⟩
    refine spec_bind.mpr (Spec.lift (fun _ _ => trivial) fun next hnext => ?_)
    refine Spec.ite (fun hend => ?_) fun hlink => ?_
    · refine (fatTableSetEof_spec ft _).seq fun ok ft' ⟨_, hok, hmark, _⟩ => spec_pure.mpr ?_
      obtain hmark := hmark (hok.mpr hin)
      refine h.next hmark.shape hmark.entry hother fun _ next' hnext' => ?_
      obtain rfl : next = next' := by simpa [hnext] using hnext'
      rw [hmark.entry, Function.update_self, if_pos hend, hmark.shape.fatType]
    · refine spec_bind.mpr (Spec.lift (fun _ _ => trivial) fun _ _ => ?_)
      refine spec_bind.mpr (Spec.lift (fun _ _ => trivial) fun c hc => ?_)
      refine spec_bind.mpr (Spec.lift (fun _ _ => trivial) fun _ _ => ?_)
      obtain ⟨-, -, rfl⟩ := fatFragToCluster_one hremap.one hc
      refine (fatTableSet_spec ft _ _).seq fun ok ft' ⟨hshape, _, hok, hentry⟩ => spec_pure.mpr ?_
      rw [if_pos (hok.mpr hin)] at hentry
      refine h.next hshape hentry hother fun _ next' hnext' => ?_
      obtain rfl : next = next' := by simpa [hnext] using hnext'
      rw [hentry, Function.update_self, if_neg hlink, hshape.fatType]
      rfl
  cases flag with
  | free =>
    refine spec_pure.mpr (h.skip fun hactive => ?_)
    rcases active_iff.mp hactive with hf | hf <;> simp [hflag] at hf
  | bad =>
    have hnot : ¬ Active ctx info i := fun hactive => by
      rcases active_iff.mp hactive with hf | hf <;> simp [hflag] at hf
    refine Spec.ite (fun _ => spec_pure.mpr (h.skip hnot)) fun hstatic => ?_
    refine spec_bind.mpr (Spec.lift (fun _ _ => trivial) fun c hc => ?_)
    refine (fatTableSetBad_spec ft c).seq fun ok ft' ⟨_, hok, hmark, _⟩ => spec_pure.mpr ?_
    obtain hmark := hmark (hok.mpr (hinside hc))
    refine h.next hmark.shape hmark.entry (fun f _ hactive heq => ?_) fun hactive => absurd hactive hnot
    obtain ⟨h0, -, rfl⟩ := fatFragToCluster_one hremap.one hc
    have := (hremap.range f hactive).1
    unfold newCluster at heq
    exact hremap.not_bad f i hactive hflag hstatic (by omega)
  | file => exact huse (active_iff.mpr (.inl hflag))
  | directory => exact huse (active_iff.mpr (.inr hflag))

/-- **The new FAT**: the code of every fragment in use is the right one. -/
theorem fatConstructNewFat_spec (hgrid : ctx.Grid) (hremap : Remapped ctx info remap)
    (hroot : ¬ (ctx.oldFs.fatType = .fat16 ∧ ctx.newFs.fatType = .fat32)) (rootCluster : ℕ)
    (newRootDir : List ℕ) (ft : FatTable) :
    Spec (fun _ => True) (fatConstructNewFat ctx info oldFat remap rootCluster newRootDir) ft
      fun _ ft' =>
        Constructed ctx info oldFat remap ft.fatType ctx.oldFs.fragCount.toNat ft' := by
  unfold fatConstructNewFat
  refine (fatTableClear_spec ft).seq fun _ ft₁ ⟨hshape, _⟩ => ?_
  refine (fatTableSetClusterCount_spec ft₁ _).seq fun _ ft₂ ⟨htype₂, _, hcount₂, _⟩ => ?_
  have hstart : Constructed ctx info oldFat remap ft.fatType 0 ft₂ :=
    ⟨htype₂.trans hshape.fatType, hcount₂, fun f hf => by omega⟩
  have hloop : Spec (fun _ => True)
      (runAll (constructFragment ctx info oldFat remap) (List.range' 0 ctx.oldFs.fragCount.toNat))
      ft₂ fun _ ft' => Constructed ctx info oldFat remap ft.fatType
        (0 + ctx.oldFs.fragCount.toNat) ft' :=
    Spec.runAll_range (fun i t _ _ ht => constructFragment_spec hgrid hremap ht) hstart
  refine hloop.seq fun _ ft₃ h₃ => ?_
  rw [Nat.zero_add] at h₃
  refine Spec.ite (fun _ => ?_) fun _ => ?_
  · refine spec_bind.mpr (Spec.lift (fun _ _ => trivial) fun root _ => ?_)
    exact Spec.ite (fun h => absurd h hroot) fun _ => h₃
  · exact Spec.ite (fun h => absurd h hroot) fun _ => h₃

/-- A chain of fragments in use becomes a chain of the new FAT. -/
theorem FragChain.fatChain (hgrid : ctx.Grid) (hremap : Remapped ctx info remap) {ft : FatTable}
    (htype : ft.fatType = .fat16 ∨ ft.fatType = .fat32)
    (hmax : ctx.newFs.clusterCount ≤ fatMaxClusterCount ft.fatType)
    (h : Constructed ctx info oldFat remap ft.fatType ctx.oldFs.fragCount.toNat ft) {f : ℕ}
    {fs : List ℕ} (hchain : FragChain ctx info oldFat f fs) :
    FatChain ft (newCluster remap f) (fs.map (newCluster remap)) := by
  have hget {f : ℕ} (hf : Active ctx info f) :
      fatTableGet ft (newCluster remap f) = .ok (ft.entry (newCluster remap f)) := by
    refine fatTableGet_eq_ok.mpr ⟨?_, ?_, rfl⟩
    · rw [h.count]
      exact (hremap.isCluster hgrid hf).2
    · rcases htype with htype | htype <;> simp [htype]
  have hlinked {f : ℕ} (hf : Active ctx info f) : Linked ctx info oldFat remap ft f :=
    h.linked f (by have := hf.lt; omega) hf
  induction hchain with
  | last hactive hnext =>
    refine .last (hget hactive) ?_
    rw [hlinked hactive _ hnext, if_pos rfl]
    rcases htype with htype | htype <;> simp [htype, eofCode, badCode]
  | @link f g gs hactive hnext hrest ih =>
    have hg : Active ctx info g := by cases hrest <;> assumption
    obtain ⟨hlow, hhigh⟩ := hremap.isCluster hgrid hg
    -- the number of a cluster is not a code for anything else
    have hcode : ft.entry (newCluster remap f) = newCluster remap g := by
      rw [hlinked hactive _ hnext, if_neg (by omega), Int.toNat_natCast]
      rcases htype with htype | htype <;> rw [htype] at hmax ⊢
      · exact Nat.mod_eq_of_lt (by simp only [fatMaxClusterCount] at hmax; omega)
      · exact Nat.mod_eq_of_lt (by simp only [fatMaxClusterCount] at hmax; omega)
    refine .link (hcode ▸ hget hactive) ?_ ih
    simp only [fatTableIsEof, testCodeEof, decide_eq_false_iff_not, not_le]
    rcases htype with htype | htype <;> rw [htype] at hmax ⊢ <;>
      simp only [fatMaxClusterCount, badCode] at hmax ⊢ <;> omega

end Construction

/-! ## Files -/

variable {β : Type}

/-- The contents of a cluster. -/
def FatSpecific.readCluster (fs : FatSpecific) (disk : ℤ → β) (c : ℕ) : List β :=
  (List.range fs.clusterSectors).map fun r : ℕ => disk (fs.clusterStart c + r)

/-- The contents of a fragment. -/
def FatSpecific.readFragment (fs : FatSpecific) (disk : ℤ → β) (f : ℕ) : List β :=
  (List.range fs.fragSectors).map fun r : ℕ => disk (fs.fragStart f + r)

/-- Every file has the contents it had, and different files have different clusters. -/
structure FilesPreserved (ctx : FatOpContext) (info : ℕ → FatClusterInfo)
    (oldFat newFat : FatTable) (s s' : Duplication β) : Prop where
  contents : ∀ c cs, OldChain ctx.oldFs info oldFat c cs → ∃ c' cs',
    fatOpContextMapCluster ctx s'.remap c = .ok c' ∧ FatChain newFat c' cs' ∧
      cs'.flatMap (ctx.newFs.readCluster s'.disk)
        = (cs.flatMap (activeFragments ctx.oldFs info)).flatMap (ctx.oldFs.readFragment s.disk)
  disjoint : ∀ c cs d ds, OldChain ctx.oldFs info oldFat c cs →
    OldChain ctx.oldFs info oldFat d ds → cs.Disjoint ds → ∀ c' cs' d' ds',
      fatOpContextMapCluster ctx s'.remap c = .ok c' → FatChain newFat c' cs' →
      fatOpContextMapCluster ctx s'.remap d = .ok d' → FatChain newFat d' ds' → cs'.Disjoint ds'

/-- A table determines the chain from a cluster on. -/
theorem FatChain.unique {ft : FatTable} {c : ℕ} {cs ds : List ℕ} (h : FatChain ft c cs)
    (h' : FatChain ft c ds) : cs = ds := by
  have heof {code : ℕ} (hend : badCode ft.fatType < code) (hlink : fatTableIsEof ft code = false) :
      False := by
    simp only [fatTableIsEof, testCodeEof, decide_eq_false_iff_not] at hlink
    exact hlink hend.le
  induction h generalizing ds with
  | last hget hend =>
    cases h' with
    | last => rfl
    | link hget' hlink' hrest' =>
      rw [hget, Except.ok.injEq] at hget'
      exact (heof (hget' ▸ hend) hlink').elim
  | link hget hlink hrest ih =>
    cases h' with
    | last hget' hend' =>
      rw [hget, Except.ok.injEq] at hget'
      exact (heof (hget' ▸ hend') hlink).elim
    | link hget' hlink' hrest' =>
      rw [hget, Except.ok.injEq] at hget'
      subst hget'
      rw [ih hrest']

section Files

variable {ctx : FatOpContext} {info : ℕ → FatClusterInfo} {oldFat newFat : FatTable}
variable {s s' : Duplication β} {c : ℕ} {cs : List ℕ}

/-- The remap table that a duplication without failures leaves. -/
theorem Progress.remapped {target : ℕ → ℤ} {w : ℕ} (hgrid : ctx.Grid)
    (hone : ctx.newFs.clusterFrags = 1)
    (hinit : fatOpContextCreateInitialFat ctx info = .ok (true, s.fat))
    (h : Progress ctx info s target w w s') (hall : ∀ f, Moves ctx info f → f < w) :
    Remapped ctx info s'.remap := by
  have hkeep := keepsActive_initialFat hgrid hinit
  refine ⟨hone, fun f hf => h.remap_range hgrid hall hf,
    fun f g hf hg heq => h.remap_inj hgrid hkeep hall hf hg heq, fun f b hf hbad hstatic heq => ?_⟩
  have hb := fatGetFragmentFlag_range hbad
  obtain ⟨-, -, hsectors⟩ := (hgrid.static b (by omega) hb _ hstatic).mp rfl
  rw [← heq] at hsectors
  have hn := hgrid.frag_pos
  by_cases hmoves : Moves ctx info f
  · -- a bad fragment is protected
    obtain ⟨d, hd, htarget, hzero, -⟩ := h.placed f hmoves (hall f hmoves)
    rw [h.remap_moved f hmoves (hall f hmoves), htarget] at hsectors
    have hnew : ctx.newFs.InFragment (ctx.newFs.clusterFrag d) (ctx.oldFs.fragStart b) :=
      ⟨hsectors.ge, by rw [hgrid.new_frag]; omega⟩
    exact marked_of_fragment hgrid hinit hbad (by decide)
      ⟨le_rfl, by rw [hgrid.old_frag]; omega⟩ hd (hgrid.inCluster_of_clusterFrag hnew) hzero
  · -- two fragments that stay are where they were
    rw [h.remap_static f fun hm => hmoves hm.1,
      ← ((hgrid.static f (by omega) hf.lt _ (hf.static_ne hmoves)).mp rfl).2.2] at hsectors
    have hb' : ctx.oldFs.InFragment b (ctx.oldFs.fragStart b) :=
      ⟨le_rfl, by rw [hgrid.old_frag]; omega⟩
    have hf' : ctx.oldFs.InFragment f (ctx.oldFs.fragStart b) :=
      ⟨hsectors.ge, by rw [hgrid.old_frag]; omega⟩
    have hfb := FatSpecific.fragment_disjoint hb' hf'
    rw [Int.natCast_inj] at hfb
    subst hfb
    rcases active_iff.mp hf with hflag | hflag <;> simp [hbad] at hflag

theorem FragChain.active {f g : ℕ} {fs : List ℕ} (h : FragChain ctx info oldFat f fs)
    (hg : g ∈ fs) : Active ctx info g := by
  induction h with
  | last hactive => exact (List.mem_singleton.mp hg) ▸ hactive
  | link hactive _ _ ih =>
    rcases List.mem_cons.mp hg with rfl | hg
    · exact hactive
    · exact ih hg

theorem FragChain.head {f : ℕ} {fs : List ℕ} (h : FragChain ctx info oldFat f fs) : f ∈ fs := by
  cases h <;> exact List.mem_cons_self

theorem OldChain.mapCluster_eq {remap : ℕ → ℤ} (hgrid : ctx.Grid)
    (hremap : Remapped ctx info remap) (h : OldChain ctx.oldFs info oldFat c cs) :
    fatOpContextMapCluster ctx remap c
      = .ok (newCluster remap ((c - 2) * ctx.oldFs.clusterFrags)) := by
  have hchain := h.fragChain hgrid
  have hactive := hchain.active hchain.head
  have h0 := (hremap.range _ hactive).1
  unfold fatOpContextMapCluster
  rw [hgrid.oldClusterToFrag_eq (h.inUse c h.chain.head).cluster, ok_bind]
  simp only [Int.toNat_natCast]
  rw [if_pos (by omega), hremap.fatFragToCluster_eq hactive]

/-- The fragments of different clusters are different. -/
theorem OldChain.flatMap_disjoint {d : ℕ} {ds : List ℕ} (hgrid : ctx.Grid)
    (h : OldChain ctx.oldFs info oldFat c cs) (h' : OldChain ctx.oldFs info oldFat d ds)
    (hdisjoint : cs.Disjoint ds) :
    (cs.flatMap (activeFragments ctx.oldFs info)).Disjoint
      (ds.flatMap (activeFragments ctx.oldFs info)) := by
  have hcluster {e f : ℕ} {es : List ℕ} {c : ℕ} (hes : OldChain ctx.oldFs info oldFat c es)
      (he : e ∈ es) (hf : f ∈ activeFragments ctx.oldFs info e) :
      fatFragToCluster ctx.oldFs f = .ok e := by
    have hrange := (List.mem_filter.mp hf).1
    rw [List.mem_range'_1] at hrange
    obtain ⟨j, rfl⟩ := Nat.exists_eq_add_of_le hrange.1
    exact (hgrid.fragment_of_cluster (hes.inUse e he).cluster (by omega)).1
  intro f hf hf'
  obtain ⟨e, he, hfe⟩ := List.mem_flatMap.mp hf
  obtain ⟨e', he', hfe'⟩ := List.mem_flatMap.mp hf'
  obtain rfl : e = e' := by
    have := (hcluster h he hfe).symm.trans (hcluster h' he' hfe')
    simpa using this
  exact hdisjoint he he'

end Files

/-- The FAT of a file system of eight clusters with a file in the first one. -/
def fatOfFileInFront : FatTable where
  fatType := .fat16
  size := 256
  clusterCount := 8
  freeClusterCount := 7
  badClusterCount := 0
  lastAlloc := 1
  entry := fun c => if c = 2 then 0xfff8 else 0

theorem oldChain_of_fileInFront (fs : FatSpecific) (hcount : fs.clusterCount = 8)
    (hsectors : fs.clusterSectors = 1) : OldChain fs fileInFront fatOfFileInFront 2 [2] := by
  have hget : fatTableGet fatOfFileInFront 2 = .ok 0xfff8 := rfl
  refine ⟨.last hget (by decide), fun d hd => ?_, by simp⟩
  obtain rfl := List.mem_singleton.mp hd
  refine ⟨⟨le_rfl, by omega⟩, .inl rfl, ?_⟩
  simp [fatGetClusterUsage, fileInFront, FatClusterInfo.whole, hsectors]

/-- The run of the three parts of a resize on the file of `fileInFront`. -/
def resizeFileInFront (ctx : FatOpContext) :
    Except Fault (FatTable × Duplication ℤ × FatTable) := do
  let (true, fat) ← fatOpContextCreateInitialFat ctx fileInFront
    | throw (.assertion "fat_op_context_create_initial_fat")
  let (true, s') ← fatDuplicateClusters ctx fileInFront (freshDuplication fat [] [])
    | throw (.assertion "fat_duplicate_clusters")
  let (_, newFat) ← fatConstructNewFat ctx fileInFront fatOfFileInFront s'.remap 0 [] s'.fat
  return (fat, s', newFat)

/-- The parts of a run that succeeds. -/
theorem resizeFileInFront_eq_ok {ctx : FatOpContext} {fat newFat : FatTable}
    {s' : Duplication ℤ} (h : resizeFileInFront ctx = .ok (fat, s', newFat)) :
    fatOpContextCreateInitialFat ctx fileInFront = .ok (true, fat) ∧
      fatDuplicateClusters ctx fileInFront (freshDuplication fat [] []) = .ok (true, s') ∧
      ∃ newRoot, fatConstructNewFat ctx fileInFront fatOfFileInFront s'.remap 0 [] s'.fat
        = .ok (newRoot, newFat) := by
  unfold resizeFileInFront at h
  obtain ⟨⟨ok, fat₁⟩, hinit, h⟩ := bind_eq_ok.mp h
  cases ok with
  | false => simp [throw, throwThe, MonadExceptOf.throw] at h
  | true =>
    obtain ⟨⟨ok, s₁⟩, hdup, h⟩ := bind_eq_ok.mp h
    cases ok with
    | false => simp [throw, throwThe, MonadExceptOf.throw] at h
    | true =>
      obtain ⟨⟨root, fat₂⟩, hnew, h⟩ := bind_eq_ok.mp h
      simp only [pure_eq_ok, Except.ok.injEq, Prod.mk.injEq] at h
      obtain ⟨rfl, rfl, rfl⟩ := h
      exact ⟨hinit, hdup, root, hnew⟩

end Libparted.Fat
