import Libparted.Fs.Fat.Statistics
import Libparted.Fs.Fat.Resize

/-!
# Root directories of converted file systems (`libparted/fs/r/fat/resize.c`)

The root directory of a FAT16 file system has a place of its own; that of a FAT32 file
system is a chain of clusters.  A conversion to FAT32 takes clusters for it from the new
FAT (`alloc_root_dir`), and `fat_construct_new_fat` links them.  A conversion to FAT16
gives up the clusters the root directory had (`free_root_dir`).

`alloc_root_dir` does not mark the clusters it takes.  It relies on the search, which
goes on behind the last cluster it has found.  So the clusters are different as long as
the search does not come around, that is, if there are enough of them
(`allocRootDirFrom_spec`).  Nobody counts them, and nobody looks whether they fit into
`new_root_dir`, which has 32 elements, one of them for the end.  With both, all is well
(`allocRootDir_right`).

`free_root_dir` takes the number of fragments of a cluster from the new file system and
the place of a fragment from the old one, where it should be the other way around.  It
does the right thing if there is no difference (`freeRootDir_right`).

A read of a cluster succeeds or fails depending on the cluster.  The sectors that
`clear_cluster` writes are not part of the state here; the result of that write is ignored.
-/

namespace Libparted.Fat

open Library

/-! ## The functions -/

/-- `fat_table_alloc_check_cluster`.  Each turn but the last marks a cluster, so that
`cluster_count` and one more turns are enough. -/
def fatTableAllocCheckCluster (readable : ℕ → Bool) : ℕ → TableM ℕ
  | 0 => throw .outOfFuel
  | fuel + 1 => do
    let result ← fatTableAllocCluster
    if result = 0 then return 0
    if readable result then return result
    let _ ← fatTableSetBad result
    fatTableAllocCheckCluster readable fuel

/-- The number of elements of `new_root_dir`. -/
def newRootDirSize : ℕ := 32

/-- An assignment to an element of `new_root_dir`. -/
def inNewRootDir (i : ℕ) : Except Fault Unit :=
  if i < newRootDirSize then .ok () else .error (.undefined "ctx->new_root_dir [i]")

theorem inNewRootDir_ok {i : ℕ} (h : i < newRootDirSize) : inNewRootDir i = .ok () := if_pos h

theorem inNewRootDir_error {i : ℕ} (h : newRootDirSize ≤ i) :
    inNewRootDir i = .error (.undefined "ctx->new_root_dir [i]") :=
  if_neg (by omega)

/-- The loop of `alloc_root_dir`, and the end of the list behind it. -/
def allocRootDirFrom (readable : ℕ → Bool) (dir : List ℕ) : ℕ → TableM (Option (List ℕ))
  | 0 => do
    liftM (inNewRootDir dir.length)
    return some dir
  | count + 1 => do
    let ft ← get
    let cluster ← fatTableAllocCheckCluster readable (ft.clusterCount + 1)
    if cluster = 0 then return none
    liftM (inNewRootDir dir.length)
    allocRootDirFrom readable (dir ++ [cluster]) count

/-- The number of clusters `alloc_root_dir` takes. -/
def rootDirClusters (rootDirSectorCount clusterSectors : ℕ) : ℕ :=
  pedDivRoundUp (max 16 rootDirSectorCount) clusterSectors

/-- `alloc_root_dir`: what is in `new_root_dir` in front of the zero. -/
def allocRootDir (ctx : FatOpContext) (rootDirSectorCount : ℕ) (readable : ℕ → Bool) :
    TableM (Option (List ℕ)) := do
  pedAssert (ctx.newFs.fatType = .fat32) "new_fs_info->fat_type == FAT_TYPE_FAT32"
  allocRootDirFrom readable [] (rootDirClusters rootDirSectorCount ctx.newFs.clusterSectors)

/-- `fat_op_context_map_fragment`. -/
def fatOpContextMapFragment (ctx : FatOpContext) (remap : ℕ → ℤ) (frag : ℤ) : Except Fault ℤ :=
  if 0 ≤ frag ∧ frag < ctx.oldFs.fragCount then .ok (remap frag.toNat)
  else .error (.undefined "ctx->remap [frag]")

/-- One turn of the inner loop of `free_root_dir`. -/
def freeFragment (ctx : FatOpContext) (remap : ℕ → ℤ) (frag : ℤ) : TableM Bool := do
  let newFrag ← liftM (fatOpContextMapFragment ctx remap frag)
  -- `ctx->old_fs` is what the source has
  let newClst ← liftM (fatFragToCluster ctx.oldFs newFrag)
  fatTableSetAvail newClst

/-- The outer loop of `free_root_dir`, which follows the old chain. -/
def freeRootDirFrom (ctx : FatOpContext) (oldFat : FatTable) (remap : ℕ → ℤ) :
    ℕ → ℕ → TableM Bool
  | 0, _ => throw .outOfFuel
  | fuel + 1, oldCluster => do
    if fatTableIsEof oldFat oldCluster then return true
    let oldFrag ← liftM (fatClusterToFrag ctx.oldFs oldCluster)
    if ← allOf (fun i : ℕ => freeFragment ctx remap (oldFrag + i))
        (List.range' 0 ctx.newFs.clusterFrags) then
      let next ← liftM (fatTableGet oldFat oldCluster)
      freeRootDirFrom ctx oldFat remap fuel next
    else return false

/-- `free_root_dir`. -/
def freeRootDir (ctx : FatOpContext) (oldFat : FatTable) (remap : ℕ → ℤ) (rootCluster fuel : ℕ) :
    TableM Bool := do
  pedAssert (ctx.oldFs.fatType = .fat32) "old_fs_info->fat_type == FAT_TYPE_FAT32"
  pedAssert (ctx.newFs.fatType = .fat16) "new_fs_info->fat_type == FAT_TYPE_FAT16"
  freeRootDirFrom ctx oldFat remap fuel rootCluster

/-! ## Taking clusters for a root directory -/

/-- The clusters the search can use, in the order in which it comes to them. -/
def goodAround (readable : ℕ → Bool) (ft : FatTable) : List ℕ :=
  (around ft.clusterCount ft.lastAlloc).filter fun c => ft.entry c == 0 && readable c

section Allocation

variable {ft : FatTable} {readable : ℕ → Bool}

theorem mem_goodAround {c : ℕ} :
    c ∈ goodAround readable ft ↔ c < ft.clusterCount ∧ ft.entry c = 0 ∧ readable c = true := by
  simp [goodAround, mem_around]

theorem nodup_goodAround (readable : ℕ → Bool) (ft : FatTable) :
    (goodAround readable ft).Nodup :=
  (nodup_around _ _).filter _

/-- A bad cluster that is marked was none the search could use. -/
theorem goodAround_miss {ft' : FatTable} {c code : ℕ} (hshape : ft.SameShape ft')
    (hlast : ft'.lastAlloc = c) (hentry : ft'.entry = Function.update ft.entry c code)
    (hfind : (around ft.clusterCount ft.lastAlloc).find? (fun c => ft.entry c == 0) = some c)
    (hread : readable c = false) : goodAround readable ft' = goodAround readable ft := by
  have hsame : ∀ d, (ft'.entry d == 0 && readable d) = (ft.entry d == 0 && readable d) := by
    intro d
    by_cases hd : d = c
    · simp [hd, hread]
    · rw [hentry, Function.update_of_ne hd]
  unfold goodAround
  simp only [hsame, hlast, hshape.clusterCount]
  exact filter_around_miss (fun x hx => (Bool.and_eq_true_iff.mp hx).1) hfind (by simp [hread])

theorem fatTableSetBad_run (ft : FatTable) {c : ℕ} (htype : ft.fatType ≠ .fat12)
    (hc : c < ft.clusterCount + 2) :
    ∃ ft', fatTableSetBad c ft = .ok (true, ft') ∧ ft.MarkedAt ft' c (badCode ft.fatType) := by
  have hrun : ∃ ft', fatTableSetBad c ft = .ok (true, ft') := by
    rw [fatTableSetBad_eq htype hc]
    split_ifs
    · exact ⟨_, fatTableSet_eq htype hc⟩
    · exact ⟨_, fatTableSet_eq htype hc⟩
  obtain ⟨ft', hrun⟩ := hrun
  exact ⟨ft', hrun, ((fatTableSetBad_spec ft c).of_ok hrun).2.2.1 rfl⟩

/-- **One cluster** is taken: the next one on the way around that can be read.  If there
is none, the result is 0. -/
theorem fatTableAllocCheckCluster_spec (readable : ℕ → Bool) (fuel : ℕ) (h : ft.Reserved)
    (hfuel : (findable ft).length < fuel) :
    ∃ ft', ft'.Reserved ∧ ft'.fatType = ft.fatType ∧
      ((goodAround readable ft = [] ∧
        fatTableAllocCheckCluster readable fuel ft = .ok (0, ft')) ∨
      ∃ c rest, goodAround readable ft = c :: rest ∧ goodAround readable ft' = rest ++ [c] ∧
        2 ≤ c ∧ fatTableAllocCheckCluster readable fuel ft = .ok (c, ft')) := by
  induction fuel generalizing ft with
  | zero => omega
  | succ fuel ih =>
    have halloc := fatTableAllocCluster_eq h.usable.fatType
    unfold fatTableAllocCheckCluster
    rw [run_bind_ok halloc]
    cases hfind : (around ft.clusterCount ft.lastAlloc).find? fun c => ft.entry c == 0 with
    | none =>
      refine ⟨ft, h, rfl, Or.inl ⟨List.filter_eq_nil_iff.mpr fun c hc hgood => ?_, rfl⟩⟩
      exact List.find?_eq_none.mp hfind c hc (Bool.and_eq_true_iff.mp hgood).1
    | some c =>
      have hzero : ft.entry c = 0 := by simpa using List.find?_some hfind
      have hlt := mem_around.mp (List.mem_of_find?_eq_some hfind)
      have hlow : 2 ≤ c := by
        have : c ≠ 0 := fun heq => h.first (heq ▸ hzero)
        have : c ≠ 1 := fun heq => h.second (heq ▸ hzero)
        omega
      dsimp only
      rw [if_neg (by omega)]
      cases hread : readable c with
      | true =>
        have hsub : ∀ x, (ft.entry x == 0 && readable x) = true → (ft.entry x == 0) = true :=
          fun x hx => (Bool.and_eq_true_iff.mp hx).1
        obtain ⟨rest, hhere, hnext⟩ := filter_around_hit hsub hfind (by simp [hzero, hread])
        exact ⟨{ ft with lastAlloc := c }, ⟨⟨h.usable.1, h.usable.2, h.usable.3⟩, h.first, h.second,
          h.two⟩, rfl, Or.inr ⟨c, rest, hhere, hnext, hlow, rfl⟩⟩
      | false =>
        -- the cluster is marked, and the search goes on
        obtain ⟨ft₁, hbad, hmark⟩ := fatTableSetBad_run { ft with lastAlloc := c }
          h.usable.fatType (show c < ft.clusterCount + 2 by omega)
        have hshape : ft.SameShape ft₁ :=
          ⟨hmark.shape.fatType, hmark.shape.size, hmark.shape.clusterCount⟩
        obtain ⟨h₁, hperm⟩ := h.marked hshape hmark.entry hmark.marked
          (mem_findable.mpr ⟨hlow, hlt, hzero⟩)
        have hless := hperm.length_eq
        rw [List.length_cons] at hless
        obtain ⟨ft', h', htype, hres⟩ := ih h₁ (by omega)
        rw [goodAround_miss hshape hmark.lastAlloc hmark.entry hfind hread] at hres
        rw [if_neg (by simp), run_bind_ok hbad]
        exact ⟨ft', h', htype.trans hshape.fatType, hres⟩

theorem findable_lt (h : ft.Reserved) : (findable ft).length < ft.clusterCount + 1 := by
  have htwo := h.two
  have := List.length_filter_le (fun c => ft.entry c == 0) (List.range' 2 (ft.clusterCount - 2))
  rw [List.length_range'] at this
  unfold findable
  omega

/-- **The loop of `alloc_root_dir`** where there is something to take.  If the list fits into
`new_root_dir`, it consists of such clusters, and they are different if there are enough of
them.  Otherwise it is written beyond the end. -/
theorem allocRootDirFrom_spec (count : ℕ) (dir : List ℕ) (h : ft.Reserved)
    (hgood : goodAround readable ft ≠ []) :
    (dir.length + count < newRootDirSize → ∃ new ft',
      allocRootDirFrom readable dir count ft = .ok (some (dir ++ new), ft') ∧
      ft'.fatType = ft.fatType ∧ new.length = count ∧ new ⊆ goodAround readable ft ∧
      (count ≤ (goodAround readable ft).length → new = (goodAround readable ft).take count)) ∧
    (newRootDirSize ≤ dir.length + count →
      allocRootDirFrom readable dir count ft
        = .error (.undefined "ctx->new_root_dir [i]")) := by
  induction count generalizing ft dir with
  | zero =>
    refine ⟨fun hlt => ⟨[], ft, ?_, rfl, rfl, List.nil_subset _, fun _ => rfl⟩, fun hge => ?_⟩
    · rw [List.append_nil, allocRootDirFrom, run_bind_ok (run_lift_ok (inNewRootDir_ok (by omega)))]
      rfl
    · rw [allocRootDirFrom]
      exact run_bind_error (by rw [inNewRootDir_error (by omega)]; rfl)
  | succ count ih =>
    have hget : (get : TableM FatTable) ft = .ok (ft, ft) := rfl
    obtain ⟨ft₁, h₁, htype, ⟨hnone, -⟩ | ⟨c, rest, hhere, hnext, hlow, hrun⟩⟩ :=
      fatTableAllocCheckCluster_spec readable (ft.clusterCount + 1) h (findable_lt h)
    · exact absurd hnone hgood
    rw [allocRootDirFrom, run_bind_ok hget, run_bind_ok hrun, if_neg (by omega)]
    obtain ⟨hfits, hover⟩ := ih (dir ++ [c]) h₁ (by simp [hnext])
    rw [hhere]
    rw [List.length_append, List.length_singleton] at hfits hover
    refine ⟨fun hlt => ?_, fun hge => ?_⟩
    · obtain ⟨new, ft', hrest, htype', hlen, hsub, htake⟩ := hfits (by omega)
      rw [hnext] at hsub htake
      refine ⟨c :: new, ft', ?_, htype'.trans htype, by rw [List.length_cons, hlen], ?_, ?_⟩
      · rw [run_bind_ok (run_lift_ok (inNewRootDir_ok (by omega))), hrest, List.append_assoc]
        rfl
      · refine List.cons_subset.mpr ⟨List.mem_cons_self, fun d hd => ?_⟩
        have := hsub hd
        simp only [List.mem_append, List.mem_singleton] at this
        exact List.mem_cons.mpr this.symm
      · intro hle
        rw [List.length_cons] at hle
        rw [htake (by rw [List.length_append]; omega), List.take_succ_cons,
          List.take_append_of_le_length (by omega)]
    · by_cases hin : dir.length < newRootDirSize
      · rw [run_bind_ok (run_lift_ok (inNewRootDir_ok hin))]
        exact hover (by omega)
      · exact run_bind_error (by rw [inNewRootDir_error (by omega)]; rfl)

/-- Without a cluster to take, `alloc_root_dir` fails. -/
theorem allocRootDirFrom_none (count : ℕ) (h : ft.Reserved) (hgood : goodAround readable ft = []) :
    ∃ ft', allocRootDirFrom readable [] (count + 1) ft = .ok (none, ft') := by
  have hget : (get : TableM FatTable) ft = .ok (ft, ft) := rfl
  obtain ⟨ft₁, -, -, ⟨-, hrun⟩ | ⟨c, rest, hhere, -⟩⟩ :=
    fatTableAllocCheckCluster_spec readable (ft.clusterCount + 1) h (findable_lt h)
  · refine ⟨ft₁, ?_⟩
    rw [allocRootDirFrom, run_bind_ok hget, run_bind_ok hrun]
    rfl
  · rw [hgood] at hhere
    cases hhere

end Allocation

/-! ## Linking them -/

section Linking

variable {ctx : FatOpContext} {info : ℕ → FatClusterInfo} {oldFat : FatTable} {remap : ℕ → ℤ}

/-- **The links of a root directory.**  Different clusters of the file system become a chain,
and no other code changes. -/
theorem linkRootDir_spec {c : ℕ} {dir : List ℕ} (ft : FatTable) (htype : ft.fatType = .fat32)
    (hmax : ft.clusterCount ≤ fatMaxClusterCount .fat32) (hnodup : (c :: dir).Nodup)
    (hdir : ∀ d ∈ c :: dir, d < ft.clusterCount + 2) :
    ∃ ft', linkRootDir (c :: dir) ft = .ok ((), ft') ∧ ft.SameShape ft' ∧
      (∀ d, d ∉ c :: dir → ft'.entry d = ft.entry d) ∧ FatChain ft' c (c :: dir) := by
  have hfat : ft.fatType ≠ .fat12 := by simp [htype]
  have hc := hdir c List.mem_cons_self
  induction dir generalizing c ft with
  | nil =>
    obtain ⟨ft', hrun, hshape, hentry⟩ := fatTableSetEof_run ft hfat hc
    have hget : fatTableGet ft' c = .ok (eofCode .fat32) :=
      fatTableGet_eq_ok.mpr ⟨hshape.clusterCount.symm ▸ hc, hshape.fatType.symm ▸ hfat, by
        rw [hentry, Function.update_self, htype]⟩
    refine ⟨ft', ?_, hshape, fun d hd => ?_, .last hget ?_⟩
    · rw [linkRootDir, run_bind_ok hrun]
      rfl
    · rw [hentry, Function.update_of_ne (by simpa using hd)]
    · rw [hshape.fatType, htype]
      decide
  | cons d dir ih =>
    obtain ⟨hout, hrest⟩ := List.nodup_cons.mp hnodup
    have hd := hdir d (by simp)
    obtain ⟨ft₁, hrun₁, hshape₁, hentry₁⟩ : ∃ ft₁, fatTableSet c d ft = .ok (true, ft₁) ∧
        ft.SameShape ft₁ ∧ ft₁.entry = Function.update ft.entry c (storedCode ft.fatType d) :=
      ⟨_, fatTableSet_eq hfat hc, ⟨rfl, rfl, rfl⟩, rfl⟩
    obtain ⟨ft', hrun, hshape, hframe, hchain⟩ := ih ft₁ (hshape₁.fatType.trans htype)
      (hshape₁.clusterCount.symm ▸ hmax) hrest
      (fun e he => hshape₁.clusterCount.symm ▸ hdir e (List.mem_cons_of_mem _ he))
      (by simp [hshape₁.fatType, htype]) (hshape₁.clusterCount.symm ▸ hd)
    have hshape' := hshape₁.trans hshape
    have hget : fatTableGet ft' c = .ok d := by
      refine fatTableGet_eq_ok.mpr
        ⟨hshape'.clusterCount.symm ▸ hc, hshape'.fatType.symm ▸ hfat, ?_⟩
      rw [hframe c hout, hentry₁, Function.update_self, htype]
      simp only [fatMaxClusterCount] at hmax
      exact Nat.mod_eq_of_lt (by omega)
    refine ⟨ft', ?_, hshape', fun e he => ?_, .link hget ?_ hchain⟩
    · rw [linkRootDir, run_bind_ok hrun₁]
      exact hrun
    · have hne : e ≠ c := fun heq => he (heq ▸ List.mem_cons_self)
      rw [hframe e fun hmem => he (List.mem_cons_of_mem _ hmem), hentry₁,
        Function.update_of_ne hne]
    · simp only [fatTableIsEof, testCodeEof, hshape'.fatType, htype, badCode,
        decide_eq_false_iff_not, not_le]
      simp only [fatMaxClusterCount] at hmax
      omega

/-- The turns of the construction change codes only. -/
theorem constructFragment_shape (i : ℕ) (ft : FatTable) :
    Spec (fun _ => True) (constructFragment ctx info oldFat remap i) ft
      fun _ ft' => ft.SameShape ft' := by
  unfold constructFragment
  refine spec_bind.mpr (Spec.lift (fun _ _ => trivial) fun flag _ => ?_)
  cases flag with
  | free => exact spec_pure.mpr (.refl _)
  | bad =>
    refine Spec.ite (fun _ => spec_pure.mpr (.refl _)) fun _ => ?_
    refine spec_bind.mpr (Spec.lift (fun _ _ => trivial) fun _ _ => ?_)
    exact (fatTableSetBad_spec ft _).seq fun _ _ h => spec_pure.mpr h.1
  | file | directory =>
    refine spec_bind.mpr (Spec.lift (fun _ _ => trivial) fun _ _ => ?_)
    refine spec_bind.mpr (Spec.lift (fun _ _ => trivial) fun _ _ => ?_)
    refine Spec.ite (fun _ => ?_) fun _ => ?_
    · exact (fatTableSetEof_spec ft _).seq fun _ _ h => spec_pure.mpr h.1
    · refine spec_bind.mpr (Spec.lift (fun _ _ => trivial) fun _ _ => ?_)
      refine spec_bind.mpr (Spec.lift (fun _ _ => trivial) fun _ _ => ?_)
      refine spec_bind.mpr (Spec.lift (fun _ _ => trivial) fun _ _ => ?_)
      exact (fatTableSet_spec ft _ _).seq fun _ _ h => spec_pure.mpr h.1

/-- **The root directory in the new FAT** of a conversion to FAT32. -/
theorem fatConstructNewFat_rootDir {c : ℕ} {dir : List ℕ} (ft : FatTable)
    (hold : ctx.oldFs.fatType = .fat16) (hnew : ctx.newFs.fatType = .fat32)
    (htype : ft.fatType = .fat32) (hmax : ctx.newFs.clusterCount ≤ fatMaxClusterCount .fat32)
    (hnodup : (c :: dir).Nodup) (hdir : ∀ d ∈ c :: dir, d < ctx.newFs.clusterCount + 2)
    (rootCluster : ℕ) :
    Spec (fun _ => True) (fatConstructNewFat ctx info oldFat remap rootCluster (c :: dir)) ft
      fun _ ft' => FatChain ft' c (c :: dir) := by
  unfold fatConstructNewFat
  refine (fatTableClear_spec ft).seq fun _ ft₁ ⟨hshape₁, _⟩ => ?_
  refine (fatTableSetClusterCount_spec ft₁ _).seq fun _ ft₂ ⟨htype₂, _, hcount₂, _⟩ => ?_
  have hloop : Spec (fun _ => True)
      (runAll (constructFragment ctx info oldFat remap) (List.range' 0 ctx.oldFs.fragCount.toNat))
      ft₂ fun _ ft' => ft₂.SameShape ft' :=
    Spec.runAll (fun i t ht => (constructFragment_shape i t).imp fun _ _ h => ht.trans h) _
      (.refl _)
  refine hloop.seq fun _ ft₃ hshape₃ => ?_
  have hcount₃ : ft₃.clusterCount = ctx.newFs.clusterCount := hshape₃.clusterCount.trans hcount₂
  have htype₃ : ft₃.fatType = .fat32 := by
    rw [hshape₃.fatType, htype₂, hshape₁.fatType, htype]
  obtain ⟨ft', hrun, -, -, hchain⟩ := linkRootDir_spec ft₃ htype₃ (hcount₃.symm ▸ hmax) hnodup
    (by rw [hcount₃]; exact hdir)
  refine Spec.ite (fun h => by rw [hold] at h; simp at h) fun _ => ?_
  refine Spec.ite (fun _ => ?_) fun h => absurd ⟨hold, hnew⟩ h
  exact ((spec_of_ok hrun).mpr hchain).seq fun _ _ h => spec_pure.mpr h

end Linking

/-! ## Conversions to FAT32 -/

/-- What a conversion to FAT32 needs of the clusters in `new_root_dir`.  They fit, with the
zero behind them; they are different, and they were available; and the new FAT makes a chain
of them. -/
structure RootDirAllocated (ctx : FatOpContext) (ft ft' : FatTable) (dir : List ℕ) : Prop where
  fits : dir.length < newRootDirSize
  nodup : dir.Nodup
  available : ∀ c ∈ dir, 2 ≤ c ∧ c < ft.clusterCount + 2 ∧ ft.entry c = 0
  chain : ∀ info oldFat remap rootCluster newRoot newFat,
    fatConstructNewFat ctx info oldFat remap rootCluster dir ft' = .ok (newRoot, newFat) →
      FatChain newFat (dir.headD 0) dir

/-- `alloc_root_dir` returns, and if it succeeds, the clusters are right. -/
def AllocatesRight (ctx : FatOpContext) (rootDirSectorCount : ℕ) (readable : ℕ → Bool)
    (ft : FatTable) : Prop :=
  ∃ result ft', allocRootDir ctx rootDirSectorCount readable ft = .ok (result, ft') ∧
    ∀ dir, result = some dir → RootDirAllocated ctx ft ft' dir

/-- The number of clusters that can be taken for a root directory. -/
def usableClusters (readable : ℕ → Bool) (ft : FatTable) : ℕ :=
  (List.range ft.clusterCount).countP fun c => ft.entry c == 0 && readable c

section Conversion

variable {ctx : FatOpContext} {ft : FatTable} {readable : ℕ → Bool} {rootDirSectorCount : ℕ}

theorem length_goodAround (readable : ℕ → Bool) (ft : FatTable) :
    (goodAround readable ft).length = usableClusters readable ft := by
  rw [goodAround, ← List.countP_eq_length_filter]
  exact (List.rotate_perm _ _).countP_eq _

theorem rootDirClusters_pos (rootDirSectorCount : ℕ) {clusterSectors : ℕ}
    (h : 0 < clusterSectors) : 0 < rootDirClusters rootDirSectorCount clusterSectors := by
  unfold rootDirClusters pedDivRoundUp
  exact Nat.div_pos (by omega) h

theorem allocRootDir_eq (hnew : ctx.newFs.fatType = .fat32) :
    allocRootDir ctx rootDirSectorCount readable ft
      = allocRootDirFrom readable []
        (rootDirClusters rootDirSectorCount ctx.newFs.clusterSectors) ft := by
  have hassert : pedAssert (ctx.newFs.fatType = .fat32) "new_fs_info->fat_type == FAT_TYPE_FAT32"
      = .ok () := by
    simp [pedAssert, hnew]
  unfold allocRootDir
  rw [run_bind_ok (run_lift_ok hassert)]

/-- **Root directories of conversions to FAT32.**  They are right if there is no cluster to
take at all, which is an error, or if the clusters fit into `new_root_dir` and there are
enough of them. -/
theorem allocRootDir_right (hold : ctx.oldFs.fatType = .fat16) (hnew : ctx.newFs.fatType = .fat32)
    (hft : ft.Reserved) (htype : ft.fatType = .fat32)
    (hcount : ft.clusterCount = ctx.newFs.clusterCount)
    (hmax : ctx.newFs.clusterCount ≤ fatMaxClusterCount .fat32) :
    AllocatesRight ctx rootDirSectorCount readable ft ↔
      usableClusters readable ft = 0 ∨
        rootDirClusters rootDirSectorCount ctx.newFs.clusterSectors < newRootDirSize ∧
        rootDirClusters rootDirSectorCount ctx.newFs.clusterSectors
          ≤ usableClusters readable ft := by
  have hpos := rootDirClusters_pos rootDirSectorCount ctx.newFs.clusterSectors_pos
  unfold AllocatesRight
  rw [allocRootDir_eq hnew, ← length_goodAround]
  set count := rootDirClusters rootDirSectorCount ctx.newFs.clusterSectors
  by_cases hgood : goodAround readable ft = []
  · obtain ⟨ft', hrun⟩ := allocRootDirFrom_none (count - 1) hft hgood
    rw [Nat.sub_add_cancel hpos] at hrun
    exact ⟨fun _ => .inl (by rw [hgood]; rfl), fun _ => ⟨none, ft', hrun, by simp⟩⟩
  obtain ⟨hfits, hover⟩ := allocRootDirFrom_spec count [] hft hgood
  rw [List.length_nil, Nat.zero_add] at hfits hover
  have hlen : (goodAround readable ft).length ≠ 0 := by simpa using hgood
  constructor
  · rintro ⟨result, ft', hrun, hright⟩
    by_cases hlt : count < newRootDirSize
    · obtain ⟨new, ft₁, hrun₁, -, hnewLen, hsub, -⟩ := hfits hlt
      obtain ⟨rfl, rfl⟩ := Prod.mk.inj (Except.ok.inj (hrun₁.symm.trans hrun))
      -- different clusters are at most as many as there are to take
      have hle := (List.subperm_of_subset (hright new rfl).nodup hsub).length_le
      exact .inr ⟨hlt, hnewLen ▸ hle⟩
    · rw [hover (by omega)] at hrun
      cases hrun
  · rintro (hzero | ⟨hlt, hle⟩)
    · exact absurd hzero hlen
    obtain ⟨new, ft', hrun, htype', hnewLen, hsub, htake⟩ := hfits hlt
    refine ⟨some new, ft', hrun, fun dir hdir => ?_⟩
    obtain rfl := Option.some.inj hdir
    have hnodup : new.Nodup := by
      rw [htake hle]
      exact (nodup_goodAround _ _).sublist (List.take_sublist _ _)
    have havailable : ∀ c ∈ new, 2 ≤ c ∧ c < ft.clusterCount + 2 ∧ ft.entry c = 0 := by
      intro c hc
      obtain ⟨hclt, hzero, -⟩ := mem_goodAround.mp (hsub hc)
      have : c ≠ 0 := fun heq => hft.first (heq ▸ hzero)
      have : c ≠ 1 := fun heq => hft.second (heq ▸ hzero)
      exact ⟨by omega, by omega, hzero⟩
    refine ⟨hnewLen ▸ hlt, hnodup, havailable, ?_⟩
    intro info oldFat remap rootCluster newRoot newFat hconstruct
    cases new with
    | nil => simp at hnewLen; omega
    | cons c rest =>
      refine (fatConstructNewFat_rootDir ft' hold hnew (htype'.trans htype) hmax hnodup
        (fun d hd => ?_) rootCluster).of_ok hconstruct
      rw [← hcount]
      exact (havailable d hd).2.1

end Conversion

/-! ## Giving up the clusters of a root directory -/

/-- A cluster of the new file system holds a fragment in use of an old chain. -/
def HoldsFragment (ctx : FatOpContext) (info : ℕ → FatClusterInfo) (remap : ℕ → ℤ) (cs : List ℕ)
    (c : ℕ) : Prop :=
  ∃ f ∈ cs.flatMap (activeFragments ctx.oldFs info), fatFragToCluster ctx.newFs (remap f) = .ok c

/-- `free_root_dir` succeeds, and makes available what held the old root directory, and
nothing else. -/
def FreesRight (ctx : FatOpContext) (info : ℕ → FatClusterInfo) (oldFat : FatTable)
    (remap : ℕ → ℤ) (rootCluster : ℕ) (cs : List ℕ) (ft : FatTable) : Prop :=
  ∃ enough, ∀ fuel ≥ enough, ∃ ft',
    freeRootDir ctx oldFat remap rootCluster fuel ft = .ok (true, ft') ∧
    (∀ c, HoldsFragment ctx info remap cs c → ft'.entry c = 0) ∧
    ∀ c, ¬HoldsFragment ctx info remap cs c → ft'.entry c = ft.entry c

section Freeing

variable {ctx : FatOpContext} {info : ℕ → FatClusterInfo} {oldFat ft : FatTable} {remap : ℕ → ℤ}
variable {c rootCluster : ℕ} {cs : List ℕ}

/-- A table that has a chain from a cluster has a shorter one from each cluster behind it. -/
theorem FatChain.of_mem {d : ℕ} (h : FatChain ft c cs) (hd : d ∈ cs) :
    ∃ ds, FatChain ft d ds ∧ ds.length ≤ cs.length := by
  induction h with
  | @last c _ hget hend =>
    obtain rfl := List.mem_singleton.mp hd
    exact ⟨[d], .last hget hend, le_rfl⟩
  | @link c e es hget hlink hrest ih =>
    rcases List.mem_cons.mp hd with rfl | hd
    · exact ⟨d :: es, .link hget hlink hrest, le_rfl⟩
    · obtain ⟨ds, hds, hle⟩ := ih hd
      exact ⟨ds, hds, hle.trans (Nat.le_succ _)⟩

/-- A chain that ends comes through no cluster twice. -/
theorem FatChain.nodup (h : FatChain ft c cs) : cs.Nodup := by
  induction h with
  | last => exact List.nodup_singleton _
  | @link c e es hget hlink hrest ih =>
    refine List.nodup_cons.mpr ⟨fun hmem => ?_, ih⟩
    obtain ⟨ds, hds, hle⟩ := hrest.of_mem hmem
    have := congrArg List.length ((FatChain.link hget hlink hrest).unique hds)
    rw [List.length_cons] at this
    omega

/-- A chain of clusters with numbers has no code zero. -/
theorem FatChain.entry_ne_zero {d : ℕ} (h : FatChain ft c cs) (hcs : ∀ e ∈ cs, e ≠ 0)
    (hd : d ∈ cs) : ft.entry d ≠ 0 := by
  induction h with
  | @last c code hget hend =>
    obtain rfl := List.mem_singleton.mp hd
    rw [(fatTableGet_eq_ok.mp hget).2.2]
    omega
  | @link c e es hget hlink hrest ih =>
    rcases List.mem_cons.mp hd with rfl | hd
    · rw [(fatTableGet_eq_ok.mp hget).2.2]
      exact hcs e (List.mem_cons_of_mem _ hrest.head)
    · exact ih (fun e' he' => hcs e' (List.mem_cons_of_mem _ he')) hd

/-- What one turn of the inner loop can do: it frees one cluster of the new file system, and
the place of the fragment is one the old file system has. -/
theorem freeFragment_spec (f : ℤ) (ft : FatTable) :
    Spec (fun _ => True) (freeFragment ctx remap f) ft fun _ ft' =>
      remap f.toNat < ctx.oldFs.fragCount ∧ ∃ freed, ∀ d, d ≠ freed → ft'.entry d = ft.entry d := by
  unfold freeFragment fatOpContextMapFragment
  refine spec_bind.mpr (Spec.lift (fun _ _ => trivial) fun newFrag hnewFrag => ?_)
  split_ifs at hnewFrag
  obtain rfl := Except.ok.inj hnewFrag
  refine spec_bind.mpr (Spec.lift (fun _ _ => trivial) fun newClst hnewClst => ?_)
  refine (fatTableSet_spec ft newClst 0).imp fun ok ft' ⟨_, _, _, hentry⟩ =>
    ⟨(fatFragToCluster_eq_ok.mp hnewClst).2.1, newClst, fun d hd => ?_⟩
  cases ok with
  | false => simp [hentry]
  | true => simp [hentry, Function.update_of_ne hd]

/-- A turn of the outer loop where a new cluster is one fragment. -/
theorem freeRootDirFrom_succ (hgrid : ctx.Grid) (hone : ctx.newFs.clusterFrags = 1) (fuel : ℕ)
    (hc : ctx.oldFs.IsCluster c) (heof : fatTableIsEof oldFat c = false) :
    freeRootDirFrom ctx oldFat remap (fuel + 1) c = (do
      if ← freeFragment ctx remap ((c - 2) * ctx.oldFs.clusterFrags : ℕ) then
        let next ← liftM (fatTableGet oldFat c)
        freeRootDirFrom ctx oldFat remap fuel next
      else return false) := by
  funext ft
  rw [freeRootDirFrom, heof, if_neg (by simp), hone,
    run_bind_ok (run_lift_ok (hgrid.oldClusterToFrag_eq hc))]
  simp only [List.range'_one, allOf, bind_assoc, Nat.cast_zero, add_zero]
  refine congrFun (congrArg _ (funext fun ok => ?_)) ft
  cases ok <;> rfl

/-- **What `free_root_dir` can do** where a new cluster is one fragment: for each cluster of the
old chain it frees one cluster, and the place of the first fragment is one the old file system
has. -/
theorem freeRootDirFrom_spec (hgrid : ctx.Grid) (hone : ctx.newFs.clusterFrags = 1) (fuel : ℕ)
    (h : FatChain oldFat c cs) (hcs : ∀ d ∈ cs, ctx.oldFs.IsCluster d)
    (heof : fatTableIsEof oldFat c = false) (ft : FatTable) :
    Spec (fun _ => True) (freeRootDirFrom ctx oldFat remap fuel c) ft fun ok ft' => ok = true →
      (∀ d ∈ cs, remap ((d - 2) * ctx.oldFs.clusterFrags) < ctx.oldFs.fragCount) ∧
      ∃ freed : List ℕ, freed.length = cs.length ∧ ∀ d, d ∉ freed → ft'.entry d = ft.entry d := by
  induction h generalizing fuel ft with
  | @last c code hget hend =>
    cases fuel with
    | zero => exact spec_throw.mpr trivial
    | succ fuel =>
      rw [freeRootDirFrom_succ hgrid hone fuel (hcs c List.mem_cons_self) heof]
      refine (freeFragment_spec _ ft).seq fun ok ft₁ ⟨hplace, freed, hframe⟩ => ?_
      rw [Int.toNat_natCast] at hplace
      refine Spec.ite (fun _ => ?_) fun _ => spec_pure.mpr (by simp)
      rw [hget]
      refine spec_bind.mpr (Spec.lift (fails_ok _) fun next hnext => ?_)
      obtain rfl := Except.ok.inj hnext
      cases fuel with
      | zero => exact spec_throw.mpr trivial
      | succ fuel =>
        have hstop : fatTableIsEof oldFat code = true := by
          simp [fatTableIsEof, testCodeEof, hend.le]
        rw [freeRootDirFrom, if_pos hstop]
        refine spec_pure.mpr fun _ => ⟨?_, [freed], rfl, fun d hd => ?_⟩
        · simpa using hplace
        · exact hframe d (by simpa using hd)
  | @link c d ds hget hlink hrest ih =>
    cases fuel with
    | zero => exact spec_throw.mpr trivial
    | succ fuel =>
      rw [freeRootDirFrom_succ hgrid hone fuel (hcs c List.mem_cons_self) heof]
      refine (freeFragment_spec _ ft).seq fun ok ft₁ ⟨hplace, freed, hframe⟩ => ?_
      rw [Int.toNat_natCast] at hplace
      refine Spec.ite (fun _ => ?_) fun _ => spec_pure.mpr (by simp)
      rw [hget]
      refine spec_bind.mpr (Spec.lift (fails_ok _) fun next hnext => ?_)
      obtain rfl := Except.ok.inj hnext
      refine (ih fuel (fun e he => hcs e (List.mem_cons_of_mem _ he)) hlink ft₁).imp
        fun ok' ft' hrest' hok => ?_
      obtain ⟨hplaces, more, hlen, hmore⟩ := hrest' hok
      refine ⟨List.forall_mem_cons.mpr ⟨hplace, hplaces⟩, freed :: more, ?_,
        fun e he => ?_⟩
      · rw [List.length_cons, List.length_cons, hlen]
      · rw [hmore e fun hmem => he (List.mem_cons_of_mem _ hmem),
          hframe e fun heq => he (heq ▸ List.mem_cons_self)]

/-- A turn of the inner loop where clusters of both file systems are one fragment. -/
theorem freeFragment_run (hgrid : ctx.Grid) (hremap : Remapped ctx info remap)
    (hfrags : ctx.oldFs.clusterFrags = 1) {f : ℕ} (hf : Active ctx info f)
    (hplace : remap f < ctx.oldFs.fragCount) (ft : FatTable) (htype : ft.fatType ≠ .fat12)
    (hcount : ft.clusterCount = ctx.newFs.clusterCount) :
    ∃ ft', freeFragment ctx remap f ft = .ok (true, ft') ∧ ft.SameShape ft' ∧
      ft'.entry = Function.update ft.entry (newCluster remap f) 0 := by
  have hmap : fatOpContextMapFragment ctx remap f = .ok (remap f) := by
    rw [fatOpContextMapFragment, if_pos ⟨Int.natCast_nonneg f, hf.lt⟩, Int.toNat_natCast]
  have hcluster : fatFragToCluster ctx.oldFs (remap f) = .ok (newCluster remap f) := by
    have h0 := (hremap.range f hf).1
    refine fatFragToCluster_eq_ok.mpr ⟨h0, hplace, ?_, Nat.le_add_left 2 _⟩
    rw [hfrags, newCluster, Nat.cast_one, Int.ediv_one]
    omega
  have hin : newCluster remap f < ft.clusterCount + 2 := by
    rw [hcount]
    exact (hremap.isCluster hgrid hf).2
  have hzero : storedCode ft.fatType 0 = 0 := by cases ft.fatType <;> rfl
  obtain ⟨ft', hset, hshape, hentry⟩ : ∃ ft',
      fatTableSet (newCluster remap f) 0 ft = .ok (true, ft') ∧ ft.SameShape ft' ∧
      ft'.entry = Function.update ft.entry (newCluster remap f) (storedCode ft.fatType 0) :=
    ⟨_, fatTableSet_eq htype hin, ⟨rfl, rfl, rfl⟩, rfl⟩
  refine ⟨ft', ?_, hshape, hzero ▸ hentry⟩
  rw [freeFragment, run_bind_ok (run_lift_ok hmap), run_bind_ok (run_lift_ok hcluster)]
  exact hset

/-- **`free_root_dir` where it is right**: clusters of both file systems are one fragment, and
the places are ones the old file system has. -/
theorem freeRootDirFrom_run (hgrid : ctx.Grid) (hremap : Remapped ctx info remap)
    (hfrags : ctx.oldFs.clusterFrags = 1) (h : FatChain oldFat c cs)
    (hcs : ∀ d ∈ cs, ctx.oldFs.IsCluster d ∧ Active ctx info (d - 2))
    (hplaces : ∀ d ∈ cs, remap (d - 2) < ctx.oldFs.fragCount)
    (heof : fatTableIsEof oldFat c = false) {fuel : ℕ} (hfuel : cs.length < fuel) (ft : FatTable)
    (htype : ft.fatType ≠ .fat12) (hcount : ft.clusterCount = ctx.newFs.clusterCount) :
    ∃ ft', freeRootDirFrom ctx oldFat remap fuel c ft = .ok (true, ft') ∧
      ∀ e, ft'.entry e
        = if e ∈ cs.map (fun d => newCluster remap (d - 2)) then 0 else ft.entry e := by
  induction h generalizing fuel ft with
  | @last c code hget hend =>
    obtain ⟨hc, hactive⟩ := hcs c List.mem_cons_self
    obtain ⟨ft₁, hrun, -, hentry⟩ := freeFragment_run hgrid hremap hfrags hactive
      (hplaces c List.mem_cons_self) ft htype hcount
    have hstop : fatTableIsEof oldFat code = true := by
      simp [fatTableIsEof, testCodeEof, hend.le]
    obtain ⟨fuel, rfl⟩ := Nat.exists_eq_add_of_lt hfuel
    refine ⟨ft₁, ?_, fun e => ?_⟩
    · rw [List.length_singleton, show 1 + fuel + 1 = fuel + 1 + 1 by omega,
        freeRootDirFrom_succ hgrid hremap.one _ hc heof, hfrags, Nat.mul_one, run_bind_ok hrun,
        if_pos rfl, run_bind_ok (run_lift_ok hget), freeRootDirFrom, if_pos hstop]
      rfl
    · rw [hentry, Function.update_apply]
      simp
  | @link c d ds hget hlink hrest ih =>
    obtain ⟨hc, hactive⟩ := hcs c List.mem_cons_self
    obtain ⟨ft₁, hrun, hshape, hentry⟩ := freeFragment_run hgrid hremap hfrags hactive
      (hplaces c List.mem_cons_self) ft htype hcount
    rw [List.length_cons] at hfuel
    obtain ⟨fuel, rfl⟩ := Nat.exists_eq_add_of_lt (show 0 < fuel by omega)
    obtain ⟨ft', hrun', hentry'⟩ := ih (fun e he => hcs e (List.mem_cons_of_mem _ he))
      (fun e he => hplaces e (List.mem_cons_of_mem _ he)) hlink (show ds.length < 0 + fuel by omega)
      ft₁ (hshape.fatType.symm ▸ htype) (hshape.clusterCount.trans hcount)
    refine ⟨ft', ?_, fun e => ?_⟩
    · rw [freeRootDirFrom_succ hgrid hremap.one _ hc heof, hfrags, Nat.mul_one, run_bind_ok hrun,
        if_pos rfl, run_bind_ok (run_lift_ok hget)]
      exact hrun'
    · rw [hentry', hentry, Function.update_apply, List.map_cons]
      by_cases he : e = newCluster remap (c - 2)
      · simp [he]
      · simp only [he, if_false, List.mem_cons, false_or]

/-- The fragments in use of a directory: all of its clusters are used up. -/
theorem OldChain.length_fragments (hgrid : ctx.Grid) (h : OldChain ctx.oldFs info oldFat c cs)
    (hfull : ∀ d ∈ cs, (info d).unitsUsed = 0) :
    (cs.flatMap (activeFragments ctx.oldFs info)).length = cs.length * ctx.oldFs.clusterFrags := by
  have hlen : ∀ d ∈ cs, (activeFragments ctx.oldFs info d).length = ctx.oldFs.clusterFrags := by
    intro d hd
    rw [(h.inUse d hd).activeFragments_eq hgrid, List.length_range',
      (h.inUse d hd).usedFrags_full hgrid (hfull d hd)]
  rw [List.length_flatMap, List.map_congr_left hlen, List.map_const',
    List.sum_replicate_nat]

theorem OldChain.nodup_fragments (hgrid : ctx.Grid) (h : OldChain ctx.oldFs info oldFat c cs) :
    (cs.flatMap (activeFragments ctx.oldFs info)).Nodup := by
  refine List.nodup_flatMap.mpr ⟨fun d _ => List.Nodup.filter _ List.nodup_range', ?_⟩
  refine h.chain.nodup.imp_of_mem fun {d e} hd he hne => ?_
  intro f hf hf'
  have hcluster {d : ℕ} (hd : d ∈ cs) (hf : f ∈ activeFragments ctx.oldFs info d) :
      fatFragToCluster ctx.oldFs f = .ok d := by
    have hrange := List.mem_range'_1.mp (List.mem_filter.mp hf).1
    obtain ⟨j, rfl⟩ := Nat.exists_eq_add_of_le hrange.1
    exact (hgrid.fragment_of_cluster (h.inUse d hd).cluster (by omega)).1
  exact hne (Except.ok.inj ((hcluster hd hf).symm.trans (hcluster he hf')))

theorem OldChain.holdsFragment_iff (hgrid : ctx.Grid) (hremap : Remapped ctx info remap)
    (h : OldChain ctx.oldFs info oldFat c cs) {d : ℕ} :
    HoldsFragment ctx info remap cs d ↔
      d ∈ (cs.flatMap (activeFragments ctx.oldFs info)).map (newCluster remap) := by
  have hcluster {f : ℕ} (hf : f ∈ cs.flatMap (activeFragments ctx.oldFs info)) :
      fatFragToCluster ctx.newFs (remap f) = .ok (newCluster remap f) :=
    hremap.fatFragToCluster_eq ((h.fragChain hgrid).active hf)
  rw [List.mem_map]
  constructor
  · rintro ⟨f, hf, hd⟩
    exact ⟨f, hf, Except.ok.inj ((hcluster hf).symm.trans hd)⟩
  · rintro ⟨f, hf, rfl⟩
    exact ⟨f, hf, hcluster hf⟩

theorem freeRootDir_eq (hold : ctx.oldFs.fatType = .fat32) (hnew : ctx.newFs.fatType = .fat16)
    (fuel : ℕ) :
    freeRootDir ctx oldFat remap rootCluster fuel ft
      = freeRootDirFrom ctx oldFat remap fuel rootCluster ft := by
  have hassert : pedAssert (ctx.oldFs.fatType = .fat32) "old_fs_info->fat_type == FAT_TYPE_FAT32"
      = .ok () := by
    simp [pedAssert, hold]
  have hassert' : pedAssert (ctx.newFs.fatType = .fat16) "new_fs_info->fat_type == FAT_TYPE_FAT16"
      = .ok () := by
    simp [pedAssert, hnew]
  unfold freeRootDir
  rw [run_bind_ok (run_lift_ok hassert), run_bind_ok (run_lift_ok hassert')]

/-- **Root directories of conversions to FAT16.**  They are given up right exactly if clusters
of both file systems have one size, and the places of the root directory are below the number
of fragments of the old file system. -/
theorem freeRootDir_right (hgrid : ctx.Grid) (hremap : Remapped ctx info remap)
    (hold : ctx.oldFs.fatType = .fat32) (hnew : ctx.newFs.fatType = .fat16)
    (hmax : ctx.newFs.clusterCount ≤ fatMaxClusterCount .fat16)
    (h : OldChain ctx.oldFs info oldFat rootCluster cs) (hfull : ∀ d ∈ cs, (info d).unitsUsed = 0)
    (heof : fatTableIsEof oldFat rootCluster = false) (htype : ft.fatType = .fat16)
    (hft : Constructed ctx info oldFat remap ft.fatType ctx.oldFs.fragCount.toNat ft) :
    FreesRight ctx info oldFat remap rootCluster cs ft ↔
      ctx.oldFs.clusterFrags = 1 ∧ ∀ d ∈ cs, remap (d - 2) < ctx.oldFs.fragCount := by
  have hcs : ∀ d ∈ cs, ctx.oldFs.IsCluster d := fun d hd => (h.inUse d hd).cluster
  have hchain := h.fragChain hgrid
  unfold FreesRight
  simp only [freeRootDir_eq hold hnew]
  constructor
  · rintro ⟨fuel, hright⟩
    obtain ⟨ft', hrun, hzero, -⟩ := hright fuel le_rfl
    obtain ⟨hplaces, freed, hlen, hframe⟩ :=
      (freeRootDirFrom_spec hgrid hremap.one fuel h.chain hcs heof ft).of_ok hrun rfl
    -- what held the root directory was in use, so all of it must have been freed
    have hsub : (cs.flatMap (activeFragments ctx.oldFs info)).map (newCluster remap) ⊆ freed := by
      intro d hd
      have hnew' : FatChain ft _ _ := hchain.fatChain hgrid hremap (.inl htype) (htype ▸ hmax) hft
      have hne := hnew'.entry_ne_zero (fun e he => ?_) hd
      · by_contra hout
        exact hne ((hframe d hout).symm.trans (hzero d ((h.holdsFragment_iff hgrid hremap).mpr hd)))
      · obtain ⟨f, -, rfl⟩ := List.mem_map.mp he
        exact Nat.succ_ne_zero _
    have hnodup : ((cs.flatMap (activeFragments ctx.oldFs info)).map (newCluster remap)).Nodup :=
      (h.nodup_fragments hgrid).map_on fun f hf g hg heq =>
        hremap.newCluster_inj (hchain.active hf) (hchain.active hg) heq
    have hle := (List.subperm_of_subset hnodup hsub).length_le
    rw [List.length_map, h.length_fragments hgrid hfull, hlen] at hle
    have hone : ctx.oldFs.clusterFrags = 1 := by
      have hpos := List.length_pos_of_mem h.chain.head
      have hfrags := hgrid.oldFrags_pos
      have : ctx.oldFs.clusterFrags ≤ 1 := Nat.le_of_mul_le_mul_left (by omega) hpos
      omega
    rw [hone] at hplaces
    simp only [Nat.mul_one] at hplaces
    exact ⟨hone, hplaces⟩
  · rintro ⟨hone, hplaces⟩
    have hfrags : ∀ d ∈ cs, activeFragments ctx.oldFs info d = [d - 2] := by
      intro d hd
      rw [(h.inUse d hd).activeFragments_eq hgrid,
        (h.inUse d hd).usedFrags_full hgrid (hfull d hd), hone, Nat.mul_one]
      rfl
    have hlist : cs.flatMap (activeFragments ctx.oldFs info) = cs.map (· - 2) := by
      rw [List.flatMap_congr hfrags, List.map_eq_flatMap]
    have hactive : ∀ d ∈ cs, ctx.oldFs.IsCluster d ∧ Active ctx info (d - 2) := fun d hd =>
      ⟨hcs d hd, hchain.active (by rw [hlist]; exact List.mem_map_of_mem hd)⟩
    refine ⟨cs.length + 1, fun fuel hfuel => ?_⟩
    obtain ⟨ft', hrun, hentry⟩ := freeRootDirFrom_run hgrid hremap hone h.chain hactive hplaces heof
      (show cs.length < fuel by omega) ft (by simp [htype]) hft.count
    have hiff : ∀ d, HoldsFragment ctx info remap cs d ↔
        d ∈ cs.map fun d => newCluster remap (d - 2) := by
      intro d
      rw [h.holdsFragment_iff hgrid hremap, hlist, List.map_map]
      rfl
    refine ⟨ft', hrun, fun d hd => ?_, fun d hd => ?_⟩
    · rw [hentry, if_pos ((hiff d).mp hd)]
    · rw [hentry, if_neg fun hmem => hd ((hiff d).mpr hmem)]

end Freeing

/-- **Root directories of converted file systems.**  On the way to FAT32 the clusters that
`alloc_root_dir` takes are right exactly if there is none to take, or if there are enough and
they fit into `new_root_dir`.  On the way to FAT16 `free_root_dir` is right exactly if
clusters keep their size and the places of the root directory are ones the old file system
has. -/
theorem rootDir_conversion_iff (readable : ℕ → Bool) (rootDirSectorCount : ℕ) :
    (∀ (ctx : FatOpContext) (ft : FatTable),
      ctx.oldFs.fatType = .fat16 → ctx.newFs.fatType = .fat32 → ft.Reserved →
      ft.fatType = .fat32 → ft.clusterCount = ctx.newFs.clusterCount →
      ctx.newFs.clusterCount ≤ fatMaxClusterCount .fat32 →
      (AllocatesRight ctx rootDirSectorCount readable ft ↔
        usableClusters readable ft = 0 ∨
          rootDirClusters rootDirSectorCount ctx.newFs.clusterSectors < newRootDirSize ∧
          rootDirClusters rootDirSectorCount ctx.newFs.clusterSectors
            ≤ usableClusters readable ft)) ∧
    ∀ (oldFs newFs : FatSpecific) (ctx : FatOpContext) (info : ℕ → FatClusterInfo)
      (oldFat : FatTable) (remap : ℕ → ℤ) (rootCluster : ℕ) (cs : List ℕ) (ft₀ ft : FatTable)
      (newRoot : Option ℕ), oldFs.fatType = .fat32 → newFs.fatType = .fat16 →
      newFs.clusterCount ≤ fatMaxClusterCount .fat16 →
      newFs.clusterSectors ∣ oldFs.clusterSectors →
      fatOpContextNew newFs oldFs = .ok (some ctx) → ctx.Representable →
      Remapped ctx info remap → OldChain ctx.oldFs info oldFat rootCluster cs →
      (∀ d ∈ cs, (info d).unitsUsed = 0) → fatTableIsEof oldFat rootCluster = false →
      ft₀.fatType = .fat16 →
      fatConstructNewFat ctx info oldFat remap rootCluster [] ft₀ = .ok (newRoot, ft) →
      (FreesRight ctx info oldFat remap rootCluster cs ft ↔
        oldFs.clusterSectors = newFs.clusterSectors ∧
          ∀ d ∈ cs, remap (d - 2) < ctx.oldFs.fragCount) := by
  refine ⟨fun ctx ft hold hnew hft htype hcount hmax =>
    allocRootDir_right hold hnew hft htype hcount hmax, ?_⟩
  intro oldFs newFs ctx info oldFat remap rootCluster cs ft₀ ft newRoot hold hnew hmax hsize hctx
    hrep hremap h hfull heof htype hconstruct
  have hgrid := grid_of_context hctx hrep
  obtain ⟨hmin, holdFs, hnewFs, -⟩ := fatOpContextNew_eq_some hctx
  have holdType : ctx.oldFs.fatType = .fat32 := by rw [holdFs]; exact hold
  have hnewType : ctx.newFs.fatType = .fat16 := by rw [hnewFs]; exact hnew
  have hft := (fatConstructNewFat_spec hgrid hremap (by simp [holdType]) rootCluster [] ft₀).of_ok
    hconstruct
  have hftType : ft.fatType = .fat16 := hft.fatType.trans htype
  rw [htype, ← hftType] at hft
  rw [freeRootDir_right hgrid hremap holdType hnewType (by rw [hnewFs]; exact hmax) h hfull heof
    hftType hft]
  -- an old cluster is one fragment if it is as large as a new one
  have hfrags : ctx.oldFs.clusterFrags = 1 ↔ oldFs.clusterSectors = newFs.clusterSectors := by
    have hfrag : ctx.fragSectors = newFs.clusterSectors := by
      rw [hmin]
      exact Nat.min_eq_right (Nat.le_of_dvd oldFs.clusterSectors_pos hsize)
    have hsectors := hgrid.old_sectors
    rw [hfrag, show ctx.oldFs.clusterSectors = oldFs.clusterSectors by rw [holdFs]; rfl] at hsectors
    rw [hsectors]
    exact ⟨fun hone => by rw [hone, Nat.one_mul], fun heq =>
      Nat.eq_of_mul_eq_mul_right newFs.clusterSectors_pos (by rw [heq, Nat.one_mul])⟩
  rw [hfrags]

/-- A file system of some clusters behind four sectors of metadata. -/
def convertible (fatType : FatType) (clusterSectors clusterCount : ℕ) (h : 0 < clusterSectors) :
    FatSpecific where
  geom := ⟨0, 4 + (clusterSectors * clusterCount : ℕ), le_rfl, by omega⟩
  fatType := fatType
  fatSectors := 1
  clusterOffset := 4
  clusterSectors := clusterSectors
  clusterCount := clusterCount
  fragSectors := 1
  clusterFrags := 1
  fragCount := clusterCount
  clusterSectors_pos := h
  fits := by push_cast; omega

/-- The context of a conversion to FAT32. -/
def toFat32 : FatOpContext :=
  ⟨convertible .fat16 8 100 (by decide), convertible .fat32 8 100 (by decide), 8, .backward, 0, 128⟩

/-- A FAT of 100 clusters that are available from some cluster on. -/
def availableFrom (first : ℕ) : FatTable :=
  ⟨.fat32, 256, 100, 100, 0, 1, fun c => if c < first then 0x0fffffff else 0⟩

theorem availableFrom_reserved {first : ℕ} (h : 2 ≤ first) : (availableFrom first).Reserved := by
  refine ⟨⟨by simp [availableFrom], by simp [availableFrom], by simp [availableFrom]⟩, ?_, ?_, ?_⟩
  · simp [availableFrom, show 0 < first by omega]
  · simp [availableFrom, show 1 < first by omega]
  · simp [availableFrom]

/-- What a conversion to FAT16 leaves of `fileAndDirectory`, as it was there. -/
def stay : ℕ → ℤ := fun f => f

/-- The context of a conversion to FAT16. -/
def toFat16 (clusterSectors : ℕ) (h : 0 < clusterSectors) : FatOpContext :=
  ⟨(convertible .fat32 clusterSectors 4 h).withFrags 1,
    (convertible .fat16 1 8 Nat.one_pos).withFrags 1, 1, .backward, 0, 1024⟩

/-- A file in the first cluster, and a directory in the second one. -/
def fileAndDirectory : ℕ → FatClusterInfo := fun c =>
  .whole (if c = 2 then .file else if c = 3 then .directory else .free)

/-- Their FAT. -/
def fatOfFileAndDirectory : FatTable :=
  ⟨.fat32, 128, 4, 2, 0, 1, fun c => if c = 2 ∨ c = 3 then 0x0fffffff else 0⟩

/-- The new FAT that is constructed for them. -/
def fatAfterConversion (clusterSectors : ℕ) (h : 0 < clusterSectors) :
    Except Fault (Option ℕ × FatTable) :=
  fatConstructNewFat (toFat16 clusterSectors h) fileAndDirectory fatOfFileAndDirectory stay 3 []
    ⟨.fat16, 256, 8, 8, 0, 1, fun _ => 0⟩

theorem oldChain_of_directory {fs : FatSpecific} (hcount : fs.clusterCount = 4) :
    OldChain fs fileAndDirectory fatOfFileAndDirectory 3 [3] := by
  have hget : fatTableGet fatOfFileAndDirectory 3 = .ok 0x0fffffff := rfl
  refine ⟨.last hget (by decide), fun d hd => ?_, by simp⟩
  obtain rfl := List.mem_singleton.mp hd
  refine ⟨⟨by omega, by omega⟩, .inr rfl, ?_⟩
  have := fs.clusterSectors_pos
  simp [fatGetClusterUsage, fileAndDirectory, FatClusterInfo.whole]
  omega

theorem remapped_stay {clusterSectors : ℕ} (h : 0 < clusterSectors) (hle : clusterSectors ≤ 2) :
    Remapped (toFat16 clusterSectors h) fileAndDirectory stay := by
  have hcases : clusterSectors = 1 ∨ clusterSectors = 2 := by omega
  have hcounts : (toFat16 clusterSectors h).oldFs.fragCount
      ≤ (toFat16 clusterSectors h).newFs.fragCount := by
    rcases hcases with rfl | rfl <;> decide +revert
  refine ⟨rfl, fun f hf => ?_, fun f g _ _ heq => Int.natCast_inj.mp heq, fun f b _ hbad => ?_⟩
  · exact ⟨Int.natCast_nonneg f, hf.lt.trans_le hcounts⟩
  · obtain ⟨cluster, -, hflag⟩ := bind_eq_ok.mp hbad
    obtain ⟨-, -, hflag⟩ := bind_eq_ok.mp hflag
    have hnever : (fileAndDirectory cluster).flag ≠ .bad := by
      unfold fileAndDirectory FatClusterInfo.whole
      dsimp only
      split_ifs <;> simp
    dsimp only at hflag
    split_ifs at hflag <;> simp_all

/-- The theorem where both conversions are right. -/
theorem rootDir_conversion_iff_samples :
    AllocatesRight toFat32 32 (fun _ => true) (availableFrom 2) ∧
    ∃ newRoot ft, fatAfterConversion 1 (by decide) = .ok (newRoot, ft) ∧
      FreesRight (toFat16 1 (by decide)) fileAndDirectory fatOfFileAndDirectory stay 3 [3] ft := by
  refine ⟨((rootDir_conversion_iff (fun _ => true) 32).1 toFat32 (availableFrom 2) rfl rfl
    (availableFrom_reserved le_rfl) rfl rfl (by decide +kernel)).mpr
      (.inr ⟨by decide +kernel, by decide +kernel⟩), ?_⟩
  have hok : ((fatAfterConversion 1 (by decide)).toOption.map fun _ => ()) = some () := by
    decide +kernel
  obtain ⟨⟨newRoot, ft⟩, hrun, -⟩ := exists_ok_of_map hok
  refine ⟨newRoot, ft, hrun, ((rootDir_conversion_iff (fun _ => true) 32).2
    (convertible .fat32 1 4 (by decide))
    (convertible .fat16 1 8 (by decide)) _ _ _ _ _ _ _ _ _ rfl rfl (by decide) ⟨1, rfl⟩
    (eq_ok_of_toOption (by decide +kernel)) ⟨by decide +kernel, by decide +kernel⟩
    (remapped_stay _ (by decide)) (oldChain_of_directory rfl) (by decide) (by decide) rfl hrun).mpr
    ⟨rfl, by decide⟩⟩

/-- A root directory of 256 sectors takes 32 clusters, and the zero behind them is written
beyond the end of `new_root_dir`.  With one cluster to take, that one is taken twice.  And
where clusters of two sectors become clusters of one, the last cluster of a file is made
available instead of those that held the root directory. -/
theorem rootDir_conversion_fails :
    allocRootDir toFat32 256 (fun _ => true) (availableFrom 2)
      = .error (.undefined "ctx->new_root_dir [i]") ∧
    (∃ ft', allocRootDir toFat32 16 (fun _ => true) (availableFrom 99)
      = .ok (some [99, 99], ft')) ∧
    ∃ newRoot ft ft', fatOpContextNew (convertible .fat16 1 8 (by decide))
        (convertible .fat32 2 4 (by decide)) = .ok (some (toFat16 2 (by decide))) ∧
      Remapped (toFat16 2 (by decide)) fileAndDirectory stay ∧
      OldChain (toFat16 2 (by decide)).oldFs fileAndDirectory fatOfFileAndDirectory 3 [3] ∧
      fatAfterConversion 2 (by decide) = .ok (newRoot, ft) ∧
      freeRootDir (toFat16 2 (by decide)) fatOfFileAndDirectory stay 3 2 ft = .ok (true, ft') ∧
      FatChain ft 2 [2, 3] ∧ ft'.entry 3 = 0 ∧
      HoldsFragment (toFat16 2 (by decide)) fileAndDirectory stay [3] 4 ∧ ft'.entry 4 = 5 := by
  refine ⟨eq_error_of_faultOf (by decide +kernel), ?_, ?_⟩
  · obtain ⟨⟨result, ft'⟩, hrun, rfl⟩ : ∃ r, allocRootDir toFat32 16 (fun _ => true)
        (availableFrom 99) = .ok r ∧ r.1 = some [99, 99] := exists_ok_of_map (by decide +kernel)
    exact ⟨ft', hrun⟩
  have hok : ((fatAfterConversion 2 (by decide)).toOption.map fun r =>
      r.2.fatType = .fat16 && r.2.clusterCount = 8 && r.2.entry 2 = 3 && r.2.entry 3 = 0xfff8 &&
        ((freeRootDir (toFat16 2 (by decide)) fatOfFileAndDirectory stay 3 2 r.2).toOption.map
          fun r' => (r'.1, r'.2.entry 3, r'.2.entry 4)) = some (true, 0, 5)) = some true := by
    decide +kernel
  obtain ⟨⟨newRoot, ft⟩, hrun, hres⟩ := exists_ok_of_map hok
  simp only [Bool.and_eq_true, decide_eq_true_eq] at hres
  obtain ⟨⟨⟨⟨htype, hcount⟩, htwo⟩, hthree⟩, hfree⟩ := hres
  obtain ⟨⟨ok, ft'⟩, hfreed, hres⟩ := exists_ok_of_map hfree
  simp only [Prod.mk.injEq] at hres
  obtain ⟨rfl, hzero, hkept⟩ := hres
  have hget {c code : ℕ} (hc : c < 10) (hcode : ft.entry c = code) :
      fatTableGet ft c = .ok code :=
    fatTableGet_eq_ok.mpr ⟨by omega, by simp [htype], hcode⟩
  refine ⟨newRoot, ft, ft', eq_ok_of_toOption (by decide +kernel), remapped_stay _ (by decide),
    oldChain_of_directory rfl, hrun, hfreed, ?_, hzero, ⟨2, by decide +kernel, ?_⟩, hkept⟩
  · refine .link (hget (by decide) htwo) ?_ (.last (hget (by decide) hthree) ?_)
    · simp [fatTableIsEof, testCodeEof, htype, badCode]
    · rw [htype]
      decide
  · exact eq_ok_of_toOption (by decide +kernel)

end Libparted.Fat
