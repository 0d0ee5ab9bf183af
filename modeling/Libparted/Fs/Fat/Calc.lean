import Libparted.Alignment

/-!
# Sizing a FAT file system (`libparted/fs/r/fat/calc.c`)

`calc_sizes` looks for a cluster count and a FAT size that go together: a larger
FAT leaves fewer clusters, and fewer clusters need a smaller FAT.  It makes two
turns of a fixed-point iteration from an empty FAT, reads off the cluster count,
and then corrects the FAT size once more, upwards, without correcting the cluster
count again.

For FAT32 the two turns subtract a single FAT, so that the second one starts from
more clusters than there are and the correction is never needed: the result fits
its partition (`fat32_fits`).  For FAT16 the correction is needed for a few sizes,
and each time it is, the larger FATs no longer fit beside the clusters
(`fat16_fits_iff`).  Those sizes are known in closed form.  Write `D` for the
sectors left to the FATs and the clusters, and `C` for the cluster size.  A FAT of
`m` sectors holds `256 * m - 2` clusters besides its two reserved entries, and it
is too small by one cluster as soon as

    D ≥ 2 * m + C * (256 * m - 1).

From there the iteration stops at `m` for a few sectors more (`Snag`), until its
first estimate leaves enough clusters to ask for the next FAT sector.
-/

namespace Libparted.Fat

/-- `FatType`. -/
inductive FatType where
  | fat12
  | fat16
  | fat32
deriving DecidableEq, Repr

/-! ## The limits of each type -/

/-- `fat_min_cluster_size`. -/
def fatMinClusterSize : FatType → ℤ
  | .fat12 => 1
  | .fat16 => 1024 / 512
  | .fat32 => 4096 / 512

/-- The loop of `_smallest_power2_over`.  Every turn adds at least one to `result`. -/
def smallestPower2OverFrom (ceiling : ℤ) : ℕ → ℤ → ℤ
  | 0, result => result
  | n + 1, result =>
    if result < ceiling then smallestPower2OverFrom ceiling n (result * 2) else result

/-- `_smallest_power2_over`. -/
def smallestPower2Over (ceiling : ℤ) : ℤ := smallestPower2OverFrom ceiling ceiling.toNat 1

/-- `MAX_FAT32_CLUSTERS`. -/
def maxFat32Clusters : ℤ := 2000000

/-- `fat_recommend_min_cluster_size`. -/
def fatRecommendMinClusterSize (fatType : FatType) (size : ℤ) : ℤ :=
  match fatType with
  | .fat12 => 1
  | .fat16 => fatMinClusterSize .fat16
  | .fat32 => max (smallestPower2Over (size.tdiv maxFat32Clusters)) (fatMinClusterSize .fat32)

/-- `fat_max_cluster_size`. -/
def fatMaxClusterSize : FatType → ℤ
  | .fat12 => 1
  | .fat16 => 65536 / 512
  | .fat32 => 65536 / 512

/-- `fat_max_cluster_count`. -/
def fatMaxClusterCount : FatType → ℕ
  | .fat12 => 0xff0
  | .fat16 => 0xfff0
  | .fat32 => 0x0ffffff0

/-- `fat_min_cluster_count`. -/
def fatMinClusterCount : FatType → ℕ
  | .fat12 => fatMaxClusterCount .fat12 / 2
  | .fat16 => fatMaxClusterCount .fat16 / 2
  | .fat32 => 0xfff0

/-- `fat_min_reserved_sector_count`. -/
def fatMinReservedSectorCount (fatType : FatType) : ℤ :=
  if fatType = .fat32 then 32 else 1

/-- `entries_per_sector`. -/
def entriesPerSector : FatType → ℕ
  | .fat12 => 512 * 3 / 2
  | .fat16 => 512 / 2
  | .fat32 => 512 / 4

/-! ## The iteration -/

/-- `data_fat_space` of `calc_sizes`: the space available to clusters and FATs. -/
def dataFatSpace (size align : ℤ) (fatType : FatType) (rootDirSectors : ℤ) : ℤ :=
  if fatType = .fat16 then size - fatMinReservedSectorCount fatType - align - rootDirSectors
  else size - fatMinReservedSectorCount fatType - align

/-- `cluster_space` inside the loop of `calc_sizes`, with FATs of `fatSpace` sectors. -/
def clusterSpace (fatType : FatType) (dataFatSpace : ℤ) (fatSpace : ℕ) : ℤ :=
  if fatType = .fat32 then dataFatSpace - fatSpace else dataFatSpace - 2 * fatSpace

/-- `cluster_space / cluster_sectors`, stored in a `FatCluster` of 32 bits. -/
def clustersIn (clusterSpace clusterSectors : ℤ) : ℕ :=
  ((clusterSpace.tdiv clusterSectors) % 2 ^ 32).toNat

/-- The sectors of a FAT for that many clusters.  The sum is one of `FatCluster`s. -/
def fatSpaceFor (fatType : FatType) (clusterCount : ℕ) : ℕ :=
  pedDivRoundUp ((clusterCount + 2) % 2 ^ 32) (entriesPerSector fatType)

/-- One turn of the loop of `calc_sizes`. -/
def fatSpaceStep (fatType : FatType) (dataFatSpace clusterSectors : ℤ) (fatSpace : ℕ) : ℕ :=
  fatSpaceFor fatType (clustersIn (clusterSpace fatType dataFatSpace fatSpace) clusterSectors)

/-- What `calc_sizes` stores through its last two arguments. -/
structure FatSizes where
  clusterCount : ℕ
  fatSize : ℕ
deriving DecidableEq, Repr

/-- `calc_sizes`. -/
def calcSizes (size align : ℤ) (fatType : FatType) (rootDirSectors clusterSectors : ℤ) :
    Option FatSizes :=
  let space := dataFatSpace size align fatType rootDirSectors
  -- for (i = 0; i < 2; i++)
  let fatSpace := (fatSpaceStep fatType space clusterSectors)^[2] 0
  let clusterCount := clustersIn (space - 2 * fatSpace) clusterSectors
  let fatSize :=
    if fatSpace < fatSpaceFor fatType clusterCount then fatSpaceFor fatType clusterCount
    else fatSpace
  if clusterCount > fatMaxClusterCount fatType ∨ clusterCount < fatMinClusterCount fatType then
    none
  else some ⟨clusterCount, fatSize⟩

/-- `for (c = first; c <= max; c *= 2) if (attempt (c)) return 1;` -/
def searchUp {α : Type} (attempt : ℤ → Option α) (max : ℤ) : ℕ → ℤ → Option (ℤ × α)
  | 0, _ => none
  | n + 1, c =>
    if c ≤ max then
      match attempt c with
      | some r => some (c, r)
      | none => searchUp attempt max n (c * 2)
    else none

/-- `for (c = first; c >= min; c /= 2) if (attempt (c)) return 1;` -/
def searchDown {α : Type} (attempt : ℤ → Option α) (min : ℤ) : ℕ → ℤ → Option (ℤ × α)
  | 0, _ => none
  | n + 1, c =>
    if min ≤ c then
      match attempt c with
      | some r => some (c, r)
      | none => searchDown attempt min n (c.tdiv 2)
    else none

/-- `fat_calc_sizes`: the cluster size, and what `calc_sizes` found for it. -/
def fatCalcSizes (size align : ℤ) (fatType : FatType) (rootDirSectors : ℤ) :
    Option (ℤ × FatSizes) :=
  let attempt := calcSizes size align fatType rootDirSectors
  let recommended := fatRecommendMinClusterSize fatType size
  (searchUp attempt (fatMaxClusterSize fatType) (fatMaxClusterSize fatType).toNat recommended)
    <|> (searchDown attempt (fatMinClusterSize fatType) recommended.toNat recommended)
    <|> (searchDown attempt 1 4 4)

/-- `fat_calc_resize_sizes`. -/
def fatCalcResizeSizes (geom : PedGeometry) (align : ℤ) (fatType : FatType)
    (rootDirSectors clusterSectors : ℤ) : Option (ℤ × FatSizes) :=
  searchDown (calcSizes geom.length align fatType rootDirSectors) (fatMinClusterSize fatType)
    clusterSectors.toNat clusterSectors

/-! ## What the searches return -/

section Search

variable {α : Type} {attempt : ℤ → Option α} {bound c c' : ℤ} {r : α}

/-- What the upward search returns was found at a value it visits: it keeps every
property that doubling keeps. -/
theorem searchUp_spec (P : ℤ → Prop) (hdouble : ∀ x, P x → P (x * 2)) (n : ℕ) (hc : P c)
    (h : searchUp attempt bound n c = some (c', r)) :
    attempt c' = some r ∧ c' ≤ bound ∧ P c' := by
  induction n generalizing c with
  | zero => simp [searchUp] at h
  | succ n ih =>
    rw [searchUp] at h
    split at h
    · rename_i hle
      cases hat : attempt c with
      | none => rw [hat] at h; exact ih (hdouble c hc) h
      | some r' =>
        rw [hat] at h
        obtain ⟨rfl, rfl⟩ : c = c' ∧ r' = r := by simpa using h
        exact ⟨hat, hle, hc⟩
    · simp at h

/-- The same for the downward search, with halving above the bound. -/
theorem searchDown_spec (P : ℤ → Prop) (hhalf : ∀ x, bound ≤ x → P x → P (x.tdiv 2)) (n : ℕ)
    (hc : P c) (h : searchDown attempt bound n c = some (c', r)) :
    attempt c' = some r ∧ bound ≤ c' ∧ P c' := by
  induction n generalizing c with
  | zero => simp [searchDown] at h
  | succ n ih =>
    rw [searchDown] at h
    split at h
    · rename_i hle
      cases hat : attempt c with
      | none => rw [hat] at h; exact ih (hhalf c hle hc) h
      | some r' =>
        rw [hat] at h
        obtain ⟨rfl, rfl⟩ : c = c' ∧ r' = r := by simpa using h
        exact ⟨hat, hle, hc⟩
    · simp at h

end Search

/-- The cluster sizes of a FAT file system, in sectors. -/
def ClusterSize (c : ℤ) : Prop := ∃ k ≤ 7, c = 2 ^ k

theorem clusterSize_cases {c : ℤ} (h : ClusterSize c) :
    c = 1 ∨ c = 2 ∨ c = 4 ∨ c = 8 ∨ c = 16 ∨ c = 32 ∨ c = 64 ∨ c = 128 := by
  obtain ⟨k, hk, rfl⟩ := h
  interval_cases k <;> simp

/-- Halving a cluster size gives a cluster size, or ends at zero. -/
theorem clusterSize_half {c : ℤ} (h : c = 0 ∨ ClusterSize c) :
    c.tdiv 2 = 0 ∨ ClusterSize (c.tdiv 2) := by
  obtain rfl | ⟨k, hk, rfl⟩ := h
  · exact .inl rfl
  · cases k with
    | zero => exact .inl rfl
    | succ k =>
      refine .inr ⟨k, by omega, ?_⟩
      rw [pow_succ, Int.mul_tdiv_cancel _ (by omega)]

theorem ClusterSize.pos {c : ℤ} (h : ClusterSize c) : 0 < c := by
  obtain ⟨k, -, rfl⟩ := h
  positivity

/-- A search downwards from a cluster size ends at a cluster size. -/
theorem searchDown_clusterSize {α : Type} {attempt : ℤ → Option α} {bound c c' : ℤ} {r : α}
    (n : ℕ) (hbound : 1 ≤ bound) (hc : ClusterSize c)
    (h : searchDown attempt bound n c = some (c', r)) : attempt c' = some r ∧ ClusterSize c' := by
  obtain ⟨hat, hle, hzero | hsize⟩ :=
    searchDown_spec (fun x => x = 0 ∨ ClusterSize x) (fun _ _ => clusterSize_half) n (.inr hc) h
  · omega
  · exact ⟨hat, hsize⟩

/-! ## The iteration on non-negative sizes -/

/-- Every size the computation goes through is non-negative: the space it starts
from, and what is left for clusters in the second turn and after the loop. -/
structure SizesNonneg (fatType : FatType) (space clusterSectors : ℤ) : Prop where
  start : 0 ≤ space
  second : 0 ≤ clusterSpace fatType space (fatSpaceStep fatType space clusterSectors 0)
  last : 0 ≤ space - 2 * ((fatSpaceStep fatType space clusterSectors)^[2] 0 : ℕ)

instance (fatType : FatType) (space clusterSectors : ℤ) :
    Decidable (SizesNonneg fatType space clusterSectors) :=
  decidable_of_iff
    (0 ≤ space ∧ 0 ≤ clusterSpace fatType space (fatSpaceStep fatType space clusterSectors 0) ∧
      0 ≤ space - 2 * ((fatSpaceStep fatType space clusterSectors)^[2] 0 : ℕ))
    ⟨fun h => ⟨h.1, h.2.1, h.2.2⟩, fun h => ⟨h.start, h.second, h.last⟩⟩

theorem clustersIn_eq {space c : ℤ} (hnonneg : 0 ≤ space) (hlt : space < 2 ^ 31) (hc : 0 < c) :
    (clustersIn space c : ℤ) = space / c := by
  have hdiv : 0 ≤ space / c := Int.ediv_nonneg hnonneg hc.le
  have hle : space / c ≤ space := Int.ediv_le_self c hnonneg
  rw [clustersIn, Int.tdiv_eq_ediv_of_nonneg hnonneg]
  omega

/-- `ped_div_round_up` on the counts that occur: no sum of two `FatCluster`s wraps. -/
theorem fatSpaceFor_eq (fatType : FatType) {n : ℕ} (hn : n < 2 ^ 31) :
    fatSpaceFor fatType n
      = (n + 1 + entriesPerSector fatType) / entriesPerSector fatType := by
  rw [fatSpaceFor, pedDivRoundUp, Nat.mod_eq_of_lt (by omega)]
  congr 1
  omega

/-- A FAT of that size has an entry for each cluster and the two reserved ones. -/
theorem le_fatSpaceFor_mul (fatType : FatType) {n : ℕ} (hn : n < 2 ^ 31) :
    n + 2 ≤ entriesPerSector fatType * fatSpaceFor fatType n := by
  rw [fatSpaceFor_eq fatType hn]
  cases fatType <;> simp only [entriesPerSector] <;> omega

/-- The numbers `calc_sizes` goes through on non-negative sizes: the FAT size of the
first turn, the clusters and the FAT size of the second one, and the values stored. -/
structure Turns (fatType : FatType) (space c : ℤ) (first middle second : ℕ)
    (sizes : FatSizes) : Prop where
  first_eq : (first : ℤ) = (space / c + 1 + entriesPerSector fatType) / entriesPerSector fatType
  middle_eq : (middle : ℤ) = clusterSpace fatType space first / c
  second_eq : second = (middle + 1 + entriesPerSector fatType) / entriesPerSector fatType
  count_eq : (sizes.clusterCount : ℤ) = (space - 2 * second) / c
  fat_eq : sizes.fatSize = max second
    ((sizes.clusterCount + 1 + entriesPerSector fatType) / entriesPerSector fatType)
  count_lt : sizes.clusterCount < 2 ^ 31
  count_le_max : sizes.clusterCount ≤ fatMaxClusterCount fatType
  min_le_count : fatMinClusterCount fatType ≤ sizes.clusterCount

/-- A successful `calc_sizes`, written out. -/
theorem turns_of_calcSizes {size align rootDirSectors c : ℤ} {fatType : FatType}
    {sizes : FatSizes} (hc : 0 < c)
    (hlt : dataFatSpace size align fatType rootDirSectors < 2 ^ 31)
    (hnonneg : SizesNonneg fatType (dataFatSpace size align fatType rootDirSectors) c)
    (h : calcSizes size align fatType rootDirSectors c = some sizes) :
    ∃ first middle second,
      Turns fatType (dataFatSpace size align fatType rootDirSectors) c first middle second
        sizes := by
  rw [calcSizes] at h
  set space := dataFatSpace size align fatType rootDirSectors with hspace
  set first := fatSpaceStep fatType space c 0 with hfirst
  have hiter : (fatSpaceStep fatType space c)^[2] 0 = fatSpaceStep fatType space c first := rfl
  set second := fatSpaceStep fatType space c first with hsecond
  obtain ⟨hstart, hmiddle, hlast⟩ := hnonneg
  rw [hiter] at h hlast
  have hspace0 : clusterSpace fatType space 0 = space := by simp [clusterSpace]
  have hmiddleLt : clusterSpace fatType space first < 2 ^ 31 := by
    unfold clusterSpace
    split <;> omega
  have small {x : ℤ} (hx : 0 ≤ x) (hx' : x < 2 ^ 31) : clustersIn x c < 2 ^ 31 := by
    have := clustersIn_eq hx hx' hc
    have := Int.ediv_le_self c hx
    omega
  have hcount := clustersIn_eq hlast (by omega) hc
  have hcountLt := small hlast (by omega)
  simp only [Option.ite_none_left_eq_some, not_or, not_lt, Option.some.injEq] at h
  obtain ⟨⟨hmax, hmin⟩, rfl⟩ := h
  refine ⟨first, clustersIn (clusterSpace fatType space first) c, second, ?_, ?_, ?_, hcount,
    ?_, hcountLt, hmax, hmin⟩
  · rw [hfirst, fatSpaceStep, hspace0, fatSpaceFor_eq _ (small hstart hlt)]
    push_cast [clustersIn_eq hstart hlt hc]
    rfl
  · exact clustersIn_eq hmiddle hmiddleLt hc
  · exact fatSpaceFor_eq _ (small hmiddle hmiddleLt)
  · rw [fatSpaceFor_eq _ hcountLt]
    simp only [max_def]
    split_ifs <;> omega

/-! ## FAT32 -/

/-- **The FATs and clusters of a FAT32 layout fit**, for any cluster size. -/
theorem fat32_fits {space c : ℤ} {first middle second : ℕ} {sizes : FatSizes} (hc : 0 < c)
    (h : Turns .fat32 space c first middle second sizes) :
    2 * (sizes.fatSize : ℤ) + sizes.clusterCount * c ≤ space := by
  obtain ⟨hfirst, hmiddle, hsecond, hcount, hfat, -⟩ := h
  simp only [entriesPerSector, clusterSpace, if_true] at hfirst hmiddle hsecond hfat
  -- the first estimate is at most twice the second
  have hloss : space / c - first ≤ middle := by
    rw [hmiddle, ← Int.sub_mul_ediv_right space first hc.ne']
    exact Int.ediv_le_ediv hc (by nlinarith)
  have hdouble : first ≤ 2 * second := by omega
  -- so that the second turn counted at least as many clusters as there are
  have hfewer : (sizes.clusterCount : ℤ) ≤ middle := by
    rw [hcount, hmiddle]
    exact Int.ediv_le_ediv hc (by omega)
  have hsame : sizes.fatSize = second := by omega
  have hroom : (space - 2 * second) / c * c ≤ space - 2 * second := Int.ediv_mul_le _ hc.ne'
  rw [hsame, hcount]
  omega

/-! ## FAT16 -/

/-- How many sectors beyond the point where a FAT of `m` sectors is too small the
iteration still ends at `m`.  Small clusters are lost faster than the FAT grows. -/
def snagWidth (c m : ℤ) : ℤ :=
  if c = 1 then (if 254 ≤ m then 6 else 4) else if c = 2 then (if m = 255 then 4 else 2) else 2

/-- The space left to FATs and clusters is one for which the iteration ends at a FAT
that is too small. -/
def Snag (c space : ℤ) : Prop :=
  ∃ m, 128 ≤ m ∧ m ≤ 255 ∧ 2 * m + c * (256 * m - 1) ≤ space ∧
    space < 2 * m + c * (256 * m - 1) + snagWidth c m

section Fat16

variable {space c : ℤ} {first middle second : ℕ} {sizes : FatSizes}

/-- The FAT of the second turn is too small from the point where it lacks one cluster. -/
theorem fat16_short_iff (hc : 0 < c) (h : Turns .fat16 space c first middle second sizes) :
    256 * second < sizes.clusterCount + 2 ↔ 2 * second + c * (256 * second - 1) ≤ space := by
  have hle := Int.le_ediv_iff_mul_le (a := 256 * (second : ℤ) - 1) (b := space - 2 * second) hc
  rw [← h.count_eq, mul_comm] at hle
  constructor
  · intro hshort
    linarith [hle.mp (by omega)]
  · intro hlow
    have := hle.mpr (by linarith)
    omega

/-- The second turn stays at its FAT size until the first estimate leaves one more
cluster than that FAT has entries for. -/
theorem fat16_space_lt (hc : 0 < c) (h : Turns .fat16 space c first middle second sizes) :
    space < 2 * first + c * (256 * second - 1) := by
  have hmiddle := h.middle_eq
  have hsecond := h.second_eq
  simp only [entriesPerSector, clusterSpace, reduceCtorEq, if_false] at hmiddle hsecond
  have hlt := Int.ediv_lt_iff_lt_mul (a := space - 2 * (first : ℤ)) (b := 256 * (second : ℤ) - 1) hc
  rw [← hmiddle, mul_comm _ c] at hlt
  linarith [hlt.mp (by omega)]

/-- The first estimate is one sector above a FAT that is too small, except that for
clusters of one or two sectors it may be further off. -/
theorem fat16_first_le (hc : ClusterSize c)
    (h : Turns .fat16 space c first middle second sizes)
    (hshort : 256 * second < sizes.clusterCount + 2) :
    2 * ((first : ℤ) - second) ≤ snagWidth c second := by
  obtain ⟨hfirst, hmiddle, hsecond, hcount, -, -, hmax, hmin⟩ := h
  simp only [entriesPerSector, clusterSpace, fatMaxClusterCount, fatMinClusterCount, reduceCtorEq,
    if_false] at hfirst hmiddle hsecond hmax hmin
  obtain rfl | rfl | rfl | rfl | rfl | rfl | rfl | rfl := clusterSize_cases hc <;>
    simp only [snagWidth, if_true, OfNat.ofNat_ne_one, if_false] <;> try split_ifs
  all_goals omega

end Fat16

/-- **A FAT16 layout fits exactly away from the snags.** -/
theorem fat16_fits_iff {space c : ℤ} {first middle second : ℕ} {sizes : FatSizes}
    (hc : ClusterSize c) (h : Turns .fat16 space c first middle second sizes) :
    2 * (sizes.fatSize : ℤ) + sizes.clusterCount * c ≤ space ↔ ¬ Snag c space := by
  have hshort := fat16_short_iff hc.pos h
  have hlt := fat16_space_lt hc.pos h
  have hgap := fat16_first_le hc h
  obtain ⟨hfirst, hmiddle, hsecond, hcount, hfat, -, hmax, hmin⟩ := h
  simp only [entriesPerSector, clusterSpace, fatMaxClusterCount, fatMinClusterCount, reduceCtorEq,
    if_false] at hfirst hmiddle hsecond hfat hmax hmin
  constructor
  · rintro hfits ⟨m, hm, hm', hlow, hhigh⟩
    have hsame : (second : ℤ) = m := by
      obtain rfl | rfl | rfl | rfl | rfl | rfl | rfl | rfl := clusterSize_cases hc <;>
        simp only [snagWidth] at hhigh <;> omega
    subst hsame
    have := hshort.mpr hlow
    obtain rfl | rfl | rfl | rfl | rfl | rfl | rfl | rfl := clusterSize_cases hc <;>
      simp only [snagWidth] at hhigh <;> omega
  · intro hsnag
    by_contra hover
    have hfew : 256 * second < sizes.clusterCount + 2 := by
      obtain rfl | rfl | rfl | rfl | rfl | rfl | rfl | rfl := clusterSize_cases hc <;> omega
    have hlow : 128 ≤ (second : ℤ) := by
      obtain rfl | rfl | rfl | rfl | rfl | rfl | rfl | rfl := clusterSize_cases hc <;> omega
    exact hsnag ⟨second, hlow, by omega, hshort.mp hfew, by linarith [hgap hfew]⟩

/-! ## Layouts that fit -/

/-- What a layout of `calc_sizes` should satisfy. -/
structure LayoutFits (size align : ℤ) (fatType : FatType) (rootDirSectors c : ℤ)
    (sizes : FatSizes) : Prop where
  fits : fatMinReservedSectorCount fatType + align + 2 * sizes.fatSize
    + (if fatType = .fat16 then rootDirSectors else 0) + sizes.clusterCount * c ≤ size
  entries : sizes.clusterCount + 2 ≤ entriesPerSector fatType * sizes.fatSize
  min_le : fatMinClusterCount fatType ≤ sizes.clusterCount
  le_max : sizes.clusterCount ≤ fatMaxClusterCount fatType

section Layouts

variable {size align rootDirSectors c : ℤ} {fatType : FatType} {sizes : FatSizes}

theorem dataFatSpace_eq (size align rootDirSectors : ℤ) (fatType : FatType) :
    dataFatSpace size align fatType rootDirSectors
      = size - fatMinReservedSectorCount fatType - align
        - (if fatType = .fat16 then rootDirSectors else 0) := by
  unfold dataFatSpace
  split <;> omega

/-- Only the first condition can fail: the FAT is never too small for the clusters, and
the count is in range. -/
theorem layoutFits_iff {space : ℤ} {first middle second : ℕ}
    (hspace : space = dataFatSpace size align fatType rootDirSectors)
    (h : Turns fatType space c first middle second sizes) :
    LayoutFits size align fatType rootDirSectors c sizes ↔
      2 * (sizes.fatSize : ℤ) + sizes.clusterCount * c ≤ space := by
  rw [dataFatSpace_eq] at hspace
  constructor
  · intro hfits
    linarith [hfits.fits]
  · intro hroom
    refine ⟨by linarith, ?_, h.min_le_count, h.count_le_max⟩
    have hentries := le_fatSpaceFor_mul fatType h.count_lt
    rw [fatSpaceFor_eq fatType h.count_lt] at hentries
    refine hentries.trans (Nat.mul_le_mul_left _ ?_)
    rw [h.fat_eq]
    exact le_max_right _ _

/-- When the layout of a successful `calc_sizes` fits. -/
theorem layoutFits_of_calcSizes (hc : 0 < c) (hsize : size < 2 ^ 31) (halign : 0 ≤ align)
    (hroot : 0 ≤ rootDirSectors) (htype : fatType ≠ .fat12)
    (hcluster : fatType = .fat16 → ClusterSize c)
    (hnonneg : SizesNonneg fatType (dataFatSpace size align fatType rootDirSectors) c)
    (h : calcSizes size align fatType rootDirSectors c = some sizes) :
    LayoutFits size align fatType rootDirSectors c sizes ↔
      (fatType = .fat16 → ¬ Snag c (dataFatSpace size align fatType rootDirSectors)) := by
  have hlt : dataFatSpace size align fatType rootDirSectors < 2 ^ 31 := by
    rw [dataFatSpace_eq]
    cases fatType <;> simp [fatMinReservedSectorCount] <;> omega
  obtain ⟨first, middle, second, hturns⟩ := turns_of_calcSizes hc hlt hnonneg h
  rw [layoutFits_iff rfl hturns]
  cases fatType with
  | fat12 => exact absurd rfl htype
  | fat16 => rw [fat16_fits_iff (hcluster rfl) hturns]; simp
  | fat32 => simp [fat32_fits hc hturns]

/-- A power of two up to 128 is a cluster size. -/
theorem clusterSize_of_le {c : ℤ} (hpow : ∃ k : ℕ, c = 2 ^ k) (hle : c ≤ 128) :
    ClusterSize c := by
  obtain ⟨k, rfl⟩ := hpow
  refine ⟨k, ?_, rfl⟩
  exact (pow_le_pow_iff_right₀ (by omega : (1 : ℤ) < 2)).mp hle

/-- A successful `fat_calc_sizes` is a successful `calc_sizes` at the size it returns. -/
theorem calcSizes_of_fatCalcSizes (htype : fatType ≠ .fat12)
    (h : fatCalcSizes size align fatType rootDirSectors = some (c, sizes)) :
    calcSizes size align fatType rootDirSectors c = some sizes ∧ 0 < c ∧
      (fatType = .fat16 → ClusterSize c) := by
  simp only [fatCalcSizes, Option.orElse_eq_some] at h
  cases fatType with
  | fat12 => exact absurd rfl htype
  | fat16 =>
    have htwo : ClusterSize 2 := ⟨1, by omega, rfl⟩
    have hfour : ClusterSize 4 := ⟨2, by omega, rfl⟩
    suffices calcSizes size align .fat16 rootDirSectors c = some sizes ∧ ClusterSize c from
      ⟨this.1, this.2.pos, fun _ => this.2⟩
    obtain hup | ⟨-, hdown | ⟨-, hsmall⟩⟩ := h
    · obtain ⟨hat, hle, hpow⟩ := searchUp_spec (fun x => ∃ k : ℕ, x = 2 ^ k)
        (by rintro x ⟨k, rfl⟩; exact ⟨k + 1, by rw [pow_succ]⟩) _ ⟨1, rfl⟩ hup
      exact ⟨hat, clusterSize_of_le hpow hle⟩
    · exact searchDown_clusterSize _ (by decide) htwo hdown
    · exact searchDown_clusterSize _ le_rfl hfour hsmall
  | fat32 =>
    refine (fun hpos => ⟨hpos.1, hpos.2, by simp⟩ :
      calcSizes size align .fat32 rootDirSectors c = some sizes ∧ 0 < c → _) ?_
    obtain hup | ⟨-, hdown | ⟨-, hsmall⟩⟩ := h
    · obtain ⟨hat, -, hpos⟩ := searchUp_spec (fun x => 0 < x) (fun x hx => by omega) _
        (lt_of_lt_of_le (by decide) (le_max_right _ _)) hup
      exact ⟨hat, hpos⟩
    · obtain ⟨hat, hle, -⟩ := searchDown_spec (fun _ => True) (fun _ _ _ => trivial) _ trivial hdown
      exact ⟨hat, lt_of_lt_of_le (by decide) hle⟩
    · obtain ⟨hat, hle, -⟩ :=
        searchDown_spec (fun _ => True) (fun _ _ _ => trivial) _ trivial hsmall
      exact ⟨hat, by omega⟩

end Layouts

/-- **When a computed layout fits its partition.**  A FAT32 layout always does.  A FAT16
layout does unless the space left to FATs and clusters meets a snag of the iteration;
the FAT then grows by a sector that the clusters already take. -/
theorem calcSizes_fits_iff (size align : ℤ) (fatType : FatType) (rootDirSectors : ℤ)
    (hsize : size < 2 ^ 31) (halign : 0 ≤ align ∧ align ≤ 128) (htype : fatType ≠ .fat12)
    (hroot : 0 ≤ rootDirSectors ∧ rootDirSectors < 4096) :
    (∀ c sizes, ClusterSize c →
      SizesNonneg fatType (dataFatSpace size align fatType rootDirSectors) c →
      calcSizes size align fatType rootDirSectors c = some sizes →
      (LayoutFits size align fatType rootDirSectors c sizes ↔
        (fatType = .fat16 → ¬ Snag c (dataFatSpace size align fatType rootDirSectors)))) ∧
    (∀ c sizes, SizesNonneg fatType (dataFatSpace size align fatType rootDirSectors) c →
      fatCalcSizes size align fatType rootDirSectors = some (c, sizes) →
      (LayoutFits size align fatType rootDirSectors c sizes ↔
        (fatType = .fat16 → ¬ Snag c (dataFatSpace size align fatType rootDirSectors)))) ∧
    (∀ geom : PedGeometry, geom.length = size → ∀ c₀ c sizes, ClusterSize c₀ →
      SizesNonneg fatType (dataFatSpace size align fatType rootDirSectors) c →
      fatCalcResizeSizes geom align fatType rootDirSectors c₀ = some (c, sizes) →
      (LayoutFits size align fatType rootDirSectors c sizes ↔
        (fatType = .fat16 → ¬ Snag c (dataFatSpace size align fatType rootDirSectors)))) := by
  refine ⟨?_, ?_, ?_⟩
  · intro c sizes hc hnonneg h
    exact layoutFits_of_calcSizes hc.pos hsize halign.1 hroot.1 htype (fun _ => hc) hnonneg h
  · intro c sizes hnonneg h
    obtain ⟨hat, hpos, hc⟩ := calcSizes_of_fatCalcSizes htype h
    exact layoutFits_of_calcSizes hpos hsize halign.1 hroot.1 htype hc hnonneg hat
  · rintro geom rfl c₀ c sizes hc₀ hnonneg h
    have hmin : 1 ≤ fatMinClusterSize fatType := by cases fatType <;> decide
    obtain ⟨hat, hc⟩ := searchDown_clusterSize _ hmin hc₀ h
    exact layoutFits_of_calcSizes hc.pos hsize halign.1 hroot.1 htype (fun _ => hc) hnonneg hat

/-- The theorem at a partition of about 64 MiB. -/
theorem calcSizes_fits_sample :
    calcSizes 132382 0 .fat16 32 4 = some ⟨33022, 129⟩ ∧
      LayoutFits 132382 0 .fat16 32 4 ⟨33022, 129⟩ := by
  refine ⟨by decide +kernel, ?_⟩
  refine (((calcSizes_fits_iff 132382 0 .fat16 32 (by decide) (by decide) (by decide)
    (by decide)).1 4 ⟨33022, 129⟩ ⟨2, by omega, rfl⟩ (by decide +kernel) (by decide +kernel)).mpr ?_)
  rintro - ⟨m, hm, hm', hlow, hhigh⟩
  simp [dataFatSpace, fatMinReservedSectorCount, snagWidth] at hlow hhigh
  omega

/-- One sector more, and `fat_calc_sizes` returns a layout that reaches two sectors beyond
the end of the partition. -/
theorem calcSizes_fits_fails :
    fatCalcSizes 132383 0 .fat16 32 = some (4, ⟨33023, 130⟩) ∧
      SizesNonneg .fat16 (dataFatSpace 132383 0 .fat16 32) 4 ∧
      ¬ LayoutFits 132383 0 .fat16 32 4 ⟨33023, 130⟩ := by
  refine ⟨by decide +kernel, by decide +kernel, ?_⟩
  intro h
  have := h.fits
  simp [fatMinReservedSectorCount] at this

end Libparted.Fat
