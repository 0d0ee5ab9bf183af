import Libparted.Fs.Fat.Calc

/-!
# The file allocation table (`libparted/fs/r/fat/table.c`)

A FAT is an array of codes, one for each cluster; entries 0 and 1 belong to no
cluster.  Code zero says that a cluster is available.  A `FatTable` keeps the
array, the number of clusters, two statistics and the place where the last search
for a free cluster ended.

What the resizer needs from this module is what each operation does to the codes.
`fat_table_set` changes one of them (`fatTableSet_spec`), and `fat_table_alloc_cluster`
changes none and returns a cluster whose code is zero (`fatTableAllocCluster_spec`):
it does not mark the cluster it returns.  Its search runs over `0 .. cluster_count - 1`,
although the clusters are `2 .. cluster_count + 1`.

A code that is not zero stays so under everything that happens to a table between
`fat_op_context_create_initial_fat` and the construction of the new FAT
(`Marks.not_available`).

Numbers of clusters are natural numbers: `cluster_count + 2` never reaches the end of
`uint32_t`.  The statistics are computed modulo `2 ^ 32`, since the source takes one
away without looking.
-/

namespace Libparted.Fat

open Library

/-- `FatTable`.  The codes are a function; those behind the end are never read. -/
structure FatTable where
  fatType : FatType
  size : ℕ
  clusterCount : ℕ
  freeClusterCount : ℕ
  badClusterCount : ℕ
  lastAlloc : ℕ
  entry : ℕ → ℕ

/-- Operations on a table. -/
abbrev TableM (α : Type) : Type := Prog Fault FatTable α

/-! ## Codes -/

/-- `_test_code_available`. -/
def testCodeAvailable (code : ℕ) : Bool := code == 0

/-- The code of a bad cluster, as `_test_code_bad` and `fat_table_set_bad` have it. -/
def badCode : FatType → ℕ
  | .fat12 => 0xff7
  | .fat16 => 0xfff7
  | .fat32 => 0x0ffffff7

/-- `_test_code_bad`. -/
def testCodeBad (fatType : FatType) (code : ℕ) : Bool := code == badCode fatType

/-- `_test_code_eof`: the code of a bad cluster ends a chain as well. -/
def testCodeEof (fatType : FatType) (code : ℕ) : Bool := code ≥ badCode fatType

/-- `fat_table_is_eof`. -/
def fatTableIsEof (ft : FatTable) (cluster : ℕ) : Bool := testCodeEof ft.fatType cluster

/-- `fat_table_entry_size`. -/
def fatTableEntrySize : FatType → ℕ
  | .fat12 => 2
  | .fat16 => 2
  | .fat32 => 4

/-- What an entry of the table keeps of a code. -/
def storedCode : FatType → ℕ → ℕ
  | .fat32, value => value % 2 ^ 32
  | _, value => value % 2 ^ 16

/-! ## Reading and writing entries -/

/-- `fat_table_get`.  Outside the table the program ends. -/
def fatTableGet (ft : FatTable) (cluster : ℕ) : Except Fault ℕ :=
  if cluster ≥ ft.clusterCount + 2 then .error (.assertion "exit (EXIT_FAILURE)")
  else if ft.fatType = .fat12 then .error (.assertion "0")
  else .ok (ft.entry cluster)

/-- `fat_table_is_available`. -/
def fatTableIsAvailable (ft : FatTable) (cluster : ℕ) : Except Fault Bool := do
  return testCodeAvailable (← fatTableGet ft cluster)

/-- `fat_table_is_bad`. -/
def fatTableIsBad (ft : FatTable) (cluster : ℕ) : Except Fault Bool := do
  return testCodeBad ft.fatType (← fatTableGet ft cluster)

/-- `x++` on a `FatCluster`. -/
def increment (x : ℕ) : ℕ := (x + 1) % 2 ^ 32

/-- `x--` on a `FatCluster`. -/
def decrement (x : ℕ) : ℕ := (x + 2 ^ 32 - 1) % 2 ^ 32

/-- `_update_stats`.  The last test is made on the number of the cluster. -/
def updateStats (ft : FatTable) (cluster value : ℕ) : Except Fault FatTable := do
  let available ← fatTableIsAvailable ft cluster
  let bad ← fatTableIsBad ft cluster
  let ft :=
    if testCodeAvailable value && !available then
      { ft with
        freeClusterCount := increment ft.freeClusterCount
        badClusterCount := if bad then decrement ft.badClusterCount else ft.badClusterCount }
    else ft
  let ft :=
    if !testCodeAvailable value && available then
      { ft with
        freeClusterCount := decrement ft.freeClusterCount
        badClusterCount :=
          if testCodeBad ft.fatType cluster then decrement ft.badClusterCount
          else ft.badClusterCount }
    else ft
  return ft

/-- `fat_table_set`.  Outside the table it reports a bug and returns 0. -/
def fatTableSet (cluster value : ℕ) : TableM Bool := do
  let ft ← get
  if cluster ≥ ft.clusterCount + 2 then return false
  let ft ← updateStats ft cluster value
  set { ft with entry := Function.update ft.entry cluster (storedCode ft.fatType value) }
  return true

/-- `fat_table_set_eof`. -/
def fatTableSetEof (cluster : ℕ) : TableM Bool := do
  match (← get).fatType with
  | .fat12 => throw (.assertion "0")
  | .fat16 => fatTableSet cluster 0xfff8
  | .fat32 => fatTableSet cluster 0x0fffffff

/-- `fat_table_set_bad`. -/
def fatTableSetBad (cluster : ℕ) : TableM Bool := do
  let ft ← get
  if !(← fatTableIsBad ft cluster) then
    set { ft with badClusterCount := increment ft.badClusterCount }
  fatTableSet cluster (badCode ft.fatType)

/-- `fat_table_set_avail`. -/
def fatTableSetAvail (cluster : ℕ) : TableM Bool := fatTableSet cluster 0

/-! ## Whole tables -/

/-- `fat_table_clear`. -/
def fatTableClear : TableM Unit := do
  modify fun ft => { ft with entry := fun _ => 0 }
  let _ ← fatTableSet 0 0x0ffffff8
  let _ ← fatTableSet 1 0x0fffffff
  modify fun ft =>
    { ft with freeClusterCount := ft.clusterCount, badClusterCount := 0, lastAlloc := 1 }

/-- `fat_table_count_stats`. -/
def fatTableCountStats : TableM Unit := do
  let ft ← get
  pedAssert (ft.clusterCount + 2 ≤ ft.size) "ft->cluster_count + 2 <= ft->size"
  let codes ← liftM ((List.range' 2 ft.clusterCount).mapM (fatTableGet ft))
  set { ft with
    freeClusterCount := codes.countP testCodeAvailable
    badClusterCount := codes.countP (testCodeBad ft.fatType) }

/-- `fat_table_set_cluster_count`. -/
def fatTableSetClusterCount (newClusterCount : ℕ) : TableM Unit := do
  let ft ← get
  pedAssert (newClusterCount + 2 ≤ ft.size) "new_cluster_count + 2 <= ft->size"
  set { ft with clusterCount := newClusterCount }
  fatTableCountStats

/-- The table `fat_table_new` clears before it returns it. -/
def rawTable (fatType : FatType) (size : ℕ) : FatTable :=
  { fatType
    size := pedDivRoundUp (size * fatTableEntrySize fatType) 512 * 512 / fatTableEntrySize fatType
    clusterCount := (size + 2 ^ 32 - 2) % 2 ^ 32
    freeClusterCount := (size + 2 ^ 32 - 2) % 2 ^ 32
    badClusterCount := 0
    lastAlloc := 1
    entry := fun _ => 0 }

/-- `fat_table_new`. -/
def fatTableNew (fatType : FatType) (size : ℕ) : Except Fault FatTable := do
  let ((), ft) ← fatTableClear.run (rawTable fatType size)
  return ft

/-! ## Allocation -/

/-- The loop of `fat_table_alloc_cluster`. -/
def searchAvailable (ft : FatTable) : List ℕ → Except Fault (Option ℕ)
  | [] => .ok none
  | i :: is => do
    let cluster := (i + ft.lastAlloc) % ft.clusterCount
    if ← fatTableIsAvailable ft cluster then return some cluster
    else searchAvailable ft is

/-- `fat_table_alloc_cluster`. -/
def fatTableAllocCluster : TableM ℕ := do
  let ft ← get
  match ← liftM (searchAvailable ft (List.range' 1 ft.clusterCount)) with
  | some cluster =>
    set { ft with lastAlloc := cluster }
    return cluster
  | none => return 0

/-! ## What the operations do to the codes -/

/-- Two tables of one type and size. -/
structure FatTable.SameShape (ft ft' : FatTable) : Prop where
  fatType : ft'.fatType = ft.fatType
  size : ft'.size = ft.size
  clusterCount : ft'.clusterCount = ft.clusterCount

theorem FatTable.SameShape.refl (ft : FatTable) : ft.SameShape ft := ⟨rfl, rfl, rfl⟩

theorem FatTable.SameShape.trans {ft ft' ft'' : FatTable} (h : ft.SameShape ft')
    (h' : ft'.SameShape ft'') : ft.SameShape ft'' :=
  ⟨h'.fatType.trans h.fatType, h'.size.trans h.size, h'.clusterCount.trans h.clusterCount⟩

section Operations

variable {ft ft' : FatTable} {cluster value code : ℕ}

theorem fatTableGet_eq_ok : fatTableGet ft cluster = .ok code ↔
    cluster < ft.clusterCount + 2 ∧ ft.fatType ≠ .fat12 ∧ ft.entry cluster = code := by
  unfold fatTableGet
  split_ifs with hrange htype
  · simp; omega
  · simp [htype]
  · simp [htype]; omega

theorem fatTableIsAvailable_eq_ok {b : Bool} : fatTableIsAvailable ft cluster = .ok b ↔
    cluster < ft.clusterCount + 2 ∧ ft.fatType ≠ .fat12 ∧ (ft.entry cluster == 0) = b := by
  simp only [fatTableIsAvailable, bind_eq_ok, fatTableGet_eq_ok, pure_eq_ok, Except.ok.injEq,
    testCodeAvailable]
  grind

/-- The statistics are all that `_update_stats` changes. -/
theorem updateStats_spec (h : updateStats ft cluster value = .ok ft') :
    ft.SameShape ft' ∧ ft'.entry = ft.entry ∧ ft'.lastAlloc = ft.lastAlloc ∧
      ft.fatType ≠ .fat12 := by
  simp only [updateStats, bind_eq_ok, pure_eq_ok, Except.ok.injEq] at h
  obtain ⟨available, havailable, bad, -, rfl⟩ := h
  refine ⟨⟨?_, ?_, ?_⟩, ?_, ?_, (fatTableIsAvailable_eq_ok.mp havailable).2.1⟩ <;>
    split_ifs <;> rfl

/-- `fat_table_set` changes one code, or nothing outside the table. -/
theorem fatTableSet_spec (ft : FatTable) (cluster value : ℕ) :
    Spec (fun _ => True) (fatTableSet cluster value) ft fun ok ft' =>
      ft.SameShape ft' ∧ ft'.lastAlloc = ft.lastAlloc ∧
        (ok = true ↔ cluster < ft.clusterCount + 2) ∧
        ft'.entry = if ok then Function.update ft.entry cluster (storedCode ft.fatType value)
          else ft.entry := by
  unfold fatTableSet
  refine spec_bind.mpr (spec_get.mpr (Spec.ite (fun hrange => ?_) fun hrange => ?_))
  · refine spec_pure.mpr ⟨.refl _, rfl, ?_, by simp⟩
    simpa using hrange
  · refine spec_bind.mpr (Spec.lift (fun _ _ => trivial) fun ft₁ hstats => ?_)
    obtain ⟨hshape, hentry, hlast, -⟩ := updateStats_spec hstats
    refine spec_bind.mpr (spec_set.mpr (spec_pure.mpr ⟨⟨?_, ?_, ?_⟩, hlast, ?_, ?_⟩))
    · exact hshape.fatType
    · exact hshape.size
    · exact hshape.clusterCount
    · simpa using hrange
    · simp [hentry, hshape.fatType]

/-- What a successful `fat_table_set` of a code other than zero does. -/
structure FatTable.MarkedAt (ft ft' : FatTable) (cluster code : ℕ) : Prop where
  shape : ft.SameShape ft'
  lastAlloc : ft'.lastAlloc = ft.lastAlloc
  inside : cluster < ft.clusterCount + 2
  entry : ft'.entry = Function.update ft.entry cluster code
  marked : code ≠ 0

/-- The code `fat_table_set_eof` writes. -/
def eofCode : FatType → ℕ
  | .fat12 => 0
  | .fat16 => 0xfff8
  | .fat32 => 0x0fffffff

/-- `fat_table_set_eof` marks a cluster, or fails and changes nothing. -/
theorem fatTableSetEof_spec (ft : FatTable) (cluster : ℕ) :
    Spec (fun _ => True) (fatTableSetEof cluster) ft fun ok ft' =>
      ft.SameShape ft' ∧ (ok = true ↔ cluster < ft.clusterCount + 2) ∧
        (ok = true → ft.MarkedAt ft' cluster (eofCode ft.fatType)) ∧
        (ok = false → ft'.entry = ft.entry ∧ ft'.lastAlloc = ft.lastAlloc) := by
  unfold fatTableSetEof
  refine spec_bind.mpr (spec_get.mpr ?_)
  cases htype : ft.fatType with
  | fat12 => exact spec_throw.mpr trivial
  | fat16 =>
    refine (fatTableSet_spec ft cluster 0xfff8).imp fun ok ft' ⟨hshape, hlast, hok, hentry⟩ => ?_
    rw [htype] at hentry
    refine ⟨hshape, hok, fun h => ⟨hshape, hlast, hok.mp h, by rw [hentry, if_pos h]; rfl, ?_⟩,
      fun h => ⟨by simp [hentry, h], hlast⟩⟩
    decide
  | fat32 =>
    refine (fatTableSet_spec ft cluster 0x0fffffff).imp
      fun ok ft' ⟨hshape, hlast, hok, hentry⟩ => ?_
    rw [htype] at hentry
    refine ⟨hshape, hok, fun h => ⟨hshape, hlast, hok.mp h, by rw [hentry, if_pos h]; rfl, ?_⟩,
      fun h => ⟨by simp [hentry, h], hlast⟩⟩
    decide

theorem storedCode_badCode (fatType : FatType) :
    storedCode fatType (badCode fatType) = badCode fatType := by
  cases fatType <;> rfl

theorem badCode_ne_zero (fatType : FatType) : badCode fatType ≠ 0 := by
  cases fatType <;> decide

/-- `fat_table_set_bad` marks a cluster, or fails and changes no code. -/
theorem fatTableSetBad_spec (ft : FatTable) (cluster : ℕ) :
    Spec (fun _ => True) (fatTableSetBad cluster) ft fun ok ft' =>
      ft.SameShape ft' ∧ (ok = true ↔ cluster < ft.clusterCount + 2) ∧
        (ok = true → ft.MarkedAt ft' cluster (badCode ft.fatType)) ∧
        (ok = false → ft'.entry = ft.entry ∧ ft'.lastAlloc = ft.lastAlloc) := by
  unfold fatTableSetBad
  refine spec_bind.mpr (spec_get.mpr ?_)
  refine spec_bind.mpr (Spec.lift (fun _ _ => trivial) fun bad _ => ?_)
  -- the count of bad clusters may have gone up before the code is set
  have hset (ft₁ : FatTable) (hshape : ft.SameShape ft₁) (hentry : ft₁.entry = ft.entry)
      (hlast : ft₁.lastAlloc = ft.lastAlloc) :
      Spec (fun _ => True) (fatTableSet cluster (badCode ft.fatType)) ft₁ fun ok ft' =>
        ft.SameShape ft' ∧ (ok = true ↔ cluster < ft.clusterCount + 2) ∧
          (ok = true → ft.MarkedAt ft' cluster (badCode ft.fatType)) ∧
          (ok = false → ft'.entry = ft.entry ∧ ft'.lastAlloc = ft.lastAlloc) := by
    refine (fatTableSet_spec ft₁ cluster (badCode ft.fatType)).imp
      fun ok ft' ⟨hshape', hlast', hok, hentry'⟩ => ?_
    rw [hentry, hshape.fatType, storedCode_badCode] at hentry'
    rw [hshape.clusterCount] at hok
    have hlast₂ := hlast'.trans hlast
    exact ⟨hshape.trans hshape', hok,
      fun h => ⟨hshape.trans hshape', hlast₂, hok.mp h, by rw [hentry', if_pos h],
        badCode_ne_zero _⟩,
      fun h => ⟨by simp [hentry', h], hlast₂⟩⟩
  refine Spec.ite (fun _ => spec_bind.mpr (spec_set.mpr ?_)) fun _ => ?_
  · exact hset _ ⟨rfl, rfl, rfl⟩ rfl rfl
  · exact hset _ (.refl _) rfl rfl

/-- Clearing leaves the two reserved entries marked and every cluster available. -/
theorem fatTableClear_spec (ft : FatTable) :
    Spec (fun _ => True) fatTableClear ft fun _ ft' =>
      ft.SameShape ft' ∧ ft'.lastAlloc = 1 ∧ ft'.entry 0 ≠ 0 ∧ ft'.entry 1 ≠ 0 ∧
        ∀ c, 2 ≤ c → ft'.entry c = 0 := by
  unfold fatTableClear
  refine spec_bind.mpr (spec_modify.mpr ?_)
  refine (fatTableSet_spec _ 0 _).seq fun ok₀ ft₀ ⟨hshape₀, _, hok₀, hentry₀⟩ => ?_
  refine (fatTableSet_spec _ 1 _).seq fun ok₁ ft₁ ⟨hshape₁, _, hok₁, hentry₁⟩ => ?_
  have h₀ : ok₀ = true := hok₀.mpr (by omega)
  have h₁ : ok₁ = true := hok₁.mpr (by omega)
  rw [if_pos h₀] at hentry₀
  rw [if_pos h₁, hentry₀] at hentry₁
  refine spec_modify.mpr ⟨⟨?_, ?_, ?_⟩, rfl, ?_, ?_, ?_⟩
  · exact hshape₁.fatType.trans hshape₀.fatType
  · exact hshape₁.size.trans hshape₀.size
  · exact hshape₁.clusterCount.trans hshape₀.clusterCount
  · cases htype : ft.fatType <;> simp [hentry₁, storedCode, htype]
  · cases htype : ft₀.fatType <;> simp [hentry₁, storedCode, htype]
  · intro c hc
    simp [hentry₁, Function.update_of_ne (show c ≠ 1 by omega),
      Function.update_of_ne (show c ≠ 0 by omega)]

theorem fatTableNew_spec {fatType : FatType} {size : ℕ} (h : fatTableNew fatType size = .ok ft) :
    (rawTable fatType size).SameShape ft ∧ ft.lastAlloc = 1 ∧ ft.entry 0 ≠ 0 ∧ ft.entry 1 ≠ 0 ∧
      ∀ c, 2 ≤ c → ft.entry c = 0 := by
  obtain ⟨⟨u, ft'⟩, hclear, hft⟩ := bind_eq_ok.mp h
  obtain rfl : ft' = ft := by simpa using hft
  exact (fatTableClear_spec _).of_ok hclear

/-- Setting the number of clusters changes no code. -/
theorem fatTableSetClusterCount_spec (ft : FatTable) (n : ℕ) :
    Spec (fun _ => True) (fatTableSetClusterCount n) ft fun _ ft' =>
      ft'.fatType = ft.fatType ∧ ft'.size = ft.size ∧ ft'.clusterCount = n ∧
        ft'.lastAlloc = ft.lastAlloc ∧ ft'.entry = ft.entry ∧ n + 2 ≤ ft.size := by
  unfold fatTableSetClusterCount fatTableCountStats
  refine spec_bind.mpr (spec_get.mpr (spec_bind.mpr (Spec.lift (fun _ _ => trivial) ?_)))
  intro _ hassert
  have hfits : n + 2 ≤ ft.size := by
    by_contra hnot
    simp [pedAssert, hnot] at hassert
  refine spec_bind.mpr (spec_set.mpr (spec_bind.mpr (spec_get.mpr ?_)))
  refine spec_bind.mpr (Spec.lift (fun _ _ => trivial) fun _ _ => ?_)
  refine spec_bind.mpr (Spec.lift (fun _ _ => trivial) fun _ _ => ?_)
  exact spec_set.mpr ⟨rfl, rfl, rfl, rfl, rfl, hfits⟩

/-- A search ends at the first available cluster of those it looks at. -/
theorem searchAvailable_spec {first count cluster : ℕ}
    (h : searchAvailable ft (List.range' first count) = .ok (some cluster)) :
    ∃ i, first ≤ i ∧ i < first + count ∧ cluster = (i + ft.lastAlloc) % ft.clusterCount ∧
      ft.entry cluster = 0 ∧
      ∀ j, first ≤ j → j < i → ft.entry ((j + ft.lastAlloc) % ft.clusterCount) ≠ 0 := by
  induction count generalizing first with
  | zero => simp [searchAvailable] at h
  | succ count ih =>
    rw [List.range'_succ, searchAvailable] at h
    obtain ⟨b, hb, h⟩ := bind_eq_ok.mp h
    obtain ⟨-, -, hentry⟩ := fatTableIsAvailable_eq_ok.mp hb
    cases b with
    | true =>
      obtain rfl : _ = cluster := by simpa using h
      exact ⟨first, le_rfl, by omega, rfl, by simpa using hentry, fun j hj hj' => by omega⟩
    | false =>
      obtain ⟨i, hi, hi', heq, hzero, hskip⟩ := ih h
      refine ⟨i, by omega, by omega, heq, hzero, fun j hj hj' => ?_⟩
      rcases hj.eq_or_lt with rfl | hlt
      · simpa using hentry
      · exact hskip j hlt hj'

/-- `fat_table_alloc_cluster` returns an available cluster and does not mark it.  When it
moves upwards it skips only clusters that are not available. -/
theorem fatTableAllocCluster_spec (ft : FatTable) :
    Spec (fun _ => True) fatTableAllocCluster ft fun cluster ft' =>
      ft.SameShape ft' ∧ ft'.entry = ft.entry ∧
        (cluster ≠ 0 → ft.entry cluster = 0 ∧ cluster < ft.clusterCount ∧
          ft'.lastAlloc = cluster ∧
          ∀ d, ft.lastAlloc < d → d < cluster → ft.entry d ≠ 0) := by
  unfold fatTableAllocCluster
  refine spec_bind.mpr (spec_get.mpr ?_)
  refine spec_bind.mpr (Spec.lift (fun _ _ => trivial) fun found hfound => ?_)
  cases found with
  | none => exact ⟨.refl _, rfl, fun h => absurd rfl h⟩
  | some cluster =>
    refine ⟨⟨rfl, rfl, rfl⟩, rfl, fun _ => ?_⟩
    obtain ⟨i, hi, hi', heq, hzero, hskip⟩ := searchAvailable_spec hfound
    have hlt : cluster < ft.clusterCount := heq ▸ Nat.mod_lt _ (by omega)
    refine ⟨hzero, hlt, rfl, fun d hd hd' => ?_⟩
    -- below the end of the table the search has not wrapped around
    have hbefore : d - ft.lastAlloc < i := by
      by_contra hge
      rw [Nat.mod_eq_of_lt (by omega)] at heq
      omega
    have := hskip (d - ft.lastAlloc) (by omega) hbefore
    rwa [Nat.sub_add_cancel hd.le, Nat.mod_eq_of_lt (by omega)] at this

end Operations

/-! ## Marked clusters stay marked -/

/-- What happens to the new table between its creation and its final construction:
clusters are allocated and marked. -/
inductive Marks (ft : FatTable) : FatTable → Prop
  | refl : Marks ft ft
  | alloc {ft₁ ft₂ : FatTable} {cluster : ℕ} (h : Marks ft ft₁)
      (hstep : fatTableAllocCluster ft₁ = .ok (cluster, ft₂)) : Marks ft ft₂
  | eof {ft₁ ft₂ : FatTable} {cluster : ℕ} {ok : Bool} (h : Marks ft ft₁)
      (hstep : fatTableSetEof cluster ft₁ = .ok (ok, ft₂)) : Marks ft ft₂
  | bad {ft₁ ft₂ : FatTable} {cluster : ℕ} {ok : Bool} (h : Marks ft ft₁)
      (hstep : fatTableSetBad cluster ft₁ = .ok (ok, ft₂)) : Marks ft ft₂

/-- A marked cluster is never marked available again. -/
theorem Marks.not_available {ft ft' : FatTable} {c : ℕ} (h : Marks ft ft') (hc : ft.entry c ≠ 0) :
    ft'.entry c ≠ 0 := by
  have hupdate {ft₁ ft₂ : FatTable} {cluster code : ℕ} {ok : Bool} (ih : ft₁.entry c ≠ 0)
      (hmark : ok = true → ft₁.MarkedAt ft₂ cluster code)
      (hfail : ok = false → ft₂.entry = ft₁.entry ∧ ft₂.lastAlloc = ft₁.lastAlloc) :
      ft₂.entry c ≠ 0 := by
    cases ok with
    | false => rwa [(hfail rfl).1]
    | true =>
      rw [(hmark rfl).entry, Function.update_apply]
      split
      · exact (hmark rfl).marked
      · exact ih
  induction h with
  | refl => exact hc
  | alloc _ hstep ih =>
    rw [((fatTableAllocCluster_spec _).of_ok hstep).2.1]
    exact ih
  | eof _ hstep ih =>
    obtain ⟨-, -, hmark, hfail⟩ := (fatTableSetEof_spec _ _).of_ok hstep
    exact hupdate ih hmark hfail
  | bad _ hstep ih =>
    obtain ⟨-, -, hmark, hfail⟩ := (fatTableSetBad_spec _ _).of_ok hstep
    exact hupdate ih hmark hfail

/-- No later allocation returns a marked cluster. -/
theorem Marks.not_allocated {ft ft₁ ft₂ : FatTable} {c : ℕ} (h : Marks ft ft₁)
    (hc : ft.entry c ≠ 0) (hc0 : c ≠ 0) : fatTableAllocCluster ft₁ ≠ .ok (c, ft₂) := by
  intro hstep
  exact h.not_available hc (((fatTableAllocCluster_spec _).of_ok hstep).2.2 hc0).1

end Libparted.Fat
