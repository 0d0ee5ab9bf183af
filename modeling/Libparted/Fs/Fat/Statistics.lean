import Libparted.Library.Rotation
import Libparted.Fs.Fat.Table

/-!
# Free and bad clusters (`libparted/fs/r/fat/table.c`)

A FAT keeps two numbers beside its codes, that of the free clusters and that of the bad
ones.  `fat_table_count_stats` computes them, and `fat_table_set` and `fat_table_set_bad`
keep them up to date, except that

* `_update_stats` does nothing about a bad cluster that becomes part of a chain, nor about
  a cluster that `fat_table_set` is told to mark bad;
* it looks for the code of a bad cluster in the *number* of a cluster that is taken;
* it tests the value before the table cuts it down to sixteen bits.

`fatTable_stats_of_calls` says exactly which calls are harmless.

The second half is about the search for a free cluster.  It goes once around the numbers
below `cluster_count`, from wherever the last one ended, so it finds every cluster there
(`fatTableAllocCluster_eq`).  The last two clusters of the file system, `cluster_count` and
`cluster_count + 1`, are not among those (`fatTableAllocCluster_complete_iff`).
-/

namespace Libparted.Fat

open Library

/-! ## Counting -/

/-- A FAT16 or FAT32 table with room for its clusters; its size is a `FatCluster`. -/
structure FatTable.Usable (ft : FatTable) : Prop where
  fatType : ft.fatType ≠ .fat12
  size : ft.clusterCount + 2 ≤ ft.size
  small : ft.size < 2 ^ 32

/-- How many clusters have a code of some kind. -/
def countCodes (ft : FatTable) (P : ℕ → Bool) : ℕ :=
  (List.range' 2 ft.clusterCount).countP fun c => P (ft.entry c)

/-- The statistics are what `fat_table_count_stats` would compute. -/
def StatsExact (ft : FatTable) : Prop := fatTableCountStats ft = .ok ((), ft)

section Counting

variable {ft : FatTable} {cluster value : ℕ} {P : ℕ → Bool}

theorem mapM_fatTableGet (htype : ft.fatType ≠ .fat12) {l : List ℕ}
    (h : ∀ c ∈ l, c < ft.clusterCount + 2) : l.mapM (fatTableGet ft) = .ok (l.map ft.entry) := by
  induction l with
  | nil => rfl
  | cons c rest ih =>
    have hget : fatTableGet ft c = .ok (ft.entry c) :=
      fatTableGet_eq_ok.mpr ⟨h c List.mem_cons_self, htype, rfl⟩
    rw [List.mapM_cons, hget, ih fun d hd => h d (List.mem_cons_of_mem _ hd)]
    rfl

/-- What `fat_table_count_stats` computes. -/
theorem fatTableCountStats_eq (h : ft.Usable) :
    fatTableCountStats ft = .ok ((), { ft with
      freeClusterCount := countCodes ft testCodeAvailable
      badClusterCount := countCodes ft (testCodeBad ft.fatType) }) := by
  have hmap := mapM_fatTableGet h.fatType (l := List.range' 2 ft.clusterCount) fun c hc => by
    have := (List.mem_range'_1.mp hc).2
    omega
  have hassert : pedAssert (ft.clusterCount + 2 ≤ ft.size) "ft->cluster_count + 2 <= ft->size"
      = .ok () := by
    simp [pedAssert, h.size]
  refine Spec.eq_ok ?_
  unfold fatTableCountStats
  refine spec_bind.mpr (spec_get.mpr (spec_bind.mpr ?_))
  refine spec_lift.mpr ⟨fun _ _ => ?_, fun f hf => by rw [hassert] at hf; cases hf⟩
  refine spec_bind.mpr (spec_lift.mpr ⟨fun codes hcodes => ?_, fun f hf => by
    rw [hmap] at hf; cases hf⟩)
  obtain rfl : _ = codes := Except.ok.inj (hmap.symm.trans hcodes)
  refine spec_set.mpr ⟨rfl, ?_⟩
  simp only [List.countP_map]
  rfl

theorem statsExact_iff (h : ft.Usable) :
    StatsExact ft ↔ ft.freeClusterCount = countCodes ft testCodeAvailable ∧
      ft.badClusterCount = countCodes ft (testCodeBad ft.fatType) := by
  unfold StatsExact
  rw [fatTableCountStats_eq h]
  constructor
  · intro heq
    have hft := congrArg Prod.snd (Except.ok.inj heq)
    exact ⟨(congrArg FatTable.freeClusterCount hft).symm,
      (congrArg FatTable.badClusterCount hft).symm⟩
  · rintro ⟨hfree, hbad⟩
    rw [← hfree, ← hbad]

theorem countCodes_le (ft : FatTable) (P : ℕ → Bool) : countCodes ft P ≤ ft.clusterCount := by
  have := List.countP_le_length (p := fun c => P (ft.entry c)) (l := List.range' 2 ft.clusterCount)
  simpa [countCodes] using this

/-- Changing one value of a function changes the count by that value. -/
theorem countP_update {l : List ℕ} (hl : l.Nodup) (f : ℕ → ℕ) {c : ℕ} (hc : c ∈ l) (v : ℕ)
    (P : ℕ → Bool) :
    (l.countP fun i => P (Function.update f c v i)) + (P (f c)).toNat
      = (l.countP fun i => P (f i)) + (P v).toNat := by
  have hperm := List.perm_cons_erase hc
  have hrest : (l.erase c).countP (fun i => P (Function.update f c v i))
      = (l.erase c).countP fun i => P (f i) := by
    refine List.countP_congr fun i hi => ?_
    have hne : i ≠ c := fun heq => hl.not_mem_erase (heq ▸ hi)
    rw [Function.update_of_ne hne]
  rw [hperm.countP_eq, hperm.countP_eq, List.countP_cons, List.countP_cons, hrest,
    Function.update_self]
  cases P v <;> cases P (f c) <;> simp

theorem countCodes_update (hc : 2 ≤ cluster ∧ cluster < ft.clusterCount + 2) (code : ℕ)
    (P : ℕ → Bool) {ft' : FatTable} (hcount : ft'.clusterCount = ft.clusterCount)
    (hentry : ft'.entry = Function.update ft.entry cluster code) :
    countCodes ft' P + (P (ft.entry cluster)).toNat = countCodes ft P + (P code).toNat := by
  have hmem : cluster ∈ List.range' 2 ft.clusterCount := List.mem_range'_1.mpr (by omega)
  unfold countCodes
  rw [hcount, hentry]
  exact countP_update List.nodup_range' ft.entry hmem code P

end Counting

/-! ## Keeping the statistics -/

/-- The number of free clusters after `_update_stats`. -/
def freeAfter (ft : FatTable) (cluster value : ℕ) : ℕ :=
  if value = 0 ∧ ft.entry cluster ≠ 0 then increment ft.freeClusterCount
  else if value ≠ 0 ∧ ft.entry cluster = 0 then decrement ft.freeClusterCount
  else ft.freeClusterCount

/-- The number of bad clusters after `_update_stats`. -/
def badAfter (ft : FatTable) (cluster value : ℕ) : ℕ :=
  if value = 0 ∧ ft.entry cluster = badCode ft.fatType then decrement ft.badClusterCount
  else if value ≠ 0 ∧ ft.entry cluster = 0 ∧ cluster = badCode ft.fatType then
    decrement ft.badClusterCount
  else ft.badClusterCount

section Keeping

variable {ft : FatTable} {cluster value : ℕ}

theorem updateStats_eq (htype : ft.fatType ≠ .fat12) (hc : cluster < ft.clusterCount + 2) :
    updateStats ft cluster value = .ok { ft with
      freeClusterCount := freeAfter ft cluster value
      badClusterCount := badAfter ft cluster value } := by
  have hget : fatTableGet ft cluster = .ok (ft.entry cluster) :=
    fatTableGet_eq_ok.mpr ⟨hc, htype, rfl⟩
  have hbad := badCode_ne_zero ft.fatType
  unfold updateStats fatTableIsAvailable fatTableIsBad
  rw [hget]
  by_cases hv : value = 0 <;> by_cases he : ft.entry cluster = 0 <;>
    simp [testCodeAvailable, testCodeBad, freeAfter, badAfter, hv, he, hbad.symm]

theorem fatTableSet_eq (htype : ft.fatType ≠ .fat12) (hc : cluster < ft.clusterCount + 2) :
    fatTableSet cluster value ft = .ok (true, { ft with
      freeClusterCount := freeAfter ft cluster value
      badClusterCount := badAfter ft cluster value
      entry := Function.update ft.entry cluster (storedCode ft.fatType value) }) := by
  refine Spec.eq_ok ?_
  unfold fatTableSet
  refine spec_bind.mpr (spec_get.mpr (Spec.ite (fun hge => absurd hge (by omega)) fun _ => ?_))
  refine spec_bind.mpr (spec_lift.mpr ⟨fun ft' hft' => ?_, fun f hf => ?_⟩)
  · obtain rfl := Except.ok.inj ((updateStats_eq htype hc).symm.trans hft')
    exact spec_bind.mpr (spec_set.mpr ⟨rfl, rfl⟩)
  · rw [updateStats_eq htype hc] at hf
    cases hf

end Keeping

/-- The calls that change a table. -/
inductive FatCall where
  | set (cluster value : ℕ)
  | setEof (cluster : ℕ)
  | setBad (cluster : ℕ)
  | setAvail (cluster : ℕ)

/-- The cluster a call is about. -/
def FatCall.cluster : FatCall → ℕ
  | .set cluster _ => cluster
  | .setEof cluster => cluster
  | .setBad cluster => cluster
  | .setAvail cluster => cluster

/-- Performs a call. -/
def FatCall.run : FatCall → TableM Bool
  | .set cluster value => fatTableSet cluster value
  | .setEof cluster => fatTableSetEof cluster
  | .setBad cluster => fatTableSetBad cluster
  | .setAvail cluster => fatTableSetAvail cluster

/-- The cluster is one of the file system. -/
def FatCall.InRange (ft : FatTable) (call : FatCall) : Prop :=
  2 ≤ call.cluster ∧ call.cluster < ft.clusterCount + 2

/-- An available cluster whose number is the code of a bad one. -/
def Mistaken (ft : FatTable) (cluster : ℕ) : Prop :=
  ft.entry cluster = 0 ∧ cluster = badCode ft.fatType

/-- The calls that keep the statistics. -/
def FatCall.Keeps (ft : FatTable) : FatCall → Prop
  | .set cluster value =>
      -- a value that is not zero is not cut down to zero
      (storedCode ft.fatType value = 0 → value = 0) ∧
      -- bad clusters only become available, and no other cluster becomes bad
      (ft.entry cluster = badCode ft.fatType →
        value = 0 ∨ storedCode ft.fatType value = badCode ft.fatType) ∧
      (ft.entry cluster ≠ badCode ft.fatType →
        storedCode ft.fatType value ≠ badCode ft.fatType ∧ (value ≠ 0 → ¬ Mistaken ft cluster))
  | .setEof cluster => ft.entry cluster ≠ badCode ft.fatType ∧ ¬ Mistaken ft cluster
  | .setBad cluster => ¬ Mistaken ft cluster
  | .setAvail _ => True

section Calls

variable {ft ft' : FatTable} {cluster value : ℕ}

theorem FatTable.Usable.same (h : ft.Usable) (hshape : ft.SameShape ft') : ft'.Usable :=
  ⟨hshape.fatType.symm ▸ h.fatType, by rw [hshape.clusterCount, hshape.size]; exact h.size,
    hshape.size.symm ▸ h.small⟩

/-- The statistics after one code has changed. -/
theorem statsExact_update (h : ft.Usable) (hexact : StatsExact ft)
    (hc : 2 ≤ cluster ∧ cluster < ft.clusterCount + 2) (code : ℕ) (hshape : ft.SameShape ft')
    (hentry : ft'.entry = Function.update ft.entry cluster code) :
    StatsExact ft' ↔
      ft'.freeClusterCount + (testCodeAvailable (ft.entry cluster)).toNat
          = ft.freeClusterCount + (testCodeAvailable code).toNat ∧
        ft'.badClusterCount + (testCodeBad ft.fatType (ft.entry cluster)).toNat
          = ft.badClusterCount + (testCodeBad ft.fatType code).toNat := by
  rw [statsExact_iff h] at hexact
  rw [statsExact_iff (h.same hshape), hshape.fatType, hexact.1, hexact.2]
  have hfree := countCodes_update hc code testCodeAvailable hshape.clusterCount hentry
  have hbad := countCodes_update hc code (testCodeBad ft.fatType) hshape.clusterCount hentry
  omega

theorem StatsExact.lt (h : ft.Usable) (hexact : StatsExact ft)
    (hc : 2 ≤ cluster ∧ cluster < ft.clusterCount + 2) :
    ft.freeClusterCount + 2 < 2 ^ 32 ∧ ft.badClusterCount + 2 < 2 ^ 32 ∧
      (testCodeAvailable (ft.entry cluster)).toNat ≤ ft.freeClusterCount ∧
      (testCodeBad ft.fatType (ft.entry cluster)).toNat ≤ ft.badClusterCount := by
  obtain ⟨hfree, hbad⟩ := (statsExact_iff h).mp hexact
  have hsize := h.size
  have hsmall := h.small
  have hlt := fun P => countCodes_le ft P
  have hmem : cluster ∈ List.range' 2 ft.clusterCount := List.mem_range'_1.mpr (by omega)
  have hpos : ∀ P : ℕ → Bool, (P (ft.entry cluster)).toNat ≤ countCodes ft P := by
    intro P
    cases hP : P (ft.entry cluster) with
    | false => exact Nat.zero_le _
    | true => exact List.countP_pos_iff.mpr ⟨cluster, hmem, hP⟩
  have hlt₁ := hlt testCodeAvailable
  have hlt₂ := hlt (testCodeBad ft.fatType)
  rw [hfree, hbad]
  exact ⟨by omega, by omega, hpos _, hpos _⟩

theorem toNat_testCodeAvailable (code : ℕ) :
    (testCodeAvailable code).toNat = if code = 0 then 1 else 0 := by
  unfold testCodeAvailable
  split <;> simp_all

theorem toNat_testCodeBad (fatType : FatType) (code : ℕ) :
    (testCodeBad fatType code).toNat = if code = badCode fatType then 1 else 0 := by
  unfold testCodeBad
  split <;> simp_all

theorem freeAfter_exact_iff {code : ℕ} (hzero : value = 0 → code = 0)
    (hfree : ft.freeClusterCount + 2 < 2 ^ 32)
    (hfree₁ : (testCodeAvailable (ft.entry cluster)).toNat ≤ ft.freeClusterCount) :
    freeAfter ft cluster value + (testCodeAvailable (ft.entry cluster)).toNat
        = ft.freeClusterCount + (testCodeAvailable code).toNat ↔ (code = 0 → value = 0) := by
  rw [toNat_testCodeAvailable] at hfree₁
  rw [toNat_testCodeAvailable, toNat_testCodeAvailable]
  unfold freeAfter increment decrement
  split_ifs at * <;> omega

theorem badAfter_exact_iff {code bad : ℕ} (hbad : bad = badCode ft.fatType)
    (hzero : value = 0 → code = 0) (hcount : ft.badClusterCount + 2 < 2 ^ 32)
    (hcount₁ : (testCodeBad ft.fatType (ft.entry cluster)).toNat ≤ ft.badClusterCount) :
    badAfter ft cluster value + (testCodeBad ft.fatType (ft.entry cluster)).toNat
        = ft.badClusterCount + (testCodeBad ft.fatType code).toNat ↔
      (ft.entry cluster = bad → value = 0 ∨ code = bad) ∧
        (ft.entry cluster ≠ bad → code ≠ bad ∧ (value ≠ 0 → ¬ Mistaken ft cluster)) := by
  have hne := badCode_ne_zero ft.fatType
  rw [toNat_testCodeBad] at hcount₁
  rw [toNat_testCodeBad, toNat_testCodeBad]
  unfold badAfter Mistaken decrement
  rw [← hbad] at *
  split_ifs at * <;> omega

/-- **`fat_table_set`** keeps the statistics exactly in these cases. -/
theorem fatTableSet_keeps_iff (h : ft.Usable) (hexact : StatsExact ft)
    (hc : 2 ≤ cluster ∧ cluster < ft.clusterCount + 2)
    (hrun : fatTableSet cluster value ft = .ok (true, ft')) :
    StatsExact ft' ↔ FatCall.Keeps ft (.set cluster value) := by
  rw [fatTableSet_eq h.fatType hc.2] at hrun
  have hft : ft' = _ := (congrArg Prod.snd (Except.ok.inj hrun)).symm
  have hshape : ft.SameShape ft' := hft ▸ ⟨rfl, rfl, rfl⟩
  have hentry : ft'.entry = _ := congrArg FatTable.entry hft
  obtain ⟨hfree, hbad, hfree₁, hbad₁⟩ := hexact.lt h hc
  have hzero : value = 0 → storedCode ft.fatType value = 0 := by
    rintro rfl
    cases ft.fatType <;> rfl
  rw [statsExact_update h hexact hc _ hshape hentry, hft]
  refine and_congr (freeAfter_exact_iff hzero hfree hfree₁) ?_
  exact badAfter_exact_iff rfl hzero hbad hbad₁

theorem fatTableSetEof_eq (htype : ft.fatType ≠ .fat12) :
    fatTableSetEof cluster ft = fatTableSet cluster (eofCode ft.fatType) ft := by
  have hget : (get : TableM FatTable) ft = .ok (ft, ft) := rfl
  unfold fatTableSetEof
  rw [run_bind_ok hget]
  cases h : ft.fatType with
  | fat12 => exact absurd h htype
  | fat16 => rfl
  | fat32 => rfl

theorem storedCode_eofCode (fatType : FatType) :
    storedCode fatType (eofCode fatType) = eofCode fatType := by
  cases fatType <;> rfl

theorem eofCode_ne_zero {fatType : FatType} (h : fatType ≠ .fat12) : eofCode fatType ≠ 0 := by
  cases fatType with
  | fat12 => exact absurd rfl h
  | fat16 => decide
  | fat32 => decide

theorem eofCode_ne_badCode {fatType : FatType} : eofCode fatType ≠ badCode fatType := by
  cases fatType <;> decide

theorem fatTableSetEof_run (ft : FatTable) (htype : ft.fatType ≠ .fat12)
    (hc : cluster < ft.clusterCount + 2) :
    ∃ ft', fatTableSetEof cluster ft = .ok (true, ft') ∧ ft.SameShape ft' ∧
      ft'.entry = Function.update ft.entry cluster (eofCode ft.fatType) := by
  refine ⟨_, (fatTableSetEof_eq htype).trans (fatTableSet_eq htype hc), ⟨rfl, rfl, rfl⟩, ?_⟩
  simp only [storedCode_eofCode]

theorem eof_keeps_iff {code : ℕ} (hstored : storedCode ft.fatType code = code)
    (hcode : code ≠ 0 ∧ code ≠ badCode ft.fatType) :
    FatCall.Keeps ft (.set cluster code) ↔ FatCall.Keeps ft (.setEof cluster) := by
  simp only [FatCall.Keeps, hstored]
  have hzero := hcode.1
  have hbad := hcode.2
  tauto

theorem avail_keeps : FatCall.Keeps ft (.set cluster 0) := by
  have hstored : storedCode ft.fatType 0 = 0 := by cases ft.fatType <;> rfl
  have hne := badCode_ne_zero ft.fatType
  simp only [FatCall.Keeps, hstored]
  tauto

theorem fatTableSetBad_eq (htype : ft.fatType ≠ .fat12) (hc : cluster < ft.clusterCount + 2) :
    fatTableSetBad cluster ft = fatTableSet cluster (badCode ft.fatType)
      (if ft.entry cluster = badCode ft.fatType then ft
        else { ft with badClusterCount := increment ft.badClusterCount }) := by
  have hget : fatTableGet ft cluster = .ok (ft.entry cluster) :=
    fatTableGet_eq_ok.mpr ⟨hc, htype, rfl⟩
  have hbad : fatTableIsBad ft cluster = .ok (testCodeBad ft.fatType (ft.entry cluster)) := by
    simp [fatTableIsBad, hget]
  unfold fatTableSetBad testCodeBad at *
  by_cases he : ft.entry cluster = badCode ft.fatType
  · rw [if_pos he]
    simp [bind, StateT.bind, get, getThe, MonadStateOf.get, StateT.get, liftM, monadLift,
      MonadLift.monadLift, StateT.lift, hbad, he, Except.bind, pure, Except.pure]
  · rw [if_neg he]
    simp [bind, StateT.bind, get, getThe, MonadStateOf.get, StateT.get, liftM, monadLift,
      MonadLift.monadLift, StateT.lift, hbad, he, Except.bind, pure, Except.pure, set,
      StateT.set]

theorem fatTableSetBad_keeps_iff (h : ft.Usable) (hexact : StatsExact ft)
    (hc : 2 ≤ cluster ∧ cluster < ft.clusterCount + 2) :
    ∃ ft', fatTableSetBad cluster ft = .ok (true, ft') ∧ ft.SameShape ft' ∧
      (StatsExact ft' ↔ FatCall.Keeps ft (.setBad cluster)) := by
  have hne := badCode_ne_zero ft.fatType
  rw [fatTableSetBad_eq h.fatType hc.2]
  by_cases he : ft.entry cluster = badCode ft.fatType
  · rw [if_pos he]
    refine ⟨_, fatTableSet_eq h.fatType hc.2, ⟨rfl, rfl, rfl⟩,
      (fatTableSet_keeps_iff h hexact hc (fatTableSet_eq h.fatType hc.2)).trans ?_⟩
    have hzero : ft.entry cluster ≠ 0 := he.symm ▸ hne
    simp only [FatCall.Keeps, storedCode_badCode, Mistaken]
    tauto
  · rw [if_neg he]
    obtain ⟨hfree, hbad, hfree₁, -⟩ := hexact.lt h hc
    obtain ⟨ft', hrun, hshape, hentry, hfree', hbad'⟩ :
        ∃ ft', fatTableSet cluster (badCode ft.fatType)
            { ft with badClusterCount := increment ft.badClusterCount } = .ok (true, ft') ∧
          ft.SameShape ft' ∧ ft'.entry = Function.update ft.entry cluster (badCode ft.fatType) ∧
          ft'.freeClusterCount = freeAfter ft cluster (badCode ft.fatType) ∧
          ft'.badClusterCount = if ft.entry cluster = 0 ∧ cluster = badCode ft.fatType then
            decrement (increment ft.badClusterCount) else increment ft.badClusterCount :=
      ⟨_, fatTableSet_eq h.fatType hc.2, ⟨rfl, rfl, rfl⟩, by simp only [storedCode_badCode], rfl,
        by simp [badAfter, hne]⟩
    refine ⟨ft', hrun, hshape, ?_⟩
    rw [statsExact_update h hexact hc _ hshape hentry, hfree', hbad',
      freeAfter_exact_iff (fun hno => absurd hno hne) hfree hfree₁, toNat_testCodeBad,
      toNat_testCodeBad, if_neg he, if_pos rfl]
    unfold FatCall.Keeps Mistaken increment decrement
    split_ifs <;> omega

/-- **One call** is carried out, and keeps the statistics or not. -/
theorem FatCall.keeps_iff (h : ft.Usable) (hexact : StatsExact ft) (call : FatCall)
    (hc : call.InRange ft) :
    ∃ ft', call.run ft = .ok (true, ft') ∧ ft.SameShape ft' ∧
      (StatsExact ft' ↔ call.Keeps ft) := by
  have hset : ∀ cluster value, 2 ≤ cluster ∧ cluster < ft.clusterCount + 2 →
      ∃ ft', fatTableSet cluster value ft = .ok (true, ft') ∧ ft.SameShape ft' ∧
        (StatsExact ft' ↔ FatCall.Keeps ft (.set cluster value)) := fun cluster value hc =>
    ⟨_, fatTableSet_eq h.fatType hc.2, ⟨rfl, rfl, rfl⟩,
      fatTableSet_keeps_iff h hexact hc (fatTableSet_eq h.fatType hc.2)⟩
  cases call with
  | set cluster value => exact hset cluster value hc
  | setEof cluster =>
    obtain ⟨ft', hrun, hshape, hiff⟩ := hset cluster (eofCode ft.fatType) hc
    refine ⟨ft', (fatTableSetEof_eq h.fatType).trans hrun, hshape, hiff.trans ?_⟩
    exact eof_keeps_iff (storedCode_eofCode _) ⟨eofCode_ne_zero h.fatType, eofCode_ne_badCode⟩
  | setBad cluster => exact fatTableSetBad_keeps_iff h hexact hc
  | setAvail cluster =>
    obtain ⟨ft', hrun, hshape, hiff⟩ := hset cluster 0 hc
    exact ⟨ft', hrun, hshape, hiff.trans ⟨fun _ => trivial, fun _ => avail_keeps⟩⟩

end Calls

/-- The tables that calls of the harmless kind lead to. -/
inductive FatRun (ft : FatTable) : FatTable → Prop
  | refl : FatRun ft ft
  | call {ft₁ ft₂ : FatTable} {ok : Bool} (call : FatCall) (h : FatRun ft ft₁)
      (hrange : call.InRange ft₁) (hkeeps : call.Keeps ft₁)
      (hrun : call.run ft₁ = .ok (ok, ft₂)) : FatRun ft ft₂

/-- Harmless calls keep the statistics. -/
theorem FatRun.exact {ft ft' : FatTable} (hrun : FatRun ft ft') (h : ft.Usable)
    (hexact : StatsExact ft) : ft'.Usable ∧ StatsExact ft' := by
  induction hrun with
  | refl => exact ⟨h, hexact⟩
  | call call _ hrange hkeeps hrun ih =>
    obtain ⟨husable, hexact₁⟩ := ih
    obtain ⟨ft₂, hrun₂, hshape, hiff⟩ := call.keeps_iff husable hexact₁ hrange
    obtain ⟨-, rfl⟩ := Prod.mk.inj (Except.ok.inj (hrun₂.symm.trans hrun))
    exact ⟨husable.same hshape, hiff.mpr hkeeps⟩

/-- **Statistics.**  From a table with exact statistics, every call on one of its clusters
returns, and leaves them exact if and only if it is one of the harmless calls; along every
run of harmless calls they are exact throughout. -/
theorem fatTable_stats_of_calls {ft : FatTable} (h : ft.Usable) (hexact : StatsExact ft) :
    (∀ call : FatCall, call.InRange ft →
      ∃ ft', call.run ft = .ok (true, ft') ∧ (StatsExact ft' ↔ call.Keeps ft)) ∧
    ∀ ft', FatRun ft ft' → StatsExact ft' := by
  refine ⟨fun call hrange => ?_, fun ft' hrun => (hrun.exact h hexact).2⟩
  obtain ⟨ft', hrun, -, hiff⟩ := call.keeps_iff h hexact hrange
  exact ⟨ft', hrun, hiff⟩

/-- A FAT16 table with four clusters, all of them available. -/
def fourClusters : FatTable := ⟨.fat16, 256, 4, 4, 0, 1, fun c => if c < 2 then 0xfff8 else 0⟩

theorem fourClusters_usable : fourClusters.Usable := ⟨by decide, by decide, by decide⟩

/-- Marking a cluster bad keeps the statistics. -/
theorem fatTable_stats_of_calls_four :
    ∃ ft', (FatCall.setBad 3).run fourClusters = .ok (true, ft') ∧ StatsExact ft' := by
  have hexact : StatsExact fourClusters :=
    (statsExact_iff fourClusters_usable).mpr ⟨by decide, by decide⟩
  obtain ⟨ft', hrun, hiff⟩ :=
    (fatTable_stats_of_calls fourClusters_usable hexact).1 (.setBad 3) ⟨by decide, by decide⟩
  exact ⟨ft', hrun, hiff.mpr fun h => absurd h.2 (by decide)⟩

/-- A bad cluster becomes the end of a chain, and is still counted as bad. -/
theorem fatTable_stats_stale :
    StatsExact fourClusters ∧
    ∃ ft', (do let _ ← fatTableSetBad 3; fatTableSetEof 3) fourClusters = .ok (true, ft') ∧
      ft'.badClusterCount = 1 ∧ ∃ ft'', fatTableCountStats ft' = .ok ((), ft'') ∧
        ft''.badClusterCount = 0 := by
  refine ⟨(statsExact_iff fourClusters_usable).mpr ⟨by decide, by decide⟩, ?_⟩
  obtain ⟨⟨ok, ft'⟩, hrun, hres⟩ : ∃ r, (do let _ ← fatTableSetBad 3; fatTableSetEof 3) fourClusters
      = .ok r ∧ (r.1, r.2.badClusterCount, (fatTableCountStats r.2).toOption.map
        fun r' => r'.2.badClusterCount) = (true, 1, some 0) := exists_ok_of_map (by decide +kernel)
  simp only [Prod.mk.injEq] at hres
  obtain ⟨rfl, hbad, hcount⟩ := hres
  obtain ⟨⟨⟨⟩, ft''⟩, hstats, hzero⟩ := exists_ok_of_map hcount
  exact ⟨ft', hrun, hbad, ft'', hstats, hzero⟩

/-! ## Finding free clusters -/

section Search

variable {ft : FatTable}

/-- The search goes once around. -/
theorem searchAvailable_eq (htype : ft.fatType ≠ .fat12) :
    searchAvailable ft (List.range' 1 ft.clusterCount)
      = .ok ((around ft.clusterCount ft.lastAlloc).find? fun c => ft.entry c == 0) := by
  have hlist : ∀ is : List ℕ, (∀ i ∈ is, 1 ≤ i ∧ i < 1 + ft.clusterCount) →
      searchAvailable ft is = .ok ((is.map fun i => (i + ft.lastAlloc) % ft.clusterCount).find?
        fun c => ft.entry c == 0) := by
    intro is his
    induction is with
    | nil => rfl
    | cons i rest ih =>
      have hi := his i List.mem_cons_self
      have hlt := Nat.mod_lt (i + ft.lastAlloc) (show 0 < ft.clusterCount by omega)
      have havail : fatTableIsAvailable ft ((i + ft.lastAlloc) % ft.clusterCount)
          = .ok (ft.entry ((i + ft.lastAlloc) % ft.clusterCount) == 0) :=
        fatTableIsAvailable_eq_ok.mpr ⟨by omega, htype, rfl⟩
      rw [searchAvailable, havail, List.map_cons, List.find?_cons, ok_bind]
      cases ft.entry ((i + ft.lastAlloc) % ft.clusterCount) == 0 with
      | true => rfl
      | false => exact ih fun j hj => his j (List.mem_cons_of_mem _ hj)
  rw [hlist _ fun i hi => List.mem_range'_1.mp hi, around_eq_map]

/-- What `fat_table_alloc_cluster` relies on: the first two entries are marked as used. -/
structure FatTable.Reserved (ft : FatTable) : Prop where
  usable : ft.Usable
  first : ft.entry 0 ≠ 0
  second : ft.entry 1 ≠ 0
  two : 2 ≤ ft.clusterCount

/-- **`fat_table_alloc_cluster`** returns the first available cluster on the way around. -/
theorem fatTableAllocCluster_eq (htype : ft.fatType ≠ .fat12) :
    fatTableAllocCluster ft
      = .ok (match (around ft.clusterCount ft.lastAlloc).find? fun c => ft.entry c == 0 with
        | some c => (c, { ft with lastAlloc := c })
        | none => (0, ft)) := by
  refine Spec.eq_ok ?_
  unfold fatTableAllocCluster
  refine spec_bind.mpr (spec_get.mpr ?_)
  rw [searchAvailable_eq htype]
  refine spec_bind.mpr (Spec.lift (fails_ok _) fun found hfound => ?_)
  obtain rfl := Except.ok.inj hfound
  cases (around ft.clusterCount ft.lastAlloc).find? fun c => ft.entry c == 0 with
  | none => exact ⟨rfl, rfl⟩
  | some c => exact spec_bind.mpr (spec_set.mpr ⟨rfl, rfl⟩)

/-- It is below `cluster_count`, or 0 if there is none. -/
theorem fatTableAllocCluster_cases (h : ft.Reserved) :
    (∃ c, fatTableAllocCluster ft = .ok (c, { ft with lastAlloc := c }) ∧
        2 ≤ c ∧ c < ft.clusterCount ∧ ft.entry c = 0) ∨
      (fatTableAllocCluster ft = .ok (0, ft) ∧ ∀ c, 2 ≤ c → c < ft.clusterCount →
        ft.entry c ≠ 0) := by
  rw [fatTableAllocCluster_eq h.usable.fatType]
  cases hfind : (around ft.clusterCount ft.lastAlloc).find? fun c => ft.entry c == 0 with
  | none =>
    refine Or.inr ⟨rfl, fun c _ hc hzero => ?_⟩
    have := List.find?_eq_none.mp hfind c (mem_around.mpr hc)
    simp [hzero] at this
  | some c =>
    have hzero : ft.entry c = 0 := by simpa using List.find?_some hfind
    have hc := mem_around.mp (List.mem_of_find?_eq_some hfind)
    have hfirst : c ≠ 0 := fun heq => h.first (heq ▸ hzero)
    have hsecond : c ≠ 1 := fun heq => h.second (heq ▸ hzero)
    exact Or.inl ⟨c, rfl, by omega, hc, hzero⟩

/-- A cluster of the file system is available. -/
def SomeAvailable (ft : FatTable) : Prop :=
  ∃ c, 2 ≤ c ∧ c < ft.clusterCount + 2 ∧ ft.entry c = 0

/-- What a search should do. -/
def FindsCluster (ft : FatTable) : Prop :=
  ∃ cluster ft', fatTableAllocCluster ft = .ok (cluster, ft') ∧
    (SomeAvailable ft →
      2 ≤ cluster ∧ cluster < ft.clusterCount + 2 ∧ ft.entry cluster = 0) ∧
    (¬ SomeAvailable ft → cluster = 0)

/-- Allocates clusters and marks them, until there is none left or `n` have been
allocated. -/
def allocAll : ℕ → TableM (List ℕ)
  | 0 => return []
  | n + 1 => do
    let cluster ← fatTableAllocCluster
    if cluster = 0 then return []
    let _ ← fatTableSetEof cluster
    return cluster :: (← allocAll n)

/-- Allocating and marking yields as many clusters as were counted. -/
def YieldsCounted (ft : FatTable) : Prop :=
  ∃ stats, fatTableCountStats ft = .ok ((), stats) ∧ ∃ enough, ∀ n ≥ enough, ∃ clusters ft',
    allocAll n ft = .ok (clusters, ft') ∧ clusters.Nodup ∧
    (∀ c ∈ clusters, 2 ≤ c ∧ c < ft.clusterCount + 2 ∧ ft.entry c = 0) ∧
    clusters.length = stats.freeClusterCount

/-- The available clusters the search can find. -/
def findable (ft : FatTable) : List ℕ :=
  (List.range' 2 (ft.clusterCount - 2)).filter fun c => ft.entry c == 0

theorem mem_findable {c : ℕ} :
    c ∈ findable ft ↔ 2 ≤ c ∧ c < ft.clusterCount ∧ ft.entry c = 0 := by
  simp only [findable, List.mem_filter, List.mem_range'_1, beq_iff_eq]
  omega

theorem nodup_findable (ft : FatTable) : (findable ft).Nodup :=
  List.Nodup.sublist List.filter_sublist List.nodup_range'

/-- A cluster that is marked is not found again, and the table is still in order. -/
theorem FatTable.Reserved.marked (h : ft.Reserved) {ft' : FatTable} {c code : ℕ}
    (hshape : ft.SameShape ft') (hentry : ft'.entry = Function.update ft.entry c code)
    (hcode : code ≠ 0) (hc : c ∈ findable ft) :
    ft'.Reserved ∧ (c :: findable ft').Perm (findable ft) := by
  obtain ⟨hlow, hlt, hzero⟩ := mem_findable.mp hc
  have hother : ∀ d, d ≠ c → ft'.entry d = ft.entry d := fun d hd => by
    rw [hentry, Function.update_of_ne hd]
  have hmarked : ft'.entry c ≠ 0 := by rwa [hentry, Function.update_self]
  refine ⟨⟨h.usable.same hshape, ?_, ?_, hshape.clusterCount.symm ▸ h.two⟩, ?_⟩
  · rw [hother 0 (by omega)]
    exact h.first
  · rw [hother 1 (by omega)]
    exact h.second
  · refine (List.perm_ext_iff_of_nodup (List.nodup_cons.mpr ⟨fun hmem => ?_, nodup_findable _⟩)
      (nodup_findable _)).mpr fun d => ?_
    · exact hmarked (mem_findable.mp hmem).2.2
    · rw [List.mem_cons, mem_findable, mem_findable, hshape.clusterCount]
      by_cases hd : d = c
      · subst hd
        simp [hlow, hlt, hzero]
      · rw [hother d hd]
        simp [hd]

/-- **Allocating and marking** yields all of these, each once. -/
theorem allocAll_spec (n : ℕ) (h : ft.Reserved) (hn : (findable ft).length ≤ n) :
    ∃ clusters ft', allocAll n ft = .ok (clusters, ft') ∧ clusters.Perm (findable ft) := by
  induction n generalizing ft with
  | zero =>
    have hnil := List.eq_nil_of_length_eq_zero (Nat.le_zero.mp hn)
    exact ⟨[], ft, rfl, hnil ▸ List.Perm.refl _⟩
  | succ n ih =>
    rcases fatTableAllocCluster_cases h with ⟨c, hrun, hc, hlt, hzero⟩ | ⟨hrun, hnone⟩
    · -- the cluster is marked, so that the rest does not find it again
      obtain ⟨ft₂, hset, hshape₂, hentry⟩ := fatTableSetEof_run { ft with lastAlloc := c }
        h.usable.fatType (show c < ft.clusterCount + 2 by omega)
      have hshape : ft.SameShape ft₂ := ⟨hshape₂.fatType, hshape₂.size, hshape₂.clusterCount⟩
      obtain ⟨h₂, hperm⟩ := h.marked hshape hentry (eofCode_ne_zero h.usable.fatType)
        (mem_findable.mpr ⟨hc, hlt, hzero⟩)
      have hlength := hperm.length_eq
      rw [List.length_cons] at hlength
      obtain ⟨clusters, ft', hrest, hperm'⟩ := ih h₂ (by omega)
      refine ⟨c :: clusters, ft', ?_, (hperm'.cons c).trans hperm⟩
      unfold allocAll
      rw [run_bind_ok hrun, if_neg (by omega), run_bind_ok hset, run_bind_ok hrest]
      rfl
    · have hnil : findable ft = [] := List.eq_nil_iff_forall_not_mem.mpr fun c hc =>
        have hc := mem_findable.mp hc
        hnone c hc.1 hc.2.1 hc.2.2
      refine ⟨[], ft, ?_, hnil ▸ List.Perm.refl _⟩
      simp only [allocAll, bind, StateT.bind, hrun, Except.bind, if_true, pure, StateT.pure,
        Except.pure]

/-- The count of the whole table is that of what can be found and of the last two
clusters. -/
theorem countCodes_findable (h : 2 ≤ ft.clusterCount) :
    countCodes ft testCodeAvailable = (findable ft).length
      + (if ft.entry ft.clusterCount = 0 then 1 else 0)
      + if ft.entry (ft.clusterCount + 1) = 0 then 1 else 0 := by
  obtain ⟨n, hn⟩ := Nat.exists_eq_add_of_le h
  have hrange : List.range' 2 ft.clusterCount
      = List.range' 2 n ++ [ft.clusterCount, ft.clusterCount + 1] := by
    rw [hn, Nat.add_comm 2 n, ← List.range'_append_1]
    rw [show 2 + n = n + 2 by omega]
    rfl
  unfold countCodes findable
  rw [hrange, List.countP_append, ← List.countP_eq_length_filter,
    show ft.clusterCount - 2 = n by omega]
  simp only [testCodeAvailable, List.countP_cons, List.countP_nil, beq_iff_eq, Nat.zero_add]
  ac_rfl

/-- **Completeness.**  One search returns an available cluster if there is one, unless the
last two clusters are the only ones.  Allocating and marking yields as many as
`fat_table_count_stats` has counted exactly if none of the last two is available. -/
theorem fatTableAllocCluster_complete_iff (h : ft.Reserved) :
    (FindsCluster ft ↔
      (SomeAvailable ft → ∃ c, 2 ≤ c ∧ c < ft.clusterCount ∧ ft.entry c = 0)) ∧
    (YieldsCounted ft ↔
      ft.entry ft.clusterCount ≠ 0 ∧ ft.entry (ft.clusterCount + 1) ≠ 0) := by
  constructor
  · rcases fatTableAllocCluster_cases h with ⟨c, hrun, hc, hlt, hzero⟩ | ⟨hrun, hnone⟩
    · refine ⟨fun _ _ => ⟨c, hc, hlt, hzero⟩, fun _ => ⟨c, _, hrun, fun _ => ?_, fun hno => ?_⟩⟩
      · exact ⟨hc, by omega, hzero⟩
      · exact absurd ⟨c, hc, by omega, hzero⟩ hno
    · constructor
      · rintro ⟨cluster, ft', hrun', hfinds, -⟩ hsome
        obtain ⟨rfl, -⟩ := Prod.mk.inj (Except.ok.inj (hrun.symm.trans hrun'))
        have := (hfinds hsome).1
        omega
      · intro hsome
        refine ⟨0, ft, hrun, fun havail => ?_, fun _ => rfl⟩
        obtain ⟨c, hc, hlt, hzero⟩ := hsome havail
        exact absurd hzero (hnone c hc hlt)
  · have hcount := countCodes_findable h.two
    have hstats := fatTableCountStats_eq h.usable
    constructor
    · rintro ⟨stats, hstats', enough, hyields⟩
      obtain ⟨-, rfl⟩ := Prod.mk.inj (Except.ok.inj (hstats.symm.trans hstats'))
      -- the same clusters come out, however many are asked for
      obtain ⟨clusters, ft', hrun, -, -, hlength⟩ :=
        hyields (max enough (findable ft).length) (le_max_left _ _)
      obtain ⟨clusters', ft'', hrun', hperm⟩ :=
        allocAll_spec (max enough (findable ft).length) h (le_max_right _ _)
      obtain ⟨rfl, -⟩ := Prod.mk.inj (Except.ok.inj (hrun'.symm.trans hrun))
      have hfound := hperm.length_eq
      dsimp only at hlength
      rw [hcount] at hlength
      constructor
      · intro hlast
        rw [if_pos hlast] at hlength
        omega
      · intro hlast
        rw [if_pos hlast] at hlength
        omega
    · rintro ⟨hlast, hlast'⟩
      refine ⟨_, hstats, (findable ft).length, fun n hn => ?_⟩
      obtain ⟨clusters, ft', hrun, hperm⟩ := allocAll_spec n h hn
      refine ⟨clusters, ft', hrun, ?_, fun c hc => ?_, ?_⟩
      · exact hperm.nodup_iff.mpr (nodup_findable ft)
      · obtain ⟨hlo, hhi, hzero⟩ := mem_findable.mp (hperm.mem_iff.mp hc)
        exact ⟨hlo, by omega, hzero⟩
      · rw [hperm.length_eq, hcount, if_neg hlast, if_neg hlast']
        rfl

end Search

/-- A table of four clusters whose last two are taken. -/
def frontAvailable : FatTable :=
  ⟨.fat16, 256, 4, 2, 0, 1, fun c => if c = 2 ∨ c = 3 then 0 else 0xfff8⟩

/-- There the search is complete. -/
theorem fatTableAllocCluster_complete_front : FindsCluster frontAvailable ∧
    YieldsCounted frontAvailable := by
  have h : frontAvailable.Reserved :=
    ⟨⟨by decide, by decide, by decide⟩, by decide, by decide, by decide⟩
  obtain ⟨hfinds, hyields⟩ := fatTableAllocCluster_complete_iff h
  exact ⟨hfinds.mpr fun _ => ⟨2, by decide, by decide, by decide⟩,
    hyields.mpr ⟨by decide, by decide⟩⟩

/-- A table of two clusters, both available. -/
def twoClusters : FatTable := ⟨.fat16, 256, 2, 2, 0, 1, fun c => if c < 2 then 0xfff8 else 0⟩

/-- Both clusters are counted, and none is found. -/
theorem fatTableAllocCluster_misses :
    twoClusters.Reserved ∧ SomeAvailable twoClusters ∧ StatsExact twoClusters ∧
    ∃ ft', fatTableAllocCluster twoClusters = .ok (0, ft') := by
  have h : twoClusters.Usable := ⟨by decide, by decide, by decide⟩
  refine ⟨⟨h, by decide, by decide, by decide⟩, ⟨2, by decide, by decide, by decide⟩,
    (statsExact_iff h).mpr ⟨by decide, by decide⟩, ?_⟩
  obtain ⟨⟨cluster, ft'⟩, hrun, rfl⟩ : ∃ r, fatTableAllocCluster twoClusters = .ok r ∧ r.1 = 0 :=
    exists_ok_of_map (by decide +kernel)
  exact ⟨ft', hrun⟩

end Libparted.Fat
