import Libparted.Labels.Amiga.Blocks
import Libparted.Labels.Gpt.Copies

/-!
# Clobbering and the probes

`ped_disk_probe` asks one label after the other whether a table of its own is on the
device, and while it does so there is nobody to answer exceptions.  `ped_disk_clobber`
is meant to leave nothing behind that a probe would take for a table.  It clears a fixed
number of bytes at both ends of the device, and spares sector 0 if it finds a GPT, for
the sake of the protective MBR.

Two things can be left behind.  The other labels keep their signatures in sector 0, and
they survive next to a protective MBR.  And the Amiga probe looks at sixteen *sectors*,
which is more than is cleared when a sector has more than 512 bytes.
-/

namespace Libparted

open Library

variable {π δ : Type}

/-! ## The probes -/

/-- The big-endian number of 16 bits at `pos`. -/
def be16 (label : List Byte) (pos : ℕ) : BitVec 16 := (Codec.big 2).decode (label.drop pos)

/-- The bytes of a text, as `memcmp` compares them. -/
def textBytes (text : String) : List Byte := text.toList.map fun c => BitVec.ofNat 8 c.toNat

/-- `PC9800_EXTFMT_MAGIC`. -/
def pc9800ExtfmtMagic : BitVec 16 := 0xAA55

/-- `pc98_check_magic`. -/
def pc98CheckMagic (partTable : List Byte) : Bool :=
  (Codec.uint 2).decode (partTable.drop 510) = pc9800ExtfmtMagic

/-- `pc98_check_ipl_signature`. -/
def pc98CheckIplSignature (partTable : List Byte) : Bool :=
  (partTable.drop 4).take 4 = textBytes "IPL1" || (partTable.drop 4).take 8 = textBytes "Linux 98"
    || (partTable.drop 4).take 8 = textBytes "GRUB/98 "

/-- `pc98_probe`. -/
def pc98Probe (dev : PedDevice) (store : Store) : Bool :=
  if dev.sectorSize ≠ 512 then false
  else match pedDeviceRead dev store 0 2 with
    | none => false
    | some partTable => pc98CheckMagic partTable && pc98CheckIplSignature partTable

/-- `MAC_DISK_MAGIC`. -/
def macDiskMagic : BitVec 16 := 0x4552

/-- `_check_signature` of Mac labels. -/
def macCheckSignature (env : Env) (rawDisk : List Byte) : Ask Bool :=
  if be16 rawDisk 0 ≠ macDiskMagic then
    pedExceptionIgnored env ("Invalid signature "
      ++ String.ofList (Nat.toDigits 16 (be16 rawDisk 0).toNat) ++ " for Mac disk labels.")
  else return true

/-- `mac_probe`; a `MacRawDisk` is 512 bytes. -/
def macProbe (env : Env) : DeviceM π δ Bool := do
  if env.dev.sectorSize < 512 then
    return false
  match pttReadSector env.dev (← getStore) 0 with
  | none => return false
  | some label => inMemory (ask (macCheckSignature env label))

/-- `SUN_DISK_MAGIC`. -/
def sunDiskMagic : BitVec 16 := 0xDABE

/-- `sun_verify_checksum`. -/
def sunVerifyChecksum (label : List Byte) : Bool :=
  (List.range 256).foldl (fun csum i => csum ^^^ (Codec.uint 2).decode (label.drop (2 * i)))
    (0 : BitVec 16) = 0

/-- `sun_probe`. -/
def sunProbe (env : Env) : DeviceM π δ Bool := do
  match pttReadSector env.dev (← getStore) 0 with
  | none => return false
  | some label =>
      if be16 label 508 ≠ sunDiskMagic then
        return false
      if !sunVerifyChecksum label then
        inMemory (ask (pedExceptionReport env "Corrupted Sun disk label detected."))
        return false
      return true

/-- `VHMAGIC`. -/
def vhmagic : BitVec 32 := 0x0be5a941

/-- `dvh_probe`. -/
def dvhProbe (dev : PedDevice) (store : Store) : Bool :=
  match pttReadSector dev store 0 with
  | none => false
  | some label => word label 0 = vhmagic

/-- The labels whose tables `ped_disk_clobber` is after. -/
inductive ProbedLabel where
  | gpt
  | amiga
  | pc98
  | mac
  | sun
  | dvh
deriving DecidableEq, Repr

/-- `type->ops->probe`. -/
def ProbedLabel.probe (env : Env) : ProbedLabel → DeviceM π δ Bool
  | gpt => do return gptProbe env.dev (← getStore)
  | amiga => amigaProbe env
  | pc98 => do return pc98Probe env.dev (← getStore)
  | mac => macProbe env
  | sun => sunProbe env
  | dvh => do return dvhProbe env.dev (← getStore)

/-- `ped_exception_fetch_all`: from here on exceptions are kept from the person or program
that answers them. -/
def pedExceptionFetchAll (env : Env) : Env := { env with answers := fun _ => .unhandled }

/-- The label does not find its table on the device, as `ped_disk_probe` asks it. -/
def Rejects (env : Env) (label : ProbedLabel) (a : Attached π δ) : Prop :=
  ∃ a', label.probe (pedExceptionFetchAll env) a = .ok (false, a')

/-! ## Signatures -/

/-- What the probes that only look at sector 0 know their tables by. -/
def HasSignature (dev : PedDevice) (sector0 : List Byte) : ProbedLabel → Prop
  | .pc98 => dev.sectorSize = 512 ∧ pc98CheckMagic sector0 = true ∧
      pc98CheckIplSignature sector0 = true
  | .mac => be16 sector0 0 = macDiskMagic
  | .sun => be16 sector0 508 = sunDiskMagic ∧ sunVerifyChecksum sector0 = true
  | .dvh => word sector0 0 = vhmagic
  | .gpt | .amiga => False

instance (dev : PedDevice) (sector0 : List Byte) :
    ∀ label, Decidable (HasSignature dev sector0 label)
  | .pc98 => inferInstanceAs (Decidable (_ ∧ _ ∧ _))
  | .mac => inferInstanceAs (Decidable (_ = _))
  | .sun => inferInstanceAs (Decidable (_ ∧ _))
  | .dvh => inferInstanceAs (Decidable (_ = _))
  | .gpt => inferInstanceAs (Decidable False)
  | .amiga => inferInstanceAs (Decidable False)

section Signatures

variable {env : Env} {a : Attached π δ} {sector0 : List Byte}

/-- What a read of two sectors begins with. -/
theorem pc98Check_append (rest : List Byte) (h : sector0.length = 512) :
    pc98CheckMagic (sector0 ++ rest) = pc98CheckMagic sector0 ∧
      pc98CheckIplSignature (sector0 ++ rest) = pc98CheckIplSignature sector0 := by
  have hstart : ∀ p n, p + n ≤ 512 →
      ((sector0 ++ rest).drop p).take n = (sector0.drop p).take n := by
    intro p n hn
    rw [List.drop_append_of_le_length (by omega), List.take_append_of_le_length (by simp; omega)]
  constructor
  · unfold pc98CheckMagic Codec.uint
    simp only [hstart 510 2 (by omega)]
  · unfold pc98CheckIplSignature
    rw [hstart 4 4 (by omega), hstart 4 8 (by omega)]

theorem pc98Probe_eq (hdev : 2 ≤ env.dev.length)
    (hsector0 : readAt a.medium.store (sectorPos env.dev 0) env.dev.sectorSize = sector0) :
    pc98Probe env.dev a.medium.store = decide (HasSignature env.dev sector0 .pc98) := by
  refine Bool.eq_iff_iff.mpr (Iff.trans ?_ decide_eq_true_iff.symm)
  unfold pc98Probe
  by_cases hsize : env.dev.sectorSize = 512
  · rw [hsize] at hsector0
    have hlen : sector0.length = 512 := by rw [← hsector0, length_readAt]
    have hcount : (2 : ℤ).toNat * env.dev.sectorSize = 512 + 512 := by rw [hsize]; rfl
    obtain ⟨hmagic, hipl⟩ := pc98Check_append
      (readAt a.medium.store (sectorPos env.dev 0 + 512) 512) hlen
    rw [if_neg (not_not_intro hsize), pedDeviceRead_eq ⟨le_rfl, by omega, by omega⟩, hcount,
      readAt_add, hsector0]
    simp [hmagic, hipl, HasSignature, hsize]
  · simp [hsize, HasSignature]

theorem macProbe_run (h512 : 512 ≤ env.dev.sectorSize)
    (hread : pttReadSector env.dev a.medium.store 0 = some sector0) :
    ∃ a', macProbe (pedExceptionFetchAll env) a
      = .ok (decide (HasSignature env.dev sector0 .mac), a') := by
  have hrest : macProbe (pedExceptionFetchAll env) a
      = inMemory (ask (macCheckSignature (pedExceptionFetchAll env) sector0)) a := by
    unfold macProbe
    rw [if_neg (show ¬ (pedExceptionFetchAll env).dev.sectorSize < 512 from by
      simpa [pedExceptionFetchAll] using h512)]
    rw [run_bind_ok (show getStore a = .ok (a.medium.store, a) from rfl)]
    simp only [show pttReadSector (pedExceptionFetchAll env).dev a.medium.store 0 = some sector0
      from hread]
  rw [hrest]
  unfold macCheckSignature
  by_cases hmagic : be16 sector0 0 = macDiskMagic
  · rw [if_neg (not_not_intro hmagic), decide_eq_true (show HasSignature env.dev sector0 .mac from
      hmagic)]
    exact ⟨_, rfl⟩
  · rw [if_pos hmagic, decide_eq_false (show ¬ HasSignature env.dev sector0 .mac from hmagic)]
    exact ⟨_, rfl⟩

theorem sunProbe_run (hread : pttReadSector env.dev a.medium.store 0 = some sector0) :
    ∃ a', sunProbe (pedExceptionFetchAll env) a
      = .ok (decide (HasSignature env.dev sector0 .sun), a') := by
  unfold sunProbe
  rw [run_bind_ok (show getStore a = .ok (a.medium.store, a) from rfl)]
  simp only [show pttReadSector (pedExceptionFetchAll env).dev a.medium.store 0 = some sector0
    from hread]
  by_cases hmagic : be16 sector0 508 = sunDiskMagic
  · rw [if_neg (not_not_intro hmagic)]
    cases hsum : sunVerifyChecksum sector0 with
    | true =>
        rw [decide_eq_true (show HasSignature env.dev sector0 .sun from ⟨hmagic, hsum⟩)]
        exact ⟨_, rfl⟩
    | false =>
        rw [decide_eq_false (show ¬ HasSignature env.dev sector0 .sun from
          fun h => Bool.false_ne_true (hsum.symm.trans h.2))]
        exact ⟨_, rfl⟩
  · rw [if_pos hmagic, decide_eq_false (show ¬ HasSignature env.dev sector0 .sun from
      fun h => hmagic h.1)]
    exact ⟨_, rfl⟩

theorem dvhProbe_eq (hread : pttReadSector env.dev a.medium.store 0 = some sector0) :
    dvhProbe env.dev a.medium.store = decide (HasSignature env.dev sector0 .dvh) := by
  unfold dvhProbe
  rw [hread]
  rfl

/-- **The probes that look at sector 0 only** reject a device exactly if their signature is
not there. -/
theorem rejects_iff_hasSignature (h512 : 512 ≤ env.dev.sectorSize) (hdev : 2 ≤ env.dev.length)
    {label : ProbedLabel} (hgpt : label ≠ .gpt) (hamiga : label ≠ .amiga) :
    Rejects env label a ↔ ¬ HasSignature env.dev
      (readAt a.medium.store (sectorPos env.dev 0) env.dev.sectorSize) label := by
  have hread : pttReadSector env.dev a.medium.store 0
      = some (readAt a.medium.store (sectorPos env.dev 0) env.dev.sectorSize) :=
    pttReadSector_eq le_rfl (by omega)
  have hrun : ∃ a', label.probe (pedExceptionFetchAll env) a = .ok (decide (HasSignature env.dev
      (readAt a.medium.store (sectorPos env.dev 0) env.dev.sectorSize) label), a') := by
    cases label with
    | gpt => exact absurd rfl hgpt
    | amiga => exact absurd rfl hamiga
    | pc98 => exact ⟨a, congrArg (fun ok => Except.ok (ok, a)) (pc98Probe_eq hdev rfl)⟩
    | mac => exact macProbe_run h512 hread
    | sun => exact sunProbe_run hread
    | dvh => exact ⟨a, congrArg (fun ok => Except.ok (ok, a)) (dvhProbe_eq hread)⟩
  obtain ⟨a', hrun⟩ := hrun
  unfold Rejects
  rw [hrun]
  simp

end Signatures

/-! ## What clobbering leaves behind -/

/-- The sectors `ped_disk_clobber` does not clear: sector 0 next to a GPT, and what is
too far from both ends. -/
def Spared (dev : PedDevice) (store : Store) (sector : ℤ) : Prop :=
  gptProbe dev store = true ∧ sector = 0 ∨
    clobberFirst dev store + clobberCount dev ≤ sector ∧ sector < dev.length - clobberCount dev

/-- Nothing that would be taken for a table is in a sector that is not cleared. -/
structure Clobberable (dev : PedDevice) (store : Store) : Prop where
  first : gptProbe dev store = true → ∀ label,
    ¬ HasSignature dev (readAt store (sectorPos dev 0) dev.sectorSize) label
  rdb : ∀ i : ℕ, i < rdbLocationLimit → RdbAt dev store i → ¬ Spared dev store i

section Clobber

variable {env : Env} {a a' : Attached GPTPartitionData GPTDiskData}

theorem clobberFirst_cases (dev : PedDevice) (store : Store) :
    gptProbe dev store = true ∧ clobberFirst dev store = 1 ∨
      gptProbe dev store = false ∧ clobberFirst dev store = 0 := by
  unfold clobberFirst
  cases gptProbe dev store with
  | true => exact Or.inl ⟨rfl, rfl⟩
  | false => exact Or.inr ⟨rfl, rfl⟩

/-- A sector of the device is cleared or spared. -/
theorem clobberSector_iff {dev : PedDevice} {store : Store} {sector : ℤ}
    (h0 : 0 ≤ sector) (hlt : sector < dev.length) :
    ClobberSector dev (clobberFirst dev store) sector ↔ ¬ Spared dev store sector := by
  unfold ClobberSector Spared
  rw [max_le_iff, lt_min_iff]
  rcases clobberFirst_cases dev store with ⟨hgpt, hfirst⟩ | ⟨hgpt, hfirst⟩
  · simp only [hgpt, hfirst, true_and]
    split <;> omega
  · simp only [hgpt, hfirst, Bool.false_eq_true, false_and, false_or]
    split <;> omega

/-- No label has its signature in a sector of zeroes. -/
theorem not_hasSignature_zero (dev : PedDevice) (h512 : 512 ≤ dev.sectorSize) (label : ProbedLabel) :
    ¬ HasSignature dev (List.replicate dev.sectorSize 0) label := by
  obtain ⟨k, hk⟩ := Nat.exists_eq_add_of_le h512
  have hdrop : ∀ p n, p + n ≤ 512 →
      ((List.replicate dev.sectorSize (0 : Byte)).drop p).take n = List.replicate n 0 := by
    intro p n hn
    rw [List.drop_replicate, List.take_replicate, min_eq_left (by omega)]
  cases label with
  | gpt => exact id
  | amiga => exact id
  | pc98 =>
      rintro ⟨-, hmagic, -⟩
      unfold pc98CheckMagic Codec.uint at hmagic
      simp only [hdrop 510 2 (by omega)] at hmagic
      exact absurd hmagic (by decide)
  | mac =>
      intro hmagic
      unfold HasSignature be16 Codec.big at hmagic
      simp only [hdrop 0 2 (by omega)] at hmagic
      exact absurd hmagic (by decide)
  | sun =>
      rintro ⟨hmagic, -⟩
      unfold be16 Codec.big at hmagic
      simp only [hdrop 508 2 (by omega)] at hmagic
      exact absurd hmagic (by decide)
  | dvh =>
      intro hmagic
      unfold HasSignature word Codec.big at hmagic
      simp only [Nat.mul_zero, hdrop 0 4 (by omega)] at hmagic
      exact absurd hmagic (by decide)

theorem word_zero_replicate {n : ℕ} (h : 4 ≤ n) : word (List.replicate n 0) 0 = 0 := by
  unfold word Codec.big
  simp only [Nat.mul_zero, List.drop_zero, List.take_replicate, min_eq_left h]
  decide

theorem three_le_clobberCount {dev : PedDevice} (h0 : 0 < dev.sectorSize)
    (h4096 : dev.sectorSize ≤ 4096) : 3 ≤ clobberCount dev := by
  have : (2 : ℤ) ≤ 9 * 1024 / (dev.sectorSize : ℤ) := Int.le_ediv_of_mul_le (by omega) (by omega)
  unfold clobberCount
  omega

/-- After clobbering a sector is empty, or it is spared and as before. -/
theorem clobbered_sector (hcleared : a.medium.ClearedOn env.dev
      (ClobberSector env.dev (clobberFirst env.dev a.medium.store)) a'.medium) {i : ℤ}
    (h0 : 0 ≤ i) (hlt : i < env.dev.length) :
    readAt a'.medium.store (sectorPos env.dev i) env.dev.sectorSize
        = List.replicate env.dev.sectorSize 0 ∧ ¬ Spared env.dev a.medium.store i ∨
      readAt a'.medium.store (sectorPos env.dev i) env.dev.sectorSize
        = readAt a.medium.store (sectorPos env.dev i) env.dev.sectorSize ∧
        Spared env.dev a.medium.store i := by
  by_cases hspared : Spared env.dev a.medium.store i
  · exact Or.inr ⟨hcleared.same i h0 fun h => (clobberSector_iff h0 hlt).mp h hspared, hspared⟩
  · exact Or.inl ⟨hcleared.zero i h0 ((clobberSector_iff h0 hlt).mpr hspared), hspared⟩

section Clobbered

variable (h512 : 512 ≤ env.dev.sectorSize) (h4096 : env.dev.sectorSize ≤ 4096)
  (hdev : 2 ≤ env.dev.length)
  (hcleared : a.medium.ClearedOn env.dev
    (ClobberSector env.dev (clobberFirst env.dev a.medium.store)) a'.medium)

include h512 hcleared

theorem rejects_amiga_clobbered_iff : Rejects env .amiga a' ↔ ∀ i : ℕ, i < rdbLocationLimit →
    RdbAt env.dev a.medium.store i → ¬ Spared env.dev a.medium.store i := by
  have hiff : Rejects env .amiga a' ↔
      ∀ i : ℕ, i < rdbLocationLimit → ¬ RdbAt env.dev a'.medium.store i :=
    amigaProbe_rejects_iff fun _ => rfl
  rw [hiff]
  refine forall₂_congr fun i hi => ?_
  by_cases hlt : (i : ℤ) < env.dev.length
  · unfold RdbAt
    rcases clobbered_sector hcleared (Int.natCast_nonneg i) hlt with ⟨hzero, hno⟩ | ⟨hsame, hyes⟩
    · rw [hzero, word_zero_replicate (by omega)]
      exact iff_of_true (fun h => absurd h.2 (by decide)) fun _ => hno
    · rw [hsame]
      exact ⟨fun h hr => absurd hr h, fun h hr => h hr hyes⟩
  · exact iff_of_true (fun h => hlt h.1) fun h => absurd h.1 hlt

include h4096 hdev

/-- The sector of the primary header is never spared. -/
theorem rejects_gpt_clobbered : Rejects env .gpt a' := by
  have hcount := three_le_clobberCount (by omega) h4096
  have hone : ¬ Spared env.dev a.medium.store 1 := by
    unfold Spared
    rcases clobberFirst_cases env.dev a.medium.store with ⟨-, hfirst⟩ | ⟨-, hfirst⟩ <;> omega
  obtain ⟨hzero, -⟩ := (clobbered_sector hcleared (by omega) (by omega)).resolve_right
    fun h => hone h.2
  have hprobe : gptProbe env.dev a'.medium.store = false := by
    refine Bool.eq_false_iff.mpr fun h => ?_
    have hsig := ((gptProbe_iff (by omega)).mp h).2
    rw [hzero] at hsig
    have hdecode : (pthNewFromRaw (List.replicate env.dev.sectorSize 0)).signature
        = (Codec.uint 8).decode (List.replicate env.dev.sectorSize 0) := rfl
    rw [hdecode] at hsig
    unfold Codec.uint at hsig
    simp only [List.take_replicate, min_eq_left (show 8 ≤ env.dev.sectorSize by omega)] at hsig
    exact absurd hsig (by decide)
  exact ⟨a', congrArg (fun ok => Except.ok (ok, a')) hprobe⟩

/-- **The labels after clobbering**: they all reject the device exactly if nothing like a
table was in a sector that is spared. -/
theorem rejects_clobbered_iff :
    (∀ label, Rejects env label a') ↔ Clobberable env.dev a.medium.store := by
  have hfirst := three_le_clobberCount (by omega) h4096
  have hzero : Spared env.dev a.medium.store 0 ↔ gptProbe env.dev a.medium.store = true := by
    unfold Spared
    rcases clobberFirst_cases env.dev a.medium.store with ⟨hgpt, h⟩ | ⟨hgpt, h⟩
    · simp [hgpt]
    · simp only [hgpt, Bool.false_eq_true, false_and, false_or, iff_false]
      omega
  have hsector := clobbered_sector hcleared le_rfl (show (0 : ℤ) < env.dev.length by omega)
  rw [hzero] at hsector
  constructor
  · intro h
    refine ⟨fun hgpt label => ?_, (rejects_amiga_clobbered_iff h512 hcleared).mp (h .amiga)⟩
    obtain ⟨hsame, -⟩ := hsector.resolve_left fun hno => hno.2 hgpt
    by_cases hlabel : label ≠ .gpt ∧ label ≠ .amiga
    · have := (rejects_iff_hasSignature h512 hdev hlabel.1 hlabel.2).mp (h label)
      rwa [hsame] at this
    · cases label <;> simp_all [HasSignature]
  · intro h label
    by_cases hgpt : label = .gpt
    · subst hgpt
      exact rejects_gpt_clobbered h512 h4096 hdev hcleared
    · by_cases hamiga : label = .amiga
      · subst hamiga
        exact (rejects_amiga_clobbered_iff h512 hcleared).mpr h.rdb
      · rw [rejects_iff_hasSignature h512 hdev hgpt hamiga]
        rcases hsector with ⟨hclear, -⟩ | ⟨hsame, hyes⟩
        · rw [hclear]
          exact not_hasSignature_zero env.dev h512 label
        · rw [hsame]
          exact h.first hyes label

end Clobbered

theorem exists_pedDiskClobber (a : Attached GPTPartitionData GPTDiskData)
    (h512 : 512 ≤ env.dev.sectorSize) (h4096 : env.dev.sectorSize ≤ 4096)
    (hdev : 2 ≤ env.dev.length) :
    ∃ a', pedDiskClobber env.dev a = .ok (true, a') ∧ a.medium.ClearedOn env.dev
      (ClobberSector env.dev (clobberFirst env.dev a.medium.store)) a'.medium := by
  have hzero : env.dev.sectorSize ≤ sizeofZero := by
    unfold sizeofZero
    omega
  have hspec : Spec (fun _ => False) (pedDiskClobber env.dev) a _ :=
    pedDiskClobber_spec (by omega) hzero (by omega)
  obtain ⟨ok, a', hrun, rfl, -, hcleared⟩ := hspec.exists_ok
  exact ⟨a', hrun, hcleared⟩

/-- **Clobbering a device.**  It always succeeds.  What it changes is within reach of the
two ends of the device, and not sector 0 if there was a GPT.  Afterwards every probe
rejects the device exactly if nothing like a table was in a sector that is spared. -/
theorem pedDiskClobber_rejects_iff (env : Env) (a : Attached GPTPartitionData GPTDiskData)
    (hsize : env.dev.sectorSize ∈ [512, 1024, 2048, 4096]) (hdev : 2 ≤ env.dev.length) :
    ∃ a', pedDiskClobber env.dev a = .ok (true, a') ∧
      (∀ sector : ℤ, 0 ≤ sector →
        readAt a'.medium.store (sectorPos env.dev sector) env.dev.sectorSize
          ≠ readAt a.medium.store (sectorPos env.dev sector) env.dev.sectorSize →
        (sector < 9 * 1024 / env.dev.sectorSize + 2 ∨
          env.dev.length - (9 * 1024 / env.dev.sectorSize + 1) ≤ sector ∧
            sector < env.dev.length) ∧
        (gptProbe env.dev a.medium.store = true → sector ≠ 0)) ∧
      ((∀ label, Rejects env label a') ↔ Clobberable env.dev a.medium.store) := by
  have hbounds : 512 ≤ env.dev.sectorSize ∧ env.dev.sectorSize ≤ 4096 := by
    simp only [List.mem_cons, List.not_mem_nil, or_false] at hsize
    omega
  obtain ⟨h512, h4096⟩ := hbounds
  obtain ⟨a', hrun, hcleared⟩ := exists_pedDiskClobber a h512 h4096 hdev
  refine ⟨a', hrun, fun sector h0 hchanged => ?_, rejects_clobbered_iff h512 h4096 hdev hcleared⟩
  have hclobber : ClobberSector env.dev (clobberFirst env.dev a.medium.store) sector := by
    by_contra hno
    exact hchanged (hcleared.same sector h0 hno)
  have hcount := three_le_clobberCount (by omega) h4096
  have hcases := clobberFirst_cases env.dev a.medium.store
  have hlt : sector < env.dev.length := by
    rcases hclobber with h | h
    · exact h.2.trans_le (min_le_right _ _)
    · exact h.2
  have hspared := (clobberSector_iff h0 hlt).mp hclobber
  refine ⟨?_, fun hgpt h => hspared (Or.inl ⟨hgpt, h⟩)⟩
  by_contra hfar
  refine hspared (Or.inr ⟨?_, ?_⟩)
  · unfold clobberCount at hcount ⊢
    rcases hcases with h | h <;> omega
  · unfold clobberCount at hcount ⊢
    omega

/-- A signature in sector 0 survives next to a GPT. -/
theorem rejects_signature_spared (env : Env) (a : Attached GPTPartitionData GPTDiskData)
    {label : ProbedLabel}
    (h512 : 512 ≤ env.dev.sectorSize) (h4096 : env.dev.sectorSize ≤ 4096)
    (hdev : 2 ≤ env.dev.length) (hgpt : gptProbe env.dev a.medium.store = true)
    (hlabel : HasSignature env.dev
      (readAt a.medium.store (sectorPos env.dev 0) env.dev.sectorSize) label) :
    ∃ a', pedDiskClobber env.dev a = .ok (true, a') ∧ ¬ Rejects env label a' := by
  obtain ⟨a', hrun, hcleared⟩ := exists_pedDiskClobber a h512 h4096 hdev
  have hspared : Spared env.dev a.medium.store 0 := Or.inl ⟨hgpt, rfl⟩
  have hsame := hcleared.same 0 le_rfl fun h =>
    (clobberSector_iff le_rfl (by omega)).mp h hspared
  have hplain : label ≠ .gpt ∧ label ≠ .amiga := by
    constructor
    all_goals
      rintro rfl
      exact hlabel
  refine ⟨a', hrun, fun h => (rejects_iff_hasSignature h512 hdev hplain.1 hplain.2).mp h ?_⟩
  rw [hsame]
  exact hlabel

/-- So does a rigid disk block that is too far from the ends. -/
theorem rejects_rdb_spared (env : Env) (a : Attached GPTPartitionData GPTDiskData) {i : ℕ}
    (h512 : 512 ≤ env.dev.sectorSize) (h4096 : env.dev.sectorSize ≤ 4096)
    (hdev : 2 ≤ env.dev.length) (hi : i < rdbLocationLimit) (hrdb : RdbAt env.dev a.medium.store i)
    (hspared : Spared env.dev a.medium.store i) :
    ∃ a', pedDiskClobber env.dev a = .ok (true, a') ∧ ¬ Rejects env .amiga a' := by
  obtain ⟨a', hrun, hcleared⟩ := exists_pedDiskClobber a h512 h4096 hdev
  exact ⟨a', hrun, fun h => (rejects_amiga_clobbered_iff h512 hcleared).mp h i hi hrdb hspared⟩

end Clobber

/-! ## Samples -/

/-- Some contents, with an empty table in memory. -/
def withContents (store : Store) : Attached GPTPartitionData GPTDiskData :=
  ⟨⟨⟨[], [], 0, true, ⟨.fromTo 34 66, 128, 0, false, 99⟩⟩, []⟩, ⟨store, []⟩⟩

/-- A rigid disk block at the beginning of sector 5. -/
def rdbImage (sectorSize : ℕ) : Store :=
  writeAt (fun _ => 0) (5 * sectorSize) ((Codec.big 4).encode idnameRigiddisk)

/-- A protective MBR and a GPT header, and the signature of a Mac label in sector 0, as on
images that are made to start on many machines. -/
def hybridImage : Store :=
  writeAt (writeAt (writeAt (writeAt (fun _ => 0) 0 ((Codec.big 2).encode macDiskMagic))
    450 [0xEE]) 510 [0x55, 0xAA]) 512 (textBytes "EFI PART")

/-- Sixteen sectors of 4096 bytes. -/
def largeSectors : PedDevice := { hundredSectors with length := 16, sectorSize := 4096 }

theorem sampleImages_read :
    (gptProbe hundredSectors (rdbImage 512) = false ∧ RdbAt hundredSectors (rdbImage 512) 5) ∧
    (gptProbe largeSectors (rdbImage 4096) = false ∧ RdbAt largeSectors (rdbImage 4096) 5) ∧
    gptProbe hundredSectors hybridImage = true ∧
      HasSignature hundredSectors (readAt hybridImage 0 512) .mac := by
  unfold RdbAt
  decide +kernel

/-- With sectors of 512 bytes a rigid disk block is always cleared. -/
theorem pedDiskClobber_rejects_rdbImage :
    RdbAt hundredSectors (rdbImage 512) 5 ∧
      ∃ a', pedDiskClobber hundredSectors (withContents (rdbImage 512)) = .ok (true, a') ∧
        ∀ label, Rejects ⟨hundredSectors, fun _ => .cancel⟩ label a' := by
  obtain ⟨⟨hno, hrdb⟩, -⟩ := sampleImages_read
  have hclobberable : Clobberable hundredSectors (rdbImage 512) := by
    refine ⟨fun h => absurd (hno.symm.trans h) Bool.false_ne_true, fun i hi _ => ?_⟩
    have hcount : clobberCount hundredSectors = 19 := by decide
    rcases clobberFirst_cases hundredSectors (rdbImage 512) with ⟨hgpt, -⟩ | ⟨hgpt, hfirst⟩
    · exact absurd (hno.symm.trans hgpt) Bool.false_ne_true
    · unfold Spared
      rw [hgpt, hfirst, hcount]
      unfold rdbLocationLimit at hi
      rintro (h | h)
      · exact absurd h.1 Bool.false_ne_true
      · omega
  obtain ⟨a', hrun, -, hiff⟩ := pedDiskClobber_rejects_iff ⟨hundredSectors, fun _ => .cancel⟩
    (withContents (rdbImage 512)) (by decide) (by decide)
  exact ⟨hrdb, a', hrun, hiff.mpr hclobberable⟩

/-- **What clobbering leaves behind**: the signature of a Mac label next to a GPT, and a
rigid disk block in sector 5 of a device with sectors of 4096 bytes. -/
theorem pedDiskClobber_leaves_signatures :
    (∃ a', pedDiskClobber hundredSectors (withContents hybridImage) = .ok (true, a') ∧
      ¬ Rejects ⟨hundredSectors, fun _ => .cancel⟩ .mac a') ∧
    ∃ a', pedDiskClobber largeSectors (withContents (rdbImage 4096)) = .ok (true, a') ∧
      ¬ Rejects ⟨largeSectors, fun _ => .cancel⟩ .amiga a' := by
  obtain ⟨-, ⟨hno, hrdb⟩, hgpt, hmac⟩ := sampleImages_read
  have hspared : Spared largeSectors (rdbImage 4096) (5 : ℕ) := by
    unfold Spared clobberFirst
    rw [hno]
    exact Or.inr (by decide)
  exact ⟨rejects_signature_spared ⟨hundredSectors, fun _ => .cancel⟩ (withContents hybridImage)
      (by decide) (by decide) (by decide) hgpt hmac,
    rejects_rdb_spared ⟨largeSectors, fun _ => .cancel⟩ (withContents (rdbImage 4096))
      (by decide) (by decide) (by decide) (by decide) hrdb hspared⟩

end Libparted
