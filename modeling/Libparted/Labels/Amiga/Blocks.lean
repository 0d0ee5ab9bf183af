import Libparted.Disk.Attached

/-!
# Blocks of an Amiga label (`libparted/labels/rdb.c`)

An Amiga label is made of blocks of one sector each.  A block is an array of big-endian
words: the first tells what it is, the second how many words the checksum covers, and
the third makes the sum of these words zero.  The block everything starts from, the
`RigidDiskBlock`, is looked for in the first sixteen sectors.

The checksum follows the word count of the block itself, up to 512 words, and a buffer
is a sector: a block of 512 bytes that claims more than 128 words is read past its end.
-/

namespace Libparted

open Library

variable {π δ : Type}

/-! ## Words -/

/-- The `i`-th word of a block. -/
def word (blk : List Byte) (i : ℕ) : BitVec 32 := (Codec.big 4).decode (blk.drop (4 * i))

/-- The block with another `i`-th word. -/
def setWord (blk : List Byte) (i : ℕ) (x : BitVec 32) : List Byte :=
  blk.take (4 * i) ++ (Codec.big 4).encode x ++ blk.drop (4 * (i + 1))

/-- `IDNAME_RIGIDDISK`. -/
def idnameRigiddisk : BitVec 32 := 0x5244534B

/-- `IDNAME_BADBLOCK`. -/
def idnameBadblock : BitVec 32 := 0x42414442

/-- `IDNAME_PARTITION`. -/
def idnamePartition : BitVec 32 := 0x50415254

/-- `IDNAME_FILESYSHEADER`. -/
def idnameFilesysheader : BitVec 32 := 0x46534844

/-- `IDNAME_LOADSEG`. -/
def idnameLoadseg : BitVec 32 := 0x4C534547

/-- `IDNAME_BOOT`. -/
def idnameBoot : BitVec 32 := 0x424f4f54

/-- `IDNAME_FREE`. -/
def idnameFree : BitVec 32 := 0xffffffff

/-- `_amiga_block_id`. -/
def amigaBlockId (id : BitVec 32) : String :=
  if id = idnameRigiddisk then "RDSK"
  else if id = idnameBadblock then "BADB"
  else if id = idnamePartition then "PART"
  else if id = idnameFilesysheader then "FSHD"
  else if id = idnameLoadseg then "LSEG"
  else if id = idnameBoot then "BOOT"
  else if id = idnameFree then "<free>"
  else "<unknown>"

/-! ## Checksums -/

/-- The words a checksum covers, as an `int`. -/
def checksumEnd (blk : List Byte) : ℤ :=
  if (word blk 1).toInt > 512 then 512 else (word blk 1).toInt

/-- `_amiga_checksum`.  Words behind the block are not there to be summed. -/
def amigaChecksum (blk : List Byte) : Except Fault (BitVec 32) :=
  if 4 * checksumEnd blk ≤ blk.length then
    .ok ((List.range' 1 ((checksumEnd blk).toNat - 1)).foldl (fun sum i => sum + word blk i)
      (word blk 0))
  else .error (.undefined "rdb[i]")

/-- `_amiga_calculate_checksum`. -/
def amigaCalculateChecksum (blk : List Byte) : Except Fault (List Byte) := do
  return setWord blk 2 (word blk 2 - (← amigaChecksum blk))

/-! ## Reading a block -/

/-- What `_amiga_read_block` asks about a block whose checksum is wrong. -/
def badChecksum (block : ℤ) (blk : List Byte) : String :=
  "_amiga_read_block : Bad checksum on block " ++ toString block ++ " of type "
    ++ amigaBlockId (word blk 0) ++ "."

/-- `_amiga_read_block`.  Without a list of ids every block is taken. -/
def amigaReadBlock (env : Env) (block : ℤ) (ids : Option (List (BitVec 32))) :
    DeviceM π δ (Option (List Byte)) := do
  match pedDeviceRead env.dev (← getStore) block 1 with
  | none => return none
  | some blk =>
      if ids.any fun ids => !ids.contains (word blk 0) then
        return none
      if (← liftM (amigaChecksum blk)) = 0 then
        return some blk
      match ← inMemory (ask (pedExceptionThrow env .error [.fix, .ignore, .cancel]
          (badChecksum block blk))) with
      | .cancel => return none
      | .fix => do
          let fixed ← liftM (amigaCalculateChecksum blk)
          if !(← deviceWrite env.dev fixed block 1) then
            return none
          return some fixed
      | _ => return some blk

/-! ## The rigid disk block -/

/-- `RDB_LOCATION_LIMIT`. -/
def rdbLocationLimit : ℕ := 16

/-- The loop of `_amiga_find_rdb`, with `k` turns to go and `i` behind it. -/
def findRdbFrom (env : Env) : ℕ → ℕ → DeviceM π δ (Option (ℕ × List Byte))
  | 0, _ => return none
  | k + 1, i => do
      match ← amigaReadBlock env i (some [idnameRigiddisk]) with
      | none => findRdbFrom env k (i + 1)
      | some rdb =>
          if word rdb 0 = idnameRigiddisk then
            return some (i, rdb)
          findRdbFrom env k (i + 1)

/-- `_amiga_find_rdb`: the number of the block and the block, unless it is
`AMIGA_RDB_NOT_FOUND`. -/
def amigaFindRdb (env : Env) : DeviceM π δ (Option (ℕ × List Byte)) :=
  findRdbFrom env rdbLocationLimit 0

/-- `amiga_probe`. -/
def amigaProbe (env : Env) : DeviceM π δ Bool := do
  return (← amigaFindRdb env).isSome

/-- A sector that begins like a rigid disk block. -/
def RdbAt (dev : PedDevice) (store : Store) (i : ℤ) : Prop :=
  i < dev.length ∧ word (readAt store (sectorPos dev i) dev.sectorSize) 0 = idnameRigiddisk

section Find

variable {env : Env} {a : Attached π δ}

/-- A sector that is not a rigid disk block is passed over. -/
theorem amigaReadBlock_pass {i : ℕ} (h : ¬ RdbAt env.dev a.medium.store i) :
    amigaReadBlock env i (some [idnameRigiddisk]) a = .ok (none, a) := by
  unfold amigaReadBlock
  rw [run_bind_ok (show getStore a = .ok (a.medium.store, a) from rfl)]
  by_cases hlt : (i : ℤ) < env.dev.length
  · have hread : pedDeviceRead env.dev a.medium.store i 1
        = some (readAt a.medium.store (sectorPos env.dev i) env.dev.sectorSize) :=
      pttReadSector_eq (by omega) hlt
    have hid : word (readAt a.medium.store (sectorPos env.dev i) env.dev.sectorSize) 0
        ≠ idnameRigiddisk := fun hid => h ⟨hlt, hid⟩
    rw [hread]
    simp [hid]
    rfl
  · have hread : pedDeviceRead env.dev a.medium.store i 1 = none := by
      unfold pedDeviceRead
      rw [if_neg fun hon => hlt (by have := hon.2.2; omega)]
    rw [hread]
    rfl

/-- With nobody to ask, a rigid disk block is taken, whatever its checksum is; if it is not
read past its end. -/
theorem amigaReadBlock_take {i : ℕ} (hanswers : ∀ n, env.answers n = .unhandled)
    (h : RdbAt env.dev a.medium.store i) :
    Spec (fun _ => True) (amigaReadBlock env i (some [idnameRigiddisk])) a fun blk _ =>
      ∃ rdb, blk = some rdb ∧ word rdb 0 = idnameRigiddisk := by
  obtain ⟨hlt, hid⟩ := h
  have hread : pedDeviceRead env.dev a.medium.store i 1
      = some (readAt a.medium.store (sectorPos env.dev i) env.dev.sectorSize) :=
    pttReadSector_eq (by omega) hlt
  unfold amigaReadBlock
  refine Spec.bind (spec_getStore.mpr ?_)
  rw [hread]
  simp only [Option.any_some, List.contains_cons, hid]
  refine Spec.bind (spec_lift.mpr ⟨fun sum _ => ?_, fun _ _ => trivial⟩)
  refine Spec.ite (fun _ => ⟨_, rfl, hid⟩) fun _ => ?_
  refine Spec.bind (spec_inMemory.mpr (spec_ask.mpr ?_))
  refine (spec_of_ok (congrArg (fun answer => Except.ok (answer, _)) (hanswers _))).mpr ?_
  exact ⟨_, rfl, hid⟩

/-- The search passes over everything before the first rigid disk block. -/
theorem findRdbFrom_none {k i : ℕ} (h : ∀ j : ℕ, i ≤ j → j < i + k →
    ¬ RdbAt env.dev a.medium.store j) : findRdbFrom env k i a = .ok (none, a) := by
  induction k generalizing i with
  | zero => rfl
  | succ k ih =>
      unfold findRdbFrom
      rw [run_bind_ok (amigaReadBlock_pass (h i le_rfl (by omega)))]
      exact ih fun j hj hlt => h j (by omega) (by omega)

theorem findRdbFrom_some (hanswers : ∀ n, env.answers n = .unhandled) {k i j : ℕ} (hj : i ≤ j)
    (hlt : j < i + k) (h : RdbAt env.dev a.medium.store j) :
    Spec (fun _ => True) (findRdbFrom env k i) a fun found _ => found.isSome = true := by
  induction k generalizing i with
  | zero => omega
  | succ k ih =>
      unfold findRdbFrom
      by_cases hi : RdbAt env.dev a.medium.store i
      · refine (amigaReadBlock_take hanswers hi).seq fun blk a' ⟨rdb, hblk, hid⟩ => ?_
        subst hblk
        dsimp only
        rw [if_pos hid]
        rfl
      · refine Spec.bind ((spec_of_ok (amigaReadBlock_pass hi)).mpr ?_)
        have hne : i ≠ j := by
          rintro rfl
          exact hi h
        exact ih (by omega) (by omega)

/-- **The Amiga probe**, with nobody to ask, rejects a device exactly if none of its first
sixteen sectors begins like a rigid disk block. -/
theorem amigaProbe_rejects_iff (hanswers : ∀ n, env.answers n = .unhandled) :
    (∃ a', amigaProbe env a = .ok (false, a')) ↔
      ∀ i : ℕ, i < rdbLocationLimit → ¬ RdbAt env.dev a.medium.store i := by
  constructor
  · rintro ⟨a', hrun⟩ i hi hrdb
    have hsome : Spec (fun _ => True) (amigaProbe env) a fun ok _ => ok = true :=
      Spec.bind ((findRdbFrom_some hanswers (Nat.zero_le i) (by omega) hrdb).imp
        fun _ _ h => h)
    exact Bool.false_ne_true (hsome.of_ok hrun)
  · intro h
    refine ⟨a, ?_⟩
    have hnone : amigaFindRdb env a = .ok (none, a) :=
      findRdbFrom_none fun j _ hlt => h j (by omega)
    exact run_bind_ok hnone

end Find

end Libparted
