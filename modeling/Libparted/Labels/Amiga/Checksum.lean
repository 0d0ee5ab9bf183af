import Libparted.Labels.Amiga.Blocks

/-!
# Checksums of an Amiga label (`libparted/labels/rdb.c`)

`_amiga_checksum` adds as many words as the block says it has, up to 512.  A block of 512 bytes has
128 of them.  The probe sums what it finds in the first sixteen sectors if it begins like a rigid
disk block, so a device decides how far behind the buffer words are read.  The probe goes on
behind a block only if its checksum is wrong and the user says so.

**The probe is safe**, whatever the user says, if the blocks it may get to have no more than 128
words; and the checksum of a block with three words or more is right after it has been calculated,
so that a block is not asked about again once it has been fixed (`amigaProbe_safe_iff`).
-/

namespace Libparted

open Library

variable {π δ : Type}

/-- The contents of a block. -/
def blockAt (dev : PedDevice) (store : Store) (b : ℕ) : List Byte :=
  readAt store (sectorPos dev b) dev.sectorSize

/-! ## Words -/

section Words

variable {blk blk' : List Byte} {i j : ℕ} {x : BitVec 32}

theorem word_congr (h : ∀ k, 4 * i ≤ k → k < 4 * i + 4 → blk'[k]? = blk[k]?) :
    word blk' i = word blk i := by
  have hbytes : (blk'.drop (4 * i)).take 4 = (blk.drop (4 * i)).take 4 := by
    apply List.ext_getElem?
    intro k
    by_cases hk : k < 4
    · rw [List.getElem?_take_of_lt hk, List.getElem?_take_of_lt hk, List.getElem?_drop,
        List.getElem?_drop]
      exact h (4 * i + k) (by omega) (by omega)
    · rw [List.getElem?_take_eq_none (by omega), List.getElem?_take_eq_none (by omega)]
  unfold word Codec.big
  dsimp only
  rw [hbytes]

theorem length_setWord (h : 4 * (i + 1) ≤ blk.length) : (setWord blk i x).length = blk.length := by
  have hsize : ((Codec.big 4).encode x).length = 4 := (Codec.big 4).length_encode x
  rw [setWord, List.length_append, List.length_append, List.length_take, List.length_drop, hsize]
  omega

theorem word_setWord_self (h : 4 * i ≤ blk.length) : word (setWord blk i x) i = x := by
  rw [word, setWord, List.append_assoc, List.drop_left' (by rw [List.length_take]; omega)]
  exact (Codec.big 4).decode_encode x _

theorem word_setWord_of_ne (h : 4 * (i + 1) ≤ blk.length) (hj : j ≠ i) :
    word (setWord blk i x) j = word blk j := by
  have hsize : ((Codec.big 4).encode x).length = 4 := (Codec.big 4).length_encode x
  refine word_congr fun k hk hk' => ?_
  unfold setWord
  by_cases hlow : k < 4 * i
  · rw [List.append_assoc, List.getElem?_append_left (by rw [List.length_take]; omega),
      List.getElem?_take_of_lt hlow]
  · rw [List.getElem?_append_right
      (by rw [List.length_append, List.length_take, hsize]; omega),
      List.length_append, List.length_take, hsize, List.getElem?_drop]
    congr 1
    omega

end Words

/-! ## Sums -/

section Sums

variable {blk : List Byte}

/-- The words of a block from `i` on, added to `init`. -/
theorem foldl_word_add (f : ℕ → BitVec 32) (init : BitVec 32) (l : List ℕ) :
    l.foldl (fun sum i => sum + f i) init = init + l.foldl (fun sum i => sum + f i) 0 := by
  induction l generalizing init with
  | nil => simp
  | cons i l ih =>
    rw [List.foldl_cons, List.foldl_cons, ih, ih (0 + f i)]
    ring

/-- The third word, and the others. -/
theorem amigaChecksum_split (hlow : 3 ≤ (word blk 1).toInt) (hhigh : (word blk 1).toInt ≤ 128)
    (hlength : blk.length = 512) :
    amigaChecksum blk = .ok (word blk 2 + (word blk 0 + word blk 1
      + (List.range' 3 ((word blk 1).toInt.toNat - 3)).foldl (fun s i => s + word blk i) 0)) := by
  have hend : checksumEnd blk = (word blk 1).toInt := if_neg (by omega)
  rw [amigaChecksum, if_pos (by rw [hend, hlength]; omega), hend]
  obtain ⟨n, hn⟩ : ∃ n, (word blk 1).toInt.toNat = n + 3 := ⟨(word blk 1).toInt.toNat - 3, by omega⟩
  rw [hn, Nat.add_sub_cancel, show n + 3 - 1 = n + 1 + 1 by omega, List.range'_succ,
    List.range'_succ, List.foldl_cons, List.foldl_cons, foldl_word_add]
  congr 1
  ring

/-- **The checksum is right** after it has been calculated. -/
theorem amigaCalculateChecksum_right (hlow : 3 ≤ (word blk 1).toInt)
    (hhigh : (word blk 1).toInt ≤ 128) (hlength : blk.length = 512) :
    ∃ fixed, amigaCalculateChecksum blk = .ok fixed ∧ fixed.length = 512 ∧
      (∀ i, i ≠ 2 → word fixed i = word blk i) ∧ amigaChecksum fixed = .ok 0 := by
  have hsum := amigaChecksum_split hlow hhigh hlength
  set rest := word blk 0 + word blk 1
    + (List.range' 3 ((word blk 1).toInt.toNat - 3)).foldl (fun sum i => sum + word blk i) 0
    with hrest
  refine ⟨setWord blk 2 (word blk 2 - (word blk 2 + rest)), ?_, ?_, ?_, ?_⟩
  · rw [amigaCalculateChecksum, hsum]
    rfl
  · rw [length_setWord (by omega), hlength]
  · exact fun i hi => word_setWord_of_ne (by omega) hi
  · have hother : ∀ i, i ≠ 2 → word (setWord blk 2 (word blk 2 - (word blk 2 + rest))) i
        = word blk i := fun i hi => word_setWord_of_ne (by omega) hi
    have hfold : ∀ n, (List.range' 3 n).foldl
        (fun sum i => sum + word (setWord blk 2 (word blk 2 - (word blk 2 + rest))) i) 0
          = (List.range' 3 n).foldl (fun sum i => sum + word blk i) 0 := by
      intro n
      refine List.foldl_ext _ _ _ fun sum i hi => ?_
      have := (List.mem_range'_1.mp hi).1
      rw [hother i (by omega)]
    rw [amigaChecksum_split (by rw [hother 1 (by decide)]; exact hlow)
      (by rw [hother 1 (by decide)]; exact hhigh) (by rw [length_setWord (by omega), hlength]),
      hother 0 (by decide), hother 1 (by decide), hfold, ← hrest, word_setWord_self (by omega)]
    congr 1
    ring

end Sums

/-! ## Reading blocks -/

section Read

variable {env : Env} {a : Attached π δ} {b : ℕ} {ids : Option (List (BitVec 32))}

/-- The list has the type of the block. -/
def Listed (ids : Option (List (BitVec 32))) (blk : List Byte) : Prop :=
  ∀ l, ids = some l → word blk 0 ∈ l

theorem any_eq_false_of_listed {blk : List Byte} (h : Listed ids blk) :
    (ids.any fun ids => !ids.contains (word blk 0)) = false := by
  cases ids with
  | none => rfl
  | some l => simpa using h l rfl

theorem amigaReadBlock_of_right (hb : (b : ℤ) < env.dev.length)
    (hid : Listed ids (blockAt env.dev a.medium.store b))
    (hsum : amigaChecksum (blockAt env.dev a.medium.store b) = .ok 0) :
    amigaReadBlock env b ids a = .ok (some (blockAt env.dev a.medium.store b), a) := by
  have hread : pedDeviceRead env.dev a.medium.store b 1
      = some (blockAt env.dev a.medium.store b) := pttReadSector_eq (by omega) hb
  unfold amigaReadBlock
  refine (run_bind_ok (show getStore a = .ok (a.medium.store, a) from rfl)).trans ?_
  rw [hread]
  dsimp only
  rw [any_eq_false_of_listed hid, hsum]
  rfl

theorem amigaReadBlock_of_wrong (hb : (b : ℤ) < env.dev.length)
    (hid : Listed ids (blockAt env.dev a.medium.store b)) {sum : BitVec 32}
    (hsum : amigaChecksum (blockAt env.dev a.medium.store b) = .ok sum) (hne : sum ≠ 0) :
    ∃ a', a'.medium = a.medium ∧ amigaReadBlock env b ids a
      = (match env.answers a.session.thrown.length with
        | .cancel => return none
        | .fix => do
          let fixed ← liftM (amigaCalculateChecksum (blockAt env.dev a.medium.store b))
          if !(← deviceWrite env.dev fixed b 1) then
            return none
          return some fixed
        | _ => return some (blockAt env.dev a.medium.store b) :
          DeviceM π δ (Option (List Byte))) a' := by
  have hread : pedDeviceRead env.dev a.medium.store b 1
      = some (blockAt env.dev a.medium.store b) := pttReadSector_eq (by omega) hb
  refine ⟨{ a with session := { a.session with thrown := a.session.thrown ++
    [⟨.error, [.fix, .ignore, .cancel], badChecksum b (blockAt env.dev a.medium.store b)⟩] } }, rfl,
    ?_⟩
  unfold amigaReadBlock
  refine (run_bind_ok (show getStore a = .ok (a.medium.store, a) from rfl)).trans ?_
  rw [hread]
  dsimp only
  rw [any_eq_false_of_listed hid, hsum]
  refine (run_bind_ok (show (liftM (.ok sum : Except Fault (BitVec 32)) : DeviceM π δ _) a
    = .ok (sum, a) from rfl)).trans ?_
  rw [if_neg hne]
  rfl

/-- **A block that has been fixed** is not asked about again. -/
theorem amigaReadBlock_fixed (hsize : env.dev.sectorSize = 512) (hb : (b : ℤ) < env.dev.length)
    (hid : Listed ids (blockAt env.dev a.medium.store b))
    (hlow : 3 ≤ (word (blockAt env.dev a.medium.store b) 1).toInt)
    (hhigh : (word (blockAt env.dev a.medium.store b) 1).toInt ≤ 128)
    (hwrong : amigaChecksum (blockAt env.dev a.medium.store b) ≠ .ok 0)
    (hanswer : env.answers a.session.thrown.length = .fix) :
    ∃ fixed a', amigaReadBlock env b ids a = .ok (some fixed, a') ∧
      amigaReadBlock env b ids a' = .ok (some fixed, a') := by
  have hlength : (blockAt env.dev a.medium.store b).length = 512 := by
    rw [blockAt, length_readAt, hsize]
  obtain ⟨fixed, hfixed, hlength', hother, hright⟩ :=
    amigaCalculateChecksum_right hlow hhigh hlength
  have hsum := amigaChecksum_split hlow hhigh hlength
  obtain ⟨a₁, hmedium, hrun⟩ := amigaReadBlock_of_wrong hb hid hsum
    fun hzero => hwrong (by rw [hsum, hzero])
  have hon : OnDevice env.dev b 1 := ⟨by omega, by omega, by omega⟩
  have hblock : blockAt env.dev (a₁.medium.write env.dev fixed b 1).store b = fixed := by
    have htake : fixed.take ((1 : ℤ).toNat * env.dev.sectorSize) = fixed :=
      List.take_of_length_le (by rw [hlength', hsize]; decide)
    rw [blockAt, Medium.write]
    dsimp only
    rw [htake, readAt_writeAt_same (by rw [hlength', hsize])]
  refine ⟨fixed, { a₁ with medium := a₁.medium.write env.dev fixed b 1 }, ?_, ?_⟩
  · rw [hrun, hanswer]
    dsimp only
    refine (run_bind_ok (show (liftM (amigaCalculateChecksum (blockAt env.dev a.medium.store b)) :
      DeviceM π δ _) a₁ = .ok (fixed, a₁) by rw [hfixed]; rfl)).trans ?_
    exact run_bind_ok (deviceWrite_eq hon)
  · have hagain : Listed ids _ → _ → amigaReadBlock env b ids
        { a₁ with medium := a₁.medium.write env.dev fixed b 1 } = _ := amigaReadBlock_of_right hb
    dsimp only at hagain
    rw [hblock] at hagain
    refine hagain (fun l hl => ?_) hright
    rw [hother 0 (by decide)]
    exact hid l hl

/-- The sum is there if the words are. -/
theorem exists_amigaChecksum {blk : List Byte} (hlength : blk.length = 512)
    (h : (word blk 1).toInt ≤ 128) : ∃ sum, amigaChecksum blk = .ok sum := by
  have hend : checksumEnd blk = (word blk 1).toInt := if_neg (by omega)
  exact ⟨_, if_pos (by rw [hend, hlength]; omega)⟩

theorem amigaChecksum_error {blk : List Byte} (hlength : blk.length = 512)
    (h : 128 < (word blk 1).toInt) : amigaChecksum blk = .error (.undefined "rdb[i]") := by
  have hend : 128 < checksumEnd blk := by
    unfold checksumEnd
    split_ifs <;> omega
  exact if_neg (by rw [hlength]; omega)

theorem listed_of_rdbAt {store : Store} (h : RdbAt env.dev store b) :
    Listed (some [idnameRigiddisk]) (blockAt env.dev store b) := by
  rintro l hl
  obtain rfl := Option.some.inj hl
  exact List.mem_singleton.mpr h.2

end Read

/-! ## The probe -/

/-- The probe may get to block `i` if it begins like a rigid disk block, and there is no such block
with the right checksum in front of it. -/
def MayRead (dev : PedDevice) (store : Store) (i : ℕ) : Prop :=
  RdbAt dev store i ∧ ∀ j < i, RdbAt dev store j → amigaChecksum (blockAt dev store j) ≠ .ok 0

section Probe

variable {env : Env} {a : Attached π δ} {store : Store}

/-- One block of the search, if the sum is there: it is the end, or it goes on with the next one and
the same device. -/
theorem amigaReadBlock_rdb (hsize : env.dev.sectorSize = 512) {i : ℕ}
    (hrdb : RdbAt env.dev a.medium.store i) {sum : BitVec 32}
    (hsum : amigaChecksum (blockAt env.dev a.medium.store i) = .ok sum) :
    (∃ rdb a', amigaReadBlock env i (some [idnameRigiddisk]) a = .ok (some rdb, a') ∧
      word rdb 0 = idnameRigiddisk) ∨
    (sum ≠ 0 ∧ ∃ a', amigaReadBlock env i (some [idnameRigiddisk]) a = .ok (none, a') ∧
      a'.medium = a.medium) := by
  have hid := listed_of_rdbAt hrdb
  have hword : word (blockAt env.dev a.medium.store i) 0 = idnameRigiddisk := hrdb.2
  by_cases hzero : sum = 0
  · exact .inl ⟨_, a, amigaReadBlock_of_right hrdb.1 hid (hzero ▸ hsum), hword⟩
  · obtain ⟨a', hmedium, hrun⟩ := amigaReadBlock_of_wrong hrdb.1 hid hsum hzero
    cases hanswer : env.answers a.session.thrown.length with
    | cancel => exact .inr ⟨hzero, a', by rw [hrun, hanswer]; rfl, hmedium⟩
    | fix =>
        have hon : OnDevice env.dev i 1 := ⟨by omega, by omega, by have := hrdb.1; omega⟩
        obtain ⟨fixed, hfixed, hword'⟩ : ∃ fixed,
            amigaCalculateChecksum (blockAt env.dev a.medium.store i) = .ok fixed ∧
              word fixed 0 = idnameRigiddisk := by
          refine ⟨setWord (blockAt env.dev a.medium.store i) 2
            (word (blockAt env.dev a.medium.store i) 2 - sum), ?_, ?_⟩
          · rw [amigaCalculateChecksum, hsum]
            rfl
          · rw [word_setWord_of_ne (by rw [blockAt, length_readAt, hsize]; decide) (by decide),
              hword]
        refine .inl ⟨fixed, { a' with medium := a'.medium.write env.dev fixed i 1 }, ?_, hword'⟩
        · rw [hrun, hanswer]
          dsimp only
          refine (run_bind_ok (show (liftM (amigaCalculateChecksum
            (blockAt env.dev a.medium.store i)) : DeviceM π δ _) a' = .ok (_, a') by
              rw [hfixed]; rfl)).trans ?_
          exact run_bind_ok (deviceWrite_eq hon)
    | _ => exact .inl ⟨_, a', by rw [hrun, hanswer]; rfl, hword⟩

/-- A block that claims more words than it has is summed up beyond its end. -/
theorem amigaReadBlock_error {i : ℕ} (hrdb : RdbAt env.dev a.medium.store i) {e : Fault}
    (hsum : amigaChecksum (blockAt env.dev a.medium.store i) = .error e) :
    amigaReadBlock env i (some [idnameRigiddisk]) a = .error e := by
  have hread : pedDeviceRead env.dev a.medium.store i 1
      = some (blockAt env.dev a.medium.store i) := pttReadSector_eq (by omega) hrdb.1
  unfold amigaReadBlock
  refine (run_bind_ok (show getStore a = .ok (a.medium.store, a) from rfl)).trans ?_
  rw [hread]
  dsimp only
  rw [any_eq_false_of_listed (listed_of_rdbAt hrdb), hsum]
  rfl

/-- The search stays within the blocks if those that it may get to claim no more words than they
have. -/
theorem findRdbFrom_safe (hsize : env.dev.sectorSize = 512) {k i : ℕ}
    (hstore : a.medium.store = store)
    (hpast : ∀ j < i, RdbAt env.dev store j → amigaChecksum (blockAt env.dev store j) ≠ .ok 0)
    (h : ∀ j, i ≤ j → j < i + k → MayRead env.dev store j →
      (word (blockAt env.dev store j) 1).toInt ≤ 128) :
    ∃ r, findRdbFrom env k i a = .ok r := by
  induction k generalizing i a with
  | zero => exact ⟨_, rfl⟩
  | succ k ih =>
      subst hstore
      have hrest : ∀ a' : Attached π δ, a'.medium.store = a.medium.store →
          (RdbAt env.dev a.medium.store i →
            amigaChecksum (blockAt env.dev a.medium.store i) ≠ .ok 0) →
          ∃ r, findRdbFrom env k (i + 1) a' = .ok r := by
        intro a' hstore hi
        refine ih hstore (fun j hj => ?_) fun j hj hlt => h j (by omega) (by omega)
        obtain hlt | rfl : j < i ∨ j = i := by omega
        · exact hpast j hlt
        · exact hi
      unfold findRdbFrom
      by_cases hrdb : RdbAt env.dev a.medium.store i
      · have hhigh := h i le_rfl (by omega) ⟨hrdb, hpast⟩
        obtain ⟨sum, hsum⟩ := exists_amigaChecksum (by rw [blockAt, length_readAt, hsize]) hhigh
        obtain ⟨rdb, a', hread, hword⟩ | ⟨hne, a', hread, hmedium⟩ :=
          amigaReadBlock_rdb hsize hrdb hsum
        · refine ⟨(some (i, rdb), a'), (run_bind_ok hread).trans ?_⟩
          dsimp only
          rw [if_pos hword]
          rfl
        · obtain ⟨r, hr⟩ := hrest a' (by rw [hmedium]) fun _ hright =>
            hne (Except.ok.inj (hsum.symm.trans hright))
          exact ⟨r, (run_bind_ok hread).trans hr⟩
      · obtain ⟨r, hr⟩ := hrest a rfl fun hi => absurd hi hrdb
        exact ⟨r, (run_bind_ok (amigaReadBlock_pass hrdb)).trans hr⟩

/-- Somebody who cancels every time makes the search get to every block that it may get to. -/
theorem findRdbFrom_unsafe (hsize : env.dev.sectorSize = 512)
    (hanswers : ∀ n, env.answers n = .cancel) {k i j : ℕ} (hj : i ≤ j) (hlt : j < i + k)
    (hstore : a.medium.store = store) (hread : MayRead env.dev store j)
    (hbad : 128 < (word (blockAt env.dev store j) 1).toInt) :
    ∃ e, findRdbFrom env k i a = .error e := by
  induction k generalizing i a with
  | zero => omega
  | succ k ih =>
      subst hstore
      unfold findRdbFrom
      obtain hi | rfl : i < j ∨ i = j := by omega
      · by_cases hrdb : RdbAt env.dev a.medium.store i
        · have hne := hread.2 i hi hrdb
          cases hsum : amigaChecksum (blockAt env.dev a.medium.store i) with
          | error e => exact ⟨e, run_bind_error (amigaReadBlock_error hrdb hsum)⟩
          | ok sum =>
              obtain ⟨a', hmedium, hrun⟩ := amigaReadBlock_of_wrong hrdb.1 (listed_of_rdbAt hrdb)
                hsum fun hzero => hne (hzero ▸ hsum)
              rw [hanswers] at hrun
              obtain ⟨e, he⟩ := @ih a' (i + 1) (by omega) (by omega) (by rw [hmedium])
              exact ⟨e, (run_bind_ok hrun).trans he⟩
        · obtain ⟨e, he⟩ := @ih a (i + 1) (by omega) (by omega) rfl
          exact ⟨e, (run_bind_ok (amigaReadBlock_pass hrdb)).trans he⟩
      · exact ⟨_, run_bind_error (amigaReadBlock_error hread.1
          (amigaChecksum_error (by rw [blockAt, length_readAt, hsize]) hbad))⟩

end Probe

/-- **Checksums of Amiga blocks.**  Whatever the user says, probing a device with sectors of 512
bytes stays within the buffer of a sector exactly if the rigid disk blocks that the probe may get to
claim no more than the 128 words that they have.  A checksum that has been calculated is right, the
other words are what they were, and a block that has been fixed is taken without a question. -/
theorem amigaProbe_safe_iff {dev : PedDevice} (hsize : dev.sectorSize = 512) :
    (∀ a : Attached π δ, (∀ answers, ∃ r, amigaProbe ⟨dev, answers⟩ a = .ok r) ↔
      ∀ i < rdbLocationLimit, MayRead dev a.medium.store i →
        (word (blockAt dev a.medium.store i) 1).toInt ≤ 128) ∧
    (∀ blk : List Byte, blk.length = 512 → 3 ≤ (word blk 1).toInt → (word blk 1).toInt ≤ 128 →
      ∃ fixed, amigaCalculateChecksum blk = .ok fixed ∧ fixed.length = 512 ∧
        (∀ i, i ≠ 2 → word fixed i = word blk i) ∧ amigaChecksum fixed = .ok 0) ∧
    ∀ (a : Attached π δ) (answers : ℕ → PedExceptionOption) (b : ℕ)
      (ids : Option (List (BitVec 32))), (b : ℤ) < dev.length →
      Listed ids (blockAt dev a.medium.store b) →
      3 ≤ (word (blockAt dev a.medium.store b) 1).toInt →
      (word (blockAt dev a.medium.store b) 1).toInt ≤ 128 →
      amigaChecksum (blockAt dev a.medium.store b) ≠ .ok 0 →
      answers a.session.thrown.length = .fix →
      ∃ fixed a', amigaReadBlock ⟨dev, answers⟩ b ids a = .ok (some fixed, a') ∧
        amigaReadBlock ⟨dev, answers⟩ b ids a' = .ok (some fixed, a') := by
  refine ⟨fun a => ⟨fun hsafe i hi hread => ?_, fun h answers => ?_⟩, fun blk hlength hlow hhigh =>
    amigaCalculateChecksum_right hlow hhigh hlength, fun a answers b ids hb hid hlow hhigh hwrong
    hanswer => amigaReadBlock_fixed hsize hb hid hlow hhigh hwrong hanswer⟩
  · by_contra hbad
    obtain ⟨r, hr⟩ := hsafe fun _ => .cancel
    obtain ⟨e, he⟩ : ∃ e, findRdbFrom ⟨dev, fun _ => .cancel⟩ rdbLocationLimit 0 a = .error e :=
      findRdbFrom_unsafe hsize (fun _ => rfl) (Nat.zero_le i) (by omega) rfl hread
        (lt_of_not_ge hbad)
    exact nomatch (run_bind_error he).symm.trans hr
  · obtain ⟨⟨found, a'⟩, hfound⟩ : ∃ r, findRdbFrom ⟨dev, answers⟩ rdbLocationLimit 0 a = .ok r :=
      findRdbFrom_safe hsize rfl (fun j hj => absurd hj (Nat.not_lt_zero j))
        fun j _ hlt => h j (by omega)
    exact ⟨_, run_bind_ok hfound⟩

/-- Sixteen sectors. -/
def sixteenSectors : PedDevice := ⟨"/dev/sdr", 16, 512, ⟨1, 1, 16, Int.one_pos, by decide⟩⟩

/-- The first sector begins like a rigid disk block with so many words. -/
def rdskImage (high low : Byte) : Attached Unit Unit :=
  ⟨⟨⟨[], [], 0, false, ()⟩, []⟩, ⟨fun k => [0x52, 0x44, 0x53, 0x4B, 0, 0, high, low].getD k 0, []⟩⟩

/-- A block with 64 words and a wrong checksum is probed, and fixed. -/
theorem amigaProbe_safe_sixty_four :
    (∀ answers, ∃ r, amigaProbe ⟨sixteenSectors, answers⟩ (rdskImage 0 64) = .ok r) ∧
    ∃ fixed a', amigaReadBlock ⟨sixteenSectors, fun _ => .fix⟩ (0 : ℕ) none (rdskImage 0 64)
        = .ok (some fixed, a') ∧
      amigaReadBlock ⟨sixteenSectors, fun _ => .fix⟩ (0 : ℕ) none a' = .ok (some fixed, a') := by
  have hwords : ∀ i < 16, (word (blockAt sixteenSectors (rdskImage 0 64).medium.store i) 1).toInt
      ≤ 128 := by decide +kernel
  obtain ⟨hsafe, -, hfix⟩ := @amigaProbe_safe_iff Unit Unit sixteenSectors rfl
  exact ⟨(hsafe (rdskImage 0 64)).mpr fun i hi _ => hwords i hi,
    hfix (rdskImage 0 64) (fun _ => .fix) 0 none (by decide) nofun (by decide +kernel)
      (by decide +kernel) (by decide +kernel) rfl⟩

/-- **Words are read behind the buffer** if the first sector claims 512 words. -/
theorem amigaProbe_beyond_sector :
    faultOf (amigaProbe ⟨sixteenSectors, fun _ => .unhandled⟩ (rdskImage 2 0))
      = some (.undefined "rdb[i]") := by
  decide +kernel

end Libparted
