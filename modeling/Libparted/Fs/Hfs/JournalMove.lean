import Libparted.Fs.Hfs.Journal

/-!
# Moving the journal (`hfsj_update_jl`)

When the blocks of a volume are moved, the journal info block is told where the journal has
gone.  The info block and the volume header are big-endian, whatever the byte order of the journal
itself.  `hfsj_update_jl` takes the byte order of the journal for both, from the variable `is_le`
which `hfsj_replay_journal` has set.

`findJournal` is the first half of `openJournal`, up to the place where the header is looked
for (`openJournal_eq`).

**The journal stays where it can be found** (`hfsjUpdateJl_moves_iff`) exactly if it is
big-endian, and ready to be looked for at all.  The info block of a little-endian journal is
looked for in the wrong sector, which is overwritten (`hfsjUpdateJl_strays`).
-/

namespace Libparted.Hfs

open Library

/-! ## The update -/

/-- `vh->block_size` as it is in the volume header. -/
def vhBlockSize (env : JournaledVolume) : Store :=
  writeAt (fun _ => 0) 0 (hfsCpuTo 4 false env.blockSize.toNat)

/-- `jib->offset` changed. -/
def setJibOffset (isLe : Bool) (jib : Sector) (offset : ℕ) : Sector :=
  writeAt jib 36 (hfsCpuTo 8 isLe offset)

/-- `hfsj_update_jl`. -/
def hfsjUpdateJl (env : JournaledVolume) (block : BitVec 32) : JournalM Bool := do
  let s ← get
  let binsect := hfsToCpu 4 s.isLe (vhBlockSize env) 0 / 512
  let sector := s.jibStartBlock * binsect
  match ← journalGeometryRead env env.plusGeom sector with
  | none => return false
  | some jib =>
    let offset := block.toNat * 512 * binsect
    if ← journalGeometryWrite env env.plusGeom [setJibOffset s.isLe jib offset] sector then
      modify fun s => { s with jlStartBlock := block.toNat }
      return true
    else return false

/-! ## Looking for the journal -/

/-- `hfsj_replay_journal` up to the place where it reads the journal header: the sector of the
header and the length of the journal. -/
def findJournal (env : JournaledVolume) : JournalM (Bool ⊕ ℕ × ℕ) := do
  let binsect := env.blockSize.toNat / 512
  modify fun s => { s with jibStartBlock := env.journalInfoBlock.toNat }
  match ← journalGeometryRead env env.plusGeom (env.journalInfoBlock.toNat * binsect : ℕ) with
  | none => return .inl false
  | some jib =>
    let flags := hfsToCpu 4 false jib 0
    let inFs := flags.testBit 0 && !flags.testBit 1
    if inFs && binsect = 0 then
      throw (.undefined "jib->offset / (PED_SECTOR_SIZE_DEFAULT * binsect)")
    modify fun s => { s with
      jlStartBlock := if inFs then hfsToCpu 8 s.isLe jib 36 / (512 * binsect) % 2 ^ 32
        else s.jlStartBlock }
    if flags.testBit 2 then return .inl true
    if !inFs then
      journalReport env .noFeature ("Journal stored outside of the volume are not supported.  Try "
        ++ "to deactivate the journal and run Parted again.")
      return .inl false
    let offset := hfsToCpu 8 false jib 36
    let size := hfsToCpu 8 false jib 44
    if offset % 512 ≠ 0 ∨ size % 512 ≠ 0 then
      journalReport env .noFeature "Journal offset or size is not multiple of the sector size."
      return .inl false
    return .inr (offset / 512, size / 512)

/-- The rest of `openJournal`: the header in this sector is read and checked. -/
def readHeader (env : JournaledVolume) (sector length : ℕ) : JournalM (Bool ⊕ OpenJournal) := do
  match ← journalGeometryRead env env.plusGeom sector with
  | none => return .inl false
  | some jh =>
    modify fun s => { s with isLe := s.isLe || hfsToCpu 4 true jh 4 = endianMagic }
    let isLe := (← get).isLe
    match checkHeader isLe jh length with
    | some message =>
      journalReport env .error message
      return .inl false
    | none => return .inr ⟨wrapPointers isLe jh, sector, length⟩

/-- **The two halves** of reading the journal info block and the header. -/
theorem openJournal_eq (env : JournaledVolume) : openJournal env = (do
    match ← findJournal env with
    | .inl result => return .inl result
    | .inr (sector, length) => readHeader env sector length) := by
  unfold openJournal findJournal readHeader
  dsimp only
  rw [bind_assoc]
  refine bind_congr fun _ => ?_
  rw [bind_assoc]
  refine bind_congr fun jib => ?_
  cases jib with
  | none => rfl
  | some jib =>
    dsimp only
    generalize (hfsToCpu 4 false jib 0) = flags
    -- each way out of the first half is one of the whole
    split_ifs <;> simp only [bind_assoc, pure_bind] <;> rfl

/-! ## Single sectors -/

section Sectors

variable {env : JournaledVolume} {geom : PedGeometry} {s t : JournalState} {offset : ℤ}

/-- A sector of the volume that can be read. -/
def Accessible (env : JournaledVolume) (geom : PedGeometry) (offset : ℤ) : Prop :=
  geom.start + offset ≤ geom.end ∧ env.readable (geom.start + offset) = true

instance : Decidable (Accessible env geom offset) := inferInstanceAs (Decidable (_ ∧ _))

theorem journalGeometryRead_eq (h : 0 ≤ offset) : journalGeometryRead env geom offset s
    = .ok (if Accessible env geom offset then some (s.disk (geom.start + offset)) else none,
        s) := by
  have hassert : pedAssert (0 ≤ offset) "offset >= 0" = .ok () := by simp [pedAssert, h]
  unfold journalGeometryRead
  rw [hassert]
  by_cases hacc : Accessible env geom offset
  · rw [if_pos hacc, if_neg (not_lt.mpr hacc.1), if_neg (by simp [hacc.2])]
    rfl
  · rw [if_neg hacc]
    by_cases hend : geom.start + offset > geom.end
    · rw [if_pos hend]
      rfl
    · rw [if_neg hend, if_pos]
      · rfl
      · cases hread : env.readable (geom.start + offset) with
        | true => exact absurd ⟨not_lt.mp hend, hread⟩ hacc
        | false => rfl

/-- Writing a sector that has been read fails or changes this sector. -/
theorem journalGeometryWrite_eq (h : 0 ≤ offset) (hend : geom.start + offset ≤ geom.end)
    (hgeom : geom.end < 2 ^ 63) (sector : Sector) :
    journalGeometryWrite env geom [sector] offset s
      = if env.writable (geom.start + offset) = true then .ok (true,
          { s with disk := Function.update s.disk (geom.start + offset) sector })
        else .ok (false, s) := by
  have hassert : pedAssert (0 ≤ offset) "offset >= 0" = .ok () := by simp [pedAssert, h]
  have hlast : geom.start + offset + ([sector] : List Sector).length - 1 = geom.start + offset := by
    simp
  have hwrite : writeSectors s.disk (geom.start + offset) [sector]
      = Function.update s.disk (geom.start + offset) sector := by
    funext n
    unfold writeSectors Function.update
    by_cases hn : n = geom.start + offset
    · subst hn
      simp
    · rw [if_neg (by simp only [List.length_singleton]; omega), dif_neg hn]
  unfold journalGeometryWrite
  rw [hassert]
  dsimp only
  rw [hlast, if_neg (by omega), if_neg (by omega)]
  cases hwritable : env.writable (geom.start + offset) with
  | true =>
    rw [if_neg (by simp), if_pos rfl, ← hwrite]
    rfl
  | false =>
    rw [if_pos (by simp), if_neg Bool.false_ne_true]
    rfl

end Sectors

/-! ## The place of the journal info block -/

section Place

variable {env : JournaledVolume} {jsector jlength : ℤ} {blhdrNbsect fuel : ℕ}

theorem keeps_journalThrow {type : PedExceptionType} {options : List PedExceptionOption}
    {message : String} :
    Library.Keeps JournalState.jibStartBlock (journalThrow env type options message) :=
  .bind .get fun _ => .bind (.modify fun _ => rfl) fun _ => .pure _

theorem keeps_journalReport {type : PedExceptionType} {message : String} :
    Library.Keeps JournalState.jibStartBlock (journalReport env type message) :=
  .bind keeps_journalThrow fun _ => .pure _

theorem keeps_journalGeometryRead {geom : PedGeometry} {offset : ℤ} :
    Library.Keeps JournalState.jibStartBlock (journalGeometryRead env geom offset) :=
  .bind (.lift _) fun _ => .ite (.pure _) (.ite (.pure _) (.bind .get fun _ => .pure _))

theorem keeps_journalGeometryWrite {geom : PedGeometry} {block : List Sector} {offset : ℤ} :
    Library.Keeps JournalState.jibStartBlock (journalGeometryWrite env geom block offset) :=
  .bind (.lift _) fun _ => .ite (.throw _) (.ite (.bind keeps_journalThrow fun _ => .pure _)
    (.ite (.pure _) (.bind (.modify fun _ => rfl) fun _ => .pure _)))

theorem keeps_hfsjJournalRead {n : ℕ} {p : ℤ} :
    Library.Keeps JournalState.jibStartBlock (hfsjJournalRead env jsector jlength n p) := by
  induction n generalizing p with
  | zero => exact .pure _
  | succ n ih =>
    refine .bind (.modify fun _ => rfl) fun _ => .bind keeps_journalGeometryRead fun r => ?_
    cases r with
    | none => exact .pure _
    | some sector => exact .bind ih fun _ => .pure _

theorem keeps_replayBlock {sector : ℤ} {block : List Sector} :
    Library.Keeps JournalState.jibStartBlock (replayBlock env sector block) :=
  .ite (.pure _) (.bind keeps_journalGeometryWrite fun _ => .bind (.modify fun _ => rfl)
    fun _ => .pure _)

theorem keeps_replayBlocks {blhdr : List Sector} {is : List ℕ} {p : ℤ} :
    Library.Keeps JournalState.jibStartBlock (replayBlocks env jsector jlength blhdr is p) := by
  induction is generalizing p with
  | nil => exact .pure _
  | cons i is ih =>
    refine .bind (.lift _) fun _ => .bind .get fun _ => .ite ih (.ite ?_ ?_)
    · exact .bind keeps_journalReport fun _ => .pure _
    · exact .bind keeps_hfsjJournalRead fun _ => .ite (.pure _)
        (.bind keeps_replayBlock fun _ => .ite ih (.pure _))

theorem keeps_replayLists {n : ℕ} {p : ℤ} :
    Library.Keeps JournalState.jibStartBlock (replayLists env jsector jlength blhdrNbsect n p) := by
  induction n generalizing p with
  | zero => exact .throw _
  | succ n ih =>
    refine .bind keeps_hfsjJournalRead fun _ => .ite (.pure _) (.bind (.lift _) fun _ =>
      .bind .get fun _ => .ite (.bind keeps_journalReport fun _ => .pure _)
        (.bind keeps_replayBlocks fun r => ?_))
    cases r with
    | none => exact .pure _
    | some q => exact .bind (.lift _) fun _ => .ite ih (.pure _)

theorem keeps_replayAll {n : ℕ} {jh : Sector} :
    Library.Keeps JournalState.jibStartBlock (replayAll env fuel jsector jlength n jh) := by
  induction n generalizing jh with
  | zero => exact .throw _
  | succ n ih =>
    have htransaction : Library.Keeps JournalState.jibStartBlock
        (hfsjReplayTransaction env fuel jh jsector jlength) := by
      refine .bind .get fun _ => .bind keeps_replayLists fun r => ?_
      cases r <;> exact .pure _
    refine .bind .get fun _ => .ite (.pure _) (.bind htransaction fun r => ?_)
    cases r with
    | none => exact .pure _
    | some jh => exact .bind keeps_journalGeometryWrite fun _ => .ite ih (.pure _)

theorem keeps_readHeader {sector length : ℕ} :
    Library.Keeps JournalState.jibStartBlock (readHeader env sector length) := by
  refine .bind keeps_journalGeometryRead fun r => ?_
  cases r with
  | none => exact .pure _
  | some jh =>
    refine .bind (.modify fun _ => rfl) fun _ => .bind .get fun s => ?_
    dsimp only
    cases checkHeader s.isLe jh length with
    | some message => exact .bind keeps_journalReport fun _ => .pure _
    | none => exact .pure _

end Place

/-! ## What is found -/

section Find

variable {env : JournaledVolume} {s s' t : JournalState} {fuel : ℕ}

/-- The journal info block. -/
def jibOf (env : JournaledVolume) (disk : ℤ → Sector) : Sector :=
  disk (env.plusGeom.start + jibSector env)

/-- `HFSJ_JOURN_IN_FS` is set, and `HFSJ_JOURN_OTHER_DEV` is not. -/
def JournInFs (jib : Sector) : Prop :=
  ((hfsToCpu 4 false jib 0).testBit 0 && !(hfsToCpu 4 false jib 0).testBit 1) = true

/-- There is a journal to look for: `HFSJ_JOURN_NEED_INIT` is not set, and the journal has a
length in sectors. -/
def JournReady (jib : Sector) : Prop :=
  (hfsToCpu 4 false jib 0).testBit 2 = false ∧ hfsToCpu 8 false jib 44 % 512 = 0

theorem readJib_eq (t : JournalState) : journalGeometryRead env env.plusGeom
    (env.journalInfoBlock.toNat * (env.blockSize.toNat / 512) : ℕ) t
    = .ok (if Accessible env env.plusGeom (jibSector env) then some (jibOf env t.disk) else none,
        t) :=
  journalGeometryRead_eq (Int.natCast_nonneg _)

seal hfsToCpu in
theorem findJournal_spec : Spec (fun _ => True) (findJournal env) s fun r t =>
    t.jibStartBlock = env.journalInfoBlock.toNat ∧
    (r ≠ .inl false → Accessible env env.plusGeom (jibSector env)) ∧
    ∀ sector length, r = .inr (sector, length) →
      sector = hfsToCpu 8 false (jibOf env s.disk) 36 / 512 ∧ JournReady (jibOf env s.disk) := by
  unfold findJournal
  refine Spec.bind (spec_modify.mpr (Spec.bind ?_))
  rw [spec_of_ok (readJib_eq _)]
  by_cases hacc : Accessible env env.plusGeom (jibSector env)
  · rw [if_pos hacc]
    dsimp only
    refine Spec.ite (fun _ => trivial) fun _ => Spec.bind (spec_modify.mpr ?_)
    refine Spec.ite (fun _ => ⟨rfl, fun _ => hacc, fun _ _ h => nomatch h⟩) fun hinit => ?_
    refine Spec.ite (fun _ => ⟨rfl, fun _ => hacc, fun _ _ h => nomatch h⟩) fun _ => ?_
    refine Spec.ite (fun _ => ⟨rfl, fun _ => hacc, fun _ _ h => nomatch h⟩) fun hsizes => ?_
    refine ⟨rfl, fun _ => hacc, fun sector length h => ?_⟩
    obtain ⟨rfl, -⟩ := Prod.mk.inj (Sum.inr.inj h)
    exact ⟨rfl, by simpa using hinit, by omega⟩
  · rw [if_neg hacc]
    exact ⟨rfl, fun h => absurd rfl h, fun _ _ h => nomatch h⟩

theorem findJournal_run (hblock : 512 ≤ env.blockSize.toNat)
    (hacc : Accessible env env.plusGeom (jibSector env)) (hin : JournInFs (jibOf env s.disk))
    (hready : JournReady (jibOf env s.disk))
    (hoffset : hfsToCpu 8 false (jibOf env s.disk) 36 % 512 = 0) :
    findJournal env s = .ok (.inr (hfsToCpu 8 false (jibOf env s.disk) 36 / 512,
        hfsToCpu 8 false (jibOf env s.disk) 44 / 512),
      { s with
        jibStartBlock := env.journalInfoBlock.toNat
        jlStartBlock := hfsToCpu 8 s.isLe (jibOf env s.disk) 36
          / (512 * (env.blockSize.toNat / 512)) % 2 ^ 32 }) := by
  have hin' : ((hfsToCpu 4 false (jibOf env s.disk) 0).testBit 0 &&
      !(hfsToCpu 4 false (jibOf env s.disk) 0).testBit 1) = true := hin
  have hbinsect : decide (env.blockSize.toNat / 512 = 0) = false := decide_eq_false (by omega)
  apply Spec.eq_ok
  unfold findJournal
  refine Spec.bind (spec_modify.mpr (Spec.bind ?_))
  rw [spec_of_ok (readJib_eq _), if_pos hacc]
  dsimp only
  rw [hin', hbinsect, if_neg (by simp)]
  refine Spec.bind (spec_modify.mpr ?_)
  rw [hready.1, if_neg Bool.false_ne_true, if_neg (by simp), if_neg (by simp [hoffset, hready.2])]
  exact ⟨rfl, rfl⟩

/-- After a replay the place of the journal info block is known, and it can be read. -/
theorem jibStartBlock_of_replay (h : hfsjReplayJournal env fuel s = .ok (true, s')) :
    s'.jibStartBlock = env.journalInfoBlock.toNat ∧
      Accessible env env.plusGeom (jibSector env) := by
  unfold hfsjReplayJournal at h
  rw [openJournal_eq, bind_assoc] at h
  obtain ⟨⟨r, t⟩, hfind, h⟩ := bind_eq_ok.mp h
  obtain ⟨hjib, hacc, -⟩ := findJournal_spec.of_ok hfind
  rcases r with result | ⟨sector, length⟩
  · obtain ⟨hresult, rfl⟩ := Prod.mk.inj (Except.ok.inj h)
    subst hresult
    exact ⟨hjib, hacc (by simp)⟩
  · refine ⟨?_, hacc (by simp)⟩
    rw [← hjib]
    refine Keeps.of_ok (x := readHeader env sector length >>= _) ?_ h
    refine .bind keeps_readHeader fun r => ?_
    rcases r with result | ⟨jh, sector, length⟩
    · exact .pure _
    refine .bind .get fun _ => .ite (.pure _) (.bind keeps_journalThrow fun _ => .ite (.pure _)
      (.bind keeps_replayAll fun _ => .ite (.pure _) (.bind .get fun _ => .ite ?_ (.pure _))))
    exact .bind keeps_journalThrow fun _ => .pure _

end Find

/-! ## What is changed -/

section Update

variable {env : JournaledVolume} {s s' s₁ : JournalState} {fuel : ℕ} {block : BitVec 32}

/-- The number of sectors of a block, as `hfsj_update_jl` reads it. -/
def updateBinsect (env : JournaledVolume) (isLe : Bool) : ℕ :=
  hfsToCpu 4 isLe (vhBlockSize env) 0 / 512

/-- The sector that `hfsj_update_jl` changes. -/
def updateSector (env : JournaledVolume) (s : JournalState) : ℕ :=
  s.jibStartBlock * updateBinsect env s.isLe

/-- The disk behind `hfsj_update_jl`. -/
def updatedDisk (env : JournaledVolume) (block : BitVec 32) (s : JournalState) : ℤ → Sector :=
  Function.update s.disk (env.plusGeom.start + updateSector env s) (setJibOffset s.isLe
    (s.disk (env.plusGeom.start + updateSector env s))
    (block.toNat * 512 * updateBinsect env s.isLe))

theorem hfsjUpdateJl_eq : hfsjUpdateJl env block s
    = if Accessible env env.plusGeom (updateSector env s) ∧
        env.writable (env.plusGeom.start + updateSector env s) = true
      then .ok (true, { s with disk := updatedDisk env block s, jlStartBlock := block.toNat })
      else .ok (false, s) := by
  have hread : journalGeometryRead env env.plusGeom
      (s.jibStartBlock * (hfsToCpu 4 s.isLe (vhBlockSize env) 0 / 512) : ℕ) s
      = .ok (if Accessible env env.plusGeom (updateSector env s) then
          some (s.disk (env.plusGeom.start + updateSector env s)) else none, s) :=
    journalGeometryRead_eq (Int.natCast_nonneg _)
  unfold hfsjUpdateJl
  refine (run_bind_ok (rfl : (get : JournalM _) s = .ok (s, s))).trans ?_
  refine (run_bind_ok hread).trans ?_
  by_cases hacc : Accessible env env.plusGeom (updateSector env s)
  · have hwrite : journalGeometryWrite env env.plusGeom [setJibOffset s.isLe
        (s.disk (env.plusGeom.start + updateSector env s))
        (block.toNat * 512 * updateBinsect env s.isLe)] (updateSector env s) s = _ :=
      journalGeometryWrite_eq (Int.natCast_nonneg _) hacc.1 env.plusGeom_lt _
    rw [if_pos hacc]
    by_cases hwritable : env.writable (env.plusGeom.start + updateSector env s) = true
    · rw [if_pos hwritable] at hwrite
      rw [if_pos ⟨hacc, hwritable⟩]
      exact (run_bind_ok hwrite).trans rfl
    · rw [if_neg hwritable] at hwrite
      rw [if_neg fun h => hwritable h.2]
      exact (run_bind_ok hwrite).trans rfl
  · rw [if_neg hacc, if_neg fun h => hacc h.1]
    rfl

/-- The size of a block, read in its own byte order. -/
theorem updateBinsect_false : updateBinsect env false = env.blockSize.toNat / 512 := by
  have hsize := env.blockSize.isLt
  unfold updateBinsect vhBlockSize
  rw [hfsToCpu_writeAt_same (by omega)]

theorem updateBinsect_lt (isLe : Bool) : updateBinsect env isLe < 2 ^ 23 := by
  have hlt : hfsToCpu 4 isLe (vhBlockSize env) 0 < 256 ^ 4 := hfsToCpu_lt
  unfold updateBinsect
  omega

/-- The other fields of the journal info block stay. -/
theorem journInFs_setJibOffset {isLe : Bool} {jib : Sector} {offset : ℕ} :
    JournInFs (setJibOffset isLe jib offset) ↔ JournInFs jib := by
  unfold JournInFs setJibOffset
  rw [hfsToCpu_writeAt_of_disjoint (Or.inl (by omega))]

theorem journReady_setJibOffset {isLe : Bool} {jib : Sector} {offset : ℕ} :
    JournReady (setJibOffset isLe jib offset) ↔ JournReady jib := by
  unfold JournReady setJibOffset
  rw [hfsToCpu_writeAt_of_disjoint (Or.inl (by omega)),
    hfsToCpu_writeAt_of_disjoint (Or.inr (by simp))]

/-- A small number read in the wrong byte order is none, or a large one. -/
theorem hfsToCpu_swapped {jib : Sector} {offset : ℕ} (h : offset < 2 ^ 32) :
    hfsToCpu 8 false (setJibOffset true jib offset) 36 = 0 ∨
      2 ^ 32 ≤ hfsToCpu 8 false (setJibOffset true jib offset) 36 := by
  have hbytes : leBytes 8 offset = leBytes 4 offset ++ [0, 0, 0, 0] := by
    have hzero : offset / 256 / 256 / 256 / 256 = 0 := by omega
    simp only [leBytes, hzero, List.cons_append, List.nil_append]
    rfl
  have hread : hfsToCpu 8 false (setJibOffset true jib offset) 36
      = 2 ^ 32 * leNat (leBytes 4 offset).reverse := by
    unfold hfsToCpu setJibOffset
    rw [readAt_writeAt_same (length_hfsCpuTo _), if_neg Bool.false_ne_true, hfsCpuTo, if_pos rfl,
      hbytes, List.reverse_append]
    simp only [List.reverse_cons, List.reverse_nil, List.nil_append, List.cons_append, leNat]
    simp only [BitVec.toNat_ofNat, BitVec.ofNat_eq_ofNat]
    omega
  rw [hread]
  omega

end Update

/-! ## A moved journal -/

section Move

variable {env : JournaledVolume} {s s' : JournalState} {fuel : ℕ} {block : BitVec 32}

/-- Whoever opens the volume looks for the journal at `block`: with the variable `is_le` as it
is, or in a new process. -/
def Locates (env : JournaledVolume) (disk : ℤ → Sector) (isLe : Bool) (block : BitVec 32) : Prop :=
  ∀ t : JournalState, t.disk = disk → t.isLe = isLe ∨ t.isLe = false → ∃ length t',
    findJournal env t = .ok (.inr (block.toNat * (env.blockSize.toNat / 512), length), t') ∧
      t'.jlStartBlock = block.toNat

/-- `hfsj_update_jl` has moved the journal to `block`, and changed the journal info block only. -/
def Moves (env : JournaledVolume) (s : JournalState) (block : BitVec 32) : Prop :=
  ∃ s₁, hfsjUpdateJl env block s = .ok (true, s₁) ∧
    (∀ n, n ≠ env.plusGeom.start + jibSector env → s₁.disk n = s.disk n) ∧
    Locates env s₁.disk s₁.isLe block

/-- With a big-endian journal. -/
theorem moves_of_bigEndian (hblock : 512 ≤ env.blockSize.toNat)
    (hjib : s.jibStartBlock = env.journalInfoBlock.toNat)
    (hacc : Accessible env env.plusGeom (jibSector env))
    (hwritable : env.writable (env.plusGeom.start + jibSector env) = true)
    (hin : JournInFs (jibOf env s.disk)) (hbe : s.isLe = false)
    (hready : JournReady (jibOf env s.disk)) (block : BitVec 32) : Moves env s block := by
  have hsector : updateSector env s = jibSector env := by
    rw [updateSector, jibSector, hjib, hbe, updateBinsect_false]
  have hlt := block.isLt
  have hsize := env.blockSize.isLt
  have hoffset : block.toNat * 512 * (env.blockSize.toNat / 512) < 256 ^ 8 := by
    have hle : block.toNat * 512 * (env.blockSize.toNat / 512) ≤ (2 ^ 32 - 1) * 512 * 2 ^ 23 :=
      Nat.mul_le_mul (by omega) (by omega)
    exact hle.trans_lt (by norm_num)
  have hjibOf : jibOf env (updatedDisk env block s) = setJibOffset false (jibOf env s.disk)
      (block.toNat * 512 * (env.blockSize.toNat / 512)) := by
    rw [jibOf, updatedDisk, hsector, Function.update_self, hbe, updateBinsect_false, jibOf]
  have hread : hfsToCpu 8 false (jibOf env (updatedDisk env block s)) 36
      = block.toNat * 512 * (env.blockSize.toNat / 512) := by
    rw [hjibOf, setJibOffset, hfsToCpu_writeAt_same hoffset]
  refine ⟨_, hfsjUpdateJl_eq.trans (if_pos ⟨hsector ▸ hacc, hsector ▸ hwritable⟩), ?_, ?_⟩
  · intro n hn
    refine Function.update_of_ne ?_ _ _
    rw [hsector]
    exact hn
  · intro t hdisk hisLe
    have hbe' : t.isLe = false := hisLe.elim (fun h => h.trans hbe) id
    have hread' : hfsToCpu 8 false (jibOf env t.disk) 36
        = 512 * (block.toNat * (env.blockSize.toNat / 512)) := by
      rw [hdisk]
      exact hread.trans (by ring)
    have hrun := findJournal_run hblock hacc (s := t)
      (by rw [hdisk]; exact hjibOf ▸ journInFs_setJibOffset.mpr hin)
      (by rw [hdisk]; exact hjibOf ▸ journReady_setJibOffset.mpr hready)
      (by rw [hread']; exact Nat.mul_mod_right _ _)
    rw [hbe', hread', Nat.mul_div_cancel_left _ (by norm_num)] at hrun
    refine ⟨_, _, hrun, ?_⟩
    show 512 * (block.toNat * (env.blockSize.toNat / 512)) / (512 * (env.blockSize.toNat / 512))
      % 2 ^ 32 = block.toNat
    rw [Nat.mul_div_mul_left _ _ (by norm_num), Nat.mul_div_cancel _ (by omega),
      Nat.mod_eq_of_lt hlt]

/-- Where the journal is looked for after a move. -/
theorem Moves.found (h : Moves env s block) :
    hfsToCpu 8 false (jibOf env (updatedDisk env block s)) 36 / 512
      = block.toNat * (env.blockSize.toNat / 512) ∧
    JournReady (jibOf env (updatedDisk env block s)) := by
  obtain ⟨s₁, hrun, -, hlocates⟩ := h
  rw [hfsjUpdateJl_eq] at hrun
  split_ifs at hrun
  · obtain ⟨-, rfl⟩ := Prod.mk.inj (Except.ok.inj hrun)
    obtain ⟨length, t', hfind, -⟩ := hlocates _ rfl (Or.inl rfl)
    obtain ⟨hsector, hready⟩ := (findJournal_spec.of_ok hfind).2.2 _ _ rfl
    exact ⟨hsector.symm, hready⟩
  · exact absurd (Prod.mk.inj (Except.ok.inj hrun)).1 Bool.false_ne_true

/-- With a little-endian one it fails for one of the first two blocks. -/
theorem not_moves_of_littleEndian (hblock : 512 ≤ env.blockSize.toNat) (hle : s.isLe = true) :
    ¬ (Moves env s 0 ∧ Moves env s 1) := by
  rintro ⟨h₀, h₁⟩
  have hbinsect : 1 ≤ env.blockSize.toNat / 512 := by omega
  have hsize := env.blockSize.isLt
  by_cases hsector : updateSector env s = jibSector env
  · -- the offset that was written is read in the other byte order
    have hfound := h₁.found.1
    rw [jibOf, updatedDisk, hsector, Function.update_self, hle] at hfound
    have hlt : updateBinsect env true < 2 ^ 23 := updateBinsect_lt true
    have hone : (1 : BitVec 32).toNat = 1 := rfl
    rw [hone] at hfound
    have hoffset : 1 * 512 * updateBinsect env true < 2 ^ 32 := by omega
    rcases hfsToCpu_swapped hoffset with hzero | hlarge
    · rw [hzero] at hfound
      omega
    · have := Nat.div_le_div_right (c := 512) hlarge
      rw [hfound] at this
      omega
  · -- the journal info block is as it was
    have hsame : ∀ block, jibOf env (updatedDisk env block s) = jibOf env s.disk := by
      intro block
      exact Function.update_of_ne (by omega) _ _
    have hfound₀ := h₀.found.1
    have hfound₁ := h₁.found.1
    rw [hsame] at hfound₀ hfound₁
    rw [hfound₀] at hfound₁
    have hzero : (0 : BitVec 32).toNat = 0 := rfl
    have hone : (1 : BitVec 32).toNat = 1 := rfl
    rw [hzero, hone] at hfound₁
    omega

/-- **The journal can be found** after a move, wherever it is moved to, exactly if it is
big-endian and there is something to be found. -/
theorem hfsjUpdateJl_moves_iff (hblock : 512 ≤ env.blockSize.toNat)
    (hreplay : hfsjReplayJournal env fuel s = .ok (true, s'))
    (hwritable : env.writable (env.plusGeom.start + jibSector env) = true)
    (hin : JournInFs (jibOf env s'.disk)) :
    (∀ block, Moves env s' block) ↔ s'.isLe = false ∧ JournReady (jibOf env s'.disk) := by
  obtain ⟨hjib, hacc⟩ := jibStartBlock_of_replay hreplay
  constructor
  · intro hmoves
    have hbe : s'.isLe = false := by
      by_contra hle
      exact not_moves_of_littleEndian hblock (by simpa using hle) ⟨hmoves 0, hmoves 1⟩
    have hsector : updateSector env s' = jibSector env := by
      rw [updateSector, jibSector, hjib, hbe, updateBinsect_false]
    have hready := (hmoves 0).found.2
    rw [jibOf, updatedDisk, hsector, Function.update_self, journReady_setJibOffset] at hready
    exact ⟨hbe, hready⟩
  · rintro ⟨hbe, hready⟩ block
    exact moves_of_bigEndian hblock hjib hacc hwritable hin hbe hready block

end Move

/-! ## Two volumes -/

/-- The header of an empty journal of four sectors, in this byte order. -/
def emptyHeader (isLe : Bool) : Sector :=
  updateJhChecksum isLe (sectorOf [(0, hfsCpuTo 4 isLe headerMagic),
    (4, hfsCpuTo 4 isLe endianMagic), (8, hfsCpuTo 8 isLe 512), (16, hfsCpuTo 8 isLe 512),
    (24, hfsCpuTo 8 isLe 2048), (32, hfsCpuTo 4 isLe 512), (40, hfsCpuTo 4 isLe 512)])

/-- A volume of two thousand sectors. -/
def largerVolume : JournaledVolume :=
  { sampleVolume with fsGeom := .fromTo 0 1999, fsGeom_lt := by decide }

/-- A volume with an empty journal. -/
def emptyJournal (isLe : Bool) : JournalState := sampleJournal (emptyHeader isLe) fun _ => 0

/-- A big-endian journal can be moved. -/
theorem hfsjUpdateJl_moves_bigEndian : ∃ s',
    hfsjReplayJournal largerVolume 1 (emptyJournal false) = .ok (true, s') ∧
      ∀ block, Moves largerVolume s' block := by
  obtain ⟨⟨result, s'⟩, hrun, hfacts⟩ := exists_ok_of_map
    (x := hfsjReplayJournal largerVolume 1 (emptyJournal false))
    (f := fun r => (r.1, r.2.isLe, hfsToCpu 4 false (jibOf largerVolume r.2.disk) 0,
      hfsToCpu 8 false (jibOf largerVolume r.2.disk) 44))
    (b := (true, false, 1, 2048)) (by decide +kernel)
  simp only [Prod.mk.injEq] at hfacts
  obtain ⟨rfl, hbe, hflags, hsize⟩ := hfacts
  refine ⟨s', hrun, (hfsjUpdateJl_moves_iff (by decide) hrun rfl ?_).mpr ⟨hbe, ?_, ?_⟩⟩
  · rw [JournInFs, hflags]
    decide
  · rw [hflags]
    decide
  · rw [hsize]

/-- With a little-endian journal `hfsj_update_jl` succeeds, the journal info block in sector 5 is
as it was, and sector 1280 has been overwritten. -/
theorem hfsjUpdateJl_strays : ∃ s' s₁,
    hfsjReplayJournal largerVolume 1 (emptyJournal true) = .ok (true, s') ∧
    JournInFs (jibOf largerVolume s'.disk) ∧ JournReady (jibOf largerVolume s'.disk) ∧
    hfsjUpdateJl largerVolume 20 s' = .ok (true, s₁) ∧
    s₁.disk 5 = s'.disk 5 ∧ s₁.disk 1280 ≠ s'.disk 1280 ∧ ¬ Moves largerVolume s' 20 := by
  obtain ⟨⟨result, s'⟩, hrun, hfacts⟩ := exists_ok_of_map
    (x := hfsjReplayJournal largerVolume 1 (emptyJournal true))
    (f := fun r => ((r.1, r.2.isLe, r.2.jibStartBlock),
      (hfsToCpu 4 false (jibOf largerVolume r.2.disk) 0,
        hfsToCpu 8 false (jibOf largerVolume r.2.disk) 36,
        hfsToCpu 8 false (jibOf largerVolume r.2.disk) 44), r.2.disk 1280 38))
    (b := ((true, true, 5), (1, 5120, 2048), 0)) (by decide +kernel)
  simp only [Prod.mk.injEq] at hfacts
  obtain ⟨⟨rfl, hle, hjib⟩, ⟨hflags, hoffset, hsize⟩, hbyte⟩ := hfacts
  have hbinsect : updateBinsect largerVolume true = 256 := by decide +kernel
  have hsector : updateSector largerVolume s' = 1280 := by
    rw [updateSector, hjib, hle, hbinsect]
  have hstart : largerVolume.plusGeom.start = 0 := rfl
  have hdisk : updatedDisk largerVolume 20 s' = Function.update s'.disk 1280
      (setJibOffset true (s'.disk 1280) (20 * 512 * 256)) := by
    rw [updatedDisk, hsector, hle, hbinsect, hstart]
    rfl
  have hjibOf : jibOf largerVolume (updatedDisk largerVolume 20 s')
      = jibOf largerVolume s'.disk := by
    rw [hdisk]
    exact Function.update_of_ne (by decide) _ _
  have hacc : Accessible largerVolume largerVolume.plusGeom (updateSector largerVolume s') := by
    rw [hsector]
    exact ⟨by decide, rfl⟩
  refine ⟨s', _, hrun, ?_, ⟨?_, ?_⟩, hfsjUpdateJl_eq.trans (if_pos ⟨hacc, rfl⟩), hjibOf, ?_, ?_⟩
  · rw [JournInFs, hflags]
    decide
  · rw [hflags]
    decide
  · rw [hsize]
  · intro hsame
    have hnew : updatedDisk largerVolume 20 s' 1280 38 = 0x28 := by
      rw [hdisk, Function.update_self, setJibOffset, writeAt_of_mem (by omega) (by simp)]
      decide
    rw [show updatedDisk largerVolume 20 s' 1280 = s'.disk 1280 from hsame, hbyte] at hnew
    exact absurd hnew (by decide)
  · intro hmoves
    have hfound := hmoves.found.1
    rw [hjibOf, hoffset] at hfound
    exact absurd hfound (by decide)

end Libparted.Hfs
