import Libparted.Labels.Gpt.Table

/-!
# The headers of a GPT

Which header `gpt_read` goes on with is a matter of the contents of the device alone:
the one in sector 1 if it is valid, and otherwise the backup.  Where the backup is
looked for is again a matter of the contents.  The answers decide only whether the
reading goes on, and whether the two repairs take place that are offered: moving the
backup to the end of the device, and letting the usable area grow up to it.

So the header phase of `gpt_read` is described by two truth values, `move` and `grow`,
and all it leaves behind is a function of them and of the contents.
-/

namespace Libparted

open Library

theorem pthNewFromRaw_pthGetRaw (pth : GuidPartitionTableHeader) :
    pthNewFromRaw (pthGetRaw pth) = pth := by
  have hdrop : (pthGetRaw pth).drop pthGetSizeStatic = pth.reserved2 :=
    List.drop_left' (headerCodec.length_encode _)
  unfold pthNewFromRaw
  rw [hdrop, pthGetRaw, Codec.decode_encode]

/-! ## What is on the device -/

section Contents

variable (crc : List Byte → BitVec 32) (dev : PedDevice) (store : Store)

/-- The header in a sector, if it is valid there. -/
def headerAt (lba : ℤ) : Option GuidPartitionTableHeader :=
  (pttReadSector dev store lba).bind fun raw =>
    if headerIsValid crc dev store (pthNewFromRaw raw) lba then some (pthNewFromRaw raw) else none

/-- The sector in which the backup header is looked for. -/
def backupLBA : ℤ := alternateOf dev (headerAt crc dev store 1)

/-- The header `gpt_read` goes on with. -/
def chosenHeader : Option GuidPartitionTableHeader :=
  (headerAt crc dev store 1).or (headerAt crc dev store (backupLBA crc dev store))

/-- The protective table is marked as bootable. -/
def pmbrBootable : Bool :=
  isBootableMbr (readAt store (sectorPos dev 0) dev.sectorSize)

/-- Both headers are valid, but the backup is neither at the end of the device nor where
the primary header thinks that is. -/
def OffersMove : Prop :=
  ∃ pri, headerAt crc dev store 1 = some pri ∧
    (headerAt crc dev store (backupLBA crc dev store)).isSome = true ∧
    backupLBA crc dev store ≠ dev.length - 1 ∧ backupLBA crc dev store ≠ hdrDiskEnd dev pri

/-- `gpt_read` has to ask before it goes on with one of the headers. -/
def AsksWhich : Prop :=
  OffersMove crc dev store ∨ headerAt crc dev store 1 = none ∨
    headerAt crc dev store (backupLBA crc dev store) = none

end Contents

section Header

variable (dev : PedDevice) (gpt : GuidPartitionTableHeader)

/-- The end of the usable area if it took up all of the device. -/
def lastUsableIfGrown : ℤ := dev.length - 2 - ptesSectors dev gpt

/-- The usable area passes the tests of `_parse_header`. -/
structure InRange : Prop where
  nonempty : gpt.firstUsableLBA.toInt < gpt.lastUsableLBA.toInt
  inside : gpt.lastUsableLBA.toInt ≤ dev.length
  room : gpt.firstUsableLBA.toInt < lastUsableIfGrown dev gpt

/-- There is space behind the usable area. -/
def OffersGrowth : Prop := gpt.lastUsableLBA.toInt < lastUsableIfGrown dev gpt

instance : Decidable (OffersGrowth dev gpt) := inferInstanceAs (Decidable (_ < _))

/-- The number of entries passes the assertions of `_parse_header`. -/
def EntryCountFits : Prop :=
  0 < gpt.numberOfPartitionEntries.toNat ∧ gpt.numberOfPartitionEntries.toNat ≤ 8192

instance : Decidable (EntryCountFits gpt) := inferInstanceAs (Decidable (_ ∧ _))

/-- The format is newer than the one the program knows. -/
def TooNew : Prop := gpt.revision > gptHeaderRevisionV102

instance : Decidable (TooNew gpt) := inferInstanceAs (Decidable (_ > _))

/-- The end of the usable area after the question. -/
def lastUsableAfter (grow : Bool) : ℤ :=
  if grow then lastUsableIfGrown dev gpt else gpt.lastUsableLBA.toInt

end Header

/-- What a valid header satisfies. -/
structure ValidHeader (crc : List Byte → BitVec 32) (dev : PedDevice) (store : Store)
    (gpt : GuidPartitionTableHeader) (lba : ℤ) : Prop where
  signature : gpt.signature = gptHeaderSignature
  headerSize : pthGetSizeStatic ≤ gpt.headerSize.toNat ∧ gpt.headerSize.toNat ≤ dev.sectorSize
  entrySize : entrySizeIsValid gpt.sizeOfPartitionEntry = true
  myLBA : gpt.myLBA = BitVec.ofInt 64 lba
  backup : lba ≠ 1 → gpt.alternateLBA.toInt = 1
  apart : gpt.alternateLBA.toInt ≠ lba
  array : checkPEArrayCRC crc dev store gpt = true
  first : 3 ≤ gpt.firstUsableLBA.toInt
  last : gpt.firstUsableLBA.toInt ≤ gpt.lastUsableLBA.toInt
  sum : pthCrc32 crc { gpt with headerCRC32 := 0 } = gpt.headerCRC32

section Valid

variable {crc : List Byte → BitVec 32} {dev : PedDevice} {store : Store}
  {gpt : GuidPartitionTableHeader} {lba : ℤ}

theorem headerIsValid_iff :
    headerIsValid crc dev store gpt lba = true ↔ ValidHeader crc dev store gpt lba := by
  simp only [headerIsValid, Bool.and_eq_true, decide_eq_true_eq, Bool.not_eq_true',
    Bool.and_eq_false_iff, decide_eq_false_iff_not, not_lt, not_not, and_assoc]
  constructor
  · rintro ⟨h1, h2, h3, h4, h5, h6, h7, h8, h9, h10, h11⟩
    exact ⟨h1, ⟨h2, h3⟩, h4, h5, h6.resolve_left, h7, h8, h9, h10, h11⟩
  · rintro ⟨h1, ⟨h2, h3⟩, h4, h5, h6, h7, h8, h9, h10, h11⟩
    exact ⟨h1, h2, h3, h4, h5, Decidable.or_iff_not_imp_left.mpr h6, h7, h8, h9, h10, h11⟩

theorem headerAt_eq_some : headerAt crc dev store lba = some gpt ↔
    ∃ raw, pttReadSector dev store lba = some raw ∧ gpt = pthNewFromRaw raw ∧
      ValidHeader crc dev store gpt lba := by
  unfold headerAt
  cases hread : pttReadSector dev store lba with
  | none => simp
  | some raw =>
      simp only [Option.bind_some, Option.ite_none_right_eq_some, headerIsValid_iff,
        Option.some.injEq, exists_eq_left']
      constructor
      · rintro ⟨h, rfl⟩
        exact ⟨rfl, h⟩
      · rintro ⟨rfl, h⟩
        exact ⟨h, rfl⟩

theorem headerAt_eq (h0 : 0 ≤ lba) (h : lba < dev.length) : headerAt crc dev store lba
    = if headerIsValid crc dev store (pthNewFromRaw (readAt store (sectorPos dev lba)
        dev.sectorSize)) lba
      then some (pthNewFromRaw (readAt store (sectorPos dev lba) dev.sectorSize)) else none := by
  rw [headerAt, pttReadSector_eq h0 h]
  rfl

theorem backupLBA_of_primary (h : headerAt crc dev store 1 = some gpt) :
    backupLBA crc dev store = gpt.alternateLBA.toInt := by
  rw [backupLBA, h, alternateOf]

theorem backupLBA_of_none (h : headerAt crc dev store 1 = none) :
    backupLBA crc dev store = dev.length - 1 := by
  rw [backupLBA, h, alternateOf]

/-- The header that is chosen is valid where it was found. -/
theorem valid_of_chosenHeader (h : chosenHeader crc dev store = some gpt) :
    ∃ lba, ValidHeader crc dev store gpt lba := by
  rcases Option.or_eq_some_iff.mp h with h | ⟨-, h⟩
  · obtain ⟨raw, -, -, hvalid⟩ := headerAt_eq_some.mp h
    exact ⟨1, hvalid⟩
  · obtain ⟨raw, -, -, hvalid⟩ := headerAt_eq_some.mp h
    exact ⟨_, hvalid⟩

end Valid

/-! ## Reading the headers -/

/-- The disk with other data of the label. -/
def Attached.withSpecific {π : Type} (a : Attached π GPTDiskData) (specific : GPTDiskData) :
    Attached π GPTDiskData :=
  { a with session := { a.session with disk := { a.session.disk with diskSpecific := specific } } }

section Phases

variable {crc : List Byte → BitVec 32} {env : Env} {a : Attached GPTPartitionData GPTDiskData}

theorem modifySpecific_eq (f : GPTDiskData → GPTDiskData) :
    modifySpecific f a = .ok ((), a.withSpecific (f a.session.disk.diskSpecific)) := rfl

/-- **`gpt_read_headers`** finds the valid headers, and remembers where the backup is. -/
theorem gptReadHeaders_run (hdev : 1 < env.dev.length) :
    Spec (fun _ => False) (gptReadHeaders crc env) a fun r a' =>
      r = (if 0 ≤ backupLBA crc env.dev a.medium.store
          ∧ backupLBA crc env.dev a.medium.store < env.dev.length
        then some (headerAt crc env.dev a.medium.store 1,
          headerAt crc env.dev a.medium.store (backupLBA crc env.dev a.medium.store))
        else none) ∧
      a' = a.withSpecific { a.session.disk.diskSpecific with
        pmbrBoot := pmbrBootable env.dev a.medium.store || a.session.disk.diskSpecific.pmbrBoot
        alternateLBA := backupLBA crc env.dev a.medium.store } := by
  set store := a.medium.store with hstore
  set lba := backupLBA crc env.dev store with hlba
  have hprimary : readPrimary crc env.dev store (readAt store (sectorPos env.dev 1)
      env.dev.sectorSize) = headerAt crc env.dev store 1 :=
    (headerAt_eq (by omega) hdev).symm
  unfold gptReadHeaders
  refine Spec.bind (spec_getStore.mpr ?_)
  rw [pttReadSector_eq le_rfl (by omega), ← hstore]
  refine Spec.bind ((spec_of_ok (modifySpecific_eq _)).mpr ?_)
  rw [pttReadSector_eq (by omega) hdev]
  simp only [hprimary]
  refine Spec.bind ((spec_of_ok (modifySpecific_eq _)).mpr ?_)
  rw [← backupLBA, ← hlba]
  by_cases hon : 0 ≤ lba ∧ lba < env.dev.length
  · rw [if_pos hon]
    rw [pttReadSector_eq hon.1 hon.2, headerAt_eq hon.1 hon.2]
    exact ⟨rfl, rfl⟩
  · have hoff : pttReadSector env.dev store lba = none :=
      if_neg fun h => hon ⟨h.1, by have := h.2.2; omega⟩
    rw [if_neg hon, hoff]
    exact ⟨rfl, rfl⟩

/-- What has been done when `gpt_read` goes on with the header `gpt`; `move` says whether
the backup is to be moved. -/
structure Chosen (crc : List Byte → BitVec 32) (env : Env)
    (a : Attached GPTPartitionData GPTDiskData) (gpt : GuidPartitionTableHeader) (move : Bool)
    (a' : Attached GPTPartitionData GPTDiskData) : Prop where
  header : chosenHeader crc env.dev a.medium.store = some gpt
  moved : move = true ↔
    OffersMove crc env.dev a.medium.store ∧ env.answers a.session.thrown.length = .fix
  small : move = true → env.dev.sectorSize ≤ sizeofZero
  disk : a'.session.disk = { a.session.disk with diskSpecific := { a.session.disk.diskSpecific with
    alternateLBA := if move then env.dev.length - 1 else backupLBA crc env.dev a.medium.store } }
  medium : a'.medium
    = if move then a.medium.clear env.dev (backupLBA crc env.dev a.medium.store) else a.medium
  asked : AsksWhich crc env.dev a.medium.store →
    a'.session.thrown.length = a.session.thrown.length + 1
  quiet : ¬ AsksWhich crc env.dev a.medium.store → a'.session.thrown = a.session.thrown

theorem spec_gptThrow {E : Fault → Prop} {type : PedExceptionType}
    {options : List PedExceptionOption} {message : String}
    {Q : PedExceptionOption → Attached GPTPartitionData GPTDiskData → Prop} :
    Spec E (gptThrow env type options message) a Q ↔ Q (env.answers a.session.thrown.length)
      { a with session := ⟨a.session.disk, a.session.thrown ++ [⟨type, options, message⟩]⟩ } :=
  Iff.rfl

/-- A question is asked only to go on with the header that is there. -/
theorem Chosen.of_only {gpt : GuidPartitionTableHeader} (e : PedException)
    (halt : a.session.disk.diskSpecific.alternateLBA = backupLBA crc env.dev a.medium.store)
    (hgpt : chosenHeader crc env.dev a.medium.store = some gpt)
    (hno : ¬ OffersMove crc env.dev a.medium.store) (hask : AsksWhich crc env.dev a.medium.store) :
    Chosen crc env a gpt false
      { a with session := ⟨a.session.disk, a.session.thrown ++ [e]⟩ } where
  header := hgpt
  moved := iff_of_false Bool.false_ne_true fun h => hno h.1
  small := fun h => nomatch h
  disk := by rw [if_neg Bool.false_ne_true, ← halt]
  medium := rfl
  asked := fun _ => by simp
  quiet := fun h => absurd hask h

/-- **Which header.**  Clearing the old backup is the only thing that can stop the program. -/
theorem chooseHeader_spec (hss : 0 < env.dev.sectorSize)
    (hlba : OnDevice env.dev (backupLBA crc env.dev a.medium.store) 1)
    (halt : a.session.disk.diskSpecific.alternateLBA = backupLBA crc env.dev a.medium.store) :
    Spec (fun _ => OffersMove crc env.dev a.medium.store ∧ ¬ env.dev.sectorSize ≤ sizeofZero)
      (chooseHeader env (headerAt crc env.dev a.medium.store 1)
        (headerAt crc env.dev a.medium.store (backupLBA crc env.dev a.medium.store))) a fun r a' =>
      match r with
      | some (gpt, move) => Chosen crc env a gpt move a'
      | none => a'.session.disk = a.session.disk ∧ a'.medium = a.medium ∧
          (chosenHeader crc env.dev a.medium.store = none ∨
            AsksWhich crc env.dev a.medium.store ∧
              env.answers a.session.thrown.length = .cancel) := by
  cases hpri : headerAt crc env.dev a.medium.store 1 with
  | none =>
      cases hbak : headerAt crc env.dev a.medium.store (backupLBA crc env.dev a.medium.store) with
      | none =>
          refine Spec.bind (spec_gptThrow.mpr ⟨rfl, rfl, Or.inl ?_⟩)
          rw [chosenHeader, hpri, hbak]
          rfl
      | some bak =>
          refine Spec.bind (spec_gptThrow.mpr (Spec.ite (fun hcancel => ?_) fun _ => ?_))
          · exact ⟨rfl, rfl, Or.inr ⟨Or.inr (Or.inl hpri), hcancel⟩⟩
          · refine Chosen.of_only _ halt (by rw [chosenHeader, hpri, hbak]; rfl) ?_ (Or.inr (Or.inl hpri))
            rintro ⟨pri, hpri', -⟩
            exact nomatch hpri.symm.trans hpri'
  | some pri =>
      have hgpt : chosenHeader crc env.dev a.medium.store = some pri := by
        rw [chosenHeader, hpri]
        rfl
      cases hbak : headerAt crc env.dev a.medium.store (backupLBA crc env.dev a.medium.store) with
      | none =>
          refine Spec.bind (spec_gptThrow.mpr (Spec.ite (fun hcancel => ?_) fun _ => ?_))
          · exact ⟨rfl, rfl, Or.inr ⟨Or.inr (Or.inr hbak), hcancel⟩⟩
          · refine Chosen.of_only _ halt hgpt ?_ (Or.inr (Or.inr hbak))
            rintro ⟨-, -, hsome, -⟩
            rw [hbak] at hsome
            exact nomatch hsome
      | some bak =>
          have hback := backupLBA_of_primary hpri
          have hoffers : OffersMove crc env.dev a.medium.store ↔
              pri.alternateLBA.toInt ≠ env.dev.length - 1 ∧
                pri.alternateLBA.toInt ≠ hdrDiskEnd env.dev pri := by
            rw [← hback]
            constructor
            · rintro ⟨pri', hpri', -, h, h'⟩
              obtain rfl : pri = pri' := Option.some.inj (hpri.symm.trans hpri')
              exact ⟨h, h'⟩
            · rintro ⟨h, h'⟩
              exact ⟨pri, hpri, by rw [hbak]; rfl, h, h'⟩
          have hasks : AsksWhich crc env.dev a.medium.store ↔
              OffersMove crc env.dev a.medium.store := by
            refine ⟨fun h => h.resolve_right fun h => ?_, Or.inl⟩
            rw [hpri, hbak] at h
            rcases h with h | h <;> exact nomatch h
          refine Spec.bind ((spec_of_ok (modifySpecific_eq _)).mpr ?_)
          refine Spec.ite (fun hmove => ?_) fun hmove => ?_
          · have hoff := hoffers.mpr hmove
            refine Spec.bind (spec_gptThrow.mpr (Spec.ite (fun hfix => ?_) fun hfix => ?_))
            · by_cases hsize : env.dev.sectorSize ≤ sizeofZero
              · refine Spec.bind ((spec_of_ok (pttClearSectors_one hss hsize
                  (hback ▸ hlba))).mpr ?_)
                refine Spec.bind ((spec_of_ok (modifySpecific_eq _)).mpr ?_)
                refine ⟨hgpt, iff_of_true rfl ⟨hoff, hfix⟩, fun _ => hsize, rfl, ?_, fun _ => ?_,
                  fun h => absurd (hasks.mpr hoff) h⟩
                · rw [if_pos rfl, hback]
                  rfl
                · simp [Attached.withSpecific]
              · exact Spec.bind (pttClearSectors_large hsize ⟨hoff, hsize⟩)
            · refine ⟨hgpt, iff_of_false Bool.false_ne_true fun h => hfix h.2, fun h => (nomatch h), ?_,
                rfl, fun _ => ?_, fun h => absurd (hasks.mpr hoff) h⟩
              · rw [if_neg Bool.false_ne_true, hback]
                rfl
              · simp [Attached.withSpecific]
          · have hoff : ¬ OffersMove crc env.dev a.medium.store := fun h => hmove (hoffers.mp h)
            refine ⟨hgpt, iff_of_false Bool.false_ne_true fun h => hoff h.1, fun h => (nomatch h), ?_,
              rfl, fun h => absurd (hasks.mp h) hoff, fun _ => rfl⟩
            rw [if_neg Bool.false_ne_true, hback]
            rfl

theorem acceptHeader_spec (gpt : GuidPartitionTableHeader) :
    Spec (fun _ => False) (acceptHeader env gpt) a fun ok a' =>
      a'.session.disk = a.session.disk ∧ a'.medium = a.medium ∧
      (ok = true → InRange env.dev gpt ∧
        a'.session.thrown.length = a.session.thrown.length + if TooNew gpt then 1 else 0) ∧
      (ok = false → ¬ InRange env.dev gpt ∨
        TooNew gpt ∧ env.answers a.session.thrown.length ≠ .ignore) ∧
      (¬ TooNew gpt → a'.session.thrown = a.session.thrown) := by
  have htests : ∀ b : Attached GPTPartitionData GPTDiskData,
      Spec (fun _ => False) (do
        if gpt.lastUsableLBA.toInt ≤ gpt.firstUsableLBA.toInt ∨
            env.dev.length < gpt.lastUsableLBA.toInt then
          return false
        if lastUsableIfGrown env.dev gpt ≤ gpt.firstUsableLBA.toInt ∨
            env.dev.length < lastUsableIfGrown env.dev gpt then
          return false
        return true : GptM Bool) b fun ok b' => b' = b ∧ (ok = true ↔ InRange env.dev gpt) := by
    intro b
    refine Spec.ite (fun h => ⟨rfl, iff_of_false Bool.false_ne_true fun hr => ?_⟩) fun h => ?_
    · have := hr.nonempty
      have := hr.inside
      omega
    refine Spec.ite (fun h' => ⟨rfl, iff_of_false Bool.false_ne_true fun hr => ?_⟩) fun h' => ?_
    · have := hr.room
      have : lastUsableIfGrown env.dev gpt ≤ env.dev.length := by
        unfold lastUsableIfGrown
        omega
      omega
    · exact ⟨rfl, iff_of_true rfl ⟨by omega, by omega, by omega⟩⟩
  unfold acceptHeader
  refine Spec.ite (fun hnew => ?_) fun hold => ?_
  · rw [if_pos (show TooNew gpt from hnew)]
    refine Spec.bind (spec_gptThrow.mpr (Spec.ite (fun hans => ?_) fun hans => ?_))
    · exact ⟨rfl, rfl, fun h => (nomatch h), fun _ => Or.inr ⟨hnew, hans⟩,
        fun h => absurd hnew h⟩
    · refine (htests _).imp ?_
      rintro ok b ⟨rfl, hok⟩
      refine ⟨rfl, rfl, fun h => ⟨hok.mp h, by simp⟩, fun h => Or.inl fun hr => ?_,
        fun h => absurd hnew h⟩
      rw [hok.mpr hr] at h
      exact nomatch h
  · rw [if_neg (show ¬ TooNew gpt from hold)]
    refine (htests a).imp ?_
    rintro ok b ⟨rfl, hok⟩
    refine ⟨rfl, rfl, fun h => ⟨hok.mp h, rfl⟩, fun h => Or.inl fun hr => ?_, fun _ => rfl⟩
    rw [hok.mpr hr] at h
    exact nomatch h

/-- What has been done when `_parse_header` succeeds; `grow` says whether the usable area
has grown. -/
structure Parsed (env : Env) (a : Attached GPTPartitionData GPTDiskData)
    (gpt : GuidPartitionTableHeader) (grow : Bool) (a' : Attached GPTPartitionData GPTDiskData) :
    Prop where
  range : InRange env.dev gpt
  count : EntryCountFits gpt
  grown : grow = true ↔ OffersGrowth env.dev gpt ∧
    env.answers (a.session.thrown.length + if TooNew gpt then 1 else 0) = .fix
  small : grow = true → env.dev.sectorSize ≤ sizeofZero
  disk : a'.session.disk
    = { a.session.disk with diskSpecific := a'.session.disk.diskSpecific }
  start : a'.session.disk.diskSpecific.dataArea.start = gpt.firstUsableLBA.toInt
  «end» : a'.session.disk.diskSpecific.dataArea.end = lastUsableAfter env.dev gpt grow
  entryCount : a'.session.disk.diskSpecific.entryCount = gpt.numberOfPartitionEntries.toNat
  uuid : a'.session.disk.diskSpecific.uuid = gpt.diskGUID
  pmbrBoot : a'.session.disk.diskSpecific.pmbrBoot = a.session.disk.diskSpecific.pmbrBoot
  alternate : a'.session.disk.diskSpecific.alternateLBA
    = if grow then env.dev.length - 1 else a.session.disk.diskSpecific.alternateLBA
  medium : a'.medium
    = if grow then a.medium.clear env.dev a.session.disk.diskSpecific.alternateLBA else a.medium
  asked : a'.session.thrown.length = a.session.thrown.length + (if TooNew gpt then 1 else 0)
    + if OffersGrowth env.dev gpt then 1 else 0
  quiet : ¬ TooNew gpt → ¬ OffersGrowth env.dev gpt → a'.session.thrown = a.session.thrown

/-- The question about space behind the usable area. -/
theorem growVolume_spec {gpt : GuidPartitionTableHeader} {updateNeeded : Bool}
    (hss : 0 < env.dev.sectorSize)
    (halt : OnDevice env.dev a.session.disk.diskSpecific.alternateLBA 1) :
    Spec (fun _ => OffersGrowth env.dev gpt ∧ ¬ env.dev.sectorSize ≤ sizeofZero)
      (growVolume env gpt updateNeeded) a fun r a' => ∃ grow : Bool,
        r = (lastUsableAfter env.dev gpt grow, updateNeeded || grow) ∧
        (grow = true ↔ OffersGrowth env.dev gpt ∧ env.answers a.session.thrown.length = .fix) ∧
        (grow = true → env.dev.sectorSize ≤ sizeofZero) ∧
        a'.session.disk = { a.session.disk with diskSpecific :=
          { a.session.disk.diskSpecific with alternateLBA :=
            if grow then env.dev.length - 1 else a.session.disk.diskSpecific.alternateLBA } } ∧
        a'.medium = (if grow then a.medium.clear env.dev a.session.disk.diskSpecific.alternateLBA
          else a.medium) ∧
        a'.session.thrown.length
          = a.session.thrown.length + (if OffersGrowth env.dev gpt then 1 else 0) ∧
        (¬ OffersGrowth env.dev gpt → a'.session.thrown = a.session.thrown) := by
  unfold growVolume
  refine Spec.ite (fun hgrow => ?_) fun hgrow => ?_
  · refine Spec.bind (spec_gptThrow.mpr (Spec.ite (fun hfix => ?_) fun hfix => ?_))
    · refine Spec.bind (spec_inMemory.mpr (spec_getDisk.mpr ?_))
      by_cases hsize : env.dev.sectorSize ≤ sizeofZero
      · refine Spec.bind ((spec_of_ok (pttClearSectors_one hss hsize halt)).mpr ?_)
        refine Spec.bind ((spec_of_ok (modifySpecific_eq _)).mpr ?_)
        refine ⟨true, by simp [lastUsableAfter, lastUsableIfGrown], iff_of_true rfl ⟨hgrow, hfix⟩,
          fun _ => hsize, rfl, rfl, ?_, fun h => absurd hgrow h⟩
        rw [if_pos (show OffersGrowth env.dev gpt from hgrow)]
        simp [Attached.withSpecific]
      · exact Spec.bind (pttClearSectors_large hsize ⟨hgrow, hsize⟩)
    · refine ⟨false, by simp [lastUsableAfter], iff_of_false Bool.false_ne_true fun h => hfix h.2,
        fun h => (nomatch h), rfl, rfl, ?_, fun h => absurd hgrow h⟩
      rw [if_pos (show OffersGrowth env.dev gpt from hgrow)]
      simp
  · refine ⟨false, by simp [lastUsableAfter], iff_of_false Bool.false_ne_true fun h => hgrow h.1,
      fun h => (nomatch h), rfl, rfl, ?_, fun _ => rfl⟩
    rw [if_neg (show ¬ OffersGrowth env.dev gpt from hgrow), Nat.add_zero]

/-- **Parsing the header.**  A wrong number of entries stops the program. -/
theorem parseHeader_spec {gpt : GuidPartitionTableHeader} {updateNeeded : Bool}
    (hss : 0 < env.dev.sectorSize) (hfirst : 0 ≤ gpt.firstUsableLBA.toInt)
    (halt : OnDevice env.dev a.session.disk.diskSpecific.alternateLBA 1) :
    Spec (fun _ => InRange env.dev gpt ∧ (¬ EntryCountFits gpt ∨
        OffersGrowth env.dev gpt ∧ ¬ env.dev.sectorSize ≤ sizeofZero))
      (parseHeader env gpt updateNeeded) a fun r a' =>
      match r with
      | some writeBack => ∃ grow, writeBack = (updateNeeded || grow) ∧ Parsed env a gpt grow a'
      | none => a'.session.disk = a.session.disk ∧ a'.medium = a.medium ∧
          (¬ InRange env.dev gpt ∨
            TooNew gpt ∧ env.answers a.session.thrown.length ≠ .ignore) := by
  have hcount : ∀ n : BitVec 32, (0 < n.toInt ∧ n.toInt ≤ 8192) ↔ (0 < n.toNat ∧ n.toNat ≤ 8192) := by
    intro n
    have := n.isLt
    rw [BitVec.toInt_eq_toNat_cond]
    split <;> omega
  unfold parseHeader
  refine Spec.bind (((acceptHeader_spec gpt).mono (fun _ h => h.elim)
    fun ok a₁ hok => ?_))
  obtain ⟨hdisk, hmedium, hyes, hno, hquiet⟩ := hok
  cases ok with
  | false => exact ⟨hdisk, hmedium, hno rfl⟩
  | true =>
      obtain ⟨hrange, hlen⟩ := hyes rfl
      refine Spec.bind ((growVolume_spec hss (hdisk.symm ▸ halt)).mono
        (fun _ h => ⟨hrange, Or.inr h⟩) ?_)
      rintro _ a₂ ⟨grow, rfl, hgrow, hsmall, hdisk₂, hmedium₂, hasked₂, hquiet₂⟩
      have hpos : 1 ≤ lastUsableAfter env.dev gpt grow - gpt.firstUsableLBA.toInt + 1 := by
        have := hrange.nonempty
        have := hrange.room
        unfold lastUsableAfter
        split <;> omega
      dsimp only
      rw [pedGeometryInit_eq hfirst hpos]
      refine Spec.bind (Spec.bind ((spec_of_ok (modifySpecific_eq _)).mpr ?_))
      refine Spec.bind (spec_lift.mpr ⟨fun _ h0 => ?_, fun f hf => ?_⟩)
      · have hn0 : 0 < gpt.numberOfPartitionEntries.toInt := by
          by_contra hn
          simp [pedAssert, hn] at h0
        refine Spec.bind (spec_lift.mpr ⟨fun _ h1 => ?_, fun f hf => ?_⟩)
        · have hn1 : gpt.numberOfPartitionEntries.toInt ≤ 8192 := by
            by_contra hn
            simp [pedAssert, hn] at h1
          refine Spec.bind ((spec_of_ok (modifySpecific_eq _)).mpr ⟨grow, rfl, ?_⟩)
          have hn := (hcount _).mp ⟨hn0, hn1⟩
          have htoNat : gpt.numberOfPartitionEntries.toInt.toNat
              = gpt.numberOfPartitionEntries.toNat := by
            have := gpt.numberOfPartitionEntries.isLt
            rw [BitVec.toInt_eq_toNat_cond]
            split <;> omega
          refine ⟨hrange, hn, hlen ▸ hgrow, hsmall, ?_, rfl, ?_, htoNat, rfl, ?_, ?_, ?_,
            hlen ▸ hasked₂, ?_⟩
          · simp only [Attached.withSpecific, hdisk₂, hdisk]
          · show gpt.firstUsableLBA.toInt
              + (lastUsableAfter env.dev gpt grow - gpt.firstUsableLBA.toInt + 1) - 1 = _
            omega
          · simp only [Attached.withSpecific, hdisk₂, hdisk]
          · simp only [Attached.withSpecific, hdisk₂, hdisk]
          · rw [← hdisk, ← hmedium]
            exact hmedium₂
          · exact fun hold hno => (hquiet₂ hno).trans (hquiet hold)
        · refine ⟨hrange, Or.inl fun hn => ?_⟩
          have := ((hcount _).mpr hn).2
          simp [pedAssert, this] at hf
      · refine ⟨hrange, Or.inl fun hn => ?_⟩
        have := ((hcount _).mpr hn).1
        simp [pedAssert, this] at hf

/-- The medium after the repairs that the header phase itself makes: the old backup header
is cleared. -/
def afterHeaders (crc : List Byte → BitVec 32) (dev : PedDevice) (m : Medium) (move grow : Bool) :
    Medium :=
  let moved := if move then m.clear dev (backupLBA crc dev m.store) else m
  if grow then moved.clear dev (if move then dev.length - 1 else backupLBA crc dev m.store)
  else moved

/-- What has been done when the header has been read: `move` and `grow` say which repairs
were made. -/
structure HeaderRead (crc : List Byte → BitVec 32) (env : Env)
    (a : Attached GPTPartitionData GPTDiskData) (gpt : GuidPartitionTableHeader)
    (move grow : Bool) (a' : Attached GPTPartitionData GPTDiskData) : Prop where
  header : chosenHeader crc env.dev a.medium.store = some gpt
  range : InRange env.dev gpt
  count : EntryCountFits gpt
  offered : (move = true → OffersMove crc env.dev a.medium.store) ∧
    (grow = true → OffersGrowth env.dev gpt)
  small : move = true ∨ grow = true → env.dev.sectorSize ≤ sizeofZero
  disk : a'.session.disk
    = { a.session.disk with diskSpecific := a'.session.disk.diskSpecific }
  start : a'.session.disk.diskSpecific.dataArea.start = gpt.firstUsableLBA.toInt
  «end» : a'.session.disk.diskSpecific.dataArea.end = lastUsableAfter env.dev gpt grow
  entryCount : a'.session.disk.diskSpecific.entryCount = gpt.numberOfPartitionEntries.toNat
  uuid : a'.session.disk.diskSpecific.uuid = gpt.diskGUID
  alternate : a'.session.disk.diskSpecific.alternateLBA
    = if move ∨ grow then env.dev.length - 1 else backupLBA crc env.dev a.medium.store
  onDevice : OnDevice env.dev (backupLBA crc env.dev a.medium.store) 1
  medium : a'.medium = afterHeaders crc env.dev a.medium move grow
  quiet : ¬ AsksWhich crc env.dev a.medium.store → ¬ TooNew gpt → ¬ OffersGrowth env.dev gpt →
    a'.session.thrown = a.session.thrown

/-- How the answers decide about the repairs. -/
structure Decided (crc : List Byte → BitVec 32) (env : Env)
    (a : Attached GPTPartitionData GPTDiskData) (gpt : GuidPartitionTableHeader)
    (move grow : Bool) (t : ℕ) : Prop where
  first : (AsksWhich crc env.dev a.medium.store → t = a.session.thrown.length + 1) ∧
    (¬ AsksWhich crc env.dev a.medium.store → t = a.session.thrown.length)
  moved : move = true ↔
    OffersMove crc env.dev a.medium.store ∧ env.answers a.session.thrown.length = .fix
  grown : grow = true ↔ OffersGrowth env.dev gpt ∧
    env.answers (t + if TooNew gpt then 1 else 0) = .fix

/-- If nothing has been asked there was nothing to ask. -/
theorem Decided.silent {gpt : GuidPartitionTableHeader} {move grow : Bool} {t : ℕ}
    (h : Decided crc env a gpt move grow t)
    (hno : t + (if TooNew gpt then 1 else 0) + (if OffersGrowth env.dev gpt then 1 else 0)
      ≤ a.session.thrown.length) :
    ¬ AsksWhich crc env.dev a.medium.store ∧ ¬ TooNew gpt ∧ ¬ OffersGrowth env.dev gpt := by
  have hfirst : a.session.thrown.length ≤ t := by
    by_cases hask : AsksWhich crc env.dev a.medium.store
    · rw [h.first.1 hask]
      omega
    · exact (h.first.2 hask).ge
  refine ⟨fun hask => ?_, fun hnew => ?_, fun hgrow => ?_⟩
  · have := h.first.1 hask
    omega
  · rw [if_pos hnew] at hno
    omega
  · rw [if_pos hgrow] at hno
    omega

/-- Why the reading ends with the headers. -/
inductive HeaderRefused (crc : List Byte → BitVec 32) (env : Env)
    (a : Attached GPTPartitionData GPTDiskData) : Prop where
  | off (h : ¬ OnDevice env.dev (backupLBA crc env.dev a.medium.store) 1)
  | corrupt (h : chosenHeader crc env.dev a.medium.store = none)
  | cancelled (hask : AsksWhich crc env.dev a.medium.store)
      (h : env.answers a.session.thrown.length = .cancel)
  | range (gpt : GuidPartitionTableHeader)
      (h : chosenHeader crc env.dev a.medium.store = some gpt) (hno : ¬ InRange env.dev gpt)
  | tooNew (gpt : GuidPartitionTableHeader)
      (h : chosenHeader crc env.dev a.medium.store = some gpt) (hnew : TooNew gpt) (t : ℕ)
      (ht : (AsksWhich crc env.dev a.medium.store → t = a.session.thrown.length + 1) ∧
        (¬ AsksWhich crc env.dev a.medium.store → t = a.session.thrown.length))
      (hno : env.answers t ≠ .ignore)

/-- The contents can make the header phase stop the program. -/
def HeaderFault (crc : List Byte → BitVec 32) (dev : PedDevice) (store : Store) : Prop :=
  OnDevice dev (backupLBA crc dev store) 1 ∧ ∃ gpt, chosenHeader crc dev store = some gpt ∧
    (OffersMove crc dev store ∧ ¬ dev.sectorSize ≤ sizeofZero ∨
      InRange dev gpt ∧ (¬ EntryCountFits gpt ∨
        OffersGrowth dev gpt ∧ ¬ dev.sectorSize ≤ sizeofZero))

/-- **The header phase of `gpt_read`.** -/
theorem readHeader_spec (hss : 0 < env.dev.sectorSize) (hdev : 1 < env.dev.length) :
    Spec (fun _ => HeaderFault crc env.dev a.medium.store) (readHeader crc env) a fun r a' =>
      match r with
      | some (gpt, writeBack) => ∃ move grow t, writeBack = (move || grow) ∧
          HeaderRead crc env a gpt move grow a' ∧ Decided crc env a gpt move grow t ∧
          a'.session.thrown.length = t + (if TooNew gpt then 1 else 0)
            + if OffersGrowth env.dev gpt then 1 else 0
      | none => HeaderRefused crc env a ∧
          (OnDevice env.dev (backupLBA crc env.dev a.medium.store) 1 →
            OffersMove crc env.dev a.medium.store →
            env.answers a.session.thrown.length = .fix → env.dev.sectorSize ≤ sizeofZero) := by
  unfold readHeader
  refine Spec.bind ((gptReadHeaders_run hdev).mono (fun _ h => h.elim) ?_)
  rintro _ a₁ ⟨rfl, ha₁⟩
  have hthrown : a₁.session.thrown = a.session.thrown := by rw [ha₁]; rfl
  have hmedium : a₁.medium = a.medium := by rw [ha₁]; rfl
  have hdisk : a₁.session.disk
      = { a.session.disk with diskSpecific := a₁.session.disk.diskSpecific } := by rw [ha₁]; rfl
  have halt : a₁.session.disk.diskSpecific.alternateLBA
      = backupLBA crc env.dev a₁.medium.store := by rw [ha₁]; rfl
  clear ha₁
  by_cases hon : 0 ≤ backupLBA crc env.dev a.medium.store ∧
      backupLBA crc env.dev a.medium.store < env.dev.length
  case neg =>
    rw [if_neg hon]
    have hoff : ¬ OnDevice env.dev (backupLBA crc env.dev a.medium.store) 1 :=
      fun h => hon ⟨h.1, by have := h.2.2; omega⟩
    exact ⟨.off hoff, fun h => absurd h hoff⟩
  case pos =>
    rw [if_pos hon, ← hmedium]
    have hlba : OnDevice env.dev (backupLBA crc env.dev a₁.medium.store) 1 :=
      hmedium.symm ▸ ⟨hon.1, by omega, by omega⟩
    refine Spec.bind ((chooseHeader_spec hss hlba halt).mono (fun _ h => ?_) fun r a₂ hr => ?_)
    · obtain ⟨⟨pri, hpri, hrest⟩, hsize⟩ := h
      exact ⟨hlba, pri, by rw [chosenHeader, hpri]; rfl, Or.inl ⟨⟨pri, hpri, hrest⟩, hsize⟩⟩
    cases r with
    | none =>
        obtain ⟨-, -, hno | ⟨hask, hcancel⟩⟩ := hr
        · refine ⟨.corrupt (hmedium ▸ hno), fun _ ⟨pri, hpri, _⟩ => ?_⟩
          rw [chosenHeader, hpri] at hno
          exact nomatch hno
        · rw [hthrown] at hcancel
          exact ⟨.cancelled (hmedium ▸ hask) hcancel, fun _ _ hfix => nomatch hcancel.symm.trans hfix⟩
    | some r =>
        obtain ⟨gpt, move⟩ := r
        have hr : Chosen crc env a₁ gpt move a₂ := hr
        obtain ⟨lba', hvalid⟩ := valid_of_chosenHeader hr.header
        have halt₂ : a₂.session.disk.diskSpecific.alternateLBA
            = if move then env.dev.length - 1 else backupLBA crc env.dev a₁.medium.store := by
          rw [hr.disk]
        have hon₂ : OnDevice env.dev a₂.session.disk.diskSpecific.alternateLBA 1 := by
          rw [halt₂]
          split
          · exact ⟨by omega, by omega, by omega⟩
          · exact hlba
        have hfirst : 0 ≤ gpt.firstUsableLBA.toInt := (by omega : (0 : ℤ) ≤ 3).trans hvalid.first
        have hposition : (AsksWhich crc env.dev a.medium.store →
              a₂.session.thrown.length = a.session.thrown.length + 1) ∧
            (¬ AsksWhich crc env.dev a.medium.store →
              a₂.session.thrown.length = a.session.thrown.length) := by
          rw [← hmedium, ← hthrown]
          exact ⟨hr.asked, fun h => congrArg List.length (hr.quiet h)⟩
        refine Spec.bind ((parseHeader_spec hss hfirst hon₂).mono
          (fun _ h => ⟨hlba, gpt, hr.header, Or.inr h⟩) fun r a₃ hparsed => ?_)
        cases r with
        | none =>
            obtain ⟨-, -, hwhy⟩ := hparsed
            refine ⟨?_, fun _ hmove hfix => hr.small (hr.moved.mpr ⟨hmove, ?_⟩)⟩
            · rcases hwhy with hno | ⟨hnew, hno⟩
              · exact .range gpt (hmedium ▸ hr.header) hno
              · exact .tooNew gpt (hmedium ▸ hr.header) hnew _ hposition hno
            · rw [hthrown]
              exact hfix
        | some writeBack =>
            obtain ⟨grow, rfl, hp⟩ := hparsed
            refine ⟨move, grow, a₂.session.thrown.length, rfl, ?_, ?_⟩
            · refine ⟨hmedium ▸ hr.header, hp.range, hp.count, ⟨fun h => ?_, fun h => ?_⟩,
                fun h => h.elim hr.small hp.small, ?_, hp.start, hp.end, hp.entryCount, hp.uuid, ?_,
                hmedium ▸ hlba, ?_, fun h1 h2 h3 => ?_⟩
              · exact hmedium ▸ (hr.moved.mp h).1
              · exact (hp.grown.mp h).1
              · rw [hp.disk, hr.disk, hdisk]
              · rw [hp.alternate, halt₂, hmedium]
                cases move <;> cases grow <;> rfl
              · rw [hp.medium, hr.medium, halt₂, hmedium]
                rfl
              · rw [hp.quiet h2 h3, hr.quiet (hmedium ▸ h1), hthrown]
            · exact ⟨⟨hposition, hthrown ▸ hmedium ▸ hr.moved, hp.grown⟩, hp.asked⟩

end Phases

end Libparted
