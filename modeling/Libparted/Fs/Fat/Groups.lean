import Libparted.Fs.Fat.Duplicate

/-!
# What the write of a run does to the device

`group_write` is called on a run: a stretch of the buffer map that begins and ends with
a fragment to be written and whose targets increase.  This module shows that it writes
the fragments of the old buffer to their targets and leaves every other sector as it
is, whichever way it takes.

* The fast path writes the whole range from the first target to the last.  What it
  writes between the targets is the underlay, which it has just read from there
  (`IsRun.underlay`); so even a write that fails in the middle changes targets only
  (`quickGroupWrite_spec`).
* The slow path writes one target at a time (`slowGroupWrite_spec`).  Here every error
  is answered with `Ignore`, so that no target is given up; those at which a write has
  failed are on record, and the others hold their fragments.
* Without errors the two leave the same device (`quickGroupWrite_eq_slowGroupWrite`), and
  the fast one never leaves its buffers (`FitsBuffer.quickGroupWriteChecked`).
-/

namespace Libparted.Fat

open Library

variable {β : Type}

/-! ## Transfers of fragments -/

/-- The fragments of a file system fill its clusters. -/
structure FatSpecific.Cut (fs : FatSpecific) : Prop where
  sectors : fs.clusterSectors = fs.clusterFrags * fs.fragSectors
  count : fs.fragCount = fs.clusterCount * fs.clusterFrags

theorem FatOpContext.Grid.oldCut {ctx : FatOpContext} (h : ctx.Grid) : ctx.oldFs.Cut :=
  ⟨by rw [h.old_sectors, h.old_frag], h.old_count⟩

theorem FatOpContext.Grid.newCut {ctx : FatOpContext} (h : ctx.Grid) : ctx.newFs.Cut :=
  ⟨by rw [h.new_sectors, h.new_frag], h.new_count⟩

/-- What the writes need of a context: both buffers and the new file system are cut into
fragments of one size. -/
structure FatOpContext.Cut (ctx : FatOpContext) : Prop where
  frag_pos : 0 < ctx.fragSectors
  same_frag : ctx.newFs.fragSectors = ctx.fragSectors
  new : ctx.newFs.Cut

theorem FatOpContext.Grid.cut {ctx : FatOpContext} (h : ctx.Grid) : ctx.Cut :=
  ⟨h.frag_pos, h.new_frag, h.newCut⟩

section Transfers

variable {fs : FatSpecific} {frag count : ℤ}

/-- Fragments lie inside the partition. -/
theorem FatSpecific.Cut.inside (hfs : fs.Cut) (hle : frag + count ≤ fs.fragCount) :
    ¬ fs.geom.start + (frag * fs.fragSectors + fs.clusterOffset) + count * fs.fragSectors - 1
      > fs.geom.end := by
  have hfits := fs.fits
  rw [hfs.sectors] at hfits
  push_cast at hfits
  have : (frag + count) * fs.fragSectors ≤ fs.fragCount * fs.fragSectors :=
    mul_le_mul_of_nonneg_right hle (by positivity)
  rw [hfs.count] at this
  unfold PedGeometry.end
  linarith

theorem fatFragToSector_eq (h0 : 0 ≤ frag) (hlt : frag < fs.fragCount) :
    fatFragToSector fs frag = .ok (frag * fs.fragSectors + fs.clusterOffset) := by
  simp [fatFragToSector, pedAssert, h0, hlt]

theorem fatReadFragments_eq (hfs : fs.Cut) (disk : ℤ → β) (h0 : 0 ≤ frag) (hcount : 0 < count)
    (hle : frag + count ≤ fs.fragCount) :
    fatReadFragments fs disk frag count = .ok (some fun i => disk (fs.fragStart frag + i)) := by
  have hpos : 0 ≤ frag * fs.fragSectors + fs.clusterOffset := by positivity
  have hpos' : 0 ≤ count * fs.fragSectors := by positivity
  rw [fatReadFragments, fatFragToSector_eq h0 (by omega), ok_bind, pedGeometryRead, pedAssert,
    pedAssert, if_pos (by simpa using hpos), if_pos (by simpa using hpos')]
  rw [ok_bind, ok_bind, if_neg (hfs.inside hle)]
  simp only [pure_eq_ok, FatSpecific.fragStart, FatSpecific.clusterOfs]
  congr 2
  funext i
  congr 1
  ring

theorem writeRange_eq (hfs : fs.Cut) (h0 : 0 ≤ frag) (hcount : 0 < count)
    (hle : frag + count ≤ fs.fragCount) :
    writeRange fs frag count = .ok (some (fs.fragStart frag, count * fs.fragSectors)) := by
  have hpos : 0 ≤ frag * fs.fragSectors + fs.clusterOffset := by positivity
  have hpos' : 0 ≤ count * fs.fragSectors := by positivity
  rw [writeRange, fatFragToSector_eq h0 (by omega), ok_bind, pedAssert,
    pedAssert, if_pos (by simpa using hpos), if_pos (by simpa using hpos')]
  rw [ok_bind, ok_bind, if_neg (hfs.inside hle)]
  simp only [pure_eq_ok, FatSpecific.fragStart, FatSpecific.clusterOfs]
  congr 3
  ring

/-- A write of the fragments from `a` to `b`, seen at a sector of one of them. -/
theorem writeSectors_fragment {a b p : ℤ} {r : ℕ} (hp : a ≤ p) (hp' : p ≤ b)
    (hr : r < fs.fragSectors) (disk : ℤ → β) (data : ℕ → β) (written : ℤ → Bool) :
    writeSectors disk (fs.fragStart a) ((b - a + 1) * fs.fragSectors) data written
        (fs.fragStart p + r)
      = if written (fs.fragStart p + r) then data ((p - a).toNat * fs.fragSectors + r)
        else disk (fs.fragStart p + r) := by
  have hplace : fs.fragStart p + r - fs.fragStart a = ((p - a).toNat * fs.fragSectors + r : ℕ) := by
    push_cast
    rw [Int.toNat_of_nonneg (by omega)]
    unfold FatSpecific.fragStart
    ring
  have hlow : fs.fragStart a ≤ fs.fragStart p + r := by omega
  have hhigh : fs.fragStart p + r < fs.fragStart a + (b - a + 1) * fs.fragSectors := by
    have : (p - a + 1) * fs.fragSectors ≤ (b - a + 1) * fs.fragSectors :=
      mul_le_mul_of_nonneg_right (by omega) (by positivity)
    unfold FatSpecific.fragStart
    linarith [show (r : ℤ) < fs.fragSectors by exact_mod_cast hr]
  unfold writeSectors
  rw [hplace, Int.toNat_natCast]
  simp only [hlow, hhigh, true_and]

/-- The sectors of a range of fragments. -/
theorem exists_fragment_of_mem {a b x : ℤ} (hn : 0 < fs.fragSectors)
    (hlow : fs.fragStart a ≤ x) (hhigh : x < fs.fragStart a + (b - a + 1) * fs.fragSectors) :
    ∃ p, ∃ r : ℕ, a ≤ p ∧ p ≤ b ∧ r < fs.fragSectors ∧ x = fs.fragStart p + r := by
  obtain ⟨y, hy⟩ := Int.eq_ofNat_of_zero_le (show 0 ≤ x - fs.fragStart a by omega)
  have hsplit := Nat.div_add_mod y fs.fragSectors
  have hmod := Nat.mod_lt y hn
  refine ⟨a + (y / fs.fragSectors : ℕ), y % fs.fragSectors,
    le_add_of_nonneg_right (Int.natCast_nonneg _), ?_, hmod, ?_⟩
  · have hlt : (y : ℤ) < (b - a + 1) * fs.fragSectors := by omega
    have hq : ((y / fs.fragSectors : ℕ) : ℤ) * fs.fragSectors ≤ y := by
      exact_mod_cast Nat.div_mul_le_self y fs.fragSectors
    have := lt_of_mul_lt_mul_right (lt_of_le_of_lt hq hlt) (by positivity)
    omega
  · have hcast : (y : ℤ)
        = fs.fragSectors * (y / fs.fragSectors : ℕ) + (y % fs.fragSectors : ℕ) := by
      exact_mod_cast hsplit.symm
    unfold FatSpecific.fragStart at hy ⊢
    linarith [hcast, hy]

theorem writeGroup_spec (hfs : fs.Cut) (h0 : 0 ≤ frag) (hcount : 0 < count)
    (hle : frag + count ≤ fs.fragCount) (data : ℕ → β) (s : Duplication β) :
    Spec (fun _ => False) (writeGroup fs data frag count) s fun ok s' =>
      ok = (s.groupWrites.headD .done).status true ∧ s' =
        { s with
          disk := writeSectors s.disk (fs.fragStart frag) (count * fs.fragSectors) data
            (s.groupWrites.headD .done).written
          groupWrites := s.groupWrites.tail } := by
  unfold writeGroup
  rw [writeRange_eq hfs h0 hcount hle]
  refine spec_bind.mpr (spec_lift.mpr ⟨?_, by simp⟩)
  rintro _ ⟨rfl⟩
  exact ⟨rfl, rfl⟩

/-- Every error of a single write is answered with `Ignore`: none of them returns 0. -/
def Duplication.Ignoring (s : Duplication β) : Prop :=
  ∀ o ∈ s.singleWrites, o.status false = true

/-- A single write when errors are ignored: it succeeds, or an error goes on record. -/
theorem writeSingle_spec (hfs : fs.Cut) (h0 : 0 ≤ frag) (hlt : frag < fs.fragCount)
    (data : ℕ → β) (s : Duplication β) (hignore : s.Ignoring) :
    ∃ outcome : Outcome, ∃ failures, writeSingle fs data frag s = .ok (true,
      { s with
        disk := writeSectors s.disk (fs.fragStart frag) fs.fragSectors data outcome.written
        singleWrites := s.singleWrites.tail
        failures }) ∧
      (outcome = .done ∧ failures = s.failures ∨
        outcome ∈ s.singleWrites ∧ outcome ≠ .done ∧ failures = frag :: s.failures) := by
  have hhead : s.singleWrites.headD .done = .done ∨
      s.singleWrites.headD .done ∈ s.singleWrites := by
    cases s.singleWrites with
    | nil => exact .inl rfl
    | cons o os => exact .inr List.mem_cons_self
  have hstatus : (s.singleWrites.headD .done).status false = true := by
    rcases hhead with h | h
    · rw [h]; rfl
    · exact hignore _ h
  refine ⟨s.singleWrites.headD .done, ?failures, ?run, ?_⟩
  case run =>
    unfold writeSingle
    rw [writeRange_eq hfs h0 Int.one_pos (by omega), one_mul]
    refine Spec.eq_ok (spec_bind.mpr (spec_lift.mpr ⟨?_, by simp⟩))
    rintro _ ⟨rfl⟩
    refine ⟨hstatus, ?_⟩
    exact rfl
  · generalize s.singleWrites.headD .done = outcome at hhead
    cases outcome with
    | done => exact .inl ⟨rfl, rfl⟩
    | failed w => exact .inr ⟨by simpa using hhead, by simp, rfl⟩
    | ignored w => exact .inr ⟨by simpa using hhead, by simp, rfl⟩

end Transfers

/-! ## The copy loop -/

section Copy

variable {n first : ℕ} {map : ℕ → ℤ} {oldBuffer newBuffer : ℕ → β} {is : List ℕ}

/-- Where the copy loop puts fragment `i`. -/
def slotOf (n : ℕ) (map : ℕ → ℤ) (first i : ℕ) : ℕ := (map i - map first).toNat * n

/-- Two slots with a common place are one. -/
theorem slot_eq {a b r : ℕ} (hr : r < n) (h : a * n ≤ b * n + r) (h' : b * n + r < a * n + n) :
    a = b := by
  have h1 : a * n < (b + 1) * n := by rw [Nat.add_mul]; omega
  have h2 : b * n < (a + 1) * n := by rw [Nat.add_mul]; omega
  have := Nat.lt_of_mul_lt_mul_right h1
  have := Nat.lt_of_mul_lt_mul_right h2
  omega

theorem copyFragments_of_not_mem {k : ℕ}
    (h : ∀ i ∈ is, map i ≠ -1 → ¬ (slotOf n map first i ≤ k ∧ k < slotOf n map first i + n)) :
    copyFragments n map first oldBuffer is newBuffer k = newBuffer k := by
  induction is generalizing newBuffer with
  | nil => rfl
  | cons i is ih =>
    rw [copyFragments]
    split_ifs with hi
    · exact ih fun j hj => h j (List.mem_cons_of_mem _ hj)
    · rw [ih fun j hj => h j (List.mem_cons_of_mem _ hj), storeAt]
      exact if_neg (h i List.mem_cons_self hi)

theorem copyFragments_of_mem {i r : ℕ} (hi : i ∈ is) (hne : map i ≠ -1) (hr : r < n)
    (huniq : ∀ j ∈ is, map j ≠ -1 → (map j - map first).toNat = (map i - map first).toNat → j = i) :
    copyFragments n map first oldBuffer is newBuffer (slotOf n map first i + r)
      = oldBuffer (i * n + r) := by
  induction is generalizing newBuffer with
  | nil => simp at hi
  | cons j is ih =>
    rw [copyFragments]
    by_cases htail : i ∈ is
    · have huniq' := fun j' hj' => huniq j' (List.mem_cons_of_mem _ hj')
      split_ifs
      · exact ih htail huniq'
      · exact ih htail huniq'
    · obtain rfl : i = j := (List.mem_cons.mp hi).resolve_right htail
      rw [if_neg hne, copyFragments_of_not_mem, storeAt]
      · rw [if_pos ⟨Nat.le_add_right _ _, Nat.add_lt_add_left hr _⟩]
        congr 1
        unfold slotOf
        omega
      · rintro j' hj' hne' ⟨hlow, hhigh⟩
        have := huniq j' (List.mem_cons_of_mem _ hj') hne' (slot_eq hr hlow hhigh)
        exact htail (this ▸ hj')

end Copy

/-! ## The fast path -/

/-- What the write of a run may change: the sectors of its targets.  Those of `written`
hold the fragments of the old buffer, unless a single write has failed there. -/
structure GroupEffect (ctx : FatOpContext) (first last : ℕ) (written : ℕ → Prop)
    (s s' : Duplication β) : Prop where
  fat : s'.fat = s.fat
  remap : s'.remap = s.remap
  bufferMap : s'.bufferMap = s.bufferMap
  bufferOffset : s'.bufferOffset = s.bufferOffset
  oldBuffer : s'.oldBuffer = s.oldBuffer
  suffix : s'.singleWrites <:+ s.singleWrites
  failures_sub : ∀ p ∈ s.failures, p ∈ s'.failures
  failures_new : ∀ p ∈ s'.failures, p ∈ s.failures ∨
    Targeted s.bufferMap first last p ∧ ∃ o ∈ s.singleWrites, o ≠ .done
  keep : ∀ x, (∀ p, Targeted s.bufferMap first last p → ¬ ctx.newFs.InFragment p x) →
    s'.disk x = s.disk x
  data : ∀ i, first ≤ i → i ≤ last → s.bufferMap i ≠ -1 → written i →
    s.bufferMap i ∉ s'.failures → ∀ r < ctx.fragSectors,
      s'.disk (ctx.newFs.fragStart (s.bufferMap i) + r) = s.oldBuffer (i * ctx.fragSectors + r)

section Fast

variable {ctx : FatOpContext} {first last : ℕ} {s : Duplication β}

/-- Reading the underlay always succeeds, and puts every fragment of the range that is
not a target in its place in the new buffer. -/
theorem quickGroupWriteReadUnderlay_spec (hcut : ctx.Cut) (hrun : IsRun s.bufferMap first last)
    (hlast : s.bufferMap last < ctx.newFs.fragCount) :
    Spec (fun _ => False) (quickGroupWriteReadUnderlay ctx first last) s fun ok s' =>
      ok = true ∧ (∃ newBuffer, s' = { s with newBuffer }) ∧
        ∀ p, s.bufferMap first ≤ p → p ≤ s.bufferMap last →
          ¬ Targeted s.bufferMap first last p → ∀ r < ctx.fragSectors,
            s'.newBuffer ((p - s.bufferMap first).toNat * ctx.fragSectors + r)
              = s.disk (ctx.newFs.fragStart p + r) := by
  unfold quickGroupWriteReadUnderlay
  refine spec_bind.mpr (spec_get.mpr (Spec.ite (fun hnone => ?_) fun hsome => ?_))
  · refine spec_pure.mpr ⟨rfl, ⟨s.newBuffer, rfl⟩, fun p hp hp' hnot => ?_⟩
    exact absurd (hrun.underlay.1 hnone p hp hp') hnot
  · obtain ⟨h1, h2, h3, h4⟩ := hrun.underlay.2 hsome
    have h0 := hrun.nonneg first le_rfl hrun.le hrun.first_ne
    set fu := getFirstUnderlay s.bufferMap first last with hfu
    set lu := getLastUnderlay s.bufferMap first last with hlu
    refine spec_bind.mpr (Spec.lift (fails_pedAssert (by simpa using h2)) fun _ _ => ?_)
    have hread := fatReadFragments_eq hcut.new s.disk (show 0 ≤ fu by omega)
      (show 0 < lu - fu + 1 by omega) (by omega)
    simp only [hread]
    refine spec_bind.mpr (spec_lift.mpr ⟨?_, by simp⟩)
    rintro _ ⟨rfl⟩
    refine spec_bind.mpr (spec_set.mpr (spec_pure.mpr ⟨rfl, ⟨_, rfl⟩, ?_⟩))
    intro p hp hp' hnot r hr
    obtain ⟨hlow, hhigh⟩ := h4 p hp hp' hnot
    -- the place of fragment `p`, counted from the place of the first underlay
    obtain ⟨a, ha⟩ := Int.eq_ofNat_of_zero_le (show 0 ≤ fu - s.bufferMap first by omega)
    obtain ⟨b, hb⟩ := Int.eq_ofNat_of_zero_le (show 0 ≤ p - fu by omega)
    obtain ⟨c, hc⟩ := Int.eq_ofNat_of_zero_le (show 0 ≤ lu - p by omega)
    have hp_eq : (p - s.bufferMap first).toNat = a + b := by omega
    have hlen : (lu - fu + 1).toNat = b + c + 1 := by omega
    have hlen_mul : r + b * ctx.fragSectors < (b + c + 1) * ctx.fragSectors := by
      calc r + b * ctx.fragSectors < ctx.fragSectors + b * ctx.fragSectors := by omega
        _ ≤ (b + c + 1) * ctx.fragSectors := by
          rw [show (b + c + 1) * ctx.fragSectors
            = ctx.fragSectors + b * ctx.fragSectors + c * ctx.fragSectors by ring]
          exact Nat.le_add_right _ _
    simp only [storeAt, ha, hlen, hp_eq, Int.toNat_natCast, Nat.add_mul]
    rw [if_pos (by constructor <;> nlinarith)]
    congr 1
    have hfrag : p = fu + b := by omega
    rw [show a * ctx.fragSectors + b * ctx.fragSectors + r - a * ctx.fragSectors
      = b * ctx.fragSectors + r by omega, hfrag]
    unfold FatSpecific.fragStart
    rw [hcut.same_frag]
    push_cast
    ring

/-- **The fast path.**  Whether or not the write succeeds, only targets change. -/
theorem quickGroupWrite_spec (hcut : ctx.Cut) (hrun : IsRun s.bufferMap first last)
    (hlast : s.bufferMap last < ctx.newFs.fragCount) :
    Spec (fun _ => False) (quickGroupWrite ctx first last) s fun ok s' =>
      ok = (s.groupWrites.headD .done).status true ∧
        GroupEffect ctx first last (fun _ => ok = true) s s' := by
  unfold quickGroupWrite
  refine spec_bind.mpr (Spec.lift (fails_pedAssert (by simpa using hrun.le)) fun _ _ => ?_)
  refine (quickGroupWriteReadUnderlay_spec hcut hrun hlast).seq fun ok s₁ hread => ?_
  obtain ⟨rfl, ⟨newBuffer, rfl⟩, hunder⟩ := hread
  refine spec_bind.mpr (spec_get.mpr (spec_bind.mpr (spec_set.mpr ?_)))
  have h0 := hrun.nonneg first le_rfl hrun.le hrun.first_ne
  have hle := hrun.first_le hrun.le le_rfl hrun.last_ne
  refine (writeGroup_spec hcut.new h0 (by dsimp only; omega) (by dsimp only; omega) _ _).imp ?_
  rintro ok _ ⟨hok, rfl⟩
  dsimp only at hok
  refine ⟨hok, ?_⟩
  generalize s.groupWrites.headD .done = outcome at *
  have hn : ctx.newFs.fragSectors = ctx.fragSectors := hcut.same_frag
  have hnpos : 0 < ctx.newFs.fragSectors := by rw [hn]; exact hcut.frag_pos
  refine ⟨rfl, rfl, rfl, rfl, rfl, List.suffix_rfl, fun _ h => h, fun _ h => .inl h,
    fun x hx => ?_, ?_⟩
  · -- between the targets the write puts back what was there
    by_cases hin : ctx.newFs.fragStart (s.bufferMap first) ≤ x ∧ x < ctx.newFs.fragStart
        (s.bufferMap first) + (s.bufferMap last - s.bufferMap first + 1) * ctx.newFs.fragSectors
    · obtain ⟨p, r, hp, hp', hr, rfl⟩ := exists_fragment_of_mem hnpos hin.1 hin.2
      have hnot : ¬ Targeted s.bufferMap first last p := fun ht =>
        hx p ht ⟨by omega, by omega⟩
      have hcopy : copyFragments ctx.fragSectors s.bufferMap first s.oldBuffer
          (List.range' first (last + 1 - first)) newBuffer
          ((p - s.bufferMap first).toNat * ctx.fragSectors + r)
            = s.disk (ctx.newFs.fragStart p + r) := by
        rw [copyFragments_of_not_mem]
        · exact hunder p hp hp' hnot r (by omega)
        · rintro i hi hne ⟨hlow, hhigh⟩
          rw [List.mem_range'_1] at hi
          have hslot := slot_eq (hn ▸ hr) hlow hhigh
          have := hrun.first_le (i := i) (by omega) (by omega) hne
          exact hnot ⟨i, by omega, by omega, by omega, by omega⟩
      change writeSectors s.disk _ _ _ _ _ = _
      rw [writeSectors_fragment hp hp' hr, hn, hcopy, ite_self]
    · simp only [writeSectors]
      rw [if_neg fun h => hin ⟨h.1, h.2.1⟩]
  · intro i hi hi' hne hcomplete _ r hr
    have hdone : outcome.written = fun _ => true := by
      rw [hcomplete] at hok
      cases outcome with
      | done => rfl
      | failed w => simp [Outcome.status] at hok
      | ignored w => simp [Outcome.status] at hok
    have hp := hrun.first_le hi hi' hne
    have hp' := hrun.le_last hi hi' hne
    change writeSectors s.disk _ _ _ _ _ = _
    rw [writeSectors_fragment hp hp' (hn ▸ hr), hn, hdone, if_pos rfl]
    refine copyFragments_of_mem (List.mem_range'_1.mpr (by omega)) hne hr fun j hj hnej heq => ?_
    rw [List.mem_range'_1] at hj
    dsimp only at heq
    have := hrun.first_le (i := j) (by omega) (by omega) hnej
    exact hrun.inj (by omega) (by omega) hi hi' hnej (by omega)

end Fast

/-! ## The slow path -/

section Slow

variable {ctx : FatOpContext} {first last : ℕ} {s : Duplication β}

/-- One turn is one write when errors are ignored. -/
theorem slowWrite_eq {i : ℕ} {t : Duplication β} (hne : s.bufferMap i ≠ -1)
    (hwrite : writeSingle ctx.newFs (fun k => s.oldBuffer (i * ctx.fragSectors + k))
      (s.bufferMap i) s = .ok (true, t)) : slowWrite ctx i s = .ok (true, t) := by
  refine Spec.eq_ok ?_
  unfold slowWrite
  refine spec_bind.mpr (spec_get.mpr (Spec.ite (fun h => absurd h hne) fun _ => ?_))
  unfold slowWriteFragment
  refine spec_bind.mpr (spec_get.mpr (spec_bind.mpr ?_))
  rw [spec_of_ok hwrite]
  exact ⟨rfl, rfl⟩

theorem Duplication.Ignoring.suffix {s t : Duplication β} (h : s.Ignoring)
    (hsuffix : t.singleWrites <:+ s.singleWrites) : t.Ignoring :=
  fun o ho => h o (hsuffix.subset ho)

/-- One turn adds one target to those that are written. -/
theorem slowWrite_spec (hcut : ctx.Cut) (hrun : IsRun s.bufferMap first last)
    (hlast : s.bufferMap last < ctx.newFs.fragCount) (hignore : s.Ignoring) {i : ℕ}
    (hi : first ≤ i) (hi' : i ≤ last) {t : Duplication β}
    (ht : GroupEffect ctx first last (· < i) s t) :
    Spec (fun _ => False) (slowWrite ctx i) t fun ok t' =>
      ok = true ∧ GroupEffect ctx first last (· < i + 1) s t' := by
  have hn := hcut.same_frag
  have hmap := ht.bufferMap
  by_cases hne : s.bufferMap i = -1
  · have hskip : slowWrite ctx i t = .ok (true, t) := by
      refine Spec.eq_ok (spec_bind.mpr (spec_get.mpr (Spec.ite (fun _ => ⟨rfl, rfl⟩) ?_)))
      rw [hmap]
      exact fun h => absurd hne h
    rw [spec_of_ok hskip]
    refine ⟨rfl, { ht with data := fun j hj hj' hnej hlt => ht.data j hj hj' hnej ?_ }⟩
    exact (Nat.lt_succ_iff_lt_or_eq.mp hlt).resolve_right fun h => hnej (h ▸ hne)
  · obtain ⟨outcome, failures, hwrite, hrecord⟩ := writeSingle_spec hcut.new
      (hrun.nonneg i hi hi' hne) (lt_of_le_of_lt (hrun.le_last hi hi' hne) hlast)
      (fun k => t.oldBuffer (i * ctx.fragSectors + k)) t (hignore.suffix ht.suffix)
    rw [← hmap] at hwrite hne
    rw [spec_of_ok (slowWrite_eq hne hwrite)]
    rw [hmap] at hne
    have hsub : ∀ p ∈ t.failures, p ∈ failures := by
      intro p hp
      rcases hrecord with ⟨-, rfl⟩ | ⟨-, -, rfl⟩
      · exact hp
      · exact List.mem_cons_of_mem _ hp
    refine ⟨rfl, ht.fat, ht.remap, hmap, ht.bufferOffset, ht.oldBuffer,
      (List.tail_suffix _).trans ht.suffix, fun p hp => hsub p (ht.failures_sub p hp), ?_,
      fun x hx => ?_, ?_⟩
    · intro p hp
      dsimp only at hp
      rcases hrecord with ⟨-, rfl⟩ | ⟨hmem, hfail, rfl⟩
      · exact ht.failures_new p hp
      · rcases List.mem_cons.mp hp with rfl | hp
        · exact .inr ⟨⟨i, hi, hi', rfl, hne⟩, outcome, ht.suffix.subset hmem, hfail⟩
        · exact ht.failures_new p hp
    · have hnot := hx (s.bufferMap i) ⟨i, hi, hi', rfl, hne⟩
      simp only [writeSectors, hmap]
      rw [if_neg fun h => hnot ⟨h.1, h.2.1⟩]
      exact ht.keep x hx
    · intro j hj hj' hnej hlt hclean r hr
      have hin : ctx.newFs.InFragment (s.bufferMap j)
          (ctx.newFs.fragStart (s.bufferMap j) + r) := ⟨by omega, by rw [hn]; omega⟩
      simp only [writeSectors, hmap, ht.oldBuffer]
      split_ifs with h
      · -- the fragment just written
        obtain rfl := hrun.inj hj hj' hi hi' hnej
          (FatSpecific.fragment_disjoint hin ⟨h.1, h.2.1⟩)
        congr 1
        omega
      · refine ht.data j hj hj' hnej ((Nat.lt_succ_iff_lt_or_eq.mp hlt).resolve_right ?_)
          (fun hmem => hclean (hsub _ hmem)) r hr
        rintro rfl
        rcases hrecord with ⟨rfl, -⟩ | ⟨-, -, rfl⟩
        · exact h ⟨hin.1, hin.2, rfl⟩
        · exact hclean List.mem_cons_self

/-- **The slow path**, when errors are ignored. -/
theorem slowGroupWrite_spec (hcut : ctx.Cut) (hrun : IsRun s.bufferMap first last)
    (hlast : s.bufferMap last < ctx.newFs.fragCount) (hignore : s.Ignoring) :
    Spec (fun _ => False) (slowGroupWrite ctx first last) s fun ok s' =>
      ok = true ∧ GroupEffect ctx first last (fun _ => True) s s' := by
  have hle := hrun.le
  unfold slowGroupWrite
  refine spec_bind.mpr (Spec.lift (fails_pedAssert (by simpa using hle)) fun _ _ => ?_)
  have hstart : GroupEffect ctx first last (· < first) s s :=
    ⟨rfl, rfl, rfl, rfl, rfl, List.suffix_rfl, fun _ h => h, fun _ h => .inl h, fun _ _ => rfl,
      fun i hi _ _ hlt => by omega⟩
  refine (Spec.allOf_range_true (I := fun n => GroupEffect ctx first last (· < n) s)
    (fun i t hi hi' ht => slowWrite_spec hcut hrun hlast hignore hi (by omega) ht)
    hstart).imp fun ok s' ⟨hok, h⟩ => ⟨hok, ?_⟩
  exact { h with data := fun i hi hi' hne _ => h.data i hi hi' hne (by omega) }

end Slow

/-! ## Both paths -/

/-- **The write of a run**, when errors are ignored: the targets hold their fragments, but
for those on record, and the remap table knows. -/
theorem groupWrite_spec {ctx : FatOpContext} {first last : ℕ} {s : Duplication β}
    (hcut : ctx.Cut) (hrun : IsRun s.bufferMap first last)
    (hlast : s.bufferMap last < ctx.newFs.fragCount) (hignore : s.Ignoring) :
    Spec (fun _ => True) (groupWrite ctx first last) s fun ok s' => ok = true →
      ∃ t, GroupEffect ctx first last (fun _ => True) s t ∧
        s' = { t with
          remap := fun f =>
            if s.bufferOffset + first ≤ f ∧ f ≤ s.bufferOffset + last
                ∧ s.bufferMap (f - s.bufferOffset) ≠ -1 then s.bufferMap (f - s.bufferOffset)
            else s.remap f } := by
  have hupdate {t : Duplication β} (ht : GroupEffect ctx first last (fun _ => True) s t) :
      Spec (fun _ => True) (do updateRemap first last; return true) t fun ok s' => ok = true →
        ∃ t, GroupEffect ctx first last (fun _ => True) s t ∧
          s' = { t with
            remap := fun f =>
              if s.bufferOffset + first ≤ f ∧ f ≤ s.bufferOffset + last
                  ∧ s.bufferMap (f - s.bufferOffset) ≠ -1 then s.bufferMap (f - s.bufferOffset)
              else s.remap f } := by
    refine spec_bind.mpr (spec_modify.mpr (spec_pure.mpr fun _ => ⟨t, ht, ?_⟩))
    rw [ht.bufferMap, ht.bufferOffset, ht.remap]
  unfold groupWrite
  refine ((quickGroupWrite_spec hcut hrun hlast).mono (fun _ h => h.elim) fun _ _ h => h).seq
    fun ok s₁ ⟨_, hquick⟩ => ?_
  cases ok with
  | true =>
    exact hupdate { hquick with data := fun i hi hi' hne _ => hquick.data i hi hi' hne rfl }
  | false =>
    have hmap := hquick.bufferMap
    refine ((slowGroupWrite_spec hcut (by rw [hmap]; exact hrun) (by rw [hmap]; exact hlast)
      (hignore.suffix hquick.suffix)).mono (fun _ h => h.elim) fun _ _ h => h).seq
      fun ok s₂ ⟨hok, hslow⟩ => ?_
    cases ok with
    | false => exact fun h => absurd h Bool.false_ne_true
    | true =>
      refine hupdate ⟨hslow.fat.trans hquick.fat, hslow.remap.trans hquick.remap,
        hslow.bufferMap.trans hmap, hslow.bufferOffset.trans hquick.bufferOffset,
        hslow.oldBuffer.trans hquick.oldBuffer, hslow.suffix.trans hquick.suffix,
        fun p hp => hslow.failures_sub p (hquick.failures_sub p hp), fun p hp => ?_,
        fun x hx => ?_, ?_⟩
      · rcases hslow.failures_new p hp with hp | ⟨ht, o, ho, hfail⟩
        · exact hquick.failures_new p hp
        · rw [hmap] at ht
          exact .inr ⟨ht, o, hquick.suffix.subset ho, hfail⟩
      · rw [hslow.keep x (by rw [hmap]; exact hx), hquick.keep x hx]
      · intro i hi hi' hne _ hclean r hr
        have := hslow.data i hi hi' (by rw [hmap]; exact hne) trivial
          (by rw [hmap]; exact hclean) r hr
        rwa [hmap, hquick.oldBuffer] at this

/-! ## The buffers

The two buffers hold `BUFFER_SIZE` sectors each.  Here the fast path is read once more with
every access to a buffer tested: what `quick_group_write` reads and writes there. -/

/-- An access to `count` sectors of a buffer from `pos` on. -/
def inBuffer (pos count : ℤ) : Except Fault Unit :=
  if 0 ≤ pos ∧ pos + count ≤ bufferSize then .ok ()
  else .error (.undefined "access outside of the buffer")

/-- `quick_group_write_read_underlay`, which reads into the new buffer. -/
def quickGroupWriteReadUnderlayChecked (ctx : FatOpContext) (first last : ℕ) : DupM β Bool := do
  let s ← get
  let firstUnderlay := getFirstUnderlay s.bufferMap first last
  if firstUnderlay = -1 then return true
  let lastUnderlay := getLastUnderlay s.bufferMap first last
  pedAssert (firstUnderlay ≤ lastUnderlay) "first_underlay <= last_underlay"
  let underlayLength := lastUnderlay - firstUnderlay + 1
  inBuffer ((firstUnderlay - s.bufferMap first) * ctx.fragSectors)
    (underlayLength * ctx.fragSectors)
  match ← liftM (fatReadFragments ctx.newFs s.disk firstUnderlay underlayLength) with
  | none => return false
  | some data =>
    set { s with
      newBuffer := storeAt s.newBuffer
        ((firstUnderlay - s.bufferMap first).toNat * ctx.fragSectors)
        (underlayLength.toNat * ctx.fragSectors) data }
    return true

/-- The copy loop, which reads from the old buffer and writes to the new one. -/
def copyFragmentsChecked (fragSectors : ℕ) (map : ℕ → ℤ) (first : ℕ) (oldBuffer : ℕ → β) :
    List ℕ → (ℕ → β) → Except Fault (ℕ → β)
  | [], newBuffer => return newBuffer
  | i :: is, newBuffer => do
    if map i = -1 then copyFragmentsChecked fragSectors map first oldBuffer is newBuffer
    else
      inBuffer ((map i - map first) * fragSectors) fragSectors
      inBuffer ((i : ℤ) * fragSectors) fragSectors
      copyFragmentsChecked fragSectors map first oldBuffer is
        (storeAt newBuffer ((map i - map first).toNat * fragSectors) fragSectors
          fun k => oldBuffer (i * fragSectors + k))

/-- `quick_group_write`, which at last writes from the new buffer. -/
def quickGroupWriteChecked (ctx : FatOpContext) (first last : ℕ) : DupM β Bool := do
  pedAssert (first ≤ last) "first <= last"
  if ← quickGroupWriteReadUnderlayChecked ctx first last then
    let s ← get
    let newBuffer ← liftM (copyFragmentsChecked ctx.fragSectors s.bufferMap first s.oldBuffer
      (List.range' first (last + 1 - first)) s.newBuffer)
    set { s with newBuffer }
    let activeLength := s.bufferMap last - s.bufferMap first + 1
    inBuffer 0 (activeLength * ctx.fragSectors)
    writeGroup ctx.newFs newBuffer (s.bufferMap first) activeLength
  else return false

section Buffers

variable {ctx : FatOpContext} {first last : ℕ} {s : Duplication β}

/-- The run fits the buffers: its positions are positions of the map, and its targets span
no more fragments than a buffer holds. -/
structure FitsBuffer (ctx : FatOpContext) (map : ℕ → ℤ) (first last : ℕ) : Prop where
  run : IsRun map first last
  position : last < ctx.bufferFrags
  span : map last - map first + 1 ≤ ctx.bufferFrags
  sectors : ctx.bufferFrags * ctx.fragSectors ≤ bufferSize

/-- A stretch of fragments of the buffer. -/
theorem FitsBuffer.inBuffer {map : ℕ → ℤ} (h : FitsBuffer ctx map first last) (a count : ℤ)
    (ha : 0 ≤ a) (hcount : a + count ≤ ctx.bufferFrags) :
    Fat.inBuffer (a * ctx.fragSectors) (count * ctx.fragSectors) = .ok () := by
  refine if_pos ⟨by positivity, ?_⟩
  calc a * ctx.fragSectors + count * ctx.fragSectors = (a + count) * ctx.fragSectors := by ring
    _ ≤ ctx.bufferFrags * ctx.fragSectors := by gcongr
    _ ≤ bufferSize := by exact_mod_cast h.sectors

theorem FitsBuffer.copyFragmentsChecked {map : ℕ → ℤ} (h : FitsBuffer ctx map first last)
    (oldBuffer : ℕ → β) {is : List ℕ} (his : ∀ i ∈ is, first ≤ i ∧ i ≤ last)
    (newBuffer : ℕ → β) :
    copyFragmentsChecked ctx.fragSectors map first oldBuffer is newBuffer
      = .ok (copyFragments ctx.fragSectors map first oldBuffer is newBuffer) := by
  induction is generalizing newBuffer with
  | nil => rfl
  | cons i is ih =>
    have ih' := ih fun j hj => his j (List.mem_cons_of_mem _ hj)
    obtain ⟨hi, hi'⟩ := his i List.mem_cons_self
    rw [Fat.copyFragmentsChecked, copyFragments]
    split_ifs with hne
    · exact ih' _
    · have hposition := h.position
      have hspan := h.span
      have hlow := h.run.first_le hi hi' hne
      have hhigh := h.run.le_last hi hi' hne
      have hnew := h.inBuffer (map i - map first) 1 (by omega) (by omega)
      have hold := h.inBuffer i 1 (by omega) (by omega)
      rw [one_mul] at hnew hold
      rw [hnew, ok_bind, hold, ok_bind]
      exact ih' _

theorem FitsBuffer.readUnderlayChecked (h : FitsBuffer ctx s.bufferMap first last) :
    quickGroupWriteReadUnderlayChecked ctx first last s
      = quickGroupWriteReadUnderlay ctx first last s := by
  have hget : (get : DupM β _) s = .ok (s, s) := rfl
  unfold quickGroupWriteReadUnderlayChecked quickGroupWriteReadUnderlay
  rw [run_bind_ok hget, run_bind_ok hget]
  by_cases hnone : getFirstUnderlay s.bufferMap first last = -1
  · rw [if_pos hnone, if_pos hnone]
  · obtain ⟨h1, h2, h3, -⟩ := h.run.underlay.2 hnone
    have hspan := h.span
    have hassert : (liftM (pedAssert (getFirstUnderlay s.bufferMap first last
        ≤ getLastUnderlay s.bufferMap first last) "first_underlay <= last_underlay") :
          DupM β Unit) s = .ok ((), s) := run_lift_ok (if_pos (by simpa using h2))
    rw [if_neg hnone, if_neg hnone, run_bind_ok hassert, run_bind_ok hassert]
    exact run_bind_ok (run_lift_ok (h.inBuffer _ _ (by omega) (by omega)))

/-- No access leaves the buffers: the tests change nothing. -/
theorem FitsBuffer.quickGroupWriteChecked (h : FitsBuffer ctx s.bufferMap first last)
    (hcut : ctx.Cut) (hlast : s.bufferMap last < ctx.newFs.fragCount) :
    quickGroupWriteChecked ctx first last s = quickGroupWrite ctx first last s := by
  have hassert : (liftM (pedAssert (first ≤ last) "first <= last") : DupM β Unit) s
      = .ok ((), s) := run_lift_ok (if_pos (by simpa using h.run.le))
  obtain ⟨ok, s₁, hread, rfl, ⟨newBuffer, rfl⟩, -⟩ :=
    (quickGroupWriteReadUnderlay_spec hcut h.run hlast).exists_ok
  have hle := h.run.first_le h.run.le le_rfl h.run.last_ne
  have hspan := h.span
  have hactive := h.inBuffer 0 (s.bufferMap last - s.bufferMap first + 1) le_rfl (by omega)
  rw [zero_mul] at hactive
  have hrange : ∀ i ∈ List.range' first (last + 1 - first), first ≤ i ∧ i ≤ last := fun i hi => by
    rw [List.mem_range'_1] at hi
    omega
  have hcopy := h.copyFragmentsChecked s.oldBuffer hrange newBuffer
  unfold Fat.quickGroupWriteChecked quickGroupWrite
  rw [run_bind_ok hassert, run_bind_ok hassert, run_bind_ok (h.readUnderlayChecked.trans hread),
    run_bind_ok hread]
  have hget (t : Duplication β) : (get : DupM β _) t = .ok (t, t) := rfl
  simp only [if_true]
  rw [run_bind_ok (hget _), run_bind_ok (hget _), run_bind_ok (run_lift_ok hcopy)]
  have hset (t u : Duplication β) : (set t : DupM β PUnit) u = .ok (⟨⟩, t) := rfl
  rw [run_bind_ok (hset _ _), run_bind_ok (hset _ _), run_bind_ok (run_lift_ok hactive)]

end Buffers

/-! ## Both paths agree -/

/-- No write fails, and none has failed. -/
structure Duplication.Quiet (s : Duplication β) : Prop where
  group : ∀ o ∈ s.groupWrites, o = .done
  single : ∀ o ∈ s.singleWrites, o = .done
  failures : s.failures = []

/-- The contents a device has once a run is written: fragment `i` of the old buffer at its
target, and every other sector as before. -/
structure Written (ctx : FatOpContext) (first last : ℕ) (s : Duplication β) (disk : ℤ → β) :
    Prop where
  data : ∀ i, first ≤ i → i ≤ last → s.bufferMap i ≠ -1 → ∀ r < ctx.fragSectors,
    disk (ctx.newFs.fragStart (s.bufferMap i) + r) = s.oldBuffer (i * ctx.fragSectors + r)
  keep : ∀ x, (∀ p, Targeted s.bufferMap first last p → ¬ctx.newFs.InFragment p x) →
    disk x = s.disk x

section Agree

variable {ctx : FatOpContext} {first last : ℕ} {s : Duplication β}

/-- There is only one such device. -/
theorem Written.eq (hcut : ctx.Cut) {disk disk' : ℤ → β} (h : Written ctx first last s disk)
    (h' : Written ctx first last s disk') : disk = disk' := by
  funext x
  by_cases htarget : ∃ p, Targeted s.bufferMap first last p ∧ ctx.newFs.InFragment p x
  · obtain ⟨_, ⟨i, hi, hi', rfl, hne⟩, hlow, hhigh⟩ := htarget
    obtain ⟨r, hr⟩ := Int.eq_ofNat_of_zero_le (sub_nonneg.mpr hlow)
    obtain rfl : x = ctx.newFs.fragStart (s.bufferMap i) + r := by omega
    have hlt : r < ctx.fragSectors := by
      rw [← hcut.same_frag]
      omega
    rw [h.data i hi hi' hne r hlt, h'.data i hi hi' hne r hlt]
  · have hnot : ∀ p, Targeted s.bufferMap first last p → ¬ctx.newFs.InFragment p x :=
      fun p hp hx => htarget ⟨p, hp, hx⟩
    rw [h.keep x hnot, h'.keep x hnot]

theorem GroupEffect.written {s' : Duplication β} (hquiet : s.Quiet)
    (h : GroupEffect ctx first last (fun _ => True) s s') : Written ctx first last s s'.disk := by
  refine ⟨fun i hi hi' hne r hr => h.data i hi hi' hne trivial (fun hmem => ?_) r hr, h.keep⟩
  rcases h.failures_new _ hmem with hold | ⟨-, o, ho, hfail⟩
  · rw [hquiet.failures] at hold
    cases hold
  · exact hfail (hquiet.single o ho)

/-- **The fast and the slow writer do the same.**  Without errors both succeed on every run
that fits the buffers and leave the same device, on which the fragments are at their targets
and nothing else has changed; and the fast one stays inside its buffers. -/
theorem quickGroupWrite_eq_slowGroupWrite (hcut : ctx.Cut)
    (hfits : FitsBuffer ctx s.bufferMap first last)
    (hlast : s.bufferMap last < ctx.newFs.fragCount) (hquiet : s.Quiet) :
    ∃ quick slow : Duplication β,
      quickGroupWrite ctx first last s = .ok (true, quick) ∧
      quickGroupWriteChecked ctx first last s = .ok (true, quick) ∧
      slowGroupWrite ctx first last s = .ok (true, slow) ∧
      quick.disk = slow.disk ∧ Written ctx first last s quick.disk := by
  have hignore : s.Ignoring := fun o ho => by rw [hquiet.single o ho]; rfl
  have hdone : s.groupWrites.headD .done = .done := by
    cases hgroup : s.groupWrites with
    | nil => rfl
    | cons o os => exact hquiet.group o (hgroup ▸ List.mem_cons_self)
  obtain ⟨ok, quick, hquick, hok, heffect⟩ :=
    (quickGroupWrite_spec hcut hfits.run hlast).exists_ok
  obtain ⟨_, slow, hslow, rfl, hslowEffect⟩ :=
    (slowGroupWrite_spec hcut hfits.run hlast hignore).exists_ok
  rw [hdone] at hok
  obtain rfl : ok = true := hok
  have hwritten := GroupEffect.written hquiet
    { heffect with data := fun i hi hi' hne _ => heffect.data i hi hi' hne rfl }
  exact ⟨quick, slow, hquick, (hfits.quickGroupWriteChecked hcut hlast).trans hquick, hslow,
    hwritten.eq hcut (hslowEffect.written hquiet), hwritten⟩

/-- Eight clusters of two sectors behind four sectors of metadata. -/
def eightClusters : FatSpecific :=
  { geom := .fromTo 100 119, fatType := .fat16, fatSectors := 1, clusterOffset := 4,
    clusterSectors := 2, clusterCount := 8, fragSectors := 2, clusterFrags := 1, fragCount := 8,
    clusterSectors_pos := Nat.two_pos, fits := by decide }

/-- The old and the new file system in the same place. -/
def eightInPlace : FatOpContext := ⟨eightClusters, eightClusters, 2, .backward, 0, 512⟩

/-- Three fragments that go to the new fragments 1, 4 and 5. -/
def gappedRun : Duplication ℤ :=
  { fat := ⟨.fat16, 256, 8, 8, 0, 1, fun c => if c < 2 then 0xfff8 else 0⟩
    disk := id, remap := fun _ => 0
    bufferMap := fun i => if i = 0 then 1 else if i = 2 then 4 else if i = 3 then 5 else -1
    bufferOffset := 0, fragsDuped := 0, oldBuffer := fun k => -k, newBuffer := fun _ => 0
    groupWrites := [], singleWrites := [], failures := [] }

/-- With an underlay of two fragments the writers agree too. -/
theorem quickGroupWrite_eq_slowGroupWrite_gapped :
    ∃ quick slow : Duplication ℤ,
      quickGroupWrite eightInPlace 0 3 gappedRun = .ok (true, quick) ∧
      quickGroupWriteChecked eightInPlace 0 3 gappedRun = .ok (true, quick) ∧
      slowGroupWrite eightInPlace 0 3 gappedRun = .ok (true, slow) ∧
      quick.disk = slow.disk ∧ Written eightInPlace 0 3 gappedRun quick.disk := by
  have hrun : IsRun gappedRun.bufferMap 0 3 := by
    refine ⟨by decide, by decide, by decide, fun i _ hi => ?_, fun i j _ hij hj => ?_⟩
    · interval_cases i <;> decide
    · interval_cases j <;> interval_cases i <;> decide
  exact quickGroupWrite_eq_slowGroupWrite ⟨by decide, by decide, by decide, by decide⟩
    ⟨hrun, by decide, by decide, by decide⟩ (by decide)
    ⟨by simp [gappedRun], by simp [gappedRun], rfl⟩

end Agree

end Libparted.Fat
