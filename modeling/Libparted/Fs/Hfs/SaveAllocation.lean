import Libparted.Fs.Hfs.Journal

/-!
# Saving the bitmap of an HFS+ volume (`hfsplus_save_allocation` in `reloc_plus.c`)

While blocks are moved the bitmap is changed in memory, and each of its sectors that has changed is
marked in a second bitmap.  `hfsplus_save_allocation` writes the marked sectors to the allocation
file, run by run, and takes the marks away.

The loop over a run stops at the first sector without a mark and nowhere else.  The map of the marks
has whole bytes, so there is a bit behind the last sector unless their number is a multiple of
eight.  If it is, and the last sector is marked, the loop looks behind the map.  Otherwise **exactly
the marked sectors are written** (`hfsplusSaveAllocation_exact_iff`).

How sectors of the allocation file are written is a parameter here.
-/

namespace Libparted.Hfs

open Library

/-! ## Sectors -/

/-- The sectors of the bitmap. -/
def mapSectors (totalBlocks : ℕ) : ℕ := (totalBlocks + 4095) / 4096

/-- The sectors with others in the place of some of them. -/
def writePlusSectors (disk : ℕ → Sector) (start : ℕ) (buf : List Sector) : ℕ → Sector := fun x =>
  if start ≤ x then (buf[x - start]?).getD (disk x) else disk x

/-! ## Bitmaps -/

/-- The bit is there and set. -/
def occupied (tab : List Byte) (bn : ℕ) : Bool := (tab[bn / 8]?).any (·.getLsbD (7 - bn % 8))

/-- `TST_BLOC_OCCUPATION`. -/
def tstBlocOccupation (tab : List Byte) (bn : ℕ) : Except Fault Bool :=
  match tab[bn / 8]? with
  | some b => .ok (b &&& (1 : Byte) <<< (7 - bn % 8) != 0)
  | none => .error (.undefined "tab[bn / 8]")

/-- `CLR_BLOC_OCCUPATION`. -/
def clrBlocOccupation (tab : List Byte) (bn : ℕ) : Except Fault (List Byte) :=
  if bn / 8 < tab.length then
    .ok (tab.modify (bn / 8) fun b => b &&& ~~~((1 : Byte) <<< (7 - bn % 8)))
  else
    .error (.undefined "tab[bn / 8]")

section Bitmaps

variable {tab : List Byte} {bn x : ℕ}

theorem and_shift_ne_zero (b : Byte) (k : Fin 8) :
    (b &&& (1 : Byte) <<< k.val != 0) = b.getLsbD k.val := by
  revert b k
  decide +kernel

theorem getLsbD_and_not_shift (b : Byte) (j k : Fin 8) :
    (b &&& ~~~((1 : Byte) <<< j.val)).getLsbD k.val = (b.getLsbD k.val && decide (k ≠ j)) := by
  have hbit : ((1 : Byte) <<< j.val).getLsbD k.val = decide (k = j) := by
    revert j k
    decide
  rw [BitVec.getLsbD_and, BitVec.getLsbD_not, hbit, decide_eq_true k.isLt, Bool.true_and,
    decide_not]

theorem tstBlocOccupation_eq (h : bn < 8 * tab.length) :
    tstBlocOccupation tab bn = .ok (occupied tab bn) := by
  have hlt : bn / 8 < tab.length := by omega
  rw [tstBlocOccupation, occupied, List.getElem?_eq_getElem hlt]
  exact congrArg Except.ok (and_shift_ne_zero _ ⟨7 - bn % 8, by omega⟩)

theorem tstBlocOccupation_error (h : 8 * tab.length ≤ bn) :
    tstBlocOccupation tab bn = .error (.undefined "tab[bn / 8]") := by
  rw [tstBlocOccupation, List.getElem?_eq_none (by omega)]

theorem lt_of_occupied (h : occupied tab x = true) : x < 8 * tab.length := by
  by_contra hle
  rw [occupied, List.getElem?_eq_none (by omega)] at h
  exact Bool.false_ne_true h

/-- One bit is cleared and no other. -/
theorem clrBlocOccupation_eq (h : bn < 8 * tab.length) : ∃ tab',
    clrBlocOccupation tab bn = .ok tab' ∧ tab'.length = tab.length ∧
      ∀ x, occupied tab' x = (occupied tab x && decide (x ≠ bn)) := by
  refine ⟨_, if_pos (by omega), List.length_modify .., fun x => ?_⟩
  rw [occupied, occupied, List.getElem?_modify]
  cases hget : tab[x / 8]? with
  | none => rfl
  | some b =>
      simp only [Option.map_eq_map, Option.map_some, Option.any_some]
      split_ifs with hbyte
      · rw [getLsbD_and_not_shift b ⟨7 - bn % 8, by omega⟩ ⟨7 - x % 8, by omega⟩]
        congr 1
        simp only [ne_eq, Fin.mk.injEq, decide_eq_decide]
        omega
      · have hne : x ≠ bn := by
          rintro rfl
          exact hbyte rfl
        simp [hne]

end Bitmaps

/-! ## The loops -/

/-- The bitmap, its marks, and the volume.  The sectors of the allocation file that have been
written are kept in a list. -/
structure Allocation (σ : Type) where
  allocMap : List Sector
  dirtyAllocMap : List Byte
  volume : σ
  written : List ℕ

/-- The loop over `j`: the marks from `j` on are taken away up to the first sector without one. -/
def clearRun : ℕ → List Byte → ℕ → Except Fault (ℕ × List Byte)
  | 0, _, _ => .error .outOfFuel
  | fuel + 1, tab, j => do
      if ← tstBlocOccupation tab j then
        clearRun fuel (← clrBlocOccupation tab j) (j + 1)
      else
        return (j, tab)

variable {σ : Type}

/-- The loop over `i`. -/
def saveFrom (fileWrite : List Sector → ℕ → ℕ → Prog Fault σ Bool) (mapSectors : ℕ) :
    ℕ → ℕ → Bool → Prog Fault (Allocation σ) Bool
  | 0, _, _ => throw .outOfFuel
  | fuel + 1, i, ret => fun s =>
      if i < mapSectors then do
        let (j, dirty) ← clearRun (8 * s.dirtyAllocMap.length + 1) s.dirtyAllocMap i
        if j - i ≠ 0 then
          if s.allocMap.length < j then throw (.undefined "alloc_map")
          let (ok, volume) ← fileWrite ((s.allocMap.drop i).take (j - i)) i (j - i) s.volume
          saveFrom fileWrite mapSectors fuel j (ok && ret)
            { s with dirtyAllocMap := dirty, volume, written := s.written ++ List.range' i (j - i) }
        else
          saveFrom fileWrite mapSectors fuel (i + 1) ret { s with dirtyAllocMap := dirty }
      else
        return (ret, s)

/-- `hfsplus_save_allocation`, given how the allocation file is written. -/
def hfsplusSaveAllocation (fileWrite : List Sector → ℕ → ℕ → Prog Fault σ Bool)
    (totalBlocks : BitVec 32) : Prog Fault (Allocation σ) Bool :=
  saveFrom fileWrite (mapSectors totalBlocks.toNat) (mapSectors totalBlocks.toNat + 1) 0 true

/-! ## A run of marks -/

section Run

variable {tab tab' : List Byte} {fuel j j' : ℕ}

/-- What the loop over a run has done when it stops at `j'`. -/
structure Cleared (tab tab' : List Byte) (j j' : ℕ) : Prop where
  le : j ≤ j'
  length : tab'.length = tab.length
  marked : ∀ x, j ≤ x → x < j' → occupied tab x = true
  stop : occupied tab j' = false
  inside : j' < 8 * tab.length
  bits : ∀ x, occupied tab' x = (occupied tab x && !decide (j ≤ x ∧ x < j'))

theorem clearRun_of_ok (h : clearRun fuel tab j = .ok (j', tab')) : Cleared tab tab' j j' := by
  induction fuel generalizing tab j with
  | zero => exact nomatch h
  | succ fuel ih =>
      rw [clearRun] at h
      by_cases hj : j < 8 * tab.length
      · rw [tstBlocOccupation_eq hj, ok_bind] at h
        cases hbit : occupied tab j with
        | true =>
            obtain ⟨tab₁, hclr, hlength, hbits⟩ := clrBlocOccupation_eq hj
            rw [hbit, if_pos rfl, hclr, ok_bind] at h
            have hrest := ih h
            refine ⟨by have := hrest.le; omega, hrest.length.trans hlength, fun x hx hlt => ?_, ?_,
              hlength ▸ hrest.inside, fun x => ?_⟩
            · obtain rfl | hne : x = j ∨ x ≠ j := by omega
              · exact hbit
              · have := hrest.marked x (by omega) hlt
                rw [hbits] at this
                exact (Bool.and_eq_true_iff.mp this).1
            · have hstop := hrest.stop
              have hne : j' ≠ j := by have := hrest.le; omega
              rwa [hbits, decide_eq_true hne, Bool.and_true] at hstop
            · rw [hrest.bits, hbits, Bool.and_assoc]
              congr 1
              have := hrest.le
              rw [Bool.eq_iff_iff]
              simp only [Bool.and_eq_true, decide_eq_true_eq, Bool.not_eq_true',
                decide_eq_false_iff_not]
              omega
        | false =>
            rw [hbit, if_neg Bool.false_ne_true] at h
            obtain ⟨rfl, rfl⟩ := Prod.mk.inj (Except.ok.inj h)
            refine ⟨le_rfl, rfl, fun x hx hlt => absurd hlt (by omega), hbit, hj, fun x => ?_⟩
            rw [decide_eq_false (by omega), Bool.not_false, Bool.and_true]
      · rw [tstBlocOccupation_error (by omega)] at h
        exact nomatch h

/-- The loop stops if a bit is not set. -/
theorem exists_clearRun {e : ℕ} (hj : j ≤ e) (he : e < 8 * tab.length)
    (hstop : occupied tab e = false) (hfuel : e - j < fuel) :
    ∃ r, clearRun fuel tab j = .ok r := by
  induction fuel generalizing tab j with
  | zero => omega
  | succ fuel ih =>
      rw [clearRun, tstBlocOccupation_eq (by omega), ok_bind]
      cases hbit : occupied tab j with
      | true =>
          obtain ⟨tab₁, hclr, hlength, hbits⟩ :=
            clrBlocOccupation_eq (show j < 8 * tab.length by omega)
          have hne : e ≠ j := by
            rintro rfl
            exact Bool.false_ne_true (hstop.symm.trans hbit)
          rw [if_pos rfl, hclr, ok_bind]
          exact ih (by omega) (by omega) (by rw [hbits, hstop, Bool.false_and]) (by omega)
      | false => exact ⟨_, if_neg Bool.false_ne_true⟩

end Run

/-! ## The sectors -/

/-- Writing the allocation file works: the sectors of the buffer are in the file afterwards.
`contents` is the file in the volume. -/
def Writes (fileWrite : List Sector → ℕ → ℕ → Prog Fault σ Bool) (contents : σ → ℕ → Sector)
    (sectors : ℕ) : Prop :=
  ∀ buf sector v, sector + buf.length ≤ sectors → ∃ v',
    fileWrite buf sector buf.length v = .ok (true, v') ∧
      contents v' = writePlusSectors (contents v) sector buf

/-- The sectors below `i` have been dealt with. -/
structure SavedUpTo (contents : σ → ℕ → Sector) (s s' : Allocation σ) (i : ℕ) : Prop where
  allocMap : s'.allocMap = s.allocMap
  length : s'.dirtyAllocMap.length = s.dirtyAllocMap.length
  dirty : ∀ x, occupied s'.dirtyAllocMap x = (occupied s.dirtyAllocMap x && decide (i ≤ x))
  written : s'.written = s.written ++ (List.range i).filter (occupied s.dirtyAllocMap)
  contents : ∀ x, contents s'.volume x =
    if occupied s.dirtyAllocMap x = true ∧ x < i then s.allocMap[x]?.getD (contents s.volume x)
    else contents s.volume x

section Save

variable {fileWrite : List Sector → ℕ → ℕ → Prog Fault σ Bool} {contents : σ → ℕ → Sector}
  {sectors : ℕ} {s₀ s s' : Allocation σ} {i j : ℕ} {dirty : List Byte}

theorem SavedUpTo.refl (s : Allocation σ) : SavedUpTo contents s s 0 := by
  refine ⟨rfl, rfl, fun x => ?_, ?_, fun x => ?_⟩
  · rw [decide_eq_true (Nat.zero_le x), Bool.and_true]
  · simp
  · rw [if_neg (by omega)]

/-- The marks that are left behind a run. -/
theorem Cleared.left {tab₀ tab : List Byte} (hcleared : Cleared tab dirty i j)
    (hdirty : ∀ x, occupied tab x = (occupied tab₀ x && decide (i ≤ x))) (x : ℕ) :
    occupied dirty x = (occupied tab₀ x && decide (j ≤ x)) := by
  have hle := hcleared.le
  rw [hcleared.bits, hdirty, Bool.and_assoc]
  congr 1
  rw [Bool.eq_iff_iff]
  simp only [Bool.and_eq_true, decide_eq_true_eq, Bool.not_eq_true', decide_eq_false_iff_not]
  omega

theorem Cleared.left_pass {tab₀ tab : List Byte} (hcleared : Cleared tab dirty i i)
    (hdirty : ∀ x, occupied tab x = (occupied tab₀ x && decide (i ≤ x))) (x : ℕ) :
    occupied dirty x = (occupied tab₀ x && decide (i + 1 ≤ x)) := by
  rw [hcleared.left hdirty]
  obtain rfl | hne : x = i ∨ x ≠ i := by omega
  · have hstop := hcleared.stop
    rw [hdirty, decide_eq_true (le_refl x), Bool.and_true] at hstop
    rw [hstop, Bool.false_and, Bool.false_and]
  · congr 1
    rw [decide_eq_decide]
    omega

/-- A sector without a mark is passed over. -/
theorem SavedUpTo.pass (h : SavedUpTo contents s₀ s i)
    (hcleared : Cleared s.dirtyAllocMap dirty i i) :
    SavedUpTo contents s₀ { s with dirtyAllocMap := dirty } (i + 1) := by
  have hi : occupied s₀.dirtyAllocMap i = false := by
    have := hcleared.stop
    rwa [h.dirty, decide_eq_true (le_refl i), Bool.and_true] at this
  refine ⟨h.allocMap, hcleared.length.trans h.length, hcleared.left_pass h.dirty, ?_, fun x => ?_⟩
  · rw [List.range_succ, List.filter_append, List.filter_cons_of_neg (by rw [hi]; decide),
      List.filter_nil, List.append_nil]
    exact h.written
  · rw [h.contents]
    refine if_congr ?_ rfl rfl
    obtain rfl | hne : x = i ∨ x ≠ i := by omega
    · simp [hi]
    · refine and_congr_right fun _ => ?_
      omega

/-- A run of marked sectors is written. -/
theorem SavedUpTo.run (h : SavedUpTo contents s₀ s i)
    (hcleared : Cleared s.dirtyAllocMap dirty i j) {volume : σ}
    (hvolume : contents volume
      = writePlusSectors (contents s.volume) i ((s.allocMap.drop i).take (j - i))) :
    SavedUpTo contents s₀ { s with
      dirtyAllocMap := dirty, volume, written := s.written ++ List.range' i (j - i) } j := by
  have hle := hcleared.le
  have hmarked : ∀ x, i ≤ x → x < j → occupied s₀.dirtyAllocMap x = true := by
    intro x hx hlt
    have := hcleared.marked x hx hlt
    rw [h.dirty] at this
    exact (Bool.and_eq_true_iff.mp this).1
  refine ⟨h.allocMap, hcleared.length.trans h.length, hcleared.left h.dirty, ?_, fun x => ?_⟩
  · have hrange : List.range j = List.range i ++ List.range' i (j - i) := by
      have happend := @List.range'_append_1 0 i (j - i)
      rw [Nat.zero_add, Nat.add_sub_cancel' hle] at happend
      rw [List.range_eq_range', List.range_eq_range', happend]
    rw [hrange, List.filter_append, ← List.append_assoc]
    dsimp only
    rw [h.written]
    congr 1
    refine (List.filter_eq_self.mpr fun x hx => ?_).symm
    obtain ⟨hx, hlt⟩ := List.mem_range'_1.mp hx
    exact hmarked x hx (by omega)
  · dsimp only
    rw [hvolume, writePlusSectors, h.allocMap]
    rw [List.getElem?_take, List.getElem?_drop, h.contents]
    obtain hx | hx | hx : x < i ∨ (i ≤ x ∧ x < j) ∨ j ≤ x := by omega
    · rw [if_neg (by omega)]
      refine if_congr (and_congr_right fun _ => ?_) rfl rfl
      omega
    · rw [if_pos hx.1, if_pos (by omega), Nat.add_sub_cancel' hx.1, if_neg (by omega),
        if_pos ⟨hmarked x hx.1 hx.2, hx.2⟩]
    · rw [if_pos (by omega), if_neg (show ¬ x - i < j - i by omega), if_neg (by omega),
        if_neg (by omega)]
      rfl

/-- The loop stops inside the map from every sector on. -/
def Stops (tab : List Byte) (sectors : ℕ) : Prop :=
  ∀ i < sectors, ∃ e, i ≤ e ∧ e < 8 * tab.length ∧ occupied tab e = false

/-- **Every marked sector is written** if the loop stops inside the map. -/
theorem saveFrom_spec (hwrite : Writes fileWrite contents sectors)
    (hmap : s₀.allocMap.length = sectors)
    (hbelow : ∀ x, occupied s₀.dirtyAllocMap x = true → x < sectors)
    (hstops : Stops s₀.dirtyAllocMap sectors) {fuel : ℕ} (hfuel : sectors - i < fuel)
    (h : SavedUpTo contents s₀ s i) (hi : i ≤ sectors) :
    ∃ s', saveFrom fileWrite sectors fuel i true s = .ok (true, s') ∧
      SavedUpTo contents s₀ s' sectors := by
  induction fuel generalizing i s with
  | zero => omega
  | succ fuel ih =>
      unfold saveFrom
      dsimp only
      split_ifs with hlt
      · obtain ⟨e, hie, he, hstop⟩ := hstops i hlt
        obtain ⟨⟨j, dirty⟩, hrun⟩ : ∃ r, clearRun (8 * s.dirtyAllocMap.length + 1) s.dirtyAllocMap i
            = .ok r :=
          exists_clearRun hie (by rw [h.length]; exact he)
            (by rw [h.dirty, hstop, Bool.false_and]) (by rw [h.length]; omega)
        have hcleared := clearRun_of_ok hrun
        have hle := hcleared.le
        rw [hrun, ok_bind]
        dsimp only
        have hj : j ≤ sectors := by
          by_contra hgt
          have hmarked := hcleared.marked sectors (by omega) (by omega)
          rw [h.dirty] at hmarked
          exact absurd (hbelow sectors (Bool.and_eq_true_iff.mp hmarked).1) (lt_irrefl _)
        split_ifs with hne hmem
        · rw [h.allocMap, hmap] at hmem
          omega
        · have hlength : ((s.allocMap.drop i).take (j - i)).length = j - i := by
            rw [List.length_take, List.length_drop, h.allocMap, hmap]
            omega
          obtain ⟨volume, hok, hvolume⟩ := hwrite ((s.allocMap.drop i).take (j - i)) i s.volume
            (by omega)
          rw [hlength] at hok
          rw [hok, ok_bind]
          exact ih (by omega) (h.run hcleared hvolume) hj
        · obtain rfl : j = i := by omega
          exact ih (by omega) (h.pass hcleared) hlt
      · obtain rfl : i = sectors := by omega
        exact ⟨s, rfl, h⟩

/-- If a run of marks goes up to the end of the map, the loop never comes back. -/
theorem saveFrom_not_ok (hlength : s₀.dirtyAllocMap.length * 8 = sectors)
    (hlast : occupied s₀.dirtyAllocMap (sectors - 1) = true) {fuel : ℕ} {ret : Bool}
    (hdirty : ∀ x, occupied s.dirtyAllocMap x = (occupied s₀.dirtyAllocMap x && decide (i ≤ x)))
    (hsame : s.dirtyAllocMap.length = s₀.dirtyAllocMap.length) (hi : i < sectors)
    {r : Bool × Allocation σ} :
    saveFrom fileWrite sectors fuel i ret s ≠ .ok r := by
  induction fuel generalizing i s ret with
  | zero => exact nofun
  | succ fuel ih =>
      intro hok
      unfold saveFrom at hok
      rw [if_pos hi] at hok
      obtain ⟨⟨j, dirty⟩, hrun, hok⟩ := bind_eq_ok.mp hok
      have hcleared := clearRun_of_ok hrun
      have hle := hcleared.le
      have hj : j < sectors - 1 := by
        have hinside := hcleared.inside
        have hne : j ≠ sectors - 1 := by
          intro hj
          have hstop := hcleared.stop
          rw [hj, hdirty, hlast, decide_eq_true (by omega)] at hstop
          exact Bool.false_ne_true hstop.symm
        omega
      dsimp only at hok
      split_ifs at hok with hne hmem
      · exact nomatch hok
      · obtain ⟨⟨ok, volume⟩, -, hok⟩ := bind_eq_ok.mp hok
        exact ih (hcleared.left hdirty) (hcleared.length.trans hsame) (by omega) hok
      · obtain rfl : j = i := by omega
        exact ih (hcleared.left_pass hdirty) (hcleared.length.trans hsame) (by omega) hok

end Save

/-- The bitmap and its file have the same sector. -/
def Agrees (contents : σ → ℕ → Sector) (s : Allocation σ) (x : ℕ) : Prop :=
  s.allocMap[x]? = some (contents s.volume x)

/-- **The marked sectors are written**, in order, the others of the file stay as they were, and no
mark is left. -/
structure SavesMarked (contents : σ → ℕ → Sector) (sectors : ℕ) (s s' : Allocation σ) : Prop where
  allocMap : s'.allocMap = s.allocMap
  written : s'.written = s.written ++ (List.range sectors).filter (occupied s.dirtyAllocMap)
  clean : ∀ x, occupied s'.dirtyAllocMap x = false
  agrees : ∀ x, occupied s.dirtyAllocMap x = true → Agrees contents s' x
  others : ∀ x, occupied s.dirtyAllocMap x = false → contents s'.volume x = contents s.volume x

/-- **The bitmap is saved** exactly if the last sector is not marked or the number of sectors is not
a multiple of eight.  If the bitmap and the file differed in marked sectors only, they are equal
then. -/
theorem hfsplusSaveAllocation_exact_iff {fileWrite : List Sector → ℕ → ℕ → Prog Fault σ Bool}
    {contents : σ → ℕ → Sector} {totalBlocks : BitVec 32} {sectors : ℕ}
    (hsectors : mapSectors totalBlocks.toNat = sectors)
    (hwrite : Writes fileWrite contents sectors) (s : Allocation σ)
    (hmap : s.allocMap.length = sectors) (hlength : s.dirtyAllocMap.length = (sectors + 7) / 8)
    (hbelow : ∀ x, occupied s.dirtyAllocMap x = true → x < sectors) :
    (∃ s', hfsplusSaveAllocation fileWrite totalBlocks s = .ok (true, s') ∧
      SavesMarked contents sectors s s' ∧
      ((∀ x < sectors, ¬ Agrees contents s x → occupied s.dirtyAllocMap x = true) →
        ∀ x < sectors, Agrees contents s' x)) ↔
      ¬ (8 ∣ sectors ∧ occupied s.dirtyAllocMap (sectors - 1) = true) := by
  unfold hfsplusSaveAllocation
  rw [hsectors]
  constructor
  · rintro ⟨s', hrun, -⟩ ⟨hdvd, hlast⟩
    have hpos := hbelow _ hlast
    have hall : ∀ x, occupied s.dirtyAllocMap x
        = (occupied s.dirtyAllocMap x && decide (0 ≤ x)) := fun x => by
      rw [decide_eq_true (Nat.zero_le x), Bool.and_true]
    exact saveFrom_not_ok (by omega) hlast hall rfl (by omega) hrun
  · intro hlast
    have hstops : Stops s.dirtyAllocMap sectors := by
      intro i hi
      by_cases hdvd : 8 ∣ sectors
      · refine ⟨sectors - 1, by omega, by omega, ?_⟩
        exact Bool.eq_false_iff.mpr fun h => hlast ⟨hdvd, h⟩
      · refine ⟨sectors, by omega, by omega, ?_⟩
        exact Bool.eq_false_iff.mpr fun h => absurd (hbelow _ h) (lt_irrefl _)
    obtain ⟨s', hrun, hsaved⟩ := saveFrom_spec hwrite hmap hbelow hstops
      (show sectors - 0 < sectors + 1 by omega) (SavedUpTo.refl s) (Nat.zero_le _)
    have hagrees : ∀ x, occupied s.dirtyAllocMap x = true → Agrees contents s' x := by
      intro x hx
      have hlt := hbelow x hx
      rw [Agrees, hsaved.contents, if_pos ⟨hx, hlt⟩, hsaved.allocMap,
        List.getElem?_eq_getElem (by omega)]
      rfl
    have hothers : ∀ x, occupied s.dirtyAllocMap x = false →
        contents s'.volume x = contents s.volume x := by
      intro x hx
      rw [hsaved.contents, if_neg fun h => Bool.false_ne_true (hx.symm.trans h.1)]
    refine ⟨s', hrun, ⟨hsaved.allocMap, hsaved.written, fun x => ?_, hagrees, hothers⟩,
      fun hdiffer x hx => ?_⟩
    · rw [hsaved.dirty]
      refine Bool.eq_false_iff.mpr fun h => ?_
      obtain ⟨hx, hle⟩ := Bool.and_eq_true_iff.mp h
      exact absurd (hbelow x hx) (not_lt.mpr (of_decide_eq_true hle))
    · cases hbit : occupied s.dirtyAllocMap x with
      | true => exact hagrees x hbit
      | false =>
          by_contra hnot
          rw [Agrees, hothers x hbit, hsaved.allocMap] at hnot
          exact Bool.false_ne_true (hbit.symm.trans (hdiffer x hx hnot))

/-- A volume that is nothing but its allocation file. -/
def writeToFile (buf : List Sector) (sector _count : ℕ) : Prog Fault (ℕ → Sector) Bool := fun v =>
  .ok (true, writePlusSectors v sector buf)

/-- A bitmap of some sectors, with these marks. -/
def sampleAllocation (sectors : ℕ) (marks : Byte) : Allocation (ℕ → Sector) :=
  ⟨(List.range sectors).map fun x _ => BitVec.ofNat 8 x, [marks], fun _ _ => 255, []⟩

/-- Two sectors, both of them marked. -/
theorem hfsplusSaveAllocation_two_sectors :
    ∃ s', hfsplusSaveAllocation writeToFile 8192 (sampleAllocation 2 0xC0) = .ok (true, s') ∧
      s'.written = [0, 1] ∧ ∀ x < 2, Agrees id s' x := by
  have hbits : ∀ x < 8, occupied [(0xC0 : Byte)] x = true → x < 2 := by decide
  have hbelow : ∀ x, occupied [(0xC0 : Byte)] x = true → x < 2 := fun x hx =>
    hbits x (lt_of_occupied hx) hx
  have hmarked : ∀ x < 2, occupied [(0xC0 : Byte)] x = true := by decide
  have hwrite : Writes writeToFile id 2 := fun buf sector v _ =>
    ⟨writePlusSectors v sector buf, rfl, rfl⟩
  obtain ⟨s', hrun, hsaves, hagrees⟩ := (hfsplusSaveAllocation_exact_iff
    (show mapSectors (8192 : BitVec 32).toNat = 2 by decide) hwrite (sampleAllocation 2 0xC0) rfl
    rfl hbelow).mpr (by decide)
  exact ⟨s', hrun, hsaves.written.trans (by decide), hagrees fun x hx _ => hmarked x hx⟩

/-- **The loop leaves the map** if the last of eight sectors is marked. -/
theorem hfsplusSaveAllocation_eighth_sector :
    faultOf (hfsplusSaveAllocation writeToFile 32768 (sampleAllocation 8 0x01))
      = some (.undefined "tab[bn / 8]") := by
  decide +kernel

end Libparted.Hfs
