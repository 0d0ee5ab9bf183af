import Libparted.Solver
import Libparted.Disk.Pointers

/-!
# Placeholders for free space (`libparted/disk.c`)

`_disk_alloc_freespace` walks over the partition lists while it changes them.  On heaps that
hold two lists it does to them what its model on lists in `Disk/UpdateMode` does
(`diskAllocFreespace_spec`): a list at a time is a part that the walk has passed, which is
filled, and a part that it has not.

Where the partitions are in order, the filled lists cover the disk and the extended
partition without gaps.
-/

namespace Libparted.Pointers

open Library

variable {π : Type}

/-! ## Removing free space -/

section Removing

variable {s : PartitionHeap π} {lists : Bool → List ℕ} {a fuel n : ℕ} {us vs : List ℕ}

theorem not_isExtended_of_freespace {part : PedPartition π} (h : part.type.freespace = true) :
    part.isExtended = false := by
  by_contra hext
  simp only [PedPartition.isExtended, Bool.not_eq_false, beq_iff_eq] at hext
  simp [hext, PedPartitionType.ofExtended] at h

/-- **The walk of `_disk_remove_freespace`** removes the entries for free space that it
comes to. -/
theorem Linked.removeFrom_run (h : Linked s lists) (hsplit : s.order lists = us ++ vs)
    (hn : vs.length < n) (hfuel : (lists false).length < fuel) :
    ∃ s', removeFreespaceFrom fuel n vs.head? s = .ok ((), s') ∧
      Linked s' (fun c => (lists c).filter fun a => !((s.part a).type.freespace && decide (a ∈ vs)))
      ∧ s'.part = s.part ∧ s'.fresh = s.fresh := by
  induction vs generalizing s lists us n with
  | nil =>
    obtain ⟨n, rfl⟩ := Nat.exists_eq_add_of_lt hn
    refine ⟨s, rfl, ?_, rfl, rfl⟩
    simpa using h
  | cons a vs ih =>
    obtain ⟨n, rfl⟩ := Nat.exists_eq_add_of_lt hn
    have hn' : vs.length < (a :: vs).length + n := by rw [List.length_cons]; omega
    rw [List.head?_cons, removeFreespaceFrom, run_bind_ok (h.next_run hfuel hsplit),
      run_bind_ok run_get]
    have hnodup := h.order_nodup
    rw [hsplit] at hnodup
    have hout := (List.nodup_cons.mp (List.nodup_middle.mp hnodup)).1
    cases hfree : (s.part a).type.freespace with
    | true =>
      have hmem : a ∈ lists false ++ lists true := h.order_perm.mem_iff.mp (by simp [hsplit])
      obtain ⟨b, hb⟩ : ∃ b, a ∈ lists b := by
        rcases List.mem_append.mp hmem with ha | ha
        · exact ⟨false, ha⟩
        · exact ⟨true, ha⟩
      obtain ⟨s₁, hrun, h₁, hpart, hfresh⟩ :=
        h.remove_run hb hfuel (not_isExtended_of_freespace hfree)
      have horder : s₁.order (fun c => (lists c).filter (· ≠ a)) = us ++ vs := by
        rw [order_filter _ _ fun c hc => ?_, PartitionHeap.order, hpart]
        · rw [show ((lists false).flatMap fun c =>
              if (s.part c).isExtended then c :: lists true else [c]) = us ++ a :: vs from hsplit,
            List.filter_append, List.filter_cons_of_neg (by simp), ← List.filter_append,
            List.filter_eq_self]
          intro c hc
          simpa using fun heq : c = a => hout (heq ▸ hc)
        · rw [hpart] at hc
          have : c ≠ a := fun heq => by
            rw [heq, not_isExtended_of_freespace hfree] at hc
            cases hc
          simpa using this
      have hfuel₁ : ((lists false).filter (· ≠ a)).length < fuel :=
        (List.length_filter_le _ _).trans_lt hfuel
      obtain ⟨s', hrest, h', hpart', hfresh'⟩ := ih h₁ horder hn' hfuel₁
      refine ⟨s', ?_, ?_, hpart'.trans hpart, hfresh'.trans hfresh⟩
      · rw [if_pos rfl, run_bind_ok hrun]
        exact hrest
      · convert h' using 2 with c
        rw [List.filter_filter]
        refine List.filter_congr fun d _ => ?_
        rw [hpart]
        by_cases hd : d = a
        · simp [hd, hfree]
        · simp [hd]
    | false =>
      obtain ⟨s', hrest, h', hpart', hfresh'⟩ :=
        ih h (hsplit.trans (List.append_cons us a vs)) hn' hfuel
      refine ⟨s', ?_, ?_, hpart', hfresh'⟩
      · rw [if_neg (by simp)]
        exact hrest
      · convert h' using 2 with c
        refine List.filter_congr fun d _ => ?_
        by_cases hd : d = a
        · simp [hd, hfree]
        · simp [hd]

/-- **`_disk_remove_freespace`.** -/
theorem Linked.removeFreespace_run (h : Linked s lists)
    (hfuel : (lists false).length + (lists true).length < fuel) :
    ∃ s', diskRemoveFreespace fuel s = .ok ((), s') ∧
      Linked s' (fun c => (lists c).filter fun a => !(s.part a).type.freespace) ∧
      s'.part = s.part ∧ s'.fresh = s.fresh := by
  have hlength := h.order_perm.length_eq
  rw [List.length_append] at hlength
  have hsplit : s.order lists = [] ++ s.order lists := rfl
  obtain ⟨s', hrun, h', hpart, hfresh⟩ := h.removeFrom_run hsplit (show _ < fuel by omega)
    (show (lists false).length < fuel by omega)
  refine ⟨s', ?_, ?_, hpart, hfresh⟩
  · rw [diskRemoveFreespace, run_bind_ok h.first_run]
    exact hrun
  · convert h' using 2 with c
    refine List.filter_congr fun a ha => ?_
    simp [h.mem_order ha]

end Removing

/-! ## Filling gaps -/

section Filling

variable {s : PartitionHeap π} {lists : Bool → List ℕ} {b : Bool} {ext : Option ℕ}
variable {fuel n : ℕ} {stop lastEnd : ℤ} {done rest : List ℕ}

/-- What filling the gaps of the rest of a list does. -/
structure Filled (s s' : PartitionHeap π) (rest l : List ℕ) : Prop where
  part : ∀ a < s.fresh, s'.part a = s.part a
  fresh : s.fresh ≤ s'.fresh
  nonfree : (l.filter fun a => !(s'.part a).type.freespace)
    = rest.filter fun a => !(s.part a).type.freespace

theorem Filled.refl (s : PartitionHeap π) (l : List ℕ) : Filled s s l l :=
  ⟨fun _ _ => rfl, le_rfl, rfl⟩

theorem Filled.append {s₁ s' : PartitionHeap π} {rest₁ rest₂ l₁ l₂ : List ℕ}
    (h₁ : Filled s s₁ rest₁ l₁) (h₂ : Filled s₁ s' rest₂ l₂) (hl : ∀ a ∈ l₁, a < s₁.fresh)
    (hrest : ∀ a ∈ rest₂, a < s.fresh) : Filled s s' (rest₁ ++ rest₂) (l₁ ++ l₂) where
  part a ha := (h₂.part a (ha.trans_le h₁.fresh)).trans (h₁.part a ha)
  fresh := h₁.fresh.trans h₂.fresh
  nonfree := by
    rw [List.filter_append, List.filter_append, ← h₁.nonfree, h₂.nonfree]
    congr 1
    · exact List.filter_congr fun a ha => by rw [h₂.part a (hl a ha)]
    · exact List.filter_congr fun a ha => by rw [h₁.part a (hrest a ha)]

/-- One new object, for free space. -/
theorem Filled.single {s' : PartitionHeap π} {part : PedPartition π}
    (hfree : part.type.freespace = true) (hpart : s'.part = (s.allocate part).part)
    (hfresh : s'.fresh = (s.allocate part).fresh) : Filled s s' [] [s.fresh] where
  part a ha := by rw [hpart, allocate_part_of_lt part ha]
  fresh := hfresh ▸ Nat.le_succ _
  nonfree := by simp [hpart, hfree]

/-- The entry behind the last one. -/
theorem Linked.fillEnd_run (h : Linked s lists) (hsome : ext.isSome = b)
    (hext : b = true → s.extended lists = ext) (hb : lists b = done) (hend : -1 ≤ lastEnd) :
    ∃ s' l, fillFrom fuel ext stop (n + 1) none done.getLast? lastEnd s = .ok ((), s') ∧
      Linked s' (Function.update lists b (done ++ l)) ∧ Filled s s' [] l ∧
      l.map s'.part = fillGaps b stop lastEnd hend [] := by
  by_cases hstop : lastEnd < stop
  · set free : PedPartition π := .placeholder (.ofFreespace b)
      (.ofStartEnd (lastEnd + 1) stop (by omega) (by omega)) with hfree
    obtain ⟨h₁, hnew, hext₁⟩ := h.allocate free
    have hlevel : ((s.allocate free).part s.fresh).type.logical = b := by
      rw [allocate_part_fresh]
      rfl
    have hnotExt : free.isExtended = false := not_isExtended_of_freespace rfl
    rw [← allocate_part_fresh s free] at hnotExt
    have hfill : [free] = fillGaps b stop lastEnd hend [] := by rw [fillGaps, dif_pos hstop]
    rw [fillFrom, if_pos hstop, hsome, run_bind_ok (freeSpaceNew_run s b (by omega) (by omega))]
    rcases List.eq_nil_or_concat' done with rfl | ⟨xs, last, rfl⟩
    · -- the first entry of the list
      have hlist : IsList (s.allocate free).links [s.fresh].head? [s.fresh] :=
        ⟨List.nodup_singleton _, rfl, by simp [PartitionHeap.allocate], by
          simp [PartitionHeap.allocate], trivial⟩
      have hnone : ([s.fresh].filter fun a => ((s.allocate free).part a).isExtended)
          = (lists b).filter fun a => ((s.allocate free).part a).isExtended := by
        rw [hb, List.filter_cons_of_neg (by rw [hnotExt]; exact Bool.false_ne_true)]
      have hchange := h₁.change (b := b) hlist (fun a _ => ⟨rfl, rfl⟩) hnone
        (fun a ha => ?_) fun hb => by rw [hext₁, hext hb, hsome, hb]
      · have hsame : ({ (s.allocate free).withFirst lists b [s.fresh].head? with
            links := (s.allocate free).links } : PartitionHeap π)
            = (s.allocate free).withFirst lists b (some s.fresh) := by
          unfold PartitionHeap.withFirst
          split <;> rfl
        rw [hsame] at hchange
        refine ⟨(s.allocate free).withFirst lists b (some s.fresh), [s.fresh], ?_, hchange,
          .single rfl withFirst_part withFirst_fresh, ?_⟩
        · cases b with
          | false =>
            obtain rfl := Option.isNone_iff_eq_none.mp (Option.isSome_eq_false_iff.mp hsome)
            rfl
          | true =>
            obtain ⟨e, rfl⟩ := Option.isSome_iff_exists.mp hsome
            simp only [PartitionHeap.withFirst, hext₁, hext rfl]
            rfl
        · rw [List.map_singleton, withFirst_part, allocate_part_fresh, hfill]
      · obtain rfl := List.mem_singleton.mp ha
        exact ⟨Nat.lt_succ_self _, hlevel, hnew _⟩
    · obtain ⟨s', hrun, h', hpart', hfresh'⟩ := h₁.insertAfter_run hb hnew
        (Nat.lt_succ_self _) hlevel hnotExt
      refine ⟨s', [s.fresh], ?_, ?_, .single rfl hpart' hfresh', ?_⟩
      · rw [List.getLast?_concat]
        exact hrun
      · rwa [List.append_assoc]
      · rw [List.map_singleton, hpart', allocate_part_fresh, hfill]
  · refine ⟨s, [], ?_, ?_, .refl s [], ?_⟩
    · rw [fillFrom, if_neg hstop]
      rfl
    · rw [List.append_nil, ← hb, Function.update_eq_self]
      exact h
    · rw [fillGaps, dif_neg hstop]
      rfl

variable (fuel ext stop done rest) in
/-- **The walk that fills the gaps.**  It does to the rest of the list what `fillGaps` does. -/
theorem Linked.fill_run (h : Linked s lists) (hsome : ext.isSome = b)
    (hext : b = true → s.extended lists = ext ∧ (lists false).length < fuel)
    (hb : lists b = done ++ rest) (hn : rest.length < n) (hend : -1 ≤ lastEnd) :
    ∃ s' l, fillFrom fuel ext stop n rest.head? done.getLast? lastEnd s = .ok ((), s') ∧
      Linked s' (Function.update lists b (done ++ l)) ∧ Filled s s' rest l ∧
      l.map s'.part = fillGaps b stop lastEnd hend (rest.map s.part) := by
  induction rest generalizing s lists done n lastEnd with
  | nil =>
    obtain ⟨n, rfl⟩ := Nat.exists_eq_add_of_lt hn
    exact h.fillEnd_run hsome (fun hb => (hext hb).1) (by rw [hb, List.append_nil]) hend
  | cons walk rest ih =>
    obtain ⟨n, rfl⟩ := Nat.exists_eq_add_of_lt hn
    have hn' : rest.length < (walk :: rest).length + n := by rw [List.length_cons]; omega
    have hold : ∀ a ∈ walk :: rest, a < s.fresh := fun a ha =>
      h.old b a (hb ▸ List.mem_append_right _ ha)
    -- what is left to do once the gap in front of `walk` is filled, with `front` up to `walk`
    have hrest {s₁ : PartitionHeap π} (front : List ℕ)
        (h₁ : Linked s₁ (Function.update lists b (done ++ front ++ walk :: rest)))
        (hfront : Filled s s₁ [] front) (hmem : ∀ a ∈ front, a < s₁.fresh)
        (hlast : -1 ≤ (s.part walk).geom.end) :
        ∃ s' l, (do let s ← get
                    fillFrom fuel ext stop ((walk :: rest).length + n) (s.links.next walk)
                      (some walk) (s.part walk).geom.end : HeapM π Unit) s₁ = .ok ((), s') ∧
          Linked s' (Function.update lists b (done ++ (front ++ walk :: l))) ∧
          Filled s s' (walk :: rest) (front ++ walk :: l) ∧
          (front ++ walk :: l).map s'.part = front.map s₁.part ++ s.part walk ::
            fillGaps b stop (s.part walk).geom.end hlast (rest.map s.part) := by
      have hlist := h₁.linked b
      rw [Function.update_self] at hlist
      have hwalk : s₁.part walk = s.part walk := hfront.part walk (hold _ List.mem_cons_self)
      have hext₁ (hb' : b = true) :
          s₁.extended (Function.update lists b (done ++ front ++ walk :: rest)) = ext ∧
            (Function.update lists b (done ++ front ++ walk :: rest) false).length < fuel := by
        subst hb'
        rw [Function.update_of_ne Bool.false_ne_true,
          extended_congr (Function.update_of_ne Bool.false_ne_true _ _) fun a ha =>
            hfront.part a (h.old _ a ha)]
        exact hext rfl
      have hmove : done ++ front ++ walk :: rest = done ++ front ++ [walk] ++ rest :=
        List.append_cons ..
      obtain ⟨s', l, hrun, h', hfilled, hmap⟩ := ih _ h₁ hext₁
        (by rw [Function.update_self, hmove]) hn' hlast
      have hstep : Filled s s₁ [walk] (front ++ [walk]) :=
        hfront.append (.refl s₁ [walk]) hmem (by simpa using hold walk List.mem_cons_self)
      have hmem' : ∀ a ∈ front ++ [walk], a < s₁.fresh := by
        intro a ha
        rcases List.mem_append.mp ha with ha | ha
        · exact hmem a ha
        · rw [List.mem_singleton.mp ha]
          exact (hold walk List.mem_cons_self).trans_le hfront.fresh
      refine ⟨s', l, ?_, ?_, ?_, ?_⟩
      · rw [run_bind_ok run_get, hlist.next_eq, hwalk]
        rwa [List.getLast?_concat] at hrun
      · rw [Function.update_idem] at h'
        simpa using h'
      · have := hstep.append hfilled hmem' fun a ha => hold a (List.mem_cons_of_mem _ ha)
        simpa using this
      · rw [List.append_cons, List.map_append, hmap, List.map_append, List.map_singleton,
          hfilled.part walk (hmem' walk (by simp)), hwalk, List.append_assoc, List.singleton_append,
          List.map_congr_left fun a ha => hfilled.part a (hmem a ha),
          List.map_congr_left fun a ha => hfront.part a (hold a (List.mem_cons_of_mem _ ha))]
    have hlast : -1 ≤ (s.part walk).geom.end := by
      have := (s.part walk).geom.end_nonneg
      omega
    rw [List.head?_cons, fillFrom, run_bind_ok run_get, List.map_cons, fillGaps]
    dsimp only
    by_cases hgap : (s.part walk).geom.start > lastEnd + 1
    · set free : PedPartition π := .placeholder (.ofFreespace b) (.ofStartEnd (lastEnd + 1)
        ((s.part walk).geom.start - 1) (by omega) (by omega)) with hfree
      obtain ⟨h₁, hnew, -⟩ := h.allocate free
      obtain ⟨s₂, hrun, h₂, hpart, hfresh⟩ := h₁.insertBefore_run hb (fun hb => (hext hb).2) hnew
        (Nat.lt_succ_self _) (by rw [allocate_part_fresh]; rfl)
        (by rw [allocate_part_fresh]; exact not_isExtended_of_freespace rfl)
      obtain ⟨s', l, hrun', h', hfilled, hmap⟩ := hrest [s.fresh] (by simpa using h₂)
        (.single rfl hpart hfresh) (by simp [hfresh, PartitionHeap.allocate]) hlast
      refine ⟨s', [s.fresh] ++ walk :: l, ?_, h', hfilled, ?_⟩
      · rw [if_pos hgap, hsome, run_bind_ok (freeSpaceNew_run s b (by omega) (by omega)),
          run_bind_ok hrun]
        exact hrun'
      · rw [hmap, dif_pos hgap, List.map_singleton, hpart, allocate_part_fresh]
        rfl
    · obtain ⟨s', l, hrun', h', hfilled, hmap⟩ := hrest []
        (by rwa [List.append_nil, ← hb, Function.update_eq_self]) (.refl s []) (by simp) hlast
      refine ⟨s', walk :: l, ?_, h', hfilled, ?_⟩
      · rw [if_neg hgap]
        exact hrun'
      · rw [dif_neg hgap]
        exact hmap

end Filling

/-! ## Refinement -/

section Refinement

variable {δ : Type} {s : PartitionHeap π} {lists : Bool → List ℕ} {disk : PedDisk π δ} {fuel : ℕ}

/-- The disk whose partitions are on these lists. -/
structure Shows (s : PartitionHeap π) (lists : Bool → List ℕ) (disk : PedDisk π δ) : Prop where
  partList : disk.partList = (lists false).map s.part
  logicals : disk.logicals = (lists true).map s.part

theorem Shows.extended (h : Shows s lists disk) :
    Libparted.pedDiskExtendedPartition disk = (s.extended lists).map s.part := by
  rw [Libparted.pedDiskExtendedPartition, h.partList, List.find?_map]
  rfl

theorem Shows.removeFreespace (h : Shows s lists disk) :
    Shows s (fun c => (lists c).filter fun a => !(s.part a).type.freespace)
      (Libparted.diskRemoveFreespace disk) where
  partList := by
    rw [Libparted.diskRemoveFreespace, h.partList, List.filter_map]
    rfl
  logicals := by
    rw [Libparted.diskRemoveFreespace, h.logicals, List.filter_map]
    rfl

/-- **`_alloc_extended_freespace`.** -/
theorem Linked.allocExtended_run (h : Linked s lists) (hshows : Shows s lists disk)
    (hfuel : (lists false).length + (lists true).length < fuel) :
    ∃ s' l, allocExtendedFreespace fuel s = .ok ((), s') ∧
      Linked s' (Function.update lists true l) ∧ Filled s s' (lists true) l ∧
      Shows s' (Function.update lists true l) (Libparted.allocExtendedFreespace disk) := by
  rw [allocExtendedFreespace, run_bind_ok (h.extended_run (show _ < fuel by omega))]
  unfold Libparted.allocExtendedFreespace
  rw [hshows.extended]
  cases hext : s.extended lists with
  | none =>
    refine ⟨s, lists true, rfl, ?_, .refl s _, ?_⟩
    · rwa [Function.update_eq_self]
    · rwa [Function.update_eq_self]
  | some ext =>
    have hhead : s.inner ext = (lists true).head? := by
      have := (h.linked true).head
      rwa [PartitionHeap.first, hext] at this
    have hstart : -1 ≤ (s.part ext).geom.start := by
      have := (s.part ext).geom.start_nonneg
      omega
    obtain ⟨s', l, hrun, h', hfilled, hmap⟩ := h.fill_run (some ext) fuel (s.part ext).geom.end []
      (lists true) (b := true) rfl (fun _ => ⟨hext, by omega⟩)
      (List.nil_append _).symm (show _ < fuel by omega) hstart
    refine ⟨s', l, ?_, h', hfilled, ?_, ?_⟩
    · dsimp only
      rw [run_bind_ok run_get, hhead]
      exact hrun
    · rw [Function.update_of_ne Bool.false_ne_true]
      exact hshows.partList.trans
        (List.map_congr_left fun a ha => (hfilled.part a (h.old _ a ha)).symm)
    · rw [Function.update_self, hmap, ← hshows.logicals]
      rfl

/-- **`_disk_alloc_freespace` does what its model on lists does.**  The partitions keep their
places in memory and what they hold. -/
theorem Linked.diskAllocFreespace_spec (h : Linked s lists) (hshows : Shows s lists disk)
    (env : Env) (hfuel : (lists false).length + (lists true).length < fuel) :
    ∃ s' lists', diskAllocFreespace env.dev.length fuel s = .ok (true, s') ∧ Linked s' lists' ∧
      Shows s' lists' (Libparted.diskAllocFreespace env disk) ∧
      ∀ c, Filled s s' ((lists c).filter fun a => !(s.part a).type.freespace) (lists' c) := by
  obtain ⟨s₁, hremove, h₁, hpart₁, hfresh₁⟩ := h.removeFreespace_run hfuel
  have hkeptShows := hshows.removeFreespace
  set kept : Bool → List ℕ := fun c => (lists c).filter fun a => !(s.part a).type.freespace
  have hlength : ∀ c, (kept c).length ≤ (lists c).length := fun c => List.length_filter_le _ _
  have hfalse := hlength false
  have htrue := hlength true
  have hshows₁ : Shows s₁ kept (Libparted.diskRemoveFreespace disk) :=
    ⟨hpart₁ ▸ hkeptShows.partList, hpart₁ ▸ hkeptShows.logicals⟩
  obtain ⟨s₂, l, hextended, h₂, hfilled₂, hshows₂⟩ := h₁.allocExtended_run hshows₁
    (show _ < fuel by omega)
  have hkept : Function.update kept true l false = kept false :=
    Function.update_of_ne Bool.false_ne_true _ _
  obtain ⟨s₃, m, hfill, h₃, hfilled₃, hmap⟩ := h₂.fill_run none fuel (env.dev.length - 1)
    [] (kept false) (b := false) rfl (fun h => by cases h) hkept (show _ < fuel by omega) le_rfl
  have hpart : ∀ a < s.fresh, s₃.part a = s.part a := by
    intro a ha
    rw [← hfresh₁] at ha
    rw [hfilled₃.part a (ha.trans_le hfilled₂.fresh), hfilled₂.part a ha, hpart₁]
  have hfresh : s.fresh ≤ s₃.fresh := hfresh₁ ▸ hfilled₂.fresh.trans hfilled₃.fresh
  have hl : ∀ a ∈ l, s₃.part a = s₂.part a := fun a ha =>
    hfilled₃.part a (h₂.old true a (by rwa [Function.update_self]))
  refine ⟨s₃, Function.update (Function.update kept true l) false m, ?_, h₃, ⟨?_, ?_⟩, fun c =>
    ⟨hpart, hfresh, ?_⟩⟩
  · have hfirst : s₂.partList = (kept false).head? := by
      rw [← hkept]
      exact (h₂.linked false).head
    rw [diskAllocFreespace, run_bind_ok hremove, run_bind_ok hextended, run_bind_ok run_get,
      hfirst]
    exact run_bind_ok hfill
  · rw [Function.update_self, hmap, ← hkept, ← hshows₂.partList]
    rfl
  · rw [Function.update_of_ne Bool.false_ne_true.symm, Function.update_self,
      List.map_congr_left hl]
    have := hshows₂.logicals
    rwa [Function.update_self] at this
  · cases c with
    | false =>
      rw [Function.update_self, hfilled₃.nonfree]
      refine List.filter_congr fun a ha => ?_
      rw [hfilled₂.part a (h₁.old _ a ha), hpart₁]
    | true =>
      rw [Function.update_of_ne Bool.false_ne_true.symm, Function.update_self,
        List.filter_congr fun a ha => by rw [hl a ha], hfilled₂.nonfree, hpart₁]

end Refinement

/-! ## Tiling -/

section Lists

variable {logical : Bool} {stop last : ℤ} {hlast : -1 ≤ last} {l : List (PedPartition π)}

/-- Filling the gaps of an ordered list leaves none. -/
theorem tiles_fillGaps (hordered : Ordered PedPartition.lo PedPartition.hi l)
    (hrange : ∀ part ∈ l, last < part.lo ∧ part.hi ≤ stop) :
    Tiles PedPartition.lo PedPartition.hi stop (last + 1)
      (fillGaps logical stop last hlast l) := by
  have hfree {start stop' next : ℤ} {m : List (PedPartition π)} (hs : 0 ≤ start)
      (he : start ≤ stop') (hnext : stop' + 1 = next) (hstop : stop' ≤ stop)
      (h : Tiles PedPartition.lo PedPartition.hi stop next m) :
      Tiles PedPartition.lo PedPartition.hi stop start
        (.placeholder (.ofFreespace logical) (.ofStartEnd start stop' hs he) :: m) := by
    have hend : (PedPartition.placeholder (.ofFreespace logical)
        (.ofStartEnd start stop' hs he) : PedPartition π).hi = stop' :=
      PedGeometry.ofStartEnd_end hs he
    exact h.cons_of_eq rfl (by rw [hend, hnext]) (hend.trans_le hstop)
  induction l generalizing last with
  | nil =>
    unfold fillGaps
    split
    · exact hfree _ _ rfl le_rfl (.nil (by omega))
    · exact .nil (by omega)
  | cons walk rest ih =>
    obtain ⟨hwalk, hrest⟩ := List.pairwise_cons.mp hordered
    obtain ⟨hfirst, hend⟩ := hrange walk List.mem_cons_self
    have htail : Tiles PedPartition.lo PedPartition.hi stop walk.lo (walk ::
        fillGaps logical stop walk.geom.end (by have := walk.geom.end_nonneg; omega) rest) :=
      .cons hend (ih hrest fun part hpart => ⟨hwalk part hpart,
        (hrange part (List.mem_cons_of_mem _ hpart)).2⟩)
    have hle := walk.lo_le_hi
    unfold PedPartition.lo at hfirst hle
    unfold fillGaps
    dsimp only
    split
    · exact hfree _ _ (by simp [PedPartition.lo]) (by omega) htail
    · have : walk.lo = last + 1 := by
        unfold PedPartition.lo
        omega
      rwa [← this]

/-- Where the first entry is at the first sector, no entry goes in front of it. -/
theorem tiles_fillGaps_start {start : ℤ} {hstart : -1 ≤ start}
    (hordered : Ordered PedPartition.lo PedPartition.hi l)
    (hrange : ∀ part ∈ l, start ≤ part.lo ∧ part.hi ≤ stop) (hfirst : ∃ part ∈ l, part.lo = start) :
    Tiles PedPartition.lo PedPartition.hi stop start (fillGaps logical stop start hstart l) := by
  cases l with
  | nil => simp at hfirst
  | cons walk rest =>
    obtain ⟨hwalk, hrest⟩ := List.pairwise_cons.mp hordered
    have hmem := hrange walk List.mem_cons_self
    have hlo : walk.lo = start := by
      obtain ⟨part, hpart, hlo⟩ := hfirst
      rcases List.mem_cons.mp hpart with rfl | hpart
      · exact hlo
      · have := hwalk part hpart
        have := walk.geom.start_le_end
        unfold PedPartition.lo PedPartition.hi at *
        omega
    have hgap : ¬ walk.geom.start > start + 1 := by
      unfold PedPartition.lo at hlo
      omega
    unfold fillGaps
    dsimp only
    rw [dif_neg hgap, ← hlo]
    exact .cons hmem.2 (tiles_fillGaps hrest fun part hpart => ⟨hwalk part hpart,
      (hrange part (List.mem_cons_of_mem _ hpart)).2⟩)

/-- No entry for free space follows another one. -/
theorem isChain_fillGaps (hl : ∀ part ∈ l, part.type.freespace = false) :
    (fillGaps logical stop last hlast l).IsChain
      fun a b => ¬(a.type.freespace = true ∧ b.type.freespace = true) := by
  induction l generalizing last with
  | nil =>
    unfold fillGaps
    split <;> simp
  | cons walk rest ih =>
    have hwalk := hl walk List.mem_cons_self
    have htail : (walk :: fillGaps logical stop walk.geom.end
        (by have := walk.geom.end_nonneg; omega) rest).IsChain
        fun a b => ¬(a.type.freespace = true ∧ b.type.freespace = true) :=
      List.isChain_cons.mpr ⟨fun b _ => by simp [hwalk],
        ih fun part hpart => hl part (List.mem_cons_of_mem _ hpart)⟩
    unfold fillGaps
    dsimp only
    split
    · exact List.isChain_cons_cons.mpr ⟨by simp [hwalk], htail⟩
    · exact htail

theorem length_fillGaps_le : (fillGaps logical stop last hlast l).length ≤ 2 * l.length + 1 := by
  induction l generalizing last with
  | nil =>
    unfold fillGaps
    split <;> simp
  | cons walk rest ih =>
    have := @ih walk.geom.end (by have := walk.geom.end_nonneg; omega)
    unfold fillGaps
    dsimp only
    split <;> simp only [List.length_cons] <;> omega

theorem length_diskAllocFreespace_le {δ : Type} (env : Env) (disk : PedDisk π δ) :
    (Libparted.diskAllocFreespace env disk).partList.length ≤ 2 * disk.partList.length + 1 ∧
      (Libparted.diskAllocFreespace env disk).logicals.length
        ≤ 2 * disk.logicals.length + 1 := by
  have htop : (Libparted.diskRemoveFreespace disk).partList.length ≤ disk.partList.length :=
    List.length_filter_le ..
  have hlogicals : (Libparted.diskRemoveFreespace disk).logicals.length ≤ disk.logicals.length :=
    List.length_filter_le ..
  unfold Libparted.diskAllocFreespace Libparted.allocExtendedFreespace
  split
  · exact ⟨length_fillGaps_le.trans (by omega), by dsimp only; omega⟩
  · exact ⟨length_fillGaps_le.trans (by dsimp only; omega), length_fillGaps_le.trans (by omega)⟩

end Lists

section Visits

variable {s : PartitionHeap π} {lists : Bool → List ℕ} {fuel n : ℕ} {us vs : List ℕ}

/-- **`ped_disk_next_partition`**, behind some of the entries or from the start. -/
theorem Linked.after_run (h : Linked s lists) (hfuel : (lists false).length < fuel)
    (hsplit : s.order lists = us ++ vs) :
    pedDiskNextPartition fuel us.getLast? s = .ok (vs.head?, s) := by
  rcases List.eq_nil_or_concat' us with rfl | ⟨us, a, rfl⟩
  · rw [List.nil_append] at hsplit
    rw [← hsplit]
    exact h.first_run
  · rw [List.getLast?_concat]
    exact h.next_run hfuel (hsplit.trans (List.append_cons us a vs).symm)

/-- **Repeated calls of `ped_disk_next_partition`** return every entry of both lists, and
then end. -/
theorem Linked.visitFrom_run (h : Linked s lists) (hfuel : (lists false).length < fuel)
    (hsplit : s.order lists = us ++ vs) (hn : vs.length < n) :
    visitFrom fuel n us.getLast? s = .ok (vs, s) := by
  induction vs generalizing us n with
  | nil =>
    obtain ⟨n, rfl⟩ := Nat.exists_eq_add_of_lt hn
    rw [visitFrom, run_bind_ok (h.after_run hfuel hsplit)]
    rfl
  | cons a vs ih =>
    obtain ⟨n, rfl⟩ := Nat.exists_eq_add_of_lt hn
    have hrest := ih (n := (a :: vs).length + n) (hsplit.trans (List.append_cons us a vs))
      (by rw [List.length_cons]; omega)
    rw [List.getLast?_concat] at hrest
    rw [visitFrom, run_bind_ok (h.after_run hfuel hsplit), List.head?_cons]
    dsimp only
    rw [run_bind_ok hrest]
    rfl

/-- **`ped_disk_get_partition_by_sector`** returns the first entry that covers the sector. -/
theorem Linked.bySector_run (h : Linked s lists) (hfuel : (lists false).length < fuel) (sect : ℤ)
    (hsplit : s.order lists = us ++ vs) (hn : vs.length < n) :
    partitionBySectorFrom fuel sect n vs.head? s = .ok (vs.find? fun a =>
      pedGeometryTestSectorInside (s.part a).geom sect && !(s.part a).isExtended, s) := by
  induction vs generalizing us n with
  | nil =>
    obtain ⟨n, rfl⟩ := Nat.exists_eq_add_of_lt hn
    rfl
  | cons a vs ih =>
    obtain ⟨n, rfl⟩ := Nat.exists_eq_add_of_lt hn
    rw [List.head?_cons, partitionBySectorFrom, run_bind_ok run_get, List.find?_cons]
    split
    case isTrue hcover =>
      rw [hcover]
      rfl
    case isFalse hcover =>
      rw [Bool.eq_false_of_not_eq_true hcover, run_bind_ok (h.next_run hfuel hsplit)]
      exact ih (hsplit.trans (List.append_cons us a vs)) (by rw [List.length_cons]; omega)

end Visits

/-! ## Disks without gaps -/

section Tiling

variable {s : PartitionHeap π} {lists : Bool → List ℕ} {fuel : ℕ}

/-- The entries that are not free space, partitions and metadata. -/
def PartitionHeap.nonfree (s : PartitionHeap π) (l : List ℕ) : List ℕ :=
  l.filter fun a => !(s.part a).type.freespace

/-- The entries other than free space are sorted and disjoint, and lie on the disk or in the
extended partition.  One of the logical ones starts where the extended partition does. -/
structure InOrder (dev : PedDevice) (s : PartitionHeap π) (lists : Bool → List ℕ) : Prop where
  disk : Ordered (fun a => (s.part a).lo) (fun a => (s.part a).hi) (s.nonfree (lists false))
  inside : ∀ a ∈ s.nonfree (lists false), 0 ≤ (s.part a).lo ∧ (s.part a).hi ≤ dev.length - 1
  logicals : Ordered (fun a => (s.part a).lo) (fun a => (s.part a).hi) (s.nonfree (lists true))
  insideExtended : ∀ ext, s.extended lists = some ext → ∀ a ∈ s.nonfree (lists true),
    (s.part ext).lo ≤ (s.part a).lo ∧ (s.part a).hi ≤ (s.part ext).hi
  first : ∀ ext, s.extended lists = some ext →
    ∃ a ∈ s.nonfree (lists true), (s.part a).lo = (s.part ext).lo

/-- The lists cover the disk and the extended partition without gaps, and no entry for free
space follows another one. -/
structure Tiled (dev : PedDevice) (s : PartitionHeap π) (lists : Bool → List ℕ) : Prop where
  disk : Tiles (fun a => (s.part a).lo) (fun a => (s.part a).hi) (dev.length - 1) 0 (lists false)
  logicals : ∀ ext, s.extended lists = some ext →
    Tiles (fun a => (s.part a).lo) (fun a => (s.part a).hi) (s.part ext).hi (s.part ext).lo
      (lists true)
  separate : ∀ c, (lists c).IsChain fun a b =>
    ¬((s.part a).type.freespace = true ∧ (s.part b).type.freespace = true)

/-- The entry is not extended and has the sector. -/
def PartitionHeap.Covers (s : PartitionHeap π) (sect : ℤ) (a : ℕ) : Prop :=
  (s.part a).lo ≤ sect ∧ sect ≤ (s.part a).hi ∧ (s.part a).isExtended = false

theorem extended_eq_nonfree (s : PartitionHeap π) (lists : Bool → List ℕ) :
    s.extended lists = (s.nonfree (lists false)).find? fun a => (s.part a).isExtended := by
  rw [PartitionHeap.nonfree, List.find?_filter, PartitionHeap.extended]
  congr 1
  funext a
  cases hfree : (s.part a).type.freespace with
  | true => simp [not_isExtended_of_freespace hfree]
  | false => simp

/-- The extended partition stays where it is. -/
theorem Filled.extended_eq {s' : PartitionHeap π} {lists' : Bool → List ℕ} (h : Linked s lists)
    (hfilled : Filled s s' (s.nonfree (lists false)) (lists' false)) :
    s'.extended lists' = s.extended lists := by
  have hnonfree : s'.nonfree (lists' false) = s.nonfree (lists false) :=
    hfilled.nonfree.trans (by simp [PartitionHeap.nonfree, List.filter_filter])
  rw [extended_eq_nonfree, hnonfree, extended_eq_nonfree, ← List.head?_filter,
    ← List.head?_filter]
  refine congrArg List.head? (List.filter_congr fun a ha => ?_)
  rw [hfilled.part a (h.old _ a (List.mem_of_mem_filter ha))]

/-- Filling the gaps between entries in order. -/
theorem InOrder.tiled {δ : Type} {env : Env} {disk : PedDisk π δ} {s' : PartitionHeap π}
    {lists' : Bool → List ℕ} (hin : InOrder env.dev s lists) (h : Linked s lists)
    (hdisk : Shows s lists disk) (h' : Linked s' lists')
    (hshows : Shows s' lists' (Libparted.diskAllocFreespace env disk))
    (hfilled : Filled s s' (s.nonfree (lists false)) (lists' false)) : Tiled env.dev s' lists' := by
  have hext := hfilled.extended_eq h
  have hkept := hdisk.removeFreespace
  have hfree (c : Bool) :
      ∀ part ∈ (s.nonfree (lists c)).map s.part, part.type.freespace = false := by
    intro part hpart
    obtain ⟨a, ha, rfl⟩ := List.mem_map.mp hpart
    simpa using (List.mem_filter.mp ha).2
  have hfalse : (lists' false).map s'.part = fillGaps false (env.dev.length - 1) (-1) le_rfl
      ((s.nonfree (lists false)).map s.part) := by
    rw [← hshows.partList, PartitionHeap.nonfree, ← hkept.partList]
    unfold Libparted.diskAllocFreespace Libparted.allocExtendedFreespace
    split <;> rfl
  have htrue (ext : ℕ) (hsome : s.extended lists = some ext) : (lists' true).map s'.part
      = fillGaps true (s.part ext).geom.end (s.part ext).geom.start
        (by have := (s.part ext).geom.start_nonneg; omega)
        ((s.nonfree (lists true)).map s.part) := by
    have hsome' : Libparted.pedDiskExtendedPartition (Libparted.diskRemoveFreespace disk)
        = some (s.part ext) := by
      rw [hkept.extended]
      exact congrArg (Option.map s.part) ((extended_eq_nonfree s lists).symm.trans hsome)
    rw [← hshows.logicals, PartitionHeap.nonfree, ← hkept.logicals]
    simp only [Libparted.diskAllocFreespace, Libparted.allocExtendedFreespace, hsome']
  refine ⟨?_, fun ext hsome => ?_, fun c => ?_⟩
  · rw [← tiles_map s'.part, hfalse]
    have hrange : ∀ part ∈ (s.nonfree (lists false)).map s.part,
        -1 < part.lo ∧ part.hi ≤ env.dev.length - 1 := by
      intro part hpart
      obtain ⟨a, ha, rfl⟩ := List.mem_map.mp hpart
      have := hin.inside a ha
      exact ⟨by omega, this.2⟩
    have htiles : Tiles PedPartition.lo PedPartition.hi (env.dev.length - 1) (-1 + 1)
        (fillGaps false (env.dev.length - 1) (-1) le_rfl
          ((s.nonfree (lists false)).map s.part)) :=
      tiles_fillGaps (List.pairwise_map.mpr hin.disk) hrange
    exact htiles
  · rw [hext] at hsome
    have hpart : s'.part ext = s.part ext :=
      hfilled.part ext (h.old _ ext (extended_mem hsome).1)
    rw [← tiles_map s'.part, htrue ext hsome, hpart]
    refine tiles_fillGaps_start (List.pairwise_map.mpr hin.logicals) (fun part hpart => ?_) ?_
    · obtain ⟨a, ha, rfl⟩ := List.mem_map.mp hpart
      exact hin.insideExtended ext hsome a ha
    · obtain ⟨a, ha, hlo⟩ := hin.first ext hsome
      exact ⟨s.part a, List.mem_map_of_mem ha, hlo⟩
  · refine (List.isChain_map (R := fun a b : PedPartition π =>
      ¬(a.type.freespace = true ∧ b.type.freespace = true)) s'.part).mp ?_
    cases c with
    | false =>
      rw [hfalse]
      exact isChain_fillGaps (hfree false)
    | true =>
      cases hsome : s.extended lists with
      | some ext =>
        rw [htrue ext hsome]
        exact isChain_fillGaps (hfree true)
      | none =>
        have hnil : lists' true = [] := by
          refine List.eq_nil_iff_forall_not_mem.mpr fun a ha => ?_
          have := h'.extended_isSome ha
          rw [hext, hsome] at this
          cases this
        rw [hnil]
        exact .nil

theorem covers_iff {sect : ℤ} {a : ℕ} :
    (pedGeometryTestSectorInside (s.part a).geom sect && !(s.part a).isExtended) = true ↔
      s.Covers sect a := by
  simp [PartitionHeap.Covers, PedPartition.lo, PedPartition.hi, and_assoc]

/-- Every sector of the disk belongs to one entry that is not extended. -/
theorem Tiled.exists_covers {dev : PedDevice} (ht : Tiled dev s lists) (h : Linked s lists)
    {sect : ℤ} (hsect : 0 ≤ sect) (hlast : sect ≤ dev.length - 1) :
    ∃ a ∈ s.order lists, s.Covers sect a ∧ ∀ b ∈ s.order lists, s.Covers sect b → b = a := by
  have hmem {b : ℕ} (hb : b ∈ s.order lists) : b ∈ lists false ∨ b ∈ lists true :=
    List.mem_append.mp (h.order_perm.mem_iff.mp hb)
  have hv : ∀ c, ∀ a ∈ lists c, (s.part a).lo ≤ (s.part a).hi := fun _ a _ => (s.part a).lo_le_hi
  obtain ⟨top, htop, hcover⟩ := ht.disk.exists_mem hsect hlast
  cases hext : (s.part top).isExtended with
  | false =>
    refine ⟨top, h.mem_order htop, ⟨hcover.1, hcover.2, hext⟩, fun b hb hcoverB => ?_⟩
    rcases hmem hb with hb | hb
    · exact ht.disk.eq_of_covers (hv false) hb htop ⟨hcoverB.1, hcoverB.2.1⟩ hcover
    · -- a logical partition lies in the extended one, which is not `top`
      obtain ⟨ext, hsome⟩ := Option.isSome_iff_exists.mp (h.extended_isSome hb)
      obtain ⟨hin, hextE⟩ := extended_mem hsome
      have hbounds := (ht.logicals ext hsome).bounds (hv true) b hb
      have heq := ht.disk.eq_of_covers (hv false) hin htop
        ⟨hbounds.1.trans hcoverB.1, hcoverB.2.1.trans hbounds.2⟩ hcover
      rw [heq, hext] at hextE
      cases hextE
  | true =>
    have htiles := ht.logicals top (h.extended_eq htop hext)
    obtain ⟨a, ha, hcoverA⟩ := htiles.exists_mem hcover.1 hcover.2
    refine ⟨a, h.mem_order ha, ⟨hcoverA.1, hcoverA.2, h.not_extended ha⟩, fun b hb hcoverB => ?_⟩
    rcases hmem hb with hb | hb
    · have heq := ht.disk.eq_of_covers (hv false) hb htop ⟨hcoverB.1, hcoverB.2.1⟩ hcover
      rw [heq, PartitionHeap.Covers, hext] at hcoverB
      cases hcoverB.2.2
    · exact htiles.eq_of_covers (hv true) hb ha ⟨hcoverB.1, hcoverB.2.1⟩ hcoverA

theorem Linked.mem_order_iff (h : Linked s lists) (a : ℕ) :
    a ∈ s.order lists ↔ ∃ c, a ∈ lists c := by
  rw [h.order_perm.mem_iff, List.mem_append, Bool.exists_bool]

/-- **`ped_disk_get_partition_by_sector`** finds the entry of a sector of the disk. -/
theorem Tiled.bySector {dev : PedDevice} (ht : Tiled dev s lists) (h : Linked s lists)
    (hfuel : (lists false).length + (lists true).length < fuel) {sect : ℤ} (hsect : 0 ≤ sect)
    (hlast : sect ≤ dev.length - 1) :
    ∃ a, pedDiskGetPartitionBySector sect fuel s = .ok (some a, s) ∧ (∃ c, a ∈ lists c) ∧
      s.Covers sect a ∧ ∀ b, (∃ c, b ∈ lists c) → s.Covers sect b → b = a := by
  have hlength := h.order_perm.length_eq
  rw [List.length_append] at hlength
  have horder : s.order lists = [] ++ s.order lists := rfl
  obtain ⟨a, ha, hcover, hunique⟩ := ht.exists_covers h hsect hlast
  refine ⟨a, ?_, (h.mem_order_iff a).mp ha, hcover,
    fun b hb => hunique b ((h.mem_order_iff b).mpr hb)⟩
  have hfirst : s.partList = (s.order lists).head? := by
    rw [PartitionHeap.order, head?_order, ← (h.linked false).head]
    rfl
  obtain ⟨b, hb⟩ := Option.isSome_iff_exists.mp (List.find?_isSome (p := fun a =>
    pedGeometryTestSectorInside (s.part a).geom sect && !(s.part a).isExtended)
    |>.mpr ⟨a, ha, covers_iff.mpr hcover⟩)
  have hcoverB := List.find?_some hb
  rw [pedDiskGetPartitionBySector, run_bind_ok run_get, hfirst,
    h.bySector_run (by omega) sect horder (by omega), hb,
    hunique b (List.mem_of_find?_eq_some hb) (covers_iff.mp hcoverB)]

/-- **`_disk_alloc_freespace` tiles the disk.**  The lists cover the disk and the extended
partition without gaps.  The entries that are not free space stay as they are.
`ped_disk_next_partition` visits every entry once, and `ped_disk_get_partition_by_sector`
finds the one entry that is not extended and has the sector. -/
theorem diskAllocFreespace_tiles (dev : PedDevice) (h : Linked s lists) (hin : InOrder dev s lists)
    (hfuel : 2 * ((lists false).length + (lists true).length) + 2 < fuel) :
    ∃ s' lists', diskAllocFreespace dev.length fuel s = .ok (true, s') ∧ Linked s' lists' ∧
      Tiled dev s' lists' ∧
      (∀ c, s'.nonfree (lists' c) = s.nonfree (lists c) ∧
        ∀ a ∈ s.nonfree (lists c), s'.part a = s.part a) ∧
      (∃ l, visitFrom fuel fuel none s' = .ok (l, s') ∧ l.Nodup ∧
        ∀ a, a ∈ l ↔ ∃ c, a ∈ lists' c) ∧
      ∀ sect, 0 ≤ sect → sect ≤ dev.length - 1 →
        ∃ a, pedDiskGetPartitionBySector sect fuel s' = .ok (some a, s') ∧
          (∃ c, a ∈ lists' c) ∧ s'.Covers sect a ∧
          ∀ b, (∃ c, b ∈ lists' c) → s'.Covers sect b → b = a := by
  set env : Env := ⟨dev, fun _ => .cancel⟩
  set disk : PedDisk π Unit := ⟨(lists false).map s.part, (lists true).map s.part, 0, false, ()⟩
  have hdisk : Shows s lists disk := ⟨rfl, rfl⟩
  obtain ⟨s', lists', hrun, h', hshows, hfilled⟩ := h.diskAllocFreespace_spec hdisk env
    (show _ < fuel by omega)
  have htiled := hin.tiled h hdisk h' hshows (hfilled false)
  -- both lists at most double
  have hlength := h'.order_perm.length_eq
  obtain ⟨hfalse, htrue⟩ := length_diskAllocFreespace_le env disk
  rw [hshows.partList, List.length_map, show disk.partList.length = _ from List.length_map _]
    at hfalse
  rw [hshows.logicals, List.length_map, show disk.logicals.length = _ from List.length_map _]
    at htrue
  rw [List.length_append] at hlength
  have hfuel' : (lists' false).length < fuel := by omega
  have horder : s'.order lists' = [] ++ s'.order lists' := rfl
  refine ⟨s', lists', hrun, h', htiled, fun c => ⟨?_, fun a ha => ?_⟩, ?_,
    fun sect hsect hlast => htiled.bySector h' (by omega) hsect hlast⟩
  · exact (hfilled c).nonfree.trans (by simp [PartitionHeap.nonfree, List.filter_filter])
  · exact (hfilled c).part a (h.old c a (List.mem_of_mem_filter ha))
  · exact ⟨s'.order lists', h'.visitFrom_run hfuel' horder (by omega), h'.order_nodup,
      h'.mem_order_iff⟩

end Tiling

/-- Free space, a partition, and an extended partition with metadata and a logical partition,
in this order, in memory. -/
def sampleHeap : PartitionHeap Unit where
  part
    | 0 => ⟨0, .ofFreespace false, -1, .fromTo 0 9, none⟩
    | 1 => ⟨1, .normal, 1, .fromTo 10 19, none⟩
    | 2 => ⟨2, .ofExtended, 2, .fromTo 30 59, none⟩
    | 3 => ⟨3, .ofMetadata true, -1, .fromTo 30 30, none⟩
    | _ => ⟨4, .ofLogical, 5, .fromTo 40 49, none⟩
  links :=
    { prev := fun | 1 => some 0 | 2 => some 1 | 4 => some 3 | _ => none
      next := fun | 0 => some 1 | 1 => some 2 | 3 => some 4 | _ => none }
  inner := fun | 2 => some 3 | _ => none
  partList := some 0
  fresh := 5

def sampleLists : Bool → List ℕ
  | false => [0, 1, 2]
  | true => [3, 4]

theorem linked_sample : Linked sampleHeap sampleLists where
  linked b := by
    cases b with
    | false => exact ⟨by decide, rfl, rfl, rfl, rfl, rfl, rfl, rfl, trivial⟩
    | true => exact ⟨by decide, rfl, rfl, rfl, rfl, rfl, trivial⟩
  apart := by decide
  old := by decide
  level := by decide
  one := by decide

theorem inOrder_sample : InOrder hundredSectors sampleHeap sampleLists where
  disk := by unfold Ordered; decide
  inside := by decide
  logicals := by unfold Ordered; decide
  insideExtended ext hext := by
    obtain rfl : 2 = ext := Option.some.inj hext
    decide
  first ext hext := by
    obtain rfl : 2 = ext := Option.some.inj hext
    exact ⟨3, by decide, rfl⟩

/-- The gaps of the sample are filled. -/
theorem diskAllocFreespace_tiles_sample : Linked sampleHeap sampleLists ∧
    InOrder hundredSectors sampleHeap sampleLists ∧
    ∃ s' lists', diskAllocFreespace hundredSectors.length 13 sampleHeap = .ok (true, s') ∧
      Linked s' lists' ∧ Tiled hundredSectors s' lists' := by
  obtain ⟨s', lists', hrun, h', htiled, -⟩ :=
    diskAllocFreespace_tiles hundredSectors linked_sample inOrder_sample (show _ < 13 by decide)
  exact ⟨linked_sample, inOrder_sample, s', lists', hrun, h', htiled⟩

end Libparted.Pointers
