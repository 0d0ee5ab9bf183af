import Libparted.Disk.NonOverlap
import Libparted.Disk.Client

/-!
# What every call keeps

Non-overlap depends on the label and on the answers.  What is here does not: whatever the label's
functions do and whatever the user answers, the lists stay well linked, update mode is left again,
the other partitions stay as they were, and an object that is refused changes only numbers.
-/

namespace Libparted

open Library

variable {π δ : Type}

/-- The table is well linked and, but for its numbers, has `I`. -/
abbrev LinkedWith (I : PedDisk π δ → Prop) (c : PedDisk π δ) : Prop := WellLinked c ∧ I c.unnumbered

/-- So it is, at nesting depth `n` of update mode. -/
abbrev LinkedAt (I : PedDisk π δ → Prop) (n : ℕ) (s : Session π δ) : Prop :=
  At (fun _ => True) (LinkedWith I) n s

/-- Linking in the object `id`, new or moved, keeps `I`. -/
def Places (I : PedDisk π δ → Prop) (id : ℕ) : Prop :=
  ∀ c part, part.id = id → I c.unnumbered → I ((diskRawRemove c id).place part).unnumbered

/-- What the call does to the lists keeps `I`. -/
def LayoutCall.Keeps (I : PedDisk π δ → Prop) : LayoutCall π → Prop
  | .add part _ => Places I part.id
  | .setGeom id _ _ _ | .maximize id _ => Places I id
  | .delete _ => ∀ c id, I c.unnumbered → I (diskRawRemove c id).unnumbered

theorem spec_true {ε σ α : Type} (x : Prog ε σ α) (s : σ) :
    Spec (fun _ => True) x s fun _ _ => True :=
  spec_iff.mpr ⟨fun _ _ _ => trivial, fun _ _ => trivial⟩

/-- A partition may take any other place: it keeps its type, and its parent is there. -/
theorem WellLinked.linkable_moved {table : PedDisk π δ} (h : WellLinked table)
    {old : PedPartition π} (hold : table.find? old.id = some old) (geom : PedGeometry) :
    Linkable table { old with geom := geom } := by
  obtain ⟨hmem, -⟩ := PedDisk.mem_of_find? hold
  refine ⟨hmem.elim (h.ids.1 old) (h.ids.2 old), ⟨fun p hp hid => ?_, fun p hp hid => ?_⟩,
    fun hl => h.linked (List.ne_nil_of_mem (hmem.resolve_left fun htop => ?_))⟩
  · rw [h.eq_of_id (Or.inl hp) hmem hid]
  · rw [h.eq_of_id (Or.inr hp) hmem hid]
  · simp [h.leveled.1 old htop] at hl

variable {label : PedDiskType π δ} {env : Env} {s : Session π δ} {n id : ℕ}
  {I : PedDisk π δ → Prop}

theorem linked_renumbers :
    Renumbers label env (fun _ => True) (fun _ => True) (LinkedWith I) (LinkedWith I) :=
  renumbers_of_unnumbered fun _ _ heq h => ⟨h.1.renumbered heq, heq ▸ h.2⟩

theorem setGeom_keeps (hplaces : Places I id) (constraint : Option PedConstraint)
    (start «end» : ℤ) (h : LinkedAt I n s) :
    Spec (fun _ => True) (pedDiskSetPartitionGeom label env id constraint start «end») s
      fun _ s' => LinkedAt I n s' := by
  have hmoves :
      MovesTo label env (fun _ => True) id constraint (LinkedWith I) (LinkedWith I) := by
    intro disk old part newGeom overlap thrown htable hclean _ hold _ _ _ _
    refine (spec_true _ _).imp fun r t _ _ => (spec_true _ _).imp fun ok t' _ _ => ?_
    obtain ⟨-, hact, rfl⟩ := PedDisk.mem_of_find? hold
    have hplaced : ((diskRawRemove disk old.id).place { old with geom := r.2 }).core
        = (diskRawRemove disk old.id).core.place { old with geom := r.2 } :=
      PedDisk.Clean.core_place hclean.diskRawRemove hact
    rw [hplaced, core_diskRawRemove]
    exact ⟨htable.1.place (htable.1.linkable_moved (by rw [PedDisk.find?_core, hold]) r.2),
      hplaces _ _ rfl htable.2⟩
  refine (h.setGeom (allows_true label env) (fun _ h => h.1) linked_renumbers hmoves).imp
    fun ok s' hmoved => ?_
  cases ok with
  | true => exact hmoved.1 rfl
  | false => exact hmoved.2 rfl

/-- Maximising is moving, twice if need be. -/
theorem maximize_keeps (hplaces : Places I id) (constraint : Option PedConstraint)
    (h : LinkedAt I n s) :
    Spec (fun _ => True) (pedDiskMaximizePartition label env id constraint) s
      fun _ s' => LinkedAt I n s' := by
  have hE := allows_true label env
  unfold pedDiskMaximizePartition
  refine Spec.bind (spec_lookup trivial fun part hpart => ?_)
  refine Spec.bind (spec_getDisk.mpr (Spec.bind (Spec.lift (fun _ _ => trivial) fun _ _ => ?_)))
  refine (h.push hE linked_renumbers).seq fun ok s₁ hpushed => ?_
  obtain ⟨rfl, h₁, -⟩ := hpushed
  refine Spec.bind (spec_getDisk.mpr ?_)
  refine (setGeom_keeps hplaces constraint _ _ h₁).seq fun ok s₂ h₂ => ?_
  cases ok with
  | true => exact (h₂.pop hE).seq fun _ _ h₃ => Spec.ite (fun _ => h₃.2) fun _ => h₃.2
  | false =>
      refine Spec.bind (Spec.lift (fun _ _ => trivial) fun any _ => ?_)
      refine (setGeom_keeps hplaces any _ _ h₂).seq fun _ s₃ h₃ => ?_
      exact (h₃.pop hE).seq fun _ _ h₄ => h₄.2

/-- Adding an object links it in, or leaves the table as it was but for its numbers. -/
theorem add_keeps {part : PedPartition π} (hplaces : Places I part.id)
    (constraint : Option PedConstraint) (h : LinkedAt I 0 s) :
    Spec (fun _ => True) (pedDiskAddPartition label env part constraint) s fun r s' =>
      (r.1 = true → LinkedAt I 0 s') ∧
        (r.1 = false → LinkedAt (· = s.disk.core.unnumbered) 0 s') := by
  have hE := allows_true label env
  have hstart : LinkedAt (· = s.disk.core.unnumbered) 0 s :=
    ⟨⟨h.table.1, rfl⟩, h.mode, h.clean, h.padding⟩
  refine (hstart.add (R := fun _ => True) hE linked_renumbers trivial fun hid hsane => ?_).imp
    fun _ _ hadded => hadded.2
  intro disk thrown hcore hclean hmode
  have hprepared : Spec (fun _ => True)
      (addPartitionAlignIfActive label.toPedDiskOps env disk part constraint) thrown
      fun r _ => r.2.id = part.id ∧ r.2.type = part.type := by
    unfold addPartitionAlignIfActive
    refine Spec.ite (fun _ => ?_) fun _ => ⟨rfl, rfl⟩
    exact (addPartitionAlign_prepared hE (fun _ _ _ _ => spec_true _ _) constraint
      (P := fun _ => True) fun _ => spec_true _ _).imp fun _ _ hprep => hprep.1.id_type
  refine hprepared.imp fun r t hsame => ⟨trivial, fun _ => ⟨rfl, trivial⟩, fun _ => ?_⟩
  refine (spec_true _ _).imp fun ok t' _ _ hnew => ?_
  have htable : I disk.core.unnumbered := hcore.2 ▸ h.table.2
  cases hact : r.2.isActive with
  | false => exact (core_place_inactive hact).symm ▸ ⟨hcore.1, htable⟩
  | true =>
      have hself : diskRawRemove disk.core r.2.id = disk.core := by
        rw [← core_diskRawRemove, diskRawRemove_eq_self hclean (hnew hact)]
      have hlink : Linkable disk.core r.2 := by
        refine ⟨hsame.1 ▸ hid, ⟨fun p hp heq => ?_, fun p hp heq => ?_⟩, fun hl => ?_⟩
        · rw [← hself] at hp
          exact absurd heq (mem_diskRawRemove_partList.mp hp).2
        · rw [← hself] at hp
          exact absurd heq (mem_diskRawRemove_logicals.mp hp).2
        · obtain ⟨ext, hext⟩ := Option.isSome_iff_exists.mp (hsane.parent (hsame.2 ▸ hl))
          obtain ⟨hmem, hisExt⟩ := mem_of_pedDiskExtendedPartition hext
          -- renumbering kept the extended partition
          by_contra! hno
          have hnone : disk.core.Each (¬ ·.isExtended = true) fun _ => True :=
            ⟨hno, fun _ _ => trivial⟩
          exact (hnone.renumbered (fun _ _ => Iff.rfl) (fun _ _ => Iff.rfl) hcore.2.symm).1 ext
            (List.mem_filter.mpr ⟨hmem, PedPartition.isActive_of_isExtended hisExt⟩) hisExt
      have hplaced := And.intro (hcore.1.place hlink) (hplaces _ r.2 hsame.1 htable)
      rw [← hsame.1, hself] at hplaced
      rwa [hclean.core_place hact]

theorem LayoutCall.run_keeps (call : LayoutCall π) (hcall : call.Keeps I) (h : LinkedAt I 0 s) :
    Spec (fun _ => True) (call.run label env) s fun _ s' => LinkedAt I 0 s' := by
  cases call with
  | add part constraint =>
      refine (add_keeps hcall (some constraint) h).seq fun r s' hadded => ?_
      cases hr : r.1 with
      | true => exact hadded.1 hr
      | false => exact (hadded.2 hr).imp fun _ hc => ⟨hc.1, hc.2 ▸ h.table.2⟩
  | setGeom id constraint start «end» =>
      exact (setGeom_keeps hcall (some constraint) start «end» h).seq fun _ _ h' => h'
  | delete id =>
      exact (At.delete (allows_true label env) linked_renumbers
        (fun _ _ _ hc hfind hext => ⟨hc.1.remove hfind hext, hcall _ _ hc.2⟩) linked_renumbers id
        h).seq fun _ _ h' => h'
  | maximize id constraint => exact (maximize_keeps hcall (some constraint) h).seq fun _ _ h' => h'

theorem linkedAt_start (hlinks : WellLinked s.disk.core) (h : I s.disk.core.unnumbered)
    (hmode : s.disk.updateMode = 0) : LinkedAt I 0 s :=
  ⟨⟨hlinks, h⟩, hmode, fun hne => absurd rfl hne, fun _ _ _ => trivial, fun _ _ _ => trivial⟩

/-- What every call of a run keeps, the run keeps. -/
theorem runAll_keeps (calls : List (LayoutCall π)) (hcalls : ∀ call ∈ calls, call.Keeps I)
    (h : LinkedAt I 0 s) : Spec (fun _ => True) (runAll (LayoutCall.run label env) calls) s
      fun _ s' => LinkedAt I 0 s' := by
  induction calls generalizing s with
  | nil => exact h
  | cons call calls ih =>
      exact (call.run_keeps (hcalls call List.mem_cons_self) h).seq fun _ _ h' =>
        ih (fun c hc => hcalls c (List.mem_cons_of_mem _ hc)) h'

/-- **The lists stay well linked**, and update mode is left again, along every run. -/
theorem wellLinked_of_calls (label : PedDiskType π δ) (env : Env) (s s' : Session π δ)
    (hmode : s.disk.updateMode = 0) (hlinks : WellLinked s.disk.core) (calls : List (LayoutCall π))
    (hrun : runAll (LayoutCall.run label env) calls s = .ok ((), s')) :
    s'.disk.updateMode = 0 ∧ WellLinked s'.disk.core := by
  have hkeeps : ∀ call ∈ calls, call.Keeps fun _ : PedDisk π δ => True := by
    intro call _
    cases call with
    | delete => exact fun _ _ _ => trivial
    | _ => exact fun _ _ _ _ => trivial
  have hend := (runAll_keeps calls hkeeps (linkedAt_start hlinks trivial hmode)).of_ok hrun
  exact ⟨hend.mode, hend.table.1⟩

/-- The call neither adds nor moves the object `id`. -/
def LayoutCall.Spares (id : ℕ) : LayoutCall π → Prop
  | .add part _ => part.id ≠ id
  | .setGeom other _ _ _ | .maximize other _ => other ≠ id
  | .delete _ => True

theorem has_unnumbered {c : PedDisk π δ} {part : PedPartition π} :
    c.unnumbered.Has part ↔ ∃ p, c.Has p ∧ { p with num := 0 } = part := by
  simp only [PedDisk.Has, PedDisk.unnumbered, List.mem_map, or_and_right, exists_or]

/-- Linking in an object is nothing to the others. -/
theorem has_placed {c : PedDisk π δ} {part q : PedPartition π} (hne : q.id ≠ part.id) :
    ((diskRawRemove c q.id).place q).unnumbered.Has part ↔ c.unnumbered.Has part := by
  simp only [has_unnumbered, mem_place, has_diskRawRemove]
  constructor
  · rintro ⟨p, rfl | hp, rfl⟩
    · exact absurd rfl hne
    · exact ⟨p, hp.1, rfl⟩
  · rintro ⟨p, hp, rfl⟩
    exact ⟨p, .inr ⟨hp, hne.symm⟩, rfl⟩

/-- **The other partitions.**  A partition that no call of a run adds or moves is gone afterwards
or as it was, in place, type and the label's data; and if nothing is deleted, it is not gone. -/
theorem untouched_of_calls (label : PedDiskType π δ) (env : Env) (s s' : Session π δ)
    (hmode : s.disk.updateMode = 0) (hlinks : WellLinked s.disk.core) (calls : List (LayoutCall π))
    (part : PedPartition π) (hspares : ∀ call ∈ calls, call.Spares part.id)
    (hrun : runAll (LayoutCall.run label env) calls s = .ok ((), s')) :
    (s'.disk.core.unnumbered.Has part → s.disk.core.unnumbered.Has part) ∧
      ((∀ id, .delete id ∉ calls) →
        s.disk.core.unnumbered.Has part → s'.disk.core.unnumbered.Has part) := by
  -- `R` is what is said about the partition's being there; only deleting can change that
  have hend : ∀ R : Prop → Prop, ((∃ id, .delete id ∈ calls) → ∀ p q, (q → p) → R p → R q) →
      R (s.disk.core.unnumbered.Has part) → R (s'.disk.core.unnumbered.Has part) := by
    intro R hdelete hstart
    refine ((runAll_keeps (I := fun c => R (c.Has part)) calls (fun call hcall => ?_)
      (linkedAt_start hlinks hstart hmode)).of_ok hrun).table.2
    have hplaces : ∀ id, id ≠ part.id → Places (fun c : PedDisk π δ => R (c.Has part)) id := by
      rintro - hne c q rfl h
      rwa [has_placed hne]
    have hspare := hspares call hcall
    cases call with
    | delete id =>
        refine fun c id' => hdelete ⟨id, hcall⟩ _ _ fun hhas => ?_
        obtain ⟨p, hp, rfl⟩ := has_unnumbered.mp hhas
        exact has_unnumbered.mpr ⟨p, (has_diskRawRemove.mp hp).1, rfl⟩
    | _ => exact hplaces _ hspare
  refine ⟨hend (· → s.disk.core.unnumbered.Has part) (fun _ _ _ hqp hp hq => hp (hqp hq)) id,
    fun hnone => hend (s.disk.core.unnumbered.Has part → ·) (fun hex => ?_) id⟩
  obtain ⟨id, hid⟩ := hex
  exact absurd hid (hnone id)

end Libparted
