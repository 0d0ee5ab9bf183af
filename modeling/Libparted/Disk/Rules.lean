import Libparted.Disk.Layout

/-!
# Rules for the operations

One rule for each operation that changes a table: from what the table satisfies
before, and from what the label's functions do on a clean disk, to what the table
satisfies afterwards.  Pushing and popping, looking up, putting back the old geometry
after a failure and the nesting of the operations are dealt with here, once.

A rule is about a property `I` of tables that renumbering keeps and a property `T`
that all placeholders have.  `At T I n s` says that this is so for the session, at
nesting depth `n` of update mode.  Faults are those of `E`, which may exclude
`PED_ASSERT (0)` but nothing else.
-/

namespace Libparted

open Library

variable {π δ : Type}

/-- Every fault but `PED_ASSERT (0)`. -/
def OtherFault (f : Fault) : Prop := f ≠ .assertion "0"

/-- A fault condition that allows everything but, possibly, `PED_ASSERT (0)`, and
includes all faults of the label's metadata allocator; a property that all new
placeholders have and that does not depend on their geometry. -/
structure Allows (E : Fault → Prop) (T : PedPartition π → Prop) (label : PedDiskType π δ)
    (env : Env) : Prop where
  other : ∀ f, OtherFault f → E f
  alloc : ∀ s, Spec E (label.allocMetadata env) s fun _ s' => s.disk.Padded s'.disk
  placeholder : ∀ type geom, T (.placeholder type geom)
  moved : ∀ part geom, T part → T { part with geom := geom }

/-- Partial correctness allows everything. -/
theorem allows_true (label : PedDiskType π δ) (env : Env) :
    Allows (fun _ => True) (fun _ => True) label env :=
  ⟨fun _ _ => trivial, fun s => label.allocMetadata_frame env s, fun _ _ => trivial,
    fun _ _ _ => trivial⟩

/-- Renumbering leads from `J` to `I`. -/
def Renumbers (label : PedDiskType π δ) (env : Env) (E : Fault → Prop)
    (T : PedPartition π → Prop) (J I : PedDisk π δ → Prop) : Prop :=
  ∀ s : Session π δ, J s.disk.core → s.disk.Padding T →
    Spec E (pedDiskEnumeratePartitions label.toPedDiskOps env) s
      fun _ s' => I s'.disk.core ∧ s'.disk.Padding T

/-- A property that does not look at numbers survives renumbering. -/
theorem renumbers_of_unnumbered {label : PedDiskType π δ} {env : Env} {I : PedDisk π δ → Prop}
    (h : ∀ c c' : PedDisk π δ, c'.unnumbered = c.unnumbered → I c → I c') :
    Renumbers label env (fun _ => True) (fun _ => True) I I := by
  intro s hs _
  refine pedDiskEnumeratePartitions_unnumbered.imp fun _ s' hs' => ⟨h _ _ ?_ hs, ?_⟩
  · rw [← PedDisk.core_unnumbered, hs', PedDisk.core_unnumbered]
  · exact ⟨fun _ _ _ => trivial, fun _ _ _ => trivial⟩

/-- The table of a session has `I` and its placeholders have `T`, at nesting depth `n`
of update mode. -/
structure At (T : PedPartition π → Prop) (I : PedDisk π δ → Prop) (n : ℕ) (s : Session π δ) :
    Prop where
  table : I s.disk.core
  mode : s.disk.updateMode = n
  clean : n ≠ 0 → s.disk.Clean
  padding : s.disk.Padding T

section

variable {label : PedDiskType π δ} {env : Env} {E : Fault → Prop} {I J I' : PedDisk π δ → Prop}
  {T : PedPartition π → Prop} {s : Session π δ} {n : ℕ}

theorem At.imp (h : At T I n s) (hI : ∀ c, I c → J c) : At T J n s :=
  ⟨hI _ h.table, h.mode, h.clean, h.padding⟩

theorem At.thrown (h : At T I n s) (thrown : List PedException) :
    At T I n { s with thrown := thrown } := ⟨h.table, h.mode, h.clean, h.padding⟩

/-- Inside update mode the table is the disk, up to the mode. -/
theorem At.disk_eq (h : At T I (n + 1) s) : s.disk = s.disk.core.withMode (n + 1) := by
  rw [← h.mode]
  exact (h.clean (Nat.succ_ne_zero n)).eq_core

theorem At.of_clean {disk : PedDisk π δ} {thrown : List PedException} (h : I disk.core)
    (hmode : disk.updateMode = n) (hclean : disk.Clean) : At T I n ⟨disk, thrown⟩ :=
  ⟨h, hmode, fun _ => hclean, hclean.padding T⟩

/-! ## Update mode -/

theorem At.push (h : At T I n s) (hE : Allows E T label env) (henum : Renumbers label env E T I I) :
    Spec E (diskPushUpdateMode label.toPedDiskOps env) s fun ok s' => ok = true ∧
      At T I (n + 1) s' ∧ s'.disk.core.unnumbered = s.disk.core.unnumbered := by
  have henum' : Renumbers label env E T
      (fun c => I c ∧ c.unnumbered = s.disk.core.unnumbered)
      fun c => I c ∧ c.unnumbered = s.disk.core.unnumbered := by
    intro t ht hpad
    refine (henum t ht.1 hpad).of_and pedDiskEnumeratePartitions_unnumbered
      fun _ t' ⟨hI, hpad'⟩ ht' => ⟨⟨hI, ?_⟩, hpad'⟩
    rw [← PedDisk.core_unnumbered, ht', PedDisk.core_unnumbered, ht.2]
  refine (diskPushUpdateMode_spec
    (I := fun c => I c ∧ c.unnumbered = s.disk.core.unnumbered) henum' (Or.inr fun f hf => hE.other f ?_)
    (fun hne => h.clean (h.mode ▸ hne)) ⟨h.table, rfl⟩ h.padding).imp ?_
  · rcases hf with rfl | rfl <;> simp [OtherFault]
  · rintro ok s' ⟨hok, ⟨hI, hsame⟩, hmode, hclean, -⟩
    exact ⟨hok, ⟨hI, by rw [hmode, h.mode], fun _ => hclean, hclean.padding T⟩, hsame⟩

theorem spec_pop (hE : Allows E T label env) (hmode : s.disk.updateMode = n + 1)
    (hpad : s.disk.Padding T) :
    Spec E (diskPopUpdateMode label.allocMetadata env) s fun ok s' => ok = true ∧
      s'.disk.core = s.disk.core ∧ s'.disk.updateMode = n ∧
      (n ≠ 0 → s.disk.Clean → s'.disk.Clean) ∧ s'.disk.Padding T := by
  refine (diskPopUpdateMode_spec (fun _ => hE.alloc s)
    (Or.inr fun f hf => hE.other f ?_) (by omega) hE.placeholder hpad).imp ?_
  · rcases hf with rfl | rfl <;> simp [OtherFault]
  · rintro ok s' ⟨hok, hcore, hmode', hclean, -, hpad'⟩
    have hn : s'.disk.updateMode = n := by omega
    exact ⟨hok, hcore, hn, fun hne => hclean (hn ▸ hne), hpad'⟩

theorem At.pop (h : At T I (n + 1) s) (hE : Allows E T label env) :
    Spec E (diskPopUpdateMode label.allocMetadata env) s fun ok s' => ok = true ∧ At T I n s' := by
  refine (spec_pop hE h.mode h.padding).imp ?_
  rintro ok s' ⟨hok, hcore, hmode, hclean, hpad⟩
  exact ⟨hok, hcore ▸ h.table, hmode, fun hne => hclean hne (h.clean (Nat.succ_ne_zero n)), hpad⟩

theorem At.enumerate (h : At T J n s) (henum : Renumbers label env E T J I) :
    Spec E (pedDiskEnumeratePartitions label.toPedDiskOps env) s fun _ s' => At T I n s' := by
  refine ((henum s h.table h.padding).of_and pedDiskEnumeratePartitions_unnumbered)
    fun _ s' ⟨hI, hpad⟩ hs' =>
      ⟨hI, (congrArg PedDisk.updateMode hs').trans h.mode, fun hne => ?_, hpad⟩
  exact PedDisk.Each.renumbered (h.clean hne) (fun _ _ => Iff.rfl) (fun _ _ => Iff.rfl) hs'

theorem spec_lookup {id : ℕ} {Q : PedPartition π → Session π δ → Prop}
    (hfault : E (.undefined "partition is not on the disk"))
    (h : ∀ part, s.disk.find? id = some part → Q part s) : Spec E (lookup id) s Q := by
  unfold lookup
  simp only [spec_bind, spec_getDisk]
  cases hfind : s.disk.find? id with
  | none => exact hfault
  | some part => exact h part hfind

/-! ## Removing -/

/-- What taking one partition off a table does. -/
def RemovesTo (I J : PedDisk π δ → Prop) (id : ℕ) : Prop :=
  ∀ c part, I c → c.find? id = some part → (part.isExtended = true → c.logicals = []) →
    J (diskRawRemove c id)

theorem core_diskRawRemove (disk : PedDisk π δ) (id : ℕ) :
    (diskRawRemove disk id).core = diskRawRemove disk.core id := by
  simp only [diskRawRemove, PedDisk.core, PedDisk.strip, PedDisk.withMode, List.filter_filter,
    Bool.and_comm]

/-- **Removing** takes the partition out and renumbers. -/
theorem At.remove {id : ℕ} (h : At T I n s) (hE : Allows E T label env)
    (henum : Renumbers label env E T I I) (hremove : RemovesTo I J id)
    (henum' : Renumbers label env E T J I') :
    Spec E (pedDiskRemovePartition label env id) s fun r s' => At T I' n s' ∧
      ∃ part c, r = some part ∧ I c ∧ c.find? id = some part := by
  unfold pedDiskRemovePartition
  refine (h.push hE henum).seq fun ok s₁ hpushed => ?_
  obtain ⟨hok, h₁, _⟩ := hpushed
  subst hok
  refine Spec.bind (spec_lookup (hE.other _ (by simp [OtherFault])) fun part hfind => ?_)
  simp only [spec_bind, spec_getDisk, spec_assertThat, spec_modifyDisk]
  refine ⟨fun hempty => ?_, fun _ => hE.other _ (by simp [OtherFault])⟩
  have hclean := h₁.clean (Nat.succ_ne_zero n)
  have hfind' : s₁.disk.core.find? id = some part := by rw [PedDisk.find?_core, hfind]
  have hlog : part.isExtended = true → s₁.disk.core.logicals = [] := by
    intro hext
    rw [h₁.disk_eq] at hempty
    have hnil : (s₁.disk.core.withMode (n + 1)).logicals = [] := by simpa [hext] using hempty
    exact hnil
  have hJ : At T J (n + 1) { s₁ with disk := diskRawRemove s₁.disk id } := by
    refine At.of_clean ?_ h₁.mode hclean.diskRawRemove
    rw [core_diskRawRemove]
    exact hremove _ part h₁.table hfind' hlog
  refine (hJ.pop hE).imp fun ok s₃ hpopped => ?_
  obtain ⟨hok, h₃⟩ := hpopped
  subst hok
  refine (h₃.enumerate henum').seq fun _ s₄ h₄ => ?_
  exact ⟨h₄, part, _, rfl, h₁.table, hfind'⟩

section Delete

variable (hE : Allows E T label env) (henum : Renumbers label env E T I I)
  (hremove : ∀ id, RemovesTo I J id) (henum' : Renumbers label env E T J I)

include hE henum hremove henum'

theorem At.deleteSimple (id : ℕ) (h : At T I n s) :
    Spec E (deleteSimple label env id) s fun _ s' => At T I n s' := by
  unfold Libparted.deleteSimple
  refine (h.push hE henum).seq fun ok s₁ ⟨hok, h₁, _⟩ => ?_
  subst hok
  refine (h₁.remove hE henum (hremove id) henum').seq fun _ s₂ ⟨h₂, _⟩ => ?_
  refine (h₂.pop hE).seq fun ok s₃ ⟨hok, h₃⟩ => ?_
  subst hok
  exact h₃

theorem At.deleteAllLogical (l : List (PedPartition π)) (h : At T I n s) :
    Spec E (pedDiskDeleteAllLogical label env l) s fun _ s' => At T I n s' := by
  induction l generalizing s with
  | nil => exact h
  | cons walk rest ih =>
      unfold pedDiskDeleteAllLogical
      refine (At.deleteSimple hE henum hremove henum' walk.id h).seq fun ok s₁ h₁ => ?_
      cases ok with
      | true => exact ih h₁
      | false => exact h₁

/-- **Deleting** is removing, the logical partitions of an extended one first. -/
theorem At.delete (id : ℕ) (h : At T I n s) :
    Spec E (pedDiskDeletePartition label env id) s fun _ s' => At T I n s' := by
  unfold pedDiskDeletePartition
  refine (h.push hE henum).seq fun ok s₁ ⟨hok, h₁, _⟩ => ?_
  subst hok
  refine Spec.bind (spec_lookup (hE.other _ (by simp [OtherFault])) fun part _ => ?_)
  have hrest : ∀ s₂ : Session π δ, At T I (n + 1) s₂ → Spec E (do
      let _ ← pedDiskRemovePartition label env id
      if !(← diskPopUpdateMode label.allocMetadata env) then
        return false
      return true) s₂ fun _ s' => At T I n s' := by
    intro s₂ h₂
    refine (h₂.remove hE henum (hremove id) henum').seq fun _ s₃ ⟨h₃, _⟩ => ?_
    refine (h₃.pop hE).seq fun ok s₄ ⟨hok, h₄⟩ => ?_
    subst hok
    exact h₄
  refine Spec.ite (fun _ => ?_) fun _ => hrest s₁ h₁
  refine Spec.bind (spec_getDisk.mpr ?_)
  exact (At.deleteAllLogical hE henum hremove henum' _ h₁).seq fun _ s₂ h₂ => hrest s₂ h₂

end Delete

/-! ## Adding -/

/-- What `_partition_check_basic_sanity` lets through. -/
structure BasicSane (ops : PedDiskOps π δ) (disk : PedDisk π δ) (part : PedPartition π) : Prop where
  feature : ops.extended = false → part.type ≠ .ofExtended ∧ part.type ≠ .ofLogical
  room : part.isActive = true → part.type.logical = false →
    pedDiskGetPrimaryPartitionCount disk + 1 ≤ ops.getMaxPrimaryPartitionCount disk
  parent : part.type.logical = true → (pedDiskExtendedPartition disk).isSome = true

theorem basicSane_of_check {ops : PedDiskOps π δ} {disk : PedDisk π δ} {part : PedPartition π}
    {thrown : List PedException} :
    Spec (fun _ => False) (partitionCheckBasicSanity ops env disk part) thrown
      fun ok _ => ok = true → BasicSane ops disk part := by
  unfold partitionCheckBasicSanity
  dsimp only
  split_ifs with hfeature hactive hroom hparent hparent
  all_goals first
    | exact fun h => absurd h Bool.false_ne_true
    | refine fun _ => ⟨fun hext => ?_, fun hact hlog => ?_, fun hlog => ?_⟩
  all_goals simp_all [Option.isSome_iff_ne_none]

/-- What placing a new partition does to a table, on the way through the label's
numbering and alignment and through the checks, when the call was made at nesting
depth `n`. -/
def AddsTo (label : PedDiskType π δ) (env : Env) (E : Fault → Prop) (T : PedPartition π → Prop)
    (n : ℕ) (part : PedPartition π) (constraint : Option PedConstraint)
    (I I' : PedDisk π δ → Prop) (R : PedPartition π → Prop) : Prop :=
  ∀ disk thrown, I disk.core → disk.Clean → disk.updateMode = n + 1 →
    Spec E (addPartitionAlignIfActive label.toPedDiskOps env disk part constraint) thrown fun r t =>
      R r.2 ∧ (r.2.isActive = false → n = 0 ∧ T r.2) ∧ (r.1 = true →
        Spec E (checkPartition label.toPedDiskOps env disk r.2) t fun ok _ =>
          ok = true → (r.2.isActive = true → disk.find? r.2.id = none) → I' (disk.place r.2).core)

theorem diskRawAdd_spec {part : PedPartition π} {Q : Bool → Session π δ → Prop}
    (hassert : E (.assertion "disk->update_mode")) (hfault : ∀ what, E (.undefined what))
    (h : (part.isActive = true → s.disk.find? part.id = none) →
      Q true { s with disk := s.disk.place part }) : Spec E (diskRawAdd part) s Q := by
  unfold diskRawAdd
  simp only [spec_bind, spec_getDisk, spec_assertThat]
  refine ⟨fun _ => ?_, fun _ => hassert⟩
  refine Spec.ite (fun _ => hfault _) fun hnew => ?_
  have hnone : part.isActive = true → s.disk.find? part.id = none := by
    intro hact
    simpa [hact] using hnew
  cases hl : part.type.logical with
  | true =>
      simp only [if_true]
      refine Spec.ite (fun _ => hfault _) fun _ => ?_
      have := h hnone
      rw [PedDisk.place_logical hl] at this
      exact this
  | false =>
      have := h hnone
      rw [PedDisk.place_top hl] at this
      exact this

/-- Placing a partition leaves the rest of the disk alone. -/
theorem place_rest (disk : PedDisk π δ) (part : PedPartition π) :
    (disk.place part).needsClobber = disk.needsClobber ∧
      (disk.place part).updateMode = disk.updateMode := by
  unfold PedDisk.place
  split <;> exact ⟨rfl, rfl⟩

theorem addPartitionPlace_spec {part : PedPartition π} {constraint : Option PedConstraint}
    {R : PedPartition π → Prop} (hE : Allows E T label env) (h : At T I (n + 1) s)
    (hadd : AddsTo label env E T n part constraint I I' R) :
    Spec E (addPartitionPlace label.toPedDiskOps env part constraint) s fun r s' => R r.2 ∧
      s'.disk.updateMode = n + 1 ∧ (n ≠ 0 → s'.disk.Clean) ∧ s'.disk.Padding T ∧
      (r.1 = true → I' s'.disk.core) ∧ (r.1 = false → I s'.disk.core) := by
  unfold addPartitionPlace
  refine Spec.bind (spec_getDisk.mpr (Spec.bind (spec_ask.mpr ?_)))
  refine (hadd s.disk s.thrown h.table (h.clean n.succ_ne_zero) h.mode).imp
    fun r t ⟨hR, hpart, hcheck⟩ => ?_
  obtain ⟨ok, part'⟩ := r
  cases ok with
  | false => exact ⟨hR, h.mode, fun _ => h.clean n.succ_ne_zero, h.padding,
      fun hno => absurd hno Bool.false_ne_true, fun _ => h.table⟩
  | true =>
      refine Spec.bind (spec_ask.mpr ((hcheck rfl).imp fun ok t hplace => ?_))
      cases ok with
      | false => exact ⟨hR, h.mode, fun _ => h.clean n.succ_ne_zero, h.padding,
          fun hno => absurd hno Bool.false_ne_true, fun _ => h.table⟩
      | true =>
          refine Spec.bind (diskRawAdd_spec (hE.other _ (by simp [OtherFault]))
            (fun what => hE.other _ (by simp [OtherFault])) fun hnew => ?_)
          have hclean : n ≠ 0 → (s.disk.place part').Clean := fun hne =>
            (h.clean n.succ_ne_zero).place (Bool.not_eq_false _ ▸ fun hno => hne (hpart hno).1)
          have hpad : (s.disk.place part').Padding T := PedDisk.Each.place h.padding
            (fun _ hno => (hpart hno).2) fun _ hno => (hpart hno).2
          exact ⟨hR, (place_rest s.disk part').2.trans h.mode, hclean, hpad,
            fun _ => hplace rfl hnew, fun hno => absurd hno.symm Bool.false_ne_true⟩

/-- **Adding** places the partition, or leaves the table as it is. -/
theorem At.add {part : PedPartition π} {constraint : Option PedConstraint}
    {R : PedPartition π → Prop} (h : At T I n s) (hE : Allows E T label env)
    (henum : Renumbers label env E T I I) (hR : R part)
    (hadd : part.id ≠ 0 → BasicSane label.toPedDiskOps s.disk part →
      AddsTo label env E T n part constraint I I' R) :
    Spec E (pedDiskAddPartition label env part constraint) s fun r s' => R r.2 ∧
      (r.1 = true → At T I' n s') ∧ (r.1 = false → At T I n s') := by
  unfold pedDiskAddPartition
  simp only [spec_bind, spec_assertThat]
  refine ⟨fun hid => ?_, fun _ => hE.other _ (by simp [OtherFault])⟩
  have hid : part.id ≠ 0 := by simpa using hid
  unfold addPartitionWith
  refine Spec.bind (spec_getDisk.mpr (Spec.bind (spec_ask.mpr
    (basicSane_of_check.mono (fun _ => False.elim) fun ok t hsane => ?_))))
  cases ok with
  | false => exact ⟨hR, fun hno => absurd hno Bool.false_ne_true, fun _ => h.thrown t⟩
  | true =>
      refine ((h.thrown t).push hE henum).seq fun ok s₁ ⟨hok, h₁, _⟩ => ?_
      subst hok
      refine (addPartitionPlace_spec hE h₁ (hadd hid (hsane rfl))).seq
        fun r s₂ ⟨hR, hmode, hclean, hpad, hyes, hno⟩ => ?_
      obtain ⟨ok, part'⟩ := r
      have hpop : ∀ K : PedDisk π δ → Prop, K s₂.disk.core →
          Spec E (diskPopUpdateMode label.allocMetadata env) s₂
            fun ok s' => ok = true ∧ At T K n s' := by
        intro K hK
        refine (spec_pop hE hmode hpad).imp fun ok s₃ ⟨hok, hcore, hmode', hclean', hpad'⟩ => ?_
        exact ⟨hok, hcore.symm ▸ hK, hmode', fun hne => hclean' hne (hclean hne), hpad'⟩
      cases ok with
      | false =>
          refine (hpop I (hno rfl)).seq fun _ s₃ h₃ => ?_
          exact ⟨hR, fun h => absurd h Bool.false_ne_true, fun _ => h₃.2⟩
      | true =>
          refine (hpop I' (hyes rfl)).seq fun ok s₃ ⟨hok, h₃⟩ => ?_
          subst hok
          refine Spec.bind (spec_getDisk.mpr (Spec.bind ?_))
          refine spec_sanity (Or.inr fun f hf => hE.other f ?_) ?_
          · rcases hf with rfl | rfl <;> simp [OtherFault]
          · exact ⟨hR, fun _ => h₃, fun h => absurd h.symm Bool.false_ne_true⟩

/-! ## Faults of the helpers -/

theorem pedGeometryInit_spec {start length : ℤ} {thrown : List PedException} :
    Spec (· = .assertion "start >= 0") (pedGeometryInit env start length) thrown
      fun _ _ => True := by
  unfold pedGeometryInit
  refine Spec.bind (spec_lift.mpr ⟨fun r _ => ?_, fun f hf => ?_⟩)
  · cases r with
    | none => trivial
    | some geom => trivial
  · unfold pedGeometrySet at hf
    split at hf
    · split at hf <;> simp at hf
    · exact (Except.error.inj hf).symm

theorem pedAssert_fails {cond : Bool} {text : String} (h : text ≠ "0") :
    Fails OtherFault (pedAssert cond text) := by
  unfold pedAssert
  exact Fails.ite (fun _ => fails_ok _) fun _ => fails_error.mpr (by simpa [OtherFault] using h)

theorem pedGeometrySet_fails (start length : ℤ) :
    Fails OtherFault (pedGeometrySet start length) := by
  unfold pedGeometrySet
  split
  · split <;> exact fails_ok _
  · exact fails_error.mpr (by simp [OtherFault])

theorem pedGeometryInitUnchecked_fails (start length : ℤ) :
    Fails OtherFault (pedGeometryInitUnchecked start length) := by
  unfold pedGeometryInitUnchecked
  refine (pedGeometrySet_fails start length).bind fun r _ => ?_
  cases r with
  | none => exact fails_error.mpr (by simp [OtherFault])
  | some geom => exact fails_ok _

theorem partitionGetOverlapConstraint_fails {disk : PedDisk π δ} {part : PedPartition π}
    {geom : PedGeometry} : Fails OtherFault (partitionGetOverlapConstraint disk part geom) := by
  unfold partitionGetOverlapConstraint
  refine (pedAssert_fails (by decide)).bind fun _ _ => Fails.bind ?_ fun limits _ => ?_
  · unfold overlapLimits
    refine Fails.ite (fun _ => ?_) fun _ => fails_ok _
    cases pedDiskExtendedPartition disk with
    | none => exact fails_error.mpr (by simp [OtherFault])
    | some ext => exact fails_ok _
  · exact Fails.ite (fun _ => fails_ok _) fun _ =>
      (pedGeometryInitUnchecked_fails _ _).bind fun _ _ => fails_ok _

theorem Allows.fails {α : Type} {x : Except Fault α} (hE : Allows E T label env)
    (h : Fails OtherFault x) : Fails E x := fun f hf => hE.other f (h f hf)

/-! ## Checks -/

/-- Asking whether objections may be ignored never ends the program. -/
theorem allIgnored_spec {thrown : List PedException} (l : List String) :
    Spec (fun _ => False) (allIgnored env l) thrown fun _ _ => True := by
  induction l generalizing thrown with
  | nil => trivial
  | cons message rest ih =>
      unfold allIgnored
      refine Spec.seq (R := fun _ _ => True) trivial fun ok t _ => ?_
      cases ok with
      | true => exact ih
      | false => trivial

theorem placementObjections_fails {disk : PedDisk π δ} {part : PedPartition π} :
    Fails (fun f => ∃ what, f = .undefined what) (placementObjections env disk part) := by
  unfold placementObjections
  refine Fails.bind ?_ fun _ _ => fails_pure _
  unfold outsideExtended
  refine Fails.ite (fun _ => ?_) fun _ => fails_ok _
  cases pedDiskExtendedPartition disk with
  | none => exact fails_error.mpr ⟨_, rfl⟩
  | some ext => exact fails_ok _

/-- The checks end the program only where the label's own check does. -/
theorem checkPartition_spec {ops : PedDiskOps π δ} {disk : PedDisk π δ} {part : PedPartition π}
    {thrown : List PedException} (hE : ∀ what, E (.undefined what))
    (hcheck : ∀ thrown, Spec E (ops.partitionCheck env disk part) thrown fun _ _ => True) :
    Spec E (checkPartition ops env disk part) thrown fun _ _ => True := by
  unfold checkPartition
  have hext : Spec E (checkIfExtended env disk part) thrown fun _ _ => True := by
    unfold checkIfExtended checkExtendedPartition
    refine Spec.ite (fun _ => ?_) fun _ => trivial
    cases pedDiskExtendedPartition disk <;> dsimp only <;> split_ifs <;> trivial
  refine hext.seq fun ok t _ => ?_
  cases ok with
  | false => trivial
  | true =>
      refine Spec.bind (Spec.lift (fun f hf => ?_) fun objections _ => ?_)
      · obtain ⟨what, rfl⟩ := placementObjections_fails f hf
        exact hE what
      · refine Spec.bind ((allIgnored_spec objections).mono (fun _ => False.elim) fun ok t' _ => ?_)
        cases ok with
        | false => trivial
        | true =>
            simp only [Bool.not_true, Bool.false_eq_true, if_false]
            exact Spec.ite (fun _ => trivial) fun _ => hcheck t'

theorem partitionAlign_total {ops : PedDiskOps π δ} {disk : PedDisk π δ} {part : PedPartition π}
    {constraint : Option PedConstraint} {thrown : List PedException}
    (hE : ∀ f, OtherFault f → E f)
    (halign : ∀ thrown, Spec E (ops.partitionAlign env disk part constraint) thrown
      fun _ _ => True) :
    Spec E (partitionAlign ops env disk part constraint) thrown fun _ _ => True := by
  unfold partitionAlign
  refine Spec.bind (Spec.lift (fun f hf => hE f (pedAssert_fails (by decide) f hf)) fun _ _ => ?_)
  refine Spec.bind (Spec.lift (fun f hf => hE f (pedAssert_fails (by decide) f hf)) fun _ _ => ?_)
  exact Spec.ite (fun _ => trivial) fun _ => halign thrown

/-! ## Moving -/

/-- What moving the partition `id` does to a table, on the way through the label's
alignment and through the checks.  `part` is the object as it was before update mode
was entered. -/
def MovesTo (label : PedDiskType π δ) (env : Env) (E : Fault → Prop) (id : ℕ)
    (constraint : Option PedConstraint) (I I' : PedDisk π δ → Prop) : Prop :=
  ∀ disk old part newGeom overlap thrown, I disk.core → disk.Clean → disk.updateMode ≠ 0 →
    disk.find? id = some old → part.id = id → part.type = old.type →
    partitionGetOverlapConstraint disk part newGeom = .ok overlap →
    (pedConstraintIntersect overlap constraint = none → constraint = none) →
    Spec E (partitionAlign label.toPedDiskOps env (disk.setGeom id newGeom)
      { old with geom := newGeom } (pedConstraintIntersect overlap constraint)) thrown fun r t =>
      r.1 = true → Spec E (checkPartition label.toPedDiskOps env (disk.setGeom id r.2)
        { old with geom := r.2 }) t fun ok _ =>
          ok = true → I' ((diskRawRemove disk id).place { old with geom := r.2 }).core

theorem diskRawRemove_setGeom (disk : PedDisk π δ) (id : ℕ) (g : PedGeometry) :
    diskRawRemove (disk.setGeom id g) id = diskRawRemove disk id := by
  have h : ∀ l : List (PedPartition π),
      (l.map fun part => if part.id = id then { part with geom := g } else part).filter
          (fun part => part.id ≠ id) = l.filter fun part => part.id ≠ id := by
    intro l
    induction l with
    | nil => rfl
    | cons p ps ih =>
        by_cases hp : p.id = id
        · simpa [hp] using ih
        · simpa [hp] using ih
  simp only [diskRawRemove, PedDisk.setGeom, PedDisk.update, h]

/-- The failure exit puts the old geometry back. -/
theorem At.setGeomFail {id : ℕ} {old : PedPartition π} {g : PedGeometry} {s₁ : Session π δ}
    (hE : Allows E T label env) (hlinks : ∀ c, I c → WellLinked c) (h : At T I (n + 1) s₁)
    (hold : s₁.disk.find? id = some old) (hs : s.disk = s₁.disk.setGeom id g) :
    Spec E (setGeomFail label env id old.geom) s fun ok s' => ok = false ∧ At T I n s' := by
  unfold Libparted.setGeomFail
  have hmode : s.disk.updateMode = n + 1 := by
    rw [hs]
    exact h.mode
  have hclean : s.disk.Clean := hs ▸ (h.clean (Nat.succ_ne_zero n)).setGeom
  refine (spec_pop hE hmode (hclean.padding T)).seq
    fun ok s' ⟨_, hcore, hmode', hclean', hpad⟩ => ?_
  simp only [spec_bind, spec_modifyDisk, spec_pure]
  -- the table is again what it was before the geometry was overwritten
  have hback : (s'.disk.setGeom id old.geom).core = s₁.disk.core := by
    rw [PedDisk.core_setGeom, hcore, hs, PedDisk.core_setGeom, PedDisk.setGeom_setGeom]
    exact (hlinks _ h.table).setGeom_self (by rw [PedDisk.find?_core, hold])
  exact ⟨trivial, hback ▸ h.table, hmode', fun hne => (hclean' hne hclean).setGeom,
    hpad.setGeom hE.moved⟩

theorem At.setGeomPlace {id : ℕ} {constraint overlap : Option PedConstraint}
    {old part : PedPartition π} {newGeom : PedGeometry} {s₁ : Session π δ}
    (hE : Allows E T label env) (hlinks : ∀ c, I c → WellLinked c)
    (hmove : MovesTo label env E id constraint I I') (h : At T I (n + 1) s₁)
    (hold : s₁.disk.find? id = some old) (hid : part.id = id) (htype : part.type = old.type)
    (hoverlap : partitionGetOverlapConstraint s₁.disk part newGeom = .ok overlap)
    (hk : pedConstraintIntersect overlap constraint = none → constraint = none)
    (hs : s.disk = s₁.disk.setGeom id newGeom) :
    Spec E (setGeomPlace label env id (pedConstraintIntersect overlap constraint) old.geom) s
      fun ok s' => (ok = true → At T I' n s') ∧ (ok = false → At T I n s') := by
  have hclean := h.clean (Nat.succ_ne_zero n)
  obtain ⟨-, hact, hidOld⟩ := PedDisk.mem_of_find? hold
  have hfail : ∀ (t : Session π δ) g, t.disk = s₁.disk.setGeom id g →
      Spec E (Libparted.setGeomFail label env id old.geom) t
        fun ok s' => (ok = true → At T I' n s') ∧ (ok = false → At T I n s') := by
    intro t g ht
    refine (h.setGeomFail hE hlinks hold ht).imp fun ok s' hfailed => ?_
    obtain ⟨hok, h'⟩ := hfailed
    exact ⟨fun hyes => absurd (hok ▸ hyes) Bool.false_ne_true, fun _ => h'⟩
  unfold Libparted.setGeomPlace
  have hmissing : E (.undefined "partition is not on the disk") :=
    hE.other _ (by simp [OtherFault])
  refine Spec.bind (spec_lookup hmissing fun part₂ hpart₂ => ?_)
  obtain ⟨-, old', hold', rfl⟩ := PedDisk.find?_setGeom (hs ▸ hpart₂)
  obtain rfl : old' = old := Option.some.inj (hold'.symm.trans hold)
  refine Spec.bind (spec_getDisk.mpr (Spec.bind (spec_ask.mpr ?_)))
  rw [hs]
  refine (hmove s₁.disk old' part newGeom overlap s.thrown h.table hclean
    (by rw [h.mode]; exact Nat.succ_ne_zero n) hold hid htype hoverlap hk).imp fun r t hcheck => ?_
  obtain ⟨ok, geom⟩ := r
  simp only [spec_bind, spec_modifyDisk, PedDisk.setGeom_setGeom]
  cases ok with
  | false =>
      simp only [Bool.not_false, if_true]
      exact hfail _ geom rfl
  | true =>
      refine Spec.bind (spec_lookup hmissing fun part₃ hpart₃ => ?_)
      obtain ⟨-, old'', hold'', rfl⟩ := PedDisk.find?_setGeom hpart₃
      obtain rfl : old'' = old' := Option.some.inj (hold''.symm.trans hold)
      refine Spec.bind (spec_getDisk.mpr (Spec.bind (spec_ask.mpr ?_)))
      refine (hcheck rfl).imp fun ok t' hplace => ?_
      cases ok with
      | false =>
          simp only [Bool.not_false, if_true]
          exact hfail _ geom rfl
      | true =>
          simp only [Bool.not_true, Bool.false_eq_true, if_false, spec_bind, spec_modifyDisk]
          refine diskRawAdd_spec (hE.other _ (by simp [OtherFault]))
            (fun what => hE.other _ (by simp [OtherFault])) fun _ => ?_
          have h₂ : At T I' (n + 1) ⟨(diskRawRemove s₁.disk id).place { old'' with geom := geom }, t'⟩ :=
            At.of_clean (hplace rfl) ((place_rest _ _).2.trans h.mode)
              (PedDisk.Clean.place hclean.diskRawRemove hact)
          simp only [diskRawRemove_setGeom]
          refine (h₂.pop hE).imp fun ok s₃ hpopped => ?_
          obtain ⟨hok, h₃⟩ := hpopped
          subst hok
          exact ⟨fun _ => h₃, fun hno => absurd hno.symm Bool.false_ne_true⟩

/-- **Moving** replaces the partition, or leaves the table as it is. -/
theorem At.setGeom {id : ℕ} {constraint : Option PedConstraint} {start «end» : ℤ}
    (h : At T I n s) (hE : Allows E T label env) (hlinks : ∀ c, I c → WellLinked c)
    (henum : Renumbers label env E T I I) (hmove : MovesTo label env E id constraint I I') :
    Spec E (pedDiskSetPartitionGeom label env id constraint start «end») s
      fun ok s' => (ok = true → At T I' n s') ∧ (ok = false → At T I n s') := by
  unfold pedDiskSetPartitionGeom
  refine Spec.bind (spec_lookup (hE.other _ (by simp [OtherFault])) fun part hpart => ?_)
  refine Spec.bind (spec_ask.mpr (pedGeometryInit_spec.mono (fun f hf => hE.other f ?_)
    fun r t _ => ?_))
  · rw [hf]
    simp [OtherFault]
  cases r with
  | none => exact ⟨fun hno => absurd hno Bool.false_ne_true, fun _ => h.thrown t⟩
  | some newGeom =>
      refine ((h.thrown t).push hE henum).seq fun ok s₁ ⟨hok, h₁, hsame⟩ => ?_
      subst hok
      -- entering update mode may have renumbered the partition, but has not moved it
      have hfind := congrArg (PedDisk.find? · id) hsame
      simp only [PedDisk.find?_unnumbered, PedDisk.find?_core, hpart, Option.map_some] at hfind
      obtain ⟨old, hold, heq⟩ := Option.map_eq_some_iff.mp hfind
      have hgeom : old.geom = part.geom := congrArg (·.geom) heq
      have htype : part.type = old.type := (congrArg (·.type) heq).symm
      have hid : part.id = id := (PedDisk.mem_of_find? hpart).2.2
      refine Spec.bind (spec_getDisk.mpr (Spec.bind
        (Spec.lift (hE.fails partitionGetOverlapConstraint_fails) fun overlap hoverlap => ?_)))
      rw [← hgeom]
      dsimp only
      refine Spec.ite (fun _ => ?_) fun hk => ?_
      · refine Spec.bind (spec_ask.mpr (spec_iff.mpr ⟨fun _ t' _ => ?_, fun _ hf => ?_⟩))
        · refine (h₁.setGeomFail (g := old.geom) hE hlinks hold ?_).imp
            fun ok s' ⟨hok, h'⟩ => ⟨fun hyes => absurd (hok ▸ hyes) Bool.false_ne_true, fun _ => h'⟩
          have hself := (hlinks _ h₁.table).setGeom_self (by rw [PedDisk.find?_core, hold])
          calc s₁.disk = s₁.disk.core.withMode (n + 1) := h₁.disk_eq
            _ = (s₁.disk.core.setGeom id old.geom).withMode (n + 1) := by rw [hself]
            _ = (s₁.disk.core.withMode (n + 1)).setGeom id old.geom := rfl
            _ = s₁.disk.setGeom id old.geom := by rw [← h₁.disk_eq]
        · cases hf
      · refine Spec.bind (spec_modifyDisk.mpr ?_)
        refine h₁.setGeomPlace hE hlinks hmove hold hid htype hoverlap (fun hnone => ?_) rfl
        simpa [hnone] using hk

end

end Libparted
