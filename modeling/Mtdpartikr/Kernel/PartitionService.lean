import Mtdpartikr.Kernel.Ioctl
import Mtdpartikr.Lib.Draft
import Mtdpartikr.Lib.Packing

/-!
# The control device as a service for partition tables

What a control device is for, said without its data structures: a client drafts a table of extents
of the backing MTD, publishes it as a whole, withdraws it, and edits the published table.  This is
`Draft.service` over the extents the backing MTD can hold; `MtdpartctlDevice.tables` is the device
as a state of it, and `Explains` relates a call and its return value to what the service did.

The MTD core is not part of this repository; `MtdCore.KeepsTable` is what its functions do with the
list of partitions of a master.
-/

namespace Mtdpartikr

/-! ### Extents -/

/-- A range of an MTD. -/
structure Extent where
  offset : ℕ
  length : ℕ
  deriving DecidableEq

def Extent.bytes (x : Extent) : Finset ℕ := Finset.Ico x.offset (x.offset + x.length)

/-- A non-empty extent of whole erase blocks inside the MTD. -/
structure Extent.Valid (mtd : MtdInfo) (x : Extent) : Prop where
  pos : 0 < x.length
  le_size : x.offset + x.length ≤ mtd.size.toNat
  offset_dvd : mtd.erasesize.toNat ∣ x.offset
  length_dvd : mtd.erasesize.toNat ∣ x.length

/-- The extents share no byte. -/
def Extent.Apart (x y : Extent) : Prop := Disjoint x.bytes y.bytes

def MtdPartitionInfo.extent (info : MtdPartitionInfo) : Extent :=
  ⟨info.offset.toNat, info.length.toNat⟩

def MtdRecipePart.extent (part : MtdRecipePart) : Extent := ⟨part.offset.toNat, part.length.toNat⟩

def ChildMtd.extent (child : ChildMtd) : Extent := ⟨child.offset.toNat, child.size.toNat⟩

/-! ### The MTD core's list of partitions -/

/-- The partition made of an array entry.  An entry without a name is refused; one that names a
range of the master, and does not leave its size open, becomes the partition over that range. -/
structure ChildOf (size : UInt64) (entry : MtdPartition) (child : ChildMtd) : Prop where
  named : entry.name ≠ none
  extent : entry.size ≠ 0 → entry.offset.toNat + entry.size.toNat ≤ size.toNat →
    child.offset = entry.offset ∧ child.size = entry.size

/-- What the MTD core does with the list of partitions of a master of the given size. -/
structure MtdCore.KeepsTable (core : MtdCore) (size : UInt64) : Prop where
  /-- A size is an `loff_t`. -/
  size_lt : size.toNat < 2 ^ 63
  /-- Registration makes one partition of each array entry, in order. -/
  parseRegister : ∀ m entries n, m.partitions = [] →
    0 ≤ (core.mtdDeviceParseRegister m entries n).1 →
      List.Forall₂ (ChildOf size) (entries.getD [])
        (core.mtdDeviceParseRegister m entries n).2.partitions
  /-- An added partition joins the list at its end. -/
  addPartition : ∀ m name offset length, 0 ≤ (core.mtdAddPartition m name offset length).1 →
    0 ≤ offset.toInt → 0 < length.toInt → offset.toInt + length.toInt ≤ size.toNat →
      ∃ index, (core.mtdAddPartition m name offset length).2.partitions =
        m.partitions ++ [⟨index, offset.toUInt64, length.toUInt64⟩]
  /-- The first partition with the index leaves the list. -/
  delPartition : ∀ m partno, 0 ≤ (core.mtdDelPartition m partno).1 →
    (core.mtdDelPartition m partno).2.partitions =
      m.partitions.eraseP fun child => child.index = partno

/-- A core whose calls succeed: it lets go of an MTD, and registers an array whose entries have
names. -/
structure MtdCore.Succeeds (core : MtdCore) : Prop where
  unregister : ∀ m, 0 ≤ (core.mtdDeviceUnregister m).1
  parseRegister : ∀ m entries n, (∀ entry ∈ entries.getD [], entry.name ≠ none) →
    0 ≤ (core.mtdDeviceParseRegister m entries n).1

/-- A kernel in which nothing goes wrong in a call on a device of the given size. -/
structure Env.Succeeds (env : Env) (size : UInt64) : Prop where
  kvzalloc : env.kvzalloc = true
  core : env.core.Succeeds
  table : env.core.KeepsTable size

/-- A core in which nothing goes wrong by itself: registration fails for a nameless entry only,
and a deletion for an index that is not there. -/
def MtdCore.keeping : MtdCore where
  mtdDeviceUnregister m := (0, { m with registered := false, partitions := [] })
  mtdDeviceParseRegister m entries _ :=
    if (entries.getD []).all fun entry => entry.name.isSome then
      (0, { m with
        registered := true
        partitions := (entries.getD []).mapIdx fun i entry =>
          ⟨m.index + 1 + Int32.ofNat i, entry.offset, entry.size⟩ })
    else (neg .ENOMEM, { m with registered := false, partitions := [] })
  mtdAddPartition m _ offset length :=
    (0, { m with partitions := m.partitions ++
      [⟨m.index + 1 + Int32.ofNat m.partitions.length, offset.toUInt64, length.toUInt64⟩] })
  mtdDelPartition m partno :=
    if m.partitions.any fun child => child.index = partno then
      (0, { m with partitions := m.partitions.eraseP fun child => child.index = partno })
    else (neg .EINVAL, m)
  unregister_failed m h := absurd h (lt_irrefl (0 : Int))
  unregister_done m _ := ⟨rfl, rfl⟩
  parseRegister_failed m entries n h := by
    split_ifs at h ⊢
    · exact absurd h (lt_irrefl (0 : Int))
    · exact ⟨rfl, rfl⟩
  parseRegister_done m entries n h := by
    split_ifs at h ⊢
    · rfl
    · exact absurd h (not_nonneg_neg _)
  addPartition_failed m name offset length h := absurd h (lt_irrefl (0 : Int))
  addPartition_registered m name offset length := rfl
  delPartition_failed m partno h := by
    split_ifs at h ⊢
    · exact absurd h (lt_irrefl (0 : Int))
    · rfl
  delPartition_registered m partno := by split_ifs <;> rfl

theorem MtdCore.keepsTable_keeping {size : UInt64} (hsize : size.toNat < 2 ^ 63) :
    MtdCore.keeping.KeepsTable size where
  size_lt := hsize
  parseRegister m entries n _ h := by
    simp only [MtdCore.keeping] at h ⊢
    split_ifs at h ⊢ with hnamed
    · rw [List.all_eq_true] at hnamed
      rw [List.forall₂_iff_get]
      refine ⟨by simp, fun i hi _ => ⟨?_, fun _ _ => by simp⟩⟩
      exact Option.isSome_iff_ne_none.mp (hnamed _ (List.get_mem _ _))
    · exact absurd h (not_nonneg_neg _)
  addPartition m name offset length _ _ _ _ := ⟨_, rfl⟩
  delPartition m partno h := by
    simp only [MtdCore.keeping] at h ⊢
    split_ifs at h ⊢
    · rfl
    · exact absurd h (not_nonneg_neg _)

theorem MtdCore.succeeds_keeping : MtdCore.keeping.Succeeds where
  unregister _ := le_rfl
  parseRegister m entries n hnamed := by
    have hall : (entries.getD []).all (fun entry => entry.name.isSome) = true := by
      rw [List.all_eq_true]
      exact fun entry hentry => Option.isSome_iff_ne_none.mpr (hnamed entry hentry)
    simp only [MtdCore.keeping, hall, if_true]
    exact le_rfl

/-- A well-behaved kernel around the calls. -/
def Env.keeping : Env := ⟨true, fun _ => true, .keeping⟩

theorem Env.succeeds_keeping {size : UInt64} (hsize : size.toNat < 2 ^ 63) :
    Env.keeping.Succeeds size :=
  ⟨rfl, MtdCore.succeeds_keeping, MtdCore.keepsTable_keeping hsize⟩

/-- The calls, made in that kernel. -/
def keepingCalls (calls : List DevCall) : List (Env × DevCall) :=
  calls.map fun call => (.keeping, call)

theorem snd_keepingCalls (calls : List DevCall) : (keepingCalls calls).map Prod.snd = calls := by
  rw [keepingCalls, List.map_map]
  exact List.map_id calls

theorem keepsTable_keepingCalls {size : UInt64} (hsize : size.toNat < 2 ^ 63)
    (calls : List DevCall) : ∀ e ∈ keepingCalls calls, e.1.core.KeepsTable size := by
  intro e he
  obtain ⟨call, -, rfl⟩ := List.mem_map.mp he
  exact MtdCore.keepsTable_keeping hsize

/-! ### The service -/

/-- The service on a backing MTD. -/
noncomputable def partitionService (mtd : MtdInfo) :
    TransitionSystem (Draft.State Extent) (Draft.Op Extent) :=
  Draft.service (Extent.Valid mtd) Extent.Apart

/-- The draft is the recipe, and the live list the proxy's partitions. -/
def MtdpartctlDevice.tables (dev : MtdpartctlDevice) : Draft.State Extent where
  draft := dev.recipe.partitions.map MtdRecipePart.extent
  live := dev.proxy.mtd.partitions.map ChildMtd.extent

/-- The operation a call asks for. -/
def requestedOp (dev : MtdpartctlDevice) : DevCall → Draft.Op Extent
  | .open => .reset
  | .ioctl .restartRecipe => .reset
  | .ioctl (.recipeAddPart (some partition)) => .append partition.base.extent
  | .ioctl (.recipeDelPart (some idx)) => .erase idx.toNat
  | .ioctl .recipeCreatePartitions => .publish
  | .ioctl .deleteMtdPartitions => .withdraw
  | .ioctl (.addMtdPartition (some partInfo)) =>
    .insert (adaptPossibleFullMtdPartitionLength dev partInfo).2.extent
  | .ioctl (.delMtdPartition (some idx)) => .remove idx.toNat
  | _ => .idle

theorem requestedOp_recipeAddPart (dev : MtdpartctlDevice) (partition : ExtMtdPartitionInfo) :
    requestedOp dev (.ioctl (.recipeAddPart (some partition))) =
      .append partition.base.extent := rfl

theorem requestedOp_recipeDelPart (dev : MtdpartctlDevice) (idx : UInt32) :
    requestedOp dev (.ioctl (.recipeDelPart (some idx))) = .erase idx.toNat := rfl

theorem requestedOp_addMtdPartition (dev : MtdpartctlDevice) (partInfo : MtdPartitionInfo) :
    requestedOp dev (.ioctl (.addMtdPartition (some partInfo))) =
      .insert (adaptPossibleFullMtdPartitionLength dev partInfo).2.extent := rfl

theorem requestedOp_delMtdPartition (dev : MtdpartctlDevice) (idx : UInt32) :
    requestedOp dev (.ioctl (.delMtdPartition (some idx))) = .remove idx.toNat := rfl

/-- The calls that end in a respawn. -/
def Respawns (call : DevCall) : Prop :=
  call = .ioctl .recipeCreatePartitions ∨ call = .ioctl .deleteMtdPartitions

/-- What the service did in a call that returned `ret`: what was asked for, and nothing in a failed
call, except that a respawn may have come as far as taking the live table down. -/
def Explains (dev : MtdpartctlDevice) (call : DevCall) (ret : Int) (op : Draft.Op Extent) : Prop :=
  if ret < 0 then op = .idle ∨ (Respawns call ∧ op = .withdraw) else op = requestedOp dev call

end Mtdpartikr
