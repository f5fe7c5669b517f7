import Mtdpartikr.Kernel.Uapi

/-!
# Round trips of the structures of `include/chrdev_ioctl.h`

* `MtdPartitionInfo.ofBytes_assignAll` and its siblings: what was assigned to the members is what
  a reader of the bytes finds.
* `ExtMtdPartitionInfo.covers_iff` and its siblings: the bytes that no member covers.
-/

namespace Mtdpartikr

@[simp] theorem length_u32Bytes (v : UInt32) : (u32Bytes v).length = 4 := length_leBytes _ _

@[simp] theorem length_u64Bytes (v : UInt64) : (u64Bytes v).length = 8 := length_leBytes _ _

@[simp] theorem length_boolByte (v : Bool) : (boolByte v).length = 1 := rfl

@[simp] theorem length_nameBuf (name : NameBuf) : name.bytes.length = 128 := name.size_eq

/-! ### Padding -/

/-- Behind the two flags of an `ext_mtd_partition_info` lie six bytes of padding. -/
theorem ExtMtdPartitionInfo.covers_iff (info : ExtMtdPartitionInfo) (i : ℕ) :
    CBuf.Covers info.assigns i ↔ i < 146 := by
  have h0 : offsetof mtdPartitionInfoMembers 0 = 0 := rfl
  have h1 : offsetof mtdPartitionInfoMembers 1 = 8 := rfl
  have h2 : offsetof mtdPartitionInfoMembers 2 = 16 := rfl
  have h3 : offsetof extMtdPartitionInfoMembers 1 = 144 := rfl
  have h4 : offsetof extMtdPartitionInfoMembers 2 = 145 := rfl
  simp only [CBuf.Covers, ExtMtdPartitionInfo.assigns, MtdPartitionInfo.assigns, List.mem_append,
    List.mem_cons, List.not_mem_nil, or_false, or_and_right, exists_or, exists_eq_left,
    length_u64Bytes, length_boolByte, length_nameBuf, h0, h1, h2, h3, h4]
  omega

/-- Behind the index of a `mtd_indexed_partition_info` lie four bytes of padding. -/
theorem MtdIndexedPartitionInfo.covers_iff (info : MtdIndexedPartitionInfo) (i : ℕ) :
    CBuf.Covers info.assigns i ↔ i < 24 ∧ ¬ (4 ≤ i ∧ i < 8) := by
  have h0 : offsetof mtdIndexedPartitionInfoMembers 0 = 0 := rfl
  have h1 : offsetof mtdIndexedPartitionInfoMembers 1 = 8 := rfl
  have h2 : offsetof mtdIndexedPartitionInfoMembers 2 = 16 := rfl
  simp only [CBuf.Covers, MtdIndexedPartitionInfo.assigns, List.mem_cons, List.not_mem_nil,
    or_false, or_and_right, exists_or, exists_eq_left, length_u32Bytes, length_u64Bytes, h0, h1,
    h2]
  omega

/-! ### Values -/

section Read

variable {n : ℕ} {members : List (ℕ × List UInt8)} {off : ℕ}

/-- The members come in order, without overlap. -/
def InOrder (members : List (ℕ × List UInt8)) : Prop :=
  members.Pairwise fun m m' => m.1 + m.2.length ≤ m'.1

theorem u64At_assignAll (b : CBuf n) (h : InOrder members) {v : UInt64}
    (hm : (off, u64Bytes v) ∈ members) (hn : off + 8 ≤ n) :
    u64At (b.assignAll members) off = v := by
  have hfield := CBuf.field_assignAll members (b := b) h hm (by rw [length_u64Bytes]; exact hn)
  have hval : ofLeBytes (u64Bytes v) = v.toNat := ofLeBytes_leBytes v.toNat_lt
  rw [length_u64Bytes] at hfield
  rw [u64At, hfield, hval, UInt64.ofNat_toNat]

theorem u32At_assignAll (b : CBuf n) (h : InOrder members) {v : UInt32}
    (hm : (off, u32Bytes v) ∈ members) (hn : off + 4 ≤ n) :
    u32At (b.assignAll members) off = v := by
  have hfield := CBuf.field_assignAll members (b := b) h hm (by rw [length_u32Bytes]; exact hn)
  have hval : ofLeBytes (u32Bytes v) = v.toNat := ofLeBytes_leBytes v.toNat_lt
  rw [length_u32Bytes] at hfield
  rw [u32At, hfield, hval, UInt32.ofNat_toNat]

theorem boolAt_assignAll (b : CBuf n) (h : InOrder members) {v : Bool}
    (hm : (off, boolByte v) ∈ members) (hn : off + 1 ≤ n) :
    boolAt (b.assignAll members) off = v := by
  have hfield := CBuf.field_assignAll members (b := b) h hm (by rw [length_boolByte]; exact hn)
  rw [length_boolByte] at hfield
  rw [boolAt, hfield]
  cases v <;> rfl

theorem nameAt_assignAll (b : CBuf n) (h : InOrder members) {name : NameBuf}
    (hm : (off, name.bytes) ∈ members) (hn : off + MTD_PARTITION_NAME_MAX_LENGTH ≤ n) :
    nameAt (b.assignAll members) off hn = name := by
  have hfield := CBuf.field_assignAll members (b := b) h hm (by rw [length_nameBuf]; exact hn)
  rw [length_nameBuf] at hfield
  unfold nameAt
  congr

end Read

/-! ### Structures -/

theorem MtdPartitionInfo.inOrder (info : MtdPartitionInfo) : InOrder info.assigns := by
  have h0 : offsetof mtdPartitionInfoMembers 0 = 0 := rfl
  have h1 : offsetof mtdPartitionInfoMembers 1 = 8 := rfl
  have h2 : offsetof mtdPartitionInfoMembers 2 = 16 := rfl
  simp [InOrder, MtdPartitionInfo.assigns, h0, h1, h2]

theorem ExtMtdPartitionInfo.inOrder (info : ExtMtdPartitionInfo) : InOrder info.assigns := by
  have h0 : offsetof mtdPartitionInfoMembers 0 = 0 := rfl
  have h1 : offsetof mtdPartitionInfoMembers 1 = 8 := rfl
  have h2 : offsetof mtdPartitionInfoMembers 2 = 16 := rfl
  have h3 : offsetof extMtdPartitionInfoMembers 1 = 144 := rfl
  have h4 : offsetof extMtdPartitionInfoMembers 2 = 145 := rfl
  simp [InOrder, ExtMtdPartitionInfo.assigns, MtdPartitionInfo.assigns, h0, h1, h2, h3, h4]

theorem MtdIndexedPartitionInfo.inOrder (info : MtdIndexedPartitionInfo) :
    InOrder info.assigns := by
  have h0 : offsetof mtdIndexedPartitionInfoMembers 0 = 0 := rfl
  have h1 : offsetof mtdIndexedPartitionInfoMembers 1 = 8 := rfl
  have h2 : offsetof mtdIndexedPartitionInfoMembers 2 = 16 := rfl
  simp [InOrder, MtdIndexedPartitionInfo.assigns, h0, h1, h2]

theorem MtdPartitionInfo.ofBytes_assignAll (info : MtdPartitionInfo)
    (b : CBuf (structSize mtdPartitionInfoMembers)) :
    MtdPartitionInfo.ofBytes (b.assignAll info.assigns) = info := by
  have hoffset : u64At (b.assignAll info.assigns) (offsetof mtdPartitionInfoMembers 0) =
      info.offset :=
    u64At_assignAll b info.inOrder (by simp [MtdPartitionInfo.assigns]) (by decide)
  have hlength : u64At (b.assignAll info.assigns) (offsetof mtdPartitionInfoMembers 1) =
      info.length :=
    u64At_assignAll b info.inOrder (by simp [MtdPartitionInfo.assigns]) (by decide)
  have hname : nameAt (b.assignAll info.assigns) (offsetof mtdPartitionInfoMembers 2) (by decide) =
      info.name :=
    nameAt_assignAll b info.inOrder (by simp [MtdPartitionInfo.assigns]) (by decide)
  simp only [MtdPartitionInfo.ofBytes, hoffset, hlength, hname]

theorem ExtMtdPartitionInfo.ofBytes_assignAll (info : ExtMtdPartitionInfo)
    (b : CBuf (structSize extMtdPartitionInfoMembers)) :
    ExtMtdPartitionInfo.ofBytes (b.assignAll info.assigns) = info := by
  have hmem : ∀ m, m ∈ info.base.assigns → m ∈ info.assigns := fun m hm =>
    List.mem_append_left _ hm
  have hoffset : u64At (b.assignAll info.assigns) (offsetof mtdPartitionInfoMembers 0) =
      info.base.offset :=
    u64At_assignAll b info.inOrder (hmem _ (by simp [MtdPartitionInfo.assigns])) (by decide)
  have hlength : u64At (b.assignAll info.assigns) (offsetof mtdPartitionInfoMembers 1) =
      info.base.length :=
    u64At_assignAll b info.inOrder (hmem _ (by simp [MtdPartitionInfo.assigns])) (by decide)
  have hname : nameAt (b.assignAll info.assigns) (offsetof mtdPartitionInfoMembers 2) (by decide) =
      info.base.name :=
    nameAt_assignAll b info.inOrder (hmem _ (by simp [MtdPartitionInfo.assigns])) (by decide)
  have hreadonly : boolAt (b.assignAll info.assigns) (offsetof extMtdPartitionInfoMembers 1) =
      info.readonly :=
    boolAt_assignAll b info.inOrder (by simp [ExtMtdPartitionInfo.assigns]) (by decide)
  have hpowerup : boolAt (b.assignAll info.assigns) (offsetof extMtdPartitionInfoMembers 2) =
      info.powerupLockEnabled :=
    boolAt_assignAll b info.inOrder (by simp [ExtMtdPartitionInfo.assigns]) (by decide)
  simp only [ExtMtdPartitionInfo.ofBytes, hoffset, hlength, hname, hreadonly, hpowerup]

theorem MtdIndexedPartitionInfo.ofBytes_assignAll (info : MtdIndexedPartitionInfo)
    (b : CBuf (structSize mtdIndexedPartitionInfoMembers)) :
    MtdIndexedPartitionInfo.ofBytes (b.assignAll info.assigns) = info := by
  have hindex : u32At (b.assignAll info.assigns) (offsetof mtdIndexedPartitionInfoMembers 0) =
      info.absoluteIdx :=
    u32At_assignAll b info.inOrder (by simp [MtdIndexedPartitionInfo.assigns]) (by decide)
  have hoffset : u64At (b.assignAll info.assigns) (offsetof mtdIndexedPartitionInfoMembers 1) =
      info.offset :=
    u64At_assignAll b info.inOrder (by simp [MtdIndexedPartitionInfo.assigns]) (by decide)
  have hlength : u64At (b.assignAll info.assigns) (offsetof mtdIndexedPartitionInfoMembers 2) =
      info.length :=
    u64At_assignAll b info.inOrder (by simp [MtdIndexedPartitionInfo.assigns]) (by decide)
  simp only [MtdIndexedPartitionInfo.ofBytes, hindex, hoffset, hlength]

end Mtdpartikr
