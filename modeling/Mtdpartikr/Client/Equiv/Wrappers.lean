import Mtdpartikr.Client.Equiv.RecipeFlags
import Mtdpartikr.Client.Wrappers
import Mtdpartikr.Kernel.Equiv.Uapi

/-!
# What the wrappers for Go deliver

* `copyFromUser_eq_some_iff`: the kernel copies the bytes that lie at the address it got.
* `goMtdpartctlRecipeAddPartCall_eq`: the recipe wrapper passes the address of its structure and
  always delivers its request.
* `goWrappers_deliver_iff`: `__go_mtdpartctl_add_new_partition` passes the structure itself.  Its
  request arrives in every call exactly where the platform passes such a structure by reference;
  elsewhere it does so only if the word the kernel gets happens to be the address of a copy.
-/

namespace Mtdpartikr.Client

/-! ### Copying from userspace -/

/-- The memory has `bytes` at `addr`. -/
def UserMemory.BytesAt (mem : UserMemory) (addr : UInt64) (bytes : List UInt8) : Prop :=
  ∀ i (hi : i < bytes.length), mem (addr + UInt64.ofNat i) = some bytes[i]

/-- What was stored lies there. -/
theorem bytesAt_store (mem : UserMemory) (addr : UInt64) {bytes : List UInt8}
    (h : bytes.length ≤ 2 ^ 64) : (mem.store addr bytes).BytesAt addr bytes := by
  intro i hi
  have hoff : (addr + UInt64.ofNat i - addr).toNat = i := by
    rw [UInt64.add_comm, UInt64.add_sub_cancel]
    exact UInt64.toNat_ofNat_of_lt' (lt_of_lt_of_le hi h)
  unfold UserMemory.store
  rw [hoff, List.getElem?_eq_getElem hi]

/-- `copy_from_user` copies the bytes that lie at the address. -/
theorem copyFromUser_eq_some_iff {mem : UserMemory} {addr : UInt64} {n : ℕ} {b : CBuf n} :
    copyFromUser mem addr n = some b ↔ mem.BytesAt addr b.bytes := by
  have hsize := b.size_eq
  unfold copyFromUser
  constructor
  · intro h i hi
    split_ifs at h with hmapped
    have hbytes := congrArg CBuf.bytes (Option.some.inj h)
    have hsome := hmapped i (by omega)
    simp only [← hbytes, List.getElem_map, List.getElem_range]
    rw [Option.isSome_iff_exists] at hsome
    obtain ⟨x, hx⟩ := hsome
    rw [hx, Option.getD_some]
  · intro h
    have hmapped : ∀ i < n, (mem (addr + UInt64.ofNat i)).isSome := by
      intro i hi
      rw [h i (by omega)]
      rfl
    have hbytes : ((List.range n).map fun i => (mem (addr + UInt64.ofNat i)).getD 0) =
        b.bytes := by
      apply List.ext_getElem
      · rw [List.length_map, List.length_range, hsize]
      · intro i _ hi
        rw [List.getElem_map, List.getElem_range, h i hi, Option.getD_some]
    rw [if_pos hmapped]
    simp only [hbytes]

/-- What was stored is copied. -/
theorem copyFromUser_store (mem : UserMemory) (addr : UInt64) {n : ℕ} (b : CBuf n)
    (hn : n ≤ 2 ^ 64) : copyFromUser (mem.store addr b.bytes) addr n = some b :=
  copyFromUser_eq_some_iff.mpr (bytesAt_store mem addr (by rw [b.size_eq]; exact hn))

/-- Two structures with the same values have the same bytes: there is no padding. -/
theorem MtdPartitionInfo.ofBytes_inj {b b' : CBuf (structSize mtdPartitionInfoMembers)}
    (h : MtdPartitionInfo.ofBytes b = MtdPartitionInfo.ofBytes b') : b = b' := by
  have hu64 : ∀ off, off + 8 ≤ structSize mtdPartitionInfoMembers → u64At b off = u64At b' off →
      b.field off 8 = b'.field off 8 := by
    intro off hoff heq
    have hlen : ∀ c : CBuf (structSize mtdPartitionInfoMembers), (c.field off 8).length = 8 :=
      fun c => c.length_field hoff
    have hlt : ∀ c : CBuf (structSize mtdPartitionInfoMembers),
        ofLeBytes (c.field off 8) < UInt64.size := fun c => by
      have hbound := ofLeBytes_lt (c.field off 8)
      rw [hlen c] at hbound
      exact hbound
    have hnat := congrArg UInt64.toNat heq
    rw [u64At, u64At, UInt64.toNat_ofNat_of_lt' (hlt b), UInt64.toNat_ofNat_of_lt' (hlt b')] at hnat
    exact ofLeBytes_inj (by rw [hlen, hlen]) hnat
  obtain ⟨hoffset, hlength, hname⟩ := MtdPartitionInfo.mk.inj h
  have hfirst : b.field 0 8 = b'.field 0 8 := hu64 0 (by decide) hoffset
  have hsecond : b.field 8 8 = b'.field 8 8 := hu64 8 (by decide) hlength
  have hthird : b.field 16 128 = b'.field 16 128 := congrArg CBuf.bytes hname
  have hparts : ∀ c : CBuf (structSize mtdPartitionInfoMembers),
      c.bytes = c.field 0 8 ++ c.field 8 8 ++ c.field 16 128 := by
    intro c
    rw [c.field_append 0 8 8, c.field_append 0 16 128]
    exact c.field_self.symm
  apply CBuf.ext
  rw [hparts b, hparts b', hfirst, hsecond, hthird]

/-! ### The requests -/

theorem goAddNewPartitionRequest_eq (offset length : UInt64) (name : GoString) :
    goAddNewPartitionRequest offset length name = ⟨offset, length, cutName name⟩ := by
  have hname := goRecipeAddPartRequest_name offset length name false false
  show (goRecipeAddPartRequest offset length name false false).base = _
  rw [← hname]
  rfl

theorem goRecipeAddPartRequest_eq (offset length : UInt64) (name : GoString)
    (writable powerupLockEnabled : Bool) :
    goRecipeAddPartRequest offset length name writable powerupLockEnabled =
      ⟨⟨offset, length, cutName name⟩, !writable, powerupLockEnabled⟩ := by
  rw [← goRecipeAddPartRequest_name offset length name writable powerupLockEnabled]
  rfl

section Wrappers

variable (passing : StructPassing) (frame : CallFrame) (offset length : UInt64) (name : GoString)
  (writable powerupLockEnabled : Bool)

/-- The recipe wrapper delivers its request. -/
theorem goMtdpartctlRecipeAddPartCall_eq :
    goMtdpartctlRecipeAddPartCall passing frame offset length name writable powerupLockEnabled =
      .recipeAddPart (some ⟨⟨offset, length, cutName name⟩, !writable, powerupLockEnabled⟩) := by
  have hsize : structSize extMtdPartitionInfoMembers ≤ 2 ^ 64 := by decide
  unfold goMtdpartctlRecipeAddPartCall recipeAddPartIoctl
  simp only [memoryAtCall, thirdWord]
  rw [copyFromUser_store _ _ _ hsize, Option.map_some, ExtMtdPartitionInfo.ofBytes_assignAll,
    goRecipeAddPartRequest_eq]

/-- With the address of the structure the immediate request would be delivered. -/
theorem mtdpartctlAddNewPartition_eq :
    mtdpartctlAddNewPartition passing frame
        (frame.memory.store frame.partitionAddr
          (goAddNewPartitionBytes frame offset length name).bytes) frame.partitionAddr =
      .addMtdPartition (some ⟨offset, length, cutName name⟩) := by
  have hsize : structSize mtdPartitionInfoMembers ≤ 2 ^ 64 := by decide
  unfold mtdpartctlAddNewPartition addMtdPartitionIoctl
  simp only [memoryAtCall, thirdWord]
  rw [copyFromUser_store _ _ _ hsize, Option.map_some, goAddNewPartitionBytes,
    MtdPartitionInfo.ofBytes_assignAll, goAddNewPartitionRequest_eq]

/-- Both wrappers deliver their requests, and the immediate one acts as
`mtdpartctl_add_new_partition` on the address of its structure. -/
structure Delivers : Prop where
  add : goMtdpartctlAddNewPartition passing frame offset length name =
    .addMtdPartition (some ⟨offset, length, cutName name⟩)
  add_eq : goMtdpartctlAddNewPartition passing frame offset length name =
    mtdpartctlAddNewPartition passing frame
      (frame.memory.store frame.partitionAddr
        (goAddNewPartitionBytes frame offset length name).bytes) frame.partitionAddr
  recipe :
    goMtdpartctlRecipeAddPartCall passing frame offset length name writable powerupLockEnabled =
      .recipeAddPart (some ⟨⟨offset, length, cutName name⟩, !writable, powerupLockEnabled⟩)

/-- The word that stands in for the third argument is an address at which the bytes of the
structure lie. -/
def WordPointsToStructure : Prop :=
  let bytes := (goAddNewPartitionBytes frame offset length name).bytes
  (memoryAtCall passing frame (frame.memory.store frame.partitionAddr bytes)
    (.struct bytes)).BytesAt (thirdWord passing frame (.struct bytes)) bytes

/-- Passed by reference, the structure is found. -/
theorem wordPointsToStructure_byReference :
    WordPointsToStructure .byReference frame offset length name :=
  bytesAt_store _ _ (by rw [(goAddNewPartitionBytes frame offset length name).size_eq]; decide)

theorem goMtdpartctlAddNewPartition_eq_iff :
    goMtdpartctlAddNewPartition passing frame offset length name =
        .addMtdPartition (some ⟨offset, length, cutName name⟩) ↔
      WordPointsToStructure passing frame offset length name := by
  have hvalue : MtdPartitionInfo.ofBytes (goAddNewPartitionBytes frame offset length name) =
      ⟨offset, length, cutName name⟩ := by
    rw [goAddNewPartitionBytes, MtdPartitionInfo.ofBytes_assignAll, goAddNewPartitionRequest_eq]
  unfold goMtdpartctlAddNewPartition addMtdPartitionIoctl WordPointsToStructure
  rw [Ioctl.addMtdPartition.injEq, Option.map_eq_some_iff]
  simp only [copyFromUser_eq_some_iff]
  constructor
  · rintro ⟨b, hb, hfields⟩
    rw [MtdPartitionInfo.ofBytes_inj (hfields.trans hvalue.symm)] at hb
    exact hb
  · intro h
    exact ⟨_, h, hvalue⟩

/-! ### Where the structure is not found -/

/-- A store elsewhere does not map an address. -/
theorem store_of_far {mem : UserMemory} {addr a : UInt64} {bytes : List UInt8}
    (h : bytes.length ≤ (a - addr).toNat) : mem.store addr bytes a = mem a := by
  unfold UserMemory.store
  rw [List.getElem?_eq_none h]

/-- A client whose argument register holds zero, with nothing mapped below its locals. -/
def CallFrame.zeroWord : CallFrame where
  memory := fun _ => none
  partitionAddr := 0x7f0000000000
  copyAddr := 0x7f0000001000
  partition := CBuf.zero _
  extPartition := CBuf.zero _
  staleWord := 0

/-- Nothing below 4 GiB is mapped in that client. -/
theorem copyFromUser_zeroWord (bytes copy : List UInt8) (hbytes : bytes.length ≤ 144)
    (hcopy : copy.length ≤ 144) {word : UInt64} (hword : word.toNat < 2 ^ 32) :
    copyFromUser
      (UserMemory.store (CallFrame.zeroWord.memory.store CallFrame.zeroWord.partitionAddr bytes)
        CallFrame.zeroWord.copyAddr copy) word (structSize mtdPartitionInfoMembers) = none := by
  have hfar : ∀ addr : UInt64, 2 ^ 40 ≤ addr.toNat → addr.toNat ≤ 2 ^ 48 →
      144 ≤ (word - addr).toNat := by
    intro addr hlo hhi
    rw [UInt64.toNat_sub]
    omega
  have hlocal : 144 ≤ (word - CallFrame.zeroWord.partitionAddr).toNat :=
    hfar _ (by decide) (by decide)
  have hcopied : 144 ≤ (word - CallFrame.zeroWord.copyAddr).toNat :=
    hfar _ (by decide) (by decide)
  unfold copyFromUser
  refine if_neg fun hall => ?_
  have hfirst := hall 0 (by decide)
  have hzero : word + UInt64.ofNat 0 = word := by simp
  rw [hzero, store_of_far (hcopy.trans hcopied), store_of_far (hbytes.trans hlocal)] at hfirst
  cases hfirst

/-- Without a pointer the handler of that client faults. -/
theorem goMtdpartctlAddNewPartition_zeroWord (h : passing ≠ .byReference) :
    goMtdpartctlAddNewPartition passing .zeroWord offset length name = .addMtdPartition none := by
  have hlen := (goAddNewPartitionBytes .zeroWord offset length name).size_eq
  have hsize : structSize mtdPartitionInfoMembers = 144 := by decide
  unfold goMtdpartctlAddNewPartition addMtdPartitionIoctl
  cases passing with
  | byReference => exact absurd rfl h
  | onStack =>
    simp only [memoryAtCall, thirdWord]
    rw [copyFromUser_zeroWord _ _ (by omega) (by omega) (by decide)]
    rfl
  | inRegisters =>
    have hword : (thirdWord .inRegisters .zeroWord
        (.struct (goAddNewPartitionBytes .zeroWord offset length name).bytes)).toNat < 2 ^ 32 := by
      have hbound := ofLeBytes_lt
        ((goAddNewPartitionBytes .zeroWord offset length name).bytes.take 4)
      have htake : ((goAddNewPartitionBytes .zeroWord offset length name).bytes.take 4).length =
          4 := by
        rw [List.length_take]
        omega
      rw [htake] at hbound
      simp only [thirdWord]
      rw [UInt64.toNat_ofNat_of_lt' (lt_trans hbound (by decide))]
      exact hbound
    have hdrop : ((goAddNewPartitionBytes .zeroWord offset length name).bytes.drop 8).length ≤
        144 := by
      rw [List.length_drop]
      omega
    simp only [memoryAtCall]
    rw [copyFromUser_zeroWord _ _ (by omega) hdrop hword]
    rfl

/-- One call delivers both requests exactly when the word in the place of the third argument leads
to the structure of the immediate one. -/
theorem delivers_iff :
    Delivers passing frame offset length name writable powerupLockEnabled ↔
      passing = .byReference ∨ WordPointsToStructure passing frame offset length name := by
  constructor
  · intro h
    exact Or.inr ((goMtdpartctlAddNewPartition_eq_iff passing frame offset length name).mp h.add)
  · intro h
    have hword : WordPointsToStructure passing frame offset length name := by
      rcases h with rfl | h
      · exact wordPointsToStructure_byReference frame offset length name
      · exact h
    have hadd := (goMtdpartctlAddNewPartition_eq_iff passing frame offset length name).mpr hword
    refine ⟨hadd, ?_, ?_⟩
    · rw [hadd, mtdpartctlAddNewPartition_eq]
    · exact goMtdpartctlRecipeAddPartCall_eq passing frame offset length name writable
        powerupLockEnabled

theorem not_delivers_zeroWord (h : passing ≠ .byReference) :
    ¬ Delivers passing .zeroWord offset length name writable powerupLockEnabled := by
  intro hdelivers
  have hadd := hdelivers.add
  rw [goMtdpartctlAddNewPartition_zeroWord passing offset length name h] at hadd
  cases hadd

/-- **What the wrappers deliver.**  Both requests arrive in every call exactly when the convention
passes such a structure by reference.  With any other one a call fails whatever the request; and
one call delivers exactly when the word in the place of the third argument happens to lead to the
structure of the immediate request. -/
theorem goWrappers_deliver_iff :
    ((∀ frame, Delivers passing frame offset length name writable powerupLockEnabled) ↔
      passing = .byReference) ∧
    (passing = .byReference ∨
      ¬ Delivers passing .zeroWord offset length name writable powerupLockEnabled) ∧
    ∀ frame, Delivers passing frame offset length name writable powerupLockEnabled ↔
      passing = .byReference ∨ WordPointsToStructure passing frame offset length name := by
  have hzero := not_delivers_zeroWord passing offset length name writable powerupLockEnabled
  refine ⟨⟨fun hall => ?_, fun hpassing frame => ?_⟩, or_iff_not_imp_left.mpr hzero,
    fun frame => delivers_iff passing frame offset length name writable powerupLockEnabled⟩
  · by_contra hpassing
    exact hzero hpassing (hall .zeroWord)
  · rw [delivers_iff]
    exact Or.inl hpassing

end Wrappers

/-- On x86-64 a request for a partition ends in `-EFAULT` when the register holds zero. -/
theorem goWrappers_fault :
    goMtdpartctlAddNewPartition .onStack .zeroWord 0 0x1000 (ascii "a") = .addMtdPartition none ∧
    ¬ Delivers .onStack .zeroWord 0 0x1000 (ascii "a") true false ∧
    ∀ env dev, mtdpartctlChrdevIoctl env dev (.addMtdPartition none) =
      .ok ⟨neg .EFAULT, dev, [], .none⟩ := by
  have hfault := goMtdpartctlAddNewPartition_zeroWord .onStack 0 0x1000 (ascii "a") (by decide)
  refine ⟨hfault, fun h => ?_, fun env dev => rfl⟩
  have hadd := h.add
  rw [hfault] at hadd
  cases hadd

end Mtdpartikr.Client
