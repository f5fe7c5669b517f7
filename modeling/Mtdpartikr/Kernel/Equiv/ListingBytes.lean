import Mtdpartikr.Kernel.Equiv.CopyOut
import Mtdpartikr.Kernel.Equiv.Listing

/-!
# What a listing leaves in the buffer of its caller

The user passes a list header with room for `read_count` entries behind it.

* `copyBytesToUser.loop_spec`: from a slot on, the loop either copies the entries up to the count
  or stops at the first copy that fails; all it writes lies in the slots it was to fill.
* `copyBytesToUser_listsEntries`: the same for the whole function, which writes the count back
  behind the entries and not after a failed one.
* `listIoctls_spec`: both listing ioctls, for every device, count and way in which the copies fail.
-/

namespace Mtdpartikr

/-- The write lies between two offsets behind `arg`. -/
def UserWrite.Within (arg : UInt64) (start stop : ℕ) (w : UserWrite) : Prop :=
  ∃ off, start ≤ off ∧ w.addr = arg + UInt64.ofNat off ∧ off + w.bytes.length ≤ stop

theorem UserWrite.Within.mono {arg : UInt64} {start start' stop stop' : ℕ} {w : UserWrite}
    (h : w.Within arg start stop) (hstart : start' ≤ start) (hstop : stop ≤ stop') :
    w.Within arg start' stop' := by
  obtain ⟨off, hoff, haddr, hlen⟩ := h
  exact ⟨off, Nat.le_trans hstart hoff, haddr, Nat.le_trans hlen hstop⟩

/-- A copy writes no more than it is given. -/
theorem copyToUser_within (arg : UInt64) (off : ℕ) (src : List UInt8) (room : ℕ) :
    (copyToUser (arg + UInt64.ofNat off) src room).2.Within arg off (off + src.length) :=
  ⟨off, Nat.le_refl _, rfl, Nat.add_le_add_left (List.length_take_le' _ _) off⟩

/-! ### The loop -/

section Loop

variable {α β : Type} {n : ℕ} {assigns : α → List (ℕ × List UInt8)} {entry : α → β}
  {decode : CBuf n → β} {partsCount : UInt64}

/-- The entries of a list with their slots, from `slot` on. -/
def slotted (entry : α → β) (list : List α) (slot : ℕ) : List (ℕ × β) :=
  (list.zipIdx slot).map fun x => (x.2, entry x.1)

/-- **The loop from slot `slot` on**, with `k` entries to go until the count. -/
theorem copyBytesToUser.loop_spec (hdecode : ∀ a b, decode (CBuf.assignAll b (assigns a)) = entry a)
    (hcount : partsCount.toNat < 2 ^ 32) (room : ℕ → ℕ) (arg : UInt64) (parts : ℕ)
    (list : List α) :
    ∀ (info : CBuf n) (slot : ℕ) (tmpIdx : UInt32) (k : ℕ),
      tmpIdx.toNat + k = partsCount.toNat →
      let res := copyBytesToUser.loop assigns room partsCount info
        (arg + UInt64.ofNat (parts + n * slot)) slot tmpIdx list
      let m := (list.take k).length
      ((∀ i < m, n ≤ room (slot + i)) →
        res.1 = 0 ∧ res.2.1 = tmpIdx + UInt32.ofNat m ∧
          List.Forall₂ (WritesEntry decode (arg + UInt64.ofNat parts))
            (slotted entry (list.take k) slot) res.2.2) ∧
      ((∃ i < m, room (slot + i) < n) → res.1 = neg .EFAULT) ∧
      ∀ w ∈ res.2.2, w.Within arg (parts + n * slot) (parts + n * (slot + m)) := by
  have hnone : ∀ slot, ¬ ∃ i < 0, room (slot + i) < n := by
    rintro slot ⟨i, hi, -⟩
    exact absurd hi (Nat.not_lt_zero i)
  induction list with
  | nil =>
    intro info slot tmpIdx k _
    simp only [copyBytesToUser.loop, List.take_nil, List.length_nil]
    exact ⟨fun _ => ⟨trivial, by simp, .nil⟩, fun hex => absurd hex (hnone slot),
      List.forall_mem_nil _⟩
  | cons part rest ih =>
    intro info slot tmpIdx k hk
    have hle : partsCount ≤ tmpIdx.toUInt64 ↔ k = 0 := by
      rw [UInt64.le_iff_toNat_le, UInt32.toNat_toUInt64]
      omega
    rw [copyBytesToUser.loop]
    by_cases h0 : k = 0
    · rw [if_pos (hle.mpr h0), h0]
      simp only [List.take_zero, List.length_nil]
      exact ⟨fun _ => ⟨trivial, by simp, .nil⟩, fun hex => absurd hex (hnone slot),
        List.forall_mem_nil _⟩
    rw [if_neg fun h => h0 (hle.mp h)]
    -- The counter stays below the count and so does not wrap.
    obtain ⟨j, rfl⟩ : ∃ j, k = j + 1 := ⟨k - 1, by omega⟩
    have hlen : (info.assignAll (assigns part)).bytes.length = n := CBuf.size_eq _
    have hfirst : (copyToUser (arg + UInt64.ofNat (parts + n * slot))
        (info.assignAll (assigns part)).bytes (room slot)).2.Within arg (parts + n * slot)
          (parts + n * (slot + 1)) := by
      have hwithin := copyToUser_within arg (parts + n * slot)
        (info.assignAll (assigns part)).bytes (room slot)
      rw [hlen] at hwithin
      exact hwithin.mono (Nat.le_refl _) (by rw [Nat.mul_add, Nat.mul_one, Nat.add_assoc])
    simp only [List.take_succ_cons, List.length_cons]
    by_cases hroom : n ≤ room slot
    · have hnext : (tmpIdx + 1).toNat + j = partsCount.toNat := by
        rw [UInt32.toNat_add, UInt32.toNat_one, Nat.mod_eq_of_lt (by omega)]
        omega
      have hitem : arg + UInt64.ofNat (parts + n * slot) + UInt64.ofNat n =
          arg + UInt64.ofNat (parts + n * (slot + 1)) := by
        rw [UInt64.add_assoc, ← UInt64.ofNat_add, Nat.add_assoc, Nat.mul_add, Nat.mul_one]
      have hcopied : (copyToUser (arg + UInt64.ofNat (parts + n * slot))
          (info.assignAll (assigns part)).bytes (room slot)).1 = true := by
        unfold copyToUser
        rw [hlen]
        exact decide_eq_true hroom
      obtain ⟨hok, hfault, hwithin⟩ :=
        ih (info.assignAll (assigns part)) (slot + 1) (tmpIdx + 1) j hnext
      simp only [hcopied, Bool.not_true, Bool.false_eq_true, if_false, hitem]
      refine ⟨fun hall => ?_, ?_, ?_⟩
      · have hrest : ∀ i < (rest.take j).length, n ≤ room (slot + 1 + i) := by
          intro i hi
          have hi' := hall (i + 1) (by omega)
          rwa [Nat.add_right_comm, Nat.add_assoc]
        obtain ⟨hret, htmp, hentries⟩ := hok hrest
        refine ⟨hret, ?_, ?_⟩
        · rw [htmp, UInt32.add_assoc, UInt32.ofNat_add, UInt32.add_comm 1]
          rfl
        · refine .cons ⟨?_, _, ?_, hdecode part info⟩ hentries
          · show arg + UInt64.ofNat (parts + n * slot) = _
            rw [UInt64.ofNat_add, UInt64.ofNat_mul, UInt64.add_assoc]
          · exact List.take_of_length_le (by omega)
      · rintro ⟨i, hi, hshort⟩
        cases i with
        | zero => exact absurd hroom (Nat.not_le.mpr hshort)
        | succ i =>
          refine hfault ⟨i, by omega, ?_⟩
          rwa [Nat.add_right_comm, Nat.add_assoc]
      · intro w hw
        rcases List.mem_cons.mp hw with rfl | hw
        · exact hfirst.mono (Nat.le_refl _)
            (Nat.add_le_add_left (Nat.mul_le_mul_left _ (by omega)) _)
        · refine (hwithin w hw).mono
            (Nat.add_le_add_left (Nat.mul_le_mul_left _ (by omega)) _) ?_
          rw [Nat.add_right_comm, Nat.add_assoc slot]
    · have hcopied : (copyToUser (arg + UInt64.ofNat (parts + n * slot))
          (info.assignAll (assigns part)).bytes (room slot)).1 = false := by
        unfold copyToUser
        rw [hlen]
        exact decide_eq_false hroom
      simp only [hcopied, Bool.not_false, if_true]
      refine ⟨fun hall => absurd (hall 0 (by omega)) hroom, fun _ => trivial, ?_⟩
      intro w hw
      rw [List.mem_singleton] at hw
      rw [hw]
      exact hfirst.mono (Nat.le_refl _) (Nat.add_le_add_left (Nat.mul_le_mul_left _ (by omega)) _)

/-! ### The whole function -/

/-- What a listing of `k` of the entries `list` returns and writes to the buffer at `arg`, an entry
taking `n` bytes and the `i`-th copy getting as far as `room i`. -/
structure ListsEntries (entry : α → β) (decode : CBuf n → β) (room : ℕ → ℕ) (arg : UInt64)
    (list : List α) (k : ℕ) (ret : Int) (writes : List UserWrite) : Prop where
  /-- If every copy succeeds: the first `k` entries in order, slot by slot, then the count. -/
  succeeds : (∀ i < k, n ≤ room i) → 4 ≤ room k → ret = 0 ∧ ∃ entries,
    writes = entries ++ [⟨arg, u32Bytes (UInt32.ofNat k)⟩] ∧
      List.Forall₂ (WritesEntry decode (arg + 8)) (slotted entry (list.take k) 0) entries
  /-- If the copy of an entry fails: nothing is written to the header. -/
  faults : (∃ i < k, room i < n) →
    ret = neg .EFAULT ∧ ∀ w ∈ writes, w.Within arg 8 (8 + n * k)
  /-- If only the copy of the count fails. -/
  faultsLast : (∀ i < k, n ≤ room i) → room k < 4 → ret = neg .EFAULT
  /-- In no case is a byte written behind slot `k - 1`. -/
  within : ∀ w ∈ writes, w.Within arg 0 (8 + n * k)

/-- **What a listing returns and writes.** -/
theorem copyBytesToUser_listsEntries
    (hdecode : ∀ a b, decode (CBuf.assignAll b (assigns a)) = entry a) (room : ℕ → ℕ)
    (info : CBuf n) (arg : UInt64) (list : List α) (readCount : UInt32) :
    let res := copyBytesToUser assigns room readCount.toUInt64 info arg 8 list
    ListsEntries entry decode room arg list (min readCount.toNat list.length) res.1 res.2 := by
  have hcount : readCount.toUInt64.toNat < 2 ^ 32 := by
    rw [UInt32.toNat_toUInt64]
    exact readCount.toNat_lt
  have hloop := copyBytesToUser.loop_spec hdecode hcount room arg 8 list info 0 0 readCount.toNat
    (by rw [UInt32.toNat_toUInt64, UInt32.toNat_zero, Nat.zero_add])
  have hm : (list.take readCount.toNat).length = min readCount.toNat list.length :=
    List.length_take
  have htake : list.take (min readCount.toNat list.length) = list.take readCount.toNat :=
    List.take_eq_take_min.symm
  unfold copyBytesToUser
  simp only [hm, Nat.mul_zero, Nat.zero_add, Nat.add_zero, UInt32.zero_add] at hloop
  revert hloop
  obtain ⟨ret, tmpIdx, entries⟩ := copyBytesToUser.loop assigns room readCount.toUInt64 info
    (arg + UInt64.ofNat 8) 0 0 list
  rintro ⟨hok, hfault, hwithin⟩
  simp only at hok hfault hwithin
  by_cases hshort : ∃ i < min readCount.toNat list.length, room i < n
  · have hret : ret = neg .EFAULT := hfault hshort
    have hnot : ¬ ∀ i < min readCount.toNat list.length, n ≤ room i := by
      obtain ⟨i, hi, hlt⟩ := hshort
      exact fun hall => absurd (hall i hi) (Nat.not_le.mpr hlt)
    simp only [hret, neg_lt_zero, if_true]
    exact ⟨fun hall => absurd hall hnot, fun _ => ⟨rfl, hwithin⟩, fun hall => absurd hall hnot,
      fun w hw => (hwithin w hw).mono (Nat.zero_le _) (Nat.le_refl _)⟩
  · have hall : ∀ i < min readCount.toNat list.length, n ≤ room i := by
      intro i hi
      by_contra hlt
      exact hshort ⟨i, hi, Nat.not_le.mp hlt⟩
    obtain ⟨hret, htmp, hentries⟩ := hok hall
    have hlen : entries.length = min readCount.toNat list.length := by
      rw [← hentries.length_eq, slotted, List.length_map, List.length_zipIdx, hm]
    have hlast : ∀ w ∈ entries ++ [(copyToUser arg (u32Bytes tmpIdx) (room entries.length)).2],
        w.Within arg 0 (8 + n * min readCount.toNat list.length) := by
      intro w hw
      rcases List.mem_append.mp hw with hw | hw
      · exact (hwithin w hw).mono (Nat.zero_le _) (Nat.le_refl _)
      · rw [List.mem_singleton] at hw
        have hheader := copyToUser_within arg 0 (u32Bytes tmpIdx) (room entries.length)
        rw [length_u32Bytes] at hheader
        rw [hw]
        have harg : arg + UInt64.ofNat 0 = arg := UInt64.add_zero arg
        rw [harg] at hheader
        exact hheader.mono (Nat.le_refl _) (by omega)
    simp only [hret, lt_self_iff_false, if_false]
    refine ⟨fun _ hroom => ?_, fun hex => absurd hex hshort, fun _ hroom => ?_, hlast⟩
    · have hcopied : (copyToUser arg (u32Bytes tmpIdx) (room entries.length)).1 = true := by
        unfold copyToUser
        rw [length_u32Bytes, hlen]
        exact decide_eq_true hroom
      have hbytes : (copyToUser arg (u32Bytes tmpIdx) (room entries.length)).2 =
          ⟨arg, u32Bytes (UInt32.ofNat (min readCount.toNat list.length))⟩ := by
        unfold copyToUser
        rw [htmp, hlen, List.take_of_length_le (by rw [length_u32Bytes]; exact hroom)]
      refine ⟨?_, entries, ?_, ?_⟩
      · rw [hcopied]
        rfl
      · rw [hbytes]
      · rw [htake]
        exact hentries
    · have hcopied : (copyToUser arg (u32Bytes tmpIdx) (room entries.length)).1 = false := by
        unfold copyToUser
        rw [length_u32Bytes, hlen]
        exact decide_eq_false (Nat.not_le.mpr hroom)
      rw [hcopied]
      rfl

/-- What a listing returns depends only on which copies succeed. -/
theorem ListsEntries.ret_eq {room room' : ℕ → ℕ} {arg : UInt64} {list : List α} {k : ℕ}
    {ret ret' : Int} {writes writes' : List UserWrite}
    (h : ListsEntries entry decode room arg list k ret writes)
    (h' : ListsEntries entry decode room' arg list k ret' writes')
    (hsame : ∀ i < k, n ≤ room i ↔ n ≤ room' i) (hlast : 4 ≤ room k ↔ 4 ≤ room' k) :
    ret = ret' := by
  by_cases hall : ∀ i < k, n ≤ room i
  · have hall' : ∀ i < k, n ≤ room' i := fun i hi => (hsame i hi).mp (hall i hi)
    by_cases hroom : 4 ≤ room k
    · rw [(h.succeeds hall hroom).1, (h'.succeeds hall' (hlast.mp hroom)).1]
    · rw [h.faultsLast hall (Nat.not_le.mp hroom),
        h'.faultsLast hall' (Nat.not_le.mp fun hroom' => hroom (hlast.mpr hroom'))]
  · have hshort : ∃ i < k, room i < n := by
      by_contra hno
      exact hall fun i hi => Nat.not_lt.mp fun hlt => hno ⟨i, hi, hlt⟩
    obtain ⟨i, hi, hlt⟩ := hshort
    have hlt' : room' i < n := Nat.not_le.mp fun hle => Nat.not_le.mpr hlt ((hsame i hi).mpr hle)
    rw [(h.faults ⟨i, hi, hlt⟩).1, (h'.faults ⟨i, hi, hlt'⟩).1]

/-- The field-level listing returns the same, if its copies succeed where the mapping has room. -/
theorem copyListToUser_ret (hdecode : ∀ a b, decode (CBuf.assignAll b (assigns a)) = entry a)
    (hn : 4 ≤ n) {room : ℕ → ℕ} {copied : ℕ → Bool} {list : List α} {readCount : UInt32}
    (hcopied : ∀ i, copied i =
      decide ((if i < min readCount.toNat list.length then n else 4) ≤ room i))
    (info : CBuf n) (arg : UInt64) :
    (copyListToUser entry copied readCount.toUInt64 list).1 =
      (copyBytesToUser assigns room readCount.toUInt64 info arg 8 list).1 := by
  -- The same copies succeed where the mapping takes a copy whole or not at all.
  have hwhole : ∀ {size : ℕ} (i : ℕ), 0 < size → size ≤ n →
      (size ≤ (if copied i then n else 0) ↔ copied i = true) := by
    intro size i hpos hle
    cases copied i with
    | true => exact iff_of_true hle rfl
    | false => exact iff_of_false (Nat.not_le.mpr hpos) Bool.false_ne_true
  have hpos : 0 < n := by omega
  have hsame : ∀ i, copied i = decide (n ≤ (if copied i then n else 0)) := by
    intro i
    rw [Bool.eq_iff_iff, decide_eq_true_iff]
    exact (hwhole i hpos (Nat.le_refl n)).symm
  have hrefines := @copyBytesToUser_refines α β n assigns (fun i => if copied i then n else 0)
    readCount.toUInt64 entry decode copied hdecode hsame (fun i => by split <;> omega) hn info arg 8
    list
  have hlists := copyBytesToUser_listsEntries hdecode room info arg list readCount
  have hlists' := copyBytesToUser_listsEntries hdecode (fun i => if copied i then n else 0) info arg
    list readCount
  refine hrefines.1.symm.trans (hlists'.ret_eq hlists (fun i hi => ?_) ?_)
  · rw [hwhole i hpos (Nat.le_refl n), hcopied, if_pos hi, decide_eq_true_iff]
  · rw [hwhole _ (Nat.zero_lt_succ 3) hn, hcopied, if_neg (Nat.lt_irrefl _), decide_eq_true_iff]

end Loop

/-! ### The two ioctls -/

/-- The copies of a listing of `k` entries of `n` bytes succeed where the user's mapping has room
for them. -/
def Env.CopiesInto (env : Env) (room : ℕ → ℕ) (n k : ℕ) : Prop :=
  ∀ i, env.copyToUser i = decide ((if i < k then n else 4) ≤ room i)

/-- **What the listing ioctls return and write.**  The entries of a recipe are the parts that are
left of the submitted ones, in the order they were submitted in. -/
theorem listIoctls_spec {dev : MtdpartctlDevice} (hflag : dev.proxy.aboutToRespawn = false)
    (stack : KernelStack) (room : ℕ → ℕ) (arg : UInt64) (readCount : UInt32) :
    (∀ env : Env, env.CopiesInto room (structSize extMtdPartitionInfoMembers)
        (min readCount.toNat dev.recipe.partitions.length) →
      ∃ r, mtdpartctlChrdevIoctl env dev (.listRecipeParts (some readCount)) = .ok r ∧
        r.dev = dev ∧
        ListsEntries listedRecipePart ExtMtdPartitionInfo.ofBytes room arg dev.recipe.partitions
          (min readCount.toNat dev.recipe.partitions.length) r.ret
          (userWrites stack room arg dev (.listRecipeParts (some readCount)))) ∧
    (∀ (dev₀ : MtdpartctlDevice) (es : List (Env × DevCall)), dev₀.Created →
      deviceSystem.run dev₀ es = some dev →
        ∃ requests : List ExtMtdPartitionInfo,
          dev.recipe.partitions = requests.map newRecipePart ∧ requests.Sublist (submitted es)) ∧
    (∀ env : Env, env.CopiesInto room (structSize mtdIndexedPartitionInfoMembers)
        (min readCount.toNat dev.proxy.mtd.partitions.length) →
      ∃ r, mtdpartctlChrdevIoctl env dev (.getPartitionList (some readCount)) = .ok r ∧
        r.dev = dev ∧
        ListsEntries listedMtdPart MtdIndexedPartitionInfo.ofBytes room arg
          dev.proxy.mtd.partitions (min readCount.toNat dev.proxy.mtd.partitions.length) r.ret
          (userWrites stack room arg dev (.getPartitionList (some readCount)))) := by
  refine ⟨fun env hcopies => ?_, fun dev₀ es hcreated hrun => run_submitted hcreated hrun,
    fun env hcopies => ?_⟩
  · have hdecode := fun part b => ExtMtdPartitionInfo.ofBytes_assignAll (listedRecipePart part) b
    have hlists := copyBytesToUser_listsEntries hdecode room stack.recipeInfo arg
      dev.recipe.partitions readCount
    have hret := copyListToUser_ret hdecode (by decide) hcopies stack.recipeInfo arg
    simp only [mtdpartctlChrdevIoctl, userWrites, hflag]
    refine ⟨_, rfl, rfl, ?_⟩
    simp only [← hret] at hlists
    exact hlists
  · have hdecode := fun child b => MtdIndexedPartitionInfo.ofBytes_assignAll (listedMtdPart child) b
    have hlists := copyBytesToUser_listsEntries hdecode room stack.mtdInfo arg
      dev.proxy.mtd.partitions readCount
    have hret := copyListToUser_ret hdecode (by decide) hcopies stack.mtdInfo arg
    simp only [mtdpartctlChrdevIoctl, userWrites, hflag]
    refine ⟨_, rfl, rfl, ?_⟩
    simp only [← hret] at hlists
    exact hlists

/-- Listing a recipe of one part into a buffer for two at 64: the entry goes to the first slot,
behind the header, and the count to the header. -/
theorem listIoctls_spec_oneBlockPart :
    ∃ r w, mtdpartctlChrdevIoctl .succeeding (openDevice.appendPart oneBlockPart)
        (.listRecipeParts (some 2)) = .ok r ∧ r.ret = 0 ∧
      userWrites ⟨CBuf.zero _, CBuf.zero _, CBuf.zero _⟩ (fun _ => 152) 64
          (openDevice.appendPart oneBlockPart) (.listRecipeParts (some 2)) =
        [w, ⟨64, u32Bytes 1⟩] ∧
      WritesEntry ExtMtdPartitionInfo.ofBytes 72
        (0, listedRecipePart (newRecipePart oneBlockPart)) w := by
  obtain ⟨r, hr, -, hlists⟩ := (@listIoctls_spec (openDevice.appendPart oneBlockPart) rfl
    ⟨CBuf.zero _, CBuf.zero _, CBuf.zero _⟩ (fun _ => 152) 64 2).1 .succeeding
    (fun i => by split <;> rfl)
  obtain ⟨hret, entries, hwrites, hentries⟩ :=
    hlists.succeeds (fun i _ => Nat.le_refl 152) (by decide)
  obtain ⟨w, rest, hw, hrest, rfl⟩ := List.forall₂_cons_left_iff.mp hentries
  obtain rfl := List.forall₂_nil_left_iff.mp hrest
  exact ⟨r, w, hr, hret, hwrites, hw⟩

end Mtdpartikr
