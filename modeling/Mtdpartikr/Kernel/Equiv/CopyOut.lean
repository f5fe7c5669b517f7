import Mtdpartikr.Kernel.CopyOut
import Mtdpartikr.Kernel.Equiv.DeviceRun
import Mtdpartikr.Kernel.Equiv.Uapi

/-!
# What a reply tells about the stack

* `copyBytesToUser_iff`: a listing writes the same bytes whatever its local structure held before,
  if and only if it copies no entry or the first copy stops before the padding.
* `userWrites_iff`: the ioctls.  `GET_INFO` clears its structure first and is always determined;
  the two listings leave the padding of `info` as they found it and copy it out.
* `copyRecipePartsBytes_refines`, `copyMtdPartsBytes_refines`: read as structures, the bytes are
  the entries of `copyRecipePartsListToUser` and `copyMtdPartsListToUser`, at consecutive slots.
-/

namespace Mtdpartikr

section Listing

variable {α : Type} {n : ℕ} {assigns : α → List (ℕ × List UInt8)} {room : ℕ → ℕ}
  {partsCount : UInt64}

theorem not_le_zero_of_ne_zero (h : partsCount ≠ 0) :
    ¬ partsCount ≤ (0 : UInt32).toUInt64 := by
  intro hle
  have hnat : partsCount.toNat ≤ 0 := UInt64.le_iff_toNat_le.mp hle
  exact h (UInt64.toNat_inj.mp (Nat.le_zero.mp hnat))

/-- A listing that copies anything copies the first entry first. -/
theorem head?_copyBytesToUser (hcount : partsCount ≠ 0) (info : CBuf n) (arg : UInt64)
    (parts : ℕ) (part : α) (rest : List α) :
    (copyBytesToUser assigns room partsCount info arg parts (part :: rest)).2.head? =
      some ⟨arg + UInt64.ofNat parts,
        (info.assignAll (assigns part)).bytes.take (room 0)⟩ := by
  unfold copyBytesToUser
  rw [copyBytesToUser.loop, if_neg (not_le_zero_of_ne_zero hcount)]
  by_cases hroom : (info.assignAll (assigns part)).bytes.length ≤ room 0
  · simp only [copyToUser, hroom, decide_true, Bool.not_true, Bool.false_eq_true, if_false]
    split_ifs <;> rfl
  · simp only [copyToUser, hroom, decide_false, Bool.not_false, if_true, neg_lt_zero]
    rfl

/-- A first copy that faults is the only one. -/
theorem copyBytesToUser_of_fault (hcount : partsCount ≠ 0) (info : CBuf n) (arg : UInt64)
    (parts : ℕ) (part : α) (rest : List α) (hroom : room 0 < n) :
    copyBytesToUser assigns room partsCount info arg parts (part :: rest) =
      (neg .EFAULT, [⟨arg + UInt64.ofNat parts,
        (info.assignAll (assigns part)).bytes.take (room 0)⟩]) := by
  have hlen : ¬ (info.assignAll (assigns part)).bytes.length ≤ room 0 := by
    rw [CBuf.size_eq]
    omega
  unfold copyBytesToUser
  rw [copyBytesToUser.loop, if_neg (not_le_zero_of_ne_zero hcount)]
  simp only [copyToUser, hlen, decide_false, Bool.not_false, if_true, neg_lt_zero]

/-- **When a listing tells nothing about its local structure.**  `pad` is the first byte that no
member covers. -/
theorem copyBytesToUser_iff {pad : ℕ} (hpad : pad < n)
    (hbefore : ∀ a, ∀ i < pad, CBuf.Covers (assigns a) i)
    (hopen : ∀ a, ¬ CBuf.Covers (assigns a) pad) (arg : UInt64) (parts : ℕ) (list : List α) :
    (∀ info info' : CBuf n, (copyBytesToUser assigns room partsCount info arg parts list).2 =
      (copyBytesToUser assigns room partsCount info' arg parts list).2) ↔
      partsCount = 0 ∨ list = [] ∨ room 0 ≤ pad := by
  constructor
  · intro h
    by_contra hno
    rw [not_or, not_or, Nat.not_le] at hno
    obtain ⟨hcount, hlist, hroom⟩ := hno
    obtain ⟨part, rest, rfl⟩ := List.exists_cons_of_ne_nil hlist
    -- The first copies agree, so their bytes up to the padding and one more do.
    have hfirst : ∀ info info' : CBuf n,
        (info.assignAll (assigns part)).bytes.take (pad + 1) =
          (info'.assignAll (assigns part)).bytes.take (pad + 1) := by
      intro info info'
      have hhead := congrArg List.head? (h info info')
      rw [head?_copyBytesToUser hcount, head?_copyBytesToUser hcount] at hhead
      have hbytes := congrArg (List.take (pad + 1)) (UserWrite.mk.inj (Option.some.inj hhead)).2
      have hmin : min (pad + 1) (room 0) = pad + 1 := by omega
      rw [List.take_take, List.take_take, hmin] at hbytes
      exact hbytes
    exact hopen part ((CBuf.take_assignAll_eq_iff _ hpad).mp hfirst pad (Nat.lt_succ_self pad))
  · rintro (rfl | rfl | hroom) info info'
    · cases list with
      | nil => rfl
      | cons part rest => rfl
    · rfl
    · by_cases hcount : partsCount = 0
      · subst hcount
        cases list with
        | nil => rfl
        | cons part rest => rfl
      cases list with
      | nil => rfl
      | cons part rest =>
        have hlt : room 0 < n := by omega
        have hcover : ∀ i < room 0, CBuf.Covers (assigns part) i :=
          fun i hi => hbefore part i (by omega)
        rw [copyBytesToUser_of_fault hcount _ _ _ _ _ hlt,
          copyBytesToUser_of_fault hcount _ _ _ _ _ hlt,
          (CBuf.take_assignAll_eq_iff _ hlt.le).mpr hcover info info']

end Listing

/-! ### The two listings -/

theorem copyRecipePartsBytes_iff (room : ℕ → ℕ) (arg : UInt64) (recipe : MtdRecipe)
    (partsCount : UInt64) :
    (∀ info info', (copyRecipePartsBytes info room arg recipe partsCount).2 =
      (copyRecipePartsBytes info' room arg recipe partsCount).2) ↔
      partsCount = 0 ∨ recipe.partitions = [] ∨ room 0 ≤ 146 := by
  unfold copyRecipePartsBytes
  refine copyBytesToUser_iff (by decide) ?_ ?_ arg _ recipe.partitions
  · intro part i hi
    exact (ExtMtdPartitionInfo.covers_iff _ i).mpr hi
  · intro part h
    exact absurd ((ExtMtdPartitionInfo.covers_iff _ 146).mp h) (by decide)

theorem copyMtdPartsBytes_iff (room : ℕ → ℕ) (arg : UInt64) (mtd : ProxyMtdInfo)
    (partsCount : UInt64) :
    (∀ info info', (copyMtdPartsBytes info room arg mtd partsCount).2 =
      (copyMtdPartsBytes info' room arg mtd partsCount).2) ↔
      partsCount = 0 ∨ mtd.partitions = [] ∨ room 0 ≤ 4 := by
  unfold copyMtdPartsBytes
  refine copyBytesToUser_iff (by decide) ?_ ?_ arg _ mtd.partitions
  · intro child i hi
    exact (MtdIndexedPartitionInfo.covers_iff _ i).mpr (by omega)
  · intro child h
    exact absurd ((MtdIndexedPartitionInfo.covers_iff _ 4).mp h) (by decide)

/-! ### The ioctls -/

/-- No entry of a listing is copied as far as its padding: nothing is listed, or the first copy
faults on the way there. -/
def PaddingStays (room : ℕ → ℕ) (dev : MtdpartctlDevice) : Ioctl → Prop
  | .listRecipeParts (some readCount) =>
    dev.proxy.aboutToRespawn = true ∨ readCount = 0 ∨ dev.recipe.partitions = [] ∨ room 0 ≤ 146
  | .getPartitionList (some readCount) =>
    dev.proxy.aboutToRespawn = true ∨ readCount = 0 ∨ dev.proxy.mtd.partitions = [] ∨ room 0 ≤ 4
  | _ => True

theorem toUInt64_eq_zero_iff (v : UInt32) : v.toUInt64 = 0 ↔ v = 0 := by
  rw [← UInt64.toNat_inj, ← UInt32.toNat_inj, UInt32.toNat_toUInt64]
  rfl

/-- **What an ioctl writes is determined by the device and the request exactly when no padding is
copied.**  The two listings never clear their `info`. -/
theorem userWrites_iff (room : ℕ → ℕ) (arg : UInt64) (dev : MtdpartctlDevice) (cmd : Ioctl) :
    (∀ stack stack' : KernelStack,
      userWrites stack room arg dev cmd = userWrites stack' room arg dev cmd) ↔
      PaddingStays room dev cmd := by
  cases cmd with
  | listRecipeParts readCount =>
    cases readCount with
    | none => exact iff_of_true (fun _ _ => rfl) trivial
    | some readCount =>
      unfold userWrites PaddingStays
      by_cases hflag : dev.proxy.aboutToRespawn = true
      · simp only [hflag, if_true, true_or, implies_true]
      simp only [hflag, if_false, false_or, Bool.false_eq_true, ← toUInt64_eq_zero_iff readCount,
        ← copyRecipePartsBytes_iff _ arg]
      constructor
      · intro h info info'
        exact h ⟨CBuf.zero _, info, CBuf.zero _⟩ ⟨CBuf.zero _, info', CBuf.zero _⟩
      · intro h stack stack'
        exact h stack.recipeInfo stack'.recipeInfo
  | getPartitionList readCount =>
    cases readCount with
    | none => exact iff_of_true (fun _ _ => rfl) trivial
    | some readCount =>
      unfold userWrites PaddingStays
      by_cases hflag : dev.proxy.aboutToRespawn = true
      · simp only [hflag, if_true, true_or, implies_true]
      simp only [hflag, if_false, false_or, Bool.false_eq_true, ← toUInt64_eq_zero_iff readCount,
        ← copyMtdPartsBytes_iff _ arg]
      constructor
      · intro h info info'
        exact h ⟨CBuf.zero _, CBuf.zero _, info⟩ ⟨CBuf.zero _, CBuf.zero _, info'⟩
      · intro h stack stack'
        exact h stack.mtdInfo stack'.mtdInfo
  | _ => exact iff_of_true (fun _ _ => rfl) trivial

/-- Listing a recipe of one part tells six bytes of the kernel's stack. -/
theorem userWrites_padding :
    Reachable (openDevice.appendPart oneBlockPart) ∧
    ∃ stack stack' : KernelStack,
      userWrites stack (fun _ => 152) 0 (openDevice.appendPart oneBlockPart)
          (.listRecipeParts (some 1)) ≠
        userWrites stack' (fun _ => 152) 0 (openDevice.appendPart oneBlockPart)
          (.listRecipeParts (some 1)) := by
  refine ⟨reachable_oneBlockPart, ?_⟩
  by_contra hno
  simp only [not_exists, not_not] at hno
  have hsame := (copyRecipePartsBytes_iff (fun _ => 152) 0
    (openDevice.appendPart oneBlockPart).recipe 1).mp fun info info' =>
      hno ⟨CBuf.zero _, info, CBuf.zero _⟩ ⟨CBuf.zero _, info', CBuf.zero _⟩
  rcases hsame with hcount | hlist | hroom
  · exact absurd hcount (by decide)
  · cases hlist
  · exact absurd hroom (by decide)

/-! ### The bytes are the entries -/

section Refinement

variable {α β : Type} {n : ℕ} {assigns : α → List (ℕ × List UInt8)} {room : ℕ → ℕ}
  {partsCount : UInt64} {entry : α → β} {decode : CBuf n → β} {copied : ℕ → Bool}

/-- The write holds the entry, at its slot of the array at `base`. -/
def WritesEntry (decode : CBuf n → β) (base : UInt64) (x : ℕ × β) (w : UserWrite) : Prop :=
  w.addr = base + UInt64.ofNat n * UInt64.ofNat x.1 ∧
    ∃ b : CBuf n, w.bytes = b.bytes ∧ decode b = x.2

/-- The loop copies the entries of the field-level loop, with the same outcome. -/
theorem copyBytesToUser.loop_refines (partsCount : UInt64)
    (hdecode : ∀ a b, decode (CBuf.assignAll b (assigns a)) = entry a)
    (hcopied : ∀ i, copied i = decide (n ≤ room i)) (base : UInt64) (list : List α) :
    ∀ (info : CBuf n) (slot : ℕ) (tmpIdx : UInt32),
      let bytes := copyBytesToUser.loop assigns room partsCount info
        (base + UInt64.ofNat n * UInt64.ofNat slot) slot tmpIdx list
      let fields := copyListToUser.loop entry copied partsCount slot tmpIdx list
      bytes.1 = fields.1 ∧ bytes.2.1 = fields.2.1 ∧
        List.Forall₂ (WritesEntry decode base) fields.2.2
          (bytes.2.2.take fields.2.2.length) ∧
        (0 ≤ fields.1 → bytes.2.2.length = fields.2.2.length) := by
  induction list with
  | nil => intro info slot tmpIdx; exact ⟨rfl, rfl, .nil, fun _ => rfl⟩
  | cons part rest ih =>
    intro info slot tmpIdx
    rw [copyBytesToUser.loop, copyListToUser.loop]
    by_cases hcount : partsCount ≤ tmpIdx.toUInt64
    · rw [if_pos hcount, if_pos hcount]
      exact ⟨rfl, rfl, .nil, fun _ => rfl⟩
    rw [if_neg hcount, if_neg hcount]
    have hlen : (info.assignAll (assigns part)).bytes.length = n := CBuf.size_eq _
    by_cases hroom : n ≤ room slot
    · have hitem : base + UInt64.ofNat n * UInt64.ofNat slot + UInt64.ofNat n =
          base + UInt64.ofNat n * UInt64.ofNat (slot + 1) := by
        rw [UInt64.ofNat_add, UInt64.mul_add, UInt64.add_assoc]
        simp
      have hwrite : (info.assignAll (assigns part)).bytes.take (room slot) =
          (info.assignAll (assigns part)).bytes := List.take_of_length_le (by omega)
      obtain ⟨hret, htmp, hentries, hall⟩ :=
        ih (info.assignAll (assigns part)) (slot + 1) (tmpIdx + 1)
      simp only [copyToUser, hlen, hroom, decide_true, Bool.not_true, Bool.false_eq_true, if_false,
        hcopied, hitem, hwrite]
      refine ⟨hret, htmp, ?_, fun h => ?_⟩
      · rw [List.length_cons, List.take_succ_cons]
        exact .cons ⟨rfl, _, rfl, hdecode part info⟩ hentries
      · rw [List.length_cons, List.length_cons, hall h]
    · simp only [copyToUser, hlen, hroom, decide_false, Bool.not_false, if_true, hcopied]
      exact ⟨trivial, trivial, .nil, fun h => absurd h (not_nonneg_neg .EFAULT)⟩

/-- **Byte for byte, a listing is the field-level one.**  The user's mapping takes a copy whole or
not at all. -/
theorem copyBytesToUser_refines (hdecode : ∀ a b, decode (CBuf.assignAll b (assigns a)) = entry a)
    (hcopied : ∀ i, copied i = decide (n ≤ room i)) (hroom : ∀ i, n ≤ room i ∨ room i < 4)
    (hn : 4 ≤ n) (info : CBuf n) (arg : UInt64) (parts : ℕ) (list : List α) :
    let bytes := copyBytesToUser assigns room partsCount info arg parts list
    let fields := copyListToUser entry copied partsCount list
    bytes.1 = fields.1 ∧
      List.Forall₂ (WritesEntry decode (arg + UInt64.ofNat parts)) fields.2.1
        (bytes.2.take fields.2.1.length) ∧
      ∀ count, fields.2.2 = some count →
        bytes.2 = bytes.2.take fields.2.1.length ++ [⟨arg, u32Bytes count⟩] := by
  have hloop := copyBytesToUser.loop_refines partsCount hdecode hcopied
    (arg + UInt64.ofNat parts) list info 0 0
  have hbase : arg + UInt64.ofNat parts + UInt64.ofNat n * UInt64.ofNat 0 =
      arg + UInt64.ofNat parts := by simp
  simp only [hbase] at hloop
  unfold copyBytesToUser copyListToUser
  revert hloop
  obtain ⟨ret, tmpIdx, writes⟩ := copyBytesToUser.loop assigns room partsCount info
    (arg + UInt64.ofNat parts) 0 0 list
  obtain ⟨ret', tmpIdx', entries⟩ := copyListToUser.loop entry copied partsCount 0 0 list
  rintro ⟨heq, htmp, hentries, hall⟩
  simp only at heq htmp hentries hall
  subst heq htmp
  by_cases hret : ret < 0
  · simp only [hret, if_true]
    exact ⟨trivial, hentries, fun _ h => by cases h⟩
  have hlen : writes.length = entries.length := hall (Int.not_lt.mp hret)
  have htake : ∀ w, (writes ++ [w]).take entries.length = writes := by
    intro w
    rw [← hlen, List.take_left]
  have hlast : copied entries.length = decide (4 ≤ room entries.length) := by
    rw [hcopied]
    have hwhole := hroom entries.length
    exact decide_eq_decide.mpr (by omega)
  rw [← hlen, List.take_length] at hentries
  simp only [hret, if_false, copyToUser, length_u32Bytes, hlen, hlast]
  by_cases hcopy : 4 ≤ room entries.length
  · simp only [hcopy, decide_true, Bool.not_true, Bool.false_eq_true, if_false, if_true, htake]
    refine ⟨trivial, hentries, fun count h => ?_⟩
    obtain rfl := Option.some.inj h
    have hbytes : (u32Bytes tmpIdx).take (room entries.length) = u32Bytes tmpIdx :=
      List.take_of_length_le (by rw [length_u32Bytes]; exact hcopy)
    rw [hbytes]
  · simp only [hcopy, decide_false, Bool.not_false, if_true, Bool.false_eq_true, if_false, htake]
    exact ⟨trivial, hentries, fun _ h => by cases h⟩

end Refinement

/-- The bytes of `LIST_RECIPE_PARTS` are the entries of the recipe. -/
theorem copyRecipePartsBytes_refines {room : ℕ → ℕ}
    (hroom : ∀ i, structSize extMtdPartitionInfoMembers ≤ room i ∨ room i < 4)
    (info : CBuf (structSize extMtdPartitionInfoMembers)) (arg : UInt64) (recipe : MtdRecipe)
    (partsCount : UInt64) :
    let bytes := copyRecipePartsBytes info room arg recipe partsCount
    let fields := copyRecipePartsListToUser
      (fun i => decide (structSize extMtdPartitionInfoMembers ≤ room i)) recipe partsCount
    bytes.1 = fields.1 ∧
      List.Forall₂ (WritesEntry ExtMtdPartitionInfo.ofBytes (arg + 8)) fields.2.1
        (bytes.2.take fields.2.1.length) ∧
      ∀ count, fields.2.2 = some count →
        bytes.2 = bytes.2.take fields.2.1.length ++ [⟨arg, u32Bytes count⟩] :=
  copyBytesToUser_refines (fun part b => ExtMtdPartitionInfo.ofBytes_assignAll _ b)
    (fun _ => rfl) hroom (by decide) info arg _ recipe.partitions

/-- The bytes of `GET_PARTITION_LIST` are the live partitions. -/
theorem copyMtdPartsBytes_refines {room : ℕ → ℕ}
    (hroom : ∀ i, structSize mtdIndexedPartitionInfoMembers ≤ room i ∨ room i < 4)
    (info : CBuf (structSize mtdIndexedPartitionInfoMembers)) (arg : UInt64) (mtd : ProxyMtdInfo)
    (partsCount : UInt64) :
    let bytes := copyMtdPartsBytes info room arg mtd partsCount
    let fields := copyMtdPartsListToUser
      (fun i => decide (structSize mtdIndexedPartitionInfoMembers ≤ room i)) mtd partsCount
    bytes.1 = fields.1 ∧
      List.Forall₂ (WritesEntry MtdIndexedPartitionInfo.ofBytes (arg + 8)) fields.2.1
        (bytes.2.take fields.2.1.length) ∧
      ∀ count, fields.2.2 = some count →
        bytes.2 = bytes.2.take fields.2.1.length ++ [⟨arg, u32Bytes count⟩] :=
  copyBytesToUser_refines (fun child b => MtdIndexedPartitionInfo.ofBytes_assignAll _ b)
    (fun _ => rfl) hroom (by decide) info arg _ mtd.partitions

end Mtdpartikr
