import Mathlib.Data.Nat.Bitwise
import Mtdpartikr.Kernel.Equiv.ClassInit

/-!
# Minor numbers after the initialisation

* `mtdpartctlDeviceClassInit_numbered`: an initialisation that succeeds has visited the same
  masters in both passes and given the `m`-th of them the device with minor number `m`.
* `resolveByMinor_refines_create`: the device of a minor number is the device that
  `MtdpartctlDevice.create` makes of its backing MTD.
-/

namespace Mtdpartikr

variable {σ : Type}

/-! ### Device numbers -/

/-- The low 20 bits of a device number are the minor number it was made of. -/
theorem devMinor_mkdev (major : UInt32) {k : ℕ} (h : k < 2 ^ 20) :
    (devMinor (mkdev major (UInt32.ofNat k))).toNat = k := by
  have hk : (UInt32.ofNat k).toNat = k := by
    rw [UInt32.toNat_ofNat']
    omega
  have hmask : (0xFFFFF : UInt32).toNat = 2 ^ 20 - 1 := rfl
  have hshift : (major.toNat <<< ((20 : UInt32).toNat % 32)) % 2 ^ 32 % 2 ^ 20 = 0 := by
    have h20 : (20 : UInt32).toNat % 32 = 20 := rfl
    rw [Nat.shiftLeft_eq, h20]
    omega
  unfold devMinor mkdev
  rw [UInt32.toNat_and, UInt32.toNat_or, UInt32.toNat_shiftLeft, hk, hmask,
    Nat.and_two_pow_sub_one_eq_mod, Nat.or_mod_two_pow, hshift, Nat.zero_or, Nat.mod_eq_of_lt h]

/-! ### The devices of an initialisation -/

/-- The place of a made device decides its backing MTD and its number. -/
theorem AreMadeDevices.getElem? {devno : DevT} {used : List ℕ} {k : ℕ}
    {masters : List (MtdDev σ)} {devs : List (ClassDevice σ)}
    (h : AreMadeDevices devno used k masters devs) :
    ∀ {m : ℕ} {dev : ClassDevice σ}, devs[m]? = some dev →
      ∃ backing, masters[m]? = some backing ∧ IsMadeDevice devno used (k + m) backing dev := by
  induction h with
  | nil => intro m dev hdev; simp at hdev
  | @cons k backing dev rest devs hmade _ ih =>
    intro m dev' hdev
    cases m with
    | zero =>
      obtain rfl := Option.some.inj hdev
      exact ⟨backing, rfl, hmade⟩
    | succ m =>
      obtain ⟨backing', hbacking, hmade'⟩ := ih (by simpa using hdev)
      refine ⟨backing', by simpa using hbacking, ?_⟩
      rwa [Nat.add_assoc, Nat.add_comm 1] at hmade'

/-- What the open path relies on, of the class and of what the two passes visited. -/
structure InitState.Numbered (s : InitState σ) : Prop where
  /-- Both passes visited the same masters. -/
  samePasses : s.referenced = s.counted
  mtdCount : s.cls.mtdCount = s.cls.count
  /-- Every slot below `count` was written once, and none beyond. -/
  slots : s.written = List.range s.cls.count
  slots_len : s.cls.mtdDevs.length = s.cls.count
  none_iff : ∀ m, mtdpartctlDeviceResolveByMinor s.cls m = none ↔ s.cls.count ≤ m
  /-- The device of a minor number has that number and the master visited at that place. -/
  minor : ∀ m dev, mtdpartctlDeviceResolveByMinor s.cls m = some dev →
    (devMinor dev.devno).toNat = m ∧ dev.backingMtd = s.counted[m]?
  /-- There is no second one. -/
  unique : ∀ m n dev dev', mtdpartctlDeviceResolveByMinor s.cls m = some dev →
    mtdpartctlDeviceResolveByMinor s.cls n = some dev' → devMinor dev.devno = devMinor dev'.devno →
    m = n
  /-- Different minor numbers control different backing MTDs. -/
  distinct : ∀ m n dev dev' backing backing', m ≠ n →
    mtdpartctlDeviceResolveByMinor s.cls m = some dev →
    mtdpartctlDeviceResolveByMinor s.cls n = some dev' → dev.backingMtd = some backing →
    dev'.backingMtd = some backing' → backing.index ≠ backing'.index
  /-- A backing MTD is neither a partition nor a proxy. -/
  master : ∀ m dev backing, mtdpartctlDeviceResolveByMinor s.cls m = some dev →
    dev.backingMtd = some backing → backing.isPartition = false ∧
      ∀ n dev' proxy, mtdpartctlDeviceResolveByMinor s.cls n = some dev' →
        dev'.proxyMtd = some proxy → proxy.index ≠ backing.index

theorem resolveByMinor_withDevs {masters : List (MtdDev σ)} {devno : DevT}
    {devs : List (ClassDevice σ)} (hlen : devs.length = masters.length) (m : ℕ) :
    mtdpartctlDeviceResolveByMinor (.withDevs masters devno (devs.map some)) m = devs[m]? := by
  unfold mtdpartctlDeviceResolveByMinor MtdpartctlDevClass.withDevs
  by_cases hm : masters.length ≤ m
  · rw [if_pos hm, List.getElem?_eq_none (by omega)]
  · rw [if_neg hm, List.getElem?_map]
    cases devs[m]? <;> rfl

theorem index_mem_of_visited {table : MtdTable σ} {filter : MtdDeviceTypeFilter} {m : ℕ}
    {backing : MtdDev σ} (h : (visitedMtds filter table)[m]? = some backing) :
    backing.index ∈ table.mtds.map MtdDev.index ∧ backing.isPartition = false := by
  have hmem := List.mem_of_getElem? h
  rw [visitedMtds, List.mem_filter] at hmem
  refine ⟨List.mem_map_of_mem hmem.1, ?_⟩
  have hskip := hmem.2
  cases filter <;> cases hpart : backing.isPartition <;> simp [skips, hpart] at hskip ⊢

theorem index_ne_of_visited {table : MtdTable σ} {filter : MtdDeviceTypeFilter} {m n : ℕ}
    {backing backing' : MtdDev σ} (hne : m ≠ n)
    (h : (visitedMtds filter table)[m]? = some backing)
    (h' : (visitedMtds filter table)[n]? = some backing') : backing.index ≠ backing'.index := by
  intro heq
  have hlt : m < (mtdRefs (visitedMtds filter table)).length := by
    rw [mtdRefs, List.length_map]
    exact (List.getElem?_eq_some_iff.mp h).1
  refine hne ((List.getElem?_inj hlt (nodup_mtdRefs table filter)).mp ?_)
  rw [mtdRefs, List.getElem?_map, List.getElem?_map, h, h', Option.map_some, Option.map_some, heq]

/-- The device of a minor number, after an initialisation that created the devices. -/
theorem resolveByMinor_created {table : MtdTable σ} {masters : List (MtdDev σ)} {major : UInt32}
    {devs : List (ClassDevice σ)}
    (hmade : AreMadeDevices (mkdev major 0) (table.mtds.map MtdDev.index) 0 masters devs) {m : ℕ}
    {dev : ClassDevice σ}
    (h : mtdpartctlDeviceResolveByMinor
      (.withDevs masters (mkdev major 0) (devs.map some)) m = some dev) :
    ∃ backing, masters[m]? = some backing ∧
      IsMadeDevice (mkdev major 0) (table.mtds.map MtdDev.index) m backing dev := by
  rw [resolveByMinor_withDevs hmade.length_eq] at h
  obtain ⟨backing, hbacking, hdev⟩ := hmade.getElem? h
  rw [Nat.zero_add] at hdev
  exact ⟨backing, hbacking, hdev⟩

/-- **An initialisation that creates the devices numbers them.** -/
theorem InitState.numbered_of_created {env : InitEnv} {table : MtdTable σ}
    {filter : MtdDeviceTypeFilter} {s : InitState σ}
    (h : CreatesDevices env table (visitedMtds filter table) (.ok (0, s))) : s.Numbered := by
  obtain ⟨major, devs, kernel, -, hregion, hmade, heq⟩ := h
  obtain rfl := (Prod.mk.inj (Except.ok.inj heq)).2
  have hle := env.region_le _ _ hregion
  have hresolve : ∀ m, mtdpartctlDeviceResolveByMinor (.withDevs (visitedMtds filter table)
      (mkdev major 0) (devs.map some)) m = devs[m]? := resolveByMinor_withDevs hmade.length_eq
  have hminor : ∀ m dev, mtdpartctlDeviceResolveByMinor (.withDevs (visitedMtds filter table)
      (mkdev major 0) (devs.map some)) m = some dev → (devMinor dev.devno).toNat = m := by
    intro m dev hdev
    obtain ⟨backing, hbacking, mtd, index, -, -, rfl⟩ := resolveByMinor_created hmade hdev
    have hlt := (List.getElem?_eq_some_iff.mp hbacking).1
    exact devMinor_mkdev _ (by omega)
  have hbackingOf : ∀ m dev, mtdpartctlDeviceResolveByMinor (.withDevs (visitedMtds filter table)
      (mkdev major 0) (devs.map some)) m = some dev →
      dev.backingMtd = (visitedMtds filter table)[m]? := by
    intro m dev hdev
    obtain ⟨backing, hbacking, mtd, index, -, -, rfl⟩ := resolveByMinor_created hmade hdev
    rw [hbacking]
    rfl
  refine ⟨rfl, rfl, rfl, List.length_map _, fun m => ?_, fun m dev hdev =>
    ⟨hminor m dev hdev, hbackingOf m dev hdev⟩, ?_, ?_, ?_⟩
  · show mtdpartctlDeviceResolveByMinor (.withDevs _ _ _) m = none ↔
      (visitedMtds filter table).length ≤ m
    rw [hresolve, List.getElem?_eq_none_iff, hmade.length_eq]
  · intro m n dev dev' hdev hdev' heq
    rw [← hminor m dev hdev, ← hminor n dev' hdev', heq]
  · intro m n dev dev' backing backing' hne hdev hdev' hbacking hbacking'
    rw [hbackingOf m dev hdev] at hbacking
    rw [hbackingOf n dev' hdev'] at hbacking'
    exact index_ne_of_visited hne hbacking hbacking'
  · intro m dev backing hdev hbacking
    rw [hbackingOf m dev hdev] at hbacking
    have hmem := index_mem_of_visited hbacking
    refine ⟨hmem.2, fun n dev' proxy hdev' hproxy heq => ?_⟩
    obtain ⟨backing', -, mtd, index, -, hfresh, rfl⟩ := resolveByMinor_created hmade hdev'
    obtain rfl := Option.some.inj hproxy
    have hindex : index = backing.index := heq
    exact hfresh (hindex ▸ hmem.1)

/-- **An initialisation that succeeds numbers the masters** it visited, and no initialisation comes
to the `BUG_ON`s of `add_devices`. -/
theorem mtdpartctlDeviceClassInit_numbered (env : InitEnv) (table : MtdTable σ)
    (filter : MtdDeviceTypeFilter) :
    mtdpartctlDeviceClassInit env table filter (.load table) ≠ .error .nullDevice ∧
      mtdpartctlDeviceClassInit env table filter (.load table) ≠ .error .nullBacking ∧
      ∀ s, mtdpartctlDeviceClassInit env table filter (.load table) = .ok (0, s) →
        s.counted = visitedMtds filter table ∧ s.Numbered := by
  refine ⟨fun h => ?_, fun h => ?_, fun s h => ?_⟩
  · rcases relock_or_missingHook_of_error h with heq | heq | heq | heq <;> cases heq
  · rcases relock_or_missingHook_of_error h with heq | heq | heq | heq <;> cases heq
  · have hcreates := createsDevices_of_ok h
    refine ⟨?_, InitState.numbered_of_created hcreates⟩
    obtain ⟨major, devs, kernel, -, -, -, heq⟩ := hcreates
    obtain rfl := (Prod.mk.inj (Except.ok.inj heq)).2
    rfl

/-- With two chips and no failure the initialisation makes two devices. -/
theorem mtdpartctlDeviceClassInit_twoChips :
    ∃ s, mtdpartctlDeviceClassInit grantingEnv twoChips .all (.load twoChips) = .ok (0, s) ∧
      s.cls.count = 2 ∧ s.counted = visitedMtds .all twoChips ∧ s.Numbered := by
  obtain ⟨s, hinit, hcount⟩ : ∃ s, mtdpartctlDeviceClassInit grantingEnv twoChips .all
      (.load twoChips) = .ok (0, s) ∧ s.cls.count = 2 := ⟨_, rfl, rfl⟩
  have hnumbered := (mtdpartctlDeviceClassInit_numbered grantingEnv twoChips .all).2.2 s hinit
  exact ⟨s, hinit, hcount, hnumbered⟩

/-! ### The devices of the sessions -/

/-- A device of the class as the sessions see it, once it has its backing MTD and its proxy. -/
def ClassDevice.toDevice (dev : ClassDevice σ) (backing proxy : MtdDev σ) : MtdpartctlDevice where
  backingMtd := backing.info
  alreadyOpen := dev.alreadyOpen
  recipe := dev.recipe
  proxy := ⟨⟨true, Int32.ofNat proxy.index, []⟩, dev.useRefcnt, dev.aboutToRespawn⟩

/-- **A device the open path finds is a created one.**  Its sessions start from the state in which
`MtdpartctlDevice.create` leaves a device. -/
theorem resolveByMinor_refines_create {env : InitEnv} {table : MtdTable σ}
    {filter : MtdDeviceTypeFilter} {s : InitState σ}
    (h : mtdpartctlDeviceClassInit env table filter (.load table) = .ok (0, s)) {m : ℕ}
    {dev : ClassDevice σ} (hdev : mtdpartctlDeviceResolveByMinor s.cls m = some dev) :
    ∃ backing proxy, dev.backingMtd = some backing ∧ dev.proxyMtd = some proxy ∧
      dev.toDevice backing proxy = .create backing.info (Int32.ofNat proxy.index) := by
  obtain ⟨major, devs, kernel, -, -, hmade, hinit⟩ := createsDevices_of_ok h
  obtain rfl := (Prod.mk.inj (Except.ok.inj hinit)).2
  obtain ⟨backing, -, mtd, index, -, -, rfl⟩ := resolveByMinor_created hmade hdev
  exact ⟨backing, _, rfl, rfl, rfl⟩

end Mtdpartikr
