import Mtdpartikr.Client.DeviceNodes
import Mtdpartikr.Client.Equiv.OpenDevice
import Mtdpartikr.Kernel.Equiv.OpenFiles

/-!
# From an index to a flash

`argvIndex_opens`: an index up to 1000 that a user gives on the command line leads, through the
path `user/common/dev.c` makes of it, the node of that name and the minor number of the node, to
the device of the master that the initialisation visited at that place.  A larger one is refused
before a path is made of it.
-/

namespace Mtdpartikr.Client

/-! ### Paths -/

/-- The digits are read off their bytes. -/
theorem chars_of_bytes {digits : List Char} (h : ∀ c ∈ digits, c.isDigit = true) :
    (digits.map fun c => UInt8.ofNat c.toNat).map (fun b => Char.ofNat b.toNat) = digits := by
  rw [List.map_map]
  refine (List.map_congr_left fun c hc => ?_).trans (List.map_id digits)
  have hdigit := h c hc
  simp only [Char.isDigit, Bool.and_eq_true, decide_eq_true_eq] at hdigit
  -- A digit is a byte.
  have hle : c.toNat ≤ 57 := UInt32.le_iff_toNat_le.mp hdigit.2
  have hbyte : (UInt8.ofNat c.toNat).toNat = c.toNat := by
    rw [UInt8.toNat_ofNat']
    omega
  simp only [Function.comp_apply, hbyte, Char.ofNat_toNat, id]

/-- Different indices have different paths. -/
theorem devicePath_injective {i j : ℕ} (h : devicePath i = devicePath j) : i = j := by
  have hbytes := List.append_cancel_left h
  unfold ascii at hbytes
  rw [Nat.toString_eq_ofList_toDigits, Nat.toString_eq_ofList_toDigits, String.toList_ofList,
    String.toList_ofList] at hbytes
  have hdigits := congrArg (List.map fun b => Char.ofNat (UInt8.toNat b)) hbytes
  rw [chars_of_bytes fun c hc => Nat.isDigit_of_mem_toDigits (by decide) (by decide) hc,
    chars_of_bytes fun c hc => Nat.isDigit_of_mem_toDigits (by decide) (by decide) hc] at hdigits
  have hvalue := congrArg (fun digits => Nat.ofDigitChars 10 digits 0) hdigits
  simpa only [Nat.ofDigitChars_ten_toDigits] using hvalue

/-! ### Nodes -/

section Nodes

variable {σ : Type} {env : InitEnv} {table : MtdTable σ} {filter : MtdDeviceTypeFilter}
  {s : InitState σ}

/-- The nodes of the devices that are made for some masters. -/
theorem nodes_made {devno : DevT} {used : List ℕ} {k : ℕ} {masters : List (MtdDev σ)}
    {devs : List (ClassDevice σ)} (hmade : AreMadeDevices devno used k masters devs) :
    (devs.map some).filterMap (Option.map deviceNode) =
      (List.range' k masters.length).map fun m =>
        (devicePath (devMinor (mkdev (devMajor devno) (UInt32.ofNat m))).toNat,
          mkdev (devMajor devno) (UInt32.ofNat m)) := by
  induction hmade with
  | nil => rfl
  | cons hdev _ ih =>
    obtain ⟨mtd, index, -, -, rfl⟩ := hdev
    rw [List.length_cons, List.range'_succ, List.map_cons, List.map_cons, ← ih]
    rfl

/-- A path of the form the client opens leads to the node with that minor number, if there are so
many masters. -/
theorem find_deviceNode
    (h : mtdpartctlDeviceClassInit env table filter (.load table) = .ok (0, s)) (i : ℕ) :
    ((visitedMtds filter table).length ≤ i ∧
      (deviceNodes s.cls).find? (fun node => decide (node.1 = devicePath i)) = none) ∨
      ∃ rdev, (devMinor rdev).toNat = i ∧ i < (visitedMtds filter table).length ∧
        (deviceNodes s.cls).find? (fun node => decide (node.1 = devicePath i)) =
          some (devicePath i, rdev) := by
  obtain ⟨major, devs, indices, -, hregion, hmade, heq⟩ := createsDevices_of_ok h
  obtain rfl := (Prod.mk.inj (Except.ok.inj heq)).2
  have hle := env.region_le _ _ hregion
  have hnodes : deviceNodes (.withDevs (visitedMtds filter table) (mkdev major 0)
      (devs.map some)) = _ := nodes_made hmade
  have hminor : ∀ m < (visitedMtds filter table).length,
      (devMinor (mkdev (devMajor (mkdev major 0)) (UInt32.ofNat m))).toNat = m := fun m hm =>
    devMinor_mkdev _ (by omega)
  cases hfind : (deviceNodes (.withDevs (visitedMtds filter table) (mkdev major 0)
      (devs.map some))).find? fun node => decide (node.1 = devicePath i) with
  | none =>
    refine Or.inl ⟨?_, rfl⟩
    -- The node of the `i`-th master would have the path.
    by_contra hlt
    rw [Nat.not_le] at hlt
    rw [List.find?_eq_none, hnodes] at hfind
    have hnot := hfind _ (List.mem_map_of_mem (List.mem_range'_1.mpr
      ⟨Nat.zero_le i, (Nat.zero_add _).symm ▸ hlt⟩))
    rw [hminor i hlt] at hnot
    exact hnot (decide_eq_true rfl)
  | some node =>
    right
    -- The node that is found is that of some master, and the path tells which.
    have hpath := List.find?_some hfind
    have hmem := List.mem_of_find?_eq_some hfind
    rw [hnodes] at hmem
    obtain ⟨m, hm, rfl⟩ := List.mem_map.mp hmem
    have hlt : m < (visitedMtds filter table).length := by
      have hrange := (List.mem_range'_1.mp hm).2
      omega
    rw [hminor m hlt] at hpath ⊢
    obtain rfl := devicePath_injective (of_decide_eq_true hpath)
    exact ⟨_, hminor m hlt, hlt, rfl⟩

/-- What `open(2)` of the path of an index answers, in a loaded module. -/
theorem openNode_devicePath
    (h : mtdpartctlDeviceClassInit env table filter (.load table) = .ok (0, s)) {st : ClassState}
    (hinv : FilesInv st) (hlen : st.devs.length = (visitedMtds filter table).length) (fd i : ℕ) :
    (((visitedMtds filter table).length ≤ i ∨ ∃ file, st.privateData file = some i) ∧
      ∃ ret < 0, openNode (deviceNodes s.cls) fd st (devicePath i) = (ret, st)) ∨
    (∃ dev, st.devs[i]? = some dev ∧ (∀ file, st.privateData file ≠ some i) ∧
      openNode (deviceNodes s.cls) fd st (devicePath i) =
        ((fd : Int), ⟨st.devs.set i { dev with alreadyOpen := true, recipe := ⟨[], 0⟩ },
          st.files ++ [some i]⟩)) := by
  unfold openNode
  rcases find_deviceNode h i with ⟨hle, hfind⟩ | ⟨rdev, rfl, hlt, hfind⟩
  · rw [hfind]
    exact Or.inl ⟨Or.inl hle, _, neg_lt_zero _, rfl⟩
  · rw [hfind]
    have hanswer := hinv.openAnswered rdev
    simp only
    generalize mtdpartctlChrdevOpenNode st rdev = answer at hanswer ⊢
    cases hanswer with
    | noDevice hle => exact absurd hle (by omega)
    | @busy file hfile =>
      refine Or.inl ⟨Or.inr ⟨file, hfile⟩, neg .EBUSY, neg_lt_zero _, ?_⟩
      simp only [neg_lt_zero, if_true]
    | @opened dev hdev hnobody => exact Or.inr ⟨dev, hdev, hnobody, rfl⟩

/-- Where an index leads: to the device of the master at that place, unless there is none or the
device is open already. -/
inductive IndexOpens (masters : List (MtdDev σ)) (st : ClassState) (i fd : ℕ) :
    Int → ClassState → Prop
  | opened {backing : MtdDev σ} {dev : MtdpartctlDevice} : masters[i]? = some backing →
      st.devs[i]? = some dev → dev.backingMtd = backing.info →
      (∀ file, st.privateData file ≠ some i) →
      IndexOpens masters st i fd fd
        ⟨st.devs.set i { dev with alreadyOpen := true, recipe := ⟨[], 0⟩ }, st.files ++ [some i]⟩
  | refused : masters.length ≤ i ∨ (∃ file, st.privateData file = some i) →
      IndexOpens masters st i fd 1 st

/-- **The index on the command line counts the masters.**  In a loaded module, after any calls on
any of its devices, `open_mtdpartctl_device_by_argv_index` with a string that denotes an index up
to 1000, the largest it takes, opens the device of the master the initialisation visited at that
place, or nothing. -/
theorem argvIndex_opens
    (h : mtdpartctlDeviceClassInit env table filter (.load table) = .ok (0, s))
    {es : List (Env × FileCall)} {st : ClassState}
    (hrun : classSystem.run (.loaded s.cls) es = some st) {lead : Bool} {index : GoString} {i : ℕ}
    (hindex : DenotesIndex lead index i) (hi : i ≤ 1000) (reportsEmpty : Bool) (fd : ℕ) :
    IndexOpens (visitedMtds filter table) st i fd
      (openMtdpartctlDeviceByArgvIndex reportsEmpty
        (fun path => (openNode (deviceNodes s.cls) fd st path).1) index)
      (openNode (deviceNodes s.cls) fd st (devicePath i)).2 := by
  have hinv := filesInv_run (init_loaded h) hrun
  have hlen := classRun_length (loaded_devs h).length_eq.symm hrun
  rw [openMtdpartctlDeviceByArgvIndex_denotes reportsEmpty _ hindex hi]
  rcases openNode_devicePath h hinv hlen fd i with
    ⟨hwhy, ret, hret, hopen⟩ | ⟨dev, hdev, hnobody, hopen⟩
  · rw [hopen, if_pos hret]
    exact .refused hwhy
  · rw [hopen, if_neg (Int.not_lt.mpr (Int.natCast_nonneg fd))]
    have hlt := (List.getElem?_eq_some_iff.mp hdev).1
    have hbacking := List.getElem?_eq_getElem (hlen ▸ hlt)
    obtain ⟨proxyIndex, dev', hdev', hdevRun⟩ := classRun_created h hrun hbacking
    obtain rfl : dev' = dev := Option.some.inj (hdev'.symm.trans hdev)
    have hmtd := (run_backingMtd (MtdpartctlDevice.created_create _ _) hdevRun).1
    exact .opened hbacking hdev hmtd hnobody

/-- The string `1` on two chips, with nothing open. -/
theorem argvIndex_opens_twoChips : ∃ s : InitState Unit,
    mtdpartctlDeviceClassInit grantingEnv twoChips .all (.load twoChips) = .ok (0, s) ∧
      IndexOpens (visitedMtds .all twoChips) (.loaded s.cls) 1 3
        (openMtdpartctlDeviceByArgvIndex false
          (fun path => (openNode (deviceNodes s.cls) 3 (.loaded s.cls) path).1) [0x31])
        (openNode (deviceNodes s.cls) 3 (.loaded s.cls) (devicePath 1)).2 := by
  obtain ⟨s, hinit⟩ : ∃ s, mtdpartctlDeviceClassInit grantingEnv twoChips .all
      (.load twoChips) = .ok (0, s) := ⟨_, rfl⟩
  have hrun : classSystem.run (.loaded s.cls) [] = some (.loaded s.cls) := rfl
  have hindex : DenotesIndex false [0x31] 1 :=
    ⟨[], [], [0x31], rfl, by simp, Or.inl rfl, by simp, List.forall_mem_singleton.mpr rfl, rfl⟩
  exact ⟨s, hinit, argvIndex_opens hinit hrun hindex (by omega) false 3⟩

end Nodes

end Mtdpartikr.Client
