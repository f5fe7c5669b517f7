import Mtdpartikr.Kernel.Equiv.Minors
import Mtdpartikr.Kernel.Module

/-!
# The module over many loads

An initialisation that returns an error returns a negative number
(`mtdpartctlDeviceClassInit_nonpos`), so a module that stays loaded has all its devices
(`MtdpartikrModule.Loaded`) and can be unloaded.  `mtdpartikrInit_cases` and
`mtdpartikrExit_clean_iff` say what one load and one unload do; `module_clean_iff` is about any
number of them: what stays behind comes from two error paths of the load, and from the proxies of
NAND MTDs, for which nothing calls `nanddev_cleanup`.
-/

namespace Mtdpartikr

open Ledger (Event Released)

variable {σ α β : Type}

/-! ### Errors are negative -/

/-- A computation whose return value is zero or an error. -/
def Nonpos (x : Except InitOops (Int × α)) : Prop := ∀ r, x = .ok r → r.1 ≤ 0

theorem Nonpos.pure {r : Int × α} (h : r.1 ≤ 0) : Nonpos (pure r : Except InitOops (Int × α)) := by
  intro r' h'
  rw [← Except.ok.inj h']
  exact h

theorem Nonpos.throw (o : InitOops) : Nonpos (throw o : Except InitOops (Int × α)) :=
  fun _ h => by cases h

theorem Nonpos.bind {x : Except InitOops β} {f : β → Except InitOops (Int × α)}
    (h : ∀ b, x = .ok b → Nonpos (f b)) : Nonpos (x >>= f) := by
  cases x with
  | error o => exact Nonpos.throw o
  | ok b => exact h b rfl

theorem neg_nonpos (e : Errno) : neg e ≤ 0 := le_of_lt (neg_lt_zero e)

theorem KernelErr.ret_nonpos (err : KernelErr) : err.ret ≤ 0 := le_of_lt err.ret_lt_zero

section Init

variable (env : InitEnv)

theorem proxyMtdCreateDevice_nonpos (choice : IndexChoice) (outcomes : ProxyEnv) (k : ℕ)
    (backing : MtdDev σ) (kernel : KernelState) :
    Nonpos (proxyMtdCreateDevice choice outcomes k backing kernel) := by
  unfold proxyMtdCreateDevice
  split_ifs
  · exact Nonpos.pure (neg_nonpos _)
  · rcases allocProxyMtd_cases outcomes k backing kernel with ⟨-, ret, tr, heq, hret, -⟩ | ⟨-, heq⟩
    · rw [heq]
      exact Nonpos.pure (le_of_lt hret)
    · rw [heq]
      refine Nonpos.bind fun mtd _ => Nonpos.bind fun r hr => ?_
      have hregister : r.1 ≤ 0 := by
        refine Nonpos.bind (x := lockMtdTable _) (fun kernel _ => ?_) r hr
        cases outcomes.mtdDeviceRegister with
        | some err => exact Nonpos.pure err.ret_nonpos
        | none => exact Nonpos.pure le_rfl
      simp only
      split_ifs
      · exact Nonpos.pure hregister
      · exact Nonpos.pure le_rfl

theorem createProxy_nonpos (k : ℕ) (backing : MtdDev σ) (dev : ClassDevice σ)
    (kernel : KernelState) : Nonpos (createProxy env k backing dev kernel) :=
  Nonpos.bind fun r hr =>
    Nonpos.pure (proxyMtdCreateDevice_nonpos env.choice (env.device k).proxy k backing kernel r hr)

theorem mtdpartctlDeviceCreate_nonpos (k : ℕ) (backing : MtdDev σ) (dev : ClassDevice σ)
    (kernel : KernelState) : Nonpos (mtdpartctlDeviceCreate env k backing dev kernel) := by
  unfold mtdpartctlDeviceCreate
  cases tryModuleGet backing.owner (env.device k).tryModuleGet k kernel with
  | mk granted kernel =>
    cases granted with
    | false => exact Nonpos.pure (neg_nonpos _)
    | true =>
      refine Nonpos.bind fun r hr => ?_
      have hproxy : r.1 ≤ 0 := createProxy_nonpos env _ _ _ _ r hr
      simp only
      split_ifs
      · exact Nonpos.pure hproxy
      · cases (env.device k).cdevAdd with
        | some err => exact Nonpos.bind fun _ _ => Nonpos.pure err.ret_nonpos
        | none =>
          cases (env.device k).deviceCreate with
          | some err => exact Nonpos.bind fun _ _ => Nonpos.pure err.ret_nonpos
          | none => exact Nonpos.pure le_rfl

theorem addDevices.loop_nonpos (remaining : ℕ) :
    ∀ (maxIdx : ℕ) (cls : MtdpartctlDevClass σ) (kernel : KernelState),
      Nonpos (addDevices.loop env remaining maxIdx cls kernel) := by
  induction remaining with
  | zero => exact fun maxIdx cls kernel => Nonpos.pure le_rfl
  | succ remaining ih =>
    intro maxIdx cls kernel
    unfold addDevices.loop
    cases (cls.devs[maxIdx]?).join with
    | none => exact Nonpos.throw _
    | some dev =>
      cases (cls.mtdDevs[maxIdx]?).join with
      | none => exact Nonpos.throw _
      | some backing =>
        refine Nonpos.bind fun r hr => ?_
        have hcreate : r.1 ≤ 0 := mtdpartctlDeviceCreate_nonpos env _ _ _ _ r hr
        simp only
        split_ifs
        · exact Nonpos.pure hcreate
        · exact ih _ _ _

theorem deviceClassCreateDevices_nonpos (cls : MtdpartctlDevClass σ) (kernel : KernelState) :
    Nonpos (deviceClassCreateDevices env cls kernel) := by
  unfold deviceClassCreateDevices
  cases env.allocChrdevRegion cls.count with
  | error err => exact Nonpos.pure err.ret_nonpos
  | ok major =>
    refine Nonpos.bind fun r hr => ?_
    have hadd : r.1 ≤ 0 := addDevices.loop_nonpos env _ _ _ _ r hr
    simp only
    split_ifs
    · exact Nonpos.bind fun _ _ => Nonpos.pure hadd
    · exact Nonpos.pure le_rfl

/-- **An initialisation of the class returns zero or a negative number.** -/
theorem mtdpartctlDeviceClassInit_nonpos (table : MtdTable σ) (filter : MtdDeviceTypeFilter)
    (s : InitState σ) : Nonpos (mtdpartctlDeviceClassInit env table filter s) := by
  unfold mtdpartctlDeviceClassInit
  refine Nonpos.bind fun r _ => ?_
  simp only
  split_ifs with hret hcount
  · exact Nonpos.pure (le_of_lt hret)
  · exact Nonpos.bind fun _ h => by cases h
  · cases allocArrayWithItems env r.2.cls.count r.2.kernel with
    | mk devs kernel =>
      cases devs with
      | none => exact Nonpos.bind fun _ _ => Nonpos.pure (neg_nonpos _)
      | some devs =>
        cases env.classCreate with
        | some err => exact Nonpos.bind fun _ _ => Nonpos.pure err.ret_nonpos
        | none =>
          refine Nonpos.bind fun created hcreated => ?_
          have hdevices : created.1 ≤ 0 :=
            deviceClassCreateDevices_nonpos env _ _ created hcreated
          split_ifs
          · exact Nonpos.bind fun _ _ => Nonpos.pure hdevices
          · exact Nonpos.pure le_rfl

end Init

/-! ### Modules that are loaded, and what they leave -/

/-- A module with all its devices. -/
def MtdpartikrModule.Loaded (s : MtdpartikrModule σ) : Prop :=
  s.parsers = [.acquire MTD_PARSER_NAME] ∧
    ∃ env table filter, mtdpartctlDeviceClassInit env table filter (.load table) = .ok (0, s.init) ∧
      s.nanddevs = nanddevsOf env s.init

/-- No master of the class is of a NAND type. -/
def MtdpartikrModule.NoNand (s : MtdpartikrModule σ) : Prop :=
  ∀ backing, some backing ∈ s.init.cls.mtdDevs → ¬ backing.IsNand

/-- Everything that was taken has been given back, once, and the mutex is free. -/
structure MtdpartikrModule.Clean (s : MtdpartikrModule σ) : Prop where
  parsers : Released s.parsers
  resources : Released s.init.kernel.trace
  nanddevs : s.nanddevs = []
  mutex : s.init.kernel.mtdTableMutex = false

/-- The load comes to the class, for the MTDs that pass the filter. -/
structure LoadEnv.Reaches (env : LoadEnv σ) (filter : MtdDeviceTypeFilter) : Prop where
  partitioned : env.partitionedMaster = true
  registered : env.registerMtdParser = none
  filtered : (determineDeviceTypeFilter env.deviceTypeFilter).2 = some filter

/-- The call that fails, if one does, is neither `__get_mtd_device` nor the creation of a
device. -/
def LoadEnv.Undoable (env : LoadEnv σ) : Prop :=
  ∀ filter, env.Reaches filter → env.init.FailsElsewhere (visitedMtds filter env.table)

theorem released_nil {R : Type} [DecidableEq R] : Released ([] : List (Event R)) := rfl

theorem clean_of_load (table : MtdTable σ) {parsers : List (Event String)}
    (h : Released parsers) : MtdpartikrModule.Clean ⟨.load table, [], parsers⟩ :=
  ⟨h, rfl, rfl, rfl⟩

theorem released_registration :
    Released [Event.acquire MTD_PARSER_NAME, .release MTD_PARSER_NAME] := by
  simp [Released, Ledger.run]

theorem determineDeviceTypeFilter_none {param : Option String}
    (h : (determineDeviceTypeFilter param).2 = none) : (determineDeviceTypeFilter param).1 < 0 := by
  unfold determineDeviceTypeFilter at h ⊢
  split_ifs at h ⊢
  exact neg_lt_zero _

/-- A load that does not come to the class. -/
theorem mtdpartikrInit_refused {env : LoadEnv σ} (h : ∀ filter, ¬ env.Reaches filter) :
    ∃ ret s, mtdpartikrInit env = .ok (ret, s) ∧ ret < 0 ∧ s.Clean := by
  unfold mtdpartikrInit
  cases hpartitioned : env.partitionedMaster with
  | false => exact ⟨_, _, rfl, by decide, clean_of_load env.table released_nil⟩
  | true =>
    cases hregister : env.registerMtdParser with
    -- The parser is not registered, so there is nothing to take back.
    | some err =>
      refine ⟨err.ret, _, ?_, err.ret_lt_zero, clean_of_load env.table released_nil⟩
      simp [mtdpartctlMtdParserInit]
      rfl
    | none =>
      cases hfilter : determineDeviceTypeFilter env.deviceTypeFilter with
      | mk ret found =>
        cases found with
        | some filter => exact absurd ⟨hpartitioned, hregister, by rw [hfilter]⟩ (h filter)
        | none =>
          have hneg := determineDeviceTypeFilter_none (by rw [hfilter])
          rw [hfilter] at hneg
          exact ⟨ret, _, rfl, hneg, clean_of_load env.table released_registration⟩

/-- A load that comes to the class is its initialisation. -/
theorem mtdpartikrInit_reaches {env : LoadEnv σ} {filter : MtdDeviceTypeFilter}
    (h : env.Reaches filter) :
    mtdpartikrInit env = (do
      let (ret, init) ← mtdpartctlDeviceClassInit env.init env.table filter (.load env.table)
      if ret < 0 then
        return (ret, ⟨init, nanddevsOf env.init init,
          [.acquire MTD_PARSER_NAME, .release MTD_PARSER_NAME]⟩)
      return (0, ⟨init, nanddevsOf env.init init, [.acquire MTD_PARSER_NAME]⟩)) := by
  unfold mtdpartikrInit
  rw [h.partitioned, h.registered]
  cases hfilter : determineDeviceTypeFilter env.deviceTypeFilter with
  | mk ret found =>
    have hfound := h.filtered
    rw [hfilter] at hfound
    obtain rfl : found = some filter := hfound
    rfl

/-! ### What `nanddev_init` has allocated -/

theorem mem_nanddevsOf {env : InitEnv} {s : InitState σ} {k : ℕ} :
    k ∈ nanddevsOf env s ↔ ∃ backing, s.cls.mtdDevs[k]? = some (some backing) ∧ backing.IsNand ∧
      .acquire (.proxyMem k) ∈ s.kernel.trace ∧ (env.device k).proxy.nanddevInit = none := by
  rw [nanddevsOf, List.mem_filter, List.mem_range]
  cases hslot : s.cls.mtdDevs[k]? with
  | none => simp
  | some slot =>
    have hlt := (List.getElem?_eq_some_iff.mp hslot).1
    cases slot with
    | none => simp
    | some backing => simp [hlt, and_assoc]

theorem nanddevsOf_noProxies (env : InitEnv) {s : InitState σ} (h : s.kernel.NoProxies) :
    nanddevsOf env s = [] := by
  rw [List.eq_nil_iff_forall_not_mem]
  intro k hk
  obtain ⟨_, -, -, hmem, -⟩ := mem_nanddevsOf.mp hk
  exact h k hmem

theorem proxyMem_mem_devicesResources (masters : List (MtdDev σ)) :
    ∀ {k j : ℕ}, j < masters.length → .proxyMem (k + j) ∈ devicesResources k masters := by
  induction masters with
  | nil => exact fun h => absurd h (Nat.not_lt_zero _)
  | cons mtd rest ih =>
    intro k j hj
    cases j with
    | zero => exact List.mem_append_left _ (by simp [deviceResources])
    | succ j =>
      have hrest := ih (k := k + 1) (Nat.lt_of_succ_lt_succ hj)
      rw [Nat.add_right_comm] at hrest
      exact List.mem_append_right _ hrest

/-- A class with all its devices has allocated for each NAND master. -/
theorem nanddevsOf_eq_nil_iff {env : InitEnv} {table : MtdTable σ} {filter : MtdDeviceTypeFilter}
    {s : InitState σ}
    (h : mtdpartctlDeviceClassInit env table filter (.load table) = .ok (0, s)) :
    nanddevsOf env s = [] ↔ ∀ backing, some backing ∈ s.cls.mtdDevs → ¬ backing.IsNand := by
  obtain ⟨major, devs, indices, hcreates, -, -, heq⟩ := createsDevices_of_ok h
  obtain rfl := (Prod.mk.inj (Except.ok.inj heq)).2
  rw [List.eq_nil_iff_forall_not_mem]
  constructor
  · intro hnil backing hmem hnand
    obtain ⟨k, hk⟩ := List.mem_iff_getElem?.mp hmem
    have hmaster : (visitedMtds filter table)[k]? = some backing := by
      simpa [MtdpartctlDevClass.withDevs] using hk
    have hlt := (List.getElem?_eq_some_iff.mp hmaster).1
    have hproxy := proxyMem_mem_devicesResources (visitedMtds filter table) (k := 0) hlt
    rw [Nat.zero_add] at hproxy
    refine hnil k (mem_nanddevsOf.mpr ⟨backing, hk, hnand, ?_, ?_⟩)
    · exact List.mem_append_right _ (List.mem_map_of_mem
        (List.mem_cons_of_mem _ (List.mem_cons_of_mem _ hproxy)))
    · -- The device was made, so `nanddev_init` did not fail.
      by_contra hfailed
      exact (hcreates k backing hmaster).1 (Or.inr (Or.inr (Or.inr ⟨hnand, hfailed⟩)))
  · intro hno k hk
    obtain ⟨backing, hslot, hnand, -, -⟩ := mem_nanddevsOf.mp hk
    exact hno backing (List.mem_of_getElem? hslot) hnand

/-! ### One load and one unload -/

/-- The load returns, with everything given back or with a module that has all its devices; or it
runs into a `BUG_ON` of `proxy_mtd_create_device`. -/
def LoadsOrUndoes (result : Except InitOops (Int × MtdpartikrModule σ)) : Prop :=
  (∃ ret s, result = .ok (ret, s) ∧ ret < 0 ∧ s.Clean) ∨ (∃ s, result = .ok (0, s) ∧ s.Loaded) ∨
    ∃ o : InitOops, o.MissingHook ∧ result = .error o

/-- The load waits for a mutex that it holds, or fails and leaves something behind. -/
def LeavesBehind (result : Except InitOops (Int × MtdpartikrModule σ)) : Prop :=
  result = .error .relock ∨ ∃ ret s, result = .ok (ret, s) ∧ ret < 0 ∧ ¬ s.Clean

/-- **Every outcome of a load**, and where it comes from. -/
theorem mtdpartikrInit_cases (env : LoadEnv σ) :
    (env.Undoable ∧ LoadsOrUndoes (mtdpartikrInit env)) ∨
      (¬ env.Undoable ∧ LeavesBehind (mtdpartikrInit env)) := by
  by_cases hreaches : ∃ filter, env.Reaches filter
  · obtain ⟨filter, hfilter⟩ := hreaches
    -- Only one filter can be asked for.
    have hundoable : env.Undoable ↔ env.init.FailsElsewhere (visitedMtds filter env.table) := by
      refine ⟨fun h => h filter hfilter, fun h filter' hfilter' => ?_⟩
      obtain rfl := Option.some.inj (hfilter.filtered.symm.trans hfilter'.filtered)
      exact h
    have hneg : ∀ {ret : Int} {s : InitState σ},
        mtdpartctlDeviceClassInit env.init env.table filter (.load env.table) = .ok (ret, s) →
        ret ≠ 0 → ret < 0 := fun hinit hret =>
      lt_of_le_of_ne (mtdpartctlDeviceClassInit_nonpos env.init env.table filter _ _ hinit) hret
    rw [hundoable, mtdpartikrInit_reaches hfilter]
    rcases mtdpartctlDeviceClassInit_cases env.init env.table filter with
      ⟨helsewhere, ⟨ret, s, hinit, hret, hreleased, hmutex, hproxies⟩ | hcreates |
        ⟨o, ho, hinit⟩⟩ |
      ⟨hnot, hinit | ⟨ret, s, hinit, hret, hleaks⟩⟩
    · -- An error the class undoes; the parser is deregistered after it.
      refine .inl ⟨helsewhere, .inl ⟨ret, ⟨s, _, _⟩, ?_, hneg hinit hret, released_registration,
        hreleased, nanddevsOf_noProxies env.init hproxies, hmutex⟩⟩
      rw [hinit]
      exact if_pos (hneg hinit hret)
    · -- All devices were created.
      obtain ⟨major, devs, indices, -, -, -, hinit⟩ := hcreates
      refine .inl ⟨helsewhere, .inr (.inl
        ⟨⟨_, nanddevsOf env.init _, _⟩, ?_, rfl, env.init, env.table, filter, hinit, rfl⟩)⟩
      rw [hinit]
      rfl
    · -- A `BUG_ON` on a master without the hooks of its type.
      refine .inl ⟨helsewhere, .inr (.inr ⟨o, ho, ?_⟩)⟩
      rw [hinit]
      rfl
    · -- `mtd_table_mutex` is taken again on the error path.
      refine .inr ⟨hnot, .inl ?_⟩
      rw [hinit]
      rfl
    · -- What the class left behind stays behind.
      refine .inr ⟨hnot, .inr ⟨ret, ⟨s, nanddevsOf env.init s,
        [.acquire MTD_PARSER_NAME, .release MTD_PARSER_NAME]⟩, ?_, hneg hinit hret,
        fun h => hleaks h.resources⟩⟩
      rw [hinit]
      exact if_pos (hneg hinit hret)
  · rw [not_exists] at hreaches
    exact .inl ⟨fun filter h => absurd h (hreaches filter), .inl (mtdpartikrInit_refused hreaches)⟩

/-- **What a load has taken, the unload gives back**, but for what `nanddev_init` allocated. -/
theorem mtdpartikrExit_clean_iff {s : MtdpartikrModule σ} (h : s.Loaded) :
    ∃ s', mtdpartikrExit s = .ok s' ∧ (s'.Clean ↔ s.NoNand) := by
  obtain ⟨hparsers, env, table, filter, hinit, hnanddevs⟩ := h
  obtain ⟨kernel, hdestroy, hreleased, hmutex⟩ := mtdpartctlDeviceClassDestroy_released hinit
  refine ⟨mtdpartctlMtdParserDestroy { s with init := { s.init with kernel := kernel } }, ?_, ?_⟩
  · unfold mtdpartikrExit
    rw [hdestroy]
    rfl
  · have hempty : s.nanddevs = [] ↔ s.NoNand := by
      rw [hnanddevs]
      exact nanddevsOf_eq_nil_iff hinit
    have hregistered : Released (s.parsers ++ [.release MTD_PARSER_NAME]) := by
      rw [hparsers]
      exact released_registration
    constructor
    · exact fun hclean => hempty.mp hclean.nanddevs
    · exact fun hno => ⟨hregistered, hreleased, hempty.mpr hno, hmutex⟩

/-! ### Any number of loads and unloads -/

/-- Whatever was loaded before has left nothing behind, and no call hangs. -/
def LoadHistory.Clean (h : LoadHistory σ) : Prop :=
  (∀ s ∈ h.past, s.Clean) ∧ ∀ o, h.crashed = some o → o.MissingHook

/-- A module that is loaded has all its devices. -/
def LoadHistory.Loaded (h : LoadHistory σ) : Prop := ∀ s, h.loaded = some s → s.Loaded

/-- If the call loads the module, it is not the wrong call of the kernel that fails; if it unloads
the module, that has no NAND master. -/
structure LoadHistory.Undoable (h : LoadHistory σ) (call : LoadCall σ) : Prop where
  insmod : h.loaded = none → ∀ env, call = .insmod env → env.Undoable
  rmmod : ∀ s, h.loaded = some s → call = .rmmod → s.NoNand

/-- A call that does not return is all right if it runs into a `BUG_ON`. -/
theorem clean_crashed_iff {past : List (MtdpartikrModule σ)} {loaded : Option (MtdpartikrModule σ)}
    {o : InitOops} (h : ∀ s ∈ past, s.Clean) :
    LoadHistory.Clean ⟨loaded, past, some o⟩ ↔ o.MissingHook := by
  refine ⟨fun hclean => hclean.2 o rfl, fun ho => ⟨h, fun o' heq => ?_⟩⟩
  obtain rfl := Option.some.inj heq
  exact ho

theorem clean_ended_iff {past : List (MtdpartikrModule σ)} {s : MtdpartikrModule σ}
    (h : ∀ s ∈ past, s.Clean) : LoadHistory.Clean ⟨none, past ++ [s], none⟩ ↔ s.Clean := by
  constructor
  · exact fun hclean => hclean.1 s (List.mem_append_right _ (List.mem_singleton_self s))
  · intro hs
    refine ⟨List.forall_mem_append.mpr ⟨h, List.forall_mem_singleton.mpr hs⟩, fun o heq => ?_⟩
    cases heq

theorem InitOops.MissingHook.ne_relock {o : InitOops} (h : o.MissingHook) : o ≠ .relock := by
  rcases h with rfl | rfl | rfl <;> decide

/-- A load that returns zero. -/
theorem loaded_of_ok {env : LoadEnv σ} {ret : Int} {s : MtdpartikrModule σ}
    (h : mtdpartikrInit env = .ok (ret, s)) (hret : ¬ ret < 0) : s.Loaded := by
  rcases mtdpartikrInit_cases env with
    ⟨-, ⟨ret', s', hinit, hneg, -⟩ | ⟨s', hinit, hs⟩ | ⟨o, -, hinit⟩⟩ |
    ⟨-, hinit | ⟨ret', s', hinit, hneg, -⟩⟩
  all_goals rw [h] at hinit
  · rw [(Prod.mk.inj (Except.ok.inj hinit)).1] at hret
    exact absurd hneg hret
  · rw [(Prod.mk.inj (Except.ok.inj hinit)).2]
    exact hs
  · cases hinit
  · cases hinit
  · rw [(Prod.mk.inj (Except.ok.inj hinit)).1] at hret
    exact absurd hneg hret

theorem loadSystem_loaded {h h' : LoadHistory σ} {call : LoadCall σ} (hloaded : h.Loaded)
    (hstep : (loadSystem σ).step h call = some h') : h'.Loaded := by
  obtain ⟨loaded, past, crashed⟩ := h
  have hnone : ∀ {past : List (MtdpartikrModule σ)} {crashed}, LoadHistory.Loaded
      ⟨none, past, crashed⟩ := fun s heq => by cases heq
  cases crashed with
  -- After a crash there is no next step.
  | some o => cases call <;> cases loaded <;> cases hstep
  | none =>
    cases loaded with
    | none =>
      cases call with
      | rmmod =>
        rw [← Option.some.inj hstep]
        exact hnone
      | insmod env =>
        simp only [loadSystem] at hstep
        split at hstep
        · rw [← Option.some.inj hstep]
          exact hnone
        · rename_i ret s hinit
          split_ifs at hstep with hret
          · rw [← Option.some.inj hstep]
            exact hnone
          · -- Zero is returned only with all devices.
            rw [← Option.some.inj hstep]
            intro s' heq
            rw [← Option.some.inj heq]
            exact loaded_of_ok hinit hret
    | some s =>
      cases call with
      | insmod env =>
        rw [← Option.some.inj hstep]
        exact hloaded
      | rmmod =>
        obtain ⟨s', hexit, -⟩ := mtdpartikrExit_clean_iff (hloaded s rfl)
        simp only [loadSystem, hexit] at hstep
        rw [← Option.some.inj hstep]
        exact hnone

/-- A load when nothing is loaded. -/
theorem loadSystem_insmod {past : List (MtdpartikrModule σ)} {env : LoadEnv σ}
    {h' : LoadHistory σ} (hpast : ∀ s ∈ past, s.Clean)
    (hstep : (loadSystem σ).step ⟨none, past, none⟩ (.insmod env) = some h') :
    h'.Clean ↔ env.Undoable := by
  simp only [loadSystem] at hstep
  rcases mtdpartikrInit_cases env with
    ⟨hok, ⟨ret, s, hinit, hret, hs⟩ | ⟨s, hinit, hs⟩ | ⟨o, ho, hinit⟩⟩ |
    ⟨hnot, hinit | ⟨ret, s, hinit, hret, hs⟩⟩
  · rw [hinit] at hstep
    obtain rfl := Option.some.inj ((if_pos hret).symm.trans hstep)
    exact iff_of_true ((clean_ended_iff hpast).mpr hs) hok
  · rw [hinit] at hstep
    obtain rfl := Option.some.inj hstep
    exact iff_of_true ⟨hpast, fun o heq => by cases heq⟩ hok
  · rw [hinit] at hstep
    obtain rfl := Option.some.inj hstep
    exact iff_of_true ((clean_crashed_iff hpast).mpr ho) hok
  · rw [hinit] at hstep
    obtain rfl := Option.some.inj hstep
    exact iff_of_false (fun hclean => ((clean_crashed_iff hpast).mp hclean).ne_relock rfl) hnot
  · rw [hinit] at hstep
    obtain rfl := Option.some.inj ((if_pos hret).symm.trans hstep)
    exact iff_of_false (mt (clean_ended_iff hpast).mp hs) hnot

/-- One load or unload. -/
theorem loadSystem_clean_iff {h h' : LoadHistory σ} {call : LoadCall σ} (hloaded : h.Loaded)
    (hclean : h.Clean) (hstep : (loadSystem σ).step h call = some h') :
    h'.Clean ↔ h.Undoable call := by
  obtain ⟨loaded, past, crashed⟩ := h
  cases crashed with
  | some o => cases call <;> cases loaded <;> cases hstep
  | none =>
    cases loaded with
    | none =>
      cases call with
      | rmmod =>
        obtain rfl := Option.some.inj hstep
        refine iff_of_true hclean ⟨fun _ env heq => ?_, fun s heq => ?_⟩
        · cases heq
        · cases heq
      | insmod env =>
        -- Nothing is loaded, so the load decides alone.
        refine (loadSystem_insmod hclean.1 hstep).trans ⟨fun h => ⟨fun _ env' heq => ?_,
          fun s heq => ?_⟩, fun h => h.insmod rfl env rfl⟩
        · obtain rfl := LoadCall.insmod.inj heq
          exact h
        · cases heq
    | some s =>
      cases call with
      | insmod env =>
        -- A second load of a loaded module is refused.
        obtain rfl := Option.some.inj hstep
        refine iff_of_true hclean ⟨fun hnone => ?_, fun s _ heq => ?_⟩
        · cases hnone
        · cases heq
      | rmmod =>
        obtain ⟨s', hexit, hs'⟩ := mtdpartikrExit_clean_iff (hloaded s rfl)
        simp only [loadSystem, hexit] at hstep
        obtain rfl := Option.some.inj hstep
        refine (clean_ended_iff hclean.1).trans (hs'.trans ⟨fun hno => ⟨fun hnone => ?_,
          fun t ht _ => ?_⟩, fun h => h.rmmod s rfl rfl⟩)
        · cases hnone
        · rw [← Option.some.inj ht]
          exact hno

/-- **However often the module is loaded and unloaded**: whenever a load has failed or the module
has been unloaded, everything it took has been given back, once, and no call waits for a mutex that
it holds or follows a NULL pointer, if and only if in no load the call that failed was
`__get_mtd_device` or the creation of a device, and no module with a NAND master was unloaded. -/
theorem module_clean_iff (calls : List (LoadCall σ)) :
    (∀ h ∈ (loadSystem σ).visited ⟨none, [], none⟩ calls, h.Clean) ↔
      ∀ x ∈ (loadSystem σ).taken ⟨none, [], none⟩ calls, x.1.Undoable x.2 :=
  TransitionSystem.forall_visited_iff (I := LoadHistory.Loaded)
    (fun _ _ _ => loadSystem_loaded) (fun _ _ _ => loadSystem_clean_iff) calls _
    (fun s heq => by cases heq)
    ⟨fun s hs => absurd hs (List.not_mem_nil), fun o heq => by cases heq⟩

end Mtdpartikr
