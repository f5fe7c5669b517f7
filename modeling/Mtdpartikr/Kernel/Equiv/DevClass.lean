import Mtdpartikr.Kernel.Equiv.DeviceCreate
import Mtdpartikr.Kernel.Equiv.MtdTable

/-!
# The steps of the initialisation

What each function of `kernel/ctrl_dev_class.c` does to the class and to the trace of resources,
for any table and any outcomes of the calls it makes.

* `getAllMatchingMtdDevices_ok`: every master is referenced once and has its slot of `mtd_devs`.
* `getAllMatchingMtdDevices_refused`: a reference that is refused.
* `allocArrayWithItems_cases`: all devices are allocated, or none is.
* `deviceClassCreateDevices_ok`, `deviceClassCreateDevices_fails`: every device is created, or
  those that were are removed.
-/

namespace Mtdpartikr

open Ledger (Event Released)

variable {σ : Type}

/-! ### The two passes over the table -/

theorem runCallbacks_addMtdCount (mtds : List (MtdDev σ)) :
    ∀ (idx : ℕ) (s : InitState σ), runCallbacks addMtdCount idx mtds s =
      .ok (0, { s with
        cls := { s.cls with count := s.cls.count + mtds.length }
        counted := s.counted ++ mtds }) := by
  induction mtds with
  | nil =>
    intro idx s
    rw [runCallbacks, List.length_nil, Nat.add_zero, List.append_nil]
    rfl
  | cons mtd rest ih =>
    intro idx s
    rw [runCallbacks]
    show runCallbacks addMtdCount (idx + 1) rest _ = _
    rw [ih, List.length_cons, List.append_assoc, List.singleton_append, Nat.add_assoc,
      Nat.add_comm 1]

/-- The references on some MTDs. -/
def mtdRefs (mtds : List (MtdDev σ)) : List Resource := mtds.map fun mtd => .mtdRef mtd.index

/-- What is held when all masters are referenced. -/
def refResources (masters : List (MtdDev σ)) : List Resource := .mtdDevs :: mtdRefs masters

/-- The same in the order `put_all_mtd_devices` gives it back. -/
def refsPut (masters : List (MtdDev σ)) : List Resource := mtdRefs masters ++ [.mtdDevs]

/-- The state when the second pass, behind `done`, has referenced `mtds`. -/
def InitState.afterRefs (s : InitState σ) (done mtds : List (MtdDev σ)) (free : ℕ) :
    InitState σ :=
  { s with
    kernel := { s.kernel with trace := s.kernel.trace ++ (mtdRefs mtds).map .acquire }
    cls := { s.cls with
      mtdDevs := (done ++ mtds).map some ++ List.replicate free none
      mtdCount := s.cls.mtdCount + mtds.length }
    referenced := s.referenced ++ mtds
    written := s.written ++ List.range' done.length mtds.length }

/-- The second pass over MTDs that can be referenced. -/
theorem runCallbacks_getMtdDeviceRef (env : InitEnv) (mtds rest : List (MtdDev σ)) (free : ℕ) :
    ∀ (done : List (MtdDev σ)) (s : InitState σ),
      (∀ mtd ∈ mtds, env.getMtdDevice mtd.index = none) →
      s.cls.mtdDevs = done.map some ++ List.replicate (mtds.length + free) none →
      runCallbacks (getMtdDeviceRef env) done.length (mtds ++ rest) s =
        runCallbacks (getMtdDeviceRef env) (done ++ mtds).length rest
          (s.afterRefs done mtds free) := by
  induction mtds with
  | nil =>
    intro done s _ hslots
    rw [List.length_nil, Nat.zero_add] at hslots
    have hsame : s.afterRefs done [] free = s := by
      simp [InitState.afterRefs, mtdRefs, ← hslots]
    rw [List.nil_append, List.append_nil, hsame]
  | cons mtd mtds ih =>
    intro done s hgranted hslots
    rw [List.forall_mem_cons] at hgranted
    have hlen : mtds.length + 1 + free = (mtds.length + free) + 1 := by omega
    rw [List.length_cons, hlen, List.replicate_succ] at hslots
    have hidx : done.length < s.cls.mtdDevs.length := by
      rw [hslots, List.length_append, List.length_map, List.length_cons]
      omega
    have hset : s.cls.mtdDevs.set done.length (some mtd) =
        (done ++ [mtd]).map some ++ List.replicate (mtds.length + free) none := by
      rw [hslots, List.set_append_right _ _ (by simp), List.length_map, Nat.sub_self]
      simp
    have hnext := ih (done ++ [mtd]) (s.afterRefs done [mtd] (mtds.length + free)) hgranted.2 rfl
    have hcall : getMtdDeviceRef env s done.length mtd =
        .ok (0, s.afterRefs done [mtd] (mtds.length + free)) := by
      unfold getMtdDeviceRef
      simp only [hgranted.1, hidx, if_true, hset]
      rfl
    rw [List.cons_append, runCallbacks, hcall]
    show runCallbacks (getMtdDeviceRef env) (done.length + 1) (mtds ++ rest) _ = _
    rw [show done.length + 1 = (done ++ [mtd]).length by simp, hnext]
    simp [InitState.afterRefs, mtdRefs, List.range'_succ, Nat.add_assoc, Nat.add_comm 1]

/-! ### `get_all_matching_mtd_devices` -/

section GetAll

variable (env : InitEnv) (table : MtdTable σ) (filter : MtdDeviceTypeFilter)

/-- The state behind the first pass, with `mtd_table_mutex` held. -/
def InitState.counting (table : MtdTable σ) (masters : List (MtdDev σ)) : InitState σ where
  cls := { MtdpartctlDevClass.zero with count := masters.length }
  kernel := ⟨true, table.mtds.map MtdDev.index, []⟩
  counted := masters
  referenced := []
  written := []

/-- The class when all masters are referenced, with its array of devices. -/
def MtdpartctlDevClass.withDevs (masters : List (MtdDev σ)) (devno : DevT)
    (devs : List (Option (ClassDevice σ))) : MtdpartctlDevClass σ :=
  ⟨masters.map some, devs, masters.length, devno, masters.length⟩

/-- The state when all masters are referenced. -/
def InitState.gotAll (table : MtdTable σ) (masters : List (MtdDev σ)) : InitState σ where
  cls := .withDevs masters 0 []
  kernel := ⟨false, table.mtds.map MtdDev.index, (refResources masters).map .acquire⟩
  counted := masters
  referenced := masters
  written := List.range masters.length

/-- The first pass counts the masters. -/
theorem countingPass_eq :
    mtdForEachMasterDeviceFilteredLocked table addMtdCount filter
        { InitState.load table with kernel := ⟨true, table.mtds.map MtdDev.index, []⟩ } =
      .ok (0, InitState.counting table (visitedMtds filter table)) := by
  rw [mtdForEachMaster_eq, runCallbacks_addMtdCount]
  simp [InitState.load, InitState.counting, MtdpartctlDevClass.zero]

theorem getAllMatchingMtdDevices_unfold :
    getAllMatchingMtdDevices env table filter (.load table) = (do
      let (ret, s) ← getAllMatchingMtdDevicesLocked env table filter
        { InitState.load table with kernel := ⟨true, table.mtds.map MtdDev.index, []⟩ }
      return (ret, { s with kernel := unlockMtdTable s.kernel })) := rfl

/-- Without masters, or without memory for `mtd_devs`, nothing is taken. -/
theorem getAllMatchingMtdDevices_nothing
    (h : visitedMtds filter table = [] ∨ env.allocMtdDevs = false) :
    ∃ ret s, getAllMatchingMtdDevices env table filter (.load table) = .ok (ret, s) ∧ ret < 0 ∧
      s.kernel.trace = [] ∧ s.kernel.mtdTableMutex = false := by
  rw [getAllMatchingMtdDevices_unfold]
  unfold getAllMatchingMtdDevicesLocked
  rw [countingPass_eq]
  by_cases hempty : visitedMtds filter table = []
  · refine ⟨neg .EINVAL, { InitState.counting table [] with
      kernel := ⟨false, table.mtds.map MtdDev.index, []⟩ }, ?_, by decide, rfl, rfl⟩
    rw [hempty]
    rfl
  · have halloc := h.resolve_left hempty
    have hcount : (visitedMtds filter table).length ≠ 0 := by simpa using hempty
    refine ⟨neg .ENOMEM, { InitState.counting table (visitedMtds filter table) with
      kernel := ⟨false, table.mtds.map MtdDev.index, []⟩ }, ?_, by decide, rfl, rfl⟩
    simp [bind, Except.bind, pure, Except.pure, InitState.counting, hcount, halloc,
      unlockMtdTable]

/-- The state behind the first pass, with the array for the masters. -/
def InitState.referencing (table : MtdTable σ) (masters : List (MtdDev σ)) : InitState σ :=
  { InitState.counting table masters with
    kernel := ⟨true, table.mtds.map MtdDev.index, [.acquire .mtdDevs]⟩
    cls := { (InitState.counting table masters).cls with
      mtdDevs := List.replicate masters.length none } }

/-- With some master and the array for them, `get_all_matching_mtd_devices` is the second pass and
what follows it. -/
theorem getAllMatchingMtdDevices_secondPass (hsome : visitedMtds filter table ≠ [])
    (halloc : env.allocMtdDevs = true) :
    getAllMatchingMtdDevices env table filter (.load table) = (do
      let (ret, s) ← runCallbacks (getMtdDeviceRef env) 0 (visitedMtds filter table)
        (.referencing table (visitedMtds filter table))
      if ret < 0 then
        let kernel ← putAllMtdDevices s.cls s.kernel
        return (ret, { s with kernel := unlockMtdTable (kernel.release .mtdDevs) })
      return (0, { s with kernel := unlockMtdTable s.kernel })) := by
  have hcount : (visitedMtds filter table).length ≠ 0 := by simpa using hsome
  rw [getAllMatchingMtdDevices_unfold]
  unfold getAllMatchingMtdDevicesLocked
  rw [countingPass_eq]
  have hstate : { InitState.counting table (visitedMtds filter table) with
      kernel := (InitState.counting table (visitedMtds filter table)).kernel.acquire .mtdDevs
      cls := { (InitState.counting table (visitedMtds filter table)).cls with
        mtdDevs := List.replicate
          (InitState.counting table (visitedMtds filter table)).cls.count none } } =
      InitState.referencing table (visitedMtds filter table) := rfl
  simp only [bind, Except.bind, pure, Except.pure, lt_self_iff_false, if_false, hstate,
    mtdForEachMaster_eq, halloc, Bool.not_true, Bool.false_eq_true]
  rw [if_neg (show (InitState.counting table (visitedMtds filter table)).cls.count ≠ 0 from hcount)]
  cases runCallbacks (getMtdDeviceRef env) 0 (visitedMtds filter table)
      (.referencing table (visitedMtds filter table)) with
  | error o => rfl
  | ok result =>
    obtain ⟨ret, s⟩ := result
    by_cases hret : ret < 0
    · simp only [hret, if_true]
      cases putAllMtdDevices s.cls s.kernel <;> rfl
    · simp only [hret, if_false]

/-- **All masters are referenced**, each once. -/
theorem getAllMatchingMtdDevices_ok (hsome : visitedMtds filter table ≠ [])
    (halloc : env.allocMtdDevs = true)
    (hgranted : ∀ mtd ∈ visitedMtds filter table, env.getMtdDevice mtd.index = none) :
    getAllMatchingMtdDevices env table filter (.load table) =
      .ok (0, .gotAll table (visitedMtds filter table)) := by
  rw [getAllMatchingMtdDevices_secondPass env table filter hsome halloc]
  have hpass := runCallbacks_getMtdDeviceRef env (visitedMtds filter table) [] 0 []
    (.referencing table (visitedMtds filter table)) hgranted rfl
  rw [List.append_nil, List.length_nil] at hpass
  rw [hpass, runCallbacks]
  simp [bind, Except.bind, pure, Except.pure, InitState.afterRefs, InitState.referencing,
    InitState.counting, InitState.gotAll, MtdpartctlDevClass.zero, MtdpartctlDevClass.withDevs,
    refResources, unlockMtdTable, List.range_eq_range']

/-- The first element of a list with a property. -/
theorem exists_first {α : Type} {p : α → Prop} {l : List α} (h : ∃ a ∈ l, p a) :
    ∃ pre a post, l = pre ++ a :: post ∧ p a ∧ ∀ b ∈ pre, ¬ p b := by
  classical
  obtain ⟨a, ha, hp⟩ := h
  have hfind : (l.find? fun a => decide (p a)) ≠ none := by
    rw [ne_eq, List.find?_eq_none]
    intro hnone
    exact hnone a ha (by simpa using hp)
  obtain ⟨b, hb⟩ := Option.ne_none_iff_exists'.mp hfind
  obtain ⟨hpb, pre, post, hl, hpre⟩ := List.find?_eq_some_iff_append.mp hb
  exact ⟨pre, b, post, hl, by simpa using hpb, fun c hc => by simpa using hpre c hc⟩

/-- **A reference that is refused is fatal.**  If it is the first one, `mtd_devs` is freed twice;
if it is a later one, `put_mtd_device` waits for the mutex that the thread holds. -/
theorem getAllMatchingMtdDevices_refused (halloc : env.allocMtdDevs = true)
    (hrefused : ∃ mtd ∈ visitedMtds filter table, env.getMtdDevice mtd.index ≠ none) :
    getAllMatchingMtdDevices env table filter (.load table) = .error .relock ∨
      ∃ ret s, getAllMatchingMtdDevices env table filter (.load table) = .ok (ret, s) ∧ ret < 0 ∧
        ¬ Released s.kernel.trace := by
  obtain ⟨pre, bad, post, hsplit, hbad, hpre⟩ := exists_first hrefused
  obtain ⟨err, herr⟩ := Option.ne_none_iff_exists'.mp hbad
  have hsome : visitedMtds filter table ≠ [] := by rw [hsplit]; simp
  have hpass := runCallbacks_getMtdDeviceRef env pre (bad :: post) (post.length + 1) []
    (.referencing table (visitedMtds filter table)) (fun mtd hmtd => not_not.mp (hpre mtd hmtd))
    (by simp [InitState.referencing, hsplit])
  have hcall : ∀ idx (s : InitState σ), runCallbacks (getMtdDeviceRef env) idx (bad :: post) s =
      .ok (err.ret, { s with referenced := s.referenced ++ [bad] }) := by
    intro idx s
    simp [runCallbacks, getMtdDeviceRef, herr, bind, Except.bind, pure, Except.pure]
  rw [← hsplit, List.length_nil, hcall] at hpass
  rw [getAllMatchingMtdDevices_secondPass env table filter hsome halloc, hpass]
  simp only [bind, Except.bind, pure, Except.pure, err.ret_lt_zero, if_true]
  cases pre with
  | nil =>
    right
    have hput : putAllMtdDevices
        ((InitState.referencing table (visitedMtds filter table)).afterRefs [] []
          (post.length + 1)).cls
        ((InitState.referencing table (visitedMtds filter table)).afterRefs [] []
          (post.length + 1)).kernel =
        .ok ⟨true, table.mtds.map MtdDev.index, [.acquire .mtdDevs, .release .mtdDevs]⟩ := rfl
    rw [hput]
    refine ⟨_, _, rfl, err.ret_lt_zero, fun hreleased => ?_⟩
    have hcount := hreleased.count_eq .mtdDevs
    simp [unlockMtdTable, KernelState.release] at hcount
  | cons mtd pre =>
    left
    have hput : putAllMtdDevices
        ((InitState.referencing table (visitedMtds filter table)).afterRefs [] (mtd :: pre)
          (post.length + 1)).cls
        ((InitState.referencing table (visitedMtds filter table)).afterRefs [] (mtd :: pre)
          (post.length + 1)).kernel = .error .relock := by
      simp [putAllMtdDevices, InitState.afterRefs, InitState.referencing, InitState.counting,
        MtdpartctlDevClass.zero, List.range_succ_eq_map, putMtdDevice, lockMtdTable, bind,
        Except.bind, throw, throwThe, MonadExceptOf.throw]
    rw [hput]

end GetAll

/-! ### Arrays -/

theorem foldl_release (f : ℕ → Resource) (l : List ℕ) :
    ∀ kernel : KernelState, l.foldl (fun kernel idx => kernel.release (f idx)) kernel =
      { kernel with trace := kernel.trace ++ (l.map f).map .release } := by
  induction l with
  | nil => intro kernel; simp
  | cons idx l ih =>
    intro kernel
    rw [List.foldl_cons, ih]
    simp [KernelState.release]

/-- The array `devs` with its items. -/
def arrayResources (count : ℕ) : List Resource := .devs :: (List.range count).map .device

theorem nodup_arrayResources (count : ℕ) : (arrayResources count).Nodup := by
  refine List.nodup_cons.mpr ⟨by simp, ?_⟩
  exact List.Nodup.map (fun i j hij => Resource.device.inj hij) List.nodup_range

/-- The same in the order `free_array_with_items` frees it. -/
def arrayFreed (count : ℕ) : List Resource := (List.range count).map .device ++ [.devs]

theorem arrayFreed_perm (count : ℕ) : (arrayFreed count).Perm (arrayResources count) :=
  List.perm_append_singleton _ _

theorem freeArrayWithItems_eq (count : ℕ) (kernel : KernelState) :
    freeArrayWithItems count kernel =
      { kernel with trace := kernel.trace ++ (arrayFreed count).map .release } := by
  unfold freeArrayWithItems arrayFreed
  rw [foldl_release Resource.device]
  simp [KernelState.release]

theorem allocArrayWithItems.loop_eq (env : InitEnv) (remaining : ℕ) :
    ∀ (idx : ℕ) (kernel : KernelState),
      ((∀ i < remaining, env.allocDevice (idx + i) = true) ∧
        allocArrayWithItems.loop env remaining idx kernel = (none, { kernel with
          trace := kernel.trace ++
            ((List.range' idx remaining).map Resource.device).map .acquire })) ∨
      ∃ n < remaining, env.allocDevice (idx + n) = false ∧
        allocArrayWithItems.loop env remaining idx kernel = (some (idx + n), { kernel with
          trace := kernel.trace ++
            ((List.range' idx n).map Resource.device).map .acquire }) := by
  induction remaining with
  | zero =>
    intro idx kernel
    refine .inl ⟨fun i hi => absurd hi (Nat.not_lt_zero i), ?_⟩
    rw [allocArrayWithItems.loop, List.range'_zero, List.map_nil, List.map_nil, List.append_nil]
  | succ remaining ih =>
    intro idx kernel
    rw [allocArrayWithItems.loop]
    cases halloc : env.allocDevice idx with
    | false =>
      refine .inr ⟨0, by omega, halloc, ?_⟩
      simp
    | true =>
      rw [if_neg (by simp)]
      obtain ⟨hall, heq⟩ | ⟨n, hn, hfalse, heq⟩ := ih (idx + 1) (kernel.acquire (.device idx))
      · refine .inl ⟨fun i hi => ?_, ?_⟩
        · cases i with
          | zero => exact halloc
          | succ i =>
            have hnext := hall i (by omega)
            rwa [Nat.add_assoc, Nat.add_comm 1] at hnext
        · rw [heq, List.range'_succ]
          simp [KernelState.acquire]
      · refine .inr ⟨n + 1, by omega, ?_, ?_⟩
        · rwa [Nat.add_assoc, Nat.add_comm 1] at hfalse
        · rw [heq, List.range'_succ]
          simp [KernelState.acquire, Nat.add_assoc, Nat.add_comm 1]

/-- Every allocation for `devs` succeeds. -/
def InitEnv.AllocsDevs (env : InitEnv) (count : ℕ) : Prop :=
  env.allocDevs = true ∧ ∀ k < count, env.allocDevice k = true

/-- **The array with its items**, or nothing. -/
theorem allocArrayWithItems_cases (env : InitEnv) (count : ℕ) (kernel : KernelState) :
    (env.AllocsDevs count ∧ allocArrayWithItems (σ := σ) env count kernel =
        (some (List.replicate count (some ClassDevice.zero)), { kernel with
          trace := kernel.trace ++ (arrayResources count).map .acquire })) ∨
      (¬ env.AllocsDevs count ∧ ∃ tr, allocArrayWithItems (σ := σ) env count kernel =
          (none, { kernel with trace := kernel.trace ++ tr }) ∧
        Released tr ∧ ∀ e ∈ tr, ∃ n, e.resource ∈ arrayResources n) := by
  unfold allocArrayWithItems InitEnv.AllocsDevs
  cases hdevs : env.allocDevs with
  | false =>
    refine .inr ⟨by simp, [], ?_, rfl, List.forall_mem_nil _⟩
    simp
  | true =>
    rw [if_neg (by simp)]
    obtain ⟨hall, heq⟩ | ⟨n, hn, hfalse, heq⟩ :=
      allocArrayWithItems.loop_eq env count 0 (kernel.acquire .devs)
    · refine .inl ⟨⟨rfl, fun k hk => by simpa using hall k hk⟩, ?_⟩
      rw [heq]
      simp [KernelState.acquire, arrayResources, List.range_eq_range']
    · rw [Nat.zero_add] at hfalse heq
      refine .inr ⟨fun hall => ?_, (arrayResources n).map .acquire ++ [] ++
        (arrayFreed n).map .release, ?_, ?_, ?_⟩
      · rw [hall.2 n hn] at hfalse
        cases hfalse
      · rw [heq]
        simp [freeArrayWithItems_eq, KernelState.acquire, arrayResources, List.range_eq_range']
      · have hnil : Released ([] : List (Event Resource)) := rfl
        exact hnil.bracket (nodup_arrayResources n) (arrayFreed_perm n) (List.forall_mem_nil _)
      · intro e he
        refine ⟨n, ?_⟩
        simp only [List.append_nil, List.mem_append, List.mem_map] at he
        rcases he with ⟨r, hr, rfl⟩ | ⟨r, hr, rfl⟩
        · exact hr
        · exact (arrayFreed_perm n).mem_iff.mp hr

/-! ### `put_all_mtd_devices` -/

theorem nodup_mtdRefs (table : MtdTable σ) (filter : MtdDeviceTypeFilter) :
    (mtdRefs (visitedMtds filter table)).Nodup := by
  have hsorted := table.sorted.filter fun mtd => !skips filter mtd
  rw [mtdRefs, List.Nodup, List.pairwise_map]
  refine hsorted.imp fun hlt heq => ?_
  have hindex := Resource.mtdRef.inj heq
  omega

/-- A loop that drops the references one after the other. -/
theorem foldlM_putMtdDevice (step : KernelState → ℕ → Except InitOops KernelState)
    (mtds : List (MtdDev σ)) :
    ∀ (k : ℕ) (indices : List ℕ) (trace : List (Event Resource)),
      (∀ i mtd kernel, mtds[i]? = some mtd → step kernel (k + i) = putMtdDevice mtd kernel) →
      (List.range' k mtds.length).foldlM step ⟨false, indices, trace⟩ =
        .ok ⟨false, indices, trace ++ (mtdRefs mtds).map .release⟩ := by
  induction mtds with
  | nil => intro k indices trace _; simp [mtdRefs, pure, Except.pure]
  | cons mtd mtds ih =>
    intro k indices trace hstep
    have hhead : step ⟨false, indices, trace⟩ k =
        .ok ⟨false, indices, trace ++ [.release (.mtdRef mtd.index)]⟩ := hstep 0 mtd _ rfl
    have hrest := ih (k + 1) indices (trace ++ [.release (.mtdRef mtd.index)])
      fun i m kernel hm => by
        have hnext := hstep (i + 1) m kernel (by simpa using hm)
        rwa [Nat.add_assoc, Nat.add_comm 1]
    rw [List.length_cons, List.range'_succ, List.foldlM_cons, hhead]
    show List.foldlM _ _ _ = _
    rw [hrest]
    simp [mtdRefs]

theorem putAllMtdDevices_eq (masters : List (MtdDev σ)) (devno : DevT)
    (devs : List (Option (ClassDevice σ))) (indices : List ℕ) (trace : List (Event Resource)) :
    putAllMtdDevices (.withDevs masters devno devs) ⟨false, indices, trace⟩ =
      .ok ⟨false, indices, trace ++ (refsPut masters).map .release⟩ := by
  unfold putAllMtdDevices
  simp only [MtdpartctlDevClass.withDevs]
  rw [List.range_eq_range', foldlM_putMtdDevice _ masters 0 indices trace]
  · simp [bind, Except.bind, pure, Except.pure, KernelState.release, refsPut]
  · intro i mtd kernel hmtd
    simp [hmtd]

/-! ### The devices -/

/-- What the devices of some masters take, numbered from `k` on. -/
def devicesResources : ℕ → List (MtdDev σ) → List Resource
  | _, [] => []
  | k, mtd :: rest => deviceResources k mtd.owner ++ devicesResources (k + 1) rest

theorem ofCreation_of_mem_devicesResources (masters : List (MtdDev σ)) :
    ∀ {k : ℕ} {r : Resource}, r ∈ devicesResources k masters →
      ∃ j, k ≤ j ∧ j < k + masters.length ∧ r.OfCreation j := by
  induction masters with
  | nil => intro k r h; cases h
  | cons mtd rest ih =>
    intro k r h
    rw [List.length_cons]
    rcases List.mem_append.mp h with h | h
    · exact ⟨k, by omega, by omega, ofCreation_of_mem_deviceResources h⟩
    · obtain ⟨j, hle, hlt, hj⟩ := ih h
      exact ⟨j, by omega, by omega, hj⟩

theorem nodup_devicesResources (masters : List (MtdDev σ)) :
    ∀ k : ℕ, (devicesResources k masters).Nodup := by
  induction masters with
  | nil => intro k; exact List.nodup_nil
  | cons mtd rest ih =>
    intro k
    refine List.nodup_append'.mpr ⟨nodup_deviceResources k mtd.owner, ih (k + 1), ?_⟩
    intro r hr hrest
    have hk := ofCreation_of_mem_deviceResources hr
    obtain ⟨j, hle, -, hj⟩ := ofCreation_of_mem_devicesResources rest hrest
    have heq := hk.eq hj
    omega

/-- The `k`-th device as `add_devices` leaves it. -/
def madeDevice (devno : DevT) (k : ℕ) (backing proxy : MtdDev σ) : ClassDevice σ where
  backingMtd := some backing
  devno := mkdev (devMajor devno) (UInt32.ofNat k)
  alreadyOpen := false
  recipe := ⟨[], 0⟩
  proxyMtd := some proxy
  useRefcnt := 0
  aboutToRespawn := false

/-- The device has a proxy of its backing MTD with an index that was not in use. -/
def IsMadeDevice (devno : DevT) (used : List ℕ) (k : ℕ) (backing : MtdDev σ)
    (dev : ClassDevice σ) : Prop :=
  ∃ mtd index, filledProxyMtd backing = .ok mtd ∧ index ∉ used ∧
    dev = madeDevice devno k backing { mtd with index := index }

/-- The devices of some masters, numbered from `k` on. -/
inductive AreMadeDevices (devno : DevT) (used : List ℕ) :
    ℕ → List (MtdDev σ) → List (ClassDevice σ) → Prop
  | nil (k : ℕ) : AreMadeDevices devno used k [] []
  | cons {k : ℕ} {backing : MtdDev σ} {dev : ClassDevice σ} {rest : List (MtdDev σ)}
      {devs : List (ClassDevice σ)} (h : IsMadeDevice devno used k backing dev)
      (hrest : AreMadeDevices devno used (k + 1) rest devs) :
      AreMadeDevices devno used k (backing :: rest) (dev :: devs)

theorem AreMadeDevices.length_eq {devno : DevT} {used : List ℕ} {k : ℕ}
    {masters : List (MtdDev σ)} {devs : List (ClassDevice σ)}
    (h : AreMadeDevices devno used k masters devs) : devs.length = masters.length := by
  induction h with
  | nil => rfl
  | cons _ _ ih => rw [List.length_cons, List.length_cons, ih]

theorem mtdpartctlDeviceCreate_made (env : InitEnv) {k : ℕ} {backing : MtdDev σ}
    (hcreates : (env.device k).Creates backing) (devno : DevT) {used indices : List ℕ}
    (hused : used ⊆ indices) (trace : List (Event Resource)) :
    ∃ dev indices', IsMadeDevice devno used k backing dev ∧ used ⊆ indices' ∧
      mtdpartctlDeviceCreate env k backing
          { ClassDevice.zero with
            backingMtd := some backing
            devno := mkdev (devMajor devno) (UInt32.ofNat k) } ⟨false, indices, trace⟩ =
        .ok (0, dev,
          ⟨false, indices', trace ++ (deviceResources k backing.owner).map .acquire⟩) := by
  obtain ⟨mtd, hfilled, hok⟩ := mtdpartctlDeviceCreate_ok env k backing
    { ClassDevice.zero with
      backingMtd := some backing
      devno := mkdev (devMajor devno) (UInt32.ofNat k) } indices trace hcreates
  have hfresh : env.choice.index indices ∉ used := fun hmem =>
    env.choice.fresh indices (hused hmem)
  exact ⟨_, _, ⟨mtd, _, hfilled, hfresh, rfl⟩, fun i hi => List.mem_cons_of_mem _ (hused hi), hok⟩

/-- **The loop of `add_devices` over masters whose devices can be made.**  The slots behind them
stay as they were. -/
theorem addDevices.loop_made (env : InitEnv) (used : List ℕ) (masters : List (MtdDev σ))
    (remaining : ℕ) :
    ∀ (k : ℕ) (cls : MtdpartctlDevClass σ) (made : List (Option (ClassDevice σ)))
      (indices : List ℕ) (trace : List (Event Resource)),
      (∀ i mtd, masters[i]? = some mtd → (env.device (k + i)).Creates mtd) →
      (∀ i mtd, masters[i]? = some mtd → cls.mtdDevs[k + i]? = some (some mtd)) →
      made.length = k → used ⊆ indices →
      cls.devs = made ++ List.replicate (masters.length + remaining) (some .zero) →
      ∃ devs indices', AreMadeDevices cls.devno used k masters devs ∧ used ⊆ indices' ∧
        addDevices.loop env (masters.length + remaining) k cls ⟨false, indices, trace⟩ =
          addDevices.loop env remaining (k + masters.length)
            { cls with devs := made ++ devs.map some ++ List.replicate remaining (some .zero) }
            ⟨false, indices', trace ++ (devicesResources k masters).map .acquire⟩ := by
  induction masters with
  | nil =>
    intro k cls made indices trace _ _ _ hused hdevs
    refine ⟨[], indices, .nil k, hused, ?_⟩
    rw [List.length_nil, Nat.zero_add] at hdevs
    simp [devicesResources, ← hdevs]
  | cons mtd rest ih =>
    intro k cls made indices trace hcreates hslots hlen hused hdevs
    have hsum : (mtd :: rest).length + remaining = (rest.length + remaining) + 1 := by
      rw [List.length_cons]
      omega
    rw [hsum, List.replicate_succ] at hdevs
    have hdev : cls.devs[k]? = some (some .zero) := by
      rw [hdevs, List.getElem?_append_right (by omega), hlen, Nat.sub_self]
      rfl
    have hslot : cls.mtdDevs[k]? = some (some mtd) := hslots 0 mtd rfl
    have hcreate : (env.device k).Creates mtd := hcreates 0 mtd rfl
    obtain ⟨dev, indices₁, hdevMade, hused₁, hok⟩ :=
      mtdpartctlDeviceCreate_made env hcreate cls.devno hused trace
    have hset : cls.devs.set k (some dev) =
        (made ++ [some dev]) ++ List.replicate (rest.length + remaining) (some .zero) := by
      rw [hdevs, List.set_append_right _ _ (by omega), hlen, Nat.sub_self, List.set_cons_zero,
        List.append_assoc, List.singleton_append]
    obtain ⟨devs, indices', hmade, hused', hloop⟩ := ih (k + 1)
      { cls with devs := (made ++ [some dev]) ++
          List.replicate (rest.length + remaining) (some .zero) }
      (made ++ [some dev]) indices₁
      (trace ++ (deviceResources k mtd.owner).map .acquire)
      (fun i m hm => by
        have hnext := hcreates (i + 1) m (by simpa using hm)
        rwa [Nat.add_assoc, Nat.add_comm 1])
      (fun i m hm => by
        have hnext := hslots (i + 1) m (by simpa using hm)
        rwa [Nat.add_assoc, Nat.add_comm 1])
      (by rw [List.length_append, hlen, List.length_singleton])
      hused₁ rfl
    refine ⟨dev :: devs, indices', .cons hdevMade hmade, hused', ?_⟩
    rw [hsum, addDevices.loop, hdev, hslot]
    show (mtdpartctlDeviceCreate env k mtd _ _ >>= _) = _
    rw [hok]
    show addDevices.loop env (rest.length + remaining) (k + 1)
      { cls with devs := cls.devs.set k (some dev) } _ = _
    rw [hset, hloop]
    simp [devicesResources, Nat.add_assoc, Nat.add_comm 1]

/-- The devices that were made can be removed, and give back what they took. -/
theorem foldlM_mtdpartctlDeviceDestroy {step : KernelState → ℕ → Except InitOops KernelState}
    {devno : DevT} {used : List ℕ} {k : ℕ} {masters : List (MtdDev σ)}
    {devs : List (ClassDevice σ)} (h : AreMadeDevices devno used k masters devs) :
    ∀ (indices : List ℕ) (trace : List (Event Resource)),
      (∀ i dev kernel, devs[i]? = some dev →
        step kernel (k + i) = mtdpartctlDeviceDestroy (k + i) dev kernel) →
      ∃ (indices' : List ℕ) (freed : List Resource), freed.Perm (devicesResources k masters) ∧
        (List.range' k masters.length).foldlM step ⟨false, indices, trace⟩ =
          .ok ⟨false, indices', trace ++ freed.map .release⟩ := by
  induction h with
  | nil k =>
    intro indices trace _
    exact ⟨indices, [], List.Perm.refl _, by simp [pure, Except.pure]⟩
  | @cons k backing dev rest devs hdev hrest ih =>
    intro indices trace hstep
    obtain ⟨mtd, index, -, -, rfl⟩ := hdev
    have hhead := hstep 0 _ ⟨false, indices, trace⟩ rfl
    rw [Nat.add_zero, mtdpartctlDeviceDestroy_eq k backing _ indices trace rfl rfl] at hhead
    obtain ⟨indices', freed, hperm, hloop⟩ := ih _ _ fun i d kernel hd => by
      have hnext := hstep (i + 1) d kernel (by simpa using hd)
      rwa [Nat.add_assoc, Nat.add_comm 1]
    refine ⟨indices', ([.node k, .cdev k, .proxyReg k, .proxyMem k] ++
      moduleRefs k backing.owner) ++ freed, ?_, ?_⟩
    · refine List.Perm.append ?_ hperm
      refine List.perm_append_comm.trans (List.Perm.append_left _ ?_)
      exact List.reverse_perm ([.proxyMem k, .proxyReg k, .cdev k, .node k] : List Resource)
    · rw [List.length_cons, List.range'_succ, List.foldlM_cons, hhead]
      show List.foldlM _ _ _ = _
      rw [hloop]
      simp

theorem removeDevices_eq {devno : DevT} {used : List ℕ} {masters : List (MtdDev σ)}
    {devs : List (ClassDevice σ)} (h : AreMadeDevices devno used 0 masters devs)
    (all : List (MtdDev σ)) (others : List (Option (ClassDevice σ))) (indices : List ℕ)
    (trace : List (Event Resource)) :
    ∃ (indices' : List ℕ) (freed : List Resource), freed.Perm (devicesResources 0 masters) ∧
      removeDevices (.withDevs all devno (devs.map some ++ others)) masters.length
          ⟨false, indices, trace⟩ =
        .ok ⟨false, indices', trace ++ freed.map .release⟩ := by
  unfold removeDevices
  rw [List.range_eq_range']
  refine foldlM_mtdpartctlDeviceDestroy h indices trace fun i dev kernel hdev => ?_
  have hlt : i < (devs.map some).length := by
    rw [List.length_map]
    exact (List.getElem?_eq_some_iff.mp hdev).1
  simp [MtdpartctlDevClass.withDevs, List.getElem?_append_left hlt, hdev]

/-- The creation of some device fails when every one before it is made. -/
def InitEnv.CreationFails (env : InitEnv) (masters : List (MtdDev σ)) : Prop :=
  ∃ pre bad post, masters = pre ++ bad :: post ∧ (env.device pre.length).Fails bad ∧
    ∀ k mtd, pre[k]? = some mtd → (env.device k).Creates mtd

/-- Every device is made. -/
def InitEnv.CreatesAll (env : InitEnv) (masters : List (MtdDev σ)) : Prop :=
  ∀ k mtd, masters[k]? = some mtd → (env.device k).Creates mtd

/-- All devices are made, or there is a first one that is not. -/
theorem InitEnv.createsAll_or (env : InitEnv) (masters : List (MtdDev σ)) :
    env.CreatesAll masters ∨ ∃ pre bad post, masters = pre ++ bad :: post ∧
      ¬ (env.device pre.length).Creates bad ∧ env.CreatesAll pre := by
  induction masters using List.reverseRecOn with
  | nil => exact .inl fun k mtd h => by simp at h
  | append_singleton masters mtd ih =>
    rcases ih with hall | ⟨pre, bad, post, rfl, hbad, hpre⟩
    · by_cases hmtd : (env.device masters.length).Creates mtd
      · refine .inl fun k m hm => ?_
        rw [List.getElem?_append] at hm
        split at hm
        · exact hall k m hm
        · rw [List.getElem?_singleton] at hm
          split at hm
          · obtain rfl := Option.some.inj hm
            rwa [show k = masters.length by omega]
          · cases hm
      · exact .inr ⟨masters, mtd, [], rfl, hmtd, hall⟩
    · exact .inr ⟨pre, bad, post ++ [mtd], by simp, hbad, hpre⟩

/-- The class when its devices are allocated. -/
def MtdpartctlDevClass.allocated (masters : List (MtdDev σ)) (devno : DevT) :
    MtdpartctlDevClass σ :=
  .withDevs masters devno (List.replicate masters.length (some .zero))

section AddDevices

variable (env : InitEnv) (devno : DevT) {masters : List (MtdDev σ)} {used indices : List ℕ}
  (hused : used ⊆ indices) (trace : List (Event Resource))

include hused

/-- `add_devices` up to the first master whose device is not made. -/
theorem addDevices_eq {pre post : List (MtdDev σ)} (hsplit : masters = pre ++ post)
    (hpre : env.CreatesAll pre) :
    ∃ devs indices', AreMadeDevices devno used 0 pre devs ∧ used ⊆ indices' ∧
      addDevices env (.allocated masters devno) ⟨false, indices, trace⟩ =
        addDevices.loop env post.length pre.length
          (.withDevs masters devno
            (devs.map some ++ List.replicate post.length (some .zero)))
          ⟨false, indices', trace ++ (devicesResources 0 pre).map .acquire⟩ := by
  have hlen : masters.length = pre.length + post.length := by
    rw [hsplit, List.length_append]
  obtain ⟨devs, indices', hmade, hused', hloop⟩ :=
    addDevices.loop_made env used pre post.length 0 (.allocated masters devno) [] indices trace
      (fun k mtd hmtd => by simpa using hpre k mtd hmtd)
      (fun k mtd hmtd => by
        have hlt := (List.getElem?_eq_some_iff.mp hmtd).1
        show (masters.map some)[0 + k]? = _
        rw [Nat.zero_add, List.getElem?_map, hsplit, List.getElem?_append_left hlt, hmtd]
        rfl)
      rfl hused (by rw [← hlen]; rfl)
  refine ⟨devs, indices', hmade, hused', ?_⟩
  rw [← hlen, Nat.zero_add, List.nil_append] at hloop
  exact hloop

/-- **All devices are made.** -/
theorem addDevices_ok (hall : env.CreatesAll masters) :
    ∃ devs indices', AreMadeDevices devno used 0 masters devs ∧
      addDevices env (.allocated masters devno) ⟨false, indices, trace⟩ =
        .ok (0, masters.length, .withDevs masters devno (devs.map some),
          ⟨false, indices', trace ++ (devicesResources 0 masters).map .acquire⟩) := by
  obtain ⟨devs, indices', hmade, -, hadd⟩ :=
    addDevices_eq env devno hused trace (List.append_nil masters).symm hall
  refine ⟨devs, indices', hmade, ?_⟩
  rw [hadd, List.length_nil, addDevices.loop, List.replicate_zero, List.append_nil]
  rfl

/-- `add_devices` comes to a master whose device is not made. -/
theorem addDevices_stops {pre post : List (MtdDev σ)} {bad : MtdDev σ}
    (hsplit : masters = pre ++ bad :: post) (hpre : env.CreatesAll pre) :
    ∃ devs indices', AreMadeDevices devno used 0 pre devs ∧
      addDevices env (.allocated masters devno) ⟨false, indices, trace⟩ = (do
        let (ret, dev, kernel) ← mtdpartctlDeviceCreate env pre.length bad
          { ClassDevice.zero with
            backingMtd := some bad
            devno := mkdev (devMajor devno) (UInt32.ofNat pre.length) }
          ⟨false, indices', trace ++ (devicesResources 0 pre).map .acquire⟩
        let cls := .withDevs masters devno
          (devs.map some ++ some dev :: List.replicate post.length (some .zero))
        if ret ≠ 0 then
          return (ret, pre.length, cls, kernel)
        addDevices.loop env post.length (pre.length + 1) cls kernel) := by
  obtain ⟨devs, indices', hmade, -, hadd⟩ := addDevices_eq env devno hused trace hsplit hpre
  refine ⟨devs, indices', hmade, ?_⟩
  have hlen : (devs.map some).length = pre.length := by rw [List.length_map, hmade.length_eq]
  have hdev : (devs.map some ++ List.replicate (post.length + 1) (some ClassDevice.zero))[
      pre.length]? = some (some (ClassDevice.zero : ClassDevice σ)) := by
    rw [List.getElem?_append_right (by omega), hlen, Nat.sub_self, List.replicate_succ]
    rfl
  have hslot : (masters.map some)[pre.length]? = some (some bad) := by
    rw [List.getElem?_map, hsplit, List.getElem?_append_right (Nat.le_refl _), Nat.sub_self]
    rfl
  have hset : ∀ dev : ClassDevice σ,
      (devs.map some ++ List.replicate (post.length + 1) (some ClassDevice.zero)).set
          pre.length (some dev) =
        devs.map some ++ some dev :: List.replicate post.length (some .zero) := by
    intro dev
    rw [List.set_append_right _ _ (by omega), hlen, Nat.sub_self, List.replicate_succ,
      List.set_cons_zero]
  rw [hadd, List.length_cons, addDevices.loop]
  simp only [MtdpartctlDevClass.withDevs, hdev, hslot, hset]
  rfl

/-- **A device that fails** stops `add_devices` with the devices before it made. -/
theorem addDevices_fails (hfails : env.CreationFails masters) :
    ∃ ret k devs others indices' tr, AreMadeDevices devno used 0 (masters.take k) devs ∧
      addDevices env (.allocated masters devno) ⟨false, indices, trace⟩ =
        .ok (ret, (masters.take k).length, .withDevs masters devno (devs.map some ++ others),
          ⟨false, indices',
            trace ++ (devicesResources 0 (masters.take k)).map .acquire ++ tr⟩) ∧ ret ≠ 0 ∧
      Released tr ∧ ∀ e ∈ tr, e.resource.OfCreation (masters.take k).length := by
  obtain ⟨pre, bad, post, hsplit, hbad, hpre⟩ := hfails
  have htake : masters.take pre.length = pre := by rw [hsplit, List.take_left]
  obtain ⟨devs, indices', hmade, hadd⟩ :=
    addDevices_stops env devno hused trace hsplit hpre
  obtain ⟨ret, dev, tr, hcreate, hret, htr, hof⟩ := mtdpartctlDeviceCreate_fails env pre.length
    bad { ClassDevice.zero with
      backingMtd := some bad
      devno := mkdev (devMajor devno) (UInt32.ofNat pre.length) } indices'
    (trace ++ (devicesResources 0 pre).map .acquire) hbad
  refine ⟨ret, pre.length, devs, some dev :: List.replicate post.length (some .zero), indices', tr,
    ?_⟩
  rw [htake]
  refine ⟨hmade, ?_, hret, htr, hof⟩
  rw [hadd, hcreate]
  show (if ret ≠ 0 then _ else _) = _
  rw [if_pos hret]
  rfl

/-- A device that is neither made nor fails stops `add_devices` with a `BUG_ON`. -/
theorem addDevices_bug {pre post : List (MtdDev σ)} {bad : MtdDev σ}
    (hsplit : masters = pre ++ bad :: post) (hpre : env.CreatesAll pre)
    (hcreates : ¬ (env.device pre.length).Creates bad)
    (hfails : ¬ (env.device pre.length).Fails bad) :
    ∃ o : InitOops, o.MissingHook ∧
      addDevices env (.allocated masters devno) ⟨false, indices, trace⟩ = .error o := by
  obtain ⟨devs, indices', hmade, hadd⟩ :=
    addDevices_stops env devno hused trace hsplit hpre
  obtain ⟨o, ho, hbug⟩ := mtdpartctlDeviceCreate_bug env pre.length bad
    { ClassDevice.zero with
      backingMtd := some bad
      devno := mkdev (devMajor devno) (UInt32.ofNat pre.length) } indices'
    (trace ++ (devicesResources 0 pre).map .acquire) hfails hcreates
  refine ⟨o, ho, ?_⟩
  rw [hadd, hbug]
  rfl

end AddDevices

/-- Without the region nothing is created. -/
theorem deviceClassCreateDevices_noRegion (env : InitEnv) {masters : List (MtdDev σ)}
    {err : KernelErr} (hregion : env.allocChrdevRegion masters.length = .error err)
    (kernel : KernelState) :
    deviceClassCreateDevices env (.allocated masters 0) kernel =
      .ok (err.ret, .allocated masters 0, kernel) := by
  have hregion' : env.allocChrdevRegion
      (MtdpartctlDevClass.allocated masters 0).count = .error err := hregion
  unfold deviceClassCreateDevices
  rw [hregion']
  rfl

section CreateDevices

variable (env : InitEnv) {masters : List (MtdDev σ)} {used indices : List ℕ}
  (hused : used ⊆ indices) (trace : List (Event Resource)) {major : UInt32}
  (hregion : env.allocChrdevRegion masters.length = .ok major)

include hregion

theorem deviceClassCreateDevices_region :
    deviceClassCreateDevices env (.allocated masters 0) ⟨false, indices, trace⟩ = (do
      let (ret, deviceIdx, cls, kernel) ← addDevices env (.allocated masters (mkdev major 0))
        ⟨false, indices, trace ++ [.acquire .chrdevRegion]⟩
      if ret ≠ 0 then
        let kernel ← removeDevices cls deviceIdx kernel
        return (ret, cls, kernel)
      return (0, cls, kernel)) := by
  have hregion' : env.allocChrdevRegion
      (MtdpartctlDevClass.allocated masters 0).count = .ok major := hregion
  unfold deviceClassCreateDevices
  rw [hregion']
  rfl

include hused

/-- The region for the masters and the devices, all made. -/
theorem deviceClassCreateDevices_ok (hall : env.CreatesAll masters) :
    ∃ devs indices', AreMadeDevices (mkdev major 0) used 0 masters devs ∧
      deviceClassCreateDevices env (.allocated masters 0) ⟨false, indices, trace⟩ =
        .ok (0, .withDevs masters (mkdev major 0) (devs.map some), ⟨false, indices',
          trace ++ (Resource.chrdevRegion :: devicesResources 0 masters).map .acquire⟩) := by
  obtain ⟨devs, indices', hmade, hadd⟩ :=
    addDevices_ok env (mkdev major 0) hused (trace ++ [.acquire .chrdevRegion]) hall
  refine ⟨devs, indices', hmade, ?_⟩
  rw [deviceClassCreateDevices_region env trace hregion, hadd]
  simp [bind, Except.bind, pure, Except.pure]

/-- **A device that fails leaves the region behind**, and nothing else. -/
theorem deviceClassCreateDevices_fails (hfails : env.CreationFails masters) :
    ∃ ret devs indices' tr,
      deviceClassCreateDevices env (.allocated masters 0) ⟨false, indices, trace⟩ =
        .ok (ret, .withDevs masters (mkdev major 0) devs,
          ⟨false, indices', trace ++ [.acquire .chrdevRegion] ++ tr⟩) ∧ ret ≠ 0 ∧
      Released tr ∧ ∀ e ∈ tr, ∃ k, e.resource.OfCreation k := by
  obtain ⟨ret, k, devs, others, indices₁, tr, hmade, hadd, hret, htr, hof⟩ :=
    addDevices_fails env (mkdev major 0) hused (trace ++ [.acquire .chrdevRegion]) hfails
  obtain ⟨indices', freed, hperm, hremove⟩ := removeDevices_eq hmade masters others indices₁
    (trace ++ [.acquire .chrdevRegion] ++ (devicesResources 0 (masters.take k)).map .acquire ++ tr)
  refine ⟨ret, devs.map some ++ others, indices',
    (devicesResources 0 (masters.take k)).map .acquire ++ tr ++ freed.map .release, ?_, hret, ?_,
    ?_⟩
  · rw [deviceClassCreateDevices_region env trace hregion, hadd]
    simp only [bind, Except.bind, ne_eq, hret, not_false_eq_true, if_true, hremove]
    simp [pure, Except.pure]
  · refine htr.bracket (nodup_devicesResources _ 0) hperm fun e he hmem => ?_
    obtain ⟨j, -, hlt, hj⟩ := ofCreation_of_mem_devicesResources _ hmem
    have heq := hj.eq (hof e he)
    omega
  · intro e he
    rw [List.mem_append, List.mem_append, List.mem_map, List.mem_map] at he
    rcases he with (⟨r, hr, rfl⟩ | he) | ⟨r, hr, rfl⟩
    · obtain ⟨j, -, -, hj⟩ := ofCreation_of_mem_devicesResources _ hr
      exact ⟨j, hj⟩
    · exact ⟨_, hof e he⟩
    · obtain ⟨j, -, -, hj⟩ := ofCreation_of_mem_devicesResources _ (hperm.mem_iff.mp hr)
      exact ⟨j, hj⟩

end CreateDevices

end Mtdpartikr
