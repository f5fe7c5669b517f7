import Mtdpartikr.Kernel.Equiv.DevClass

/-!
# What an initialisation gives back

* `mtdpartctlDeviceClassInit_cases`: an initialisation returns an error, runs into a `BUG_ON` of
  `proxy_mtd_create_device`, waits for a mutex it holds, or creates every device.
* `mtdpartctlDeviceClassInit_rollsBack_iff`: it gives everything back exactly when the call that
  fails, if one does, is neither `__get_mtd_device` nor the creation of a device.
-/

namespace Mtdpartikr

open Ledger (Event Released)

variable {σ : Type}

/-! ### `mtdpartctl_device_class_init` -/

/-- All masters are referenced. -/
structure InitEnv.References (env : InitEnv) (masters : List (MtdDev σ)) : Prop where
  some : masters ≠ []
  alloc : env.allocMtdDevs = true
  granted : ∀ mtd ∈ masters, env.getMtdDevice mtd.index = none

theorem nodup_refResources (table : MtdTable σ) (filter : MtdDeviceTypeFilter) :
    (refResources (visitedMtds filter table)).Nodup :=
  List.nodup_cons.mpr ⟨by simp [mtdRefs], nodup_mtdRefs table filter⟩

/-- What is taken and given back while the masters are referenced. -/
theorem released_refResources (table : MtdTable σ) (filter : MtdDeviceTypeFilter)
    {tr : List (Event Resource)} (h : Released tr)
    (htr : ∀ e ∈ tr, e.resource ≠ .mtdDevs ∧ ∀ i, e.resource ≠ .mtdRef i) :
    Released ((refResources (visitedMtds filter table)).map .acquire ++ tr ++
      (refsPut (visitedMtds filter table)).map .release) := by
  refine h.bracket (nodup_refResources table filter) (List.perm_append_singleton _ _)
    fun e he hmem => ?_
  rcases List.mem_cons.mp hmem with heq | hmem
  · exact (htr e he).1 heq
  · obtain ⟨mtd, -, heq⟩ := List.mem_map.mp hmem
    exact (htr e he).2 _ heq.symm

theorem ne_ref_of_mem_arrayResources {count : ℕ} {r : Resource} (h : r ∈ arrayResources count) :
    r ≠ .mtdDevs ∧ ∀ i, r ≠ .mtdRef i := by
  rcases List.mem_cons.mp h with rfl | h
  · simp
  · obtain ⟨k, -, rfl⟩ := List.mem_map.mp h
    simp

/-- What the initialisation holds when it creates the class. -/
def heldForClass (masters : List (MtdDev σ)) : List (Event Resource) :=
  (refResources masters).map .acquire ++ (arrayResources masters.length).map .acquire

/-- `failed_class_create` and what follows it. -/
def freedAfterClass (masters : List (MtdDev σ)) : List (Event Resource) :=
  (arrayFreed masters.length).map .release ++ (refsPut masters).map .release

theorem allocArrayWithItems_gotAll {env : InitEnv} (table : MtdTable σ)
    {masters : List (MtdDev σ)} (halloc : env.AllocsDevs masters.length) :
    allocArrayWithItems (σ := σ) env (InitState.gotAll table masters).cls.count
        (InitState.gotAll table masters).kernel =
      (some (List.replicate masters.length (some .zero)),
        ⟨false, table.mtds.map MtdDev.index, heldForClass masters⟩) := by
  obtain ⟨-, harray⟩ | ⟨hnot, -⟩ := allocArrayWithItems_cases (σ := σ) env
    (InitState.gotAll table masters).cls.count (InitState.gotAll table masters).kernel
  · exact harray
  · exact absurd halloc hnot

theorem putAllMtdDevices_freeArray (masters : List (MtdDev σ)) (devno : DevT)
    (devs : List (Option (ClassDevice σ))) (indices : List ℕ) (trace : List (Event Resource)) :
    putAllMtdDevices (.withDevs masters devno devs)
        (freeArrayWithItems masters.length ⟨false, indices, trace⟩) =
      .ok ⟨false, indices, trace ++ freedAfterClass masters⟩ := by
  rw [freeArrayWithItems_eq, putAllMtdDevices_eq, freedAfterClass, List.append_assoc]

/-- What is taken and given back while the devices are allocated. -/
theorem released_heldForClass (table : MtdTable σ) (filter : MtdDeviceTypeFilter)
    {tr : List (Event Resource)} (h : Released tr)
    (htr : ∀ e ∈ tr, (e.resource ≠ .mtdDevs ∧ ∀ i, e.resource ≠ .mtdRef i) ∧
      ∀ n, e.resource ∉ arrayResources n) :
    Released (heldForClass (visitedMtds filter table) ++ tr ++
      freedAfterClass (visitedMtds filter table)) := by
  have harray := h.bracket (nodup_arrayResources (visitedMtds filter table).length)
    (arrayFreed_perm _) fun e he => (htr e he).2 _
  have hall := released_refResources table filter harray fun e he => by
    rw [List.mem_append, List.mem_append, List.mem_map, List.mem_map] at he
    rcases he with (⟨r, hr, rfl⟩ | he) | ⟨r, hr, rfl⟩
    · exact ne_ref_of_mem_arrayResources hr
    · exact (htr e he).1
    · exact ne_ref_of_mem_arrayResources ((arrayFreed_perm _).mem_iff.mp hr)
  simpa [heldForClass, freedAfterClass] using hall

/-- No memory has been allocated for a proxy MTD. -/
def KernelState.NoProxies (kernel : KernelState) : Prop :=
  ∀ k, .acquire (.proxyMem k) ∉ kernel.trace

/-- An initialisation that returns an error has given everything back, holds no mutex and has not
come to a proxy MTD. -/
def BacksOut (result : Except InitOops (Int × InitState σ)) : Prop :=
  ∃ ret s, result = .ok (ret, s) ∧ ret ≠ 0 ∧ Released s.kernel.trace ∧
    s.kernel.mtdTableMutex = false ∧ s.kernel.NoProxies

theorem proxyMem_not_mem_heldForClass (masters : List (MtdDev σ)) (k : ℕ) :
    .acquire (.proxyMem k) ∉ heldForClass masters := by
  simp [heldForClass, refResources, mtdRefs, arrayResources]

theorem proxyMem_not_mem_freedAfterClass (masters : List (MtdDev σ)) (k : ℕ) :
    .acquire (.proxyMem k) ∉ freedAfterClass masters := by
  simp [freedAfterClass]

section Init

variable (env : InitEnv) {table : MtdTable σ} {filter : MtdDeviceTypeFilter}
  {masters : List (MtdDev σ)} (hvisited : visitedMtds filter table = masters)
  (hrefs : env.References masters) (halloc : env.AllocsDevs masters.length)

include hvisited hrefs

/-- The initialisation comes to the array of devices. -/
theorem getAllMatchingMtdDevices_references :
    getAllMatchingMtdDevices env table filter (.load table) = .ok (0, .gotAll table masters) ∧
      (InitState.gotAll table masters).cls.count ≠ 0 := by
  subst hvisited
  refine ⟨getAllMatchingMtdDevices_ok env table filter hrefs.some hrefs.alloc hrefs.granted, ?_⟩
  have hne := hrefs.some
  simpa [InitState.gotAll, MtdpartctlDevClass.withDevs] using hne

/-- Without memory for the devices everything is given back. -/
theorem mtdpartctlDeviceClassInit_noDevs (hnot : ¬ env.AllocsDevs masters.length) :
    BacksOut (mtdpartctlDeviceClassInit env table filter (.load table)) := by
  obtain ⟨hgot, hcount⟩ := getAllMatchingMtdDevices_references env hvisited hrefs
  obtain ⟨hall, -⟩ | ⟨-, tr, harray, htr, hof⟩ := allocArrayWithItems_cases (σ := σ) env
    (InitState.gotAll table masters).cls.count (InitState.gotAll table masters).kernel
  · exact absurd hall hnot
  · have hput : putAllMtdDevices (InitState.gotAll table masters).cls
        { (InitState.gotAll table masters).kernel with
          trace := (InitState.gotAll table masters).kernel.trace ++ tr } =
        .ok ⟨false, table.mtds.map MtdDev.index,
          (refResources masters).map .acquire ++ tr ++ (refsPut masters).map .release⟩ :=
      putAllMtdDevices_eq masters 0 [] _ _
    have hinit : mtdpartctlDeviceClassInit env table filter (.load table) =
        .ok (neg .ENOMEM, { InitState.gotAll table masters with
          kernel := ⟨false, table.mtds.map MtdDev.index,
            (refResources masters).map .acquire ++ tr ++ (refsPut masters).map .release⟩ }) := by
      unfold mtdpartctlDeviceClassInit
      rw [hgot]
      simp only [bind, Except.bind, pure, Except.pure, lt_self_iff_false, if_false, hcount, harray,
        hput]
    refine ⟨_, _, hinit, by decide, ?_, rfl, fun k hmem => ?_⟩
    · subst hvisited
      refine released_refResources table filter htr fun e he => ?_
      obtain ⟨n, hn⟩ := hof e he
      exact ne_ref_of_mem_arrayResources hn
    · -- Only references and arrays have been taken.
      have htaken : .acquire (.proxyMem k) ∈ tr := by
        simpa [refResources, mtdRefs] using hmem
      obtain ⟨n, hn⟩ := hof _ htaken
      simp [Event.resource, arrayResources] at hn

include halloc

/-- Without a class everything is given back. -/
theorem mtdpartctlDeviceClassInit_noClass {err : KernelErr} (hclass : env.classCreate = some err) :
    BacksOut (mtdpartctlDeviceClassInit env table filter (.load table)) := by
  obtain ⟨hgot, hcount⟩ := getAllMatchingMtdDevices_references env hvisited hrefs
  have harray := allocArrayWithItems_gotAll table halloc
  have hput := putAllMtdDevices_freeArray masters 0 (List.replicate masters.length (some .zero))
    (table.mtds.map MtdDev.index) (heldForClass masters)
  have hinit : mtdpartctlDeviceClassInit env table filter (.load table) =
      .ok (err.ret, { InitState.gotAll table masters with
        cls := .allocated masters 0
        kernel := ⟨false, table.mtds.map MtdDev.index,
          heldForClass masters ++ freedAfterClass masters⟩ }) := by
    unfold mtdpartctlDeviceClassInit
    rw [hgot]
    simp only [bind, Except.bind, pure, Except.pure, lt_self_iff_false, if_false, hcount, harray,
      hclass]
    simp only [InitState.gotAll, MtdpartctlDevClass.allocated,
      MtdpartctlDevClass.withDevs] at hput ⊢
    rw [hput]
  refine ⟨_, _, hinit, err.ret_ne_zero, ?_, rfl, fun k hmem => ?_⟩
  · subst hvisited
    have hnil : Released ([] : List (Event Resource)) := rfl
    simpa using released_heldForClass table filter hnil (List.forall_mem_nil _)
  · rcases List.mem_append.mp hmem with hmem | hmem
    · exact proxyMem_not_mem_heldForClass masters k hmem
    · exact proxyMem_not_mem_freedAfterClass masters k hmem

variable (hclass : env.classCreate = none)

include hclass

/-- With a class the rest is up to the creation of the devices. -/
theorem mtdpartctlDeviceClassInit_classCreated :
    mtdpartctlDeviceClassInit env table filter (.load table) = (do
      let (ret, cls, kernel) ← deviceClassCreateDevices env (.allocated masters 0)
        ⟨false, table.mtds.map MtdDev.index, heldForClass masters ++ [.acquire .deviceClass]⟩
      if ret ≠ 0 then
        let kernel := freeArrayWithItems cls.count (kernel.release .deviceClass)
        let kernel ← putAllMtdDevices cls kernel
        return (ret, { InitState.gotAll table masters with cls := cls, kernel := kernel })
      return (0, { InitState.gotAll table masters with cls := cls, kernel := kernel })) := by
  obtain ⟨hgot, hcount⟩ := getAllMatchingMtdDevices_references env hvisited hrefs
  have harray := allocArrayWithItems_gotAll table halloc
  unfold mtdpartctlDeviceClassInit
  rw [hgot]
  simp only [bind, Except.bind, pure, Except.pure, lt_self_iff_false, if_false, hcount, harray,
    hclass]
  rfl

/-- The devices cannot be created: the way back from `failed_creating_devices`. -/
theorem mtdpartctlDeviceClassInit_backOut {ret : Int} {devno : DevT}
    {devs : List (Option (ClassDevice σ))} {indices : List ℕ} {trace : List (Event Resource)}
    (hdevices : deviceClassCreateDevices env (.allocated masters 0)
        ⟨false, table.mtds.map MtdDev.index, heldForClass masters ++ [.acquire .deviceClass]⟩ =
      .ok (ret, .withDevs masters devno devs, ⟨false, indices, trace⟩)) (hret : ret ≠ 0) :
    ∃ s, mtdpartctlDeviceClassInit env table filter (.load table) = .ok (ret, s) ∧
      s.kernel = ⟨false, indices,
        trace ++ [.release .deviceClass] ++ freedAfterClass masters⟩ := by
  have hput := putAllMtdDevices_freeArray masters devno devs indices
    (trace ++ [.release .deviceClass])
  refine ⟨{ InitState.gotAll table masters with
    cls := .withDevs masters devno devs
    kernel := ⟨false, indices, trace ++ [.release .deviceClass] ++ freedAfterClass masters⟩ }, ?_,
    rfl⟩
  rw [mtdpartctlDeviceClassInit_classCreated env hvisited hrefs halloc hclass, hdevices]
  simp only [bind, Except.bind, KernelState.release, ne_eq, hret, not_false_eq_true, if_true]
  simp only [MtdpartctlDevClass.withDevs] at hput ⊢
  rw [hput]
  rfl

/-- The devices are created. -/
theorem mtdpartctlDeviceClassInit_created {devno : DevT} {devs : List (Option (ClassDevice σ))}
    {kernel : KernelState}
    (hdevices : deviceClassCreateDevices env (.allocated masters 0)
        ⟨false, table.mtds.map MtdDev.index, heldForClass masters ++ [.acquire .deviceClass]⟩ =
      .ok (0, .withDevs masters devno devs, kernel)) :
    mtdpartctlDeviceClassInit env table filter (.load table) =
      .ok (0, { InitState.gotAll table masters with
        cls := .withDevs masters devno devs
        kernel := kernel }) := by
  rw [mtdpartctlDeviceClassInit_classCreated env hvisited hrefs halloc hclass, hdevices]
  rfl

/-- A device stops the initialisation with a `BUG_ON`. -/
theorem mtdpartctlDeviceClassInit_bug {o : InitOops}
    (hdevices : deviceClassCreateDevices env (.allocated masters 0)
        ⟨false, table.mtds.map MtdDev.index, heldForClass masters ++ [.acquire .deviceClass]⟩ =
      .error o) :
    mtdpartctlDeviceClassInit env table filter (.load table) = .error o := by
  rw [mtdpartctlDeviceClassInit_classCreated env hvisited hrefs halloc hclass, hdevices]
  rfl

end Init

/-! ### All outcomes -/

/-- The call that fails, if one does, is neither `__get_mtd_device` nor the creation of a
device. -/
def InitEnv.FailsElsewhere (env : InitEnv) (masters : List (MtdDev σ)) : Prop :=
  masters = [] ∨ env.allocMtdDevs = false ∨
    ((∀ mtd ∈ masters, env.getMtdDevice mtd.index = none) ∧
      (¬ env.AllocsDevs masters.length ∨ env.classCreate ≠ none ∨
        (∃ err, env.allocChrdevRegion masters.length = .error err) ∨
        ¬ env.CreationFails masters))

/-- An initialisation that takes a mutex twice, or returns an error and has not given everything
back. -/
def Leaks (result : Except InitOops (Int × InitState σ)) : Prop :=
  result = .error .relock ∨ ∃ ret s, result = .ok (ret, s) ∧ ret ≠ 0 ∧ ¬ Released s.kernel.trace

/-- What is held for the class itself and its devices. -/
def classResources (masters : List (MtdDev σ)) : List Resource :=
  .deviceClass :: .chrdevRegion :: devicesResources 0 masters

/-- An initialisation that has created every device. -/
def CreatesDevices (env : InitEnv) (table : MtdTable σ) (masters : List (MtdDev σ))
    (result : Except InitOops (Int × InitState σ)) : Prop :=
  ∃ major devs indices, env.CreatesAll masters ∧ env.allocChrdevRegion masters.length = .ok major ∧
    AreMadeDevices (mkdev major 0) (table.mtds.map MtdDev.index) 0 masters devs ∧
    result = .ok (0, { InitState.gotAll table masters with
      cls := .withDevs masters (mkdev major 0) (devs.map some)
      kernel := ⟨false, indices,
        heldForClass masters ++ (classResources masters).map .acquire⟩ })

theorem not_release_chrdevRegion {masters : List (MtdDev σ)} {tr : List (Event Resource)}
    (htr : ∀ e ∈ tr, ∃ k, e.resource.OfCreation k) :
    .release .chrdevRegion ∉ heldForClass masters ++ [.acquire .deviceClass] ++
      [.acquire .chrdevRegion] ++ tr ++ [.release .deviceClass] ++ freedAfterClass masters := by
  have hnot : .release .chrdevRegion ∉ tr := fun hmem => by
    obtain ⟨k, hk⟩ := htr _ hmem
    exact hk
  simp [heldForClass, freedAfterClass, arrayFreed, refsPut, mtdRefs, hnot]

section Outcomes

variable (env : InitEnv) {table : MtdTable σ} {filter : MtdDeviceTypeFilter}
  {masters : List (MtdDev σ)} (hvisited : visitedMtds filter table = masters)
  (hrefs : env.References masters)

include hvisited hrefs

section Allocated

variable (halloc : env.AllocsDevs masters.length) (hclass : env.classCreate = none)

include halloc hclass

/-- Without numbers for the devices everything is given back. -/
theorem mtdpartctlDeviceClassInit_noRegion {err : KernelErr}
    (hregion : env.allocChrdevRegion masters.length = .error err) :
    BacksOut (mtdpartctlDeviceClassInit env table filter (.load table)) := by
  have hdevices := deviceClassCreateDevices_noRegion env hregion
    ⟨false, table.mtds.map MtdDev.index, heldForClass masters ++ [.acquire .deviceClass]⟩
  obtain ⟨s, hinit, hkernel⟩ := mtdpartctlDeviceClassInit_backOut env hvisited hrefs halloc
    hclass hdevices err.ret_ne_zero
  refine ⟨err.ret, s, hinit, err.ret_ne_zero, ?_, by rw [hkernel], fun k hmem => ?_⟩
  swap
  · rw [hkernel] at hmem
    simp [proxyMem_not_mem_heldForClass, proxyMem_not_mem_freedAfterClass] at hmem
  have hcls : Released [Event.acquire Resource.deviceClass, .release .deviceClass] := by
    simp [Released, Ledger.run]
  rw [hkernel]
  subst hvisited
  have hreleased := released_heldForClass table filter hcls (by
    simp [Event.resource, arrayResources])
  simpa using hreleased

/-- A device that fails leaves the numbers taken. -/
theorem mtdpartctlDeviceClassInit_leaksRegion {major : UInt32}
    (hregion : env.allocChrdevRegion masters.length = .ok major)
    (hfails : env.CreationFails masters) :
    Leaks (mtdpartctlDeviceClassInit env table filter (.load table)) := by
  have hused := List.Subset.refl (table.mtds.map MtdDev.index)
  obtain ⟨ret, devs, indices', tr, hdevices, hret, -, hof⟩ :=
    deviceClassCreateDevices_fails env hused _ hregion hfails
  obtain ⟨s, hinit, hkernel⟩ := mtdpartctlDeviceClassInit_backOut env hvisited hrefs halloc
    hclass hdevices hret
  refine .inr ⟨ret, s, hinit, hret, fun hreleased => ?_⟩
  rw [hkernel] at hreleased
  exact not_release_chrdevRegion hof (hreleased.release_mem (by simp))

/-- Where no device fails, all are created or one runs into a `BUG_ON`. -/
theorem mtdpartctlDeviceClassInit_noFailure {major : UInt32}
    (hregion : env.allocChrdevRegion masters.length = .ok major)
    (hfails : ¬ env.CreationFails masters) :
    CreatesDevices env table masters
        (mtdpartctlDeviceClassInit env table filter (.load table)) ∨
      ∃ o : InitOops, o.MissingHook ∧
        mtdpartctlDeviceClassInit env table filter (.load table) = .error o := by
  have hused := List.Subset.refl (table.mtds.map MtdDev.index)
  rcases env.createsAll_or masters with hall | ⟨pre, bad, post, hsplit, hbad, hpre⟩
  · left
    obtain ⟨devs, indices', hmade, hdevices⟩ :=
      deviceClassCreateDevices_ok env hused _ hregion hall
    rw [List.append_assoc] at hdevices
    exact ⟨major, devs, indices', hall, hregion, hmade,
      mtdpartctlDeviceClassInit_created env hvisited hrefs halloc hclass hdevices⟩
  · right
    have hbadFails : ¬ (env.device pre.length).Fails bad := fun hbad' =>
      hfails ⟨pre, bad, post, hsplit, hbad', hpre⟩
    obtain ⟨o, ho, hadd⟩ := addDevices_bug env (mkdev major 0) hused
      (heldForClass masters ++ [.acquire .deviceClass] ++ [.acquire .chrdevRegion]) hsplit hpre
      hbad hbadFails
    refine ⟨o, ho, mtdpartctlDeviceClassInit_bug env hvisited hrefs halloc hclass ?_⟩
    rw [deviceClassCreateDevices_region env _ hregion, hadd]
    rfl

/-- Everything is allocated: what is left is the region and the devices. -/
theorem mtdpartctlDeviceClassInit_devices :
    (((∃ err, env.allocChrdevRegion masters.length = .error err) ∨ ¬ env.CreationFails masters) ∧
      (BacksOut (mtdpartctlDeviceClassInit env table filter (.load table)) ∨
        CreatesDevices env table masters
          (mtdpartctlDeviceClassInit env table filter (.load table)) ∨
        ∃ o : InitOops, o.MissingHook ∧
          mtdpartctlDeviceClassInit env table filter (.load table) = .error o)) ∨
    (¬ ((∃ err, env.allocChrdevRegion masters.length = .error err) ∨
        ¬ env.CreationFails masters) ∧
      Leaks (mtdpartctlDeviceClassInit env table filter (.load table))) := by
  cases hregion : env.allocChrdevRegion masters.length with
  | error err =>
    have hbacks := mtdpartctlDeviceClassInit_noRegion env hvisited hrefs halloc hclass hregion
    exact .inl ⟨.inl ⟨err, rfl⟩, .inl hbacks⟩
  | ok major =>
    by_cases hfails : env.CreationFails masters
    · have hleaks :=
        mtdpartctlDeviceClassInit_leaksRegion env hvisited hrefs halloc hclass hregion hfails
      exact .inr ⟨by simp [hfails], hleaks⟩
    · have hrest :=
        mtdpartctlDeviceClassInit_noFailure env hvisited hrefs halloc hclass hregion hfails
      exact .inl ⟨.inr hfails, .inr hrest⟩

end Allocated

end Outcomes

/-- **Every outcome of an initialisation**, and where it comes from. -/
theorem mtdpartctlDeviceClassInit_cases (env : InitEnv) (table : MtdTable σ)
    (filter : MtdDeviceTypeFilter) :
    (env.FailsElsewhere (visitedMtds filter table) ∧
      (BacksOut (mtdpartctlDeviceClassInit env table filter (.load table)) ∨
        CreatesDevices env table (visitedMtds filter table)
          (mtdpartctlDeviceClassInit env table filter (.load table)) ∨
        ∃ o : InitOops, o.MissingHook ∧
          mtdpartctlDeviceClassInit env table filter (.load table) = .error o)) ∨
    (¬ env.FailsElsewhere (visitedMtds filter table) ∧
      Leaks (mtdpartctlDeviceClassInit env table filter (.load table))) := by
  by_cases hnothing : visitedMtds filter table = [] ∨ env.allocMtdDevs = false
  · obtain ⟨ret, s, hgot, hret, htrace, hmutex⟩ :=
      getAllMatchingMtdDevices_nothing env table filter hnothing
    have helsewhere : env.FailsElsewhere (visitedMtds filter table) :=
      hnothing.imp_right Or.inl
    have hproxies : s.kernel.NoProxies := by
      intro k hmem
      rw [htrace] at hmem
      cases hmem
    refine .inl ⟨helsewhere, .inl ⟨ret, s, ?_, by omega, by rw [htrace]; rfl, hmutex, hproxies⟩⟩
    unfold mtdpartctlDeviceClassInit
    rw [hgot]
    simp [bind, Except.bind, pure, Except.pure, hret]
  · rw [not_or, Bool.not_eq_false] at hnothing
    by_cases hgranted : ∀ mtd ∈ visitedMtds filter table, env.getMtdDevice mtd.index = none
    · have hrefs : env.References (visitedMtds filter table) :=
        ⟨hnothing.1, hnothing.2, hgranted⟩
      have hiff : env.FailsElsewhere (visitedMtds filter table) ↔
          ¬ env.AllocsDevs (visitedMtds filter table).length ∨ env.classCreate ≠ none ∨
            (∃ err, env.allocChrdevRegion (visitedMtds filter table).length = .error err) ∨
            ¬ env.CreationFails (visitedMtds filter table) := by
        refine ⟨fun h => ?_, fun h => .inr (.inr ⟨hgranted, h⟩)⟩
        exact ((h.resolve_left hnothing.1).resolve_left (by simp [hnothing.2])).2
      rw [hiff]
      by_cases halloc : env.AllocsDevs (visitedMtds filter table).length
      · cases hclass : env.classCreate with
        | some err =>
          exact .inl ⟨.inr (.inl (by simp)),
            .inl (mtdpartctlDeviceClassInit_noClass env rfl hrefs halloc hclass)⟩
        | none =>
          have hdevices := mtdpartctlDeviceClassInit_devices env rfl hrefs halloc hclass
          simpa [halloc] using hdevices
      · exact .inl ⟨.inl halloc, .inl (mtdpartctlDeviceClassInit_noDevs env rfl hrefs halloc)⟩
    · right
      have hnot : ¬ env.FailsElsewhere (visitedMtds filter table) := by
        simp [InitEnv.FailsElsewhere, hnothing, hgranted]
      push Not at hgranted
      refine ⟨hnot, ?_⟩
      rcases getAllMatchingMtdDevices_refused env table filter hnothing.2 hgranted with
        hgot | ⟨ret, s, hgot, hret, hleaks⟩
      · left
        unfold mtdpartctlDeviceClassInit
        rw [hgot]
        rfl
      · refine .inr ⟨ret, s, ?_, by omega, hleaks⟩
        unfold mtdpartctlDeviceClassInit
        rw [hgot]
        simp [bind, Except.bind, pure, Except.pure, hret]

/-- An initialisation that succeeds has created the devices. -/
theorem createsDevices_of_ok {env : InitEnv} {table : MtdTable σ} {filter : MtdDeviceTypeFilter}
    {s : InitState σ}
    (h : mtdpartctlDeviceClassInit env table filter (.load table) = .ok (0, s)) :
    CreatesDevices env table (visitedMtds filter table) (.ok (0, s)) := by
  have hcases := mtdpartctlDeviceClassInit_cases env table filter
  rw [h] at hcases
  rcases hcases with ⟨-, ⟨ret, s', hinit, hret, -⟩ | hcreates | ⟨o, -, hinit⟩⟩ |
    ⟨-, hinit | ⟨ret, s', hinit, hret, -⟩⟩
  · exact absurd (Prod.mk.inj (Except.ok.inj hinit)).1.symm hret
  · exact hcreates
  · cases hinit
  · cases hinit
  · exact absurd (Prod.mk.inj (Except.ok.inj hinit)).1.symm hret

/-- An initialisation that does not return waits for `mtd_table_mutex` or misses a hook. -/
theorem relock_or_missingHook_of_error {env : InitEnv} {table : MtdTable σ}
    {filter : MtdDeviceTypeFilter} {o : InitOops}
    (h : mtdpartctlDeviceClassInit env table filter (.load table) = .error o) :
    o = .relock ∨ o.MissingHook := by
  have hcases := mtdpartctlDeviceClassInit_cases env table filter
  rw [h] at hcases
  rcases hcases with ⟨-, ⟨ret, s', hinit, -⟩ | ⟨major, devs, kernel, -, -, -, hinit⟩ |
    ⟨o', ho, hinit⟩⟩ | ⟨-, hinit | ⟨ret, s', hinit, -⟩⟩
  · cases hinit
  · cases hinit
  · obtain rfl := Except.error.inj hinit
    exact .inr ho
  · exact .inl (Except.error.inj hinit)
  · cases hinit

/-- The initialisation takes no mutex it holds, and when it returns an error it has given
everything back. -/
def RollsBack : Except InitOops (Int × InitState σ) → Prop
  | .error o => o ≠ .relock
  | .ok (ret, s) => ret ≠ 0 → Released s.kernel.trace ∧ s.kernel.mtdTableMutex = false

/-- **An initialisation rolls back** if and only if the call that fails, if one does, is neither
`__get_mtd_device` nor the creation of a device. -/
theorem mtdpartctlDeviceClassInit_rollsBack_iff (env : InitEnv) (table : MtdTable σ)
    (filter : MtdDeviceTypeFilter) :
    RollsBack (mtdpartctlDeviceClassInit env table filter (.load table)) ↔
      env.FailsElsewhere (visitedMtds filter table) := by
  rcases mtdpartctlDeviceClassInit_cases env table filter with
    ⟨helsewhere, ⟨ret, s, hinit, hret, hreleased, hmutex, -⟩ |
      ⟨major, devs, kernel, -, -, -, hinit⟩ | ⟨o, ho, hinit⟩⟩ |
    ⟨hnot, hinit | ⟨ret, s, hinit, hret, hleaks⟩⟩
  · rw [hinit]
    exact iff_of_true (fun _ => ⟨hreleased, hmutex⟩) helsewhere
  · rw [hinit]
    exact iff_of_true (fun hzero => absurd rfl hzero) helsewhere
  · have hne : o ≠ .relock := by rcases ho with rfl | rfl | rfl <;> decide
    rw [hinit]
    exact iff_of_true hne helsewhere
  · rw [hinit]
    exact iff_of_false (fun h => h rfl) hnot
  · rw [hinit]
    exact iff_of_false (fun h => hleaks (h hret).1) hnot

/-! ### Loading and unloading -/

theorem nodup_classResources (masters : List (MtdDev σ)) : (classResources masters).Nodup := by
  have hnot : ∀ r ∈ devicesResources 0 masters, r ≠ .deviceClass ∧ r ≠ .chrdevRegion := by
    intro r hr
    obtain ⟨k, -, -, hk⟩ := ofCreation_of_mem_devicesResources masters hr
    exact ⟨fun heq => (heq ▸ hk : Resource.OfCreation k .deviceClass),
      fun heq => (heq ▸ hk : Resource.OfCreation k .chrdevRegion)⟩
  refine List.nodup_cons.mpr ⟨?_, List.nodup_cons.mpr ⟨?_, nodup_devicesResources masters 0⟩⟩
  · intro hmem
    rcases List.mem_cons.mp hmem with heq | hmem
    · cases heq
    · exact (hnot _ hmem).1 rfl
  · exact fun hmem => (hnot _ hmem).2 rfl

theorem not_array_of_mem_classResources {masters : List (MtdDev σ)} {r : Resource}
    (h : r ∈ classResources masters) :
    (r ≠ .mtdDevs ∧ ∀ i, r ≠ .mtdRef i) ∧ ∀ n, r ∉ arrayResources n := by
  rcases List.mem_cons.mp h with rfl | h
  · simp [arrayResources]
  · rcases List.mem_cons.mp h with rfl | h
    · simp [arrayResources]
    · obtain ⟨k, -, -, hk⟩ := ofCreation_of_mem_devicesResources masters h
      cases r <;> simp [arrayResources, Resource.OfCreation] at hk ⊢

/-- **What a successful initialisation takes, `mtdpartctl_device_class_destroy` gives back.** -/
theorem mtdpartctlDeviceClassDestroy_released {env : InitEnv} {table : MtdTable σ}
    {filter : MtdDeviceTypeFilter} {s : InitState σ}
    (h : mtdpartctlDeviceClassInit env table filter (.load table) = .ok (0, s)) :
    ∃ kernel, mtdpartctlDeviceClassDestroy s.cls s.kernel = .ok kernel ∧
      Released kernel.trace ∧ kernel.mtdTableMutex = false := by
  obtain ⟨major, devs, indices, -, -, hmade, heq⟩ := createsDevices_of_ok h
  obtain rfl := (Prod.mk.inj (Except.ok.inj heq)).2
  obtain ⟨indices', freed, hperm, hremove⟩ := removeDevices_eq hmade (visitedMtds filter table) []
    indices (heldForClass (visitedMtds filter table) ++
      (classResources (visitedMtds filter table)).map .acquire)
  have hput := putAllMtdDevices_freeArray (visitedMtds filter table) (mkdev major 0)
    (devs.map some) indices' (heldForClass (visitedMtds filter table) ++
      ((classResources (visitedMtds filter table)).map .acquire ++ [] ++
        (freed ++ [Resource.chrdevRegion, .deviceClass]).map .release))
  have hclass : (freed ++ [Resource.chrdevRegion, .deviceClass]).Perm
      (classResources (visitedMtds filter table)) :=
    List.perm_append_comm.trans ((List.Perm.swap _ _ _).trans ((hperm.cons _).cons _))
  have hinner : Released ((classResources (visitedMtds filter table)).map Event.acquire ++ [] ++
      (freed ++ [Resource.chrdevRegion, .deviceClass]).map .release) :=
    Released.bracket (nodup_classResources _) hclass rfl (List.forall_mem_nil _)
  have hall := released_heldForClass table filter hinner fun e he => by
    rw [List.append_nil, List.mem_append, List.mem_map, List.mem_map] at he
    rcases he with ⟨r, hr, rfl⟩ | ⟨r, hr, rfl⟩
    · exact not_array_of_mem_classResources hr
    · exact not_array_of_mem_classResources (hclass.mem_iff.mp hr)
  refine ⟨⟨false, indices', _⟩, ?_, hall, rfl⟩
  unfold mtdpartctlDeviceClassDestroy
  simp only [MtdpartctlDevClass.withDevs, List.append_nil] at hremove hput ⊢
  rw [hremove, ← hput]
  simp [bind, Except.bind, KernelState.release]

/-! ### Two failures -/

theorem le_foldr_max (used : List ℕ) : ∀ i ∈ used, i ≤ used.foldr max 0 := by
  induction used with
  | nil => intro i hi; cases hi
  | cons j used ih =>
    intro i hi
    rw [List.foldr_cons]
    rcases List.mem_cons.mp hi with rfl | hi
    · exact Nat.le_max_left _ _
    · exact Nat.le_trans (ih i hi) (Nat.le_max_right _ _)

/-- The index behind all that are in use. -/
def nextIndex : IndexChoice where
  index used := used.foldr max 0 + 1
  fresh used hmem := by
    have hle := le_foldr_max used _ hmem
    omega

/-- A kernel on which every call succeeds. -/
def grantingEnv : InitEnv where
  getMtdDevice _ := none
  allocMtdDevs := true
  allocDevs := true
  allocDevice _ := true
  classCreate := none
  allocChrdevRegion count := if count ≤ 2 ^ 20 then .ok 240 else .error ⟨28, by decide⟩
  region_le := by
    intro count major h
    by_contra hle
    rw [if_neg hle] at h
    cases h
  choice := nextIndex
  device _ := ⟨true, ⟨true, none, none⟩, none, none⟩

/-- A NOR chip that reads zeros. -/
def norChip (index : ℕ) : MtdDev Unit :=
  { MtdDev.zero with
    index := index
    type := MTD_NORFLASH
    read := some fun _ len s => (⟨0, len, List.replicate len.toNat 0⟩, s)
    write := some fun _ buf s => (⟨0, UInt64.ofNat buf.length, []⟩, s) }

/-- Two of them. -/
def twoChips : MtdTable Unit := ⟨[norChip 0, norChip 1], by decide⟩

/-- If the second chip cannot be referenced, the initialisation waits for `mtd_table_mutex`, which
it holds.  If the second device cannot be created, the numbers of the devices stay taken. -/
theorem mtdpartctlDeviceClassInit_leaks :
    mtdpartctlDeviceClassInit
        { grantingEnv with getMtdDevice := fun i => if i = 1 then some ⟨19, by decide⟩ else none }
        twoChips .all (.load twoChips) = .error .relock ∧
      ¬ RollsBack (mtdpartctlDeviceClassInit
        { grantingEnv with getMtdDevice := fun i => if i = 1 then some ⟨19, by decide⟩ else none }
        twoChips .all (.load twoChips)) ∧
      ¬ RollsBack (mtdpartctlDeviceClassInit
        { grantingEnv with device := fun k =>
            ⟨true, ⟨true, none, none⟩, if k = 1 then some ⟨12, by decide⟩ else none, none⟩ }
        twoChips .all (.load twoChips)) := by
  refine ⟨rfl, fun h => h rfl, fun h => ?_⟩
  have hreleased := (h (by decide)).1
  exact absurd hreleased (by decide)

end Mtdpartikr
