import Mtdpartikr.Kernel.DevClass

/-!
# Creating one device and removing it

`mtdpartctl_device_create` either makes a device, or returns an error, or runs into a `BUG_ON`.
Which of the three is read off the outcomes of the calls it makes and off the backing MTD
(`DeviceEnv.Fails`, `DeviceEnv.Creates`).

* `mtdpartctlDeviceCreate_ok`: a device that is made has taken `deviceResources`.
* `mtdpartctlDeviceCreate_fails`: an error gives back everything it took.
* `mtdpartctlDeviceDestroy_eq`: removing a device gives `deviceResources` back.
-/

namespace Mtdpartikr

open Ledger (Event Released)

variable {σ : Type}

/-! ### What decides the outcome -/

/-- The hooks that the `BUG_ON`s of `proxy_mtd_create_device` ask of the backing MTD. -/
def MtdDev.HasIoHooks (mtd : MtdDev σ) : Prop :=
  if mtd.writeOob.isSome then mtd.readOob.isSome else mtd.read.isSome ∧ mtd.write.isSome

/-- One of these `BUG_ON`s. -/
def InitOops.MissingHook (o : InitOops) : Prop := o = .noReadOob ∨ o = .noRead ∨ o = .noWrite

instance (mtd : MtdDev σ) : Decidable mtd.HasIoHooks :=
  inferInstanceAs (Decidable
    (if mtd.writeOob.isSome then mtd.readOob.isSome else mtd.read.isSome ∧ mtd.write.isSome))

/-- `proxy_mtd_create_device` goes wrong before these `BUG_ON`s. -/
def ProxyEnv.FailsEarly (env : ProxyEnv) (backing : MtdDev σ) : Prop :=
  backing.numeraseregions ≠ 0 ∨ env.kvzalloc = false ∨
    (backing.IsNand ∧ env.nanddevInit ≠ none)

/-- A call before these `BUG_ON`s goes wrong. -/
def DeviceEnv.FailsEarly (env : DeviceEnv) (backing : MtdDev σ) : Prop :=
  (backing.owner ≠ none ∧ env.tryModuleGet = false) ∨ env.proxy.FailsEarly backing

/-- A call behind them goes wrong. -/
def DeviceEnv.FailsLate (env : DeviceEnv) : Prop :=
  env.proxy.mtdDeviceRegister ≠ none ∨ env.cdevAdd ≠ none ∨ env.deviceCreate ≠ none

/-- The creation returns an error. -/
def DeviceEnv.Fails (env : DeviceEnv) (backing : MtdDev σ) : Prop :=
  env.FailsEarly backing ∨ (backing.HasIoHooks ∧ env.FailsLate)

/-- The creation makes a device. -/
def DeviceEnv.Creates (env : DeviceEnv) (backing : MtdDev σ) : Prop :=
  ¬ env.FailsEarly backing ∧ backing.HasIoHooks ∧ ¬ env.FailsLate

/-! ### What a device takes -/

/-- The reference on the owner of the backing MTD. -/
def moduleRefs (k : ℕ) (owner : Option Module) : List Resource :=
  if owner.isSome then [.moduleRef k] else []

/-- What a device takes, in the order it takes it. -/
def deviceResources (k : ℕ) (owner : Option Module) : List Resource :=
  moduleRefs k owner ++ [.proxyMem k, .proxyReg k, .cdev k, .node k]

/-- What only the creation of the `k`-th device takes. -/
def Resource.OfCreation (k : ℕ) : Resource → Prop
  | .moduleRef j | .proxyMem j | .proxyReg j | .cdev j | .node j => j = k
  | _ => False

theorem Resource.OfCreation.eq {j k : ℕ} {r : Resource} (hj : r.OfCreation j)
    (hk : r.OfCreation k) : j = k := by
  cases r <;> first | exact hj.elim | exact hj.symm.trans hk

theorem ofCreation_of_mem_moduleRefs {k : ℕ} {owner : Option Module} {r : Resource}
    (h : r ∈ moduleRefs k owner) : r.OfCreation k := by
  unfold moduleRefs at h
  split at h
  · rw [List.mem_singleton] at h
    rw [h]
    exact rfl
  · cases h

theorem ofCreation_of_mem_deviceResources {k : ℕ} {owner : Option Module} {r : Resource}
    (h : r ∈ deviceResources k owner) : r.OfCreation k := by
  rcases List.mem_append.mp h with h | h
  · exact ofCreation_of_mem_moduleRefs h
  · simp only [List.mem_cons, List.not_mem_nil, or_false] at h
    rcases h with rfl | rfl | rfl | rfl <;> exact rfl

theorem nodup_moduleRefs (k : ℕ) (owner : Option Module) : (moduleRefs k owner).Nodup := by
  unfold moduleRefs
  split
  · exact List.nodup_singleton _
  · exact List.nodup_nil

theorem nodup_deviceResources (k : ℕ) (owner : Option Module) :
    (deviceResources k owner).Nodup := by
  cases owner <;> simp [deviceResources, moduleRefs]

/-! ### The proxy MTD -/

/-- The memory that `proxy_mtd_create_device` starts from. -/
def freshProxyMtd (backing : MtdDev σ) : MtdDev σ :=
  if backing.IsNand then
    nanddevInit (proxyNandOps backing) (some .thisModule)
      { MtdDev.zero with memorg := backing.memorg }
  else MtdDev.zero

/-- The proxy MTD when it is registered. -/
def filledProxyMtd (backing : MtdDev σ) : Except InitOops (MtdDev σ) := do
  let mtd ← setIoHooks backing (copyBackingFields backing (freshProxyMtd backing))
  return { mtd with
    getDevice := some .proxyMtdGetDevice
    putDevice := some .proxyMtdPutDevice }

/-- The hooks of the backing MTD decide whether a `BUG_ON` is reached. -/
theorem setIoHooks_cases (backing mtd : MtdDev σ) :
    (backing.HasIoHooks ∧ ∃ mtd', setIoHooks backing mtd = .ok mtd') ∨
      (¬ backing.HasIoHooks ∧
        ∃ o : InitOops, o.MissingHook ∧ setIoHooks backing mtd = .error o) := by
  unfold setIoHooks MtdDev.HasIoHooks
  cases hwriteOob : backing.writeOob with
  | some writeOob =>
    cases hreadOob : backing.readOob with
    | some readOob => exact .inl ⟨by simp, _, rfl⟩
    | none => exact .inr ⟨by simp, .noReadOob, .inl rfl, rfl⟩
  | none =>
    cases hread : backing.read with
    | none => exact .inr ⟨by simp, .noRead, .inr (.inl rfl), rfl⟩
    | some read =>
      cases hwrite : backing.write with
      | none => exact .inr ⟨by simp, .noWrite, .inr (.inr rfl), rfl⟩
      | some write => exact .inl ⟨by simp, _, rfl⟩

/-- Setting the hooks for reading and writing changes no other field. -/
theorem setIoHooks_frame {backing mtd mtd' : MtdDev σ} (h : setIoHooks backing mtd = .ok mtd') :
    mtd' = { mtd with
      read := mtd'.read
      write := mtd'.write
      readOob := mtd'.readOob
      writeOob := mtd'.writeOob } := by
  unfold setIoHooks at h
  split at h
  · split at h
    · cases h
    · obtain rfl := Except.ok.inj h
      rfl
  · split at h
    · cases h
    · split at h
      · cases h
      · obtain rfl := Except.ok.inj h
        rfl

theorem filledProxyMtd_cases (backing : MtdDev σ) :
    (backing.HasIoHooks ∧ ∃ mtd, filledProxyMtd backing = .ok mtd) ∨
      (¬ backing.HasIoHooks ∧
        ∃ o : InitOops, o.MissingHook ∧ filledProxyMtd backing = .error o) := by
  unfold filledProxyMtd
  rcases setIoHooks_cases backing (copyBackingFields backing (freshProxyMtd backing)) with
    ⟨hhooks, mtd, heq⟩ | ⟨hhooks, o, ho, heq⟩
  · exact .inl ⟨hhooks, _, by rw [heq]; rfl⟩
  · exact .inr ⟨hhooks, o, ho, by rw [heq]; rfl⟩

/-- Everything of a proxy MTD but its hooks comes from the memory it started with and from the
fields copied. -/
theorem filledProxyMtd_frame {backing mtd : MtdDev σ} (h : filledProxyMtd backing = .ok mtd) :
    mtd = { copyBackingFields backing (freshProxyMtd backing) with
      read := mtd.read
      write := mtd.write
      readOob := mtd.readOob
      writeOob := mtd.writeOob
      getDevice := mtd.getDevice
      putDevice := mtd.putDevice } := by
  unfold filledProxyMtd at h
  cases hio : setIoHooks backing (copyBackingFields backing (freshProxyMtd backing)) with
  | error o =>
    rw [hio] at h
    cases h
  | ok mtd' =>
    have hframe := setIoHooks_frame hio
    rw [hio] at h
    obtain rfl := Except.ok.inj h
    rw [hframe]

/-- **A proxy MTD belongs to the module only where its backing MTD is a NAND chip.**  Otherwise its
owner is NULL, as `kvzalloc` leaves it. -/
theorem filledProxyMtd_owner {backing mtd : MtdDev σ} (h : filledProxyMtd backing = .ok mtd) :
    mtd.owner = if backing.IsNand then some .thisModule else none := by
  rw [filledProxyMtd_frame h]
  show (freshProxyMtd backing).owner = _
  unfold freshProxyMtd
  split_ifs <;> rfl

/-- The memory of a proxy is taken, or nothing is. -/
theorem allocProxyMtd_cases (env : ProxyEnv) (k : ℕ) (backing : MtdDev σ) (kernel : KernelState) :
    ((env.kvzalloc = false ∨ (backing.IsNand ∧ env.nanddevInit ≠ none)) ∧
        ∃ ret tr, allocProxyMtd env k backing kernel =
            (ret, none, { kernel with trace := kernel.trace ++ tr }) ∧ ret < 0 ∧
          Released tr ∧ ∀ e ∈ tr, e.resource = .proxyMem k) ∨
      (¬ (env.kvzalloc = false ∨ (backing.IsNand ∧ env.nanddevInit ≠ none)) ∧
        allocProxyMtd env k backing kernel =
          (0, some (freshProxyMtd backing), kernel.acquire (.proxyMem k))) := by
  unfold allocProxyMtd initializeProxyNandDevice freshProxyMtd
  cases hzalloc : env.kvzalloc with
  | false =>
    refine .inl ⟨.inl rfl, neg .ENOMEM, [], ?_, by decide, rfl, List.forall_mem_nil _⟩
    simp
  | true =>
    by_cases hnand : backing.IsNand
    · have htype : backing.type = MTD_MLCNANDFLASH ∨ backing.type = MTD_NANDFLASH := hnand
      simp only [htype, if_true]
      cases hinit : env.nanddevInit with
      | some err =>
        refine .inl ⟨.inr ⟨hnand, by simp⟩, err.ret,
          [.acquire (.proxyMem k), .release (.proxyMem k)], ?_, err.ret_lt_zero, ?_, ?_⟩
        · simp [KernelState.acquire, KernelState.release]
        · simp [Released, Ledger.run]
        · simp [Event.resource]
      | none =>
        refine .inr ⟨by simp, ?_⟩
        simp [hnand]
    · have htype : ¬ (backing.type = MTD_MLCNANDFLASH ∨ backing.type = MTD_NANDFLASH) := hnand
      simp only [htype, if_false]
      refine .inr ⟨by simp [hnand], ?_⟩
      simp [hnand]

section Proxy

variable (choice : IndexChoice) (env : ProxyEnv) (k : ℕ) (backing : MtdDev σ)
  (indices : List ℕ) (trace : List (Event Resource))

/-- **A proxy MTD is made** where nothing goes wrong. -/
theorem proxyMtdCreateDevice_ok (hearly : ¬ env.FailsEarly backing) {mtd : MtdDev σ}
    (hfilled : filledProxyMtd backing = .ok mtd) (hregister : env.mtdDeviceRegister = none) :
    proxyMtdCreateDevice choice env k backing ⟨false, indices, trace⟩ =
      .ok (0, some { mtd with index := choice.index indices },
        ⟨false, choice.index indices :: indices,
          trace ++ [.acquire (.proxyMem k), .acquire (.proxyReg k)]⟩) := by
  unfold ProxyEnv.FailsEarly at hearly
  rw [not_or, not_not] at hearly
  obtain ⟨_, hfail⟩ | ⟨-, halloc⟩ := allocProxyMtd_cases env k backing ⟨false, indices, trace⟩
  · exact absurd ‹_› hearly.2
  · unfold filledProxyMtd at hfilled
    unfold proxyMtdCreateDevice
    rw [halloc]
    simp only [hearly.1, ne_eq, not_true_eq_false, if_false]
    cases hio : setIoHooks backing (copyBackingFields backing (freshProxyMtd backing)) with
    | error o =>
      rw [hio] at hfilled
      cases hfilled
    | ok mtd' =>
      rw [hio] at hfilled
      obtain rfl := Except.ok.inj hfilled
      simp [mtdDeviceRegister, lockMtdTable, unlockMtdTable, KernelState.acquire, hregister,
        bind, Except.bind, pure, Except.pure]

/-- **A failed `proxy_mtd_create_device` gives back what it took.** -/
theorem proxyMtdCreateDevice_fails
    (hfails : env.FailsEarly backing ∨ (backing.HasIoHooks ∧ env.mtdDeviceRegister ≠ none)) :
    ∃ ret tr, proxyMtdCreateDevice choice env k backing ⟨false, indices, trace⟩ =
        .ok (ret, none, ⟨false, indices, trace ++ tr⟩) ∧ ret < 0 ∧ Released tr ∧
      ∀ e ∈ tr, e.resource = .proxyMem k := by
  unfold proxyMtdCreateDevice
  by_cases hregions : backing.numeraseregions = 0
  · simp only [hregions, ne_eq, not_true_eq_false, if_false]
    obtain ⟨_, ret, tr, heq, hret, htr⟩ | ⟨hgood, halloc⟩ :=
      allocProxyMtd_cases env k backing ⟨false, indices, trace⟩
    · exact ⟨ret, tr, by rw [heq]; rfl, hret, htr⟩
    · have hlate : backing.HasIoHooks ∧ env.mtdDeviceRegister ≠ none := by
        refine hfails.resolve_left fun hearly => ?_
        exact hearly.elim (fun hne => hne hregions) hgood
      obtain ⟨err, herr⟩ := Option.ne_none_iff_exists'.mp hlate.2
      obtain ⟨-, mtd, hio⟩ | ⟨hno, -⟩ :=
        setIoHooks_cases backing (copyBackingFields backing (freshProxyMtd backing))
      · refine ⟨err.ret, [.acquire (.proxyMem k), .release (.proxyMem k)], ?_, err.ret_lt_zero,
          by simp [Released, Ledger.run], by simp [Event.resource]⟩
        rw [halloc]
        simp [hio, mtdDeviceRegister, lockMtdTable, unlockMtdTable, KernelState.acquire,
          KernelState.release, herr, bind, Except.bind, pure, Except.pure]
      · exact absurd hlate.1 hno
  · refine ⟨neg .EINVAL, [], ?_, by decide, rfl, List.forall_mem_nil _⟩
    simp only [hregions, ne_eq, not_false_eq_true, if_true, List.append_nil]
    rfl

/-- Without its hooks a backing MTD stops the creation of the proxy with a `BUG_ON`. -/
theorem proxyMtdCreateDevice_bug (hearly : ¬ env.FailsEarly backing)
    (hhooks : ¬ backing.HasIoHooks) :
    ∃ o : InitOops, o.MissingHook ∧
      proxyMtdCreateDevice choice env k backing ⟨false, indices, trace⟩ = .error o := by
  unfold ProxyEnv.FailsEarly at hearly
  rw [not_or, not_not] at hearly
  unfold proxyMtdCreateDevice
  simp only [hearly.1, ne_eq, not_true_eq_false, if_false]
  obtain ⟨hfail, -⟩ | ⟨-, halloc⟩ := allocProxyMtd_cases env k backing ⟨false, indices, trace⟩
  · exact absurd hfail hearly.2
  · obtain ⟨hyes, -⟩ | ⟨-, o, ho, hio⟩ :=
      setIoHooks_cases backing (copyBackingFields backing (freshProxyMtd backing))
    · exact absurd hyes hhooks
    · refine ⟨o, ho, ?_⟩
      rw [halloc]
      simp [hio, bind, Except.bind]

/-- What a proxy MTD that was made is. -/
theorem filledProxyMtd_of_create {proxy : MtdDev σ} {kernel : KernelState}
    (h : proxyMtdCreateDevice choice env k backing ⟨false, indices, trace⟩ =
      .ok (0, some proxy, kernel)) :
    ∃ mtd, filledProxyMtd backing = .ok mtd ∧
      proxy = { mtd with index := choice.index indices } := by
  by_cases hfails : env.FailsEarly backing ∨
      (backing.HasIoHooks ∧ env.mtdDeviceRegister ≠ none)
  · obtain ⟨ret, tr, heq, hret, -⟩ :=
      proxyMtdCreateDevice_fails choice env k backing indices trace hfails
    rw [h] at heq
    obtain ⟨rfl, -⟩ := Prod.mk.inj (Except.ok.inj heq)
    omega
  · rw [not_or, not_and, not_not] at hfails
    obtain ⟨hhooks, mtd, hfilled⟩ | ⟨hno, -⟩ := filledProxyMtd_cases backing
    · have hok := proxyMtdCreateDevice_ok choice env k backing indices trace hfails.1 hfilled
        (hfails.2 hhooks)
      rw [h] at hok
      obtain ⟨-, hok⟩ := Prod.mk.inj (Except.ok.inj hok)
      exact ⟨mtd, hfilled, Option.some.inj (Prod.mk.inj hok).1⟩
    · obtain ⟨o, -, hbug⟩ :=
        proxyMtdCreateDevice_bug choice env k backing indices trace hfails.1 hno
      rw [h] at hbug
      cases hbug

theorem proxyMtdDeviceDestroy_eq (mtd : MtdDev σ) :
    proxyMtdDeviceDestroy k mtd ⟨false, indices, trace⟩ =
      .ok ⟨false, indices.erase mtd.index,
        trace ++ [.release (.proxyReg k), .release (.proxyMem k)]⟩ := by
  simp [proxyMtdDeviceDestroy, mtdDeviceUnregister, lockMtdTable, unlockMtdTable,
    KernelState.release, bind, Except.bind, pure, Except.pure]

end Proxy

/-! ### The device -/

theorem tryModuleGet_eq {owner : Option Module} {granted : Bool}
    (h : ¬ (owner ≠ none ∧ granted = false)) (k : ℕ) (kernel : KernelState) :
    tryModuleGet owner granted k kernel =
      (true, { kernel with trace := kernel.trace ++ (moduleRefs k owner).map .acquire }) := by
  cases owner with
  | none => simp [tryModuleGet, moduleRefs]
  | some owner =>
    have hgranted : granted = true := by simpa using h
    simp [tryModuleGet, moduleRefs, hgranted, KernelState.acquire]

theorem modulePut_eq (owner : Option Module) (k : ℕ) (kernel : KernelState) :
    modulePut owner k kernel =
      { kernel with trace := kernel.trace ++ (moduleRefs k owner).map .release } := by
  cases owner with
  | none => simp [modulePut, moduleRefs]
  | some owner => simp [modulePut, moduleRefs, KernelState.release]

section Device

variable (env : InitEnv) (k : ℕ) (backing : MtdDev σ) (dev : ClassDevice σ)
  (indices : List ℕ) (trace : List (Event Resource))

/-- A device whose creation has come to its proxy MTD. -/
def ClassDevice.withProxy (dev : ClassDevice σ) (mtd : Option (MtdDev σ)) : ClassDevice σ :=
  { dev with
    alreadyOpen := false
    recipe := { dev.recipe with partitions := [] }
    proxyMtd := mtd
    useRefcnt := 0 }

/-- **A device is made** where nothing goes wrong. -/
theorem mtdpartctlDeviceCreate_ok (hcreates : (env.device k).Creates backing) :
    ∃ mtd, filledProxyMtd backing = .ok mtd ∧
      mtdpartctlDeviceCreate env k backing dev ⟨false, indices, trace⟩ =
        .ok (0, dev.withProxy (some { mtd with index := env.choice.index indices }),
          ⟨false, env.choice.index indices :: indices,
            trace ++ (deviceResources k backing.owner).map .acquire⟩) := by
  obtain ⟨hearly, hhooks, hlate⟩ := hcreates
  unfold DeviceEnv.FailsEarly at hearly
  unfold DeviceEnv.FailsLate at hlate
  rw [not_or] at hearly
  simp only [not_or, not_not] at hlate
  obtain ⟨-, mtd, hfilled⟩ | ⟨hno, -⟩ := filledProxyMtd_cases backing
  · refine ⟨mtd, hfilled, ?_⟩
    have hproxy := fun trace => proxyMtdCreateDevice_ok env.choice _ k backing indices trace
      hearly.2 hfilled hlate.1
    unfold mtdpartctlDeviceCreate createProxy
    simp [tryModuleGet_eq hearly.1, hproxy, hlate.2.1, hlate.2.2, bind, Except.bind, pure,
      Except.pure, KernelState.acquire, deviceResources, ClassDevice.withProxy]
  · exact absurd hhooks hno

/-- What is taken and given back while the owner of the backing MTD is referenced. -/
theorem released_moduleRefs {k : ℕ} (owner : Option Module) (tr : List (Event Resource))
    (h : Released tr) (htr : ∀ e ∈ tr, e.resource.OfCreation k ∧ e.resource ≠ .moduleRef k) :
    Released ((moduleRefs k owner).map .acquire ++ tr ++ (moduleRefs k owner).map .release) ∧
      ∀ e ∈ (moduleRefs k owner).map Event.acquire ++ tr ++ (moduleRefs k owner).map .release,
        e.resource.OfCreation k := by
  constructor
  · refine h.bracket (nodup_moduleRefs k owner) (List.Perm.refl _) fun e he hmem => ?_
    unfold moduleRefs at hmem
    split at hmem
    · exact (htr e he).2 (List.mem_singleton.mp hmem)
    · cases hmem
  · intro e he
    rw [List.mem_append, List.mem_append, List.mem_map, List.mem_map] at he
    rcases he with (⟨r, hr, rfl⟩ | he) | ⟨r, hr, rfl⟩
    · exact ofCreation_of_mem_moduleRefs hr
    · exact (htr e he).1
    · exact ofCreation_of_mem_moduleRefs hr

/-- The creation of the `k`-th device returned an error and gave back what it took. -/
def GivesBack (k : ℕ) (indices : List ℕ) (trace : List (Event Resource))
    (result : Except InitOops (Int × ClassDevice σ × KernelState)) : Prop :=
  ∃ ret dev' tr, result = .ok (ret, dev', ⟨false, indices, trace ++ tr⟩) ∧ ret ≠ 0 ∧
    Released tr ∧ ∀ e ∈ tr, e.resource.OfCreation k

/-- `try_module_get` fails. -/
theorem mtdpartctlDeviceCreate_noModule
    (hmodule : backing.owner ≠ none ∧ (env.device k).tryModuleGet = false) :
    GivesBack k indices trace
      (mtdpartctlDeviceCreate env k backing dev ⟨false, indices, trace⟩) := by
  obtain ⟨owner, howner⟩ := Option.ne_none_iff_exists'.mp hmodule.1
  refine ⟨neg Errno.EIO, { dev with alreadyOpen := false }, [], ?_, by decide, rfl,
    List.forall_mem_nil _⟩
  unfold mtdpartctlDeviceCreate
  simp [tryModuleGet, howner, hmodule.2, pure, Except.pure]

section Referenced

variable (hmodule : ¬ (backing.owner ≠ none ∧ (env.device k).tryModuleGet = false))

include hmodule

/-- `drop_module`: there is no proxy MTD. -/
theorem mtdpartctlDeviceCreate_dropModule
    (hproxy : (env.device k).proxy.FailsEarly backing ∨
      (backing.HasIoHooks ∧ (env.device k).proxy.mtdDeviceRegister ≠ none)) :
    GivesBack k indices trace
      (mtdpartctlDeviceCreate env k backing dev ⟨false, indices, trace⟩) := by
  obtain ⟨ret, tr, heq, hret, htr, hmem⟩ := proxyMtdCreateDevice_fails env.choice
    (env.device k).proxy k backing indices (trace ++ (moduleRefs k backing.owner).map .acquire)
    hproxy
  have hof : ∀ e ∈ tr, e.resource.OfCreation k ∧ e.resource ≠ .moduleRef k := fun e he => by
    rw [hmem e he]
    exact ⟨rfl, by simp⟩
  refine ⟨ret, dev.withProxy none, _, ?_, by omega, released_moduleRefs backing.owner tr htr hof⟩
  unfold mtdpartctlDeviceCreate createProxy
  simp [tryModuleGet_eq hmodule, heq, hret, modulePut_eq, bind, Except.bind, pure, Except.pure,
    ClassDevice.withProxy]

variable {mtd : MtdDev σ} (hearly : ¬ (env.device k).proxy.FailsEarly backing)
  (hfilled : filledProxyMtd backing = .ok mtd)
  (hregister : (env.device k).proxy.mtdDeviceRegister = none) {err : KernelErr}

include hearly hfilled hregister

/-- `remove_proxy_mtd`: `cdev_add` fails. -/
theorem mtdpartctlDeviceCreate_removeProxy (hcdev : (env.device k).cdevAdd = some err) :
    GivesBack k indices trace
      (mtdpartctlDeviceCreate env k backing dev ⟨false, indices, trace⟩) := by
  have hproxy := fun trace => proxyMtdCreateDevice_ok env.choice _ k backing indices trace
    hearly hfilled hregister
  refine ⟨err.ret, dev.withProxy (some { mtd with index := env.choice.index indices }), _, ?_,
    err.ret_ne_zero, released_moduleRefs backing.owner [.acquire (.proxyMem k),
      .acquire (.proxyReg k), .release (.proxyReg k), .release (.proxyMem k)]
      (by simp [Released, Ledger.run]) (by simp [Event.resource, Resource.OfCreation])⟩
  unfold mtdpartctlDeviceCreate createProxy destroyProxy
  simp [tryModuleGet_eq hmodule, hproxy, hcdev, proxyMtdDeviceDestroy_eq, modulePut_eq, bind,
    Except.bind, pure, Except.pure, ClassDevice.withProxy]

/-- `delete_chrdev`: `device_create` fails. -/
theorem mtdpartctlDeviceCreate_deleteChrdev (hcdev : (env.device k).cdevAdd = none)
    (herr : (env.device k).deviceCreate = some err) :
    GivesBack k indices trace
      (mtdpartctlDeviceCreate env k backing dev ⟨false, indices, trace⟩) := by
  have hproxy := fun trace => proxyMtdCreateDevice_ok env.choice _ k backing indices trace
    hearly hfilled hregister
  refine ⟨err.ret, dev.withProxy (some { mtd with index := env.choice.index indices }), _, ?_,
    err.ret_ne_zero, released_moduleRefs backing.owner [.acquire (.proxyMem k),
      .acquire (.proxyReg k), .acquire (.cdev k), .release (.cdev k), .release (.proxyReg k),
      .release (.proxyMem k)]
      (by simp [Released, Ledger.run]) (by simp [Event.resource, Resource.OfCreation])⟩
  unfold mtdpartctlDeviceCreate createProxy destroyProxy
  simp [tryModuleGet_eq hmodule, hproxy, hcdev, herr, proxyMtdDeviceDestroy_eq, modulePut_eq, bind,
    Except.bind, pure, Except.pure, ClassDevice.withProxy, KernelState.acquire,
    KernelState.release]

end Referenced

/-- **A failed creation gives back what it took.** -/
theorem mtdpartctlDeviceCreate_fails (hfails : (env.device k).Fails backing) :
    GivesBack k indices trace
      (mtdpartctlDeviceCreate env k backing dev ⟨false, indices, trace⟩) := by
  by_cases hmodule : backing.owner ≠ none ∧ (env.device k).tryModuleGet = false
  · exact mtdpartctlDeviceCreate_noModule env k backing dev indices trace hmodule
  by_cases hproxy : (env.device k).proxy.FailsEarly backing ∨
      (backing.HasIoHooks ∧ (env.device k).proxy.mtdDeviceRegister ≠ none)
  · exact mtdpartctlDeviceCreate_dropModule env k backing dev indices trace hmodule hproxy
  -- The proxy is made, so it is one of the two calls behind it.
  rw [not_or] at hproxy
  have hlate := hfails.resolve_left fun hearly => hearly.elim hmodule hproxy.1
  have hregister : (env.device k).proxy.mtdDeviceRegister = none := by
    simpa [hlate.1] using hproxy.2
  obtain ⟨-, mtd, hfilled⟩ | ⟨hno, -⟩ := filledProxyMtd_cases backing
  · cases hcdev : (env.device k).cdevAdd with
    | some err =>
      exact mtdpartctlDeviceCreate_removeProxy env k backing dev indices trace hmodule hproxy.1
        hfilled hregister hcdev
    | none =>
      have hcreate : (env.device k).deviceCreate ≠ none := by
        simpa [DeviceEnv.FailsLate, hregister, hcdev] using hlate.2
      obtain ⟨err, herr⟩ := Option.ne_none_iff_exists'.mp hcreate
      exact mtdpartctlDeviceCreate_deleteChrdev env k backing dev indices trace hmodule hproxy.1
        hfilled hregister hcdev herr
  · exact absurd hlate.1 hno

/-- A creation that neither makes a device nor fails runs into a `BUG_ON`. -/
theorem mtdpartctlDeviceCreate_bug (hfails : ¬ (env.device k).Fails backing)
    (hcreates : ¬ (env.device k).Creates backing) :
    ∃ o : InitOops, o.MissingHook ∧
      mtdpartctlDeviceCreate env k backing dev ⟨false, indices, trace⟩ = .error o := by
  unfold DeviceEnv.Fails at hfails
  rw [not_or] at hfails
  have hhooks : ¬ backing.HasIoHooks := fun hyes =>
    hcreates ⟨hfails.1, hyes, fun hlate => hfails.2 ⟨hyes, hlate⟩⟩
  have hearly := hfails.1
  unfold DeviceEnv.FailsEarly at hearly
  rw [not_or] at hearly
  obtain ⟨o, ho, hbug⟩ := proxyMtdCreateDevice_bug env.choice (env.device k).proxy k backing
    indices (trace ++ (moduleRefs k backing.owner).map .acquire) hearly.2 hhooks
  refine ⟨o, ho, ?_⟩
  unfold mtdpartctlDeviceCreate createProxy
  simp [tryModuleGet_eq hearly.1, hbug, bind, Except.bind]

/-- **Removing a device gives back what it took**, the last first. -/
theorem mtdpartctlDeviceDestroy_eq {mtd : MtdDev σ} (hproxy : dev.proxyMtd = some mtd)
    (hbacking : dev.backingMtd = some backing) :
    mtdpartctlDeviceDestroy k dev ⟨false, indices, trace⟩ =
      .ok ⟨false, indices.erase mtd.index, trace ++
        [.release (.node k), .release (.cdev k), .release (.proxyReg k), .release (.proxyMem k)] ++
        (moduleRefs k backing.owner).map .release⟩ := by
  simp [mtdpartctlDeviceDestroy, destroyProxy, hproxy, hbacking, proxyMtdDeviceDestroy_eq,
    modulePut_eq, KernelState.release, bind, Except.bind, pure, Except.pure]

end Device

end Mtdpartikr
