import Mtdpartikr.Kernel.Equiv.LiveTable

/-!
# No failure is final

A respawn that fails in the MTD core leaves the proxy unregistered and without partitions, and a
dispatch that came too early is refused.  Neither stops what comes after it: a client that starts
its recipe anew, submits any packing of the backing MTD and dispatches it gets exactly that table,
whatever happened to the device before, if nobody uses the proxy and nothing goes wrong in the
kernel any more (`installs_table`).  While somebody uses it, the live partitions stay.
-/

namespace Mtdpartikr

/-! ### The dispatch at the end -/

/-- A dispatch that succeeds leaves the proxy MTD registered. -/
theorem registered_of_dispatch {env : Env} {dev : MtdpartctlDevice} {r : IoctlResult}
    (hioctl : mtdpartctlChrdevIoctl env dev .recipeCreatePartitions = .ok r) (hret : 0 ≤ r.ret) :
    r.dev.proxy.mtd.registered = true := by
  obtain ⟨⟨ret, dev', calls⟩, hcreate, hioctl⟩ := bind_eq_ok hioctl
  obtain rfl := Except.ok.inj hioctl
  rcases createRecipePartitions_cases env.core dev env.kvzalloc hcreate with
    ⟨ret', _, _, hneg, heq⟩ | ⟨_, partitions, _, _, hrespawn⟩
  · obtain ⟨rfl, -⟩ := Prod.mk.inj heq
    exact absurd hneg (Int.not_lt.mpr hret)
  · rcases respawnProxyMtdLocked_cases env.core dev _ _ hrespawn with
      ⟨_, heq⟩ | ⟨_, hneg, heq⟩ | ⟨_, _, reg, hreg, heq⟩
    · obtain ⟨rfl, -⟩ := Prod.mk.inj heq
      exact absurd hret (not_nonneg_neg .EBUSY)
    · obtain ⟨rfl, -⟩ := Prod.mk.inj heq
      exact absurd hneg (Int.not_lt.mpr hret)
    · obtain ⟨hcode, heq⟩ := Prod.mk.inj heq
      obtain ⟨rfl, -⟩ := Prod.mk.inj heq
      -- The last call of a respawn that succeeds is the registration.
      have hnonneg : 0 ≤ reg.1 := hcode ▸ hret
      rw [hreg] at hnonneg
      show reg.2.registered = true
      rw [hreg]
      exact env.core.parseRegister_done _ _ _ hnonneg

/-- A dispatch on a proxy in use is refused. -/
theorem dispatch_busy {env : Env} {dev : MtdpartctlDevice} (hk : env.kvzalloc = true)
    (hcount : dev.recipe.partsCount.toNat = dev.recipe.partitions.length)
    (hne : dev.recipe.partitions ≠ []) (hrefs : dev.proxy.useRefcnt ≠ 0)
    (hnonneg : 0 ≤ dev.proxy.useRefcnt) :
    ∃ r, mtdpartctlChrdevIoctl env dev .recipeCreatePartitions = .ok r ∧ r.ret = neg .EBUSY ∧
      r.dev.tables.live = dev.tables.live := by
  have hzero : dev.recipe.partsCount ≠ 0 := mt (counter_eq_zero_iff hcount).mp hne
  have hcreate : createRecipePartitions env.core dev true =
      .ok (neg .EBUSY, dev.respawned dev.proxy.mtd, []) := by
    unfold createRecipePartitions
    rw [convertRecipeToMtdPartitionsLocked_eq hcount, if_neg hne]
    simp only [bind, Except.bind, lt_self_iff_false, if_false, hzero]
    -- The flag is raised, the count is read, and the flag goes down again.
    unfold respawnProxyMtdLocked respawnFlagged setProxyMtdAboutToRespawn
    simp only [Int32.not_lt.mpr hnonneg, if_false, ne_eq, hrefs, not_false_eq_true, if_true]
    rfl
  refine ⟨⟨neg .EBUSY, dev.respawned dev.proxy.mtd, [], .none⟩, ?_, rfl, rfl⟩
  simp only [mtdpartctlChrdevIoctl, hk, hcreate]
  rfl

/-! ### A table installed from anywhere -/

/-- The calls of a fresh recipe for the table, and its dispatch. -/
def installCalls (table : List Extent) : List DevCall :=
  .ioctl .restartRecipe :: addCalls (table.map Extent.request) ++ [.ioctl .recipeCreatePartitions]

/-- The device with its recipe started anew. -/
def MtdpartctlDevice.restarted (dev : MtdpartctlDevice) : MtdpartctlDevice :=
  { dev with recipe := ⟨[], 0⟩ }

/-- The calls before the dispatch make a recipe of the table, in any kernel that has memory. -/
theorem run_installCalls {dev : MtdpartctlDevice} {table : List Extent}
    (hvalid : ∀ x ∈ table, x.Valid dev.backingMtd) (hapart : table.Pairwise Extent.Apart)
    {es : List (Env × DevCall)} (hcalls : es.map Prod.snd = installCalls table)
    (hk : ∀ e ∈ es, e.1.kvzalloc = true) :
    ∃ env, (∃ e ∈ es, e.1 = env) ∧
      ∀ r, mtdpartctlChrdevIoctl env (dev.restarted.appendParts (table.map Extent.request))
        .recipeCreatePartitions = .ok r → deviceSystem.run dev es = some r.dev := by
  -- The first call restarts the recipe, the last one dispatches it.
  obtain ⟨es, dispatch, rfl, hfirst, hlast⟩ := List.map_eq_append_iff.mp hcalls
  obtain ⟨⟨env₀, call₀⟩, adds, rfl, rfl, hadds⟩ := List.map_eq_cons_iff.mp hfirst
  obtain ⟨⟨env, call⟩, rest, rfl, rfl, hrest⟩ := List.map_eq_cons_iff.mp hlast
  obtain rfl := List.map_eq_nil_iff.mp hrest
  refine ⟨env, ⟨_, List.mem_append_right _ (List.mem_singleton.mpr rfl), rfl⟩, fun r hioctl => ?_⟩
  have hrestart : deviceSystem.step dev (env₀, .ioctl .restartRecipe) = some dev.restarted := rfl
  have hinv : RecipeInv dev.restarted.backingMtd ((table.map Extent.request).map newRecipePart) :=
    recipeInv_requests hvalid hapart
  have hrun := @run_packing dev.restarted rfl _ hinv adds hadds fun e he =>
    hk e (List.mem_append_left _ (List.mem_cons_of_mem _ he))
  have hdispatch : deviceSystem.step (dev.restarted.appendParts (table.map Extent.request))
      (env, .ioctl .recipeCreatePartitions) = some r.dev := by
    simp only [deviceSystem, deviceCall, hioctl]
    rfl
  rw [List.cons_append, TransitionSystem.run, hrestart, Option.bind_some,
    TransitionSystem.run_append, hrun, Option.bind_some, TransitionSystem.run, hdispatch]
  rfl

/-- **No failure is final.**  Whatever state a device is in, a client can submit any non-empty
packing of the backing MTD and dispatch it, in any kernel in which nothing goes wrong from then
on.  If nobody uses the proxy, exactly this table is live after that, on a registered proxy;
otherwise the live partitions are those of before. -/
theorem installs_table {dev : MtdpartctlDevice} {table : List Extent} {es : List (Env × DevCall)}
    (henv : ∀ e ∈ es, e.1.Succeeds dev.backingMtd.size)
    (hcalls : es.map Prod.snd = installCalls table) (hnonneg : 0 ≤ dev.proxy.useRefcnt)
    (hne : table ≠ []) (hvalid : ∀ x ∈ table, x.Valid dev.backingMtd)
    (hapart : table.Pairwise Extent.Apart) :
    ∃ dev', deviceSystem.run dev es = some dev' ∧
      (dev.proxy.useRefcnt = 0 →
        dev'.tables.live = table ∧ dev'.proxy.mtd.registered = true) ∧
      (dev.proxy.useRefcnt ≠ 0 → dev'.tables.live = dev.tables.live) := by
  obtain ⟨env, ⟨e, he, rfl⟩, hrun⟩ :=
    run_installCalls hvalid hapart hcalls fun e he => (henv e he).kvzalloc
  have hempty : dev.restarted.recipe = ⟨[], 0⟩ := rfl
  have hinv : RecipeInv dev.restarted.backingMtd
      ((table.map Extent.request).map newRecipePart) := recipeInv_requests hvalid hapart
  have hsome : table.map Extent.request ≠ [] := mt List.map_eq_nil_iff.mp hne
  by_cases hrefs : dev.proxy.useRefcnt = 0
  · obtain ⟨r, hioctl, hret, hlive⟩ := @dispatch_requests _ dev.restarted (henv e he) hempty hrefs _
      hsome hinv
    rw [extents_requests hvalid] at hlive
    exact ⟨r.dev, hrun r hioctl, fun _ => ⟨hlive, registered_of_dispatch hioctl hret⟩,
      fun hno => absurd hrefs hno⟩
  · -- Somebody uses the proxy, and the respawn is refused.
    obtain ⟨hparts, hcount⟩ := recipe_packing hempty hinv
    have hbusy : (dev.restarted.appendParts (table.map Extent.request)).recipe.partitions ≠ [] := by
      rw [hparts]
      exact mt List.map_eq_nil_iff.mp hsome
    obtain ⟨r, hioctl, -, hlive⟩ := dispatch_busy (henv e he).kvzalloc hcount hbusy hrefs hnonneg
    exact ⟨r.dev, hrun r hioctl, fun hzero => absurd hzero hrefs, fun _ => hlive⟩

/-- A respawn has failed in the core, and the kernel is well-behaved again. -/
theorem installs_table_registerFails : ∃ r dev',
    mtdpartctlChrdevIoctl .registerFails twoBlocks .deleteMtdPartitions = .ok r ∧
      r.dev.proxy.mtd.registered = false ∧
      deviceSystem.run r.dev (keepingCalls (installCalls halves)) = some dev' ∧
      dev'.tables.live = halves ∧ dev'.proxy.mtd.registered = true := by
  have hioctl : mtdpartctlChrdevIoctl .registerFails twoBlocks .deleteMtdPartitions = .ok _ := rfl
  have henv : ∀ e ∈ keepingCalls (installCalls halves), e.1.Succeeds 0x2000 := by
    intro e he
    obtain ⟨call, -, rfl⟩ := List.mem_map.mp he
    exact Env.succeeds_keeping (by decide)
  obtain ⟨dev', hrun, hlive, -⟩ := @installs_table
    ({ twoBlocks with proxy := ⟨⟨false, 1, []⟩, 0, false⟩ }) halves
    (keepingCalls (installCalls halves)) henv (snd_keepingCalls _) (by decide)
    (List.cons_ne_nil _ _) halves_valid halves_apart
  exact ⟨_, dev', hioctl, rfl, hrun, hlive rfl⟩

end Mtdpartikr
