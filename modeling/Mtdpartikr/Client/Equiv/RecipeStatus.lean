import Mtdpartikr.Client.Equiv.Repl
import Mtdpartikr.Kernel.Equiv.Listing

/-!
# The status of the recipe in the REPL

The REPL counts the parts of the recipe itself, and asks the kernel for 255 of them once it has
counted any.

* `statusLines_eq`: a listing that succeeds is printed as the first 255 parts of the recipe.
* `step_statusFaithful_iff`: a command keeps the counter equal to the length of the recipe and the
  recipe within the listing unless it adds a partition at once, which is counted and is no part, or
  a part behind the 255th.
* `recipeStatus_iff`: the runs without such commands are those in which `status` shows the recipe.
-/

namespace Mtdpartikr

/-! ### The recipe behind an ioctl -/

section Ioctl

variable {env : Env} {dev : MtdpartctlDevice} {cmd : Ioctl} {r : IoctlResult}

theorem Reachable.ioctl (h : Reachable dev) (hr : mtdpartctlChrdevIoctl env dev cmd = .ok r) :
    Reachable r.dev := by
  refine TransitionSystem.Reach.step (e := (env, .ioctl cmd)) h trivial ?_
  simp only [deviceSystem, deviceCall, hr]
  rfl

/-- The ioctls that can change the recipe. -/
def Ioctl.EditsRecipe : Ioctl → Prop
  | .recipeAddPart _ | .recipeDelPart _ | .restartRecipe => True
  | _ => False

theorem ioctl_recipe_eq (hcmd : ¬ cmd.EditsRecipe)
    (hr : mtdpartctlChrdevIoctl env dev cmd = .ok r) : r.dev.recipe = dev.recipe := by
  cases ioctl_outcome hr with
  | read _ => rfl
  | recipeAdd _ => exact absurd trivial hcmd
  | recipeDel _ => exact absurd trivial hcmd
  | restart => exact absurd trivial hcmd
  | create hcreate =>
    rcases createRecipePartitions_frame hcreate with hdev | ⟨mtd, hdev⟩
    · rw [hdev]
    · rw [hdev]
      rfl
  | delete hdelete =>
    obtain ⟨mtd, hdev⟩ := respawnProxyMtdLocked_frame env.core dev hdelete
    simp only [hdev]
    rfl
  | edit e _ => rfl

/-- An ioctl that failed leaves the recipe alone. -/
theorem ioctl_failed_recipe (h : Reachable dev) (hr : mtdpartctlChrdevIoctl env dev cmd = .ok r)
    (hret : r.ret < 0) : r.dev.recipe = dev.recipe := by
  rcases ioctl_failed h env cmd hr hret with ⟨hdev, -⟩ | ⟨-, -, mtd, hdev, -⟩
  · rw [hdev]
  · rw [hdev]

/-- A part that was added is one more. -/
theorem recipeAddPart_length (h : Reachable dev) {arg : Option ExtMtdPartitionInfo}
    (hr : mtdpartctlChrdevIoctl env dev (.recipeAddPart arg) = .ok r) (hret : 0 ≤ r.ret) :
    r.dev.recipe.partitions.length = dev.recipe.partitions.length + 1 := by
  cases arg with
  | none =>
    obtain rfl := Except.ok.inj hr
    exact absurd hret (not_nonneg_neg .EFAULT)
  | some partition =>
    obtain ⟨r', hadd, hr⟩ := bind_eq_ok hr
    obtain rfl := Except.ok.inj hr
    rcases addRecipePart_cases h.recipeInv partition env.kvzalloc with
      ⟨_, _, heq⟩ | ⟨_, _, heq⟩ | ⟨_, heq⟩ | ⟨_, _, heq⟩
    · rw [heq] at hadd
      obtain rfl := Except.ok.inj hadd
      exact List.length_append
    · rw [heq] at hadd
      obtain rfl := Except.ok.inj hadd
      exact absurd hret (not_nonneg_neg .ENOMEM)
    · rw [heq] at hadd
      obtain rfl := Except.ok.inj hadd
      exact absurd hret (not_nonneg_neg .EINVAL)
    · rw [heq] at hadd
      cases hadd

/-- A part that was deleted is one less. -/
theorem recipeDelPart_length {arg : Option UInt32}
    (hr : mtdpartctlChrdevIoctl env dev (.recipeDelPart arg) = .ok r) (hret : 0 ≤ r.ret) :
    r.dev.recipe.partitions.length + 1 = dev.recipe.partitions.length := by
  cases arg with
  | none =>
    obtain rfl := Except.ok.inj hr
    exact absurd hret (not_nonneg_neg .EFAULT)
  | some idx =>
    obtain rfl := Except.ok.inj hr
    have hdel := delRecipePartLocked_eq dev.recipe idx
    have hret' : 0 ≤ (delRecipePartLocked dev.recipe idx).1 := hret
    show (delRecipePartLocked dev.recipe idx).2.partitions.length + 1 = _
    by_cases hidx : idx.toNat < dev.recipe.partitions.length
    · rw [hdel, if_pos hidx]
      exact List.length_eraseIdx_add_one hidx
    · rw [hdel, if_neg hidx] at hret'
      exact absurd hret' (not_nonneg_neg .ENOENT)

end Ioctl

/-! ### A listing that succeeds -/

section Listing

variable {α β : Type} (entry : α → β) {copyToUser : ℕ → Bool} {partsCount : UInt64}

/-- The loop that succeeds has made the copies it would make if all of them succeeded. -/
theorem copyListToUser.loop_of_nonneg (parts : List α) :
    ∀ (item : ℕ) (tmpIdx : UInt32),
      0 ≤ (copyListToUser.loop entry copyToUser partsCount item tmpIdx parts).1 →
      copyListToUser.loop entry copyToUser partsCount item tmpIdx parts =
        copyListToUser.loop entry (fun _ => true) partsCount item tmpIdx parts := by
  induction parts with
  | nil =>
    intro item tmpIdx _
    rfl
  | cons part rest ih =>
    intro item tmpIdx hret
    rw [copyListToUser.loop] at hret ⊢
    rw [copyListToUser.loop]
    by_cases hcount : partsCount ≤ tmpIdx.toUInt64
    · rw [if_pos hcount, if_pos hcount]
    · rw [if_neg hcount] at hret ⊢
      rw [if_neg hcount]
      cases hcopy : copyToUser item with
      | false =>
        rw [hcopy, if_pos (by decide)] at hret
        exact absurd hret (not_nonneg_neg .EFAULT)
      | true =>
        rw [hcopy, if_neg (by decide)] at hret
        rw [if_neg (by decide), if_neg (by decide), ih (item + 1) (tmpIdx + 1) hret]

theorem copyListToUser_of_nonneg (parts : List α)
    (hret : 0 ≤ (copyListToUser entry copyToUser partsCount parts).1) :
    copyListToUser entry copyToUser partsCount parts =
      copyListToUser entry (fun _ => true) partsCount parts := by
  have hloop := @copyListToUser.loop_of_nonneg α β entry copyToUser partsCount parts 0 0
  unfold copyListToUser at hret ⊢
  by_cases hneg : (copyListToUser.loop entry copyToUser partsCount 0 0 parts).1 < 0
  · simp only [if_pos hneg] at hret
    exact absurd hneg (Int.not_lt.mpr hret)
  · have hsame := hloop (Int.not_lt.mp hneg)
    rw [hsame] at hneg hret ⊢
    simp only [if_neg hneg] at hret ⊢
    split_ifs at hret ⊢ with hlast
    · rfl
    · exact absurd hret (not_nonneg_neg .EFAULT)

/-- The entry in a slot. -/
theorem lookup_slots (parts : List α) : ∀ (slot i : ℕ),
    ((parts.zipIdx slot).map fun x => (x.2, entry x.1)).lookup (slot + i) =
      parts[i]?.map entry := by
  induction parts with
  | nil =>
    intro slot i
    rfl
  | cons part rest ih =>
    intro slot i
    rw [List.zipIdx_cons, List.map_cons, List.lookup_cons]
    cases i with
    | zero => simp
    | succ i =>
      have hne : (slot + (i + 1) == slot) = false := by
        rw [beq_eq_false_iff_ne]
        omega
      rw [hne, ← Nat.add_assoc, Nat.add_right_comm, ih (slot + 1) i, List.getElem?_cons_succ]

end Listing

end Mtdpartikr

namespace Mtdpartikr.Client

variable {ε : Type}

/-! ### What `status` prints -/

/-- The lines of a listing with an entry for every part of a list. -/
theorem statusLines_slots (env : ReplEnv) {parts : List MtdRecipePart}
    (hlen : parts.length ≤ 255) :
    statusLines env (.recipeParts (parts.zipIdx.map fun x => (x.2, listedRecipePart x.1))
        (some (UInt32.ofNat parts.length))) =
      parts.zipIdx.map fun x => partLine x.2 (listedRecipePart x.1) := by
  have hcount : (UInt32.ofNat parts.length).toNat = parts.length := by
    rw [UInt32.toNat_ofNat']
    omega
  unfold statusLines listReadCount
  simp only [hcount]
  refine List.ext_getElem (by simp) fun i hi hi' => ?_
  have hpart : i < parts.length := by
    rw [List.length_map, List.length_range] at hi
    exact hi
  have hlookup := lookup_slots listedRecipePart parts 0 i
  rw [Nat.zero_add, List.getElem?_eq_getElem hpart] at hlookup
  simp only [List.getElem_map, List.getElem_range, List.getElem_zipIdx, listPart, hlookup,
    Option.map_some, Option.getD_some, Nat.zero_add]

/-- **A listing that succeeds is printed as the first 255 parts**, in order. -/
theorem statusLines_eq {env : ReplEnv} {dev : MtdpartctlDevice} {r : IoctlResult}
    (hr : mtdpartctlChrdevIoctl env.toEnv dev (statusIoctl env.toClientEnv) = .ok r)
    (hret : 0 ≤ r.ret) :
    statusLines env r.reply = (dev.recipe.partitions.take 255).zipIdx.map
      fun x => partLine x.2 (listedRecipePart x.1) := by
  unfold statusIoctl at hr
  cases hcopy : env.copyFromUser with
  | false =>
    rw [hcopy] at hr
    obtain rfl := Except.ok.inj hr
    exact absurd hret (not_nonneg_neg .EFAULT)
  | true =>
    rw [hcopy, if_pos rfl] at hr
    cases hflag : dev.proxy.aboutToRespawn with
    | true =>
      simp only [mtdpartctlChrdevIoctl, hflag] at hr
      obtain rfl := Except.ok.inj hr
      exact absurd hret (not_nonneg_neg .EBUSY)
    | false =>
      simp only [mtdpartctlChrdevIoctl, hflag] at hr
      obtain rfl := Except.ok.inj hr
      have hlist : copyRecipePartsListToUser env.copyToUser dev.recipe _ = _ :=
        (copyListToUser_of_nonneg listedRecipePart dev.recipe.partitions hret).trans
          (copyListToUser_eq listedRecipePart (fun _ => rfl) dev.recipe.partitions 255)
      have hlines := statusLines_slots env (List.length_take_le 255 dev.recipe.partitions)
      rw [← hlines]
      show statusLines env (.recipeParts (copyRecipePartsListToUser _ _ _).2.1
        (copyRecipePartsListToUser _ _ _).2.2) = _
      rw [hlist]
      rfl

/-- A line of a listing is not the line for an empty recipe. -/
theorem partLine_ne_emptyTable (idx : ℕ) (info : ExtMtdPartitionInfo) :
    partLine idx info ≠ ascii "Empty table" := by
  intro h
  have hhead : (partLine idx info).head? = some 0x50 := rfl
  rw [h] at hhead
  exact absurd hhead (by decide)

/-- `status` shows the recipe of the device, whatever happens around it. -/
structure StatusFaithful (ε : Type) (repl : Repl) : Prop where
  count : repl.recipePartsCount.toNat = repl.session.dev.recipe.partitions.length
  /-- No part is cut off. -/
  uncut : repl.session.dev.recipe.partitions.length ≤ 255
  empty : ∀ (env : ReplEnv) lines repl',
    (cmdRecipeStatus env [] repl : Except (ReplError ε) (List GoString) × Repl) =
      (.ok lines, repl') →
    (lines = [ascii "Empty table"] ↔ repl.session.dev.recipe.partitions = [])
  /-- One line for every part, in order. -/
  parts : ∀ (env : ReplEnv) lines repl',
    (cmdRecipeStatus env [] repl : Except (ReplError ε) (List GoString) × Repl) =
      (.ok lines, repl') →
    repl.session.dev.recipe.partitions ≠ [] →
    lines = repl.session.dev.recipe.partitions.zipIdx.map
      fun x => partLine x.2 (listedRecipePart x.1)

/-- What a `status` that succeeds prints. -/
theorem cmdRecipeStatus_ok {env : ReplEnv} {repl repl' : Repl} {lines : List GoString}
    (h : (cmdRecipeStatus env [] repl : Except (ReplError ε) (List GoString) × Repl) =
      (.ok lines, repl')) :
    lines = if repl.recipePartsCount = 0 then [ascii "Empty table"]
      else (repl.session.dev.recipe.partitions.take 255).zipIdx.map
        fun x => partLine x.2 (listedRecipePart x.1) := by
  by_cases hcount : repl.recipePartsCount = 0
  · rw [if_pos hcount]
    unfold cmdRecipeStatus at h
    simp only [if_pos hcount] at h
    exact (Except.ok.inj (Prod.mk.inj h).1).symm
  · rw [if_neg hcount]
    rw [cmdRecipeStatus_of_ne_zero hcount] at h
    split_ifs at h
    · cases hioctl : mtdpartctlChrdevIoctl env.toEnv repl.session.dev
          (statusIoctl env.toClientEnv) with
      | error o =>
        rw [hioctl] at h
        cases (Prod.mk.inj h).1
      | ok r =>
        rw [hioctl] at h
        simp only at h
        split_ifs at h with hret
        · cases (Prod.mk.inj h).1
        · rw [← Except.ok.inj (Prod.mk.inj h).1]
          exact statusLines_eq hioctl (Int.not_lt.mp hret)
    · cases (Prod.mk.inj h).1

/-- The counter and the size of the listing are all that matters. -/
theorem statusFaithful_iff (ε : Type) (repl : Repl) :
    StatusFaithful ε repl ↔
      repl.recipePartsCount.toNat = repl.session.dev.recipe.partitions.length ∧
      repl.session.dev.recipe.partitions.length ≤ 255 := by
  constructor
  · exact fun h => ⟨h.count, h.uncut⟩
  · rintro ⟨hcount, huncut⟩
    have hzero := counter_eq_zero_iff hcount
    have htake : repl.session.dev.recipe.partitions.take 255 =
        repl.session.dev.recipe.partitions := List.take_of_length_le huncut
    refine ⟨hcount, huncut, fun env lines repl' h => ?_, fun env lines repl' h hne => ?_⟩
    · have hlines := cmdRecipeStatus_ok h
      rw [htake] at hlines
      by_cases hnil : repl.session.dev.recipe.partitions = []
      · rw [if_pos (hzero.mpr hnil)] at hlines
        exact iff_of_true hlines hnil
      · rw [if_neg fun h0 => hnil (hzero.mp h0)] at hlines
        refine iff_of_false (fun heq => ?_) hnil
        -- The first line would have to be the one for an empty recipe.
        obtain ⟨part, rest, hparts⟩ := List.exists_cons_of_ne_nil hnil
        rw [hlines, hparts, List.zipIdx_cons, List.map_cons] at heq
        exact partLine_ne_emptyTable _ _ (List.cons.inj heq).1
    · have hlines := cmdRecipeStatus_ok h
      rw [htake, if_neg fun h0 => hne (hzero.mp h0)] at hlines
      exact hlines

/-! ### Sessions of the REPL -/

section Session

variable (parseUint : (base bitSize : ℕ) → GoString → Except ε UInt64) (passing : StructPassing)

/-- The ioctl of the command succeeds. -/
def CommandSucceeds (repl : Repl) (e : ReplEnv × Command) : Prop :=
  ∃ call r, Issues e.1 parseUint passing e.2 call ∧
    mtdpartctlChrdevIoctl e.1.toEnv repl.session.dev call = .ok r ∧ 0 ≤ r.ret

/-- An `add_imm` that succeeds. -/
def AddsImmediate (repl : Repl) (e : ReplEnv × Command) : Prop :=
  e.2.name = .addImm ∧ CommandSucceeds parseUint passing repl e

/-- An `add_recipe_part` that succeeds on a recipe that fills the listing. -/
def AddsBeyond (repl : Repl) (e : ReplEnv × Command) : Prop :=
  e.2.name = .addRecipePart ∧ 255 ≤ repl.session.dev.recipe.partitions.length ∧
    CommandSucceeds parseUint passing repl e

variable {parseUint passing}

/-- A step of the REPL is a command that was not killed. -/
theorem commandOutcome_of_step {repl repl' : Repl} {e : ReplEnv × Command}
    (h : (replSystem parseUint passing).step repl e = some repl') :
    ∃ res, CommandOutcome e.1 parseUint passing e.2 repl (res, repl') ∧
      ∀ o, res ≠ .error (.failure (.killed o)) := by
  have hcases : CommandOutcome e.1 parseUint passing e.2 repl
    (Repl.execute e.1 parseUint passing e.2 repl) := execute_cases repl e.2
  unfold replSystem at h
  simp only at h
  split at h
  · cases h
  · rename_i res repl₁ hno heq
    obtain rfl := Option.some.inj h
    rw [heq] at hcases
    exact ⟨res, hcases, hno⟩

/-- A command that returns no error is a step. -/
theorem step_of_execute {env : ReplEnv} {cmd : Command} {repl repl' : Repl}
    {lines : List GoString}
    (h : Repl.execute env parseUint passing cmd repl = (.ok lines, repl')) :
    (replSystem parseUint passing).step repl (env, cmd) = some repl' := by
  unfold replSystem
  simp only [h]

/-- The ioctls of a session keep the device reachable. -/
theorem step_reachable {repl repl' : Repl} {e : ReplEnv × Command}
    (h : Reachable repl.session.dev)
    (hstep : (replSystem parseUint passing).step repl e = some repl') :
    Reachable repl'.session.dev := by
  obtain ⟨res, hcases, hno⟩ := commandOutcome_of_step hstep
  cases hcases with
  | refused _ _ _ => exact h
  | empty _ _ => exact h
  | killed _ _ => exact absurd rfl (hno _)
  | failed _ hioctl _ => exact h.ioctl hioctl
  | succeeded _ _ hioctl _ => exact h.ioctl hioctl

/-- A command that fails has no ioctl that succeeds. -/
theorem not_commandSucceeds {repl : Repl} {e : ReplEnv × Command} {call : Ioctl} {r : IoctlResult}
    (hissue : Issues e.1 parseUint passing e.2 call)
    (hioctl : mtdpartctlChrdevIoctl e.1.toEnv repl.session.dev call = .ok r) (hret : r.ret < 0) :
    ¬ CommandSucceeds parseUint passing repl e := by
  rintro ⟨call', r', hissue', hioctl', hret'⟩
  rw [← hissue.unique hissue', hioctl] at hioctl'
  rw [← Except.ok.inj hioctl'] at hret'
  exact absurd hret (Int.not_lt.mpr hret')

/-- A command that succeeds keeps the counter on the recipe unless it adds a partition at once. -/
theorem count_of_succeeds {repl : Repl} {e : ReplEnv × Command} {call : Ioctl} {r : IoctlResult}
    (h : Reachable repl.session.dev)
    (hcount : repl.recipePartsCount.toNat = repl.session.dev.recipe.partitions.length)
    (huncut : repl.session.dev.recipe.partitions.length ≤ 255)
    (hissue : Issues e.1 parseUint passing e.2 call)
    (hioctl : mtdpartctlChrdevIoctl e.1.toEnv repl.session.dev call = .ok r) (hret : 0 ≤ r.ret) :
    ((e.2.name.count repl.recipePartsCount).toNat = r.dev.recipe.partitions.length ∧
      r.dev.recipe.partitions.length ≤ 255) ↔
    e.2.name ≠ .addImm ∧
      ¬ (e.2.name = .addRecipePart ∧ 255 ≤ repl.session.dev.recipe.partitions.length) := by
  obtain ⟨env, cmd⟩ := e
  -- One more still fits the counter.
  have hsucc : (repl.recipePartsCount + 1).toNat = repl.recipePartsCount.toNat + 1 :=
    toNat_add_of_lt (by rw [hcount]; exact Nat.lt_of_le_of_lt (Nat.succ_le_succ huncut) (by decide))
  -- The commands that leave recipe and counter alone.
  have hsame : ∀ {name : CommandName}, ¬ call.EditsRecipe →
      name.count repl.recipePartsCount = repl.recipePartsCount →
      (name.count repl.recipePartsCount).toNat = r.dev.recipe.partitions.length ∧
        r.dev.recipe.partitions.length ≤ 255 := by
    intro name hcall hname
    rw [hname, ioctl_recipe_eq hcall hioctl]
    exact ⟨hcount, huncut⟩
  cases hissue with
  | addImm hoff hlen =>
    refine iff_of_false (fun hgood => ?_) fun hgood => hgood.1 rfl
    have hrecipe : r.dev.recipe = repl.session.dev.recipe := ioctl_recipe_eq id hioctl
    have hcounted : (repl.recipePartsCount + 1).toNat = r.dev.recipe.partitions.length := hgood.1
    rw [hsucc, hcount, hrecipe] at hcounted
    omega
  | addRecipePart hrow | addWritablePart hrow =>
    have hlen := recipeAddPart_length h hioctl hret
    have hcounted : (repl.recipePartsCount + 1).toNat = r.dev.recipe.partitions.length := by
      rw [hsucc, hcount, hlen]
    constructor
    · rintro ⟨-, hle⟩
      refine ⟨nofun, fun hfull => ?_⟩
      omega
    · rintro ⟨-, hroom⟩
      refine ⟨hcounted, ?_⟩
      have hlt := Nat.not_le.mp fun hle => hroom ⟨rfl, hle⟩
      omega
  | delRecipePart hidx =>
    have hlen := recipeDelPart_length hioctl hret
    have hone : (1 : UInt64) ≤ repl.recipePartsCount := by
      rw [UInt64.le_iff_toNat_le, hcount, UInt64.toNat_one]
      omega
    have hcounted : (repl.recipePartsCount - 1).toNat = r.dev.recipe.partitions.length := by
      rw [UInt64.toNat_sub_of_le _ _ hone, hcount, UInt64.toNat_one]
      omega
    refine iff_of_true ⟨hcounted, by omega⟩ ⟨nofun, fun h => nomatch h.1⟩
  | delete _ | deleteAll | dispatchRecipe | status _ =>
    exact iff_of_true (hsame id rfl) ⟨nofun, fun h => nomatch h.1⟩
  | reset =>
    obtain rfl := Except.ok.inj hioctl
    exact iff_of_true ⟨rfl, Nat.zero_le _⟩ ⟨nofun, fun h => nomatch h.1⟩

/-- **What a command does to `status`.** -/
theorem step_statusFaithful_iff {repl repl' : Repl} {e : ReplEnv × Command}
    (hreach : Reachable repl.session.dev) (h : StatusFaithful ε repl)
    (hstep : (replSystem parseUint passing).step repl e = some repl') :
    StatusFaithful ε repl' ↔
      ¬ AddsImmediate parseUint passing repl e ∧ ¬ AddsBeyond parseUint passing repl e := by
  obtain ⟨res, hcases, hno⟩ := commandOutcome_of_step hstep
  cases hcases with
  | refused _ _ hissue =>
    exact iff_of_true h ⟨fun ⟨_, call, _, hcall, _⟩ => hissue call hcall,
      fun ⟨_, _, call, _, hcall, _⟩ => hissue call hcall⟩
  | empty hname _ =>
    exact iff_of_true h ⟨fun himm => (nomatch hname.symm.trans himm.1),
      fun hadd => (nomatch hname.symm.trans hadd.1)⟩
  | killed _ _ => exact absurd rfl (hno _)
  | failed hissue hioctl hret =>
    have hfail := not_commandSucceeds hissue hioctl hret
    refine iff_of_true ?_ ⟨fun himm => hfail himm.2, fun hadd => hfail hadd.2.2⟩
    rw [statusFaithful_iff]
    show _ = List.length (IoctlResult.dev _).recipe.partitions ∧
      List.length (IoctlResult.dev _).recipe.partitions ≤ 255
    rw [ioctl_failed_recipe hreach hioctl hret]
    exact ⟨h.count, h.uncut⟩
  | succeeded lines hissue hioctl hret =>
    have hsucceeds : CommandSucceeds parseUint passing repl e := ⟨_, _, hissue, hioctl, hret⟩
    rw [statusFaithful_iff]
    refine (count_of_succeeds hreach h.count h.uncut hissue hioctl hret).trans ?_
    constructor
    · rintro ⟨himm, hadd⟩
      exact ⟨fun h => himm h.1, fun h => hadd ⟨h.1, h.2.1⟩⟩
    · rintro ⟨himm, hadd⟩
      exact ⟨fun h => himm ⟨h, hsucceeds⟩, fun h => hadd ⟨h.1, h.2, hsucceeds⟩⟩

/-- A session starts with a recipe it shows. -/
theorem init_statusFaithful {repl : Repl} (h : (replSystem parseUint passing).init repl) :
    Reachable repl.session.dev ∧ StatusFaithful ε repl := by
  obtain ⟨dev, hreach, hclosed, rfl⟩ := h
  have hopen : mtdpartctlChrdevOpen dev =
      (0, { dev with alreadyOpen := true, recipe := restartRecipe dev.recipe }) := by
    unfold mtdpartctlChrdevOpen
    rw [hclosed]
    rfl
  constructor
  · have hstep : deviceSystem.step dev (.succeeding, .open) =
        some (mtdpartctlChrdevOpen dev).2 := rfl
    exact hreach.step trivial hstep
  · rw [statusFaithful_iff, hopen]
    exact ⟨rfl, Nat.zero_le _⟩

/-- **When `status` shows the recipe in a whole session**: when no `add_imm` succeeds, and no
`add_recipe_part` on a recipe of 255 parts. -/
theorem recipeStatus_iff (parseUint : (base bitSize : ℕ) → GoString → Except ε UInt64)
    (passing : StructPassing) {repl : Repl} (hinit : (replSystem parseUint passing).init repl)
    (es : List (ReplEnv × Command)) :
    (∀ r ∈ (replSystem parseUint passing).visited repl es, StatusFaithful ε r) ↔
      ∀ x ∈ (replSystem parseUint passing).taken repl es,
        ¬ AddsImmediate parseUint passing x.1 x.2 ∧ ¬ AddsBeyond parseUint passing x.1 x.2 := by
  obtain ⟨hreach, hfaithful⟩ := init_statusFaithful hinit
  refine TransitionSystem.forall_visited_iff (I := fun repl => Reachable repl.session.dev)
    (P := StatusFaithful ε)
    (A := fun repl e =>
      ¬ AddsImmediate parseUint passing repl e ∧ ¬ AddsBeyond parseUint passing repl e)
    ?_ ?_ es repl hreach hfaithful
  · exact fun _ _ _ hreach hstep => step_reachable hreach hstep
  · exact fun _ _ _ hreach hfaithful hstep => step_statusFaithful_iff hreach hfaithful hstep

end Session

/-- `strconv.ParseUint` on the arguments of `oneRow`, in any base. -/
def parseArgs (_base _bitSize : ℕ) : GoString → Except Unit UInt64 := parseTwo

theorem init_openDevice (passing : StructPassing) :
    (replSystem parseArgs passing).init (.new openDevice) :=
  ⟨.create ⟨0, 0x1000, 0x1000⟩ 1, .init (MtdpartctlDevice.created_create _ _), rfl, rfl⟩

/-- The command line of `oneRow`. -/
def addOneRow : Command := ⟨.addRecipePart, [ascii "0", ascii "0x1000", ascii "boot", ascii "ro"]⟩

/-- A session that adds one part. -/
theorem recipeStatus_iff_oneRow :
    (replSystem parseArgs .onStack).init (.new openDevice) ∧
      ∀ r ∈ (replSystem parseArgs .onStack).visited (.new openDevice) [(.succeeding, addOneRow)],
        StatusFaithful Unit r := by
  refine ⟨init_openDevice .onStack, ?_⟩
  refine (recipeStatus_iff parseArgs .onStack (init_openDevice .onStack) _).mpr fun x hx => ?_
  have hx' : x = (.new openDevice, (.succeeding, addOneRow)) := by
    rw [TransitionSystem.taken] at hx
    split at hx
    · exact List.mem_singleton.mp hx
    · cases hx
  subst hx'
  constructor
  · intro himm
    cases himm.1
  · intro hadd
    exact absurd hadd.2.1 (by decide)

/-- An empty recipe behind a counter that is not zero is a listing without lines. -/
theorem cmdRecipeStatus_empty {repl : Repl} (hcount : repl.recipePartsCount ≠ 0)
    (hflag : repl.session.dev.proxy.aboutToRespawn = false)
    (hrecipe : repl.session.dev.recipe.partitions = []) :
    (cmdRecipeStatus .succeeding [] repl :
      Except (ReplError ε) (List GoString) × Repl).1 = .ok [] := by
  have hroom : repl.session.dev.recipe.partitions.length ≤ (255 : UInt32).toNat := by
    rw [hrecipe]
    exact Nat.zero_le _
  have hlist := copyRecipePartsListToUser_eq (fun _ => rfl) hroom
  rw [hrecipe] at hlist
  have hioctl : mtdpartctlChrdevIoctl .succeeding repl.session.dev
      (.listRecipeParts (some 255)) =
      .ok ⟨0, repl.session.dev, [], .recipeParts [] (some 0)⟩ := by
    simp only [mtdpartctlChrdevIoctl, hflag, Env.succeeding, hlist]
    rfl
  rw [cmdRecipeStatus_of_ne_zero hcount, if_pos (show ReplEnv.succeeding.malloc = true from rfl)]
  have hstatus : mtdpartctlChrdevIoctl ReplEnv.succeeding.toEnv repl.session.dev
    (statusIoctl ReplEnv.succeeding.toClientEnv) = _ := hioctl
  rw [hstatus]
  rfl

/-- The command line that adds the partition of `oneRow` at once. -/
def addImmOneRow : Command := ⟨.addImm, [ascii "0", ascii "0x1000", ascii "boot"]⟩

/-- It is counted as a part of the recipe. -/
theorem step_addImmOneRow :
    ∃ r, (replSystem parseArgs .byReference).step (.new openDevice)
        (.succeeding, addImmOneRow) = some r ∧ r.recipePartsCount = 1 ∧
      r.session.dev.recipe.partitions = [] ∧ r.session.dev.proxy.aboutToRespawn = false := by
  have hcall : goMtdpartctlAddNewPartition .byReference .zeroWord 0 0x1000 (ascii "boot") =
      .addMtdPartition (some ⟨0, 0x1000, cutName (ascii "boot")⟩) :=
    (goMtdpartctlAddNewPartition_eq_iff _ _ _ _ _).mpr (wordPointsToStructure_byReference _ _ _ _)
  obtain ⟨result, hioctl, hret, hrecipe, hflag⟩ : ∃ result,
      mtdpartctlChrdevIoctl .succeeding openDevice
        (.addMtdPartition (some ⟨0, 0x1000, cutName (ascii "boot")⟩)) = .ok result ∧
      result.ret = 0 ∧ result.dev.recipe.partitions = [] ∧
      result.dev.proxy.aboutToRespawn = false := ⟨_, rfl, rfl, rfl, rfl⟩
  rw [← hcall] at hioctl
  have hissue : Issues .succeeding parseArgs .byReference addImmOneRow
      (goMtdpartctlAddNewPartition .byReference .zeroWord 0 0x1000 (ascii "boot")) :=
    .addImm (by decide) (by decide)
  obtain ⟨lines, hexec⟩ := execute_of_issues (.new openDevice) (by decide) hissue hioctl
    (Int.le_of_eq hret.symm)
  exact ⟨_, step_of_execute hexec, rfl, hrecipe, hflag⟩

/-- The recipe is empty, and `status` prints no line at all. -/
theorem recipeStatus_addImm :
    (replSystem parseArgs .byReference).init (.new openDevice) ∧
      ∃ r ∈ (replSystem parseArgs .byReference).visited (.new openDevice)
          [(.succeeding, addImmOneRow)],
        r.session.dev.recipe.partitions = [] ∧
        (cmdRecipeStatus .succeeding [] r :
          Except (ReplError Unit) (List GoString) × Repl).1 = .ok [] ∧
        ¬ StatusFaithful Unit r := by
  obtain ⟨r, hstep, hcount, hrecipe, hflag⟩ := step_addImmOneRow
  refine ⟨init_openDevice .byReference, r, ?_, hrecipe, ?_, fun h => ?_⟩
  · rw [TransitionSystem.visited, hstep]
    exact List.mem_cons_of_mem _ List.mem_cons_self
  · exact cmdRecipeStatus_empty (by rw [hcount]; decide) hflag hrecipe
  · have hlen := h.count
    rw [hcount, hrecipe] at hlen
    exact absurd hlen (by decide)

end Mtdpartikr.Client
