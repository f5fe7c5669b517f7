import Mtdpartikr.Kernel.Equiv.LiveTable
import Mtdpartikr.Kernel.Equiv.Minors
import Mtdpartikr.Kernel.OpenFiles

/-!
# The devices of a class do not disturb each other

* `classRun_devices`: in any run of the class, each device goes through a run of its own, and its
  calls are those of the files that are open on it.
* `classRun_open`: a file is the only one on its device, and an open is answered by what is open.
* `classRun_apart`: the live partitions of all devices together share no byte of flash.
-/

namespace Mtdpartikr

/-! ### The calls of one device -/

/-- The device a call is for, and what it is asked to do. -/
def ClassState.target (st : ClassState) : FileCall → Option (ℕ × DevCall)
  | .open rdev => some ((devMinor rdev).toNat, .open)
  | .ioctl file cmd => (st.privateData file).map (·, .ioctl cmd)
  | .release file => (st.privateData file).map (·, .release)
  | .getDevice k => some (k, .getDevice)
  | .putDevice k => some (k, .putDevice)

/-- What a call is for the `k`-th device. -/
def ClassState.forDevice (k : ℕ) (st : ClassState) (e : Env × FileCall) : Option (Env × DevCall) :=
  (st.target e.2).bind fun x => if x.1 = k then some (e.1, x.2) else none

/-- The calls of a run that are for the `k`-th device. -/
def callsTo (k : ℕ) (st : ClassState) (es : List (Env × FileCall)) : List (Env × DevCall) :=
  (classSystem.taken st es).filterMap fun x => x.1.forDevice k x.2

/-- The devices after a call of one of them. -/
inductive DevsAfter (env : Env) (st : ClassState) (k : ℕ) (call : DevCall) :
    List MtdpartctlDevice → Prop
  | absent : st.devs[k]? = none → DevsAfter env st k call st.devs
  | called {dev dev' : MtdpartctlDevice} {ret : Int} : st.devs[k]? = some dev →
      deviceCall env dev call = .ok (ret, dev') → DevsAfter env st k call (st.devs.set k dev')

theorem onDevice_cases {env : Env} {st st' : ClassState} {k : ℕ} {call : DevCall} {ret : Int}
    (h : st.onDevice env k call = .ok (ret, st')) :
    DevsAfter env st k call st'.devs ∧ st'.files = st.files := by
  unfold ClassState.onDevice at h
  cases hdev : st.devs[k]? with
  | none =>
    rw [hdev] at h
    obtain rfl := (Prod.mk.inj (Except.ok.inj h)).2
    exact ⟨.absent hdev, rfl⟩
  | some dev =>
    rw [hdev] at h
    obtain ⟨r, hcall, h⟩ := bind_eq_ok h
    obtain rfl := (Prod.mk.inj (Except.ok.inj h)).2
    exact ⟨.called hdev hcall, rfl⟩

/-- How an open ends. -/
inductive OpenAnswer (st : ClassState) (minor : ℕ) : Int × ClassState → Prop
  | noDevice : st.devs.length ≤ minor → OpenAnswer st minor (neg .ENODEV, st)
  | busy {dev : MtdpartctlDevice} : st.devs[minor]? = some dev → dev.alreadyOpen = true →
      OpenAnswer st minor (neg .EBUSY, st)
  | opened {dev : MtdpartctlDevice} : st.devs[minor]? = some dev → dev.alreadyOpen = false →
      OpenAnswer st minor
        (0, ⟨st.devs.set minor { dev with alreadyOpen := true, recipe := ⟨[], 0⟩ },
          st.files ++ [some minor]⟩)

theorem chrdevOpen_busy {dev : MtdpartctlDevice} (h : dev.alreadyOpen = true) :
    mtdpartctlChrdevOpen dev = (neg .EBUSY, dev) :=
  if_pos h

theorem chrdevOpen_free {dev : MtdpartctlDevice} (h : dev.alreadyOpen = false) :
    mtdpartctlChrdevOpen dev = (0, { dev with alreadyOpen := true, recipe := ⟨[], 0⟩ }) :=
  if_neg (by simp [h])

theorem openNode_cases (st : ClassState) (rdev : DevT) :
    OpenAnswer st (devMinor rdev).toNat (mtdpartctlChrdevOpenNode st rdev) := by
  unfold mtdpartctlChrdevOpenNode ClassState.resolveByMinor
  cases hdev : st.devs[(devMinor rdev).toNat]? with
  | none =>
    simp only [hdev]
    exact .noDevice (List.getElem?_eq_none_iff.mp hdev)
  | some dev =>
    simp only [hdev]
    cases hopen : dev.alreadyOpen with
    | true =>
      rw [chrdevOpen_busy hopen]
      exact .busy hdev hopen
    | false =>
      rw [chrdevOpen_free hopen]
      exact .opened hdev hopen

/-- What a call does to the devices. -/
theorem classCall_devs {env : Env} {st st' : ClassState} {call : FileCall} {ret : Int}
    (h : classCall env st call = .ok (ret, st')) :
    (st.target call = none ∧ st'.devs = st.devs) ∨
      ∃ k devCall, st.target call = some (k, devCall) ∧ DevsAfter env st k devCall st'.devs := by
  cases call with
  | «open» rdev =>
    refine Or.inr ⟨_, _, rfl, ?_⟩
    have hopen := openNode_cases st rdev
    rw [Except.ok.inj h] at hopen
    cases hopen with
    -- `ENODEV` before any device is looked at.
    | noDevice hle => exact .absent (List.getElem?_eq_none_iff.mpr hle)
    | @busy dev hdev hbusy =>
      have hcall : deviceCall env dev .open = .ok (neg .EBUSY, dev) :=
        congrArg Except.ok (chrdevOpen_busy hbusy)
      -- The device answers `EBUSY` and is put back as it was.
      have hset := DevsAfter.called hdev hcall
      obtain ⟨hlt, rfl⟩ := List.getElem?_eq_some_iff.mp hdev
      rwa [List.set_getElem_self] at hset
    | opened hdev hfree => exact .called hdev (congrArg Except.ok (chrdevOpen_free hfree))
  | ioctl file cmd =>
    simp only [classCall, ClassState.target] at h ⊢
    cases hfile : st.privateData file with
    | none =>
      rw [hfile] at h
      obtain rfl := (Prod.mk.inj (Except.ok.inj h)).2
      exact Or.inl ⟨rfl, rfl⟩
    | some k =>
      rw [hfile] at h
      exact Or.inr ⟨k, _, rfl, (onDevice_cases h).1⟩
  | release file =>
    simp only [classCall, ClassState.target] at h ⊢
    cases hfile : st.privateData file with
    | none =>
      rw [hfile] at h
      obtain rfl := (Prod.mk.inj (Except.ok.inj h)).2
      exact Or.inl ⟨rfl, rfl⟩
    | some k =>
      rw [hfile] at h
      obtain ⟨r, hcall, h⟩ := bind_eq_ok h
      obtain rfl := (Prod.mk.inj (Except.ok.inj h)).2
      exact Or.inr ⟨k, _, rfl, (onDevice_cases hcall).1⟩
  | getDevice k => exact Or.inr ⟨k, _, rfl, (onDevice_cases h).1⟩
  | putDevice k => exact Or.inr ⟨k, _, rfl, (onDevice_cases h).1⟩

/-- Only the device that is called changes, by the call. -/
theorem DevsAfter.getElem? {env : Env} {st : ClassState} {k m : ℕ} {call : DevCall}
    {devs : List MtdpartctlDevice} {dev : MtdpartctlDevice} (h : DevsAfter env st k call devs)
    (hdev : st.devs[m]? = some dev) :
    ∃ dev', devs[m]? = some dev' ∧
      deviceSystem.run dev (if k = m then [(env, call)] else []) = some dev' := by
  by_cases hkm : k = m
  · subst hkm
    rw [if_pos rfl]
    cases h with
    | absent hnone =>
      rw [hnone] at hdev
      cases hdev
    | @called dev₁ dev' ret hdev₁ hcall =>
      obtain rfl := Option.some.inj (hdev₁.symm.trans hdev)
      have hlt := (List.getElem?_eq_some_iff.mp hdev).1
      refine ⟨dev', List.getElem?_set_self hlt, ?_⟩
      simp only [TransitionSystem.run, deviceSystem, hcall, Option.bind_some]
  · rw [if_neg hkm]
    refine ⟨dev, ?_, rfl⟩
    cases h with
    | absent => exact hdev
    | called => rwa [List.getElem?_set_ne hkm]

theorem classCall_of_step {st st' : ClassState} {e : Env × FileCall}
    (h : classSystem.step st e = some st') : ∃ ret, classCall e.1 st e.2 = .ok (ret, st') := by
  unfold classSystem at h
  simp only at h
  cases hcall : classCall e.1 st e.2 with
  | error o => rw [hcall] at h; cases h
  | ok r =>
    rw [hcall] at h
    exact ⟨r.1, by rw [← Option.some.inj h]⟩

/-- A call of the class is one of the device it is for, and none of the others. -/
theorem classStep_forDevice {k : ℕ} {st st' : ClassState} {e : Env × FileCall}
    {dev : MtdpartctlDevice} (hstep : classSystem.step st e = some st')
    (hdev : st.devs[k]? = some dev) :
    ∃ dev', st'.devs[k]? = some dev' ∧
      deviceSystem.run dev (st.forDevice k e).toList = some dev' := by
  obtain ⟨ret, hcall⟩ := classCall_of_step hstep
  unfold ClassState.forDevice
  rcases classCall_devs hcall with ⟨htarget, hdevs⟩ | ⟨k', call, htarget, hdevs⟩
  · rw [htarget, hdevs]
    exact ⟨dev, hdev, rfl⟩
  · obtain ⟨dev', hdev', hrun⟩ := hdevs.getElem? hdev
    refine ⟨dev', hdev', ?_⟩
    rw [htarget, ← hrun, Option.bind_some]
    -- The call is this device's or another one's.
    split_ifs <;> rfl

theorem classRun_component {st st' : ClassState} {es : List (Env × FileCall)}
    (hrun : classSystem.run st es = some st') {k : ℕ} {dev : MtdpartctlDevice}
    (hdev : st.devs[k]? = some dev) :
    ∃ dev', st'.devs[k]? = some dev' ∧ deviceSystem.run dev (callsTo k st es) = some dev' :=
  TransitionSystem.run_component (fun st : ClassState => st.devs[k]?)
    (fun _ _ _ _ hstep hdev => classStep_forDevice hstep hdev) es hrun hdev

theorem classStep_length {n : ℕ} {st st' : ClassState} {e : Env × FileCall}
    (hlen : st.devs.length = n) (hstep : classSystem.step st e = some st') :
    st'.devs.length = n := by
  obtain ⟨ret, hcall⟩ := classCall_of_step hstep
  rcases classCall_devs hcall with ⟨-, hdevs⟩ | ⟨k, call, -, hdevs⟩
  · rw [hdevs, hlen]
  · rw [← hlen]
    generalize st'.devs = devs at hdevs ⊢
    cases hdevs with
    | absent => rfl
    | called => exact List.length_set

theorem classRun_length {n : ℕ} {st st' : ClassState} {es : List (Env × FileCall)}
    (hlen : st.devs.length = n) (hrun : classSystem.run st es = some st') :
    st'.devs.length = n :=
  TransitionSystem.run_invariant (P := fun st => st.devs.length = n) (A := fun _ => True)
    (fun _ _ _ hlen _ hstep => classStep_length hlen hstep) es hlen (fun _ _ => trivial) hrun

/-- **Devices do not disturb each other.**  What becomes of a device depends on the calls that are
for it alone, in whatever order they come among those for the other devices. -/
theorem classRun_independent {st st₁ st₂ : ClassState} {es₁ es₂ : List (Env × FileCall)}
    (hrun₁ : classSystem.run st es₁ = some st₁) (hrun₂ : classSystem.run st es₂ = some st₂)
    {k : ℕ} (hcalls : callsTo k st es₁ = callsTo k st es₂) : st₁.devs[k]? = st₂.devs[k]? := by
  cases hdev : st.devs[k]? with
  -- A device that is not there at the start is never there.
  | none =>
    rw [List.getElem?_eq_none_iff] at hdev
    rw [List.getElem?_eq_none ((classRun_length rfl hrun₁).trans_le hdev),
      List.getElem?_eq_none ((classRun_length rfl hrun₂).trans_le hdev)]
  | some dev =>
    obtain ⟨dev₁, hdev₁, hdevRun₁⟩ := classRun_component hrun₁ hdev
    obtain ⟨dev₂, hdev₂, hdevRun₂⟩ := classRun_component hrun₂ hdev
    rw [hcalls, hdevRun₂] at hdevRun₁
    rw [hdev₁, hdev₂, Option.some.inj hdevRun₁]

/-- Two devices of one erase block each. -/
def twoDevices : ClassState :=
  ⟨[.create ⟨0, 0x1000, 0x1000⟩ 2, .create ⟨1, 0x1000, 0x1000⟩ 3], []⟩

/-- Whether or not the first of them is opened, the second one stays what it is. -/
theorem classRun_independent_twoDevices : ∃ st₁ st₂,
    classSystem.run twoDevices [(.keeping, .open (mkdev 240 0)), (.keeping, .open (mkdev 240 1))] =
      some st₁ ∧
    classSystem.run twoDevices [(.keeping, .open (mkdev 240 1))] = some st₂ ∧
    st₁.devs[1]? = st₂.devs[1]? := by
  obtain ⟨st₁, hrun₁⟩ : ∃ st₁, classSystem.run twoDevices
      [(.keeping, .open (mkdev 240 0)), (.keeping, .open (mkdev 240 1))] = some st₁ := ⟨_, rfl⟩
  obtain ⟨st₂, hrun₂⟩ : ∃ st₂, classSystem.run twoDevices
      [(.keeping, .open (mkdev 240 1))] = some st₂ := ⟨_, rfl⟩
  exact ⟨st₁, st₂, hrun₁, hrun₂, classRun_independent hrun₁ hrun₂ rfl⟩

/-! ### One file for one device -/

/-- Whether a device is marked as open. -/
def ClassState.marked (st : ClassState) (k : ℕ) : Bool := st.devs[k]?.any (·.alreadyOpen)

/-- The files that are open, and the marks on their devices. -/
structure FilesInv (st : ClassState) : Prop where
  exclusive : ∀ {file file' k : ℕ}, st.privateData file = some k →
    st.privateData file' = some k → file = file'
  marked_iff : ∀ k, st.marked k = true ↔ ∃ file, st.privateData file = some k

/-- A call on a file or from the MTD core leaves the mark. -/
theorem deviceCall_alreadyOpen {env : Env} {dev dev' : MtdpartctlDevice} {call : DevCall}
    {ret : Int} (hopen : call ≠ .open) (hrelease : call ≠ .release)
    (h : deviceCall env dev call = .ok (ret, dev')) : dev'.alreadyOpen = dev.alreadyOpen := by
  cases call with
  | «open» => exact absurd rfl hopen
  | release => exact absurd rfl hrelease
  | ioctl cmd =>
    obtain ⟨r, hioctl, h⟩ := bind_eq_ok h
    obtain rfl := (Prod.mk.inj (Except.ok.inj h)).2
    -- No ioctl writes the mark: each changes the recipe or the proxy only.
    cases ioctl_outcome hioctl with
    | read | restart | edit => rfl
    | recipeAdd hadd =>
      obtain ⟨recipe, hdev⟩ := addRecipePart_frame hadd
      simp only [hdev]
    | recipeDel idx => rfl
    | create hcreate =>
      rcases createRecipePartitions_frame hcreate with hdev | ⟨mtd, hdev⟩
      · simp only [hdev]
      · simp only [hdev]
        rfl
    | delete hdelete =>
      obtain ⟨mtd, hmtd⟩ := respawnProxyMtdLocked_frame env.core dev hdelete
      simp only [hmtd]
      rfl
  | getDevice =>
    obtain rfl := (Prod.mk.inj (Except.ok.inj h)).2
    rfl
  | putDevice =>
    obtain ⟨proxy, -, h⟩ := bind_eq_ok h
    obtain rfl := (Prod.mk.inj (Except.ok.inj h)).2
    rfl

theorem marked_set {devs : List MtdpartctlDevice} {files : List (Option ℕ)} {k : ℕ}
    {dev : MtdpartctlDevice} (hk : k < devs.length) (m : ℕ) :
    ClassState.marked ⟨devs.set k dev, files⟩ m =
      if m = k then dev.alreadyOpen else ClassState.marked ⟨devs, files⟩ m := by
  unfold ClassState.marked
  by_cases hm : m = k
  · subst hm
    simp only [List.getElem?_set_self hk, if_true, Option.any_some]
  · simp only [List.getElem?_set_ne (Ne.symm hm), if_neg hm]

theorem DevsAfter.marked {env : Env} {st : ClassState} {k : ℕ} {call : DevCall}
    {devs : List MtdpartctlDevice} {files : List (Option ℕ)} (h : DevsAfter env st k call devs)
    (hopen : call ≠ .open) (hrelease : call ≠ .release) (m : ℕ) :
    ClassState.marked ⟨devs, files⟩ m = st.marked m := by
  cases h with
  | absent => rfl
  | @called dev dev' ret hdev hcall =>
    rw [marked_set (List.getElem?_eq_some_iff.mp hdev).1]
    split_ifs with hm
    · subst hm
      rw [deviceCall_alreadyOpen hopen hrelease hcall, ClassState.marked, hdev, Option.any_some]
    · rfl

theorem privateData_concat (devs : List MtdpartctlDevice) (st : ClassState) (k file m : ℕ) :
    ClassState.privateData ⟨devs, st.files ++ [some k]⟩ file = some m ↔
      st.privateData file = some m ∨ file = st.files.length ∧ m = k := by
  unfold ClassState.privateData
  -- An old file, the new one, or none.
  rcases lt_trichotomy file st.files.length with hlt | heq | hgt
  · rw [List.getElem?_append_left hlt]
    exact ⟨Or.inl, fun h => h.resolve_right fun h' => hlt.ne h'.1⟩
  · subst heq
    have hnone : st.files[st.files.length]? = none := List.getElem?_eq_none le_rfl
    simp only [List.getElem?_concat_length, hnone, Option.join_some, Option.join_none,
      Option.some.injEq, reduceCtorEq, false_or, true_and, eq_comm]
  · have hnone : st.files[file]? = none := List.getElem?_eq_none hgt.le
    have hnone' : (st.files ++ [some k])[file]? = none := by
      rw [List.getElem?_eq_none_iff, List.length_append, List.length_singleton]
      omega
    rw [hnone, hnone']
    exact ⟨Or.inl, fun h => h.resolve_right fun h' => hgt.ne' h'.1⟩

theorem privateData_set_none (devs : List MtdpartctlDevice) (st : ClassState)
    (released file m : ℕ) :
    ClassState.privateData ⟨devs, st.files.set released none⟩ file = some m ↔
      file ≠ released ∧ st.privateData file = some m := by
  unfold ClassState.privateData
  by_cases hfile : file = released
  · subst hfile
    have hjoin : ((st.files.set file none)[file]?).join = none := by
      rw [List.getElem?_set_self']
      cases st.files[file]? <;> rfl
    rw [hjoin]
    exact iff_of_false (fun h => by cases h) fun h => h.1 rfl
  · rw [List.getElem?_set_ne (Ne.symm hfile)]
    exact (and_iff_right hfile).symm

/-- Calls that leave files and marks alone. -/
theorem FilesInv.congr {st st' : ClassState} (hinv : FilesInv st) (hfiles : st'.files = st.files)
    (hmarked : ∀ m, st'.marked m = st.marked m) : FilesInv st' := by
  have hdata : ∀ file, st'.privateData file = st.privateData file := fun file => by
    unfold ClassState.privateData
    rw [hfiles]
  refine ⟨fun {file file' k} h h' => ?_, fun k => ?_⟩
  · rw [hdata] at h h'
    exact hinv.exclusive h h'
  · simp only [hmarked, hdata]
    exact hinv.marked_iff k

/-- The answer to an open, by the files that are open. -/
inductive OpenAnswered (st : ClassState) (minor : ℕ) : Int × ClassState → Prop
  | noDevice : st.devs.length ≤ minor → OpenAnswered st minor (neg .ENODEV, st)
  | busy {file : ℕ} : st.privateData file = some minor → OpenAnswered st minor (neg .EBUSY, st)
  | opened {dev : MtdpartctlDevice} : st.devs[minor]? = some dev →
      (∀ file, st.privateData file ≠ some minor) →
      OpenAnswered st minor
        (0, ⟨st.devs.set minor { dev with alreadyOpen := true, recipe := ⟨[], 0⟩ },
          st.files ++ [some minor]⟩)

theorem FilesInv.openAnswered {st : ClassState} (hinv : FilesInv st) (rdev : DevT) :
    OpenAnswered st (devMinor rdev).toNat (mtdpartctlChrdevOpenNode st rdev) := by
  have hanswer := openNode_cases st rdev
  generalize mtdpartctlChrdevOpenNode st rdev = answer at hanswer
  cases hanswer with
  | noDevice hle => exact .noDevice hle
  | busy hdev hbusy =>
    obtain ⟨file, hfile⟩ := (hinv.marked_iff (devMinor rdev).toNat).mp (by
      rw [ClassState.marked, hdev, Option.any_some, hbusy])
    exact .busy hfile
  | opened hdev hfree =>
    refine .opened hdev fun file hfile => ?_
    have hmarked := (hinv.marked_iff _).mpr ⟨file, hfile⟩
    rw [ClassState.marked, hdev, Option.any_some, hfree] at hmarked
    cases hmarked

theorem FilesInv.openNode {st : ClassState} (hinv : FilesInv st) (rdev : DevT) :
    FilesInv (mtdpartctlChrdevOpenNode st rdev).2 := by
  have hanswer := hinv.openAnswered rdev
  generalize mtdpartctlChrdevOpenNode st rdev = answer at hanswer
  cases hanswer with
  | noDevice => exact hinv
  | busy => exact hinv
  | opened hdev hnobody =>
    refine ⟨fun {file file' k} h h' => ?_, fun k => ?_⟩
    · -- Nobody had the device, so the new file shares it with none of the old ones.
      rw [privateData_concat] at h h'
      rcases h with h | ⟨rfl, rfl⟩
      · rcases h' with h' | ⟨rfl, rfl⟩
        · exact hinv.exclusive h h'
        · exact absurd h (hnobody file)
      · rcases h' with h' | ⟨rfl, -⟩
        · exact absurd h' (hnobody file')
        · rfl
    · -- The new mark stands for the new file, and the others are as before.
      rw [marked_set (List.getElem?_eq_some_iff.mp hdev).1]
      simp only [privateData_concat]
      by_cases hk : k = (devMinor rdev).toNat
      · rw [if_pos hk]
        exact iff_of_true rfl ⟨_, Or.inr ⟨rfl, hk⟩⟩
      · rw [if_neg hk]
        simp only [hk, and_false, or_false]
        exact hinv.marked_iff k

theorem filesInv_release {env : Env} {st : ClassState} (hinv : FilesInv st) {file k : ℕ}
    (hfile : st.privateData file = some k) {devs : List MtdpartctlDevice}
    (hdevs : DevsAfter env st k .release devs) :
    FilesInv ⟨devs, st.files.set file none⟩ := by
  refine ⟨fun {g g' m} h h' => ?_, fun m => ?_⟩
  · rw [privateData_set_none] at h h'
    exact hinv.exclusive h.2 h'.2
  · simp only [privateData_set_none]
    cases hdevs with
    | absent hnone =>
      -- A file that is open has a device.
      have hmarked := (hinv.marked_iff k).mpr ⟨file, hfile⟩
      rw [ClassState.marked, hnone] at hmarked
      cases hmarked
    | @called dev dev' ret hdev hcall =>
      obtain rfl := (Prod.mk.inj (Except.ok.inj hcall)).2
      rw [marked_set (List.getElem?_eq_some_iff.mp hdev).1]
      by_cases hm : m = k
      · subst hm
        rw [if_pos rfl]
        refine iff_of_false (fun h => by cases h) ?_
        rintro ⟨g, hne, hg⟩
        exact hne (hinv.exclusive hg hfile)
      · rw [if_neg hm]
        refine (hinv.marked_iff m).trans ⟨fun ⟨g, hg⟩ => ⟨g, fun heq => ?_, hg⟩, fun ⟨g, hg⟩ =>
          ⟨g, hg.2⟩⟩
        rw [heq, hfile] at hg
        exact hm (Option.some.inj hg).symm

/-- **One call keeps files and marks in step.** -/
theorem filesInv_step {st st' : ClassState} {e : Env × FileCall} (hinv : FilesInv st)
    (hstep : classSystem.step st e = some st') : FilesInv st' := by
  obtain ⟨ret, hcall⟩ := classCall_of_step hstep
  obtain ⟨env, call⟩ := e
  have hdevice : ∀ {k : ℕ} {devCall : DevCall} {st' : ClassState} {ret : Int},
      devCall ≠ .open → devCall ≠ .release → st.onDevice env k devCall = .ok (ret, st') →
      FilesInv st' := by
    intro k devCall st' ret hopen hrelease h
    obtain ⟨hdevs, hfiles⟩ := onDevice_cases h
    exact hinv.congr hfiles fun m => hdevs.marked hopen hrelease m
  cases call with
  | «open» rdev =>
    have hopen := hinv.openNode rdev
    rwa [Except.ok.inj hcall] at hopen
  | ioctl file cmd =>
    simp only [classCall] at hcall
    cases hfile : st.privateData file with
    | none =>
      rw [hfile] at hcall
      obtain rfl := (Prod.mk.inj (Except.ok.inj hcall)).2
      exact hinv
    | some k =>
      rw [hfile] at hcall
      exact hdevice (by simp) (by simp) hcall
  | release file =>
    simp only [classCall] at hcall
    cases hfile : st.privateData file with
    | none =>
      rw [hfile] at hcall
      obtain rfl := (Prod.mk.inj (Except.ok.inj hcall)).2
      exact hinv
    | some k =>
      rw [hfile] at hcall
      obtain ⟨r, hdev, hcall⟩ := bind_eq_ok hcall
      obtain rfl := (Prod.mk.inj (Except.ok.inj hcall)).2
      obtain ⟨hdevs, hfiles⟩ := onDevice_cases hdev
      simp only [hfiles]
      exact filesInv_release hinv hfile hdevs
  | getDevice k => exact hdevice (by simp) (by simp) hcall
  | putDevice k => exact hdevice (by simp) (by simp) hcall

theorem filesInv_init {st : ClassState} (h : classSystem.init st) : FilesInv st := by
  have hdata : ∀ file, st.privateData file = none := fun file => by
    rw [ClassState.privateData, h.1]
    rfl
  refine ⟨fun {file file' k} hfile => ?_, fun k => ?_⟩
  · rw [hdata] at hfile
    cases hfile
  · simp only [hdata, reduceCtorEq, exists_false, iff_false, Bool.not_eq_true, ClassState.marked]
    cases hdev : st.devs[k]? with
    | none => rfl
    | some dev => exact (h.2 dev (List.mem_of_getElem? hdev)).alreadyOpen

theorem filesInv_run {st st' : ClassState} {es : List (Env × FileCall)}
    (hinit : classSystem.init st) (hrun : classSystem.run st es = some st') : FilesInv st' :=
  TransitionSystem.run_invariant (A := fun _ => True)
    (fun _ _ _ hinv _ hstep => filesInv_step hinv hstep) es (filesInv_init hinit)
    (fun _ _ => trivial) hrun

/-- **A file has its device to itself.**  After any calls on any devices no two files are open on
one device, and whether a node can be opened is decided by the files that are open, whatever else
has been done. -/
theorem classRun_open {st st' : ClassState} {es : List (Env × FileCall)}
    (hinit : classSystem.init st) (hrun : classSystem.run st es = some st') :
    (∀ file file' k, st'.privateData file = some k → st'.privateData file' = some k →
        file = file') ∧
      ∀ rdev, OpenAnswered st' (devMinor rdev).toNat (mtdpartctlChrdevOpenNode st' rdev) := by
  have hinv := filesInv_run hinit hrun
  exact ⟨fun file file' k => hinv.exclusive, hinv.openAnswered⟩

theorem classRun_open_twoDevices : ∃ st',
    classSystem.run twoDevices [(.keeping, .open (mkdev 240 1))] = some st' ∧
      OpenAnswered st' 1 (mtdpartctlChrdevOpenNode st' (mkdev 240 1)) := by
  have hinit : classSystem.init twoDevices := by
    refine ⟨rfl, fun dev hdev => ?_⟩
    simp only [twoDevices, List.mem_cons, List.not_mem_nil, or_false] at hdev
    rcases hdev with rfl | rfl <;> exact MtdpartctlDevice.created_create _ _
  obtain ⟨st', hrun⟩ : ∃ st', classSystem.run twoDevices
      [(.keeping, .open (mkdev 240 1))] = some st' := ⟨_, rfl⟩
  exact ⟨st', hrun, (classRun_open hinit hrun).2 (mkdev 240 1)⟩

/-! ### The devices of a loaded module -/

section Loaded

variable {σ : Type}

/-- The class after its initialisation, before any node is opened. -/
def ClassState.loaded (cls : MtdpartctlDevClass σ) : ClassState where
  devs := cls.devs.filterMap fun slot => do
    let dev ← slot
    return dev.toDevice (← dev.backingMtd) (← dev.proxyMtd)
  files := []

/-- The device is as `mtdpartctl_device_create` leaves it, on the backing MTD. -/
def CreatedOn (backing : MtdDev σ) (dev : MtdpartctlDevice) : Prop :=
  ∃ proxyIndex, dev = .create backing.info proxyIndex

variable {env : InitEnv} {table : MtdTable σ} {filter : MtdDeviceTypeFilter} {s : InitState σ}

theorem loaded_devs (h : mtdpartctlDeviceClassInit env table filter (.load table) = .ok (0, s)) :
    List.Forall₂ CreatedOn (visitedMtds filter table) (ClassState.loaded s.cls).devs := by
  obtain ⟨major, devs, indices, -, -, hmade, heq⟩ := createsDevices_of_ok h
  obtain rfl := (Prod.mk.inj (Except.ok.inj heq)).2
  show List.Forall₂ CreatedOn _ ((devs.map some).filterMap _)
  generalize visitedMtds filter table = masters, 0 = k at hmade
  clear heq h
  induction hmade with
  | nil => exact .nil
  | cons hdev _ ih =>
    obtain ⟨mtd, index, -, -, rfl⟩ := hdev
    exact .cons ⟨_, rfl⟩ ih

theorem init_loaded (h : mtdpartctlDeviceClassInit env table filter (.load table) = .ok (0, s)) :
    classSystem.init (.loaded s.cls) := by
  refine ⟨rfl, fun dev hdev => ?_⟩
  obtain ⟨k, hk⟩ := List.mem_iff_getElem?.mp hdev
  have hlen := (loaded_devs h).length_eq
  obtain ⟨hlt, rfl⟩ := List.getElem?_eq_some_iff.mp hk
  obtain ⟨proxyIndex, heq⟩ := (loaded_devs h).get (hlen ▸ hlt) hlt
  rw [List.get_eq_getElem] at heq
  rw [heq]
  exact MtdpartctlDevice.created_create _ _

/-- The device of a master has come from its creation by the calls that were for it. -/
theorem classRun_created {es : List (Env × FileCall)} {st' : ClassState}
    (h : mtdpartctlDeviceClassInit env table filter (.load table) = .ok (0, s))
    (hrun : classSystem.run (.loaded s.cls) es = some st') {k : ℕ} {backing : MtdDev σ}
    (hbacking : (visitedMtds filter table)[k]? = some backing) :
    ∃ proxyIndex dev, st'.devs[k]? = some dev ∧
      deviceSystem.run (.create backing.info proxyIndex) (callsTo k (.loaded s.cls) es) =
        some dev := by
  have hdevs := loaded_devs h
  obtain ⟨hk, rfl⟩ := List.getElem?_eq_some_iff.mp hbacking
  have hk' : k < (ClassState.loaded s.cls).devs.length := hdevs.length_eq ▸ hk
  obtain ⟨proxyIndex, hcreated⟩ := hdevs.get hk hk'
  obtain ⟨dev, hdev, hdevRun⟩ := classRun_component hrun (List.getElem?_eq_getElem hk')
  rw [List.get_eq_getElem, List.get_eq_getElem] at hcreated
  rw [hcreated] at hdevRun
  exact ⟨proxyIndex, dev, hdev, hdevRun⟩

/-- The calls of one device are calls of the run. -/
theorem mem_callsTo {k : ℕ} {st : ClassState} {es : List (Env × FileCall)} {e : Env × DevCall}
    (h : e ∈ callsTo k st es) : ∃ e' ∈ es, e'.1 = e.1 ∧
      ∀ cmd, e.2 = .ioctl cmd → ∃ file, e'.2 = .ioctl file cmd := by
  obtain ⟨x, hx, hfor⟩ := List.mem_filterMap.mp h
  refine ⟨x.2, TransitionSystem.mem_of_mem_taken es hx, ?_⟩
  obtain ⟨⟨k', call⟩, htarget, hcall⟩ := Option.bind_eq_some_iff.mp hfor
  simp only at hcall
  split_ifs at hcall
  obtain rfl := Option.some.inj hcall
  refine ⟨rfl, fun cmd hcmd => ?_⟩
  obtain rfl : call = .ioctl cmd := hcmd
  obtain ⟨st₁, env, fileCall⟩ := x
  cases fileCall with
  | ioctl file cmd' =>
    obtain ⟨k₁, -, heq⟩ := Option.map_eq_some_iff.mp htarget
    obtain rfl := DevCall.ioctl.inj (Prod.mk.inj heq).2
    exact ⟨file, rfl⟩
  | release file =>
    obtain ⟨k₁, -, heq⟩ := Option.map_eq_some_iff.mp htarget
    cases (Prod.mk.inj heq).2
  | _ => cases (Prod.mk.inj (Option.some.inj htarget)).2

/-- The live partitions of all devices, each with the index of the MTD they are on. -/
def ClassState.flash (masters : List (MtdDev σ)) (st : ClassState) : List (ℕ × Extent) :=
  (masters.zip st.devs).flatMap fun x => x.2.tables.live.map (x.1.index, ·)

/-- **No two live partitions of a loaded module share a byte of flash**, whatever is done on its
devices in whatever order, as long as nobody uses `ADD_MTD_PARTITION`.  Each is on a master that
passes the filter, and a range of whole erase blocks there. -/
theorem classRun_apart {es : List (Env × FileCall)} {st' : ClassState}
    (h : mtdpartctlDeviceClassInit env table filter (.load table) = .ok (0, s))
    (hcore : ∀ e ∈ es, ∀ backing ∈ visitedMtds filter table, e.1.core.KeepsTable backing.size)
    (hno : ∀ e ∈ es, ∀ file arg, e.2 ≠ .ioctl file (.addMtdPartition arg))
    (hrun : classSystem.run (.loaded s.cls) es = some st') :
    (st'.flash (visitedMtds filter table)).Pairwise
        (fun x y => x.1 = y.1 → Extent.Apart x.2 y.2) ∧
      ∀ x ∈ st'.flash (visitedMtds filter table),
        ∃ backing ∈ visitedMtds filter table, backing.index = x.1 ∧ x.2.Valid backing.info := by
  have hlen := classRun_length (loaded_devs h).length_eq.symm hrun
  -- What each device holds by itself.
  have hone : ∀ x ∈ (visitedMtds filter table).zip st'.devs,
      x.2.tables.live.Pairwise Extent.Apart ∧ ∀ e ∈ x.2.tables.live, e.Valid x.1.info := by
    rintro ⟨backing, dev⟩ hx
    have hbacking := (List.of_mem_zip hx).1
    obtain ⟨k, hk⟩ := List.mem_iff_getElem?.mp hx
    rw [List.getElem?_zip_eq_some] at hk
    obtain ⟨proxyIndex, dev', hdev', hdevRun⟩ := classRun_created h hrun hk.1
    obtain rfl : dev' = dev := Option.some.inj (hdev'.symm.trans hk.2)
    have hkeeps : ∀ e ∈ callsTo k (.loaded s.cls) es, e.1.core.KeepsTable backing.info.size := by
      intro e he
      obtain ⟨e', he', henv, -⟩ := mem_callsTo he
      rw [← henv]
      exact hcore e' he' backing hbacking
    refine ⟨apart_of_run hkeeps ?_ hdevRun, (inv_of_run hkeeps hdevRun).2.live_ok⟩
    rintro e he ⟨arg, harg⟩
    obtain ⟨e', he', -, hioctl⟩ := mem_callsTo he
    obtain ⟨file, hfile⟩ := hioctl _ harg
    exact hno e' he' file arg hfile
  have hindex : ((visitedMtds filter table).zip st'.devs).Pairwise
      fun x y => x.1.index ≠ y.1.index := by
    have hmap : ((visitedMtds filter table).zip st'.devs).map Prod.fst =
        visitedMtds filter table := List.map_fst_zip hlen.ge
    have hsorted : (visitedMtds filter table).Pairwise fun a b => a.index < b.index :=
      table.sorted.filter fun mtd => !skips filter mtd
    rw [← hmap, List.pairwise_map] at hsorted
    exact hsorted.imp fun hlt => hlt.ne
  refine ⟨List.pairwise_flatMap.mpr ⟨fun x hx => ?_, hindex.imp fun hne e he e' he' heq => ?_⟩,
    fun e he => ?_⟩
  · rw [List.pairwise_map]
    exact (hone x hx).1.imp fun hapart (_ : x.1.index = x.1.index) => hapart
  · obtain ⟨_, -, rfl⟩ := List.mem_map.mp he
    obtain ⟨_, -, rfl⟩ := List.mem_map.mp he'
    exact absurd heq hne
  · obtain ⟨x, hx, he⟩ := List.mem_flatMap.mp he
    obtain ⟨extent, hextent, rfl⟩ := List.mem_map.mp he
    exact ⟨x.1, (List.of_mem_zip hx).1, rfl, (hone x hx).2 extent hextent⟩

/-- Two NOR chips of one erase block each. -/
def twoFlashes : MtdTable Unit :=
  ⟨[{ norChip 0 with size := 0x1000, erasesize := 0x1000 },
    { norChip 1 with size := 0x1000, erasesize := 0x1000 }], by decide⟩

/-- Both devices get a partition, one call here and one call there. -/
def flashCalls : List (Env × FileCall) :=
  [FileCall.open (mkdev 240 0), .open (mkdev 240 1), .ioctl 0 (.recipeAddPart (some oneBlockPart)),
    .ioctl 1 (.recipeAddPart (some oneBlockPart)), .ioctl 0 .recipeCreatePartitions,
    .ioctl 1 .recipeCreatePartitions].map fun call => (.keeping, call)

theorem classRun_apart_twoFlashes : ∃ s st',
    mtdpartctlDeviceClassInit grantingEnv twoFlashes .all (.load twoFlashes) = .ok (0, s) ∧
      classSystem.run (.loaded s.cls) flashCalls = some st' ∧
      (st'.flash (visitedMtds .all twoFlashes)).Pairwise
        fun x y => x.1 = y.1 → Extent.Apart x.2 y.2 := by
  obtain ⟨s, hinit, st', hrun⟩ : ∃ s, mtdpartctlDeviceClassInit grantingEnv twoFlashes .all
      (.load twoFlashes) = .ok (0, s) ∧ ∃ st', classSystem.run (.loaded s.cls) flashCalls =
        some st' := ⟨_, rfl, _, rfl⟩
  have hsize : ∀ backing ∈ visitedMtds .all twoFlashes, backing.size.toNat < 2 ^ 63 := by
    intro backing hbacking
    have hmem : backing ∈ twoFlashes.mtds := (List.mem_filter.mp hbacking).1
    simp only [twoFlashes, List.mem_cons, List.not_mem_nil, or_false] at hmem
    rcases hmem with rfl | rfl <;> decide
  refine ⟨s, st', hinit, hrun, (classRun_apart hinit ?_ ?_ hrun).1⟩
  · intro e he backing hbacking
    obtain ⟨call, -, rfl⟩ := List.mem_map.mp he
    exact MtdCore.keepsTable_keeping (hsize backing hbacking)
  · intro e he file arg heq
    obtain ⟨call, hcall, rfl⟩ := List.mem_map.mp he
    simp only at heq
    subst heq
    simp at hcall

end Loaded

end Mtdpartikr
