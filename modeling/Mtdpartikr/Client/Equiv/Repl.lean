import Mtdpartikr.Client.Equiv.ConfigFile
import Mtdpartikr.Client.Equiv.Wrappers
import Mtdpartikr.Client.Repl

/-!
# The commands of the REPL

A command is refused by the client or makes one ioctl and looks at its return value.  `Issues`
names the ioctl, `CommandOutcome` lists the ways to end, and `execute_cases` goes through the
commands: each has a lemma of its own, from the two calls they share (`call_parse_cases`,
`call_ioctl_cases`).
-/

namespace Mtdpartikr.Client

variable {ε : Type}

/-! ### The ioctl of a command -/

section Commands

variable (env : ReplEnv) (parseUint : (base bitSize : ℕ) → GoString → Except ε UInt64)
  (passing : StructPassing)

/-- The ioctl a command issues. -/
inductive Issues : Command → Ioctl → Prop
  | addImm {offsetStr lengthStr name : GoString} {offset length : UInt64} :
      parseUint 0 64 offsetStr = .ok offset → parseUint 0 64 lengthStr = .ok length →
      Issues ⟨.addImm, [offsetStr, lengthStr, name]⟩
        (goMtdpartctlAddNewPartition passing env.frame offset length name)
  | addRecipePart {offsetStr lengthStr name flags : GoString} {offset length : UInt64} :
      WellFormed (parseUint 0 64) ⟨name, offsetStr, lengthStr, flags⟩ offset length →
      Issues ⟨.addRecipePart, [offsetStr, lengthStr, name, flags]⟩
        (rowCmd ⟨name, offsetStr, lengthStr, flags⟩ offset length env.toClientEnv)
  | addWritablePart {offsetStr lengthStr name : GoString} {offset length : UInt64} :
      WellFormed (parseUint 0 64) ⟨name, offsetStr, lengthStr, []⟩ offset length →
      Issues ⟨.addRecipePart, [offsetStr, lengthStr, name]⟩
        (rowCmd ⟨name, offsetStr, lengthStr, []⟩ offset length env.toClientEnv)
  | delRecipePart {arg : GoString} {index : UInt64} : parseUint 10 0 arg = .ok index →
      Issues ⟨.delRecipePart, [arg]⟩
        (.recipeDelPart (if env.copyFromUser then some index.toUInt32 else none))
  | delete {arg : GoString} {index : UInt64} : parseUint 10 32 arg = .ok index →
      Issues ⟨.delete, [arg]⟩
        (.delMtdPartition (if env.copyFromUser then some index.toUInt32 else none))
  | deleteAll : Issues ⟨.deleteAll, []⟩ .deleteMtdPartitions
  | dispatchRecipe : Issues ⟨.dispatchRecipe, []⟩ .recipeCreatePartitions
  | status : env.malloc = true →
      Issues ⟨.status, []⟩ (.listRecipeParts (if env.copyFromUser then some 255 else none))
  | reset : Issues ⟨.reset, []⟩ .restartRecipe

/-- The counter after a command that succeeded. -/
def CommandName.count : CommandName → UInt64 → UInt64
  | .addImm | .addRecipePart => (· + 1)
  | .delRecipePart => (· - 1)
  | .reset => fun _ => 0
  | .dispatchRecipe | .deleteAll | .delete | .status => id

/-- How a command can end. -/
inductive CommandOutcome (cmd : Command) (repl : Repl) :
    Except (ReplError ε) (List GoString) × Repl → Prop
  | refused (err : ReplError ε) : (∀ o, err ≠ .failure (.killed o)) →
      (∀ call, ¬ Issues env parseUint passing cmd call) →
      CommandOutcome cmd repl (.error err, repl)
  | empty : cmd.name = .status → repl.recipePartsCount = 0 →
      CommandOutcome cmd repl (.ok [ascii "Empty table"], repl)
  | killed {call : Ioctl} {o : Oops} : Issues env parseUint passing cmd call →
      mtdpartctlChrdevIoctl env.toEnv repl.session.dev call = .error o →
      CommandOutcome cmd repl (.error (.failure (.killed o)),
        { repl with session := repl.session.killed call o })
  | failed {call : Ioctl} {r : IoctlResult} : Issues env parseUint passing cmd call →
      mtdpartctlChrdevIoctl env.toEnv repl.session.dev call = .ok r → r.ret < 0 →
      CommandOutcome cmd repl (.error (.failure (.returned (.ioctlResult r.ret))),
        { repl with session := repl.session.returned call r })
  | succeeded {call : Ioctl} {r : IoctlResult} (lines : List GoString) :
      Issues env parseUint passing cmd call →
      mtdpartctlChrdevIoctl env.toEnv repl.session.dev call = .ok r → 0 ≤ r.ret →
      CommandOutcome cmd repl (.ok lines,
        ⟨repl.session.returned call r, cmd.name.count repl.recipePartsCount⟩)

variable {env parseUint passing}

/-- A command issues at most one ioctl. -/
theorem Issues.unique {cmd : Command} {call call' : Ioctl}
    (h : Issues env parseUint passing cmd call) (h' : Issues env parseUint passing cmd call') :
    call = call' := by
  cases h with
  | addImm hoff hlen =>
    cases h' with
    | addImm hoff' hlen' =>
      rw [hoff] at hoff'
      rw [hlen] at hlen'
      rw [Except.ok.inj hoff', Except.ok.inj hlen']
  | addRecipePart hrow =>
    cases h' with
    | addRecipePart hrow' =>
      have hoff := hrow.offset.symm.trans hrow'.offset
      have hlen := hrow.length.symm.trans hrow'.length
      rw [Except.ok.inj hoff, Except.ok.inj hlen]
  | addWritablePart hrow =>
    cases h' with
    | addWritablePart hrow' =>
      have hoff := hrow.offset.symm.trans hrow'.offset
      have hlen := hrow.length.symm.trans hrow'.length
      rw [Except.ok.inj hoff, Except.ok.inj hlen]
  | delRecipePart hidx =>
    cases h' with
    | delRecipePart hidx' =>
      rw [hidx] at hidx'
      rw [Except.ok.inj hidx']
  | delete hidx =>
    cases h' with
    | delete hidx' =>
      rw [hidx] at hidx'
      rw [Except.ok.inj hidx']
  | deleteAll | dispatchRecipe | status _ | reset =>
    cases h'
    rfl

section Call

variable {session : Session} {repl : Repl} {x : ClientM ε (List GoString)}

theorem call_ok {lines : List GoString} (h : x.outcome repl.session = (.ok lines, session))
    (update : UInt64 → UInt64) :
    Repl.call x update repl = (.ok lines, ⟨session, update repl.recipePartsCount⟩) := by
  unfold Repl.call
  rw [h]

theorem call_error {failure : Failure ε} (h : x.outcome repl.session = (.error failure, session))
    (update : UInt64 → UInt64) :
    Repl.call x update repl = (.error (.failure failure), { repl with session := session }) := by
  unfold Repl.call
  rw [h]

/-- The check of a return value. -/
theorem outcome_checkRc (rc : Int) (lines : List GoString) :
    (do checkRc rc; return lines : ClientM ε (List GoString)).outcome session =
      (if rc < 0 then .error (.returned (.ioctlResult rc)) else .ok lines, session) := by
  unfold checkRc
  split_ifs <;> rfl

/-- A command that makes one ioctl and prints nothing. -/
theorem call_ioctl_cases {cmd : Command} (call : ClientEnv → Ioctl)
    (hissue : Issues env parseUint passing cmd (call env.toClientEnv)) (repl : Repl) :
    CommandOutcome env parseUint passing cmd repl (Repl.call (do
      let rc ← ioctl (fun _ => env.toClientEnv) call
      checkRc rc
      return []) cmd.name.count repl) := by
  cases hioctl : mtdpartctlChrdevIoctl env.toEnv repl.session.dev (call env.toClientEnv) with
  | error o =>
    have hout := @outcome_ioctl_error ε (fun _ => env.toClientEnv) repl.session call o hioctl
    rw [call_error (outcome_bind_error hout _)]
    exact .killed hissue hioctl
  | ok r =>
    have hout := @outcome_ioctl_ok ε (fun _ => env.toClientEnv) repl.session call r hioctl
    have hcheck := (outcome_bind_ok hout fun rc => do checkRc rc; return []).trans
      (outcome_checkRc r.ret [])
    by_cases hret : r.ret < 0
    · rw [if_pos hret] at hcheck
      rw [call_error hcheck]
      exact .failed hissue hioctl hret
    · rw [if_neg hret] at hcheck
      rw [call_ok hcheck]
      exact .succeeded [] hissue hioctl (Int.not_lt.mp hret)

/-- A command with the wrong number of arguments. -/
theorem refuse_cases {cmd : Command} (hno : ∀ call, ¬ Issues env parseUint passing cmd call)
    (repl : Repl) : CommandOutcome env parseUint passing cmd repl (Repl.refuse repl) :=
  .refused _ (fun o h => by cases h) hno

/-- A command that begins with parsing an argument. -/
theorem call_parse_cases {cmd : Command} {base bitSize : ℕ} {arg : GoString}
    {f : UInt64 → ClientM ε (List GoString)} {update : UInt64 → UInt64} {repl : Repl}
    (hbad : (∀ v, parseUint base bitSize arg ≠ .ok v) →
      ∀ call, ¬ Issues env parseUint passing cmd call)
    (hgood : ∀ v, parseUint base bitSize arg = .ok v →
      CommandOutcome env parseUint passing cmd repl (Repl.call (f v) update repl)) :
    CommandOutcome env parseUint passing cmd repl
      (Repl.call (do let v ← parseArgument parseUint base bitSize arg; f v) update repl) := by
  cases hparse : parseUint base bitSize arg with
  | ok v =>
    have hrest : (do let v ← parseArgument parseUint base bitSize arg; f v) = f v := by
      unfold parseArgument
      rw [hparse]
      rfl
    rw [hrest]
    exact hgood v hparse
  | error err =>
    have hout : (parseArgument parseUint base bitSize arg).outcome repl.session =
        (.error (.returned (.invalidArgument err)), repl.session) := by
      unfold parseArgument
      rw [hparse]
      rfl
    rw [call_error (outcome_bind_error hout _)]
    exact .refused _ (fun o h => by cases h) (hbad fun v hv => by rw [hparse] at hv; cases hv)

end Call

/-! ### Every command -/

section Execute

variable (repl : Repl)

theorem cmdAddImmediate_cases (args : List GoString) :
    CommandOutcome env parseUint passing ⟨.addImm, args⟩ repl
      (cmdAddImmediate env parseUint passing args repl) := by
  unfold cmdAddImmediate
  split
  · rename_i offsetStr lengthStr name
    refine call_parse_cases (fun hbad call h => ?_) fun offset hoff =>
      call_parse_cases (fun hbad call h => ?_) fun length hlen => ?_
    · cases h with
      | addImm hoff _ => exact hbad _ hoff
    · cases h with
      | addImm _ hlen => exact hbad _ hlen
    · exact call_ioctl_cases (fun _ => goMtdpartctlAddNewPartition passing env.frame offset length
        name) (.addImm hoff hlen) repl
  · rename_i hargs
    refine refuse_cases (fun call h => ?_) repl
    cases h with
    | addImm _ _ => exact hargs _ _ _ rfl

theorem cmdAddRecipePart_cases (args : List GoString) :
    CommandOutcome env parseUint passing ⟨.addRecipePart, args⟩ repl
      (cmdAddRecipePart env parseUint args repl) := by
  -- The two forms of the command add a row each.
  have hrow : ∀ (row : Partition) (cmd : Command), cmd.name = .addRecipePart →
      (∀ offset length, WellFormed (parseUint 0 64) row offset length →
        Issues env parseUint passing cmd (rowCmd row offset length env.toClientEnv)) →
      (Malformed (parseUint 0 64) row → ∀ call, ¬ Issues env parseUint passing cmd call) →
      CommandOutcome env parseUint passing cmd repl (Repl.call (do
        addRow (parseUint 0 64) (fun _ => env.toClientEnv) row
        return []) (· + 1) repl) := by
    intro row cmd hname hissue hno
    rcases malformed_or_wellFormed (parseUint 0 64) row with hbad | ⟨offset, length, hgood⟩
    · obtain ⟨err, hout⟩ := @addRow_malformed ε (parseUint 0 64) (fun _ => env.toClientEnv) row
        repl.session hbad
      rw [call_error (outcome_bind_error hout _)]
      exact .refused _ (fun o h => by cases h) (hno hbad)
    · have hcall := call_ioctl_cases (rowCmd row offset length) (hissue offset length hgood) repl
      rw [addRow_wellFormed _ hgood, bind_assoc]
      rw [hname] at hcall
      exact hcall
  unfold cmdAddRecipePart
  split
  · rename_i offsetStr lengthStr name flags
    refine hrow ⟨name, offsetStr, lengthStr, flags⟩ _ rfl
      (fun _ _ h => .addRecipePart h) fun hbad call h => ?_
    cases h with
    | addRecipePart h => exact h.not_malformed hbad
  · rename_i offsetStr lengthStr name
    refine hrow ⟨name, offsetStr, lengthStr, []⟩ _ rfl
      (fun _ _ h => .addWritablePart h) fun hbad call h => ?_
    cases h with
    | addWritablePart h => exact h.not_malformed hbad
  · rename_i hfour hthree
    refine refuse_cases (fun call h => ?_) repl
    cases h with
    | addRecipePart _ => exact hfour _ _ _ _ rfl
    | addWritablePart _ => exact hthree _ _ _ rfl

theorem cmdDeleteRecipePart_cases (args : List GoString) :
    CommandOutcome env parseUint passing ⟨.delRecipePart, args⟩ repl
      (cmdDeleteRecipePart env parseUint args repl) := by
  unfold cmdDeleteRecipePart
  split
  · refine call_parse_cases (fun hbad call h => ?_) fun index hidx => ?_
    · cases h with
      | delRecipePart hidx => exact hbad _ hidx
    · exact call_ioctl_cases (fun env => .recipeDelPart
        (if env.copyFromUser then some index.toUInt32 else none)) (.delRecipePart hidx) repl
  · rename_i hargs
    refine refuse_cases (fun call h => ?_) repl
    cases h with
    | delRecipePart _ => exact hargs _ rfl

theorem cmdDeleteImmediate_cases (args : List GoString) :
    CommandOutcome env parseUint passing ⟨.delete, args⟩ repl
      (cmdDeleteImmediate env parseUint args repl) := by
  unfold cmdDeleteImmediate
  split
  · refine call_parse_cases (fun hbad call h => ?_) fun index hidx => ?_
    · cases h with
      | delete hidx => exact hbad _ hidx
    · exact call_ioctl_cases (fun env => .delMtdPartition
        (if env.copyFromUser then some index.toUInt32 else none)) (.delete hidx) repl
  · rename_i hargs
    refine refuse_cases (fun call h => ?_) repl
    cases h with
    | delete _ => exact hargs _ rfl

theorem cmdDeleteAll_cases (args : List GoString) :
    CommandOutcome env parseUint passing ⟨.deleteAll, args⟩ repl
      (cmdDeleteAll env args repl) := by
  unfold cmdDeleteAll
  split
  · exact call_ioctl_cases (fun _ => .deleteMtdPartitions) .deleteAll repl
  · rename_i hargs
    refine refuse_cases (fun call h => ?_) repl
    cases h
    exact hargs rfl

theorem cmdDispatchRecipe_cases (args : List GoString) :
    CommandOutcome env parseUint passing ⟨.dispatchRecipe, args⟩ repl
      (cmdDispatchRecipe env args repl) := by
  unfold cmdDispatchRecipe
  split
  · exact call_ioctl_cases (fun _ => .recipeCreatePartitions) .dispatchRecipe repl
  · rename_i hargs
    refine refuse_cases (fun call h => ?_) repl
    cases h
    exact hargs rfl

theorem cmdRecipeReset_cases (args : List GoString) :
    CommandOutcome env parseUint passing ⟨.reset, args⟩ repl
      (cmdRecipeReset env args repl) := by
  unfold cmdRecipeReset
  split
  · exact call_ioctl_cases (fun _ => .restartRecipe) .reset repl
  · rename_i hargs
    refine refuse_cases (fun call h => ?_) repl
    cases h
    exact hargs rfl

/-- The ioctl of a listing, with what it writes. -/
theorem outcome_ioctlReply_ok {session : Session} {cmd : ClientEnv → Ioctl} {r : IoctlResult}
    (h : mtdpartctlChrdevIoctl env.toEnv session.dev (cmd env.toClientEnv) = .ok r) :
    (ioctlReply env cmd : ClientM ε (Int × Reply)).outcome session =
      (.ok (r.ret, r.reply), session.returned (cmd env.toClientEnv) r) := by
  have hget : (get : ClientM ε Session).outcome session = (.ok session, session) := rfl
  unfold ioctlReply
  rw [outcome_bind_ok hget]
  simp only [h]
  rfl

theorem outcome_ioctlReply_error {session : Session} {cmd : ClientEnv → Ioctl} {o : Oops}
    (h : mtdpartctlChrdevIoctl env.toEnv session.dev (cmd env.toClientEnv) = .error o) :
    (ioctlReply env cmd : ClientM ε (Int × Reply)).outcome session =
      (.error (.killed o), session.killed (cmd env.toClientEnv) o) := by
  have hget : (get : ClientM ε Session).outcome session = (.ok session, session) := rfl
  unfold ioctlReply
  rw [outcome_bind_ok hget]
  simp only [h]
  rfl

/-- The ioctl `mtdpartctl_recipe_print_parts` makes for `status`. -/
def statusIoctl (env : ClientEnv) : Ioctl :=
  .listRecipeParts (if env.copyFromUser then some (255 : UInt64).toUInt32 else none)

/-- The lines `mtdpartctl_recipe_print_parts` prints after it. -/
def statusLines (env : ReplEnv) (reply : Reply) : List GoString :=
  (List.range (listReadCount 255 reply).toNat).map fun idx =>
    partLine idx (listPart env reply idx)

/-- `mtdpartctl_recipe_print_parts` for `status`. -/
theorem mtdpartctlRecipePrintParts_outcome (session : Session) :
    (mtdpartctlRecipePrintParts env 255 : ClientM ε (Int × List GoString)).outcome session =
      if env.malloc then
        match mtdpartctlChrdevIoctl env.toEnv session.dev (statusIoctl env.toClientEnv) with
        | .error o => (.error (.killed o), session.killed (statusIoctl env.toClientEnv) o)
        | .ok r => (.ok (r.ret, if r.ret < 0 then [] else statusLines env r.reply),
            session.returned (statusIoctl env.toClientEnv) r)
      else (.ok (neg .ENOMEM, []), session) := by
  unfold mtdpartctlRecipePrintParts
  cases hmalloc : env.malloc with
  | false => rfl
  | true =>
    rw [if_pos rfl]
    cases hioctl : mtdpartctlChrdevIoctl env.toEnv session.dev (statusIoctl env.toClientEnv) with
    | error o =>
      have hout := @outcome_ioctlReply_error ε env session statusIoctl o hioctl
      exact outcome_bind_error hout _
    | ok r =>
      have hout := @outcome_ioctlReply_ok ε env session statusIoctl r hioctl
      refine (outcome_bind_ok hout _).trans ?_
      simp only
      split_ifs <;> rfl

/-- `status` with a counter that is not zero. -/
theorem cmdRecipeStatus_of_ne_zero {repl : Repl} (hcount : repl.recipePartsCount ≠ 0) :
    (cmdRecipeStatus env [] repl : Except (ReplError ε) (List GoString) × Repl) =
      if env.malloc then
        match mtdpartctlChrdevIoctl env.toEnv repl.session.dev (statusIoctl env.toClientEnv) with
        | .error o => (.error (.failure (.killed o)),
            ⟨repl.session.killed (statusIoctl env.toClientEnv) o, repl.recipePartsCount⟩)
        | .ok r => (if r.ret < 0 then .error (.failure (.returned (.ioctlResult r.ret)))
              else .ok (statusLines env r.reply),
            ⟨repl.session.returned (statusIoctl env.toClientEnv) r, repl.recipePartsCount⟩)
      else (.error (.failure (.returned (.ioctlResult (neg .ENOMEM)))), repl) := by
  have hprint := @mtdpartctlRecipePrintParts_outcome ε env repl.session
  unfold cmdRecipeStatus
  simp only [if_neg hcount]
  cases hmalloc : env.malloc with
  | false =>
    rw [hmalloc, if_neg Bool.false_ne_true] at hprint
    have hcheck := (outcome_bind_ok hprint fun x => do checkRc x.1; return x.2).trans
      (outcome_checkRc (neg .ENOMEM) [])
    rw [if_pos (neg_lt_zero _)] at hcheck
    rw [call_error hcheck]
    rfl
  | true =>
    rw [hmalloc, if_pos rfl] at hprint
    cases hioctl : mtdpartctlChrdevIoctl env.toEnv repl.session.dev
        (statusIoctl env.toClientEnv) with
    | error o =>
      rw [hioctl] at hprint
      rw [call_error (outcome_bind_error hprint _)]
      rfl
    | ok r =>
      rw [hioctl] at hprint
      have hcheck := (outcome_bind_ok hprint fun x => do checkRc x.1; return x.2).trans
        (outcome_checkRc r.ret _)
      by_cases hret : r.ret < 0
      · rw [if_pos hret] at hcheck
        rw [call_error hcheck]
        simp only [hret, if_true]
      · rw [if_neg hret, if_neg hret] at hcheck
        rw [call_ok hcheck]
        simp only [hret, if_true, if_false]
        rfl

theorem cmdRecipeStatus_cases (args : List GoString) :
    CommandOutcome env parseUint passing ⟨.status, args⟩ repl (cmdRecipeStatus env args repl) := by
  cases args with
  | nil =>
    by_cases hcount : repl.recipePartsCount = 0
    · unfold cmdRecipeStatus
      simp only [if_pos hcount]
      exact .empty rfl hcount
    · rw [cmdRecipeStatus_of_ne_zero hcount]
      cases hmalloc : env.malloc with
      | false =>
        refine .refused _ (fun o h => by cases h) fun call h => ?_
        cases h with
        | status h => rw [hmalloc] at h; cases h
      | true =>
        rw [if_pos rfl]
        cases hioctl : mtdpartctlChrdevIoctl env.toEnv repl.session.dev
            (statusIoctl env.toClientEnv) with
        | error o => exact .killed (.status hmalloc) hioctl
        | ok r =>
          simp only
          split_ifs with hret
          · exact .failed (.status hmalloc) hioctl hret
          · exact .succeeded _ (.status hmalloc) hioctl (Int.not_lt.mp hret)
  | cons arg rest =>
    refine refuse_cases (fun call h => ?_) repl
    cases h

/-- **A command is refused or makes its one ioctl.** -/
theorem execute_cases (cmd : Command) :
    CommandOutcome env parseUint passing cmd repl
      (Repl.execute env parseUint passing cmd repl) := by
  obtain ⟨name, args⟩ := cmd
  cases name with
  | addImm => exact cmdAddImmediate_cases repl args
  | dispatchRecipe => exact cmdDispatchRecipe_cases repl args
  | addRecipePart => exact cmdAddRecipePart_cases repl args
  | delRecipePart => exact cmdDeleteRecipePart_cases repl args
  | deleteAll => exact cmdDeleteAll_cases repl args
  | delete => exact cmdDeleteImmediate_cases repl args
  | status => exact cmdRecipeStatus_cases repl args
  | reset => exact cmdRecipeReset_cases repl args

/-- A command whose ioctl succeeds, with its counter. -/
theorem execute_of_issues {cmd : Command} {call : Ioctl} {r : IoctlResult}
    (hname : cmd.name ≠ .status) (hissue : Issues env parseUint passing cmd call)
    (hioctl : mtdpartctlChrdevIoctl env.toEnv repl.session.dev call = .ok r) (hret : 0 ≤ r.ret) :
    ∃ lines, Repl.execute env parseUint passing cmd repl =
      (.ok lines, ⟨repl.session.returned call r, cmd.name.count repl.recipePartsCount⟩) := by
  have hcases : CommandOutcome env parseUint passing cmd repl
    (Repl.execute env parseUint passing cmd repl) := execute_cases repl cmd
  generalize Repl.execute env parseUint passing cmd repl = res at hcases
  cases hcases with
  | refused _ _ hno => exact absurd hissue (hno call)
  | empty hstatus _ => exact absurd hstatus hname
  | killed hissue' herr =>
    rw [← hissue.unique hissue', hioctl] at herr
    cases herr
  | failed hissue' hioctl' hneg =>
    rw [← hissue.unique hissue', hioctl] at hioctl'
    rw [← Except.ok.inj hioctl'] at hneg
    exact absurd hneg (Int.not_lt.mpr hret)
  | succeeded lines hissue' hioctl' _ =>
    obtain rfl := hissue.unique hissue'
    rw [hioctl] at hioctl'
    obtain rfl := Except.ok.inj hioctl'
    exact ⟨lines, rfl⟩

end Execute

end Commands

/-- Every allocation, copy and core call succeeds. -/
def ReplEnv.succeeding : ReplEnv :=
  { ClientEnv.succeeding with
    frame := .zeroWord
    malloc := true
    heap := fun _ => ⟨⟨0, 0, CBuf.zero _⟩, false, false⟩ }

end Mtdpartikr.Client
