import Mtdpartikr.Client.Equiv.Main

/-!
# A configuration file and a user who types it

`useConfigFile` and the REPL are two ways to the same ioctls.  A user who types
`add_recipe_part` for one row after the other and `dispatch_recipe` after the last one, and stops
at the first error, comes to the session a configuration file with these rows comes to
(`configFile_typed`): the ioctls are the same, so are their outcomes and the device.

A row and its line agree because both are `addRecipePart`; what has to be shown is that they meet
the same environment (`addRow_congr`), for which the ioctls of the session are counted.
-/

namespace Mtdpartikr.Client

variable {ε : Type}

/-! ### What is typed -/

/-- The line is read as this command. -/
structure Types (host : Host ε) (line : GoString) (name : String) (args : List GoString) :
    Prop where
  nonempty : trimSpace line ≠ []
  words : parseCommand host (trimSpace line) = some (ascii name, args)

/-- The line is the `add_recipe_part` of a row. -/
abbrev TypesRow (host : Host ε) (line : GoString) (row : Partition) : Prop :=
  Types host line "add_recipe_part" [row.offset, row.length, row.name, row.flags]

/-- Lines typed one after another; the kernel decides as in the ioctls from the `n`-th on. -/
def typed (env : ℕ → ReplEnv) (n : ℕ) (lines : List GoString) : List (ReplEnv × Input) :=
  (lines.zipIdx n).map fun x => (env x.2, .line x.1)

theorem typed_cons (env : ℕ → ReplEnv) (n : ℕ) (line : GoString) (lines : List GoString) :
    typed env n (line :: lines) = (env n, .line line) :: typed env (n + 1) lines := by
  rw [typed, List.zipIdx_cons, List.map_cons]
  rfl

theorem typed_append (env : ℕ → ReplEnv) (n : ℕ) (lines lines' : List GoString) :
    typed env n (lines ++ lines') = typed env n lines ++ typed env (n + lines.length) lines' := by
  rw [typed, List.zipIdx_append, List.map_append]
  rfl

/-- How the loop is left when the last line ended in this way: only a killed client leaves it. -/
def endOf : Except (Failure ε) Unit → RunEnd
  | .error (.killed o) => .killed o
  | _ => .reading

/-! ### One command -/

section

variable {host : Host ε} {env : ReplEnv} {line : GoString} {repl : Repl}

/-- How the loop goes on after a command whose calls ended in this way. -/
def goesOn (host : Host ε) (rest : List (ReplEnv × Input)) (repl : Repl)
    (update : UInt64 → UInt64) : Except (Failure ε) Unit × Session → RunEnd × Repl
  | (.ok (), session) => Repl.runLoop host rest ⟨session, update repl.recipePartsCount⟩
  | (.error (.returned _), session) => Repl.runLoop host rest { repl with session := session }
  | (.error (.killed o), session) => (.killed o, { repl with session := session })

/-- A line whose handler makes the calls `x` and prints nothing. -/
theorem runLoop_call {name : String} {args : List GoString} {c : CommandName}
    {x : ClientM ε Unit} {update : UInt64 → UInt64} (h : Types host line name args)
    (hname : commands.lookup (ascii name) = some (.device c))
    (hexec : Repl.execute env host.parseUint host.passing ⟨c, args⟩ repl =
      Repl.call (do x; return []) update repl) (rest : List (ReplEnv × Input)) :
    Repl.runLoop host ((env, .line line) :: rest) repl =
      goesOn host rest repl update (x.outcome repl.session) := by
  rw [Repl.runLoop]
  simp only [if_neg h.nonempty, h.words]
  unfold Repl.executeNamed
  simp only [hname, hexec]
  cases hout : x.outcome repl.session with
  | mk res session =>
    cases res with
    | ok u => rw [call_ok (outcome_bind_ok hout _)]; rfl
    | error failure =>
      rw [call_error (outcome_bind_error hout _)]
      cases failure <;> rfl

/-- The line of a row. -/
theorem runLoop_row (env : ReplEnv) (repl : Repl) {row : Partition} (h : TypesRow host line row)
    (rest : List (ReplEnv × Input)) :
    Repl.runLoop host ((env, .line line) :: rest) repl = goesOn host rest repl (· + 1)
      ((addRow (host.parseUint 0 64) (fun _ => env.toClientEnv) row).outcome repl.session) := by
  refine runLoop_call (c := .addRecipePart) h rfl ?_ rest
  rfl

/-- `useConfigFile` after its last row. -/
def dispatchRows (ε : Type) (env : ℕ → ClientEnv) : ClientM ε Unit := do
  let rc ← mtdpartctlRecipeCreatePartitions env
  checkRc rc

/-- The line `dispatch_recipe`. -/
theorem runLoop_dispatch (h : Types host line "dispatch_recipe" [])
    (rest : List (ReplEnv × Input)) :
    Repl.runLoop host ((env, .line line) :: rest) repl = goesOn host rest repl id
      ((dispatchRows ε fun _ => env.toClientEnv).outcome repl.session) := by
  refine runLoop_call (c := .dispatchRecipe) h rfl ?_ rest
  rw [dispatchRows, bind_assoc]
  rfl

end

/-! ### The environment of an ioctl -/

section

variable {env env' : ℕ → ClientEnv} {session session' : Session}

/-- An ioctl meets the environment of its number only. -/
theorem ioctl_congr (h : env session.issued.length = env' session.issued.length)
    (cmd : ClientEnv → Ioctl) :
    (ioctl env cmd : ClientM ε Int).outcome session =
      (ioctl env' cmd : ClientM ε Int).outcome session := by
  cases hioctl : mtdpartctlChrdevIoctl (env session.issued.length).toEnv session.dev
      (cmd (env session.issued.length)) with
  | error o => rw [outcome_ioctl_error env hioctl, h, outcome_ioctl_error env' (h ▸ hioctl)]
  | ok r => rw [outcome_ioctl_ok env hioctl, h, outcome_ioctl_ok env' (h ▸ hioctl)]

theorem outcome_bind_congr {α β : Type} {x y : ClientM ε α}
    (h : x.outcome session = y.outcome session) (f : α → ClientM ε β) :
    (x >>= f).outcome session = (y >>= f).outcome session := by
  rw [outcome_bind, outcome_bind, h]

theorem dispatchRows_congr (h : env session.issued.length = env' session.issued.length) :
    (dispatchRows ε env).outcome session = (dispatchRows ε env').outcome session := by
  exact outcome_bind_congr (ioctl_congr h _) _

/-- A check before the calls leaves the session alone, so only the calls after it count. -/
theorem outcome_returnErr_congr {α β : Type} (x : Except (ClientError ε) α)
    {f g : α → ClientM ε β} (h : ∀ a, (f a).outcome session = (g a).outcome session) :
    (returnErr x >>= f).outcome session = (returnErr x >>= g).outcome session := by
  cases x with
  | error err =>
    have hfails : (returnErr (.error err) : ClientM ε α).outcome session =
      (.error (.returned err), session) := rfl
    rw [outcome_bind_error hfails, outcome_bind_error hfails]
  | ok a => exact h a

variable {parseUint : GoString → Except ε UInt64} {row : Partition}

theorem addRow_congr (h : env session.issued.length = env' session.issued.length) :
    (addRow parseUint env row).outcome session = (addRow parseUint env' row).outcome session := by
  unfold addRow addRecipePart
  -- Up to the ioctl the environment plays no part.
  refine outcome_returnErr_congr _ fun flags => ?_
  refine outcome_returnErr_congr _ fun offset => ?_
  refine outcome_returnErr_congr _ fun length => ?_
  exact outcome_bind_congr (ioctl_congr h _) _

/-- A row that was added issued one ioctl. -/
theorem addRow_issued_length (h : (addRow parseUint env row).outcome session = (.ok (), session')) :
    session'.issued.length = session.issued.length + 1 := by
  rcases malformed_or_wellFormed parseUint row with hbad | ⟨offset, length, hgood⟩
  · obtain ⟨err, herr⟩ := addRow_malformed env hbad
    cases herr.symm.trans h
  · rw [addRow_wellFormed env hgood] at h
    cases hioctl : mtdpartctlChrdevIoctl (env session.issued.length).toEnv session.dev
        (rowCmd row offset length (env session.issued.length)) with
    | error o =>
      rw [outcome_bind_error (outcome_ioctl_error env hioctl)] at h
      cases (Prod.mk.inj h).1
    | ok r =>
      rw [outcome_check (outcome_ioctl_ok env hioctl)] at h
      rw [← (Prod.mk.inj h).2, Session.returned, List.length_append, List.length_singleton]

end

/-! ### All rows -/

section

variable {host : Host ε} {env : ℕ → ReplEnv}

/-- The session the rows end in is that after the typed lines, up to the one that failed. -/
theorem loop_typed {lines : List GoString} {rows : List Partition}
    (hlines : List.Forall₂ (TypesRow host) lines rows) :
    ∀ (repl : Repl) {res : Except (Failure ε) Unit} {session : Session},
      (useConfigFile.loop (host.parseUint 0 64) (fun n => (env n).toClientEnv) rows).outcome
        repl.session = (res, session) →
      (res = .ok () ∧ session.issued.length = repl.session.issued.length + lines.length ∧
        ∀ rest, Repl.runLoop host (typed env repl.session.issued.length lines ++ rest) repl =
          Repl.runLoop host rest ⟨session, repl.recipePartsCount + UInt64.ofNat lines.length⟩) ∨
      res ≠ .ok () ∧ ∃ k < lines.length,
        Repl.runLoop host (typed env repl.session.issued.length (lines.take (k + 1))) repl =
          (endOf res, ⟨session, repl.recipePartsCount + UInt64.ofNat k⟩) := by
  induction hlines with
  | nil =>
    intro repl res session hout
    obtain ⟨rfl, rfl⟩ := Prod.mk.inj hout
    refine Or.inl ⟨rfl, rfl, fun rest => ?_⟩
    show Repl.runLoop host rest repl = _
    exact congrArg (fun count => Repl.runLoop host rest ⟨_, count⟩) (UInt64.add_zero _).symm
  | @cons line row lines rows hline _ ih =>
    intro repl res session hout
    have hrow := fun rest => runLoop_row (env repl.session.issued.length) repl hline rest
    have hcongr : (addRow (host.parseUint 0 64)
        (fun _ => (env repl.session.issued.length).toClientEnv) row).outcome repl.session =
        (addRow (host.parseUint 0 64) (fun n => (env n).toClientEnv) row).outcome repl.session :=
      addRow_congr rfl
    rw [hcongr] at hrow
    cases hadd : (addRow (host.parseUint 0 64) (fun n => (env n).toClientEnv) row).outcome
      repl.session with
    | mk first session₁ =>
      rw [hadd] at hrow
      cases first with
      | error failure =>
        -- The rows end here, and so does what is typed.
        have hloop : (Except.error failure, session₁) = (res, session) :=
          (outcome_bind_error hadd _).symm.trans hout
        obtain ⟨rfl, rfl⟩ := Prod.mk.inj hloop
        refine Or.inr ⟨(by simp), 0, Nat.succ_pos _, ?_⟩
        have hzero : repl.recipePartsCount + UInt64.ofNat 0 = repl.recipePartsCount :=
          UInt64.add_zero _
        rw [List.take_succ_cons, List.take_zero, typed_cons, hrow, hzero]
        cases failure <;> rfl
      | ok u =>
        have hloop : (useConfigFile.loop (host.parseUint 0 64) (fun n => (env n).toClientEnv)
            rows).outcome session₁ = (res, session) := (outcome_bind_ok hadd _).symm.trans hout
        have hissued := addRow_issued_length hadd
        have hcount : ∀ n, repl.recipePartsCount + 1 + UInt64.ofNat n =
            repl.recipePartsCount + UInt64.ofNat (n + 1) := by
          intro n
          rw [UInt64.ofNat_add, UInt64.add_comm (UInt64.ofNat n), ← UInt64.add_assoc]
          rfl
        have htail := ih ⟨session₁, repl.recipePartsCount + 1⟩ hloop
        simp only [hissued, hcount] at htail
        rcases htail with ⟨hok, hlen, htail⟩ | ⟨hne, k, hk, htail⟩
        · refine Or.inl ⟨hok, ?_, fun rest => ?_⟩
          · rw [hlen, List.length_cons]
            omega
          · rw [typed_cons, List.cons_append, hrow]
            exact htail rest
        · refine Or.inr ⟨hne, k + 1, Nat.succ_lt_succ hk, ?_⟩
          rw [List.take_succ_cons, typed_cons, hrow]
          exact htail

/-- **A configuration file does what a user does who types it.**  The user types the rows and
then `dispatch_recipe`, and stops after the line that fails: the `k` lines before it were
accepted. -/
theorem configFile_typed {lines : List GoString} {dispatch : GoString} {rows : List Partition}
    (hlines : List.Forall₂ (TypesRow host) lines rows)
    (hdispatch : Types host dispatch "dispatch_recipe" []) (repl : Repl)
    {res : Except (Failure ε) Unit} {session : Session}
    (hfile : (useConfigFile (host.parseUint 0 64) (fun n => (env n).toClientEnv) rows).outcome
      repl.session = (res, session)) :
    ∃ k ≤ rows.length, (res = .ok () → k = rows.length) ∧
      Repl.runLoop host (typed env repl.session.issued.length
        ((lines ++ [dispatch]).take (k + 1))) repl =
        (endOf res, ⟨session, repl.recipePartsCount + UInt64.ofNat k⟩) := by
  have hlen := hlines.length_eq
  cases hloop : (useConfigFile.loop (host.parseUint 0 64) (fun n => (env n).toClientEnv)
    rows).outcome repl.session with
  | mk first session₁ =>
    rcases loop_typed hlines repl hloop with ⟨rfl, hissued, hrun⟩ | ⟨hne, k, hk, hrun⟩
    · -- All rows were added, and the dispatch decides.
      have hlast : (dispatchRows ε fun n => (env n).toClientEnv).outcome session₁ =
          (res, session) := (outcome_bind_ok hloop _).symm.trans hfile
      have hcongr : (dispatchRows ε fun _ => (env session₁.issued.length).toClientEnv).outcome
          session₁ = (dispatchRows ε fun n => (env n).toClientEnv).outcome session₁ :=
        dispatchRows_congr rfl
      refine ⟨rows.length, le_rfl, fun _ => rfl, ?_⟩
      rw [List.take_of_length_le (by simp [hlen]), typed_append, hrun, ← hissued, hlen, typed_cons,
        runLoop_dispatch hdispatch, hcongr, hlast]
      cases res with
      | ok u => rfl
      | error failure => cases failure <;> rfl
    · cases first with
      | ok u => exact absurd rfl hne
      | error failure =>
        have heq : (Except.error failure, session₁) = (res, session) :=
          (outcome_bind_error hloop _).symm.trans hfile
        obtain ⟨rfl, rfl⟩ := Prod.mk.inj heq
        refine ⟨k, by omega, fun hok => (by cases hok), ?_⟩
        rw [List.take_append_of_le_length (by omega)]
        exact hrun

end

/-- A host whose users type words without quotes. -/
def typingHost : Host Unit := { oneRowHost with parseWords := fun line => some (line.splitOn 0x20) }

/-- The line of `oneRow`. -/
def oneRowLine : GoString := ascii "add_recipe_part 0 0x1000 boot ro"

/-- The file of one row and the two lines. -/
theorem configFile_typed_oneRow :
    ∃ session, (useConfigFile parseTwo (fun _ => .keeping) [oneRow]).outcome
        (Session.start openDevice) = (.ok (), session) ∧
      Repl.runLoop typingHost (typed (fun _ => .keeping) 0 [oneRowLine, ascii "dispatch_recipe"])
        (.new openDevice) = (.reading, ⟨session, 1⟩) := by
  have hrow : TypesRow typingHost oneRowLine oneRow := ⟨by decide, rfl⟩
  have hdispatch : Types typingHost (ascii "dispatch_recipe") "dispatch_recipe" [] :=
    ⟨by decide, rfl⟩
  obtain ⟨session, hfile⟩ : ∃ session, (useConfigFile parseTwo (fun _ => .keeping)
    [oneRow]).outcome (Session.start openDevice) = (.ok (), session) := ⟨_, rfl⟩
  refine ⟨session, hfile, ?_⟩
  obtain ⟨k, -, hk, hrun⟩ := @configFile_typed Unit typingHost (fun _ => .keeping) _ _ _
    (.cons hrow .nil) hdispatch (.new openDevice) _ _ hfile
  obtain rfl := hk rfl
  exact hrun

end Mtdpartikr.Client
