import Mtdpartikr.Kernel.Equiv.DeviceRun

/-!
# Batches of `RECIPE_ADD_PART` requests

`submit` makes the requests of a list one after another, whatever becomes of each.

* `submit_allAccepted_iff`: a batch is accepted as a whole iff the greedy packing of
  `Lib/Packing.lean` accepts it, and then the recipe grows by its parts in order.
* `submit_perm`: whether a batch is accepted as a whole does not depend on its order.
-/

namespace Mtdpartikr

/-- A request and the outcome of the allocation made for it. -/
structure AddRequest where
  partition : ExtMtdPartitionInfo
  kvzalloc : Bool
  deriving DecidableEq

/-- The requests one after another: the outcome of each and the device in the end.  A call that
does not return is the last one. -/
def submit (dev : MtdpartctlDevice) : List AddRequest → List (Except Oops Int) × MtdpartctlDevice
  | [] => ([], dev)
  | q :: rest =>
    match addRecipePart dev q.partition q.kvzalloc with
    | .ok (ret, dev') => (.ok ret :: (submit dev' rest).1, (submit dev' rest).2)
    | .error o => ([.error o], dev)

/-- Every request succeeds. -/
def AllAccepted (outcomes : List (Except Oops Int)) : Prop := ∀ o ∈ outcomes, o = .ok 0

/-! ### Full acceptance as packing -/

/-- The part a request asks for, with its allocation. -/
def AddRequest.offer (q : AddRequest) : MtdRecipePart × Bool :=
  (newRecipePart q.partition, q.kvzalloc)

/-- What an offer must meet on its own. -/
def OfferFits (mtd : MtdInfo) (x : MtdRecipePart × Bool) : Prop :=
  Fits mtd x.1.offset x.1.length ∧ x.2 = true

/-- What two offers must meet together. -/
def OffersDisjoint (x y : MtdRecipePart × Bool) : Prop := Disjoint x.1.range y.1.range

/-- An offer is taken iff the recipe has room for the request and its allocation succeeds. -/
theorem offer_iff (mtd : MtdInfo) (parts : List MtdRecipePart) (q : AddRequest) :
    (OfferFits mtd q.offer ∧ ∀ y ∈ parts.map (·, true), OffersDisjoint y q.offer) ↔
      Acceptable mtd parts q.partition.base ∧ q.kvzalloc = true := by
  simp only [OfferFits, OffersDisjoint, AddRequest.offer, List.forall_mem_map,
    newRecipePart_range]
  constructor
  · rintro ⟨⟨hfits, hk⟩, hfree⟩
    exact ⟨⟨hfits, hfree⟩, hk⟩
  · rintro ⟨hacc, hk⟩
    exact ⟨⟨hacc.fits, hk⟩, hacc.free⟩

/-- **A batch is accepted as a whole iff its requests can be packed one by one**, and then the
recipe is the old one followed by the new parts. -/
theorem submit_allAccepted_iff (requests : List AddRequest) :
    ∀ {dev : MtdpartctlDevice}, RecipeInv dev.backingMtd dev.recipe.partitions →
      (AllAccepted (submit dev requests).1 ↔
        Packing.Accepts (OfferFits dev.backingMtd) OffersDisjoint
          (dev.recipe.partitions.map (·, true)) (requests.map AddRequest.offer)) ∧
      (AllAccepted (submit dev requests).1 →
        (submit dev requests).2.recipe.partitions =
          dev.recipe.partitions ++ requests.map fun q => newRecipePart q.partition) := by
  induction requests with
  | nil => intro dev _; simp [submit, AllAccepted, Packing.Accepts]
  | cons q rest ih =>
    intro dev hinv
    rw [List.map_cons, Packing.Accepts, offer_iff]
    rcases addRecipePart_cases hinv q.partition q.kvzalloc with
      ⟨hacc, hk, heq⟩ | ⟨hacc, hk, heq⟩ | ⟨hacc, heq⟩ | ⟨hacc, herase, heq⟩
    · -- Taken: the rest of the batch meets the longer recipe.
      obtain ⟨hiff, hrecipe⟩ := @ih (dev.appendPart q.partition) (hinv.append hacc)
      have hpool : (dev.appendPart q.partition).recipe.partitions.map (·, true) =
          dev.recipe.partitions.map (·, true) ++ [q.offer] := by
        simp [MtdpartctlDevice.appendPart, AddRequest.offer, hk]
      have hall : AllAccepted (submit dev (q :: rest)).1 ↔
          AllAccepted (submit (dev.appendPart q.partition) rest).1 := by
        simp [submit, heq, AllAccepted]
      rw [hall, hiff, hpool]
      refine ⟨⟨fun h => ⟨⟨hacc, hk⟩, h⟩, fun h => h.2⟩, fun h => ?_⟩
      have hdev : (submit dev (q :: rest)).2 = (submit (dev.appendPart q.partition) rest).2 := by
        simp only [submit, heq]
      rw [hdev, hrecipe (hiff.mpr (hpool ▸ h))]
      simp [MtdpartctlDevice.appendPart]
    · have hno : ¬ AllAccepted (submit dev (q :: rest)).1 := by
        intro h
        have h0 := h (.ok (neg .ENOMEM)) (by simp [submit, heq])
        exact neg_ne_zero .ENOMEM (Except.ok.inj h0)
      exact ⟨iff_of_false hno fun h => by simp [hk] at h, fun h => absurd h hno⟩
    · have hno : ¬ AllAccepted (submit dev (q :: rest)).1 := by
        intro h
        have h0 := h (.ok (neg .EINVAL)) (by simp [submit, heq])
        exact neg_ne_zero .EINVAL (Except.ok.inj h0)
      exact ⟨iff_of_false hno fun h => hacc h.1.1, fun h => absurd h hno⟩
    · have hno : ¬ AllAccepted (submit dev (q :: rest)).1 := by
        intro h
        have h0 := h (.error .divideError) (by simp [submit, heq])
        cases h0
      exact ⟨iff_of_false hno fun h => hacc h.1.1, fun h => absurd h hno⟩

/-- A permuted batch is accepted as a whole when the batch is. -/
theorem AllAccepted.perm {dev : MtdpartctlDevice}
    (hinv : RecipeInv dev.backingMtd dev.recipe.partitions) {requests requests' : List AddRequest}
    (hp : requests.Perm requests') (h : AllAccepted (submit dev requests).1) :
    AllAccepted (submit dev requests').1 := by
  rw [(submit_allAccepted_iff requests hinv).1] at h
  rw [(submit_allAccepted_iff requests' hinv).1]
  exact h.perm (fun hd => Disjoint.symm hd) (hp.map _)

/-! ### Outcomes -/

/-- A request is accepted or rejected, unless the backing MTD has no erase size. -/
theorem submit_outcomes (requests : List AddRequest) :
    ∀ {dev : MtdpartctlDevice}, RecipeInv dev.backingMtd dev.recipe.partitions →
      ∀ o ∈ (submit dev requests).1, o = .ok 0 ∨ (∃ ret, o = .ok ret ∧ ret < 0) ∨
        (o = .error .divideError ∧ dev.backingMtd.erasesize = 0) := by
  induction requests with
  | nil => intro dev _ o ho; simp [submit] at ho
  | cons q rest ih =>
    intro dev hinv o ho
    rcases addRecipePart_cases hinv q.partition q.kvzalloc with
      ⟨hacc, _, heq⟩ | ⟨_, _, heq⟩ | ⟨_, heq⟩ | ⟨_, herase, heq⟩
    · simp only [submit, heq, List.mem_cons] at ho
      rcases ho with rfl | ho
      · exact Or.inl rfl
      · exact @ih (dev.appendPart q.partition) (hinv.append hacc) o ho
    · simp only [submit, heq, List.mem_cons] at ho
      rcases ho with rfl | ho
      · exact Or.inr (Or.inl ⟨_, rfl, neg_lt_zero _⟩)
      · exact ih hinv o ho
    · simp only [submit, heq, List.mem_cons] at ho
      rcases ho with rfl | ho
      · exact Or.inr (Or.inl ⟨_, rfl, neg_lt_zero _⟩)
      · exact ih hinv o ho
    · simp only [submit, heq, List.mem_singleton] at ho
      exact Or.inr (Or.inr ⟨ho, herase.erasesize⟩)

/-- **Full acceptance of a batch does not depend on its order.**  In any order an accepted batch
leaves the recipe followed by the parts in that order; a batch with a rejected request has one in
every order. -/
theorem submit_perm {dev : MtdpartctlDevice} (h : Reachable dev)
    {requests requests' : List AddRequest} (hp : requests.Perm requests') :
    (AllAccepted (submit dev requests).1 →
      AllAccepted (submit dev requests').1 ∧
      (submit dev requests').2.recipe.partitions =
        dev.recipe.partitions ++ requests'.map fun q => newRecipePart q.partition) ∧
    ((∃ o ∈ (submit dev requests).1, o ≠ .ok 0) → ∃ o ∈ (submit dev requests').1, o ≠ .ok 0) ∧
    (∀ o ∈ (submit dev requests).1, o = .ok 0 ∨ (∃ ret, o = .ok ret ∧ ret < 0) ∨
      (o = .error .divideError ∧ dev.backingMtd.erasesize = 0)) := by
  have hinv := h.recipeInv
  refine ⟨fun hall => ?_, ?_, submit_outcomes requests hinv⟩
  · have hall' := hall.perm hinv hp
    exact ⟨hall', (submit_allAccepted_iff requests' hinv).2 hall'⟩
  · rintro ⟨o, ho, hne⟩
    by_contra hno
    refine hne (AllAccepted.perm hinv hp.symm ?_ o ho)
    intro o' ho'
    by_contra hne'
    exact hno ⟨o', ho', hne'⟩

/-- Two blocks in both orders, and the second one with an empty range. -/
theorem submit_perm_blocks :
    (AllAccepted (submit threeBlocks [⟨blockPart 0, true⟩, ⟨blockPart 2, true⟩]).1 ∧
      (submit threeBlocks [⟨blockPart 0, true⟩, ⟨blockPart 2, true⟩]).2.recipe.partitions =
        [newRecipePart (blockPart 0), newRecipePart (blockPart 2)] ∧
      AllAccepted (submit threeBlocks [⟨blockPart 2, true⟩, ⟨blockPart 0, true⟩]).1 ∧
      (submit threeBlocks [⟨blockPart 2, true⟩, ⟨blockPart 0, true⟩]).2.recipe.partitions =
        [newRecipePart (blockPart 2), newRecipePart (blockPart 0)]) ∧
    ∃ o ∈ (submit threeBlocks [⟨blockPart 2, true⟩,
      ⟨⟨⟨0, 0, CBuf.zero _⟩, false, false⟩, true⟩]).1, o ≠ .ok 0 := by
  have hall : AllAccepted (submit threeBlocks [⟨blockPart 0, true⟩, ⟨blockPart 2, true⟩]).1 := by
    have houtcomes : (submit threeBlocks [⟨blockPart 0, true⟩, ⟨blockPart 2, true⟩]).1 =
      [.ok 0, .ok 0] := rfl
    rw [houtcomes]
    exact fun o ho => by simpa using ho
  have hswap := (submit_perm reachable_threeBlocks (List.Perm.swap _ _ [])).1 hall
  refine ⟨⟨hall, rfl, hswap.1, hswap.2⟩, ?_⟩
  refine (submit_perm reachable_threeBlocks (List.Perm.swap _ _ [])).2.1
    ⟨.ok (neg .EINVAL), ?_, fun h => neg_ne_zero .EINVAL (Except.ok.inj h)⟩
  have hadd : addRecipePart threeBlocks ⟨⟨0, 0, CBuf.zero _⟩, false, false⟩ true =
    .ok (neg .EINVAL, threeBlocks) := rfl
  simp only [submit, hadd]
  exact List.mem_cons_self

end Mtdpartikr
