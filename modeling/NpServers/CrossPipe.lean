import Mathlib.Data.List.Find
import Mathlib.Data.List.Perm.Subperm
import Mathlib.Data.List.Range
import Mathlib.Tactic.Common
import NpServers.LeastFreeSlot

namespace NpServers.Shell

/-!
# The countdown table of numbered pipes

Both shell servers keep one `cross_pipe` record for each client.  Every
non-blank line first runs `count_down_and_check`; a command with a cross number
then looks for a pipe with the same remaining count and inserts a new one when
there is none.  The four functions are the same in `np_single_proc.c` and
`np_multi_proc.c`.

Array reads and writes are modelled by functions on indices.  Every index the
functions use is below `fdInforListSize`.  The value `-1` of `output_point` and
of the position returned by the search is kept.
-/

/-- `fd_infor_list_size`. -/
def fdInforListSize : Nat := 511

/-- The two descriptors that `pipe()` stores, `fd[0]` and `fd[1]`. -/
structure PipeFds where
  readFd : Int
  writeFd : Int
  deriving Repr, DecidableEq

/-- `struct fd_infor`; a negative count marks a block without data. -/
structure FdInfor where
  count : Int
  writeFd : Int
  readFd : Int
  deriving Repr, DecidableEq

/-- The descriptors stored in a data block. -/
def FdInfor.fds (block : FdInfor) : PipeFds where
  readFd := block.readFd
  writeFd := block.writeFd

/--
`cross_pipe`.  The array `close_fd_record` has `data_num` entries, so the
counter is the length of the record.  `recordFreed` says that the array was
passed to `free` since it was built.
-/
structure CrossPipe where
  outputPoint : Int
  minInputPoint : Nat
  closeFdRecord : List Nat
  recordFreed : Bool
  list : Nat → FdInfor

namespace CrossPipe

/-- `data_num`. -/
def dataNum (infor : CrossPipe) : Nat :=
  infor.closeFdRecord.length

/-- `initial_cross_pipe_infor`. -/
def initialCrossPipeInfor : CrossPipe where
  outputPoint := -1
  minInputPoint := 0
  closeFdRecord := []
  recordFreed := false
  list := fun _ => { count := -1, writeFd := -1, readFd := -1 }

/-- One round of the loop in `count_down_and_check`. -/
def countDownSlot
    (infor : CrossPipe)
    (i : Nat) : CrossPipe :=
  if 0 < (infor.list i).count then
    let left := (infor.list i).count - 1
    if left = 0 then
      { infor with
        outputPoint := i
        list := Function.update infor.list i { infor.list i with count := -1 } }
    else
      { infor with
        closeFdRecord := infor.closeFdRecord ++ [i]
        list := Function.update infor.list i { infor.list i with count := left } }
  else
    infor

/-- `count_down_and_check`. -/
def countDownAndCheck (infor : CrossPipe) : CrossPipe :=
  let counted :=
    (List.range fdInforListSize).foldl countDownSlot
      { infor with outputPoint := -1, closeFdRecord := [], recordFreed := false }
  if 0 ≤ counted.outputPoint ∧ counted.outputPoint < counted.minInputPoint then
    { counted with minInputPoint := counted.outputPoint.toNat }
  else
    counted

/-- The sign of a cross number only selects the error pipe. -/
def crossCount (crossNum : Int) : Int :=
  if crossNum < 0 then crossNum * -1 else crossNum

/-- `update_cross_pipe_fd`. -/
def updateCrossPipeFd
    (infor : CrossPipe)
    (fd : PipeFds)
    (crossNum : Int) : CrossPipe :=
  let stored :=
    { infor with
      list := Function.update infor.list infor.minInputPoint
        { count := crossCount crossNum
          writeFd := fd.writeFd
          readFd := fd.readFd } }
  match (List.range fdInforListSize).find? fun i =>
      decide ((stored.list i).count < 0) with
  | some i => { stored with minInputPoint := i }
  | none => stored

/-- `find_same_cross_pipe`; the descriptors are those of the returned block. -/
def findSameCrossPipe
    (infor : CrossPipe)
    (crossNum : Int) : Int :=
  match infor.closeFdRecord.find? fun fdPos =>
      decide (crossCount crossNum = (infor.list fdPos).count) with
  | some fdPos => fdPos
  | none => -1

/-- The blocks the search did find, as descriptors loaded into `fd`. -/
def fdsAt
    (infor : CrossPipe)
    (pos : Int) : PipeFds :=
  (infor.list pos.toNat).fds

/-- A block with a positive count holds a pipe that is still waiting. -/
def Pending
    (infor : CrossPipe)
    (i : Nat) : Prop :=
  i < fdInforListSize ∧ 0 < (infor.list i).count

instance (infor : CrossPipe) (i : Nat) : Decidable (infor.Pending i) :=
  inferInstanceAs (Decidable (_ ∧ _))

/-- The indices of the waiting blocks, in increasing order. -/
def pendingSlots (infor : CrossPipe) : List Nat :=
  (List.range fdInforListSize).filter fun i => decide (0 < (infor.list i).count)

/-- Membership in the list of waiting blocks. -/
@[simp] theorem mem_pendingSlots
    {infor : CrossPipe}
    {i : Nat} :
    i ∈ infor.pendingSlots ↔ infor.Pending i := by
  simp [pendingSlots, Pending]

/-- The list of waiting blocks has no repetition. -/
theorem pendingSlots_nodup
    (infor : CrossPipe) :
    infor.pendingSlots.Nodup :=
  List.nodup_range.filter _

/-! ## What one countdown does -/

/-- The effect of one countdown on a data block. -/
def tick (block : FdInfor) : FdInfor :=
  if 0 < block.count then
    if block.count = 1 then
      { block with count := -1 }
    else
      { block with count := block.count - 1 }
  else
    block

@[simp] theorem tick_fds
    (block : FdInfor) :
    (tick block).fds = block.fds := by
  unfold tick
  split
  · split <;> rfl
  · rfl

/-- A count stays positive exactly when it was above one, and then drops by one. -/
theorem tick_count_pos_iff
    {block : FdInfor} :
    0 < (tick block).count ↔ 1 < block.count := by
  unfold tick
  split_ifs <;> grind

theorem tick_count_of_one_lt
    {block : FdInfor}
    (waiting : 1 < block.count) :
    (tick block).count = block.count - 1 := by
  unfold tick
  split_ifs <;> grind

/-- A block is free after the countdown unless its count was above one. -/
theorem tick_count_neg
    {block : FdInfor}
    (nonzero : block.count ≠ 0)
    (notWaiting : ¬ 1 < block.count) :
    (tick block).count < 0 := by
  unfold tick
  split_ifs <;> grind

/-- Counts never become zero. -/
theorem tick_count_ne_zero
    {block : FdInfor}
    (nonzero : block.count ≠ 0) :
    (tick block).count ≠ 0 := by
  by_cases waiting : 1 < block.count
  · rw [tick_count_of_one_lt waiting]
    omega
  · have := tick_count_neg nonzero waiting
    omega

/-- The last index below a bound whose count is one, or `-1`. -/
def lastExpiring (list : Nat → FdInfor) : Nat → Int
  | 0 => -1
  | bound + 1 =>
      if (list bound).count = 1 then bound else lastExpiring list bound

/-- The loop of `count_down_and_check` after `bound` rounds. -/
theorem foldl_countDownSlot
    (infor : CrossPipe)
    (bound : Nat) :
    (List.range bound).foldl countDownSlot
        { infor with outputPoint := -1, closeFdRecord := [], recordFreed := false } =
      { outputPoint := lastExpiring infor.list bound
        minInputPoint := infor.minInputPoint
        closeFdRecord :=
          (List.range bound).filter fun i => decide (1 < (infor.list i).count)
        recordFreed := false
        list := fun i =>
          if i < bound then tick (infor.list i) else infor.list i } := by
  induction bound with
  | zero =>
      simp [lastExpiring]
  | succ bound inductionHypothesis =>
      rw [List.range_succ, List.foldl_append, inductionHypothesis]
      -- the block at `bound` is still untouched when its round starts
      have listAfter
          (block : FdInfor)
          (isTick : block = tick (infor.list bound)) :
          Function.update
              (fun i =>
                if i < bound then tick (infor.list i) else infor.list i)
              bound block =
            fun i =>
              if i < bound + 1 then tick (infor.list i) else infor.list i := by
        funext i
        by_cases here : i = bound
        · subst here
          simp [isTick]
        · have sameSide : i < bound + 1 ↔ i < bound := by omega
          simp [Function.update_of_ne here, sameSide]
      simp only [List.foldl_cons, List.foldl_nil, countDownSlot, lt_irrefl,
        if_false, List.filter_append, List.filter_cons, List.filter_nil,
        lastExpiring]
      by_cases positive : 0 < (infor.list bound).count
      · by_cases expires : (infor.list bound).count = 1
        · have block :
              { infor.list bound with count := -1 } =
                tick (infor.list bound) := by
            simp [tick, expires]
          simp [expires, listAfter _ block]
        · have block :
              { infor.list bound with count := (infor.list bound).count - 1 } =
                tick (infor.list bound) := by
            simp [tick, positive, expires]
          have above : 1 < (infor.list bound).count := by omega
          have leftNonzero : (infor.list bound).count - 1 ≠ 0 := by omega
          simp [positive, above, expires, leftNonzero, listAfter _ block]
      · have block : infor.list bound = tick (infor.list bound) := by
          simp [tick, positive]
        have notAbove : ¬ 1 < (infor.list bound).count := by omega
        have notOne : (infor.list bound).count ≠ 1 := by omega
        have unchanged := listAfter _ block
        rw [Function.update_eq_self_iff.mpr (by simp)] at unchanged
        simp [positive, notAbove, notOne, unchanged]

/-- The last expiring index is one that expires, or no index does. -/
theorem lastExpiring_cases
    (list : Nat → FdInfor)
    (bound : Nat) :
    (lastExpiring list bound = -1 ∧ ∀ i < bound, (list i).count ≠ 1) ∨
      ∃ i < bound, lastExpiring list bound = i ∧ (list i).count = 1 := by
  induction bound with
  | zero =>
      left
      simp [lastExpiring]
  | succ bound inductionHypothesis =>
      by_cases expires : (list bound).count = 1
      · right
        exact ⟨bound, by omega, by simp [lastExpiring, expires], expires⟩
      · rcases inductionHypothesis with ⟨isNone, noneBelow⟩ | ⟨i, inBound, isLast, isOne⟩
        · left
          refine ⟨by simpa [lastExpiring, expires] using isNone, ?_⟩
          intro i inBound
          rcases Nat.lt_succ_iff_lt_or_eq.mp inBound with below | here
          · exact noneBelow i below
          · exact here ▸ expires
        · right
          exact ⟨i, by omega, by simpa [lastExpiring, expires] using isLast, isOne⟩

/-- The table after a countdown, in closed form. -/
theorem countDownAndCheck_eq
    (infor : CrossPipe) :
    infor.countDownAndCheck =
      { outputPoint := lastExpiring infor.list fdInforListSize
        minInputPoint :=
          if 0 ≤ lastExpiring infor.list fdInforListSize ∧
              lastExpiring infor.list fdInforListSize < infor.minInputPoint then
            (lastExpiring infor.list fdInforListSize).toNat
          else
            infor.minInputPoint
        closeFdRecord :=
          (List.range fdInforListSize).filter
            fun i => decide (1 < (infor.list i).count)
        recordFreed := false
        list := fun i =>
          if i < fdInforListSize then tick (infor.list i) else infor.list i } := by
  unfold countDownAndCheck
  rw [foldl_countDownSlot]
  dsimp only
  split_ifs <;> rfl

theorem countDownAndCheck_list
    (infor : CrossPipe)
    (i : Nat) :
    (infor.countDownAndCheck).list i =
      if i < fdInforListSize then tick (infor.list i) else infor.list i := by
  rw [countDownAndCheck_eq]

@[simp] theorem countDownAndCheck_recordFreed
    (infor : CrossPipe) :
    (infor.countDownAndCheck).recordFreed = false := by
  rw [countDownAndCheck_eq]

/-- The record built by the countdown lists exactly the blocks still waiting. -/
theorem countDownAndCheck_closeFdRecord
    (infor : CrossPipe) :
    (infor.countDownAndCheck).closeFdRecord =
      (infor.countDownAndCheck).pendingSlots := by
  rw [countDownAndCheck_eq, pendingSlots]
  apply List.filter_congr
  intro i member
  have inBound : i < fdInforListSize := by simpa using member
  simp [inBound, tick_count_pos_iff]

theorem countDownAndCheck_minInputPoint
    (infor : CrossPipe) :
    (infor.countDownAndCheck).minInputPoint =
      if 0 ≤ (infor.countDownAndCheck).outputPoint ∧
          (infor.countDownAndCheck).outputPoint < infor.minInputPoint then
        (infor.countDownAndCheck).outputPoint.toNat
      else
        infor.minInputPoint := by
  rw [countDownAndCheck_eq]

/-- The reported output point is either `-1` or an index of the table. -/
theorem outputPoint_cases
    (infor : CrossPipe) :
    ((infor.countDownAndCheck).outputPoint = -1 ∧
        ∀ i < fdInforListSize, (infor.list i).count ≠ 1) ∨
      ∃ i < fdInforListSize,
        (infor.countDownAndCheck).outputPoint = i ∧
          (infor.list i).count = 1 := by
  rw [countDownAndCheck_eq]
  exact lastExpiring_cases infor.list fdInforListSize

/-! ## The cached input point -/

/-- The table seen as occupied slots with a cached index. -/
def cache (infor : CrossPipe) : LeastFreeSlot.Cache Nat where
  used := fun i => decide (0 < (infor.list i).count)
  low := infor.minInputPoint

@[simp] theorem cache_used
    (infor : CrossPipe)
    (i : Nat) :
    infor.cache.used i = decide (0 < (infor.list i).count) :=
  rfl

@[simp] theorem cache_low
    (infor : CrossPipe) :
    infor.cache.low = infor.minInputPoint :=
  rfl

/-- The scan order of the loops over the table. -/
def slots : List Nat :=
  List.range fdInforListSize

theorem slots_increasing : slots.Pairwise (· < ·) :=
  List.pairwise_lt_range

@[simp] theorem mem_slots
    {i : Nat} :
    i ∈ slots ↔ i < fdInforListSize := by
  simp [slots]

/--
What holds of the table between any two operations: a count is negative or
positive, two waiting blocks have different counts, and all blocks below the
cached input point are waiting.
-/
structure Sound (infor : CrossPipe) : Prop where
  nonzero : ∀ i, (infor.list i).count ≠ 0
  distinct :
    ∀ {i j},
      infor.Pending i →
      infor.Pending j →
      (infor.list i).count = (infor.list j).count →
      i = j
  tight : infor.cache.Tight slots

/-- The table of a new client is sound. -/
theorem sound_initialCrossPipeInfor : initialCrossPipeInfor.Sound where
  nonzero := by
    intro i
    simp [initialCrossPipeInfor]
  distinct := by
    intro i j pending
    simp [initialCrossPipeInfor, Pending] at pending
  tight := by
    refine ⟨by simp [cache, initialCrossPipeInfor, fdInforListSize], ?_⟩
    intro i _ below
    simp [cache, initialCrossPipeInfor] at below

/-- Waiting after the countdown means a count above one before it. -/
theorem pending_countDownAndCheck_iff
    {infor : CrossPipe}
    {i : Nat} :
    (infor.countDownAndCheck).Pending i ↔
      i < fdInforListSize ∧ 1 < (infor.list i).count := by
  unfold Pending
  constructor
  · rintro ⟨inBound, positive⟩
    rw [countDownAndCheck_list, if_pos inBound] at positive
    exact ⟨inBound, tick_count_pos_iff.mp positive⟩
  · rintro ⟨inBound, above⟩
    rw [countDownAndCheck_list, if_pos inBound]
    exact ⟨inBound, tick_count_pos_iff.mpr above⟩

/-- A block still waiting after the countdown has lost one from its count. -/
theorem count_countDownAndCheck_of_pending
    {infor : CrossPipe}
    {i : Nat}
    (pending : (infor.countDownAndCheck).Pending i) :
    ((infor.countDownAndCheck).list i).count = (infor.list i).count - 1 := by
  obtain ⟨inBound, above⟩ := pending_countDownAndCheck_iff.mp pending
  rw [countDownAndCheck_list, if_pos inBound, tick_count_of_one_lt above]

/-- The countdown never touches the stored descriptors. -/
theorem fds_countDownAndCheck
    (infor : CrossPipe)
    (i : Nat) :
    ((infor.countDownAndCheck).list i).fds = (infor.list i).fds := by
  rw [countDownAndCheck_list]
  split
  · exact tick_fds _
  · rfl

/-- The countdown reports a block exactly when its count was one. -/
theorem Sound.outputPoint_eq_iff
    {infor : CrossPipe}
    (sound : infor.Sound)
    {i : Nat}
    (inBound : i < fdInforListSize) :
    (infor.countDownAndCheck).outputPoint = i ↔ (infor.list i).count = 1 := by
  rcases infor.outputPoint_cases with
      ⟨isNone, noneExpires⟩ | ⟨last, lastInBound, isLast, lastExpires⟩
  · constructor
    · intro reported
      omega
    · intro expires
      exact absurd expires (noneExpires i inBound)
  · rw [isLast]
    constructor
    · intro same
      have : last = i := by exact_mod_cast same
      exact this ▸ lastExpires
    · intro expires
      have same : last = i :=
        sound.distinct ⟨lastInBound, by omega⟩ ⟨inBound, by omega⟩
          (lastExpires.trans expires.symm)
      exact_mod_cast same

/-- On the cached index, a countdown is the release of the expiring block. -/
theorem Sound.cache_countDownAndCheck
    {infor : CrossPipe}
    (sound : infor.Sound) :
    (infor.countDownAndCheck).cache =
      if 0 ≤ (infor.countDownAndCheck).outputPoint then
        infor.cache.release (infor.countDownAndCheck).outputPoint.toNat
      else
        infor.cache := by
  have usedAfter
      (i : Nat)
      (keeps : (infor.list i).count ≠ 1 ∨ ¬ i < fdInforListSize) :
      decide (0 < ((infor.countDownAndCheck).list i).count) =
        decide (0 < (infor.list i).count) := by
    rw [countDownAndCheck_list]
    split
    · simp only [tick_count_pos_iff, decide_eq_decide]
      rcases keeps with notOne | outside
      · omega
      · omega
    · rfl
  rcases infor.outputPoint_cases with
      ⟨isNone, noneExpires⟩ | ⟨last, inBound, isLast, expires⟩
  · rw [if_neg (by omega)]
    apply LeastFreeSlot.Cache.ext
    · funext i
      rw [cache_used, cache_used]
      apply usedAfter
      by_cases inBound : i < fdInforListSize
      · exact Or.inl (noneExpires i inBound)
      · exact Or.inr inBound
    · rw [cache_low, cache_low, countDownAndCheck_minInputPoint,
        if_neg (by omega)]
  · rw [if_pos (by omega), isLast]
    apply LeastFreeSlot.Cache.ext
    · funext i
      simp only [cache_used, LeastFreeSlot.Cache.release]
      by_cases here : i = last
      · subst here
        rw [countDownAndCheck_list, if_pos inBound]
        simp [tick, expires]
      · rw [Int.toNat_natCast, Function.update_of_ne here]
        apply usedAfter
        by_cases iInBound : i < fdInforListSize
        · left
          intro alsoExpires
          exact here
            (sound.distinct ⟨iInBound, by omega⟩ ⟨inBound, by omega⟩
              (alsoExpires.trans expires.symm))
        · exact Or.inr iInBound
    · simp only [cache_low, LeastFreeSlot.Cache.release]
      rw [countDownAndCheck_minInputPoint, isLast, Int.toNat_natCast]
      by_cases lowers : last < infor.minInputPoint <;> simp [lowers]

/-- The countdown keeps the table sound. -/
theorem Sound.countDownAndCheck
    {infor : CrossPipe}
    (sound : infor.Sound) :
    (infor.countDownAndCheck).Sound where
  nonzero := by
    intro i
    rw [countDownAndCheck_list]
    split
    · exact tick_count_ne_zero (sound.nonzero i)
    · exact sound.nonzero i
  distinct := by
    intro i j pendingI pendingJ sameCount
    rw [count_countDownAndCheck_of_pending pendingI,
      count_countDownAndCheck_of_pending pendingJ] at sameCount
    have wasPendingI := pending_countDownAndCheck_iff.mp pendingI
    have wasPendingJ := pending_countDownAndCheck_iff.mp pendingJ
    exact sound.distinct ⟨wasPendingI.1, by omega⟩ ⟨wasPendingJ.1, by omega⟩
      (by omega)
  tight := by
    rw [sound.cache_countDownAndCheck]
    split
    · rename_i reported
      rcases infor.outputPoint_cases with
          ⟨isNone, _⟩ | ⟨last, inBound, isLast, _⟩
      · omega
      · apply sound.tight.release
        simpa [isLast] using inBound
    · exact sound.tight

/-! ## Searching and inserting -/

theorem crossCount_pos
    {crossNum : Int}
    (given : crossNum ≠ 0) :
    0 < crossCount crossNum := by
  unfold crossCount
  split <;> omega

/-- The search returns `-1`, or a recorded block with the wanted count. -/
theorem findSameCrossPipe_cases
    (infor : CrossPipe)
    (crossNum : Int) :
    (infor.findSameCrossPipe crossNum = -1 ∧
        ∀ i ∈ infor.closeFdRecord, (infor.list i).count ≠ crossCount crossNum) ∨
      ∃ i ∈ infor.closeFdRecord,
        infor.findSameCrossPipe crossNum = i ∧
          (infor.list i).count = crossCount crossNum := by
  unfold findSameCrossPipe
  cases search : infor.closeFdRecord.find? fun fdPos =>
      decide (crossCount crossNum = (infor.list fdPos).count) with
  | none =>
      left
      refine ⟨rfl, ?_⟩
      intro i member same
      have := List.find?_eq_none.mp search i member
      simp [same] at this
  | some found =>
      right
      have matching : crossCount crossNum = (infor.list found).count := by
        simpa using List.find?_some search
      exact ⟨found, List.mem_of_find?_eq_some search, rfl, matching.symm⟩

/-- The table after an insertion, in closed form. -/
theorem updateCrossPipeFd_eq
    (infor : CrossPipe)
    (fd : PipeFds)
    (crossNum : Int) :
    infor.updateCrossPipeFd fd crossNum =
      { infor with
        minInputPoint := (infor.updateCrossPipeFd fd crossNum).minInputPoint
        list := Function.update infor.list infor.minInputPoint
          { count := crossCount crossNum
            writeFd := fd.writeFd
            readFd := fd.readFd } } := by
  unfold updateCrossPipeFd
  dsimp only
  split <;> rfl

@[simp] theorem updateCrossPipeFd_outputPoint
    (infor : CrossPipe)
    (fd : PipeFds)
    (crossNum : Int) :
    (infor.updateCrossPipeFd fd crossNum).outputPoint = infor.outputPoint := by
  rw [updateCrossPipeFd_eq]

@[simp] theorem updateCrossPipeFd_closeFdRecord
    (infor : CrossPipe)
    (fd : PipeFds)
    (crossNum : Int) :
    (infor.updateCrossPipeFd fd crossNum).closeFdRecord =
      infor.closeFdRecord := by
  rw [updateCrossPipeFd_eq]

theorem updateCrossPipeFd_list
    (infor : CrossPipe)
    (fd : PipeFds)
    (crossNum : Int) :
    (infor.updateCrossPipeFd fd crossNum).list =
      Function.update infor.list infor.minInputPoint
        { count := crossCount crossNum
          writeFd := fd.writeFd
          readFd := fd.readFd } := by
  rw [updateCrossPipeFd_eq]

/-- On the cached index, an insertion occupies the cached slot. -/
theorem cache_updateCrossPipeFd
    {infor : CrossPipe}
    (nonzero : ∀ i, (infor.list i).count ≠ 0)
    {fd : PipeFds}
    {crossNum : Int}
    (given : crossNum ≠ 0) :
    (infor.updateCrossPipeFd fd crossNum).cache =
      infor.cache.occupy slots := by
  have positive := crossCount_pos given
  have usedAfter :
      (infor.updateCrossPipeFd fd crossNum).cache.used =
        Function.update infor.cache.used infor.cache.low true := by
    funext i
    rw [cache_used, updateCrossPipeFd_list]
    by_cases here : i = infor.minInputPoint
    · subst here
      simp [positive]
    · simp [Function.update_of_ne here]
  apply LeastFreeSlot.Cache.ext
  · exact usedAfter
  · -- a block is free for the loop exactly when it is not in use
    have sameTest :
        ∀ i ∈ slots,
          decide (((infor.updateCrossPipeFd fd crossNum).list i).count < 0) =
            !(Function.update infor.cache.used infor.cache.low true) i := by
      intro i _
      rw [← usedAfter, cache_used]
      have : ((infor.updateCrossPipeFd fd crossNum).list i).count ≠ 0 := by
        rw [updateCrossPipeFd_list]
        by_cases here : i = infor.minInputPoint
        · subst here
          simp only [Function.update_self]
          omega
        · rw [Function.update_of_ne here]
          exact nonzero i
      rw [← decide_not, decide_eq_decide]
      omega
    have sameScan := List.find?_congr sameTest
    rw [updateCrossPipeFd_list] at sameScan
    simp only [cache_low, LeastFreeSlot.Cache.occupy, LeastFreeSlot.rescan]
    rw [cache_low] at sameScan
    rw [← sameScan]
    unfold updateCrossPipeFd
    dsimp only
    split
    · rename_i found
      simp [slots, found]
    · rename_i found
      simp [slots, found]

/-- An insertion of a count that no waiting block has keeps the table sound. -/
theorem Sound.updateCrossPipeFd
    {infor : CrossPipe}
    (sound : infor.Sound)
    {fd : PipeFds}
    {crossNum : Int}
    (given : crossNum ≠ 0)
    (unused :
      ∀ i, infor.Pending i → (infor.list i).count ≠ crossCount crossNum) :
    (infor.updateCrossPipeFd fd crossNum).Sound where
  nonzero := by
    intro i
    rw [updateCrossPipeFd_list]
    by_cases here : i = infor.minInputPoint
    · subst here
      have := crossCount_pos given
      simp only [Function.update_self]
      omega
    · rw [Function.update_of_ne here]
      exact sound.nonzero i
  distinct := by
    intro i j pendingI pendingJ sameCount
    simp only [Pending, updateCrossPipeFd_list] at pendingI pendingJ sameCount
    by_cases iHere : i = infor.minInputPoint
    · by_cases jHere : j = infor.minInputPoint
      · exact iHere.trans jHere.symm
      · subst iHere
        rw [Function.update_of_ne jHere] at pendingJ sameCount
        rw [Function.update_self] at sameCount
        exact absurd sameCount.symm (unused j pendingJ)
    · by_cases jHere : j = infor.minInputPoint
      · subst jHere
        rw [Function.update_of_ne iHere] at pendingI sameCount
        rw [Function.update_self] at sameCount
        exact absurd sameCount (unused i pendingI)
      · rw [Function.update_of_ne iHere] at pendingI sameCount
        rw [Function.update_of_ne jHere] at pendingJ sameCount
        exact sound.distinct pendingI pendingJ sameCount
  tight := by
    rw [cache_updateCrossPipeFd sound.nonzero given]
    exact sound.tight.occupy slots_increasing

/--
The table work of one command in `single_cmd` and `ordinary_pipe`: with a cross
number it reuses the pipe with the same count or inserts the new pipe `fd`.
-/
def connectCross
    (infor : CrossPipe)
    (crossNum : Int)
    (fd : PipeFds) : CrossPipe :=
  if crossNum = 0 then
    infor
  else if infor.findSameCrossPipe crossNum < 0 then
    infor.updateCrossPipeFd fd crossNum
  else
    infor

/-- The command needs a new pipe: it has a cross number and no block matches. -/
def Inserts
    (infor : CrossPipe)
    (crossNum : Int) : Prop :=
  crossNum ≠ 0 ∧ infor.findSameCrossPipe crossNum < 0

instance (infor : CrossPipe) (crossNum : Int) :
    Decidable (infor.Inserts crossNum) :=
  inferInstanceAs (Decidable (_ ∧ _))

theorem connectCross_of_inserts
    {infor : CrossPipe}
    {crossNum : Int}
    (inserts : infor.Inserts crossNum)
    (fd : PipeFds) :
    infor.connectCross crossNum fd = infor.updateCrossPipeFd fd crossNum := by
  simp [connectCross, inserts.1, inserts.2]

theorem connectCross_of_not_inserts
    {infor : CrossPipe}
    {crossNum : Int}
    (keeps : ¬ infor.Inserts crossNum)
    (fd : PipeFds) :
    infor.connectCross crossNum fd = infor := by
  unfold connectCross
  split_ifs with none search
  · rfl
  · exact absurd ⟨none, search⟩ keeps
  · rfl

/-- A search that fails on a complete record finds no waiting block. -/
theorem count_ne_of_inserts
    {infor : CrossPipe}
    (record : infor.closeFdRecord = infor.pendingSlots)
    {crossNum : Int}
    (inserts : infor.Inserts crossNum)
    {i : Nat}
    (pending : infor.Pending i) :
    (infor.list i).count ≠ crossCount crossNum := by
  have search := inserts.2
  rcases findSameCrossPipe_cases infor crossNum with
      ⟨_, noneMatches⟩ | ⟨found, _, isFound, _⟩
  · apply noneMatches
    rw [record]
    exact mem_pendingSlots.mpr pending
  · omega

/-- A command keeps the table sound when the record lists the waiting blocks. -/
theorem Sound.connectCross
    {infor : CrossPipe}
    (sound : infor.Sound)
    (record : infor.closeFdRecord = infor.pendingSlots)
    (crossNum : Int)
    (fd : PipeFds) :
    (infor.connectCross crossNum fd).Sound := by
  by_cases inserts : infor.Inserts crossNum
  · rw [connectCross_of_inserts inserts]
    exact sound.updateCrossPipeFd inserts.1
      fun i pending => count_ne_of_inserts record inserts pending
  · rw [connectCross_of_not_inserts inserts]
    exact sound

/-- The block at the cached input point is free unless the cache is stale. -/
theorem Sound.free_iff_not_stale
    {infor : CrossPipe}
    (sound : infor.Sound) :
    (infor.list infor.minInputPoint).count < 0 ↔ ¬ infor.cache.Stale := by
  have := sound.nonzero infor.minInputPoint
  simp only [LeastFreeSlot.Cache.Stale, cache_used, cache_low,
    decide_eq_true_eq]
  omega

/-- A countdown never makes the cached input point stale. -/
theorem Sound.not_stale_countDownAndCheck
    {infor : CrossPipe}
    (sound : infor.Sound)
    (fresh : ¬ infor.cache.Stale) :
    ¬ infor.countDownAndCheck.cache.Stale := by
  rw [sound.cache_countDownAndCheck]
  split
  · rw [LeastFreeSlot.Cache.stale_release_iff]
    exact fun stale => fresh stale.1
  · exact fresh

/-- Fewer than all blocks wait when one of them does not. -/
theorem pendingSlots_length_lt
    {infor : CrossPipe}
    {i : Nat}
    (inBound : i < fdInforListSize)
    (notPending : ¬ infor.Pending i) :
    infor.pendingSlots.length < fdInforListSize := by
  have shorter :
      infor.pendingSlots.length < (List.range fdInforListSize).length := by
    apply List.length_filter_lt_length_iff_exists.mpr
    refine ⟨i, by simpa using inBound, ?_⟩
    simpa [Pending, inBound] using notPending
  simpa using shorter

/-- An insertion leaves a stale cached input point only by filling the table. -/
theorem Sound.not_stale_updateCrossPipeFd
    {infor : CrossPipe}
    (sound : infor.Sound)
    {fd : PipeFds}
    {crossNum : Int}
    (given : crossNum ≠ 0)
    (notFull : infor.pendingSlots.length + 1 < fdInforListSize) :
    ¬ (infor.updateCrossPipeFd fd crossNum).cache.Stale := by
  rw [cache_updateCrossPipeFd sound.nonzero given,
    LeastFreeSlot.Cache.stale_occupy_iff slots_increasing sound.tight]
  intro full
  -- every block other than the new one was waiting before
  have others :
      ((List.range fdInforListSize).erase infor.minInputPoint) ⊆
        infor.pendingSlots := by
    intro i member
    have inRange := (List.nodup_range.mem_erase_iff).mp member
    have inBound : i < fdInforListSize := by simpa using inRange.2
    have used := full i (mem_slots.mpr inBound)
    rw [LeastFreeSlot.Cache.occupy] at used
    simp only [cache_low] at used
    rw [Function.update_of_ne inRange.1, cache_used] at used
    exact mem_pendingSlots.mpr ⟨inBound, by simpa using used⟩
  have enough :=
    (List.Nodup.subperm
      (List.nodup_range.erase infor.minInputPoint) others).length_le
  have minInBound : infor.minInputPoint ∈ List.range fdInforListSize := by
    simpa using sound.tight.1
  rw [List.length_erase_of_mem minInBound, List.length_range] at enough
  omega

/-- The pipe the command writes to: the matching block, or the new pipe. -/
def givenFds
    (infor : CrossPipe)
    (crossNum : Int)
    (fd : PipeFds) : PipeFds :=
  if infor.findSameCrossPipe crossNum < 0 then
    fd
  else
    infor.fdsAt (infor.findSameCrossPipe crossNum)

end CrossPipe

end NpServers.Shell
