import Mathlib.Algebra.Group.Int.Defs
import Mathlib.Algebra.Group.Nat.Defs
import Mathlib.Data.Nat.Find
import NpServers.CrossPipeSchedule

namespace NpServers.Shell

open CrossPipe

/-!
# A run through a full table loses a numbered pipe

The table has 511 blocks and fewer than 511 pipes wait whenever a new one is
inserted.  The first 511 lines fill the table.  The line at position 511 frees
block 0 and fills it again, which leaves `min_input_point` at block 0.  When
block 1 expires at position 512, `min_input_point` is not raised, and the pipe
inserted there replaces the one still waiting in block 0.
-/

/-- The cross numbers of a run that fills the table and comes back. -/
def fillingCross (position : Nat) : Int :=
  if position < 2 then 511 else if position = 511 then 2 else 1000

/-- A line of client 1 in that run, with descriptors that never repeat. -/
def fillingLine (position : Nat) : ShellLine where
  client := 1
  crossNum := fillingCross position
  pipeFd := { readFd := 2 * position + 5, writeFd := 2 * position + 6 }

/-- The first `count` lines of the run. -/
def fillingLines (count : Nat) : List ShellLine :=
  (List.range count).map fillingLine

@[simp] theorem length_fillingLines
    (count : Nat) :
    (fillingLines count).length = count := by
  simp [fillingLines]

theorem linesOf_fillingLines
    (count : Nat) :
    linesOf 1 (fillingLines count) = fillingLines count := by
  unfold linesOf
  rw [List.filter_eq_self]
  intro line member
  obtain ⟨position, _, rfl⟩ := List.mem_map.mp member
  simp [fillingLine]

theorem crossAt_fillingLines
    {count position : Nat}
    (inBound : position < count) :
    crossAt (fillingLines count) position = fillingCross position := by
  simp [crossAt, fillingLines, fillingLine, inBound]

theorem pipeAt_fillingLines
    {count position : Nat}
    (inBound : position < count) :
    pipeAt (fillingLines count) position = (fillingLine position).pipeFd := by
  simp [pipeAt, fillingLines, inBound]

theorem freshPipes_fillingLines
    (count : Nat) :
    FreshPipes (fillingLines count) := by
  apply freshPipes_of_distinct
  intro first second before inBound
  rw [length_fillingLines] at inBound
  rw [pipeAt_fillingLines (by omega), pipeAt_fillingLines inBound]
  simp only [fillingLine, ne_eq, PipeFds.mk.injEq, not_and]
  omega

/--
The first 511 lines fill the blocks in order: before the line at `position`,
block `i < position` waits for its target and the other blocks are free.
-/
structure Filled
    (position : Nat)
    (infor : CrossPipe) : Prop where
  sound : infor.Sound
  waiting :
    ∀ i < position,
      (infor.list i).count = i + crossCount (fillingCross i) - position + 1
  free : ∀ i, position ≤ i → (infor.list i).count = -1
  inputPoint :
    infor.minInputPoint = if position < fdInforListSize then position else 510

theorem crossCount_fillingCross
    (position : Nat) :
    crossCount (fillingCross position) = fillingCross position := by
  unfold crossCount fillingCross
  split_ifs <;> omega

theorem fillingCross_pos
    (position : Nat) :
    0 < fillingCross position := by
  unfold fillingCross
  split_ifs <;> omega

/-- The targets of the first 511 lines are ahead of them and different. -/
theorem fillingTarget_spec
    {earlier later : Nat}
    (before : earlier < later)
    (inBound : later < fdInforListSize) :
    (later : Int) < earlier + fillingCross earlier ∧
      (earlier : Int) + fillingCross earlier ≠ later + fillingCross later := by
  unfold fdInforListSize at inBound
  unfold fillingCross
  split_ifs <;> omega

/-- Before a further filling line, all blocks count down and none expires. -/
theorem Filled.countDownAndCheck
    {position : Nat}
    {infor : CrossPipe}
    (filled : Filled position infor)
    (inBound : position < fdInforListSize) :
    (∀ i < position,
        (infor.countDownAndCheck.list i).count =
          i + fillingCross i - position) ∧
      (∀ i, position ≤ i → (infor.countDownAndCheck.list i).count = -1) ∧
      infor.countDownAndCheck.minInputPoint = position := by
  have countBefore (i : Nat) (before : i < position) :
      (infor.list i).count = i + fillingCross i - position + 1 := by
    rw [filled.waiting i before, crossCount_fillingCross]
  refine ⟨?_, ?_, ?_⟩
  · intro i before
    have ahead := (fillingTarget_spec before inBound).1
    have := countBefore i before
    rw [count_countDownAndCheck_of_pending]
    · omega
    · exact pending_countDownAndCheck_iff.mpr ⟨by omega, by omega⟩
  · intro i after
    rw [countDownAndCheck_list]
    simp [tick, filled.free i after]
  · have noneExpires : infor.countDownAndCheck.outputPoint = -1 := by
      rcases infor.outputPoint_cases with ⟨isNone, _⟩ | ⟨i, _, _, expires⟩
      · exact isNone
      · by_cases before : i < position
        · have ahead := (fillingTarget_spec before inBound).1
          have := countBefore i before
          omega
        · have := filled.free i (by omega)
          omega
    rw [countDownAndCheck_minInputPoint, noneExpires, filled.inputPoint,
      if_pos inBound]
    simp

/-- A filling line puts its pipe into the next block. -/
theorem Filled.lineStep
    {position : Nat}
    {infor : CrossPipe}
    (filled : Filled position infor)
    (inBound : position < fdInforListSize)
    (fd : PipeFds) :
    infor.countDownAndCheck.Inserts (fillingCross position) ∧
      Filled (position + 1)
        (infor.countDownAndCheck.connectCross (fillingCross position) fd) := by
  obtain ⟨waiting, free, inputPoint⟩ := filled.countDownAndCheck inBound
  have sound := filled.sound.countDownAndCheck
  have record := countDownAndCheck_closeFdRecord infor
  generalize infor.countDownAndCheck = ticked at *
  have given : fillingCross position ≠ 0 := by
    have := fillingCross_pos position
    omega
  have inserts : ticked.Inserts (fillingCross position) := by
    refine ⟨given, ?_⟩
    rcases findSameCrossPipe_cases ticked (fillingCross position) with
        ⟨isNone, _⟩ | ⟨i, member, _, sameCount⟩
    · omega
    · rw [record, mem_pendingSlots] at member
      rw [crossCount_fillingCross] at sameCount
      by_cases before : i < position
      · have := (fillingTarget_spec before inBound).2
        have := waiting i before
        omega
      · have := free i (by omega)
        have := member.2
        omega
  refine ⟨inserts, ?_⟩
  rw [connectCross_of_inserts inserts]
  have listAfter (i : Nat) :
      ((ticked.updateCrossPipeFd fd (fillingCross position)).list i).count =
        if i < position + 1 then i + fillingCross i - position else -1 := by
    rw [updateCrossPipeFd_list, inputPoint]
    by_cases here : i = position
    · subst here
      rw [Function.update_self, if_pos (by omega)]
      simp only [crossCount_fillingCross]
      omega
    · rw [Function.update_of_ne here]
      by_cases before : i < position
      · rw [waiting i before, if_pos (by omega)]
      · rw [free i (by omega), if_neg (by omega)]
  refine {
    sound := sound.updateCrossPipeFd given
      fun i pending => count_ne_of_inserts record inserts pending
    waiting := ?_
    free := ?_
    inputPoint := ?_ }
  · intro i before
    rw [listAfter, if_pos before, crossCount_fillingCross]
    omega
  · intro i after
    rw [listAfter, if_neg (by omega)]
  · -- exactly the blocks up to `position` are in use
    have usedIff (i : Nat) (upTo : i < fdInforListSize) :
        (ticked.updateCrossPipeFd fd (fillingCross position)).cache.used i =
            true ↔
          i < position + 1 := by
      rw [cache_used, listAfter, decide_eq_true_eq]
      split
      · rename_i before
        have positive := fillingCross_pos position
        rcases Nat.lt_succ_iff_lt_or_eq.mp before with earlier | here
        · have := (fillingTarget_spec earlier inBound).1
          simp only [before, iff_true]
          omega
        · subst here
          simp only [before, iff_true]
          omega
      · omega
    rw [cache_updateCrossPipeFd sound.nonzero given] at usedIff
    rw [← cache_low, cache_updateCrossPipeFd sound.nonzero given]
    rcases LeastFreeSlot.Cache.occupy_cases slots_increasing ticked.cache with
        least | ⟨sameLow, full⟩
    · have lowInBound := mem_slots.mp least.mem
      have notUsed := (usedIff _ lowInBound).not.mp (by simp [least.free])
      by_cases more : position + 1 < fdInforListSize
      · rw [if_pos more]
        by_contra different
        have used :=
          least.below (position + 1) (mem_slots.mpr more) (by omega)
        have := (usedIff _ more).mp used
        omega
      · omega
    · have notMore : ¬ position + 1 < fdInforListSize := by
        intro more
        have := (usedIff _ more).mp (full _ (mem_slots.mpr more))
        omega
      rw [if_neg notMore, sameLow, cache_low, inputPoint]
      unfold fdInforListSize at *
      omega

/-- The first 511 lines of the run fill the table in order. -/
theorem filled_tableBefore
    {count position : Nat}
    (upTo : position ≤ fdInforListSize)
    (inBound : position ≤ count) :
    Filled position (tableBefore (fillingLines count) position) := by
  induction position with
  | zero =>
      exact {
        sound := sound_initialCrossPipeInfor
        waiting := by
          intro i none
          omega
        free := by
          intro i _
          rfl
        inputPoint := by
          simp [initialCrossPipeInfor, fdInforListSize] }
  | succ position inductionHypothesis =>
      rw [tableBefore_succ (by rw [length_fillingLines]; omega),
        crossAt_fillingLines (by omega)]
      exact ((inductionHypothesis (by omega) (by omega)).lineStep
        (by omega) _).2

/-- An insertion that leaves no free block keeps the cached input point. -/
theorem minInputPoint_updateCrossPipeFd_of_full
    {infor : CrossPipe}
    (sound : infor.Sound)
    {fd : PipeFds}
    {crossNum : Int}
    (given : crossNum ≠ 0)
    (full :
      ∀ i < fdInforListSize,
        0 < ((infor.updateCrossPipeFd fd crossNum).list i).count) :
    (infor.updateCrossPipeFd fd crossNum).minInputPoint =
      infor.minInputPoint := by
  have asCache :
      (infor.updateCrossPipeFd fd crossNum).cache =
        infor.cache.occupy slots :=
    cache_updateCrossPipeFd sound.nonzero given
  rw [← cache_low, asCache]
  rcases LeastFreeSlot.Cache.occupy_cases slots_increasing infor.cache with
      least | ⟨sameLow, _⟩
  · have used := full _ (mem_slots.mp least.mem)
    have isUsed := decide_eq_true used
    rw [← cache_used, asCache, least.free] at isUsed
    cases isUsed
  · exact sameLow

/-- The countdown of a full table whose block 0 expires first. -/
theorem Filled.full_countDownAndCheck
    {infor : CrossPipe}
    (filled : Filled 511 infor) :
    (infor.countDownAndCheck.list 0).count = -1 ∧
      (infor.countDownAndCheck.list 1).count = 1 ∧
      (∀ i, 1 < i → i < fdInforListSize →
        (infor.countDownAndCheck.list i).count = i + 489) ∧
      infor.countDownAndCheck.minInputPoint = 0 := by
  have listAfter (i : Nat) (inTable : i < fdInforListSize) :
      infor.countDownAndCheck.list i = tick (infor.list i) := by
    rw [countDownAndCheck_list, if_pos inTable]
  have before (i : Nat) (inTable : i < fdInforListSize) :
      (infor.list i).count = i + fillingCross i - 510 := by
    rw [filled.waiting i inTable, crossCount_fillingCross]
    omega
  have zeroBefore := before 0 (by simp [fdInforListSize])
  have oneBefore := before 1 (by simp [fdInforListSize])
  simp only [fillingCross] at zeroBefore oneBefore
  refine ⟨?_, ?_, ?_, ?_⟩
  · rw [listAfter 0 (by simp [fdInforListSize])]
    simp [tick, zeroBefore]
  · rw [listAfter 1 (by simp [fdInforListSize])]
    simp [tick, oneBefore]
  · intro i above inTable
    have here := before i inTable
    have notTwo : ¬ i < 2 := by omega
    have notLast : i ≠ 511 := by
      unfold fdInforListSize at inTable
      omega
    simp only [fillingCross, notTwo, notLast, if_false] at here
    rw [listAfter i inTable, tick_count_of_one_lt (by omega)]
    omega
  · have reported : infor.countDownAndCheck.outputPoint = (0 : Nat) :=
      (filled.sound.outputPoint_eq_iff (by simp [fdInforListSize])).mpr
        (by simpa using zeroBefore)
    rw [countDownAndCheck_minInputPoint, reported, filled.inputPoint]
    simp [fdInforListSize]

/-- A command inserts its pipe when no block has its count. -/
theorem inserts_of_unused
    {infor : CrossPipe}
    (record : infor.closeFdRecord = infor.pendingSlots)
    {crossNum : Int}
    (given : crossNum ≠ 0)
    (unused :
      ∀ i < fdInforListSize, (infor.list i).count ≠ crossCount crossNum) :
    infor.Inserts crossNum := by
  refine ⟨given, ?_⟩
  rcases findSameCrossPipe_cases infor crossNum with
      ⟨isNone, _⟩ | ⟨i, member, _, sameCount⟩
  · omega
  · rw [record, mem_pendingSlots] at member
    exact absurd sameCount (unused i member.1)

/-- Block 0 was freed and filled again: the table is full and stale. -/
structure Refilled (infor : CrossPipe) : Prop where
  sound : infor.Sound
  zero : (infor.list 0).count = 2
  one : (infor.list 1).count = 1
  others :
    ∀ i, 1 < i → i < fdInforListSize → (infor.list i).count = i + 489
  inputPoint : infor.minInputPoint = 0

/--
The line at position 511 frees block 0 and fills it again: the table is full
and the cached input point stays at block 0.
-/
theorem Filled.refill
    {infor : CrossPipe}
    (filled : Filled 511 infor)
    (fd : PipeFds) :
    infor.countDownAndCheck.Inserts (fillingCross 511) ∧
      Refilled
        (infor.countDownAndCheck.connectCross (fillingCross 511) fd) := by
  obtain ⟨zero, one, others, inputPoint⟩ := filled.full_countDownAndCheck
  have sound := filled.sound.countDownAndCheck
  have record := countDownAndCheck_closeFdRecord infor
  generalize infor.countDownAndCheck = ticked at *
  have cross : fillingCross 511 = 2 := rfl
  have inserts : ticked.Inserts (fillingCross 511) := by
    apply inserts_of_unused record (by simp [cross])
    intro i inTable
    rw [crossCount_fillingCross, cross]
    match i with
    | 0 => omega
    | 1 => omega
    | i + 2 =>
        have := others (i + 2) (by omega) inTable
        omega
  refine ⟨inserts, ?_⟩
  rw [connectCross_of_inserts inserts]
  have listAfter (i : Nat) :
      ((ticked.updateCrossPipeFd fd (fillingCross 511)).list i).count =
        if i = 0 then 2 else (ticked.list i).count := by
    rw [updateCrossPipeFd_list, inputPoint]
    by_cases here : i = 0
    · subst here
      rw [Function.update_self, crossCount_fillingCross, cross, if_pos rfl]
    · rw [Function.update_of_ne here, if_neg here]
  refine {
    sound := sound.updateCrossPipeFd inserts.1
      fun i pending => count_ne_of_inserts record inserts pending
    zero := by simp [listAfter]
    one := by simp [listAfter, one]
    others := ?_
    inputPoint := ?_ }
  · intro i above inTable
    rw [listAfter, if_neg (by omega)]
    exact others i above inTable
  · rw [minInputPoint_updateCrossPipeFd_of_full sound inserts.1, inputPoint]
    intro i inTable
    rw [listAfter]
    match i with
    | 0 => simp
    | 1 => simp [one]
    | i + 2 =>
        have := others (i + 2) (by omega) inTable
        rw [if_neg (by omega)]
        omega

/--
Then block 1 expires.  It lies above the cached input point, so the next line
is about to insert into block 0, which still waits.
-/
theorem Refilled.countDownAndCheck
    {infor : CrossPipe}
    (refilled : Refilled infor) :
    (infor.countDownAndCheck.list 0).count = 1 ∧
      (infor.countDownAndCheck.list 1).count = -1 ∧
      (∀ i, 1 < i → i < fdInforListSize →
        (infor.countDownAndCheck.list i).count = i + 488) ∧
      infor.countDownAndCheck.minInputPoint = 0 := by
  have listAfter (i : Nat) (inTable : i < fdInforListSize) :
      infor.countDownAndCheck.list i = tick (infor.list i) := by
    rw [countDownAndCheck_list, if_pos inTable]
  refine ⟨?_, ?_, ?_, ?_⟩
  · rw [listAfter 0 (by simp [fdInforListSize])]
    simp [tick, refilled.zero]
  · rw [listAfter 1 (by simp [fdInforListSize])]
    simp [tick, refilled.one]
  · intro i above inTable
    have := refilled.others i above inTable
    rw [listAfter i inTable, tick_count_of_one_lt (by omega)]
    omega
  · have reported : infor.countDownAndCheck.outputPoint = (1 : Nat) :=
      (refilled.sound.outputPoint_eq_iff (by simp [fdInforListSize])).mpr
        refilled.one
    rw [countDownAndCheck_minInputPoint, reported, refilled.inputPoint]
    simp

/-- The line at position 512 inserts its pipe into block 0, which still waits. -/
theorem Refilled.inserts
    {infor : CrossPipe}
    (refilled : Refilled infor) :
    infor.countDownAndCheck.Inserts (fillingCross 512) := by
  obtain ⟨zero, one, others, _⟩ := refilled.countDownAndCheck
  have cross : fillingCross 512 = 1000 := rfl
  apply inserts_of_unused (countDownAndCheck_closeFdRecord infor)
    (by simp [cross])
  intro i inTable
  rw [crossCount_fillingCross, cross]
  match i with
  | 0 => omega
  | 1 => omega
  | i + 2 =>
      have := others (i + 2) (by omega) inTable
      unfold fdInforListSize at inTable
      omega

theorem filled_511_tableBefore
    {count : Nat}
    (inBound : 511 < count) :
    Filled 511 (tableBefore (fillingLines count) 511) :=
  filled_tableBefore (by simp [fdInforListSize]) (by omega)

theorem refilled_tableBefore
    {count : Nat}
    (inBound : 511 < count) :
    Refilled (tableBefore (fillingLines count) 512) := by
  have inLines : 511 < (fillingLines count).length := by
    rw [length_fillingLines]
    exact inBound
  rw [tableBefore_succ inLines, crossAt_fillingLines inBound]
  exact ((filled_511_tableBefore inBound).refill _).2

/-- The insertion at position 512 overwrites the waiting pipe of block 0. -/
theorem filling_513
    {count : Nat}
    (inBound : 512 < count) :
    ∀ i < fdInforListSize,
      ((tableBefore (fillingLines count) 513).list i).count ≠ 1 := by
  have refilled := refilled_tableBefore (Nat.lt_of_succ_lt inBound)
  obtain ⟨_, one, others, inputPoint⟩ := refilled.countDownAndCheck
  have inserts := refilled.inserts
  have inLines : 512 < (fillingLines count).length := by
    rw [length_fillingLines]
    exact inBound
  have next := tableBefore_succ inLines
  rw [crossAt_fillingLines inBound, counted, connectCross_of_inserts inserts]
    at next
  intro i inTable
  rw [next, updateCrossPipeFd_list, inputPoint]
  by_cases isFirst : i = 0
  · rw [isFirst, Function.update_self, crossCount_fillingCross]
    simp [fillingCross]
  · rw [Function.update_of_ne isFirst]
    by_cases isSecond : i = 1
    · rw [isSecond, one]
      omega
    · have := others i (by omega) inTable
      omega

/-- Some block does not wait when a line of the run inserts its pipe. -/
theorem pendingSlots_length_fillingLines
    {position : Nat}
    (inBound : position < 513) :
    (counted (fillingLines 513) position).pendingSlots.length <
      fdInforListSize := by
  have notPending
      {i : Nat}
      (free : ((counted (fillingLines 513) position).list i).count = -1) :
      ¬ (counted (fillingLines 513) position).Pending i := by
    rintro ⟨_, positive⟩
    omega
  by_cases filling : position < fdInforListSize
  · have filled : Filled position (tableBefore (fillingLines 513) position) :=
      filled_tableBefore (Nat.le_of_lt filling) (by omega)
    have free := (filled.countDownAndCheck filling).2.1 position (Nat.le_refl _)
    rw [← counted] at free
    exact pendingSlots_length_lt filling (notPending free)
  · obtain rfl | rfl : position = 511 ∨ position = 512 := by
      unfold fdInforListSize at filling
      omega
    · have inRun : 511 < 513 := by omega
      have free := (filled_511_tableBefore inRun).full_countDownAndCheck.1
      rw [← counted] at free
      exact pendingSlots_length_lt (by simp [fdInforListSize])
        (notPending free)
    · have inRun : 511 < 513 := by omega
      have free := (refilled_tableBefore inRun).countDownAndCheck.2.1
      rw [← counted] at free
      exact pendingSlots_length_lt (by simp [fdInforListSize])
        (notPending free)

/--
A run that passes through a full table and comes back loses a pipe: the line at
position 511 is directed to position 513, fewer than 511 pipes wait whenever a
new one is inserted, and still nothing expires at position 513.
-/
theorem numberedPipe_lost_after_full_table :
    (∀ line ∈ fillingLines 513,
        1 ≤ crossCount line.crossNum ∧ crossCount line.crossNum ≤ 2 ^ 31 - 1) ∧
      (∀ position < (linesOf 1 (fillingLines 513)).length,
        InsertsAt (linesOf 1 (fillingLines 513)) position →
        (counted (linesOf 1 (fillingLines 513)) position).pendingSlots.length <
          fdInforListSize) ∧
      FreshPipes (linesOf 1 (fillingLines 513)) ∧
      Targets (linesOf 1 (fillingLines 513)) 511 513 ∧
      (runLines (fillingLines 513) 1).countDownAndCheck.outputPoint = -1 ∧
      ¬ ExpiresOnSchedule (linesOf 1 (fillingLines 513))
        (runLines (fillingLines 513) 1).countDownAndCheck := by
  rw [runLines_client, linesOf_fillingLines]
  have targets : Targets (fillingLines 513) 511 513 := by
    refine ⟨?_, ?_⟩ <;> rw [crossAt_fillingLines (by omega)] <;> decide
  have nothing :
      (tableAfter (fillingLines 513)).countDownAndCheck.outputPoint = -1 := by
    have inRun : 512 < 513 := by omega
    have last := filling_513 inRun
    have whole := tableBefore_length (fillingLines 513)
    rw [length_fillingLines] at whole
    rw [whole] at last
    rcases (tableAfter (fillingLines 513)).outputPoint_cases with
        ⟨isNone, _⟩ | ⟨i, inTable, _, expires⟩
    · exact isNone
    · exact absurd expires (last i inTable)
  refine ⟨?_, ?_, freshPipes_fillingLines 513, targets, nothing, ?_⟩
  · intro line member
    obtain ⟨position, _, rfl⟩ := List.mem_map.mp member
    have positive := fillingCross_pos position
    simp only [fillingLine, crossCount_fillingCross]
    refine ⟨by omega, ?_⟩
    unfold fillingCross
    split_ifs <;> decide
  · intro position inBound _
    rw [length_fillingLines] at inBound
    exact pendingSlots_length_fillingLines inBound
  · intro follows
    have := follows.expires_iff.mpr
      ⟨511, by rw [length_fillingLines]; exact targets⟩
    omega

/-! ## Which runs replace a waiting pipe -/

/-- The line at a position inserts its pipe into a block that still waits. -/
def ReplacesAt
    (own : List ShellLine)
    (position : Nat) : Prop :=
  InsertsAt own position ∧
    (counted own position).Pending (counted own position).minInputPoint

/-- The line at a position inserts its pipe and leaves no free block. -/
def FillsAt
    (own : List ShellLine)
    (position : Nat) : Prop :=
  InsertsAt own position ∧
    ∀ i < fdInforListSize, (tableBefore own (position + 1)).Pending i

/-- A block not above the given one expires after the line `filler` and no later
than at `position`. -/
def ExpiresUpTo
    (own : List ShellLine)
    (block filler position : Nat) : Prop :=
  ∃ later,
    filler < later ∧ later ≤ position ∧
      0 ≤ (counted own later).outputPoint ∧
      (counted own later).outputPoint ≤ block

/-- After a line that fills the table, nothing is inserted before a block not
above the one it filled expires. -/
def WaitsForRelease (own : List ShellLine) : Prop :=
  ∀ filler position,
    filler < position →
    FillsAt own filler →
    InsertsAt own position →
      ExpiresUpTo own (counted own filler).minInputPoint filler position

/-- Only a line of the run inserts. -/
theorem InsertsAt.lt_length
    {own : List ShellLine}
    {position : Nat}
    (inserts : InsertsAt own position) :
    position < own.length := by
  by_contra outside
  have noLine := List.getElem?_eq_none (Nat.le_of_not_lt outside)
  exact inserts.1 (by simp [crossAt, noLine])

/-- The lines since `filler` left its block remembered: it filled the table,
nothing was inserted since, and only blocks above it expired. -/
structure Remembers
    (own : List ShellLine)
    (position filler : Nat) : Prop where
  before : filler < position
  fills : FillsAt own filler
  quiet : ∀ later, filler < later → later < position → ¬ InsertsAt own later
  above : ¬ ExpiresUpTo own (counted own filler).minInputPoint filler position

/-- The block a countdown leaves remembered. -/
theorem filler_countDownAndCheck
    {infor : CrossPipe}
    (sound : infor.Sound)
    (block : Nat) :
    infor.countDownAndCheck.cache.filler = some block ↔
      infor.cache.filler = some block ∧
        ¬ (0 ≤ infor.countDownAndCheck.outputPoint ∧
          infor.countDownAndCheck.outputPoint ≤ block) := by
  rw [sound.cache_countDownAndCheck]
  split
  · rename_i reported
    rw [LeastFreeSlot.Cache.filler_release, Option.filter_eq_some_iff]
    simp only [decide_eq_true_eq]
    have sameOrder :
        block < infor.countDownAndCheck.outputPoint.toNat ↔
          ¬ (0 ≤ infor.countDownAndCheck.outputPoint ∧
            infor.countDownAndCheck.outputPoint ≤ block) := by
      omega
    rw [sameOrder]
  · rename_i notReported
    simp [notReported]

/-- The block an insertion leaves remembered. -/
theorem filler_updateCrossPipeFd
    {infor : CrossPipe}
    (sound : infor.Sound)
    {fd : PipeFds}
    {crossNum : Int}
    (given : crossNum ≠ 0)
    (block : Nat) :
    (infor.updateCrossPipeFd fd crossNum).cache.filler = some block ↔
      (∀ i < fdInforListSize,
          (infor.updateCrossPipeFd fd crossNum).Pending i) ∧
        infor.minInputPoint = block := by
  have asCache :
      (infor.updateCrossPipeFd fd crossNum).cache =
        infor.cache.occupy slots :=
    cache_updateCrossPipeFd sound.nonzero given
  have sameFull :
      (∀ slot ∈ slots, (infor.cache.occupy slots).used slot = true) ↔
        ∀ i < fdInforListSize,
          (infor.updateCrossPipeFd fd crossNum).Pending i := by
    rw [← asCache]
    constructor
    · intro full i inTable
      exact ⟨inTable, by simpa using full i (mem_slots.mpr inTable)⟩
    · intro full slot member
      simpa using (full slot (mem_slots.mp member)).2
  rw [asCache, LeastFreeSlot.Cache.filler_occupy slots_increasing sound.tight]
  simp only [sameFull]
  split
  · rename_i full
    rw [Option.some_inj, and_iff_right full, cache_low]
  · rename_i notFull
    simp [notFull]

/-- The cached input point is stale at a line exactly if an earlier line filled
the table, and then it is the block of that line. -/
theorem filler_counted
    {own : List ShellLine}
    {position : Nat}
    (inBound : position ≤ own.length)
    (block : Nat) :
    (counted own position).cache.filler = some block ↔
      ∃ filler,
        Remembers own position filler ∧
          (counted own filler).minInputPoint = block := by
  induction position generalizing block with
  | zero =>
      have notStale : initialCrossPipeInfor.cache.filler = none := by
        rw [LeastFreeSlot.Cache.filler_eq_none_iff]
        simp [LeastFreeSlot.Cache.Stale, initialCrossPipeInfor]
      rw [counted, tableBefore_zero,
        filler_countDownAndCheck sound_initialCrossPipeInfor, notStale]
      constructor
      · rintro ⟨isSome, -⟩
        cases isSome
      · rintro ⟨filler, remembers, -⟩
        exact absurd remembers.before (Nat.not_lt_zero _)
  | succ position inductionHypothesis =>
      have earlier : position ≤ own.length := by omega
      have sound : (counted own position).Sound := sound_counted earlier
      -- the countdown of the next line only asks for one more expiry
      have extends_iff
          (filler : Nat)
          (before : filler < position + 1) :
          (¬ ExpiresUpTo own (counted own filler).minInputPoint filler
              (position + 1)) ↔
            ¬ ExpiresUpTo own (counted own filler).minInputPoint filler
                position ∧
              ¬ (0 ≤ (counted own (position + 1)).outputPoint ∧
                (counted own (position + 1)).outputPoint ≤
                  (counted own filler).minInputPoint) := by
        rw [← not_or, not_iff_not]
        constructor
        · rintro ⟨later, after, upTo, expires⟩
          rcases Nat.lt_or_eq_of_le upTo with still | rfl
          · exact Or.inl ⟨later, after, Nat.le_of_lt_succ still, expires⟩
          · exact Or.inr expires
        · rintro (⟨later, after, upTo, expires⟩ | expires)
          · exact ⟨later, after, Nat.le_succ_of_le upTo, expires⟩
          · exact ⟨position + 1, before, le_refl _, expires⟩
      rw [counted, filler_countDownAndCheck (sound_tableBefore inBound),
        ← counted]
      by_cases inserts : InsertsAt own position
      · have fillsIff :
            (tableBefore own (position + 1)).cache.filler = some block ↔
              FillsAt own position ∧
                (counted own position).minInputPoint = block := by
          have table :
              tableBefore own (position + 1) =
                (counted own position).updateCrossPipeFd
                  (pipeAt own position) (crossAt own position) := by
            rw [tableBefore_succ inserts.lt_length,
              connectCross_of_inserts inserts]
          unfold FillsAt
          rw [table, filler_updateCrossPipeFd sound inserts.1]
          simp only [inserts, true_and]
        have nothingYet (block : Nat) :
            ¬ ExpiresUpTo own block position position := by
          rintro ⟨later, after, upTo, -⟩
          omega
        rw [fillsIff]
        constructor
        · rintro ⟨⟨fills, rfl⟩, above⟩
          refine ⟨position, ⟨Nat.lt_succ_self _, fills, ?_, ?_⟩, rfl⟩
          · intro later after upTo
            omega
          · exact (extends_iff position (Nat.lt_succ_self _)).mpr
              ⟨nothingYet _, above⟩
        · rintro ⟨filler, remembers, rfl⟩
          have isLast : filler = position := by
            by_contra other
            have before := remembers.before
            exact remembers.quiet position (by omega)
              (Nat.lt_succ_self _) inserts
          subst isLast
          exact ⟨⟨remembers.fills, rfl⟩,
            ((extends_iff _ remembers.before).mp remembers.above).2⟩
      · have sameTable : tableBefore own (position + 1) = counted own position := by
          rw [tableBefore_succ (by omega), connectCross_of_not_inserts inserts]
        rw [sameTable, inductionHypothesis earlier]
        constructor
        · rintro ⟨⟨filler, remembers, rfl⟩, above⟩
          have before := Nat.lt_succ_of_lt remembers.before
          refine ⟨filler, ⟨before, remembers.fills, ?_, ?_⟩, rfl⟩
          · intro later after upTo
            rcases Nat.lt_or_eq_of_le (Nat.le_of_lt_succ upTo) with old | rfl
            · exact remembers.quiet later after old
            · exact inserts
          · exact (extends_iff filler before).mpr ⟨remembers.above, above⟩
        · rintro ⟨filler, remembers, rfl⟩
          obtain ⟨above, notNow⟩ :=
            (extends_iff filler remembers.before).mp remembers.above
          have before : filler < position := by
            by_contra notBefore
            have isLast : filler = position := by
              have := remembers.before
              omega
            exact inserts (isLast ▸ remembers.fills.1)
          refine ⟨⟨filler, ⟨before, remembers.fills, ?_, above⟩, rfl⟩, notNow⟩
          intro later after upTo
          exact remembers.quiet later after (Nat.lt_succ_of_lt upTo)

/-- A pipe is replaced exactly if the cached input point is stale. -/
theorem replacesAt_iff
    {own : List ShellLine}
    {position : Nat} :
    ReplacesAt own position ↔
      InsertsAt own position ∧ ∃ filler, Remembers own position filler := by
  constructor
  · rintro ⟨inserts, pending⟩
    have inBound := Nat.le_of_lt inserts.lt_length
    have stale : (counted own position).cache.Stale := by
      simpa [LeastFreeSlot.Cache.Stale] using pending.2
    obtain ⟨filler, remembers, -⟩ :=
      (filler_counted inBound _).mp (if_pos stale)
    exact ⟨inserts, filler, remembers⟩
  · rintro ⟨inserts, filler, remembers⟩
    have inBound := Nat.le_of_lt inserts.lt_length
    have isFiller := (filler_counted inBound _).mpr ⟨filler, remembers, rfl⟩
    have stale : (counted own position).cache.Stale := by
      by_contra fresh
      rw [(LeastFreeSlot.Cache.filler_eq_none_iff _).mpr fresh] at isFiller
      cases isFiller
    have inTable := (sound_counted inBound).tight.1
    rw [cache_low, mem_slots] at inTable
    exact ⟨inserts, inTable, by simpa [LeastFreeSlot.Cache.Stale] using stale⟩

/-- A run of lines never replaces a waiting pipe of a client exactly if the
client inserts nothing between a line that fills the table and the expiry of a
block not above the one it filled. -/
theorem neverReplaces_iff_waitsForRelease
    (lines : List ShellLine)
    (client : Nat) :
    (∀ position, ¬ ReplacesAt (linesOf client lines) position) ↔
      WaitsForRelease (linesOf client lines) := by
  generalize linesOf client lines = own
  constructor
  · intro never filler position before fills inserts
    by_contra notReleased
    -- the first insertion after the full table is the one that replaces
    have someInserts : ∃ next, filler < next ∧ InsertsAt own next :=
      ⟨position, before, inserts⟩
    classical
    obtain ⟨after, firstInserts⟩ := Nat.find_spec someInserts
    have upTo : Nat.find someInserts ≤ position :=
      Nat.find_min' someInserts ⟨before, inserts⟩
    refine never _ (replacesAt_iff.mpr
      ⟨firstInserts, filler, after, fills, ?_, ?_⟩)
    · intro later afterLater beforeFirst insertsLater
      exact Nat.find_min someInserts beforeFirst ⟨afterLater, insertsLater⟩
    · rintro ⟨later, afterLater, upToFirst, expires⟩
      exact notReleased
        ⟨later, afterLater, Nat.le_trans upToFirst upTo, expires⟩
  · intro waits position replaces
    obtain ⟨inserts, filler, remembers⟩ := replacesAt_iff.mp replaces
    exact remembers.above
      (waits filler position remembers.before remembers.fills inserts)

/-- 511 pipes wait, block 1 expires, and the pipe inserted then replaces the one
that still waits in block 0. -/
theorem fillingLines_replaces :
    ¬ ∀ position, ¬ ReplacesAt (linesOf 1 (fillingLines 513)) position := by
  intro never
  have inRun : 511 < 513 := by omega
  have refilled := refilled_tableBefore inRun
  obtain ⟨zero, -, -, inputPoint⟩ := refilled.countDownAndCheck
  apply never 512
  rw [linesOf_fillingLines]
  refine ⟨?_, ?_⟩
  · unfold InsertsAt
    rw [crossAt_fillingLines (by omega)]
    exact refilled.inserts
  · unfold counted
    rw [inputPoint]
    exact ⟨by simp [fdInforListSize], by rw [zero]; omega⟩

end NpServers.Shell
