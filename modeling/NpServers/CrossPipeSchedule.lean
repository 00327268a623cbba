import NpServers.CrossPipe

namespace NpServers.Shell

open CrossPipe

/-!
# Numbered pipes follow the schedule of their targets

A line at position `j` of a client with cross number `c` is meant for the line
at position `j + |c|`.  This module compares the 511-block countdown table with
that schedule.

The table follows the schedule as long as each new pipe goes into a free
block.  This can fail: when an insertion fills the table, the scan in
`update_cross_pipe_fd` leaves `min_input_point` at the block it has just used,
and `count_down_and_check` only lowers it.  If the next block to expire lies
above, the following insertion overwrites a waiting pipe.
-/

/--
One non-blank line.  `crossNum` is zero when the line has no cross number, runs
a built-in, or gives up because its file cannot be opened.  `pipeFd` is what
`pipe()` returns if the line calls it for a numbered pipe.
-/
structure ShellLine where
  client : Nat
  crossNum : Int
  pipeFd : PipeFds
  deriving Repr, DecidableEq

/-- The table of one client after a line of that client. -/
def lineStep
    (infor : CrossPipe)
    (line : ShellLine) : CrossPipe :=
  (infor.countDownAndCheck).connectCross line.crossNum line.pipeFd

/-- The tables of all clients after the interleaved lines of all clients. -/
def runLines (lines : List ShellLine) : Nat → CrossPipe :=
  lines.foldl
    (fun tables line =>
      Function.update tables line.client (lineStep (tables line.client) line))
    (fun _ => initialCrossPipeInfor)

/-- The lines of one client, in order. -/
def linesOf
    (client : Nat)
    (lines : List ShellLine) : List ShellLine :=
  lines.filter fun line => decide (line.client = client)

/-- The table of a client that has executed the listed lines. -/
def tableAfter (own : List ShellLine) : CrossPipe :=
  own.foldl lineStep initialCrossPipeInfor

/-- Lines of other clients do not touch a client's table. -/
theorem runLines_client
    (lines : List ShellLine)
    (client : Nat) :
    runLines lines client = tableAfter (linesOf client lines) := by
  have fromTables :
      ∀ tables : Nat → CrossPipe,
        lines.foldl
            (fun tables line =>
              Function.update tables line.client
                (lineStep (tables line.client) line))
            tables client =
          (linesOf client lines).foldl lineStep (tables client) := by
    induction lines with
    | nil =>
        intro tables
        rfl
    | cons line rest inductionHypothesis =>
        intro tables
        rw [List.foldl_cons, inductionHypothesis]
        by_cases own : line.client = client
        · simp [linesOf, own]
        · simp [linesOf, own, Function.update_of_ne (Ne.symm own)]
  exact fromTables _

/-- The table of a client before its line at a position. -/
def tableBefore
    (own : List ShellLine)
    (position : Nat) : CrossPipe :=
  tableAfter (own.take position)

/-- The table while the line at a position executes, after the countdown. -/
def counted
    (own : List ShellLine)
    (position : Nat) : CrossPipe :=
  (tableBefore own position).countDownAndCheck

/-- The cross number of the line at a position. -/
def crossAt
    (own : List ShellLine)
    (position : Nat) : Int :=
  (own[position]?.map ShellLine.crossNum).getD 0

/-- The pipe that the line at a position creates if it needs one. -/
def pipeAt
    (own : List ShellLine)
    (position : Nat) : PipeFds :=
  (own[position]?.map ShellLine.pipeFd).getD ⟨-1, -1⟩

/-- The line at a position directs its output to the line `target`. -/
def Targets
    (own : List ShellLine)
    (position target : Nat) : Prop :=
  crossAt own position ≠ 0 ∧
    (target : Int) = position + crossCount (crossAt own position)

/-- The first of the lines that are directed to `target`. -/
def IsFirst
    (own : List ShellLine)
    (position target : Nat) : Prop :=
  Targets own position target ∧
    ∀ earlier < position, ¬ Targets own earlier target

/-- The line at a position creates a pipe and inserts it into the table. -/
def InsertsAt
    (own : List ShellLine)
    (position : Nat) : Prop :=
  (counted own position).Inserts (crossAt own position)

/-- Every inserted pipe goes into a block that holds no waiting pipe. -/
def InsertsIntoFree (own : List ShellLine) : Prop :=
  ∀ position < own.length,
    InsertsAt own position →
      ((counted own position).list
        (counted own position).minInputPoint).count < 0

/-- A created pipe differs from every pipe that is still waiting. -/
def FreshPipes (own : List ShellLine) : Prop :=
  ∀ position < own.length,
    InsertsAt own position →
      ∀ i, (counted own position).Pending i →
        ((counted own position).list i).fds ≠ pipeAt own position

@[simp] theorem tableBefore_zero
    (own : List ShellLine) :
    tableBefore own 0 = initialCrossPipeInfor :=
  rfl

theorem tableBefore_length
    (own : List ShellLine) :
    tableBefore own own.length = tableAfter own := by
  simp [tableBefore]

/-- One more line of the client, as the code executes it. -/
theorem tableBefore_succ
    {own : List ShellLine}
    {position : Nat}
    (inBound : position < own.length) :
    tableBefore own (position + 1) =
      (counted own position).connectCross
        (crossAt own position) (pipeAt own position) := by
  unfold tableBefore tableAfter
  rw [List.take_add_one, List.getElem?_eq_getElem inBound,
    Option.toList_some, List.foldl_append]
  simp [counted, tableBefore, tableAfter, lineStep, crossAt, pipeAt, inBound]

/-- At the search of a line, the record lists exactly the waiting blocks. -/
theorem counted_closeFdRecord
    (own : List ShellLine)
    (position : Nat) :
    (counted own position).closeFdRecord =
      (counted own position).pendingSlots :=
  countDownAndCheck_closeFdRecord _

theorem mem_counted_closeFdRecord
    {own : List ShellLine}
    {position i : Nat} :
    i ∈ (counted own position).closeFdRecord ↔
      (counted own position).Pending i := by
  rw [counted_closeFdRecord, mem_pendingSlots]

/-- A target lies after the line that names it. -/
theorem Targets.lt
    {own : List ShellLine}
    {position target : Nat}
    (targets : Targets own position target) :
    position < target := by
  have := crossCount_pos targets.1
  have := targets.2
  omega

/-! ## The invariant -/

/--
The table describes the schedule of the first `written` lines at time `now`:
each waiting block holds the pipe of the first line with its target, every
target still ahead has a block, and different blocks hold different pipes.
-/
structure Tracks
    (own : List ShellLine)
    (written : Nat)
    (now : Int)
    (infor : CrossPipe) : Prop where
  sound : infor.Sound
  scheduled :
    ∀ {i},
      infor.Pending i →
      ∃ position target,
        position < written ∧
          IsFirst own position target ∧
          (target : Int) = now + (infor.list i).count ∧
          (infor.list i).fds = pipeAt own position
  complete :
    ∀ {position target},
      position < written →
      Targets own position target →
      now < target →
      ∃ i,
        infor.Pending i ∧
          (target : Int) = now + (infor.list i).count
  separate :
    ∀ {i j},
      infor.Pending i →
      infor.Pending j →
      (infor.list i).fds = (infor.list j).fds →
      i = j

/-- The empty table describes the empty schedule. -/
theorem tracks_initial
    (own : List ShellLine) :
    Tracks own 0 (-1) initialCrossPipeInfor where
  sound := sound_initialCrossPipeInfor
  scheduled := by
    intro i pending
    simp [initialCrossPipeInfor, Pending] at pending
  complete := by
    intro position target none
    omega
  separate := by
    intro i j pending
    simp [initialCrossPipeInfor, Pending] at pending

/-- A countdown moves the described time forward by one line. -/
theorem Tracks.countDownAndCheck
    {own : List ShellLine}
    {written : Nat}
    {now : Int}
    {infor : CrossPipe}
    (tracks : Tracks own written now infor) :
    Tracks own written (now + 1) infor.countDownAndCheck where
  sound := tracks.sound.countDownAndCheck
  scheduled := by
    intro i pending
    have was := pending_countDownAndCheck_iff.mp pending
    obtain ⟨position, target, before, first, atTarget, pipe⟩ :=
      tracks.scheduled (i := i) ⟨was.1, by omega⟩
    refine ⟨position, target, before, first, ?_, ?_⟩
    · rw [count_countDownAndCheck_of_pending pending]
      omega
    · rw [fds_countDownAndCheck]
      exact pipe
  complete := by
    intro position target before targets ahead
    obtain ⟨i, pending, atTarget⟩ :=
      tracks.complete before targets (by omega)
    have still : infor.countDownAndCheck.Pending i :=
      pending_countDownAndCheck_iff.mpr ⟨pending.1, by omega⟩
    refine ⟨i, still, ?_⟩
    rw [count_countDownAndCheck_of_pending still]
    omega
  separate := by
    intro i j pendingI pendingJ same
    rw [fds_countDownAndCheck, fds_countDownAndCheck] at same
    have wasI := pending_countDownAndCheck_iff.mp pendingI
    have wasJ := pending_countDownAndCheck_iff.mp pendingJ
    exact tracks.separate ⟨wasI.1, by omega⟩ ⟨wasJ.1, by omega⟩ same

/-- The search of the line at `now` finds exactly an already scheduled target. -/
theorem Tracks.inserts_iff
    {own : List ShellLine}
    {position : Nat}
    (tracks : Tracks own position position (counted own position))
    {target : Nat}
    (targets : Targets own position target) :
    InsertsAt own position ↔ IsFirst own position target := by
  constructor
  · rintro ⟨_, notFound⟩
    refine ⟨targets, ?_⟩
    intro earlier before alsoTargets
    obtain ⟨i, pending, atTarget⟩ :=
      tracks.complete before alsoTargets (by have := targets.lt; omega)
    -- the block of the earlier line has exactly the wanted count
    rcases findSameCrossPipe_cases (counted own position)
        (crossAt own position) with ⟨_, noneMatches⟩ | ⟨found, _, isFound, _⟩
    · apply noneMatches i
      · exact mem_counted_closeFdRecord.mpr pending
      · have := targets.2
        omega
    · omega
  · rintro ⟨_, noEarlier⟩
    refine ⟨targets.1, ?_⟩
    rcases findSameCrossPipe_cases (counted own position)
        (crossAt own position) with ⟨isNone, _⟩ | ⟨found, member, _, sameCount⟩
    · omega
    · exfalso
      obtain ⟨earlier, otherTarget, before, first, atTarget, _⟩ :=
        tracks.scheduled (mem_counted_closeFdRecord.mp member)
      have sameTarget : otherTarget = target := by
        have := targets.2
        omega
      exact noEarlier earlier before (sameTarget ▸ first.1)

/-- A waiting block after an insertion is the new one or an old one. -/
theorem pending_updateCrossPipeFd_cases
    {infor : CrossPipe}
    {fd : PipeFds}
    {crossNum : Int}
    {i : Nat}
    (pending : (infor.updateCrossPipeFd fd crossNum).Pending i) :
    (i = infor.minInputPoint ∧
        (infor.updateCrossPipeFd fd crossNum).list i =
          { count := crossCount crossNum
            writeFd := fd.writeFd
            readFd := fd.readFd }) ∨
      (i ≠ infor.minInputPoint ∧ infor.Pending i ∧
        (infor.updateCrossPipeFd fd crossNum).list i = infor.list i) := by
  by_cases here : i = infor.minInputPoint
  · left
    subst here
    exact ⟨rfl, by rw [updateCrossPipeFd_list, Function.update_self]⟩
  · right
    have same :
        (infor.updateCrossPipeFd fd crossNum).list i = infor.list i := by
      rw [updateCrossPipeFd_list, Function.update_of_ne here]
    refine ⟨here, ?_, same⟩
    unfold Pending at pending ⊢
    rwa [same] at pending

/-- An old waiting block survives an insertion into a free block. -/
theorem pending_updateCrossPipeFd_of_free
    {infor : CrossPipe}
    (free : (infor.list infor.minInputPoint).count < 0)
    {i : Nat}
    (pending : infor.Pending i)
    (fd : PipeFds)
    (crossNum : Int) :
    (infor.updateCrossPipeFd fd crossNum).Pending i ∧
      (infor.updateCrossPipeFd fd crossNum).list i = infor.list i := by
  have elsewhere : i ≠ infor.minInputPoint := by
    rintro rfl
    have := pending.2
    omega
  have same :
      (infor.updateCrossPipeFd fd crossNum).list i = infor.list i := by
    rw [updateCrossPipeFd_list, Function.update_of_ne elsewhere]
  refine ⟨?_, same⟩
  unfold Pending
  rw [same]
  exact pending

/-- The inserted pipe is waiting in the block at the cached input point. -/
theorem pending_updateCrossPipeFd_self
    {infor : CrossPipe}
    (sound : infor.Sound)
    {fd : PipeFds}
    {crossNum : Int}
    (given : crossNum ≠ 0) :
    (infor.updateCrossPipeFd fd crossNum).Pending infor.minInputPoint := by
  refine ⟨by simpa using sound.tight.1, ?_⟩
  rw [updateCrossPipeFd_list, Function.update_self]
  exact crossCount_pos given

/-- A line without a new pipe leaves the described schedule in place. -/
theorem Tracks.connect_of_not_inserts
    {own : List ShellLine}
    {position : Nat}
    (tracks : Tracks own position position (counted own position))
    (keeps : ¬ InsertsAt own position) :
    Tracks own (position + 1) position (counted own position) where
  sound := tracks.sound
  scheduled := by
    intro i pending
    obtain ⟨writer, target, before, rest⟩ := tracks.scheduled pending
    exact ⟨writer, target, by omega, rest⟩
  complete := by
    intro writer target before targets ahead
    rcases Nat.lt_succ_iff_lt_or_eq.mp before with earlier | here
    · exact tracks.complete earlier targets ahead
    · -- the target was already scheduled by an earlier line
      subst here
      have notFirst : ¬ IsFirst own writer target :=
        fun first => keeps ((tracks.inserts_iff targets).mpr first)
      simp only [IsFirst, targets, true_and, not_forall, not_not] at notFirst
      obtain ⟨earlier, isEarlier, alsoTargets⟩ := notFirst
      exact tracks.complete isEarlier alsoTargets ahead
  separate := tracks.separate

/-- A new pipe in a free block extends the described schedule. -/
theorem Tracks.connect_of_inserts
    {own : List ShellLine}
    {position : Nat}
    (tracks : Tracks own position position (counted own position))
    (inserts : InsertsAt own position)
    (free :
      ((counted own position).list
        (counted own position).minInputPoint).count < 0)
    (fresh :
      ∀ i, (counted own position).Pending i →
        ((counted own position).list i).fds ≠ pipeAt own position) :
    Tracks own (position + 1) position
      ((counted own position).updateCrossPipeFd
        (pipeAt own position) (crossAt own position)) := by
  obtain ⟨target, targets⟩ : ∃ target, Targets own position target := by
    have positive := crossCount_pos inserts.1
    refine ⟨(position + crossCount (crossAt own position)).toNat,
      inserts.1, ?_⟩
    omega
  have first := (tracks.inserts_iff targets).mp inserts
  refine {
    sound := ?_
    scheduled := ?_
    complete := ?_
    separate := ?_ }
  · apply tracks.sound.updateCrossPipeFd inserts.1
    intro i pending sameCount
    obtain ⟨writer, otherTarget, before, otherFirst, atTarget, _⟩ :=
      tracks.scheduled pending
    have sameTarget : otherTarget = target := by
      have := targets.2
      omega
    exact first.2 writer before (sameTarget ▸ otherFirst.1)
  · intro i pending
    rcases pending_updateCrossPipeFd_cases pending with
        ⟨_, block⟩ | ⟨_, wasPending, block⟩
    · refine ⟨position, target, by omega, first, ?_, ?_⟩
      · rw [block]
        exact targets.2
      · rw [block]
        rfl
    · obtain ⟨writer, otherTarget, before, rest⟩ :=
        tracks.scheduled wasPending
      rw [block]
      exact ⟨writer, otherTarget, by omega, rest⟩
  · intro writer otherTarget before otherTargets ahead
    rcases Nat.lt_succ_iff_lt_or_eq.mp before with earlier | here
    · obtain ⟨i, pending, atTarget⟩ :=
        tracks.complete earlier otherTargets ahead
      obtain ⟨stillPending, block⟩ :=
        pending_updateCrossPipeFd_of_free free pending _ _
      exact ⟨i, stillPending, by rw [block]; exact atTarget⟩
    · subst here
      refine ⟨_, pending_updateCrossPipeFd_self tracks.sound inserts.1, ?_⟩
      rw [updateCrossPipeFd_list, Function.update_self]
      exact otherTargets.2
  · intro i j pendingI pendingJ same
    rcases pending_updateCrossPipeFd_cases pendingI with
        ⟨iHere, iBlock⟩ | ⟨_, iPending, iBlock⟩ <;>
      rcases pending_updateCrossPipeFd_cases pendingJ with
        ⟨jHere, jBlock⟩ | ⟨_, jPending, jBlock⟩ <;>
      rw [iBlock, jBlock] at same
    · exact iHere.trans jHere.symm
    · exact absurd same.symm (fresh j jPending)
    · exact absurd same (fresh i iPending)
    · exact tracks.separate iPending jPending same

/-- The table before each line describes the schedule of the earlier lines. -/
theorem tracks_tableBefore
    {own : List ShellLine}
    (intoFree : InsertsIntoFree own)
    (fresh : FreshPipes own)
    {position : Nat}
    (inBound : position ≤ own.length) :
    Tracks own position (position - 1) (tableBefore own position) := by
  induction position with
  | zero =>
      exact tracks_initial own
  | succ position inductionHypothesis =>
      have tracks :
          Tracks own position position (counted own position) := by
        have := (inductionHypothesis (by omega)).countDownAndCheck
        simpa [counted] using this
      rw [tableBefore_succ (by omega)]
      have sameTime : ((position + 1 : Nat) : Int) - 1 = position := by omega
      rw [sameTime]
      by_cases inserts : InsertsAt own position
      · rw [connectCross_of_inserts inserts]
        exact tracks.connect_of_inserts inserts
          (intoFree position (by omega) inserts)
          (fresh position (by omega) inserts)
      · rw [connectCross_of_not_inserts inserts]
        exact tracks.connect_of_not_inserts inserts

/-- After the countdown, the table describes the schedule at the current line. -/
theorem tracks_counted
    {own : List ShellLine}
    (intoFree : InsertsIntoFree own)
    (fresh : FreshPipes own)
    {position : Nat}
    (inBound : position ≤ own.length) :
    Tracks own position position (counted own position) := by
  have := (tracks_tableBefore intoFree fresh inBound).countDownAndCheck
  simpa [counted] using this

/--
The pipe of the first line for a target stays in one block, untouched, until
the target line starts.
-/
theorem block_kept
    {own : List ShellLine}
    (intoFree : InsertsIntoFree own)
    (fresh : FreshPipes own)
    {position target : Nat}
    (first : IsFirst own position target)
    {later : Nat}
    (after : position < later)
    (upTo : later ≤ target)
    (inBound : later ≤ own.length) :
    (tableBefore own later).Pending (counted own position).minInputPoint ∧
      ((tableBefore own later).list
          (counted own position).minInputPoint).count = target - later + 1 ∧
      ((tableBefore own later).list
          (counted own position).minInputPoint).fds = pipeAt own position := by
  induction later with
  | zero =>
      omega
  | succ later inductionHypothesis =>
      have tracks : Tracks own later later (counted own later) :=
        tracks_counted intoFree fresh (by omega)
      rw [tableBefore_succ (by omega)]
      rcases Nat.lt_succ_iff_lt_or_eq.mp after with before | here
      · obtain ⟨pending, count, pipe⟩ :=
          inductionHypothesis before (by omega) (by omega)
        have still :
            (counted own later).Pending (counted own position).minInputPoint :=
          pending_countDownAndCheck_iff.mpr ⟨pending.1, by omega⟩
        have countNow :
            ((counted own later).list
              (counted own position).minInputPoint).count = target - later := by
          rw [counted, count_countDownAndCheck_of_pending still]
          omega
        have pipeNow :
            ((counted own later).list
              (counted own position).minInputPoint).fds = pipeAt own position := by
          rw [counted, fds_countDownAndCheck]
          exact pipe
        by_cases inserts : InsertsAt own later
        · rw [connectCross_of_inserts inserts]
          have survives :=
            pending_updateCrossPipeFd_of_free
              (intoFree later (by omega) inserts) still
          rw [(survives (pipeAt own later) (crossAt own later)).2]
          exact ⟨(survives _ _).1, by omega, pipeNow⟩
        · rw [connectCross_of_not_inserts inserts]
          exact ⟨still, by omega, pipeNow⟩
      · subst here
        have inserts := (tracks.inserts_iff first.1).mpr first
        rw [connectCross_of_inserts inserts]
        refine ⟨pending_updateCrossPipeFd_self tracks.sound inserts.1, ?_, ?_⟩
        · rw [updateCrossPipeFd_list, Function.update_self]
          have := first.1.2
          simp only
          omega
        · rw [updateCrossPipeFd_list, Function.update_self]
          rfl

/-- The kept block while a later line executes, after its countdown. -/
theorem block_kept_counted
    {own : List ShellLine}
    (intoFree : InsertsIntoFree own)
    (fresh : FreshPipes own)
    {position target : Nat}
    (first : IsFirst own position target)
    {later : Nat}
    (after : position < later)
    (ahead : later < target)
    (inBound : later ≤ own.length) :
    (counted own later).Pending (counted own position).minInputPoint ∧
      ((counted own later).list
          (counted own position).minInputPoint).count = target - later ∧
      ((counted own later).list
          (counted own position).minInputPoint).fds = pipeAt own position := by
  obtain ⟨pending, count, pipe⟩ :=
    block_kept intoFree fresh first after (Nat.le_of_lt ahead) inBound
  have still :
      (counted own later).Pending (counted own position).minInputPoint :=
    pending_countDownAndCheck_iff.mpr ⟨pending.1, by omega⟩
  refine ⟨still, ?_, ?_⟩
  · rw [counted, count_countDownAndCheck_of_pending still]
    omega
  · rw [counted, fds_countDownAndCheck]
    exact pipe

/-! ## When every insertion finds a free block -/

/-- The table is sound before every line, whatever was inserted. -/
theorem sound_tableBefore
    {own : List ShellLine}
    {position : Nat}
    (inBound : position ≤ own.length) :
    (tableBefore own position).Sound := by
  induction position with
  | zero =>
      exact sound_initialCrossPipeInfor
  | succ position inductionHypothesis =>
      rw [tableBefore_succ (by omega)]
      exact (inductionHypothesis (by omega)).countDownAndCheck.connectCross
        (countDownAndCheck_closeFdRecord _) _ _

/-- The table is sound after the countdown of every line. -/
theorem sound_counted
    {own : List ShellLine}
    {position : Nat}
    (inBound : position ≤ own.length) :
    (counted own position).Sound :=
  (sound_tableBefore inBound).countDownAndCheck

/-- Every waiting block holds a pipe that an earlier line created. -/
theorem exists_pipeAt_of_pending
    {own : List ShellLine}
    {position i : Nat}
    (inBound : position ≤ own.length)
    (pending : (tableBefore own position).Pending i) :
    ∃ writer < position,
      ((tableBefore own position).list i).fds = pipeAt own writer := by
  induction position generalizing i with
  | zero =>
      simp [initialCrossPipeInfor, Pending] at pending
  | succ position inductionHypothesis =>
      rw [tableBefore_succ (by omega)] at pending ⊢
      have older
          (stillPending : (counted own position).Pending i) :
          ∃ writer < position + 1,
            ((counted own position).list i).fds = pipeAt own writer := by
        have was := pending_countDownAndCheck_iff.mp stillPending
        obtain ⟨writer, before, pipe⟩ :=
          inductionHypothesis (by omega) ⟨was.1, by omega⟩
        refine ⟨writer, by omega, ?_⟩
        rw [counted, fds_countDownAndCheck]
        exact pipe
      by_cases inserts : InsertsAt own position
      · rw [connectCross_of_inserts inserts] at pending ⊢
        rcases pending_updateCrossPipeFd_cases pending with
            ⟨_, block⟩ | ⟨_, wasPending, block⟩
        · exact ⟨position, by omega, by rw [block]; rfl⟩
        · rw [block]
          exact older wasPending
      · rw [connectCross_of_not_inserts inserts] at pending ⊢
        exact older pending

/-- Pipes with descriptors that never repeat are fresh. -/
theorem freshPipes_of_distinct
    {own : List ShellLine}
    (distinct :
      ∀ {first second},
        first < second →
        second < own.length →
        pipeAt own first ≠ pipeAt own second) :
    FreshPipes own := by
  intro position inBound _ i pending
  have was := pending_countDownAndCheck_iff.mp pending
  obtain ⟨writer, before, pipe⟩ :=
    exists_pipeAt_of_pending (Nat.le_of_lt inBound)
      (i := i) ⟨was.1, by omega⟩
  rw [counted, fds_countDownAndCheck, pipe]
  exact distinct before inBound

/--
Insertions find a free block as long as the table never becomes full: fewer
than 510 pipes are waiting whenever a new one is inserted.
-/
theorem insertsIntoFree_of_neverFull
    {own : List ShellLine}
    (neverFull :
      ∀ position < own.length,
        InsertsAt own position →
        (counted own position).pendingSlots.length + 1 < fdInforListSize) :
    InsertsIntoFree own := by
  have notStale :
      ∀ position ≤ own.length, ¬ (tableBefore own position).cache.Stale := by
    intro position
    induction position with
    | zero =>
        intro _
        simp [LeastFreeSlot.Cache.Stale, initialCrossPipeInfor]
    | succ position inductionHypothesis =>
        intro inBound
        rw [tableBefore_succ (by omega)]
        by_cases inserts : InsertsAt own position
        · rw [connectCross_of_inserts inserts]
          have sound : (counted own position).Sound := sound_counted (by omega)
          exact sound.not_stale_updateCrossPipeFd inserts.1
            (neverFull position (by omega) inserts)
        · rw [connectCross_of_not_inserts inserts]
          have sound : (tableBefore own position).Sound :=
            sound_tableBefore (by omega)
          exact sound.not_stale_countDownAndCheck
            (inductionHypothesis (by omega))
  intro position inBound _
  have upTo := Nat.le_of_lt inBound
  exact (sound_counted upTo).free_iff_not_stale.mpr
    ((sound_tableBefore upTo).not_stale_countDownAndCheck
      (notStale position upTo))

/-- No more pipes wait than lines were executed. -/
theorem length_pendingSlots_tableBefore
    {own : List ShellLine}
    {position : Nat}
    (inBound : position ≤ own.length) :
    (tableBefore own position).pendingSlots.length ≤ position := by
  induction position with
  | zero =>
      simp [pendingSlots, initialCrossPipeInfor]
  | succ position inductionHypothesis =>
      -- the waiting blocks are old ones, or the block of the new pipe
      have fewer :
          (tableBefore own (position + 1)).pendingSlots ⊆
            (counted own position).minInputPoint ::
              (tableBefore own position).pendingSlots := by
        intro i member
        rw [mem_pendingSlots, tableBefore_succ (by omega)] at member
        have older (pending : (counted own position).Pending i) :
            i ∈ (tableBefore own position).pendingSlots := by
          have was := pending_countDownAndCheck_iff.mp pending
          exact mem_pendingSlots.mpr ⟨was.1, by omega⟩
        by_cases inserts : InsertsAt own position
        · rw [connectCross_of_inserts inserts] at member
          rcases pending_updateCrossPipeFd_cases member with
              ⟨here, _⟩ | ⟨_, wasPending, _⟩
          · exact List.mem_cons.mpr (Or.inl here)
          · exact List.mem_cons_of_mem _ (older wasPending)
        · rw [connectCross_of_not_inserts inserts] at member
          exact List.mem_cons_of_mem _ (older member)
      have bound :=
        (List.Nodup.subperm (pendingSlots_nodup _) fewer).length_le
      have := inductionHypothesis (by omega)
      simp only [List.length_cons] at bound
      omega

/-- A session of fewer than 511 lines never fills the table. -/
theorem insertsIntoFree_of_length
    {own : List ShellLine}
    (short : own.length < fdInforListSize) :
    InsertsIntoFree own := by
  apply insertsIntoFree_of_neverFull
  intro position inBound _
  have bound := length_pendingSlots_tableBefore (Nat.le_of_lt inBound)
  have fewer :
      (counted own position).pendingSlots ⊆
        (tableBefore own position).pendingSlots := by
    intro i member
    have was := pending_countDownAndCheck_iff.mp (mem_pendingSlots.mp member)
    exact mem_pendingSlots.mpr ⟨was.1, by omega⟩
  have := (List.Nodup.subperm (pendingSlots_nodup _) fewer).length_le
  omega

/-! ## What the next line finds -/

/--
What the schedule promises for the line that follows the listed ones, where
`infor` is the table after the countdown of that line.
-/
structure ExpiresOnSchedule
    (own : List ShellLine)
    (infor : CrossPipe) : Prop where
  /-- A block is reported exactly when some earlier line has this target. -/
  expires_iff :
    0 ≤ infor.outputPoint ↔
      ∃ position, Targets own position own.length
  /-- The reported block holds the pipe created by the first such line. -/
  holdsFirst :
    ∀ {position},
      IsFirst own position own.length →
      InsertsAt own position ∧
        infor.fdsAt infor.outputPoint = pipeAt own position
  /-- Every later line with this target was given that pipe by the search. -/
  mergesLater :
    ∀ {position later},
      IsFirst own position own.length →
      position < later →
      Targets own later own.length →
      0 ≤ (counted own later).findSameCrossPipe (crossAt own later) ∧
        (counted own later).givenFds
            (crossAt own later) (pipeAt own later) = pipeAt own position ∧
        tableBefore own (later + 1) = counted own later
  /-- While the pipe waits, no line with another target was given it. -/
  keepsOthers :
    ∀ {position other},
      IsFirst own position own.length →
      position < other →
      other < own.length →
      crossAt own other ≠ 0 →
      ¬ Targets own other own.length →
      (counted own other).givenFds
          (crossAt own other) (pipeAt own other) ≠ pipeAt own position
  /-- The block was not reused between the creating line and this one. -/
  blockKept :
    ∀ {position later},
      IsFirst own position own.length →
      position < later →
      later ≤ own.length →
      (tableBefore own later).Pending infor.outputPoint.toNat ∧
        ((tableBefore own later).list infor.outputPoint.toNat).fds =
          pipeAt own position

/-- A search that succeeds gives the descriptors of the block it returns. -/
theorem givenFds_of_found
    {infor : CrossPipe}
    {crossNum : Int}
    {fd : PipeFds}
    {i : Nat}
    (found : infor.findSameCrossPipe crossNum = i) :
    infor.givenFds crossNum fd = (infor.list i).fds := by
  have notNone : ¬ infor.findSameCrossPipe crossNum < 0 := by omega
  rw [givenFds, if_neg notNone, fdsAt, found, Int.toNat_natCast]

/-- A line that creates no pipe was given the block with the wanted count. -/
theorem exists_found_of_not_inserts
    {infor : CrossPipe}
    {crossNum : Int}
    (given : crossNum ≠ 0)
    (keeps : ¬ infor.Inserts crossNum) :
    ∃ i ∈ infor.closeFdRecord,
      infor.findSameCrossPipe crossNum = i ∧
        (infor.list i).count = crossCount crossNum := by
  rcases findSameCrossPipe_cases infor crossNum with ⟨isNone, _⟩ | found
  · exact absurd ⟨given, by omega⟩ keeps
  · exact found

/--
Numbered pipes refine their schedule: in every run whose insertions all go into
free blocks, the next line of a client finds exactly the pipe scheduled for it.
-/
theorem numberedPipes_expireOnSchedule
    (lines : List ShellLine)
    (client : Nat)
    (intoFree : InsertsIntoFree (linesOf client lines))
    (fresh : FreshPipes (linesOf client lines)) :
    ExpiresOnSchedule (linesOf client lines)
      (runLines lines client).countDownAndCheck := by
  rw [runLines_client]
  generalize linesOf client lines = own at intoFree fresh ⊢
  have before := tracks_tableBefore intoFree fresh (Nat.le_refl own.length)
  rw [tableBefore_length] at before
  -- the first line with this target determines the reported block
  have reported
      {position : Nat}
      (first : IsFirst own position own.length) :
      (tableAfter own).countDownAndCheck.outputPoint =
        (counted own position).minInputPoint := by
    obtain ⟨pending, count, _⟩ :=
      block_kept intoFree fresh first first.1.lt (Nat.le_refl _) (Nat.le_refl _)
    rw [tableBefore_length] at pending count
    exact (before.sound.outputPoint_eq_iff pending.1).mpr (by omega)
  have kept
      {position later : Nat}
      (first : IsFirst own position own.length)
      (after : position < later)
      (upTo : later ≤ own.length) :
      (tableBefore own later).Pending
          (tableAfter own).countDownAndCheck.outputPoint.toNat ∧
        ((tableBefore own later).list
            (tableAfter own).countDownAndCheck.outputPoint.toNat).fds =
          pipeAt own position := by
    obtain ⟨pending, _, pipe⟩ :=
      block_kept intoFree fresh first after upTo upTo
    rw [reported first, Int.toNat_natCast]
    exact ⟨pending, pipe⟩
  refine {
    expires_iff := ?_
    holdsFirst := ?_
    mergesLater := ?_
    keepsOthers := ?_
    blockKept := kept }
  · constructor
    · intro isReported
      rcases (tableAfter own).outputPoint_cases with
          ⟨isNone, _⟩ | ⟨i, inBound, _, expires⟩
      · omega
      · obtain ⟨position, target, _, first, atTarget, _⟩ :=
          before.scheduled (i := i) ⟨inBound, by omega⟩
        have sameTarget : target = own.length := by omega
        exact ⟨position, sameTarget ▸ first.1⟩
    · rintro ⟨position, targets⟩
      obtain ⟨i, pending, atTarget⟩ :=
        before.complete targets.lt targets (by omega)
      have := (before.sound.outputPoint_eq_iff pending.1).mpr (by omega)
      omega
  · intro position first
    have inBound := first.1.lt
    have tracks : Tracks own position position (counted own position) :=
      tracks_counted intoFree fresh (by omega)
    refine ⟨(tracks.inserts_iff first.1).mpr first, ?_⟩
    have pipe := (kept first inBound (Nat.le_refl _)).2
    rw [tableBefore_length] at pipe
    rw [fdsAt, fds_countDownAndCheck]
    exact pipe
  · intro position later first after targets
    have inBound := targets.lt
    have tracks : Tracks own later later (counted own later) :=
      tracks_counted intoFree fresh (by omega)
    have keeps : ¬ InsertsAt own later := fun inserts =>
      ((tracks.inserts_iff targets).mp inserts).2 position after first.1
    obtain ⟨i, member, found, count⟩ :=
      exists_found_of_not_inserts targets.1 keeps
    obtain ⟨still, countNow, pipe⟩ :=
      block_kept_counted intoFree fresh first after inBound (by omega)
    -- only one waiting block has the count of this target
    have sameBlock : i = (counted own position).minInputPoint := by
      apply tracks.sound.distinct (mem_counted_closeFdRecord.mp member) still
      have := targets.2
      omega
    refine ⟨by omega, ?_, ?_⟩
    · rw [givenFds_of_found found, sameBlock]
      exact pipe
    · rw [tableBefore_succ inBound]
      exact connectCross_of_not_inserts keeps _
  · intro position other first after inBound given elsewhere
    have tracks : Tracks own other other (counted own other) :=
      tracks_counted intoFree fresh (by omega)
    obtain ⟨still, countNow, pipe⟩ :=
      block_kept_counted intoFree fresh first after inBound (by omega)
    by_cases inserts : InsertsAt own other
    · rw [givenFds, if_pos inserts.2, ← pipe]
      exact (fresh other inBound inserts _ still).symm
    · obtain ⟨i, member, found, count⟩ :=
        exists_found_of_not_inserts given inserts
      rw [givenFds_of_found found, ← pipe]
      intro sameFds
      have sameBlock :=
        tracks.separate (mem_counted_closeFdRecord.mp member) still sameFds
      apply elsewhere
      refine ⟨given, ?_⟩
      rw [← count, sameBlock, countNow]
      omega

/-- Two lines of client 1 for the same target, with a line of client 2 between. -/
def mergedLines : List ShellLine :=
  [{ client := 1, crossNum := 2, pipeFd := ⟨5, 6⟩ },
    { client := 2, crossNum := 1, pipeFd := ⟨7, 8⟩ },
    { client := 1, crossNum := -1, pipeFd := ⟨9, 10⟩ }]

/-- The third line of client 1 finds the pipe its first two lines share. -/
theorem mergedLines_expireOnSchedule :
    InsertsIntoFree (linesOf 1 mergedLines) ∧
      FreshPipes (linesOf 1 mergedLines) ∧
      Targets (linesOf 1 mergedLines) 0 (linesOf 1 mergedLines).length ∧
      Targets (linesOf 1 mergedLines) 1 (linesOf 1 mergedLines).length ∧
      ExpiresOnSchedule (linesOf 1 mergedLines)
        (runLines mergedLines 1).countDownAndCheck := by
  have intoFree : InsertsIntoFree (linesOf 1 mergedLines) :=
    insertsIntoFree_of_length (by decide)
  have fresh : FreshPipes (linesOf 1 mergedLines) := by
    apply freshPipes_of_distinct
    intro first second before inBound
    have inBound : second < 2 := inBound
    obtain ⟨rfl, rfl⟩ : first = 0 ∧ second = 1 := by omega
    decide
  exact ⟨intoFree, fresh, by unfold Targets; decide, by unfold Targets; decide,
    numberedPipes_expireOnSchedule mergedLines 1 intoFree fresh⟩

end NpServers.Shell
