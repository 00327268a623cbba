import NpServers.UserPipeDecisions

namespace NpServers.Shell

open CrossPipe DescriptorTable TransitionPath

/-!
# Descriptors that a line leaves open

The server process should keep no descriptor open that none of its tables
records.  A line leaves one in two ways: it opens it and stores it nowhere, or
it overwrites the place that held it.  Both can be read off the outcome of the
line.
-/

namespace Server

/--
A descriptor that is open in `after` and not recorded there was already open in
`before`, on the same file, and not in `records`.
-/
def LeavesNothingBut
    (records : Ledger Port Int)
    (before after : Server) : Prop :=
  ∀ {fd file},
    after.fds.file fd = some file →
    ¬ after.client.ledger.Holds fd →
      before.fds.file fd = some file ∧ ¬ records.Holds fd

/-- Between two states, no descriptor is left open that is not recorded. -/
def LeavesNothing (before after : Server) : Prop :=
  LeavesNothingBut before.client.ledger before after

variable {server before after : Server}
variable {line : Command}
variable {extra kept : List (Int × File)}
variable {client : ClientStructure}
variable {issued : List Port}
variable {pipe : Nat}

/-- A held descriptor that is not consumed is not among those closed. -/
theorem LineReady.not_mem_inputPorts
    {port : Port}
    (kept : port.fd server.client ∉ server.inputFds line) :
    port ∉ server.client.inputPorts line :=
  fun isInput => kept (List.mem_map_of_mem isInput)

/-- What the line opens has to be stored by it. -/
theorem LineReady.stored_of_leavesNothing
    (lineReady : server.LineReady)
    (frame : Frame server (server.takenFds line) extra client after)
    (turnover :
      Ledger.Turnover server.client.lineLedger client.ledger
        (server.client.inputPorts line) issued)
    (leavesNothing : LeavesNothingBut server.client.lineLedger server after)
    {entry : Int × File}
    (isNew : entry ∈ extra) :
    ∃ port ∈ issued, port.fd client = entry.1 := by
  by_contra notStored
  have notHeld : ¬ after.client.ledger.Holds entry.1 := by
    rw [frame.client_eq, turnover.holds_iff]
    rintro (isStored | ⟨port, isHeld, notConsumed, -, sameFd⟩)
    · exact notStored isStored
    · exact lineReady.fd_ne_new frame isHeld notConsumed isNew sameFd
  obtain ⟨wasOpen, notRecorded⟩ :=
    leavesNothing (frame.fds.file_extra isNew) notHeld
  -- the descriptor was free once the input was closed
  have free := frame.fds.free isNew
  rw [takenFds, closeAll_file, wasOpen] at free
  split_ifs at free with consumed
  obtain ⟨port, isInput, sameFd⟩ := List.mem_map.mp consumed
  exact
    notRecorded
      ⟨port, ClientStructure.recordedOrExpired_of_mem_inputPorts isInput,
        sameFd⟩

/-- A place that is filled must not hold another descriptor. -/
theorem LineReady.noneLost_of_leavesNothing
    (lineReady : server.LineReady)
    (frame : Frame server (server.takenFds line) extra client after)
    (turnover :
      Ledger.Turnover server.client.lineLedger client.ledger
        (server.client.inputPorts line) issued)
    (leavesNothing : LeavesNothingBut server.client.lineLedger server after)
    {port : Port}
    (isIssued : port ∈ issued)
    (isHeld : server.client.RecordedOrExpired port) :
    port ∈ server.client.inputPorts line := by
  by_contra notConsumed
  obtain ⟨file, number, wasOpen, _⟩ := lineReady.file_of_held isHeld
  have stillOpen := lineReady.file_of_kept frame isHeld notConsumed
  have notHeld : ¬ after.client.ledger.Holds (port.fd server.client) := by
    rw [frame.client_eq]
    exact
      turnover.not_holds_of_overwritten lineReady.wired.distinct isIssued
        isHeld notConsumed
  exact
    (leavesNothing (stillOpen.trans wasOpen) notHeld).2 ⟨port, isHeld, rfl⟩

/--
A line leaves nothing open if and only if it stores what it opens, in places
that hold nothing else.
-/
theorem LineReady.leavesNothing_iff_stored
    (lineReady : server.LineReady)
    (frame : Frame server (server.takenFds line) extra client after)
    (turnover :
      Ledger.Turnover server.client.lineLedger client.ledger
        (server.client.inputPorts line) issued) :
    LeavesNothingBut server.client.lineLedger server after ↔
      (∀ entry ∈ extra, ∃ port ∈ issued, port.fd client = entry.1) ∧
        ∀ port ∈ issued,
          server.client.lineLedger.held port →
          port ∈ server.client.inputPorts line := by
  constructor
  · intro leavesNothing
    exact
      ⟨fun _ isNew =>
          lineReady.stored_of_leavesNothing frame turnover leavesNothing isNew,
        fun _ isIssued isHeld =>
          lineReady.noneLost_of_leavesNothing frame turnover leavesNothing
            isIssued isHeld⟩
  · rintro ⟨stored, noneLost⟩ fd file isOpen notHeld
    rw [frame.client_eq] at notHeld
    rcases (frame.fds.file_iff fd file).mp isOpen with isNew | isOld
    · have isStored := stored _ isNew
      exact absurd ((turnover.holds_iff fd).mpr (Or.inl isStored)) notHeld
    · rw [takenFds, closeAll_file, Option.ite_none_left_eq_some] at isOld
      refine ⟨isOld.2, ?_⟩
      rintro ⟨port, isHeld, rfl⟩
      have notConsumed := LineReady.not_mem_inputPorts isOld.1
      exact notHeld (turnover.holds_of_kept noneLost isHeld notConsumed)

/-- The outcome of a line shows what it leaves open. -/
theorem LineReady.leavesNothing_iff
    (lineReady : server.LineReady)
    (outcome : Outcome line pipe kept server after) :
    LeavesNothingBut server.client.lineLedger server after ↔
      kept = [] ∧ ¬ server.Overwrites line := by
  cases outcome with
  | numbered fd inserts apart frame =>
      have names := server.client.fd_inputPoint line fd line.crossNum
      have turnover :=
        lineReady.turnover_numbered inserts.1 List.mem_cons_self
          (List.mem_cons_of_mem _ List.mem_cons_self) frame
      rw [lineReady.leavesNothing_iff_stored frame turnover,
        inputPoint_lost_iff lineReady.inLine]
      have overwrites_iff :
          server.Overwrites line ↔
            server.infor.Pending server.infor.minInputPoint :=
        and_iff_right inserts
      rw [overwrites_iff]
      refine and_congr_left fun _ => ?_
      constructor
      · intro stored
        by_contra notEmpty
        obtain ⟨entry, rest, rfl⟩ := List.exists_cons_of_ne_nil notEmpty
        obtain ⟨port, isPoint, sameFd⟩ :=
          stored entry
            (List.mem_cons_of_mem _ (List.mem_cons_of_mem _ List.mem_cons_self))
        have different := apart entry List.mem_cons_self
        rcases List.mem_pair.mp isPoint with rfl | rfl
        · exact different.1 (sameFd.symm.trans names.1)
        · exact different.2 (sameFd.symm.trans names.2)
      · rintro rfl entry isNew
        rcases List.mem_pair.mp isNew with rfl | rfl
        · exact ⟨_, List.mem_cons_self, names.1⟩
        · exact ⟨_, List.mem_cons_of_mem _ List.mem_cons_self, names.2⟩
  | user fd noCross given ready noneKept frame =>
      have turnover :=
        lineReady.turnover_user (List.mem_singleton_self _) frame
      have noInsert : ¬ server.Overwrites line :=
        fun overwrites => overwrites.1.1 noCross
      rw [lineReady.leavesNothing_iff_stored frame turnover]
      refine iff_of_true ⟨?_, ?_⟩ ⟨noneKept, noInsert⟩
      · intro entry isNew
        obtain rfl := List.mem_singleton.mp isNew
        refine ⟨_, List.mem_singleton_self _, ?_⟩
        simp [Port.fd, ClientStructure.setUserPipe_userPipe]
      · intro port isIssued isHeld
        obtain rfl := List.mem_singleton.mp isIssued
        exact ClientStructure.consumed_of_userOutReady ready isHeld
  | plain keeps unregistered frame =>
      have turnover := lineReady.inLine.turnover_plain line
      rw [lineReady.leavesNothing_iff_stored frame turnover]
      have noInsert : ¬ server.Overwrites line :=
        fun overwrites => keeps overwrites.1
      simp [List.eq_nil_iff_forall_not_mem, noInsert]

end Server

end NpServers.Shell
