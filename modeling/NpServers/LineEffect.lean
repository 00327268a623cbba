import NpServers.ServerLedger

namespace NpServers.Shell

open CrossPipe DescriptorTable

/-!
# What a line leaves behind in the server process

`single_cmd` and `ordinary_pipe` open, hand over and close descriptors in
different orders.  Their net effect on the server process is the same: the
descriptors of the input are closed, and at most one new pipe is recorded.
`Effect` states it, and the two functions are shown to have it.
-/

namespace Server

/-! ## Operations that leave the tables alone -/

@[simp] theorem setClient_client
    (server : Server)
    (client : ClientStructure) :
    (server.setClient client).client = client :=
  rfl

@[simp] theorem setClient_fds
    (server : Server)
    (client : ClientStructure) :
    (server.setClient client).fds = server.fds :=
  rfl

@[simp] theorem setClient_nextPipe
    (server : Server)
    (client : ClientStructure) :
    (server.setClient client).nextPipe = server.nextPipe :=
  rfl

@[simp] theorem setClient_children
    (server : Server)
    (client : ClientStructure) :
    (server.setClient client).children = server.children :=
  rfl

/-- The servers differ at most in their children and messages. -/
structure SameTables (first second : Server) : Prop where
  main : first.main = second.main
  fds : first.fds = second.fds
  nextPipe : first.nextPipe = second.nextPipe
  nextConnection : first.nextConnection = second.nextConnection

theorem SameTables.client
    {first second : Server}
    (same : SameTables first second) :
    first.client = second.client :=
  congrArg MainState.client same.main

theorem SameTables.infor
    {first second : Server}
    (same : SameTables first second) :
    first.infor = second.infor := by
  unfold Server.infor self
  rw [same.client]

theorem SameTables.trans
    {first second third : Server}
    (same : SameTables first second)
    (sameLater : SameTables second third) :
    SameTables first third where
  main := same.main.trans sameLater.main
  fds := same.fds.trans sameLater.fds
  nextPipe := same.nextPipe.trans sameLater.nextPipe
  nextConnection := same.nextConnection.trans sameLater.nextConnection

theorem sameTables_post
    (server : Server)
    (notice : Notice) :
    SameTables (server.post notice) server :=
  ⟨rfl, rfl, rfl, rfl⟩

theorem sameTables_announce
    (server : Server)
    (line : Command) :
    SameTables (server.announce line) server := by
  have posts (notices : List Notice) :
      ∀ current : Server,
        SameTables (notices.foldl post current) current := by
    induction notices with
    | nil =>
        intro current
        exact ⟨rfl, rfl, rfl, rfl⟩
    | cons notice rest inductionHypothesis =>
        intro current
        exact (inductionHypothesis _).trans (sameTables_post current notice)
  exact posts _ server

theorem sameTables_fork
    (line : Command)
    (vars : Vars)
    (stage : Nat)
    (isLast : Bool)
    (ran : Except (DescriptorTable File) (DescriptorTable File))
    (server : Server) :
    SameTables (server.fork line vars stage isLast ran) server := by
  cases ran with
  | ok fds => exact ⟨rfl, rfl, rfl, rfl⟩
  | error fds => exact ⟨rfl, rfl, rfl, rfl⟩

theorem sameTables_waitSince
    (line : Command)
    (count : Nat)
    (server : Server) :
    SameTables (server.waitSince line count) server := by
  unfold waitSince
  split_ifs <;> exact ⟨rfl, rfl, rfl, rfl⟩

/-! ## The input -/

/-- The descriptors that become the input of the first command. -/
def inputFds
    (server : Server)
    (line : Command) : List Int :=
  (server.client.inputPorts line).map (Port.fd server.client)

/-- The parent closes the descriptors of the input and clears their places. -/
theorem takeInput_eq
    (server : Server)
    (line : Command) :
    server.takeInput line =
      { server.setClient (server.client.takeInput line) with
        fds := server.fds.closeAll (server.inputFds line) } := by
  by_cases expired : 0 ≤ server.infor.outputPoint
  · have ports := ClientStructure.inputPorts_of_expired line expired
    have kept := ClientStructure.takeInput_of_expired line expired
    rw [inputFds, ports, kept, takeInput, if_pos expired]
    rfl
  · by_cases given :
        line.userInId ≠ 0 ∧ server.client.userInReady line.userInId
    · have ports := ClientStructure.inputPorts_of_given expired given
      have cleared := ClientStructure.takeInput_of_given expired given
      rw [inputFds, ports, cleared, takeInput, if_neg expired, if_pos given]
      rfl
    · have ports := ClientStructure.inputPorts_of_not_given expired given
      have kept := ClientStructure.takeInput_of_not_given expired given
      rw [inputFds, ports, kept, takeInput, if_neg expired, if_neg given]
      rfl

/-- The descriptors of the input are open and different. -/
structure InputOpen
    (server : Server)
    (line : Command) : Prop where
  distinct : (server.inputFds line).Nodup
  isOpen : ∀ fd ∈ server.inputFds line, server.fds.file fd ≠ none

/-! ## Following the tables through a line -/

/--
The tables of `after`, reached from `before` during a line: the descriptors are
those of `base` and the entries of `extra`, and the client table is `client`.
The pipes in `extra` were created on the way.
-/
structure Frame
    (before : Server)
    (base : DescriptorTable File)
    (extra : List (Int × File))
    (client : ClientStructure)
    (after : Server) : Prop where
  fds : Extends base extra after.fds
  main : after.main = { before.main with client := client }
  nextConnection : after.nextConnection = before.nextConnection
  nextPipe : before.nextPipe ≤ after.nextPipe
  fresh :
    ∀ {fd file pipe},
      (fd, file) ∈ extra →
      file.pipe? = some pipe →
      before.nextPipe ≤ pipe ∧ pipe < after.nextPipe
  once :
    ∀ {first second file pipe},
      (first, file) ∈ extra →
      (second, file) ∈ extra →
      file.pipe? = some pipe →
      first = second

theorem Frame.start
    (server : Server) :
    Frame server server.fds [] server.client server where
  fds := .refl server.fds
  main := rfl
  nextConnection := rfl
  nextPipe := Nat.le_refl _
  fresh := by simp
  once := by simp

variable {before after next : Server}
variable {base : DescriptorTable File}
variable {extra : List (Int × File)}
variable {client : ClientStructure}

theorem Frame.client_eq
    (frame : Frame before base extra client after) :
    after.client = client := by
  unfold Server.client
  rw [frame.main]

theorem Frame.sameTables
    (frame : Frame before base extra client after)
    (same : SameTables next after) :
    Frame before base extra client next where
  fds := by
    rw [same.fds]
    exact frame.fds
  main := same.main.trans frame.main
  nextConnection := same.nextConnection.trans frame.nextConnection
  nextPipe := by
    rw [same.nextPipe]
    exact frame.nextPipe
  fresh := by
    rw [same.nextPipe]
    exact frame.fresh
  once := frame.once

/-- A change of the client table. -/
theorem Frame.setClient
    (frame : Frame before base extra client after)
    (other : ClientStructure) :
    Frame before base extra other (after.setClient other) where
  fds := frame.fds
  main := by
    simp only [Server.setClient, frame.main]
  nextConnection := frame.nextConnection
  nextPipe := frame.nextPipe
  fresh := frame.fresh
  once := frame.once

/-- A further descriptor that is not a pipe. -/
theorem Frame.openFile
    (frame : Frame before base extra client after)
    {file : File}
    (notPipe : file.pipe? = none) :
    Frame before base ((after.fds.lowestFree, file) :: extra) client
      { after with fds := after.fds.openFile file } where
  fds := frame.fds.openFile file
  main := frame.main
  nextConnection := frame.nextConnection
  nextPipe := frame.nextPipe
  fresh := by
    intro fd other pipe member isPipe
    rcases List.mem_cons.mp member with here | there
    · obtain ⟨rfl, rfl⟩ := Prod.mk.inj here
      rw [notPipe] at isPipe
      cases isPipe
    · exact frame.fresh there isPipe
  once := by
    intro first second other pipe firstMember secondMember isPipe
    have notHere : other ≠ file := by
      rintro rfl
      rw [notPipe] at isPipe
      cases isPipe
    apply frame.once _ _ isPipe
    · simpa [notHere] using firstMember
    · simpa [notHere] using secondMember

/-- Closing a further descriptor. -/
theorem Frame.close
    (frame : Frame before base extra client after)
    {fd : Int}
    {file : File}
    (member : (fd, file) ∈ extra)
    {rest : List (Int × File)}
    (others : ∀ entry, entry ∈ rest ↔ entry ∈ extra ∧ entry.1 ≠ fd) :
    Frame before base rest client
      { after with fds := after.fds.close fd } where
  fds := frame.fds.close_extra member others
  main := frame.main
  nextConnection := frame.nextConnection
  nextPipe := frame.nextPipe
  fresh := fun inRest => frame.fresh ((others _).mp inRest).1
  once := fun first second =>
    frame.once ((others _).mp first).1 ((others _).mp second).1

/-- The two ends of a new pipe get different descriptors. -/
theorem pipeFds_ne
    (server : Server) :
    server.pipeFds.readFd ≠ server.pipeFds.writeFd := by
  have isOpen :
      (server.fds.openFile (.readEnd server.nextPipe)).file
          server.pipeFds.readFd = some (.readEnd server.nextPipe) := by
    simp [pipeFds]
  exact ne_lowestFree isOpen

/-- The ends of a new pipe get descriptors that were not open. -/
theorem ne_pipeFds
    {server : Server}
    {fd : Int}
    {file : File}
    (isOpen : server.fds.file fd = some file) :
    fd ≠ server.pipeFds.readFd ∧ fd ≠ server.pipeFds.writeFd := by
  have notRead : fd ≠ server.fds.lowestFree := ne_lowestFree isOpen
  refine ⟨notRead, ?_⟩
  have stillOpen :
      (server.fds.openFile (.readEnd server.nextPipe)).file fd = some file := by
    rw [openFile_file, Function.update_of_ne notRead]
    exact isOpen
  exact ne_lowestFree stillOpen

/-- Taking one entry out of a list of different descriptors. -/
theorem mem_remove_iff
    {first rest : List (Int × File)}
    {entry : Int × File}
    (apart : ∀ other ∈ first ++ rest, other.1 ≠ entry.1)
    (other : Int × File) :
    other ∈ first ++ rest ↔
      other ∈ first ++ entry :: rest ∧ other.1 ≠ entry.1 := by
  constructor
  · intro member
    refine ⟨?_, apart other member⟩
    rcases List.mem_append.mp member with inFirst | inRest
    · exact List.mem_append_left _ inFirst
    · exact List.mem_append_right _ (List.mem_cons_of_mem _ inRest)
  · rintro ⟨member, different⟩
    rcases List.mem_append.mp member with inFirst | inRest
    · exact List.mem_append_left _ inFirst
    · rcases List.mem_cons.mp inRest with rfl | later
      · exact absurd rfl different
      · exact List.mem_append_right _ later

/-- Closing a descriptor that occurs once among the further ones. -/
theorem Frame.close_at
    {first rest : List (Int × File)}
    {entry : Int × File}
    (frame : Frame before base (first ++ entry :: rest) client after)
    (apart : ∀ other ∈ first ++ rest, other.1 ≠ entry.1) :
    Frame before base (first ++ rest) client
      { after with fds := after.fds.close entry.1 } := by
  obtain ⟨fd, file⟩ := entry
  exact frame.close (List.mem_append_right _ List.mem_cons_self)
    (mem_remove_iff apart)

/-- Closing the write end of a new pipe leaves the read end. -/
theorem Frame.close_writeEnd
    {fd : PipeFds}
    {pipe : Nat}
    {rest : List (Int × File)}
    (frame :
      Frame before base
        ((fd.readFd, .readEnd pipe) :: (fd.writeFd, .writeEnd pipe) :: rest)
        client after)
    (different : fd.readFd ≠ fd.writeFd)
    (apart : ∀ entry ∈ rest, entry.1 ≠ fd.writeFd) :
    Frame before base ((fd.readFd, .readEnd pipe) :: rest) client
      { after with fds := after.fds.close fd.writeFd } := by
  have removed :
      Frame before base
        ([(fd.readFd, .readEnd pipe)] ++ (fd.writeFd, .writeEnd pipe) :: rest)
        client after :=
    frame
  exact removed.close_at (by
    rintro entry (_ | ⟨_, inRest⟩)
    · exact different
    · exact apart entry inRest)

/-- `pipe` adds its two ends. -/
theorem Frame.pipe
    (frame : Frame before base extra client after) :
    Frame before base
      ((after.pipeFds.readFd, .readEnd after.nextPipe) ::
        (after.pipeFds.writeFd, .writeEnd after.nextPipe) :: extra)
      client after.pipe where
  fds := by
    have opened :=
      (frame.fds.openFile (.readEnd after.nextPipe)).openFile
        (.writeEnd after.nextPipe)
    exact opened.congr (by
      intro entry
      simp only [List.mem_cons]
      exact or_left_comm)
  main := frame.main
  nextConnection := frame.nextConnection
  nextPipe := Nat.le_succ_of_le frame.nextPipe
  fresh := by
    intro fd file pipe member isPipe
    have known := frame.nextPipe
    simp only [List.mem_cons, Prod.mk.injEq] at member
    change before.nextPipe ≤ pipe ∧ pipe < after.nextPipe + 1
    rcases member with ⟨_, rfl⟩ | ⟨_, rfl⟩ | earlier
    · obtain rfl : after.nextPipe = pipe := by simpa [File.pipe?] using isPipe
      omega
    · obtain rfl : after.nextPipe = pipe := by simpa [File.pipe?] using isPipe
      omega
    · have := frame.fresh earlier isPipe
      omega
  once := by
    intro first second file pipe firstMember secondMember isPipe
    -- an end of the new pipe occurs once, the others were there before
    have isNew (fd : Int) (earlier : (fd, file) ∈ extra) :
        file ≠ .readEnd after.nextPipe ∧ file ≠ .writeEnd after.nextPipe := by
      have older := (frame.fresh earlier isPipe).2
      constructor
      · rintro rfl
        have : after.nextPipe = pipe := by simpa [File.pipe?] using isPipe
        omega
      · rintro rfl
        have : after.nextPipe = pipe := by simpa [File.pipe?] using isPipe
        omega
    simp only [List.mem_cons, Prod.mk.injEq] at firstMember secondMember
    rcases firstMember with ⟨rfl, rfl⟩ | ⟨rfl, rfl⟩ | firstEarlier
    · rcases secondMember with ⟨rfl, _⟩ | ⟨_, other⟩ | earlier
      · rfl
      · cases other
      · exact absurd rfl (isNew _ earlier).1
    · rcases secondMember with ⟨_, other⟩ | ⟨rfl, _⟩ | earlier
      · cases other
      · rfl
      · exact absurd rfl (isNew _ earlier).2
    · rcases secondMember with ⟨_, isRead⟩ | ⟨_, isWrite⟩ | earlier
      · exact absurd isRead (isNew _ firstEarlier).1
      · exact absurd isWrite (isNew _ firstEarlier).2
      · exact frame.once firstEarlier earlier isPipe

/-- The parent's part for the input closes descriptors of the base. -/
theorem Frame.takeInput
    (frame : Frame before base extra client after)
    (line : Command)
    (distinct : (after.inputFds line).Nodup)
    (areOpen : ∀ fd ∈ after.inputFds line, base.file fd ≠ none) :
    Frame before (base.closeAll (after.inputFds line)) extra
      (client.takeInput line) (after.takeInput line) := by
  rw [takeInput_eq]
  refine {
    fds := frame.fds.closeAll_base distinct areOpen
    main := ?_
    nextConnection := frame.nextConnection
    nextPipe := frame.nextPipe
    fresh := frame.fresh
    once := frame.once }
  simp only [Server.setClient, frame.main, frame.client_eq]

/-! ## The effect of a line -/

/-- Two output directives on one line. -/
def Competing (line : Command) : Prop :=
  line.redir = true ∧ (line.crossNum ≠ 0 ∨ line.userOutId ≠ 0)

/-- Without competing directives, a line with `>id` has no file. -/
theorem noFile_of_not_competing
    {line : Command}
    (notCompeting : ¬ Competing line)
    (given : line.userOutId ≠ 0) :
    line.redir = false := by
  by_contra file
  exact notCompeting ⟨by simpa using file, Or.inr given⟩

/--
The net effect of a line: the input is closed, and `pipe` is recorded for a new
cross number or for a new user pipe.  Further descriptors stay open only if two
output directives compete.
-/
inductive Effect
    (line : Command)
    (pipe : Nat)
    (before after : Server) : Prop where
  | numbered
      (fd : PipeFds)
      (kept : List (Int × File))
      (inserts : before.infor.Inserts line.crossNum)
      (onlyCompeting : ¬ Competing line → kept = [])
      (frame :
        Frame before (before.fds.closeAll (before.inputFds line))
          ((fd.readFd, .readEnd pipe) :: (fd.writeFd, .writeEnd pipe) :: kept)
          ((before.client.takeInput line).setInfor
            (before.infor.updateCrossPipeFd fd line.crossNum))
          after)
  | user
      (fd : Int)
      (noCross : line.crossNum = 0)
      (given : line.userOutId ≠ 0)
      (ready : (before.client.takeInput line).userOutReady line.userOutId)
      (frame :
        Frame before (before.fds.closeAll (before.inputFds line))
          [(fd, .readEnd pipe)]
          ((before.client.takeInput line).setUserPipe line.userOutId
            before.client.id fd)
          after)
  | plain
      (kept : List (Int × File))
      (keeps : ¬ before.infor.Inserts line.crossNum)
      (notUser :
        ¬ Competing line →
        line.crossNum = 0 →
        line.userOutId ≠ 0 →
        ¬ (before.client.takeInput line).userOutReady line.userOutId)
      (onlyCompeting : ¬ Competing line → kept = [])
      (frame :
        Frame before (before.fds.closeAll (before.inputFds line)) kept
          (before.client.takeInput line) after)

/--
The effect of a line with the descriptors in `kept`, which stay open and are not
recorded.  A user pipe that could be created and is not registered is kept.
-/
inductive Outcome
    (line : Command)
    (pipe : Nat)
    (kept : List (Int × File))
    (before after : Server) : Prop where
  | numbered
      (fd : PipeFds)
      (inserts : before.infor.Inserts line.crossNum)
      (apart :
        ∀ entry ∈ kept, entry.1 ≠ fd.readFd ∧ entry.1 ≠ fd.writeFd)
      (frame :
        Frame before (before.fds.closeAll (before.inputFds line))
          ((fd.readFd, .readEnd pipe) :: (fd.writeFd, .writeEnd pipe) :: kept)
          ((before.client.takeInput line).setInfor
            (before.infor.updateCrossPipeFd fd line.crossNum))
          after)
  | user
      (fd : Int)
      (noCross : line.crossNum = 0)
      (given : line.userOutId ≠ 0)
      (ready : (before.client.takeInput line).userOutReady line.userOutId)
      (noneKept : kept = [])
      (frame :
        Frame before (before.fds.closeAll (before.inputFds line))
          [(fd, .readEnd pipe)]
          ((before.client.takeInput line).setUserPipe line.userOutId
            before.client.id fd)
          after)
  | plain
      (keeps : ¬ before.infor.Inserts line.crossNum)
      (unregistered :
        line.crossNum = 0 →
        line.userOutId ≠ 0 →
        (before.client.takeInput line).userOutReady line.userOutId →
          kept ≠ [])
      (frame :
        Frame before (before.fds.closeAll (before.inputFds line)) kept
          (before.client.takeInput line) after)

/-- What is kept is left out of the effect, where directives compete. -/
theorem Outcome.effect
    {line : Command}
    {pipe : Nat}
    {kept : List (Int × File)}
    (outcome : Outcome line pipe kept before after)
    (onlyCompeting : ¬ Competing line → kept = []) :
    Effect line pipe before after := by
  cases outcome with
  | numbered fd inserts apart frame =>
      exact .numbered fd kept inserts onlyCompeting frame
  | user fd noCross given ready noneKept frame =>
      exact .user fd noCross given ready frame
  | plain keeps unregistered frame =>
      refine .plain kept keeps ?_ onlyCompeting frame
      intro notCompeting noCross given ready
      exact unregistered noCross given ready (onlyCompeting notCompeting)

/-! ## Opening the output -/

theorem Frame.infor_eq
    (frame : Frame before base extra client after) :
    after.infor = (client.list client.id).cpInfor := by
  unfold Server.infor self
  rw [frame.client_eq]

/--
What the block before a fork does for the output, by kind of output.  A pipe it
creates has the number `pipe`.
-/
inductive Opened
    (line : Command)
    (pipe : Nat)
    (client : ClientStructure)
    (vars opened : Vars)
    (pipes : List (Int × File)) : Prop where
  | numbered
      (inserts :
        (client.list client.id).cpInfor.Inserts line.crossNum)
      (notFound : opened.pos < 0)
      (isNew :
        pipes = [(opened.fd.readFd, .readEnd pipe),
          (opened.fd.writeFd, .writeEnd pipe)])
      (different : opened.fd.readFd ≠ opened.fd.writeFd)
  | found
      (slot : Nat)
      (cross : line.crossNum ≠ 0)
      (isSlot :
        (client.list client.id).cpInfor.findSameCrossPipe line.crossNum = slot)
      (isPos : opened.pos = slot)
      (isFd : opened.fd = ((client.list client.id).cpInfor.list slot).fds)
      (none : pipes = [])
  | user
      (noCross : line.crossNum = 0)
      (given : line.userOutId ≠ 0)
      (ready : client.userOutReady line.userOutId = true)
      (samePos : opened.pos = vars.pos)
      (isNew :
        pipes = [(opened.fd.readFd, .readEnd pipe),
          (opened.fd.writeFd, .writeEnd pipe)])
      (different : opened.fd.readFd ≠ opened.fd.writeFd)
  | nothing
      (noCross : line.crossNum = 0)
      (notReady :
        ¬ (line.userOutId ≠ 0 ∧
          client.userOutReady line.userOutId = true))
      (same : opened = vars)
      (none : pipes = [])

/-- The block before a fork adds the new pipe, if there is one. -/
theorem Frame.openOutput
    (frame : Frame before base extra client after)
    (line : Command)
    (vars : Vars) :
    ∃ pipes,
      Opened line after.nextPipe client vars (openOutput line vars after).1
          pipes ∧
        Frame before base (pipes ++ extra) client
          (openOutput line vars after).2 ∧
        (openOutput line vars after).1.exFd0 = vars.exFd0 ∧
        ∀ old ∈ extra, ∀ new ∈ pipes, old.1 ≠ new.1 := by
  have sameInfor := frame.infor_eq
  have apart :
      ∀ old ∈ extra,
        ∀ new ∈ [(after.pipeFds.readFd, File.readEnd after.nextPipe),
          (after.pipeFds.writeFd, File.writeEnd after.nextPipe)],
          old.1 ≠ new.1 := by
    intro old member new isNew
    have notNew := ne_pipeFds (frame.fds.file_extra member)
    rcases List.mem_pair.mp isNew with rfl | rfl
    · exact notNew.1
    · exact notNew.2
  unfold Server.openOutput
  by_cases cross : line.crossNum ≠ 0
  · rw [if_pos cross]
    by_cases search : after.infor.findSameCrossPipe line.crossNum < 0
    · dsimp only
      rw [if_pos search]
      refine ⟨_, .numbered ?_ search rfl (pipeFds_ne after),
        frame.pipe, rfl, apart⟩
      rw [← sameInfor]
      exact ⟨cross, search⟩
    · dsimp only
      rw [if_neg search]
      obtain ⟨slot, isSlot⟩ :=
        Int.eq_ofNat_of_zero_le (Int.not_lt.mp search)
      refine ⟨[], .found slot cross ?_ isSlot ?_ rfl, frame, rfl, by simp⟩
      · rw [← sameInfor]
        exact isSlot
      · rw [← sameInfor]
        simp [fdsAt, isSlot]
  · rw [if_neg cross]
    have noCross : line.crossNum = 0 := by simpa using cross
    by_cases ready :
        line.userOutId ≠ 0 ∧ after.client.userOutReady line.userOutId = true
    · rw [if_pos ready]
      have isReady := ready.2
      rw [frame.client_eq] at isReady
      exact ⟨_, .user noCross ready.1 isReady rfl rfl
        (pipeFds_ne after), frame.pipe, rfl, apart⟩
    · rw [if_neg ready]
      rw [frame.client_eq] at ready
      exact ⟨[], .nothing noCross ready rfl rfl, frame, rfl, by simp⟩

/-! ## Storing the output -/

/-- The parent's part for a new numbered pipe. -/
theorem Frame.storeCross
    (frame : Frame before base extra client after)
    (line : Command)
    {vars : Vars}
    (notFound : vars.pos < 0) :
    Frame before base extra
      (client.setInfor
        ((client.list client.id).cpInfor.updateCrossPipeFd vars.fd
          line.crossNum))
      (after.storeCross line vars) := by
  unfold Server.storeCross
  rw [if_pos notFound, frame.infor_eq]
  have stored := frame.setClient
    (client.setInfor
      ((client.list client.id).cpInfor.updateCrossPipeFd vars.fd
        line.crossNum))
  unfold setInfor
  rw [frame.client_eq]
  exact stored

/-- The parent's part for a new user pipe closes the write end. -/
theorem Frame.storeUserPipe
    {line : Command}
    {vars : Vars}
    {pipe : Nat}
    {rest : List (Int × File)}
    (frame :
      Frame before base
        ((vars.fd.readFd, .readEnd pipe) ::
          (vars.fd.writeFd, .writeEnd pipe) :: rest)
        client after)
    (ready : client.userOutReady line.userOutId = true)
    (different : vars.fd.readFd ≠ vars.fd.writeFd)
    (apart : ∀ entry ∈ rest, entry.1 ≠ vars.fd.writeFd) :
    Frame before base ((vars.fd.readFd, .readEnd pipe) :: rest)
      (client.setUserPipe line.userOutId client.id vars.fd.readFd)
      (after.storeUserPipe line vars) := by
  have closed := frame.close_writeEnd different apart
  have stored := closed.setClient
    (client.setUserPipe line.userOutId client.id vars.fd.readFd)
  unfold Server.storeUserPipe
  rw [frame.client_eq, if_pos ready]
  unfold setUserPipe
  rw [closed.client_eq]
  exact stored

/-! ## `single_cmd` -/

/-- Waiting for children does not change what a line leaves behind. -/
theorem Outcome.sameTables
    {line : Command}
    {pipe : Nat}
    {kept : List (Int × File)}
    (outcome : Outcome line pipe kept before after)
    (same : SameTables next after) :
    Outcome line pipe kept before next := by
  cases outcome with
  | numbered fd inserts apart frame =>
      exact .numbered fd inserts apart (frame.sameTables same)
  | user fd noCross given ready noneKept frame =>
      exact .user fd noCross given ready noneKept (frame.sameTables same)
  | plain keeps unregistered frame =>
      exact .plain keeps unregistered (frame.sameTables same)

/-- The parent's part for the input, while the client table is unchanged. -/
theorem Frame.takeInput_of_inputOpen
    {line : Command}
    (frame : Frame before before.fds extra before.client after)
    (inputOpen : before.InputOpen line) :
    Frame before (before.fds.closeAll (before.inputFds line)) extra
      (before.client.takeInput line) (after.takeInput line) := by
  have sameFds : after.inputFds line = before.inputFds line := by
    unfold inputFds
    rw [frame.client_eq]
  have taken := frame.takeInput line
    (sameFds ▸ inputOpen.distinct) (sameFds ▸ inputOpen.isOpen)
  rwa [sameFds] at taken

/-- Taking the input leaves the table of numbered pipes. -/
theorem infor_takeInput
    (server : Server)
    (line : Command) :
    ((server.client.takeInput line).list
        (server.client.takeInput line).id).cpInfor = server.infor := by
  rw [ClientStructure.takeInput_cpInfor, ClientStructure.takeInput_id]
  rfl

/-- `single_cmd` when its child is forked. -/
theorem singleFork_frame
    (line : Command)
    (outside : Outside)
    (server : Server) :
    ∃ pipes,
      Opened line server.nextPipe server.client (singleVars outside)
          (singleFork line outside server).1 pipes ∧
        Frame server server.fds pipes server.client
          (openOutput line (singleVars outside) (server.announce line)).2 := by
  have announced : Frame server server.fds [] server.client
      (server.announce line) :=
    (Frame.start server).sameTables (sameTables_announce server line)
  obtain ⟨pipes, opened, frame, _, _⟩ :=
    announced.openOutput line (singleVars outside)
  rw [List.append_nil] at frame
  rw [(sameTables_announce server line).nextPipe] at opened
  exact ⟨pipes, opened, frame⟩

/-- The parent of `single_cmd` has dealt with the input. -/
theorem singleConnected_frame
    {line : Command}
    (outside : Outside)
    {server : Server}
    (inputOpen : server.InputOpen line) :
    ∃ pipes,
      Opened line server.nextPipe server.client (singleVars outside)
          (singleConnected line outside server).1 pipes ∧
        Frame server (server.fds.closeAll (server.inputFds line)) pipes
          (server.client.takeInput line)
          (singleConnected line outside server).2 := by
  obtain ⟨pipes, opened, frame⟩ := singleFork_frame line outside server
  have forked :
      Frame server server.fds pipes server.client
        (singleFork line outside server).2 :=
    frame.sameTables (sameTables_fork ..)
  exact ⟨pipes, opened, forked.takeInput_of_inputOpen inputOpen⟩

/-- `single_cmd` keeps nothing. -/
theorem singleCmd_outcome
    {line : Command}
    (outside : Outside)
    {server : Server}
    (inputOpen : server.InputOpen line)
    (notSelf : ¬ server.client.SelfPiped line) :
    Outcome line server.nextPipe [] server
      (server.singleCmd line outside) := by
  obtain ⟨pipes, opened, taken⟩ := singleConnected_frame outside inputOpen
  unfold singleCmd
  dsimp only
  generalize singleConnected line outside server = connected at *
  obtain ⟨vars, current⟩ := connected
  dsimp only at opened taken ⊢
  apply Outcome.sameTables _ (sameTables_waitSince line _ _)
  have sameInfor := infor_takeInput server line
  cases opened with
  | numbered inserts notFound isNew different =>
      have stored := taken.storeCross line notFound
      rw [sameInfor, isNew] at stored
      apply Outcome.numbered _ inserts (by simp)
      rw [singleStore, if_pos inserts.1]
      exact stored
  | found slot cross isSlot isPos isFd none =>
      rw [none] at taken
      refine .plain ?_ (fun noCross => absurd noCross cross) ?_
      · rintro ⟨_, search⟩
        rw [Server.infor, self, isSlot] at search
        omega
      · have notNew : ¬ vars.pos < 0 := by omega
        rw [singleStore, if_pos cross, storeCross, if_neg notNew]
        exact taken
  | user noCross given ready samePos isNew different =>
      rw [isNew] at taken
      have stillReady := ready
      rw [← ClientStructure.userOutReady_takeInput noCross notSelf]
        at stillReady
      have stored := taken.storeUserPipe stillReady different (by simp)
      refine .user vars.fd.readFd noCross given stillReady rfl ?_
      rw [singleStore, if_neg (by simpa using noCross), if_pos given]
      simpa using stored
  | nothing noCross notReady same none =>
      rw [none] at taken
      have stillNot : line.userOutId ≠ 0 →
          ¬ (server.client.takeInput line).userOutReady line.userOutId := by
        intro given ready
        rw [ClientStructure.userOutReady_takeInput noCross notSelf] at ready
        exact notReady ⟨given, ready⟩
      refine .plain ?_ (fun _ given ready => absurd ready (stillNot given)) ?_
      · rintro ⟨cross, _⟩
        exact cross noCross
      · rw [singleStore, if_neg (by simpa using noCross)]
        split_ifs with given
        · rw [storeUserPipe, taken.client_eq, if_neg (stillNot given)]
          exact taken
        · exact taken

/-- `single_cmd` has the effect of a line. -/
theorem singleCmd_effect
    {line : Command}
    (outside : Outside)
    {server : Server}
    (inputOpen : server.InputOpen line)
    (notSelf : ¬ server.client.SelfPiped line) :
    Effect line server.nextPipe server (server.singleCmd line outside) :=
  (singleCmd_outcome outside inputOpen notSelf).effect fun _ => rfl

end Server

/-- At most one of the directives `|n`, `!n`, `> file` and `>id`. -/
def OneDirective (line : Command) : Prop :=
  (line.crossNum ≠ 0 → line.redir = false ∧ line.userOutId = 0) ∧
    (line.redir = true → line.userOutId = 0)

theorem OneDirective.not_competing
    {line : Command}
    (oneDirective : OneDirective line) :
    ¬ Server.Competing line := by
  rintro ⟨file, cross | given⟩
  · have := (oneDirective.1 cross).1
    rw [file] at this
    cases this
  · exact given (oneDirective.2 file)

/-- A line with a `>id` has neither of the others. -/
theorem OneDirective.of_given
    {line : Command}
    (oneDirective : OneDirective line)
    (given : line.userOutId ≠ 0) :
    line.crossNum = 0 ∧ ¬ line.redir = true := by
  refine ⟨?_, fun file => given (oneDirective.2 file)⟩
  by_contra cross
  exact given (oneDirective.1 cross).2

end NpServers.Shell
