import Mathlib.Data.List.Nodup
import NpServers.Ledger
import NpServers.ServerProcess

namespace NpServers.Shell

open CrossPipe DescriptorTable

/-!
# Where the server keeps its pipe descriptors

A descriptor of a pipe is stored in a block of a `cross_pipe` table or in an
entry of a `user_pipe` row.  This module lists these places, says which of them
hold a descriptor, and computes what a line does to them in the server process,
for `single_cmd` and `ordinary_pipe` alike.
-/

/-- A place of the client table that can hold a pipe descriptor. -/
inductive Port where
  | readFd (client slot : Nat)
  | writeFd (client slot : Nat)
  | userPipe (receiver sender : Nat)
  deriving Repr, DecidableEq

/-- The descriptor stored in a place. -/
def Port.fd
    (client : ClientStructure) :
    Port → Int
  | .readFd c slot => ((client.list c).cpInfor.list slot).readFd
  | .writeFd c slot => ((client.list c).cpInfor.list slot).writeFd
  | .userPipe receiver sender => (client.list receiver).userPipe sender

namespace ClientStructure

/-- A numbered pipe of a connected client waits in a block. -/
def Waiting
    (client : ClientStructure)
    (c slot : Nat) : Prop :=
  (client.list c).state = true ∧ (client.list c).cpInfor.Pending slot

/-- The numbered pipe that has just expired for the current client. -/
def Expired
    (client : ClientStructure)
    (c slot : Nat) : Prop :=
  c = client.id ∧ (client.list c).cpInfor.outputPoint = slot

/-- The places that hold a descriptor between two lines. -/
def Recorded
    (client : ClientStructure) :
    Port → Prop
  | .readFd c slot | .writeFd c slot => client.Waiting c slot
  | .userPipe receiver sender => 0 ≤ (client.list receiver).userPipe sender

/-- The places that hold a descriptor after the countdown of a line. -/
def RecordedOrExpired
    (client : ClientStructure) :
    Port → Prop
  | .readFd c slot | .writeFd c slot =>
      client.Waiting c slot ∨ client.Expired c slot
  | .userPipe receiver sender => 0 ≤ (client.list receiver).userPipe sender

/-- The recorded descriptors between two lines. -/
def ledger (client : ClientStructure) : Ledger Port Int where
  held := client.Recorded
  name := Port.fd client

/-- The recorded descriptors after the countdown of a line. -/
def lineLedger (client : ClientStructure) : Ledger Port Int where
  held := client.RecordedOrExpired
  name := Port.fd client

/-- The places whose descriptors become the input of the first command. -/
def inputPorts
    (client : ClientStructure)
    (line : Command) : List Port :=
  let outputPoint := (client.list client.id).cpInfor.outputPoint
  if 0 ≤ outputPoint then
    [.writeFd client.id outputPoint.toNat, .readFd client.id outputPoint.toNat]
  else if line.userInId ≠ 0 ∧ client.userInReady line.userInId then
    [.userPipe client.id line.userInId]
  else
    []

/-- The client table after the parent has dealt with the input. -/
def takeInput
    (client : ClientStructure)
    (line : Command) : ClientStructure :=
  if 0 ≤ (client.list client.id).cpInfor.outputPoint then
    client
  else if line.userInId ≠ 0 ∧ client.userInReady line.userInId then
    client.setUserPipe client.id line.userInId (-1)
  else
    client

/-! The three kinds of input. -/

section InputKinds

variable {client : ClientStructure}

theorem inputPorts_of_expired
    (line : Command)
    (expired : 0 ≤ (client.list client.id).cpInfor.outputPoint) :
    client.inputPorts line =
      [.writeFd client.id
          (client.list client.id).cpInfor.outputPoint.toNat,
        .readFd client.id
          (client.list client.id).cpInfor.outputPoint.toNat] :=
  if_pos expired

theorem takeInput_of_expired
    (line : Command)
    (expired : 0 ≤ (client.list client.id).cpInfor.outputPoint) :
    client.takeInput line = client :=
  if_pos expired

variable {line : Command}

theorem inputPorts_of_given
    (notExpired : ¬ 0 ≤ (client.list client.id).cpInfor.outputPoint)
    (given : line.userInId ≠ 0 ∧ client.userInReady line.userInId) :
    client.inputPorts line = [.userPipe client.id line.userInId] := by
  unfold inputPorts
  dsimp only
  rw [if_neg notExpired, if_pos given]

theorem takeInput_of_given
    (notExpired : ¬ 0 ≤ (client.list client.id).cpInfor.outputPoint)
    (given : line.userInId ≠ 0 ∧ client.userInReady line.userInId) :
    client.takeInput line =
      client.setUserPipe client.id line.userInId (-1) := by
  unfold takeInput
  rw [if_neg notExpired, if_pos given]

theorem inputPorts_of_not_given
    (notExpired : ¬ 0 ≤ (client.list client.id).cpInfor.outputPoint)
    (notGiven : ¬ (line.userInId ≠ 0 ∧ client.userInReady line.userInId)) :
    client.inputPorts line = [] := by
  unfold inputPorts
  dsimp only
  rw [if_neg notExpired, if_neg notGiven]

theorem takeInput_of_not_given
    (notExpired : ¬ 0 ≤ (client.list client.id).cpInfor.outputPoint)
    (notGiven : ¬ (line.userInId ≠ 0 ∧ client.userInReady line.userInId)) :
    client.takeInput line = client := by
  unfold takeInput
  rw [if_neg notExpired, if_neg notGiven]

end InputKinds

@[simp] theorem setInfor_id
    (client : ClientStructure)
    (infor : CrossPipe) :
    (client.setInfor infor).id = client.id :=
  rfl

@[simp] theorem setUserPipe_id
    (client : ClientStructure)
    (receiver sender : Nat)
    (fd : Int) :
    (client.setUserPipe receiver sender fd).id = client.id :=
  rfl

/-- Only the `cp_infor` of the current client changes. -/
theorem setInfor_cpInfor
    (client : ClientStructure)
    (infor : CrossPipe)
    (c : Nat) :
    ((client.setInfor infor).list c).cpInfor =
      if c = client.id then infor else (client.list c).cpInfor := by
  by_cases here : c = client.id
  · simp [setInfor, here]
  · simp [setInfor, here]

@[simp] theorem setInfor_state
    (client : ClientStructure)
    (infor : CrossPipe)
    (c : Nat) :
    ((client.setInfor infor).list c).state = (client.list c).state := by
  by_cases here : c = client.id
  · simp [setInfor, here]
  · simp [setInfor, here]

@[simp] theorem setInfor_sockfd
    (client : ClientStructure)
    (infor : CrossPipe)
    (c : Nat) :
    ((client.setInfor infor).list c).sockfd = (client.list c).sockfd := by
  by_cases here : c = client.id
  · simp [setInfor, here]
  · simp [setInfor, here]

@[simp] theorem setInfor_userPipe
    (client : ClientStructure)
    (infor : CrossPipe)
    (c : Nat) :
    ((client.setInfor infor).list c).userPipe = (client.list c).userPipe := by
  by_cases here : c = client.id
  · simp [setInfor, here]
  · simp [setInfor, here]

@[simp] theorem setInfor_name
    (client : ClientStructure)
    (infor : CrossPipe)
    (c : Nat) :
    ((client.setInfor infor).list c).name = (client.list c).name := by
  by_cases here : c = client.id
  · simp [setInfor, here]
  · simp [setInfor, here]

@[simp] theorem setUserPipe_cpInfor
    (client : ClientStructure)
    (receiver sender : Nat)
    (fd : Int)
    (c : Nat) :
    ((client.setUserPipe receiver sender fd).list c).cpInfor =
      (client.list c).cpInfor := by
  by_cases here : c = receiver
  · simp [setUserPipe, here]
  · simp [setUserPipe, here]

@[simp] theorem setUserPipe_state
    (client : ClientStructure)
    (receiver sender : Nat)
    (fd : Int)
    (c : Nat) :
    ((client.setUserPipe receiver sender fd).list c).state =
      (client.list c).state := by
  by_cases here : c = receiver
  · simp [setUserPipe, here]
  · simp [setUserPipe, here]

@[simp] theorem setUserPipe_sockfd
    (client : ClientStructure)
    (receiver sender : Nat)
    (fd : Int)
    (c : Nat) :
    ((client.setUserPipe receiver sender fd).list c).sockfd =
      (client.list c).sockfd := by
  by_cases here : c = receiver
  · simp [setUserPipe, here]
  · simp [setUserPipe, here]

@[simp] theorem setUserPipe_name
    (client : ClientStructure)
    (receiver sender : Nat)
    (fd : Int)
    (c : Nat) :
    ((client.setUserPipe receiver sender fd).list c).name =
      (client.list c).name := by
  by_cases here : c = receiver
  · simp [setUserPipe, here]
  · simp [setUserPipe, here]

/-- Only the named entry of `user_pipe` changes. -/
theorem setUserPipe_userPipe
    (client : ClientStructure)
    (receiver sender : Nat)
    (fd : Int)
    (r s : Nat) :
    ((client.setUserPipe receiver sender fd).list r).userPipe s =
      if r = receiver ∧ s = sender then fd else (client.list r).userPipe s := by
  by_cases here : r = receiver
  · subst here
    by_cases there : s = sender
    · simp [setUserPipe, there]
    · simp [setUserPipe, there]
  · simp [setUserPipe, here]

@[simp] theorem takeInput_id
    (client : ClientStructure)
    (line : Command) :
    (client.takeInput line).id = client.id := by
  unfold takeInput
  split_ifs <;> rfl

@[simp] theorem takeInput_cpInfor
    (client : ClientStructure)
    (line : Command)
    (c : Nat) :
    ((client.takeInput line).list c).cpInfor = (client.list c).cpInfor := by
  unfold takeInput
  split_ifs <;> simp

@[simp] theorem takeInput_state
    (client : ClientStructure)
    (line : Command)
    (c : Nat) :
    ((client.takeInput line).list c).state = (client.list c).state := by
  unfold takeInput
  split_ifs <;> simp

@[simp] theorem takeInput_sockfd
    (client : ClientStructure)
    (line : Command)
    (c : Nat) :
    ((client.takeInput line).list c).sockfd = (client.list c).sockfd := by
  unfold takeInput
  split_ifs <;> simp

/-- Taking the input clears exactly the consumed entry of `user_pipe`. -/
theorem takeInput_userPipe
    (client : ClientStructure)
    (line : Command)
    (r s : Nat) :
    ((client.takeInput line).list r).userPipe s =
      if .userPipe r s ∈ client.inputPorts line then -1
      else (client.list r).userPipe s := by
  unfold takeInput inputPorts
  dsimp only
  split_ifs with expired given <;> simp_all [setUserPipe_userPipe]

/-! ## What a line does to the recorded places -/

/-- The table of the current client while one of its lines runs. -/
structure InLine (client : ClientStructure) : Prop where
  state : (client.list client.id).state = true
  sound : (client.list client.id).cpInfor.Sound
  record :
    (client.list client.id).cpInfor.closeFdRecord =
      (client.list client.id).cpInfor.pendingSlots
  expired :
    ∀ {slot : Nat},
      (client.list client.id).cpInfor.outputPoint = slot →
      ¬ (client.list client.id).cpInfor.Pending slot

/-- The structure after the countdown of the current client. -/
def countDown (client : ClientStructure) : ClientStructure :=
  client.setInfor (client.list client.id).cpInfor.countDownAndCheck

/-- The countdown brings a connected client into its line. -/
theorem inLine_countDown
    {client : ClientStructure}
    (state : (client.list client.id).state = true)
    (sound : (client.list client.id).cpInfor.Sound) :
    client.countDown.InLine where
  state := by
    simpa [countDown] using state
  sound := by
    rw [countDown, setInfor_cpInfor, if_pos (by simp)]
    exact sound.countDownAndCheck
  record := by
    rw [countDown, setInfor_cpInfor, if_pos (by simp)]
    exact countDownAndCheck_closeFdRecord _
  expired := by
    rw [countDown, setInfor_cpInfor, if_pos (by simp)]
    intro slot isOutput pending
    rcases (client.list client.id).cpInfor.outputPoint_cases with
        ⟨isNone, _⟩ | ⟨last, inBound, isLast, expires⟩
    · omega
    · have same : slot = last := by omega
      subst same
      have above := (pending_countDownAndCheck_iff.mp pending).2
      omega

/-- A block waits before a countdown if it does afterwards or has expired. -/
theorem pending_or_expired_countDown_iff
    {infor : CrossPipe}
    (sound : infor.Sound)
    {slot : Nat} :
    infor.countDownAndCheck.Pending slot ∨
        infor.countDownAndCheck.outputPoint = slot ↔
      infor.Pending slot := by
  rw [pending_countDownAndCheck_iff]
  by_cases inBound : slot < fdInforListSize
  · rw [sound.outputPoint_eq_iff inBound]
    simp only [Pending, inBound, true_and]
    omega
  · have notOutput : infor.countDownAndCheck.outputPoint ≠ slot := by
      rcases infor.outputPoint_cases with
          ⟨isNone, _⟩ | ⟨last, lastInBound, isLast, _⟩
      · omega
      · omega
    simp [inBound, notOutput, Pending]

/-- The countdown moves the expiring pipe out of the waiting ones. -/
theorem recordedOrExpired_countDown_iff
    {client : ClientStructure}
    (state : (client.list client.id).state = true)
    (sound : (client.list client.id).cpInfor.Sound)
    (port : Port) :
    client.countDown.RecordedOrExpired port ↔ client.Recorded port := by
  have blocks (c slot : Nat) :
      client.countDown.Waiting c slot ∨ client.countDown.Expired c slot ↔
        client.Waiting c slot := by
    unfold Waiting Expired countDown
    rw [setInfor_cpInfor, setInfor_state, setInfor_id]
    by_cases own : c = client.id
    · subst own
      simp only [if_true, state, true_and]
      exact pending_or_expired_countDown_iff sound
    · simp [own]
  cases port with
  | readFd c slot => exact blocks c slot
  | writeFd c slot => exact blocks c slot
  | userPipe receiver sender =>
      simp [RecordedOrExpired, Recorded, countDown]

/-- The countdown changes no stored descriptor. -/
theorem fd_countDown
    (client : ClientStructure)
    (port : Port) :
    port.fd client.countDown = port.fd client := by
  have sameFds (c slot : Nat) :
      ((client.countDown.list c).cpInfor.list slot).fds =
        ((client.list c).cpInfor.list slot).fds := by
    rw [countDown, setInfor_cpInfor]
    split_ifs with own
    · rw [own]
      exact fds_countDownAndCheck _ slot
    · rfl
  cases port with
  | readFd c slot => exact congrArg PipeFds.readFd (sameFds c slot)
  | writeFd c slot => exact congrArg PipeFds.writeFd (sameFds c slot)
  | userPipe receiver sender => simp [Port.fd, countDown]

variable {client : ClientStructure}

/-- The consumed places held their descriptors. -/
theorem recordedOrExpired_of_mem_inputPorts
    {line : Command}
    {port : Port}
    (member : port ∈ client.inputPorts line) :
    client.RecordedOrExpired port := by
  unfold inputPorts at member
  dsimp only at member
  split_ifs at member with expired given
  · have isExpired :
        client.Expired client.id
          (client.list client.id).cpInfor.outputPoint.toNat :=
      ⟨rfl, by omega⟩
    rcases List.mem_pair.mp member with rfl | rfl
    · exact Or.inr isExpired
    · exact Or.inr isExpired
  · obtain rfl := List.mem_singleton.mp member
    have ready := given.2
    simp only [userInReady, Bool.and_eq_true, decide_eq_true_eq] at ready
    exact ready.2
  · cases member

theorem inputPorts_nodup
    (client : ClientStructure)
    (line : Command) :
    (client.inputPorts line).Nodup := by
  unfold inputPorts
  dsimp only
  split_ifs <;> simp

/-- A block is consumed exactly when it has expired. -/
theorem block_mem_inputPorts_iff
    {line : Command}
    {c slot : Nat} :
    (.readFd c slot ∈ client.inputPorts line ↔ client.Expired c slot) ∧
      (.writeFd c slot ∈ client.inputPorts line ↔ client.Expired c slot) := by
  unfold inputPorts Expired
  dsimp only
  split_ifs with expired given
  · constructor
    · simp only [List.mem_cons, reduceCtorEq, Port.readFd.injEq,
        List.not_mem_nil, or_false, false_or]
      constructor
      · rintro ⟨rfl, rfl⟩
        exact ⟨rfl, by omega⟩
      · rintro ⟨rfl, isOutput⟩
        exact ⟨rfl, by omega⟩
    · simp only [List.mem_cons, reduceCtorEq, Port.writeFd.injEq,
        List.not_mem_nil, or_false]
      constructor
      · rintro ⟨rfl, rfl⟩
        exact ⟨rfl, by omega⟩
      · rintro ⟨rfl, isOutput⟩
        exact ⟨rfl, by omega⟩
  · refine ⟨?_, ?_⟩
    · simp only [List.mem_singleton, reduceCtorEq, false_iff]
      rintro ⟨rfl, isOutput⟩
      omega
    · simp only [List.mem_singleton, reduceCtorEq, false_iff]
      rintro ⟨rfl, isOutput⟩
      omega
  · refine ⟨?_, ?_⟩
    · simp only [List.not_mem_nil, false_iff]
      rintro ⟨rfl, isOutput⟩
      omega
    · simp only [List.not_mem_nil, false_iff]
      rintro ⟨rfl, isOutput⟩
      omega

theorem InLine.not_waiting_of_expired
    (inLine : client.InLine)
    {c slot : Nat}
    (expired : client.Expired c slot) :
    ¬ client.Waiting c slot := by
  obtain ⟨rfl, isOutput⟩ := expired
  exact fun waiting => inLine.expired isOutput waiting.2

/-- After the input, exactly the consumed places are empty. -/
theorem InLine.recorded_takeInput_iff
    (inLine : client.InLine)
    (line : Command)
    (port : Port) :
    (client.takeInput line).Recorded port ↔
      client.RecordedOrExpired port ∧ port ∉ client.inputPorts line := by
  have blocks (c slot : Nat) :
      (client.takeInput line).Waiting c slot ↔
        (client.Waiting c slot ∨ client.Expired c slot) ∧
          ¬ client.Expired c slot := by
    have same :
        (client.takeInput line).Waiting c slot ↔ client.Waiting c slot := by
      simp [Waiting]
    rw [same]
    constructor
    · intro waiting
      exact ⟨Or.inl waiting,
        fun expired => inLine.not_waiting_of_expired expired waiting⟩
    · rintro ⟨waiting | expired, notExpired⟩
      · exact waiting
      · exact absurd expired notExpired
  cases port with
  | readFd c slot =>
      rw [block_mem_inputPorts_iff.1]
      exact blocks c slot
  | writeFd c slot =>
      rw [block_mem_inputPorts_iff.2]
      exact blocks c slot
  | userPipe receiver sender =>
      simp only [Recorded, RecordedOrExpired, takeInput_userPipe]
      split_ifs with consumed
      · simp [consumed]
      · simp [consumed]

/-- The places that stay keep their descriptors. -/
theorem fd_takeInput
    {line : Command}
    {port : Port}
    (kept : port ∉ client.inputPorts line) :
    port.fd (client.takeInput line) = port.fd client := by
  cases port with
  | readFd c slot => simp [Port.fd]
  | writeFd c slot => simp [Port.fd]
  | userPipe receiver sender =>
      simp [Port.fd, takeInput_userPipe, kept]

/-- A line without a new pipe only gives up its input. -/
theorem InLine.turnover_plain
    (inLine : client.InLine)
    (line : Command) :
    Ledger.Turnover client.lineLedger (client.takeInput line).ledger
      (client.inputPorts line) [] where
  held_iff := by
    intro port
    simpa [ledger, lineLedger] using inLine.recorded_takeInput_iff line port
  name_eq := by
    intro port _ kept _
    exact fd_takeInput kept
  consumed_held := fun _ member => recordedOrExpired_of_mem_inputPorts member
  issued_distinct := by simp
  issued_fresh := by simp

/-- The two places of the block at `min_input_point`. -/
def inputPointPorts (client : ClientStructure) : List Port :=
  [.readFd client.id (client.list client.id).cpInfor.minInputPoint,
    .writeFd client.id (client.list client.id).cpInfor.minInputPoint]

/-- An insertion fills the block at `min_input_point` and no other. -/
theorem InLine.pending_updateCrossPipeFd_iff
    (inLine : client.InLine)
    {crossNum : Int}
    (given : crossNum ≠ 0)
    (fd : PipeFds)
    (slot : Nat) :
    ((client.list client.id).cpInfor.updateCrossPipeFd fd crossNum).Pending
        slot ↔
      slot = (client.list client.id).cpInfor.minInputPoint ∨
        (client.list client.id).cpInfor.Pending slot := by
  have inBound := mem_slots.mp inLine.sound.tight.1
  simp only [cache_low] at inBound
  unfold Pending
  rw [updateCrossPipeFd_list]
  by_cases here : slot = (client.list client.id).cpInfor.minInputPoint
  · subst here
    simp [inBound, crossCount_pos given]
  · simp [here]

/-- The inserted descriptors are those in the block at `min_input_point`. -/
theorem fd_inputPoint
    (client : ClientStructure)
    (line : Command)
    (fd : PipeFds)
    (crossNum : Int) :
    Port.fd
        ((client.takeInput line).setInfor
          ((client.list client.id).cpInfor.updateCrossPipeFd fd crossNum))
        (.readFd client.id (client.list client.id).cpInfor.minInputPoint) =
        fd.readFd ∧
      Port.fd
        ((client.takeInput line).setInfor
          ((client.list client.id).cpInfor.updateCrossPipeFd fd crossNum))
        (.writeFd client.id (client.list client.id).cpInfor.minInputPoint) =
        fd.writeFd := by
  simp [Port.fd, setInfor_cpInfor, updateCrossPipeFd_list]

/-- The insertion changes no descriptor outside the block at `min_input_point`. -/
theorem fd_setInfor_of_not_mem
    (client : ClientStructure)
    (line : Command)
    (fd : PipeFds)
    (crossNum : Int)
    {port : Port}
    (notPoint : port ∉ client.inputPointPorts) :
    port.fd
        ((client.takeInput line).setInfor
          ((client.list client.id).cpInfor.updateCrossPipeFd fd crossNum)) =
      port.fd (client.takeInput line) := by
  cases port with
  | readFd c slot =>
      simp only [inputPointPorts, List.mem_cons, Port.readFd.injEq,
        reduceCtorEq, List.not_mem_nil, or_false, not_and] at notPoint
      simp only [Port.fd, setInfor_cpInfor, takeInput_id]
      split_ifs with here
      · rw [updateCrossPipeFd_list,
          Function.update_of_ne (notPoint here), here]
        simp
      · rfl
  | writeFd c slot =>
      simp only [inputPointPorts, List.mem_cons, Port.writeFd.injEq,
        reduceCtorEq, List.not_mem_nil, or_false, false_or, not_and]
        at notPoint
      simp only [Port.fd, setInfor_cpInfor, takeInput_id]
      split_ifs with here
      · rw [updateCrossPipeFd_list,
          Function.update_of_ne (notPoint here), here]
        simp
      · rfl
  | userPipe receiver sender =>
      simp [Port.fd]

/-- A line with a new numbered pipe fills the block at `min_input_point`. -/
theorem InLine.turnover_numbered
    (inLine : client.InLine)
    (line : Command)
    (given : line.crossNum ≠ 0)
    {fd : PipeFds}
    (different : fd.readFd ≠ fd.writeFd)
    (fresh :
      ∀ port,
        client.RecordedOrExpired port →
        port ∉ client.inputPorts line →
        port.fd client ≠ fd.readFd ∧ port.fd client ≠ fd.writeFd) :
    Ledger.Turnover client.lineLedger
      ((client.takeInput line).setInfor
        ((client.list client.id).cpInfor.updateCrossPipeFd fd
          line.crossNum)).ledger
      (client.inputPorts line) client.inputPointPorts := by
  have waiting_iff (c slot : Nat) :
      ((client.takeInput line).setInfor
          ((client.list client.id).cpInfor.updateCrossPipeFd fd
            line.crossNum)).Waiting c slot ↔
        (c = client.id ∧
            slot = (client.list client.id).cpInfor.minInputPoint) ∨
          (client.takeInput line).Waiting c slot := by
    unfold Waiting
    rw [setInfor_cpInfor, setInfor_state, takeInput_id]
    by_cases here : c = client.id
    · subst here
      simp [inLine.pending_updateCrossPipeFd_iff given, inLine.state]
    · simp [here]
  have names := client.fd_inputPoint line fd line.crossNum
  refine {
    held_iff := ?_
    name_eq := ?_
    consumed_held := fun _ member => recordedOrExpired_of_mem_inputPorts member
    issued_distinct := ?_
    issued_fresh := ?_ }
  · intro port
    change _ ↔ _ ∨ client.RecordedOrExpired port ∧ _
    rw [← and_assoc, ← inLine.recorded_takeInput_iff line port]
    cases port with
    | readFd c slot =>
        change _ ↔ _ ∨ (client.takeInput line).Waiting c slot ∧ _
        refine (waiting_iff c slot).trans ?_
        simp only [inputPointPorts, List.mem_cons, Port.readFd.injEq,
          reduceCtorEq, List.not_mem_nil, or_false]
        tauto
    | writeFd c slot =>
        change _ ↔ _ ∨ (client.takeInput line).Waiting c slot ∧ _
        refine (waiting_iff c slot).trans ?_
        simp only [inputPointPorts, List.mem_cons, Port.writeFd.injEq,
          reduceCtorEq, List.not_mem_nil, or_false, false_or]
        tauto
    | userPipe receiver sender =>
        simp [ledger, Recorded, inputPointPorts]
  · intro port _ kept notIssued
    change port.fd _ = port.fd client
    rw [← fd_takeInput kept]
    exact client.fd_setInfor_of_not_mem line fd line.crossNum notIssued
  · intro first firstIssued second secondIssued sameName
    rcases List.mem_pair.mp firstIssued with rfl | rfl
    · rcases List.mem_pair.mp secondIssued with rfl | rfl
      · rfl
      · exact absurd ((names.1.symm.trans sameName).trans names.2) different
    · rcases List.mem_pair.mp secondIssued with rfl | rfl
      · exact absurd ((names.1.symm.trans sameName.symm).trans names.2)
          different
      · rfl
  · intro port isIssued old isHeld kept
    have notNew := fresh old isHeld kept
    rcases List.mem_pair.mp isIssued with rfl | rfl
    · exact fun same => notNew.1 (same.trans names.1)
    · exact fun same => notNew.2 (same.trans names.2)

/-- Another place than the entry of the receiver keeps its descriptor. -/
theorem fd_setUserPipe_of_ne
    (client : ClientStructure)
    {receiver sender : Nat}
    (fd : Int)
    {port : Port}
    (different : port ≠ .userPipe receiver sender) :
    port.fd (client.setUserPipe receiver sender fd) = port.fd client := by
  cases port with
  | readFd c slot => simp [Port.fd]
  | writeFd c slot => simp [Port.fd]
  | userPipe r s =>
      have notHere : ¬ (r = receiver ∧ s = sender) := by
        simpa using different
      simp [Port.fd, setUserPipe_userPipe, notHere]

/-- A line with a new user pipe fills the entry of its receiver. -/
theorem InLine.turnover_user
    (inLine : client.InLine)
    (line : Command)
    (receiver : Nat)
    {fd : Int}
    (nonneg : 0 ≤ fd)
    (fresh :
      ∀ port,
        client.RecordedOrExpired port →
        port ∉ client.inputPorts line →
        port.fd client ≠ fd) :
    Ledger.Turnover client.lineLedger
      ((client.takeInput line).setUserPipe receiver client.id fd).ledger
      (client.inputPorts line) [.userPipe receiver client.id] := by
  have isName :
      Port.fd ((client.takeInput line).setUserPipe receiver client.id fd)
          (.userPipe receiver client.id) = fd := by
    simp [Port.fd, setUserPipe_userPipe]
  refine {
    held_iff := ?_
    name_eq := ?_
    consumed_held := fun _ member => recordedOrExpired_of_mem_inputPorts member
    issued_distinct := ?_
    issued_fresh := ?_ }
  · intro port
    change _ ↔ _ ∨ client.RecordedOrExpired port ∧ _
    rw [← and_assoc, ← inLine.recorded_takeInput_iff line port]
    cases port with
    | readFd c slot =>
        simp [ledger, Recorded, Waiting]
    | writeFd c slot =>
        simp [ledger, Recorded, Waiting]
    | userPipe r s =>
        simp only [ledger, Recorded, setUserPipe_userPipe, List.mem_singleton,
          Port.userPipe.injEq]
        split_ifs with here
        · simp [here, nonneg]
        · simp [here]
  · intro port _ kept notIssued
    change port.fd _ = port.fd client
    rw [← fd_takeInput kept]
    exact fd_setUserPipe_of_ne _ fd (by simpa using notIssued)
  · intro first firstIssued second secondIssued _
    rw [List.mem_singleton.mp firstIssued, List.mem_singleton.mp secondIssued]
  · intro port isIssued old isHeld kept
    obtain rfl := List.mem_singleton.mp isIssued
    exact fun same => fresh old isHeld kept (same.trans isName)

/-! ## The test for `>` before and after the input -/

/--
The line reads the pipe from its client to itself and writes to the same one:
the parent clears the entry between its two tests.
-/
def SelfPiped
    (client : ClientStructure)
    (line : Command) : Prop :=
  line.crossNum = 0 ∧
    (client.list client.id).cpInfor.outputPoint < 0 ∧
    line.userInId = client.id ∧
    line.userOutId = client.id ∧
    line.userInId ≠ 0 ∧
    client.userInReady client.id = true

instance
    (client : ClientStructure)
    (line : Command) :
    Decidable (client.SelfPiped line) :=
  inferInstanceAs (Decidable (_ ∧ _ ∧ _ ∧ _ ∧ _ ∧ _))

/-- The entry is free after the input if it was, or if it was the input. -/
theorem userOutReady_takeInput_iff
    {line : Command}
    {receiver : Nat} :
    (client.takeInput line).userOutReady receiver = true ↔
      client.userOutReady receiver = true ∨
        receiver ≤ maxClientNum ∧ (client.list receiver).state = true ∧
          .userPipe receiver client.id ∈ client.inputPorts line := by
  simp only [userOutReady, Bool.and_eq_true, decide_eq_true_eq,
    takeInput_state, takeInput_id, takeInput_userPipe]
  split_ifs with consumed
  · have negative : (-1 : Int) < 0 := by decide
    simp only [negative, consumed, and_true]
    tauto
  · simp [consumed]

/-- An entry that is free after the input, and was not before, was the input. -/
theorem consumed_of_userOutReady
    {line : Command}
    {receiver : Nat}
    (ready : (client.takeInput line).userOutReady receiver = true)
    (isHeld : client.RecordedOrExpired (.userPipe receiver client.id)) :
    .userPipe receiver client.id ∈ client.inputPorts line := by
  by_contra notConsumed
  change 0 ≤ (client.list receiver).userPipe client.id at isHeld
  simp only [userOutReady, Bool.and_eq_true, decide_eq_true_eq, takeInput_id,
    takeInput_userPipe, if_neg notConsumed] at ready
  omega

/-- The test for `>` gives the same answer twice unless the line is self-piped. -/
theorem userOutReady_takeInput
    {line : Command}
    (noCross : line.crossNum = 0)
    (notSelf : ¬ client.SelfPiped line) :
    (client.takeInput line).userOutReady line.userOutId =
      client.userOutReady line.userOutId := by
  rw [Bool.eq_iff_iff, userOutReady_takeInput_iff, or_iff_left_iff_imp]
  rintro ⟨_, _, consumed⟩
  by_cases expired : 0 ≤ (client.list client.id).cpInfor.outputPoint
  · rw [inputPorts_of_expired line expired] at consumed
    simp at consumed
  · by_cases given : line.userInId ≠ 0 ∧ client.userInReady line.userInId
    · rw [inputPorts_of_given expired given] at consumed
      obtain ⟨isReceiver, isSender⟩ :
          line.userOutId = client.id ∧ client.id = line.userInId := by
        simpa using consumed
      have ready := given.2
      rw [← isSender] at ready
      exact absurd
        ⟨noCross, by omega, isSender.symm, isReceiver, given.1, ready⟩ notSelf
    · rw [inputPorts_of_not_given expired given] at consumed
      cases consumed

/-- The self-piped line finds the entry of its input free. -/
theorem SelfPiped.userOutReady
    {line : Command}
    (selfPiped : client.SelfPiped line) :
    line.userOutId ≠ 0 ∧
      (client.takeInput line).userOutReady line.userOutId = true := by
  obtain ⟨_, notExpired, isIn, isOut, given, isReady⟩ := selfPiped
  have isInput := isReady
  simp only [userInReady, Bool.and_eq_true, decide_eq_true_eq] at isReady
  refine ⟨by omega, ?_⟩
  rw [userOutReady_takeInput_iff,
    inputPorts_of_given (Int.not_le.mpr notExpired) ⟨given, isIn ▸ isInput⟩]
  refine Or.inr ⟨?_, ?_, ?_⟩
  · rw [isOut]
    exact isReady.1.1
  · rw [isOut]
    exact isReady.1.2
  · rw [isIn, isOut]
    exact List.mem_singleton_self _

end ClientStructure

end NpServers.Shell
