import NpServers.ClientTable

namespace NpServers.MultiProc

open Shell

/-!
# Shared memory of the multi-process server

`np_multi_proc.c` runs one process for each client.  The processes share the
array `client_list`, the counters in `connect_state` and the fifo counter.  A
POSIX semaphore is modelled by its value.

The login and the logout of a session are sections under `lock2`.  They are
given here statement by statement; the section functions run them as a whole.
-/

/-- `client_infor`, without the peer address. -/
structure ClientInfor where
  pid : Nat
  state : Bool
  name : String
  mailbox : String
  fromId : Nat
  userPipe : Nat → Int
  lock : Nat

/-- `connection_state`. -/
structure ConnectionState where
  clientNum : Int
  minId : Nat
  lock : Nat
  lock2 : Nat

/-- `fifo_information`. -/
structure FifoInformation where
  count : Nat
  lock : Nat

/-- The three shared segments. -/
structure Shared where
  clientList : Nat → ClientInfor
  connectState : ConnectionState
  fifoInfor : FifoInformation

namespace Shared

/-- `create_shared_mem`, called by the process `serverPid`. -/
def createSharedMem (serverPid : Nat) : Shared where
  clientList := fun i =>
    { pid := if i = 0 then serverPid else 0
      state := decide (i = 0)
      name := ""
      mailbox := ""
      fromId := 0
      userPipe := fun _ => if i ∈ clientIds then -1 else 0
      lock := if i ∈ clientIds then 1 else 0 }
  connectState := { clientNum := 0, minId := 1, lock := 0, lock2 := 1 }
  fifoInfor := { count := 0, lock := 1 }

/-- Change one entry of `client_list`. -/
def setClient
    (shared : Shared)
    (i : Nat)
    (change : ClientInfor → ClientInfor) : Shared :=
  { shared with
    clientList :=
      Function.update shared.clientList i (change (shared.clientList i)) }

@[simp] theorem setClient_self
    (shared : Shared)
    (i : Nat)
    (change : ClientInfor → ClientInfor) :
    (shared.setClient i change).clientList i =
      change (shared.clientList i) := by
  simp [setClient]

theorem setClient_of_ne
    {i j : Nat}
    (different : j ≠ i)
    (shared : Shared)
    (change : ClientInfor → ClientInfor) :
    (shared.setClient i change).clientList j = shared.clientList j := by
  simp [setClient, Function.update_of_ne different]

@[simp] theorem setClient_connectState
    (shared : Shared)
    (i : Nat)
    (change : ClientInfor → ClientInfor) :
    (shared.setClient i change).connectState = shared.connectState :=
  rfl

@[simp] theorem setClient_fifoInfor
    (shared : Shared)
    (i : Nat)
    (change : ClientInfor → ClientInfor) :
    (shared.setClient i change).fifoInfor = shared.fifoInfor :=
  rfl

/-- `connect_state->client_num++`. -/
def countLogin (shared : Shared) : Shared :=
  { shared with
    connectState :=
      { shared.connectState with
        clientNum := shared.connectState.clientNum + 1 } }

/-- `connect_state->client_num--`. -/
def countLogout (shared : Shared) : Shared :=
  { shared with
    connectState :=
      { shared.connectState with
        clientNum := shared.connectState.clientNum - 1 } }

/-- `update_client_infor`: the process id is stored before the state. -/
def updateClientInfor
    (shared : Shared)
    (id pid : Nat) : Shared :=
  (shared.setClient id fun client => { client with pid := pid }).setClient id
    fun client => { client with state := true, name := "(no name)" }

/-- The scan for the least free id in the login section. -/
def rescanMinId (shared : Shared) : Shared :=
  { shared with
    connectState :=
      { shared.connectState with
        minId :=
          (clientIds.find? fun i => !(shared.clientList i).state).getD
            shared.connectState.minId } }

/-- The comparison with `min_id` in the logout section. -/
def lowerMinId
    (shared : Shared)
    (id : Nat) : Shared :=
  { shared with
    connectState :=
      { shared.connectState with
        minId :=
          if id < shared.connectState.minId then
            id
          else
            shared.connectState.minId } }

/-- The first loop of `delete_client_infor`, over the own row. -/
def clearRow
    (shared : Shared)
    (id : Nat) : Shared :=
  shared.setClient id fun client =>
    { client with
      userPipe := fun i => if i ≤ maxClientNum then -1 else client.userPipe i }

/-- One round of the second loop of `delete_client_infor`. -/
def clearColumnEntry
    (shared : Shared)
    (id i : Nat) : Shared :=
  if (shared.clientList i).state then
    shared.setClient i fun client =>
      { client with userPipe := Function.update client.userPipe id (-1) }
  else
    shared

/-- `delete_client_infor`. -/
def deleteClientInfor
    (shared : Shared)
    (id : Nat) : Shared :=
  clientIds.foldl (fun cleared i => cleared.clearColumnEntry id i)
    ((shared.setClient id fun client =>
      { client with state := false }).clearRow id)

/-- The section of a login, from taking `min_id` to the scan. -/
def loginSection
    (shared : Shared)
    (pid : Nat) : Shared :=
  ((shared.countLogin).updateClientInfor
    shared.connectState.minId pid).rescanMinId

/-- The section of a logout, from `delete_client_infor` to `min_id`. -/
def logoutSection
    (shared : Shared)
    (id : Nat) : Shared :=
  ((shared.deleteClientInfor id).countLogout).lowerMinId id

/-- The rounds of the column loop change nothing but `user_pipe`. -/
theorem foldl_clearColumnEntry
    (ids : List Nat)
    (shared : Shared)
    (id i : Nat) :
    ((ids.foldl (fun cleared j => cleared.clearColumnEntry id j)
        shared).clientList i).state = (shared.clientList i).state ∧
      ((ids.foldl (fun cleared j => cleared.clearColumnEntry id j)
        shared).clientList i).pid = (shared.clientList i).pid ∧
      (ids.foldl (fun cleared j => cleared.clearColumnEntry id j)
        shared).connectState = shared.connectState := by
  induction ids generalizing shared with
  | nil =>
      simp
  | cons j rest inductionHypothesis =>
      rw [List.foldl_cons]
      obtain ⟨sameState, samePid, sameCounters⟩ :=
        inductionHypothesis (shared.clearColumnEntry id j)
      rw [sameState, samePid, sameCounters]
      unfold clearColumnEntry
      split
      · by_cases here : i = j
        · subst here
          simp
        · simp [setClient_of_ne here]
      · simp

/-- The states after `delete_client_infor`: only the leaving client changes. -/
theorem deleteClientInfor_state
    (shared : Shared)
    (id i : Nat) :
    ((shared.deleteClientInfor id).clientList i).state =
      Function.update (fun j => (shared.clientList j).state) id false i := by
  unfold deleteClientInfor
  rw [(foldl_clearColumnEntry _ _ id i).1, clearRow]
  by_cases here : i = id
  · subst here
    simp
  · simp [setClient_of_ne here, Function.update_of_ne here]

/-- The process ids after `delete_client_infor` are the old ones. -/
theorem deleteClientInfor_pid
    (shared : Shared)
    (id i : Nat) :
    ((shared.deleteClientInfor id).clientList i).pid =
      (shared.clientList i).pid := by
  unfold deleteClientInfor
  rw [(foldl_clearColumnEntry _ _ id i).2.1, clearRow]
  by_cases here : i = id
  · subst here
    simp
  · simp [setClient_of_ne here]

theorem deleteClientInfor_connectState
    (shared : Shared)
    (id : Nat) :
    (shared.deleteClientInfor id).connectState = shared.connectState := by
  unfold deleteClientInfor
  rw [(foldl_clearColumnEntry _ _ id 0).2.2, clearRow]
  rfl

end Shared

/-- The sessions that completed their login and not yet their logout. -/
structure Sessions where
  shared : Shared
  idOf : Nat → Option Nat

/-- A session process logs in, or a logged-in one logs out. -/
inductive SessionEvent where
  | login (pid : Nat)
  | logout (pid : Nat)
  deriving Repr, DecidableEq

namespace Sessions

/-- The server before its first client. -/
def initial (serverPid : Nat) : Sessions where
  shared := .createSharedMem serverPid
  idOf := fun _ => none

/-- Admission by the parent, and the logout of a session that is logged in. -/
def admitsEvent
    (sessions : Sessions) :
    SessionEvent → Bool
  | .login pid =>
      decide (sessions.shared.connectState.clientNum < maxClientNum) &&
        (sessions.idOf pid).isNone
  | .logout pid => (sessions.idOf pid).isSome

/-- The effect of the two sections, each run under `lock2`. -/
def handleEvent
    (sessions : Sessions) :
    SessionEvent → Sessions
  | .login pid =>
      { shared := sessions.shared.loginSection pid
        idOf := Function.update sessions.idOf pid
          (some sessions.shared.connectState.minId) }
  | .logout pid =>
      { shared :=
          sessions.shared.logoutSection ((sessions.idOf pid).getD 0)
        idOf := Function.update sessions.idOf pid none }

/-- One login or logout section of a session. -/
def Steps
    (sessions : Sessions)
    (event : SessionEvent)
    (next : Sessions) : Prop :=
  sessions.admitsEvent event = true ∧ next = sessions.handleEvent event

end Sessions

end NpServers.MultiProc
