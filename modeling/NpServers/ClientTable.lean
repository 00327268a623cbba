import NpServers.CrossPipe

namespace NpServers.Shell

open CrossPipe

/-!
# The client table of the single-process server

`np_single_proc.c` keeps all clients in `client_structure` and maps socket
descriptors to ids by `fd_id_list`.  `min_id` caches the id for the next login.

The pointers `user_pipe` and `cp_infor` of a slot are set exactly while its
`state` is 1.  A freed `user_pipe` is modelled by a row of `-1` entries, which
every test in the program treats in the same way as a null pointer.
-/

/-- `max_client_num`. -/
def maxClientNum : Nat := 30

/-- The ids that a client can have, in the order of the loops. -/
def clientIds : List Nat :=
  List.range' 1 maxClientNum

theorem clientIds_increasing : clientIds.Pairwise (· < ·) :=
  List.pairwise_lt_range'

@[simp] theorem mem_clientIds
    {i : Nat} :
    i ∈ clientIds ↔ 1 ≤ i ∧ i ≤ maxClientNum := by
  simp only [clientIds, List.mem_range'_1]
  omega

/-- `struct client_infor`, without the peer address. -/
structure ClientInfor where
  sockfd : Int
  state : Bool
  userPipe : Nat → Int
  name : String
  cpInfor : CrossPipe

/-- A slot as `initial_client_infor` leaves it. -/
def ClientInfor.vacant : ClientInfor where
  sockfd := -1
  state := false
  userPipe := fun _ => -1
  name := ""
  cpInfor := initialCrossPipeInfor

/-- A slot as `update_client_infor` fills it. -/
def ClientInfor.loggedIn (sockfd : Int) : ClientInfor where
  sockfd := sockfd
  state := true
  userPipe := fun _ => -1
  name := "(no name)"
  cpInfor := initialCrossPipeInfor

/-- `client_structure`. -/
structure ClientStructure where
  id : Nat
  list : Nat → ClientInfor

/-- The variables of `main` that login and logout use. -/
structure MainState where
  client : ClientStructure
  fdIdList : Int → Int
  clientNum : Int
  minId : Nat

namespace MainState

/-- The state after `initial_client_infor`. -/
def initialClientInfor : MainState where
  client := { id := 0, list := fun _ => .vacant }
  fdIdList := fun _ => -1
  clientNum := 0
  minId := 1

/-- `update_client_infor`. -/
def updateClientInfor
    (main : MainState)
    (sockfd : Int) : MainState :=
  let list :=
    Function.update main.client.list main.minId (.loggedIn sockfd)
  { main with
    client := { id := main.minId, list := list }
    fdIdList := Function.update main.fdIdList sockfd main.minId
    minId := (clientIds.find? fun i => !(list i).state).getD main.minId }

end MainState

/-- The row of a client when the column of the leaving client is cleared. -/
def clearUserPipe
    (userPipe : Nat → Int)
    (id : Nat) : Nat → Int :=
  if 0 ≤ userPipe id then Function.update userPipe id (-1) else userPipe

/-- `delete_client_infor`: the client `id` leaves the table. -/
def deleteClientInfor (client : ClientStructure) : ClientStructure where
  id := client.id
  list := fun i =>
    if i = client.id then
      .vacant
    else if i ∈ clientIds then
      { client.list i with
        userPipe := clearUserPipe (client.list i).userPipe client.id }
    else
      client.list i

namespace MainState

/-- The login part of the loop in `main`, once `accept` returned `ssockfd`. -/
def login
    (main : MainState)
    (ssockfd : Int) : MainState :=
  let updated := main.updateClientInfor ssockfd
  { updated with clientNum := updated.clientNum + 1 }

/-- The logout part of the loop in `main` for the descriptor `fd`. -/
def logout
    (main : MainState)
    (fd : Int) : MainState where
  client :=
    deleteClientInfor { main.client with id := (main.fdIdList fd).toNat }
  fdIdList := Function.update main.fdIdList fd (-1)
  clientNum := main.clientNum - 1
  minId :=
    if main.fdIdList fd < main.minId then
      (main.fdIdList fd).toNat
    else
      main.minId

end MainState

/-- A client connects on a descriptor, or the client on a descriptor leaves. -/
inductive SessionEvent where
  | login (ssockfd : Int)
  | logout (fd : Int)
  deriving Repr, DecidableEq

namespace MainState

/--
What the server admits: a login when `client_num < max_client_num`, on a
descriptor that no connected client has; a logout of a connected client whose
slot was not already deleted.
-/
def admitsEvent
    (main : MainState) :
    SessionEvent → Bool
  | .login ssockfd =>
      decide (main.clientNum < maxClientNum) &&
        decide (main.fdIdList ssockfd = -1)
  | .logout fd =>
      decide (0 ≤ main.fdIdList fd) &&
        (main.client.list (main.fdIdList fd).toNat).state

/-- The effect of a session event. -/
def handleEvent
    (main : MainState) :
    SessionEvent → MainState
  | .login ssockfd => main.login ssockfd
  | .logout fd => main.logout fd

/-- One login or logout that the server admits. -/
def Steps
    (main : MainState)
    (event : SessionEvent)
    (next : MainState) : Prop :=
  main.admitsEvent event = true ∧ next = main.handleEvent event

end MainState

end NpServers.Shell
