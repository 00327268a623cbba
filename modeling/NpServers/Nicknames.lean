import NpServers.UserPipeTable

namespace NpServers.Shell

open TransitionPath

/-!
# Nicknames in the single-process server

A client starts as `(no name)` and can take a nickname that no other connected
client has.  Slots are reused after logouts, so uniqueness is an invariant of
whole runs and not of one command.
-/

namespace Server

/-- Connected clients with the same nickname are both without one. -/
def NamesUnique (server : Server) : Prop :=
  ∀ i j,
    i ≠ j →
    server.loggedIn i = true →
    server.loggedIn j = true →
    server.nickname i = server.nickname j →
    server.nickname i = "(no name)" ∧ server.nickname j = "(no name)"

/-- The test of `cmd_name`: another connected client has the name. -/
def nameTaken
    (server : Server)
    (name : String) : Bool :=
  clientIds.any fun i =>
    decide (i ≠ server.client.id) && server.loggedIn i &&
      decide (name = server.nickname i)

variable {server next : Server}

/-- A line keeps nicknames unique. -/
theorem NamesUnique.line
    {userOutId : Nat}
    (unique : server.NamesUnique)
    (inRange : ∀ {i}, server.loggedIn i = true → i ∈ clientIds)
    (move : TableMove userOutId server next) :
    next.NamesUnique := by
  intro i j different isClient isOther same
  rw [move.loggedIn] at isClient isOther
  rcases move.name i with kept | ⟨own, isNew⟩
  · rcases move.name j with otherKept | ⟨otherOwn, otherNew⟩
    · rw [kept, otherKept] at same ⊢
      exact unique i j different isClient isOther same
    · -- only the second name was taken now
      have notTaken := otherNew i (inRange isClient) different isClient
      rw [← kept] at notTaken
      exact absurd same notTaken
  · have notTaken := isNew j (inRange isOther) different.symm isOther
    rcases move.name j with otherKept | ⟨otherOwn, _⟩
    · rw [← otherKept] at notTaken
      exact absurd same.symm notTaken
    · exact absurd (own.trans otherOwn.symm) different

theorem nickname_login
    (server : Server)
    (i : Nat) :
    server.login.nickname i =
      if i = server.main.minId then "(no name)" else server.nickname i := by
  change (Function.update server.client.list server.main.minId
    (.loggedIn server.fds.lowestFree) i).name = _
  split_ifs with new
  · subst new
    rw [Function.update_self]
    rfl
  · rw [Function.update_of_ne new]
    rfl

/-- A new client has no nickname yet. -/
theorem NamesUnique.login
    (unique : server.NamesUnique) :
    server.login.NamesUnique := by
  intro i j different isClient isOther same
  rw [nickname_login, nickname_login] at same ⊢
  rw [loggedIn_login] at isClient isOther
  by_cases new : i = server.main.minId
  · rw [if_pos new] at same ⊢
    exact ⟨rfl, same.symm⟩
  · rw [if_neg new] at same isClient ⊢
    by_cases otherNew : j = server.main.minId
    · rw [if_pos otherNew] at same ⊢
      exact ⟨same, rfl⟩
    · rw [if_neg otherNew] at same isOther ⊢
      exact unique i j different isClient isOther same

theorem nickname_logout_of_ne
    (server : Server)
    {fd : Int}
    {i : Nat}
    (stays : i ≠ (server.main.fdIdList fd).toNat) :
    (server.logout fd).nickname i = server.nickname i := by
  change ((deleteClientInfor _).list i).name = _
  unfold deleteClientInfor
  dsimp only
  rw [if_neg stays]
  split_ifs <;> rfl

theorem NamesUnique.logout
    (unique : server.NamesUnique)
    (fd : Int) :
    (server.logout fd).NamesUnique := by
  intro i j different isClient isOther same
  rw [loggedIn_logout] at isClient isOther
  split_ifs at isClient isOther with leaving otherLeaving
  rw [nickname_logout_of_ne server leaving,
    nickname_logout_of_ne server otherLeaving] at same ⊢
  exact unique i j different isClient isOther same

/-- Every event keeps nicknames unique. -/
theorem NamesUnique.step
    {event : ServerEvent}
    (unique : server.NamesUnique)
    (between : server.PipesBetweenClients)
    (stepped : server.Steps event next) :
    next.NamesUnique := by
  have entered (fd : Int) : (server.enter fd).NamesUnique := unique
  have inRange (fd : Int) {i : Nat} :
      (server.enter fd).loggedIn i = true → i ∈ clientIds :=
    between.inRange
  cases stepped.moves with
  | login => exact unique.login
  | @input fd input outside _ =>
      exact (entered fd).line (inRange fd) (tableMove_runShell input outside _)
  | @exit fd _ =>
      have counted :=
        (entered fd).line (inRange fd) (tableMove_countDown _)
      exact counted.logout fd
  | @endOfFile fd _ _ => exact (entered fd).logout fd
  | childExits => exact unique

/-- A name that another client has is refused. -/
theorem nickname_of_nameTaken
    {name : String}
    (taken : server.nameTaken name = true) :
    server.cmdName name = server :=
  if_pos taken

/--
In every reachable state, nicknames of different connected clients differ unless
both have none, and a refused line `name` changes no nickname.
-/
theorem nicknames_unique
    {path : List (ServerEvent × Server)}
    (isPath : Path Steps initial path) :
    (lastState initial path).NamesUnique ∧
      ∀ {fd name outside next},
        (lastState initial path).Steps (.input fd (.name name) outside) next →
        (((lastState initial path).enter fd).countDown).nameTaken name = true →
        ∀ i, next.nickname i = (lastState initial path).nickname i := by
  have holds :
      EveryState (fun server =>
        server.PipesBetweenClients ∧ server.NamesUnique) initial path := by
    refine isPath.everyState ?_ ⟨pipesBetweenClients_initial, ?_⟩
    · rintro server event next ⟨between, unique⟩ stepped
      exact ⟨between.step stepped, unique.step between stepped⟩
    · intro i j _ isClient
      cases isClient
  refine ⟨holds.last.2, ?_⟩
  intro fd name outside next stepped taken i
  cases stepped.moves
  change ((((lastState initial path).enter fd).countDown.cmdName
    name).freeRecord).nickname i = _
  rw [nickname_of_nameTaken taken]
  -- neither the countdown nor the freed record touches a nickname
  have keeps (server : Server) (infor : CrossPipe) :
      (server.setInfor infor).nickname i = server.nickname i :=
    server.client.setInfor_name infor i
  unfold freeRecord
  split_ifs
  · rw [keeps]
    exact keeps _ _
  · exact keeps _ _

/-- Two clients log in, and the first takes a nickname. -/
def namedEvents : List ServerEvent :=
  [.login, .login, .input 4 (.name "bob") plainOutside]

/-- The run of these events. -/
def namedPath : List (ServerEvent × Server) :=
  (trace step initial namedEvents).getD []

/-- The second client is refused the nickname of the first. -/
theorem nicknames_unique_refused :
    (lastState initial namedPath).NamesUnique ∧
      ∃ next,
        (lastState initial namedPath).Steps
            (.input 5 (.name "bob") plainOutside) next ∧
          next.nickname 1 = "bob" ∧ next.nickname 2 = "(no name)" := by
  have isPath : Path Steps initial namedPath := path_trace (by decide +kernel)
  obtain ⟨unique, refused⟩ := nicknames_unique isPath
  have stepped : (lastState initial namedPath).Steps
      (.input 5 (.name "bob") plainOutside)
      (((lastState initial namedPath).enter 5).runShell (.name "bob")
        plainOutside) :=
    (Moves.input (by decide +kernel)).steps
  refine ⟨unique, _, stepped, ?_, ?_⟩
  · rw [refused stepped (by decide +kernel)]
    decide +kernel
  · rw [refused stepped (by decide +kernel)]
    decide +kernel

end Server

end NpServers.Shell
