import NpServers.MultiProcShared
import NpServers.SlotLease

namespace NpServers

open LeastFreeSlot SlotLease TransitionPath

/-!
# Ids of connected clients

Both servers hand out the cached `min_id` at a login, scan for the next free id
afterwards, and lower the cache at a logout.  Seen as leases of the ids 1 to
30, their runs are exactly those of the cached slot table.

An id is the least free one at every login, and ids and descriptors (or process
ids) stay inverse, exactly in the runs without a stale login: no client logs in
after a login has filled the table and before a client with an id not above the
one given there has left.
-/

namespace Shell.MainState

/-- Descriptors leasing ids in the single-process server. -/
def lease (main : MainState) : Lease Int Nat where
  cache :=
    { used := fun i => (main.client.list i).state
      low := main.minId }
  slotOf := fun fd =>
    if 0 ≤ main.fdIdList fd then some (main.fdIdList fd).toNat else none
  ownerOf := fun i => (main.client.list i).sockfd

/-- The lease operation of a session event. -/
def leaseEvent : SessionEvent → Event Int
  | .login ssockfd => .acquire ssockfd
  | .logout fd => .release fd

/-- A login takes the cached id and scans for the next one. -/
theorem lease_login
    (main : MainState)
    {ssockfd : Int}
    (unused : main.fdIdList ssockfd = -1) :
    Step clientIds main.lease (.acquire ssockfd) (main.login ssockfd).lease := by
  have usedAfter :
      (main.login ssockfd).lease.cache.used =
        Function.update main.lease.cache.used main.lease.cache.low true := by
    funext i
    by_cases here : i = main.minId
    · subst here
      simp [lease, login, updateClientInfor, ClientInfor.loggedIn]
    · simp [lease, login, updateClientInfor, Function.update_of_ne here]
  refine .acquire (by simp [lease, unused]) ?_ ?_ ?_ ?_
  · apply Cache.ext
    · exact usedAfter
    · simp only [Cache.occupy, rescan, ← usedAfter]
      rfl
  · funext fd
    by_cases here : fd = ssockfd
    · subst here
      simp [lease, login, updateClientInfor]
    · simp [lease, login, updateClientInfor, Function.update_of_ne here]
  · simp [lease, login, updateClientInfor, ClientInfor.loggedIn]
  · intro slot elsewhere
    have elsewhere : slot ≠ main.minId := elsewhere
    simp [lease, login, updateClientInfor, Function.update_of_ne elsewhere]

/-- A logout releases the id of its descriptor. -/
theorem lease_logout
    (main : MainState)
    {fd : Int}
    (connected : 0 ≤ main.fdIdList fd) :
    Step clientIds main.lease (.release fd) (main.logout fd).lease := by
  have elsewhereKept
      {i : Nat}
      (elsewhere : i ≠ (main.fdIdList fd).toNat) :
      ((main.logout fd).client.list i).state = (main.client.list i).state ∧
        ((main.logout fd).client.list i).sockfd =
          (main.client.list i).sockfd := by
    simp only [logout, deleteClientInfor, elsewhere, if_false]
    split <;> simp
  have leased : main.lease.slotOf fd = some (main.fdIdList fd).toNat := by
    simp [lease, connected]
  refine .release leased ?_ ?_ ?_
  · apply Cache.ext
    · funext i
      by_cases here : i = (main.fdIdList fd).toNat
      · subst here
        simp [lease, Cache.release, logout, deleteClientInfor,
          ClientInfor.vacant]
      · simp only [lease, Cache.release, Function.update_of_ne here]
        exact (elsewhereKept here).1
    · have sameTest :
          main.fdIdList fd < main.minId ↔
            (main.fdIdList fd).toNat < main.minId := by
        omega
      simp only [lease, Cache.release, logout]
      by_cases lowers : (main.fdIdList fd).toNat < main.minId <;>
        simp [sameTest, lowers]
  · funext other
    by_cases here : other = fd
    · subst here
      simp [lease, logout]
    · simp [lease, logout, Function.update_of_ne here]
  · intro other elsewhere
    exact (elsewhereKept elsewhere).2

/-- Every session event of the server is a lease operation. -/
theorem lease_steps
    {main next : MainState}
    {event : SessionEvent}
    (steps : main.Steps event next) :
    Step clientIds main.lease (leaseEvent event) next.lease := by
  obtain ⟨admitted, rfl⟩ := steps
  cases event with
  | login ssockfd =>
      simp only [admitsEvent, Bool.and_eq_true, decide_eq_true_eq] at admitted
      exact lease_login main admitted.2
  | logout fd =>
      simp only [admitsEvent, Bool.and_eq_true, decide_eq_true_eq] at admitted
      exact lease_logout main admitted.1

/-- A login gives the client the least id whose slot is free. -/
def GivesLeastFreeId
    (main : MainState) :
    SessionEvent → Prop
  | .login ssockfd =>
      IsLeastFree clientIds (fun i => (main.client.list i).state)
        (main.login ssockfd).client.id
  | .logout _ => True

/-- `fd_id_list` and the stored descriptors are inverse to each other. -/
structure FdsInverse (main : MainState) : Prop where
  idOfSockfd :
    ∀ {i},
      i ∈ clientIds →
      (main.client.list i).state = true →
      main.fdIdList (main.client.list i).sockfd = i
  sockfdOfId :
    ∀ {fd},
      0 ≤ main.fdIdList fd →
      (main.fdIdList fd).toNat ∈ clientIds ∧
        (main.client.list (main.fdIdList fd).toNat).state = true ∧
        (main.client.list (main.fdIdList fd).toNat).sockfd = fd

/-- The correspondence of the lease view is the one of the two arrays. -/
theorem fdsInverse_iff
    (main : MainState) :
    main.FdsInverse ↔ Inverse clientIds main.lease := by
  constructor
  · intro inverse
    refine ⟨?_, ?_⟩
    · intro i member connected
      have same := inverse.idOfSockfd member connected
      simp [lease, same]
    · intro fd i leased
      simp only [lease] at leased
      split at leased
      · rename_i connected
        rw [Option.some.injEq] at leased
        subst leased
        exact inverse.sockfdOfId connected
      · cases leased
  · intro inverse
    refine ⟨?_, ?_⟩
    · intro i member connected
      have leased := inverse.slotOf_ownerOf member connected
      simp only [lease] at leased
      split at leased
      · rename_i nonnegative
        rw [Option.some.injEq] at leased
        omega
      · cases leased
    · intro fd connected
      have leased : main.lease.slotOf fd = some (main.fdIdList fd).toNat := by
        simp [lease, connected]
      exact inverse.used_of_slotOf leased

end Shell.MainState

namespace MultiProc.Sessions

/-- Session processes leasing ids in the multi-process server. -/
def lease (sessions : Sessions) : Lease Nat Nat where
  cache :=
    { used := fun i => (sessions.shared.clientList i).state
      low := sessions.shared.connectState.minId }
  slotOf := sessions.idOf
  ownerOf := fun i => (sessions.shared.clientList i).pid

/-- The lease operation of a session event. -/
def leaseEvent : SessionEvent → Event Nat
  | .login pid => .acquire pid
  | .logout pid => .release pid

/-- The login section takes the cached id and scans for the next one. -/
theorem lease_login
    (sessions : Sessions)
    {pid : Nat}
    (unused : sessions.idOf pid = none) :
    Step Shell.clientIds sessions.lease (.acquire pid)
      (sessions.handleEvent (.login pid)).lease := by
  have usedAfter :
      (sessions.handleEvent (.login pid)).lease.cache.used =
        Function.update sessions.lease.cache.used
          sessions.lease.cache.low true := by
    funext i
    by_cases here : i = sessions.shared.connectState.minId
    · subst here
      simp [lease, handleEvent, Shared.loginSection, Shared.rescanMinId,
        Shared.updateClientInfor]
    · simp [lease, handleEvent, Shared.loginSection, Shared.rescanMinId,
        Shared.updateClientInfor, Shared.setClient_of_ne here,
        Function.update_of_ne here, Shared.countLogin]
  refine .acquire unused ?_ rfl ?_ ?_
  · apply Cache.ext
    · exact usedAfter
    · simp only [Cache.occupy, rescan, ← usedAfter]
      rfl
  · simp [lease, handleEvent, Shared.loginSection, Shared.rescanMinId,
      Shared.updateClientInfor]
  · intro slot elsewhere
    have elsewhere : slot ≠ sessions.shared.connectState.minId := elsewhere
    simp [lease, handleEvent, Shared.loginSection, Shared.rescanMinId,
      Shared.updateClientInfor, Shared.setClient_of_ne elsewhere,
      Shared.countLogin]

/-- The logout section releases the id of its process. -/
theorem lease_logout
    (sessions : Sessions)
    {pid id : Nat}
    (loggedIn : sessions.idOf pid = some id) :
    Step Shell.clientIds sessions.lease (.release pid)
      (sessions.handleEvent (.logout pid)).lease := by
  have leased : sessions.lease.slotOf pid = some id := loggedIn
  refine .release leased ?_ rfl ?_
  · apply Cache.ext
    · funext i
      simp only [lease, handleEvent, loggedIn, Option.getD_some,
        Shared.logoutSection, Shared.lowerMinId, Shared.countLogout,
        Shared.deleteClientInfor_state, Cache.release]
    · simp only [lease, handleEvent, loggedIn, Option.getD_some,
        Shared.logoutSection, Shared.lowerMinId, Shared.countLogout,
        Shared.deleteClientInfor_connectState, Cache.release]
      by_cases lowers : id < sessions.shared.connectState.minId <;>
        simp [lowers]
  · intro other _
    simp only [lease, handleEvent, loggedIn, Option.getD_some,
      Shared.logoutSection, Shared.lowerMinId, Shared.countLogout,
      Shared.deleteClientInfor_pid]

/-- Every section of the server is a lease operation. -/
theorem lease_steps
    {sessions next : Sessions}
    {event : SessionEvent}
    (steps : sessions.Steps event next) :
    Step Shell.clientIds sessions.lease (leaseEvent event) next.lease := by
  obtain ⟨admitted, rfl⟩ := steps
  cases event with
  | login pid =>
      simp only [admitsEvent, Bool.and_eq_true, Option.isNone_iff_eq_none]
        at admitted
      exact lease_login sessions admitted.2
  | logout pid =>
      obtain ⟨id, loggedIn⟩ := Option.isSome_iff_exists.mp admitted
      exact lease_logout sessions loggedIn

/-- A login gives the session the least id whose slot is free. -/
def GivesLeastFreeId
    (sessions : Sessions) :
    SessionEvent → Prop
  | .login pid =>
      ∃ id,
        (sessions.handleEvent (.login pid)).idOf pid = some id ∧
          IsLeastFree Shell.clientIds
            (fun i => (sessions.shared.clientList i).state) id
  | .logout _ => True

/-- Process ids in the slots and ids of the processes are inverse. -/
structure PidsInverse (sessions : Sessions) : Prop where
  idOfPid :
    ∀ {i},
      i ∈ Shell.clientIds →
      (sessions.shared.clientList i).state = true →
      sessions.idOf (sessions.shared.clientList i).pid = some i
  pidOfId :
    ∀ {pid i},
      sessions.idOf pid = some i →
      i ∈ Shell.clientIds ∧
        (sessions.shared.clientList i).state = true ∧
        (sessions.shared.clientList i).pid = pid

theorem pidsInverse_iff
    (sessions : Sessions) :
    sessions.PidsInverse ↔ Inverse Shell.clientIds sessions.lease :=
  ⟨fun inverse => ⟨inverse.idOfPid, inverse.pidOfId⟩,
    fun inverse => ⟨inverse.slotOf_ownerOf, inverse.used_of_slotOf⟩⟩

end MultiProc.Sessions

/-- The single-process server starts with all ids free. -/
theorem Shell.MainState.lease_initialClientInfor :
    (initialClientInfor).lease.cache.Tight clientIds ∧
      Inverse clientIds initialClientInfor.lease ∧
      initialClientInfor.lease.cache.filler = none := by
  refine ⟨⟨by decide, ?_⟩, ⟨?_, ?_⟩, rfl⟩
  · intro i member below
    have below : i < 1 := below
    have := mem_clientIds.mp member
    omega
  · intro i _ used
    simp [lease, initialClientInfor, ClientInfor.vacant] at used
  · intro fd i leased
    simp [lease, initialClientInfor] at leased

/-- The multi-process server starts with all ids free. -/
theorem MultiProc.Sessions.lease_initial
    (serverPid : Nat) :
    (initial serverPid).lease.cache.Tight Shell.clientIds ∧
      Inverse Shell.clientIds (initial serverPid).lease ∧
      (initial serverPid).lease.cache.filler = none := by
  have firstId : 1 ∈ Shell.clientIds := by decide
  refine ⟨⟨firstId, ?_⟩, ⟨?_, ?_⟩, rfl⟩
  · intro i member below
    have below : i < 1 := below
    have := Shell.mem_clientIds.mp member
    omega
  · intro i member used
    have isZero : i = 0 := by
      simpa [lease, initial, Shared.createSharedMem] using used
    have := Shell.mem_clientIds.mp member
    omega
  · intro pid i leased
    simp [lease, initial] at leased

/-- No client of the single-process server logs in while `min_id` is stale. -/
def Shell.NoStaleLogin
    (path : List (Shell.SessionEvent × Shell.MainState)) : Prop :=
  NoStaleAcquire Shell.clientIds Shell.MainState.lease
    Shell.MainState.leaseEvent none .initialClientInfor path

/-- No session of the multi-process server logs in while `min_id` is stale. -/
def MultiProc.NoStaleLogin
    (serverPid : Nat)
    (path : List (MultiProc.SessionEvent × MultiProc.Sessions)) : Prop :=
  NoStaleAcquire Shell.clientIds MultiProc.Sessions.lease
    MultiProc.Sessions.leaseEvent none (.initial serverPid) path

/--
In every run of either server, each login is given the least free id and ids
stay inverse to descriptors (process ids) exactly when no login is stale.
-/
theorem loginIds_least_iff_noStaleLogin
    {path : List (Shell.SessionEvent × Shell.MainState)}
    (isPath : Path Shell.MainState.Steps .initialClientInfor path)
    {serverPid : Nat}
    {multiPath : List (MultiProc.SessionEvent × MultiProc.Sessions)}
    (isMultiPath :
      Path MultiProc.Sessions.Steps (.initial serverPid) multiPath) :
    ((EveryStep Shell.MainState.GivesLeastFreeId .initialClientInfor path ∧
        EveryState Shell.MainState.FdsInverse .initialClientInfor path) ↔
      Shell.NoStaleLogin path) ∧
    ((EveryStep MultiProc.Sessions.GivesLeastFreeId
          (.initial serverPid) multiPath ∧
        EveryState MultiProc.Sessions.PidsInverse
          (.initial serverPid) multiPath) ↔
      MultiProc.NoStaleLogin serverPid multiPath) := by
  refine ⟨?_, ?_⟩
  · obtain ⟨tight, inverse, filler⟩ := Shell.MainState.lease_initialClientInfor
    have runs := acquiresLeast_iff_noStaleAcquire
      Shell.MainState.lease Shell.MainState.leaseEvent
      Shell.clientIds_increasing
      (fun steps => Shell.MainState.lease_steps steps) tight inverse isPath
    rw [filler] at runs
    have sameSteps :
        AcquiresLeast Shell.clientIds Shell.MainState.lease
            Shell.MainState.leaseEvent =
          Shell.MainState.GivesLeastFreeId := by
      funext main event
      cases event <;> rfl
    have sameStates :
        (fun main => Inverse Shell.clientIds (Shell.MainState.lease main)) =
          Shell.MainState.FdsInverse := by
      funext main
      exact propext main.fdsInverse_iff.symm
    rw [sameSteps, sameStates] at runs
    exact runs
  · obtain ⟨tight, inverse, filler⟩ :=
      MultiProc.Sessions.lease_initial serverPid
    have runs := acquiresLeast_iff_noStaleAcquire
      MultiProc.Sessions.lease MultiProc.Sessions.leaseEvent
      Shell.clientIds_increasing
      (fun steps => MultiProc.Sessions.lease_steps steps) tight inverse
      isMultiPath
    rw [filler] at runs
    have sameSteps :
        AcquiresLeast Shell.clientIds MultiProc.Sessions.lease
            MultiProc.Sessions.leaseEvent =
          MultiProc.Sessions.GivesLeastFreeId := by
      funext sessions event
      cases event with
      | login pid =>
          simp [AcquiresLeast, MultiProc.Sessions.leaseEvent,
            MultiProc.Sessions.GivesLeastFreeId,
            MultiProc.Sessions.handleEvent, MultiProc.Sessions.lease]
      | logout pid =>
          rfl
    have sameStates :
        (fun sessions =>
            Inverse Shell.clientIds (MultiProc.Sessions.lease sessions)) =
          MultiProc.Sessions.PidsInverse := by
      funext sessions
      exact propext sessions.pidsInverse_iff.symm
    rw [sameSteps, sameStates] at runs
    exact runs

/-- Two clients log in, the first leaves, and a third takes its id. -/
theorem loginIds_least_reusedId :
    (EveryStep Shell.MainState.GivesLeastFreeId .initialClientInfor
          (follow Shell.MainState.handleEvent .initialClientInfor
            [.login 4, .login 5, .logout 4, .login 4]) ∧
        EveryState Shell.MainState.FdsInverse .initialClientInfor
          (follow Shell.MainState.handleEvent .initialClientInfor
            [.login 4, .login 5, .logout 4, .login 4])) ∧
      EveryStep MultiProc.Sessions.GivesLeastFreeId (.initial 1)
          (follow MultiProc.Sessions.handleEvent (.initial 1)
            [.login 2, .login 3, .logout 2, .login 4]) ∧
        EveryState MultiProc.Sessions.PidsInverse (.initial 1)
          (follow MultiProc.Sessions.handleEvent (.initial 1)
            [.login 2, .login 3, .logout 2, .login 4]) := by
  have isPath :
      Path Shell.MainState.Steps .initialClientInfor
        (follow Shell.MainState.handleEvent .initialClientInfor
          [.login 4, .login 5, .logout 4, .login 4]) :=
    path_follow (by decide +kernel)
  have isMultiPath :
      Path MultiProc.Sessions.Steps (.initial 1)
        (follow MultiProc.Sessions.handleEvent (.initial 1)
          [.login 2, .login 3, .logout 2, .login 4]) :=
    path_follow (by decide +kernel)
  have exactly := loginIds_least_iff_noStaleLogin isPath isMultiPath
  refine ⟨exactly.1.mpr ?_, exactly.2.mpr ?_⟩
  · exact ⟨fun _ _ => rfl, fun _ _ => by decide +kernel, nofun,
      fun _ _ => by decide +kernel, trivial⟩
  · exact ⟨fun _ _ => rfl, fun _ _ => by decide +kernel, nofun,
      fun _ _ => by decide +kernel, trivial⟩

/-- A full table, then id 5 leaves and returns, and then id 7 leaves. -/
def Shell.fullTableEvents : List Shell.SessionEvent :=
  (List.range 30).map (fun i => Shell.SessionEvent.login (i + 4)) ++
    [.logout 8, .login 8, .logout 10]

/--
The login that follows is given id 5 although the client with id 5 is connected
and id 7 is free.
-/
theorem Shell.login_overwrites_connected_client :
    Path MainState.Steps .initialClientInfor
        (follow MainState.handleEvent .initialClientInfor
          (fullTableEvents ++ [.login 10])) ∧
      ¬ EveryStep MainState.GivesLeastFreeId .initialClientInfor
        (follow MainState.handleEvent .initialClientInfor
          (fullTableEvents ++ [.login 10])) := by
  refine ⟨path_follow (by decide +kernel), ?_⟩
  intro everyLogin
  have least := everyLogin.follow_last.free
  have connected :
      ((fullTableEvents.foldl MainState.handleEvent
          MainState.initialClientInfor).client.list
        ((fullTableEvents.foldl MainState.handleEvent
          MainState.initialClientInfor).login 10).client.id).state = true := by
    decide +kernel
  rw [connected] at least
  cases least

end NpServers
