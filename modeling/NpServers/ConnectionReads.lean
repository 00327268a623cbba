import NpServers.PromptLockStep

namespace NpServers.Shell

open DescriptorTable LeastFreeSlot SlotLease TransitionPath

/-!
# What the single-process server reads from a connection

`main` reads once for each descriptor that is ready, from the socket in the slot of
its client, and treats what it has read as one line.  Unless a login has overwritten
the slot of another client, the socket is the descriptor itself; then, as long as the
client of a connection is in the client list, each read from it is a line after which
a prompt is sent.
-/

namespace MainState

variable {first second main : MainState}

/-- The same sessions lease the same ids. -/
theorem SameSessions.lease_eq
    (same : SameSessions first second) :
    first.lease = second.lease := by
  have sameUsed :
      (fun i => (first.client.list i).state) =
        fun i => (second.client.list i).state :=
    funext same.state
  have sameOwner :
      (fun i => (first.client.list i).sockfd) =
        fun i => (second.client.list i).sockfd :=
    funext same.sockfd
  unfold lease
  rw [sameUsed, sameOwner, same.fdIdList, same.minId]

/-- Ids and descriptors are inverse, and no id below `min_id` is free. -/
structure KeepsIds (main : MainState) : Prop where
  inverse : Inverse clientIds main.lease
  tight : main.lease.cache.Tight clientIds

theorem KeepsIds.sameSessions
    (keepsIds : first.KeepsIds)
    (same : SameSessions second first) :
    second.KeepsIds where
  inverse := by
    rw [same.lease_eq]
    exact keepsIds.inverse
  tight := by
    rw [same.lease_eq]
    exact keepsIds.tight

theorem KeepsIds.login
    (keepsIds : main.KeepsIds)
    {ssockfd : Int}
    (unused : main.fdIdList ssockfd = -1)
    (fresh : ¬ main.lease.cache.Stale) :
    (main.login ssockfd).KeepsIds where
  inverse :=
    keepsIds.inverse.acquire (keepsIds.tight.isLeastFree fresh)
      (lease_login main unused)
  tight :=
    tight_step clientIds_increasing keepsIds.inverse keepsIds.tight
      (lease_login main unused)

theorem KeepsIds.logout
    (keepsIds : main.KeepsIds)
    {fd : Int}
    (connected : 0 ≤ main.fdIdList fd) :
    (main.logout fd).KeepsIds where
  inverse := keepsIds.inverse.release (lease_logout main connected)
  tight :=
    tight_step clientIds_increasing keepsIds.inverse keepsIds.tight
      (lease_logout main connected)

/-- The socket in the slot of a descriptor is this descriptor. -/
theorem KeepsIds.sockfd_of_connected
    (keepsIds : main.KeepsIds)
    {fd : Int}
    (connected : 0 ≤ main.fdIdList fd) :
    (main.client.list (main.fdIdList fd).toNat).sockfd = fd :=
  (((fdsInverse_iff main).mpr keepsIds.inverse).sockfdOfId connected).2.2

end MainState

namespace MainLoop

variable {loop next : MainLoop}
variable {totalFdNum : Nat}
variable {round : Round}

/-- What the calls of `read` on the socket of a connection return, in the loop over
the descriptors. -/
def readsServing
    (connection : Nat)
    (round : Round) :
    MainLoop → List Int → List (List Char)
  | _, [] => []
  | loop, fd :: rest =>
      (if (loop.enter fd).server.connectionAt (loop.enter fd).server.sockfd =
          some connection then
        [(round.received fd).getD []]
      else
        []) ++
        match loop.serve round fd with
        | some next => readsServing connection round next rest
        | none => []

/-- The same in an action of `main`. -/
def readsOf
    (connection totalFdNum : Nat)
    (loop : MainLoop) :
    MainAction → List (List Char)
  | .round round =>
      readsServing connection round (loop.accept totalFdNum round)
        (loop.ready totalFdNum round)
  | .childExits _ => []

/-- A new client gets a slot that is free. -/
def TakesFreeSlot
    (totalFdNum : Nat)
    (loop : MainLoop) :
    MainAction → Prop
  | .round round =>
      loop.takesClient totalFdNum round = true →
        ¬ loop.server.main.lease.cache.Stale
  | .childExits _ => True

instance TakesFreeSlot.decidable
    (totalFdNum : Nat)
    (loop : MainLoop) :
    (action : MainAction) → Decidable (TakesFreeSlot totalFdNum loop action)
  | .round round =>
      inferInstanceAs
        (Decidable
          (loop.takesClient totalFdNum round = true →
            ¬ loop.server.main.lease.cache.Stale))
  | .childExits _ => .isTrue trivial

theorem sameSessions_enter
    (loop : MainLoop)
    (fd : Int) :
    MainState.SameSessions (loop.enter fd).server.main loop.server.main := by
  rw [enter_server]
  exact ⟨rfl, rfl, rfl, fun _ => rfl, fun _ => rfl⟩

theorem Served.isSession
    {fd : Int}
    {event : ServerEvent}
    {envEvent : EnvEvent}
    (served : Served loop fd event envEvent next) :
    0 ≤ loop.server.main.fdIdList fd := by
  cases served with
  | line input outside envLine connected writes =>
      exact connected_isSession connected
  | leaves event left remaining connected steps session isLogout deleted writes =>
      exact connected_isSession connected

/-- Serving a client keeps the ids. -/
theorem Served.keepsIds
    {fd : Int}
    {event : ServerEvent}
    {envEvent : EnvEvent}
    (served : Served loop fd event envEvent next)
    (keepsIds : loop.server.main.KeepsIds) :
    next.server.main.KeepsIds := by
  have entered := keepsIds.sameSessions (sameSessions_enter loop fd)
  cases served with
  | line input outside envLine connected writes =>
      have sameServer :
          next.server = (loop.enter fd).server.runShell input outside := by
        rw [writes.server]
        cases envLine <;> rfl
      rw [sameServer]
      exact entered.sameSessions (Server.sameSessions_runShell input outside _).1
  | leaves event left remaining connected steps session isLogout deleted writes =>
      have isSession : 0 ≤ (loop.enter fd).server.main.fdIdList fd := by
        rw [enter_server]
        exact connected_isSession connected
      rw [writes.server]
      rcases isLogout with rfl | rfl
      · exact entered.logout isSession
      · refine MainState.KeepsIds.logout (entered.sameSessions ?_) isSession
        exact Server.sameSessions_setInfor _ _

/-- Accepting a client keeps the ids if its slot is free. -/
theorem accept_keepsIds
    (watching : loop.Watching)
    (keepsIds : loop.server.main.KeepsIds)
    (freeSlot : loop.TakesFreeSlot totalFdNum (.round round)) :
    (loop.accept totalFdNum round).server.main.KeepsIds := by
  have effect := accept_effect totalFdNum round loop
  split_ifs at effect with takes
  · rw [effect.server]
    exact keepsIds.login
      (watching.noSession (file_lowestFree loop.server.fds)) (freeSlot takes)
  · rw [effect]
    exact keepsIds

/-- A client on the connection is served a line, or leaves. -/
theorem ServedTexts.isLine
    (connection : Nat)
    {fd : Int}
    {event : ServerEvent}
    (served : ServedTexts loop fd event next)
    (keepsIds : loop.server.main.KeepsIds)
    (connected : 0 ≤ loop.server.main.fdIdList fd) :
    let isLine := event.isLineFrom connection loop.server
    let isHere := decide (loop.server.fds.file fd = some (.socket connection))
    isLine.toNat ≤ isHere.toNat ∧
      (connection ∈ next.server.audience →
        connection ∈ loop.server.audience ∧ isLine = isHere) := by
  intro isLine isHere
  cases served with
  | line input outside isOpen seating sameAudience keeps speaks =>
      refine ⟨Nat.le_refl _, ?_⟩
      intro isPresent
      rw [(onlyWrites_writeTo ..).server, speaks.server] at isPresent
      change connection ∈
        ((loop.enter fd).server.runShell input outside).audience at isPresent
      rw [enter_server, sameAudience] at isPresent
      exact ⟨isPresent, rfl⟩
  | leaves event left ends seating isLeaving sameConnection sameWritten speaks =>
      have noLine : isLine = false := by
        cases event with
        | input other input outside => exact absurd rfl (ends other input outside)
        | login | exit other | endOfFile other | childExits index => rfl
      rw [noLine]
      refine ⟨Nat.zero_le _, ?_⟩
      intro isPresent
      obtain ⟨gone, isGone, stays⟩ := isLeaving
      rw [speaks.server, stays] at isPresent
      refine ⟨isPresent.1, (decide_eq_false ?_).symm⟩
      intro isSocket
      -- the client of the connection would be the one that leaves
      have sameFd := keepsIds.sockfd_of_connected connected
      change
        loop.server.fds.file
            (loop.server.main.client.list
              (loop.server.main.fdIdList fd).toNat).sockfd =
          some (.socket gone) at isGone
      rw [sameFd, isSocket] at isGone
      cases isGone
      exact isPresent.2 rfl

/-- The socket that is read is the descriptor that is ready. -/
theorem isRead_iff
    (connection : Nat)
    {fd : Int}
    (keepsIds : loop.server.main.KeepsIds)
    (connected : 0 ≤ loop.server.main.fdIdList fd) :
    (loop.enter fd).server.connectionAt (loop.enter fd).server.sockfd =
        some connection ↔
      loop.server.fds.file fd = some (.socket connection) := by
  rw [Server.connectionAt_eq_some, enter_server]
  change
    loop.server.fds.file
        (loop.server.main.client.list
          (loop.server.main.fdIdList fd).toNat).sockfd = _ ↔ _
  rw [keepsIds.sockfd_of_connected connected]

/-! ## Only more is written -/

theorem writeTo_written_grows
    (loop : MainLoop)
    (sockfd : Int)
    (what : Written) :
    loop.written <+: (loop.writeTo sockfd what).written := by
  unfold writeTo
  split
  · exact List.prefix_append _ _
  · exact List.prefix_refl _

theorem Speaks.written_grows
    {before after : MainLoop}
    (speaks : Speaks before after) :
    before.written <+: after.written := by
  obtain ⟨entries, isWritten, _⟩ := speaks.spoken
  exact ⟨entries, isWritten.symm⟩

theorem ServedTexts.written_grows
    {fd : Int}
    {event : ServerEvent}
    (served : ServedTexts loop fd event next) :
    loop.written <+: next.written := by
  cases served with
  | line input outside isOpen seating sameAudience keeps speaks =>
      have written := speaks.written_grows
      change (loop.enter fd).written <+: _ at written
      rw [enter_written] at written
      exact written.trans (writeTo_written_grows _ _ _)
  | leaves event left ends seating isLeaving sameConnection sameWritten speaks =>
      rw [← sameWritten]
      exact speaks.written_grows

theorem accept_written_grows
    (totalFdNum : Nat)
    (round : Round)
    (seating : loop.server.login.Seating) :
    loop.written <+: (loop.accept totalFdNum round).written := by
  by_cases takes : loop.takesClient totalFdNum round = true
  · obtain ⟨welcomed, spoken, isAccepted, _, isWritten, speaks⟩ :=
      accept_texts seating takes
    rw [isAccepted]
    refine List.IsPrefix.trans ?_
      (speaks.written_grows.trans (writeTo_written_grows _ _ _))
    rw [isWritten]
    exact List.prefix_append _ _
  · have effect := accept_effect totalFdNum round loop
    rw [if_neg takes] at effect
    rw [effect]

/-! ## The actions of `main` -/

/-- From `loop` to `next` these texts are read from a connection, and so many lines
served. -/
structure Takes
    (connection : Nat)
    (loop next : MainLoop)
    (lines : Nat)
    (reads : List (List Char)) : Prop where
  keepsIds : next.server.main.KeepsIds
  written : loop.written <+: next.written
  unknown : next.server.nextConnection ≤ connection → reads = []
  atMost : lines ≤ reads.length
  allServed : connection ∈ next.server.audience → lines = reads.length

/-- Serving the clients that are ready. -/
theorem foldlM_serve_takes
    (connection : Nat)
    {fds : List Int}
    (watching : loop.Watching)
    (seating : loop.server.Seating)
    (keepsIds : loop.server.main.KeepsIds)
    (served : fds.foldlM (serve round) loop = some next)
    (notSelf :
      EveryStep NotSelfPiped loop.server (servePath round loop fds)) :
    next.server.nextConnection = loop.server.nextConnection ∧
      (connection ∈ next.server.audience →
        connection ∈ loop.server.audience) ∧
      Takes connection loop next
        (linesFrom connection loop.server (servePath round loop fds))
        (readsServing connection round loop fds) := by
  induction fds generalizing loop with
  | nil =>
      cases served
      exact
        ⟨rfl, id,
          { keepsIds := keepsIds
            written := List.prefix_refl _
            unknown := fun _ => rfl
            atMost := Nat.le_refl _
            allServed := fun _ => rfl }⟩
  | cons fd rest inductionHypothesis =>
      rw [List.foldlM_cons] at served
      obtain ⟨between, isServed, later⟩ := Option.bind_eq_some_iff.mp served
      unfold servePath at notSelf ⊢
      unfold readsServing
      rw [isServed] at notSelf ⊢
      dsimp only
      have isSession := (serve_served isServed).isSession
      have texts := serve_texts watching.settled seating notSelf.1 isServed
      obtain ⟨atMost, present⟩ := texts.isLine connection keepsIds isSession
      obtain ⟨sameNext, presentLater, takes⟩ :=
        inductionHypothesis
          (watching.serve (serve_served isServed) notSelf.1) texts.seating
          ((serve_served isServed).keepsIds keepsIds) later notSelf.2
      have isRead := isRead_iff connection keepsIds isSession
      have readCount :
          (if (loop.enter fd).server.connectionAt
                (loop.enter fd).server.sockfd = some connection then
              [(round.received fd).getD []]
            else
              []).length =
            (decide
              (loop.server.fds.file fd =
                some (.socket connection))).toNat := by
        rw [if_congr isRead rfl rfl]
        split_ifs with isSocket
        · rw [decide_eq_true isSocket]
          rfl
        · rw [decide_eq_false isSocket]
          rfl
      refine
        ⟨sameNext.trans texts.nextConnection,
          fun isPresent => (present (presentLater isPresent)).1,
          { keepsIds := takes.keepsIds
            written := texts.written_grows.trans takes.written
            unknown := ?_
            atMost := ?_
            allServed := ?_ }⟩
      · intro isNew
        have isNewHere := isNew
        rw [sameNext, texts.nextConnection] at isNewHere
        have notHere :
            loop.server.fds.file fd ≠ some (.socket connection) :=
          fun isSocket =>
            absurd (seating.known isSocket) (Nat.not_lt.mpr isNewHere)
        rw [if_neg (mt isRead.mp notHere), takes.unknown isNew]
        rfl
      · rw [List.length_append, readCount]
        exact Nat.add_le_add atMost takes.atMost
      · intro isPresent
        rw [List.length_append, readCount, ← takes.allServed isPresent,
          ← (present (presentLater isPresent)).2]
        rfl

theorem act_takes
    (connection : Nat)
    {action : MainAction}
    (watching : loop.Watching)
    (seating : loop.server.Seating)
    (keepsIds : loop.server.main.KeepsIds)
    (stepped : loop.Steps totalFdNum action next)
    (freeSlot : loop.TakesFreeSlot totalFdNum action)
    (notSelf :
      EveryStep NotSelfPiped loop.server (loop.actionPath totalFdNum action)) :
    loop.server.nextConnection ≤ next.server.nextConnection ∧
      (connection ∈ next.server.audience →
        connection = loop.server.nextConnection ∨
          connection ∈ loop.server.audience) ∧
      Takes connection loop next
        (linesFrom connection loop.server (loop.actionPath totalFdNum action))
        (readsOf connection totalFdNum loop action) := by
  cases action with
  | childExits index =>
      cases stepped
      exact
        ⟨Nat.le_refl _, .inr,
          { keepsIds := keepsIds
            written := List.prefix_refl _
            unknown := fun _ => rfl
            atMost := Nat.le_refl _
            allServed := fun _ => rfl }⟩
  | round round =>
      obtain ⟨_, loginLast, _⟩ := path_loginPath totalFdNum round loop
      have sockets := watching.settled.sockets
      have accepted :
          loop.server.nextConnection ≤
              (loop.accept totalFdNum round).server.nextConnection ∧
            (connection ∈ (loop.accept totalFdNum round).server.audience →
              connection = loop.server.nextConnection ∨
                connection ∈ loop.server.audience) := by
        have effect := accept_effect totalFdNum round loop
        split_ifs at effect with takes
        · rw [effect.server]
          refine ⟨Nat.le_succ _, ?_⟩
          intro isPresent
          rcases (seating.mem_audience_login sockets connection).mp isPresent with
            isNew | ⟨isOld, _⟩
          · exact .inl isNew
          · exact .inr isOld
        · rw [effect]
          exact ⟨Nat.le_refl _, .inr⟩
      obtain ⟨notLess, presentBefore⟩ := accepted
      obtain ⟨sameNext, present, takes⟩ :=
        foldlM_serve_takes connection (watching.accept totalFdNum round)
          (accept_reaches totalFdNum round seating sockets).1
          (accept_keepsIds watching keepsIds freeSlot) stepped
          (everyStep_servePath notSelf)
      unfold actionPath
      dsimp only
      rw [linesFrom_append, linesFrom_loginPath, loginLast, Nat.zero_add]
      exact
        ⟨sameNext ▸ notLess, fun isPresent => presentBefore (present isPresent),
          { takes with
            written :=
              (accept_written_grows totalFdNum round
                (seating.login sockets)).trans takes.written }⟩

/-- The reads from a connection so far, and the prompts that were sent for them. -/
structure Books
    (connection : Nat)
    (loop : MainLoop)
    (reads : List (List Char)) : Prop where
  watching : loop.Watching
  seating : loop.server.Seating
  keepsIds : loop.server.main.KeepsIds
  unknown : loop.server.nextConnection ≤ connection → reads = []
  counted :
    ∃ lines,
      loop.InLockStep lines ∧
        lines connection ≤ reads.length ∧
        (connection ∈ loop.server.audience → lines connection = reads.length)

theorem books_initial
    (connection : Nat)
    (environ : Environ) :
    Books connection (initial environ) [] where
  watching := watching_initial environ
  seating := Server.seating_initial
  keepsIds :=
    ⟨MainState.lease_initialClientInfor.2.1, MainState.lease_initialClientInfor.1⟩
  unknown := fun _ => rfl
  counted := ⟨fun _ => 0, inLockStep_initial environ, Nat.le_refl _, fun _ => rfl⟩

/-- An action of `main` keeps the books. -/
theorem Books.act
    {connection : Nat}
    {reads : List (List Char)}
    {action : MainAction}
    (books : Books connection loop reads)
    (stepped : loop.Steps totalFdNum action next)
    (freeSlot : loop.TakesFreeSlot totalFdNum action)
    (notSelf :
      EveryStep NotSelfPiped loop.server (loop.actionPath totalFdNum action)) :
    loop.written <+: next.written ∧
      Books connection next
        (reads ++ loop.readsOf connection totalFdNum action) := by
  obtain
    ⟨watching, seating, keepsIds, unknown, lines, lockStep, atMost, allServed⟩ :=
    books
  obtain ⟨notLess, presentBefore, takes⟩ :=
    act_takes connection watching seating keepsIds stepped freeSlot notSelf
  refine
    ⟨takes.written,
      { watching := watching.act stepped notSelf
        seating := (act_reaches watching seating stepped notSelf).1
        keepsIds := takes.keepsIds
        unknown := ?_
        counted :=
          ⟨_, lockStep.act watching seating stepped notSelf, ?_, ?_⟩ }⟩
  · intro isNew
    rw [unknown (notLess.trans isNew), takes.unknown isNew]
    rfl
  · rw [List.length_append]
    exact Nat.add_le_add atMost takes.atMost
  · intro isPresent
    rw [List.length_append, takes.allServed isPresent]
    refine congrArg (· + _) ?_
    rcases presentBefore isPresent with isNext | wasPresent
    · -- a connection that was not there has no lines and no reads
      have isNew : loop.server.nextConnection ≤ connection := isNext.ge
      have silent := (lockStep.silent connection isNew).2
      rw [unknown isNew]
      exact (Nat.add_eq_zero_iff.mp silent).2
    · exact allServed wasPresent

/-- One prompt for the login and at most one for each read; exactly one for each as
long as the client is there. -/
theorem Books.prompts
    {connection : Nat}
    {reads : List (List Char)}
    (books : Books connection loop reads) :
    let prompts := (textsTo connection loop.written).count .prompt
    prompts ≤ reads.length + 1 ∧
      (connection ∈ loop.server.audience → prompts = reads.length + 1) := by
  obtain ⟨lines, lockStep, atMost, allServed⟩ := books.counted
  rcases Nat.lt_or_ge connection loop.server.nextConnection with
    isKnown | isNew
  · obtain ⟨rest, isText, _, count⟩ := lockStep.started connection isKnown
    rw [decide_eq_true isKnown, Bool.toNat_true, Nat.add_comm] at count
    rw [isText, List.count_cons_of_ne (by decide), count]
    refine ⟨Nat.succ_le_succ atMost, ?_⟩
    intro isPresent
    rw [allServed isPresent]
  · rw [(lockStep.silent connection isNew).1]
    refine ⟨Nat.zero_le _, ?_⟩
    intro isPresent
    obtain ⟨_, _, _, isSocket⟩ := Server.mem_audience.mp isPresent
    exact absurd (books.seating.known isSocket) (Nat.not_lt.mpr isNew)

end MainLoop

end NpServers.Shell
