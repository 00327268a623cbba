import NpServers.SocksRequest
import NpServers.TransitionPath

namespace NpServers.Socks

open TransitionPath

/-!
# Sessions of the SOCKS server

A session decodes one request, asks the firewall, and then connects to the
destination or opens a port for it.  `socks_server.cpp` holds the decision and
the replies of the session, `connect_to_dest.hpp` the connection attempts and
the replies of the client object, up to the start of the relay.

Every callback of the event loop is a step.  The rule file and the answers of
the resolver are parameters.  An exception of the resolver leaves the event
loop, so the process ends.
-/

/-! ## The firewall -/

/-- The local arrays of `check_dest_ip`, which are not initialised. -/
structure RuleBuffers where
  ignore : List Char
  opType : List Char
  ip : List Char
  deriving Repr, DecidableEq

/-- The loop that compares an address with a pattern, and the test behind it. -/
def matchIp : List Char → List Char → Bool
  | [], [] => true
  | digit :: rest, symbol :: symbols =>
      if digit ≠ symbol then
        if symbol = '*' then
          matchIp ((digit :: rest).dropWhile fun next => decide (next ≠ '.'))
            symbols
        else
          false
      else
        matchIp rest symbols
  | _, _ => false

/-- The first letter of the rule selects the command. -/
def sameType
    (operation : Nat)
    (opType : List Char) : Bool :=
  (decide (operation = 1) && decide (opType.head? = some 'c')) ||
    (decide (operation = 2) && decide (opType.head? = some 'b'))

/-- The body of the loop over the rules. -/
def matchRule
    (operation : Nat)
    (destIp : List Char)
    (rule : RuleBuffers) : Bool :=
  sameType operation rule.opType && matchIp destIp rule.ip

/--
`check_dest_ip` on the words of the rule file.  `fscanf` fills as many arrays as
there are words left; the others keep their content.
-/
def checkDestIp
    (operation : Nat)
    (destIp : List Char) :
    RuleBuffers → List (List Char) → Bool
  | _, [] => false
  | buffers, [ignore] =>
      matchRule operation destIp { buffers with ignore := ignore }
  | buffers, [ignore, opType] =>
      matchRule operation destIp
        { buffers with ignore := ignore, opType := opType }
  | _, ignore :: opType :: ip :: rest =>
      matchRule operation destIp
          { ignore := ignore, opType := opType, ip := ip } ||
        checkDestIp operation destIp
          { ignore := ignore, opType := opType, ip := ip } rest

/-! ## Addresses and the resolver -/

/-- The address of a host. -/
inductive Address where
  | v4 (first second third fourth : UInt8)
  | v6 (text : List Char)
  deriving Repr, DecidableEq

/-- `to_string` of an address. -/
def Address.text : Address → List Char
  | .v4 first second third fourth =>
      (toString first.toNat ++ "." ++ toString second.toNat ++ "." ++
        toString third.toNat ++ "." ++ toString fourth.toNat).toList
  | .v6 text => text

/-- `is_v4`. -/
def Address.isV4 : Address → Bool
  | .v4 .. => true
  | .v6 _ => false

/-- The rule file, the uninitialised arrays of `check_dest_ip` and the resolver. -/
structure Network where
  rules : List (List Char)
  buffers : RuleBuffers
  lookup : List UInt8 → Option (List Address)
  resolve : List Char → String → Option (List Address)

namespace Network

/-- `check_dest_ip` for a command and the text of an address. -/
def check
    (network : Network)
    (operation : Nat)
    (destIp : List Char) : Bool :=
  checkDestIp operation destIp network.buffers network.rules

/-- The rules permit the address for the command. -/
def Permits
    (network : Network)
    (operation : Nat)
    (address : Address) : Prop :=
  network.check operation address.text = true

/-- The resolver answers a numeric address with that address only. -/
def ResolvesNumeric (network : Network) : Prop :=
  ∀ (address : Address) (port : String) (addresses : List Address),
    address.isV4 = true →
    network.resolve address.text port = some addresses →
    ∀ found ∈ addresses, found.text = address.text

end Network

/-- What `get_dest_ip` leaves in `dest_ip`, if it does not throw. -/
inductive Decoded where
  | outside
  | thrown
  | ip (destIp : List Char)
  deriving Repr, DecidableEq

/-- The loop of `get_domain_name` over the resolved endpoints. -/
def firstV4 (addresses : List Address) : List Char :=
  match addresses.find? Address.isV4 with
  | some address => address.text
  | none => []

/-- `get_dest_ip`. -/
def getDestIp
    (network : Network)
    (socks4Request : Nat → UInt8) : Decoded :=
  if socks4Request 4 = 0 ∧ socks4Request 5 = 0 ∧ socks4Request 6 = 0 then
    match Session.getDomainName socks4Request with
    | none => .outside
    | some domainName =>
        match network.lookup domainName with
        | none => .thrown
        | some addresses => .ip (firstV4 addresses)
  else
    .ip (Address.v4 (socks4Request 4) (socks4Request 5) (socks4Request 6)
      (socks4Request 7)).text

/-! ## The session and its client object -/

/-- An eight-byte reply with its code and port. -/
def socks4Reply
    (code : UInt8)
    (port : Nat) : List UInt8 :=
  [0, code, UInt8.ofNat (port / 256), UInt8.ofNat (port % 256), 0, 0, 0, 0]

/-- What the session or its client object is waiting for. -/
inductive Phase where
  | reading
  | connecting (address : Address) (later : List Address)
  | replying (peer : Address)
  | relaying (peer : Address)
  | rejecting
  | binding
  | closed
  | terminated
  deriving Repr, DecidableEq

/--
A session with its client object.  `command` and `permitted` keep the request
and the decision, `established` that a connection to the destination exists, and
`replies` what was written to the requester; `pending` is a reply of the session
that is being written.
-/
structure Session where
  phase : Phase
  command : Option Nat
  destIp : List Char
  permitted : Bool
  established : Bool
  pending : Option (List UInt8)
  replies : List (List UInt8)
  deriving Repr, DecidableEq

namespace Session

/-- The session when it starts to read. -/
def start : Session where
  phase := .reading
  command := none
  destIp := []
  permitted := false
  established := false
  pending := none
  replies := []

/-- `start_connect`; without an endpoint left, `stop` closes both sockets. -/
def startConnect
    (session : Session) :
    List Address → Session
  | [] => { session with phase := .closed }
  | address :: later => { session with phase := .connecting address later }

/-- `connect_operation`. -/
def connectOperation
    (network : Network)
    (destPort : String)
    (session : Session) : Session :=
  match network.resolve session.destIp destPort with
  | none => { session with phase := .terminated }
  | some addresses => session.startConnect addresses

/-- The handler in `do_read`, for a request in the buffer. -/
def doRead
    (network : Network)
    (socks4Request : Nat → UInt8)
    (localPort : Nat)
    (session : Session) : Option Session :=
  let command := (socks4Request 1).toNat
  match getDestIp network socks4Request with
  | .outside => none
  | .thrown =>
      some { session with command := some command, phase := .terminated }
  | .ip destIp =>
      let decided :=
        { session with
          command := some command
          destIp := destIp
          permitted := network.check command destIp }
      some
        (if decided.permitted then
          if command = 1 then
            decided.connectOperation network (getDestPort socks4Request)
          else
            { decided with
              phase := .binding
              pending := some (socks4Reply 90 localPort) }
        else
          { decided with
            phase := .rejecting
            pending := some (socks4Reply 91 0) })

/-- `handle_connect`. -/
def handleConnect
    (succeeds : Bool)
    (address : Address)
    (later : List Address)
    (session : Session) : Session :=
  if succeeds then
    { session with phase := .replying address, established := true }
  else
    session.startConnect later

/-- `handle_reply_to_source`: the relay starts, or `stop` closes the sockets. -/
def handleReplyToSource
    (succeeds : Bool)
    (peer : Address)
    (session : Session) : Session :=
  if succeeds then
    { session with
      phase := .relaying peer
      replies := session.replies ++ [socks4Reply 90 0] }
  else
    { session with phase := .closed }

/--
The handler of `reply_to_client`.  It does nothing, but behind a rejection it
was the last to keep the session, whose socket is then closed.
-/
def handleReplyToClient
    (succeeds : Bool)
    (reply : List UInt8)
    (session : Session) : Session :=
  { session with
    phase := if session.phase = .rejecting then .closed else session.phase
    pending := none
    replies := if succeeds then session.replies ++ [reply] else session.replies }

end Session

/-- The callbacks, with the outcome of the operation that ended. -/
inductive SessionEvent where
  | receive (socks4Request : Nat → UInt8) (localPort : Nat)
  | receiveFails
  | connectEnds (succeeds : Bool)
  | accepts (peer : Address)
  | acceptFails
  | clientReplyEnds (succeeds : Bool)
  | sessionReplyEnds (succeeds : Bool)

/-- Writes to the requester succeed. -/
def SessionEvent.WritesSucceed : SessionEvent → Prop
  | .clientReplyEnds succeeds | .sessionReplyEnds succeeds => succeeds = true
  | _ => True

instance : DecidablePred SessionEvent.WritesSucceed
  | .clientReplyEnds succeeds | .sessionReplyEnds succeeds =>
      inferInstanceAs (Decidable (succeeds = true))
  | .receive .. | .receiveFails | .connectEnds _ | .accepts _ | .acceptFails =>
      .isTrue trivial

namespace Session

/-- The session after a callback, when that callback can be called. -/
def step
    (network : Network)
    (session : Session) :
    SessionEvent → Option Session
  | .receive socks4Request localPort =>
      if session.phase = .reading then
        session.doRead network socks4Request localPort
      else
        none
  | .receiveFails =>
      if session.phase = .reading then
        some { session with phase := .closed }
      else
        none
  | .connectEnds succeeds =>
      match session.phase with
      | .connecting address later =>
          some (session.handleConnect succeeds address later)
      | _ => none
  | .accepts peer =>
      if session.phase = .binding then
        some { session with phase := .replying peer, established := true }
      else
        none
  | .acceptFails =>
      if session.phase = .binding then
        some { session with phase := .closed }
      else
        none
  | .clientReplyEnds succeeds =>
      match session.phase with
      | .replying peer => some (session.handleReplyToSource succeeds peer)
      | _ => none
  | .sessionReplyEnds succeeds =>
      session.pending.map fun reply => session.handleReplyToClient succeeds reply

/-- One callback. -/
def Steps
    (network : Network)
    (session : Session)
    (event : SessionEvent)
    (next : Session) : Prop :=
  session.step network event = some next

/-! ## The firewall and the peers of relays -/

/-- The relay is with an address that the rules permit for the command. -/
def PeerPermitted
    (network : Network)
    (session : Session) : Prop :=
  ∀ peer command,
    session.phase = .relaying peer →
    session.command = some command →
    network.Permits command peer

/--
The condition on a callback: a name without an IPv4 address is not permitted, and
a host that connects to the opened port is.
-/
def AdmitsPermitted
    (network : Network)
    (session : Session) :
    SessionEvent → Prop
  | .receive socks4Request _ =>
      getDestIp network socks4Request = .ip [] →
        network.check (socks4Request 1).toNat [] = false
  | .accepts peer =>
      ∀ command, session.command = some command → network.Permits command peer
  | _ => True

/-- The addresses that a session may still relay with. -/
def candidates (session : Session) : List Address :=
  match session.phase with
  | .connecting address later => address :: later
  | .replying peer => [peer]
  | .relaying peer => [peer]
  | _ => []

/-- All these addresses are permitted. -/
def Guarded
    (network : Network)
    (session : Session) : Prop :=
  ∀ command,
    session.command = some command →
    ∀ address ∈ session.candidates, network.Permits command address

/-- A decoded address is the text of an IPv4 address, or empty. -/
theorem getDestIp_cases
    {network : Network}
    {socks4Request : Nat → UInt8}
    {destIp : List Char}
    (decoded : getDestIp network socks4Request = .ip destIp) :
    destIp = [] ∨
      ∃ address : Address, address.isV4 = true ∧ destIp = address.text := by
  unfold getDestIp at decoded
  split_ifs at decoded with isName
  · split at decoded
    · cases decoded
    · split at decoded
      · cases decoded
      · rename_i addresses _
        obtain rfl := Decoded.ip.inj decoded
        unfold firstV4
        cases search : addresses.find? Address.isV4 with
        | none => exact Or.inl rfl
        | some address => exact Or.inr ⟨address, List.find?_some search, rfl⟩
  · exact Or.inr ⟨_, rfl, (Decoded.ip.inj decoded).symm⟩

variable {network : Network}
variable {session next : Session}

theorem guarded_startConnect
    {addresses : List Address}
    (permitted :
      ∀ command,
        session.command = some command →
        ∀ address ∈ addresses, network.Permits command address) :
    (session.startConnect addresses).Guarded network := by
  cases addresses with
  | nil =>
      intro command _ address member
      cases member
  | cons address later => exact permitted

/-- What the client object is given to connect to was permitted. -/
theorem guarded_connectOperation
    (numeric : network.ResolvesNumeric)
    {command : Nat}
    (isCommand : session.command = some command)
    (permitted : network.check command session.destIp = true)
    (isV4 :
      ∃ address : Address,
        address.isV4 = true ∧ session.destIp = address.text)
    (destPort : String) :
    (session.connectOperation network destPort).Guarded network := by
  unfold connectOperation
  split
  · intro command _ address member
    cases member
  · rename_i addresses resolved
    apply guarded_startConnect
    intro other isOther address member
    obtain rfl : command = other := by simpa [isCommand] using isOther
    obtain ⟨original, isNumeric, isText⟩ := isV4
    rw [isText] at resolved permitted
    unfold Network.Permits
    rw [numeric original _ addresses isNumeric resolved address member]
    exact permitted

/-- A request that meets the condition leads to permitted addresses only. -/
theorem guarded_doRead
    (numeric : network.ResolvesNumeric)
    {socks4Request : Nat → UInt8}
    {localPort : Nat}
    (admits :
      getDestIp network socks4Request = .ip [] →
        network.check (socks4Request 1).toNat [] = false)
    (ran : session.doRead network socks4Request localPort = some next) :
    next.Guarded network := by
  have none {phase : Phase} {after : Session}
      (isPhase : after.phase = phase)
      (noCandidates : phase = .terminated ∨ phase = .binding ∨
        phase = .rejecting) :
      after.Guarded network := by
    intro command _ address member
    unfold candidates at member
    rw [isPhase] at member
    rcases noCandidates with rfl | rfl | rfl <;> cases member
  unfold doRead at ran
  dsimp only at ran
  split at ran
  · cases ran
  · cases ran
    exact none rfl (Or.inl rfl)
  · rename_i destIp decoded
    cases ran
    split_ifs with permitted isConnect
    · refine guarded_connectOperation numeric rfl permitted ?_ _
      rcases getDestIp_cases decoded with rfl | isV4
      · rw [admits decoded] at permitted
        cases permitted
      · exact isV4
    · exact none rfl (Or.inr (Or.inl rfl))
    · exact none rfl (Or.inr (Or.inr rfl))

/-- Every callback that meets the condition keeps the candidates permitted. -/
theorem Guarded.step
    (numeric : network.ResolvesNumeric)
    {event : SessionEvent}
    (guarded : session.Guarded network)
    (admits : session.AdmitsPermitted network event)
    (stepped : session.Steps network event next) :
    next.Guarded network := by
  unfold Steps Session.step at stepped
  cases event with
  | receive socks4Request localPort =>
      rw [Option.ite_none_right_eq_some] at stepped
      exact guarded_doRead numeric admits stepped.2
  | receiveFails =>
      rw [Option.ite_none_right_eq_some] at stepped
      cases stepped.2
      intro command _ address member
      cases member
  | connectEnds succeeds =>
      dsimp only at stepped
      split at stepped
      · rename_i address later isPhase
        have candidatesPermitted (command : Nat)
            (isCommand : session.command = some command) :
            ∀ found ∈ address :: later, network.Permits command found := by
          have permitted := guarded command isCommand
          unfold candidates at permitted
          rwa [isPhase] at permitted
        cases stepped
        unfold handleConnect
        split_ifs
        · intro command isCommand found member
          have isPeer : found ∈ [address] := member
          rw [List.mem_singleton.mp isPeer]
          exact candidatesPermitted command isCommand _ List.mem_cons_self
        · apply guarded_startConnect
          intro command isCommand found member
          exact candidatesPermitted command isCommand found
            (List.mem_cons_of_mem _ member)
      · cases stepped
  | accepts peer =>
      rw [Option.ite_none_right_eq_some] at stepped
      cases stepped.2
      intro command isCommand found member
      have isPeer : found ∈ [peer] := member
      rw [List.mem_singleton.mp isPeer]
      exact admits command isCommand
  | acceptFails =>
      rw [Option.ite_none_right_eq_some] at stepped
      cases stepped.2
      intro command _ address member
      cases member
  | clientReplyEnds succeeds =>
      dsimp only at stepped
      split at stepped
      · rename_i peer isPhase
        cases stepped
        unfold handleReplyToSource
        split_ifs
        · intro command isCommand found member
          have permitted := guarded command isCommand
          unfold candidates at permitted
          rw [isPhase] at permitted
          exact permitted found member
        · intro command _ address member
          cases member
      · cases stepped
  | sessionReplyEnds succeeds =>
      rw [Option.map_eq_some_iff] at stepped
      obtain ⟨reply, _, rfl⟩ := stepped
      intro command isCommand address member
      refine guarded command isCommand address ?_
      unfold candidates handleReplyToClient at member
      dsimp only at member
      split_ifs at member
      · cases member
      · exact member

theorem guarded_start : start.Guarded network := by
  intro command isCommand
  cases isCommand

theorem Guarded.peerPermitted
    (guarded : session.Guarded network) :
    session.PeerPermitted network := by
  intro peer command isRelaying isCommand
  apply guarded command isCommand
  unfold candidates
  rw [isRelaying]
  exact List.mem_singleton_self peer

/--
In every run whose callbacks all meet the condition, a relay is only with an
address that the rules permit for the command of the request.
-/
theorem relays_permitted
    (numeric : network.ResolvesNumeric)
    {path : List (SessionEvent × Session)}
    (isPath : Path (Steps network) start path)
    (admitted : EveryStep (AdmitsPermitted network) start path) :
    EveryState (PeerPermitted network) start path := by
  have guarded : EveryState (Guarded network) start path := by
    refine Path.everyState_of_everyStep ?_ guarded_start isPath admitted
    intro session event next guarded admits stepped
    exact guarded.step numeric admits stepped
  exact guarded.mono fun session guarded => guarded.peerPermitted

/-- The host 140.113.1.1. -/
def campusHost : Address :=
  .v4 140 113 1 1

/-- Rules for 140.113.*.*, and a resolver that knows one address. -/
def campusNetwork : Network where
  rules :=
    ["permit".toList, "c".toList, "140.113.*.*".toList,
      "permit".toList, "b".toList, "140.113.*.*".toList]
  buffers := { ignore := [], opType := [], ip := [] }
  lookup := fun _ => none
  resolve := fun destIp _ =>
    if destIp = campusHost.text then some [campusHost] else none

theorem resolvesNumeric_campusNetwork : campusNetwork.ResolvesNumeric := by
  intro address port addresses _ resolved found member
  simp only [campusNetwork, Option.ite_none_right_eq_some,
    Option.some.injEq] at resolved
  obtain ⟨isText, rfl⟩ := resolved
  rw [isText, List.mem_singleton.mp member]

/-- A request for 140.113.1.1 and port 80. -/
def campusRequest
    (command : UInt8)
    (i : Nat) : UInt8 :=
  ([4, command, 0, 80, 140, 113, 1, 1, 0][i]?).getD 0

/-- The run of some callbacks. -/
def sessionPath (events : List SessionEvent) : List (SessionEvent × Session) :=
  (trace (step campusNetwork) start events).getD []

/-- A CONNECT request that succeeds. -/
def connectEvents : List SessionEvent :=
  [.receive (campusRequest 1) 0, .connectEnds true, .clientReplyEnds true]

/-- A relay for a permitted CONNECT request is with the permitted host. -/
theorem relays_permitted_connect :
    (lastState start (sessionPath connectEvents)).phase =
        .relaying campusHost ∧
      campusNetwork.Permits 1 campusHost := by
  have isPath : Path (Steps campusNetwork) start (sessionPath connectEvents) :=
    path_trace (by decide +kernel)
  have isRelaying :
      (lastState start (sessionPath connectEvents)).phase =
        .relaying campusHost := by
    decide +kernel
  have admitted :
      EveryStep (AdmitsPermitted campusNetwork) start
        (sessionPath connectEvents) := by
    refine ⟨fun decoded => ?_, trivial, trivial, trivial⟩
    revert decoded
    decide +kernel
  have permitted :=
    (relays_permitted resolvesNumeric_campusNetwork isPath admitted).last
  exact ⟨isRelaying, permitted campusHost 1 isRelaying (by decide +kernel)⟩

/-- A BIND request, and a host that the rules do not name connects. -/
def bindEvents : List SessionEvent :=
  [.receive (campusRequest 2) 5000, .sessionReplyEnds true,
    .accepts (.v4 8 8 8 8), .clientReplyEnds true]

/-- The relay for a BIND request is with a host that the rules do not permit. -/
theorem relay_not_permitted :
    Path (Steps campusNetwork) start (sessionPath bindEvents) ∧
      (lastState start (sessionPath bindEvents)).phase =
        .relaying (.v4 8 8 8 8) ∧
      (lastState start (sessionPath bindEvents)).command = some 2 ∧
      ¬ campusNetwork.Permits 2 (.v4 8 8 8 8) := by
  refine ⟨path_trace (by decide +kernel), by decide +kernel,
    by decide +kernel, ?_⟩
  unfold Network.Permits
  decide +kernel

/-! ## Replies to CONNECT requests -/

/-- The session has closed the requester's socket, or relays. -/
def Settled (session : Session) : Prop :=
  session.phase = .closed ∨ session.phase = .terminated ∨
    ∃ peer, session.phase = .relaying peer

/--
A CONNECT request gets at most one reply.  Once the session is settled it has
got exactly one, with code 90 if the request was permitted and a connection
established, and with code 91 otherwise.
-/
def Answered (session : Session) : Prop :=
  session.command = some 1 →
    session.replies.length ≤ 1 ∧
      (session.Settled →
        ∃ code,
          session.replies = [socks4Reply code 0] ∧
            (code = 90 ↔
              session.permitted = true ∧ session.established = true) ∧
            (code = 90 ∨ code = 91))

/--
The condition on a callback for a CONNECT request: the name is resolved, a
permitted address gives an endpoint, and the last endpoint does not fail.
-/
def Proceeds
    (network : Network)
    (session : Session) :
    SessionEvent → Prop
  | .receive socks4Request _ =>
      (socks4Request 1).toNat = 1 →
        getDestIp network socks4Request ≠ .thrown ∧
          ∀ destIp,
            getDestIp network socks4Request = .ip destIp →
            network.check 1 destIp = true →
            ∃ address later,
              network.resolve destIp (getDestPort socks4Request) =
                some (address :: later)
  | .connectEnds succeeds =>
      succeeds = true ∨
        ∃ address following later,
          session.phase = .connecting address (following :: later)
  | _ => True

/-- Callbacks of a session whose writes to the requester succeed. -/
def AnswerSteps
    (network : Network)
    (session : Session)
    (event : SessionEvent)
    (next : Session) : Prop :=
  session.Steps network event next ∧ event.WritesSucceed

/-- What is known about the replies to a CONNECT request in each phase. -/
def Tracked (session : Session) : Prop :=
  match session.phase with
  | .reading =>
      session.command = none ∧ session.established = false ∧
        session.pending = none ∧ session.replies = []
  | .connecting _ _ =>
      session.command = some 1 ∧ session.permitted = true ∧
        session.established = false ∧ session.pending = none ∧
        session.replies = []
  | .replying _ =>
      session.command = some 1 →
        session.permitted = true ∧ session.established = true ∧
          session.pending = none ∧ session.replies = []
  | .relaying _ =>
      session.command = some 1 →
        session.permitted = true ∧ session.established = true ∧
          session.pending = none ∧ session.replies = [socks4Reply 90 0]
  | .rejecting =>
      session.permitted = false ∧ session.established = false ∧
        session.pending = some (socks4Reply 91 0) ∧ session.replies = []
  | .binding => session.command ≠ some 1
  | .closed | .terminated => session.command = some 1 → session.pending = none

theorem answered_of_not_connect
    (notConnect : session.command ≠ some 1) :
    session.Answered :=
  fun isConnect => absurd isConnect notConnect

/-- Before it is settled, a session without replies is in order. -/
theorem answered_of_not_settled
    (notSettled : ¬ session.Settled)
    (noReply : session.replies = []) :
    session.Answered := by
  intro _
  refine ⟨by simp [noReply], ?_⟩
  exact fun settled => absurd settled notSettled

/-- A CONNECT request without a reply is not answered once it is settled. -/
theorem not_answered_of_settled
    (isConnect : session.command = some 1)
    (settled : session.Settled)
    (noReply : session.replies = []) :
    ¬ session.Answered := by
  intro answered
  obtain ⟨code, isReply, _⟩ := (answered isConnect).2 settled
  rw [noReply] at isReply
  cases isReply

theorem not_settled_connecting
    {address : Address}
    {later : List Address}
    (isPhase : session.phase = .connecting address later) :
    ¬ session.Settled := by
  unfold Settled
  rw [isPhase]
  simp

/-- The attempts of the client object, from a list of endpoints. -/
theorem startConnect_answered_iff
    {addresses : List Address}
    (isConnect : session.command = some 1)
    (permitted : session.permitted = true)
    (notEstablished : session.established = false)
    (noPending : session.pending = none)
    (noReply : session.replies = []) :
    (session.startConnect addresses).Tracked ∧
      ((session.startConnect addresses).Answered ↔
        ∃ address later, addresses = address :: later) := by
  cases addresses with
  | nil =>
      refine ⟨fun _ => noPending, ?_⟩
      refine iff_of_false ?_ (by simp)
      exact not_answered_of_settled isConnect (Or.inl rfl) noReply
  | cons address later =>
      refine ⟨⟨isConnect, permitted, notEstablished, noPending, noReply⟩, ?_⟩
      refine iff_of_true ?_ ⟨address, later, rfl⟩
      exact answered_of_not_settled (not_settled_connecting rfl) noReply

/-- A request is answered so far exactly if its callback meets the condition. -/
theorem Tracked.doRead
    (tracked : session.Tracked)
    (isReading : session.phase = .reading)
    {socks4Request : Nat → UInt8}
    {localPort : Nat}
    (ran : session.doRead network socks4Request localPort = some next) :
    next.Tracked ∧
      (next.Answered ↔
        session.Proceeds network (.receive socks4Request localPort)) := by
  unfold Tracked at tracked
  rw [isReading] at tracked
  obtain ⟨_, notEstablished, noPending, noReply⟩ := tracked
  unfold Session.doRead at ran
  dsimp only at ran
  split at ran
  · cases ran
  · rename_i thrown
    cases ran
    refine ⟨fun _ => noPending, ?_⟩
    by_cases isConnect : (socks4Request 1).toNat = 1
    · refine iff_of_false ?_ ?_
      · exact not_answered_of_settled (congrArg some isConnect)
          (Or.inr (Or.inl rfl)) noReply
      · exact fun proceeds => (proceeds isConnect).1 thrown
    · refine iff_of_true (answered_of_not_connect ?_) ?_
      · simpa using isConnect
      · exact fun isOne => absurd isOne isConnect
  · rename_i destIp decoded
    cases ran
    have condition :
        session.Proceeds network (.receive socks4Request localPort) ↔
          ((socks4Request 1).toNat = 1 →
            network.check 1 destIp = true →
            ∃ address later,
              network.resolve destIp (getDestPort socks4Request) =
                some (address :: later)) := by
      simp [Proceeds, decoded]
    rw [condition]
    split_ifs with permitted isConnect
    · have check : network.check 1 destIp = true := by
        rw [← isConnect]
        exact permitted
      unfold connectOperation
      dsimp only
      cases resolved :
          network.resolve destIp (getDestPort socks4Request) with
      | none =>
          refine ⟨fun _ => noPending, iff_of_false ?_ ?_⟩
          · exact not_answered_of_settled (congrArg some isConnect)
              (Or.inr (Or.inl rfl)) noReply
          · simp [isConnect, check]
      | some addresses =>
          let decided : Session :=
            { session with
              command := some (socks4Request 1).toNat
              destIp := destIp
              permitted := network.check (socks4Request 1).toNat destIp }
          have attempts :
              (decided.startConnect addresses).Tracked ∧
                ((decided.startConnect addresses).Answered ↔
                  ∃ address later, addresses = address :: later) :=
            startConnect_answered_iff (congrArg some isConnect) permitted
              notEstablished noPending noReply
          refine ⟨attempts.1, attempts.2.trans ?_⟩
          simp [isConnect, check]
    · refine ⟨?_, iff_of_true (answered_of_not_connect ?_) ?_⟩
      · simpa [Tracked] using isConnect
      · simpa using isConnect
      · exact fun isOne => absurd isOne isConnect
    · refine ⟨⟨?_, notEstablished, rfl, noReply⟩, iff_of_true ?_ ?_⟩
      · simpa using permitted
      · refine answered_of_not_settled ?_ ?_
        · simp [Settled]
        · exact noReply
      · intro isConnect check
        rw [← isConnect] at check
        exact absurd check permitted

/-- Outside its rejection, only another request than CONNECT has a reply pending. -/
theorem Tracked.not_connect_of_pending
    (tracked : session.Tracked)
    {reply : List UInt8}
    (isPending : session.pending = some reply)
    (notRejecting : session.phase ≠ .rejecting) :
    session.command ≠ some 1 ∧
      session.phase ≠ .reading ∧
      ∀ address later, session.phase ≠ .connecting address later := by
  unfold Tracked at tracked
  cases isPhase : session.phase with
  | reading => simp [isPhase, isPending] at tracked
  | connecting address later => simp [isPhase, isPending] at tracked
  | rejecting => exact absurd isPhase notRejecting
  | binding => simpa [isPhase] using tracked
  | replying | relaying | closed | terminated =>
      simpa [isPhase, isPending] using tracked

/-- Nothing is known about other requests than CONNECT in the later phases. -/
theorem tracked_of_not_connect
    (notConnect : session.command ≠ some 1)
    (notReading : session.phase ≠ .reading)
    (notConnecting :
      ∀ address later, session.phase ≠ .connecting address later)
    (notRejecting : session.phase ≠ .rejecting) :
    session.Tracked := by
  unfold Tracked
  cases isPhase : session.phase with
  | reading => exact absurd isPhase notReading
  | connecting address later => exact absurd isPhase (notConnecting _ _)
  | rejecting => exact absurd isPhase notRejecting
  | binding => exact notConnect
  | replying | relaying | closed | terminated =>
      exact fun isConnect => absurd isConnect notConnect

/-- A reply of the session to a CONNECT request is its rejection. -/
theorem Tracked.sessionReply
    (tracked : session.Tracked)
    {reply : List UInt8}
    (isPending : session.pending = some reply) :
    (session.handleReplyToClient true reply).Tracked ∧
      (session.handleReplyToClient true reply).Answered := by
  by_cases isRejecting : session.phase = .rejecting
  · unfold Tracked at tracked
    rw [isRejecting] at tracked
    obtain ⟨refused, _, isReply, noReply⟩ := tracked
    obtain rfl : reply = socks4Reply 91 0 := by
      simpa [isPending] using isReply
    unfold handleReplyToClient
    rw [if_pos isRejecting, if_pos rfl, noReply]
    refine ⟨fun _ => rfl, fun _ => ⟨by simp, fun _ => ⟨91, rfl, ?_, Or.inr rfl⟩⟩⟩
    simp [refused]
  · obtain ⟨notConnect, notReading, notConnecting⟩ :=
      tracked.not_connect_of_pending isPending isRejecting
    refine ⟨?_, answered_of_not_connect notConnect⟩
    unfold handleReplyToClient
    rw [if_neg isRejecting]
    exact tracked_of_not_connect notConnect notReading notConnecting isRejecting

/-- Every callback keeps what is known, and decides whether the request is answered. -/
theorem Tracked.step
    {event : SessionEvent}
    (tracked : session.Tracked)
    (stepped : session.AnswerSteps network event next) :
    next.Tracked ∧ (next.Answered ↔ session.Proceeds network event) := by
  obtain ⟨stepped, succeed⟩ := stepped
  unfold Steps Session.step at stepped
  cases event with
  | receive socks4Request localPort =>
      rw [Option.ite_none_right_eq_some] at stepped
      exact tracked.doRead stepped.1 stepped.2
  | receiveFails =>
      rw [Option.ite_none_right_eq_some] at stepped
      obtain ⟨isReading, isNext⟩ := stepped
      cases isNext
      unfold Tracked at tracked
      rw [isReading] at tracked
      refine ⟨fun _ => tracked.2.2.1, iff_of_true ?_ trivial⟩
      apply answered_of_not_connect
      simp [tracked.1]
  | connectEnds succeeds =>
      dsimp only at stepped
      split at stepped
      · rename_i address later isPhase
        cases stepped
        unfold Tracked at tracked
        rw [isPhase] at tracked
        obtain ⟨isConnect, permitted, notEstablished, noPending, noReply⟩ :=
          tracked
        unfold handleConnect Proceeds
        cases succeeds with
        | true =>
            refine ⟨fun _ => ⟨permitted, rfl, noPending, noReply⟩, ?_⟩
            refine iff_of_true (answered_of_not_settled ?_ ?_) (Or.inl rfl)
            · simp [Settled]
            · exact noReply
        | false =>
            obtain ⟨trackedNext, answered⟩ :=
              startConnect_answered_iff isConnect permitted notEstablished
                noPending noReply
            refine ⟨trackedNext, answered.trans ?_⟩
            simp [isPhase]
      · cases stepped
  | accepts peer =>
      rw [Option.ite_none_right_eq_some] at stepped
      obtain ⟨isBinding, isNext⟩ := stepped
      cases isNext
      unfold Tracked at tracked
      rw [isBinding] at tracked
      refine ⟨fun isConnect => absurd isConnect tracked, ?_⟩
      exact iff_of_true (answered_of_not_connect tracked) trivial
  | acceptFails =>
      rw [Option.ite_none_right_eq_some] at stepped
      obtain ⟨isBinding, isNext⟩ := stepped
      cases isNext
      unfold Tracked at tracked
      rw [isBinding] at tracked
      refine ⟨fun isConnect => absurd isConnect tracked, ?_⟩
      exact iff_of_true (answered_of_not_connect tracked) trivial
  | clientReplyEnds succeeds =>
      obtain rfl : succeeds = true := succeed
      dsimp only at stepped
      split at stepped
      · rename_i peer isPhase
        cases stepped
        unfold Tracked at tracked
        rw [isPhase] at tracked
        unfold handleReplyToSource
        constructor
        · intro isConnect
          obtain ⟨permitted, isEstablished, noPending, noReply⟩ :=
            tracked isConnect
          exact ⟨permitted, isEstablished, noPending, by simp [noReply]⟩
        · refine iff_of_true ?_ trivial
          intro isConnect
          obtain ⟨permitted, isEstablished, _, noReply⟩ := tracked isConnect
          refine ⟨by simp [noReply], fun _ => ⟨90, by simp [noReply], ?_⟩⟩
          exact ⟨iff_of_true rfl ⟨permitted, isEstablished⟩, Or.inl rfl⟩
      · cases stepped
  | sessionReplyEnds succeeds =>
      obtain rfl : succeeds = true := succeed
      rw [Option.map_eq_some_iff] at stepped
      obtain ⟨reply, isPending, rfl⟩ := stepped
      obtain ⟨trackedNext, answered⟩ := tracked.sessionReply isPending
      exact ⟨trackedNext, iff_of_true answered trivial⟩

theorem tracked_start : start.Tracked :=
  ⟨rfl, rfl, rfl, rfl⟩

/--
For a session whose writes to the requester succeed, every CONNECT request is
answered in every state of a run exactly if every callback meets the condition.
-/
theorem connect_answered_iff
    {path : List (SessionEvent × Session)}
    (isPath : Path (AnswerSteps network) start path) :
    EveryState Answered start path ↔
      EveryStep (Proceeds network) start path := by
  refine Path.everyState_iff_everyStep ?_ ?_ tracked_start ?_ isPath
  · intro session event next tracked stepped
    exact (tracked.step stepped).1
  · intro session event next tracked _ stepped
    exact (tracked.step stepped).2
  · intro isConnect
    cases isConnect

/-- A run of callbacks whose writes succeed. -/
theorem answerPath
    {path : List (SessionEvent × Session)}
    (isPath : Path (Steps network) session path)
    (succeed : ∀ entry ∈ path, entry.1.WritesSucceed) :
    Path (AnswerSteps network) session path := by
  induction path generalizing session with
  | nil => trivial
  | cons entry rest inductionHypothesis =>
      refine ⟨⟨isPath.1, succeed entry List.mem_cons_self⟩, ?_⟩
      apply inductionHypothesis isPath.2
      intro other member
      exact succeed other (List.mem_cons_of_mem _ member)

/-- A request that is connected gets one reply with code 90. -/
theorem connect_answered_campus :
    (lastState start (sessionPath connectEvents)).Answered ∧
      (lastState start (sessionPath connectEvents)).replies =
        [socks4Reply 90 0] := by
  have isPath :
      Path (AnswerSteps campusNetwork) start (sessionPath connectEvents) := by
    apply answerPath (path_trace (by decide +kernel))
    decide +kernel
  have proceeds :
      EveryStep (Proceeds campusNetwork) start (sessionPath connectEvents) := by
    refine ⟨fun _ => ⟨by decide +kernel, ?_⟩, Or.inl rfl, trivial, trivial⟩
    intro destIp decoded _
    obtain rfl : campusHost.text = destIp := by
      apply Decoded.ip.inj
      rw [← decoded]
      decide +kernel
    exact ⟨campusHost, [], by decide +kernel⟩
  exact ⟨((connect_answered_iff isPath).mpr proceeds).last, by decide +kernel⟩

/-- A permitted CONNECT request whose only endpoint refuses the connection. -/
def refusedEvents : List SessionEvent :=
  [.receive (campusRequest 1) 0, .connectEnds false]

/-- The requester's socket is closed without a reply. -/
theorem connect_not_answered :
    Path (AnswerSteps campusNetwork) start (sessionPath refusedEvents) ∧
      (lastState start (sessionPath refusedEvents)).phase = .closed ∧
      (lastState start (sessionPath refusedEvents)).replies = [] ∧
      ¬ (lastState start (sessionPath refusedEvents)).Answered := by
  have noReply :
      (lastState start (sessionPath refusedEvents)).replies = [] := by
    decide +kernel
  have isClosed :
      (lastState start (sessionPath refusedEvents)).phase = .closed := by
    decide +kernel
  refine ⟨answerPath (path_trace (by decide +kernel)) ?_, isClosed, noReply, ?_⟩
  · decide +kernel
  exact not_answered_of_settled (by decide +kernel) (Or.inl isClosed) noReply

end Session

end NpServers.Socks
