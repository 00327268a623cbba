import NpServers.BatchDialogue
import NpServers.ConsoleProxy
import NpServers.SocksRelay

namespace NpServers.BatchSystem

open Console Shell TransitionPath

/-!
# A console session through the proxy

Once the proxy has granted the request, its relay stands between the console and the
server.  It reads what arrives from one side and hands it over to the other, at its
own pace and in its own pieces, and neither side can tell it from a slow connection:
every run through the proxy is a run of a direct session.

What the relay has in its buffer is on its way like the bytes in the two connections.
The console has to read the reply of the proxy alone, though; it does not look at
what comes with it.
-/

/-- A byte as the programs on both sides see it. -/
def symbolOf (byte : UInt8) : Char :=
  Char.ofNat byte.toNat

/-- The console, the relay and the server; what is on its way to the relay and from
it.  The direction `source` is the one from the console.  So many bytes of the reply
are still to be read. -/
structure ProxiedRun where
  client : Client
  loop : MainLoop
  relay : Socks.Client
  replyLeft : Nat
  received : List Char
  waiting : Socks.Direction → List Char
  delivered : Socks.Direction → List Char
  reads : List (List Char)

/-- What happens next. -/
inductive ProxiedAction where
  | batch (action : BatchAction)
  | relay (event : Socks.RelayEvent)

namespace ProxiedRun

/-- The proxy has sent its reply and starts to relay. -/
def start
    (environ : Environ)
    (lines : List (List Char))
    (reply : SocksReply)
    (relay : Socks.Client) : ProxiedRun where
  client := .startProxy lines
  loop := .initial environ
  relay := relay.startRead
  replyLeft := reply.bytes.length
  received := []
  waiting := fun _ => []
  delivered := fun
    | .source => []
    | .dest => reply.bytes
  reads := []

/-- What the relay has read and not handed over. -/
def held
    (channel : Socks.Channel) : List Char :=
  (channel.chunks.flatten.drop channel.handed.length).map symbolOf

/-- What is on its way in one direction. -/
def flow
    (direction : Socks.Direction)
    (run : ProxiedRun) : List Char :=
  run.delivered direction ++ held (run.relay.channel direction) ++
    run.waiting direction

/-- The bytes that a channel has read in between. -/
def newRead (before after : Socks.Channel) : List Char :=
  (after.chunks.flatten.drop before.chunks.flatten.length).map symbolOf

/-- The bytes that a channel has handed over in between. -/
def newHanded (before after : Socks.Channel) : List Char :=
  (after.handed.drop before.handed.length).map symbolOf

/-- The relay does something: what it reads has to be there. -/
def relayStep
    (event : Socks.RelayEvent)
    (run : ProxiedRun) : Option ProxiedRun :=
  match run.relay.step event with
  | some relay =>
      let taken (direction : Socks.Direction) : List Char :=
        newRead (run.relay.channel direction) (relay.channel direction)
      if (taken .source).isPrefixOf (run.waiting .source) ∧
          (taken .dest).isPrefixOf (run.waiting .dest) then
        some
          { run with
            relay := relay
            waiting := fun direction =>
              (run.waiting direction).drop (taken direction).length
            delivered := fun direction =>
              run.delivered direction ++
                newHanded (run.relay.channel direction)
                  (relay.channel direction) }
      else
        none
  | none => none

/-- The server does something. -/
def serve
    (connection totalFdNum : Nat)
    (action : MainAction)
    (run : ProxiedRun) : Option ProxiedRun :=
  let reads := run.loop.readsOf connection totalFdNum action
  match run.loop.act totalFdNum action with
  | some loop =>
      if reads.flatten.isPrefixOf (run.delivered .source) then
        some
          { run with
            loop := loop
            delivered :=
              Function.update run.delivered .source
                ((run.delivered .source).drop reads.flatten.length)
            waiting :=
              Function.update run.waiting .dest
                (run.waiting .dest ++
                  textOf connection
                    (loop.written.drop run.loop.written.length))
            reads := run.reads ++ reads }
      else
        none
  | none => none

/-- The console reads from the shell. -/
def read
    (length : Nat)
    (run : ProxiedRun) : ProxiedRun :=
  let chunk := (run.delivered .dest).take length
  let after := run.client.handleRead chunk
  { run with
    client := after
    received := run.received ++ chunk
    waiting :=
      Function.update run.waiting .source
        (run.waiting .source ++ after.sent.drop run.client.sent.length)
    delivered :=
      Function.update run.delivered .dest
        ((run.delivered .dest).drop length) }

/-- The console reads the reply of the proxy. -/
def readReply
    (length : Nat)
    (run : ProxiedRun) : ProxiedRun :=
  { run with
    client :=
      run.client.handleReceiveSocks4 ((run.delivered .dest).take length)
    replyLeft := run.replyLeft - length
    delivered :=
      Function.update run.delivered .dest
        ((run.delivered .dest).drop length) }

/-- One step of the console, the server or one of its commands. -/
def batchStep
    (connection totalFdNum : Nat)
    (run : ProxiedRun) :
    BatchAction → Option ProxiedRun
  | .server action => run.serve connection totalFdNum action
  | .commandWrites text =>
      some
        { run with
          waiting :=
            Function.update run.waiting .dest (run.waiting .dest ++ text) }
  | .clientReads length =>
      if 0 < length ∧ length ≤ (run.delivered .dest).length then
        if run.client.phase = .reading ∧ length < maxLength then
          some (run.read length)
        else if run.client.phase = .replying ∧ length ≤ maxLength then
          some (run.readReply length)
        else
          none
      else
        none
  | .clientWritten =>
      if run.client.phase = .writing then
        some { run with client := run.client.handleWrite }
      else
        none
  | .clientFails =>
      if run.client.phase = .replying ∨ run.client.phase = .reading ∨
          run.client.phase = .writing then
        some { run with client := run.client.stop }
      else
        none

/-- One step. -/
def step
    (connection totalFdNum : Nat)
    (run : ProxiedRun) :
    ProxiedAction → Option ProxiedRun
  | .batch action => run.batchStep connection totalFdNum action
  | .relay event => run.relayStep event

/-- The step relation. -/
def Steps
    (connection totalFdNum : Nat)
    (run : ProxiedRun)
    (action : ProxiedAction)
    (next : ProxiedRun) : Prop :=
  run.step connection totalFdNum action = some next

/-- The direct session behind it, in which the reply has not been sent. -/
def direct
    (lines : List (List Char))
    (run : ProxiedRun) : BatchRun where
  client := if run.client.phase = .replying then .start lines else run.client
  loop := run.loop
  received := run.received
  upstream := run.flow .source
  downstream := (run.flow .dest).drop run.replyLeft
  reads := run.reads

/-- The reply is read alone, and the server is not disturbed. -/
def Undisturbed
    (connection totalFdNum : Nat)
    (lines : List (List Char))
    (run : ProxiedRun) :
    ProxiedAction → Prop
  | .batch (.clientReads length) => run.client.phase = .replying → length = 8
  | .batch action =>
      (run.direct lines).Undisturbed connection totalFdNum action
  | .relay _ => True

instance Undisturbed.decidable
    (connection totalFdNum : Nat)
    (lines : List (List Char))
    (run : ProxiedRun) :
    (action : ProxiedAction) →
      Decidable (Undisturbed connection totalFdNum lines run action)
  | .batch (.clientReads length) =>
      inferInstanceAs (Decidable (run.client.phase = .replying → length = 8))
  | .batch (.server action) =>
      BatchRun.Undisturbed.decidable connection totalFdNum (run.direct lines)
        (.server action)
  | .batch (.commandWrites text) =>
      BatchRun.Undisturbed.decidable connection totalFdNum (run.direct lines)
        (.commandWrites text)
  | .batch .clientWritten | .batch .clientFails | .relay _ => .isTrue trivial

end ProxiedRun

/-! ## The relay only adds to its streams -/

section Relay

open Socks

variable {before after : Channel}

/-- More is read and handed over. -/
structure Grows (before after : Channel) : Prop where
  chunks : before.chunks.flatten <+: after.chunks.flatten
  handed : before.handed <+: after.handed

theorem Grows.refl (channel : Channel) : Grows channel channel :=
  ⟨List.prefix_refl _, List.prefix_refl _⟩

theorem Grows.trans
    {middle : Channel}
    (grows : Grows before middle)
    (growsLater : Grows middle after) :
    Grows before after :=
  ⟨grows.chunks.trans growsLater.chunks, grows.handed.trans growsLater.handed⟩

/-- Operations and buffers do not count. -/
theorem Grows.of_same
    {channel : Channel}
    (sameChunks : after.chunks = channel.chunks)
    (sameHanded : after.handed = channel.handed) :
    Grows channel after :=
  ⟨sameChunks ▸ List.prefix_refl _, sameHanded ▸ List.prefix_refl _⟩

variable {client next : Socks.Client}
variable {direction : Direction}

theorem grows_modify
    {change : Channel → Channel}
    (grows : Grows (client.channel direction) (change (client.channel direction)))
    (other : Direction) :
    Grows (client.channel other) ((client.modify direction change).channel other)
    := by
  unfold Socks.Client.modify
  dsimp only
  by_cases same : other = direction
  · subst same
    rw [Function.update_self]
    exact grows
  · rw [Function.update_of_ne same]
    exact .refl _

/-- A change that leaves the streams alone. -/
theorem grows_modify_same
    {change : Channel → Channel}
    (sameChunks :
      (change (client.channel direction)).chunks =
        (client.channel direction).chunks)
    (sameHanded :
      (change (client.channel direction)).handed =
        (client.channel direction).handed)
    (other : Direction) :
    Grows (client.channel other)
      ((client.modify direction change).channel other) :=
  grows_modify (.of_same sameChunks sameHanded) other

theorem grows_handleRead
    (ended : Ended)
    (length : Nat)
    (other : Direction) :
    Grows (client.channel other)
      ((client.handleRead direction ended length).channel other) := by
  unfold Socks.Client.handleRead
  split_ifs
  · exact .refl _
  · cases ended with
    | success =>
        exact
          (grows_modify_same rfl rfl other).trans
            (grows_modify_same rfl rfl other)
    | failure =>
        exact .refl _

theorem grows_handleWrite
    (ended : Ended)
    (other : Direction) :
    Grows (client.channel other)
      ((client.handleWrite direction ended).channel other) := by
  unfold Socks.Client.handleWrite
  split_ifs
  · exact .refl _
  · cases ended with
    | success =>
        exact
          (grows_modify_same rfl rfl other).trans
            (grows_modify_same rfl rfl other)
    | failure =>
        exact .refl _

/-- No event takes anything back. -/
theorem grows_step
    {event : RelayEvent}
    (stepped : client.step event = some next)
    (other : Direction) :
    Grows (client.channel other) (next.channel other) := by
  cases event with
  | receive direction index bytes =>
      obtain ⟨_, isNext⟩ := Option.ite_none_right_eq_some.mp stepped
      cases isNext
      refine grows_modify ⟨?_, List.prefix_refl _⟩ other
      change _ <+: ((client.channel direction).chunks ++ [bytes]).flatten
      rw [List.flatten_append]
      exact List.prefix_append _ _
  | failRead direction index =>
      obtain ⟨_, isNext⟩ := Option.ite_none_right_eq_some.mp stepped
      cases isNext
      exact grows_modify_same rfl rfl other
  | transfer direction index count =>
      simp only [Socks.Client.step] at stepped
      split at stepped
      case h_1 length written isPending =>
        obtain ⟨_, isNext⟩ := Option.ite_none_right_eq_some.mp stepped
        cases isNext
        exact grows_modify ⟨List.prefix_refl _, List.prefix_append _ _⟩ other
      case h_2 => cases stepped
  | finishWrite direction index =>
      simp only [Socks.Client.step] at stepped
      split at stepped
      case h_1 length written isPending =>
        obtain ⟨_, isNext⟩ := Option.ite_none_right_eq_some.mp stepped
        cases isNext
        exact grows_modify_same rfl rfl other
      case h_2 => cases stepped
  | failWrite direction index =>
      simp only [Socks.Client.step] at stepped
      split at stepped
      case h_1 length written isPending =>
        cases stepped
        exact grows_modify_same rfl rfl other
      case h_2 => cases stepped
  | handle direction index =>
      obtain ⟨operation, _, called⟩ := Option.bind_eq_some_iff.mp stepped
      have removed :
          Grows (client.channel other)
            ((client.modify direction fun channel =>
              channel.remove index).channel other) :=
        grows_modify_same rfl rfl other
      cases operation with
      | read => cases called
      | readEnded ended length =>
          cases called
          exact removed.trans (grows_handleRead ended length other)
      | write length written => cases called
      | writeEnded ended =>
          cases called
          exact removed.trans (grows_handleWrite ended other)

end Relay

/-! ## The queues of one direction -/

namespace ProxiedRun

section Flow

variable {before after : Socks.Channel}
variable {waiting : List Char}

/-- What is read goes from one end of the queue into the relay, what is handed over
from there to the other end. -/
theorem flow_grows
    (delivered : List Char)
    (grows : Grows before after)
    (isOld : before.handed <+: before.chunks.flatten)
    (isNew : after.handed <+: after.chunks.flatten)
    (isThere : newRead before after <+: waiting) :
    (delivered ++ newHanded before after) ++ held after ++
        waiting.drop (newRead before after).length =
      delivered ++ held before ++ waiting := by
  obtain ⟨chunks, isChunks⟩ := grows.chunks
  obtain ⟨handed, isHanded⟩ := grows.handed
  obtain ⟨left, isLeft⟩ := isThere
  obtain ⟨heldBefore, isHeld⟩ := isOld
  obtain ⟨heldAfter, isHeldAfter⟩ := isNew
  have sameBytes : heldBefore ++ chunks = handed ++ heldAfter := by
    rw [← isChunks, ← isHeld, ← isHanded, List.append_assoc, List.append_assoc,
      List.append_cancel_left_eq] at isHeldAfter
    exact isHeldAfter.symm
  have wasHeld : held before = heldBefore.map symbolOf := by
    unfold held
    rw [← isHeld, List.drop_left]
  have isHeldNow : held after = heldAfter.map symbolOf := by
    unfold held
    rw [← isHeldAfter, List.drop_left]
  have isRead : newRead before after = chunks.map symbolOf := by
    unfold newRead
    rw [← isChunks, List.drop_left]
  have isGiven : newHanded before after = handed.map symbolOf := by
    unfold newHanded
    rw [← isHanded, List.drop_left]
  rw [isRead] at isLeft ⊢
  rw [← isLeft, List.drop_left, isGiven, wasHeld, isHeldNow]
  have sameSymbols := congrArg (List.map symbolOf) sameBytes
  rw [List.map_append, List.map_append] at sameSymbols
  calc
    delivered ++ handed.map symbolOf ++ heldAfter.map symbolOf ++ left =
        delivered ++ (handed.map symbolOf ++ heldAfter.map symbolOf) ++ left := by
      rw [List.append_assoc delivered]
    _ = delivered ++ (heldBefore.map symbolOf ++ chunks.map symbolOf) ++ left := by
      rw [sameSymbols]
    _ = delivered ++ heldBefore.map symbolOf ++ (chunks.map symbolOf ++ left) := by
      simp only [List.append_assoc]

end Flow

section Steps

variable {connection totalFdNum : Nat}
variable {lines : List (List Char)}
variable {reply : SocksReply}
variable {run next : ProxiedRun}

/-- The relay keeps its streams, and the reply is the first that the console
reads. -/
structure Carries
    (lines : List (List Char))
    (reply : SocksReply)
    (run : ProxiedRun) : Prop where
  relaying : run.relay.Relaying
  isReply :
    run.replyLeft = 0 ∨
      run.replyLeft = 8 ∧ reply.bytes <+: run.delivered .dest ∧
        (run.client.phase = .replying ∨ run.client.phase = .stopped)
  replying :
    run.client.phase = .replying →
      run.replyLeft = 8 ∧ run.client = .startProxy lines

/-- What the relay does is not seen from outside. -/
theorem Carries.relayStep
    (carries : Carries lines reply run)
    {event : Socks.RelayEvent}
    (stepped : run.relayStep event = some next) :
    Carries lines reply next ∧ next.direct lines = run.direct lines := by
  unfold ProxiedRun.relayStep at stepped
  dsimp only at stepped
  split at stepped
  case h_2 => cases stepped
  rename_i relay isRelay
  obtain ⟨⟨takenSource, takenDest⟩, isNext⟩ :=
    Option.ite_none_right_eq_some.mp stepped
  cases isNext
  have relaying : relay.Relaying := carries.relaying.step isRelay
  have isThere (direction : Socks.Direction) :
      newRead (run.relay.channel direction) (relay.channel direction) <+:
        run.waiting direction := by
    cases direction with
    | source => exact List.isPrefixOf_iff_prefix.mp takenSource
    | dest => exact List.isPrefixOf_iff_prefix.mp takenDest
  have sameFlow (direction : Socks.Direction) :=
    flow_grows (run.delivered direction) (grows_step isRelay direction)
      (carries.relaying direction).upToOneChunk.isPrefix
      (relaying direction).upToOneChunk.isPrefix (isThere direction)
  refine ⟨⟨relaying, ?_, carries.replying⟩, ?_⟩
  · refine carries.isReply.imp_right ?_
    rintro ⟨isEight, isReply, phase⟩
    exact ⟨isEight, isReply.trans (List.prefix_append _ _), phase⟩
  · unfold direct flow
    dsimp only
    rw [sameFlow .source, sameFlow .dest]

/-- The reply is on its way as long as it is unread. -/
theorem Carries.replyLeft_le
    (carries : Carries lines reply run) :
    run.replyLeft ≤ (run.flow .dest).length := by
  rcases carries.isReply with isRead | ⟨isEight, isReply, _⟩
  · rw [isRead]
    exact Nat.zero_le _
  · rw [isEight, ← reply.eight]
    unfold flow
    rw [List.append_assoc, List.length_append]
    exact isReply.length_le.trans (Nat.le_add_right _ _)

/-- What is written towards the console is behind everything else. -/
theorem Carries.direct_written
    (carries : Carries lines reply run)
    (text : List Char) :
    (run.delivered .dest ++ held (run.relay.channel .dest) ++
          (run.waiting .dest ++ text)).drop run.replyLeft =
      (run.direct lines).downstream ++ text := by
  rw [← List.append_assoc]
  exact List.drop_append_of_le_length carries.replyLeft_le

/-- A step of a direct session, in which nothing is disturbed. -/
def Mirrors
    (connection totalFdNum : Nat)
    (before : BatchRun)
    (action : BatchAction)
    (after : BatchRun) : Prop :=
  before.Undisturbed connection totalFdNum action ∧
    before.Steps connection totalFdNum action after

/-- The server takes what has been handed over to it. -/
theorem Carries.serve
    (carries : Carries lines reply run)
    {action : MainAction}
    (served : run.serve connection totalFdNum action = some next) :
    Carries lines reply next ∧
      (run.direct lines).Steps connection totalFdNum (.server action)
        (next.direct lines) := by
  unfold ProxiedRun.serve at served
  dsimp only at served
  split at served
  case h_2 => cases served
  rename_i loop stepped
  obtain ⟨isTaken, isNext⟩ := Option.ite_none_right_eq_some.mp served
  cases isNext
  obtain ⟨left, isLeft⟩ := List.isPrefixOf_iff_prefix.mp isTaken
  refine
    ⟨⟨carries.relaying, carries.isReply, carries.replying⟩,
      BatchRun.serve_eq_some.mpr
        ⟨loop, left ++ held (run.relay.channel .source) ++ run.waiting .source,
          stepped, ?_, ?_⟩⟩
  · change _ = run.delivered .source ++ _ ++ _
    rw [← isLeft]
    simp only [List.append_assoc]
    rfl
  · rw [← carries.direct_written]
    unfold direct flow
    dsimp only
    rw [← isLeft, List.drop_left]
    rfl

/-- A client that has its reply is the client of the direct session. -/
theorem direct_client
    (lines : List (List Char))
    (notReplying : run.client.phase ≠ .replying) :
    (run.direct lines).client = run.client :=
  if_neg notReplying

theorem handleRead_not_replying
    (client : Client)
    (chunk : List Char) :
    (client.handleRead chunk).phase ≠ .replying := by
  unfold Client.handleRead
  cases dataString chunk with
  | none =>
      exact nofun
  | some data =>
      dsimp only
      split_ifs
      · exact nofun
      · exact nofun

/-- The console reads what has been handed over to it. -/
theorem Carries.read
    (carries : Carries lines reply run)
    {length : Nat}
    (isReading : run.client.phase = .reading)
    (positive : 0 < length)
    (short : length < maxLength)
    (isThere : length ≤ (run.delivered .dest).length) :
    Carries lines reply (run.read length) ∧
      (run.direct lines).Steps connection totalFdNum (.clientReads length)
        ((run.read length).direct lines) := by
  have notReplying : run.client.phase ≠ .replying := by
    rw [isReading]
    exact nofun
  have noReply : run.replyLeft = 0 := by
    rcases carries.isReply with isRead | ⟨_, _, isReplying | isStopped⟩
    · exact isRead
    · exact absurd isReplying notReplying
    · rw [isReading] at isStopped
      cases isStopped
  have after := handleRead_not_replying run.client ((run.delivered .dest).take length)
  refine ⟨⟨carries.relaying, .inl noReply, fun isReplying => absurd isReplying after⟩, ?_⟩
  have sameDownstream : (run.direct lines).downstream = run.flow .dest := by
    unfold direct
    rw [noReply]
    rfl
  have fits : length ≤ (run.flow .dest).length := by
    unfold flow
    rw [List.append_assoc, List.length_append]
    exact isThere.trans (Nat.le_add_right _ _)
  have sameChunk :
      (run.flow .dest).take length = (run.delivered .dest).take length := by
    unfold flow
    rw [List.append_assoc, List.take_append_of_le_length isThere]
  have sameRest :
      (run.flow .dest).drop length =
        (run.delivered .dest).drop length ++ held (run.relay.channel .dest) ++
          run.waiting .dest := by
    unfold flow
    rw [List.append_assoc, List.drop_append_of_le_length isThere,
      ← List.append_assoc]
  have sameClient := direct_client lines notReplying
  have isNext :
      (run.direct lines).read length = (run.read length).direct lines := by
    unfold BatchRun.read
    rw [sameClient, sameDownstream, sameChunk, sameRest]
    refine BatchRun.ext (if_neg after).symm rfl rfl ?_ ?_ rfl
    · exact List.append_assoc _ _ _
    · unfold direct
      change _ = (_ : List Char).drop run.replyLeft
      rw [noReply]
      rfl
  rw [← isNext]
  refine BatchRun.steps_read ?_ positive short ?_
  · rw [sameClient]
    exact isReading
  · rw [sameDownstream]
    exact fits

/-- The console reads the whole reply, and starts to read from the shell. -/
theorem Carries.readReply
    (carries : Carries lines reply run)
    (isReplying : run.client.phase = .replying)
    (isThere : 8 ≤ (run.delivered .dest).length) :
    Carries lines reply (run.readReply 8) ∧
      (run.readReply 8).direct lines = run.direct lines := by
  obtain ⟨isEight, isStart⟩ := carries.replying isReplying
  have isReply : (run.delivered .dest).take 8 = reply.bytes := by
    rcases carries.isReply with isRead | ⟨_, isReply, _⟩
    · rw [isEight] at isRead
      cases isRead
    · rw [← reply.eight]
      exact (List.prefix_iff_eq_take.mp isReply).symm
  have granted : reply.bytes.getD 1 nul = Char.ofNat 90 := by
    rw [List.getD_eq_getElem?_getD, reply.granted]
    rfl
  have isClient : (run.readReply 8).client = .start lines := by
    unfold ProxiedRun.readReply
    dsimp only
    rw [isReply, isStart]
    exact if_pos granted
  have noneLeft : (run.readReply 8).replyLeft = 0 := by
    unfold ProxiedRun.readReply
    dsimp only
    rw [isEight]
  refine ⟨⟨carries.relaying, .inl noneLeft, ?_⟩, ?_⟩
  · intro stillReplying
    rw [isClient] at stillReplying
    cases stillReplying
  · unfold direct
    rw [isClient, noneLeft, if_pos isReplying, isEight]
    refine BatchRun.ext ?_ rfl rfl rfl ?_ rfl
    · dsimp only
      exact ite_self _
    · change
        (run.delivered .dest).drop 8 ++ held (run.relay.channel .dest) ++
            run.waiting .dest =
          (run.delivered .dest ++ held (run.relay.channel .dest) ++
            run.waiting .dest).drop 8
      rw [List.append_assoc, List.append_assoc,
        List.drop_append_of_le_length isThere]

/-- A step of the console, the server or a command is one of the direct session,
except that the console has no reply to read there. -/
theorem Carries.batchStep
    (carries : Carries lines reply run)
    {action : BatchAction}
    (undisturbed : run.Undisturbed connection totalFdNum lines (.batch action))
    (stepped : run.batchStep connection totalFdNum action = some next) :
    Carries lines reply next ∧
      (next.direct lines = run.direct lines ∨
        Mirrors connection totalFdNum (run.direct lines) action
          (next.direct lines)) := by
  cases action with
  | server action =>
      obtain ⟨carriesNext, mirrored⟩ := carries.serve stepped
      exact ⟨carriesNext, .inr ⟨undisturbed, mirrored⟩⟩
  | commandWrites text =>
      cases stepped
      refine
        ⟨⟨carries.relaying, carries.isReply, carries.replying⟩,
          .inr ⟨undisturbed, ?_⟩⟩
      refine congrArg some (BatchRun.ext rfl rfl rfl rfl ?_ rfl)
      exact (carries.direct_written text).symm
  | clientReads length =>
      obtain ⟨⟨positive, isThere⟩, isRead⟩ :=
        Option.ite_none_right_eq_some.mp stepped
      split_ifs at isRead with shell proxy
      · cases isRead
        obtain ⟨carriesNext, mirrored⟩ :=
          carries.read shell.1 positive shell.2 isThere
        exact ⟨carriesNext, .inr ⟨trivial, mirrored⟩⟩
      · cases isRead
        have isEight : length = 8 := undisturbed proxy.1
        subst isEight
        obtain ⟨carriesNext, same⟩ := carries.readReply proxy.1 isThere
        exact ⟨carriesNext, .inl same⟩
  | clientWritten =>
      obtain ⟨isWriting, isNext⟩ := Option.ite_none_right_eq_some.mp stepped
      cases isNext
      have notReplying : run.client.phase ≠ .replying := by
        rw [isWriting]
        exact nofun
      have isWritten : (run.direct lines).client.phase = .writing := by
        rw [direct_client lines notReplying]
        exact isWriting
      refine ⟨⟨carries.relaying, ?_, nofun⟩, .inr ⟨trivial, ?_⟩⟩
      · rcases carries.isReply with isRead | ⟨_, _, isReplying | isStopped⟩
        · exact .inl isRead
        · exact absurd isReplying notReplying
        · rw [isWriting] at isStopped
          cases isStopped
      · refine (if_pos isWritten).trans (congrArg some ?_)
        rw [direct_client lines notReplying]
        rfl
  | clientFails =>
      obtain ⟨isOpen, isNext⟩ := Option.ite_none_right_eq_some.mp stepped
      cases isNext
      have isStopped :
          (run.direct lines).client.stop = run.client.stop ∧
            ((run.direct lines).client.phase = .reading ∨
              (run.direct lines).client.phase = .writing) := by
        unfold direct
        dsimp only
        split_ifs with isReplying
        · rw [(carries.replying isReplying).2]
          exact ⟨rfl, .inl rfl⟩
        · exact ⟨rfl, isOpen.resolve_left isReplying⟩
      refine ⟨⟨carries.relaying, ?_, nofun⟩, .inr ⟨trivial, ?_⟩⟩
      · exact carries.isReply.imp_right fun ⟨isEight, isReply, _⟩ =>
          ⟨isEight, isReply, .inr rfl⟩
      · refine (if_pos isStopped.2).trans (congrArg some ?_)
        rw [isStopped.1]
        rfl

/-- The proxy is not seen: a run through it is a run of the direct session. -/
theorem Carries.directPath
    (carries : Carries lines reply run)
    {path : List (ProxiedAction × ProxiedRun)}
    (isPath : Path (Steps connection totalFdNum) run path)
    (undisturbed :
      EveryStep (Undisturbed connection totalFdNum lines) run path) :
    ∃ directPath,
      Path (BatchRun.Steps connection totalFdNum) (run.direct lines)
          directPath ∧
        EveryStep (BatchRun.Undisturbed connection totalFdNum)
          (run.direct lines) directPath ∧
        lastState (run.direct lines) directPath =
          (lastState run path).direct lines := by
  induction path generalizing run with
  | nil =>
      exact ⟨[], trivial, trivial, rfl⟩
  | cons entry rest inductionHypothesis =>
      obtain ⟨action, next⟩ := entry
      obtain ⟨stepped, isRest⟩ := isPath
      obtain ⟨isUndisturbed, restUndisturbed⟩ := undisturbed
      cases action with
      | relay event =>
          obtain ⟨carriesNext, same⟩ := carries.relayStep stepped
          rw [← same]
          exact inductionHypothesis carriesNext isRest restUndisturbed
      | batch action =>
          obtain ⟨carriesNext, mirrored⟩ :=
            carries.batchStep isUndisturbed stepped
          obtain ⟨directPath, isDirect, directUndisturbed, isLast⟩ :=
            inductionHypothesis carriesNext isRest restUndisturbed
          rcases mirrored with same | ⟨isFine, isStep⟩
          · rw [← same]
            exact ⟨directPath, isDirect, directUndisturbed, isLast⟩
          · exact
              ⟨(action, next.direct lines) :: directPath, ⟨isStep, isDirect⟩,
                ⟨isFine, directUndisturbed⟩, isLast⟩

theorem carries_start
    (environ : Environ)
    (lines : List (List Char))
    (reply : SocksReply)
    (data : Socks.Direction → Nat → UInt8)
    (dataLen : Socks.Direction → Nat) :
    Carries lines reply (start environ lines reply (.replied data dataLen)) where
  relaying := Socks.Client.relaying_startRead data dataLen
  isReply := .inr ⟨reply.eight, List.prefix_refl _, .inl rfl⟩
  replying := fun _ => ⟨reply.eight, rfl⟩

/-- At the start the direct session starts. -/
theorem direct_start
    (environ : Environ)
    (lines : List (List Char))
    (reply : SocksReply)
    (data : Socks.Direction → Nat → UInt8)
    (dataLen : Socks.Direction → Nat) :
    (start environ lines reply (.replied data dataLen)).direct lines =
      .start environ lines := by
  refine BatchRun.ext rfl rfl rfl rfl ?_ rfl
  change (reply.bytes ++ [] ++ []).drop reply.bytes.length = []
  rw [List.append_nil, List.append_nil, List.drop_length]

end Steps

/-- The proxy has granted the request of the console, which has a file with one
line. -/
def whoStart : ProxiedRun :=
  start (fun _ => none) ["who".toList] plainReply
    (.replied (fun _ _ => 0) fun _ => 0)

/-- The relay passes on the first bytes that the server sends, in two pieces. -/
def whoActions : List ProxiedAction :=
  [.batch
      (.server
        (MainLoop.quietRound
          (some { sinAddr := "10.0.0.1", sinPort := 40001 }) [])),
    .batch (.clientReads 8), .relay (.receive .dest 0 [42, 42, 42]),
    .relay (.handle .dest 0), .relay (.transfer .dest 0 2),
    .batch (.clientReads 2), .relay (.transfer .dest 0 1),
    .batch (.clientReads 1)]

/-- The run of these actions. -/
@[irreducible] def actionsPath
    (connection totalFdNum : Nat)
    (run : ProxiedRun)
    (actions : List ProxiedAction) : List (ProxiedAction × ProxiedRun) :=
  (trace (step connection totalFdNum) run actions).getD []

theorem path_actionsPath
    {connection totalFdNum : Nat}
    {run : ProxiedRun}
    {actions : List ProxiedAction}
    (completes :
      (trace (step connection totalFdNum) run actions).isSome = true) :
    Path (Steps connection totalFdNum) run
      (actionsPath connection totalFdNum run actions) := by
  unfold actionsPath
  exact path_trace completes

def whoPath : List (ProxiedAction × ProxiedRun) :=
  actionsPath 0 8 whoStart whoActions

end ProxiedRun

end NpServers.BatchSystem
