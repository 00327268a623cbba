import Mathlib.Data.List.Basic
import Mathlib.Logic.Function.Basic
import Mathlib.Tactic.Common
import NpServers.TransitionPath

namespace NpServers.Socks

open TransitionPath

/-!
# The relay of the SOCKS server

Once its reply is written, a `client` object of `connect_to_dest.hpp` copies
bytes in both directions.  Each direction alternates between `async_read_some`
into its buffer and `async_write` from it.  The two chains share the flag
`stopped_`, and their operations end in any order.

An operation that was started is pending until the system has ended it, and its
handler then waits to be called.  A write hands over the bytes that the buffer
holds when they are sent.  The lists `chunks` and `handed` record what was read
and handed over; no step reads them.
-/

/-- The socket that a direction reads from. -/
inductive Direction where
  | source
  | dest
  deriving Repr, DecidableEq

/-- `max_length`. -/
def maxLength : Nat := 32768

/-- The error code of an operation: success, or an error or the end of stream. -/
inductive Ended where
  | success
  | failure
  deriving Repr, DecidableEq

/-- An operation of one direction that was started and not yet handled. -/
inductive Operation where
  | read
  | readEnded (ended : Ended) (length : Nat)
  | write (length written : Nat)
  | writeEnded (ended : Ended)
  deriving Repr, DecidableEq

/-- One direction: its buffer, its operations, and what it has copied. -/
structure Channel where
  data : Nat → UInt8
  dataLen : Nat
  operations : List Operation
  chunks : List (List UInt8)
  handed : List UInt8

/-- The members of `client` that the relay uses; both sockets are open until `stop`. -/
structure Client where
  stopped : Bool
  channel : Direction → Channel

namespace Channel

/-- `memset(data, '\0', length)`. -/
def clear
    (channel : Channel)
    (length : Nat) : Channel :=
  { channel with
    data := fun i => if i < length then 0 else channel.data i }

/-- An operation is started. -/
def start
    (channel : Channel)
    (operation : Operation) : Channel :=
  { channel with operations := channel.operations ++ [operation] }

/-- The operation at an index becomes another one. -/
def replace
    (channel : Channel)
    (index : Nat)
    (operation : Operation) : Channel :=
  { channel with operations := channel.operations.set index operation }

/-- The operation at an index is handled. -/
def remove
    (channel : Channel)
    (index : Nat) : Channel :=
  { channel with operations := channel.operations.eraseIdx index }

/-- The system stores received bytes in the buffer. -/
def receive
    (channel : Channel)
    (bytes : List UInt8) : Channel :=
  { channel with
    data := fun i => (bytes[i]?).getD (channel.data i)
    chunks := channel.chunks ++ [bytes] }

/-- The bytes of the buffer from one index up to another. -/
def slice
    (channel : Channel)
    (start stop : Nat) : List UInt8 :=
  (List.range' start (stop - start)).map channel.data

/-- The system hands bytes of the buffer to the other socket. -/
def hand
    (channel : Channel)
    (start stop : Nat) : Channel :=
  { channel with handed := channel.handed ++ channel.slice start stop }

/-- The direction before `start_read`, with what its members hold. -/
def idle
    (data : Nat → UInt8)
    (dataLen : Nat) : Channel where
  data := data
  dataLen := dataLen
  operations := []
  chunks := []
  handed := []

end Channel

namespace Client

/-- Change one direction. -/
def modify
    (client : Client)
    (direction : Direction)
    (change : Channel → Channel) : Client :=
  { client with
    channel :=
      Function.update client.channel direction
        (change (client.channel direction)) }

/-- `stop`: both sockets are closed. -/
def stop (client : Client) : Client :=
  { client with stopped := true }

/-- The read of a direction, into its buffer. -/
def asyncReadSome
    (direction : Direction)
    (client : Client) : Client :=
  client.modify direction fun channel => channel.start .read

/-- The write of a direction, from its buffer. -/
def asyncWrite
    (direction : Direction)
    (length : Nat)
    (client : Client) : Client :=
  client.modify direction fun channel => channel.start (.write length 0)

/-- `handle_source_read` and `handle_dest_read`. -/
def handleRead
    (direction : Direction)
    (ec : Ended)
    (length : Nat)
    (client : Client) : Client :=
  if client.stopped then
    client
  else
    match ec with
    | .success =>
        (client.modify direction fun channel =>
          { channel with dataLen := length }).asyncWrite direction length
    | .failure => client.stop

/-- `handle_dest_write` and `handle_source_write`. -/
def handleWrite
    (direction : Direction)
    (ec : Ended)
    (client : Client) : Client :=
  if client.stopped then
    client
  else
    match ec with
    | .success =>
        (client.modify direction fun channel =>
          channel.clear channel.dataLen).asyncReadSome direction
    | .failure => client.stop

/-- `dest_write`. -/
def destWrite : Nat → Client → Client :=
  asyncWrite .source

/-- `source_write`. -/
def sourceWrite : Nat → Client → Client :=
  asyncWrite .dest

/-- `handle_source_read`. -/
def handleSourceRead : Ended → Nat → Client → Client :=
  handleRead .source

/-- `handle_dest_read`. -/
def handleDestRead : Ended → Nat → Client → Client :=
  handleRead .dest

/-- `handle_dest_write`. -/
def handleDestWrite : Ended → Client → Client :=
  handleWrite .source

/-- `handle_source_write`. -/
def handleSourceWrite : Ended → Client → Client :=
  handleWrite .dest

/-- `start_read`. -/
def startRead (client : Client) : Client :=
  let cleared :=
    (client.modify .dest fun channel => channel.clear maxLength).modify .source
      fun channel => channel.clear maxLength
  (cleared.asyncReadSome .source).asyncReadSome .dest

/-- The object when its reply was written. -/
def replied
    (data : Direction → Nat → UInt8)
    (dataLen : Direction → Nat) : Client where
  stopped := false
  channel := fun direction => .idle (data direction) (dataLen direction)

end Client

/-- What can happen to the operation at an index of a direction. -/
inductive RelayEvent where
  | receive (direction : Direction) (index : Nat) (bytes : List UInt8)
  | failRead (direction : Direction) (index : Nat)
  | transfer (direction : Direction) (index count : Nat)
  | finishWrite (direction : Direction) (index : Nat)
  | failWrite (direction : Direction) (index : Nat)
  | handle (direction : Direction) (index : Nat)

namespace Client

/-- The handler of an operation that has ended. -/
def callHandler
    (direction : Direction)
    (client : Client) :
    Operation → Option Client
  | .readEnded ended length => some (client.handleRead direction ended length)
  | .writeEnded ended => some (client.handleWrite direction ended)
  | _ => none

/--
One event.  A read ends with at least one byte or with a failure; a write ends
well only when all bytes were handed over.  After `stop` the sockets are closed,
so pending operations can only fail.
-/
def step
    (client : Client) :
    RelayEvent → Option Client
  | .receive direction index bytes =>
      if (client.channel direction).operations[index]? = some .read ∧
          client.stopped = false ∧
          1 ≤ bytes.length ∧ bytes.length ≤ maxLength then
        some
          (client.modify direction fun channel =>
            (channel.receive bytes).replace index
              (.readEnded .success bytes.length))
      else
        none
  | .failRead direction index =>
      if (client.channel direction).operations[index]? = some .read then
        some
          (client.modify direction fun channel =>
            channel.replace index (.readEnded .failure 0))
      else
        none
  | .transfer direction index count =>
      match (client.channel direction).operations[index]? with
      | some (.write length written) =>
          if client.stopped = false ∧ written + count ≤ length then
            some
              (client.modify direction fun channel =>
                (channel.hand written (written + count)).replace index
                  (.write length (written + count)))
          else
            none
      | _ => none
  | .finishWrite direction index =>
      match (client.channel direction).operations[index]? with
      | some (.write length written) =>
          if written = length then
            some
              (client.modify direction fun channel =>
                channel.replace index (.writeEnded .success))
          else
            none
      | _ => none
  | .failWrite direction index =>
      match (client.channel direction).operations[index]? with
      | some (.write _ _) =>
          some
            (client.modify direction fun channel =>
              channel.replace index (.writeEnded .failure))
      | _ => none
  | .handle direction index =>
      ((client.channel direction).operations[index]?).bind
        (callHandler direction
          (client.modify direction fun channel => channel.remove index))

/-- One event that is possible. -/
def Steps
    (client : Client)
    (event : RelayEvent)
    (next : Client) : Prop :=
  client.step event = some next

end Client

/-! ## What one direction has copied -/

namespace Channel

/-- All bytes that were read are handed over, in order. -/
def Copied (channel : Channel) : Prop :=
  channel.handed = channel.chunks.flatten

/-- The last chunk is in the buffer, and `written` of its bytes are handed over. -/
def Copying
    (channel : Channel)
    (length written : Nat) : Prop :=
  ∃ whole chunk,
    channel.chunks = whole ++ [chunk] ∧
      chunk.length = length ∧
      channel.slice 0 length = chunk ∧
      written ≤ length ∧
      channel.handed = whole.flatten ++ chunk.take written

/-- What was copied fits the operation that a direction is waiting for. -/
def Fits
    (channel : Channel) :
    Operation → Prop
  | .read => channel.Copied
  | .readEnded .success length => channel.Copying length 0
  | .readEnded .failure _ => channel.Copied
  | .write length written => channel.Copying length written
  | .writeEnded .success => channel.Copied
  | .writeEnded .failure => ∃ length written, channel.Copying length written

/-- The bytes handed over are those read, up to a part of the last chunk. -/
structure UpToOneChunk (channel : Channel) : Prop where
  isPrefix : channel.handed <+: channel.chunks.flatten
  lacksOne : channel.chunks.dropLast.flatten <+: channel.handed

variable {channel : Channel}

theorem Copied.upToOneChunk
    (copied : channel.Copied) :
    channel.UpToOneChunk := by
  have isHanded : channel.handed = channel.chunks.flatten := copied
  refine ⟨isHanded ▸ List.prefix_refl _, ?_⟩
  obtain ⟨last, isRead⟩ := List.dropLast_prefix channel.chunks
  rw [isHanded, ← isRead, List.flatten_append, isRead]
  exact List.prefix_append _ _

theorem Copying.upToOneChunk
    {length written : Nat}
    (copying : channel.Copying length written) :
    channel.UpToOneChunk := by
  obtain ⟨whole, chunk, isRead, _, _, _, isHanded⟩ := copying
  refine ⟨?_, ?_⟩
  · rw [isRead, isHanded, List.flatten_append, List.flatten_singleton]
    exact (List.prefix_append_right_inj _).mpr (List.take_prefix _ _)
  · rw [isRead, isHanded, List.dropLast_concat]
    exact List.prefix_append _ _

theorem Fits.upToOneChunk
    {operation : Operation}
    (fits : channel.Fits operation) :
    channel.UpToOneChunk := by
  match operation, fits with
  | .read, copied => exact Copied.upToOneChunk copied
  | .readEnded .success _, copying => exact Copying.upToOneChunk copying
  | .readEnded .failure _, copied => exact Copied.upToOneChunk copied
  | .write _ _, copying => exact Copying.upToOneChunk copying
  | .writeEnded .success, copied => exact Copied.upToOneChunk copied
  | .writeEnded .failure, ⟨_, _, copying⟩ => exact copying.upToOneChunk

/-- A complete write has copied everything. -/
theorem Copying.copied
    {length : Nat}
    (copying : channel.Copying length length) :
    channel.Copied := by
  obtain ⟨whole, chunk, isRead, rfl, _, _, isHanded⟩ := copying
  unfold Copied
  rw [isRead, isHanded, List.take_length, List.flatten_append,
    List.flatten_singleton]

/-- Received bytes are those in the buffer. -/
theorem Copied.receive
    (copied : channel.Copied)
    (bytes : List UInt8) :
    (channel.receive bytes).Copying bytes.length 0 := by
  refine ⟨channel.chunks, bytes, rfl, rfl, ?_, Nat.zero_le _, ?_⟩
  · apply List.ext_getElem
    · simp [slice]
    · intro i _ inBound
      simp [slice, Channel.receive, inBound]
  · rw [List.take_zero, List.append_nil]
    exact copied

/-- Handing over the next bytes of the buffer continues the copy. -/
theorem Copying.hand
    {length written count : Nat}
    (copying : channel.Copying length written)
    (fits : written + count ≤ length) :
    (channel.hand written (written + count)).Copying length
      (written + count) := by
  obtain ⟨whole, chunk, isRead, isLength, isBuffer, _, isHanded⟩ := copying
  refine ⟨whole, chunk, isRead, isLength, isBuffer, fits, ?_⟩
  have isSlice :
      channel.slice written (written + count) =
        (chunk.drop written).take count := by
    rw [← isBuffer]
    apply List.ext_getElem
    · simp [slice]
      omega
    · intro i _ _
      simp [slice]
  change channel.handed ++ channel.slice written (written + count) = _
  rw [isHanded, isSlice, List.append_assoc, List.take_add]

end Channel

namespace Client

variable {client next : Client}
variable {direction other : Direction}

@[simp] theorem modify_stopped
    (client : Client)
    (direction : Direction)
    (change : Channel → Channel) :
    (client.modify direction change).stopped = client.stopped :=
  rfl

@[simp] theorem modify_channel_self
    (client : Client)
    (direction : Direction)
    (change : Channel → Channel) :
    (client.modify direction change).channel direction =
      change (client.channel direction) := by
  simp [modify]

theorem modify_channel_of_ne
    (different : other ≠ direction)
    (client : Client)
    (change : Channel → Channel) :
    (client.modify direction change).channel other = client.channel other := by
  simp [modify, different]

/-! ## The invariant of the two chains -/

/--
A direction waits for exactly one operation.  After `stop` it may have none
left.
-/
def Alternates
    (client : Client)
    (direction : Direction) : Prop :=
  (∃ operation,
    (client.channel direction).operations = [operation] ∧
      (client.channel direction).Fits operation) ∨
  client.stopped = true ∧
    (client.channel direction).operations = [] ∧
    (client.channel direction).UpToOneChunk

/-- Both directions alternate between reading and writing. -/
def Relaying (client : Client) : Prop :=
  ∀ direction, client.Alternates direction

theorem Alternates.upToOneChunk
    (alternates : client.Alternates direction) :
    (client.channel direction).UpToOneChunk := by
  rcases alternates with ⟨operation, _, fits⟩ | ⟨_, _, upToOneChunk⟩
  · exact fits.upToOneChunk
  · exact upToOneChunk

/-- The operation that an event concerns is the only one of its direction. -/
theorem Alternates.only
    (alternates : client.Alternates direction)
    {index : Nat}
    {operation : Operation}
    (isPending :
      (client.channel direction).operations[index]? = some operation) :
    index = 0 ∧ (client.channel direction).operations = [operation] ∧
      (client.channel direction).Fits operation := by
  rcases alternates with ⟨only, isOnly, fits⟩ | ⟨_, none, _⟩
  · rw [isOnly] at isPending
    cases index with
    | zero =>
        cases isPending
        exact ⟨rfl, isOnly, fits⟩
    | succ index => cases isPending
  · rw [none] at isPending
    cases isPending

/-- A change of one direction leaves the other as it was. -/
theorem Relaying.modify
    (relaying : client.Relaying)
    {change : Channel → Channel}
    {operation : Operation}
    (isOnly :
      (change (client.channel direction)).operations = [operation])
    (fits : (change (client.channel direction)).Fits operation) :
    (client.modify direction change).Relaying := by
  intro other
  by_cases same : other = direction
  · subst same
    left
    rw [modify_channel_self]
    exact ⟨operation, isOnly, fits⟩
  · unfold Alternates
    rw [modify_channel_of_ne same]
    exact relaying other

/-- The only operation of a direction becomes another one. -/
theorem Relaying.replace
    (relaying : client.Relaying)
    {change : Channel → Channel}
    {old : Operation}
    (new : Operation)
    (isOnly : (change (client.channel direction)).operations = [old])
    (fits : (change (client.channel direction)).Fits new) :
    (client.modify direction fun channel =>
      (change channel).replace 0 new).Relaying := by
  have isNew :
      ((change (client.channel direction)).replace 0 new).operations =
        [new] := by
    simp [Channel.replace, isOnly]
  have stillFits :
      ((change (client.channel direction)).replace 0 new).Fits new := by
    match new, fits with
    | .read, fits => exact fits
    | .readEnded .success _, fits => exact fits
    | .readEnded .failure _, fits => exact fits
    | .write _ _, fits => exact fits
    | .writeEnded .success, fits => exact fits
    | .writeEnded .failure, fits => exact fits
  exact relaying.modify isNew stillFits

@[simp] theorem modify_modify
    (client : Client)
    (direction : Direction)
    (first second : Channel → Channel) :
    (client.modify direction first).modify direction second =
      client.modify direction (second ∘ first) := by
  simp [Client.modify]

/-- A handler that starts nothing leaves a stopped object. -/
theorem Relaying.retire
    (relaying : client.Relaying)
    {change : Channel → Channel}
    (none : (change (client.channel direction)).operations = [])
    (upToOneChunk : (change (client.channel direction)).UpToOneChunk) :
    ({ client.modify direction change with stopped := true } :
      Client).Relaying := by
  intro other
  by_cases same : other = direction
  · subst same
    right
    change _ ∧ ((client.modify other change).channel other).operations = [] ∧
      ((client.modify other change).channel other).UpToOneChunk
    rw [modify_channel_self]
    exact ⟨rfl, none, upToOneChunk⟩
  · rcases relaying other with pending | ⟨_, isIdle⟩
    · left
      change ∃ operation,
        ((client.modify direction change).channel other).operations =
            [operation] ∧
          ((client.modify direction change).channel other).Fits operation
      rw [modify_channel_of_ne same]
      exact pending
    · right
      change _ ∧ ((client.modify direction change).channel other).operations =
          [] ∧
        ((client.modify direction change).channel other).UpToOneChunk
      rw [modify_channel_of_ne same]
      exact ⟨rfl, isIdle⟩

/-- The direction whose operation is handled, without that operation. -/
def handled
    (client : Client)
    (direction : Direction) : Client :=
  client.modify direction fun channel => channel.remove 0

/-- A handler that is called after `stop`, or calls it. -/
theorem Relaying.handled_stop
    (relaying : client.Relaying)
    {operation : Operation}
    (isOnly : (client.channel direction).operations = [operation])
    (fits : (client.channel direction).Fits operation) :
    (client.handled direction).stop.Relaying := by
  have none : ((client.channel direction).remove 0).operations = [] := by
    simp [Channel.remove, isOnly]
  exact relaying.retire none
    ⟨fits.upToOneChunk.isPrefix, fits.upToOneChunk.lacksOne⟩

theorem stop_of_stopped
    (stopped : client.stopped = true) :
    client.stop = client := by
  unfold stop
  rw [← stopped]

/-- The handler of a read. -/
theorem Relaying.handleRead
    (relaying : client.Relaying)
    {ended : Ended}
    {length : Nat}
    (isOnly :
      (client.channel direction).operations = [.readEnded ended length])
    (fits : (client.channel direction).Fits (.readEnded ended length)) :
    ((client.handled direction).handleRead direction ended length).Relaying := by
  have retired := relaying.handled_stop isOnly fits
  unfold Client.handleRead
  split_ifs with stopped
  · rwa [stop_of_stopped stopped] at retired
  · cases ended with
    | success =>
        have isWrite :
            (((client.channel direction).remove 0).start
              (.write length 0)).operations = [.write length 0] := by
          simp [Channel.start, Channel.remove, isOnly]
        simp only [handled, asyncWrite, modify_modify]
        exact relaying.modify isWrite fits
    | failure => exact retired

/-- The handler of a write. -/
theorem Relaying.handleWrite
    (relaying : client.Relaying)
    {ended : Ended}
    (isOnly : (client.channel direction).operations = [.writeEnded ended])
    (fits : (client.channel direction).Fits (.writeEnded ended)) :
    ((client.handled direction).handleWrite direction ended).Relaying := by
  have retired := relaying.handled_stop isOnly fits
  unfold Client.handleWrite
  split_ifs with stopped
  · rwa [stop_of_stopped stopped] at retired
  · cases ended with
    | success =>
        have isRead :
            (((client.channel direction).remove 0).start .read).operations =
              [.read] := by
          simp [Channel.start, Channel.remove, isOnly]
        simp only [handled, asyncReadSome, modify_modify]
        exact relaying.modify isRead fits
    | failure => exact retired

/-- Every event keeps the two chains apart. -/
theorem Relaying.step
    {event : RelayEvent}
    (relaying : client.Relaying)
    (stepped : client.Steps event next) :
    next.Relaying := by
  unfold Steps at stepped
  cases event with
  | receive direction index bytes =>
      simp only [Client.step, Option.ite_none_right_eq_some] at stepped
      obtain ⟨⟨isPending, _⟩, isNext⟩ := stepped
      cases isNext
      obtain ⟨rfl, isOnly, copied⟩ := (relaying direction).only isPending
      exact relaying.replace (.readEnded .success bytes.length) isOnly
        (Channel.Copied.receive copied bytes)
  | failRead direction index =>
      simp only [Client.step, Option.ite_none_right_eq_some] at stepped
      obtain ⟨isPending, isNext⟩ := stepped
      cases isNext
      obtain ⟨rfl, isOnly, copied⟩ := (relaying direction).only isPending
      exact relaying.replace (.readEnded .failure 0) isOnly copied
  | transfer direction index count =>
      simp only [Client.step] at stepped
      split at stepped
      case h_1 length written isPending =>
        rw [Option.ite_none_right_eq_some] at stepped
        obtain ⟨⟨_, inBound⟩, isNext⟩ := stepped
        cases isNext
        obtain ⟨rfl, isOnly, copying⟩ := (relaying direction).only isPending
        exact relaying.replace (.write length (written + count)) isOnly
          (Channel.Copying.hand copying inBound)
      case h_2 => cases stepped
  | finishWrite direction index =>
      simp only [Client.step] at stepped
      split at stepped
      case h_1 length written isPending =>
        rw [Option.ite_none_right_eq_some] at stepped
        obtain ⟨rfl, isNext⟩ := stepped
        cases isNext
        obtain ⟨rfl, isOnly, copying⟩ := (relaying direction).only isPending
        exact relaying.replace (.writeEnded .success) isOnly
          (Channel.Copying.copied copying)
      case h_2 => cases stepped
  | failWrite direction index =>
      simp only [Client.step] at stepped
      split at stepped
      case h_1 length written isPending =>
        cases stepped
        obtain ⟨rfl, isOnly, copying⟩ := (relaying direction).only isPending
        exact relaying.replace (.writeEnded .failure) isOnly
          ⟨length, written, copying⟩
      case h_2 => cases stepped
  | handle direction index =>
      simp only [Client.step, Option.bind_eq_some_iff] at stepped
      obtain ⟨operation, isPending, called⟩ := stepped
      obtain ⟨rfl, isOnly, fits⟩ := (relaying direction).only isPending
      cases operation with
      | read => cases called
      | readEnded ended length =>
          cases called
          exact relaying.handleRead isOnly fits
      | write length written => cases called
      | writeEnded ended =>
          cases called
          exact relaying.handleWrite isOnly fits

theorem relaying_startRead
    (data : Direction → Nat → UInt8)
    (dataLen : Direction → Nat) :
    (replied data dataLen).startRead.Relaying := by
  intro direction
  left
  cases direction with
  | source => exact ⟨.read, rfl, rfl⟩
  | dest => exact ⟨.read, rfl, rfl⟩

/-! ## What holds at every moment -/

/-- A write from the buffer of a direction is in flight. -/
def Writing
    (client : Client)
    (direction : Direction) : Prop :=
  ∃ length written,
    .write length written ∈ (client.channel direction).operations

/-- The event stores bytes into the buffer of a direction, or clears it. -/
def Touches
    (client : Client)
    (direction : Direction) :
    RelayEvent → Prop
  | .receive here _ _ => here = direction
  | .handle here index =>
      here = direction ∧ client.stopped = false ∧
        (client.channel direction).operations[index]? =
          some (.writeEnded .success)
  | _ => False

/-- `stop` is called because reading of a direction failed or reached its end. -/
def StopsReading
    (client : Client)
    (direction : Direction) :
    RelayEvent → Prop
  | .handle here index =>
      here = direction ∧ client.stopped = false ∧
        ∃ length,
          (client.channel direction).operations[index]? =
            some (.readEnded .failure length)
  | _ => False

/-- A direction whose only operation is not a write has no write in flight. -/
theorem not_writing_of_only
    {operation : Operation}
    (isOnly : (client.channel direction).operations = [operation])
    (notWrite : ∀ length written, operation ≠ .write length written) :
    ¬ client.Writing direction := by
  rintro ⟨length, written, member⟩
  rw [isOnly, List.mem_singleton] at member
  exact notWrite length written member.symm

theorem Relaying.not_writing_of_touches
    {event : RelayEvent}
    (relaying : client.Relaying)
    (stepped : client.Steps event next)
    (touches : client.Touches direction event) :
    ¬ client.Writing direction := by
  unfold Steps at stepped
  cases event with
  | receive here index bytes =>
      obtain rfl : here = direction := touches
      simp only [Client.step, Option.ite_none_right_eq_some] at stepped
      obtain ⟨⟨isPending, _⟩, _⟩ := stepped
      obtain ⟨_, isOnly, _⟩ := (relaying here).only isPending
      exact not_writing_of_only isOnly (by simp)
  | handle here index =>
      obtain ⟨rfl, _, isPending⟩ := touches
      obtain ⟨_, isOnly, _⟩ := (relaying here).only isPending
      exact not_writing_of_only isOnly (by simp)
  | failRead => cases touches
  | transfer => cases touches
  | finishWrite => cases touches
  | failWrite => cases touches

theorem Relaying.copied_of_stopsReading
    {event : RelayEvent}
    (relaying : client.Relaying)
    (stops : client.StopsReading direction event) :
    (client.channel direction).Copied := by
  cases event with
  | handle here index =>
      obtain ⟨rfl, _, _, isPending⟩ := stops
      obtain ⟨_, _, copied⟩ := (relaying here).only isPending
      exact copied
  | receive => cases stops
  | failRead => cases stops
  | transfer => cases stops
  | finishWrite => cases stops
  | failWrite => cases stops

/--
At every moment of every run, in both directions: the bytes handed over are a
prefix of the bytes read and lack at most the last chunk; the buffer is neither
read into nor cleared while a write from it is in flight; and when `stop` is
called because reading failed or reached the end, every byte read has been
handed over.
-/
theorem relay_keepsStreams
    {data : Direction → Nat → UInt8}
    {dataLen : Direction → Nat}
    {path : List (RelayEvent × Client)}
    (isPath : Path Steps (replied data dataLen).startRead path)
    (direction : Direction) :
    let client := lastState (replied data dataLen).startRead path
    let channel := client.channel direction
    channel.handed <+: channel.chunks.flatten ∧
      channel.chunks.dropLast.flatten <+: channel.handed ∧
      ∀ {event next},
        client.Steps event next →
        (client.Touches direction event → ¬ client.Writing direction) ∧
          (client.StopsReading direction event →
            channel.handed = channel.chunks.flatten) := by
  intro client channel
  have everywhere :
      EveryState Relaying (replied data dataLen).startRead path := by
    refine isPath.everyState ?_ (relaying_startRead data dataLen)
    intro client event next relaying stepped
    exact relaying.step stepped
  have relaying : client.Relaying := everywhere.last
  have upToOneChunk := (relaying direction).upToOneChunk
  refine ⟨upToOneChunk.isPrefix, upToOneChunk.lacksOne, ?_⟩
  intro event next stepped
  exact ⟨fun touches => relaying.not_writing_of_touches stepped touches,
    fun stops => relaying.copied_of_stopsReading stops⟩

/-- Three bytes are received and sent, then the requester closes its side. -/
def closingEvents : List RelayEvent :=
  [.receive .source 0 [71, 69, 84], .handle .source 0, .transfer .source 0 2,
    .receive .dest 0 [1], .transfer .source 0 1, .finishWrite .source 0,
    .handle .source 0, .failRead .source 0]

/-- The object when these events start. -/
def closingStart : Client :=
  (replied (fun _ _ => 7) (fun _ => 0)).startRead

/-- The run of these events. -/
def closingPath : List (RelayEvent × Client) :=
  (trace step closingStart closingEvents).getD []

/-- When the relay stops, the three bytes have been handed over. -/
theorem relay_keepsStreams_closing :
    ((lastState closingStart closingPath).channel .source).handed =
      [71, 69, 84] := by
  have isPath : Path Steps closingStart closingPath :=
    path_trace (by decide +kernel)
  obtain ⟨_, _, moment⟩ := relay_keepsStreams isPath .source
  obtain ⟨next, stepped⟩ :
      ∃ next, (lastState closingStart closingPath).Steps (.handle .source 0)
        next := by
    have possible :
        ((lastState closingStart closingPath).step
          (.handle .source 0)).isSome = true := by
      decide +kernel
    exact Option.isSome_iff_exists.mp possible
  refine ((moment stepped).2
    ⟨rfl, by decide +kernel, 0, by decide +kernel⟩).trans ?_
  decide +kernel

end Client

end NpServers.Socks
