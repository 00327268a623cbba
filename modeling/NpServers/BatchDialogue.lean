import NpServers.ConnectionReads
import NpServers.ConsoleClient

namespace NpServers.BatchSystem

open Console Shell TransitionPath

/-!
# A console session with the single-process server

The console sends the next line of its file when it has read a prompt, the server
sends a prompt when it has served a line.  The server takes whatever one `read`
returns for one line and forgets what follows a line end, so a console that sent two
lines at once would lose the second one.  It never does: line and prompt are one
token that goes back and forth.

The bytes on their way are a queue in each direction.  What the server itself writes
comes from `main`; the commands it has started write to the socket as well, at any
time.  The other clients of the server do what they like.
-/

/-- The console's client object, the server, and what is on its way between them. -/
@[ext]
structure BatchRun where
  client : Client
  loop : MainLoop
  received : List Char
  upstream : List Char
  downstream : List Char
  reads : List (List Char)

/-- What happens next. -/
inductive BatchAction where
  | server (action : MainAction)
  | commandWrites (text : List Char)
  | clientReads (length : Nat)
  | clientWritten
  | clientFails

/-- The bytes that the server has written to a connection. -/
def textOf
    (connection : Nat)
    (entries : List (Nat × Written)) : List Char :=
  (textsTo connection entries).flatMap fun what => what.text.toList

/-- The bytes that a line of the file is sent as. -/
def fileLine
    (lines : List (List Char))
    (index : Nat) : List Char :=
  lines.getD index [] ++ ['\n']

/-- Only prompts bring a `%`. -/
def Unprompted : Written → Prop
  | .welcome | .prompt => True
  | .announcement text | .answer text =>
      '%' ∉ text.toList ∧ nul ∉ text.toList

instance : DecidablePred Unprompted
  | .welcome | .prompt => .isTrue trivial
  | .announcement text | .answer text =>
      inferInstanceAs (Decidable ('%' ∉ text.toList ∧ nul ∉ text.toList))

namespace BatchRun

/-- The console has connected and the server has not noticed yet. -/
def start
    (environ : Environ)
    (lines : List (List Char)) : BatchRun where
  client := .start lines
  loop := .initial environ
  received := []
  upstream := []
  downstream := []
  reads := []

/-- What the console sees of it. -/
def dialogue (run : BatchRun) : Dialogue where
  client := run.client
  received := run.received
  downstream := run.downstream
  served := run.reads.length

/-- The server does something: it takes what it reads from the connection out of the
queue, where it has to be, and appends what it writes to it. -/
def serve
    (connection totalFdNum : Nat)
    (action : MainAction)
    (run : BatchRun) : Option BatchRun :=
  let reads := run.loop.readsOf connection totalFdNum action
  match run.loop.act totalFdNum action with
  | some loop =>
      if reads.flatten.isPrefixOf run.upstream then
        some
          { run with
            loop := loop
            upstream := run.upstream.drop reads.flatten.length
            downstream :=
              run.downstream ++
                textOf connection (loop.written.drop run.loop.written.length)
            reads := run.reads ++ reads }
      else
        none
  | none => none

/-- The console reads. -/
def read
    (length : Nat)
    (run : BatchRun) : BatchRun :=
  let chunk := run.downstream.take length
  let after := run.client.handleRead chunk
  { run with
    client := after
    received := run.received ++ chunk
    upstream := run.upstream ++ after.sent.drop run.client.sent.length
    downstream := run.downstream.drop length }

/-- One step, the console being the client of the connection. -/
def step
    (connection totalFdNum : Nat)
    (run : BatchRun) :
    BatchAction → Option BatchRun
  | .server action => run.serve connection totalFdNum action
  | .commandWrites text =>
      some { run with downstream := run.downstream ++ text }
  | .clientReads length =>
      if run.client.phase = .reading ∧ 0 < length ∧ length < maxLength ∧
          length ≤ run.downstream.length then
        some (run.read length)
      else
        none
  | .clientWritten =>
      if run.client.phase = .writing then
        some { run with client := run.client.handleWrite }
      else
        none
  | .clientFails =>
      if run.client.phase = .reading ∨ run.client.phase = .writing then
        some { run with client := run.client.stop }
      else
        none

/-- The step relation. -/
def Steps
    (connection totalFdNum : Nat)
    (run : BatchRun)
    (action : BatchAction)
    (next : BatchRun) : Prop :=
  run.step connection totalFdNum action = some next

theorem steps_read
    {connection totalFdNum length : Nat}
    {run : BatchRun}
    (isReading : run.client.phase = .reading)
    (positive : 0 < length)
    (short : length < maxLength)
    (isThere : length ≤ run.downstream.length) :
    run.Steps connection totalFdNum (.clientReads length) (run.read length) :=
  if_pos ⟨isReading, positive, short, isThere⟩

/-- What the server reads is the front of the queue. -/
theorem serve_eq_some
    {connection totalFdNum : Nat}
    {action : MainAction}
    {run next : BatchRun} :
    run.serve connection totalFdNum action = some next ↔
      ∃ loop left,
        run.loop.Steps totalFdNum action loop ∧
          (run.loop.readsOf connection totalFdNum action).flatten ++ left =
            run.upstream ∧
          next =
            { run with
              loop := loop
              upstream := left
              downstream :=
                run.downstream ++
                  textOf connection (loop.written.drop run.loop.written.length)
              reads :=
                run.reads ++ run.loop.readsOf connection totalFdNum action } := by
  unfold serve MainLoop.Steps
  dsimp only
  cases run.loop.act totalFdNum action with
  | none =>
      simp
  | some loop =>
      rw [Option.ite_none_right_eq_some, List.isPrefixOf_iff_prefix]
      constructor
      · rintro ⟨⟨left, isRead⟩, isNext⟩
        refine ⟨loop, left, rfl, isRead, ?_⟩
        rw [← isRead, List.drop_left] at isNext
        exact (Option.some.inj isNext).symm
      · rintro ⟨_, left, isLoop, isRead, rfl⟩
        cases isLoop
        rw [← isRead, List.drop_left]
        exact ⟨List.prefix_append _ _, rfl⟩

/-- The texts that an action of `main` writes to a connection. -/
def newTexts
    (connection totalFdNum : Nat)
    (loop : MainLoop)
    (action : MainAction) : List Written :=
  match loop.act totalFdNum action with
  | some next => textsTo connection (next.written.drop loop.written.length)
  | none => []

/--
Reads of the server do not end inside of a line, and only prompts bring a `%`.  The
server itself gives new clients free slots only, and runs no single command that
reads and writes the pipe of its client to itself.
-/
def Undisturbed
    (connection totalFdNum : Nat)
    (run : BatchRun) :
    BatchAction → Prop
  | .server action =>
      run.loop.TakesFreeSlot totalFdNum action ∧
        EveryStep MainLoop.NotSelfPiped run.loop.server
          (run.loop.actionPath totalFdNum action) ∧
        (∀ chunk ∈ run.loop.readsOf connection totalFdNum action,
          '\n' ∈ chunk) ∧
        ∀ what ∈ newTexts connection totalFdNum run.loop action,
          Unprompted what
  | .commandWrites text => '%' ∉ text ∧ nul ∉ text
  | .clientReads _ | .clientWritten | .clientFails => True

instance Undisturbed.decidable
    (connection totalFdNum : Nat)
    (run : BatchRun) :
    (action : BatchAction) →
      Decidable (Undisturbed connection totalFdNum run action)
  | .server action =>
      inferInstanceAs
        (Decidable
          (run.loop.TakesFreeSlot totalFdNum action ∧
            EveryStep MainLoop.NotSelfPiped run.loop.server
              (run.loop.actionPath totalFdNum action) ∧
            (∀ chunk ∈ run.loop.readsOf connection totalFdNum action,
              '\n' ∈ chunk) ∧
            ∀ what ∈ newTexts connection totalFdNum run.loop action,
              Unprompted what))
  | .commandWrites text =>
      inferInstanceAs (Decidable ('%' ∉ text ∧ nul ∉ text))
  | .clientReads _ | .clientWritten | .clientFails => .isTrue trivial

/-- The console and the server take turns. -/
structure TakesTurns
    (connection : Nat)
    (lines : List (List Char))
    (run : BatchRun) : Prop where
  sent : run.client.sent = transmitted lines (run.received.count '%')
  inOrder : run.reads = (List.range run.reads.length).map (fileLine lines)
  notAhead : run.reads.length ≤ run.received.count '%'
  atMostOne : run.received.count '%' ≤ run.reads.length + 1
  turn :
    connection ∈ run.loop.server.audience →
      run.downstream.count '%' + run.received.count '%' =
        run.reads.length + 1

/-! ## One line at a time -/

/-- Reads that do not end inside of a line return the one line that there is. -/
theorem reads_single
    {Symbol : Type}
    {ending : Symbol}
    {line left : List Symbol}
    {reads : List (List Symbol)}
    (oneLine : ending ∉ line)
    (isRead : reads.flatten ++ left = line ++ [ending])
    (whole : ∀ chunk ∈ reads, ending ∈ chunk) :
    reads = [] ∨ reads = [line ++ [ending]] := by
  cases reads with
  | nil =>
      exact .inl rfl
  | cons chunk rest =>
      refine .inr ?_
      obtain ⟨hasEnd, wholeRest⟩ := List.forall_mem_cons.mp whole
      rw [List.flatten_cons, List.append_assoc] at isRead
      have isPrefix : chunk <+: line ++ [ending] := ⟨_, isRead⟩
      have isChunk : chunk = line ++ [ending] := by
        rcases List.prefix_concat_iff.mp isPrefix with isWhole | inLine
        · exact isWhole
        · exact absurd (inLine.subset hasEnd) oneLine
      rw [isChunk, List.append_right_eq_self, List.append_eq_nil_iff] at isRead
      cases rest with
      | nil =>
          rw [isChunk]
      | cons later others =>
          obtain ⟨hasEndLater, _⟩ := List.forall_mem_cons.mp wholeRest
          have noLater : later = [] :=
            List.flatten_eq_nil_iff.mp isRead.1 later List.mem_cons_self
          rw [noLater] at hasEndLater
          exact absurd hasEndLater List.not_mem_nil

theorem transmitted_eq_flatten
    (lines : List (List Char))
    (count : Nat) :
    transmitted lines count =
      ((List.range count).map (fileLine lines)).flatten := by
  rw [← List.flatMap_def]
  rfl

section Served

variable {lines reads : List (List Char)}
variable {upstream left : List Char}
variable {count : Nat}

/-- If at most one line is on its way, reads take that line or nothing. -/
theorem reads_nextLine
    (areLines : ∀ line ∈ lines, IsInputLine line)
    {before : List (List Char)}
    (inOrder : before = (List.range before.length).map (fileLine lines))
    (flow : before.flatten ++ upstream = transmitted lines count)
    (notAhead : before.length ≤ count)
    (atMostOne : count ≤ before.length + 1)
    (isRead : reads.flatten ++ left = upstream)
    (whole : ∀ chunk ∈ reads, '\n' ∈ chunk) :
    reads = [] ∨ reads = [fileLine lines before.length] ∧ before.length < count := by
  generalize before.length = served at *
  rw [inOrder, ← transmitted_eq_flatten] at flow
  rcases Nat.eq_or_lt_of_le notAhead with allServed | waits
  · subst allServed
    rw [List.append_right_eq_self] at flow
    rw [flow, List.append_eq_nil_iff] at isRead
    refine .inl (List.eq_nil_iff_forall_not_mem.mpr ?_)
    intro chunk member
    have noChunk := List.flatten_eq_nil_iff.mp isRead.1 chunk member
    have hasEnd := whole chunk member
    rw [noChunk] at hasEnd
    exact List.not_mem_nil hasEnd
  · have isNext : count = served + 1 := by
      omega
    subst isNext
    rw [transmitted_succ, List.append_cancel_left_eq] at flow
    rw [flow] at isRead
    have oneLine := (isInputLine_getD areLines served).noNewline
    exact (reads_single oneLine isRead whole).imp_right fun isLine =>
      ⟨isLine, waits⟩

end Served

theorem welcome_unprompted :
    '%' ∉ welcomeMsg.toList ∧ nul ∉ welcomeMsg.toList := by
  decide +kernel

/-- The prompts among the bytes that the server writes. -/
theorem count_textOf
    {connection : Nat}
    {entries : List (Nat × Written)}
    (unprompted : ∀ what ∈ textsTo connection entries, Unprompted what) :
    (textOf connection entries).count '%' =
        (textsTo connection entries).count .prompt ∧
      nul ∉ textOf connection entries := by
  unfold textOf
  generalize textsTo connection entries = texts at unprompted ⊢
  induction texts with
  | nil =>
      exact ⟨rfl, List.not_mem_nil⟩
  | cons what rest inductionHypothesis =>
      obtain ⟨isUnprompted, areUnprompted⟩ := List.forall_mem_cons.mp unprompted
      obtain ⟨sameCount, noNul⟩ := inductionHypothesis areUnprompted
      rw [List.flatMap_cons, List.count_append, sameCount, List.mem_append,
        not_or]
      cases what with
      | welcome =>
          have noPrompt := List.count_eq_zero.mpr welcome_unprompted.1
          refine ⟨?_, welcome_unprompted.2, noNul⟩
          change welcomeMsg.toList.count '%' + _ = _
          simp [noPrompt]
      | prompt =>
          refine ⟨?_, by decide, noNul⟩
          have onePrompt : Written.prompt.text.toList.count '%' = 1 := by
            decide
          simp [onePrompt, Nat.add_comm]
      | announcement text =>
          have noPrompt := List.count_eq_zero.mpr isUnprompted.1
          refine ⟨?_, isUnprompted.2, noNul⟩
          change text.toList.count '%' + _ = _
          simp [noPrompt]
      | answer text =>
          have noPrompt := List.count_eq_zero.mpr isUnprompted.1
          refine ⟨?_, isUnprompted.2, noNul⟩
          change text.toList.count '%' + _ = _
          simp [noPrompt]

/-! ## The invariant of a run -/

/-- The books of the server agree with what the console has read and sent. -/
structure InTurn
    (connection : Nat)
    (lines : List (List Char))
    (run : BatchRun) : Prop where
  books : run.loop.Books connection run.reads
  prompts :
    (run.received ++ run.downstream).count '%' =
      (textsTo connection run.loop.written).count .prompt
  lockStep : LockStep lines run.dialogue
  inOrder : run.reads = (List.range run.reads.length).map (fileLine lines)
  flow : run.reads.flatten ++ run.upstream = run.client.sent

section Steps

variable {connection totalFdNum : Nat}
variable {lines : List (List Char)}
variable {run next : BatchRun}

theorem inTurn_start
    (connection : Nat)
    (environ : Environ)
    (lines : List (List Char)) :
    InTurn connection lines (start environ lines) where
  books := MainLoop.books_initial connection environ
  prompts := rfl
  lockStep := lockStep_start lines
  inOrder := rfl
  flow := rfl

/-- Whoever does not write brings no prompt. -/
theorem prompted_of_silent
    {dialogue : Dialogue}
    {action : DialogueAction}
    (silent : ∀ text, action ≠ .serverSends text) :
    dialogue.Prompted action :=
  fun text isText => absurd isText (silent text)

/-- A step of the console or of a command. -/
theorem InTurn.of_dialogue
    (areLines : ∀ line ∈ lines, IsInputLine line)
    (inTurn : InTurn connection lines run)
    (action : DialogueAction)
    (prompted : run.dialogue.Prompted action)
    (stepped : run.dialogue.Step action next.dialogue)
    (sameLoop : next.loop = run.loop)
    (sameReads : next.reads = run.reads)
    (samePrompts :
      (next.received ++ next.downstream).count '%' =
        (run.received ++ run.downstream).count '%')
    (flow : next.reads.flatten ++ next.upstream = next.client.sent) :
    InTurn connection lines next where
  books := by
    rw [sameLoop, sameReads]
    exact inTurn.books
  prompts := by
    rw [samePrompts, sameLoop]
    exact inTurn.prompts
  lockStep := inTurn.lockStep.step areLines prompted stepped
  inOrder := by
    rw [sameReads]
    exact inTurn.inOrder
  flow := flow

/-- The console only adds to what it has sent. -/
theorem sent_handleRead
    (client : Client)
    (chunk : List Char) :
    client.sent <+: (client.handleRead chunk).sent := by
  unfold Client.handleRead
  cases dataString chunk with
  | none =>
      exact List.prefix_refl _
  | some data =>
      dsimp only
      split_ifs
      · exact List.prefix_append _ _
      · exact List.prefix_refl _

/-- The server reads the line that is there, or nothing. -/
theorem InTurn.readsLine
    (areLines : ∀ line ∈ lines, IsInputLine line)
    (inTurn : InTurn connection lines run)
    {reads : List (List Char)}
    {left : List Char}
    (isRead : reads.flatten ++ left = run.upstream)
    (whole : ∀ chunk ∈ reads, '\n' ∈ chunk) :
    reads = [] ∨
      reads = [fileLine lines run.reads.length] ∧
        run.reads.length < run.received.count '%' := by
  have isSent := inTurn.lockStep.paced.sent
  change run.client.sent = transmitted lines (run.received.count '%') at isSent
  have waiting := inTurn.lockStep.waiting
  change (run.received ++ run.downstream).count '%' ≤ run.reads.length + 1
    at waiting
  rw [List.count_append] at waiting
  exact reads_nextLine areLines inTurn.inOrder (inTurn.flow.trans isSent)
    inTurn.lockStep.served (by omega) isRead whole

/-- The console sees that the server takes what it has read. -/
theorem InTurn.lockStep_taken
    (areLines : ∀ line ∈ lines, IsInputLine line)
    (inTurn : InTurn connection lines run)
    {reads : List (List Char)}
    (taken :
      reads = [] ∨
        reads = [fileLine lines run.reads.length] ∧
          run.reads.length < run.received.count '%') :
    LockStep lines { run.dialogue with served := (run.reads ++ reads).length } := by
  rcases taken with isNone | ⟨isLine, waits⟩
  · rw [isNone, List.append_nil]
    exact inTurn.lockStep
  · rw [isLine, List.length_append]
    have isSent := inTurn.lockStep.paced.sent
    change run.client.sent = transmitted lines (run.received.count '%') at isSent
    have isPrompted : run.dialogue.Prompted .serverReceives :=
      prompted_of_silent nofun
    have isStep :
        run.dialogue.Step .serverReceives
          { run.dialogue with served := run.reads.length + 1 } := by
      refine ⟨?_, rfl⟩
      change run.reads.length < run.client.sent.count '\n'
      rw [isSent, count_newline_transmitted areLines]
      exact waits
    exact inTurn.lockStep.step areLines isPrompted isStep

/-- The new texts are those behind the old ones. -/
theorem newTexts_eq
    {action : MainAction}
    {loop after : MainLoop}
    {entries : List (Nat × Written)}
    (stepped : loop.act totalFdNum action = some after)
    (isWritten : loop.written ++ entries = after.written) :
    newTexts connection totalFdNum loop action = textsTo connection entries := by
  unfold newTexts
  rw [stepped]
  dsimp only
  rw [← isWritten, List.drop_left]

/-- The server takes the line that is there, if any, and sends at most one prompt
for it. -/
theorem InTurn.serve
    (areLines : ∀ line ∈ lines, IsInputLine line)
    (inTurn : InTurn connection lines run)
    {action : MainAction}
    (undisturbed : run.Undisturbed connection totalFdNum (.server action))
    (served : run.serve connection totalFdNum action = some next) :
    InTurn connection lines next := by
  obtain ⟨freeSlot, notSelf, whole, unprompted⟩ := undisturbed
  obtain ⟨loop, left, stepped, isRead, rfl⟩ := serve_eq_some.mp served
  obtain ⟨⟨entries, isWritten⟩, books⟩ := inTurn.books.act stepped freeSlot notSelf
  rw [newTexts_eq stepped isWritten] at unprompted
  obtain ⟨sameCount, noNul⟩ := count_textOf unprompted
  have taken := inTurn.readsLine areLines isRead whole
  have isNew : loop.written.drop run.loop.written.length = entries := by
    rw [← isWritten, List.drop_left]
  have prompts :
      (run.received ++ (run.downstream ++ textOf connection entries)).count '%' =
        (textsTo connection loop.written).count .prompt := by
    rw [← List.append_assoc, List.count_append, inTurn.prompts, sameCount,
      ← isWritten, textsTo_append, List.count_append]
  have received := inTurn.lockStep_taken areLines taken
  have inOrder := inTurn.inOrder
  have flow := inTurn.flow
  rw [isNew]
  generalize run.loop.readsOf connection totalFdNum action = reads at *
  refine ⟨books, prompts, ?_, ?_, ?_⟩
  · have isPrompted :
        Dialogue.Prompted
          { run.dialogue with served := (run.reads ++ reads).length }
          (.serverSends (textOf connection entries)) := by
      intro text isText
      cases isText
      change
        (run.received ++ run.downstream ++
              textOf connection entries).count '%' ≤
          (run.reads ++ reads).length + 1
      rw [List.append_assoc, prompts]
      exact books.prompts.1
    exact received.step areLines isPrompted ⟨noNul, rfl⟩
  · rcases taken with isNone | ⟨isLine, _⟩
    · rw [isNone, List.append_nil]
      exact inOrder
    · rw [isLine, List.length_append, List.length_singleton, List.range_succ,
        List.map_append, ← inOrder]
      rfl
  · rw [List.flatten_append, List.append_assoc, isRead]
    exact flow

/-- Every step keeps the turns. -/
theorem InTurn.step
    (areLines : ∀ line ∈ lines, IsInputLine line)
    (inTurn : InTurn connection lines run)
    {action : BatchAction}
    (undisturbed : run.Undisturbed connection totalFdNum action)
    (stepped : run.Steps connection totalFdNum action next) :
    InTurn connection lines next := by
  cases action with
  | server action =>
      exact inTurn.serve areLines undisturbed stepped
  | commandWrites text =>
      cases stepped
      have noPrompt := List.count_eq_zero.mpr undisturbed.1
      have samePrompts :
          (run.received ++ (run.downstream ++ text)).count '%' =
            (run.received ++ run.downstream).count '%' := by
        rw [← List.append_assoc, List.count_append, noPrompt, Nat.add_zero]
      have isPrompted : run.dialogue.Prompted (.serverSends text) := by
        intro sent isText
        cases isText
        change (run.received ++ run.downstream ++ text).count '%' ≤ _
        rw [List.append_assoc, samePrompts]
        exact inTurn.lockStep.waiting
      exact inTurn.of_dialogue areLines (.serverSends text) isPrompted
        ⟨undisturbed.2, rfl⟩ rfl rfl samePrompts inTurn.flow
  | clientReads length =>
      obtain ⟨⟨isReading, positive, short, isThere⟩, isNext⟩ :=
        Option.ite_none_right_eq_some.mp stepped
      cases isNext
      obtain ⟨more, isMore⟩ :=
        sent_handleRead run.client (run.downstream.take length)
      refine inTurn.of_dialogue areLines (.clientReads length)
        (prompted_of_silent nofun) ⟨isReading, positive, short, isThere, rfl⟩ rfl
        rfl ?_ ?_
      · change
          (run.received ++ run.downstream.take length ++
              run.downstream.drop length).count '%' = _
        rw [List.append_assoc, List.take_append_drop]
      · unfold BatchRun.read
        dsimp only
        rw [← isMore, List.drop_left, ← List.append_assoc, inTurn.flow]
  | clientWritten =>
      obtain ⟨isWriting, isNext⟩ := Option.ite_none_right_eq_some.mp stepped
      cases isNext
      exact inTurn.of_dialogue areLines .clientWritten
        (prompted_of_silent nofun) ⟨isWriting, rfl⟩ rfl rfl rfl inTurn.flow
  | clientFails =>
      obtain ⟨isOpen, isNext⟩ := Option.ite_none_right_eq_some.mp stepped
      cases isNext
      exact inTurn.of_dialogue areLines .clientFails
        (prompted_of_silent nofun) ⟨isOpen, rfl⟩ rfl rfl rfl inTurn.flow

theorem InTurn.takesTurns
    (inTurn : InTurn connection lines run) :
    TakesTurns connection lines run := by
  have waiting := inTurn.lockStep.waiting
  change (run.received ++ run.downstream).count '%' ≤ run.reads.length + 1
    at waiting
  have prompts := inTurn.prompts
  rw [List.count_append] at waiting prompts
  exact
    { sent := inTurn.lockStep.paced.sent
      inOrder := inTurn.inOrder
      notAhead := inTurn.lockStep.served
      atMostOne := (Nat.le_add_right _ _).trans waiting
      turn := fun isPresent => by
        rw [Nat.add_comm, prompts]
        exact inTurn.books.prompts.2 isPresent }

theorem inTurn_run
    (environ : Environ)
    (areLines : ∀ line ∈ lines, IsInputLine line)
    {path : List (BatchAction × BatchRun)}
    (isPath : Path (Steps connection totalFdNum) (start environ lines) path)
    (undisturbed :
      EveryStep (Undisturbed connection totalFdNum) (start environ lines) path) :
    EveryState (InTurn connection lines) (start environ lines) path := by
  refine
    Path.everyState_of_everyStep ?_ (inTurn_start connection environ lines) isPath
      undisturbed
  intro run action next inTurn condition stepped
  exact inTurn.step areLines condition stepped

end Steps

/-- A file with one line, and a server without other clients. -/
def whoRun : BatchRun :=
  start (fun _ => none) ["who".toList]

/-- The server accepts the console, which reads everything and sends its line; then
it sends an empty line for the next prompt. -/
def whoActions : List BatchAction :=
  [.server
      (MainLoop.quietRound
        (some { sinAddr := "10.0.0.1", sinPort := 40001 }) []),
    .clientReads 179, .clientWritten,
    .server (MainLoop.quietRound none [(4, "who\n")]), .clientReads 92]

/-- The run of these actions. -/
@[irreducible] def actionsPath
    (connection totalFdNum : Nat)
    (run : BatchRun)
    (actions : List BatchAction) : List (BatchAction × BatchRun) :=
  (trace (step connection totalFdNum) run actions).getD []

theorem path_actionsPath
    {connection totalFdNum : Nat}
    {run : BatchRun}
    {actions : List BatchAction}
    (completes :
      (trace (step connection totalFdNum) run actions).isSome = true) :
    Path (Steps connection totalFdNum) run
      (actionsPath connection totalFdNum run actions) := by
  unfold actionsPath
  exact path_trace completes

def whoPath : List (BatchAction × BatchRun) :=
  actionsPath 0 8 whoRun whoActions

end BatchRun

end NpServers.BatchSystem
