import NpServers.MailboxToken

namespace NpServers.MultiProc

open Shell TransitionPath

/-!
# Delivery through a mailbox

A letter is in a mailbox from the moment its sender holds the lock until the
handler of the receiver has answered its signal.  The records of the machine
say which letters were acquired for an id, in which order, and which signals
were sent to a process.  At every moment a session has used all letters that
were signalled to it but at most the last one, which is still in its mailbox.
-/

/-- The texts announced by `SIGUSR1`, in order. -/
def mailOf
    (letters : List Letter) : List String :=
  (letters.filter fun letter => letter.signal == .usr1).map Letter.text

/-- The fifos announced by `SIGUSR2`, in order, each with the id of its sender. -/
def fifosOf
    (letters : List Letter) : List (Nat × String) :=
  (letters.filter fun letter => letter.signal == .usr2).map fun letter =>
    (letter.fromId, letter.text)

theorem mailOf_concat_usr1
    {letter : Letter}
    (kind : letter.signal = .usr1)
    (letters : List Letter) :
    mailOf (letters ++ [letter]) = mailOf letters ++ [letter.text] := by
  simp [mailOf, kind]

theorem mailOf_concat_usr2
    {letter : Letter}
    (kind : letter.signal = .usr2)
    (letters : List Letter) :
    mailOf (letters ++ [letter]) = mailOf letters := by
  simp [mailOf, kind]

theorem fifosOf_concat_usr1
    {letter : Letter}
    (kind : letter.signal = .usr1)
    (letters : List Letter) :
    fifosOf (letters ++ [letter]) = fifosOf letters := by
  simp [fifosOf, kind]

theorem fifosOf_concat_usr2
    {letter : Letter}
    (kind : letter.signal = .usr2)
    (letters : List Letter) :
    fifosOf (letters ++ [letter]) =
      fifosOf letters ++ [(letter.fromId, letter.text)] := by
  simp [fifosOf, kind]

/-- The process has written and registered exactly these letters. -/
def Process.Used
    (proc : Process)
    (letters : List Letter) : Prop :=
  proc.stopped = false →
    proc.mailTexts = mailOf letters ∧ proc.registered = fifosOf letters

/--
Where a process is with its last letter; the flag says whether the letter has
been used.
-/
inductive Process.Answers
    (proc : Process)
    (letter : Letter) :
    Bool → Prop
  | pending
      (frames : proc.frames = [])
      (only : ∀ signal, proc.pending signal = true ↔ signal = letter.signal) :
      Process.Answers proc letter false
  | msgHandler
      (frames : proc.frames = [.msgHandler])
      (none : ∀ signal, proc.pending signal = false)
      (kind : letter.signal = .usr1) :
      Process.Answers proc letter false
  | userPipeHandler
      (frames : proc.frames = [.userPipeHandler])
      (none : ∀ signal, proc.pending signal = false)
      (kind : letter.signal = .usr2) :
      Process.Answers proc letter false
  | openGarbage
      (frames : proc.frames = [.openGarbage])
      (none : ∀ signal, proc.pending signal = false)
      (stopped : proc.stopped = true) :
      Process.Answers proc letter false
  | openMailbox
      (frames : proc.frames = [.openMailbox letter.fromId])
      (none : ∀ signal, proc.pending signal = false)
      (kind : letter.signal = .usr2) :
      Process.Answers proc letter false
  | storePipe
      (fd : Nat)
      (frames : proc.frames = [.storePipe letter.fromId letter.text fd])
      (none : ∀ signal, proc.pending signal = false)
      (kind : letter.signal = .usr2) :
      Process.Answers proc letter false
  | post
      (frames : proc.frames = [.post])
      (none : ∀ signal, proc.pending signal = false) :
      Process.Answers proc letter true

/-- The mailbox holds this letter. -/
def ClientInfor.Contains
    (client : ClientInfor)
    (letter : Letter) : Prop :=
  client.mailbox = letter.text ∧
    (letter.signal = .usr2 → client.fromId = letter.fromId)

/--
A process and its letters: nothing is underway and all letters are used, or the
last letter is underway and still in the mailbox.
-/
inductive Receiving
    (client : ClientInfor)
    (acquired : List Letter)
    (proc : Process) :
    Prop
  | idle
      (unsignalled : proc.Unsignalled)
      (inOrder : proc.signalled.Sublist acquired)
      (used : proc.Used proc.signalled)
  | underway
      (before earlier : List Letter)
      (letter : Letter)
      (isUsed : Bool)
      (last : acquired = before ++ [letter])
      (lastSignalled : proc.signalled = earlier ++ [letter])
      (inOrder : earlier.Sublist before)
      (contains : client.Contains letter)
      (answers : proc.Answers letter isUsed)
      (used : proc.Used (if isUsed then proc.signalled else earlier))

namespace Receiving

variable {client client' : ClientInfor}
variable {acquired acquired' : List Letter}
variable {proc proc' : Process}

/-- A process with nothing underway has used all its letters. -/
theorem of_unsignalled
    (receiving : Receiving client acquired proc)
    (unsignalled : proc.Unsignalled) :
    proc.signalled.Sublist acquired ∧ proc.Used proc.signalled := by
  cases receiving with
  | idle _ inOrder used => exact ⟨inOrder, used⟩
  | underway before earlier letter isUsed last lastSignalled inOrder contains
      answers used =>
      obtain ⟨noFrames, noPending⟩ := unsignalled
      cases answers with
      | pending _ only =>
          have isPending := (only letter.signal).mpr rfl
          rw [noPending] at isPending
          cases isPending
      | msgHandler frames | userPipeHandler frames | openGarbage frames
      | openMailbox frames | storePipe fd frames | post frames =>
          rw [noFrames] at frames
          cases frames

/-- The signals of a process are among the acquired letters, in their order. -/
theorem inOrder
    (receiving : Receiving client acquired proc) :
    proc.signalled.Sublist acquired := by
  cases receiving with
  | idle _ inOrder _ => exact inOrder
  | underway before earlier letter isUsed last lastSignalled inOrder contains
      answers used =>
      rw [last, lastSignalled]
      exact inOrder.append (List.Sublist.refl _)

/-- A letter underway is a signal still to be answered. -/
theorem answers_owes
    {letter : Letter}
    {isUsed : Bool}
    (running : proc.running = true)
    (answers : proc.Answers letter isUsed) :
    0 < proc.owes proc.id := by
  simp only [Process.owes, running, and_self, if_true]
  cases answers with
  | pending _ only =>
      have isPending := (only letter.signal).mpr rfl
      cases signal : letter.signal with
      | usr1 | usr2 =>
          rw [signal] at isPending
          simp [isPending]
  | msgHandler frames | userPipeHandler frames | openGarbage frames
  | openMailbox frames | storePipe fd frames | post frames =>
      simp [frames]

theorem answers_congr
    {letter : Letter}
    {isUsed : Bool}
    (same : SameSignals proc proc')
    (stopped : proc.stopped = true → proc'.stopped = true)
    (answers : proc.Answers letter isUsed) :
    proc'.Answers letter isUsed := by
  cases answers with
  | pending frames only =>
      exact .pending (same.frames.trans frames) (same.pending ▸ only)
  | msgHandler frames none kind =>
      exact .msgHandler (same.frames.trans frames) (same.pending ▸ none) kind
  | userPipeHandler frames none kind =>
      exact .userPipeHandler (same.frames.trans frames) (same.pending ▸ none)
        kind
  | openGarbage frames none isStopped =>
      exact .openGarbage (same.frames.trans frames) (same.pending ▸ none)
        (stopped isStopped)
  | openMailbox frames none kind =>
      exact .openMailbox (same.frames.trans frames) (same.pending ▸ none) kind
  | storePipe fd frames none kind =>
      exact .storePipe fd (same.frames.trans frames) (same.pending ▸ none) kind
  | post frames none =>
      exact .post (same.frames.trans frames) (same.pending ▸ none)

theorem used_congr
    {letters : List Letter}
    (same : SameSignals proc proc')
    (used : proc.Used letters) :
    proc'.Used letters := by
  intro notStopped
  rw [same.mailTexts, same.registered]
  exact used (same.stopped notStopped)

/-- What a process receives does not depend on its statements outside handlers. -/
theorem congr
    (receiving : Receiving client acquired proc)
    (same : SameSignals proc proc')
    (grows : acquired.Sublist acquired')
    (kept :
      ∀ letter isUsed, proc.Answers letter isUsed →
        acquired' = acquired ∧ client'.mailbox = client.mailbox ∧
          client'.fromId = client.fromId) :
    Receiving client' acquired' proc' := by
  have stopped : proc.stopped = true → proc'.stopped = true := by
    intro isStopped
    by_contra notStopped
    rw [Bool.not_eq_true] at notStopped
    rw [same.stopped notStopped] at isStopped
    cases isStopped
  cases receiving with
  | idle unsignalled inOrder used =>
      refine .idle ?_ ?_ ?_
      · exact ⟨same.frames.trans unsignalled.1, same.pending ▸ unsignalled.2⟩
      · rw [same.signalled]
        exact inOrder.trans grows
      · rw [same.signalled]
        exact used_congr same used
  | underway before earlier letter isUsed last lastSignalled inOrder contains
      answers used =>
      obtain ⟨sameAcquired, sameMailbox, sameFrom⟩ := kept letter isUsed answers
      refine .underway before earlier letter isUsed (sameAcquired.trans last)
        (same.signalled.trans lastSignalled) inOrder ?_
        (answers_congr same stopped answers) ?_
      · exact ⟨sameMailbox.trans contains.1,
          fun kind => sameFrom.trans (contains.2 kind)⟩
      · rw [same.signalled]
        exact used_congr same used

/-- A pending signal starts its handler. -/
theorem interrupt
    {signal : Signal}
    (receiving : Receiving client acquired proc)
    (pending : proc.pending signal = true) :
    Receiving client acquired (proc.interrupt signal) := by
  cases receiving with
  | idle unsignalled inOrder used =>
      rw [unsignalled.2] at pending
      cases pending
  | underway before earlier letter isUsed last lastSignalled inOrder contains
      answers used =>
      cases answers with
      | pending frames only =>
          have kind : signal = letter.signal := (only signal).mp pending
          have none :
              ∀ other, (proc.interrupt signal).pending other = false := by
            intro other
            by_cases here : other = signal
            · simp [Process.interrupt, here]
            · have notPending : ¬ proc.pending other = true := by
                rw [only, ← kind]
                exact here
              simpa [Process.interrupt, Function.update_of_ne here]
                using notPending
          refine .underway before earlier letter false last lastSignalled
            inOrder contains ?_ used
          cases signal with
          | usr1 =>
              exact .msgHandler (by simp [Process.interrupt, frames,
                Signal.handler]) none kind.symm
          | usr2 =>
              exact .userPipeHandler (by simp [Process.interrupt, frames,
                Signal.handler]) none kind.symm
      | msgHandler _ none | userPipeHandler _ none | openGarbage _ none
      | openMailbox _ none | storePipe _ _ none | post _ none =>
          rw [none] at pending
          cases pending

/-- The statements of a handler use the letter and then give up the mailbox. -/
theorem handle
    {canOpen : String → Bool}
    {fd : Nat}
    {common common' : Common}
    (receiving :
      Receiving (common.client proc.id) (common.acquired proc.id) proc)
    (steps : handlerStep canOpen fd common proc = some (common', proc')) :
    Receiving (common'.client proc'.id) (common'.acquired proc'.id) proc' := by
  cases receiving with
  | idle unsignalled inOrder used =>
      simp [handlerStep, unsignalled.1] at steps
  | underway before earlier letter isUsed last lastSignalled inOrder contains
      answers used =>
      cases answers with
      | pending frames only =>
          simp [handlerStep, frames] at steps
      | msgHandler frames none kind =>
          simp only [handlerStep, frames] at steps
          split at steps
          case isTrue stopped =>
            cases steps
            refine .underway before earlier letter true last lastSignalled
              inOrder contains (.post rfl none) ?_
            intro notStopped
            rw [stopped] at notStopped
            cases notStopped
          case isFalse =>
            cases steps
            refine .underway before earlier letter true last lastSignalled
              inOrder contains (.post rfl none) ?_
            intro notStopped
            obtain ⟨texts, pipes⟩ := used notStopped
            simp only [if_true, lastSignalled, mailOf_concat_usr1 kind,
              fifosOf_concat_usr1 kind]
            refine ⟨?_, pipes⟩
            rw [← contains.1]
            simpa [Process.mailTexts] using texts
      | userPipeHandler frames none kind =>
          simp only [handlerStep, frames] at steps
          split at steps
          case isTrue stopped =>
            cases steps
            exact .underway before earlier letter false last lastSignalled
              inOrder contains (.openGarbage rfl none stopped) used
          case isFalse =>
            cases steps
            refine .underway before earlier letter false last lastSignalled
              inOrder contains (.openMailbox ?_ none kind) used
            rw [contains.2 kind]
      | openGarbage frames none stopped =>
          simp only [handlerStep, frames] at steps
          split at steps
          case isTrue =>
            cases steps
            refine .underway before earlier letter true last lastSignalled
              inOrder contains (.post rfl none) ?_
            intro notStopped
            change proc.stopped = false at notStopped
            rw [stopped] at notStopped
            cases notStopped
          case isFalse => cases steps
      | openMailbox frames none kind =>
          simp only [handlerStep, frames] at steps
          split at steps
          case isTrue =>
            cases steps
            refine .underway before earlier letter false last lastSignalled
              inOrder contains (.storePipe fd ?_ none kind) used
            rw [contains.1]
          case isFalse => cases steps
      | storePipe stored frames none kind =>
          simp only [handlerStep, frames] at steps
          cases steps
          refine .underway before earlier letter true last lastSignalled
            inOrder ?_ (.post rfl none) ?_
          · rw [Common.client_setClient_self]
            exact contains
          · intro notStopped
            obtain ⟨texts, pipes⟩ := used notStopped
            simp only [if_true, lastSignalled, mailOf_concat_usr2 kind,
              fifosOf_concat_usr2 kind]
            refine ⟨texts, ?_⟩
            rw [pipes]
            rfl
      | post frames none =>
          simp only [handlerStep, frames] at steps
          cases steps
          refine .idle ⟨rfl, none⟩ ?_ used
          change proc.signalled.Sublist (common.acquired proc.id)
          rw [last, lastSignalled]
          exact inOrder.append (List.Sublist.refl _)

/-- The signal for a letter in the mailbox arrives at an idle process. -/
theorem receive
    {before : List Letter}
    {letter : Letter}
    (running : proc.running = true)
    (receiving : Receiving client acquired proc)
    (unsignalled : proc.Unsignalled)
    (last : acquired = before ++ [letter])
    (inOrder : proc.signalled.Sublist before)
    (contains : client.Contains letter) :
    Receiving client acquired (proc.receive letter) := by
  have used := (receiving.of_unsignalled unsignalled).2
  simp only [Process.receive, running, if_true]
  refine .underway before proc.signalled letter false last rfl inOrder contains
    (.pending unsignalled.1 ?_) used
  intro signal
  by_cases here : signal = letter.signal
  · simp [here]
  · simp [unsignalled.2, here]

end Receiving

/-! ## What others can do to a mailbox -/

/-- Statements outside the handlers only add to the acquired letters. -/
theorem mainStep_acquired
    {self : Nat}
    {canOpen : String → Bool}
    {common common' : Common}
    {proc proc' : Process}
    (steps : mainStep self canOpen common proc = some (common', proc'))
    (i : Nat) :
    (common.acquired i).Sublist (common'.acquired i) := by
  rcases mainStep_cases steps with quiet | ⟨target, _, _, stage, _, _, sends⟩
  · rw [quiet.acquired]
  · cases stage with
    | wait =>
        simp only [sendStep] at sends
        split at sends
        case isTrue =>
          cases sends
          by_cases here : i = target
          · subst here
            simp [Common.acquire]
          · simp [Common.acquire, Function.update_of_ne here]
        case isFalse => cases sends
    | check =>
        simp only [sendStep] at sends
        split at sends <;> cases sends <;> exact List.Sublist.refl _
    | copy | mark | release =>
        simp only [sendStep] at sends
        cases sends
        exact List.Sublist.refl _
    | kill => cases sends

/--
While the lock of a mailbox is taken by somebody else, a statement leaves the
mailbox alone.
-/
theorem mainStep_mailbox_kept
    {self : Nat}
    {canOpen : String → Bool}
    {common common' : Common}
    {proc proc' : Process}
    {i : Nat}
    (steps : mainStep self canOpen common proc = some (common', proc'))
    (taken : (common.client i).lock = 0)
    (notHeld : proc.code.held ≠ some i) :
    common'.acquired i = common.acquired i ∧
      (common'.client i).mailbox = (common.client i).mailbox ∧
      (common'.client i).fromId = (common.client i).fromId := by
  rcases mainStep_cases steps with
    quiet | ⟨target, signal, text, stage, after, code, sends⟩
  · have mail := quiet.mail i
    simp only [ClientInfor.mail, Prod.mk.injEq] at mail
    exact ⟨by rw [quiet.acquired], mail.2⟩
  · cases stage with
    | wait =>
        simp only [sendStep] at sends
        split at sends
        case isTrue free =>
          cases sends
          have different : i ≠ target := by
            rintro rfl
            omega
          rw [Common.client_acquire, Common.client_setClient_of_ne different]
          simp [Common.acquire, Function.update_of_ne different]
        case isFalse => cases sends
    | check =>
        simp only [sendStep] at sends
        split at sends <;> cases sends <;> exact ⟨rfl, rfl, rfl⟩
    | copy | mark | release =>
        have different : i ≠ target := by
          rintro rfl
          exact notHeld (by rw [code]; rfl)
        simp only [sendStep] at sends
        cases sends
        simp [Common.post, Common.client_setClient_of_ne different]
    | kill => cases sends

/-! ## The invariant of delivery -/

/-- A sender with a mailbox in its hands, at one of its stages. -/
structure Sending
    (machine : Machine)
    (pid target : Nat)
    (signal : Signal)
    (text : String)
    (stage : SendStage) : Prop where
  last :
    ∃ before,
      machine.common.acquired target =
          before ++ [⟨pid, (machine.procs pid).id, signal, text⟩] ∧
        ∀ receiver ∈ machine.forked,
          (machine.procs receiver).code.unnamed = false →
          (machine.procs receiver).running = true →
          (machine.procs receiver).id = target →
            (machine.procs receiver).signalled.Sublist before
  copied :
    stage ≠ .copy → (machine.common.client target).mailbox = text
  marked :
    signal = .usr2 → stage ≠ .copy → stage ≠ .mark →
      (machine.common.client target).fromId = (machine.procs pid).id

/-- No letter has reached the process. -/
def Process.NoLetters
    (proc : Process) : Prop :=
  proc.signalled = [] ∧ proc.mailTexts = [] ∧ proc.registered = []

/-- Every letter is with its sender, with its receiver, or used. -/
structure Delivering
    (machine : Machine) : Prop where
  wired : Wired machine
  atMostOne : ∀ i, i ∈ clientIds → machine.tokens i ≤ 1
  sending :
    ∀ pid ∈ machine.forked, ∀ target signal text stage after,
      (machine.procs pid).code = .send target signal text stage after →
      stage ≠ .wait → target ∈ clientIds →
        Sending machine pid target signal text stage
  receiving :
    ∀ pid ∈ machine.forked,
      (machine.procs pid).running = true →
      (machine.procs pid).code.unnamed = false →
        Receiving (machine.common.client (machine.procs pid).id)
          (machine.common.acquired (machine.procs pid).id) (machine.procs pid)
  fresh :
    ∀ pid ∈ machine.forked,
      (machine.procs pid).code.unnamed = true → (machine.procs pid).NoLetters
  authors :
    ∀ i, ∀ letter ∈ machine.common.acquired i,
      letter.sender ∈ machine.forked ∧
        (machine.procs letter.sender).code.unnamed = false ∧
        (machine.procs letter.sender).id = letter.fromId

namespace Delivering

variable {machine next : Machine}
variable {pid : Nat}

/-- The mailbox of an id is not in the lock nor with another process. -/
theorem taken
    (delivering : Delivering machine)
    {i owner : Nat}
    (isClient : i ∈ clientIds)
    (member : owner ∈ machine.forked)
    (share : 0 < (machine.procs owner).share i) :
    (machine.common.client i).lock = 0 ∧
      ∀ other ∈ machine.forked, other ≠ owner →
        (machine.procs other).code.held ≠ some i := by
  obtain ⟨empty, _, others⟩ :=
    Machine.share_other member share (delivering.atMostOne i isClient)
  refine ⟨empty, ?_⟩
  intro other otherMember different held
  have none := others other otherMember different
  simp [Process.share, Process.holds, held] at none

/-- The id of a process that took one is a client id. -/
theorem isClient
    (delivering : Delivering machine)
    (member : pid ∈ machine.forked)
    (named : (machine.procs pid).code.unnamed = false) :
    (machine.procs pid).id ∈ clientIds := by
  rcases delivering.wired.named pid member with unnamed | known
  · rw [named] at unnamed
    cases unnamed
  · exact known

/-- A process with a letter underway does not hold its own mailbox. -/
theorem not_held_of_answers
    (delivering : Delivering machine)
    (member : pid ∈ machine.forked)
    (running : (machine.procs pid).running = true)
    (named : (machine.procs pid).code.unnamed = false)
    {letter : Letter}
    {isUsed : Bool}
    (answers : (machine.procs pid).Answers letter isUsed) :
    (machine.common.client (machine.procs pid).id).lock = 0 ∧
      ∀ other ∈ machine.forked,
        (machine.procs other).code.held ≠ some (machine.procs pid).id := by
  have owes := Receiving.answers_owes running answers
  have share : 0 < (machine.procs pid).share (machine.procs pid).id := by
    rw [Process.share]
    omega
  have isClient := delivering.isClient member named
  obtain ⟨empty, others⟩ := delivering.taken isClient member share
  refine ⟨empty, ?_⟩
  intro other otherMember held
  by_cases here : other = pid
  · subst here
    obtain ⟨_, one, _⟩ := Machine.share_other member share
      (delivering.atMostOne _ isClient)
    simp only [Process.share, Process.holds, held, if_true] at one
    omega
  · exact others other otherMember here held

/--
One process makes a statement.  It may change mailboxes it holds and take free
ones; what the other processes send and receive is not affected.
-/
theorem setBoth
    (delivering : Delivering machine)
    (member : pid ∈ machine.forked)
    {common' : Common}
    {proc' : Process}
    (wired : Wired (machine.setBoth pid (common', proc')))
    (atMostOne :
      ∀ i, i ∈ clientIds →
        (machine.setBoth pid (common', proc')).tokens i ≤ 1)
    (grows :
      ∀ i, (machine.common.acquired i).Sublist (common'.acquired i))
    (kept :
      ∀ i, (machine.common.client i).lock = 0 →
        (machine.procs pid).code.held ≠ some i →
          common'.acquired i = machine.common.acquired i ∧
            (common'.client i).mailbox = (machine.common.client i).mailbox ∧
            (common'.client i).fromId = (machine.common.client i).fromId)
    (signalled : proc'.signalled = (machine.procs pid).signalled)
    (running : proc'.running = true → (machine.procs pid).running = true)
    (unnamed :
      proc'.code.unnamed = true → (machine.procs pid).code.unnamed = true)
    (sameId :
      (machine.procs pid).code.unnamed = false →
        proc'.id = (machine.procs pid).id)
    (ownSending :
      ∀ target signal text stage after,
        proc'.code = .send target signal text stage after →
        stage ≠ .wait → target ∈ clientIds →
          Sending (machine.setBoth pid (common', proc'))
            pid target signal text stage)
    (ownReceiving :
      proc'.running = true → proc'.code.unnamed = false →
        Receiving (common'.client proc'.id) (common'.acquired proc'.id) proc')
    (ownFresh : proc'.code.unnamed = true → proc'.NoLetters)
    (ownAuthor :
      ∀ i, ∀ letter ∈ common'.acquired i,
        letter ∈ machine.common.acquired i ∨
          letter.sender = pid ∧ letter.fromId = proc'.id ∧
            proc'.code.unnamed = false) :
    Delivering (machine.setBoth pid (common', proc')) := by
  constructor
  case wired => exact wired
  case atMostOne => exact atMostOne
  case sending =>
    intro sender senderMember target signal text stage after code notWaiting
      isClient
    by_cases here : sender = pid
    · subst here
      rw [Machine.setBoth_procs_self] at code
      exact ownSending target signal text stage after code notWaiting isClient
    · rw [Machine.setBoth_procs_of_ne here] at code
      have sending := delivering.sending sender senderMember target signal text
        stage after code notWaiting isClient
      have held : (machine.procs sender).code.held = some target := by
        rw [code, Code.held_send notWaiting]
      have share : 0 < (machine.procs sender).share target := by
        simp [Process.share, Process.holds, held]
      obtain ⟨empty, others⟩ :=
        delivering.taken isClient senderMember share
      obtain ⟨sameAcquired, sameMailbox, sameFrom⟩ :=
        kept target empty (others pid member (Ne.symm here))
      obtain ⟨⟨before, last, inOrder⟩, copied, marked⟩ := sending
      refine ⟨⟨before, ?_, ?_⟩, ?_, ?_⟩
      · rw [Machine.setBoth_procs_of_ne here]
        exact sameAcquired.trans last
      · intro receiver receiverMember named isRunning ownId
        by_cases self : receiver = pid
        · subst self
          rw [Machine.setBoth_procs_self] at named isRunning ownId ⊢
          rw [signalled]
          -- the process may just have taken its id; then it has no letters
          cases before' : (machine.procs receiver).code.unnamed with
          | true =>
              rw [(delivering.fresh receiver receiverMember before').1]
              exact List.nil_sublist _
          | false =>
              exact inOrder receiver receiverMember before' (running isRunning)
                ((sameId before').symm.trans ownId)
        · rw [Machine.setBoth_procs_of_ne self] at named isRunning ownId ⊢
          exact inOrder receiver receiverMember named isRunning ownId
      · intro notCopying
        exact sameMailbox.trans (copied notCopying)
      · intro kind notCopying notMarking
        rw [Machine.setBoth_procs_of_ne here]
        exact sameFrom.trans (marked kind notCopying notMarking)
  case receiving =>
    intro receiver receiverMember isRunning named
    by_cases here : receiver = pid
    · subst here
      rw [Machine.setBoth_procs_self] at isRunning named ⊢
      exact ownReceiving isRunning named
    · rw [Machine.setBoth_procs_of_ne here] at isRunning named ⊢
      refine (delivering.receiving receiver receiverMember isRunning
        named).congr (.refl _) (grows _) ?_
      intro letter isUsed answers
      obtain ⟨empty, others⟩ :=
        delivering.not_held_of_answers receiverMember isRunning named answers
      exact kept _ empty (others pid member)
  case fresh =>
    intro other otherMember isUnnamed
    by_cases here : other = pid
    · subst here
      rw [Machine.setBoth_procs_self] at isUnnamed ⊢
      exact ownFresh isUnnamed
    · rw [Machine.setBoth_procs_of_ne here] at isUnnamed ⊢
      exact delivering.fresh other otherMember isUnnamed
  case authors =>
    intro i letter letterMember
    rcases ownAuthor i letter letterMember with old | ⟨isOwn, ownId, named⟩
    · obtain ⟨senderMember, senderNamed, senderId⟩ :=
        delivering.authors i letter old
      refine ⟨senderMember, ?_⟩
      by_cases here : letter.sender = pid
      · rw [here] at senderNamed senderId ⊢
        rw [Machine.setBoth_procs_self, sameId senderNamed]
        refine ⟨?_, senderId⟩
        by_contra isUnnamed
        rw [Bool.not_eq_false] at isUnnamed
        rw [unnamed isUnnamed] at senderNamed
        cases senderNamed
      · rw [Machine.setBoth_procs_of_ne here]
        exact ⟨senderNamed, senderId⟩
    · rw [isOwn, Machine.setBoth_procs_self]
      exact ⟨member, named, ownId.symm⟩

/-- Going on elsewhere changes no receiver. -/
theorem inOrder_goto
    {i : Nat}
    {letters : List Letter}
    {common' : Common}
    {code : Code}
    (named : (machine.procs pid).code.unnamed = false)
    (inOrder :
      ∀ receiver ∈ machine.forked,
        (machine.procs receiver).code.unnamed = false →
        (machine.procs receiver).running = true →
        (machine.procs receiver).id = i →
          (machine.procs receiver).signalled.Sublist letters) :
    ∀ receiver ∈ machine.forked,
      ((machine.setBoth pid
        (common', (machine.procs pid).goto code)).procs
          receiver).code.unnamed = false →
      ((machine.setBoth pid
        (common', (machine.procs pid).goto code)).procs
          receiver).running = true →
      ((machine.setBoth pid
        (common', (machine.procs pid).goto code)).procs receiver).id = i →
        ((machine.setBoth pid
          (common', (machine.procs pid).goto code)).procs
            receiver).signalled.Sublist letters := by
  intro receiver member
  by_cases here : receiver = pid
  · subst here
    rw [Machine.setBoth_procs_self]
    exact fun _ running ownId => inOrder receiver member named running ownId
  · rw [Machine.setBoth_procs_of_ne here]
    exact inOrder receiver member

/-- The statements of a sender keep what is known about its letter. -/
theorem sendStep_sending
    {target : Nat}
    {signal : Signal}
    {text : String}
    {after : AfterSend}
    {stage : SendStage}
    {common' : Common}
    {proc' : Process}
    (delivering : Delivering machine)
    (member : pid ∈ machine.forked)
    (code : (machine.procs pid).code = .send target signal text stage after)
    (isClient : target ∈ clientIds)
    (sends :
      sendStep pid machine.common (machine.procs pid) target signal text after
        stage = some (common', proc'))
    {stage' : SendStage}
    (code' : proc'.code = .send target signal text stage' after)
    (notWaiting : stage' ≠ .wait) :
    Sending (machine.setBoth pid (common', proc'))
      pid target signal text stage' := by
  have named : (machine.procs pid).code.unnamed = false := by
    rw [code]
    rfl
  cases stage with
  | wait =>
      simp only [sendStep] at sends
      split at sends
      case isFalse => cases sends
      case isTrue =>
        cases sends
        cases code'
        refine ⟨⟨machine.common.acquired target, ?_, ?_⟩, ?_, ?_⟩
        · simp [Machine.setBoth, Machine.setProc, Common.acquire]
        · refine inOrder_goto named ?_
          intro receiver receiverMember receiverNamed running ownId
          have receiving := delivering.receiving receiver receiverMember
            running receiverNamed
          rw [ownId] at receiving
          exact receiving.inOrder
        · exact fun notCopying => (notCopying rfl).elim
        · exact fun _ notCopying => (notCopying rfl).elim
  | copy =>
      obtain ⟨⟨before, last, inOrder⟩, _, _⟩ :=
        delivering.sending pid member target signal text .copy after code
          (by simp) isClient
      simp only [sendStep] at sends
      cases sends
      cases code'
      refine ⟨⟨before, ?_, inOrder_goto named inOrder⟩, ?_, ?_⟩
      · simpa [Machine.setBoth, Machine.setProc] using last
      · intro _
        simp [Machine.setBoth, Machine.setProc]
      · rintro rfl _ notMarking
        exact (notMarking rfl).elim
  | mark =>
      obtain ⟨⟨before, last, inOrder⟩, copied, _⟩ :=
        delivering.sending pid member target signal text .mark after code
          (by simp) isClient
      simp only [sendStep] at sends
      cases sends
      cases code'
      refine ⟨⟨before, ?_, inOrder_goto named inOrder⟩, ?_, ?_⟩
      · simpa [Machine.setBoth, Machine.setProc] using last
      · intro _
        simpa [Machine.setBoth, Machine.setProc] using copied (by simp)
      · intro _ _ _
        simp [Machine.setBoth, Machine.setProc]
  | check =>
      obtain ⟨⟨before, last, inOrder⟩, copied, marked⟩ :=
        delivering.sending pid member target signal text .check after code
          (by simp) isClient
      simp only [sendStep] at sends
      split at sends
      all_goals
        cases sends
        cases code'
        refine ⟨⟨before, ?_, inOrder_goto named inOrder⟩, ?_, ?_⟩
        · simpa [Machine.setBoth, Machine.setProc] using last
        · exact fun _ => copied (by simp)
        · intro kind _ _
          simpa [Machine.setBoth, Machine.setProc] using
            marked kind (by simp) (by simp)
  | kill => cases sends
  | release =>
      simp only [sendStep] at sends
      cases sends
      have held := Code.held_send notWaiting target signal text after
      rw [← code', Process.goto_code, after.held_released] at held
      cases held

/-- A statement of a sender stays at its mailbox or leaves it. -/
theorem sendStep_code
    {self : Nat}
    {common common' : Common}
    {proc proc' : Process}
    {target target' : Nat}
    {signal signal' : Signal}
    {text text' : String}
    {after after' : AfterSend}
    {stage stage' : SendStage}
    (sends :
      sendStep self common proc target signal text after stage =
        some (common', proc'))
    (code' : proc'.code = .send target' signal' text' stage' after')
    (notWaiting : stage' ≠ .wait) :
    target' = target ∧ signal' = signal ∧ text' = text ∧ after' = after := by
  cases stage with
  | wait | check =>
      simp only [sendStep] at sends
      split at sends <;> cases sends <;> cases code' <;>
        exact ⟨rfl, rfl, rfl, rfl⟩
  | copy | mark =>
      simp only [sendStep] at sends
      cases sends
      cases code'
      exact ⟨rfl, rfl, rfl, rfl⟩
  | kill => cases sends
  | release =>
      simp only [sendStep] at sends
      cases sends
      have held := Code.held_send notWaiting target' signal' text' after'
      rw [← code', Process.goto_code, after.held_released] at held
      cases held

/-- A letter acquired in a statement is one of the process itself. -/
theorem mainStep_author
    {self : Nat}
    {canOpen : String → Bool}
    {common common' : Common}
    {proc proc' : Process}
    (steps : mainStep self canOpen common proc = some (common', proc'))
    {i : Nat}
    {letter : Letter}
    (member : letter ∈ common'.acquired i) :
    letter ∈ common.acquired i ∨
      letter.sender = self ∧ letter.fromId = proc'.id ∧
        proc'.code.unnamed = false := by
  rcases mainStep_cases steps with
    quiet | ⟨target, signal, text, stage, after, code, sends⟩
  · rw [quiet.acquired] at member
    exact .inl member
  · cases stage with
    | wait =>
        simp only [sendStep] at sends
        split at sends
        case isFalse => cases sends
        case isTrue =>
          cases sends
          by_cases here : i = target
          · subst here
            simp only [Common.acquire, Function.update_self, List.mem_append,
              List.mem_singleton] at member
            rcases member with old | rfl
            · exact .inl old
            · exact .inr ⟨rfl, rfl, rfl⟩
          · simp only [Common.acquire, Function.update_of_ne here] at member
            exact .inl member
    | check =>
        simp only [sendStep] at sends
        split at sends <;> cases sends <;> exact .inl member
    | copy | mark | release =>
        simp only [sendStep] at sends
        cases sends
        exact .inl member
    | kill => cases sends

theorem main
    (delivering : Delivering machine)
    (steps : machine.Steps (.main pid) next) :
    Delivering next := by
  have wired := delivering.wired.step steps
  have atMostOne :
      ∀ i, i ∈ clientIds → next.tokens i ≤ 1 := fun i isClient =>
    (Machine.tokens_step_le delivering.wired steps i).trans
      (delivering.atMostOne i isClient)
  obtain ⟨member, running, _, common', proc', stepped, rfl⟩ :=
    Machine.steps_main steps
  have signals := mainStep_signals stepped
  refine delivering.setBoth member wired atMostOne (mainStep_acquired stepped)
    (fun i empty notHeld => mainStep_mailbox_kept stepped empty notHeld)
    signals.signalled (fun _ => running) ?_ ?_ ?_ ?_ ?_
    (fun i letter letterMember => mainStep_author stepped letterMember)
  case refine_1 =>
    intro isUnnamed
    rcases mainStep_names stepped with ⟨_, _, rfl⟩ | ⟨_, _, rfl⟩ | names
    · cases isUnnamed
    · cases isUnnamed
    · rw [← names.unnamed]
      exact isUnnamed
  case refine_2 =>
    intro named
    rcases mainStep_names stepped with ⟨code, _, _⟩ | ⟨_, _, rfl⟩ | names
    · rw [code] at named
      cases named
    · rfl
    · exact names.id
  case refine_3 =>
    intro target signal text stage after code' notWaiting isClient
    rcases mainStep_cases stepped with quiet | ⟨_, _, _, _, _, code, sends⟩
    · have held := quiet.heldAfter
      rw [code', Code.held_send notWaiting] at held
      cases held
    · obtain ⟨rfl, rfl, rfl, rfl⟩ := sendStep_code sends code' notWaiting
      exact delivering.sendStep_sending member code isClient sends code'
        notWaiting
  case refine_4 =>
    intro isRunning named
    cases before : (machine.procs pid).code.unnamed with
    | true =>
        -- the process has just taken its id
        obtain ⟨noSignals, noTexts, noPipes⟩ :=
          delivering.fresh pid member before
        obtain ⟨noFrames, noPending⟩ :=
          delivering.wired.unsignalled pid member before
        refine .idle ⟨signals.frames.trans noFrames, ?_⟩ ?_ ?_
        · intro signal
          rw [signals.pending, noPending]
        · rw [signals.signalled, noSignals]
          exact List.nil_sublist _
        · intro _
          rw [signals.signalled, signals.mailTexts, signals.registered,
            noSignals, noTexts, noPipes]
          exact ⟨rfl, rfl⟩
    | false =>
        have sameId : proc'.id = (machine.procs pid).id := by
          rcases mainStep_names stepped with ⟨code, _, _⟩ | ⟨_, _, rfl⟩ | names
          · rw [code] at before
            cases before
          · rfl
          · exact names.id
        rw [sameId]
        refine (delivering.receiving pid member running before).congr signals
          (mainStep_acquired stepped _) ?_
        intro letter isUsed answers
        obtain ⟨empty, others⟩ :=
          delivering.not_held_of_answers member running before answers
        exact mainStep_mailbox_kept stepped empty (others pid member)
  case refine_5 =>
    intro isUnnamed
    rcases mainStep_names stepped with ⟨_, _, rfl⟩ | ⟨_, _, rfl⟩ | names
    · cases isUnnamed
    · cases isUnnamed
    · rw [names.unnamed] at isUnnamed
      obtain ⟨noSignals, noTexts, noPipes⟩ :=
        delivering.fresh pid member isUnnamed
      exact ⟨signals.signalled.trans noSignals, signals.mailTexts.trans noTexts,
        signals.registered.trans noPipes⟩

/-- A process is interrupted or runs a handler; its main code stays where it is. -/
theorem handlers
    (delivering : Delivering machine)
    (member : pid ∈ machine.forked)
    (running : (machine.procs pid).running = true)
    {common' : Common}
    {proc' : Process}
    (wired : Wired (machine.setBoth pid (common', proc')))
    (atMostOne :
      ∀ i, i ∈ clientIds →
        (machine.setBoth pid (common', proc')).tokens i ≤ 1)
    (acquired : common'.acquired = machine.common.acquired)
    (kept :
      ∀ i,
        (common'.client i).mailbox = (machine.common.client i).mailbox ∧
          (common'.client i).fromId = (machine.common.client i).fromId)
    (signalled : proc'.signalled = (machine.procs pid).signalled)
    (code : proc'.code = (machine.procs pid).code)
    (id : proc'.id = (machine.procs pid).id)
    (signals :
      (machine.procs pid).frames ≠ [] ∨
        ∃ signal, (machine.procs pid).pending signal = true)
    (receiving :
      Receiving (machine.common.client (machine.procs pid).id)
          (machine.common.acquired (machine.procs pid).id)
          (machine.procs pid) →
        Receiving (common'.client proc'.id) (common'.acquired proc'.id)
          proc') :
    Delivering (machine.setBoth pid (common', proc')) := by
  -- only a process that has taken its id is signalled
  have named : (machine.procs pid).code.unnamed = false := by
    by_contra isUnnamed
    rw [Bool.not_eq_false] at isUnnamed
    obtain ⟨noFrames, noPending⟩ :=
      delivering.wired.unsignalled pid member isUnnamed
    rcases signals with frames | ⟨signal, pending⟩
    · exact frames noFrames
    · rw [noPending] at pending
      cases pending
  refine delivering.setBoth member wired atMostOne
    (fun i => by rw [acquired]) (fun i _ _ => ⟨by rw [acquired], kept i⟩)
    signalled (fun _ => running) (fun isUnnamed => code ▸ isUnnamed)
    (fun _ => id) ?_ ?_ ?_ (fun i letter letterMember => ?_)
  case refine_1 =>
    intro target signal text stage after code' notWaiting isClient
    rw [code] at code'
    obtain ⟨⟨before, last, inOrder⟩, copied, marked⟩ :=
      delivering.sending pid member target signal text stage after code'
        notWaiting isClient
    refine ⟨⟨before, ?_, ?_⟩, ?_, ?_⟩
    · rw [Machine.setBoth_procs_self, id]
      change common'.acquired target = _
      rw [acquired]
      exact last
    · intro receiver receiverMember
      by_cases here : receiver = pid
      · subst here
        rw [Machine.setBoth_procs_self, code, id, signalled]
        exact fun isNamed _ ownId =>
          inOrder receiver receiverMember isNamed running ownId
      · rw [Machine.setBoth_procs_of_ne here]
        exact inOrder receiver receiverMember
    · exact fun notCopying => (kept target).1.trans (copied notCopying)
    · intro kind notCopying notMarking
      rw [Machine.setBoth_procs_self, id]
      exact (kept target).2.trans (marked kind notCopying notMarking)
  case refine_2 =>
    intro _ _
    exact receiving (delivering.receiving pid member running named)
  case refine_3 =>
    intro isUnnamed
    rw [code, named] at isUnnamed
    cases isUnnamed
  case refine_4 =>
    rw [acquired] at letterMember
    exact .inl letterMember

/-- A process goes on elsewhere, without a mailbox in its hands, or exits. -/
theorem leaves
    (delivering : Delivering machine)
    (member : pid ∈ machine.forked)
    (isRunning : (machine.procs pid).running = true)
    (named : (machine.procs pid).code.unnamed = false)
    {proc' : Process}
    (wired : Wired (machine.setProc pid proc'))
    (atMostOne :
      ∀ i, i ∈ clientIds → (machine.setProc pid proc').tokens i ≤ 1)
    (held : proc'.code.held = none)
    (named' : proc'.code.unnamed = false)
    (id : proc'.id = (machine.procs pid).id)
    (signals :
      proc'.running = true → SameSignals (machine.procs pid) proc')
    (signalled : proc'.signalled = (machine.procs pid).signalled) :
    Delivering (machine.setProc pid proc') := by
  refine delivering.setBoth member wired atMostOne
    (fun i => List.Sublist.refl _) (fun i _ _ => ⟨rfl, rfl, rfl⟩)
    signalled (fun _ => isRunning) (by simp [named'])
    (fun _ => id) ?_ ?_ (by simp [named']) (fun i letter old => .inl old)
  · intro target signal text stage after code' notWaiting _
    rw [code', Code.held_send notWaiting] at held
    cases held
  · intro running _
    rw [id]
    exact (delivering.receiving pid member isRunning named).congr
      (signals running) (List.Sublist.refl _) fun _ _ _ => ⟨rfl, rfl, rfl⟩

theorem handlerStep_common
    {canOpen : String → Bool}
    {fd : Nat}
    {common common' : Common}
    {proc proc' : Process}
    (steps : handlerStep canOpen fd common proc = some (common', proc')) :
    common'.acquired = common.acquired ∧
      (∀ i,
        (common'.client i).mailbox = (common.client i).mailbox ∧
          (common'.client i).fromId = (common.client i).fromId) ∧
      proc.frames ≠ [] := by
  unfold handlerStep at steps
  split at steps
  case h_1 => cases steps
  case h_6 frames | h_7 frames =>
    cases steps
    refine ⟨rfl, fun i => ⟨?_, ?_⟩, by simp [frames]⟩
    · exact Common.setClient_keeps ClientInfor.mailbox (by intro client; rfl) _
        _ i
    · exact Common.setClient_keeps ClientInfor.fromId (by intro client; rfl) _
        _ i
  case h_2 frames | h_3 frames =>
    split at steps
    all_goals
      cases steps
      exact ⟨rfl, fun i => ⟨rfl, rfl⟩, by simp [frames]⟩
  case h_4 frames | h_5 frames =>
    split at steps
    · cases steps
      exact ⟨rfl, fun i => ⟨rfl, rfl⟩, by simp [frames]⟩
    · cases steps

/-- Nobody holds or owes the mailbox, and its last letter is signalled. -/
theorem receive
    (delivering : Delivering machine)
    {target : Nat}
    {letter : Letter}
    {before : List Letter}
    (isClient : target ∈ clientIds)
    (empty : machine.tokens target = 0)
    (atMostOne :
      ∀ i, i ∈ clientIds →
        (machine.setProc (machine.common.client target).pid
          ((machine.procs (machine.common.client target).pid).receive
            letter)).tokens i ≤ 1)
    (last : machine.common.acquired target = before ++ [letter])
    (inOrder :
      ∀ receiver ∈ machine.forked,
        (machine.procs receiver).code.unnamed = false →
        (machine.procs receiver).running = true →
        (machine.procs receiver).id = target →
          (machine.procs receiver).signalled.Sublist before)
    (contains : (machine.common.client target).Contains letter) :
    Delivering (machine.setProc (machine.common.client target).pid
      ((machine.procs (machine.common.client target).pid).receive letter)) := by
  have wired := delivering.wired.receive target letter
  cases running :
      (machine.procs (machine.common.client target).pid).running with
  | false =>
      simp only [Process.receive, running, Machine.setProc,
        Function.update_eq_self, Bool.false_eq_true, ↓reduceIte]
      exact delivering
  | true =>
      have ownId := delivering.wired.id_of_running isClient running
      have member := delivering.wired.alive _ running
      have named := delivering.wired.named_of_running isClient running
      generalize (machine.common.client target).pid = receiver at *
      rw [Machine.tokens_eq_total] at empty
      have nobody :
          ∀ pid ∈ machine.forked, (machine.procs pid).share target = 0 :=
        fun pid pidMember => Custody.nobody pidMember empty
      have code :
          ((machine.procs receiver).receive letter).code =
            (machine.procs receiver).code := by
        simp [Process.receive, running]
      have sameId :
          ((machine.procs receiver).receive letter).id =
            (machine.procs receiver).id := by
        simp [Process.receive, running]
      have unsignalled : (machine.procs receiver).Unsignalled := by
        have share := nobody receiver member
        rw [← ownId, Process.share] at share
        exact Process.unsignalled_of_owes running (by omega)
      constructor
      case wired => exact wired
      case atMostOne => exact atMostOne
      case sending =>
        intro sender senderMember target' signal text stage after senderCode
          notWaiting isClient'
        have sameCode :
            (machine.procs sender).code =
              .send target' signal text stage after := by
          by_cases here : sender = receiver
          · subst here
            rw [← code]
            simpa using senderCode
          · rwa [Machine.setProc_procs_of_ne here] at senderCode
        have sameSenderId :
            ((machine.setProc receiver
              ((machine.procs receiver).receive letter)).procs sender).id =
                (machine.procs sender).id := by
          by_cases here : sender = receiver
          · subst here
            simpa using sameId
          · rw [Machine.setProc_procs_of_ne here]
        obtain ⟨⟨earlier, lastOther, inOrderOther⟩, copied, marked⟩ :=
          delivering.sending sender senderMember target' signal text stage
            after sameCode notWaiting isClient'
        -- nobody has the mailbox of the receiver in its hands
        have different : target' ≠ target := by
          rintro rfl
          have share := nobody sender senderMember
          simp [Process.share, Process.holds, sameCode,
            Code.held_send notWaiting] at share
        refine ⟨⟨earlier, ?_, ?_⟩, copied, ?_⟩
        · rw [sameSenderId]
          exact lastOther
        · intro other otherMember
          by_cases here : other = receiver
          · subst here
            rw [Machine.setProc_procs_self]
            rw [sameId, ownId]
            exact fun _ _ same => (different same.symm).elim
          · rw [Machine.setProc_procs_of_ne here]
            exact inOrderOther other otherMember
        · intro kind notCopying notMarking
          rw [sameSenderId]
          exact marked kind notCopying notMarking
      case receiving =>
        intro other otherMember
        by_cases here : other = receiver
        · subst here
          rw [Machine.setProc_procs_self]
          intro _ _
          have before := delivering.receiving other member running named
          rw [sameId, ownId]
          rw [ownId] at before
          exact before.receive running unsignalled last
            (inOrder other member named running ownId) contains
        · rw [Machine.setProc_procs_of_ne here]
          exact delivering.receiving other otherMember
      case fresh =>
        intro other otherMember
        by_cases here : other = receiver
        · subst here
          rw [Machine.setProc_procs_self]
          rw [code, named]
          intro isUnnamed
          cases isUnnamed
        · rw [Machine.setProc_procs_of_ne here]
          exact delivering.fresh other otherMember
      case authors =>
        intro i known knownMember
        obtain ⟨senderMember, senderNamed, senderId⟩ :=
          delivering.authors i known knownMember
        refine ⟨senderMember, ?_⟩
        by_cases here : known.sender = receiver
        · rw [here] at senderNamed senderId ⊢
          rw [Machine.setProc_procs_self]
          rw [code, sameId]
          exact ⟨senderNamed, senderId⟩
        · rw [Machine.setProc_procs_of_ne here]
          exact ⟨senderNamed, senderId⟩

theorem kill
    (delivering : Delivering machine)
    (steps : machine.Steps (.kill pid) next) :
    Delivering next := by
  have atMostOne :
      ∀ i, i ∈ clientIds → next.tokens i ≤ 1 := fun i isClient =>
    (Machine.tokens_step_le delivering.wired steps i).trans
      (delivering.atMostOne i isClient)
  obtain ⟨member, running, _, target, signal, text, after, code, rfl⟩ :=
    Machine.steps_kill steps
  have named : (machine.procs pid).code.unnamed = false := by
    rw [code]
    rfl
  have sentWired := delivering.wired.sent member running code
  have sent : Delivering (machine.setProc pid
      ((machine.procs pid).goto after.signalled)) := by
    refine delivering.leaves member running named sentWired ?_
      after.held_signalled after.unnamed_signalled rfl
      (fun _ => .goto _ _) rfl
    intro i isClient
    have tokens := Machine.tokens_sent member code i
    have before := delivering.atMostOne i isClient
    omega
  by_cases isClient : target ∈ clientIds
  · obtain ⟨⟨before, last, inOrder⟩, copied, marked⟩ :=
      delivering.sending pid member target signal text .kill after code
        (by simp) isClient
    have tokens := Machine.tokens_sent member code target
    have one := delivering.atMostOne target isClient
    rw [if_pos rfl] at tokens
    exact sent.receive isClient (by omega) atMostOne last
      (inOrder_goto named inOrder)
      ⟨copied (by simp), fun kind => marked kind (by simp) (by simp)⟩
  · -- no entry outside the client ids names a living process
    have exited := sentWired.not_running_outside isClient
    unfold Machine.kill
    dsimp only
    change ((machine.setProc pid
      ((machine.procs pid).goto after.signalled)).procs
        (machine.common.client target).pid).running = false at exited
    simp only [Process.receive, exited, Bool.false_eq_true, ↓reduceIte]
    rw [Machine.setProc, Function.update_eq_self]
    exact sent

theorem fork
    {peer : String}
    (delivering : Delivering machine)
    (steps : machine.Steps (.fork pid peer) next) :
    Delivering next := by
  have wired := delivering.wired.step steps
  have tokens := Machine.tokens_kept delivering.wired steps (by simp) (by simp)
  obtain ⟨fresh, _, _, sameCommon, forks, procs⟩ := Machine.steps_fork steps
  have known :
      ∀ other ∈ machine.forked, next.procs other = machine.procs other := by
    intro other otherMember
    have different : other ≠ pid := by
      rintro rfl
      exact fresh otherMember
    rw [procs, Function.update_of_ne different]
  have cases_forked :
      ∀ other ∈ next.forked,
        other ∈ machine.forked ∨ next.procs other = .forked peer := by
    intro other otherMember
    rw [forks, Finset.mem_insert] at otherMember
    rcases otherMember with rfl | old
    · exact .inr (by rw [procs, Function.update_self])
    · exact .inl old
  constructor
  case wired => exact wired
  case atMostOne =>
    intro i isClient
    rw [tokens]
    exact delivering.atMostOne i isClient
  case sending =>
    intro sender senderMember target signal text stage after code notWaiting
      isClient
    rcases cases_forked sender senderMember with old | new
    · rw [known sender old] at code
      obtain ⟨⟨before, last, inOrder⟩, copied, marked⟩ :=
        delivering.sending sender old target signal text stage after code
          notWaiting isClient
      refine ⟨⟨before, ?_, ?_⟩, ?_, ?_⟩
      · rw [sameCommon, known sender old]
        exact last
      · intro receiver receiverMember
        rcases cases_forked receiver receiverMember with oldReceiver | new
        · rw [known receiver oldReceiver]
          exact inOrder receiver oldReceiver
        · rw [new]
          simp [Process.forked]
      · rw [sameCommon]
        exact copied
      · rw [sameCommon, known sender old]
        exact marked
    · rw [new] at code
      cases code
  case receiving =>
    intro receiver receiverMember
    rcases cases_forked receiver receiverMember with old | new
    · rw [known receiver old, sameCommon]
      exact delivering.receiving receiver old
    · rw [new]
      intro _ named
      cases named
  case fresh =>
    intro other otherMember
    rcases cases_forked other otherMember with old | new
    · rw [known other old]
      exact delivering.fresh other old
    · rw [new]
      exact fun _ => ⟨rfl, rfl, rfl⟩
  case authors =>
    intro i letter letterMember
    rw [sameCommon] at letterMember
    obtain ⟨senderMember, sender⟩ := delivering.authors i letter letterMember
    rw [known _ senderMember, forks]
    exact ⟨Finset.mem_insert_of_mem senderMember, sender⟩

/-- A step of the parent that touches neither entries nor processes. -/
theorem parent
    (delivering : Delivering machine)
    (wired : Wired next)
    (tokens : ∀ i, next.tokens i = machine.tokens i)
    (clients : ∀ i, next.common.client i = machine.common.client i)
    (acquired : next.common.acquired = machine.common.acquired)
    (forked : next.forked = machine.forked)
    (procs : next.procs = machine.procs) :
    Delivering next := by
  constructor
  case wired => exact wired
  case atMostOne =>
    intro i isClient
    rw [tokens]
    exact delivering.atMostOne i isClient
  case sending =>
    intro sender senderMember target signal text stage after code notWaiting
      isClient
    rw [forked] at senderMember
    rw [procs] at code
    obtain ⟨⟨before, last, inOrder⟩, copied, marked⟩ :=
      delivering.sending sender senderMember target signal text stage after
        code notWaiting isClient
    refine ⟨⟨before, ?_, ?_⟩, ?_, ?_⟩
    · rw [acquired, procs]
      exact last
    · rw [forked, procs]
      exact inOrder
    · rw [clients]
      exact copied
    · rw [clients, procs]
      exact marked
  case receiving =>
    rw [forked, procs, acquired]
    intro pid member
    rw [clients]
    exact delivering.receiving pid member
  case fresh =>
    rw [forked, procs]
    exact delivering.fresh
  case authors =>
    rw [forked, procs, acquired]
    exact delivering.authors

/-- Delivery is kept by every step. -/
theorem step
    {action : Action}
    (delivering : Delivering machine)
    (steps : machine.Steps action next) :
    Delivering next := by
  have wired := delivering.wired.step steps
  have atMostOne :
      ∀ i, i ∈ clientIds → next.tokens i ≤ 1 := fun i isClient =>
    (Machine.tokens_step_le delivering.wired steps i).trans
      (delivering.atMostOne i isClient)
  cases action with
  | fork pid peer => exact delivering.fork steps
  | waitLock =>
      have tokens := Machine.tokens_kept delivering.wired steps (by simp)
        (by simp)
      obtain ⟨clients, acquired, _, forked, procs⟩ :=
        Machine.steps_waitLock steps
      exact delivering.parent wired tokens clients acquired forked procs
  | waitRoom =>
      have tokens := Machine.tokens_kept delivering.wired steps (by simp)
        (by simp)
      obtain ⟨common, forked, procs⟩ := Machine.steps_waitRoom steps
      exact delivering.parent wired tokens (fun i => by rw [common])
        (by rw [common]) forked procs
  | main pid => exact delivering.main steps
  | line pid line =>
      obtain ⟨member, running, atShell, rfl⟩ := Machine.steps_line steps
      have held : (machine.procs pid).code.held = none := by
        rw [atShell]
        rfl
      have quiet := obey_quiet held machine.common line
      obtain ⟨sameId, named⟩ := obey_names atShell machine.common line
      exact delivering.leaves member running (by rw [atShell]; rfl) wired
        atMostOne quiet.heldAfter named sameId (fun _ => quiet.signals)
        quiet.signals.signalled
  | kill pid => exact delivering.kill steps
  | exit pid =>
      obtain ⟨member, running, _, code, rfl⟩ := Machine.steps_exit steps
      refine delivering.leaves member running (by rw [code]; rfl) wired
        atMostOne ?_ ?_ rfl ?_ rfl
      · change (machine.procs pid).code.held = none
        rw [code]
        rfl
      · change (machine.procs pid).code.unnamed = false
        rw [code]
        rfl
      · intro stillRunning
        cases stillRunning
  | deliver pid signal =>
      obtain ⟨member, running, pending, rfl⟩ := Machine.steps_deliver steps
      exact delivering.handlers member running wired atMostOne rfl
        (fun _ => ⟨rfl, rfl⟩) rfl rfl rfl (.inr ⟨signal, pending⟩)
        fun receiving => receiving.interrupt pending
  | handle pid fd =>
      obtain ⟨member, running, common', proc', stepped, rfl⟩ :=
        Machine.steps_handle steps
      obtain ⟨acquired, kept, frames⟩ := handlerStep_common stepped
      have sameMain := handlerStep_sameMain stepped
      exact delivering.handlers member running wired atMostOne acquired kept
        sameMain.signalled sameMain.code sameMain.id (.inl frames)
        fun receiving => receiving.handle stepped

theorem initially
    (serverPid : Nat) :
    Delivering (Machine.initial serverPid) where
  wired := .initially serverPid
  atMostOne := fun i isClient =>
    ((mailboxesOwned_initially serverPid).token i isClient).le
  sending := by simp [Machine.initial]
  receiving := by simp [Machine.initial]
  fresh := by simp [Machine.initial]
  authors := by simp [Machine.initial]

end Delivering

/-! ## Delivery along runs -/

/-- The session is past its login section's id and has not begun to leave. -/
def Machine.LoggedIn
    (machine : Machine)
    (pid : Nat) : Prop :=
  pid ∈ machine.forked ∧ (machine.procs pid).running = true ∧
    (machine.procs pid).code.unnamed = false ∧
    (machine.procs pid).stopped = false

/--
The mailbox of a session.  At most one signal to its id is not answered.  The
session has used all letters signalled to it but at most the last; that one is
still in the mailbox, as are the texts of senders that have yet to send their
signal.  A descriptor about to be stored in `user_pipe` is that of the fifo in
the last letter, and goes under the id of its sender.  The signalled letters are
acquisitions of the lock in their order, and every letter carries the id of the
process that acquired the lock for it.
-/
structure MailDelivered
    (machine : Machine)
    (pid : Nat) : Prop where
  oneSignal :
    ∑ other ∈ machine.forked,
      (machine.procs other).owes (machine.procs pid).id ≤ 1
  notOverwritten :
    ∀ sender ∈ machine.forked, ∀ signal text stage after,
      (machine.procs sender).code =
          .send (machine.procs pid).id signal text stage after →
      stage ≠ .wait → stage ≠ .copy →
        (machine.common.client (machine.procs pid).id).mailbox = text
  used :
    ∃ letters rest,
      (machine.procs pid).signalled = letters ++ rest ∧
        rest.length ≤ 1 ∧
        ((machine.procs pid).Unsignalled → rest = []) ∧
        (∀ letter ∈ rest,
          (machine.common.client (machine.procs pid).id).Contains letter) ∧
        (machine.procs pid).mailTexts = mailOf letters ∧
        (machine.procs pid).registered = fifosOf letters
  stores :
    ∀ fromId path fd,
      .storePipe fromId path fd ∈ (machine.procs pid).frames →
        ∃ earlier letter,
          (machine.procs pid).signalled = earlier ++ [letter] ∧
            letter.signal = .usr2 ∧ letter.fromId = fromId ∧
            letter.text = path
  inOrder :
    (machine.procs pid).signalled.Sublist
      (machine.common.acquired (machine.procs pid).id)
  authors :
    ∀ letter ∈ (machine.procs pid).signalled,
      (machine.procs letter.sender).id = letter.fromId

theorem Delivering.mailDelivered
    {machine : Machine}
    {pid : Nat}
    (delivering : Delivering machine)
    (loggedIn : machine.LoggedIn pid) :
    MailDelivered machine pid := by
  obtain ⟨member, running, named, notStopped⟩ := loggedIn
  have isClient := delivering.isClient member named
  have receiving := delivering.receiving pid member running named
  constructor
  case oneSignal =>
    have tokens := delivering.atMostOne _ isClient
    rw [Machine.tokens] at tokens
    omega
  case notOverwritten =>
    intro sender senderMember signal text stage after code notWaiting notCopying
    exact (delivering.sending sender senderMember _ signal text stage after
      code notWaiting isClient).copied notCopying
  case used =>
    cases receiving with
    | idle unsignalled inOrder used =>
        obtain ⟨texts, pipes⟩ := used notStopped
        exact ⟨(machine.procs pid).signalled, [], by simp, by simp,
          fun _ => rfl, by simp, texts, pipes⟩
    | underway before earlier letter isUsed last lastSignalled inOrder contains
        answers used =>
        obtain ⟨texts, pipes⟩ := used notStopped
        cases isUsed with
        | true =>
            exact ⟨(machine.procs pid).signalled, [], by simp, by simp,
              fun _ => rfl, by simp, texts, pipes⟩
        | false =>
            refine ⟨earlier, [letter], lastSignalled, by simp, ?_, ?_, texts,
              pipes⟩
            · intro unsignalled
              have owes := Receiving.answers_owes running answers
              rw [Process.owes_of_unsignalled unsignalled] at owes
              cases owes
            · simpa using contains
  case stores =>
    intro fromId path fd frame
    cases receiving with
    | idle unsignalled inOrder used =>
        rw [unsignalled.1] at frame
        cases frame
    | underway before earlier letter isUsed last lastSignalled inOrder contains
        answers used =>
        refine ⟨earlier, letter, lastSignalled, ?_⟩
        cases answers with
        | storePipe stored frames none kind =>
            simp only [frames, List.mem_singleton, Frame.storePipe.injEq]
              at frame
            exact ⟨kind, frame.1.symm, frame.2.1.symm⟩
        | pending frames | msgHandler frames | userPipeHandler frames
        | openGarbage frames | openMailbox frames | post frames =>
            simp [frames] at frame
  case inOrder => exact receiving.inOrder
  case authors =>
    intro letter letterMember
    exact (delivering.authors _ letter
      (receiving.inOrder.subset letterMember)).2.2

/-- The greeting is sent and answered. -/
def deliveredActions : List Action :=
  greetingActions ++
    [.kill 11, .deliver 10 .usr1, .handle 10 0, .handle 10 0]

end NpServers.MultiProc
