import Mathlib.Data.Nat.Digits.Defs
import NpServers.CStrings
import NpServers.EntryWrites

namespace NpServers.MultiProc

open Shell TransitionPath CStrings

/-!
# Texts in the shared records

`strcpy` fills two arrays of a `client_infor`: its name has 20 bytes, and its
mailbox behind it has 1024.  The functions that build a message have arrays of
their own, which are larger than a mailbox, and `cmd_name` does not look at the
length of a name.  A symbol of a text stands for one byte.

Where every line that is announced, told, yelled or taken as a name is short
enough, no text that a session stores leaves its array, so no other field of any
record changes.
-/

/-! ## The records in memory -/

/-- `max_name_len`. -/
def maxNameLen : Nat := 20

/-- `max_msg_len`. -/
def maxMsgLen : Nat := 1024

/-- The fields of `client_infor`, in their order. -/
inductive EntryField where
  | pid
  | state
  | name
  | mailbox
  | fromId
  | userPipe
  | connectionInfor
  | lock
deriving DecidableEq, Repr

namespace EntryField

/-- The bytes of a field. -/
def size : EntryField → Nat
  | pid => 4
  | state => 4
  | name => maxNameLen
  | mailbox => maxMsgLen
  | fromId => 4
  | userPipe => 4 * (maxClientNum + 1)
  | connectionInfor => 16
  | lock => 32

/-- Where a field starts in its record; four bytes are free in front of the
semaphore. -/
def offset : EntryField → Nat
  | pid => 0
  | state => 4
  | name => 8
  | mailbox => 28
  | fromId => 1052
  | userPipe => 1056
  | connectionInfor => 1180
  | lock => 1200

/-- `sizeof(client_infor)`. -/
def entrySize : Nat := 1232

/-- The address of a field of `client_list[entry]`. -/
def address
    (entry : Nat)
    (field : EntryField) : Nat :=
  entry * entrySize + field.offset

theorem within
    (field : EntryField) :
    field.offset + field.size ≤ entrySize := by
  cases field <;> decide

theorem apart
    {field other : EntryField}
    (different : field ≠ other) :
    field.offset + field.size ≤ other.offset ∨
      other.offset + other.size ≤ field.offset := by
  revert different
  cases field <;> cases other <;> decide

/-- Different fields have no byte in common. -/
theorem address_outside
    {entry other : Nat}
    {field otherField : EntryField}
    (different : (other, otherField) ≠ (entry, field))
    {byte : Nat}
    (inField : byte < otherField.size) :
    address other otherField + byte < address entry field ∨
      address entry field + field.size ≤ address other otherField + byte := by
  have fieldWithin := within field
  have otherWithin := within otherField
  unfold address entrySize at *
  rcases Nat.lt_trichotomy other entry with before | rfl | behind
  · omega
  · have differs : field ≠ otherField := by
      rintro rfl
      exact different rfl
    have fieldsApart := apart differs
    omega
  · omega

end EntryField

/-- A `strcpy` to a field of a record. -/
structure StringStore where
  entry : Nat
  field : EntryField
  text : String
deriving DecidableEq, Repr

namespace StringStore

/-- The memory of all records after it. -/
def run
    (store : StringStore)
    (memory : Nat → Char) : Nat → Char :=
  strcpyAt (Char.ofNat 0) (store.field.address store.entry) store.text.toList
    memory

/-- The text is shorter than the array. -/
def Fits (store : StringStore) : Prop :=
  store.text.length < store.field.size

/-- No byte of another field changes, in any record. -/
def KeepsOthers (store : StringStore) : Prop :=
  ∀ memory entry field byte,
    (entry, field) ≠ (store.entry, store.field) →
    byte < field.size →
    store.run memory (field.address entry + byte) =
      memory (field.address entry + byte)

theorem Fits.keepsOthers
    {store : StringStore}
    (fits : store.Fits) :
    store.KeepsOthers := by
  intro memory entry field byte different inField
  have short : store.text.toList.length < store.field.size := by
    rw [String.length_toList]
    exact fits
  exact strcpyAt_outside short memory
    (EntryField.address_outside different inField)

/-- A name or a mailbox is followed by another field, which a text that does not
fit changes. -/
theorem keepsOthers_iff_fits
    {store : StringStore}
    (isString : store.field = .name ∨ store.field = .mailbox) :
    store.KeepsOthers ↔ store.Fits := by
  refine ⟨fun keeps => ?_, Fits.keepsOthers⟩
  obtain ⟨behind, differs, nonempty, isBehind⟩ :
      ∃ behind : EntryField, behind ≠ store.field ∧ 0 < behind.size ∧
        behind.offset = store.field.offset + store.field.size := by
    rcases isString with isName | isMailbox
    · exact ⟨.mailbox, by rw [isName]; decide, by decide, by rw [isName]; rfl⟩
    · exact ⟨.fromId, by rw [isMailbox]; decide, by decide,
        by rw [isMailbox]; rfl⟩
  have kept (memory : Nat → Char) :
      store.run memory
          (store.field.address store.entry + store.field.size) =
        memory (store.field.address store.entry + store.field.size) := by
    have sameAddress :
        store.field.address store.entry + store.field.size =
          behind.address store.entry + 0 := by
      rw [EntryField.address, EntryField.address, isBehind]
      omega
    rw [sameAddress]
    refine keeps memory store.entry behind 0 ?_ nonempty
    exact fun same => differs (Prod.mk.inj same).2
  have short := lt_of_strcpyAt_behind kept
  rwa [String.length_toList] at short

end StringStore

/-! ## The stores of a session -/

namespace Machine

/-- The `strcpy` of the next statement of a process. -/
def stringStore
    (machine : Machine)
    (pid : Nat) : Option StringStore :=
  match (machine.procs pid).code with
  | .send target _ text .copy _ =>
      some { entry := target, field := .mailbox, text := text }
  | .storeName =>
      some { entry := (machine.procs pid).id, field := .name, text := noName }
  | .nameStore name =>
      some { entry := (machine.procs pid).id, field := .name, text := name }
  | _ => none

/-- The texts that the sessions store next are shorter than their arrays, and
nothing else changes with them. -/
def StoresFit (machine : Machine) : Prop :=
  ∀ pid ∈ machine.forked, ∀ store ∈ machine.stringStore pid,
    store.Fits ∧ store.KeepsOthers

variable {machine next : Machine}

/-- Only these statements change the name or the mailbox of a record. -/
theorem Steps.stringStore
    {action : Action}
    (steps : machine.Steps action next)
    (entry : Nat) :
    ((next.common.client entry).name = (machine.common.client entry).name ∧
        (next.common.client entry).mailbox =
          (machine.common.client entry).mailbox) ∨
      ∃ pid text,
        action = .main pid ∧ pid ∈ machine.forked ∧
          ((machine.stringStore pid =
                some { entry := entry, field := .name, text := text } ∧
              (next.common.client entry).name = text ∧
              (next.common.client entry).mailbox =
                (machine.common.client entry).mailbox) ∨
            (machine.stringStore pid =
                some { entry := entry, field := .mailbox, text := text } ∧
              (next.common.client entry).mailbox = text ∧
              (next.common.client entry).name =
                (machine.common.client entry).name)) := by
  rcases steps.writes with same | ⟨i, change, write, same⟩
  · rw [same]
    exact Or.inl ⟨rfl, rfl⟩
  · rw [same]
    by_cases here : entry = i
    · subst here
      rw [Common.client_setClient_self]
      cases write with
      | @handle pid fd i change member running writes =>
          cases writes with
          | storePipe | post => exact Or.inl ⟨rfl, rfl⟩
      | @main pid i change member running writes =>
          cases writes with
          | storePid | storeState | clearState | clearRow | clearColumn
          | consumePipe | acquire | mark | release =>
              exact Or.inl ⟨rfl, rfl⟩
          | storeName code =>
              refine Or.inr ⟨pid, noName, rfl, member, Or.inl ⟨?_, rfl, rfl⟩⟩
              rw [Machine.stringStore, code]
          | nameStore code =>
              refine Or.inr ⟨pid, _, rfl, member, Or.inl ⟨?_, rfl, rfl⟩⟩
              rw [Machine.stringStore, code]
          | copy code =>
              refine Or.inr ⟨pid, _, rfl, member, Or.inr ⟨?_, rfl, rfl⟩⟩
              rw [Machine.stringStore, code]
    · rw [Common.client_setClient_of_ne here]
      exact Or.inl ⟨rfl, rfl⟩

end Machine

/-! ## The texts of a session -/

/-- A broadcast goes on with its message. -/
def AfterSend.Fits : AfterSend → Prop
  | .broadcast msg _ _ => msg.length < maxMsgLen
  | _ => True

/-- The texts that the code holds fit where they are copied to. -/
def Code.Fits : Code → Prop
  | .broadcast msg _ _ => msg.length < maxMsgLen
  | .send _ _ text _ after => text.length < maxMsgLen ∧ after.Fits
  | .nameScan name _ => name.length < maxNameLen
  | .nameStore name => name.length < maxNameLen
  | .unlockFifo _ fileName => (fifoPath fileName).length < maxMsgLen
  | .clearColumn name _ => name.length < maxNameLen
  | .countLogout name => name.length < maxNameLen
  | .lowerMinId name => name.length < maxNameLen
  | _ => True

/-- The bytes of an address and a port. -/
def maxPeerLen : Nat := 21

/-- The texts of a process, with that of its peer. -/
def Process.TextsFit (proc : Process) : Prop :=
  proc.peer.length ≤ maxPeerLen ∧ proc.code.Fits

theorem AfterBroadcast.fits_code
    (after : AfterBroadcast) :
    after.code.Fits := by
  cases after with
  | userPipes vars =>
      simp only [AfterBroadcast.code, PipeVars.start]
      split <;> trivial
  | _ => trivial

theorem PipeVars.fits_start
    (vars : PipeVars) :
    vars.start.Fits := by
  unfold PipeVars.start
  split <;> trivial

theorem PipeVars.fits_created
    (vars : PipeVars) :
    vars.created.Fits := by
  unfold PipeVars.created
  split <;> trivial

theorem PipeVars.fits_consumed
    (vars : PipeVars) :
    vars.consumed.Fits := by
  unfold PipeVars.consumed
  split <;> trivial

theorem AfterSend.Fits.signalled
    {after : AfterSend}
    (fits : after.Fits) :
    after.signalled.Fits := by
  cases after with
  | broadcast msg i next => exact fits
  | shell | openFifo => trivial

theorem AfterSend.Fits.released
    {after : AfterSend}
    (fits : after.Fits) :
    after.released.Fits := by
  cases after with
  | broadcast msg i next => exact fits
  | shell => trivial
  | openFifo path vars => exact vars.fits_created

/-! ## The lengths of the messages -/

section Messages

variable (name peer text cmd targetName : String)
variable (id targetId : Nat)

theorem length_loginMsg :
    (loginMsg name peer).length =
      31 + name.length + peer.length := by
  have pieces :
      "*** User '".length = 10 ∧
        "' entered from ".length = 15 ∧
        ". ***\n".length = 6 := by
    decide
  unfold loginMsg
  simp only [String.length_append, pieces]
  omega

theorem length_logoutMsg :
    (logoutMsg name).length =
      22 + name.length := by
  have pieces :
      "*** User '".length = 10 ∧
        "' left. ***\n".length = 12 := by
    decide
  unfold logoutMsg
  simp only [String.length_append, pieces]
  omega

theorem length_tellMsg :
    (tellMsg name text).length =
      20 + name.length + text.length := by
  have pieces :
      "*** ".length = 4 ∧
        " told you ***: ".length = 15 ∧
        "\n".length = 1 := by
    decide
  unfold tellMsg
  simp only [String.length_append, pieces]
  omega

theorem length_yellMsg :
    (yellMsg name text).length =
      18 + name.length + text.length := by
  have pieces :
      "*** ".length = 4 ∧
        " yelled ***: ".length = 13 ∧
        "\n".length = 1 := by
    decide
  unfold yellMsg
  simp only [String.length_append, pieces]
  omega

theorem length_namedMsg :
    (namedMsg peer name).length =
      32 + peer.length + name.length := by
  have pieces :
      "*** User from ".length = 14 ∧
        " is named '".length = 11 ∧
        "'. ***\n".length = 7 := by
    decide
  unfold namedMsg
  simp only [String.length_append, pieces]
  omega

theorem length_receivedMsg :
    (receivedMsg name id targetName targetId cmd).length =
      43 + name.length + (toString id).length + targetName.length +
        (toString targetId).length + cmd.length := by
  have pieces :
      "*** ".length = 4 ∧
        " (#".length = 3 ∧
        ") just received from ".length = 21 ∧
        ") by '".length = 6 ∧
        "' ***\n".length = 6 := by
    decide
  unfold receivedMsg
  simp only [String.length_append, pieces]
  omega

theorem length_pipedMsg :
    (pipedMsg name id targetName targetId cmd).length =
      35 + name.length + (toString id).length + targetName.length +
        (toString targetId).length + cmd.length := by
  have pieces :
      "*** ".length = 4 ∧
        " (#".length = 3 ∧
        ") just piped '".length = 14 ∧
        "' to ".length = 5 ∧
        ") ***\n".length = 6 := by
    decide
  unfold pipedMsg
  simp only [String.length_append, pieces]
  omega

/-- The number of a fifo has at most ten digits. -/
theorem length_fifoPath_le
    {fileName : Nat}
    (isInt : fileName < 2 ^ 31) :
    (fifoPath fileName).length ≤ 20 := by
  have digits : (toString fileName).length ≤ 10 :=
    Nat.repr_length fileName 10 (by decide) (by omega)
  have piece : "user_pipe/".length = 10 := by
    decide
  unfold fifoPath
  rw [String.length_append, piece]
  omega

end Messages

/-! ## Short lines -/

/-- The message of `announceIn` for the clients fits, if there is one. -/
def announceInFits
    (common : Common)
    (proc : Process)
    (vars : PipeVars) : Bool :=
  let target := vars.line.userInId
  decide (target = 0) ||
    decide (maxClientNum < target ∨ ¬ (common.client target).state) ||
    decide ((common.client proc.id).userPipe target < 0) ||
    decide
      (43 + (common.client proc.id).name.length + (toString proc.id).length +
          (common.client target).name.length + (toString target).length +
          vars.line.cmd.length <
        maxMsgLen)

/-- The message of `announceOut` for the clients fits, if there is one. -/
def announceOutFits
    (common : Common)
    (proc : Process)
    (vars : PipeVars) : Bool :=
  let target := vars.line.userOutId
  decide (target = 0) ||
    decide (maxClientNum < target ∨ ¬ (common.client target).state) ||
    decide (0 ≤ (common.client target).userPipe proc.id) ||
    decide
      (35 + (common.client proc.id).name.length + (toString proc.id).length +
          (common.client target).name.length + (toString target).length +
          vars.line.cmd.length <
        maxMsgLen)

/-- The message or the name of a line fits. -/
def lineFits
    (common : Common)
    (proc : Process) : Line → Bool
  | .exit => true
  | .tell tellId text =>
      decide (maxClientNum < tellId ∨ ¬ (common.client tellId).state) ||
        decide
          (20 + (common.client proc.id).name.length + text.length < maxMsgLen)
  | .yell text =>
      decide
        (18 + (common.client proc.id).name.length + text.length < maxMsgLen)
  | .name name => decide (name.length < maxNameLen)
  | .command _ => true

namespace Machine

/--
The condition on a step: a line that is read, or a command that is announced,
leaves room for the rest of its message, and a name is shorter than its array.
-/
def messageFits
    (machine : Machine) : Action → Bool
  | .line pid line => lineFits machine.common (machine.procs pid) line
  | .main pid =>
      match (machine.procs pid).code with
      | .announceIn vars =>
          announceInFits machine.common (machine.procs pid) vars
      | .announceOut vars =>
          announceOutFits machine.common (machine.procs pid) vars
      | _ => true
  | _ => true

/-- What the environment gives: the text of an address and a port, and a counter
that has not left `int`. -/
def withinLimits
    (machine : Machine) : Action → Bool
  | .fork _ peer => decide (peer.length ≤ maxPeerLen)
  | .main pid =>
      match (machine.procs pid).code with
      | .countFifo _ => decide (machine.common.shared.fifoInfor.count + 1 < 2 ^ 31)
      | _ => true
  | _ => true

/-- All names in the table, and all texts that the sessions hold, fit where they
are copied to. -/
structure TextsFit (machine : Machine) : Prop where
  names : ∀ i, (machine.common.client i).name.length < maxNameLen
  procs : ∀ pid ∈ machine.forked, (machine.procs pid).TextsFit

end Machine

/-! ## Single statements -/

/-- An announcement holds a text that fits exactly if the command is short
enough. -/
theorem announceIn_fits_iff
    (common : Common)
    (proc : Process)
    (vars : PipeVars) :
    (announceIn common proc vars).code.Fits ↔
      announceInFits common proc vars = true := by
  unfold announceIn announceInFits
  dsimp only
  split
  · rename_i none
    exact iff_of_true trivial (by simp [none])
  · rename_i some
    split
    · rename_i noUser
      exact iff_of_true trivial (by
        simp only [noUser, decide_true, Bool.or_true, Bool.true_or])
    · rename_i isUser
      split
      · rename_i noPipe
        exact iff_of_true trivial (by simp [noPipe])
      · rename_i isPipe
        simp only [some, isUser, isPipe, decide_false, Bool.false_or,
          decide_eq_true_eq, Process.goto, Code.Fits, length_receivedMsg]

theorem announceOut_fits_iff
    (common : Common)
    (proc : Process)
    (vars : PipeVars) :
    (announceOut common proc vars).code.Fits ↔
      announceOutFits common proc vars = true := by
  unfold announceOut announceOutFits
  dsimp only
  split
  · rename_i none
    exact iff_of_true vars.fits_start (by simp [none])
  · rename_i some
    split
    · rename_i noUser
      exact iff_of_true vars.fits_start (by
        simp only [noUser, decide_true, Bool.or_true, Bool.true_or])
    · rename_i isUser
      split
      · rename_i isPipe
        exact iff_of_true vars.fits_start (by simp [isPipe])
      · rename_i noPipe
        simp only [some, isUser, noPipe, decide_false, Bool.false_or,
          decide_eq_true_eq, Process.goto, Code.Fits, length_pipedMsg]

theorem announceIn_peer
    (common : Common)
    (proc : Process)
    (vars : PipeVars) :
    (announceIn common proc vars).peer = proc.peer := by
  unfold announceIn
  dsimp only
  split_ifs <;> rfl

theorem announceOut_peer
    (common : Common)
    (proc : Process)
    (vars : PipeVars) :
    (announceOut common proc vars).peer = proc.peer := by
  unfold announceOut
  dsimp only
  split_ifs <;> rfl

theorem obey_peer
    (common : Common)
    (proc : Process)
    (line : Line) :
    (obey common proc line).peer = proc.peer := by
  cases line with
  | tell tellId text =>
      unfold obey
      dsimp only
      split <;> rfl
  | exit | yell | name | command =>
      rfl

/-- A line at the shell gives a text that fits exactly if it is short enough. -/
theorem obey_fits_iff
    {proc : Process}
    (atShell : proc.code = .shell)
    (common : Common)
    (line : Line) :
    (obey common proc line).code.Fits ↔ lineFits common proc line = true := by
  cases line with
  | exit | command =>
      exact iff_of_true trivial rfl
  | tell tellId text =>
      unfold obey lineFits
      dsimp only
      split
      · rename_i noUser
        refine iff_of_true ?_ (by
          simp only [noUser, decide_true, Bool.true_or])
        rw [Process.print, atShell]
        trivial
      · rename_i isUser
        simp only [isUser, decide_false, Bool.false_or, decide_eq_true_eq,
          Process.goto, Code.Fits, length_tellMsg, AfterSend.Fits, and_true]
  | yell text =>
      simp only [obey, lineFits, Process.goto, Code.Fits, length_yellMsg,
        decide_eq_true_eq]
  | name name =>
      simp only [obey, lineFits, Process.goto, Code.Fits, decide_eq_true_eq]

/-- A sender goes on with its text and its broadcast. -/
theorem sendStep_fits
    {self target : Nat}
    {common common' : Common}
    {proc proc' : Process}
    {signal : Signal}
    {text : String}
    {stage : SendStage}
    {after : AfterSend}
    (fits : text.length < maxMsgLen ∧ after.Fits)
    (steps :
      sendStep self common proc target signal text after stage =
        some (common', proc')) :
    proc'.peer = proc.peer ∧ proc'.code.Fits := by
  cases stage with
  | wait =>
      simp only [sendStep] at steps
      split at steps
      · cases steps
        exact ⟨rfl, fits⟩
      · cases steps
  | copy | mark =>
      simp only [sendStep] at steps
      cases steps
      exact ⟨rfl, fits⟩
  | check =>
      simp only [sendStep] at steps
      split at steps
      · cases steps
        exact ⟨rfl, fits⟩
      · cases steps
        exact ⟨rfl, fits⟩
  | kill =>
      cases steps
  | release =>
      simp only [sendStep] at steps
      cases steps
      exact ⟨rfl, fits.2.released⟩

/-- A statement outside the handlers holds texts that fit, when what it announces
does. -/
theorem mainStep_textsFit
    {self : Nat}
    {canOpen : String → Bool}
    {common common' : Common}
    {proc proc' : Process}
    (names : ∀ i, (common.client i).name.length < maxNameLen)
    (fits : proc.TextsFit)
    (counts :
      ∀ vars, proc.code = .countFifo vars →
        common.shared.fifoInfor.count + 1 < 2 ^ 31)
    (announcesIn :
      ∀ vars, proc.code = .announceIn vars →
        announceInFits common proc vars = true)
    (announcesOut :
      ∀ vars, proc.code = .announceOut vars →
        announceOutFits common proc vars = true)
    (steps : mainStep self canOpen common proc = some (common', proc')) :
    proc'.TextsFit := by
  obtain ⟨peer, codeFits⟩ := fits
  have named := names proc.id
  unfold maxPeerLen at peer
  unfold maxNameLen at named
  cases code : proc.code with
  | send target signal text stage after =>
      rw [code] at codeFits
      simp only [mainStep, code] at steps
      obtain ⟨samePeer, fitsNow⟩ := sendStep_fits codeFits steps
      exact ⟨by rw [samePeer]; exact peer, fitsNow⟩
  | shell | exit =>
      simp [mainStep, code] at steps
  | takeId | countLogin | storePid | storeState | storeName | scanMinId
  | postLock | unlockLogin | stop | clearState | unlockLogout =>
      simp only [mainStep, code] at steps
      cases steps
      exact ⟨peer, trivial⟩
  | lockLogin | lockFifo vars | lockLogout =>
      simp only [mainStep, code] at steps
      split at steps
      · cases steps
        exact ⟨peer, trivial⟩
      · cases steps
  | printLoginMsg =>
      simp only [mainStep, code] at steps
      cases steps
      refine ⟨peer, ?_⟩
      simp only [Process.goto, Code.Fits, length_loginMsg, maxMsgLen]
      omega
  | broadcast msg i after =>
      rw [code] at codeFits
      simp only [mainStep, code] at steps
      cases steps
      unfold broadcastStep
      split
      · exact ⟨peer, after.fits_code⟩
      · split
        · split
          · exact ⟨peer, codeFits⟩
          · exact ⟨peer, codeFits, codeFits⟩
        · exact ⟨peer, codeFits⟩
  | nameScan name i =>
      rw [code] at codeFits
      simp only [mainStep, code] at steps
      cases steps
      unfold nameStep
      split
      · exact ⟨peer, codeFits⟩
      · split
        · exact ⟨peer, trivial⟩
        · exact ⟨peer, codeFits⟩
  | nameStore name =>
      rw [code] at codeFits
      simp only [mainStep, code] at steps
      cases steps
      refine ⟨peer, ?_⟩
      simp only [Code.Fits, maxNameLen] at codeFits
      simp only [Process.goto, Code.Fits, length_namedMsg, maxMsgLen]
      omega
  | announceIn vars =>
      simp only [mainStep, code] at steps
      cases steps
      refine ⟨?_, (announceIn_fits_iff common proc vars).mpr
        (announcesIn vars code)⟩
      rw [announceIn_peer]
      exact peer
  | announceOut vars =>
      simp only [mainStep, code] at steps
      cases steps
      refine ⟨?_, (announceOut_fits_iff common proc vars).mpr
        (announcesOut vars code)⟩
      rw [announceOut_peer]
      exact peer
  | createPipe vars =>
      simp only [mainStep, code] at steps
      split at steps
      · cases steps
        exact ⟨peer, trivial⟩
      · cases steps
        exact ⟨peer, vars.fits_created⟩
  | countFifo vars =>
      simp only [mainStep, code] at steps
      cases steps
      refine ⟨peer, ?_⟩
      exact Nat.lt_of_le_of_lt (length_fifoPath_le (counts vars code))
        (by decide)
  | unlockFifo vars fileName =>
      rw [code] at codeFits
      simp only [mainStep, code] at steps
      cases steps
      exact ⟨peer, codeFits, trivial⟩
  | openFifo path vars =>
      simp only [mainStep, code] at steps
      split at steps
      · cases steps
        exact ⟨peer, vars.fits_created⟩
      · cases steps
  | consumePipe vars =>
      simp only [mainStep, code] at steps
      split at steps
      · cases steps
        exact ⟨peer, vars.fits_consumed⟩
      · cases steps
        exact ⟨peer, vars.fits_consumed⟩
  | clearRow =>
      simp only [mainStep, code] at steps
      cases steps
      exact ⟨peer, names proc.id⟩
  | clearColumn name i =>
      rw [code] at codeFits
      simp only [mainStep, code] at steps
      split at steps
      · cases steps
        exact ⟨peer, codeFits⟩
      · cases steps
        exact ⟨peer, codeFits⟩
  | countLogout name =>
      rw [code] at codeFits
      simp only [mainStep, code] at steps
      cases steps
      exact ⟨peer, codeFits⟩
  | lowerMinId name =>
      rw [code] at codeFits
      simp only [mainStep, code] at steps
      cases steps
      refine ⟨peer, ?_⟩
      simp only [Code.Fits, maxNameLen] at codeFits
      simp only [Process.goto, Code.Fits, length_logoutMsg, maxMsgLen]
      omega

/-! ## Steps and runs -/

namespace Machine

variable {machine next : Machine}

/-- The sessions that are about to store a text keep to its array. -/
theorem TextsFit.storesFit
    (fit : machine.TextsFit) :
    machine.StoresFit := by
  intro pid member store isStore
  have codeFits := (fit.procs pid member).2
  obtain ⟨isString, fits⟩ :
      (store.field = .name ∨ store.field = .mailbox) ∧ store.Fits := by
    unfold Machine.stringStore at isStore
    split at isStore
    · rename_i code
      rw [code] at codeFits
      cases isStore
      exact ⟨Or.inr rfl, codeFits.1⟩
    · cases isStore
      refine ⟨Or.inl rfl, ?_⟩
      change noName.length < maxNameLen
      decide
    · rename_i code
      rw [code] at codeFits
      cases isStore
      exact ⟨Or.inl rfl, codeFits⟩
    · cases isStore
  exact ⟨fits, (StringStore.keepsOthers_iff_fits isString).mpr fits⟩

theorem textsFit_initial (serverPid : Nat) :
    (initial serverPid).TextsFit where
  names := by
    intro i
    change "".length < maxNameLen
    decide
  procs := by simp [initial]

/-- All names still fit after a step. -/
theorem TextsFit.names_step
    (fit : machine.TextsFit)
    {action : Action}
    (steps : machine.Steps action next)
    (i : Nat) :
    (next.common.client i).name.length < maxNameLen := by
  rcases steps.stringStore i with ⟨kept, -⟩ | ⟨pid, text, -, member, stores⟩
  · rw [kept]
    exact fit.names i
  · rcases stores with ⟨isStore, isText, -⟩ | ⟨-, -, kept⟩
    · rw [isText]
      exact (fit.storesFit pid member _ isStore).1
    · rw [kept]
      exact fit.names i

/-- A step that takes up no text that is too long. -/
theorem TextsFit.step
    (fit : machine.TextsFit)
    {action : Action}
    (limits : machine.withinLimits action = true)
    (short : machine.messageFits action = true)
    (steps : machine.Steps action next) :
    next.TextsFit where
  names := fit.names_step steps
  procs := by
    refine Keeps.step ?_ fit.procs steps
    constructor
    case forked =>
      rintro pid peer rfl
      exact ⟨of_decide_eq_true limits, trivial⟩
    case main =>
      rintro pid common' proc' rfl member _ stepped
      refine mainStep_textsFit fit.names (fit.procs pid member) ?_ ?_ ?_ stepped
      · intro vars code
        simpa [withinLimits, code] using limits
      · intro vars code
        simpa only [messageFits, code] using short
      · intro vars code
        simpa only [messageFits, code] using short
    case line =>
      rintro pid line rfl member atShell
      refine ⟨?_, (obey_fits_iff atShell machine.common line).mpr short⟩
      rw [obey_peer]
      exact (fit.procs pid member).1
    case sent =>
      intro pid target signal text after _ member code
      obtain ⟨peer, codeFits⟩ := fit.procs pid member
      rw [code] at codeFits
      exact ⟨peer, codeFits.2.signalled⟩
    case receive =>
      intro proc letter holds
      unfold Process.receive
      split
      · exact holds
      · exact holds
    case exit =>
      intro pid member
      exact fit.procs pid member
    case interrupt =>
      intro pid signal member
      exact fit.procs pid member
    case handle =>
      intro pid fd common' proc' member stepped
      have sameMain := handlerStep_sameMain stepped
      rw [Process.TextsFit, sameMain.peer, sameMain.code]
      exact fit.procs pid member

/-- A step that takes up a text that is too long leaves it with its session. -/
theorem messageFits_of_textsFit
    {action : Action}
    (fit : next.TextsFit)
    (steps : machine.Steps action next) :
    machine.messageFits action = true := by
  cases action with
  | line pid line =>
      obtain ⟨member, _, atShell, rfl⟩ := steps_line steps
      have codeFits := (fit.procs pid member).2
      rw [setProc_procs_self] at codeFits
      exact (obey_fits_iff atShell machine.common line).mp codeFits
  | main pid =>
      obtain ⟨member, _, _, common', proc', stepped, rfl⟩ := steps_main steps
      have codeFits := (fit.procs pid member).2
      rw [setBoth_procs_self] at codeFits
      cases code : (machine.procs pid).code with
      | announceIn vars =>
          simp only [mainStep, code] at stepped
          cases stepped
          simp only [messageFits, code]
          exact (announceIn_fits_iff _ _ vars).mp codeFits
      | announceOut vars =>
          simp only [mainStep, code] at stepped
          cases stepped
          simp only [messageFits, code]
          exact (announceOut_fits_iff _ _ vars).mp codeFits
      | _ =>
          simp only [messageFits, code]
  | fork | waitLock | waitRoom | kill | exit | deliver | handle =>
      rfl

/-- In every run, all texts that the sessions hold fit exactly if every line that
is read or announced leaves room for its message. -/
theorem textsFit_iff_messagesFit
    (serverPid : Nat)
    {path : List (Action × Machine)}
    (isPath : Path Steps (initial serverPid) path)
    (limits :
      EveryStep (fun machine action => machine.withinLimits action = true)
        (initial serverPid) path) :
    EveryState TextsFit (initial serverPid) path ↔
      EveryStep (fun machine action => machine.messageFits action = true)
        (initial serverPid) path := by
  have noInvariant :
      ∀ {machine : Machine} {action : Action} {next : Machine},
        True →
        machine.withinLimits action = true ∧ machine.Steps action next →
        True :=
    fun _ _ => trivial
  refine Path.everyState_iff_everyStep noInvariant ?_ trivial
    (textsFit_initial serverPid) (isPath.restrict limits)
  rintro machine action next - fit ⟨withinLimits, steps⟩
  constructor
  · intro fitNext
    exact messageFits_of_textsFit fitNext steps
  · intro short
    exact fit.step withinLimits short steps

/--
In every run in which each line that is read or announced leaves room for the
rest of its message, and each name is shorter than its array, no session stores a
text that leaves its array.
-/
theorem storesFit_of_messagesFit
    (serverPid : Nat)
    {path : List (Action × Machine)}
    (isPath : Path Steps (initial serverPid) path)
    (limits :
      EveryStep (fun machine action => machine.withinLimits action = true)
        (initial serverPid) path)
    (short :
      EveryStep (fun machine action => machine.messageFits action = true)
        (initial serverPid) path) :
    EveryState StoresFit (initial serverPid) path :=
  ((textsFit_iff_messagesFit serverPid isPath limits).mpr short).mono
    fun _ fit => fit.storesFit

/-- A short line is copied to the mailbox of the other client. -/
def yelledActions : List Action :=
  twoLoginActions ++ [Action.line 10 (.yell "hi")] ++
    List.replicate 4 (Action.main 10)

theorem storesFit_yelled :
    EveryState StoresFit (initial 5) (actionPath 5 yelledActions) := by
  refine storesFit_of_messagesFit 5 (path_actionPath (by decide +kernel)) ?_ ?_
  · decide +kernel
  · decide +kernel

/-- The scan of the first client finds nobody with a name of 20 bytes. -/
def longNameActions : List Action :=
  twoLoginActions ++ [Action.line 10 (.name "abcdefghijklmnopqrst")] ++
    List.replicate 31 (Action.main 10)

/-- The name of 20 bytes is stored although its array has no room for its end. -/
theorem stores_not_fit :
    Path Steps (initial 5) (actionPath 5 longNameActions) ∧
      EveryStep (fun machine action => machine.withinLimits action = true)
        (initial 5) (actionPath 5 longNameActions) ∧
      ¬ EveryState StoresFit (initial 5) (actionPath 5 longNameActions) := by
  refine ⟨path_actionPath (by decide +kernel), by decide +kernel, ?_⟩
  intro everyState
  have isStored :
      (lastState (initial 5) (actionPath 5 longNameActions)).stringStore 10 =
        some { entry := 1, field := .name, text := "abcdefghijklmnopqrst" } := by
    decide +kernel
  have fits := (everyState.last 10 (by decide +kernel) _ isStored).1
  change "abcdefghijklmnopqrst".length < maxNameLen at fits
  exact absurd fits (by decide)

end Machine

end NpServers.MultiProc
