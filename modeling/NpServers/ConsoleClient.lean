import Mathlib.Data.List.Count
import Mathlib.Data.List.TakeWhile
import NpServers.CStrings
import NpServers.TransitionPath

namespace NpServers.Console

open NpServers.CStrings NpServers.TransitionPath

/-!
# A client of the console and its shell

A client of the console reads what its shell prints.  Whenever a read contains
`%`, it sends the next line of its input file, and it reads on when the line is
written.  Both consoles have the same code for it.

A client that reads behind the end of `data_` is in the phase `overrun`, of which
nothing more is said.  A line is sent when its write starts.  That the newline
behind a line of 14999 bytes is written behind `cmd` is not told apart.
-/

/-! ## The source functions -/

/-- `max_input_len`. -/
def maxInputLen : Nat := 15000

/-- `max_length`, the size of `data_` and `socks4_reply`. -/
def maxLength : Nat := 1024

/-- The operation that is pending. -/
inductive Phase where
  | replying
  | reading
  | writing
  | stopped
  | overrun
deriving DecidableEq, Repr

/-- A client: the lines that are left of its file, all texts passed to
`print_output`, and all bytes passed to `async_write`. -/
structure Client where
  phase : Phase
  lines : List (List Char)
  shown : List Char
  sent : List Char
deriving DecidableEq, Repr

/-- The end of a C string. -/
def nul : Char := Char.ofNat 0

/-- The C string in `data_` after a read into the cleared array. -/
def dataString (chunk : List Char) : Option (List Char) :=
  bufferString maxLength nul chunk

/-- `strtok(cmd, "\r\n")` ends the string behind its first word. -/
def cutLine (cmd : List Char) : List Char :=
  let isDelimiter : Char → Bool := fun symbol => symbol = '\r' ∨ symbol = '\n'
  cmd.takeWhile isDelimiter ++
    (cmd.dropWhile isDelimiter).takeWhile fun symbol => !isDelimiter symbol

namespace Client

/-- The array `cmd` after `getline`; at the end of the file it stays empty. -/
def getline (client : Client) : List Char :=
  ((client.lines.headD []).take (maxInputLen - 1)).takeWhile fun symbol =>
    symbol ≠ nul

/-- `start_write`.  After a line that does not fit, `getline` fails for good. -/
def startWrite (client : Client) : Client :=
  { client with
    phase := .writing
    lines :=
      if (client.lines.headD []).length < maxInputLen then client.lines.tail
      else []
    sent := client.sent ++ (cutLine client.getline ++ ['\n']) }

/-- `handle_read` without an error. -/
def handleRead
    (chunk : List Char)
    (client : Client) : Client :=
  match dataString chunk with
  | none => { client with phase := .overrun }
  | some data =>
      let client := { client with shown := client.shown ++ data }
      if '%' ∈ data then
        client.startWrite
      else
        { client with phase := .reading }

/-- `handle_write` without an error. -/
def handleWrite (client : Client) : Client :=
  { client with phase := .reading }

/-- `stop`. -/
def stop (client : Client) : Client :=
  { client with phase := .stopped }

/-- A client that is connected to its shell, with its file just opened. -/
def start (lines : List (List Char)) : Client where
  phase := .reading
  lines := lines
  shown := []
  sent := []

end Client

/-! ## Client and shell together -/

/-- The client, what it has read, what the shell has sent beyond that, and how
many commands the shell has received. -/
structure Dialogue where
  client : Client
  received : List Char
  downstream : List Char
  served : Nat
deriving DecidableEq, Repr

/-- What client and shell can do. -/
inductive DialogueAction where
  | serverSends (text : List Char)
  | serverReceives
  | clientReads (length : Nat)
  | clientWritten
  | clientFails
deriving DecidableEq, Repr

namespace Dialogue

/-- Before the first byte. -/
def start (lines : List (List Char)) : Dialogue where
  client := Client.start lines
  received := []
  downstream := []
  served := 0

/-- A transition.  A read takes from 1 to 1023 of the bytes that are there. -/
def Step
    (dialogue : Dialogue)
    (action : DialogueAction)
    (next : Dialogue) : Prop :=
  match action with
  | .serverSends text =>
      nul ∉ text ∧
        next = { dialogue with downstream := dialogue.downstream ++ text }
  | .serverReceives =>
      dialogue.served < dialogue.client.sent.count '\n' ∧
        next = { dialogue with served := dialogue.served + 1 }
  | .clientReads length =>
      dialogue.client.phase = .reading ∧ 0 < length ∧ length < maxLength ∧
        length ≤ dialogue.downstream.length ∧
        next =
          { dialogue with
            client :=
              dialogue.client.handleRead (dialogue.downstream.take length)
            received := dialogue.received ++ dialogue.downstream.take length
            downstream := dialogue.downstream.drop length }
  | .clientWritten =>
      dialogue.client.phase = .writing ∧
        next = { dialogue with client := dialogue.client.handleWrite }
  | .clientFails =>
      (dialogue.client.phase = .reading ∨ dialogue.client.phase = .writing) ∧
        next = { dialogue with client := dialogue.client.stop }

/-- The shell sends a further prompt only after it has received a command for the
one before. -/
def Prompted
    (dialogue : Dialogue)
    (action : DialogueAction) : Prop :=
  ∀ text,
    action = .serverSends text →
      (dialogue.received ++ dialogue.downstream ++ text).count '%' ≤
        dialogue.served + 1

/-- The prompts that the client has read. -/
def prompts (dialogue : Dialogue) : Nat :=
  dialogue.received.count '%'

end Dialogue

/-- A line that `getline` and `strtok` take over as it is. -/
structure IsInputLine (line : List Char) : Prop where
  noNewline : '\n' ∉ line
  noReturn : '\r' ∉ line
  noNul : nul ∉ line
  short : line.length + 1 < maxInputLen

/-- The first lines of a file that is followed by empty lines, each with a
newline. -/
def transmitted
    (lines : List (List Char))
    (count : Nat) : List Char :=
  (List.range count).flatMap fun index => lines.getD index [] ++ ['\n']

/-! ## One read -/

theorem dataString_of_noNul
    {chunk : List Char}
    (noNul : nul ∉ chunk) :
    dataString chunk = if chunk.length < maxLength then some chunk else none := by
  have all : ∀ symbol ∈ chunk, decide (symbol ≠ nul) = true := by
    intro symbol member
    apply decide_eq_true
    rintro rfl
    exact noNul member
  rw [dataString, bufferString, List.takeWhile_eq_self_iff.mpr all]
  simp only [noNul, or_false]

theorem dataString_of_plain
    {chunk : List Char}
    (short : chunk.length < maxLength)
    (noNul : nul ∉ chunk) :
    dataString chunk = some chunk := by
  rw [dataString_of_noNul noNul, if_pos short]

theorem cutLine_of_plain
    {line : List Char}
    (noReturn : '\r' ∉ line)
    (noNewline : '\n' ∉ line) :
    cutLine line = line := by
  have notDelimiter :
      ∀ symbol ∈ line, decide (symbol = '\r' ∨ symbol = '\n') = false := by
    intro symbol member
    apply decide_eq_false
    rintro (rfl | rfl)
    · exact noReturn member
    · exact noNewline member
  cases line with
  | nil =>
      rfl
  | cons first rest =>
      have atFirst := notDelimiter first List.mem_cons_self
      unfold cutLine
      dsimp only
      rw [List.takeWhile_cons_of_neg (by simp [atFirst]),
        List.dropWhile_cons_of_neg (by simp [atFirst]), List.nil_append]
      apply List.takeWhile_eq_self_iff.mpr
      intro symbol member
      rw [notDelimiter symbol member]
      rfl

section Lines

variable {lines : List (List Char)}

/-- The empty lines behind the file are input lines, too. -/
theorem isInputLine_getD
    (areLines : ∀ line ∈ lines, IsInputLine line)
    (index : Nat) :
    IsInputLine (lines.getD index []) := by
  rw [List.getD_eq_getElem?_getD]
  cases isLine : lines[index]? with
  | none =>
      exact ⟨List.not_mem_nil, List.not_mem_nil, List.not_mem_nil, by decide⟩
  | some line =>
      exact areLines line (List.mem_of_getElem? isLine)

theorem transmitted_succ
    (lines : List (List Char))
    (count : Nat) :
    transmitted lines (count + 1) =
      transmitted lines count ++ (lines.getD count [] ++ ['\n']) := by
  simp [transmitted, List.range_succ]

/-- Each line that is sent has one newline. -/
theorem count_newline_transmitted
    (areLines : ∀ line ∈ lines, IsInputLine line)
    (count : Nat) :
    (transmitted lines count).count '\n' = count := by
  induction count with
  | zero =>
      rfl
  | succ count inductionHypothesis =>
      have none :=
        List.count_eq_zero.mpr (isInputLine_getD areLines count).noNewline
      rw [transmitted_succ, List.count_append, List.count_append,
        inductionHypothesis, none]
      rfl

/-- The next line of the file is sent as it is. -/
theorem Client.startWrite_line
    (areLines : ∀ line ∈ lines, IsInputLine line)
    {client : Client}
    {count : Nat}
    (left : client.lines = lines.drop count) :
    client.startWrite =
      { client with
        phase := .writing
        lines := lines.drop (count + 1)
        sent := client.sent ++ (lines.getD count [] ++ ['\n']) } := by
  have isLine := isInputLine_getD areLines count
  have isHead : client.lines.headD [] = lines.getD count [] := by
    rw [left, List.getD_eq_getElem?_getD]
    simp [List.headD_eq_head?_getD]
  have isCmd : client.getline = lines.getD count [] := by
    have all :
        ∀ symbol ∈ lines.getD count [], decide (symbol ≠ nul) = true := by
      intro symbol member
      apply decide_eq_true
      rintro rfl
      exact isLine.noNul member
    have fits : (lines.getD count []).length ≤ maxInputLen - 1 := by
      have short := isLine.short
      omega
    rw [Client.getline, isHead, List.take_of_length_le fits,
      List.takeWhile_eq_self_iff.mpr all]
  have isTail : client.lines.tail = lines.drop (count + 1) := by
    rw [left, List.tail_drop]
  rw [Client.startWrite, isHead, if_pos (Nat.lt_of_succ_lt isLine.short), isCmd,
    isTail, cutLine_of_plain isLine.noReturn isLine.noNewline]

/-! ## Whole dialogues -/

/-- So many lines of the file are sent, and not more than prompts are read. -/
structure Paced
    (lines : List (List Char))
    (dialogue : Dialogue)
    (count : Nat) : Prop where
  sent : dialogue.client.sent = transmitted lines count
  left : dialogue.client.lines = lines.drop count
  atMost : count ≤ dialogue.prompts
  noNul : nul ∉ dialogue.downstream

/-- A read with a prompt sends one line, and any other read sends none. -/
theorem Paced.read
    (areLines : ∀ line ∈ lines, IsInputLine line)
    {dialogue : Dialogue}
    {count length : Nat}
    (paced : Paced lines dialogue count)
    (short : length < maxLength) :
    let chunk := dialogue.downstream.take length
    Paced lines
      { dialogue with
        client := dialogue.client.handleRead chunk
        received := dialogue.received ++ chunk
        downstream := dialogue.downstream.drop length }
      (if '%' ∈ chunk then count + 1 else count) := by
  intro chunk
  have isData : dataString chunk = some chunk := by
    apply dataString_of_plain
    · exact Nat.lt_of_le_of_lt (List.length_take_le _ _) short
    · intro member
      exact paced.noNul (List.mem_of_mem_take member)
  have noNulLeft : nul ∉ dialogue.downstream.drop length := by
    intro member
    exact paced.noNul (List.mem_of_mem_drop member)
  have counted := paced.atMost
  unfold Dialogue.prompts at counted
  by_cases hasPrompt : '%' ∈ chunk
  · have isNext :
        dialogue.client.handleRead chunk =
          { dialogue.client with
            phase := .writing
            lines := lines.drop (count + 1)
            shown := dialogue.client.shown ++ chunk
            sent :=
              dialogue.client.sent ++ (lines.getD count [] ++ ['\n']) } := by
      simp only [Client.handleRead, isData, if_pos hasPrompt]
      exact Client.startWrite_line areLines paced.left
    rw [isNext, if_pos hasPrompt]
    refine ⟨?_, rfl, ?_, noNulLeft⟩
    · rw [transmitted_succ, ← paced.sent]
    · have positive := List.count_pos_iff.mpr hasPrompt
      simp only [Dialogue.prompts, List.count_append]
      omega
  · rw [if_neg hasPrompt]
    refine ⟨?_, ?_, ?_, noNulLeft⟩
    · simpa [Client.handleRead, isData, hasPrompt] using paced.sent
    · simpa [Client.handleRead, isData, hasPrompt] using paced.left
    · simp only [Dialogue.prompts, List.count_append]
      omega

/-- Every transition keeps the pace. -/
theorem Paced.step
    (areLines : ∀ line ∈ lines, IsInputLine line)
    {dialogue next : Dialogue}
    {action : DialogueAction}
    {count : Nat}
    (paced : Paced lines dialogue count)
    (stepped : dialogue.Step action next) :
    ∃ later, Paced lines next later := by
  cases action with
  | serverSends text =>
      obtain ⟨noNul, rfl⟩ := stepped
      refine ⟨count, paced.sent, paced.left, paced.atMost, ?_⟩
      rw [List.mem_append, not_or]
      exact ⟨paced.noNul, noNul⟩
  | serverReceives =>
      obtain ⟨_, rfl⟩ := stepped
      exact ⟨count, paced.sent, paced.left, paced.atMost, paced.noNul⟩
  | clientReads length =>
      obtain ⟨_, _, short, _, rfl⟩ := stepped
      exact ⟨_, paced.read areLines short⟩
  | clientWritten =>
      obtain ⟨_, rfl⟩ := stepped
      exact ⟨count, paced.sent, paced.left, paced.atMost, paced.noNul⟩
  | clientFails =>
      obtain ⟨_, rfl⟩ := stepped
      exact ⟨count, paced.sent, paced.left, paced.atMost, paced.noNul⟩

/-- With a shell that waits, a line is sent for each prompt that is read, and at
most one prompt more is on its way. -/
structure LockStep
    (lines : List (List Char))
    (dialogue : Dialogue) : Prop where
  paced : Paced lines dialogue dialogue.prompts
  served : dialogue.served ≤ dialogue.prompts
  waiting :
    (dialogue.received ++ dialogue.downstream).count '%' ≤ dialogue.served + 1

/-- Every transition keeps the lock step while the shell waits. -/
theorem LockStep.step
    (areLines : ∀ line ∈ lines, IsInputLine line)
    {dialogue next : Dialogue}
    {action : DialogueAction}
    (lockStep : LockStep lines dialogue)
    (prompted : dialogue.Prompted action)
    (stepped : dialogue.Step action next) :
    LockStep lines next := by
  obtain ⟨paced, served, waiting⟩ := lockStep
  cases action with
  | serverSends text =>
      obtain ⟨noNul, rfl⟩ := stepped
      refine ⟨⟨paced.sent, paced.left, paced.atMost, ?_⟩, served, ?_⟩
      · rw [List.mem_append, not_or]
        exact ⟨paced.noNul, noNul⟩
      · simpa [List.append_assoc] using prompted text rfl
  | serverReceives =>
      obtain ⟨isSent, rfl⟩ := stepped
      refine ⟨⟨paced.sent, paced.left, paced.atMost, paced.noNul⟩, ?_, ?_⟩
      · rw [paced.sent, count_newline_transmitted areLines] at isSent
        exact isSent
      · exact Nat.le_succ_of_le waiting
  | clientReads length =>
      obtain ⟨_, _, short, _, rfl⟩ := stepped
      have isNext := paced.read areLines short
      -- what is received and what is left is what was there before
      have whole :
          dialogue.received ++ dialogue.downstream.take length ++
              dialogue.downstream.drop length =
            dialogue.received ++ dialogue.downstream := by
        rw [List.append_assoc, List.take_append_drop]
      have counted :
          (if '%' ∈ dialogue.downstream.take length then dialogue.prompts + 1
              else dialogue.prompts) =
            (dialogue.received ++ dialogue.downstream.take length).count '%' := by
        have split := congrArg (List.count '%') whole
        simp only [List.count_append] at split waiting ⊢
        unfold Dialogue.prompts at served ⊢
        by_cases hasPrompt : '%' ∈ dialogue.downstream.take length
        · have positive := List.count_pos_iff.mpr hasPrompt
          rw [if_pos hasPrompt]
          omega
        · rw [if_neg hasPrompt, List.count_eq_zero.mpr hasPrompt]
          rfl
      dsimp only at isNext
      rw [counted] at isNext
      refine ⟨isNext, ?_, ?_⟩
      · refine served.trans ?_
        simp [Dialogue.prompts]
      · rw [whole]
        exact waiting
  | clientWritten =>
      obtain ⟨_, rfl⟩ := stepped
      exact
        ⟨⟨paced.sent, paced.left, paced.atMost, paced.noNul⟩, served, waiting⟩
  | clientFails =>
      obtain ⟨_, rfl⟩ := stepped
      exact
        ⟨⟨paced.sent, paced.left, paced.atMost, paced.noNul⟩, served, waiting⟩

theorem lockStep_start
    (lines : List (List Char)) :
    LockStep lines (Dialogue.start lines) where
  paced :=
    { sent := rfl
      left := rfl
      atMost := Nat.le_refl _
      noNul := List.not_mem_nil }
  served := Nat.le_refl _
  waiting := Nat.zero_le _

/-- In every run the client sends first lines of its file, not more than it has
read prompts, and with a shell that waits it sends one for each prompt. -/
theorem console_lockStep
    (areLines : ∀ line ∈ lines, IsInputLine line)
    {path : List (DialogueAction × Dialogue)}
    (isPath : Path Dialogue.Step (Dialogue.start lines) path) :
    EveryState
        (fun dialogue =>
          ∃ count,
            dialogue.client.sent = transmitted lines count ∧
              count ≤ dialogue.prompts)
        (Dialogue.start lines) path ∧
      (EveryStep Dialogue.Prompted (Dialogue.start lines) path →
        EveryState
          (fun dialogue =>
            dialogue.client.sent = transmitted lines dialogue.prompts)
          (Dialogue.start lines) path) := by
  constructor
  · have everyState :
        EveryState (fun dialogue => ∃ count, Paced lines dialogue count)
          (Dialogue.start lines) path := by
      refine Path.everyState ?_ ⟨_, (lockStep_start lines).paced⟩ isPath
      rintro dialogue action next ⟨count, paced⟩ stepped
      exact paced.step areLines stepped
    exact everyState.mono fun dialogue ⟨count, paced⟩ =>
      ⟨count, paced.sent, paced.atMost⟩
  · intro prompted
    have everyState : EveryState (LockStep lines) (Dialogue.start lines) path := by
      refine
        Path.everyState_of_everyStep ?_ (lockStep_start lines) isPath prompted
      intro dialogue action next lockStep waits stepped
      exact lockStep.step areLines waits stepped
    exact everyState.mono fun dialogue lockStep => lockStep.paced.sent

/-- The shell prints a prompt in two parts, the client answers it with the only
line of its file, and the next prompt with an empty line. -/
def helloPath : List (DialogueAction × Dialogue) :=
  let lines := ["ls".toList]
  let opened := Dialogue.start lines
  let greeted := { opened with downstream := "hi\n% ".toList }
  let begun :=
    { greeted with
      client := greeted.client.handleRead "hi\n".toList
      received := "hi\n".toList
      downstream := "% ".toList }
  let answered :=
    { begun with
      client := begun.client.handleRead "%".toList
      received := "hi\n%".toList
      downstream := " ".toList }
  let written := { answered with client := answered.client.handleWrite }
  let reached := { written with served := 1 }
  let prompting := { reached with downstream := " % ".toList }
  let again :=
    { prompting with
      client := prompting.client.handleRead " % ".toList
      received := "hi\n% % ".toList
      downstream := [] }
  [(.serverSends "hi\n% ".toList, greeted), (.clientReads 3, begun),
    (.clientReads 1, answered), (.clientWritten, written),
    (.serverReceives, reached), (.serverSends "% ".toList, prompting),
    (.clientReads 3, again)]

theorem console_lockStep_hello :
    (lastState (Dialogue.start ["ls".toList]) helloPath).client.sent =
      "ls\n\n".toList := by
  have areLines : ∀ line ∈ ["ls".toList], IsInputLine line := by
    intro line member
    rw [List.mem_singleton] at member
    subst member
    exact ⟨by decide, by decide, by decide, by decide⟩
  have isPath :
      Path Dialogue.Step (Dialogue.start ["ls".toList]) helloPath := by
    refine ⟨⟨by decide, rfl⟩, ⟨rfl, by decide, by decide, by decide, rfl⟩,
      ⟨rfl, by decide, by decide, by decide, rfl⟩, ⟨rfl, rfl⟩,
      ⟨by decide, rfl⟩, ⟨by decide, rfl⟩,
      ⟨rfl, by decide, by decide, by decide, rfl⟩, trivial⟩
  have waits :
      EveryStep Dialogue.Prompted (Dialogue.start ["ls".toList]) helloPath := by
    refine ⟨?_, ?_, ?_, ?_, ?_, ?_, ?_, trivial⟩ <;>
      · intro text isText
        cases isText
        try decide
  have sent := ((console_lockStep areLines isPath).2 waits).last
  rw [sent]
  decide

end Lines

end NpServers.Console
