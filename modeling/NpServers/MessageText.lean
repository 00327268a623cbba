import NpServers.ShellInput

namespace NpServers.ShellInput

open NpServers.CStrings NpServers.Shell

/-!
# The texts that `tell` and `yell` deliver

`cmd_tell` and `cmd_yell` look for the first word of the text, put a space over
the end behind it, and search for the line end from there.  Behind a text of more
than one word stands the end that `run_shell` has written.  Behind a text of one
word this end is what the space goes over.
-/

/-! ## The functions of `np_multi_proc.c` -/

/-- `cmd_tell`; the message goes through a mailbox. -/
def multiCmdTell
    (client : ClientView)
    (cmd : List Char) : Except Fault Reply := do
  let behindName := (strtokIn isBlank cmd).2
  let (idWord, behindId) := strtokIn isBlank behindName
  let idWord ← given .atoi idWord
  let tellId := atoi (stringOf idWord)
  if (maxClientNum : Int) < tellId ∨ client.state tellId = false then
    let errMsg ← fitted 50 (noUserText tellId)
    .ok (.refused errMsg)
  else
    let text ← restOfLine behindId
    let msg ← fitted (maxMsgLen * 2) (tellText (client.name client.id) text)
    let mailbox ← fitted maxMsgLen msg
    .ok (.sent [(tellId, mailbox)])

/-- `broadcast`; the others get the message through their mailboxes. -/
def multiBroadcast
    (client : ClientView)
    (msg : List Char) : List Int → Except Fault (List (Int × List Char))
  | [] => .ok []
  | i :: rest => do
      let text ← (if i = client.id then .ok msg else fitted maxMsgLen msg)
      let others ← multiBroadcast client msg rest
      .ok ((i, text) :: others)

/-- `cmd_yell`. -/
def multiCmdYell
    (client : ClientView)
    (cmd : List Char) : Except Fault Reply := do
  let text ← restOfLine (strtokIn isBlank cmd).2
  let msg ← fitted (maxMsgLen * 2) (yellText (client.name client.id) text)
  let messages ← multiBroadcast client msg client.receivers
  .ok (.sent messages)

/-- `run_shell`. -/
def multiRunShell
    (client : ClientView)
    (received : List Char) : Except Fault ShellReturn :=
  runShellWith (multiCmdTell client) (multiCmdYell client) multiStringSplit
    client received

/-! ## Lines with a text -/

/-- One of the two servers. -/
inductive Program where
  | single
  | multi
deriving DecidableEq, Repr

namespace Program

/-- `run_shell` of the server. -/
def run : Program → ClientView → List Char → Except Fault ShellReturn
  | single => runShell
  | multi => multiRunShell

/-- The size of the smallest array that a message goes through. -/
def messageSize : Program → Nat
  | single => maxMsgLen * 2
  | multi => maxMsgLen

end Program

/-- The line ends of the clients. -/
inductive LineEnd where
  | feed
  | returnFeed
deriving DecidableEq, Repr

/-- The symbols of a line end. -/
def LineEnd.text : LineEnd → List Char
  | feed => ['\n']
  | returnFeed => ['\r', '\n']

/-- No line end and no end of a string. -/
def InLine (text : List Char) : Prop :=
  ∀ symbol ∈ text, isLineEnd symbol = false ∧ symbol ≠ ending

instance (text : List Char) : Decidable (InLine text) :=
  inferInstanceAs (Decidable (∀ symbol ∈ text, _))

/-- The text of a message: it is not empty and does not start with a space. -/
structure MessageText where
  text : List Char
  nonempty : text ≠ []
  inLine : InLine text
  notBlank : text.head? ≠ some ' '

/-- `tell <id>` or `yell`; the id is a word. -/
inductive Spoken where
  | tell
      (id : List Char)
      (nonempty : id ≠ [])
      (isWord : ' ' ∉ id)
      (inLine : InLine id)
  | yell

namespace Spoken

/-- The part of the line in front of the text. -/
def words : Spoken → List Char
  | tell id _ _ _ => "tell ".toList ++ id ++ [' ']
  | yell => "yell ".toList

/-- The message for a text. -/
def message
    (client : ClientView)
    (text : List Char) : Spoken → List Char
  | tell _ _ _ _ => tellText (client.name client.id) text
  | yell => yellText (client.name client.id) text

/-- Who gets the message: the client of the id, or all. -/
def receivers (client : ClientView) : Spoken → List Int
  | tell id _ _ _ => [atoi id]
  | yell => client.receivers

/-- The function that the line is handed to. -/
def command
    (tell yell : List Char → Except Fault Reply) :
    Spoken → List Char → Except Fault Reply
  | .tell _ _ _ _ => tell
  | .yell => yell

/-- The id is the one of a client. -/
def Addressed
    (client : ClientView) : Spoken → Prop
  | tell id _ _ _ => atoi id ∈ client.receivers
  | yell => True

end Spoken

/-- What the client sends: the line, and what follows it in the same read. -/
def receivedLine
    (spoken : Spoken)
    (message : MessageText)
    (lineEnd : LineEnd)
    (following : List Char) : List Char :=
  spoken.words ++ message.text ++ lineEnd.text ++ following

/-- The server sends the text as it was typed. -/
def DeliversText
    (program : Program)
    (client : ClientView)
    (spoken : Spoken)
    (message : MessageText)
    (lineEnd : LineEnd)
    (following : List Char) : Prop :=
  program.run client (receivedLine spoken message lineEnd following) =
    .ok
      (.handled
        (.sent
          ((spoken.receivers client).map
            (·, spoken.message client message.text))))

/-! ## The text behind the words -/

/-- The text of a line, in the way the tokens see it. -/
theorem MessageText.start
    (message : MessageText) :
    ∃ first others,
      message.text = first :: others ∧ isBlank first = false ∧
        isLineEnd first = false ∧ first ≠ ending := by
  obtain ⟨first, others, isText⟩ :=
    List.exists_cons_of_ne_nil message.nonempty
  have inLine := message.inLine first (by rw [isText]; exact List.mem_cons_self)
  refine ⟨first, others, isText, ?_, inLine.1, inLine.2⟩
  refine decide_eq_false ?_
  rintro rfl
  exact message.notBlank (by rw [isText]; rfl)

/-- A word of the line, as the tokens see it. -/
theorem InLine.word
    {word : List Char}
    (inLine : InLine word)
    (isWord : ' ' ∉ word) :
    ∀ symbol ∈ word, isBlank symbol = false ∧ symbol ≠ ending := by
  intro symbol member
  refine ⟨decide_eq_false ?_, (inLine symbol member).2⟩
  rintro rfl
  exact isWord member

/-- The search for a word that starts at the pointer. -/
theorem strtokIn_blank
    {word : List Char}
    (nonempty : word ≠ [])
    (isWord : ∀ symbol ∈ word, isBlank symbol = false ∧ symbol ≠ ending)
    (rest : List Char) :
    strtokIn isBlank (word ++ ' ' :: rest) =
      (some (word ++ ending :: rest), rest) := by
  have found :=
    strtokIn_here nonempty isWord (Or.inl (by decide : isBlank ' ' = true)) rest
  rwa [if_neg (by decide)] at found

/-- The end of the text after the reopened word. -/
theorem restOfLine_of_found
    {memory buf : List Char}
    (isFound : (strtokIn isBlank memory).1 = some buf)
    {first : Char}
    {rest : List Char}
    (isReopened : reopen buf = first :: rest)
    (notLineEnd : isLineEnd first = false)
    (notEnding : first ≠ ending) :
    restOfLine memory =
      .ok
        (first ::
          rest.takeWhile fun symbol =>
            !isLineEnd symbol && symbol ≠ ending) := by
  obtain ⟨line, isLine, isString⟩ := strtokIn_start notLineEnd notEnding rest
  unfold restOfLine
  rw [isFound]
  change
    (given .strcat (strtokIn isLineEnd (reopen buf)).1 >>= fun buf =>
      .ok (stringOf buf)) = _
  rw [isReopened, isLine]
  exact congrArg Except.ok isString

/-- A text of several words is found up to the end that `run_shell` wrote. -/
theorem restOfLine_of_blank
    {message : MessageText}
    (hasBlank : ' ' ∈ message.text)
    (rest : List Char) :
    restOfLine (message.text ++ ending :: rest) = .ok message.text := by
  obtain ⟨word, others, isText, noBlank⟩ :=
    List.eq_append_cons_of_mem hasBlank
  obtain ⟨first, behind, isStart, -, notLineEnd, notEnding⟩ := message.start
  have inLine := message.inLine
  have wordInLine : InLine word := by
    intro symbol member
    exact inLine symbol (by rw [isText]; simp [member])
  have nonempty : word ≠ [] := by
    rintro rfl
    exact message.notBlank (by rw [isText]; rfl)
  have isFound :
      (strtokIn isBlank (message.text ++ ending :: rest)).1 =
        some (word ++ ending :: (others ++ ending :: rest)) := by
    rw [isText, List.append_assoc, List.cons_append,
      strtokIn_blank nonempty (wordInLine.word noBlank)]
  have isReopened :
      reopen (word ++ ending :: (others ++ ending :: rest)) =
        first :: (behind ++ ending :: rest) := by
    have noEnding : ending ∉ word := fun member =>
      (wordInLine ending member).2 rfl
    rw [reopen_append noEnding, ← List.cons_append, ← List.append_assoc,
      ← isText, isStart, List.cons_append]
  rw [restOfLine_of_found isFound isReopened notLineEnd notEnding,
    List.takeWhile_append_of_pos, List.takeWhile_cons_of_neg (by simp),
    List.append_nil, isStart]
  intro symbol member
  have plain := inLine symbol (by rw [isStart]; exact List.mem_cons_of_mem _ member)
  simp [plain]

/-- A text of one word is found together with a space and what follows it. -/
theorem restOfLine_of_word
    {message : MessageText}
    (noBlank : ' ' ∉ message.text)
    (rest : List Char) :
    restOfLine (message.text ++ ending :: rest) =
      .ok
        (message.text ++ ' ' ::
          rest.takeWhile fun symbol =>
            !isLineEnd symbol && symbol ≠ ending) := by
  obtain ⟨first, behind, isStart, -, notLineEnd, notEnding⟩ := message.start
  have inLine := message.inLine
  have found :=
    strtokIn_here message.nonempty (inLine.word noBlank) (Or.inr rfl) rest
  have isReopened :
      reopen (message.text ++ ending :: rest) =
        first :: (behind ++ ' ' :: rest) := by
    have noEnding : ending ∉ message.text := fun member =>
      (inLine ending member).2 rfl
    rw [reopen_append noEnding, isStart, List.cons_append]
  rw [restOfLine_of_found (congrArg Prod.fst found) isReopened notLineEnd
      notEnding,
    List.takeWhile_append_of_pos, List.takeWhile_cons_of_pos (by decide),
    isStart, List.cons_append]
  intro symbol member
  have plain := inLine symbol (by rw [isStart]; exact List.mem_cons_of_mem _ member)
  simp [plain]

/-! ## The messages -/

/-- What a server does with the text that it has found. -/
def send
    (program : Program)
    (client : ClientView)
    (spoken : Spoken)
    (text : List Char) : Except Fault Reply := do
  let msg ← fitted (maxMsgLen * 2) (spoken.message client text)
  match program, spoken with
  | .single, _ => .ok (.sent ((spoken.receivers client).map (·, msg)))
  | .multi, .tell id _ _ _ =>
      let mailbox ← fitted maxMsgLen msg
      .ok (.sent [(atoi id, mailbox)])
  | .multi, .yell =>
      let messages ← multiBroadcast client msg client.receivers
      .ok (.sent messages)

theorem fitted_of_lt
    {size : Nat}
    {text : List Char}
    (fits : text.length < size) :
    fitted size text = .ok text :=
  if_pos fits

theorem fitted_eq_ok
    {size : Nat}
    {text copy : List Char}
    (isCopy : fitted size text = .ok copy) :
    copy = text := by
  unfold fitted at isCopy
  split at isCopy
  · exact (Except.ok.inj isCopy).symm
  · cases isCopy

theorem bind_eq_ok
    {α β : Type}
    {first : Except Fault α}
    {next : α → Except Fault β}
    {result : β}
    (isOk : first >>= next = .ok result) :
    ∃ value, first = .ok value ∧ next value = .ok result := by
  cases first with
  | error fault => cases isOk
  | ok value => exact ⟨value, rfl, isOk⟩

/-- A broadcast of a short message reaches all. -/
theorem multiBroadcast_of_lt
    {client : ClientView}
    {msg : List Char}
    (fits : msg.length < maxMsgLen)
    (ids : List Int) :
    multiBroadcast client msg ids = .ok (ids.map (·, msg)) := by
  induction ids with
  | nil =>
      rfl
  | cons i rest inductionHypothesis =>
      unfold multiBroadcast
      rw [inductionHypothesis, fitted_of_lt fits]
      split <;> rfl

/-- A broadcast sends nothing but the message. -/
theorem multiBroadcast_eq_ok
    {client : ClientView}
    {msg : List Char}
    {ids : List Int}
    {messages : List (Int × List Char)}
    (isOk : multiBroadcast client msg ids = .ok messages) :
    messages = ids.map (·, msg) := by
  induction ids generalizing messages with
  | nil =>
      exact (Except.ok.inj isOk).symm
  | cons i rest inductionHypothesis =>
      unfold multiBroadcast at isOk
      obtain ⟨text, isText, isOk⟩ := bind_eq_ok isOk
      obtain ⟨others, isOthers, isOk⟩ := bind_eq_ok isOk
      have sameText : text = msg := by
        split at isText
        · exact (Except.ok.inj isText).symm
        · exact fitted_eq_ok isText
      rw [← Except.ok.inj isOk, inductionHypothesis isOthers, sameText]
      rfl

/-- A text that fits is sent as it is. -/
theorem send_of_fits
    {program : Program}
    {client : ClientView}
    {spoken : Spoken}
    {text : List Char}
    (fits : (spoken.message client text).length < program.messageSize) :
    send program client spoken text =
      .ok
        (.sent
          ((spoken.receivers client).map (·, spoken.message client text))) := by
  have inMsg :
      (spoken.message client text).length < maxMsgLen * 2 := by
    cases program with
    | single => exact fits
    | multi =>
        have smaller : Program.messageSize .multi = maxMsgLen := rfl
        omega
  unfold send
  rw [fitted_of_lt inMsg]
  cases program with
  | single =>
      rfl
  | multi =>
      have inMailbox :
          (spoken.message client text).length < maxMsgLen := fits
      cases spoken with
      | tell id nonempty isWord inLine =>
          change (fitted maxMsgLen _ >>= _) = _
          rw [fitted_of_lt inMailbox]
          rfl
      | yell =>
          change (multiBroadcast client _ client.receivers >>= _) = _
          rw [multiBroadcast_of_lt inMailbox]
          rfl

/-- What is sent is the message of the text. -/
theorem send_eq_ok
    {program : Program}
    {client : ClientView}
    {spoken : Spoken}
    {text : List Char}
    {reply : Reply}
    (isOk : send program client spoken text = .ok reply) :
    reply =
      .sent ((spoken.receivers client).map (·, spoken.message client text)) := by
  obtain ⟨msg, isMsg, isOk⟩ := bind_eq_ok isOk
  obtain rfl := fitted_eq_ok isMsg
  match program, spoken with
  | .single, _ =>
      exact (Except.ok.inj isOk).symm
  | .multi, .tell id nonempty isWord inLine =>
      obtain ⟨mailbox, isMailbox, isOk⟩ := bind_eq_ok isOk
      obtain rfl := fitted_eq_ok isMailbox
      exact (Except.ok.inj isOk).symm
  | .multi, .yell =>
      obtain ⟨messages, isMessages, isOk⟩ := bind_eq_ok isOk
      rw [← Except.ok.inj isOk, multiBroadcast_eq_ok isMessages]
      rfl

/-- Different texts make different messages. -/
theorem message_injective
    {client : ClientView}
    {spoken : Spoken}
    {text other : List Char}
    (same : spoken.message client text = spoken.message client other) :
    text = other := by
  cases spoken <;>
  · exact List.append_cancel_left (List.append_cancel_right same)

/-! ## From the read to the text -/

/-- A line end starts with a symbol where the line is cut. -/
theorem LineEnd.text_eq
    (lineEnd : LineEnd) :
    ∃ symbol rest,
      lineEnd.text = symbol :: rest ∧ isLineEnd symbol = true := by
  cases lineEnd with
  | feed => exact ⟨'\n', [], rfl, by decide⟩
  | returnFeed => exact ⟨'\r', ['\n'], rfl, by decide⟩

/-- The line in front of the line end. -/
def spokenLine
    (spoken : Spoken)
    (message : MessageText) : List Char :=
  spoken.words ++ message.text

theorem spokenLine_tell
    {id : List Char}
    (nonempty : id ≠ [])
    (isWord : ' ' ∉ id)
    (inLine : InLine id)
    (message : MessageText) :
    spokenLine (.tell id nonempty isWord inLine) message =
      "tell".toList ++ ' ' :: (id ++ ' ' :: message.text) := by
  have isName : "tell ".toList = "tell".toList ++ [' '] := by decide
  unfold spokenLine Spoken.words
  rw [isName]
  simp only [List.append_assoc, List.cons_append, List.nil_append]

theorem spokenLine_yell
    (message : MessageText) :
    spokenLine .yell message = "yell".toList ++ ' ' :: message.text := by
  have isName : "yell ".toList = "yell".toList ++ [' '] := by decide
  unfold spokenLine Spoken.words
  rw [isName]
  simp only [List.append_assoc, List.cons_append, List.nil_append]

/-- No symbol of the line ends it. -/
theorem inLine_spokenLine
    (spoken : Spoken)
    (message : MessageText) :
    InLine (spokenLine spoken message) := by
  have inWords : InLine spoken.words := by
    cases spoken with
    | tell id nonempty isWord inLine =>
        intro symbol member
        rcases List.mem_append.mp member with inName | isBlank
        · rcases List.mem_append.mp inName with inName | inId
          · have allInLine : InLine "tell ".toList := by decide
            exact allInLine symbol inName
          · exact inLine symbol inId
        · have isLast : InLine [' '] := by decide
          exact isLast symbol isBlank
    | yell =>
        have allInLine : InLine "yell ".toList := by decide
        exact allInLine
  intro symbol member
  rcases List.mem_append.mp member with inWord | inText
  · exact inWords symbol inWord
  · exact message.inLine symbol inText

/-- `check_cmd` hands the line on. -/
theorem checkCmd_spokenLine
    (tell yell : List Char → Except Fault Reply)
    (spoken : Spoken)
    (message : MessageText)
    (rest : List Char) :
    checkCmd tell yell (spokenLine spoken message ++ ending :: rest) =
      spoken.command tell yell (spokenLine spoken message ++ ending :: rest) >>=
        fun reply => .ok (some reply) := by
  have noEnding : ending ∉ spokenLine spoken message := fun member =>
    (inLine_spokenLine spoken message ending member).2 rfl
  cases spoken with
  | tell id nonempty isWord inLine =>
      have isTokens :=
        tokens_word_append (by decide : "tell".toList ≠ [])
          (by decide : ∀ symbol ∈ "tell".toList, isBlank symbol = false)
          (by decide : isBlank ' ' = true) (id ++ ' ' :: message.text)
      rw [← spokenLine_tell nonempty isWord inLine] at isTokens
      exact checkCmd_tell tell yell noEnding isTokens rest
  | yell =>
      have isTokens :=
        tokens_word_append (by decide : "yell".toList ≠ [])
          (by decide : ∀ symbol ∈ "yell".toList, isBlank symbol = false)
          (by decide : isBlank ' ' = true) message.text
      rw [← spokenLine_yell] at isTokens
      exact checkCmd_yell tell yell noEnding isTokens rest

/-- Where `tell` goes on behind its id. -/
theorem strtokIn_tell
    {id : List Char}
    (nonempty : id ≠ [])
    (isWord : ' ' ∉ id)
    (inLine : InLine id)
    (message : MessageText)
    (rest : List Char) :
    strtokIn isBlank
        (strtokIn isBlank
          (spokenLine (.tell id nonempty isWord inLine) message ++
            ending :: rest)).2 =
      (some (id ++ ending :: (message.text ++ ending :: rest)),
        message.text ++ ending :: rest) := by
  rw [spokenLine_tell, List.append_assoc, List.cons_append,
    strtokIn_blank (by decide) (by decide), List.append_assoc,
    List.cons_append, strtokIn_blank nonempty (inLine.word isWord)]

/-- Where `yell` goes on. -/
theorem strtokIn_yell
    (message : MessageText)
    (rest : List Char) :
    (strtokIn isBlank (spokenLine .yell message ++ ending :: rest)).2 =
      message.text ++ ending :: rest := by
  rw [spokenLine_yell, List.append_assoc, List.cons_append,
    strtokIn_blank (by decide) (by decide)]

/-- `np_single_proc.c` sends the text behind the words. -/
theorem command_spokenLine
    {client : ClientView}
    {spoken : Spoken}
    (addressed : spoken.Addressed client)
    (message : MessageText)
    (rest : List Char) :
    spoken.command (cmdTell client) (cmdYell client)
        (spokenLine spoken message ++ ending :: rest) =
      restOfLine (message.text ++ ending :: rest) >>=
        send .single client spoken := by
  cases spoken with
  | tell id nonempty isWord inLine =>
      have noEnding : ending ∉ id := fun member => (inLine ending member).2 rfl
      have isClient := (List.mem_filter.mp addressed).2
      unfold Spoken.command cmdTell
      dsimp only
      rw [strtokIn_tell]
      change
        (if (!client.state (atoi (stringOf (id ++ ending :: _)))) = true then _
          else _) = _
      rw [stringOf_append noEnding, isClient, if_neg (by decide)]
      cases restOfLine (message.text ++ ending :: rest) <;> rfl
  | yell =>
      unfold Spoken.command cmdYell
      dsimp only
      rw [strtokIn_yell]
      cases restOfLine (message.text ++ ending :: rest) <;> rfl

/-- `np_multi_proc.c` sends the text behind the words. -/
theorem multiCommand_spokenLine
    {client : ClientView}
    {spoken : Spoken}
    (addressed : spoken.Addressed client)
    (message : MessageText)
    (rest : List Char) :
    spoken.command (multiCmdTell client) (multiCmdYell client)
        (spokenLine spoken message ++ ending :: rest) =
      restOfLine (message.text ++ ending :: rest) >>=
        send .multi client spoken := by
  cases spoken with
  | tell id nonempty isWord inLine =>
      have noEnding : ending ∉ id := fun member => (inLine ending member).2 rfl
      obtain ⟨inTable, isClient⟩ := List.mem_filter.mp addressed
      obtain ⟨slot, isSlot, sameId⟩ := List.mem_map.mp inTable
      have upTo : ¬ ((maxClientNum : Int) < atoi id) := by
        have bound := (List.mem_range'_1.mp isSlot).2
        rw [← sameId]
        simp only [Int.ofNat_eq_natCast]
        omega
      unfold Spoken.command multiCmdTell
      dsimp only
      rw [strtokIn_tell]
      change
        (if (maxClientNum : Int) < atoi (stringOf (id ++ ending :: _)) ∨
            client.state (atoi (stringOf (id ++ ending :: _))) = false then _
          else _) = _
      rw [stringOf_append noEnding, isClient, if_neg (by simp [upTo])]
      cases restOfLine (message.text ++ ending :: rest) <;> rfl
  | yell =>
      unfold Spoken.command multiCmdYell
      dsimp only
      rw [strtokIn_yell]
      cases restOfLine (message.text ++ ending :: rest) <;> rfl

/-- The line is neither empty nor one that `run_shell` knows. -/
theorem not_endsEarly_spokenLine
    (spoken : Spoken)
    (message : MessageText)
    {symbol : Char}
    (isEnd : isLineEnd symbol = true)
    (following : List Char) :
    ¬ EndsEarly (spokenLine spoken message ++ symbol :: following) := by
  obtain ⟨first, others, isLine, isName⟩ :
      ∃ first others,
        spokenLine spoken message = first :: others ∧
          (first = 't' ∨ first = 'y') := by
    cases spoken with
    | tell id nonempty isWord inLine =>
        exact ⟨'t', _, spokenLine_tell nonempty isWord inLine message, Or.inl rfl⟩
    | yell =>
        exact ⟨'y', _, spokenLine_yell message, Or.inr rfl⟩
  have isLineOf :
      lineOf (spokenLine spoken message ++ symbol :: following) =
        spokenLine spoken message :=
    lineOf_line (by rw [isLine]; exact List.cons_ne_nil _ _)
      (inLine_spokenLine spoken message) isEnd following
  have isString :
      (stringOf
          (inputBuffer
            (spokenLine spoken message ++ symbol :: following))).head? =
        some first := by
    have notEnding : first ≠ ending := by
      rcases isName with rfl | rfl <;> decide
    unfold inputBuffer stringOf
    rw [isLine, List.cons_append, List.cons_append,
      List.takeWhile_cons_of_pos (by simpa using notEnding), List.head?_cons]
  rintro (isControl | isReturn | isFeed | isExit)
  · unfold inputBuffer at isControl
    rw [isLine, List.cons_append, List.cons_append, List.head?_cons,
      Option.some_inj] at isControl
    rcases isName with rfl | rfl <;> exact absurd isControl (by decide)
  · rw [isReturn, List.head?_cons, Option.some_inj] at isString
    rcases isName with rfl | rfl <;> exact absurd isString (by decide)
  · rw [isFeed, List.head?_cons, Option.some_inj] at isString
    rcases isName with rfl | rfl <;> exact absurd isString (by decide)
  · have isFirst := isLineOf.symm.trans isExit
    rw [isLine] at isFirst
    have sameFirst := (List.cons.inj isFirst).1
    rcases isName with rfl | rfl <;> exact absurd sameFirst (by decide)

/-- The whole way of a line: it is cut off, taken apart and sent. -/
theorem run_receivedLine
    (program : Program)
    {client : ClientView}
    {spoken : Spoken}
    (addressed : spoken.Addressed client)
    (message : MessageText)
    (lineEnd : LineEnd)
    (following : List Char) :
    ∃ rest,
      program.run client (receivedLine spoken message lineEnd following) =
        restOfLine (message.text ++ ending :: rest) >>=
          send program client spoken >>= fun reply => .ok (.handled reply) := by
  obtain ⟨symbol, behind, isText, isEnd⟩ := lineEnd.text_eq
  have isReceived :
      receivedLine spoken message lineEnd following =
        spokenLine spoken message ++ symbol :: (behind ++ following) := by
    unfold receivedLine spokenLine
    rw [isText, List.append_assoc _ _ following, List.cons_append]
  have notEarly :=
    not_endsEarly_spokenLine spoken message isEnd (behind ++ following)
  have nonempty : spokenLine spoken message ≠ [] := by
    intro isNil
    exact message.nonempty (List.append_eq_nil_iff.mp isNil).2
  obtain ⟨rest, isCut⟩ :
      ∃ rest,
        cutLine
            (inputBuffer
              (spokenLine spoken message ++ symbol :: (behind ++ following))) =
          spokenLine spoken message ++ ending :: rest := by
    unfold inputBuffer
    rw [List.append_assoc, List.cons_append]
    exact ⟨_, cutLine_line nonempty (inLine_spokenLine spoken message) isEnd _⟩
  refine ⟨rest, ?_⟩
  rw [isReceived]
  cases program with
  | single =>
      change runShellWith _ _ _ _ _ = _
      rw [runShellWith_of_not_endsEarly _ _ _ _ notEarly, isCut,
        handleLine_of_checked _ _ (checkCmd_spokenLine _ _ spoken message rest),
        command_spokenLine addressed]
  | multi =>
      change runShellWith _ _ _ _ _ = _
      rw [runShellWith_of_not_endsEarly _ _ _ _ notEarly, isCut,
        handleLine_of_checked _ _ (checkCmd_spokenLine _ _ spoken message rest),
        multiCommand_spokenLine addressed]

/-- A text is delivered as it was typed exactly if a space is in it: then the
space that the servers write goes over the one behind the first word. -/
theorem deliversText_iff
    (program : Program)
    {client : ClientView}
    (loggedIn : client.id ∈ client.receivers)
    {spoken : Spoken}
    (addressed : spoken.Addressed client)
    (message : MessageText)
    (fits :
      (spoken.message client message.text).length < program.messageSize)
    (lineEnd : LineEnd)
    (following : List Char) :
    DeliversText program client spoken message lineEnd following ↔
      ' ' ∈ message.text := by
  obtain ⟨rest, isRun⟩ :=
    run_receivedLine program addressed message lineEnd following
  unfold DeliversText
  rw [isRun]
  by_cases hasBlank : ' ' ∈ message.text
  · simp only [hasBlank, iff_true]
    rw [restOfLine_of_blank hasBlank]
    change (send program client spoken message.text >>= _) = _
    rw [send_of_fits fits]
    rfl
  · simp only [hasBlank, iff_false]
    rw [restOfLine_of_word hasBlank]
    intro delivered
    obtain ⟨reply, isReply, isHandled⟩ := bind_eq_ok delivered
    have sent := send_eq_ok isReply
    obtain rfl := ShellReturn.handled.inj (Except.ok.inj isHandled)
    -- somebody gets a message, and it is longer than the text
    have someone : ∃ receiver, receiver ∈ spoken.receivers client := by
      cases spoken with
      | tell id nonempty isWord inLine => exact ⟨_, List.mem_singleton_self _⟩
      | yell => exact ⟨client.id, loggedIn⟩
    obtain ⟨receiver, isReceiver⟩ := someone
    have sameMessages := Reply.sent.inj sent
    have member :
        (receiver, spoken.message client message.text) ∈
          (spoken.receivers client).map
            (·, spoken.message client message.text) :=
      List.mem_map.mpr ⟨receiver, isReceiver, rfl⟩
    rw [sameMessages] at member
    obtain ⟨other, -, samePair⟩ := List.mem_map.mp member
    have sameText := message_injective (Prod.mk.inj samePair).2
    have sameLength := congrArg List.length sameText
    simp at sameLength

/-- A text of two words. -/
def twoWords : MessageText where
  text := "hi  you".toList
  nonempty := by decide
  inLine := by decide
  notBlank := by decide

/-- A text of one word. -/
def oneWord : MessageText where
  text := "hi".toList
  nonempty := by decide
  inLine := by decide
  notBlank := by decide

/-- Two words reach the mailbox with the spaces between them. -/
theorem deliversText_twoWords :
    DeliversText .multi loneClient .yell twoWords .returnFeed
      "who\n".toList := by
  have addressed : Spoken.Addressed loneClient .yell := trivial
  have loggedIn : loneClient.id ∈ loneClient.receivers := by decide
  exact (deliversText_iff .multi loggedIn addressed twoWords (by decide)
    .returnFeed "who\n".toList).mpr (by decide)

/-- One word is delivered with a space behind it. -/
theorem oneWord_not_delivered :
    (receivedLine .yell oneWord .feed []).length < maxInputLen ∧
      runShell loneClient (receivedLine .yell oneWord .feed []) =
        .ok
          (.handled
            (.sent [(1, "*** (no name) yelled ***: hi \n".toList)])) ∧
      ¬ DeliversText .single loneClient .yell oneWord .feed [] := by
  have isRun :
      runShell loneClient (receivedLine .yell oneWord .feed []) =
        .ok
          (.handled
            (.sent [(1, "*** (no name) yelled ***: hi \n".toList)])) := by
    decide +kernel
  refine ⟨by decide, isRun, ?_⟩
  intro delivered
  have sameRun := isRun.symm.trans delivered
  exact absurd sameRun (by decide)

end NpServers.ShellInput
