import Mathlib.Data.List.Infix
import NpServers.CommandLine

namespace NpServers.ShellInput

open NpServers.CStrings NpServers.Shell

/-!
# The input of a client

`run_shell` reads into a cleared array and cuts the line at its first line end.
`tell` and `yell` go over that array once more: they take their arguments with
`strtok`, put a space where the last word was cut, and search for the line end
again.

A pointer into the array is the part of the array from there on.  A function
that gets a null pointer, or a text that does not fit its array, ends in a fault.
-/

/-! ## Strings in memory -/

/-- The symbol that ends a string. -/
def ending : Char := Char.ofNat 0

/-- The string that a pointer points at. -/
def stringOf (memory : List Char) : List Char :=
  memory.takeWhile fun symbol => symbol ≠ ending

/-- `strtok`: the word with its end written behind it, or a null pointer, and
where the next call goes on. -/
def strtokIn
    (isDelimiter : Char → Bool)
    (memory : List Char) : Option (List Char) × List Char :=
  let start := memory.dropWhile isDelimiter
  let word :=
    start.takeWhile fun symbol => !isDelimiter symbol && symbol ≠ ending
  if word = [] then
    (none, start)
  else
    match start.drop word.length with
    | [] => (some word, [])
    | symbol :: rest =>
        (some (word ++ ending :: rest),
          if symbol = ending then ending :: rest else rest)

/-- `*(buf+strlen(buf)) = ' '`. -/
def reopen (buf : List Char) : List Char :=
  stringOf buf ++ ' ' :: (buf.drop (stringOf buf).length).tail

/-- The delimiters of words. -/
def isBlank (symbol : Char) : Bool :=
  symbol = ' '

/-- The delimiters of lines. -/
def isLineEnd (symbol : Char) : Bool :=
  symbol = '\r' ∨ symbol = '\n'

/-! ## Faults -/

/-- What is done with a pointer. -/
inductive PointerUse where
  | strcmp
  | strcpy
  | strcat
  | strlen
  | atoi
  | getenv
  | setenv
deriving DecidableEq, Repr

/-- A null pointer is used, or a text leaves its array. -/
inductive Fault where
  | null (use : PointerUse)
  | overflow
deriving DecidableEq, Repr

/-- The pointer, unless it is null. -/
def given
    {α : Type}
    (use : PointerUse)
    (pointer : Option α) : Except Fault α :=
  match pointer with
  | some value => .ok value
  | none => .error (.null use)

/-- The text in an array of the given size. -/
def fitted
    (size : Nat)
    (text : List Char) : Except Fault (List Char) :=
  if text.length < size then .ok text else .error .overflow

/-! ## The functions of `np_single_proc.c` -/

/-- `client_structure`: the own id, and what a read of `list` finds, also where
it is outside of the array. -/
structure ClientView where
  id : Int
  state : Int → Bool
  name : Int → List Char

/-- What a line has done. -/
inductive Reply where
  | sent (messages : List (Int × List Char))
  | refused (message : List Char)
  | nameExists (name : List Char)
  | named (name : List Char)
  | listed
  | variableSet (name value : List Char)
  | variableRead (name : List Char)
  | runs (call : SplitCall)
deriving DecidableEq, Repr

/-- What `run_shell` returns with. -/
inductive ShellReturn where
  | logout
  | blank
  | handled (reply : Reply)
deriving DecidableEq, Repr

/-- `max_msg_len`. -/
def maxMsgLen : Nat := 1024

/-- `cat_num_to_msg`; its argument is unsigned. -/
def numText (num : Int) : List Char :=
  Nat.toDigits 10 (num % 2 ^ 32).toNat

/-- The error of `cmd_tell`. -/
def noUserText (tellId : Int) : List Char :=
  "*** Error: user #".toList ++ numText tellId ++
    " does not exist yet. ***\n".toList

/-- What `cmd_tell` writes. -/
def tellText (name text : List Char) : List Char :=
  "*** ".toList ++ name ++ " told you ***: ".toList ++ text ++ ['\n']

/-- What `cmd_yell` writes. -/
def yellText (name text : List Char) : List Char :=
  "*** ".toList ++ name ++ " yelled ***: ".toList ++ text ++ ['\n']

/-- The end of `cmd_tell` and `cmd_yell`: the text behind the words that were
taken. -/
def restOfLine (memory : List Char) : Except Fault (List Char) := do
  let buf ← given .strlen (strtokIn isBlank memory).1
  let buf ← given .strcat (strtokIn isLineEnd (reopen buf)).1
  .ok (stringOf buf)

/-- The clients that a broadcast reaches. -/
def ClientView.receivers (client : ClientView) : List Int :=
  (clientIds.map Int.ofNat).filter client.state

/-- `cmd_tell`. -/
def cmdTell
    (client : ClientView)
    (cmd : List Char) : Except Fault Reply := do
  let behindName := (strtokIn isBlank cmd).2
  let (idWord, behindId) := strtokIn isBlank behindName
  let idWord ← given .atoi idWord
  let tellId := atoi (stringOf idWord)
  if !client.state tellId then
    let errMsg ← fitted 50 (noUserText tellId)
    .ok (.refused errMsg)
  else
    let text ← restOfLine behindId
    let msg ← fitted (maxMsgLen * 2) (tellText (client.name client.id) text)
    .ok (.sent [(tellId, msg)])

/-- `cmd_yell`. -/
def cmdYell
    (client : ClientView)
    (cmd : List Char) : Except Fault Reply := do
  let text ← restOfLine (strtokIn isBlank cmd).2
  let msg ← fitted (maxMsgLen * 2) (yellText (client.name client.id) text)
  .ok (.sent (client.receivers.map (·, msg)))

/-- The loop of `cmd_name` over the clients. -/
def nameExists
    (client : ClientView)
    (name : Option (List Char)) : List Int → Except Fault Bool
  | [] => .ok false
  | i :: rest =>
      if i ≠ client.id ∧ client.state i = true then do
        let word ← given .strcmp name
        if word = client.name i then
          .ok true
        else
          nameExists client name rest
      else
        nameExists client name rest

/-- `cmd_name`; the name has an array of 20. -/
def cmdName
    (client : ClientView)
    (name : Option (List Char)) : Except Fault Reply := do
  let taken ← nameExists client name (clientIds.map Int.ofNat)
  let word ← given .strcpy name
  if taken then
    .ok (.nameExists word)
  else
    let word ← fitted 20 word
    .ok (.named word)

/-- `env_setting`, with the arguments of `set_env`. -/
def envSetting (cmd : List (List Char)) : Except Fault Reply :=
  if cmd[0]? = some "setenv".toList then do
    let name ← given .setenv cmd[1]?
    let value ← given .setenv cmd[2]?
    .ok (.variableSet name value)
  else do
    let name ← given .getenv cmd[1]?
    .ok (.variableRead name)

/-- The calls of `string_split`. -/
def missionReply
    (client : ClientView) : SplitCall → Except Fault Reply
  | .cmdWho => .ok .listed
  | .cmdName name => cmdName client name
  | .envSetting cmd => envSetting cmd
  | call => .ok (.runs call)

/-- `check_cmd`, which returns 1 if it has handled the line. -/
def checkCmd
    (tell yell : List Char → Except Fault Reply)
    (cmd : List Char) : Except Fault (Option Reply) :=
  if ¬ "tell".toList <:+: stringOf cmd ∧ ¬ "yell".toList <:+: stringOf cmd then
    .ok none
  else do
    -- `strtok` works on the copy here
    let buf ← given .strcmp (strtokIn isBlank (stringOf cmd ++ [ending])).1
    if stringOf buf = "tell".toList then do
      let reply ← tell cmd
      .ok (some reply)
    else if stringOf buf = "yell".toList then do
      let reply ← yell cmd
      .ok (some reply)
    else
      .ok none

/-- `cmd` after `memset` and `read`. -/
def inputBuffer (received : List Char) : List Char :=
  received ++ List.replicate (maxInputLen - received.length) ending

/-- `cmd` after `strtok(cmd, "\r\n")`. -/
def cutLine (cmd : List Char) : List Char :=
  match (strtokIn isLineEnd cmd).1 with
  | none => cmd
  | some line => cmd.takeWhile isLineEnd ++ line

/-- The end of `run_shell`: the line goes to `check_cmd` and `string_split`. -/
def handleLine
    (tell yell : List Char → Except Fault Reply)
    (split : List Char → SplitResult)
    (client : ClientView)
    (cmd : List Char) : Except Fault ShellReturn := do
  match ← checkCmd tell yell cmd with
  | some reply => .ok (.handled reply)
  | none =>
      let call ← given .strcmp (split (stringOf cmd)).call
      let reply ← missionReply client call
      .ok (.handled reply)

/-- `run_shell` without the countdown, with the functions that it calls. -/
def runShellWith
    (tell yell : List Char → Except Fault Reply)
    (split : List Char → SplitResult)
    (client : ClientView)
    (received : List Char) : Except Fault ShellReturn :=
  let cmd := inputBuffer received
  if cmd.head? = some (Char.ofNat 4) then
    .ok .logout
  else if stringOf cmd = ['\r', '\n'] ∨ stringOf cmd = ['\n'] then
    .ok .blank
  else if stringOf (cutLine cmd) = "exit".toList then
    .ok .logout
  else
    handleLine tell yell split client (cutLine cmd)

/-- `run_shell` of `np_single_proc.c`. -/
def runShell
    (client : ClientView)
    (received : List Char) : Except Fault ShellReturn :=
  runShellWith (cmdTell client) (cmdYell client) stringSplit client received

/-! ## The words that `strtok` finds -/

section Strtok

variable {isDelimiter : Char → Bool}

/-- Only delimiters stand in front of the end. -/
theorem strtokIn_gap
    {gap : List Char}
    (isGap : ∀ symbol ∈ gap, isDelimiter symbol = true)
    (notDelimiter : isDelimiter ending = false)
    (rest : List Char) :
    strtokIn isDelimiter (gap ++ ending :: rest) = (none, ending :: rest) := by
  unfold strtokIn
  rw [List.dropWhile_append_of_pos isGap,
    List.dropWhile_cons_of_neg (by simp [notDelimiter])]
  simp

/-- A word is cut where its delimiter or the end of the string stands. -/
theorem strtokIn_word
    {gap word : List Char}
    (isGap : ∀ symbol ∈ gap, isDelimiter symbol = true)
    (nonempty : word ≠ [])
    (isWord : ∀ symbol ∈ word, isDelimiter symbol = false ∧ symbol ≠ ending)
    {symbol : Char}
    (ends : isDelimiter symbol = true ∨ symbol = ending)
    (rest : List Char) :
    strtokIn isDelimiter (gap ++ (word ++ symbol :: rest)) =
      (some (word ++ ending :: rest),
        if symbol = ending then ending :: rest else rest) := by
  have taken :
      (word ++ symbol :: rest).takeWhile
          (fun other => !isDelimiter other && other ≠ ending) = word := by
    rw [List.takeWhile_append_of_pos, List.takeWhile_cons_of_neg,
      List.append_nil]
    · rcases ends with delimits | isEnd
      · simp [delimits]
      · simp [isEnd]
    · intro other member
      simp [isWord other member]
  have started :
      (word ++ symbol :: rest).dropWhile isDelimiter =
        word ++ symbol :: rest := by
    cases word with
    | nil =>
        exact absurd rfl nonempty
    | cons first others =>
        have plain := (isWord first List.mem_cons_self).1
        exact List.dropWhile_cons_of_neg (by simp [plain])
  unfold strtokIn
  rw [List.dropWhile_append_of_pos isGap, started]
  simp only [taken, if_neg nonempty, List.drop_left]

/-- A word at the pointer is cut where its delimiter or the end stands. -/
theorem strtokIn_here
    {word : List Char}
    (nonempty : word ≠ [])
    (isWord : ∀ symbol ∈ word, isDelimiter symbol = false ∧ symbol ≠ ending)
    {symbol : Char}
    (ends : isDelimiter symbol = true ∨ symbol = ending)
    (rest : List Char) :
    strtokIn isDelimiter (word ++ symbol :: rest) =
      (some (word ++ ending :: rest),
        if symbol = ending then ending :: rest else rest) := by
  have noGap : ∀ symbol ∈ ([] : List Char), isDelimiter symbol = true :=
    fun _ member => absurd member List.not_mem_nil
  exact strtokIn_word noGap nonempty isWord ends rest

/-- The string of a pointer ends at its first end. -/
theorem stringOf_append
    {text : List Char}
    (noEnding : ending ∉ text)
    (rest : List Char) :
    stringOf (text ++ ending :: rest) = text := by
  unfold stringOf
  rw [List.takeWhile_append_of_pos, List.takeWhile_cons_of_neg (by simp),
    List.append_nil]
  intro symbol member
  refine decide_eq_true ?_
  rintro rfl
  exact noEnding member

/-- What was read without an end of a string in it is the string. -/
theorem stringOf_inputBuffer
    {text : List Char}
    (noEnding : ending ∉ text) :
    stringOf (inputBuffer text) = text := by
  unfold inputBuffer
  cases maxInputLen - text.length with
  | zero =>
      rw [List.replicate_zero, List.append_nil]
      refine List.takeWhile_eq_self_iff.mpr ?_
      intro symbol member
      refine decide_eq_true ?_
      rintro rfl
      exact noEnding member
  | succ count =>
      exact stringOf_append noEnding _

/-- A string with an end behind it, from the words of the string. -/
theorem strtokIn_of_tokens_nil
    {text : List Char}
    (notDelimiter : isDelimiter ending = false)
    (noTokens : tokens isDelimiter text = [])
    (rest : List Char) :
    strtokIn isDelimiter (text ++ ending :: rest) = (none, ending :: rest) := by
  cases isNext : strtok isDelimiter text with
  | none =>
      exact strtokIn_gap (strtok_eq_none isNext) notDelimiter rest
  | some found =>
      rw [tokens_of_some isDelimiter isNext] at noTokens
      cases noTokens

/-- The first word of a string, with its end, and the string behind it. -/
theorem strtokIn_of_tokens_cons
    {text word : List Char}
    {words : List (List Char)}
    (noEnding : ending ∉ text)
    (isTokens : tokens isDelimiter text = word :: words)
    (rest : List Char) :
    ∃ found behind,
      strtokIn isDelimiter (text ++ ending :: rest) =
          (some (word ++ ending :: found), behind ++ ending :: rest) ∧
        word ≠ [] ∧ word ⊆ text ∧ behind ⊆ text ∧
        tokens isDelimiter behind = words := by
  cases isNext : strtok isDelimiter text with
  | none =>
      rw [tokens_of_none isDelimiter isNext] at isTokens
      cases isTokens
  | some next =>
      obtain ⟨first, behind⟩ := next
      rw [tokens_of_some isDelimiter isNext] at isTokens
      obtain ⟨rfl, isRest⟩ := List.cons.inj isTokens
      obtain ⟨gap, isGap, nonempty, isWord, shape⟩ := strtok_parts isNext
      have inText : first ⊆ text := by
        rcases shape with ⟨rfl, -⟩ | ⟨delimiter, -, rfl⟩ <;> simp
      have plain :
          ∀ symbol ∈ first,
            isDelimiter symbol = false ∧ symbol ≠ ending := by
        intro symbol member
        refine ⟨isWord symbol member, ?_⟩
        rintro rfl
        exact noEnding (inText member)
      rcases shape with ⟨rfl, rfl⟩ | ⟨delimiter, delimits, rfl⟩
      · refine ⟨rest, [], ?_, nonempty, inText, List.nil_subset _, isRest⟩
        rw [List.append_assoc,
          strtokIn_word isGap nonempty plain (Or.inr rfl), if_pos rfl]
        rfl
      · have notEnding : delimiter ≠ ending := by
          rintro rfl
          exact noEnding (by simp)
        refine ⟨behind ++ ending :: rest, behind, ?_, nonempty, inText, ?_,
          isRest⟩
        · rw [List.append_assoc, List.append_assoc, List.cons_append,
            strtokIn_word isGap nonempty plain (Or.inl delimits),
            if_neg notEnding]
        · intro symbol member
          simp [member]

end Strtok

/-! ## Null pointers -/

/-- The computation uses a null pointer. -/
def IsNull
    {α : Type}
    (result : Except Fault α) : Prop :=
  ∃ use, result = .error (.null use)

section IsNull

variable {α β : Type}

@[simp] theorem not_isNull_ok
    (value : α) :
    ¬ IsNull (.ok value : Except Fault α) := by
  rintro ⟨use, isError⟩
  cases isError

/-- What runs behind a computation runs with its value. -/
theorem isNull_bind
    {first : Except Fault α}
    {next : α → Except Fault β} :
    IsNull (first >>= next) ↔
      IsNull first ∨ ∃ value, first = .ok value ∧ IsNull (next value) := by
  cases first with
  | error fault =>
      constructor
      · rintro ⟨use, isError⟩
        exact Or.inl ⟨use, congrArg Except.error (Except.error.inj isError)⟩
      · rintro (⟨use, isError⟩ | ⟨value, isOk, -⟩)
        · exact ⟨use, congrArg Except.error (Except.error.inj isError)⟩
        · cases isOk
  | ok value =>
      constructor
      · intro isNull
        exact Or.inr ⟨value, rfl, isNull⟩
      · rintro (isNull | ⟨other, isOk, isNull⟩)
        · exact absurd isNull (not_isNull_ok value)
        · cases isOk
          exact isNull

@[simp] theorem isNull_given
    {use : PointerUse}
    {pointer : Option α} :
    IsNull (given use pointer) ↔ pointer = none := by
  cases pointer with
  | none => simp [given, IsNull]
  | some value => simp [given]

theorem given_eq_ok
    {use : PointerUse}
    {pointer : Option α}
    {value : α} :
    given use pointer = .ok value ↔ pointer = some value := by
  cases pointer <;> simp [given]

@[simp] theorem not_isNull_fitted
    (size : Nat)
    (text : List Char) :
    ¬ IsNull (fitted size text) := by
  rintro ⟨use, isError⟩
  unfold fitted at isError
  split at isError <;> cases isError

end IsNull

/-- A word where the search starts. -/
theorem strtokIn_start
    {isDelimiter : Char → Bool}
    {first : Char}
    (notDelimiter : isDelimiter first = false)
    (notEnding : first ≠ ending)
    (rest : List Char) :
    ∃ buf,
      (strtokIn isDelimiter (first :: rest)).1 = some buf ∧
        stringOf buf =
          first ::
            rest.takeWhile fun symbol =>
              !isDelimiter symbol && symbol ≠ ending := by
  let word :=
    first ::
      rest.takeWhile fun symbol => !isDelimiter symbol && symbol ≠ ending
  have noEnding : ending ∉ word := by
    intro member
    rcases List.mem_cons.mp member with isFirst | inRest
    · exact notEnding isFirst.symm
    · have differs := List.mem_takeWhile_imp inRest
      simp at differs
  have taken :
      (first :: rest).takeWhile
          (fun symbol => !isDelimiter symbol && symbol ≠ ending) = word :=
    List.takeWhile_cons_of_pos (by simp [notDelimiter, notEnding])
  unfold strtokIn
  rw [List.dropWhile_cons_of_neg (by simp [notDelimiter])]
  dsimp only
  rw [taken, if_neg (List.cons_ne_nil _ _)]
  split
  · refine ⟨word, rfl, List.takeWhile_eq_self_iff.mpr ?_⟩
    intro symbol member
    refine decide_eq_true ?_
    rintro rfl
    exact noEnding member
  · exact ⟨_, rfl, stringOf_append noEnding _⟩

theorem reopen_append
    {word : List Char}
    (noEnding : ending ∉ word)
    (rest : List Char) :
    reopen (word ++ ending :: rest) = word ++ ' ' :: rest := by
  unfold reopen
  rw [stringOf_append noEnding, List.drop_left, List.tail_cons]

/-- The text of a message is missing if no word is left. -/
theorem isNull_restOfLine
    {text : List Char}
    (noEnding : ending ∉ text)
    (noLineEnd : ∀ symbol ∈ text, isLineEnd symbol = false)
    (rest : List Char) :
    IsNull (restOfLine (text ++ ending :: rest)) ↔ tokens isBlank text = [] := by
  unfold restOfLine
  rw [isNull_bind, isNull_given]
  cases isTokens : tokens isBlank text with
  | nil =>
      have missing := strtokIn_of_tokens_nil (by decide) isTokens rest
      simp [missing]
  | cons word words =>
      obtain ⟨found, behind, isFound, nonempty, inText, -, -⟩ :=
        strtokIn_of_tokens_cons noEnding isTokens rest
      have noEndingInWord : ending ∉ word := fun member =>
        noEnding (inText member)
      rw [isFound]
      constructor
      · rintro (isNone | ⟨buf, isBuf, isNull⟩)
        · cases isNone
        · obtain rfl := Option.some.inj (given_eq_ok.mp isBuf)
          rw [reopen_append noEndingInWord, isNull_bind, isNull_given] at isNull
          rcases isNull with isNone | ⟨line, -, isNull⟩
          · obtain ⟨first, others, rfl⟩ := List.exists_cons_of_ne_nil nonempty
            have notEnding : first ≠ ending := by
              rintro rfl
              exact noEndingInWord List.mem_cons_self
            obtain ⟨line, isLine, -⟩ :=
              strtokIn_start (noLineEnd first (inText List.mem_cons_self))
                notEnding (others ++ ' ' :: found)
            exact absurd (isLine.symm.trans isNone) (Option.some_ne_none _)
          · exact absurd isNull (not_isNull_ok _)
      · intro isNil
        cases isNil

/-! ## Lines with a missing word -/

/-- `tell` needs an id, and a text if the id is one of a client. -/
theorem isNull_cmdTell
    {client : ClientView}
    {line : List Char}
    {words : List (List Char)}
    (noEnding : ending ∉ line)
    (noLineEnd : ∀ symbol ∈ line, isLineEnd symbol = false)
    (isTokens : tokens isBlank line = "tell".toList :: words)
    (rest : List Char) :
    IsNull (cmdTell client (line ++ ending :: rest)) ↔
      words = [] ∨ ∃ id, words = [id] ∧ client.state (atoi id) = true := by
  obtain ⟨found, behind, isFound, -, -, inLine, isRest⟩ :=
    strtokIn_of_tokens_cons noEnding isTokens rest
  have noEndingBehind : ending ∉ behind := fun member =>
    noEnding (inLine member)
  unfold cmdTell
  rw [isFound]
  dsimp only
  cases words with
  | nil =>
      rw [strtokIn_of_tokens_nil (by decide) isRest]
      simp [isNull_bind]
  | cons id others =>
      obtain ⟨foundId, behindId, isId, -, idInLine, behindInLine, isOthers⟩ :=
        strtokIn_of_tokens_cons noEndingBehind isRest rest
      have noEndingId : ending ∉ id := fun member =>
        noEndingBehind (idInLine member)
      have noEndingText : ending ∉ behindId := fun member =>
        noEndingBehind (behindInLine member)
      rw [isId]
      simp only [isNull_bind, isNull_given, given_eq_ok, Option.some.injEq,
        reduceCtorEq, false_or, exists_eq_left', stringOf_append noEndingId]
      cases isClient : client.state (atoi id) with
      | false =>
          simp [isNull_bind, isClient]
      | true =>
          have noLineEndText :
              ∀ symbol ∈ behindId, isLineEnd symbol = false := by
            intro symbol member
            exact noLineEnd symbol (inLine (behindInLine member))
          have isMissing :=
            isNull_restOfLine noEndingText noLineEndText rest
          rw [isOthers] at isMissing
          simp [isNull_bind, isMissing, isClient]

/-- `yell` needs a text. -/
theorem isNull_cmdYell
    {client : ClientView}
    {line : List Char}
    {words : List (List Char)}
    (noEnding : ending ∉ line)
    (noLineEnd : ∀ symbol ∈ line, isLineEnd symbol = false)
    (isTokens : tokens isBlank line = "yell".toList :: words)
    (rest : List Char) :
    IsNull (cmdYell client (line ++ ending :: rest)) ↔ words = [] := by
  obtain ⟨found, behind, isFound, -, -, inLine, isRest⟩ :=
    strtokIn_of_tokens_cons noEnding isTokens rest
  have noEndingBehind : ending ∉ behind := fun member =>
    noEnding (inLine member)
  have noLineEndBehind : ∀ symbol ∈ behind, isLineEnd symbol = false := by
    intro symbol member
    exact noLineEnd symbol (inLine member)
  have isMissing := isNull_restOfLine noEndingBehind noLineEndBehind rest
  rw [isRest] at isMissing
  unfold cmdYell
  rw [isFound]
  simp [isNull_bind, isMissing]

/-- The search for the name does not fail if there is one. -/
theorem nameExists_some
    (client : ClientView)
    (name : List Char)
    (ids : List Int) :
    ∃ taken, nameExists client (some name) ids = .ok taken := by
  induction ids with
  | nil =>
      exact ⟨false, rfl⟩
  | cons i rest inductionHypothesis =>
      unfold nameExists
      split
      · by_cases same : name = client.name i
        · exact ⟨true, by simp [given, same, Bind.bind, Except.bind]⟩
        · obtain ⟨taken, isTaken⟩ := inductionHypothesis
          exact ⟨taken, by simp [given, same, Bind.bind, Except.bind, isTaken]⟩
      · exact inductionHypothesis

/-- Without a name, the search compares a null pointer or finds nothing. -/
theorem nameExists_none
    (client : ClientView)
    (ids : List Int) :
    IsNull (nameExists client none ids) ∨
      nameExists client none ids = .ok false := by
  induction ids with
  | nil =>
      exact Or.inr rfl
  | cons i rest inductionHypothesis =>
      unfold nameExists
      split
      · exact Or.inl ⟨.strcmp, rfl⟩
      · exact inductionHypothesis

/-- `name` needs a name. -/
theorem isNull_cmdName
    {client : ClientView}
    {name : Option (List Char)} :
    IsNull (cmdName client name) ↔ name = none := by
  unfold cmdName
  rw [isNull_bind]
  cases name with
  | none =>
      rcases nameExists_none client (clientIds.map Int.ofNat) with
        isNull | isOk
      · simp [isNull]
      · simp [isOk, isNull_bind]
  | some name =>
      obtain ⟨taken, isOk⟩ :=
        nameExists_some client name (clientIds.map Int.ofNat)
      cases taken <;> simp [isOk, isNull_bind]

/-- A built-in command without its arguments, or no command at all. -/
def LacksArgument (command : List (List Char)) : Prop :=
  command = [] ∨ command = ["name".toList] ∨ command = ["printenv".toList] ∨
    (command.head? = some "setenv".toList ∧ command.length < 3)

/-- A line for which a word is missing. -/
def LacksWord
    (client : ClientView)
    (line : List Char) : Prop :=
  tokens isBlank line = ["tell".toList] ∨
    tokens isBlank line = ["yell".toList] ∨
    (∃ id,
      tokens isBlank line = ["tell".toList, id] ∧
        client.state (atoi id) = true) ∨
    ((tokens isBlank line).head? ≠ some "tell".toList ∧
      (tokens isBlank line).head? ≠ some "yell".toList ∧
      (Split.analyse line).mode = false ∧
      LacksArgument (Split.analyse line).firstCommand)

/-- `setenv` needs two words. -/
theorem isNull_envSetting_setenv
    (arguments : List (List Char)) :
    IsNull (envSetting ("setenv".toList :: arguments)) ↔
      arguments.length < 2 := by
  have isSet : ("setenv".toList :: arguments)[0]? = some "setenv".toList :=
    List.getElem?_cons_zero
  unfold envSetting
  rw [if_pos isSet, isNull_bind, isNull_given]
  match arguments with
  | [] => simp
  | [name] => simp [given_eq_ok, isNull_bind]
  | name :: value :: rest => simp [given_eq_ok, isNull_bind]

/-- `printenv` needs a word. -/
theorem isNull_envSetting_printenv
    (arguments : List (List Char)) :
    IsNull (envSetting ("printenv".toList :: arguments)) ↔ arguments = [] := by
  have isOther :
      ("printenv".toList :: arguments)[0]? ≠ some "setenv".toList := by
    rw [List.getElem?_cons_zero]
    decide
  unfold envSetting
  rw [if_neg isOther, isNull_bind, isNull_given]
  cases arguments <;> simp

/-- The words of a built-in that are missing. -/
theorem lacksArgument_cons
    (word : List Char)
    (arguments : List (List Char)) :
    LacksArgument (word :: arguments) ↔
      (arguments = [] ∧ (word = "name".toList ∨ word = "printenv".toList)) ∨
        (word = "setenv".toList ∧ arguments.length < 2) := by
  unfold LacksArgument
  rw [List.head?_cons, Option.some_inj, List.length_cons, List.cons_eq_cons,
    List.cons_eq_cons]
  constructor
  · rintro (isNil | ⟨isName, isNil⟩ | ⟨isPrint, isNil⟩ | ⟨isSet, short⟩)
    · cases isNil
    · exact Or.inl ⟨isNil, Or.inl isName⟩
    · exact Or.inl ⟨isNil, Or.inr isPrint⟩
    · exact Or.inr ⟨isSet, by omega⟩
  · rintro (⟨isNil, isName | isPrint⟩ | ⟨isSet, short⟩)
    · exact Or.inr (Or.inl ⟨isName, isNil⟩)
    · exact Or.inr (Or.inr (Or.inl ⟨isPrint, isNil⟩))
    · exact Or.inr (Or.inr (Or.inr ⟨isSet, by omega⟩))

/-- The words that a call of `string_split` uses. -/
theorem isNull_mission
    (client : ClientView)
    (line : List Char) :
    IsNull
        (given .strcmp (stringSplit line).call >>= missionReply client) ↔
      (Split.analyse line).mode = false ∧
        LacksArgument (Split.analyse line).firstCommand := by
  have isCall :
      (stringSplit line).call = (Split.analyse line).missionHandler line := by
    unfold stringSplit
    rfl
  rw [isNull_bind, isNull_given, isCall]
  simp only [given_eq_ok]
  unfold Split.missionHandler
  generalize Split.analyse line = split
  cases isPipe : split.mode with
  | true =>
      constructor
      · rintro (isNone | ⟨call, isCall, isNull⟩)
        · cases isNone
        · obtain rfl := Option.some.inj isCall
          exact absurd isNull (not_isNull_ok _)
      · rintro ⟨isSingle, -⟩
        cases isSingle
  | false =>
      rw [if_neg (by decide)]
      generalize split.arguments line = call
      generalize split.firstCommand = command
      match command with
      | [] =>
          exact ⟨fun _ => ⟨rfl, Or.inl rfl⟩, fun _ => Or.inl rfl⟩
      | word :: arguments =>
          have isBound
              (next : List Char → Option SplitCall) :
              ((word :: arguments)[0]? >>= next) = next word :=
            rfl
          have handled
              (isCall : SplitCall) :
              (some isCall = none ∨
                  ∃ other,
                    some isCall = some other ∧
                      IsNull (missionReply client other)) ↔
                IsNull (missionReply client isCall) := by
            simp only [reduceCtorEq, Option.some.injEq, exists_eq_left',
              false_or]
          rw [isBound, lacksArgument_cons, and_iff_right rfl]
          by_cases isWho : word = "who".toList
          · subst isWho
            rw [if_pos (Or.inl rfl), if_pos rfl, handled]
            constructor
            · intro isNull
              exact absurd isNull (not_isNull_ok _)
            · rintro (⟨-, isOther | isOther⟩ | ⟨isOther, -⟩) <;>
                exact absurd isOther (by decide)
          · by_cases isName : word = "name".toList
            · subst isName
              have isArgument :
                  ("name".toList :: arguments)[1]? = arguments[0]? :=
                rfl
              rw [if_pos (Or.inr rfl), if_neg (by decide), handled, isArgument]
              change IsNull (cmdName client arguments[0]?) ↔ _
              rw [isNull_cmdName, List.getElem?_eq_none_iff, Nat.le_zero,
                List.length_eq_zero_iff]
              constructor
              · intro isNil
                exact Or.inl ⟨isNil, Or.inl rfl⟩
              · rintro (⟨isNil, -⟩ | ⟨isOther, -⟩)
                · exact isNil
                · exact absurd isOther (by decide)
            · rw [if_neg (not_or.mpr ⟨isWho, isName⟩)]
              by_cases isSet : word = "setenv".toList
              · subst isSet
                rw [if_pos (Or.inl rfl), handled]
                refine (isNull_envSetting_setenv arguments).trans ?_
                constructor
                · intro short
                  exact Or.inr ⟨rfl, short⟩
                · rintro (⟨-, isOther | isOther⟩ | ⟨-, short⟩)
                  · exact absurd isOther (by decide)
                  · exact absurd isOther (by decide)
                  · exact short
              · by_cases isPrint : word = "printenv".toList
                · subst isPrint
                  rw [if_pos (Or.inr rfl), handled]
                  refine (isNull_envSetting_printenv arguments).trans ?_
                  constructor
                  · intro isNil
                    exact Or.inl ⟨isNil, Or.inr rfl⟩
                  · rintro (⟨isNil, -⟩ | ⟨isOther, -⟩)
                    · exact isNil
                    · exact absurd isOther (by decide)
                · rw [if_neg (not_or.mpr ⟨isSet, isPrint⟩), handled]
                  constructor
                  · intro isNull
                    exact absurd isNull (not_isNull_ok _)
                  · rintro (⟨-, isOther | isOther⟩ | ⟨isOther, -⟩)
                    · exact absurd isOther isName
                    · exact absurd isOther isPrint
                    · exact absurd isOther isSet

/-! ## The line that `run_shell` cuts off -/

/-- A word is a part of its text. -/
theorem head_tokens_infix
    {text word : List Char}
    {words : List (List Char)}
    (isTokens : tokens isBlank text = word :: words) :
    word <:+: text := by
  cases isNext : strtok isBlank text with
  | none =>
      rw [tokens_of_none isBlank isNext] at isTokens
      cases isTokens
  | some next =>
      obtain ⟨first, behind⟩ := next
      rw [tokens_of_some isBlank isNext] at isTokens
      obtain ⟨rfl, -⟩ := List.cons.inj isTokens
      obtain ⟨gap, -, -, -, shape⟩ := strtok_parts isNext
      rcases shape with ⟨rfl, -⟩ | ⟨delimiter, -, rfl⟩
      · exact ⟨gap, [], List.append_nil _⟩
      · exact ⟨gap, delimiter :: behind, List.append_assoc _ _ _⟩

/-- A text that starts with a word has that symbol in front of its first word. -/
theorem head_tokens_cons
    {symbol : Char}
    (notBlank : isBlank symbol = false)
    (text : List Char) :
    ∃ word words, tokens isBlank (symbol :: text) = (symbol :: word) :: words := by
  have started :
      (symbol :: text).dropWhile isBlank = symbol :: text :=
    List.dropWhile_cons_of_neg (by simp [notBlank])
  have isNext :
      strtok isBlank (symbol :: text) =
        some
          (symbol :: text.takeWhile fun other => !isBlank other,
            (text.dropWhile fun other => !isBlank other).tail) := by
    unfold strtok
    rw [started]
  exact ⟨_, _, tokens_of_some isBlank isNext⟩

/-- The cut array: line ends that were skipped, the line, and its end. -/
theorem cutLine_append
    {text : List Char}
    (noEnding : ending ∉ text)
    (rest : List Char) :
    ∃ lead line behind,
      cutLine (text ++ ending :: rest) = (lead ++ line) ++ ending :: behind ∧
        ending ∉ lead ++ line ∧
        (∀ symbol ∈ lead, isLineEnd symbol = true) ∧
        ∀ symbol ∈ line, isLineEnd symbol = false := by
  unfold cutLine
  cases isTokens : tokens isLineEnd text with
  | nil =>
      have isNone := strtokIn_of_tokens_nil (by decide) isTokens rest
      rw [isNone]
      have onlyEnds : ∀ symbol ∈ text, isLineEnd symbol = true := by
        cases isNext : strtok isLineEnd text with
        | none =>
            exact strtok_eq_none isNext
        | some found =>
            rw [tokens_of_some isLineEnd isNext] at isTokens
            cases isTokens
      refine ⟨text, [], rest, ?_, ?_, onlyEnds, ?_⟩
      · rw [List.append_nil]
      · rwa [List.append_nil]
      · intro symbol member
        cases member
  | cons line lines =>
      obtain ⟨found, behind, isFound, -, inText, -, -⟩ :=
        strtokIn_of_tokens_cons noEnding isTokens rest
      rw [isFound]
      have isLead :
          ∀ symbol ∈ (text ++ ending :: rest).takeWhile isLineEnd,
            isLineEnd symbol = true := by
        intro symbol member
        exact List.mem_takeWhile_imp member
      have notEnding :
          ending ∉ (text ++ ending :: rest).takeWhile isLineEnd := by
        intro member
        exact absurd (isLead ending member) (by decide)
      have inTokens : line ∈ tokens isLineEnd text := by
        rw [isTokens]
        exact List.mem_cons_self
      refine ⟨_, line, found, (List.append_assoc _ _ _).symm, ?_, isLead,
        (mem_tokens inTokens).2⟩
      intro member
      rcases List.mem_append.mp member with inLead | inLine
      · exact notEnding inLead
      · exact noEnding (inText inLine)

/-- A line in front of its line end is cut where the line end starts. -/
theorem cutLine_line
    {line : List Char}
    (nonempty : line ≠ [])
    (isLine : ∀ symbol ∈ line, isLineEnd symbol = false ∧ symbol ≠ ending)
    {symbol : Char}
    (isEnd : isLineEnd symbol = true)
    (rest : List Char) :
    cutLine (line ++ symbol :: rest) = line ++ ending :: rest := by
  have isCut := strtokIn_here nonempty isLine (Or.inl isEnd) rest
  have noLead : (line ++ symbol :: rest).takeWhile isLineEnd = [] := by
    obtain ⟨first, others, rfl⟩ := List.exists_cons_of_ne_nil nonempty
    have notEnd := (isLine first List.mem_cons_self).1
    exact List.takeWhile_cons_of_neg (by simp [notEnd])
  unfold cutLine
  rw [isCut, noLead]
  rfl

/-- The array after a read that leaves room for the end. -/
theorem inputBuffer_eq
    {received : List Char}
    (short : received.length < maxInputLen) :
    ∃ text rest,
      inputBuffer received = text ++ ending :: rest ∧ ending ∉ text := by
  have member : ending ∈ inputBuffer received := by
    unfold inputBuffer
    refine List.mem_append_right _ (List.mem_replicate.mpr ⟨?_, rfl⟩)
    omega
  obtain ⟨text, rest, isParts, noEnding⟩ :=
    List.eq_append_cons_of_mem member
  exact ⟨text, rest, isParts, noEnding⟩

/-- The first word that `check_cmd` compares. -/
theorem strtokIn_copy
    {text word : List Char}
    {words : List (List Char)}
    (noEnding : ending ∉ text)
    (isTokens : tokens isBlank text = word :: words) :
    ∃ buf,
      (strtokIn isBlank (text ++ [ending])).1 = some buf ∧
        stringOf buf = word := by
  obtain ⟨found, behind, isFound, -, inText, -, -⟩ :=
    strtokIn_of_tokens_cons noEnding isTokens []
  have noEndingInWord : ending ∉ word := fun member =>
    noEnding (inText member)
  exact ⟨_, congrArg Prod.fst isFound, stringOf_append noEndingInWord found⟩

/-- `check_cmd` hands `tell` on. -/
theorem checkCmd_tell
    (tell yell : List Char → Except Fault Reply)
    {text : List Char}
    {words : List (List Char)}
    (noEnding : ending ∉ text)
    (isTokens : tokens isBlank text = "tell".toList :: words)
    (rest : List Char) :
    checkCmd tell yell (text ++ ending :: rest) =
      tell (text ++ ending :: rest) >>= fun reply => .ok (some reply) := by
  obtain ⟨buf, isBuf, isTell⟩ := strtokIn_copy noEnding isTokens
  have inside := head_tokens_infix isTokens
  unfold checkCmd
  rw [stringOf_append noEnding, if_neg (fun absent => absent.1 inside), isBuf]
  change
    (if stringOf buf = "tell".toList then
        tell (text ++ ending :: rest) >>= fun reply => .ok (some reply)
      else _) = _
  rw [if_pos isTell]

/-- `check_cmd` hands `yell` on. -/
theorem checkCmd_yell
    (tell yell : List Char → Except Fault Reply)
    {text : List Char}
    {words : List (List Char)}
    (noEnding : ending ∉ text)
    (isTokens : tokens isBlank text = "yell".toList :: words)
    (rest : List Char) :
    checkCmd tell yell (text ++ ending :: rest) =
      yell (text ++ ending :: rest) >>= fun reply => .ok (some reply) := by
  obtain ⟨buf, isBuf, isYell⟩ := strtokIn_copy noEnding isTokens
  have inside := head_tokens_infix isTokens
  have notTell : stringOf buf ≠ "tell".toList := by
    rw [isYell]
    decide
  unfold checkCmd
  rw [stringOf_append noEnding, if_neg (fun absent => absent.2 inside), isBuf]
  change
    (if stringOf buf = "tell".toList then _
      else
        if stringOf buf = "yell".toList then
          yell (text ++ ending :: rest) >>= fun reply => .ok (some reply)
        else _) = _
  rw [if_neg notTell, if_pos isYell]

/-- Another line is left to `string_split`. -/
theorem checkCmd_other
    (tell yell : List Char → Except Fault Reply)
    {text : List Char}
    (noEnding : ending ∉ text)
    (notTell : (tokens isBlank text).head? ≠ some "tell".toList)
    (notYell : (tokens isBlank text).head? ≠ some "yell".toList)
    (rest : List Char) :
    checkCmd tell yell (text ++ ending :: rest) = .ok none := by
  unfold checkCmd
  rw [stringOf_append noEnding]
  split
  · rfl
  · rename_i contained
    cases isTokens : tokens isBlank text with
    | nil =>
        -- blanks only do not contain either name
        have onlyBlanks : ∀ symbol ∈ text, isBlank symbol = true := by
          cases isNext : strtok isBlank text with
          | none =>
              exact strtok_eq_none isNext
          | some found =>
              rw [tokens_of_some isBlank isNext] at isTokens
              cases isTokens
        have absent (name : List Char) (member : 'l' ∈ name) :
            ¬ name <:+: text := by
          intro inside
          exact absurd (onlyBlanks 'l' (inside.subset member)) (by decide)
        exact absurd
          ⟨absent "tell".toList (by decide), absent "yell".toList (by decide)⟩
          contained
    | cons word words =>
        obtain ⟨buf, isBuf, isWord⟩ := strtokIn_copy noEnding isTokens
        rw [isTokens, List.head?_cons, Ne, Option.some_inj] at notTell notYell
        rw [isBuf]
        change
          (if stringOf buf = "tell".toList then _
            else if stringOf buf = "yell".toList then _
              else Except.ok none) = _
        rw [isWord, if_neg notTell, if_neg notYell]

/-! ## Which input uses a null pointer -/

/-- The line that `run_shell` passes on. -/
def lineOf (received : List Char) : List Char :=
  stringOf (cutLine (inputBuffer received))

/-- An input for which `run_shell` returns before it looks at the words. -/
def EndsEarly (received : List Char) : Prop :=
  (inputBuffer received).head? = some (Char.ofNat 4) ∨
    stringOf (inputBuffer received) = ['\r', '\n'] ∨
    stringOf (inputBuffer received) = ['\n'] ∨
    lineOf received = "exit".toList

/-- A line behind skipped line ends is none of `tell` and `yell`. -/
theorem lead_eq_nil
    {lead line name : List Char}
    {words : List (List Char)}
    (isLead : ∀ symbol ∈ lead, isLineEnd symbol = true)
    (isName : ∀ symbol ∈ name, isLineEnd symbol = false)
    (isTokens : tokens isBlank (lead ++ line) = name :: words) :
    lead = [] := by
  cases lead with
  | nil =>
      rfl
  | cons symbol others =>
      have isEnd := isLead symbol List.mem_cons_self
      have notBlank : isBlank symbol = false := by
        refine decide_eq_false ?_
        rintro rfl
        exact absurd isEnd (by decide)
      obtain ⟨word, rest, isFirst⟩ :=
        head_tokens_cons notBlank (others ++ line)
      rw [List.cons_append, isFirst] at isTokens
      obtain ⟨rfl, -⟩ := List.cons.inj isTokens
      have notEnd := isName symbol List.mem_cons_self
      rw [isEnd] at notEnd
      cases notEnd

/-- An input that does not end early is passed on. -/
theorem runShellWith_of_not_endsEarly
    (tell yell : List Char → Except Fault Reply)
    (split : List Char → SplitResult)
    (client : ClientView)
    {received : List Char}
    (notEarly : ¬ EndsEarly received) :
    runShellWith tell yell split client received =
      handleLine tell yell split client (cutLine (inputBuffer received)) := by
  obtain ⟨notEnd, notReturn, notFeed, notExit⟩ :=
    (by simpa only [EndsEarly, not_or] using notEarly :
      _ ∧ _ ∧ _ ∧ lineOf received ≠ "exit".toList)
  unfold runShellWith
  rw [if_neg notEnd, if_neg (not_or.mpr ⟨notReturn, notFeed⟩)]
  exact if_neg notExit

/-- An input that ends early has no fault. -/
theorem not_isNull_of_endsEarly
    (tell yell : List Char → Except Fault Reply)
    (split : List Char → SplitResult)
    (client : ClientView)
    {received : List Char}
    (early : EndsEarly received) :
    ¬ IsNull (runShellWith tell yell split client received) := by
  unfold runShellWith
  dsimp only
  split_ifs with isEnd isBlankLine isExit
  · exact not_isNull_ok _
  · exact not_isNull_ok _
  · exact not_isNull_ok _
  · obtain ⟨notReturn, notFeed⟩ := not_or.mp isBlankLine
    rcases early with isEarly | isEarly | isEarly | isEarly
    · exact absurd isEarly isEnd
    · exact absurd isEarly notReturn
    · exact absurd isEarly notFeed
    · exact absurd isEarly isExit

/-- A line that `check_cmd` handles ends with its command. -/
theorem handleLine_of_checked
    {tell yell : List Char → Except Fault Reply}
    (split : List Char → SplitResult)
    (client : ClientView)
    {cmd : List Char}
    {command : Except Fault Reply}
    (isChecked :
      checkCmd tell yell cmd = command >>= fun reply => .ok (some reply)) :
    handleLine tell yell split client cmd =
      command >>= fun reply => .ok (.handled reply) := by
  unfold handleLine
  rw [isChecked]
  cases command <;> rfl

/-- A line that is passed on uses a null pointer exactly if a word is missing. -/
theorem isNull_handleLine
    {client : ClientView}
    {lead line : List Char}
    (noEnding : ending ∉ lead ++ line)
    (isLead : ∀ symbol ∈ lead, isLineEnd symbol = true)
    (isLine : ∀ symbol ∈ line, isLineEnd symbol = false)
    (behind : List Char) :
    IsNull
        (handleLine (cmdTell client) (cmdYell client) stringSplit client
          ((lead ++ line) ++ ending :: behind)) ↔
      LacksWord client (lead ++ line) := by
  unfold LacksWord
  by_cases isTell : (tokens isBlank (lead ++ line)).head? = some "tell".toList
  · obtain ⟨words, isTokens⟩ := List.head?_eq_some_iff.mp isTell
    have noLead := lead_eq_nil isLead (by decide) isTokens
    subst noLead
    rw [handleLine_of_checked _ _
        (checkCmd_tell _ _ noEnding isTokens behind),
      isNull_bind, isNull_cmdTell noEnding isLine isTokens]
    rw [isTokens]
    simp
  · by_cases isYell :
        (tokens isBlank (lead ++ line)).head? = some "yell".toList
    · obtain ⟨words, isTokens⟩ := List.head?_eq_some_iff.mp isYell
      have noLead := lead_eq_nil isLead (by decide) isTokens
      subst noLead
      rw [handleLine_of_checked _ _
          (checkCmd_yell _ _ noEnding isTokens behind),
        isNull_bind, isNull_cmdYell noEnding isLine isTokens]
      rw [isTokens]
      simp
    · have notHead
          {name : List Char}
          {words : List (List Char)}
          (isOther :
            (tokens isBlank (lead ++ line)).head? ≠ some name) :
          tokens isBlank (lead ++ line) ≠ name :: words := by
        intro isTokens
        rw [isTokens] at isOther
        exact isOther rfl
      have onlyLast :
          IsNull
        (handleLine (cmdTell client) (cmdYell client) stringSplit client
          ((lead ++ line) ++ ending :: behind)) ↔
            (Split.analyse (lead ++ line)).mode = false ∧
              LacksArgument (Split.analyse (lead ++ line)).firstCommand := by
        rw [← isNull_mission client]
        unfold handleLine
        rw [checkCmd_other _ _ noEnding isTell isYell behind,
          stringOf_append noEnding]
        change
          IsNull
              (given .strcmp (stringSplit (lead ++ line)).call >>= fun call =>
                missionReply client call >>= fun reply =>
                  .ok (ShellReturn.handled reply)) ↔ _
        simp only [isNull_bind, not_isNull_ok, and_false, exists_false,
          or_false]
      rw [onlyLast]
      constructor
      · intro lacks
        exact Or.inr (Or.inr (Or.inr ⟨isTell, isYell, lacks⟩))
      · rintro (isTokens | isTokens | ⟨id, isTokens, -⟩ | ⟨-, -, lacks⟩)
        · exact absurd isTokens (notHead isTell)
        · exact absurd isTokens (notHead isYell)
        · exact absurd isTokens (notHead isTell)
        · exact lacks

/-- `run_shell` uses a null pointer exactly if the input does not end early and
its line lacks a word. -/
theorem isNull_runShell
    (client : ClientView)
    {received : List Char}
    (short : received.length < maxInputLen) :
    IsNull (runShell client received) ↔
      ¬ EndsEarly received ∧ LacksWord client (lineOf received) := by
  obtain ⟨text, rest, isBuffer, noEnding⟩ := inputBuffer_eq short
  obtain ⟨lead, line, behind, isCut, noEndingInLine, isLead, isLine⟩ :=
    cutLine_append noEnding rest
  have isLineOf : lineOf received = lead ++ line := by
    unfold lineOf
    rw [isBuffer, isCut, stringOf_append noEndingInLine]
  by_cases early : EndsEarly received
  · simp only [early, not_true_eq_false, false_and, iff_false]
    exact not_isNull_of_endsEarly _ _ _ _ early
  · unfold runShell
    rw [runShellWith_of_not_endsEarly _ _ _ _ early, and_iff_right early,
      isLineOf, isBuffer, isCut]
    exact isNull_handleLine noEndingInLine isLead isLine behind

/-- No null pointer is used, and a closed connection ends in a logout. -/
structure WordsPresent
    (client : ClientView)
    (received : List Char) : Prop where
  notNull : ∀ use, runShell client received ≠ .error (.null use)
  disconnects : received = [] → runShell client received = .ok .logout

/-- A closed connection is read as a line without words. -/
theorem lacksWord_nil
    (client : ClientView) :
    ¬ EndsEarly [] ∧ LacksWord client (lineOf []) := by
  have isBuffer :
      ∃ rest, inputBuffer [] = [] ++ ending :: rest :=
    ⟨List.replicate (maxInputLen - 1) ending, rfl⟩
  obtain ⟨rest, isBuffer⟩ := isBuffer
  have isString : stringOf (inputBuffer []) = [] := by
    rw [isBuffer, stringOf_append List.not_mem_nil]
  have isLine : lineOf [] = [] := by
    have noWord :
        (strtokIn isLineEnd ([] ++ ending :: rest)).1 = none := by
      rw [strtokIn_of_tokens_nil (by decide) tokens_nil]
    unfold lineOf cutLine
    rw [isBuffer, noWord]
    exact stringOf_append List.not_mem_nil rest
  have isSplit :
      (Split.analyse []).mode = false ∧
        (Split.analyse []).firstCommand = [] := by
    unfold Split.analyse
    rw [tokens_nil]
    exact ⟨rfl, rfl⟩
  unfold EndsEarly LacksWord
  rw [isString, isLine, isBuffer, tokens_nil]
  refine ⟨?_, Or.inr (Or.inr (Or.inr ⟨?_, ?_, isSplit.1, Or.inl isSplit.2⟩))⟩
  · rintro (isEnd | isReturn | isFeed | isExit)
    · exact absurd (Option.some.inj isEnd) (by decide)
    · cases isReturn
    · cases isFeed
    · cases isExit
  · exact (Option.some_ne_none _).symm
  · exact (Option.some_ne_none _).symm

/-- An input never uses a missing word exactly if `run_shell` returns before it
takes the line apart, or no word of the line is missing. -/
theorem wordsPresent_iff
    (client : ClientView)
    {received : List Char}
    (short : received.length < maxInputLen) :
    WordsPresent client received ↔
      EndsEarly received ∨ ¬ LacksWord client (lineOf received) := by
  have isNull := isNull_runShell client short
  constructor
  · intro present
    by_contra neither
    obtain ⟨notEarly, lacks⟩ := not_or.mp neither
    obtain ⟨use, isError⟩ := isNull.mpr ⟨notEarly, not_not.mp lacks⟩
    exact present.notNull use isError
  · intro holds
    have notNull : ¬ IsNull (runShell client received) := by
      intro missing
      obtain ⟨notEarly, lacks⟩ := isNull.mp missing
      rcases holds with early | complete
      · exact notEarly early
      · exact complete lacks
    refine ⟨fun use isError => notNull ⟨use, isError⟩, ?_⟩
    rintro rfl
    exact absurd (isNull.mpr (lacksWord_nil client)) notNull

/-- The line is what stands in front of the line end. -/
theorem lineOf_line
    {line : List Char}
    (nonempty : line ≠ [])
    (isLine : ∀ symbol ∈ line, isLineEnd symbol = false ∧ symbol ≠ ending)
    {symbol : Char}
    (isEnd : isLineEnd symbol = true)
    (following : List Char) :
    lineOf (line ++ symbol :: following) = line := by
  have noEnding : ending ∉ line := fun member => (isLine ending member).2 rfl
  unfold lineOf inputBuffer
  rw [List.append_assoc, List.cons_append,
    cutLine_line nonempty isLine isEnd, stringOf_append noEnding]

/-- One client without others. -/
def loneClient : ClientView where
  id := 1
  state := fun i => decide (i = 1)
  name := fun _ => "(no name)".toList

/-- `yell` without a text uses a null pointer. -/
theorem wordsPresent_iff_yell :
    "yell\n".toList.length < maxInputLen ∧
      ¬ WordsPresent loneClient "yell\n".toList := by
  have short : "yell\n".toList.length < maxInputLen := by decide
  have isLine : lineOf ("yell".toList ++ '\n' :: []) = "yell".toList :=
    lineOf_line (by decide) (by decide) (by decide) []
  have isTokens : tokens isBlank "yell".toList = ["yell".toList] :=
    tokens_word (by decide) (by decide)
  refine ⟨short, fun present => ?_⟩
  rcases (wordsPresent_iff loneClient short).mp present with early | complete
  · have isString :
        stringOf (inputBuffer "yell\n".toList) = "yell\n".toList :=
      stringOf_inputBuffer (by decide)
    rcases early with isEnd | isReturn | isFeed | isExit
    · exact absurd (Option.some.inj isEnd) (by decide)
    · exact absurd (isString.symm.trans isReturn) (by decide)
    · exact absurd (isString.symm.trans isFeed) (by decide)
    · exact absurd (isLine.symm.trans isExit) (by decide)
  · refine complete (Or.inr (Or.inl ?_))
    exact (congrArg (tokens isBlank) isLine).trans isTokens

/-- A client that closes its connection makes `run_shell` compare a null
pointer. -/
theorem disconnect_uses_null :
    (∃ use, runShell loneClient [] = .error (.null use)) ∧
      ¬ ∀ client received,
        received.length < maxInputLen → WordsPresent client received := by
  have short : ([] : List Char).length < maxInputLen := by decide
  obtain ⟨use, isError⟩ :=
    (isNull_runShell loneClient short).mpr (lacksWord_nil loneClient)
  refine ⟨⟨use, isError⟩, fun always => ?_⟩
  exact (always loneClient [] short).notNull use isError

end NpServers.ShellInput
