import NpServers.CStrings
import NpServers.ServerProcess

namespace NpServers.Shell

open NpServers.CStrings

/-!
# Command lines

`string_split` takes a line apart at its spaces.  `|` and `>` as words of their
own end a command; with a number behind them they and `!` and `<` say where the
input comes from and where the output goes.  The number of stages that
`ordinary_pipe` is called with depends on both.

The text is what `run_shell` passes on.  Stores go on behind the end of an array
here, and the result tells whether one did.
-/

/-! ## The parser -/

/-- `max_input_len`. -/
def maxInputLen : Nat := 15000

/-- `max_cmd_len`. -/
def maxCmdLen : Nat := 256

/--
The variables of `string_split`.  `earlier` are the commands before `cmd_num`,
and `current` are the `count` words of the command at `cmd_num`.
-/
structure Split where
  earlier : List (List (List Char))
  current : List (List Char)
  crossNum : Int
  redir : Bool
  userInId : Int
  userOutId : Int
  mode : Bool
  inside : Bool
deriving DecidableEq, Repr

namespace Split

/-- The variables before the loop; the line is copied to `cmd_reserve`. -/
def initial (allCmd : List Char) : Split where
  earlier := []
  current := []
  crossNum := 0
  redir := false
  userInId := 0
  userOutId := 0
  mode := false
  inside := decide (allCmd.length < maxInputLen)

/-- `cmd_collection[cmd_num][count] = NULL`, and a new command behind it. -/
def endCommand (split : Split) : Split :=
  { split with
    earlier := split.earlier ++ [split.current]
    current := []
    inside :=
      split.inside && decide (split.current.length < maxCmdLen / 2) &&
        decide (split.earlier.length + 1 < maxInputLen / 4) }

/-- `cmd_collection[cmd_num][count] = buf`. -/
def store
    (buf : List Char)
    (split : Split) : Split :=
  { split with
    current := split.current ++ [buf]
    inside := split.inside && decide (split.current.length < maxCmdLen / 2) }

/-- One pass of the loop. -/
def token
    (split : Split)
    (buf : List Char) : Split :=
  if buf = ['|'] then
    { split.endCommand with mode := true }
  else if buf = ['>'] then
    { split.endCommand with redir := true }
  else
    match buf with
    | '|' :: num => { split with crossNum := atoi num }
    | '!' :: num => { split with crossNum := toInt (atoi num * -1) }
    | '<' :: num => { split with userInId := atoi num }
    | '>' :: num => { split with userOutId := atoi num }
    | buf => split.store buf

end Split

/-- The arguments of `single_cmd` and `ordinary_pipe` that the line gives. -/
structure CallArguments where
  cmd : List (List (List Char))
  cmdReserve : List Char
  crossNum : Int
  redir : Bool
  userInId : Int
  userOutId : Int
deriving DecidableEq, Repr

/-- What `string_split` calls. -/
inductive SplitCall where
  | cmdWho
  | cmdName (name : Option (List Char))
  | envSetting (cmd : List (List Char))
  | singleCmd (arguments : CallArguments)
  | ordinaryPipe (cmdNum : Nat) (arguments : CallArguments)
deriving DecidableEq, Repr

/-- The call, unless the program fails before it, and whether all stores were
inside of their arrays. -/
structure SplitResult where
  call : Option SplitCall
  inside : Bool
deriving DecidableEq, Repr

namespace Split

/-- The commands of the line. -/
def arguments
    (split : Split)
    (cmdReserve : List Char) : CallArguments where
  cmd := split.earlier ++ [split.current]
  cmdReserve := cmdReserve
  crossNum := split.crossNum
  redir := split.redir
  userInId := split.userInId
  userOutId := split.userOutId

/-- `cmd_collection[0]`. -/
def firstCommand (split : Split) : List (List Char) :=
  (split.earlier ++ [split.current]).headD []

/-- The call of `ordinary_pipe`, where `cmd_num` is `split.earlier.length`. -/
def pipeCall
    (split : Split)
    (cmdReserve : List Char) : SplitCall :=
  .ordinaryPipe
    (if split.redir then split.earlier.length else split.earlier.length + 1)
    (split.arguments cmdReserve)

/-- The mission handler of `np_single_proc.c`. -/
def missionHandler
    (split : Split)
    (cmdReserve : List Char) : Option SplitCall :=
  if split.mode then
    some (split.pipeCall cmdReserve)
  else do
    -- `strcmp` on a null pointer if there is no word
    let word ← split.firstCommand[0]?
    if word = "who".toList ∨ word = "name".toList then
      if word = "who".toList then
        some .cmdWho
      else
        some (.cmdName split.firstCommand[1]?)
    else if word = "setenv".toList ∨ word = "printenv".toList then
      some (.envSetting split.firstCommand)
    else
      some (.singleCmd (split.arguments cmdReserve))

/-- The mission handler of `np_multi_proc.c`. -/
def multiMissionHandler
    (split : Split)
    (cmdReserve : List Char) : Option SplitCall :=
  if split.mode then
    some (split.pipeCall cmdReserve)
  else do
    let word ← split.firstCommand[0]?
    if word = "setenv".toList ∨ word = "printenv".toList then
      some (.envSetting split.firstCommand)
    else if word = "who".toList ∨ word = "name".toList then
      if word = "who".toList then
        some .cmdWho
      else
        some (.cmdName split.firstCommand[1]?)
    else
      some (.singleCmd (split.arguments cmdReserve))

/-- The command analysis: all words, and the last `NULL`. -/
def analyse (allCmd : List Char) : Split :=
  let split := (tokens (· = ' ') allCmd).foldl token (initial allCmd)
  { split with
    inside := split.inside && decide (split.current.length < maxCmdLen / 2) }

end Split

/-- `string_split` of `np_single_proc.c`. -/
def stringSplit (allCmd : List Char) : SplitResult where
  call := (Split.analyse allCmd).missionHandler allCmd
  inside := (Split.analyse allCmd).inside

/-- `string_split` of `np_multi_proc.c`. -/
def multiStringSplit (allCmd : List Char) : SplitResult where
  call := (Split.analyse allCmd).multiMissionHandler allCmd
  inside := (Split.analyse allCmd).inside

/-! ## Well-formed lines -/

/-- A word of a command, or the name of a file. -/
def IsWord (text : List Char) : Prop :=
  text ≠ [] ∧ ' ' ∉ text ∧ text.headD ' ' ∉ ['|', '!', '<', '>']

instance (text : List Char) : Decidable (IsWord text) :=
  inferInstanceAs (Decidable (_ ∧ _ ∧ _))

/-- A command has from 1 to 127 words. -/
structure CommandWords where
  words : List (List Char)
  nonempty : words ≠ []
  short : words.length < maxCmdLen / 2
  areWords : ∀ word ∈ words, IsWord word

/-- A positive decimal number within `int`. -/
structure Decimal where
  digits : List Char
  areDigits : digits.all Char.isDigit = true
  positive : 0 < digitsValue digits
  fits : digitsValue digits < 2 ^ 31

/-- `|k`, `!k`, `> file` or `>b` behind the last command. -/
inductive LineOutput where
  | nothing
  | numberedPipe (count : Decimal)
  | errorPipe (count : Decimal)
  | file (name : List Char) (isWord : IsWord name)
  | userPipe (id : Decimal)

/-- A line of one or more commands. -/
structure Line where
  first : CommandWords
  input : Option Decimal
  others : List CommandWords
  output : LineOutput

namespace LineOutput

/-- The words of the output. -/
def words : LineOutput → List (List Char)
  | nothing => []
  | numberedPipe count => ['|' :: count.digits]
  | errorPipe count => ['!' :: count.digits]
  | file name _ => [['>'], name]
  | userPipe id => ['>' :: id.digits]

/-- The argument `cross_num`. -/
def crossNum : LineOutput → Int
  | numberedPipe count => digitsValue count.digits
  | errorPipe count => -digitsValue count.digits
  | _ => 0

/-- The argument `redir`. -/
def redir : LineOutput → Bool
  | file _ _ => true
  | _ => false

/-- The argument `user_out_id`. -/
def userOutId : LineOutput → Int
  | userPipe id => digitsValue id.digits
  | _ => 0

/-- The name of a file stands behind the commands. -/
def fileCommand : LineOutput → List (List (List Char))
  | file name _ => [[name]]
  | _ => []

end LineOutput

namespace Line

/-- The word that gives the input. -/
def inputWords (line : Line) : List (List Char) :=
  match line.input with
  | none => []
  | some id => ['<' :: id.digits]

/-- The words of the commands behind the first one, each with its `|`. -/
def stageWords (others : List CommandWords) : List (List Char) :=
  others.flatMap fun command => ['|'] :: command.words

/-- All words of the line. -/
def words (line : Line) : List (List Char) :=
  line.first.words ++ line.inputWords ++ stageWords line.others ++
    line.output.words

/-- The arguments that the line stands for. -/
def arguments
    (line : Line)
    (text : List Char) : CallArguments where
  cmd :=
    line.first.words :: line.others.map CommandWords.words ++
      line.output.fileCommand
  cmdReserve := text
  crossNum := line.output.crossNum
  redir := line.output.redir
  userInId := line.input.elim 0 fun id => digitsValue id.digits
  userOutId := line.output.userOutId

/-- The call that the line stands for. -/
def call
    (line : Line)
    (text : List Char) : SplitCall :=
  if line.others = [] then
    .singleCmd (line.arguments text)
  else
    .ordinaryPipe (line.others.length + 1) (line.arguments text)

end Line

/-- The names that `string_split` does not hand to `single_cmd`. -/
def builtInNames : List (List Char) :=
  ["who".toList, "name".toList, "setenv".toList, "printenv".toList]

/-! ## Single words -/

namespace Split

variable {split : Split}

/-- What starts with none of the four symbols is stored. -/
theorem token_plain
    {word : List Char}
    (plain : word.headD ' ' ∉ ['|', '!', '<', '>'])
    (split : Split) :
    split.token word = split.store word := by
  cases word with
  | nil =>
      rfl
  | cons first rest =>
      have notSpecial : first ∉ ['|', '!', '<', '>'] := plain
      simp only [List.mem_cons, List.not_mem_nil, or_false, not_or] at notSpecial
      obtain ⟨notBar, notBang, notLess, notGreater⟩ := notSpecial
      unfold token
      rw [if_neg (by simp [notBar]), if_neg (by simp [notGreater])]
      split
      · rename_i same
        exact absurd (List.cons.inj same).1 notBar
      · rename_i same
        exact absurd (List.cons.inj same).1 notBang
      · rename_i same
        exact absurd (List.cons.inj same).1 notLess
      · rename_i same
        exact absurd (List.cons.inj same).1 notGreater
      · rfl

/-- A word of a command is stored. -/
theorem token_word
    {word : List Char}
    (isWord : IsWord word)
    (split : Split) :
    split.token word = split.store word :=
  token_plain isWord.2.2 split

/-- A command may end where its terminator and the next command have room. -/
theorem endCommand_of_room
    (isInside : split.inside = true)
    (short : split.current.length < maxCmdLen / 2)
    (room : split.earlier.length + 1 < maxInputLen / 4) :
    split.endCommand =
      { split with
        earlier := split.earlier ++ [split.current]
        current := []
        inside := true } := by
  simp [endCommand, isInside, short, room]

theorem store_of_room
    {word : List Char}
    (isInside : split.inside = true)
    (short : split.current.length < maxCmdLen / 2) :
    split.store word =
      { split with
        current := split.current ++ [word]
        inside := true } := by
  simp [store, isInside, short]

/-- A number is not empty, so its word is longer than the symbol before it. -/
theorem Decimal.digits_ne_nil
    (number : Decimal) :
    number.digits ≠ [] := by
  intro isEmpty
  have positive := number.positive
  rw [isEmpty] at positive
  exact absurd positive (by decide)

theorem Decimal.atoi_digits
    (number : Decimal) :
    atoi number.digits = digitsValue number.digits :=
  atoi_of_digits (List.all_eq_true.mp number.areDigits) number.fits

theorem token_numberedPipe
    (count : Decimal) :
    split.token ('|' :: count.digits) =
      { split with crossNum := digitsValue count.digits } := by
  have nonempty := Decimal.digits_ne_nil count
  simp [token, nonempty, Decimal.atoi_digits]

theorem token_errorPipe
    (count : Decimal) :
    split.token ('!' :: count.digits) =
      { split with crossNum := -digitsValue count.digits } := by
  have fits := count.fits
  have converted :
      toInt ((digitsValue count.digits : Int) * -1) =
        -digitsValue count.digits := by
    rw [Int.mul_neg_one]
    exact toInt_of_fits (by omega) (by omega)
  simp only [token, List.cons.injEq, Char.reduceEq, false_and, if_false,
    Decimal.atoi_digits, converted]

theorem token_input
    (id : Decimal) :
    split.token ('<' :: id.digits) =
      { split with userInId := digitsValue id.digits } := by
  simp [token, Decimal.atoi_digits]

theorem token_userPipe
    (id : Decimal) :
    split.token ('>' :: id.digits) =
      { split with userOutId := digitsValue id.digits } := by
  have nonempty := Decimal.digits_ne_nil id
  simp [token, nonempty, Decimal.atoi_digits]

/-! ## Whole commands -/

/-- The words of a command are stored behind those that are there. -/
theorem foldl_words
    {words : List (List Char)}
    (areWords : ∀ word ∈ words, IsWord word)
    (isInside : split.inside = true)
    (room : split.current.length + words.length ≤ maxCmdLen / 2) :
    words.foldl token split =
      { split with
        current := split.current ++ words
        inside := true } := by
  induction words generalizing split with
  | nil =>
      simp [← isInside]
  | cons word rest inductionHypothesis =>
      have short : split.current.length < maxCmdLen / 2 := by
        rw [List.length_cons] at room
        omega
      rw [List.foldl_cons, token_word (areWords word List.mem_cons_self),
        store_of_room isInside short]
      have roomLater :
          (split.current ++ [word]).length + rest.length ≤ maxCmdLen / 2 := by
        simp only [List.length_append, List.length_cons, List.length_nil] at room ⊢
        omega
      rw [inductionHypothesis
        (fun other member => areWords other (List.mem_cons_of_mem _ member))
        rfl roomLater]
      simp

/-- A `|` and the command behind it. -/
theorem foldl_stage
    (command : CommandWords)
    (isInside : split.inside = true)
    (short : split.current.length < maxCmdLen / 2)
    (room : split.earlier.length + 1 < maxInputLen / 4) :
    (['|'] :: command.words).foldl token split =
      { split with
        earlier := split.earlier ++ [split.current]
        current := command.words
        mode := true
        inside := true } := by
  have atBar :
      split.token ['|'] =
        { split with
          earlier := split.earlier ++ [split.current]
          current := []
          mode := true
          inside := true } := by
    rw [token, if_pos rfl, endCommand_of_room isInside short room]
  rw [List.foldl_cons, atBar,
    foldl_words command.areWords rfl (by simpa using command.short.le)]
  simp

/-- The commands behind the first one. -/
theorem foldl_stages
    {others : List CommandWords}
    (isInside : split.inside = true)
    (short : split.current.length < maxCmdLen / 2)
    (room : split.earlier.length + others.length < maxInputLen / 4) :
    (Line.stageWords others).foldl token split =
      { split with
        earlier :=
          split.earlier ++
            (split.current :: others.map CommandWords.words).dropLast
        current :=
          (split.current :: others.map CommandWords.words).getLast
            (List.cons_ne_nil _ _)
        mode := split.mode || !others.isEmpty
        inside := true } := by
  induction others generalizing split with
  | nil =>
      have unchanged : split = { split with inside := true } := by
        rw [← isInside]
      simpa [Line.stageWords] using unchanged
  | cons command rest inductionHypothesis =>
      have roomHere : split.earlier.length + 1 < maxInputLen / 4 := by
        rw [List.length_cons] at room
        omega
      have roomLater :
          (split.earlier ++ [split.current]).length + rest.length <
            maxInputLen / 4 := by
        simp only [List.length_append, List.length_cons, List.length_nil] at room ⊢
        omega
      have unfolded :
          Line.stageWords (command :: rest) =
            (['|'] :: command.words) ++ Line.stageWords rest := rfl
      rw [unfolded, List.foldl_append,
        foldl_stage command isInside short roomHere,
        inductionHypothesis rfl command.short roomLater]
      simp

/-! ## Whole lines -/

/-- The input and the first command. -/
theorem foldl_first
    {line : Line}
    {text : List Char}
    (short : text.length < maxInputLen) :
    (line.first.words ++ line.inputWords).foldl token (initial text) =
      { initial text with
        current := line.first.words
        userInId := line.input.elim 0 fun id => digitsValue id.digits
        inside := true } := by
  have isInside : (initial text).inside = true :=
    decide_eq_true short
  rw [List.foldl_append,
    foldl_words line.first.areWords isInside
      (by simpa [initial] using line.first.short.le)]
  cases isInput : line.input with
  | none =>
      simp [Line.inputWords, isInput, initial]
  | some id =>
      simp [Line.inputWords, isInput, initial, token_input]

/-- The end of a line: where the output goes, and the last terminator. -/
theorem foldl_output
    (output : LineOutput)
    (isInside : split.inside = true)
    (short : split.current.length < maxCmdLen / 2)
    (room :
      split.earlier.length + output.fileCommand.length < maxInputLen / 4)
    (fresh : split.crossNum = 0 ∧ split.redir = false ∧ split.userOutId = 0) :
    ∃ ended : Split,
      output.words.foldl token split = ended ∧
        ended.earlier ++ [ended.current] =
          split.earlier ++ [split.current] ++ output.fileCommand ∧
        ended.crossNum = output.crossNum ∧
        ended.redir = output.redir ∧
        ended.userInId = split.userInId ∧
        ended.userOutId = output.userOutId ∧
        ended.mode = split.mode ∧
        ended.current.length < maxCmdLen / 2 ∧
        ended.inside = true := by
  obtain ⟨noCross, noFile, noUser⟩ := fresh
  refine ⟨_, rfl, ?_⟩
  cases output with
  | nothing =>
      simp [LineOutput.words, LineOutput.fileCommand, LineOutput.crossNum,
        LineOutput.redir, LineOutput.userOutId, noCross, noFile, noUser, short,
        isInside]
  | numberedPipe count =>
      simp [LineOutput.words, LineOutput.fileCommand, LineOutput.crossNum,
        LineOutput.redir, LineOutput.userOutId, noFile, noUser, short, isInside,
        token_numberedPipe]
  | errorPipe count =>
      simp [LineOutput.words, LineOutput.fileCommand, LineOutput.crossNum,
        LineOutput.redir, LineOutput.userOutId, noFile, noUser, short, isInside,
        token_errorPipe]
  | userPipe id =>
      simp [LineOutput.words, LineOutput.fileCommand, LineOutput.crossNum,
        LineOutput.redir, LineOutput.userOutId, noCross, noFile, short, isInside,
        token_userPipe]
  | file name isWord =>
      have atGreater :
          split.token ['>'] =
            { split with
              earlier := split.earlier ++ [split.current]
              current := []
              redir := true
              inside := true } := by
        rw [token, if_neg (by decide), if_pos rfl,
          endCommand_of_room isInside short room]
      rw [LineOutput.words, List.foldl_cons, List.foldl_cons, atGreater,
        token_word isWord, List.foldl_nil,
        store_of_room rfl (by simp [maxCmdLen])]
      simp [LineOutput.fileCommand, LineOutput.crossNum, LineOutput.redir,
        LineOutput.userOutId, noCross, noUser, maxCmdLen]

end Split

/-- Every word of a line is one token. -/
theorem Line.areTokens
    (line : Line) :
    ∀ word ∈ line.words,
      word ≠ [] ∧ ∀ symbol ∈ word, decide (symbol = ' ') = false := by
  have ofWord (word : List Char) (isWord : IsWord word) :
      word ≠ [] ∧ ∀ symbol ∈ word, decide (symbol = ' ') = false :=
    ⟨isWord.1, fun symbol member =>
      decide_eq_false fun same => isWord.2.1 (same ▸ member)⟩
  have ofNumber (symbol : Char) (plain : symbol ≠ ' ') (number : Decimal) :
      symbol :: number.digits ≠ [] ∧
        ∀ other ∈ symbol :: number.digits, decide (other = ' ') = false := by
    refine ⟨List.cons_ne_nil _ _, ?_⟩
    intro other member
    apply decide_eq_false
    rintro rfl
    rcases List.mem_cons.mp member with same | isDigit
    · exact plain same.symm
    · exact absurd (List.all_eq_true.mp number.areDigits ' ' isDigit) (by decide)
  intro word member
  simp only [Line.words, List.mem_append] at member
  rcases member with ((inFirst | inInput) | inStages) | inOutput
  · exact ofWord word (line.first.areWords word inFirst)
  · unfold Line.inputWords at inInput
    split at inInput
    · exact absurd inInput List.not_mem_nil
    · rw [List.mem_singleton] at inInput
      rw [inInput]
      exact ofNumber '<' (by decide) _
  · obtain ⟨command, _, inCommand⟩ := List.mem_flatMap.mp inStages
    rcases List.mem_cons.mp inCommand with rfl | inWords
    · simp
    · exact ofWord word (command.areWords word inWords)
  · cases isOutput : line.output with
    | nothing =>
        simp [isOutput, LineOutput.words] at inOutput
    | numberedPipe count =>
        rw [isOutput, LineOutput.words, List.mem_singleton] at inOutput
        rw [inOutput]
        exact ofNumber '|' (by decide) count
    | errorPipe count =>
        rw [isOutput, LineOutput.words, List.mem_singleton] at inOutput
        rw [inOutput]
        exact ofNumber '!' (by decide) count
    | userPipe id =>
        rw [isOutput, LineOutput.words, List.mem_singleton] at inOutput
        rw [inOutput]
        exact ofNumber '>' (by decide) id
    | file name isWord =>
        rw [isOutput, LineOutput.words, List.mem_cons, List.mem_singleton]
          at inOutput
        rcases inOutput with rfl | rfl
        · simp
        · exact ofWord word isWord

/-- A command takes one word at least, and its separator another one. -/
theorem Line.length_words
    (line : Line) :
    2 * line.others.length + 1 + 2 * line.output.fileCommand.length ≤
      line.words.length := by
  have inFirst :=
    List.length_pos_iff.mpr line.first.nonempty
  have inStages :
      2 * line.others.length ≤ (Line.stageWords line.others).length := by
    induction line.others with
    | nil =>
        simp [Line.stageWords]
    | cons command rest inductionHypothesis =>
        have inCommand := List.length_pos_iff.mpr command.nonempty
        simp only [Line.stageWords, List.flatMap_cons, List.length_append,
          List.length_cons] at inductionHypothesis ⊢
        omega
  have inOutput :
      2 * line.output.fileCommand.length ≤ line.output.words.length := by
    cases line.output <;> simp [LineOutput.fileCommand, LineOutput.words]
  simp only [Line.words, List.length_append]
  omega

namespace Split

/-- The variables behind the last command of a line. -/
def afterCommands
    (line : Line)
    (text : List Char) : Split :=
  { initial text with
    earlier := (line.first.words :: line.others.map CommandWords.words).dropLast
    current :=
      (line.first.words :: line.others.map CommandWords.words).getLast
        (List.cons_ne_nil _ _)
    userInId := line.input.elim 0 fun id => digitsValue id.digits
    mode := !line.others.isEmpty
    inside := true }

theorem foldl_commands
    {line : Line}
    {text : List Char}
    (short : text.length < maxInputLen)
    (room : line.others.length < maxInputLen / 4) :
    (line.first.words ++ line.inputWords ++
        Line.stageWords line.others).foldl token (initial text) =
      afterCommands line text := by
  rw [List.foldl_append, foldl_first short,
    foldl_stages rfl line.first.short (by simpa [initial] using room)]
  simp [afterCommands, initial]

/-- The last command is one of the line. -/
theorem afterCommands_short
    (line : Line)
    (text : List Char) :
    (afterCommands line text).current.length < maxCmdLen / 2 := by
  have isCommand :=
    List.getLast_mem
      (List.cons_ne_nil line.first.words (line.others.map CommandWords.words))
  rcases List.mem_cons.mp isCommand with isFirst | isOther
  · rw [afterCommands, isFirst]
    exact line.first.short
  · obtain ⟨command, _, same⟩ := List.mem_map.mp isOther
    rw [afterCommands, ← same]
    exact command.short

/-- The variables of `string_split` behind the loop, for a well-formed line. -/
theorem analyse_line
    {line : Line}
    {text : List Char}
    (spaced : Separated ' ' line.words text)
    (short : text.length < maxInputLen) :
    (analyse text).arguments text = line.arguments text ∧
      (analyse text).mode = !line.others.isEmpty ∧
      (analyse text).inside = true := by
  have room :
      line.others.length + line.output.fileCommand.length <
        maxInputLen / 4 := by
    have atLeast := line.length_words
    have bounded :=
      spaced.length_le fun word member => (line.areTokens word member).1
    unfold maxInputLen at short ⊢
    omega
  have roomBehind :
      (afterCommands line text).earlier.length +
        line.output.fileCommand.length < maxInputLen / 4 := by
    simpa [afterCommands] using room
  obtain ⟨ended, isEnded, collection, cross, redir, userIn, userOut, mode,
      endShort, endInside⟩ :=
    foldl_output line.output rfl (afterCommands_short line text) roomBehind
      ⟨rfl, rfl, rfl⟩
  have isAnalysed :
      analyse text =
        { ended with
          inside :=
            ended.inside && decide (ended.current.length < maxCmdLen / 2) } := by
    rw [analyse, tokens_separated (by decide) spaced line.areTokens, Line.words,
      List.foldl_append, foldl_commands short (by omega), isEnded]
  have commands :
      (afterCommands line text).earlier ++ [(afterCommands line text).current] =
        line.first.words :: line.others.map CommandWords.words :=
    List.dropLast_append_getLast _
  rw [isAnalysed]
  refine ⟨?_, mode, by simp [endInside, endShort]⟩
  simp only [arguments, Line.arguments, collection, commands, cross, redir, userIn,
    userOut]
  rfl

end Split

/-! ## The calls -/

namespace Split

/-- The two servers test the names in a different order, but call the same. -/
theorem multiMissionHandler_eq
    (split : Split)
    (cmdReserve : List Char) :
    split.multiMissionHandler cmdReserve = split.missionHandler cmdReserve := by
  unfold multiMissionHandler missionHandler
  cases split.firstCommand[0]? with
  | none =>
      rfl
  | some word =>
      simp only [Option.bind_eq_bind, Option.bind_some]
      by_cases isUser : word = "who".toList ∨ word = "name".toList
      · have notEnv : ¬ (word = "setenv".toList ∨ word = "printenv".toList) := by
          rcases isUser with rfl | rfl <;> decide
        simp only [if_pos isUser, if_neg notEnv]
      · simp only [if_neg isUser]

/-- The call for a well-formed line. -/
theorem missionHandler_line
    {split : Split}
    {line : Line}
    {text : List Char}
    (sameArguments : split.arguments text = line.arguments text)
    (isMode : split.mode = !line.others.isEmpty)
    (notBuiltIn : line.first.words.head line.first.nonempty ∉ builtInNames) :
    split.missionHandler text = some (line.call text) := by
  unfold missionHandler Line.call
  by_cases isSingle : line.others = []
  · have isFirst :
        split.firstCommand = line.first.words := by
      have sameCommands := congrArg CallArguments.cmd sameArguments
      rw [firstCommand]
      exact congrArg (fun cmd => cmd.headD []) sameCommands
    have isWord :
        split.firstCommand[0]? =
          some (line.first.words.head line.first.nonempty) := by
      rw [isFirst, ← List.head?_eq_getElem?, List.head?_eq_some_head]
    simp only [builtInNames, List.mem_cons, List.not_mem_nil, or_false, not_or]
      at notBuiltIn
    obtain ⟨notWho, notName, notSetenv, notPrintenv⟩ := notBuiltIn
    rw [isMode, isWord, isSingle]
    simp only [List.isEmpty_nil, Bool.not_true, Bool.false_eq_true, if_false,
      if_true, Option.bind_eq_bind, Option.bind_some, notWho, notName, notSetenv,
      notPrintenv, or_self, sameArguments]
  · have isPipe : split.mode = true := by
      simpa [isMode] using isSingle
    have counted :
        split.earlier.length =
          line.others.length + line.output.fileCommand.length := by
      have sameCommands := congrArg (fun call => call.cmd.length) sameArguments
      simpa [arguments, Line.arguments] using sameCommands
    have isRedir : split.redir = line.output.redir :=
      congrArg CallArguments.redir sameArguments
    have isCount :
        (if split.redir then split.earlier.length else split.earlier.length + 1) =
          line.others.length + 1 := by
      rw [isRedir]
      cases isOutput : line.output with
      | file name isWord =>
          simpa [LineOutput.redir, isOutput, LineOutput.fileCommand] using counted
      | nothing | numberedPipe count | errorPipe count | userPipe id =>
          simpa [LineOutput.redir, isOutput, LineOutput.fileCommand] using counted
    rw [if_pos isPipe, if_neg isSingle, pipeCall, isCount, sameArguments]

/-- Each of `|` and `>` has ended a command. -/
def EndsCounted (split : Split) : Prop :=
  split.mode.toNat + split.redir.toNat ≤ split.earlier.length

theorem EndsCounted.token
    {split : Split}
    (counted : split.EndsCounted)
    (buf : List Char) :
    (split.token buf).EndsCounted := by
  unfold EndsCounted at counted ⊢
  have modeAtMost := Bool.toNat_le split.mode
  have redirAtMost := Bool.toNat_le split.redir
  unfold Split.token
  split_ifs
  · simp only [endCommand, List.length_append, List.length_singleton,
      Bool.toNat_true]
    omega
  · simp only [endCommand, List.length_append, List.length_singleton,
      Bool.toNat_true]
    omega
  · split <;> exact counted

theorem EndsCounted.foldl
    {split : Split}
    (counted : split.EndsCounted)
    (words : List (List Char)) :
    (words.foldl Split.token split).EndsCounted := by
  induction words generalizing split with
  | nil =>
      exact counted
  | cons word rest inductionHypothesis =>
      exact inductionHypothesis (counted.token word)

/-- Only a line with `|` calls `ordinary_pipe`. -/
theorem pipeCall_of_missionHandler
    {split : Split}
    {cmdReserve : List Char}
    {cmdNum : Nat}
    {arguments : CallArguments}
    (isCall :
      split.missionHandler cmdReserve =
        some (.ordinaryPipe cmdNum arguments)) :
    split.mode = true ∧
      cmdNum =
        (if split.redir then split.earlier.length
          else split.earlier.length + 1) ∧
      arguments = split.arguments cmdReserve := by
  unfold missionHandler at isCall
  by_cases isPipe : split.mode = true
  · rw [if_pos isPipe, pipeCall, Option.some.injEq, SplitCall.ordinaryPipe.injEq]
      at isCall
    exact ⟨isPipe, isCall.1.symm, isCall.2.symm⟩
  · rw [if_neg isPipe] at isCall
    cases isWord : split.firstCommand[0]? with
    | none =>
        rw [isWord] at isCall
        cases isCall
    | some word =>
        rw [isWord] at isCall
        simp only [Option.bind_eq_bind, Option.bind_some] at isCall
        split_ifs at isCall <;> cases isCall

/-- `ordinary_pipe` gets two stages at least. -/
theorem EndsCounted.stages
    {split : Split}
    (counted : split.EndsCounted)
    {cmdReserve : List Char}
    {cmdNum : Nat}
    {arguments : CallArguments}
    (isCall :
      split.missionHandler cmdReserve =
        some (.ordinaryPipe cmdNum arguments)) :
    2 ≤ cmdNum := by
  obtain ⟨isPipe, rfl, _⟩ := pipeCall_of_missionHandler isCall
  unfold EndsCounted at counted
  rw [isPipe, Bool.toNat_true] at counted
  cases isRedir : split.redir with
  | true =>
      rw [isRedir, Bool.toNat_true] at counted
      simpa using counted
  | false =>
      rw [isRedir, Bool.toNat_false] at counted
      simpa using counted

theorem analyse_endsCounted
    (allCmd : List Char) :
    (analyse allCmd).EndsCounted := by
  have start : (initial allCmd).EndsCounted := Nat.zero_le _
  exact start.foldl _

end Split

/-- Both servers call what a well-formed line stands for and stay inside of their
arrays, and no line calls `ordinary_pipe` with less than two stages. -/
theorem stringSplit_recovers :
    (∀ (line : Line) (text : List Char),
      Separated ' ' line.words text →
      text.length < maxInputLen →
      line.first.words.head line.first.nonempty ∉ builtInNames →
      stringSplit text = { call := some (line.call text), inside := true } ∧
        multiStringSplit text =
          { call := some (line.call text), inside := true }) ∧
    ∀ (text : List Char) (cmdNum : Nat) (arguments : CallArguments),
      (stringSplit text).call = some (.ordinaryPipe cmdNum arguments) ∨
        (multiStringSplit text).call = some (.ordinaryPipe cmdNum arguments) →
      2 ≤ cmdNum := by
  constructor
  · intro line text spaced short notBuiltIn
    obtain ⟨sameArguments, isMode, isInside⟩ := Split.analyse_line spaced short
    have isCall :=
      Split.missionHandler_line sameArguments isMode notBuiltIn
    constructor
    · rw [stringSplit, isCall, isInside]
    · rw [multiStringSplit, Split.multiMissionHandler_eq, isCall, isInside]
  · intro text cmdNum arguments isCall
    have counted := Split.analyse_endsCounted text
    rcases isCall with isSingleProc | isMultiProc
    · exact counted.stages isSingleProc
    · rw [multiStringSplit, Split.multiMissionHandler_eq] at isMultiProc
      exact counted.stages isMultiProc

/-- `cat <2 | number  > out.txt`. -/
def numberLine : Line where
  first :=
    { words := ["cat".toList]
      nonempty := by decide
      short := by decide
      areWords := by decide }
  input :=
    some
      { digits := ['2']
        areDigits := by decide
        positive := by decide
        fits := by decide }
  others :=
    [{ words := ["number".toList]
       nonempty := by decide
       short := by decide
       areWords := by decide }]
  output := .file "out.txt".toList (by decide)

theorem stringSplit_numberLine :
    (stringSplit "cat <2 | number  > out.txt".toList).call =
      some
        (.ordinaryPipe 2
          { cmd := [["cat".toList], ["number".toList], ["out.txt".toList]]
            cmdReserve := "cat <2 | number  > out.txt".toList
            crossNum := 0
            redir := true
            userInId := 2
            userOutId := 0 }) := by
  have spaced :
      Separated ' ' numberLine.words "cat <2 | number  > out.txt".toList :=
    .next "cat".toList 0
      (.next "<2".toList 0
        (.next "|".toList 0
          (.next "number".toList 1
            (.next ">".toList 0 (.last "out.txt".toList)))))
  rw [(stringSplit_recovers.1 numberLine _ spaced (by decide) (by decide)).1]
  rfl

/-! ## Lines of the server model -/

/-- The arguments as a command of the server; an id of zero means none. -/
def CallArguments.command (arguments : CallArguments) : Command where
  cmd := arguments.cmd.map fun words => words.map String.ofList
  cmdReserve := String.ofList arguments.cmdReserve
  crossNum := arguments.crossNum
  redir := arguments.redir
  userInId := arguments.userInId.toNat
  userOutId := arguments.userOutId.toNat

/-- The stage count of a call is the one of its command, so every call of
`ordinary_pipe` is a pipeline of the server model. -/
theorem ordinaryPipe_command
    {text : List Char}
    {cmdNum : Nat}
    {arguments : CallArguments}
    (isCall :
      (stringSplit text).call = some (.ordinaryPipe cmdNum arguments)) :
    arguments.command.cmdNum = cmdNum ∧ 2 ≤ arguments.command.cmdNum := by
  have stages := (Split.analyse_endsCounted text).stages isCall
  obtain ⟨_, isCount, rfl⟩ := Split.pipeCall_of_missionHandler isCall
  have counted :
      ((Split.analyse text).arguments text).command.cmdNum = cmdNum := by
    rw [isCount]
    simp [Command.cmdNum, CallArguments.command, Split.arguments]
  exact ⟨counted, counted ▸ stages⟩

end NpServers.Shell
