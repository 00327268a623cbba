import NpServers.ArrayScans
import NpServers.ConsoleClient
import NpServers.HttpSessions
import NpServers.ShellInput

namespace NpServers.ReceivedChunks

open NpServers.CStrings NpServers.ArrayScans NpServers.ShellInput

/-!
# Received bytes as strings

Both consoles, the HTTP server and the shell read into an array that was filled
with zeros, and go on with functions that look for the end of a string.  A read
may fill the whole array, and then it holds no end.

The functions are taken with the array here, so that they have no result if they
leave it.  Where they stay inside, they do what the other modules say.
-/

/-! ## The four reads -/

/-- `handle_read`: what `strchr` answers for `%`, and `buf` of `print_output`. -/
def handleRead
    (maxLength : Nat)
    (chunk : List Char) : Option (Bool × List Char) := do
  let data := filled ending maxLength chunk
  let includeMod ← strchrFinds ending '%' data
  let buf ← cString ending data
  some (includeMod, buf)

/-- `handle_read` of the batch system, with `max_length` as there. -/
def batchHandleRead (chunk : List Char) : Option (Bool × List Char) :=
  handleRead 1024 chunk

/-- `handle_read` of the proxy, with `max_length` as there. -/
def proxyHandleRead (chunk : List Char) : Option (Bool × List Char) :=
  handleRead 1024 chunk

/-- `http_request` in the handler of `do_read`. -/
def doRead (chunk : List Char) : Option (List Char) :=
  cString ending (filled ending 1024 chunk)

/-- What `run_shell` takes an input for.  A line is passed on as the array in
which `strtok` has cut it. -/
inductive ShellStart where
  | endOfFile
  | blank
  | exit
  | line (cmd : List Char)
deriving DecidableEq, Repr

/-- The start of `run_shell`, up to the comparison with `exit`. -/
def shellRead (chunk : List Char) : Option ShellStart :=
  let cmd := filled ending Shell.maxInputLen chunk
  if cmd.head? = some (Char.ofNat 4) then
    some .endOfFile
  else do
    if ← strcmpSame ending cmd ['\r', '\n'] then
      some .blank
    else if ← strcmpSame ending cmd ['\n'] then
      some .blank
    else
      let cmd ← strtokCut ending isLineEnd cmd
      if ← strcmpSame ending cmd "exit".toList then
        some .exit
      else
        some (.line cmd)

/-- A line as the text that the later functions see. -/
def ShellStart.visible : ShellStart → ShellStart
  | .line cmd => .line (stringOf cmd)
  | start => start

/-- What the bytes themselves are: the end of the file, an empty line, or the
first line that is not empty. -/
def shellText (chunk : List Char) : ShellStart :=
  if chunk.head? = some (Char.ofNat 4) then
    .endOfFile
  else if chunk = ['\r', '\n'] ∨ chunk = ['\n'] then
    .blank
  else if throughWord isLineEnd chunk = "exit".toList then
    .exit
  else
    .line (throughWord isLineEnd chunk)

/-- The places where a read is used as a string. -/
inductive Reader where
  | batchConsole
  | httpServer
  | shell
  | proxyConsole
deriving DecidableEq, Repr

namespace Reader

/-- The length that is passed to the read call. -/
def requested : Reader → Nat
  | .batchConsole | .httpServer | .proxyConsole => 1024
  | .shell => Shell.maxInputLen

/-- The string functions stay inside of the array, and bytes without an end of a
string are seen as they are. -/
def SeesReceived : Reader → List Char → Prop
  | .batchConsole, chunk =>
      ∃ seen, batchHandleRead chunk = some seen ∧
        (ending ∉ chunk → seen = (decide ('%' ∈ chunk), chunk))
  | .httpServer, chunk =>
      ∃ seen, doRead chunk = some seen ∧ (ending ∉ chunk → seen = chunk)
  | .shell, chunk =>
      ∃ start, shellRead chunk = some start ∧
        (ending ∉ chunk → start.visible = shellText chunk)
  | .proxyConsole, chunk =>
      ∃ seen, proxyHandleRead chunk = some seen ∧
        (ending ∉ chunk → seen = (decide ('%' ∈ chunk), chunk))

/-- The end of a string is in the array.  The shell also stops at a first byte 4,
and at a line end behind other bytes, where `strtok` writes the end. -/
def Terminated : Reader → List Char → Prop
  | .shell, chunk =>
      chunk.length < Shell.maxInputLen ∨ ending ∈ chunk ∨
        chunk.head? = some (Char.ofNat 4) ∨
        ∃ symbol ∈ chunk.dropWhile isLineEnd, isLineEnd symbol = true
  | reader, chunk => chunk.length < reader.requested ∨ ending ∈ chunk

end Reader

/-! ## The consoles and the HTTP server -/

/-- `handle_read` goes on with the string of the cleared buffer, if it has one. -/
theorem handleRead_eq
    (maxLength : Nat)
    (chunk : List Char) :
    handleRead maxLength chunk =
      (bufferString maxLength ending chunk).map fun data =>
        (decide ('%' ∈ data), data) := by
  rw [← cString_filled]
  have notEnd : '%' ≠ ending := by decide
  unfold handleRead
  dsimp only
  by_cases inside : ending ∈ filled ending maxLength chunk
  · rw [strchrFinds_of_mem notEnd inside, cString_eq, if_pos inside]
    rfl
  · have noString : cString ending (filled ending maxLength chunk) = none := by
      rw [cString_eq, if_neg inside]
    rw [noString]
    cases strchrFinds ending '%' (filled ending maxLength chunk) with
    | none =>
        rfl
    | some includeMod =>
        rfl

/-- So does `handle_read` of the console model. -/
theorem batchHandleRead_eq (chunk : List Char) :
    batchHandleRead chunk =
      (Console.dataString chunk).map fun data =>
        (decide ('%' ∈ data), data) :=
  handleRead_eq 1024 chunk

/-- The console model leaves its array exactly where the functions do. -/
theorem overrun_iff
    (chunk : List Char)
    (client : Console.Client) :
    (client.handleRead chunk).phase = .overrun ↔ batchHandleRead chunk = none := by
  rw [batchHandleRead_eq, Option.map_eq_none_iff]
  unfold Console.Client.handleRead
  cases Console.dataString chunk with
  | none =>
      exact iff_of_true rfl rfl
  | some data =>
      refine iff_of_false ?_ (by simp)
      dsimp only
      split
      · exact Console.Phase.noConfusion
      · exact Console.Phase.noConfusion

theorem bufferString_of_noEnding
    {size : Nat}
    {chunk text : List Char}
    (noEnding : ending ∉ chunk)
    (isString : bufferString size ending chunk = some text) :
    text = chunk := by
  rw [bufferString_eq isString, List.takeWhile_eq_self_iff]
  intro symbol member
  apply decide_eq_true
  rintro rfl
  exact noEnding member

/-- A string is found in the buffer exactly if it ends there. -/
theorem bufferString_isSome_iff
    {size : Nat}
    {chunk : List Char} :
    (∃ text, bufferString size ending chunk = some text) ↔
      chunk.length < size ∨ ending ∈ chunk := by
  unfold bufferString
  split
  · rename_i ends
    exact iff_of_true ⟨_, rfl⟩ ends
  · rename_i noEnd
    refine iff_of_false ?_ noEnd
    rintro ⟨text, isString⟩
    cases isString

theorem handleRead_sees_iff
    (maxLength : Nat)
    (chunk : List Char) :
    (∃ seen, handleRead maxLength chunk = some seen ∧
        (ending ∉ chunk → seen = (decide ('%' ∈ chunk), chunk))) ↔
      chunk.length < maxLength ∨ ending ∈ chunk := by
  rw [← bufferString_isSome_iff, handleRead_eq]
  constructor
  · rintro ⟨seen, isSeen, -⟩
    obtain ⟨data, isData, -⟩ := Option.map_eq_some_iff.mp isSeen
    exact ⟨data, isData⟩
  · rintro ⟨data, isData⟩
    refine ⟨_, by rw [isData]; rfl, ?_⟩
    intro noEnding
    rw [bufferString_of_noEnding noEnding isData]

theorem doRead_sees_iff (chunk : List Char) :
    (∃ seen, doRead chunk = some seen ∧ (ending ∉ chunk → seen = chunk)) ↔
      chunk.length < 1024 ∨ ending ∈ chunk := by
  rw [← bufferString_isSome_iff, doRead, cString_filled]
  constructor
  · rintro ⟨seen, isSeen, -⟩
    exact ⟨seen, isSeen⟩
  · rintro ⟨seen, isSeen⟩
    exact ⟨seen, isSeen, fun noEnding =>
      bufferString_of_noEnding noEnding isSeen⟩

/-! ## The shell -/

theorem notDelimiter : isLineEnd ending = false := by
  decide

theorem head_inputBuffer
    {chunk : List Char}
    (nonempty : 1 ≤ chunk.length) :
    (inputBuffer chunk).head? = chunk.head? := by
  obtain ⟨first, rest, rfl⟩ :=
    List.exists_cons_of_ne_nil (List.length_pos_iff.mp nonempty)
  rfl

/-- Comparisons with short texts stay inside of the array. -/
theorem strcmpSame_cmd
    {cmd : List Char}
    (isArray : cmd.length = Shell.maxInputLen)
    (text : List Char)
    (noEnding : ending ∉ text)
    (short : text.length < Shell.maxInputLen) :
    strcmpSame ending cmd text = some (decide (stringOf cmd = text)) :=
  strcmpSame_eq noEnding (by rw [isArray]; exact short)

/-- Only `strtok` may leave the array. -/
theorem shellRead_eq
    {chunk : List Char}
    (fits : chunk.length ≤ Shell.maxInputLen) :
    shellRead chunk =
      if (inputBuffer chunk).head? = some (Char.ofNat 4) then
        some .endOfFile
      else if stringOf (inputBuffer chunk) = ['\r', '\n'] ∨
          stringOf (inputBuffer chunk) = ['\n'] then
        some .blank
      else
        (strtokCut ending isLineEnd (inputBuffer chunk)).map fun cmd =>
          if stringOf cmd = "exit".toList then .exit else .line cmd := by
  have isArray : (inputBuffer chunk).length = Shell.maxInputLen :=
    length_filled fits
  have isReturn :=
    strcmpSame_cmd isArray ['\r', '\n'] (by decide) (by decide)
  have isNewline := strcmpSame_cmd isArray ['\n'] (by decide) (by decide)
  have sameArray : filled ending Shell.maxInputLen chunk = inputBuffer chunk := rfl
  unfold shellRead
  simp only [sameArray, isReturn, isNewline, Option.bind_eq_bind,
    Option.bind_some, decide_eq_true_eq]
  split
  · rfl
  · by_cases atReturn : stringOf (inputBuffer chunk) = ['\r', '\n']
    · rw [if_pos atReturn, if_pos (Or.inl atReturn)]
    · rw [if_neg atReturn]
      by_cases atNewline : stringOf (inputBuffer chunk) = ['\n']
      · rw [if_pos atNewline, if_pos (Or.inr atNewline)]
      · rw [if_neg atNewline, if_neg (not_or.mpr ⟨atReturn, atNewline⟩)]
        cases isCut : strtokCut ending isLineEnd (inputBuffer chunk) with
        | none =>
            rfl
        | some cmd =>
            have sameLength :=
              (strtokCut_spec notDelimiter isCut).1.trans isArray
            have isExit :=
              strcmpSame_cmd sameLength "exit".toList (by decide) (by decide)
            rw [Option.bind_some, isExit, Option.bind_some, Option.map_some]
            simp only [decide_eq_true_eq]
            split
            · rfl
            · rfl

/-- What the shell has found out about its array when it goes on. -/
theorem shellRead_cases
    {chunk : List Char}
    (fits : chunk.length ≤ Shell.maxInputLen)
    {start : ShellStart}
    (isStart : shellRead chunk = some start) :
    ((inputBuffer chunk).head? = some (Char.ofNat 4) ∧ start = .endOfFile) ∨
      (inputBuffer chunk).head? ≠ some (Char.ofNat 4) ∧
        ((stringOf (inputBuffer chunk) = ['\r', '\n'] ∨
              stringOf (inputBuffer chunk) = ['\n']) ∧
            start = .blank ∨
          ¬ (stringOf (inputBuffer chunk) = ['\r', '\n'] ∨
              stringOf (inputBuffer chunk) = ['\n']) ∧
            ∃ cmd,
              strtokCut ending isLineEnd (inputBuffer chunk) = some cmd ∧
                (stringOf cmd = "exit".toList ∧ start = .exit ∨
                  stringOf cmd ≠ "exit".toList ∧ start = .line cmd)) := by
  rw [shellRead_eq fits] at isStart
  split at isStart
  · rename_i atEnd
    cases isStart
    exact Or.inl ⟨atEnd, rfl⟩
  · rename_i notEnd
    refine Or.inr ⟨notEnd, ?_⟩
    split at isStart
    · rename_i isBlank
      cases isStart
      exact Or.inl ⟨isBlank, rfl⟩
    · rename_i notBlank
      obtain ⟨cmd, isCut, isStart⟩ := Option.map_eq_some_iff.mp isStart
      refine Or.inr ⟨notBlank, cmd, isCut, ?_⟩
      split at isStart
      · rename_i isExit
        exact Or.inl ⟨isExit, isStart.symm⟩
      · rename_i notExit
        exact Or.inr ⟨notExit, isStart.symm⟩

/-- The array in which `strtok` has cut the line is the one of the shell model. -/
theorem cutLine_of_strtokCut
    {array cmd : List Char}
    (isCut : strtokCut ending isLineEnd array = some cmd) :
    cutLine array = cmd := by
  unfold strtokCut at isCut
  obtain ⟨⟨gap, start⟩, isStart, isCut⟩ := Option.bind_eq_some_iff.mp isCut
  obtain ⟨rfl, isGap, first, rest, rfl, plain⟩ := scanWhile_parts isStart
  dsimp only at isCut
  split at isCut
  · rename_i isEnd
    cases isEnd
    cases isCut
    rw [cutLine, strtokIn_gap isGap notDelimiter]
  · rename_i notEnd
    obtain ⟨⟨word, stop⟩, isWord, isCut⟩ := Option.bind_eq_some_iff.mp isCut
    obtain ⟨isParts, inWord, last, behind, rfl, stops⟩ := scanWhile_parts isWord
    cases isCut
    have areSymbols (symbol : Char) (member : symbol ∈ word) :
        isLineEnd symbol = false ∧ symbol ≠ ending := by
      simpa using inWord symbol member
    have ends : isLineEnd last = true ∨ last = ending := by
      by_cases isEnd : last = ending
      · exact Or.inr isEnd
      · exact Or.inl (by simpa [isEnd] using stops)
    have started : word ≠ [] := by
      rintro rfl
      obtain ⟨rfl, -⟩ := List.cons.inj isParts
      simp only [List.head?_cons, Option.some.injEq] at notEnd
      simp [plain, notEnd] at stops
    have isLead : (gap ++ first :: rest).takeWhile isLineEnd = gap := by
      rw [List.takeWhile_append_of_pos isGap,
        List.takeWhile_cons_of_neg (by simp [plain]), List.append_nil]
    rw [cutLine, isLead, isParts,
      strtokIn_word isGap started areSymbols ends, List.tail_cons,
      List.append_assoc]

/-- What the shell model does with the start of an input. -/
def ShellStart.run
    (tell yell : List Char → Except Fault Reply)
    (split : List Char → Shell.SplitResult)
    (client : ClientView) : ShellStart → Except Fault ShellReturn
  | .endOfFile => .ok .logout
  | .blank => .ok .blank
  | .exit => .ok .logout
  | .line cmd => handleLine tell yell split client cmd

/-- Where the functions stay inside of the array, the shell model goes on with
what they find. -/
theorem runShellWith_of_shellRead
    (tell yell : List Char → Except Fault Reply)
    (split : List Char → Shell.SplitResult)
    (client : ClientView)
    {chunk : List Char}
    (fits : chunk.length ≤ Shell.maxInputLen)
    {start : ShellStart}
    (isStart : shellRead chunk = some start) :
    runShellWith tell yell split client chunk =
      start.run tell yell split client := by
  unfold runShellWith
  dsimp only
  rcases shellRead_cases fits isStart with ⟨atEnd, rfl⟩ | ⟨notEnd, inLine⟩
  · rw [if_pos atEnd]
    rfl
  · rw [if_neg notEnd]
    rcases inLine with ⟨isBlank, rfl⟩ | ⟨notBlank, cmd, isCut, inWords⟩
    · rw [if_pos isBlank]
      rfl
    · rw [if_neg notBlank, cutLine_of_strtokCut isCut]
      rcases inWords with ⟨isExit, rfl⟩ | ⟨notExit, rfl⟩
      · rw [if_pos isExit]
        rfl
      · rw [if_neg notExit]
        rfl

/-- The shell stays inside of its array exactly if something stops `strtok`, or
it is not called. -/
theorem shellRead_isSome_iff
    {chunk : List Char}
    (nonempty : 1 ≤ chunk.length)
    (fits : chunk.length ≤ Shell.maxInputLen) :
    (∃ start, shellRead chunk = some start) ↔ Reader.Terminated .shell chunk := by
  have isArray : (inputBuffer chunk).length = Shell.maxInputLen :=
    length_filled fits
  have sameHead := head_inputBuffer nonempty
  have inside :
      ending ∈ inputBuffer chunk ↔
        chunk.length < Shell.maxInputLen ∨ ending ∈ chunk :=
    mem_filled_iff
  have full (noEnd : ending ∉ inputBuffer chunk) : inputBuffer chunk = chunk := by
    have notShort := (not_or.mp (inside.not.mp noEnd)).1
    rw [inputBuffer, Nat.sub_eq_zero_of_le (Nat.le_of_not_lt notShort),
      List.replicate_zero, List.append_nil]
  have terminated :
      Reader.Terminated .shell chunk ↔
        ending ∈ inputBuffer chunk ∨ chunk.head? = some (Char.ofNat 4) ∨
          ∃ symbol ∈ chunk.dropWhile isLineEnd, isLineEnd symbol = true := by
    rw [inside, or_assoc]
    rfl
  rw [terminated, shellRead_eq fits, sameHead]
  split
  · rename_i atEnd
    exact iff_of_true ⟨_, rfl⟩ (Or.inr (Or.inl atEnd))
  · rename_i notEnd
    split
    · rename_i isBlank
      refine iff_of_true ⟨_, rfl⟩ (Or.inl ?_)
      by_contra noEnd
      obtain ⟨notShort, notInside⟩ := not_or.mp (inside.not.mp noEnd)
      rw [stringOf_inputBuffer notInside] at isBlank
      rcases isBlank with rfl | rfl
      · exact notShort (by decide)
      · exact notShort (by decide)
    · have cuts := strtokCut_isSome_iff notDelimiter (inputBuffer chunk)
      have isMapped :
          (∃ start,
            (strtokCut ending isLineEnd (inputBuffer chunk)).map
                (fun cmd =>
                  if stringOf cmd = "exit".toList then ShellStart.exit
                  else .line cmd) = some start) ↔
            (strtokCut ending isLineEnd (inputBuffer chunk)).isSome = true := by
        rw [← Option.isSome_iff_exists, Option.isSome_map]
      rw [isMapped, cuts]
      by_cases ends : ending ∈ inputBuffer chunk
      · exact iff_of_true (Or.inl ends) (Or.inl ends)
      · rw [full ends]
        simp only [notEnd, false_or]

/-- Bytes without an end of a string are seen up to their first line end. -/
theorem visible_of_shellRead
    {chunk : List Char}
    (nonempty : 1 ≤ chunk.length)
    (fits : chunk.length ≤ Shell.maxInputLen)
    (noEnding : ending ∉ chunk)
    {start : ShellStart}
    (isStart : shellRead chunk = some start) :
    start.visible = shellText chunk := by
  have sameHead := head_inputBuffer nonempty
  have sameText : stringOf (inputBuffer chunk) = chunk :=
    stringOf_inputBuffer noEnding
  have found := shellRead_cases fits isStart
  rw [sameHead, sameText] at found
  unfold shellText
  rcases found with ⟨atEnd, rfl⟩ | ⟨notEnd, inLine⟩
  · rw [if_pos atEnd]
    rfl
  · rw [if_neg notEnd]
    rcases inLine with ⟨isBlank, rfl⟩ | ⟨notBlank, cmd, isCut, inWords⟩
    · rw [if_pos isBlank]
      rfl
    · have isText : stringOf cmd = throughWord isLineEnd chunk := by
        rw [← sameText]
        exact (strtokCut_spec notDelimiter isCut).2
      rw [if_neg notBlank]
      rw [isText] at inWords
      rcases inWords with ⟨isExit, rfl⟩ | ⟨notExit, rfl⟩
      · rw [if_pos isExit]
        rfl
      · rw [if_neg notExit, ShellStart.visible, isText]

/-- The four reads are used as terminated strings exactly if the end of a string
is in the array, or the shell stops before. -/
theorem seesReceived_iff
    {reader : Reader}
    {chunk : List Char}
    (nonempty : 1 ≤ chunk.length)
    (fits : chunk.length ≤ reader.requested) :
    reader.SeesReceived chunk ↔ reader.Terminated chunk := by
  cases reader with
  | batchConsole =>
      exact handleRead_sees_iff 1024 chunk
  | proxyConsole =>
      exact handleRead_sees_iff 1024 chunk
  | httpServer =>
      exact doRead_sees_iff chunk
  | shell =>
      rw [← shellRead_isSome_iff nonempty fits]
      constructor
      · rintro ⟨start, isStart, -⟩
        exact ⟨start, isStart⟩
      · rintro ⟨start, isStart⟩
        exact ⟨start, isStart, fun noEnding =>
          visible_of_shellRead nonempty fits noEnding isStart⟩

/-- A read that fills the array of the shell, with a line end at its end. -/
def fullLine : List Char :=
  'l' :: (List.replicate 14998 's' ++ ['\n'])

theorem length_fullLine :
    fullLine.length = Shell.maxInputLen := by
  rw [fullLine, List.length_cons, List.length_append, List.length_replicate]
  rfl

theorem seesReceived_fullLine :
    Reader.SeesReceived .shell fullLine := by
  have nonempty : 1 ≤ fullLine.length := by
    rw [length_fullLine]
    decide
  have fits : fullLine.length ≤ Reader.requested .shell :=
    length_fullLine.le
  refine (seesReceived_iff nonempty fits).mpr ?_
  refine Or.inr (Or.inr (Or.inr ⟨'\n', ?_, rfl⟩))
  rw [fullLine, List.dropWhile_cons_of_neg (by decide)]
  exact List.mem_cons_of_mem _
    (List.mem_append_right _ (List.mem_singleton_self _))

/-- The array of the batch console has no end after a full read. -/
theorem chunks_not_terminated :
    ¬ ∀ (reader : Reader) (chunk : List Char),
        1 ≤ chunk.length →
        chunk.length ≤ reader.requested →
        reader.SeesReceived chunk := by
  intro claim
  have seen :=
    claim .batchConsole (List.replicate 1024 'a')
      (by rw [List.length_replicate]; decide)
      (by rw [List.length_replicate]; decide)
  have terminated := (handleRead_sees_iff 1024 _).mp seen
  rw [List.length_replicate] at terminated
  rcases terminated with short | inside
  · exact Nat.lt_irrefl _ short
  · exact absurd (List.eq_of_mem_replicate inside) (by decide)

end NpServers.ReceivedChunks
