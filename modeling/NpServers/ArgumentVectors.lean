import NpServers.CommandLine

namespace NpServers.Shell

open NpServers.CStrings

/-!
# The argument vectors of a line

`string_split` stores the words of each command in a vector of
`max_cmd_len/2` pointers, with a null pointer behind them, and the vectors in
`cmd_collection`, which has `max_input_len/4` entries.  Both sizes come from the
limits on bytes: a word takes two bytes with the space behind it, and a command
takes four with its `|`.

This module lists the writes to the vectors of a line, and says for which lines
they stay inside.
-/

/-! ## The writes -/

/-- One write `cmd_collection[cmd_num][count]`. -/
structure VectorWrite where
  cmdNum : Nat
  count : Nat
deriving DecidableEq, Repr

/-- The words `|` and `>`, which end a command. -/
def endsCommand (word : List Char) : Bool :=
  word = ['|'] ∨ word = ['>']

/-- A word that is stored: it starts with none of the four symbols. -/
def isStored (word : List Char) : Bool :=
  word.headD ' ' ∉ ['|', '!', '<', '>']

namespace Split

/-- `cmd_collection[cmd_num][count]` at this point. -/
def position (split : Split) : VectorWrite where
  cmdNum := split.earlier.length
  count := split.current.length

/-- The writes of the loop for the words, and that of the last `NULL`.  A word
with a number behind its symbol is not stored. -/
def vectorWrites
    (split : Split) : List (List Char) → List VectorWrite
  | [] => [split.position]
  | buf :: rest =>
      if endsCommand buf ∨ isStored buf then
        split.position :: (split.token buf).vectorWrites rest
      else
        (split.token buf).vectorWrites rest

end Split

/-- The writes of `string_split` to its vectors. -/
def vectorWrites (line : List Char) : List VectorWrite :=
  (Split.initial line).vectorWrites (tokens (· = ' ') line)

/-- The number of entries of `cmd_collection` that get a vector. -/
def usedEntries (line : List Char) : Nat :=
  (Split.analyse line).earlier.length + 1

/-- The vectors of a line, and the array of the vectors, are large enough. -/
def VectorsFit (line : List Char) : Prop :=
  usedEntries line ≤ maxInputLen / 4 ∧
    ∀ write ∈ vectorWrites line, write.count < maxCmdLen / 2

/-! ## The stages of a line -/

/-- The stages of a text, where the first one has started already.  A `|`
separates stages if it is a word of its own. -/
def stagesFrom
    (stage : List Char) : List Char → List (List Char)
  | [] => [stage]
  | symbol :: rest =>
      if symbol = '|' ∧ stage.getLastD ' ' = ' ' ∧ rest.headD ' ' = ' ' then
        stage :: stagesFrom [] rest
      else
        stagesFrom (stage ++ [symbol]) rest

/-- The parts of a line between the words `|`. -/
def stages (line : List Char) : List (List Char) :=
  stagesFrom [] line

/-- A command that is not empty, of at most `max_cmd_len` bytes; the spaces
around it do not count. -/
def IsStage (stage : List Char) : Prop :=
  tokens (· = ' ') stage ≠ [] ∧
    (trimmed (· = ' ') stage).length ≤ maxCmdLen

/-- A command of 128 words that are all stored. -/
def FillsVector (stage : List Char) : Prop :=
  (tokens (· = ' ') stage).length = maxCmdLen / 2 ∧
    ∀ word ∈ tokens (· = ' ') stage, isStored word = true

/-! ## Single words -/

namespace Split

theorem token_ends
    {word : List Char}
    (ends : endsCommand word = true)
    (split : Split) :
    (split.token word).earlier = split.earlier ++ [split.current] ∧
      (split.token word).current = [] ∧
      (split.token word).inside =
        (split.inside && decide (split.current.length < maxCmdLen / 2) &&
          decide (split.earlier.length + 1 < maxInputLen / 4)) := by
  rcases of_decide_eq_true ends with rfl | rfl
  · exact ⟨rfl, rfl, rfl⟩
  · exact ⟨rfl, rfl, rfl⟩

theorem token_stored
    {word : List Char}
    (stored : isStored word = true)
    (split : Split) :
    (split.token word).earlier = split.earlier ∧
      (split.token word).current = split.current ++ [word] ∧
      (split.token word).inside =
        (split.inside && decide (split.current.length < maxCmdLen / 2)) := by
  rw [token_plain (of_decide_eq_true stored)]
  exact ⟨rfl, rfl, rfl⟩

/-- A number changes neither the commands nor their words. -/
theorem token_number
    {word : List Char}
    (notEnds : endsCommand word = false)
    (notStored : isStored word = false)
    (split : Split) :
    (split.token word).earlier = split.earlier ∧
      (split.token word).current = split.current ∧
      (split.token word).inside = split.inside := by
  obtain ⟨notBar, notGreater⟩ := not_or.mp (of_decide_eq_false notEnds)
  unfold token
  rw [if_neg notBar, if_neg notGreater]
  split
  case h_5 notPipe notBang notLess notUser =>
    have isSpecial := not_not.mp (of_decide_eq_false notStored)
    cases word with
    | nil =>
        exact absurd isSpecial (by decide)
    | cons first rest =>
        simp only [List.headD_cons, List.mem_cons, List.not_mem_nil, or_false]
          at isSpecial
        rcases isSpecial with rfl | rfl | rfl | rfl
        · exact (notPipe rest rfl).elim
        · exact (notBang rest rfl).elim
        · exact (notLess rest rfl).elim
        · exact (notUser rest rfl).elim
  all_goals exact ⟨rfl, rfl, rfl⟩

/-! ## The words of one stage -/

/-- Every word that ends a command starts another one. -/
theorem earlier_foldl
    (words : List (List Char))
    (split : Split) :
    (words.foldl token split).earlier.length =
      split.earlier.length + words.countP endsCommand := by
  induction words generalizing split with
  | nil =>
      rfl
  | cons word rest inductionHypothesis =>
      rw [List.foldl_cons, inductionHypothesis, List.countP_cons]
      cases ends : endsCommand word with
      | true =>
          rw [(token_ends ends split).1, List.length_append, List.length_singleton,
            if_pos rfl]
          omega
      | false =>
          cases stored : isStored word with
          | true =>
              rw [(token_stored stored split).1]
              simp
          | false =>
              rw [(token_number ends stored split).1]
              simp

/-- Words that are all stored stand behind those that are there. -/
theorem current_foldl
    {words : List (List Char)}
    (stored : ∀ word ∈ words, isStored word = true)
    (split : Split) :
    (words.foldl token split).current = split.current ++ words := by
  induction words generalizing split with
  | nil =>
      simp
  | cons word rest inductionHypothesis =>
      rw [List.foldl_cons,
        inductionHypothesis fun other member =>
          stored other (List.mem_cons_of_mem _ member),
        (token_stored (stored word List.mem_cons_self) split).2.1]
      simp

/-- The last `NULL` stands behind the last command. -/
theorem position_mem_vectorWrites
    (words : List (List Char))
    (split : Split) :
    (words.foldl token split).position ∈ split.vectorWrites words := by
  induction words generalizing split with
  | nil =>
      exact List.mem_singleton_self _
  | cons word rest inductionHypothesis =>
      have later := inductionHypothesis (split.token word)
      rw [List.foldl_cons, vectorWrites]
      split
      · exact List.mem_cons_of_mem _ later
      · exact later

/-- No write is farther behind than all words that are stored. -/
theorem count_le_of_mem_vectorWrites
    {words : List (List Char)}
    {split : Split}
    {write : VectorWrite}
    (member : write ∈ split.vectorWrites words) :
    write.count ≤ split.current.length + words.countP isStored := by
  induction words generalizing split with
  | nil =>
      rw [List.mem_singleton.mp member]
      exact Nat.le_add_right _ _
  | cons word rest inductionHypothesis =>
      have here : split.position.count = split.current.length := rfl
      rw [vectorWrites] at member
      rw [List.countP_cons]
      cases ends : endsCommand word with
      | true =>
          rw [if_pos (Or.inl ends)] at member
          rcases List.mem_cons.mp member with rfl | later
          · omega
          · have behind := inductionHypothesis later
            rw [(token_ends ends split).2.1, List.length_nil] at behind
            omega
      | false =>
          cases stored : isStored word with
          | true =>
              rw [if_pos (Or.inr stored)] at member
              rw [if_pos rfl]
              rcases List.mem_cons.mp member with rfl | later
              · omega
              · have behind := inductionHypothesis later
                rw [(token_stored stored split).2.1, List.length_append,
                  List.length_singleton] at behind
                omega
          | false =>
              rw [if_neg (by simp [ends, stored])] at member
              have behind := inductionHypothesis member
              rw [(token_number ends stored split).2.1] at behind
              omega

/-- The stores of the loop and of the last `NULL` are inside exactly if the writes
are, and every command has an entry. -/
theorem inside_foldl_iff
    (words : List (List Char))
    (split : Split) :
    (words.foldl token split).inside = true ∧
        (words.foldl token split).current.length < maxCmdLen / 2 ↔
      split.inside = true ∧
        (∀ write ∈ split.vectorWrites words, write.count < maxCmdLen / 2) ∧
        (words.countP endsCommand = 0 ∨
          split.earlier.length + words.countP endsCommand <
            maxInputLen / 4) := by
  induction words generalizing split with
  | nil =>
      simp [vectorWrites, position]
  | cons word rest inductionHypothesis =>
      rw [List.foldl_cons, inductionHypothesis, List.countP_cons, vectorWrites]
      cases ends : endsCommand word with
      | true =>
          obtain ⟨isEarlier, -, isInside⟩ := token_ends ends split
          rw [isInside, isEarlier, if_pos (Or.inl rfl), if_pos rfl,
            List.length_append, List.length_singleton, List.forall_mem_cons]
          simp only [Bool.and_eq_true, decide_eq_true_eq, position]
          constructor
          · rintro ⟨⟨⟨isInside, here⟩, room⟩, writes, later⟩
            exact ⟨isInside, ⟨here, writes⟩, by omega⟩
          · rintro ⟨isInside, ⟨here, writes⟩, room⟩
            exact ⟨⟨⟨isInside, here⟩, by omega⟩, writes, by omega⟩
      | false =>
          cases stored : isStored word with
          | true =>
              obtain ⟨isEarlier, -, isInside⟩ := token_stored stored split
              rw [isInside, isEarlier, if_pos (Or.inr rfl),
                List.forall_mem_cons]
              simp only [Bool.and_eq_true, decide_eq_true_eq, position,
                Bool.false_eq_true, if_false, Nat.add_zero]
              constructor
              · rintro ⟨⟨isInside, here⟩, writes, room⟩
                exact ⟨isInside, ⟨here, writes⟩, room⟩
              · rintro ⟨isInside, ⟨here, writes⟩, room⟩
                exact ⟨⟨isInside, here⟩, writes, room⟩
          | false =>
              obtain ⟨isEarlier, -, isInside⟩ := token_number ends stored split
              rw [isInside, isEarlier]
              simp

/-- The words of a stage overflow their vector exactly if they are 128 words that
are all stored: then the `NULL` behind them does. -/
theorem vectorWrites_stage_iff
    {words : List (List Char)}
    {split : Split}
    (isNew : split.current = [])
    (short : words.length ≤ maxCmdLen / 2) :
    (∀ write ∈ split.vectorWrites words, write.count < maxCmdLen / 2) ↔
      ¬ (words.length = maxCmdLen / 2 ∧ ∀ word ∈ words, isStored word = true) := by
  constructor
  · rintro inside ⟨full, stored⟩
    have atEnd := inside _ (position_mem_vectorWrites words split)
    rw [position, current_foldl stored, isNew, List.nil_append, full] at atEnd
    exact Nat.lt_irrefl _ atEnd
  · intro notFull write member
    have bounded := count_le_of_mem_vectorWrites member
    rw [isNew, List.length_nil, Nat.zero_add] at bounded
    have atMost := List.countP_le_length (l := words) (p := isStored)
    have notAll : words.countP isStored ≠ maxCmdLen / 2 := by
      intro isFull
      have sameLength : words.countP isStored = words.length := by omega
      exact notFull ⟨by omega, List.countP_eq_length.mp sameLength⟩
    omega

/-- A `|` writes its `NULL` where the end of the line would, and starts anew. -/
theorem vectorWrites_append_bar
    (words rest : List (List Char))
    (split : Split) :
    split.vectorWrites (words ++ ['|'] :: rest) =
      split.vectorWrites words ++
        ((words.foldl token split).token ['|']).vectorWrites rest := by
  induction words generalizing split with
  | nil =>
      rfl
  | cons word others inductionHypothesis =>
      rw [List.cons_append, vectorWrites, vectorWrites, inductionHypothesis,
        List.foldl_cons]
      split
      · rw [List.cons_append]
      · rfl

/-- The words of several stages, with a `|` between any two. -/
theorem vectorWrites_stages_iff
    {parts : List (List (List Char))}
    (short : ∀ words ∈ parts, words.length ≤ maxCmdLen / 2)
    {split : Split}
    (isNew : split.current = []) :
    (∀ write ∈ split.vectorWrites ([['|']].intercalate parts),
        write.count < maxCmdLen / 2) ↔
      ∀ words ∈ parts,
        ¬ (words.length = maxCmdLen / 2 ∧
          ∀ word ∈ words, isStored word = true) := by
  induction parts generalizing split with
  | nil =>
      refine iff_of_true ?_ fun _ member => absurd member List.not_mem_nil
      intro write member
      have bounded := count_le_of_mem_vectorWrites member
      rw [isNew] at bounded
      exact Nat.lt_of_le_of_lt bounded (by decide)
  | cons words others inductionHypothesis =>
      have atStage :=
        vectorWrites_stage_iff isNew (short words List.mem_cons_self)
      cases others with
      | nil =>
          simpa using atStage
      | cons next later =>
          have afterBar :
              ((words.foldl token split).token ['|']).current = [] :=
            (token_ends rfl _).2.1
          have behind :=
            inductionHypothesis
              (fun other member => short other (List.mem_cons_of_mem _ member))
              afterBar
          rw [List.intercalate_cons_cons, List.append_assoc,
            List.singleton_append, vectorWrites_append_bar,
            List.forall_mem_append, atStage, behind]
          simp only [List.forall_mem_cons]

end Split

/-! ## The text of the stages -/

/-- A `|` between spaces, or at the ends of the text, is a word. -/
theorem tokens_bar
    {stage rest : List Char}
    (behind : stage.getLastD ' ' = ' ')
    (before : rest.headD ' ' = ' ') :
    tokens (· = ' ') (stage ++ '|' :: rest) =
      tokens (· = ' ') stage ++ ['|'] :: tokens (· = ' ') rest := by
  have isWord : ∀ symbol ∈ ['|'], decide (symbol = ' ') = false := by
    decide
  have atBar :
      tokens (· = ' ') ('|' :: rest) = ['|'] :: tokens (· = ' ') rest := by
    cases rest with
    | nil =>
        rw [tokens_nil]
        exact tokens_word (List.cons_ne_nil _ _) isWord
    | cons space others =>
        rw [List.headD_cons] at before
        subst before
        have skipped :
            tokens (· = ' ') (' ' :: others) = tokens (· = ' ') others :=
          tokens_cons_of_delimiter (by decide) others
        rw [skipped]
        exact tokens_word_append (List.cons_ne_nil _ _) isWord (by decide) others
  rcases List.eq_nil_or_concat' stage with rfl | ⟨others, space, rfl⟩
  · rw [List.nil_append, tokens_nil, atBar, List.nil_append]
  · rw [List.getLastD_concat] at behind
    subst behind
    rw [List.append_assoc, List.singleton_append,
      tokens_append_cons (by decide), tokens_append_cons (by decide), atBar,
      tokens_nil, List.append_nil]

theorem stagesFrom_ne_nil
    (stage text : List Char) :
    stagesFrom stage text ≠ [] := by
  induction text generalizing stage with
  | nil =>
      exact List.cons_ne_nil _ _
  | cons symbol rest inductionHypothesis =>
      unfold stagesFrom
      split
      · exact List.cons_ne_nil _ _
      · exact inductionHypothesis _

/-- The words of a line are those of its stages, with a `|` between any two. -/
theorem tokens_stagesFrom
    (stage text : List Char) :
    tokens (· = ' ') (stage ++ text) =
      [['|']].intercalate ((stagesFrom stage text).map (tokens (· = ' '))) := by
  induction text generalizing stage with
  | nil =>
      simp [stagesFrom]
  | cons symbol rest inductionHypothesis =>
      unfold stagesFrom
      split
      · rename_i isBar
        obtain ⟨rfl, behind, before⟩ := isBar
        rw [tokens_bar behind before, List.map_cons,
          ← List.nil_append rest, inductionHypothesis, List.nil_append]
        have others :
            (stagesFrom [] rest).map (tokens (· = ' ')) ≠ [] := by
          simpa using stagesFrom_ne_nil [] rest
        rw [List.intercalate_cons_of_ne_nil others, List.append_assoc,
          List.singleton_append]
      · rw [← inductionHypothesis, List.append_assoc, List.singleton_append]

/-- The text of a stage so far has no `|` as a word of its own, whatever the rest
of the text is. -/
def NoBar (stage text : List Char) : Prop :=
  ∀ before behind,
    stage = before ++ '|' :: behind →
    before.getLastD ' ' = ' ' →
    (behind ++ text).headD ' ' ≠ ' '

theorem noBar_nil (text : List Char) :
    NoBar [] text := by
  intro before behind isEmpty
  exact absurd isEmpty.symm (by simp)

theorem NoBar.append
    {stage rest : List Char}
    {symbol : Char}
    (noBar : NoBar stage (symbol :: rest))
    (notBar :
      ¬ (symbol = '|' ∧ stage.getLastD ' ' = ' ' ∧ rest.headD ' ' = ' ')) :
    NoBar (stage ++ [symbol]) rest := by
  intro before behind isStage atSpace
  rcases List.eq_nil_or_concat' behind with rfl | ⟨others, last, rfl⟩
  · obtain ⟨rfl, isLast⟩ := List.append_inj' isStage rfl
    obtain rfl := (List.cons.inj isLast).1
    exact fun isSpace => notBar ⟨rfl, atSpace, isSpace⟩
  · rw [← List.cons_append, ← List.append_assoc] at isStage
    obtain ⟨earlier, isLast⟩ := List.append_inj' isStage rfl
    obtain rfl := (List.cons.inj isLast).1
    rw [List.append_assoc, List.singleton_append]
    exact noBar before others earlier atSpace

/-- Such a text has no `|` among its words if it ends there or with a space. -/
theorem NoBar.not_mem_tokens
    {stage text : List Char}
    (noBar : NoBar stage text)
    (ends : text = [] ∨ stage.getLastD ' ' = ' ') :
    ['|'] ∉ tokens (· = ' ') stage := by
  intro isWord
  obtain ⟨before, behind, isStage, atLast, atFirst⟩ := tokens_bounded isWord
  rw [List.singleton_append] at isStage
  have atSpace : before.getLastD ' ' = ' ' := by
    rw [List.getLastD_eq_getLast?]
    cases isLast : before.getLast? with
    | none =>
        rfl
    | some last =>
        exact of_decide_eq_true (atLast last isLast)
  have notSpace := noBar before behind isStage atSpace
  cases behind with
  | nil =>
      rcases ends with rfl | endsInSpace
      · exact notSpace rfl
      · rw [isStage, List.getLastD_concat] at endsInSpace
        exact absurd endsInSpace (by decide)
  | cons first others =>
      exact notSpace (of_decide_eq_true (atFirst first rfl))

/-- No stage has `|` as a word. -/
theorem bar_not_mem_of_mem_stagesFrom
    {stage text part : List Char}
    (noBar : NoBar stage text)
    (member : part ∈ stagesFrom stage text) :
    ['|'] ∉ tokens (· = ' ') part := by
  induction text generalizing stage with
  | nil =>
      rw [List.mem_singleton.mp member]
      exact noBar.not_mem_tokens (Or.inl rfl)
  | cons symbol rest inductionHypothesis =>
      unfold stagesFrom at member
      split at member
      · rename_i isBar
        rcases List.mem_cons.mp member with rfl | later
        · exact noBar.not_mem_tokens (Or.inr isBar.2.1)
        · exact inductionHypothesis (noBar_nil rest) later
      · rename_i notBar
        exact inductionHypothesis (noBar.append notBar) member

/-! ## Lines whose stages are commands -/

section Stages

variable {line : List Char}

/-- A command of at most 256 bytes has at most 128 words. -/
theorem IsStage.length_le
    {stage : List Char}
    (isStage : IsStage stage) :
    (tokens (· = ' ') stage).length ≤ maxCmdLen / 2 := by
  have bytes :
      2 * (tokens (· = ' ') (trimmed (· = ' ') stage)).length ≤
        (trimmed (· = ' ') stage).length + 1 :=
    length_tokens_le _
  rw [tokens_trimmed] at bytes
  have short := isStage.2
  unfold maxCmdLen at short ⊢
  omega

theorem tokens_stages (line : List Char) :
    tokens (· = ' ') line =
      [['|']].intercalate ((stages line).map (tokens (· = ' '))) :=
  tokens_stagesFrom [] line

theorem usedEntries_eq (line : List Char) :
    usedEntries line = (tokens (· = ' ') line).countP endsCommand + 1 := by
  have counted :=
    Split.earlier_foldl (tokens (· = ' ') line) (Split.initial line)
  simp only [Split.initial, List.length_nil, Nat.zero_add] at counted
  simp only [usedEntries, Split.analyse, Split.initial, counted]

/-- `inside` says that the line fits `cmd_reserve` and that its vectors fit. -/
theorem inside_analyse_iff (line : List Char) :
    (Split.analyse line).inside = true ↔
      line.length < maxInputLen ∧ VectorsFit line := by
  have stores :=
    Split.inside_foldl_iff (tokens (· = ' ') line) (Split.initial line)
  have atStart :
      (Split.initial line).inside = true ↔ line.length < maxInputLen :=
    decide_eq_true_iff
  have noneEarlier : (Split.initial line).earlier.length = 0 := rfl
  rw [atStart, noneEarlier, Nat.zero_add] at stores
  rw [VectorsFit, usedEntries_eq, Nat.succ_le_iff, vectorWrites]
  simp only [Split.analyse, Bool.and_eq_true, decide_eq_true_eq, stores]
  have room : 0 < maxInputLen / 4 := by decide
  constructor
  · rintro ⟨short, writes, entries⟩
    exact ⟨short, by omega, writes⟩
  · rintro ⟨short, entries, writes⟩
    exact ⟨short, writes, Or.inr entries⟩

/-- Commands that are not empty take two words each with the `|` between them. -/
theorem countP_endsCommand_le
    {parts : List (List (List Char))}
    (nonempty : parts ≠ [])
    (areCommands :
      ∀ words ∈ parts, words ≠ [] ∧ words.countP endsCommand = 0) :
    2 * ([['|']].intercalate parts).countP endsCommand + 1 ≤
      ([['|']].intercalate parts).length := by
  induction parts with
  | nil =>
      exact absurd rfl nonempty
  | cons words others inductionHypothesis =>
      obtain ⟨notEmpty, noEnd⟩ := areCommands words List.mem_cons_self
      have positive := List.length_pos_iff.mpr notEmpty
      cases others with
      | nil =>
          rw [List.intercalate_singleton, noEnd]
          exact positive
      | cons next later =>
          have behind :=
            inductionHypothesis (List.cons_ne_nil _ _) fun other member =>
              areCommands other (List.mem_cons_of_mem _ member)
          have atBar : [['|']].countP endsCommand = 1 := rfl
          rw [List.intercalate_cons_cons, List.countP_append, List.countP_append,
            List.length_append, List.length_append, noEnd, atBar,
            List.length_singleton]
          omega

theorem mem_intercalate
    {parts : List (List (List Char))}
    {separator words : List (List Char)}
    (member : words ∈ parts)
    {word : List Char}
    (isWord : word ∈ words) :
    word ∈ separator.intercalate parts := by
  induction parts with
  | nil =>
      cases member
  | cons first others inductionHypothesis =>
      cases others with
      | nil =>
          rw [List.mem_singleton.mp member] at isWord
          rwa [List.intercalate_singleton]
      | cons next later =>
          rw [List.intercalate_cons_cons]
          rcases List.mem_cons.mp member with rfl | behind
          · exact List.mem_append_left _ (List.mem_append_left _ isWord)
          · exact List.mem_append_right _ (inductionHypothesis behind)

/-- Without `>` as a word, the entries are enough. -/
theorem countP_endsCommand_lt
    (short : line.length ≤ maxInputLen)
    (areStages : ∀ stage ∈ stages line, IsStage stage)
    (noFile : ['>'] ∉ tokens (· = ' ') line) :
    (tokens (· = ' ') line).countP endsCommand < maxInputLen / 4 := by
  have noEnd (stage : List Char) (member : stage ∈ stages line) :
      (tokens (· = ' ') stage).countP endsCommand = 0 := by
    rw [List.countP_eq_zero]
    intro word isWord ends
    rcases of_decide_eq_true ends with rfl | rfl
    · exact bar_not_mem_of_mem_stagesFrom (noBar_nil line) member isWord
    · refine noFile ?_
      rw [tokens_stages]
      exact mem_intercalate (List.mem_map_of_mem member) isWord
  have nonempty : (stages line).map (tokens (· = ' ')) ≠ [] := by
    simpa [stages] using stagesFrom_ne_nil [] line
  have counted :=
    countP_endsCommand_le nonempty fun words member => by
      obtain ⟨stage, inLine, rfl⟩ := List.mem_map.mp member
      exact ⟨(areStages stage inLine).1, noEnd stage inLine⟩
  rw [← tokens_stages] at counted
  have bytes : 2 * (tokens (· = ' ') line).length ≤ line.length + 1 :=
    length_tokens_le line
  unfold maxInputLen at short ⊢
  omega

/-- The vectors are large enough exactly if no stage is 128 words that are all
stored and there are less than 3750 words `|` and `>`.  There are less without
`>`. -/
theorem vectorsFit_iff
    (short : line.length ≤ maxInputLen)
    (areStages : ∀ stage ∈ stages line, IsStage stage) :
    (VectorsFit line ↔
        (∀ stage ∈ stages line, ¬ FillsVector stage) ∧
          (tokens (· = ' ') line).countP endsCommand < maxInputLen / 4) ∧
      (['>'] ∉ tokens (· = ' ') line →
        (tokens (· = ' ') line).countP endsCommand < maxInputLen / 4) := by
  refine ⟨?_, countP_endsCommand_lt short areStages⟩
  have isNew : (Split.initial line).current = [] := rfl
  have fit :
      (∀ write ∈ vectorWrites line, write.count < maxCmdLen / 2) ↔
        ∀ stage ∈ stages line, ¬ FillsVector stage := by
    rw [vectorWrites, tokens_stages, Split.vectorWrites_stages_iff _ isNew]
    · simp only [List.forall_mem_map]
      rfl
    · intro words member
      obtain ⟨stage, inLine, rfl⟩ := List.mem_map.mp member
      exact (areStages stage inLine).length_le
  rw [VectorsFit, usedEntries_eq, Nat.succ_le_iff, fit, and_comm]

end Stages

/-- A stage of one word, with spaces around it. -/
theorem tokens_of_trimmed
    {stage word : List Char}
    (isTrimmed : trimmed (· = ' ') stage = word)
    (nonempty : word ≠ [])
    (noSpace : ∀ symbol ∈ word, decide (symbol = ' ') = false) :
    tokens (· = ' ') stage = [word] := by
  rw [← tokens_trimmed, isTrimmed]
  exact tokens_word nonempty noSpace

theorem vectorsFit_twoStages :
    VectorsFit "ls | cat".toList := by
  have isStages : stages "ls | cat".toList = ["ls ".toList, " cat".toList] := by
    decide
  have first : tokens (· = ' ') "ls ".toList = ["ls".toList] :=
    tokens_of_trimmed (by decide) (by decide) (by decide)
  have second : tokens (· = ' ') " cat".toList = ["cat".toList] :=
    tokens_of_trimmed (by decide) (by decide) (by decide)
  have areStages : ∀ stage ∈ stages "ls | cat".toList, IsStage stage := by
    rw [isStages]
    intro stage member
    rcases List.mem_pair.mp member with rfl | rfl
    · exact ⟨by rw [first]; decide, by decide⟩
    · exact ⟨by rw [second]; decide, by decide⟩
  refine (vectorsFit_iff (by decide) areStages).1.mpr ⟨?_, ?_⟩
  · rw [isStages]
    intro stage member full
    rcases List.mem_pair.mp member with rfl | rfl
    · rw [FillsVector, first] at full
      exact absurd full.1 (by decide)
    · rw [FillsVector, second] at full
      exact absurd full.1 (by decide)
  · rw [tokens_stages, isStages, List.map_cons, List.map_cons, first, second]
    decide

/-- 128 words of one letter. -/
def longCommand : List Char :=
  [' '].intercalate (List.replicate 128 ['a'])

theorem tokens_longCommand :
    tokens (· = ' ') longCommand = List.replicate 128 ['a'] := by
  refine tokens_intercalate ?_ (by decide)
  intro word member
  rw [List.eq_of_mem_replicate member]
  decide

/-- The `NULL` behind these words is written behind the vector. -/
theorem vectors_not_fit :
    ¬ ∀ line : List Char,
        line.length ≤ maxInputLen →
        (∀ stage ∈ stages line, IsStage stage) →
        VectorsFit line := by
  intro claim
  have isStages : stages longCommand = [longCommand] := by
    decide +kernel
  have fit :=
    claim longCommand (by decide +kernel) (by
      rw [isStages]
      intro stage member
      rw [List.mem_singleton.mp member]
      refine ⟨?_, by decide +kernel⟩
      rw [tokens_longCommand]
      decide)
  have isLast : (⟨0, 128⟩ : VectorWrite) ∈ vectorWrites longCommand := by
    rw [vectorWrites, tokens_longCommand]
    decide +kernel
  exact absurd (fit.2 _ isLast) (by decide)

end NpServers.Shell
