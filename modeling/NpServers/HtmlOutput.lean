import Mathlib.Data.List.TakeWhile
import NpServers.MarkupText

namespace NpServers.Console

open NpServers.MarkupText

/-!
# What the console writes for the browser

`print_output` and `print_command` write a script statement that appends a text
to an element of the page.  The text of the shell stands in a quoted literal, and
the value of the literal is read as HTML.  `print_output` replaces four symbols
by entities before; `print_command` writes the line as it is.
-/

/-! ## The source functions -/

/-- One pass of `change_to_html_format`, if `find` returns an index. -/
def replaceFirst
    (replaceTarget : Char)
    (replaceString : List Char)
    (buf : List Char) : Option (List Char) :=
  match buf.dropWhile fun symbol => decide (symbol ≠ replaceTarget) with
  | [] => none
  | _ :: behind =>
      some
        ((buf.takeWhile fun symbol => decide (symbol ≠ replaceTarget)) ++
          '&' :: (replaceString ++ behind))

/-- The loop, for a number of passes. -/
def replaceLoop
    (replaceTarget : Char)
    (replaceString : List Char) : Nat → List Char → List Char
  | 0, buf => buf
  | passes + 1, buf =>
      match replaceFirst replaceTarget replaceString buf with
      | none => buf
      | some buf => replaceLoop replaceTarget replaceString passes buf

/-- `change_to_html_format`; there are no more passes than symbols. -/
def changeToHtmlFormat
    (replaceTarget : Char)
    (replaceString : List Char)
    (buf : List Char) : List Char :=
  replaceLoop replaceTarget (replaceString ++ [';']) buf.length buf

/-- The text between the quotes of `print_output`. -/
def outputBody (data : List Char) : List Char :=
  changeToHtmlFormat '>' ['g', 't']
    (changeToHtmlFormat '<' ['l', 't']
      (changeToHtmlFormat '\'' ['#', 'x', '2', '7']
        (changeToHtmlFormat '\n' ['N', 'e', 'w', 'L', 'i', 'n', 'e'] data)))

/-- `<cmd>`. -/
def cmdTag : List Char := ['<', 'c', 'm', 'd', '>']

/-- `</cmd>`. -/
def cmdEndTag : List Char := ['<', '/', 'c', 'm', 'd', '>']

/-- `&NewLine;`. -/
def newLineEntity : List Char :=
  ['&', 'N', 'e', 'w', 'L', 'i', 'n', 'e', ';']

/-- The text between the quotes of `print_command`. -/
def commandBody (cmd : List Char) : List Char :=
  cmdTag ++ (cmd ++ newLineEntity) ++ cmdEndTag

/-- The statement up to the quote. -/
def opening (htmlId : List Char) : List Char :=
  "<script>document.getElementById('".toList ++ htmlId ++
    "').innerHTML += ".toList

/-- The statement behind the second quote. -/
def closing : List Char :=
  ";</script>\n".toList

/-- The statement with the given text between its quotes. -/
def statement
    (htmlId body : List Char) : List Char :=
  opening htmlId ++ '\'' :: (body ++ '\'' :: closing)

/-- `print_output`. -/
def printOutput
    (htmlId data : List Char) : List Char :=
  statement htmlId (outputBody data)

/-- `print_command`. -/
def printCommand
    (htmlId cmd : List Char) : List Char :=
  statement htmlId (commandBody cmd)

/-! ## The replacements -/

section Replace

variable {replaceTarget : Char}
variable {replaceString : List Char}

/-- All occurrences at once. -/
def replaceAll
    (replaceTarget : Char)
    (replaceString : List Char)
    (buf : List Char) : List Char :=
  buf.flatMap fun symbol =>
    if symbol = replaceTarget then '&' :: replaceString else [symbol]

theorem replaceAll_of_not_mem
    {buf : List Char}
    (absent : replaceTarget ∉ buf) :
    replaceAll replaceTarget replaceString buf = buf := by
  have stays :
      ∀ symbol ∈ buf,
        (if symbol = replaceTarget then '&' :: replaceString else [symbol]) =
          [symbol] := by
    intro symbol member
    have different : symbol ≠ replaceTarget := by
      rintro rfl
      exact absent member
    rw [if_neg different]
  rw [replaceAll, List.flatMap_congr stays]
  simp

theorem replaceAll_append
    (first second : List Char) :
    replaceAll replaceTarget replaceString (first ++ second) =
      replaceAll replaceTarget replaceString first ++
        replaceAll replaceTarget replaceString second :=
  List.flatMap_append

theorem replaceFirst_none
    {buf : List Char}
    (isNone : replaceFirst replaceTarget replaceString buf = none) :
    replaceTarget ∉ buf := by
  unfold replaceFirst at isNone
  split at isNone
  · rename_i isNil
    intro member
    have := List.dropWhile_eq_nil_iff.mp isNil replaceTarget member
    simp at this
  · cases isNone

theorem replaceFirst_some
    {buf next : List Char}
    (isSome : replaceFirst replaceTarget replaceString buf = some next) :
    ∃ before behind,
      replaceTarget ∉ before ∧ buf = before ++ replaceTarget :: behind ∧
        next = before ++ '&' :: (replaceString ++ behind) := by
  unfold replaceFirst at isSome
  split at isSome
  · cases isSome
  · rename_i head behind isRest
    have isHead : head = replaceTarget := by
      have notDropped :=
        List.head?_dropWhile_not
          (fun symbol => decide (symbol ≠ replaceTarget)) buf
      rw [isRest] at notDropped
      simpa using notDropped
    refine ⟨buf.takeWhile fun symbol => decide (symbol ≠ replaceTarget), behind,
      ?_, ?_, (Option.some.inj isSome).symm⟩
    · intro member
      have := List.mem_takeWhile_imp member
      simp at this
    · rw [isHead] at isRest
      rw [← isRest, List.takeWhile_append_dropWhile]

/-- The loop replaces all occurrences if what it writes contains none. -/
theorem replaceLoop_eq
    (absent : replaceTarget ∉ '&' :: replaceString)
    {passes : Nat}
    {buf : List Char}
    (enough : buf.count replaceTarget ≤ passes) :
    replaceLoop replaceTarget replaceString passes buf =
      replaceAll replaceTarget replaceString buf := by
  induction passes generalizing buf with
  | zero =>
      have notInside : replaceTarget ∉ buf :=
        List.count_eq_zero.mp (Nat.le_zero.mp enough)
      rw [replaceAll_of_not_mem notInside]
      rfl
  | succ passes inductionHypothesis =>
      rw [replaceLoop]
      cases isNext : replaceFirst replaceTarget replaceString buf with
      | none =>
          exact (replaceAll_of_not_mem (replaceFirst_none isNext)).symm
      | some next =>
          obtain ⟨before, behind, notBefore, rfl, rfl⟩ := replaceFirst_some isNext
          have fewer :
              (before ++ '&' :: (replaceString ++ behind)).count replaceTarget ≤
                passes := by
            have none := List.count_eq_zero.mpr absent
            simp only [List.count_append, List.count_cons_self,
              ← List.cons_append] at enough none ⊢
            omega
          refine (inductionHypothesis fewer).trans ?_
          rw [← List.cons_append, replaceAll_append, replaceAll_append,
            replaceAll_of_not_mem absent, replaceAll_append]
          simp [replaceAll]

theorem changeToHtmlFormat_eq
    (absent : replaceTarget ∉ '&' :: (replaceString ++ [';']))
    (buf : List Char) :
    changeToHtmlFormat replaceTarget replaceString buf =
      replaceAll replaceTarget (replaceString ++ [';']) buf :=
  replaceLoop_eq absent List.count_le_length

end Replace

/-- What a symbol is replaced by. -/
def substituted (symbol : Char) : List Char :=
  if symbol = '\n' then "&NewLine;".toList
  else if symbol = '\'' then "&#x27;".toList
  else if symbol = '<' then "&lt;".toList
  else if symbol = '>' then "&gt;".toList
  else [symbol]

/-- It is the entity of the symbol, if there is one. -/
theorem substituted_eq
    (symbol : Char) :
    substituted symbol = encodeSymbol (fun _ => true) symbol := by
  unfold substituted
  by_cases special : symbol ∈ ['\n', '\'', '<', '>']
  · simp only [List.mem_cons, List.not_mem_nil, or_false] at special
    rcases special with rfl | rfl | rfl | rfl <;> rfl
  · have plain : ∀ entity ∈ entities, entity.2 ≠ symbol := by
      intro entity isEntity same
      have isSpecial :
          ∀ entity ∈ entities, entity.2 ∈ ['\n', '\'', '<', '>'] := by
        decide
      exact special (same ▸ isSpecial entity isEntity)
    rw [encodeSymbol_of_plain plain]
    simp only [List.mem_cons, List.not_mem_nil, or_false, not_or] at special
    simp [special.1, special.2.1, special.2.2.1, special.2.2.2]

/-- `print_output` encodes the four symbols that have an entity. -/
theorem outputBody_eq
    (data : List Char) :
    outputBody data = encode (fun _ => true) data := by
  unfold outputBody
  rw [changeToHtmlFormat_eq (by decide), changeToHtmlFormat_eq (by decide),
    changeToHtmlFormat_eq (by decide), changeToHtmlFormat_eq (by decide)]
  unfold replaceAll encode
  rw [List.flatMap_assoc, List.flatMap_assoc, List.flatMap_assoc]
  apply List.flatMap_congr
  intro symbol _
  rw [← substituted_eq, substituted]
  by_cases newline : symbol = '\n'
  · subst newline
    rfl
  · by_cases quote : symbol = '\''
    · subst quote
      rfl
    · by_cases less : symbol = '<'
      · subst less
        rfl
      · simp [newline, quote, less]

/-! ## One substitution -/

/-- The loop of `change_to_html_format` ends with the given text. -/
inductive LoopEnds
    (replaceTarget : Char)
    (replaceString : List Char) :
    List Char → List Char → Prop
  | notFound
      {buf : List Char}
      (isNone : replaceFirst replaceTarget replaceString buf = none) :
      LoopEnds replaceTarget replaceString buf buf
  | found
      {buf next result : List Char}
      (isSome : replaceFirst replaceTarget replaceString buf = some next)
      (ends : LoopEnds replaceTarget replaceString next result) :
      LoopEnds replaceTarget replaceString buf result

section Loop

variable {replaceTarget : Char}
variable {replaceString : List Char}

/-- A pass that finds the target leaves one occurrence less. -/
theorem count_of_replaceFirst
    (absent : replaceTarget ∉ '&' :: replaceString)
    {buf next : List Char}
    (isSome : replaceFirst replaceTarget replaceString buf = some next) :
    next.count replaceTarget + 1 = buf.count replaceTarget := by
  obtain ⟨before, behind, _, rfl, rfl⟩ := replaceFirst_some isSome
  have none := List.count_eq_zero.mpr absent
  simp only [List.count_append, List.count_cons_self,
    ← List.cons_append] at none ⊢
  omega

theorem loopEnds_replaceLoop
    (absent : replaceTarget ∉ '&' :: replaceString)
    {passes : Nat}
    {buf : List Char}
    (enough : buf.count replaceTarget ≤ passes) :
    LoopEnds replaceTarget replaceString buf
      (replaceLoop replaceTarget replaceString passes buf) := by
  induction passes generalizing buf with
  | zero =>
      have notInside : replaceTarget ∉ buf :=
        List.count_eq_zero.mp (Nat.le_zero.mp enough)
      refine .notFound ?_
      cases isNext : replaceFirst replaceTarget replaceString buf with
      | none => rfl
      | some next =>
          have fewer := count_of_replaceFirst absent isNext
          rw [List.count_eq_zero.mpr notInside] at fewer
          omega
  | succ passes inductionHypothesis =>
      rw [replaceLoop]
      cases isNext : replaceFirst replaceTarget replaceString buf with
      | none => exact .notFound isNext
      | some next =>
          have fewer := count_of_replaceFirst absent isNext
          exact .found isNext (inductionHypothesis (by omega))

/-- The measure is the number of targets that are left. -/
theorem loopEnds_changeToHtmlFormat
    (absent : replaceTarget ∉ '&' :: (replaceString ++ [';']))
    (buf : List Char) :
    LoopEnds replaceTarget (replaceString ++ [';']) buf
      (changeToHtmlFormat replaceTarget replaceString buf) :=
  loopEnds_replaceLoop absent List.count_le_length

end Loop

/-- The arguments of the four calls of `print_output`, in their order. -/
def formatCalls : List (Char × List Char) :=
  [('\n', ['N', 'e', 'w', 'L', 'i', 'n', 'e']),
    ('\'', ['#', 'x', '2', '7']),
    ('<', ['l', 't']),
    ('>', ['g', 't'])]

/-- The entity that a call inserts. -/
def insertedEntity (call : Char × List Char) : List Char :=
  '&' :: (call.2 ++ [';'])

/-- No entity has a symbol that one of the calls looks for. -/
theorem insertedEntity_plain :
    ∀ call ∈ formatCalls,
      ∀ other ∈ formatCalls, other.1 ∉ insertedEntity call := by
  decide

/-- Nothing that is put in place of a symbol is one of the four symbols. -/
theorem not_mem_substituted
    {target : Char}
    (isTarget : target ∈ formatCalls.map Prod.fst)
    (symbol : Char) :
    target ∉ substituted symbol := by
  have targets : formatCalls.map Prod.fst = ['\n', '\'', '<', '>'] := rfl
  rw [targets] at isTarget
  have absent (entity : List Char)
      (noTarget : ∀ other ∈ entity, other ∉ ['\n', '\'', '<', '>']) :
      target ∉ entity :=
    fun member => noTarget target member isTarget
  unfold substituted
  split_ifs with newline quote less greater
  · exact absent _ (by simp)
  · exact absent _ (by simp)
  · exact absent _ (by simp)
  · exact absent _ (by simp)
  · intro member
    rw [List.mem_singleton.mp member] at isTarget
    simp [newline, quote, less, greater] at isTarget

/--
The four loops end, and together they replace every one of the four symbols by
its entity and keep the others, as if all at once: a later call leaves the
entities alone, and the ends of chunks do not matter.
-/
theorem outputBody_substitutes
    (data : List Char) :
    (∀ call ∈ formatCalls, ∀ buf,
        LoopEnds call.1 (call.2 ++ [';']) buf
          (changeToHtmlFormat call.1 call.2 buf)) ∧
      outputBody data =
        formatCalls.foldl
          (fun buf call => changeToHtmlFormat call.1 call.2 buf) data ∧
      outputBody data = data.flatMap substituted ∧
      (∀ call ∈ formatCalls, call.1 ∉ outputBody data) ∧
      (∀ call ∈ formatCalls, ∀ later ∈ formatCalls, ∀ before behind,
        changeToHtmlFormat later.1 later.2
            (before ++ insertedEntity call ++ behind) =
          changeToHtmlFormat later.1 later.2 before ++ insertedEntity call ++
            changeToHtmlFormat later.1 later.2 behind) ∧
      ∀ rest, outputBody (data ++ rest) = outputBody data ++ outputBody rest := by
  have substitutes (text : List Char) :
      outputBody text = text.flatMap substituted := by
    rw [outputBody_eq, encode]
    exact List.flatMap_congr fun symbol _ => (substituted_eq symbol).symm
  refine ⟨?_, rfl, substitutes data, ?_, ?_, ?_⟩
  · intro call isCall buf
    exact loopEnds_changeToHtmlFormat
      (insertedEntity_plain call isCall call isCall) buf
  · intro call isCall member
    rw [substitutes, List.mem_flatMap] at member
    obtain ⟨symbol, _, inEntity⟩ := member
    exact not_mem_substituted (List.mem_map_of_mem isCall) symbol inEntity
  · intro call isCall later isLater before behind
    have changes (text : List Char) :=
      changeToHtmlFormat_eq (insertedEntity_plain later isLater later isLater)
        text
    rw [changes, changes, changes, replaceAll_append, replaceAll_append,
      replaceAll_of_not_mem (insertedEntity_plain call isCall later isLater)]
  · intro rest
    rw [substitutes, substitutes, substitutes, List.flatMap_append]

/-- The tags and the newline around a command. -/
def wrapped (cmd : List Char) : List Char :=
  cmdTag ++ (cmd ++ ['\n']) ++ cmdEndTag

theorem encode_of_oneLine
    {cmd : List Char}
    (oneLine : '\n' ∉ cmd) :
    encode (fun symbol => symbol = '\n') cmd = cmd := by
  have each :
      ∀ symbol ∈ cmd,
        encodeSymbol (fun symbol => symbol = '\n') symbol = [symbol] := by
    intro symbol member
    have different : symbol ≠ '\n' := by
      rintro rfl
      exact oneLine member
    simp [encodeSymbol, different]
  rw [encode, List.flatMap_congr each]
  simp

/-- `print_command` is as if only the newline behind the line were encoded. -/
theorem commandBody_eq
    {cmd : List Char}
    (oneLine : '\n' ∉ cmd) :
    commandBody cmd =
      encode (fun symbol => symbol = '\n') (wrapped cmd) := by
  rw [wrapped, encode_append, encode_append, encode_append,
    encode_of_oneLine oneLine]
  rfl

/-! ## What the browser shows -/

/--
What is printed holds a literal behind its opening: the literal ends at the quote
that the program wrote, whatever is printed later, and has no line terminator.
-/
def WritesLiteral
    (rules : EscapeRules)
    (printed : List Char → List Char)
    (value : List Char) : Prop :=
  ∃ body,
    (∀ htmlId later,
      ∃ text,
        printed htmlId ++ later = opening htmlId ++ '\'' :: text ∧
          text = body ++ '\'' :: (closing ++ later) ∧
          Evaluates rules text value (closing ++ later)) ∧
      ∀ symbol ∈ lineTerminators, symbol ∉ body

/-- The browser shows the output as the shell printed it. -/
def ShowsOutput
    (rules : EscapeRules)
    (data : List Char) : Prop :=
  ∃ value,
    WritesLiteral rules (fun htmlId => printOutput htmlId data) value ∧
      ¬ HasMarkup value ∧ decode value = data

/-- Inside of its tags, the browser shows the command and a newline. -/
def ShowsCommand
    (rules : EscapeRules)
    (cmd : List Char) : Prop :=
  ∃ value inner,
    WritesLiteral rules (fun htmlId => printCommand htmlId cmd) value ∧
      value = cmdTag ++ inner ++ cmdEndTag ∧
      ¬ HasMarkup inner ∧ decode inner = cmd ++ ['\n']

/-- Nothing in the text is taken for something else, once four symbols are
encoded. -/
structure SafeOutput (data : List Char) : Prop where
  noBackslash : '\\' ∉ data
  noTerminator :
    ∀ symbol ∈ ['\r', Char.ofNat 0x2028, Char.ofNat 0x2029], symbol ∉ data
  noEntity : ¬ HasEntity data

/-- Nothing in the line is taken for something else. -/
structure SafeCommand (cmd : List Char) : Prop where
  noBackslash : '\\' ∉ cmd
  noQuote : '\'' ∉ cmd
  noTerminator : ∀ symbol ∈ [Char.ofNat 0x2028, Char.ofNat 0x2029], symbol ∉ cmd
  noEntity : ¬ HasEntity cmd
  noMarkup : ¬ HasMarkup cmd

variable {rules : EscapeRules}

/-- The literal of a statement is the text between its quotes. -/
theorem writesLiteral_statement_iff
    {body value : List Char} :
    WritesLiteral rules (fun htmlId => statement htmlId body) value ↔
      (∀ later,
        Evaluates rules (body ++ '\'' :: (closing ++ later)) value
          (closing ++ later)) ∧
      ∀ symbol ∈ lineTerminators, symbol ∉ body := by
  have split (htmlId later : List Char) :
      statement htmlId body ++ later =
        opening htmlId ++ '\'' :: (body ++ '\'' :: (closing ++ later)) := by
    simp [statement]
  constructor
  · rintro ⟨other, evaluates, noTerminator⟩
    have isBody : other = body := by
      obtain ⟨text, isText, sameText, _⟩ := evaluates [] []
      rw [split, sameText] at isText
      have sameBehind := (List.cons.inj (List.append_cancel_left isText)).2
      exact (List.append_cancel_right sameBehind).symm
    subst isBody
    refine ⟨?_, noTerminator⟩
    intro later
    obtain ⟨text, _, rfl, isLiteral⟩ := evaluates [] later
    exact isLiteral
  · rintro ⟨evaluates, noTerminator⟩
    exact
      ⟨body, fun htmlId later => ⟨_, split htmlId later, rfl, evaluates later⟩,
        noTerminator⟩

/-- Line terminators are not written by the encoding, and only the newline is
removed by it. -/
theorem terminator_mem_encode
    {encodes : Char → Bool}
    {symbol : Char}
    (isTerminator : symbol ∈ ['\r', Char.ofNat 0x2028, Char.ofNat 0x2029])
    (text : List Char) :
    symbol ∈ encode encodes text ↔ symbol ∈ text := by
  simp only [List.mem_cons, List.not_mem_nil, or_false] at isTerminator
  rcases isTerminator with rfl | rfl | rfl
  · exact ⟨mem_of_mem_encode (by decide) (by decide), mem_encode_of_plain (by decide)⟩
  · exact ⟨mem_of_mem_encode (by decide) (by decide), mem_encode_of_plain (by decide)⟩
  · exact ⟨mem_of_mem_encode (by decide) (by decide), mem_encode_of_plain (by decide)⟩

/-- The quotes, the newlines and the tags of an output are all encoded. -/
theorem encoded_not_mem
    {symbol : Char}
    (isEncoded : symbol ∈ ['\n', '\'', '<', '>'])
    (data : List Char) :
    symbol ∉ encode (fun _ => true) data := by
  intro member
  obtain ⟨other, _, inSymbol⟩ := List.mem_flatMap.mp member
  by_cases special : other ∈ ['\n', '\'', '<', '>']
  · simp only [List.mem_cons, List.not_mem_nil, or_false] at isEncoded special
    rcases special with rfl | rfl | rfl | rfl <;>
      rcases isEncoded with rfl | rfl | rfl | rfl <;>
        exact absurd inSymbol (by decide)
  · have plain : ∀ entity ∈ entities, entity.2 ≠ other := by
      intro entity isEntity same
      have isSpecial :
          ∀ entity ∈ entities, entity.2 ∈ ['\n', '\'', '<', '>'] := by
        decide
      exact special (same ▸ isSpecial entity isEntity)
    rw [encodeSymbol_of_plain plain, List.mem_singleton] at inSymbol
    exact special (inSymbol ▸ isEncoded)

theorem showsOutput_of_safe
    {data : List Char}
    (safe : SafeOutput data) :
    ShowsOutput rules data := by
  have noTerminator :
      ∀ symbol ∈ lineTerminators, symbol ∉ encode (fun _ => true) data := by
    intro symbol isTerminator
    rcases List.mem_cons.mp isTerminator with rfl | isOther
    · exact encoded_not_mem (by decide) data
    · rw [terminator_mem_encode isOther]
      exact safe.noTerminator symbol isOther
  have arePlain : ∀ symbol ∈ encode (fun _ => true) data, IsPlain symbol := by
    intro symbol member
    refine ⟨?_, ?_, ?_, ?_⟩
    · rintro rfl
      exact encoded_not_mem (by decide) data member
    · rintro rfl
      exact safe.noBackslash (mem_of_mem_encode (by decide) (by decide) member)
    · rintro rfl
      exact noTerminator '\n' (by decide) member
    · rintro rfl
      exact noTerminator '\r' (by decide) member
  refine ⟨outputBody data, writesLiteral_statement_iff.mpr ?_, ?_, ?_⟩
  · rw [outputBody_eq]
    exact ⟨fun later => evaluates_plain arePlain _, noTerminator⟩
  · rintro ⟨symbol, _, inside⟩
    rw [outputBody_eq] at inside
    exact encoded_not_mem (by decide) data (inside.subset List.mem_cons_self)
  · rw [outputBody_eq]
    exact decode_encode safe.noEntity

theorem safe_of_showsOutput
    {data : List Char}
    (shows : ShowsOutput rules data) :
    SafeOutput data := by
  obtain ⟨value, writes, _, same⟩ := shows
  obtain ⟨evaluates, noTerminator⟩ := writesLiteral_statement_iff.mp writes
  rw [outputBody_eq] at noTerminator
  have alone := evaluates []
  rw [outputBody_eq] at alone
  obtain ⟨noBackslash, noEntity⟩ := alone.decode_eq_iff.mp same
  refine ⟨noBackslash, ?_, noEntity⟩
  intro symbol isTerminator
  rw [← terminator_mem_encode isTerminator]
  exact noTerminator symbol (List.mem_cons_of_mem _ isTerminator)

/-- The entities of a wrapped command are those of the command. -/
theorem hasEntity_newline
    {cmd : List Char}
    (hasEntity : HasEntity (cmd ++ ['\n'])) :
    HasEntity cmd := by
  obtain ⟨entity, isEntity, inside⟩ := hasEntity
  have outside : ∀ entity ∈ entities, '\n' ∉ '&' :: entity.1 := by
    decide
  rcases infix_append_cons inside (outside entity isEntity) with inCmd | inNil
  · exact ⟨entity, isEntity, inCmd⟩
  · exact absurd (List.infix_nil.mp inNil) (List.cons_ne_nil _ _)

/-- No tag starts at the newline behind a command. -/
theorem hasMarkup_newLineEntity
    {cmd : List Char}
    (hasMarkup : HasMarkup (cmd ++ newLineEntity)) :
    HasMarkup cmd := by
  obtain ⟨symbol, isTag, inside⟩ := hasMarkup
  have notAmpersand : '&' ∉ ['<', symbol] := by
    simp only [List.mem_cons, List.not_mem_nil, or_false, not_or]
    refine ⟨by decide, ?_⟩
    rintro rfl
    rcases isTag with isAlpha | isSlash | isBang | isQuestion
    · exact absurd isAlpha (by decide)
    · exact absurd isSlash (by decide)
    · exact absurd isBang (by decide)
    · exact absurd isQuestion (by decide)
  rcases infix_append_cons inside notAmpersand with inCmd | inName
  · exact ⟨symbol, isTag, inCmd⟩
  · exact absurd (inName.subset List.mem_cons_self) (by decide)

theorem showsCommand_of_safe
    {cmd : List Char}
    (noNewline : '\n' ∉ cmd)
    (noReturn : '\r' ∉ cmd)
    (safe : SafeCommand cmd) :
    ShowsCommand rules cmd := by
  have mem_body (symbol : Char) (member : symbol ∈ commandBody cmd) :
      symbol ∈ cmd ∨ symbol ∈ cmdTag ++ newLineEntity ++ cmdEndTag := by
    simp only [commandBody, List.mem_append] at member ⊢
    tauto
  have noTerminator : ∀ symbol ∈ lineTerminators, symbol ∉ commandBody cmd := by
    intro symbol isTerminator member
    simp only [lineTerminators, List.mem_cons, List.not_mem_nil, or_false]
      at isTerminator
    rcases mem_body symbol member with inCmd | around
    · rcases isTerminator with rfl | rfl | rfl | rfl
      · exact noNewline inCmd
      · exact noReturn inCmd
      · exact safe.noTerminator _ (by decide) inCmd
      · exact safe.noTerminator _ (by decide) inCmd
    · rcases isTerminator with rfl | rfl | rfl | rfl <;>
        exact absurd around (by decide)
  have arePlain : ∀ symbol ∈ commandBody cmd, IsPlain symbol := by
    intro symbol member
    refine ⟨?_, ?_, ?_, ?_⟩
    · rintro rfl
      rcases mem_body _ member with inCmd | around
      · exact safe.noQuote inCmd
      · exact absurd around (by decide)
    · rintro rfl
      rcases mem_body _ member with inCmd | around
      · exact safe.noBackslash inCmd
      · exact absurd around (by decide)
    · rintro rfl
      exact noTerminator '\n' (by decide) member
    · rintro rfl
      exact noTerminator '\r' (by decide) member
  refine ⟨commandBody cmd, cmd ++ newLineEntity,
    writesLiteral_statement_iff.mpr
      ⟨fun later => evaluates_plain arePlain _, noTerminator⟩,
    rfl,
    fun hasMarkup => safe.noMarkup (hasMarkup_newLineEntity hasMarkup), ?_⟩
  have isEncoded :
      cmd ++ newLineEntity =
        encode (fun symbol => symbol = '\n') (cmd ++ ['\n']) := by
    rw [encode_append, encode_of_oneLine noNewline]
    rfl
  rw [isEncoded]
  exact decode_encode fun hasEntity => safe.noEntity (hasEntity_newline hasEntity)

theorem safe_of_showsCommand
    {cmd : List Char}
    (noNewline : '\n' ∉ cmd)
    (shows : ShowsCommand rules cmd) :
    SafeCommand cmd := by
  obtain ⟨value, inner, writes, rfl, noMarkup, same⟩ := shows
  obtain ⟨evaluates, noTerminator⟩ := writesLiteral_statement_iff.mp writes
  have inBody (symbol : Char) (member : symbol ∈ cmd) :
      symbol ∈ commandBody cmd := by
    simp [commandBody, member]
  have alone := evaluates []
  have decoded :
      decode (cmdTag ++ inner ++ cmdEndTag) = wrapped cmd := by
    have isEndTag : decode cmdEndTag = cmdEndTag := by
      simpa using @decode_append_of_noAmpersand cmdEndTag (by decide) []
    have atEndTag : decode (inner ++ cmdEndTag) = decode inner ++ decode cmdEndTag :=
      decode_append_cons (by decide) inner _
    rw [List.append_assoc, decode_append_of_noAmpersand (by decide), atEndTag, same,
      isEndTag]
    simp [wrapped]
  have encodedAlone := alone
  rw [commandBody_eq noNewline] at encodedAlone
  obtain ⟨noBackslash, noEntity⟩ := encodedAlone.decode_eq_iff.mp decoded
  have noBackslashInCmd : '\\' ∉ cmd := by
    intro member
    exact noBackslash (by simp [wrapped, member])
  have noBackslashInBody : '\\' ∉ commandBody cmd := by
    simp [commandBody, cmdTag, newLineEntity, cmdEndTag, noBackslashInCmd]
  obtain ⟨isBody, arePlain⟩ := alone.of_noBackslash noBackslashInBody
  have isInner : inner = cmd ++ newLineEntity := by
    unfold commandBody at isBody
    exact List.append_cancel_left (List.append_cancel_right isBody)
  have cmdInside (part : List Char) (inside : part <:+: cmd) :
      part <:+: wrapped cmd :=
    inside.trans ⟨cmdTag, '\n' :: cmdEndTag, by simp [wrapped]⟩
  refine ⟨noBackslashInCmd, ?_, ?_, ?_, ?_⟩
  · intro member
    exact (arePlain _ (inBody _ member)).1 rfl
  · intro symbol isTerminator member
    exact noTerminator symbol
      (List.mem_cons_of_mem _ (List.mem_cons_of_mem _ isTerminator))
      (inBody symbol member)
  · rintro ⟨entity, isEntity, inside⟩
    exact noEntity ⟨entity, isEntity, cmdInside _ inside⟩
  · rintro ⟨symbol, isTag, inside⟩
    rw [isInner] at noMarkup
    exact noMarkup
      ⟨symbol, isTag, inside.trans (List.prefix_append cmd newLineEntity).isInfix⟩

/-- The browser shows an output, or a command of one line, exactly if no part of
it means something else in the literal or in the page. -/
theorem browser_shows_iff
    (rules : EscapeRules) :
    (∀ data, ShowsOutput rules data ↔ SafeOutput data) ∧
      ∀ cmd,
        '\n' ∉ cmd → '\r' ∉ cmd →
          (ShowsCommand rules cmd ↔ SafeCommand cmd) := by
  refine ⟨fun data => ⟨safe_of_showsOutput, showsOutput_of_safe⟩, ?_⟩
  intro cmd noNewline noReturn
  exact
    ⟨safe_of_showsCommand noNewline, showsCommand_of_safe noNewline noReturn⟩

/-- The escape sequences of one symbol. -/
def singleEscapes : EscapeRules where
  escape
    | [] => none
    | symbol :: rest =>
        some
          ([if symbol = 'n' then '\n' else if symbol = 't' then '\t' else symbol],
            rest)
  shape := by
    intro text value rest isEscape
    cases text with
    | nil =>
        cases isEscape
    | cons symbol others =>
        obtain ⟨rfl, rfl⟩ := Prod.mk.inj (Option.some.inj isEscape)
        refine ⟨[symbol], rfl, List.cons_ne_nil _ _, ?_⟩
        by_cases isAmpersand : symbol = '&'
        · subst isAmpersand
          exact Or.inl ⟨rfl, rfl⟩
        · exact Or.inr ⟨by simpa using Ne.symm isAmpersand, le_rfl⟩

theorem plain_shown :
    ShowsCommand singleEscapes "ls -l".toList := by
  refine
    ((browser_shows_iff singleEscapes).2 "ls -l".toList (by decide)
      (by decide)).mpr ⟨by decide, by decide, ?_, by decide, ?_⟩
  · intro symbol isTerminator
    rcases List.mem_pair.mp isTerminator with rfl | rfl <;> decide
  · rintro ⟨symbol, _, inside⟩
    exact absurd (inside.subset List.mem_cons_self) (by decide)

/-- A command with a quote and an output with a backslash are not shown. -/
theorem quoted_not_shown :
    ¬ ShowsCommand singleEscapes "echo 'hi'".toList ∧
      ¬ ShowsOutput singleEscapes "C:\\np\n".toList := by
  constructor
  · intro shows
    exact (safe_of_showsCommand (by decide) shows).noQuote (by decide)
  · intro shows
    exact (safe_of_showsOutput shows).noBackslash (by decide)

end NpServers.Console
