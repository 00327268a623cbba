import NpServers.HtmlOutput

namespace NpServers.Console

open MarkupText

/-!
# The document that the printed scripts fill

Behind the page the console prints scripts, each of which adds text to one
element by its id.  This module says what a browser does with them: it evaluates
the literal, reads its value as markup and puts what it reads behind the content
of the element.  Only the two kinds of markup that the console means to print
are read here, text without tags and a command in its tags.
-/

/-- What one script adds to an element. -/
inductive Shown where
  | text (content : List Char)
  | command (content : List Char)
deriving DecidableEq, Repr

/-- The texts of the outputs, one behind the other. -/
def shownText (shown : List Shown) : List Char :=
  shown.flatMap fun part =>
    match part with
    | .text content => content
    | .command _ => []

/-- The texts of the commands, one behind the other. -/
def shownCommands (shown : List Shown) : List Char :=
  shown.flatMap fun part =>
    match part with
    | .text _ => []
    | .command content => content

/-- The elements of a page that have an id, and what has been added to each. -/
structure Document where
  ids : List (List Char)
  shown : List Char → List Shown

namespace Document

/-- A page whose elements are empty. -/
def blank (ids : List (List Char)) : Document where
  ids := ids
  shown := fun _ => []

/-- Something is added to an element. -/
def add
    (document : Document)
    (entry : List Char × Shown) : Document :=
  { document with
    shown :=
      Function.update document.shown entry.1
        (document.shown entry.1 ++ [entry.2]) }

end Document

/-- How the value of a literal is read. -/
inductive Reads : List Char → Shown → Prop
  | text
      {value : List Char}
      (noMarkup : ¬ HasMarkup value) :
      Reads value (.text (decode value))
  | command
      {inner : List Char}
      (noMarkup : ¬ HasMarkup inner) :
      Reads (cmdTag ++ inner ++ cmdEndTag) (.command (decode inner))

/-- The text may end a script, or open a comment in it. -/
def endsScript : List Char → Bool
  | [] => false
  | symbol :: rest =>
      ['<', '/', 's'].isPrefixOf (symbol :: rest) ||
        ['<', '!'].isPrefixOf (symbol :: rest) || endsScript rest

/--
The browser goes through the printed scripts.  A script is executed when its
element exists, and nothing inside of its literal ends the script.
-/
inductive Executes (rules : EscapeRules) :
    List Char → Document → Document → Prop
  | done (document : Document) : Executes rules [] document document
  | script
      {htmlId body value later : List Char}
      {shown : Shown}
      {document final : Document}
      (isElement : htmlId ∈ document.ids)
      (evaluates :
        Evaluates rules (body ++ '\'' :: (closing ++ later)) value
          (closing ++ later))
      (oneLine : ∀ symbol ∈ lineTerminators, symbol ∉ body)
      (staysInside : endsScript body = false)
      (reads : Reads value shown)
      (behind : Executes rules later (document.add (htmlId, shown)) final) :
      Executes rules (statement htmlId body ++ later) document final

variable {rules : EscapeRules}

/-! ## One execution only -/

/-- A literal has one value, and ends at one place. -/
theorem evaluates_unique
    {text value other rest otherRest : List Char}
    (evaluates : Evaluates rules text value rest)
    (otherwise : Evaluates rules text other otherRest) :
    value = other ∧ rest = otherRest := by
  induction evaluates generalizing other otherRest with
  | quote rest =>
      cases otherwise with
      | quote => exact ⟨rfl, rfl⟩
      | plain isPlain _ => exact absurd rfl isPlain.1
  | plain isPlain _ inductionHypothesis =>
      cases otherwise with
      | quote => exact absurd rfl isPlain.1
      | plain _ behind =>
          obtain ⟨rfl, rfl⟩ := inductionHypothesis behind
          exact ⟨rfl, rfl⟩
      | escape _ _ => exact absurd rfl isPlain.2.1
  | escape isEscape _ inductionHypothesis =>
      cases otherwise with
      | plain isPlain _ => exact absurd rfl isPlain.2.1
      | escape isOther behind =>
          rw [isEscape] at isOther
          obtain ⟨rfl, rfl⟩ := Prod.mk.inj (Option.some.inj isOther)
          obtain ⟨rfl, rfl⟩ := inductionHypothesis behind
          exact ⟨rfl, rfl⟩

/-- A command in its tags is not read as text. -/
theorem hasMarkup_cmdTag (inner : List Char) :
    HasMarkup (cmdTag ++ inner) :=
  ⟨'c', Or.inl (by decide), [], ['m', 'd', '>'] ++ inner, rfl⟩

theorem Reads.unique
    {value : List Char}
    {shown other : Shown}
    (reads : Reads value shown)
    (otherwise : Reads value other) :
    shown = other := by
  have noText (inner : List Char) :
      HasMarkup (cmdTag ++ inner ++ cmdEndTag) := by
    rw [List.append_assoc]
    exact hasMarkup_cmdTag _
  generalize isValue : value = read at otherwise
  cases reads with
  | text noMarkup =>
      cases otherwise with
      | text _ => rw [isValue]
      | command _ => exact absurd (isValue ▸ noText _) noMarkup
  | command _ =>
      cases otherwise with
      | text noMarkup => exact absurd (isValue ▸ noText _) noMarkup
      | command _ =>
          have sameInner :=
            List.append_cancel_left (List.append_cancel_right isValue)
          rw [sameInner]

/-- The parts of a script: its id and its literal stand between quotes. -/
theorem statement_parts :
    ∃ lead middle : List Char,
      lead ≠ [] ∧
        ∀ htmlId body later,
          statement htmlId body ++ later =
            lead ++
              (htmlId ++ '\'' ::
                (middle ++ '\'' :: (body ++ '\'' :: (closing ++ later)))) := by
  refine
    ⟨"<script>document.getElementById('".toList, ").innerHTML += ".toList,
      by decide, ?_⟩
  intro htmlId body later
  have quoted :
      "').innerHTML += ".toList = '\'' :: ").innerHTML += ".toList := by
    decide
  unfold statement opening
  rw [quoted]
  generalize "<script>document.getElementById('".toList = lead
  generalize ").innerHTML += ".toList = middle
  simp only [List.append_assoc, List.cons_append]

theorem statement_ne_nil
    (htmlId body later : List Char) :
    statement htmlId body ++ later ≠ [] := by
  obtain ⟨lead, middle, notEmpty, isStatement⟩ := statement_parts
  rw [isStatement]
  exact List.append_ne_nil_of_left_ne_nil notEmpty _

/-- Two texts that are cut at their first `ending` are cut alike. -/
theorem cut_unique
    {ending : Char}
    {first other rest otherRest : List Char}
    (plain : ending ∉ first)
    (otherPlain : ending ∉ other)
    (same : first ++ ending :: rest = other ++ ending :: otherRest) :
    first = other ∧ rest = otherRest := by
  obtain ⟨middle, isFirst, isRest⟩ := append_of_not_mem same otherPlain
  cases middle with
  | nil =>
      exact ⟨by simpa using isFirst, (List.cons.inj isRest).2.symm⟩
  | cons symbol behind =>
      obtain rfl : ending = symbol := (List.cons.inj isRest).1
      exact absurd (isFirst ▸ by simp) plain

/-- What the browser ends with is determined by the scripts. -/
theorem Executes.unique
    {text : List Char}
    {document final other : Document}
    (plainIds : ∀ htmlId ∈ document.ids, '\'' ∉ htmlId)
    (executes : Executes rules text document final)
    (otherwise : Executes rules text document other) :
    final = other := by
  induction executes generalizing other with
  | done document =>
      generalize isText : ([] : List Char) = text at otherwise
      cases otherwise with
      | done => rfl
      | script => exact absurd isText.symm (statement_ne_nil _ _ _)
  | @script htmlId body value later shown document final isElement evaluates _
      _ reads _ inductionHypothesis =>
      generalize isText : statement htmlId body ++ later = text at otherwise
      cases otherwise with
      | done => exact absurd isText (statement_ne_nil _ _ _)
      | @script otherId otherBody _ otherLater _ _ _ isOther evaluatesOther _ _
          readsOther behindOther =>
          obtain ⟨lead, middle, _, isStatement⟩ := statement_parts
          rw [isStatement, isStatement] at isText
          obtain ⟨rfl, sameBehind⟩ :=
            cut_unique (plainIds htmlId isElement) (plainIds otherId isOther)
              (List.append_cancel_left isText)
          have sameText :=
            (List.cons.inj (List.append_cancel_left sameBehind)).2
          rw [sameText] at evaluates
          obtain ⟨rfl, sameRest⟩ := evaluates_unique evaluates evaluatesOther
          obtain rfl := List.append_cancel_left sameRest
          obtain rfl := reads.unique readsOther
          exact inductionHypothesis plainIds behindOther

/-! ## What the console prints -/

/-- A call of `print_output` or `print_command`. -/
inductive Print where
  | output (data : List Char)
  | command (cmd : List Char)
deriving DecidableEq, Repr

namespace Print

/-- What the call writes to `std::cout`. -/
def text
    (htmlId : List Char) :
    Print → List Char
  | .output data => printOutput htmlId data
  | .command cmd => printCommand htmlId cmd

/-- What the call is to add to the element. -/
def shown :
    Print → Shown
  | .output data => .text data
  | .command cmd => .command (cmd ++ ['\n'])

/-- Nothing in the text is taken for something else. -/
def Safe :
    Print → Prop
  | .output data => SafeOutput data
  | .command cmd => SafeCommand cmd ∧ '\n' ∉ cmd ∧ '\r' ∉ cmd

end Print

theorem endsScript_of_noTag
    {text : List Char}
    (noTag : '<' ∉ text) :
    endsScript text = false := by
  induction text with
  | nil =>
      rfl
  | cons symbol rest inductionHypothesis =>
      rw [List.mem_cons, not_or] at noTag
      have notHere : ('<' == symbol) = false := by simpa using noTag.1
      simp [endsScript, List.isPrefixOf, notHere, inductionHypothesis noTag.2]

theorem hasMarkup_cons
    {symbol : Char}
    {rest : List Char}
    (hasMarkup : HasMarkup rest) :
    HasMarkup (symbol :: rest) := by
  obtain ⟨next, isNext, inside⟩ := hasMarkup
  exact ⟨next, isNext, List.infix_cons inside⟩

/-- Text without markup ends no script, and neither does the tag behind it. -/
theorem endsScript_inner
    {inner : List Char}
    (noMarkup : ¬ HasMarkup inner) :
    endsScript (inner ++ cmdEndTag) = false := by
  induction inner with
  | nil =>
      decide
  | cons symbol rest inductionHypothesis =>
      have later := inductionHypothesis (mt hasMarkup_cons noMarkup)
      cases rest with
      | nil =>
          have isEnd : cmdEndTag = ['<', '/', 'c', 'm', 'd', '>'] := rfl
          rw [isEnd] at later ⊢
          simp [endsScript, List.isPrefixOf]
      | cons next behind =>
          have notHere
              {mark : Char}
              (isMark : mark = '/' ∨ mark = '!')
              (others : List Char) :
              ('<' :: mark :: others).isPrefixOf
                  (symbol :: next :: (behind ++ cmdEndTag)) =
                false := by
            rw [Bool.eq_false_iff]
            intro isPrefix
            obtain ⟨_, same⟩ := List.isPrefixOf_iff_prefix.mp isPrefix
            obtain ⟨rfl, sameRest⟩ := List.cons.inj same
            obtain ⟨rfl, _⟩ := List.cons.inj sameRest
            refine noMarkup ⟨mark, ?_, [], behind, rfl⟩
            rcases isMark with rfl | rfl <;> simp
          change endsScript (symbol :: next :: (behind ++ cmdEndTag)) = false
          rw [List.cons_append] at later
          rw [endsScript, notHere (Or.inl rfl), notHere (Or.inr rfl), later]
          rfl

/-- The tag before a command ends no script. -/
theorem endsScript_cmdTag (text : List Char) :
    endsScript (cmdTag ++ text) = endsScript text :=
  rfl

/-! ## The scripts of safe texts -/

/-- The browser executes the script of a safe text as it was meant. -/
theorem Print.Safe.executes
    {print : Print}
    (safe : print.Safe)
    {htmlId later : List Char}
    {document final : Document}
    (isElement : htmlId ∈ document.ids)
    (behind :
      Executes rules later (document.add (htmlId, print.shown)) final) :
    Executes rules (print.text htmlId ++ later) document final := by
  cases print with
  | output data =>
      have shows : ShowsOutput rules data := showsOutput_of_safe safe
      obtain ⟨value, writes, noMarkup, isData⟩ := shows
      obtain ⟨evaluates, oneLine⟩ := writesLiteral_statement_iff.mp writes
      have noTag : '<' ∉ outputBody data := by
        rw [outputBody_eq]
        exact encoded_not_mem (by decide) data
      refine .script isElement (evaluates later) oneLine
        (endsScript_of_noTag noTag) (.text noMarkup) ?_
      rw [isData]
      exact behind
  | command cmd =>
      obtain ⟨safeCommand, noNewline, noReturn⟩ := safe
      have shows : ShowsCommand rules cmd :=
        showsCommand_of_safe noNewline noReturn safeCommand
      obtain ⟨value, inner, writes, isValue, noMarkup, isCommand⟩ := shows
      obtain ⟨evaluates, oneLine⟩ := writesLiteral_statement_iff.mp writes
      have staysInside : endsScript (commandBody cmd) = false := by
        rw [commandBody, List.append_assoc, endsScript_cmdTag]
        exact endsScript_inner fun hasMarkup =>
          safeCommand.noMarkup (hasMarkup_newLineEntity hasMarkup)
      have reads : Reads value (.command (decode inner)) := by
        rw [isValue]
        exact .command noMarkup
      refine .script isElement (evaluates later) oneLine staysInside reads ?_
      rw [isCommand]
      exact behind

/-- All scripts of safe texts are executed, one behind the other. -/
theorem executes_prints
    {prints : List (List Char × Print)}
    {document : Document}
    (safe : ∀ entry ∈ prints, entry.2.Safe)
    (areElements : ∀ entry ∈ prints, entry.1 ∈ document.ids) :
    Executes rules (prints.flatMap fun entry => entry.2.text entry.1) document
      ((prints.map fun entry => (entry.1, entry.2.shown)).foldl Document.add
        document) := by
  induction prints generalizing document with
  | nil =>
      exact .done document
  | cons entry rest inductionHypothesis =>
      obtain ⟨isSafe, areSafe⟩ := List.forall_mem_cons.mp safe
      obtain ⟨isElement, areLater⟩ := List.forall_mem_cons.mp areElements
      rw [List.flatMap_cons]
      exact isSafe.executes isElement (inductionHypothesis areSafe areLater)

/-- An element gets what is added under its id, in order. -/
theorem foldl_add_shown
    (entries : List (List Char × Shown))
    (document : Document)
    (htmlId : List Char) :
    (entries.foldl Document.add document).shown htmlId =
      document.shown htmlId ++
        entries.filterMap fun entry =>
          if entry.1 = htmlId then some entry.2 else none := by
  induction entries generalizing document with
  | nil =>
      simp
  | cons entry rest inductionHypothesis =>
      rw [List.foldl_cons, inductionHypothesis]
      by_cases same : entry.1 = htmlId
      · subst same
        simp [Document.add]
      · have other : htmlId ≠ entry.1 := fun isSame => same isSame.symm
        simp [Document.add, same, other]

/-- The page once all calls that print have been executed. -/
def Document.filled
    (ids : List (List Char))
    (prints : List (List Char × Print)) : Document :=
  (prints.map fun entry => (entry.1, entry.2.shown)).foldl Document.add
    (.blank ids)

/-- The scripts of safe texts are executed in one way. -/
theorem executes_iff_filled
    {ids : List (List Char)}
    (plainIds : ∀ htmlId ∈ ids, '\'' ∉ htmlId)
    {prints : List (List Char × Print)}
    (safe : ∀ entry ∈ prints, entry.2.Safe)
    (areElements : ∀ entry ∈ prints, entry.1 ∈ ids)
    (other : Document) :
    Executes rules (prints.flatMap fun entry => entry.2.text entry.1)
        (.blank ids) other ↔
      other = .filled ids prints := by
  have executes :
      Executes rules (prints.flatMap fun entry => entry.2.text entry.1)
        (.blank ids) (.filled ids prints) :=
    executes_prints safe areElements
  constructor
  · intro otherwise
    exact otherwise.unique plainIds executes
  · rintro rfl
    exact executes

theorem filled_shown
    (ids : List (List Char))
    (prints : List (List Char × Print))
    (htmlId : List Char) :
    (Document.filled ids prints).shown htmlId =
      (prints.map fun entry => (entry.1, entry.2.shown)).filterMap fun entry =>
        if entry.1 = htmlId then some entry.2 else none :=
  foldl_add_shown _ _ htmlId

end NpServers.Console
