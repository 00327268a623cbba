import NpServers.MarkupTags
import NpServers.QueryString

namespace NpServers.Console

open MarkupTags

/-!
# The page of the console

`set_html_format` prints a table with one column for each session: its host and
port in a header, and an empty `pre` element with the id of the session, which
the scripts printed later fill.  Hosts and ports come from the query string and
are printed as they are, so a `<` in one of them is read as a tag.

What is read back from the page are the texts of the headers and the ids of the
`pre` elements.
-/

/-! ## The printed text -/

/-- The lines before the headers. -/
def pageHead : List String :=
  ["Content-type: text/html\r\n\r\n",
    "<!DOCTYPE html>\n",
    "<html lang=\"en\">\n",
    "  <head>\n",
    "    <meta charset=\"UTF-8\" />\n",
    "    <title>NP Project 3 Sample Console</title>\n",
    "    <link\n",
    "      rel=\"stylesheet\"\n",
    "      href=\"https://cdn.jsdelivr.net/npm/bootstrap@4.5.3/dist/css/bootstrap.min.css\"\n",
    "      integrity=\"sha384-TX8t27EcRE3e/ihU7zmQxVncDAy5uIKz4rEkgIXeMed4M0jlfIDPvg6uqKI2xXr2\"\n",
    "      crossorigin=\"anonymous\"\n",
    "    />\n",
    "    <link\n",
    "      href=\"https://fonts.googleapis.com/css?family=Source+Code+Pro\"\n",
    "      rel=\"stylesheet\"\n",
    "    />\n",
    "    <link\n",
    "      rel=\"icon\"\n",
    "      type=\"image/png\"\n",
    "      href=\"https://cdn0.iconfinder.com/data/icons/small-n-flat/24/678068-terminal-512.png\"\n",
    "    />\n",
    "    <style>\n",
    "      * \x7b\n",
    "        font-family: 'Source Code Pro', monospace;\n",
    "        font-size: 1rem !important;\n",
    "      \x7d\n",
    "     body \x7b\n",
    "       background-color: #212529;\n",
    "     \x7d\n",
    "     pre \x7b\n",
    "       color: #cccccc;\n",
    "     \x7d\n",
    "     cmd \x7b\n",
    "       color: #01b468;\n",
    "      \x7d\n",
    "    </style>\n",
    "  </head>\n",
    "  <body>\n",
    "    <table class=\"table table-dark table-bordered\">\n",
    "      <thead>\n",
    "        <tr>\n"]

/-- `list[i].host << ":" << list[i].port`. -/
def ClientInfor.address (entry : ClientInfor) : List Char :=
  entry.host ++ ':' :: entry.port

/-- The tag of a header. -/
def headerTag : List Char :=
  "th scope=\"col\"".toList

/-- The line of a header. -/
def headerLine (entry : ClientInfor) : List Char :=
  "          <".toList ++ headerTag ++ '>' :: entry.address ++ "</th>\n".toList

/-- The lines between the headers and the cells. -/
def pageMiddle : List String :=
  ["        </tr>\n",
    "      </thead>\n",
    "      <tbody>\n",
    "        <tr>\n"]

/-- The tag of a cell up to its id. -/
def cellTag : List Char :=
  "pre id=\"".toList

/-- The tag of a cell behind its id. -/
def cellTagEnd : List Char :=
  "\" class=\"mb-0\"".toList

/-- The line of a cell. -/
def cellLine (entry : ClientInfor) : List Char :=
  "          <td><".toList ++ (cellTag ++ entry.htmlId ++ cellTagEnd) ++
    "></pre></td>\n".toList

/-- The lines behind the cells. -/
def pageTail : List String :=
  ["        </tr>\n",
    "      </tbody>\n",
    "    </table>\n",
    "  </body>\n",
    "</html>\n"]

/-- `set_html_format`. -/
def setHtmlFormat (sessions : Sessions) : List Char :=
  let shown := sessions.list.take sessions.sessionCount
  pageHead.flatMap String.toList ++ shown.flatMap headerLine ++
    pageMiddle.flatMap String.toList ++ shown.flatMap cellLine ++
    pageTail.flatMap String.toList

/-! ## What is read from the page -/

/-- The text of a header. -/
def headerOf (element : Element) : Option (List Char) :=
  if element.tag = headerTag then some element.text else none

/-- The id of a cell. -/
def cellOf (element : Element) : Option (List Char) :=
  if cellTag.isPrefixOf element.tag then
    some ((element.tag.drop cellTag.length).takeWhile fun symbol => symbol ≠ '"')
  else
    none

/-- The texts of the headers of a page. -/
def pageHeaders (page : List Char) : List (List Char) :=
  (elements page).filterMap headerOf

/-- The ids of the cells of a page. -/
def pageCells (page : List Char) : List (List Char) :=
  (elements page).filterMap cellOf

/-! ## Reading the page line by line -/

/-- The headers and cells read so far, outside of a tag. -/
structure ReadSoFar
    (headers cells : List (List Char))
    (reader : Reader) : Prop where
  inText : reader.inTag = false
  headers : reader.selected headerOf = headers
  cells : reader.selected cellOf = cells

/-- Between two lines, more text adds nothing. -/
structure BetweenLines
    (headers cells : List (List Char))
    (reader : Reader) : Prop extends ReadSoFar headers cells reader where
  noHeader : Ignores headerOf reader.tag
  noCell : Ignores cellOf reader.tag

theorem ignores_headerOf
    {tag : List Char}
    (other : tag ≠ headerTag) :
    Ignores headerOf tag := by
  intro text
  unfold headerOf
  exact if_neg other

theorem ignores_cellOf
    {tag : List Char}
    (other : cellTag.isPrefixOf tag = false) :
    Ignores cellOf tag := by
  intro text
  unfold cellOf
  simp only [other]
  rfl

theorem headerOf_header (text : List Char) :
    headerOf { tag := headerTag, text := text } = some text :=
  if_pos rfl

/-- The id is read back from the tag of a cell. -/
theorem cellOf_cell
    {htmlId : List Char}
    (plain : '"' ∉ htmlId)
    (text : List Char) :
    cellOf { tag := cellTag ++ htmlId ++ cellTagEnd, text := text } =
      some htmlId := by
  have isCell :
      cellTag.isPrefixOf (cellTag ++ htmlId ++ cellTagEnd) = true := by
    rw [List.append_assoc]
    exact List.isPrefixOf_iff_prefix.mpr (List.prefix_append _ _)
  have upToQuote :
      (htmlId ++ cellTagEnd).takeWhile (fun symbol => decide (symbol ≠ '"')) =
        htmlId := by
    have noQuote : ∀ symbol ∈ htmlId, decide (symbol ≠ '"') = true := by
      intro symbol member
      exact decide_eq_true fun isQuote => plain (isQuote ▸ member)
    rw [List.takeWhile_append_of_pos noQuote]
    change htmlId ++ List.takeWhile _ cellTagEnd = htmlId
    have none :
        cellTagEnd.takeWhile (fun symbol => decide (symbol ≠ '"')) = [] := by
      decide
    rw [none, List.append_nil]
  unfold cellOf
  rw [if_pos isCell]
  simp only [List.append_assoc, List.drop_left']
  rw [upToQuote]

variable {headers cells : List (List Char)}
variable {reader : Reader}

/-- A tag and the text behind it add what they select. -/
theorem ReadSoFar.element
    (soFar : ReadSoFar headers cells reader)
    {tag text : List Char}
    (plainTag : '>' ∉ tag)
    (plainText : '<' ∉ text) :
    let next := reader.read ('<' :: tag ++ ['>'] ++ text)
    next.tag = tag ∧
      ReadSoFar (headers ++ (headerOf { tag := tag, text := text }).toList)
        (cells ++ (cellOf { tag := tag, text := text }).toList) next := by
  intro next
  have isNext : next = (reader.behindTag tag).behindText text := by
    change reader.read ('<' :: tag ++ ['>'] ++ text) = _
    rw [Reader.read_append, Reader.read_tag soFar.inText plainTag,
      Reader.read_text rfl plainText]
  rw [isNext]
  exact
    ⟨rfl,
      { inText := rfl
        headers := by rw [Reader.selected_element, soFar.headers]
        cells := by rw [Reader.selected_element, soFar.cells] }⟩

/-- A tag that is neither a header nor a cell adds nothing. -/
theorem ReadSoFar.otherTag
    (soFar : ReadSoFar headers cells reader)
    {tag text : List Char}
    (plainTag : '>' ∉ tag)
    (plainText : '<' ∉ text)
    (notHeader : tag ≠ headerTag)
    (notCell : cellTag.isPrefixOf tag = false) :
    BetweenLines headers cells (reader.read ('<' :: tag ++ ['>'] ++ text)) := by
  obtain ⟨isTag, next⟩ := soFar.element plainTag plainText
  have noHeader := ignores_headerOf notHeader
  have noCell := ignores_cellOf notCell
  rw [noHeader text, noCell text, Option.toList_none, List.append_nil,
    List.append_nil] at next
  exact
    { toReadSoFar := next
      noHeader := by rw [isTag]; exact noHeader
      noCell := by rw [isTag]; exact noCell }

/-- The parts of the line of a header. -/
theorem headerLine_eq (entry : ClientInfor) :
    headerLine entry =
      "          ".toList ++
        (('<' :: headerTag ++ ['>'] ++ entry.address) ++ "</th>\n".toList) := by
  have indented : "          <".toList = "          ".toList ++ ['<'] := by
    decide
  unfold headerLine
  rw [indented]
  simp

namespace BetweenLines

/-- Text between two lines is read as text behind the last tag. -/
theorem text
    (between : BetweenLines headers cells reader)
    {text : List Char}
    (plain : '<' ∉ text) :
    BetweenLines headers cells (reader.read text) := by
  rw [Reader.read_text between.inText plain]
  exact
    { inText := between.inText
      noHeader := between.noHeader
      noCell := between.noCell
      headers :=
        (Reader.selected_behindText between.noHeader text).trans between.headers
      cells :=
        (Reader.selected_behindText between.noCell text).trans between.cells }

/-- A line with one tag that is neither a header nor a cell. -/
theorem tagLine
    (between : BetweenLines headers cells reader)
    {indent tag text : List Char}
    (plainIndent : '<' ∉ indent)
    (plainTag : '>' ∉ tag)
    (plainText : '<' ∉ text)
    (notHeader : tag ≠ headerTag)
    (notCell : cellTag.isPrefixOf tag = false) :
    BetweenLines headers cells
      (reader.read (indent ++ ('<' :: tag ++ ['>'] ++ text))) := by
  rw [Reader.read_append]
  exact (between.text plainIndent).otherTag plainTag plainText notHeader notCell

/-- A header and its line end. -/
theorem headerLine
    (between : BetweenLines headers cells reader)
    {entry : ClientInfor}
    (plain : '<' ∉ entry.address) :
    BetweenLines (headers ++ [entry.address]) cells
      (reader.read (Console.headerLine entry)) := by
  have closed : "</th>\n".toList = '<' :: "/th".toList ++ ['>'] ++ ['\n'] := by
    decide
  have plainIndent : '<' ∉ "          ".toList := by
    decide
  have indented := between.text plainIndent
  have plainTag : '>' ∉ headerTag := by
    decide
  obtain ⟨_, opened⟩ := indented.element plainTag plain
  have noCell :
      cellOf { tag := headerTag, text := entry.address } = none :=
    ignores_cellOf (by decide) _
  rw [headerOf_header, noCell, Option.toList_none, List.append_nil,
    Option.toList_some] at opened
  rw [headerLine_eq, closed, Reader.read_append, Reader.read_append]
  exact opened.otherTag (by decide) (by decide) (by decide) (by decide)

/-- A cell and its line end. -/
theorem cellLine
    (between : BetweenLines headers cells reader)
    {entry : ClientInfor}
    (noQuote : '"' ∉ entry.htmlId)
    (noEnd : '>' ∉ entry.htmlId) :
    BetweenLines headers (cells ++ [entry.htmlId])
      (reader.read (Console.cellLine entry)) := by
  have isLine :
      Console.cellLine entry =
        ("          ".toList ++ ('<' :: "td".toList ++ ['>'] ++ [])) ++
          (('<' :: (cellTag ++ entry.htmlId ++ cellTagEnd) ++ ['>'] ++ []) ++
            (('<' :: "/pre".toList ++ ['>'] ++ []) ++
              ('<' :: "/td".toList ++ ['>'] ++ ['\n']))) := by
    have indented :
        "          <td><".toList =
          "          ".toList ++ ('<' :: "td".toList ++ ['>']) ++ ['<'] := by
      decide
    have closed :
        "></pre></td>\n".toList =
          '>' :: '<' :: "/pre".toList ++ ['>'] ++
            ('<' :: "/td".toList ++ ['>'] ++ ['\n']) := by
      decide
    unfold Console.cellLine
    rw [indented, closed]
    simp
  have plainTag : '>' ∉ cellTag ++ entry.htmlId ++ cellTagEnd := by
    simp only [List.mem_append, not_or]
    exact ⟨⟨by decide, noEnd⟩, by decide⟩
  have noText : '<' ∉ ([] : List Char) :=
    List.not_mem_nil
  have plainIndent : '<' ∉ "          ".toList := by
    decide
  have plainRow : '>' ∉ "td".toList := by
    decide
  have inRow :=
    between.tagLine plainIndent plainRow noText (by decide) (by decide)
  obtain ⟨_, inCell⟩ := inRow.element plainTag noText
  have noHeader :
      headerOf
          { tag := cellTag ++ entry.htmlId ++ cellTagEnd, text := [] } =
        none := by
    apply ignores_headerOf
    intro same
    have isCons : cellTag = 'p' :: cellTag.tail := by decide
    have notHead : headerTag.head? ≠ some 'p' := by decide
    rw [← same, isCons] at notHead
    exact notHead rfl
  rw [cellOf_cell noQuote, noHeader, Option.toList_none, List.append_nil,
    Option.toList_some] at inCell
  have plainEnd : '>' ∉ "/pre".toList := by
    decide
  have behindCell := inCell.otherTag plainEnd noText (by decide) (by decide)
  rw [isLine, Reader.read_append, Reader.read_append, Reader.read_append]
  exact behindCell.otherTag (by decide) (by decide) (by decide) (by decide)

/-- A header whose text goes on with a `<` is complete, but cut short. -/
theorem cutHeader
    (between : BetweenLines headers cells reader)
    {before : List Char}
    (noTag : '<' ∉ before)
    (rest : List Char) :
    headers ++ [before] <+:
      (reader.read
        ("          ".toList ++
          (('<' :: headerTag ++ ['>']) ++
            (before ++ '<' :: rest)))).elements.filterMap headerOf := by
  have plainIndent : '<' ∉ "          ".toList := by
    decide
  have indented := between.text plainIndent
  rw [Reader.read_append, Reader.read_append,
    Reader.read_tag indented.inText (by decide), Reader.read_upToTag rfl noTag]
  refine List.IsPrefix.trans ?_
    ((Reader.elements_prefix _ rest).filterMap headerOf)
  generalize reader.read "          ".toList = opened at *
  let cut : Element := { tag := headerTag, text := before }
  have isCut : [cut].filterMap headerOf = [before] := by
    rw [List.filterMap_cons, headerOf_header]
    rfl
  change
    headers ++ [before] <+:
      ((opened.elements ++ [opened.current]) ++ [cut]).filterMap headerOf
  rw [List.filterMap_append, isCut]
  have sameHeaders :
      opened.selected headerOf ++ [before] = headers ++ [before] :=
    congrArg (· ++ [before]) indented.headers
  exact sameHeaders.symm ▸ List.prefix_refl (headers ++ [before])

/-- The headers of sessions whose hosts and ports have no `<`. -/
theorem headerLines
    {entries : List ClientInfor}
    (plain : ∀ entry ∈ entries, '<' ∉ entry.address)
    {reader : Reader}
    {headers : List (List Char)}
    (between : BetweenLines headers cells reader) :
    BetweenLines (headers ++ entries.map ClientInfor.address) cells
      (reader.read (entries.flatMap Console.headerLine)) := by
  induction entries generalizing reader headers with
  | nil =>
      simpa using between
  | cons entry rest inductionHypothesis =>
      obtain ⟨here, later⟩ := List.forall_mem_cons.mp plain
      have next := inductionHypothesis later (between.headerLine here)
      rw [List.flatMap_cons, Reader.read_append, List.map_cons]
      simpa using next

/-- The cells of sessions with plain ids. -/
theorem cellLines
    {entries : List ClientInfor}
    (plain : ∀ entry ∈ entries, '"' ∉ entry.htmlId ∧ '>' ∉ entry.htmlId)
    {reader : Reader}
    {cells : List (List Char)}
    (between : BetweenLines headers cells reader) :
    BetweenLines headers (cells ++ entries.map ClientInfor.htmlId)
      (reader.read (entries.flatMap Console.cellLine)) := by
  induction entries generalizing reader cells with
  | nil =>
      simpa using between
  | cons entry rest inductionHypothesis =>
      obtain ⟨here, later⟩ := List.forall_mem_cons.mp plain
      have next := inductionHypothesis later (between.cellLine here.1 here.2)
      rw [List.flatMap_cons, Reader.read_append, List.map_cons]
      simpa using next

theorem middle (between : BetweenLines headers cells reader) :
    BetweenLines headers cells
      (reader.read (pageMiddle.flatMap String.toList)) := by
  have isMiddle :
      pageMiddle.flatMap String.toList =
        ("        ".toList ++ ('<' :: "/tr".toList ++ ['>'] ++ ['\n'])) ++
          (("      ".toList ++ ('<' :: "/thead".toList ++ ['>'] ++ ['\n'])) ++
            (("      ".toList ++ ('<' :: "tbody".toList ++ ['>'] ++ ['\n'])) ++
              ("        ".toList ++
                ('<' :: "tr".toList ++ ['>'] ++ ['\n'])))) := by
    decide
  rw [isMiddle, Reader.read_append, Reader.read_append, Reader.read_append]
  apply tagLine _ (by decide) (by decide) (by decide) (by decide) (by decide)
  apply tagLine _ (by decide) (by decide) (by decide) (by decide) (by decide)
  apply tagLine _ (by decide) (by decide) (by decide) (by decide) (by decide)
  exact between.tagLine (by decide) (by decide) (by decide) (by decide)
    (by decide)

theorem tail (between : BetweenLines headers cells reader) :
    BetweenLines headers cells
      (reader.read (pageTail.flatMap String.toList)) := by
  have isTail :
      pageTail.flatMap String.toList =
        ("        ".toList ++ ('<' :: "/tr".toList ++ ['>'] ++ ['\n'])) ++
          (("      ".toList ++ ('<' :: "/tbody".toList ++ ['>'] ++ ['\n'])) ++
            (("    ".toList ++ ('<' :: "/table".toList ++ ['>'] ++ ['\n'])) ++
              (("  ".toList ++ ('<' :: "/body".toList ++ ['>'] ++ ['\n'])) ++
                ([] ++ ('<' :: "/html".toList ++ ['>'] ++ ['\n']))))) := by
    decide
  rw [isTail, Reader.read_append, Reader.read_append, Reader.read_append,
    Reader.read_append]
  apply tagLine _ (by decide) (by decide) (by decide) (by decide) (by decide)
  apply tagLine _ (by decide) (by decide) (by decide) (by decide) (by decide)
  apply tagLine _ (by decide) (by decide) (by decide) (by decide) (by decide)
  apply tagLine _ (by decide) (by decide) (by decide) (by decide) (by decide)
  exact between.tagLine (by decide) (by decide) (by decide) (by decide)
    (by decide)

end BetweenLines

/-- What is read of the lines before the headers. -/
theorem read_pageHead :
    let reader := Reader.start.read (pageHead.flatMap String.toList)
    reader.inTag = false ∧ reader.tag = "tr".toList ∧
      reader.selected headerOf = [] ∧ reader.selected cellOf = [] := by
  decide +kernel

theorem betweenLines_head :
    BetweenLines [] []
      (Reader.start.read (pageHead.flatMap String.toList)) := by
  obtain ⟨inText, isTag, headers, cells⟩ := read_pageHead
  exact
    { inText := inText
      headers := headers
      cells := cells
      noHeader := by rw [isTag]; exact ignores_headerOf (by decide)
      noCell := by rw [isTag]; exact ignores_cellOf (by decide) }

/-! ## The page of the sessions of a form -/

/-- The header of a row. -/
def FormRow.address (row : FormRow) : List Char :=
  row.host.text ++ ':' :: row.port.text

theorem take_ofRows (rows : List FormRow) :
    (Sessions.ofRows rows).list.take (Sessions.ofRows rows).sessionCount =
      rows.mapIdx FormRow.record :=
  List.take_left' (List.length_mapIdx ..)

theorem addresses_ofRows (rows : List FormRow) :
    (rows.mapIdx FormRow.record).map ClientInfor.address =
      rows.map FormRow.address := by
  apply List.ext_getElem
  · simp
  · intro index _ _
    simp [FormRow.record, ClientInfor.address, FormRow.address]

/-- The ids are the first entries of the table in `parse_query_string`. -/
theorem htmlIds_ofRows
    {rows : List FormRow}
    (fits : rows.length ≤ maxSessionNum) :
    (rows.mapIdx FormRow.record).map ClientInfor.htmlId =
      htmlIds.take rows.length := by
  have isId :
      ∀ position : Fin 5,
        ['s', Nat.digitChar position] = htmlIds[position.val] := by
    decide
  apply List.ext_getElem
  · simpa [htmlIds, maxSessionNum] using (Nat.min_eq_left fits).symm
  · intro index inside _
    rw [List.length_map, List.length_mapIdx] at inside
    have bound : index < 5 := Nat.lt_of_lt_of_le inside fits
    simpa [FormRow.record] using isId ⟨index, bound⟩

theorem setHtmlFormat_eq
    {sessions : Sessions}
    {entries : List ClientInfor}
    (isShown : sessions.list.take sessions.sessionCount = entries) :
    setHtmlFormat sessions =
      pageHead.flatMap String.toList ++ entries.flatMap headerLine ++
        pageMiddle.flatMap String.toList ++ entries.flatMap cellLine ++
        pageTail.flatMap String.toList := by
  rw [← isShown]
  rfl

/-- The page read as a whole, when no host and no port has a `<`. -/
theorem page_readsBack
    {sessions : Sessions}
    {entries : List ClientInfor}
    (isShown : sessions.list.take sessions.sessionCount = entries)
    (plainAddress : ∀ entry ∈ entries, '<' ∉ entry.address)
    (plainId : ∀ entry ∈ entries, '"' ∉ entry.htmlId ∧ '>' ∉ entry.htmlId) :
    pageHeaders (setHtmlFormat sessions) = entries.map ClientInfor.address ∧
      pageCells (setHtmlFormat sessions) = entries.map ClientInfor.htmlId := by
  have between :=
    (((betweenLines_head.headerLines plainAddress).middle.cellLines
      plainId).tail)
  have isPage :
      Reader.start.read (setHtmlFormat sessions) =
        ((((Reader.start.read (pageHead.flatMap String.toList)).read
          (entries.flatMap headerLine)).read
            (pageMiddle.flatMap String.toList)).read
              (entries.flatMap cellLine)).read
                (pageTail.flatMap String.toList) := by
    rw [setHtmlFormat_eq isShown]
    simp only [Reader.read_append]
  rw [← isPage] at between
  unfold pageHeaders pageCells elements
  simp only [between.inText, Bool.false_eq_true, if_false]
  exact ⟨between.headers, between.cells⟩

/-- A host or port with a `<` cuts its header short. -/
theorem header_cut
    {earlier later : List ClientInfor}
    {entry : ClientInfor}
    {sessions : Sessions}
    (isShown :
      sessions.list.take sessions.sessionCount = earlier ++ entry :: later)
    (plain : ∀ entry ∈ earlier, '<' ∉ entry.address)
    (hasTag : '<' ∈ entry.address) :
    ∃ before,
      '<' ∉ before ∧
        earlier.map ClientInfor.address ++ [before] <+:
          pageHeaders (setHtmlFormat sessions) := by
  obtain ⟨before, behind, isAddress, noTag⟩ := List.eq_append_cons_of_mem hasTag
  refine ⟨before, noTag, ?_⟩
  obtain ⟨rest, isText⟩ :
      ∃ rest,
        setHtmlFormat sessions =
          pageHead.flatMap String.toList ++
            (earlier.flatMap headerLine ++
              ("          ".toList ++
                (('<' :: headerTag ++ ['>']) ++ (before ++ '<' :: rest)))) := by
    refine
      ⟨behind ++ "</th>\n".toList ++ later.flatMap headerLine ++
          pageMiddle.flatMap String.toList ++
          (earlier ++ entry :: later).flatMap cellLine ++
          pageTail.flatMap String.toList, ?_⟩
    rw [setHtmlFormat_eq isShown, List.flatMap_append, List.flatMap_cons,
      headerLine_eq entry, isAddress]
    generalize pageHead.flatMap String.toList = head
    generalize pageMiddle.flatMap String.toList = middle
    generalize pageTail.flatMap String.toList = tail
    simp only [List.append_assoc, List.cons_append, List.nil_append]
  have cut := (betweenLines_head.headerLines plain).cutHeader noTag rest
  rw [← Reader.read_append, ← Reader.read_append, ← isText, List.nil_append]
    at cut
  unfold pageHeaders elements
  rw [List.filterMap_append]
  exact cut.trans (List.prefix_append _ _)

/--
The page of a form's sessions is read back, header by header and cell by cell,
exactly when no host and no port of a session has a `<`.
-/
theorem page_readsBack_iff
    {rows : List FormRow}
    (fits : rows.length ≤ maxSessionNum) :
    pageHeaders (setHtmlFormat (Sessions.ofRows rows)) =
          rows.map FormRow.address ∧
        pageCells (setHtmlFormat (Sessions.ofRows rows)) =
          htmlIds.take rows.length ↔
      ∀ row ∈ rows, '<' ∉ row.address := by
  have isShown := take_ofRows rows
  have addresses := addresses_ofRows rows
  have ids := htmlIds_ofRows fits
  constructor
  · rintro ⟨isHeaders, _⟩
    by_contra notPlain
    push Not at notPlain
    obtain ⟨row, member, rowTag⟩ := notPlain
    have inEntries : row.address ∈ (rows.mapIdx FormRow.record).map
        ClientInfor.address := by
      rw [addresses]
      exact List.mem_map_of_mem member
    obtain ⟨entry, isEntry, sameAddress⟩ := List.mem_map.mp inEntries
    have search :
        ((rows.mapIdx FormRow.record).find? fun entry : ClientInfor =>
          decide ('<' ∈ entry.address)).isSome = true :=
      List.find?_isSome.mpr
        ⟨entry, isEntry, decide_eq_true (sameAddress ▸ rowTag)⟩
    obtain ⟨first, found⟩ := Option.isSome_iff_exists.mp search
    obtain ⟨hasTag, earlier, later, split, plain⟩ :=
      List.find?_eq_some_iff_append.mp found
    obtain ⟨before, noTag, cut⟩ :=
      header_cut (isShown.trans split)
        (fun entry member => by simpa using plain entry member)
        (of_decide_eq_true hasTag)
    rw [isHeaders, ← addresses, split, List.map_append, List.map_cons] at cut
    have sameCut : before = first.address := by
      have isPrefix := (List.prefix_append_right_inj _).mp cut
      exact (List.cons_prefix_cons.mp isPrefix).1
    exact noTag (sameCut ▸ of_decide_eq_true hasTag)
  · intro plain
    have plainAddress :
        ∀ entry ∈ rows.mapIdx FormRow.record, '<' ∉ entry.address := by
      intro entry member
      have inRows := List.mem_map_of_mem (f := ClientInfor.address) member
      rw [addresses] at inRows
      obtain ⟨row, isRow, sameAddress⟩ := List.mem_map.mp inRows
      exact sameAddress ▸ plain row isRow
    have plainId :
        ∀ entry ∈ rows.mapIdx FormRow.record,
          '"' ∉ entry.htmlId ∧ '>' ∉ entry.htmlId := by
      have plainIds : ∀ htmlId ∈ htmlIds, '"' ∉ htmlId ∧ '>' ∉ htmlId := by
        decide
      intro entry member
      have inIds := List.mem_map_of_mem (f := ClientInfor.htmlId) member
      rw [ids] at inIds
      exact plainIds _ (List.mem_of_mem_take inIds)
    rw [← addresses, ← ids]
    exact page_readsBack isShown plainAddress plainId

end NpServers.Console
