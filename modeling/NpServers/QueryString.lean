import Mathlib.Data.List.Basic
import NpServers.CStrings

namespace NpServers.Console

open NpServers.CStrings

/-!
# The query string of the console

The panel submits five triples of host, port and input file, and the panel of
the proxy version one pair more for the SOCKS server.  `parse_query_string` does
not look at the names of the fields.  It counts tokens: a triple without host is
skipped as three tokens, a pair without host as two.

The arrays of the records have fixed sizes.  A copy that does not fit, a token
without `=` and a missing token have no result here.
-/

/-! ## The records -/

/-- `file_dir`. -/
def fileDir : List Char :=
  ['t', 'e', 's', 't', '_', 'c', 'a', 's', 'e', '/']

/-- `max_session_num`, also the size of `list` in `main`. -/
def maxSessionNum : Nat := 5

/-- `client_infor`; its arrays have 100, 10, 20 and 5 elements. -/
structure ClientInfor where
  host : List Char
  port : List Char
  fileName : List Char
  htmlId : List Char
deriving DecidableEq, Repr

/-- The constructor of `client_infor`. -/
def ClientInfor.cleared : ClientInfor where
  host := []
  port := []
  fileName := []
  htmlId := []

/-- `socks_server_infor`; its arrays have 100 and 10 elements. -/
structure SocksServerInfor where
  host : List Char
  port : List Char
  connectProxy : Bool
deriving DecidableEq, Repr

/-- The constructor of `socks_server_infor`. -/
def SocksServerInfor.cleared : SocksServerInfor where
  host := []
  port := []
  connectProxy := false

/-- The array `list` and the number of its elements that are filled. -/
structure Sessions where
  list : List ClientInfor
  sessionCount : Nat
deriving DecidableEq, Repr

/-- The array as `main` declares it. -/
def Sessions.initial : Sessions where
  list := List.replicate maxSessionNum ClientInfor.cleared
  sessionCount := 0

/-! ## The parsers -/

/-- The local array `html_id`. -/
def htmlIds : List (List Char) :=
  [['s', '0'], ['s', '1'], ['s', '2'], ['s', '3'], ['s', '4']]

/-- The copies into `list[session_count]`. -/
def Sessions.fill
    (sessions : Sessions)
    (host port file : List Char) : Option Sessions := do
  let entry ← sessions.list[sessions.sessionCount]?
  let host ← copyInto 100 host
  let port ← copyInto 10 port
  let fileName ← copyInto 20 (entry.fileName ++ fileDir ++ file)
  let htmlId ← htmlIds[sessions.sessionCount]?
  let htmlId ← copyInto 5 htmlId
  some
    { list :=
        sessions.list.set sessions.sessionCount
          { host := host, port := port, fileName := fileName, htmlId := htmlId }
      sessionCount := sessions.sessionCount + 1 }

/-- A pass over one triple that starts at `buf`.  With or without a host, the
next pass starts three tokens later. -/
def parseTriple
    (buf : List Char)
    (rest : List (List Char))
    (sessions : Sessions) : Option Sessions := do
  let host ← behindFirst '=' buf
  if host = [] then
    some sessions
  else
    let portField ← rest[0]?
    let port ← behindFirst '=' portField
    let fileField ← rest[1]?
    let file ← behindFirst '=' fileField
    sessions.fill host port file

/-- A pass over the pair of the SOCKS server. -/
def parsePair
    (buf : List Char)
    (rest : List (List Char))
    (socksServer : SocksServerInfor) : Option SocksServerInfor := do
  let host ← behindFirst '=' buf
  if host = [] then
    some socksServer
  else
    let host ← copyInto 100 host
    let portField ← rest[0]?
    let port ← behindFirst '=' portField
    let port ← copyInto 10 port
    some { host := host, port := port, connectProxy := true }

/-- The loop of the SOCKS console; `count` tells triples from the pair. -/
def parseLoop :
    List (List Char) →
      Nat → Sessions × SocksServerInfor → Option (Sessions × SocksServerInfor)
  | [], _, parsed => some parsed
  | buf :: rest, count, (sessions, socksServer) =>
      if count < 6 then
        match parseTriple buf rest sessions with
        | none => none
        | some sessions =>
            parseLoop (rest.drop 2) (count + 1) (sessions, socksServer)
      else
        match parsePair buf rest socksServer with
        | none => none
        | some socksServer => parseLoop (rest.drop 1) count (sessions, socksServer)
termination_by tokens => tokens.length
decreasing_by
  · simp only [List.length_drop, List.length_cons]
    omega
  · simp only [List.length_drop, List.length_cons]
    omega

/-- `parse_query_string` of the SOCKS console. -/
def parseQueryString
    (queryString : List Char) : Option (Sessions × SocksServerInfor) :=
  parseLoop (tokens (· = '&') queryString) 1
    (Sessions.initial, SocksServerInfor.cleared)

/-- The loop of the console of the batch system. -/
def batchParseLoop : List (List Char) → Sessions → Option Sessions
  | [], sessions => some sessions
  | buf :: rest, sessions =>
      match parseTriple buf rest sessions with
      | none => none
      | some sessions => batchParseLoop (rest.drop 2) sessions
termination_by tokens => tokens.length
decreasing_by
  simp only [List.length_drop, List.length_cons]
  omega

/-- `parse_query_string` of the console of the batch system. -/
def batchParseQueryString (queryString : List Char) : Option Sessions :=
  batchParseLoop (tokens (· = '&') queryString) Sessions.initial

/-! ## The form of the panel -/

/-- A submitted value; it fits an array of the given size. -/
structure FormValue (size : Nat) where
  text : List Char
  noSeparator : '&' ∉ text
  fits : text.length < size

/-- One of the five triples. -/
structure FormRow where
  host : FormValue 100
  port : FormValue 10
  file : FormValue 10

/-- What the user has entered. -/
structure Form where
  rows : List FormRow
  five : rows.length = maxSessionNum
  proxyHost : FormValue 100
  proxyPort : FormValue 10

/-- `name=value`. -/
def field
    (name value : List Char) : List Char :=
  name ++ '=' :: value

/-- `h<i>`, `p<i>` and `f<i>`. -/
def FormRow.fields
    (row : FormRow)
    (index : Nat) : List (List Char) :=
  [field ['h', Nat.digitChar index] row.host.text,
    field ['p', Nat.digitChar index] row.port.text,
    field ['f', Nat.digitChar index] row.file.text]

/-- The fields of the rows. -/
def rowFields
    (rows : List FormRow)
    (index : Nat) : List (List Char) :=
  (rows.zipIdx index).flatMap fun entry => entry.1.fields entry.2

namespace Form

/-- The query of the panel without SOCKS server. -/
def batchQuery (form : Form) : List Char :=
  ['&'].intercalate (rowFields form.rows 0)

/-- The fields `sh` and `sp`. -/
def proxyFields (form : Form) : List (List Char) :=
  [field ['s', 'h'] form.proxyHost.text, field ['s', 'p'] form.proxyPort.text]

/-- The query of the panel with SOCKS server. -/
def query (form : Form) : List Char :=
  ['&'].intercalate (rowFields form.rows 0 ++ form.proxyFields)

/-- The rows that name a host. -/
def filledRows (form : Form) : List FormRow :=
  form.rows.filter fun row => row.host.text ≠ []

/-- The SOCKS server of the form, if it names one. -/
def socksServer (form : Form) : SocksServerInfor :=
  if form.proxyHost.text = [] then
    SocksServerInfor.cleared
  else
    { host := form.proxyHost.text
      port := form.proxyPort.text
      connectProxy := true }

end Form

/-- The record of a row that is the `index`-th one with a host. -/
def FormRow.record
    (index : Nat)
    (row : FormRow) : ClientInfor where
  host := row.host.text
  port := row.port.text
  fileName := fileDir ++ row.file.text
  htmlId := ['s', Nat.digitChar index]

/-- The array with the records of the rows, and nothing behind them. -/
def Sessions.ofRows (rows : List FormRow) : Sessions where
  list :=
    rows.mapIdx FormRow.record ++
      List.replicate (maxSessionNum - rows.length) ClientInfor.cleared
  sessionCount := rows.length

/-! ## The fields as tokens -/

theorem digitChar_ne
    (index : Nat) :
    Nat.digitChar index ≠ '=' ∧ Nat.digitChar index ≠ '&' :=
  ⟨Nat.digitChar_ne '=' (by decide), Nat.digitChar_ne '&' (by decide)⟩

theorem behindFirst_field
    {name : List Char}
    (plainName : '=' ∉ name)
    (value : List Char) :
    behindFirst '=' (field name value) = some value :=
  behindFirst_append plainName value

/-- A field is one token. -/
theorem field_isToken
    {name value : List Char}
    (plainName : '&' ∉ name)
    (plainValue : '&' ∉ value) :
    field name value ≠ [] ∧
      ∀ symbol ∈ field name value, decide (symbol = '&') = false := by
  refine ⟨by simp [field], ?_⟩
  intro symbol member
  have absent : '&' ∉ field name value := by
    simp [field, plainName, plainValue]
  exact decide_eq_false fun same => absent (same ▸ member)

theorem fields_areTokens
    (row : FormRow)
    (index : Nat) :
    ∀ text ∈ row.fields index,
      text ≠ [] ∧ ∀ symbol ∈ text, decide (symbol = '&') = false := by
  have plainDigit := (digitChar_ne index).2.symm
  intro text member
  simp only [FormRow.fields, List.mem_cons, List.not_mem_nil, or_false] at member
  rcases member with rfl | rfl | rfl
  · exact field_isToken (by simp [plainDigit]) row.host.noSeparator
  · exact field_isToken (by simp [plainDigit]) row.port.noSeparator
  · exact field_isToken (by simp [plainDigit]) row.file.noSeparator

theorem rowFields_areTokens
    (rows : List FormRow)
    (index : Nat) :
    ∀ text ∈ rowFields rows index,
      text ≠ [] ∧ ∀ symbol ∈ text, decide (symbol = '&') = false := by
  intro text member
  obtain ⟨entry, _, isField⟩ := List.mem_flatMap.mp member
  exact fields_areTokens entry.1 entry.2 text isField

theorem proxyFields_areTokens
    (form : Form) :
    ∀ text ∈ form.proxyFields,
      text ≠ [] ∧ ∀ symbol ∈ text, decide (symbol = '&') = false := by
  intro text member
  simp only [Form.proxyFields, List.mem_cons, List.not_mem_nil, or_false]
    at member
  rcases member with rfl | rfl
  · exact field_isToken (by decide) form.proxyHost.noSeparator
  · exact field_isToken (by decide) form.proxyPort.noSeparator

/-! ## One triple -/

/-- The copies of a row go to the first element that is not filled. -/
theorem fill_ofRows
    {rows : List FormRow}
    (room : rows.length < maxSessionNum)
    (row : FormRow) :
    (Sessions.ofRows rows).fill row.host.text row.port.text row.file.text =
      some (Sessions.ofRows (rows ++ [row])) := by
  have cells :
      List.replicate (maxSessionNum - rows.length) ClientInfor.cleared =
        ClientInfor.cleared ::
          List.replicate (maxSessionNum - (rows.length + 1))
            ClientInfor.cleared := by
    rw [← List.replicate_succ]
    congr 1
    omega
  have isCleared :
      (Sessions.ofRows rows).list[rows.length]? =
        some ClientInfor.cleared := by
    simp [Sessions.ofRows, cells]
  have named :
      htmlIds[rows.length]? = some ['s', Nat.digitChar rows.length] := by
    have each :
        ∀ index < maxSessionNum,
          htmlIds[index]? = some ['s', Nat.digitChar index] := by
      decide
    exact each rows.length room
  have fileFits :
      (ClientInfor.cleared.fileName ++ fileDir ++ row.file.text).length < 20 := by
    have short := row.file.fits
    simp only [ClientInfor.cleared, fileDir, List.nil_append, List.length_append,
      List.length_cons, List.length_nil]
    omega
  have stored :
      (Sessions.ofRows rows).list.set rows.length (row.record rows.length) =
        (Sessions.ofRows (rows ++ [row])).list := by
    simp [Sessions.ofRows, cells, List.mapIdx_append]
  unfold Sessions.fill
  simp only [show (Sessions.ofRows rows).sessionCount = rows.length from rfl,
    isCleared, named, copyInto_of_fits row.host.fits,
    copyInto_of_fits row.port.fits, copyInto_of_fits fileFits,
    Option.bind_eq_bind, Option.bind_some]
  have idFits : ['s', Nat.digitChar rows.length].length < 5 := by
    simp
  rw [copyInto_of_fits idFits, Option.bind_some, Option.some.injEq]
  refine (congrArg (fun list => Sessions.mk list (rows.length + 1)) stored).trans ?_
  simp [Sessions.ofRows]

/-- A row with a host is appended; one without is skipped. -/
theorem parseTriple_row
    {rows : List FormRow}
    (room : rows.length < maxSessionNum)
    (row : FormRow)
    (index : Nat)
    (tail : List (List Char)) :
    parseTriple
        (field ['h', Nat.digitChar index] row.host.text)
        (field ['p', Nat.digitChar index] row.port.text ::
          field ['f', Nat.digitChar index] row.file.text :: tail)
        (Sessions.ofRows rows) =
      some
        (Sessions.ofRows
          (rows ++ [row].filter fun row => row.host.text ≠ [])) := by
  have plainDigit := (digitChar_ne index).1.symm
  unfold parseTriple
  rw [behindFirst_field (by simp [plainDigit])]
  by_cases isEmpty : row.host.text = []
  · simp [isEmpty]
  · have kept :
        ([row].filter fun row => row.host.text ≠ []) = [row] := by
      simp [isEmpty]
    rw [kept]
    simp only [Option.bind_eq_bind, Option.bind_some, if_neg isEmpty,
      List.getElem?_cons_zero, List.getElem?_cons_succ]
    rw [behindFirst_field (by simp [plainDigit]), Option.bind_some,
      behindFirst_field (by simp [plainDigit]), Option.bind_some]
    exact fill_ofRows room row

/-! ## The loops -/

theorem rowFields_cons
    (row : FormRow)
    (rows : List FormRow)
    (index : Nat) :
    rowFields (row :: rows) index =
      row.fields index ++ rowFields rows (index + 1) := by
  simp [rowFields, List.zipIdx_cons]

/-- The rows that are done, and those that a loop still has to pass. -/
theorem rows_shift
    (earlier rows : List FormRow)
    (row : FormRow) :
    (earlier ++ [row].filter fun row => row.host.text ≠ []) ++
        (rows.filter fun row => row.host.text ≠ []) =
      earlier ++ (row :: rows).filter fun row => row.host.text ≠ [] := by
  rw [List.append_assoc, ← List.filter_append, List.singleton_append]

theorem length_rows_shift
    {earlier rows : List FormRow}
    {row : FormRow}
    (room : earlier.length + (row :: rows).length ≤ maxSessionNum) :
    (earlier ++ [row].filter fun row => row.host.text ≠ []).length +
        rows.length ≤ maxSessionNum := by
  have atMostOne :=
    List.length_filter_le (fun row : FormRow => row.host.text ≠ []) [row]
  simp only [List.length_cons, List.length_nil, List.length_append] at *
  omega

/-- The SOCKS console passes the triples while it counts them. -/
theorem parseLoop_rows
    {rows earlier : List FormRow}
    (room : earlier.length + rows.length ≤ maxSessionNum)
    (index : Nat)
    {count : Nat}
    (counted : count + rows.length ≤ 6)
    (socksServer : SocksServerInfor)
    (tail : List (List Char)) :
    parseLoop (rowFields rows index ++ tail) count
        (Sessions.ofRows earlier, socksServer) =
      parseLoop tail (count + rows.length)
        (Sessions.ofRows
            (earlier ++ rows.filter fun row => row.host.text ≠ []),
          socksServer) := by
  induction rows generalizing earlier index count with
  | nil =>
      simp [rowFields]
  | cons row rows inductionHypothesis =>
      have isTriple : count < 6 := by
        rw [List.length_cons] at counted
        omega
      have roomHere : earlier.length < maxSessionNum := by
        rw [List.length_cons] at room
        omega
      rw [rowFields_cons, FormRow.fields, List.append_assoc]
      simp only [List.cons_append, List.nil_append]
      rw [parseLoop, if_pos isTriple, parseTriple_row roomHere]
      have countedRest : count + 1 + rows.length ≤ 6 := by
        rw [List.length_cons] at counted
        omega
      refine
        (inductionHypothesis (length_rows_shift room) (index + 1)
          countedRest).trans ?_
      rw [rows_shift, List.length_cons, Nat.add_assoc, Nat.add_comm 1]

/-- The console of the batch system passes the triples. -/
theorem batchParseLoop_rows
    {rows earlier : List FormRow}
    (room : earlier.length + rows.length ≤ maxSessionNum)
    (index : Nat) :
    batchParseLoop (rowFields rows index) (Sessions.ofRows earlier) =
      some
        (Sessions.ofRows
          (earlier ++ rows.filter fun row => row.host.text ≠ [])) := by
  induction rows generalizing earlier index with
  | nil =>
      simp [rowFields, batchParseLoop]
  | cons row rows inductionHypothesis =>
      have roomHere : earlier.length < maxSessionNum := by
        rw [List.length_cons] at room
        omega
      rw [rowFields_cons, FormRow.fields]
      simp only [List.cons_append, List.nil_append]
      rw [batchParseLoop, parseTriple_row roomHere]
      refine
        (inductionHypothesis (length_rows_shift room) (index + 1)).trans ?_
      rw [rows_shift]

/-- Behind the triples the SOCKS console takes the pair. -/
theorem parseLoop_proxy
    (form : Form)
    (sessions : Sessions) :
    parseLoop form.proxyFields 6 (sessions, SocksServerInfor.cleared) =
      some (sessions, form.socksServer) := by
  rw [Form.proxyFields, parseLoop, if_neg (by decide)]
  have isParsed :
      parsePair (field ['s', 'h'] form.proxyHost.text)
          [field ['s', 'p'] form.proxyPort.text] SocksServerInfor.cleared =
        some form.socksServer := by
    unfold parsePair Form.socksServer
    rw [behindFirst_field (by decide)]
    by_cases isEmpty : form.proxyHost.text = []
    · simp [isEmpty]
    · simp only [Option.bind_eq_bind, Option.bind_some, if_neg isEmpty,
        copyInto_of_fits form.proxyHost.fits, List.getElem?_cons_zero]
      rw [behindFirst_field (by decide), Option.bind_some,
        copyInto_of_fits form.proxyPort.fits, Option.bind_some]
  rw [isParsed]
  simp [parseLoop]

/-! ## Whole queries -/

theorem ofRows_nil :
    Sessions.ofRows [] = Sessions.initial :=
  rfl

/-- Both consoles recover the form from the query that its panel submits. -/
theorem parseQueryString_recovers
    (form : Form) :
    parseQueryString form.query =
        some (Sessions.ofRows form.filledRows, form.socksServer) ∧
      batchParseQueryString form.batchQuery =
        some (Sessions.ofRows form.filledRows) := by
  have room : ([] : List FormRow).length + form.rows.length ≤ maxSessionNum := by
    rw [form.five]
    decide
  constructor
  · have areTokens :
        ∀ text ∈ rowFields form.rows 0 ++ form.proxyFields,
          text ≠ [] ∧ ∀ symbol ∈ text, decide (symbol = '&') = false := by
      intro text member
      rcases List.mem_append.mp member with inRows | inProxy
      · exact rowFields_areTokens form.rows 0 text inRows
      · exact proxyFields_areTokens form text inProxy
    have counted : 1 + form.rows.length = 6 := by
      rw [form.five]
      rfl
    rw [parseQueryString, Form.query, tokens_intercalate areTokens (by decide),
      ← ofRows_nil, parseLoop_rows room 0 counted.le, counted, List.nil_append]
    exact parseLoop_proxy form _
  · rw [batchParseQueryString, Form.batchQuery,
      tokens_intercalate (rowFields_areTokens form.rows 0) (by decide),
      ← ofRows_nil, batchParseLoop_rows room 0, List.nil_append]
    rfl

end NpServers.Console
