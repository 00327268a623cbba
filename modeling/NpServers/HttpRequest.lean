import NpServers.HttpSessions

namespace NpServers.Http

open NpServers.CStrings

/-!
# Requests and the variables they set

A request of HTTP/1 ends its lines with CR and LF.  The handler of the read cuts
it at spaces and LF only, so a word in front of a line end keeps the CR: the
protocol always, and the host if its header is the first one.  The query ends at
the next `?`.
-/

/-! ## Well-formed requests -/

/-- No space, no line end, and no end of a string. -/
def Plain (text : List Char) : Prop :=
  ∀ symbol ∈ text, symbol ∉ [' ', '\r', '\n', Char.ofNat 0]

instance (text : List Char) : Decidable (Plain text) :=
  inferInstanceAs (Decidable (∀ symbol ∈ text, _))

/-- No line end and no end of a string. -/
def OneLine (text : List Char) : Prop :=
  ∀ symbol ∈ text, symbol ∉ ['\r', '\n', Char.ofNat 0]

instance (text : List Char) : Decidable (OneLine text) :=
  inferInstanceAs (Decidable (∀ symbol ∈ text, _))

/-- The end of a line. -/
def lineEnd : List Char := ['\r', '\n']

/-- `METHOD path?query HTTP/1.x`, the headers, and what follows them. -/
structure Request where
  method : List Char
  path : List Char
  query : List Char
  minor : Char
  headers : List (List Char)
  body : List Char
  isMethod : method ≠ [] ∧ Plain method
  isPath : path.head? = some '/' ∧ Plain path ∧ '?' ∉ path
  isQuery : Plain query
  isMinor : minor.isDigit = true
  areHeaders : ∀ header ∈ headers, OneLine header

namespace Request

/-- The target of the request line. -/
def target (request : Request) : List Char :=
  request.path ++ '?' :: request.query

/-- `HTTP/1.x`. -/
def protocol (request : Request) : List Char :=
  "HTTP/1.".toList ++ [request.minor]

/-- What stands behind the request line. -/
def afterLine (request : Request) : List Char :=
  request.headers.flatMap (· ++ lineEnd) ++ lineEnd ++ request.body

/-- The request as it is received. -/
def text (request : Request) : List Char :=
  request.method ++ ' ' ::
    (request.target ++ ' ' ::
      ((request.protocol ++ ['\r']) ++ '\n' :: request.afterLine))

/-- One of the headers is `Host: host`. -/
def HasHost
    (request : Request)
    (host : List Char) : Prop :=
  "Host: ".toList ++ host ∈ request.headers

end Request

/-- A session is accepted, its request is read, and it forks its program. -/
def Serves
    (start : HttpServer)
    (id : Nat)
    (endpoints : Endpoints)
    (text : List Char)
    (fork : Fork) : Prop :=
  ∃ accepted hasRead served : HttpServer,
    start.Step (.accept id endpoints) accepted ∧
      accepted.Step (.readDone id text) hasRead ∧
      hasRead.Step (.writeDone id) served ∧
      served.forks = start.forks ++ [fork]

/-- The program of the request gets its fields. -/
structure FieldsReach
    (request : Request)
    (host : List Char)
    (fork : Fork) : Prop where
  requestMethod : fork.environment.requestMethod = some request.method
  requestUri : fork.environment.requestUri = some request.target
  serverProtocol : fork.environment.serverProtocol = some request.protocol
  httpHost : fork.environment.httpHost = some host
  queryString : fork.environment.queryString = some request.query
  execFile : fork.execFile = '.' :: request.path

/-! ## The words of a request -/

section Split

variable {isDelimiter : Char → Bool}

/-- The first part ends at the first delimiter. -/
theorem split_append
    {part : List Char}
    (noDelimiter : ∀ symbol ∈ part, isDelimiter symbol = false)
    {symbol : Char}
    (delimits : isDelimiter symbol = true)
    (rest : List Char) :
    split isDelimiter (part ++ symbol :: rest) =
      part :: split isDelimiter rest := by
  induction part with
  | nil =>
      rw [List.nil_append, split, if_pos delimits]
  | cons first others inductionHypothesis =>
      have plain := noDelimiter first List.mem_cons_self
      have later :=
        inductionHypothesis fun other member =>
          noDelimiter other (List.mem_cons_of_mem _ member)
      rw [List.cons_append, split, if_neg (by simp [plain]), later]

end Split

/-- The delimiters of the handler. -/
theorem Plain.not_delimiter
    {text : List Char}
    (plain : Plain text)
    {symbol : Char}
    (member : symbol ∈ text) :
    decide (symbol = ' ' ∨ symbol = '\n') = false := by
  have absent := plain symbol member
  simp only [List.mem_cons, List.not_mem_nil, or_false, not_or] at absent
  simp [absent.1, absent.2.2.1]

namespace Request

variable (request : Request)

theorem plain_target : Plain request.target := by
  intro symbol member
  rcases List.mem_append.mp member with inPath | inQuery
  · exact request.isPath.2.1 symbol inPath
  · rcases List.mem_cons.mp inQuery with rfl | inQuery
    · decide
    · exact request.isQuery symbol inQuery

theorem minor_plain : Plain [request.minor] := by
  intro symbol member
  have isDigit := request.isMinor
  rw [List.mem_singleton.mp member]
  intro special
  simp only [List.mem_cons, List.not_mem_nil, or_false] at special
  rcases special with same | same | same | same <;>
    (rw [same] at isDigit; exact absurd isDigit (by decide))

theorem plain_protocol : Plain request.protocol := by
  intro symbol member
  rcases List.mem_append.mp member with inName | isMinor
  · have allPlain : Plain "HTTP/1.".toList := by decide
    exact allPlain symbol inName
  · exact request.minor_plain symbol isMinor

/-- The protocol keeps the CR in front of the line end. -/
theorem words_protocol
    {words : RequestWords}
    (isParsed : parseRequest request.text = some words) :
    words.method = request.method ∧ words.uri = request.target ∧
      words.protocol = request.protocol ++ ['\r'] := by
  have notNul (text : List Char) (plain : Plain text) :
      ∀ symbol ∈ text, decide (symbol ≠ Char.ofNat 0) = true := by
    intro symbol member
    have absent := plain symbol member
    simp only [List.mem_cons, List.not_mem_nil, or_false, not_or] at absent
    exact decide_eq_true absent.2.2.2
  obtain ⟨rest, isPrefix⟩ :
      ∃ rest,
        request.text.takeWhile (fun symbol => symbol ≠ Char.ofNat 0) =
          request.method ++ ' ' ::
            (request.target ++ ' ' ::
              ((request.protocol ++ ['\r']) ++ '\n' :: rest)) := by
    refine ⟨request.afterLine.takeWhile fun symbol => symbol ≠ Char.ofNat 0,
      ?_⟩
    unfold text
    rw [List.takeWhile_append_of_pos (notNul _ request.isMethod.2),
      List.takeWhile_cons_of_pos (by decide),
      List.takeWhile_append_of_pos (notNul _ request.plain_target),
      List.takeWhile_cons_of_pos (by decide), List.append_assoc,
      List.takeWhile_append_of_pos (notNul _ request.plain_protocol),
      List.singleton_append, List.takeWhile_cons_of_pos (by decide),
      List.takeWhile_cons_of_pos (by decide), List.append_assoc]
    rfl
  have delimits (symbol : Char) (isOne : symbol = ' ' ∨ symbol = '\n') :
      decide (symbol = ' ' ∨ symbol = '\n') = true :=
    decide_eq_true isOne
  have noDelimiter :
      ∀ symbol ∈ request.protocol ++ ['\r'],
        decide (symbol = ' ' ∨ symbol = '\n') = false := by
    intro symbol member
    rcases List.mem_append.mp member with inProtocol | isReturn
    · exact request.plain_protocol.not_delimiter inProtocol
    · rw [List.mem_singleton.mp isReturn]
      decide
  have isSplit :
      split (fun symbol => symbol = ' ' ∨ symbol = '\n')
          (request.text.takeWhile fun symbol => symbol ≠ Char.ofNat 0) =
        request.method :: request.target :: (request.protocol ++ ['\r']) ::
          split (fun symbol => symbol = ' ' ∨ symbol = '\n') rest := by
    rw [isPrefix,
      split_append (fun _ => request.isMethod.2.not_delimiter)
        (delimits ' ' (Or.inl rfl)),
      split_append (fun _ => request.plain_target.not_delimiter)
        (delimits ' ' (Or.inl rfl)),
      split_append noDelimiter (delimits '\n' (Or.inr rfl))]
  unfold parseRequest at isParsed
  simp only [Option.bind_eq_bind, Option.bind_eq_some_iff] at isParsed
  obtain ⟨buffered, isBuffered, method, isMethod, uri, isUri, copied,
    isCopied, protocol, isProtocol, hostWord, isHost, isWords⟩ := isParsed
  rw [bufferString_eq isBuffered, isSplit] at isMethod isUri isProtocol
  obtain rfl := Option.some.inj isMethod
  obtain rfl := Option.some.inj isUri
  obtain rfl := Option.some.inj isProtocol
  obtain rfl := copyInto_eq isCopied
  obtain rfl := Option.some.inj isWords
  exact ⟨rfl, rfl, rfl⟩

/-- The words of the target in front of and behind the first `?`. -/
theorem tokens_target :
    tokens (fun symbol => decide (symbol = '?')) request.target =
      request.path :: tokens (fun symbol => decide (symbol = '?')) request.query := by
  have nonempty : request.path ≠ [] := by
    intro isNil
    have isSlash := request.isPath.1
    rw [isNil] at isSlash
    cases isSlash
  have noMark :
      ∀ symbol ∈ request.path, decide (symbol = '?') = false := by
    intro symbol member
    refine decide_eq_false ?_
    rintro rfl
    exact request.isPath.2.2 member
  exact tokens_word_append nonempty noMark (by decide) request.query

/-- The query reaches `QUERY_STRING` if and only if it is there and contains no
`?` of its own. -/
theorem queryString_iff :
    queryString request.target = some request.query ↔
      request.query ≠ [] ∧ '?' ∉ request.query := by
  unfold queryString
  rw [request.tokens_target, List.getElem?_cons_succ]
  constructor
  · intro isQuery
    have member := List.mem_of_getElem? isQuery
    obtain ⟨nonempty, noMark⟩ := mem_tokens member
    refine ⟨nonempty, ?_⟩
    intro inQuery
    exact absurd (noMark '?' inQuery) (by decide)
  · rintro ⟨nonempty, noMark⟩
    have noDelimiter :
        ∀ symbol ∈ request.query, decide (symbol = '?') = false := by
      intro symbol member
      refine decide_eq_false ?_
      rintro rfl
      exact noMark member
    rw [tokens_word nonempty noDelimiter]
    rfl

/-- `exec_file` is `.` and the path. -/
theorem execFile_eq
    {file : List Char}
    (isFile : execFile request.target = some file) :
    file = '.' :: request.path := by
  unfold execFile at isFile
  rw [request.tokens_target] at isFile
  exact copyInto_eq isFile

end Request

/-! ## The variables of the program -/

/-- What the program of a request gets: the method, the target and the path
unchanged, the protocol with the CR behind it, and the first word of the query. -/
theorem Serves.fields
    {start : HttpServer}
    {id : Nat}
    {endpoints : Endpoints}
    {request : Request}
    {fork : Fork}
    (serves : Serves start id endpoints request.text fork) :
    fork.environment.requestMethod = some request.method ∧
      fork.environment.requestUri = some request.target ∧
      fork.environment.serverProtocol = some (request.protocol ++ ['\r']) ∧
      fork.environment.queryString = queryString request.target ∧
      fork.execFile = '.' :: request.path := by
  obtain ⟨accepted, hasRead, served, ⟨-, rfl⟩,
    ⟨session, words, isSession, -, isParsed, rfl⟩,
    ⟨writer, file, query, isWriter, -, isFile, isQuery, rfl⟩, isFork⟩ := serves
  obtain ⟨sameMethod, sameUri, sameProtocol⟩ := request.words_protocol isParsed
  simp only [HttpServer.handleRead, Function.update_self] at isWriter
  obtain rfl := Option.some.inj isWriter
  rw [sameUri] at isFile isQuery
  obtain rfl := (List.cons.inj (List.append_cancel_left isFork)).1
  refine ⟨?_, ?_, ?_, isQuery.symm, request.execFile_eq isFile⟩
  · exact congrArg some sameMethod
  · exact congrArg some sameUri
  · exact congrArg some sameProtocol

/-- No request gets all its fields to its program: the protocol never arrives
without the CR that ends its line. -/
theorem requestFields_never
    (request : Request)
    (host : List Char)
    (start : HttpServer)
    (id : Nat)
    (endpoints : Endpoints) :
    ¬ ∃ fork,
      Serves start id endpoints request.text fork ∧
        FieldsReach request host fork := by
  rintro ⟨fork, serves, reach⟩
  have arrived := serves.fields.2.2.1
  rw [reach.serverProtocol] at arrived
  have sameLength := congrArg List.length (Option.some.inj arrived)
  simp at sameLength

/-- A request line and one header. -/
def shortRequest : Request where
  method := "GET".toList
  path := "/panel.cgi".toList
  query := "a=b".toList
  minor := '1'
  headers := ["Host: np".toList]
  body := []
  isMethod := by decide
  isPath := by decide
  isQuery := by decide
  isMinor := by decide
  areHeaders := by decide

/-- The words of the short request. -/
def shortWords : RequestWords where
  method := "GET".toList
  uri := "/panel.cgi?a=b".toList
  protocol := "HTTP/1.1\r".toList
  host := "np\r".toList

/-- The server before the short request. -/
def idleServer : HttpServer :=
  HttpServer.start
    ⟨none, none, none, none, none, none, none, none, none⟩

/-- The short request is served, and its program gets the protocol and the host
with a CR behind each. -/
theorem shortRequest_keeps_returns :
    shortRequest.text.length < 1024 ∧ shortRequest.HasHost "np".toList ∧
      ∃ fork,
        Serves idleServer 0 ⟨[], [], [], []⟩ shortRequest.text fork ∧
          fork.environment.serverProtocol = some "HTTP/1.1\r".toList ∧
          fork.environment.httpHost = some "np\r".toList ∧
          ¬ FieldsReach shortRequest "np".toList fork := by
  have isParsed : parseRequest shortRequest.text = some shortWords := by
    decide +kernel
  have isQuery :
      queryString shortWords.uri = some shortRequest.query :=
    shortRequest.queryString_iff.mpr (by decide)
  have isFile :
      execFile shortWords.uri = some ('.' :: shortRequest.path) := by
    have words := shortRequest.tokens_target
    unfold execFile
    rw [show shortWords.uri = shortRequest.target from rfl, words]
    rfl
  let reader : Session :=
    { endpoints := ⟨[], [], [], []⟩
      request := []
      requestUri := []
      phase := .reading }
  let writer : Session :=
    { reader with
      request := shortRequest.text
      requestUri := shortWords.uri
      phase := .writing }
  let accepted := idleServer.accept 0 reader.endpoints
  let hasRead := accepted.handleRead 0 reader shortRequest.text shortWords
  have isReader : accepted.sessions 0 = some reader := by
    simp [accepted, HttpServer.accept, reader]
  have isWriter : hasRead.sessions 0 = some writer := by
    simp [hasRead, HttpServer.handleRead, writer]
  refine ⟨by decide +kernel, List.mem_singleton.mpr rfl, _,
    ⟨accepted, hasRead, _, ⟨rfl, rfl⟩,
      ⟨reader, shortWords, isReader, rfl, isParsed, rfl⟩,
      ⟨writer, _, _, isWriter, rfl, isFile, isQuery, rfl⟩, rfl⟩,
    rfl, rfl, ?_⟩
  intro reach
  have arrived :
      some "HTTP/1.1\r".toList = some shortRequest.protocol :=
    reach.serverProtocol
  exact absurd arrived (by decide)

end NpServers.Http
