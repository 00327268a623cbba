import NpServers.ConsoleClient

namespace NpServers.Console

open NpServers.CStrings

/-!
# The console behind a proxy

With a SOCKS server in between, the first thing that a client reads is the reply
of the server.  `receive_socks4_reply` takes one read for it, whatever the read
contains, and `start_read` takes everything behind that read for output of the
shell.  So it depends on how the stream is cut whether the client shows what the
shell has printed.
-/

/-! ## The source functions -/

namespace Client

/-- A client that has sent its request to the proxy. -/
def startProxy (lines : List (List Char)) : Client :=
  { start lines with phase := .replying }

/-- `handle_receive_socks4` without an error; `socks4_reply` was cleared. -/
def handleReceiveSocks4
    (chunk : List Char)
    (client : Client) : Client :=
  if chunk.getD 1 nul = Char.ofNat 90 then
    { client with phase := .reading }
  else
    client.stop

/-- A read, and the write that it starts. -/
def feed
    (client : Client)
    (chunk : List Char) : Client :=
  match client.phase with
  | .replying => client.handleReceiveSocks4 chunk
  | .reading =>
      let next := client.handleRead chunk
      if next.phase = .writing then next.handleWrite else next
  | _ => client

/-- Reads one after the other. -/
def feedAll
    (client : Client)
    (reads : List (List Char)) : Client :=
  reads.foldl feed client

end Client

/-! ## Streams and their cuts -/

/-- The reply of a SOCKS server that grants the request. -/
structure SocksReply where
  bytes : List Char
  eight : bytes.length = 8
  granted : bytes[1]? = some (Char.ofNat 90)

/-- The reads so far are a cut of what is received of the reply and the data. -/
structure Cutting
    (reply : SocksReply)
    (data : List Char)
    (reads : List (List Char)) : Prop where
  noNul : nul ∉ data
  received : reads.flatten <+: reply.bytes ++ data
  nonempty : ∀ read ∈ reads, read ≠ []
  fits : ∀ read ∈ reads, read.length ≤ maxLength

/-- At every moment the client has shown the data that it has received. -/
def ShowsReceived
    (lines reads : List (List Char)) : Prop :=
  ∀ before, before <+: reads →
    ((Client.startProxy lines).feedAll before).shown = before.flatten.drop 8

/--
A read that starts with `missing` bytes of the reply.  A string that ends inside
of them has to be what the read has of the data.
-/
def CleanRead
    (missing : Nat)
    (read : List Char) : Prop :=
  if missing = 0 then
    read.length < maxLength
  else
    nul ∈ read.take missing ∧
      ((read.take missing).takeWhile fun symbol => symbol ≠ nul) =
        read.drop missing

/-- All reads behind the first one are clean. -/
def CleanReads : Nat → List (List Char) → Prop
  | _, [] => True
  | missing, read :: rest =>
      CleanRead missing read ∧ CleanReads (missing - read.length) rest

/--
The first read ends with the reply or before, and the others are clean.  With a
first read of one byte the client gives up, so no data may follow.
-/
def HandedOver : List (List Char) → Prop
  | [] => True
  | first :: rest =>
      if first.length = 1 then
        (first :: rest).flatten.length ≤ 8
      else
        first.length ≤ 8 ∧ CleanReads (8 - first.length) rest

/-! ## One read -/

section Reads

variable {missing : Nat}
variable {read : List Char}

/-- A read is clean exactly if its string is what it has of the data. -/
theorem cleanRead_iff
    (nonempty : read ≠ [])
    (noNul : nul ∉ read.drop missing) :
    CleanRead missing read ↔ dataString read = some (read.drop missing) := by
  have positive := List.length_pos_iff.mpr nonempty
  unfold CleanRead
  by_cases isOver : missing = 0
  · subst isOver
    rw [List.drop_zero] at noNul
    rw [if_pos rfl, List.drop_zero, dataString_of_noNul noNul]
    simp
  · rw [if_neg isOver]
    by_cases hasNul : nul ∈ read.take missing
    · have inRead : nul ∈ read := List.mem_of_mem_take hasNul
      have isString :
          (read.takeWhile fun symbol => decide (symbol ≠ nul)) =
            (read.take missing).takeWhile fun symbol => decide (symbol ≠ nul) := by
        have notAll :
            ¬ ((read.take missing).takeWhile
                fun symbol => decide (symbol ≠ nul)).length =
              (read.take missing).length := by
          intro sameLength
          have whole := (List.takeWhile_sublist _).eq_of_length sameLength
          have := List.takeWhile_eq_self_iff.mp whole nul hasNul
          simp at this
        conv_lhs => rw [← List.take_append_drop missing read]
        rw [List.takeWhile_append, if_neg notAll]
      rw [dataString, bufferString, if_pos (Or.inr inRead), isString, Option.some.injEq]
      exact ⟨fun clean => clean.2, fun same => ⟨hasNul, same⟩⟩
    · -- without an end in the reply, its bytes are taken for data
      have noNulAtAll : nul ∉ read := by
        rw [← List.take_append_drop missing read, List.mem_append, not_or]
        exact ⟨hasNul, noNul⟩
      have longer : read ≠ read.drop missing := by
        intro same
        have lengths := congrArg List.length same
        rw [List.length_drop] at lengths
        omega
      rw [dataString_of_noNul noNulAtAll]
      simp [hasNul, longer]

namespace Client

/-- A client after a read with the given string, and after its write. -/
def afterData
    (data : List Char)
    (client : Client) : Client :=
  let next := { client with shown := client.shown ++ data }
  if '%' ∈ data then
    next.startWrite.handleWrite
  else
    { next with phase := .reading }

theorem feed_of_string
    {client : Client}
    (isReading : client.phase = .reading)
    {data : List Char}
    (isString : dataString read = some data) :
    client.feed read = client.afterData data := by
  unfold feed afterData handleRead
  rw [isReading, isString]
  by_cases hasPrompt : '%' ∈ data
  · simp [hasPrompt, startWrite]
  · simp [hasPrompt]

theorem afterData_phase
    (data : List Char)
    (client : Client) :
    (client.afterData data).phase = .reading := by
  unfold afterData handleWrite
  split <;> rfl

theorem afterData_shown
    (data : List Char)
    (client : Client) :
    (client.afterData data).shown = client.shown ++ data := by
  unfold afterData handleWrite startWrite
  split <;> rfl

theorem afterData_nil
    {client : Client}
    (isReading : client.phase = .reading) :
    client.afterData [] = client := by
  unfold afterData
  cases client
  simp_all

/-- A reading client shows what a read has of the data exactly if it is clean. -/
theorem feed_shown_iff
    {client : Client}
    (isReading : client.phase = .reading)
    (nonempty : read ≠ [])
    (atMost : missing ≤ 8)
    (noNul : nul ∉ read.drop missing) :
    (client.feed read).shown = client.shown ++ read.drop missing ↔
      CleanRead missing read := by
  rw [cleanRead_iff nonempty noNul]
  cases isString : dataString read with
  | none =>
      have long : maxLength ≤ read.length := by
        by_contra short
        rw [dataString, bufferString, if_pos (Or.inl (Nat.lt_of_not_le short))]
          at isString
        cases isString
      have isNext : (client.feed read).shown = client.shown := by
        unfold feed handleRead
        rw [isReading, isString]
        rfl
      have some : read.drop missing ≠ [] := by
        intro isNil
        have lengths := congrArg List.length isNil
        rw [List.length_drop, List.length_nil] at lengths
        unfold maxLength at long
        omega
      rw [isNext]
      simp [some]
  | some data =>
      rw [feed_of_string isReading isString, afterData_shown,
        List.append_cancel_left_eq, Option.some.injEq]

theorem feedAll_cons
    (client : Client)
    (read : List Char)
    (rest : List (List Char)) :
    client.feedAll (read :: rest) = (client.feed read).feedAll rest :=
  rfl

/-- A client that has given up reads nothing more. -/
theorem feedAll_stopped
    {client : Client}
    (isStopped : client.phase = .stopped)
    (reads : List (List Char)) :
    client.feedAll reads = client := by
  induction reads with
  | nil =>
      rfl
  | cons read rest inductionHypothesis =>
      have unchanged : client.feed read = client := by
        unfold feed
        rw [isStopped]
      rw [feedAll_cons, unchanged, inductionHypothesis]

end Client

end Reads

/-! ## All reads behind the first one -/

/-- What a read leaves missing of the reply, and what is behind it. -/
theorem drop_flatten_cons
    (missing : Nat)
    (read : List Char)
    (rest : List (List Char)) :
    (read :: rest).flatten.drop missing =
      read.drop missing ++ rest.flatten.drop (missing - read.length) := by
  rw [List.flatten_cons, List.drop_append]

/-- A reading client shows all that it receives exactly if all reads are clean. -/
theorem feedAll_shown_iff
    {client : Client}
    (isReading : client.phase = .reading)
    {missing : Nat}
    (atMost : missing ≤ 8)
    {reads : List (List Char)}
    (nonempty : ∀ read ∈ reads, read ≠ [])
    (noNul : nul ∉ reads.flatten.drop missing) :
    (∀ before, before <+: reads →
        (client.feedAll before).shown =
          client.shown ++ before.flatten.drop missing) ↔
      CleanReads missing reads := by
  induction reads generalizing client missing with
  | nil =>
      refine ⟨fun _ => trivial, ?_⟩
      intro _ before isBefore
      rw [List.prefix_nil.mp isBefore]
      simp [Client.feedAll]
  | cons read rest inductionHypothesis =>
      rw [drop_flatten_cons, List.mem_append, not_or] at noNul
      have readNonempty := nonempty read List.mem_cons_self
      have restNonempty :
          ∀ other ∈ rest, other ≠ [] :=
        fun other member => nonempty other (List.mem_cons_of_mem _ member)
      have here :=
        Client.feed_shown_iff isReading readNonempty atMost noNul.1
      have string := cleanRead_iff readNonempty noNul.1
      have later (clean : CleanRead missing read) :=
        @inductionHypothesis (client.feed read)
          (by
            rw [Client.feed_of_string isReading (string.mp clean)]
            exact Client.afterData_phase _ _)
          (missing - read.length) (by omega) restNonempty noNul.2
      constructor
      · intro shows
        have clean : CleanRead missing read := by
          have := shows [read] ⟨rest, rfl⟩
          rw [drop_flatten_cons] at this
          exact here.mp (by simpa [Client.feedAll] using this)
        refine ⟨clean, (later clean).mp ?_⟩
        intro before isBefore
        have := shows (read :: before) (List.cons_prefix_cons.mpr ⟨rfl, isBefore⟩)
        rw [Client.feedAll_cons, drop_flatten_cons, ← List.append_assoc,
          ← here.mpr clean] at this
        exact this
      · rintro ⟨clean, restClean⟩ before isBefore
        cases before with
        | nil =>
            simp [Client.feedAll]
        | cons other others =>
            obtain ⟨rfl, isLater⟩ := List.cons_prefix_cons.mp isBefore
            rw [Client.feedAll_cons, (later clean).mpr restClean others isLater,
              here.mpr clean, drop_flatten_cons, List.append_assoc]

/-- What the reads have of the data, without empty parts. -/
def dataChunks : Nat → List (List Char) → List (List Char)
  | _, [] => []
  | missing, read :: rest =>
      (if read.drop missing = [] then [] else [read.drop missing]) ++
        dataChunks (missing - read.length) rest

theorem flatten_dataChunks
    (missing : Nat)
    (reads : List (List Char)) :
    (dataChunks missing reads).flatten = reads.flatten.drop missing := by
  induction reads generalizing missing with
  | nil =>
      simp [dataChunks]
  | cons read rest inductionHypothesis =>
      rw [drop_flatten_cons, dataChunks, List.flatten_append,
        inductionHypothesis]
      by_cases isEmpty : read.drop missing = []
      · simp [isEmpty]
      · simp [isEmpty]

/-- After clean reads a client is as after reading the data alone. -/
theorem CleanReads.feedAll_eq
    {client : Client}
    (isReading : client.phase = .reading)
    {missing : Nat}
    (atMost : missing ≤ 8)
    {reads : List (List Char)}
    (nonempty : ∀ read ∈ reads, read ≠ [])
    (noNul : nul ∉ reads.flatten.drop missing)
    (clean : CleanReads missing reads) :
    client.feedAll reads = client.feedAll (dataChunks missing reads) := by
  induction reads generalizing client missing with
  | nil =>
      rfl
  | cons read rest inductionHypothesis =>
      rw [drop_flatten_cons, List.mem_append, not_or] at noNul
      have readNonempty := nonempty read List.mem_cons_self
      have isString := (cleanRead_iff readNonempty noNul.1).mp clean.1
      have isNext := Client.feed_of_string isReading isString
      have nextReading : (client.feed read).phase = .reading := by
        rw [isNext]
        exact Client.afterData_phase _ _
      rw [Client.feedAll_cons,
        inductionHypothesis nextReading (by omega)
          (fun other member => nonempty other (List.mem_cons_of_mem _ member))
          noNul.2 clean.2, dataChunks]
      by_cases isEmpty : read.drop missing = []
      · rw [if_pos isEmpty, List.nil_append, isNext, isEmpty,
          Client.afterData_nil isReading]
      · -- a direct client reads the same string
        have short : (read.drop missing).length < maxLength := by
          have isClean := clean.1
          unfold CleanRead at isClean
          split at isClean
          · rename_i isOver
            rw [isOver, List.drop_zero]
            exact isClean
          · have atMostTaken :=
              (List.takeWhile_sublist
                (fun symbol => decide (symbol ≠ nul))
                  (l := read.take missing)).length_le
            rw [isClean.2] at atMostTaken
            have taken := List.length_take_le missing read
            unfold maxLength
            omega
        have direct :=
          Client.feed_of_string isReading (dataString_of_plain short noNul.1)
        rw [if_neg isEmpty, List.singleton_append, Client.feedAll_cons, isNext,
          direct]

/-! ## Whole streams -/

namespace Cutting

variable {reply : SocksReply}
variable {data first : List Char}
variable {rest : List (List Char)}

/-- Behind the reply, only data is received. -/
theorem noNul_received
    {reads : List (List Char)}
    (cutting : Cutting reply data reads) :
    nul ∉ reads.flatten.drop 8 := by
  obtain ⟨tail, same⟩ := cutting.received
  have isData : (reads.flatten ++ tail).drop 8 = data := by
    rw [same, List.drop_append, reply.eight,
      List.drop_of_length_le reply.eight.le]
    rfl
  intro member
  apply cutting.noNul
  rw [← isData, List.drop_append]
  exact List.mem_append_left _ member

/-- The first read decides by its second byte. -/
theorem feed_first
    (cutting : Cutting reply data (first :: rest))
    (lines : List (List Char)) :
    (Client.startProxy lines).feed first =
      if first.length = 1 then (Client.startProxy lines).stop
      else Client.start lines := by
  have positive :=
    List.length_pos_iff.mpr (cutting.nonempty first List.mem_cons_self)
  have isFeed :
      (Client.startProxy lines).feed first =
        (Client.startProxy lines).handleReceiveSocks4 first := rfl
  rw [isFeed, Client.handleReceiveSocks4]
  by_cases single : first.length = 1
  · have noCode : first.getD 1 nul = nul := by
      rw [List.getD_eq_getElem?_getD, List.getElem?_eq_none single.le]
      rfl
    rw [noCode, if_neg (by decide), if_pos single]
  · have isCode : first.getD 1 nul = Char.ofNat 90 := by
      obtain ⟨tail, received⟩ := cutting.received
      have inFirst : 1 < first.length := by omega
      have same : first[1]? = (reply.bytes ++ data)[1]? := by
        rw [← received, List.flatten_cons, List.append_assoc,
          List.getElem?_append_left inFirst]
      have inReply : 1 < reply.bytes.length := by
        rw [reply.eight]
        decide
      rw [List.getD_eq_getElem?_getD, same, List.getElem?_append_left inReply,
        reply.granted]
      rfl
    rw [isCode, if_pos rfl, if_neg single]
    rfl

end Cutting

theorem handedOver_cons
    (first : List Char)
    (rest : List (List Char)) :
    HandedOver (first :: rest) ↔
      if first.length = 1 then
        (first :: rest).flatten.length ≤ 8
      else
        first.length ≤ 8 ∧ CleanReads (8 - first.length) rest :=
  Iff.rfl

/-- What a client has shown after the first read and some reads behind it. -/
theorem showsReceived_cons_iff
    {lines : List (List Char)}
    {first : List Char}
    {rest : List (List Char)} :
    ShowsReceived lines (first :: rest) ↔
      ∀ before, before <+: rest →
        (((Client.startProxy lines).feed first).feedAll before).shown =
          first.drop 8 ++ before.flatten.drop (8 - first.length) := by
  constructor
  · intro shows before isBefore
    have atBefore :=
      shows (first :: before) (List.cons_prefix_cons.mpr ⟨rfl, isBefore⟩)
    rw [drop_flatten_cons] at atBefore
    exact atBefore
  · intro shows before isBefore
    cases before with
    | nil =>
        rfl
    | cons other others =>
        obtain ⟨rfl, isLater⟩ := List.cons_prefix_cons.mp isBefore
        rw [drop_flatten_cons]
        exact shows others isLater

/-- The client shows what it receives exactly if the reads hand over cleanly. -/
theorem Cutting.showsReceived_iff
    {reply : SocksReply}
    {data : List Char}
    {reads : List (List Char)}
    (cutting : Cutting reply data reads)
    (lines : List (List Char)) :
    ShowsReceived lines reads ↔ HandedOver reads := by
  cases reads with
  | nil =>
      refine ⟨fun _ => trivial, ?_⟩
      intro _ before isBefore
      rw [List.prefix_nil.mp isBefore]
      rfl
  | cons first rest =>
      rw [showsReceived_cons_iff, handedOver_cons, cutting.feed_first lines]
      by_cases single : first.length = 1
      · rw [if_pos single, if_pos single]
        have isShown (before : List (List Char)) :
            ((Client.startProxy lines).stop.feedAll before).shown = [] := by
          rw [Client.feedAll_stopped rfl]
          rfl
        constructor
        · intro shows
          have noData := shows rest (List.prefix_refl _)
          rw [isShown, ← drop_flatten_cons] at noData
          exact List.drop_eq_nil_iff.mp noData.symm
        · intro short before isBefore
          have atMost : (first :: before).flatten.length ≤ 8 := by
            obtain ⟨others, rfl⟩ := isBefore
            rw [List.flatten_cons, List.flatten_append, List.length_append,
              List.length_append] at short
            rw [List.flatten_cons, List.length_append]
            omega
          rw [isShown, ← drop_flatten_cons, List.drop_eq_nil_of_le atMost]
      · rw [if_neg single, if_neg single]
        have noNul := cutting.noNul_received
        rw [drop_flatten_cons, List.mem_append, not_or] at noNul
        have behind :=
          @feedAll_shown_iff (Client.start lines) rfl (8 - first.length)
            (Nat.sub_le _ _) rest
            (fun other member =>
              cutting.nonempty other (List.mem_cons_of_mem _ member))
            noNul.2
        constructor
        · intro shows
          have short : first.length ≤ 8 := by
            have atFirst := shows [] List.nil_prefix
            exact List.drop_eq_nil_iff.mp
              (by simpa [Client.feedAll, Client.start] using atFirst)
          rw [List.drop_eq_nil_of_le short] at shows
          exact ⟨short, behind.mp shows⟩
        · rintro ⟨short, clean⟩
          rw [List.drop_eq_nil_of_le short]
          exact behind.mpr clean

/-- Once data is received, the client is as one that has read the data directly. -/
theorem Cutting.direct
    {reply : SocksReply}
    {data : List Char}
    {reads : List (List Char)}
    (cutting : Cutting reply data reads)
    (handedOver : HandedOver reads)
    (hasData : 8 < reads.flatten.length)
    (lines : List (List Char)) :
    ∃ chunks,
      chunks.flatten = reads.flatten.drop 8 ∧
        (Client.startProxy lines).feedAll reads =
          (Client.start lines).feedAll chunks := by
  cases reads with
  | nil =>
      exact absurd hasData (by decide)
  | cons first rest =>
      rw [handedOver_cons] at handedOver
      by_cases single : first.length = 1
      · rw [if_pos single] at handedOver
        omega
      · rw [if_neg single] at handedOver
        obtain ⟨short, clean⟩ := handedOver
        have isFed := cutting.feed_first lines
        rw [if_neg single] at isFed
        have noNul := cutting.noNul_received
        rw [drop_flatten_cons, List.mem_append, not_or] at noNul
        refine ⟨dataChunks (8 - first.length) rest, ?_, ?_⟩
        · rw [flatten_dataChunks, drop_flatten_cons,
            List.drop_eq_nil_of_le short, List.nil_append]
        · rw [Client.feedAll_cons, isFed]
          exact
            clean.feedAll_eq rfl (Nat.sub_le _ _)
              (fun other member =>
                cutting.nonempty other (List.mem_cons_of_mem _ member))
              noNul.2

/--
Behind a proxy the client shows all data that it receives exactly if the reads
hand over cleanly, and then it is in the same state as a direct client.
-/
theorem proxied_shows_iff
    {reply : SocksReply}
    {data : List Char}
    {reads : List (List Char)}
    (cutting : Cutting reply data reads)
    (lines : List (List Char)) :
    (ShowsReceived lines reads ↔ HandedOver reads) ∧
      (ShowsReceived lines reads → 8 < reads.flatten.length →
        ∃ chunks,
          chunks.flatten = reads.flatten.drop 8 ∧
            (Client.startProxy lines).feedAll reads =
              (Client.start lines).feedAll chunks) := by
  have handedOver := cutting.showsReceived_iff lines
  exact
    ⟨handedOver, fun shows hasData =>
      cutting.direct (handedOver.mp shows) hasData lines⟩

/-- The reply of a server that sends no address with it. -/
def plainReply : SocksReply where
  bytes := [nul, Char.ofNat 90, nul, nul, nul, nul, nul, nul]
  eight := rfl
  granted := rfl

theorem proxied_shows_prompt :
    ShowsReceived [] [plainReply.bytes, "% ".toList] := by
  have cutting :
      Cutting plainReply "% ".toList [plainReply.bytes, "% ".toList] :=
    ⟨by decide, by decide, by decide, by decide⟩
  refine ((proxied_shows_iff cutting []).1).mpr ?_
  have isClean : CleanRead 0 "% ".toList := by
    rw [CleanRead, if_pos rfl]
    decide
  exact ⟨by decide, isClean, trivial⟩

/-- A prompt in the same read as the reply is lost. -/
theorem prompt_with_reply_lost :
    Cutting plainReply "% ".toList [plainReply.bytes ++ "% ".toList] ∧
      ¬ ShowsReceived [] [plainReply.bytes ++ "% ".toList] := by
  refine ⟨⟨by decide, by decide, by decide, by decide⟩, ?_⟩
  intro shows
  have := shows _ (List.prefix_refl _)
  revert this
  decide

end NpServers.Console
