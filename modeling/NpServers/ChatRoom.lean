import NpServers.AtomicBroadcast
import NpServers.MessageText
import NpServers.RoomSeating

namespace NpServers.ShellInput

open CStrings Shell

/-!
# The chat room of the single-process server

What `broadcast` writes makes the server a room: a client is in it from its login
until its slot is given up, and hears what is announced in between.
-/

/-! ## `tell` and `yell` -/

variable {client : ClientView}
variable {received : List Char}

theorem runShell_of_endsEarly
    (early : EndsEarly received) :
    runShell client received = .ok .logout ∨
      runShell client received = .ok .blank := by
  unfold runShell runShellWith
  dsimp only
  by_cases isEnd : (inputBuffer received).head? = some (Char.ofNat 4)
  · exact .inl (if_pos isEnd)
  · rw [if_neg isEnd]
    by_cases isBlankLine :
        stringOf (inputBuffer received) = ['\r', '\n'] ∨
          stringOf (inputBuffer received) = ['\n']
    · exact .inr (if_pos isBlankLine)
    · rw [if_neg isBlankLine]
      refine .inl (if_pos ?_)
      rcases early with isFour | isReturn | isNewline | isExit
      · exact absurd isFour isEnd
      · exact absurd (.inl isReturn) isBlankLine
      · exact absurd (.inr isNewline) isBlankLine
      · exact isExit

/-- Only `tell` and `yell` send messages. -/
theorem missionReply_not_sent
    (call : SplitCall)
    (messages : List (Int × List Char)) :
    missionReply client call ≠ .ok (.sent messages) := by
  intro isSent
  cases call with
  | cmdWho => cases isSent
  | singleCmd arguments => cases isSent
  | ordinaryPipe stages arguments => cases isSent
  | envSetting cmd =>
      change envSetting cmd = _ at isSent
      unfold envSetting at isSent
      split_ifs at isSent
      · obtain ⟨name, _, isSent⟩ := bind_eq_ok isSent
        obtain ⟨value, _, isSent⟩ := bind_eq_ok isSent
        cases isSent
      · obtain ⟨name, _, isSent⟩ := bind_eq_ok isSent
        cases isSent
  | cmdName name =>
      change ShellInput.cmdName client name = _ at isSent
      obtain ⟨taken, _, isSent⟩ := bind_eq_ok isSent
      obtain ⟨word, _, isSent⟩ := bind_eq_ok isSent
      split_ifs at isSent
      · cases isSent
      · obtain ⟨copy, _, isSent⟩ := bind_eq_ok isSent
        cases isSent

theorem handleLine_not_sent
    {cmd : List Char}
    (isChecked : checkCmd (cmdTell client) (cmdYell client) cmd = .ok none)
    (messages : List (Int × List Char)) :
    handleLine (cmdTell client) (cmdYell client) stringSplit client cmd ≠
      .ok (.handled (.sent messages)) := by
  intro isSent
  unfold handleLine at isSent
  obtain ⟨checked, isOk, isSent⟩ := bind_eq_ok isSent
  rw [isChecked] at isOk
  cases isOk
  obtain ⟨call, _, isSent⟩ := bind_eq_ok isSent
  obtain ⟨reply, isReply, isSent⟩ := bind_eq_ok isSent
  cases isSent
  exact missionReply_not_sent call messages isReply

theorem cmdYell_sent
    {cmd : List Char}
    {messages : List (Int × List Char)}
    (isSent : cmdYell client cmd = .ok (.sent messages)) :
    ∃ text, messages = client.receivers.map (·, text) := by
  obtain ⟨text, _, isSent⟩ := bind_eq_ok isSent
  obtain ⟨msg, _, isSent⟩ := bind_eq_ok isSent
  cases isSent
  exact ⟨msg, rfl⟩

/-- A line that sends messages is a `yell` to all clients, or a `tell`. -/
theorem runShell_sent
    {messages : List (Int × List Char)}
    (short : received.length < maxInputLen)
    (returned :
      runShell client received = .ok (.handled (.sent messages))) :
    (tokens isBlank (lineOf received)).head? = some "yell".toList ∧
        (∃ text, messages = client.receivers.map (·, text)) ∨
      (tokens isBlank (lineOf received)).head? = some "tell".toList := by
  have notEarly : ¬ EndsEarly received := by
    intro early
    rcases runShell_of_endsEarly early with isLogout | isBlankLine
    · rw [isLogout] at returned
      cases returned
    · rw [isBlankLine] at returned
      cases returned
  unfold runShell at returned
  rw [runShellWith_of_not_endsEarly _ _ _ _ notEarly] at returned
  obtain ⟨text, rest, isInput, noEnding⟩ := inputBuffer_eq short
  obtain ⟨lead, line, behind, isCut, lineNoEnding, _, _⟩ :=
    cutLine_append noEnding rest
  have isLine : lineOf received = lead ++ line := by
    unfold lineOf
    rw [isInput, isCut, stringOf_append lineNoEnding]
  rw [isInput, isCut] at returned
  rw [isLine]
  generalize lead ++ line = cut at returned lineNoEnding
  cases isTokens : tokens isBlank cut with
  | nil =>
      have isChecked :=
        checkCmd_other (cmdTell client) (cmdYell client) lineNoEnding
          (by rw [isTokens]; simp) (by rw [isTokens]; simp) behind
      exact absurd returned (handleLine_not_sent isChecked messages)
  | cons word words =>
      by_cases isTell : word = "tell".toList
      · subst isTell
        exact .inr rfl
      · by_cases isYell : word = "yell".toList
        · subst isYell
          rw [handleLine_of_checked stringSplit client
            (checkCmd_yell _ _ lineNoEnding isTokens behind)] at returned
          obtain ⟨reply, isReply, returned⟩ := bind_eq_ok returned
          cases returned
          exact .inl ⟨rfl, cmdYell_sent isReply⟩
        · have isChecked :=
            checkCmd_other (cmdTell client) (cmdYell client) lineNoEnding
              (by rw [isTokens]; simpa using isTell)
              (by rw [isTokens]; simpa using isYell) behind
          exact absurd returned (handleLine_not_sent isChecked messages)

end NpServers.ShellInput

namespace NpServers.Shell

open AtomicBroadcast CStrings DescriptorTable TransitionPath

/-! ## The texts of a connection -/

/-- The text of an announcement. -/
def Written.announcement? : Written → Option String
  | .announcement text => some text
  | .welcome | .prompt | .answer _ => none

/-- What was written to a connection. -/
def textsTo
    (connection : Nat)
    (written : List (Nat × Written)) : List Written :=
  (written.filter fun entry => entry.1 = connection).map Prod.snd

/-- The announcements among it. -/
def announcementsTo
    (connection : Nat)
    (written : List (Nat × Written)) : List String :=
  (textsTo connection written).filterMap Written.announcement?

theorem textsTo_append
    (connection : Nat)
    (first second : List (Nat × Written)) :
    textsTo connection (first ++ second) =
      textsTo connection first ++ textsTo connection second := by
  unfold textsTo
  rw [List.filter_append, List.map_append]

theorem announcementsTo_append
    (connection : Nat)
    (first second : List (Nat × Written)) :
    announcementsTo connection (first ++ second) =
      announcementsTo connection first ++ announcementsTo connection second := by
  unfold announcementsTo
  rw [textsTo_append, List.filterMap_append]

theorem mem_textsTo
    {connection : Nat}
    {written : List (Nat × Written)}
    {what : Written} :
    what ∈ textsTo connection written ↔ (connection, what) ∈ written := by
  unfold textsTo
  simp only [List.mem_map, List.mem_filter, decide_eq_true_eq]
  constructor
  · rintro ⟨⟨other, found⟩, ⟨member, rfl⟩, rfl⟩
    exact member
  · intro member
    exact ⟨_, ⟨member, rfl⟩, rfl⟩

/-- Other texts are no announcements. -/
theorem announcementsTo_quiet
    {written : List (Nat × Written)}
    (quiet : ∀ entry ∈ written, entry.2.announcement? = none)
    (connection : Nat) :
    announcementsTo connection written = [] := by
  unfold announcementsTo
  rw [List.filterMap_eq_nil_iff]
  intro what member
  exact quiet _ (mem_textsTo.mp member)

/-- One text for each of several connections. -/
theorem textsTo_map
    {connections : List Nat}
    (distinct : connections.Nodup)
    (connection : Nat)
    (what : Written) :
    textsTo connection (connections.map (·, what)) =
      if connection ∈ connections then [what] else [] := by
  induction connections with
  | nil => rfl
  | cons first rest inductionHypothesis =>
      obtain ⟨notAgain, restDistinct⟩ := List.nodup_cons.mp distinct
      have later := inductionHypothesis restDistinct
      rw [List.map_cons, ← List.singleton_append, textsTo_append, later]
      by_cases isFirst : first = connection
      · subst isFirst
        rw [if_neg notAgain, if_pos List.mem_cons_self]
        simp [textsTo]
      · have same :
            (connection ∈ first :: rest) = (connection ∈ rest) := by
          rw [List.mem_cons, eq_false (Ne.symm isFirst), false_or]
        simp only [same]
        simp [textsTo, isFirst]

namespace MainLoop

variable {before after loop next : MainLoop}

/-! ## Announcements and answers -/

theorem writeTo_eq
    (loop : MainLoop)
    (fd : Int)
    (what : Written) :
    loop.writeTo fd what =
      { loop with
        written :=
          loop.written ++
            (loop.server.connectionAt fd).toList.map (·, what) } := by
  unfold writeTo Server.connectionAt
  cases loop.server.fds.file fd with
  | none => simp
  | some file => cases file <;> simp

/-- `broadcast` writes to the audience. -/
theorem broadcast_eq
    (loop : MainLoop)
    (msg : String) :
    loop.broadcast msg =
      { loop with
        written :=
          loop.written ++ loop.server.audience.map (·, .announcement msg) } := by
  unfold broadcast Server.audience
  generalize clientIds = ids
  induction ids generalizing loop with
  | nil => simp
  | cons i rest inductionHypothesis =>
      rw [List.foldl_cons, inductionHypothesis, List.filterMap_cons]
      by_cases isClient : (loop.server.client.list i).state = true
      · rw [if_pos isClient, if_pos isClient, writeTo_eq]
        dsimp only
        cases loop.server.connectionAt (loop.server.client.list i).sockfd with
        | none => simp
        | some connection => simp
      · rw [if_neg isClient, if_neg isClient]

/-- An announcement or an answer, written to an open socket. -/
structure Spoken
    (server : Server)
    (entry : Nat × Written) : Prop where
  notPrompt : entry.2 ≠ .prompt
  notWelcome : entry.2 ≠ .welcome
  isOpen : ∃ fd, server.connectionAt fd = some entry.1

/--
The texts written in between are announcements to everybody in the room, and
answers.
-/
structure Speaks (before after : MainLoop) : Prop where
  server : after.server = before.server
  spoken :
    ∃ entries,
      after.written = before.written ++ entries ∧
        (∀ entry ∈ entries, Spoken before.server entry) ∧
        ∃ said,
          ∀ connection,
            announcementsTo connection entries =
              if connection ∈ before.server.audience then said else []

theorem Speaks.refl (loop : MainLoop) : Speaks loop loop where
  server := rfl
  spoken := by
    refine ⟨[], (List.append_nil _).symm, ?_, [], ?_⟩
    · intro entry member
      cases member
    · intro connection
      rw [ite_self]
      rfl

theorem Speaks.trans
    {first second third : MainLoop}
    (speaks : Speaks first second)
    (speaksLater : Speaks second third) :
    Speaks first third where
  server := speaksLater.server.trans speaks.server
  spoken := by
    obtain ⟨entries, isWritten, kinds, said, heard⟩ := speaks.spoken
    obtain ⟨later, isWrittenLater, kindsLater, saidLater, heardLater⟩ :=
      speaksLater.spoken
    refine ⟨entries ++ later, ?_, ?_, said ++ saidLater, ?_⟩
    · rw [isWrittenLater, isWritten, List.append_assoc]
    · intro entry member
      rcases List.mem_append.mp member with isFirst | isLater
      · exact kinds entry isFirst
      · rw [← speaks.server]
        exact kindsLater entry isLater
    · intro connection
      rw [announcementsTo_append, heard, heardLater, speaks.server]
      split_ifs
      · rfl
      · rfl

/-- The environment and the other variables do not matter. -/
theorem Speaks.of_same
    (speaks : Speaks loop next)
    (sameServer : before.server = loop.server)
    (sameWritten : before.written = loop.written) :
    Speaks before next where
  server := speaks.server.trans sameServer.symm
  spoken := by
    rw [sameServer, sameWritten]
    exact speaks.spoken

theorem speaks_answer
    (loop : MainLoop)
    (fd : Int)
    (text : String) :
    Speaks loop (loop.writeTo fd (.answer text)) := by
  rw [writeTo_eq]
  refine ⟨rfl, _, rfl, ?_, [], ?_⟩
  · intro entry member
    obtain ⟨connection, isConnection, rfl⟩ := List.mem_map.mp member
    exact ⟨by simp, by simp, fd, Option.mem_toList.mp isConnection⟩
  · intro connection
    rw [ite_self]
    refine announcementsTo_quiet ?_ connection
    intro entry member
    obtain ⟨other, _, rfl⟩ := List.mem_map.mp member
    rfl

theorem speaks_broadcast
    (seating : loop.server.Seating)
    (msg : String) :
    Speaks loop (loop.broadcast msg) := by
  rw [broadcast_eq]
  refine ⟨rfl, _, rfl, ?_, [msg], ?_⟩
  · intro entry member
    obtain ⟨connection, isHearing, rfl⟩ := List.mem_map.mp member
    obtain ⟨i, _, _, isSocket⟩ := Server.mem_audience.mp isHearing
    exact ⟨by simp, by simp, _, Server.connectionAt_eq_some.mpr isSocket⟩
  · intro connection
    unfold announcementsTo
    rw [textsTo_map seating.audience_nodup]
    split_ifs
    · rfl
    · rfl

/-- Several writes, each of which keeps the seating. -/
theorem speaks_foldl
    {Item : Type}
    {write : MainLoop → Item → MainLoop}
    (speaks :
      ∀ {loop : MainLoop} (item : Item),
        loop.server.Seating → Speaks loop (write loop item))
    (items : List Item)
    (seating : loop.server.Seating) :
    Speaks loop (items.foldl write loop) := by
  induction items generalizing loop with
  | nil => exact .refl loop
  | cons item rest inductionHypothesis =>
      have first := speaks item seating
      have seatingNext : (write loop item).server.Seating := by
        rw [first.server]
        exact seating
      exact first.trans (inductionHypothesis seatingNext)

theorem speaks_writeMessage
    (seating : loop.server.Seating)
    (message : Message) :
    Speaks loop (loop.writeMessage message) := by
  unfold writeMessage
  split
  · exact speaks_broadcast seating _
  · exact speaks_broadcast seating _
  · exact speaks_foldl (fun sockfd _ => speaks_answer _ sockfd _) _ seating

theorem speaks_printEnv
    (loop : MainLoop)
    (name : String) :
    Speaks loop (loop.printEnv name) := by
  unfold printEnv
  split
  · split_ifs
    · exact (speaks_answer _ _ _).trans (speaks_answer _ _ _)
    · exact .refl loop
  · exact .refl loop

/-- The calls of a `yell` are those of a broadcast. -/
theorem foldl_receivers
    {ran : MainLoop}
    (state :
      ∀ i, (ran.server.client.list i).state = (loop.server.client.list i).state)
    (text : List Char) :
    (loop.view.receivers.map (·, text)).foldl
        (fun loop message =>
          loop.writeTo (loop.server.client.list message.1.toNat).sockfd
            (.announcement (String.ofList message.2)))
        ran =
      ran.broadcast (String.ofList text) := by
  unfold ShellInput.ClientView.receivers broadcast
  have inTable :
      ∀ i ∈ clientIds,
        loop.view.state (Int.ofNat i) = (loop.server.client.list i).state := by
    intro i inRange
    obtain ⟨_, upper⟩ := mem_clientIds.mp inRange
    unfold view
    simp [upper]
  generalize clientIds = ids at inTable
  induction ids generalizing ran with
  | nil => rfl
  | cons i rest inductionHypothesis =>
      have inRest := fun j member => inTable j (List.mem_cons_of_mem i member)
      have sameState := inTable i List.mem_cons_self
      rw [List.map_cons, List.foldl_cons, List.filter_cons, sameState, state]
      by_cases isClient : (loop.server.client.list i).state = true
      · rw [if_pos isClient, if_pos isClient, List.map_cons, List.foldl_cons]
        refine inductionHypothesis ?_ inRest
        intro j
        rw [(onlyWrites_writeTo ..).server]
        exact state j
      · rw [if_neg isClient, if_neg isClient]
        exact inductionHypothesis state inRest

/-- What the commands of a line write. -/
theorem obey_speaks
    {received : List Char}
    {outside : Outside}
    {ran : MainLoop}
    {reply : ShellInput.Reply}
    (short : received.length < maxInputLen)
    (returned :
      ShellInput.runShell loop.view received = .ok (.handled reply))
    (seating : (loop.server.runShell (inputOfReply reply) outside).Seating)
    (obeyed : loop.obey received outside reply = some ran) :
    Speaks (loop.run (inputOfReply reply) outside) ran := by
  cases reply with
  | sent messages =>
      cases obeyed
      rcases ShellInput.runShell_sent short returned with
        ⟨isYell, text, rfl⟩ | isTell
      · have isSpoken :
            ∀ text, spoken received text = .announcement (String.ofList text) :=
          fun text => if_pos isYell
        simp only [isSpoken]
        rw [foldl_receivers]
        · exact speaks_broadcast seating _
        · exact (Server.sameSessions_runShell .talk outside loop.server).1.state
      · have isSpoken :
            ∀ text, spoken received text = .answer (String.ofList text) := by
          intro text
          refine if_neg ?_
          rw [isTell]
          decide
        simp only [isSpoken]
        exact speaks_foldl (fun message _ => speaks_answer _ _ _) _ seating
  | refused text =>
      cases obeyed
      exact speaks_answer _ _ _
  | nameExists name =>
      cases obeyed
      exact speaks_answer _ _ _
  | named name =>
      have isRan := Option.some.inj obeyed
      rw [← isRan]
      change Speaks (loop.run (.name (String.ofList name)) outside) _
      exact speaks_broadcast seating _
  | listed =>
      cases obeyed
      exact speaks_answer _ _ _
  | variableSet name value =>
      cases obeyed
      exact (Speaks.refl _).of_same rfl rfl
  | variableRead name =>
      cases obeyed
      exact speaks_printEnv _ _
  | runs call =>
      obtain ⟨input, isInput, rfl⟩ := Option.map_eq_some_iff.mp obeyed
      have isReply : inputOfReply (.runs call) = input := by
        change (inputOf call).getD .blank = input
        rw [isInput]
        rfl
      rw [isReply] at seating ⊢
      exact speaks_foldl (fun message seating => speaks_writeMessage seating message)
        _ seating

/-! ## The texts of one client that is served -/

/-- A line that is handled is short, and its end is in the buffer. -/
theorem short_of_handled
    {received : List Char}
    {outside : Outside}
    {result : MainLoop × Bool}
    {reply : ShellInput.Reply}
    (ran : loop.runShell received outside = some result)
    (returned :
      ShellInput.runShell loop.view received = .ok (.handled reply)) :
    received.length < maxInputLen := by
  unfold runShell at ran
  by_cases terminated : Terminated received
  · rcases terminated with short | isEnd
    · exact short
    · have isFour :
          (ShellInput.inputBuffer received).head? = some (Char.ofNat 4) := by
        simpa [endsSession] using isEnd
      rcases ShellInput.runShell_of_endsEarly (.inl isFour) with
        isLogout | isBlankLine
      · rw [isLogout] at returned
        cases returned
      · rw [isBlankLine] at returned
        cases returned
  · rw [if_neg terminated] at ran
    cases ran

theorem enter_written
    (loop : MainLoop)
    (fd : Int) :
    (loop.enter fd).written = loop.written := by
  unfold enter
  dsimp only
  split_ifs <;> rfl

/-- What is written while a client is served. -/
inductive ServedTexts
    (loop : MainLoop)
    (fd : Int) :
    ServerEvent → MainLoop → Prop where
  | line
      {spoken : MainLoop}
      (input : Input)
      (outside : Outside)
      (isOpen :
        ∃ connection, loop.server.fds.file fd = some (.socket connection))
      (seating : ((loop.server.enter fd).runShell input outside).Seating)
      (sameAudience :
        ((loop.server.enter fd).runShell input outside).audience =
          loop.server.audience)
      (keeps :
        Server.KeepsFiles (loop.server.enter fd)
          ((loop.server.enter fd).runShell input outside))
      (speaks : Speaks ((loop.enter fd).run input outside) spoken) :
      ServedTexts loop fd (.input fd input outside) (spoken.writeTo fd .prompt)
  | leaves
      {next : MainLoop}
      (event : ServerEvent)
      (left : MainLoop)
      (ends : ∀ other input outside, event ≠ .input other input outside)
      (seating : left.server.Seating)
      (isLeaving :
        ∃ gone,
          loop.server.fds.file
              (loop.server.client.list
                (loop.server.main.fdIdList fd).toNat).sockfd =
            some (.socket gone) ∧
          ∀ connection,
            connection ∈ left.server.audience ↔
              connection ∈ loop.server.audience ∧ connection ≠ gone)
      (sameConnection :
        left.server.nextConnection = loop.server.nextConnection)
      (sameWritten : left.written = loop.written)
      (speaks : Speaks left next) :
      ServedTexts loop fd event next

/-- The end of a session, for the room. -/
theorem logout_room
    {server : Server}
    {fd : Int}
    (settled : server.Settled)
    (seating : server.Seating)
    (state : (server.client.list server.client.id).state = true)
    (isId : server.main.fdIdList fd = server.client.id) :
    (server.logout fd).Seating ∧
      ∃ gone,
        server.fds.file server.sockfd = some (.socket gone) ∧
          ∀ connection,
            connection ∈ (server.logout fd).audience ↔
              connection ∈ server.audience ∧ connection ≠ gone := by
  obtain ⟨gone, _, isSocket⟩ := seating.seat settled.sockets state
  refine ⟨seating.logout state isId, gone, isSocket, ?_⟩
  intro connection
  rw [seating.mem_audience_logout settled state isId]
  refine and_congr_right fun _ => not_congr ?_
  change server.fds.file (server.client.list server.client.id).sockfd = _ ↔ _
  rw [isSocket]
  constructor
  · intro same
    cases same
    rfl
  · rintro rfl
    rfl

theorem logout_speaks
    {counted : MainLoop}
    {fd : Int}
    (isLogout : counted.logout fd = some next)
    (seating : (counted.server.logout fd).Seating) :
    ∃ left : MainLoop,
      left.server = counted.server.logout fd ∧
        left.written = counted.written ∧ Speaks left next := by
  unfold logout at isLogout
  split_ifs at isLogout
  obtain ⟨remaining, _, isNext⟩ := Option.map_eq_some_iff.mp isLogout
  have speaks :
      Speaks
        { counted with
          server := counted.server.logout fd
          activeFdSet := Function.update counted.activeFdSet fd false }
        (broadcast (logoutMsg counted.server.self.name)
          { counted with
            server := counted.server.logout fd
            activeFdSet := Function.update counted.activeFdSet fd false }) :=
    speaks_broadcast seating _
  refine
    ⟨{ counted with
        server := counted.server.logout fd
        activeFdSet := Function.update counted.activeFdSet fd false },
      rfl, rfl, ?_⟩
  dsimp only at isNext
  rw [← isNext]
  generalize
    broadcast (logoutMsg counted.server.self.name)
      { counted with
        server := counted.server.logout fd
        activeFdSet := Function.update counted.activeFdSet fd false } =
      said at speaks ⊢
  exact ⟨speaks.server, speaks.spoken⟩

theorem serve_texts
    {round : Round}
    {fd : Int}
    (settled : loop.server.Settled)
    (seating : loop.server.Seating)
    (notSelf : ¬ loop.server.SelfPipesAt (loop.eventOf round fd))
    (served : loop.serve round fd = some next) :
    ServedTexts loop fd (loop.eventOf round fd) next := by
  have sameServer := loop.enter_server fd
  have sameWritten := loop.enter_written fd
  unfold serve at served
  by_cases connected : loop.server.connected fd = true
  · rw [if_pos connected] at served
    obtain ⟨state, isId⟩ := Server.enter_of_connected connected
    have entered := settled.enter fd
    have seatingEntered : (loop.server.enter fd).Seating :=
      ⟨seating.listed, seating.minId, seating.known, seating.apart⟩
    -- a line with its event
    have line {input : Input} {spoken : MainLoop}
        (isEvent :
          loop.eventOf round fd = .input fd input (round.outside fd))
        (speaks :
          ((loop.server.enter fd).runShell input (round.outside fd)).Seating →
            Speaks ((loop.enter fd).run input (round.outside fd)) spoken) :
        ServedTexts loop fd (.input fd input (round.outside fd))
          (spoken.writeTo fd .prompt) := by
      rw [isEvent] at notSelf
      obtain ⟨seatingNext, sameAudience⟩ :=
        seatingEntered.runShell entered state (round.outside fd) notSelf
      exact .line input (round.outside fd)
        (settled.sockets.isOpen (connected_isSession connected)) seatingNext
        sameAudience
        (entered.keepsFiles state (round.outside fd) notSelf)
        (speaks seatingNext)
    cases ran :
        (loop.enter fd).runShell ((round.received fd).getD [])
          (round.outside fd) with
    | none =>
        rw [ran] at served
        cases served
    | some result =>
        obtain ⟨after, leaves⟩ := result
        rw [ran] at served
        cases leaves with
        | false =>
            cases served
            rcases runShell_stays ran with ⟨returned, rfl⟩ | ⟨reply, returned, obeyed⟩
            · have isEvent :
                  loop.eventOf round fd = .input fd .blank (round.outside fd) := by
                unfold eventOf
                dsimp only
                rw [returned]
              rw [isEvent]
              exact line isEvent fun _ => .refl _
            · have isEvent :
                  loop.eventOf round fd =
                    .input fd (inputOfReply reply) (round.outside fd) := by
                unfold eventOf
                dsimp only
                rw [returned]
              rw [isEvent]
              refine line isEvent fun seatingNext => ?_
              rw [← sameServer] at seatingNext
              exact obey_speaks (short_of_handled ran returned) returned
                seatingNext obeyed
        | true =>
            obtain ⟨returned, isAfter⟩ := runShell_leaves ran
            have notInput :
                ∀ other input outside,
                  loop.eventOf round fd ≠ .input other input outside := by
              intro other input outside
              unfold eventOf
              dsimp only
              rw [returned]
              dsimp only
              split_ifs
              · exact ServerEvent.noConfusion
              · exact ServerEvent.noConfusion
            have leaves
                {counted : Server}
                (isCounted : after.server = counted)
                (afterWritten : after.written = (loop.enter fd).written)
                (room :
                  (counted.logout fd).Seating ∧
                    ∃ gone,
                      loop.server.fds.file
                          (loop.server.client.list
                            (loop.server.main.fdIdList fd).toNat).sockfd =
                        some (.socket gone) ∧
                      ∀ connection,
                        connection ∈ (counted.logout fd).audience ↔
                          connection ∈ loop.server.audience ∧
                            connection ≠ gone)
                (sameConnection :
                  counted.nextConnection = loop.server.nextConnection) :
                ServedTexts loop fd (loop.eventOf round fd) next := by
              rw [← isCounted] at room sameConnection
              obtain ⟨left, isLeft, isWritten, speaks⟩ :=
                logout_speaks served room.1
              rw [← isLeft] at room
              exact .leaves _ left notInput room.1 room.2
                (by rw [isLeft]; exact sameConnection)
                ((isWritten.trans afterWritten).trans sameWritten) speaks
            split_ifs at isAfter with isEnd
            · subst isAfter
              exact leaves sameServer rfl
                (logout_room entered seatingEntered state isId) rfl
            · have counted := entered.countDown state
              have sameSessions :=
                Server.sameSessions_setInfor (loop.server.enter fd)
                  (loop.server.enter fd).infor.countDownAndCheck
              have lineReady := entered.lineReady state
              obtain ⟨seatingCounted, sameAudience⟩ :
                  (loop.server.enter fd).countDown.Seating ∧
                    (loop.server.enter fd).countDown.audience =
                      (loop.server.enter fd).audience :=
                seatingEntered.of_kept entered.sockets sameSessions rfl (.of_fds rfl) id
              obtain ⟨seatingLeft, gone, isSocket, others⟩ :=
                logout_room counted seatingCounted lineReady.inLine.state isId
              subst isAfter
              refine leaves (congrArg Server.countDown sameServer) rfl ?_ rfl
              refine ⟨seatingLeft, gone, ?_, ?_⟩
              · have sameSockfd :=
                  sameSessions.sockfd (loop.server.main.fdIdList fd).toNat
                rw [← isSocket]
                exact congrArg loop.server.fds.file sameSockfd.symm
              · intro connection
                rw [others, sameAudience]
                rfl
  · rw [if_neg connected] at served
    cases served

/-! ## The texts of a new client -/

/-- What is written when a client is accepted. -/
theorem accept_texts
    {totalFdNum : Nat}
    {round : Round}
    (seating : loop.server.login.Seating)
    (takes : loop.takesClient totalFdNum round = true) :
    ∃ welcomed spoken,
      loop.accept totalFdNum round =
          writeTo loop.server.fds.lowestFree .prompt spoken ∧
        welcomed.server = loop.server.login ∧
        welcomed.written =
          loop.written ++ [(loop.server.nextConnection, .welcome)] ∧
        Speaks welcomed spoken := by
  unfold takesClient at takes
  simp only [Bool.and_eq_true, decide_eq_true_eq] at takes
  obtain ⟨clientAddr, isIncoming⟩ := Option.isSome_iff_exists.mp takes.1.1
  unfold accept
  rw [isIncoming]
  dsimp only
  rw [if_pos takes.1.2, if_pos takes.2]
  unfold login
  dsimp only
  generalize loginMsg _ _ = text
  let accepted : MainLoop :=
    { loop with
      server := loop.server.login
      activeFdSet :=
        Function.update loop.activeFdSet loop.server.fds.lowestFree true
      connectionInfor :=
        Function.update loop.connectionInfor loop.server.main.minId clientAddr }
  let welcomed : MainLoop :=
    (accepted.writeTo loop.server.fds.lowestFree .welcome).setEnv "PATH" "bin:."
      loop.server.main.minId false
  have welcomedServer : welcomed.server = loop.server.login :=
    (onlyWrites_writeTo accepted _ _).server
  have isSocket :
      accepted.server.connectionAt loop.server.fds.lowestFree =
        some loop.server.nextConnection :=
    Server.connectionAt_eq_some.mpr (Function.update_self ..)
  refine ⟨welcomed, welcomed.broadcast text, rfl, welcomedServer, ?_, ?_⟩
  · change (accepted.writeTo loop.server.fds.lowestFree .welcome).written = _
    rw [writeTo_eq, isSocket]
    rfl
  · refine speaks_broadcast ?_ text
    rw [welcomedServer]
    exact seating

/-! ## The room -/

/-- The room of the connections. -/
def room (loop : MainLoop) : Room Nat String where
  present := {connection | connection ∈ loop.server.audience}
  known := {connection | connection < loop.server.nextConnection}
  heard := fun connection => announcementsTo connection loop.written

theorem room_congr
    (sameAudience : after.server.audience = before.server.audience)
    (sameConnection :
      after.server.nextConnection = before.server.nextConnection)
    (sameHeard :
      ∀ connection,
        announcementsTo connection after.written =
          announcementsTo connection before.written) :
    after.room = before.room := by
  refine Room.ext ?_ ?_ (funext sameHeard)
  · unfold room
    rw [sameAudience]
  · unfold room
    rw [sameConnection]

/-- The welcome message, the prompts and the answers are not heard in the room. -/
theorem room_writeTo
    {what : Written}
    (quiet : what.announcement? = none)
    (fd : Int)
    (loop : MainLoop) :
    (loop.writeTo fd what).room = loop.room := by
  refine room_congr ?_ ?_ ?_
  · rw [(onlyWrites_writeTo ..).server]
  · rw [(onlyWrites_writeTo ..).server]
  · intro connection
    have nothing :
        announcementsTo connection
            ((loop.server.connectionAt fd).toList.map (·, what)) =
          [] := by
      refine announcementsTo_quiet ?_ connection
      intro entry member
      obtain ⟨other, _, rfl⟩ := List.mem_map.mp member
      exact quiet
    rw [writeTo_eq, announcementsTo_append, nothing, List.append_nil]

theorem Speaks.reaches
    (speaks : Speaks before after) :
    before.room.Reaches after.room := by
  obtain ⟨entries, isWritten, _, said, heard⟩ := speaks.spoken
  have isHeard (connection : Nat) :
      announcementsTo connection after.written =
        announcementsTo connection before.written ++
          if connection ∈ before.server.audience then said else [] := by
    rw [isWritten, announcementsTo_append, heard]
  have reaches :
      ∀ connection ∈ before.room.present,
        after.room.heard connection = before.room.heard connection ++ said := by
    intro connection present
    exact (isHeard connection).trans (congrArg (_ ++ ·) (if_pos present))
  have silent :
      ∀ connection ∉ before.room.present,
        after.room.heard connection = before.room.heard connection := by
    intro connection isAbsent
    have isOutside : connection ∉ before.server.audience := isAbsent
    refine (isHeard connection).trans ?_
    rw [if_neg isOutside]
    exact List.append_nil _
  refine Room.reaches_announcements ?_ ?_ reaches silent
  · unfold room
    rw [speaks.server]
  · unfold room
    rw [speaks.server]

section Served

variable {fd : Int}
variable {event : ServerEvent}

theorem ServedTexts.seating
    (served : ServedTexts loop fd event next) :
    next.server.Seating := by
  cases served with
  | line input outside isOpen seating sameAudience keeps speaks =>
      rw [(onlyWrites_writeTo ..).server, speaks.server]
      unfold run
      rw [enter_server]
      exact seating
  | leaves event left ends seating isLeaving sameConnection sameWritten speaks =>
      rw [speaks.server]
      exact seating

/-- What serving a client does in the room. -/
theorem ServedTexts.reaches
    (served : ServedTexts loop fd event next) :
    loop.room.Reaches next.room := by
  cases served with
  | line input outside isOpen seating sameAudience keeps speaks =>
      have ran : ((loop.enter fd).run input outside).room = loop.room := by
        refine room_congr ?_ ?_ ?_
        · unfold run
          rw [enter_server]
          exact sameAudience
        · unfold run
          rw [enter_server]
          exact keeps.nextConnection
        · intro connection
          exact congrArg (announcementsTo connection) (loop.enter_written fd)
      rw [room_writeTo rfl, ← ran]
      exact speaks.reaches
  | leaves event left ends seating isLeaving sameConnection sameWritten speaks =>
      obtain ⟨gone, _, others⟩ := isLeaving
      have gives :
          ({ loop.room with present := loop.room.present \ {gone} } :
            Room Nat String) = left.room := by
        refine Room.ext ?_ ?_ ?_
        · ext connection
          exact (others connection).symm
        · unfold room
          rw [sameConnection]
        · unfold room
          rw [sameWritten]
      have leaves := Room.Reaches.of_moves (Room.Moves.leave gone : loop.room.Moves _ _)
      rw [gives] at leaves
      exact leaves.trans speaks.reaches

end Served

/-- What a login does in the room. -/
theorem reaches_login
    (seating : loop.server.Seating)
    (sockets : loop.server.SessionSockets)
    {welcomed : MainLoop}
    (isServer : welcomed.server = loop.server.login)
    (isWritten :
      welcomed.written =
        loop.written ++ [(loop.server.nextConnection, .welcome)]) :
    loop.room.Reaches welcomed.room := by
  have sameHeard (connection : Nat) :
      announcementsTo connection welcomed.written =
        announcementsTo connection loop.written := by
    rw [isWritten, announcementsTo_append]
    refine (congrArg (_ ++ ·) (announcementsTo_quiet ?_ connection)).trans
      (List.append_nil _)
    intro entry member
    rw [List.mem_singleton.mp member]
    rfl
  have sameKnown :
      welcomed.room.known =
        insert loop.server.nextConnection loop.room.known := by
    ext connection
    change connection < welcomed.server.nextConnection ↔
      connection = loop.server.nextConnection ∨
        connection < loop.server.nextConnection
    rw [isServer]
    change connection < loop.server.nextConnection + 1 ↔ _
    omega
  have fresh : loop.server.nextConnection ∉ loop.room.known :=
    Nat.lt_irrefl _
  -- the room once those who give up their place have left
  have joins
      {between : Room Nat String}
      (sameBetween : between.known = loop.room.known)
      (heardBetween : between.heard = loop.room.heard)
      (present :
        ∀ connection,
          connection ∈ loop.server.login.audience ↔
            connection = loop.server.nextConnection ∨
              connection ∈ between.present) :
      between.Reaches welcomed.room := by
    have joined : between.Moves (.join loop.server.nextConnection) _ :=
      .join (by rw [sameBetween]; exact fresh)
    refine (Room.Reaches.of_moves joined).trans (.of_eq (Room.ext ?_ ?_ ?_))
    · ext connection
      change _ ↔ connection ∈ welcomed.server.audience
      rw [isServer]
      exact (present connection).symm
    · rw [sameKnown, ← sameBetween]
    · exact heardBetween.trans (funext fun connection => (sameHeard connection).symm)
  have audience := seating.mem_audience_login sockets
  by_cases isTaken :
      (loop.server.client.list loop.server.main.minId).state = true
  · obtain ⟨gone, _, isGone⟩ := seating.seat sockets isTaken
    have leaves :=
      Room.Reaches.of_moves (Room.Moves.leave gone : loop.room.Moves _ _)
    refine leaves.trans (joins rfl rfl ?_)
    intro connection
    rw [audience]
    refine or_congr_right (and_congr_right fun _ => not_congr ?_)
    rw [and_iff_right isTaken, isGone]
    constructor
    · intro same
      cases same
      rfl
    · rintro rfl
      rfl
  · refine joins rfl rfl ?_
    intro connection
    rw [audience]
    refine or_congr_right (and_iff_left ?_)
    exact fun taken => isTaken taken.1

/-- The part of a round for a new client, in the room. -/
theorem accept_reaches
    (totalFdNum : Nat)
    (round : Round)
    (seating : loop.server.Seating)
    (sockets : loop.server.SessionSockets) :
    (loop.accept totalFdNum round).server.Seating ∧
      loop.room.Reaches (loop.accept totalFdNum round).room := by
  by_cases takes : loop.takesClient totalFdNum round = true
  · obtain ⟨welcomed, spoken, isAccepted, isServer, isWritten, speaks⟩ :=
      accept_texts (seating.login sockets) takes
    rw [isAccepted]
    constructor
    · rw [(onlyWrites_writeTo ..).server, speaks.server, isServer]
      exact seating.login sockets
    · rw [room_writeTo rfl]
      exact (reaches_login seating sockets isServer isWritten).trans
        speaks.reaches
  · have effect := accept_effect totalFdNum round loop
    rw [if_neg takes] at effect
    rw [effect]
    exact ⟨seating, .refl _⟩

section Runs

variable {totalFdNum : Nat}
variable {round : Round}

/-- The loop over the descriptors, in the room. -/
theorem serve_reaches
    {fds : List Int}
    (watching : loop.Watching)
    (seating : loop.server.Seating)
    (served : fds.foldlM (serve round) loop = some next)
    (notSelf :
      EveryStep NotSelfPiped loop.server (servePath round loop fds)) :
    next.server.Seating ∧ loop.room.Reaches next.room := by
  induction fds generalizing loop with
  | nil =>
      cases served
      exact ⟨seating, .refl _⟩
  | cons fd rest inductionHypothesis =>
      rw [List.foldlM_cons] at served
      obtain ⟨between, isServed, later⟩ := Option.bind_eq_some_iff.mp served
      unfold servePath at notSelf
      rw [isServed] at notSelf
      have texts := serve_texts watching.settled seating notSelf.1 isServed
      have watchingNext := watching.serve (serve_served isServed) notSelf.1
      obtain ⟨seatingNext, reaches⟩ :=
        inductionHypothesis watchingNext texts.seating later notSelf.2
      exact ⟨seatingNext, texts.reaches.trans reaches⟩

theorem act_reaches
    {action : MainAction}
    (watching : loop.Watching)
    (seating : loop.server.Seating)
    (stepped : loop.Steps totalFdNum action next)
    (notSelf :
      EveryStep NotSelfPiped loop.server (loop.actionPath totalFdNum action)) :
    next.server.Seating ∧ loop.room.Reaches next.room := by
  cases action with
  | childExits index =>
      cases stepped
      exact ⟨⟨seating.listed, seating.minId, seating.known, seating.apart⟩,
        .of_eq rfl⟩
  | round round =>
      obtain ⟨seatingAccepted, accepted⟩ :=
        accept_reaches totalFdNum round seating watching.settled.sockets
      obtain ⟨seatingNext, reaches⟩ :=
        serve_reaches (watching.accept totalFdNum round) seatingAccepted stepped
          (everyStep_servePath notSelf)
      exact ⟨seatingNext, accepted.trans reaches⟩

theorem run_reaches
    {path : List (MainAction × MainLoop)}
    (watching : loop.Watching)
    (seating : loop.server.Seating)
    (isPath : Path (Steps totalFdNum) loop path)
    (notSelf :
      EveryStep NotSelfPiped loop.server (serverPath totalFdNum loop path)) :
    (lastState loop path).server.Seating ∧
      loop.room.Reaches (lastState loop path).room := by
  induction path generalizing loop with
  | nil =>
      exact ⟨seating, .refl _⟩
  | cons entry rest inductionHypothesis =>
      obtain ⟨action, between⟩ := entry
      obtain ⟨actionNotSelf, laterNotSelf⟩ :=
        everyStep_serverPath_cons isPath.1 notSelf
      obtain ⟨seatingBetween, reaches⟩ :=
        act_reaches watching seating isPath.1 actionNotSelf
      obtain ⟨seatingNext, reachesLater⟩ :=
        inductionHypothesis (watching.act isPath.1 actionNotSelf) seatingBetween
          isPath.2 laterNotSelf
      exact ⟨seatingNext, reaches.trans reachesLater⟩

end Runs

theorem consistent_initial (environ : Environ) :
    (initial environ).room.Consistent where
  known := by
    intro connection present
    obtain ⟨i, _, isClient, _⟩ := Server.mem_audience.mp present
    cases isClient
  silent := fun _ _ => rfl

/-- A fourth client arrives, and the third leaves. -/
def partingActions : List MainAction :=
  [quietRound (some { sinAddr := "10.0.0.4", sinPort := 40004 }) [],
    quietRound none [(6, "\x04")]]

end MainLoop

end NpServers.Shell
