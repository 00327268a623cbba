import NpServers.ChatRoom

namespace NpServers.Shell

open DescriptorTable TransitionPath

/-!
# The prompts of the single-process server

Apart from announcements and answers a client is sent the welcome message when it
arrives, and one prompt then and after each line.  A client that sends its next
line after the next prompt, as the console does, stays in step with the server.
-/

/-- The event is a line from the client of the connection. -/
def ServerEvent.isLineFrom
    (connection : Nat)
    (server : Server) :
    ServerEvent → Bool
  | .input fd _ _ =>
      decide (server.fds.file fd = some (.socket connection))
  | .login | .exit _ | .endOfFile _ | .childExits _ => false

/-- The number of lines of a connection on a path. -/
def linesFrom
    (connection : Nat) :
    Server → List (ServerEvent × Server) → Nat
  | _, [] => 0
  | server, (event, next) :: rest =>
      (event.isLineFrom connection server).toNat + linesFrom connection next rest

theorem linesFrom_append
    (connection : Nat)
    (server : Server)
    (first second : List (ServerEvent × Server)) :
    linesFrom connection server (first ++ second) =
      linesFrom connection server first +
        linesFrom connection (lastState server first) second := by
  induction first generalizing server with
  | nil => exact (Nat.zero_add _).symm
  | cons entry rest inductionHypothesis =>
      obtain ⟨event, next⟩ := entry
      change _ + linesFrom connection next (rest ++ second) = _
      rw [inductionHypothesis, ← Nat.add_assoc]
      rfl

namespace MainLoop

variable {before after loop next : MainLoop}

/--
What each connection has been sent starts with the welcome message, which does not
come again, and contains this many prompts.
-/
structure Transcript
    (loop : MainLoop)
    (prompts : Nat → Nat) : Prop where
  started :
    ∀ connection < loop.server.nextConnection,
      ∃ rest,
        textsTo connection loop.written = .welcome :: rest ∧
          .welcome ∉ rest ∧ rest.count .prompt = prompts connection
  silent :
    ∀ connection,
      loop.server.nextConnection ≤ connection →
      textsTo connection loop.written = [] ∧ prompts connection = 0

variable {prompts : Nat → Nat}

/-- Further texts to connections that have started. -/
theorem Transcript.extend
    (transcript : Transcript before prompts)
    {entries : List (Nat × Written)}
    {more : Nat → Nat}
    (isWritten : after.written = before.written ++ entries)
    (sameConnection :
      after.server.nextConnection = before.server.nextConnection)
    (notWelcome : ∀ entry ∈ entries, entry.2 ≠ .welcome)
    (known : ∀ entry ∈ entries, entry.1 < before.server.nextConnection)
    (isMore :
      ∀ connection, (textsTo connection entries).count .prompt = more connection) :
    Transcript after fun connection => prompts connection + more connection where
  started := by
    intro connection isStarted
    rw [sameConnection] at isStarted
    obtain ⟨rest, isText, notAgain, count⟩ :=
      transcript.started connection isStarted
    refine ⟨rest ++ textsTo connection entries, ?_, ?_, ?_⟩
    · rw [isWritten, textsTo_append, isText, List.cons_append]
    · intro member
      rcases List.mem_append.mp member with isOld | isNew
      · exact notAgain isOld
      · exact notWelcome _ (mem_textsTo.mp isNew) rfl
    · rw [List.count_append, count, isMore]
  silent := by
    intro connection isNew
    rw [sameConnection] at isNew
    obtain ⟨noText, noPrompt⟩ := transcript.silent connection isNew
    have nothing : textsTo connection entries = [] := by
      rw [List.eq_nil_iff_forall_not_mem]
      intro what member
      exact absurd (known _ (mem_textsTo.mp member)) (Nat.not_lt.mpr isNew)
    have noMore := isMore connection
    rw [nothing] at noMore
    rw [isWritten, textsTo_append, noText, nothing, noPrompt, ← noMore]
    exact ⟨rfl, rfl⟩

theorem Transcript.speaks
    (transcript : Transcript before prompts)
    (seating : before.server.Seating)
    (speaks : Speaks before after) :
    Transcript after prompts := by
  obtain ⟨entries, isWritten, kinds, _⟩ := speaks.spoken
  have extended : Transcript after fun connection => prompts connection + 0 := by
    refine transcript.extend isWritten ?_ ?_ ?_ ?_
    · rw [speaks.server]
    · intro entry member
      exact (kinds entry member).notWelcome
    · intro entry member
      obtain ⟨fd, isOpen⟩ := (kinds entry member).isOpen
      exact seating.known (Server.connectionAt_eq_some.mp isOpen)
    · intro connection
      rw [List.count_eq_zero]
      intro member
      exact (kinds _ (mem_textsTo.mp member)).notPrompt rfl
  exact extended

/-- The prompt that is written to a connection. -/
theorem Transcript.prompt
    (transcript : Transcript loop prompts)
    (seating : loop.server.Seating)
    {fd : Int}
    {connection : Nat}
    (isSocket : loop.server.fds.file fd = some (.socket connection)) :
    Transcript (loop.writeTo fd .prompt) fun other =>
      prompts other + if other = connection then 1 else 0 := by
  have isOpen := Server.connectionAt_eq_some.mpr isSocket
  have isEntries :
      (loop.server.connectionAt fd).toList.map (·, Written.prompt) =
        [(connection, .prompt)] := by
    rw [isOpen]
    rfl
  rw [writeTo_eq, isEntries]
  refine transcript.extend rfl rfl ?_ ?_ ?_
  · intro entry member
    rw [List.mem_singleton.mp member]
    simp
  · intro entry member
    rw [List.mem_singleton.mp member]
    exact seating.known isSocket
  · intro other
    by_cases same : other = connection
    · subst same
      simp [textsTo]
    · simp [textsTo, same, Ne.symm same]

/-- The texts of a client that is served. -/
theorem Transcript.serve
    (transcript : Transcript loop prompts)
    {fd : Int}
    {event : ServerEvent}
    (served : ServedTexts loop fd event next) :
    Transcript next fun connection =>
      prompts connection + (event.isLineFrom connection loop.server).toNat := by
  cases served with
  | line input outside isOpen seating sameAudience keeps speaks =>
      obtain ⟨connection, isSocket⟩ := isOpen
      have sameServer :
          ((loop.enter fd).run input outside).server =
            (loop.server.enter fd).runShell input outside := by
        unfold run
        rw [enter_server]
      have ran : Transcript ((loop.enter fd).run input outside) prompts := by
        have sameWritten := loop.enter_written fd
        refine ⟨?_, ?_⟩
        · rw [sameServer, keeps.nextConnection]
          change ∀ connection < _, ∃ rest, textsTo _ (loop.enter fd).written = _ ∧ _
          rw [sameWritten]
          exact transcript.started
        · rw [sameServer, keeps.nextConnection]
          change ∀ connection, _ → textsTo _ (loop.enter fd).written = _ ∧ _
          rw [sameWritten]
          exact transcript.silent
      rw [← sameServer] at seating
      have spokenTranscript := ran.speaks seating speaks
      have prompted :=
        spokenTranscript.prompt
          (by rw [speaks.server]; exact seating)
          (by
            rw [speaks.server, sameServer]
            exact keeps.file isSocket rfl)
      refine cast (congrArg (Transcript _) (funext fun other => ?_)) prompted
      refine congrArg (prompts other + ·) ?_
      unfold ServerEvent.isLineFrom
      dsimp only
      rw [isSocket]
      by_cases same : other = connection
      · simp [same]
      · simp [same, Ne.symm same]
  | leaves event left ends seating isLeaving sameConnection sameWritten speaks =>
      have leftTranscript : Transcript left prompts := by
        refine ⟨?_, ?_⟩
        · rw [sameConnection, sameWritten]
          exact transcript.started
        · rw [sameConnection, sameWritten]
          exact transcript.silent
      have isNoLine (connection : Nat) :
          event.isLineFrom connection loop.server = false := by
        cases event with
        | input other input outside =>
            exact absurd rfl (ends other input outside)
        | login => rfl
        | exit other => rfl
        | endOfFile other => rfl
        | childExits index => rfl
      simp only [isNoLine, Bool.toNat_false, Nat.add_zero]
      exact leftTranscript.speaks seating speaks

/-- The welcome message of a new connection. -/
theorem Transcript.welcome
    (transcript : Transcript loop prompts)
    {welcomed : MainLoop}
    (isServer : welcomed.server = loop.server.login)
    (isWritten :
      welcomed.written =
        loop.written ++ [(loop.server.nextConnection, .welcome)]) :
    Transcript welcomed prompts := by
  have isText (connection : Nat) :
      textsTo connection welcomed.written =
        textsTo connection loop.written ++
          if loop.server.nextConnection = connection then [.welcome] else [] := by
    rw [isWritten, textsTo_append]
    by_cases same : loop.server.nextConnection = connection
    · simp [textsTo, same]
    · simp [textsTo, same]
  have isNext :
      welcomed.server.nextConnection = loop.server.nextConnection + 1 := by
    rw [isServer]
    rfl
  refine ⟨?_, ?_⟩
  · intro connection isStarted
    rw [isText]
    by_cases isNew : loop.server.nextConnection = connection
    · obtain ⟨noText, noPrompt⟩ :=
        transcript.silent connection (Nat.le_of_eq isNew)
      rw [if_pos isNew, noText, noPrompt]
      exact ⟨[], rfl, List.not_mem_nil, rfl⟩
    · rw [if_neg isNew, List.append_nil]
      exact transcript.started connection (by omega)
  · intro connection isLater
    rw [isText, if_neg (by omega), List.append_nil]
    exact transcript.silent connection (by omega)

/-- The texts of a client that is accepted. -/
theorem Transcript.accept
    {lines : Nat → Nat}
    (transcript :
      Transcript loop fun connection =>
        (decide (connection < loop.server.nextConnection)).toNat +
          lines connection)
    (seating : loop.server.Seating)
    (sockets : loop.server.SessionSockets)
    (totalFdNum : Nat)
    (round : Round) :
    Transcript (loop.accept totalFdNum round) fun connection =>
      (decide
          (connection <
            (loop.accept totalFdNum round).server.nextConnection)).toNat +
        lines connection := by
  by_cases takes : loop.takesClient totalFdNum round = true
  · obtain ⟨welcomed, spoken, isAccepted, isServer, isWritten, speaks⟩ :=
      accept_texts (seating.login sockets) takes
    have spokenServer : spoken.server = loop.server.login :=
      speaks.server.trans isServer
    have seatingLogin := seating.login sockets
    have prompted :=
      ((transcript.welcome isServer isWritten).speaks
        (by rw [isServer]; exact seatingLogin) speaks).prompt
        (by rw [spokenServer]; exact seatingLogin)
        (by rw [spokenServer]; exact Function.update_self ..)
    rw [isAccepted]
    refine cast (congrArg (Transcript _) (funext fun connection => ?_)) prompted
    rw [(onlyWrites_writeTo ..).server, spokenServer]
    change _ =
      (decide (connection < loop.server.nextConnection + 1)).toNat +
        lines connection
    rcases Nat.lt_trichotomy connection loop.server.nextConnection with
      isOld | isNew | isLater
    · simp [isOld, Nat.lt_succ_of_lt isOld, Nat.ne_of_lt isOld]
    · simp [isNew, Nat.add_comm]
    · have notNext : ¬ connection < loop.server.nextConnection + 1 := by omega
      simp [notNext, Nat.not_lt_of_gt isLater, Nat.ne_of_gt isLater]
  · have effect := accept_effect totalFdNum round loop
    rw [if_neg takes] at effect
    rw [effect]
    exact transcript

/-- One prompt for the login of each connection, and one for each line. -/
def InLockStep
    (loop : MainLoop)
    (lines : Nat → Nat) : Prop :=
  Transcript loop fun connection =>
    (decide (connection < loop.server.nextConnection)).toNat + lines connection

section LockStep

variable {totalFdNum : Nat}
variable {round : Round}

theorem ServedTexts.nextConnection
    {fd : Int}
    {event : ServerEvent}
    (served : ServedTexts loop fd event next) :
    next.server.nextConnection = loop.server.nextConnection := by
  cases served with
  | line input outside isOpen seating sameAudience keeps speaks =>
      rw [(onlyWrites_writeTo ..).server, speaks.server]
      unfold run
      rw [enter_server]
      exact keeps.nextConnection
  | leaves event left ends seating isLeaving sameConnection sameWritten speaks =>
      rw [speaks.server]
      exact sameConnection

/-- The loop over the descriptors. -/
theorem InLockStep.foldl_serve
    {lines : Nat → Nat}
    {fds : List Int}
    (lockStep : InLockStep loop lines)
    (watching : loop.Watching)
    (seating : loop.server.Seating)
    (served : fds.foldlM (MainLoop.serve round) loop = some next)
    (notSelf :
      EveryStep NotSelfPiped loop.server (servePath round loop fds)) :
    InLockStep next fun connection =>
      lines connection +
        linesFrom connection loop.server (servePath round loop fds) := by
  induction fds generalizing loop lines with
  | nil =>
      cases served
      exact lockStep
  | cons fd rest inductionHypothesis =>
      rw [List.foldlM_cons] at served
      obtain ⟨between, isServed, later⟩ := Option.bind_eq_some_iff.mp served
      unfold servePath at notSelf ⊢
      rw [isServed] at notSelf ⊢
      have texts := serve_texts watching.settled seating notSelf.1 isServed
      have lockStepBetween :
          InLockStep between fun connection =>
            lines connection +
              ((loop.eventOf round fd).isLineFrom connection
                loop.server).toNat := by
        have transcript := Transcript.serve lockStep texts
        unfold InLockStep
        rw [texts.nextConnection]
        simpa only [Nat.add_assoc] using transcript
      have lockStepNext :=
        inductionHypothesis lockStepBetween
          (watching.serve (serve_served isServed) notSelf.1) texts.seating later
          notSelf.2
      simpa only [linesFrom, Nat.add_assoc] using lockStepNext

theorem linesFrom_loginPath (connection : Nat) :
    linesFrom connection loop.server (loop.loginPath totalFdNum round) = 0 := by
  unfold loginPath
  split_ifs
  · rfl
  · rfl

theorem InLockStep.act
    {lines : Nat → Nat}
    {action : MainAction}
    (lockStep : InLockStep loop lines)
    (watching : loop.Watching)
    (seating : loop.server.Seating)
    (stepped : loop.Steps totalFdNum action next)
    (notSelf :
      EveryStep NotSelfPiped loop.server (loop.actionPath totalFdNum action)) :
    InLockStep next fun connection =>
      lines connection +
        linesFrom connection loop.server (loop.actionPath totalFdNum action) := by
  cases action with
  | childExits index =>
      cases stepped
      have noLines (connection : Nat) :
          linesFrom connection loop.server
              (loop.actionPath totalFdNum (.childExits index)) = 0 :=
        rfl
      simp only [noLines, Nat.add_zero]
      obtain ⟨started, silent⟩ := lockStep
      exact ⟨started, silent⟩
  | round round =>
      obtain ⟨_, loginLast, _⟩ := path_loginPath totalFdNum round loop
      have accepted :=
        Transcript.accept lockStep seating watching.settled.sockets totalFdNum
          round
      have served :=
        InLockStep.foldl_serve accepted (watching.accept totalFdNum round)
          (accept_reaches totalFdNum round seating
            watching.settled.sockets).1
          stepped (everyStep_servePath notSelf)
      unfold actionPath
      dsimp only
      simpa only [linesFrom_append, linesFrom_loginPath, loginLast,
        Nat.zero_add] using served

theorem InLockStep.run
    {lines : Nat → Nat}
    {path : List (MainAction × MainLoop)}
    (lockStep : InLockStep loop lines)
    (watching : loop.Watching)
    (seating : loop.server.Seating)
    (isPath : Path (Steps totalFdNum) loop path)
    (notSelf :
      EveryStep NotSelfPiped loop.server (serverPath totalFdNum loop path)) :
    InLockStep (lastState loop path) fun connection =>
      lines connection +
        linesFrom connection loop.server (serverPath totalFdNum loop path) := by
  induction path generalizing loop lines with
  | nil =>
      exact lockStep
  | cons entry rest inductionHypothesis =>
      obtain ⟨action, between⟩ := entry
      obtain ⟨actionNotSelf, laterNotSelf⟩ :=
        everyStep_serverPath_cons isPath.1 notSelf
      obtain ⟨_, actionLast⟩ := path_actionPath isPath.1
      have lockStepLast :=
        inductionHypothesis
          (lockStep.act watching seating isPath.1 actionNotSelf)
          (watching.act isPath.1 actionNotSelf)
          (act_reaches watching seating isPath.1 actionNotSelf).1 isPath.2
          laterNotSelf
      unfold serverPath
      simp only [linesFrom_append, actionLast, ← Nat.add_assoc]
      exact lockStepLast

end LockStep

theorem inLockStep_initial (environ : Environ) :
    InLockStep (initial environ) fun _ => 0 where
  started := fun connection isStarted =>
    absurd isStarted (Nat.not_lt_zero connection)
  silent := fun _ _ => ⟨rfl, rfl⟩

end MainLoop

end NpServers.Shell
