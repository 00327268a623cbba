import NpServers.EnvIsolation
import NpServers.MainLoop
import NpServers.UserPipeDecisions

namespace NpServers.Shell

open DescriptorTable TransitionPath

/-!
# Rounds of `main` as events of the server

A round of `main` is one login at most and then one line, or the end, of each
session that is ready.  The run of the loop is followed here by the runs of the
two models that take such events one at a time: the one of the tables, with its
descriptors and children, and the one of the environment.
-/

/-- The descriptor of the session that an event belongs to. -/
def ServerEvent.session : ServerEvent → Option Int
  | .input fd _ _ | .exit fd | .endOfFile fd => some fd
  | .login | .childExits _ => none

/-! ## The sessions -/

/-- The two states have the same sessions, whatever their tables hold. -/
structure MainState.SameSessions (first second : MainState) : Prop where
  fdIdList : first.fdIdList = second.fdIdList
  clientNum : first.clientNum = second.clientNum
  minId : first.minId = second.minId
  state :
    ∀ i, (first.client.list i).state = (second.client.list i).state
  sockfd :
    ∀ i, (first.client.list i).sockfd = (second.client.list i).sockfd

namespace MainState

variable {first second third : MainState}

theorem SameSessions.refl
    (main : MainState) :
    SameSessions main main :=
  ⟨rfl, rfl, rfl, fun _ => rfl, fun _ => rfl⟩

theorem SameSessions.trans
    (same : SameSessions first second)
    (sameLater : SameSessions second third) :
    SameSessions first third where
  fdIdList := same.fdIdList.trans sameLater.fdIdList
  clientNum := same.clientNum.trans sameLater.clientNum
  minId := same.minId.trans sameLater.minId
  state := fun i => (same.state i).trans (sameLater.state i)
  sockfd := fun i => (same.sockfd i).trans (sameLater.sockfd i)

/-- The same login gives the same sessions. -/
theorem SameSessions.login
    (same : SameSessions first second)
    (ssockfd : Int) :
    SameSessions (first.login ssockfd) (second.login ssockfd) := by
  have sameSlot {Field : Type} (field : ClientInfor → Field)
      (before :
        ∀ i, field (first.client.list i) = field (second.client.list i))
      (i : Nat) :
      field
          (Function.update first.client.list first.minId
            (.loggedIn ssockfd) i) =
        field
          (Function.update second.client.list second.minId
            (.loggedIn ssockfd) i) := by
    rw [← same.minId, Function.update_apply, Function.update_apply]
    split_ifs
    · rfl
    · exact before i
  have sameState := sameSlot ClientInfor.state same.state
  refine ⟨?_, ?_, ?_, sameState, sameSlot ClientInfor.sockfd same.sockfd⟩
  · change Function.update first.fdIdList ssockfd first.minId = _
    rw [same.fdIdList, same.minId]
    rfl
  · change first.clientNum + 1 = second.clientNum + 1
    rw [same.clientNum]
  · change
      (clientIds.find? fun i =>
          !(Function.update first.client.list first.minId
            (.loggedIn ssockfd) i).state).getD first.minId =
        (clientIds.find? fun i =>
          !(Function.update second.client.list second.minId
            (.loggedIn ssockfd) i).state).getD second.minId
    have sameFree :
        (fun i =>
            !(Function.update first.client.list first.minId
              (.loggedIn ssockfd) i).state) =
          fun i =>
            !(Function.update second.client.list second.minId
              (.loggedIn ssockfd) i).state := by
      funext i
      rw [sameState]
    rw [sameFree, same.minId]

/-- So does the same logout. -/
theorem SameSessions.logout
    (same : SameSessions first second)
    (fd : Int) :
    SameSessions (first.logout fd) (second.logout fd) := by
  have sameSlot {Field : Type} (field : ClientInfor → Field)
      (ignores :
        ∀ slot userPipe, field { slot with userPipe := userPipe } = field slot)
      (before :
        ∀ i, field (first.client.list i) = field (second.client.list i))
      (i : Nat) :
      field ((first.logout fd).client.list i) =
        field ((second.logout fd).client.list i) := by
    unfold MainState.logout deleteClientInfor
    dsimp only
    rw [← same.fdIdList]
    split_ifs
    · rfl
    · exact (ignores _ _).trans ((before i).trans (ignores _ _).symm)
    · exact before i
  refine ⟨?_, ?_, ?_, sameSlot ClientInfor.state (fun _ _ => rfl) same.state,
    sameSlot ClientInfor.sockfd (fun _ _ => rfl) same.sockfd⟩
  · change Function.update first.fdIdList fd (-1) = _
    rw [same.fdIdList]
    rfl
  · change first.clientNum - 1 = second.clientNum - 1
    rw [same.clientNum]
  · unfold MainState.logout
    dsimp only
    rw [same.fdIdList, same.minId]

theorem SameSessions.admitsEvent
    (same : SameSessions first second)
    (event : SessionEvent) :
    first.admitsEvent event = second.admitsEvent event := by
  cases event with
  | login ssockfd =>
      unfold MainState.admitsEvent
      rw [same.clientNum, same.fdIdList]
  | logout fd =>
      unfold MainState.admitsEvent
      dsimp only
      rw [same.fdIdList, same.state]

end MainState

namespace Server

theorem sameSessions_setInfor
    (server : Server)
    (infor : CrossPipe) :
    MainState.SameSessions (server.setInfor infor).main server.main where
  fdIdList := rfl
  clientNum := rfl
  minId := rfl
  state := server.client.setInfor_state infor
  sockfd := server.client.setInfor_sockfd infor

theorem sameSessions_cmdName
    (server : Server)
    (name : String) :
    MainState.SameSessions (server.cmdName name).main server.main := by
  have sameSlot {Field : Type} (field : ClientInfor → Field)
      (ignores : ∀ slot name, field { slot with name := name } = field slot)
      (i : Nat) :
      field
          (Function.update server.client.list server.client.id
            { server.self with name := name } i) =
        field (server.client.list i) := by
    rw [Function.update_apply]
    split_ifs with own
    · rw [ignores, own]
      rfl
    · rfl
  unfold Server.cmdName
  split_ifs
  · exact .refl _
  · exact ⟨rfl, rfl, rfl, sameSlot ClientInfor.state fun _ _ => rfl,
      sameSlot ClientInfor.sockfd fun _ _ => rfl⟩

theorem Connects.sameSessions
    {line : Command}
    {before after : Server}
    (connects : Connects line before after) :
    MainState.SameSessions after.main before.main :=
  ⟨connects.fdIdList, connects.clientNum, connects.minId, connects.state,
    connects.sockfd⟩

/-- What `string_split` calls leaves the sessions. -/
theorem sameSessions_dispatch
    (input : Input)
    (outside : Outside)
    (server : Server) :
    MainState.SameSessions (server.dispatch input outside).main server.main ∧
      (server.dispatch input outside).client.id = server.client.id := by
  cases input with
  | blank => exact ⟨.refl _, rfl⟩
  | talk => exact ⟨.refl _, rfl⟩
  | builtin => exact ⟨.refl _, rfl⟩
  | name name =>
      refine ⟨sameSessions_cmdName server name, ?_⟩
      change (server.cmdName name).client.id = _
      unfold Server.cmdName
      split_ifs <;> rfl
  | single line =>
      have connects := connects_singleCmd line outside server
      exact ⟨connects.sameSessions, connects.id⟩
  | pipeline line stages =>
      change
        MainState.SameSessions
            (server.ordinaryPipe line outside line.cmdNum).main server.main ∧
          (server.ordinaryPipe line outside line.cmdNum).client.id =
            server.client.id
      unfold Server.ordinaryPipe
      split_ifs
      · exact ⟨.refl _, rfl⟩
      · have connects := connects_runPipeline line outside stages server
        exact ⟨connects.sameSessions, connects.id⟩

/-- So does `run_shell`. -/
theorem sameSessions_runShell
    (input : Input)
    (outside : Outside)
    (server : Server) :
    MainState.SameSessions (server.runShell input outside).main server.main ∧
      (server.runShell input outside).client.id = server.client.id := by
  have counted :
      MainState.SameSessions server.countDown.main server.main :=
    sameSessions_setInfor server _
  have finished (input : Input) :
      MainState.SameSessions
          (server.countDown.dispatch input outside).freeRecord.main
          server.main ∧
        (server.countDown.dispatch input outside).freeRecord.client.id =
          server.client.id := by
    obtain ⟨same, sameId⟩ := sameSessions_dispatch input outside server.countDown
    unfold Server.freeRecord
    split_ifs
    · exact ⟨((sameSessions_setInfor _ _).trans same).trans counted, sameId⟩
    · exact ⟨same.trans counted, sameId⟩
  cases input with
  | blank => exact ⟨.refl _, rfl⟩
  | talk => exact ⟨counted, rfl⟩
  | builtin => exact finished .builtin
  | name name => exact finished (.name name)
  | single line => exact finished (.single line)
  | pipeline line stages => exact finished (.pipeline line stages)

end Server

namespace MainLoop

/-! ## Writing changes nothing else -/

/-- The two states differ in what was written only. -/
structure OnlyWrites (before after : MainLoop) : Prop where
  server : after.server = before.server
  environ : after.environ = before.environ
  envVars : after.envVars = before.envVars
  envId : after.envId = before.envId
  activeFdSet : after.activeFdSet = before.activeFdSet

theorem OnlyWrites.refl
    (loop : MainLoop) :
    OnlyWrites loop loop :=
  ⟨rfl, rfl, rfl, rfl, rfl⟩

theorem OnlyWrites.trans
    {first second third : MainLoop}
    (writes : OnlyWrites first second)
    (writesLater : OnlyWrites second third) :
    OnlyWrites first third where
  server := writesLater.server.trans writes.server
  environ := writesLater.environ.trans writes.environ
  envVars := writesLater.envVars.trans writes.envVars
  envId := writesLater.envId.trans writes.envId
  activeFdSet := writesLater.activeFdSet.trans writes.activeFdSet

theorem onlyWrites_foldl
    {Item : Type}
    {write : MainLoop → Item → MainLoop}
    (writes : ∀ loop item, OnlyWrites loop (write loop item))
    (items : List Item)
    (loop : MainLoop) :
    OnlyWrites loop (items.foldl write loop) := by
  induction items generalizing loop with
  | nil =>
      exact .refl loop
  | cons item rest inductionHypothesis =>
      exact (writes loop item).trans (inductionHypothesis _)

theorem onlyWrites_writeTo
    (loop : MainLoop)
    (sockfd : Int)
    (what : Written) :
    OnlyWrites loop (loop.writeTo sockfd what) := by
  unfold writeTo
  split
  · exact ⟨rfl, rfl, rfl, rfl, rfl⟩
  · exact .refl loop

theorem onlyWrites_reply
    (loop : MainLoop)
    (text : String) :
    OnlyWrites loop (loop.reply text) :=
  onlyWrites_writeTo loop _ _

theorem onlyWrites_broadcast
    (loop : MainLoop)
    (msg : String) :
    OnlyWrites loop (loop.broadcast msg) := by
  refine onlyWrites_foldl ?_ clientIds loop
  intro loop i
  split_ifs
  · exact onlyWrites_writeTo loop _ _
  · exact .refl loop

theorem onlyWrites_writeMessage
    (loop : MainLoop)
    (message : Message) :
    OnlyWrites loop (loop.writeMessage message) := by
  unfold writeMessage
  split
  · exact onlyWrites_broadcast loop _
  · exact onlyWrites_broadcast loop _
  · exact onlyWrites_foldl (fun loop sockfd => onlyWrites_writeTo loop _ _) _
      loop

theorem onlyWrites_printEnv
    (loop : MainLoop)
    (name : String) :
    OnlyWrites loop (loop.printEnv name) := by
  unfold printEnv
  split
  · split_ifs
    · exact (onlyWrites_reply loop _).trans (onlyWrites_reply _ _)
    · exact .refl loop
  · exact .refl loop

/-! ## What a line does -/

/-- The line of the server model behind a reply of `run_shell`. -/
def inputOfReply : ShellInput.Reply → Input
  | .sent _ | .refused _ => .talk
  | .nameExists name | .named name => .name (String.ofList name)
  | .listed | .variableSet _ _ | .variableRead _ => .builtin
  | .runs call => (inputOf call).getD .blank

/-- What a reply means for the environment. -/
def lineOfReply : ShellInput.Reply → EnvLine
  | .variableSet name value =>
      .setenv (String.ofList name) (String.ofList value)
  | .variableRead name => .printenv (String.ofList name)
  | _ => .command

/-- The environment after a line. -/
def setsEnv
    (loop : MainLoop)
    (id : Nat) :
    EnvLine → MainLoop
  | .setenv name value => loop.setEnv name value id true
  | .printenv _ | .command => loop

/-- A line changes the tables and the environment as the two models say. -/
theorem obey_effect
    {received : List Char}
    {outside : Outside}
    {loop ran : MainLoop}
    {reply : ShellInput.Reply}
    (obeyed : loop.obey received outside reply = some ran) :
    OnlyWrites
      ((loop.run (inputOfReply reply) outside).setsEnv loop.server.client.id
        (lineOfReply reply))
      ran := by
  cases reply with
  | sent messages =>
      cases obeyed
      exact onlyWrites_foldl (fun loop message => onlyWrites_writeTo loop _ _) _
        _
  | refused text =>
      cases obeyed
      exact onlyWrites_reply _ _
  | nameExists name =>
      cases obeyed
      exact onlyWrites_reply _ _
  | named name =>
      have isRan := Option.some.inj obeyed
      rw [← isRan]
      change OnlyWrites (loop.run (.name (String.ofList name)) outside) _
      exact onlyWrites_broadcast _ _
  | listed =>
      cases obeyed
      exact onlyWrites_reply _ _
  | variableSet name value =>
      cases obeyed
      exact .refl _
  | variableRead name =>
      cases obeyed
      exact onlyWrites_printEnv _ _
  | runs call =>
      obtain ⟨input, isInput, rfl⟩ := Option.map_eq_some_iff.mp obeyed
      have isReply : inputOfReply (.runs call) = input := by
        change (inputOf call).getD .blank = input
        rw [isInput]
        rfl
      rw [isReply]
      exact onlyWrites_foldl onlyWrites_writeMessage _ _

/-! ## One session and its event -/

/-- The event of the server model for a client that is served. -/
def eventOf
    (round : Round)
    (loop : MainLoop)
    (fd : Int) : ServerEvent :=
  let received := (round.received fd).getD []
  match ShellInput.runShell (loop.enter fd).view received with
  | .ok .blank => .input fd .blank (round.outside fd)
  | .ok (.handled reply) => .input fd (inputOfReply reply) (round.outside fd)
  | .ok .logout => if endsSession received then .endOfFile fd else .exit fd
  | .error _ => .endOfFile fd

/-- Its event for the environment. -/
def envEventOf
    (round : Round)
    (loop : MainLoop)
    (fd : Int) : EnvEvent :=
  let received := (round.received fd).getD []
  match ShellInput.runShell (loop.enter fd).view received with
  | .ok (.handled reply) => .line fd (lineOfReply reply)
  | .ok .logout => .logout fd
  | _ => .line fd .command

/-- What serving a client does, apart from the texts it writes. -/
inductive Served
    (loop : MainLoop)
    (fd : Int) :
    ServerEvent → EnvEvent → MainLoop → Prop where
  | line
      {next : MainLoop}
      (input : Input)
      (outside : Outside)
      (envLine : EnvLine)
      (connected : loop.server.connected fd = true)
      (writes :
        OnlyWrites
          (((loop.enter fd).run input outside).setsEnv
            (loop.enter fd).server.client.id envLine)
          next) :
      Served loop fd (.input fd input outside) (.line fd envLine) next
  | leaves
      {next : MainLoop}
      (event : ServerEvent)
      (left : Server)
      (remaining : List EnvVar)
      (connected : loop.server.connected fd = true)
      (steps : loop.server.Steps event left)
      (session : event.session = some fd)
      (isLogout :
        left = (loop.enter fd).server.logout fd ∨
          left = (loop.enter fd).server.countDown.logout fd)
      (deleted :
        deleteEnvVar (loop.enter fd).envId (loop.enter fd).envVars =
          some remaining)
      (writes :
        OnlyWrites
          { loop.enter fd with
            server := left
            activeFdSet := Function.update loop.activeFdSet fd false
            envVars := remaining }
          next) :
      Served loop fd event (.logout fd) next

/-- The end of a session, with or without the countdown of a line before. -/
theorem logout_effect
    {counted next : MainLoop}
    {fd : Int}
    (left : counted.logout fd = some next) :
    counted.server.dangling = false ∧
      ∃ remaining,
        deleteEnvVar counted.envId counted.envVars = some remaining ∧
          OnlyWrites
            { counted with
              server := counted.server.logout fd
              activeFdSet := Function.update counted.activeFdSet fd false
              envVars := remaining }
            next := by
  unfold logout at left
  split_ifs at left with dangling
  obtain ⟨remaining, deleted, isNext⟩ := Option.map_eq_some_iff.mp left
  refine ⟨by simpa using dangling, remaining, deleted, ?_⟩
  have writes :=
    onlyWrites_broadcast
      { counted with
        server := counted.server.logout fd
        activeFdSet := Function.update counted.activeFdSet fd false }
      (logoutMsg counted.server.self.name)
  dsimp only at isNext
  rw [← isNext]
  generalize
    broadcast (logoutMsg counted.server.self.name)
      { counted with
        server := counted.server.logout fd
        activeFdSet := Function.update counted.activeFdSet fd false } =
      said at writes ⊢
  exact ⟨writes.server, writes.environ, rfl, writes.envId, writes.activeFdSet⟩

theorem enter_activeFdSet
    (loop : MainLoop)
    (fd : Int) :
    (loop.enter fd).activeFdSet = loop.activeFdSet := by
  unfold enter
  dsimp only
  split_ifs <;> rfl

theorem enter_server
    (loop : MainLoop)
    (fd : Int) :
    (loop.enter fd).server = loop.server.enter fd := by
  unfold enter
  dsimp only
  split_ifs <;> rfl

/-- The two ways in which `run_shell` returns 0. -/
theorem runShell_stays
    {received : List Char}
    {outside : Outside}
    {loop ran : MainLoop}
    (stays : loop.runShell received outside = some (ran, false)) :
    ShellInput.runShell loop.view received = .ok .blank ∧ ran = loop ∨
      ∃ reply,
        ShellInput.runShell loop.view received = .ok (.handled reply) ∧
          loop.obey received outside reply = some ran := by
  unfold runShell at stays
  by_cases terminated : Terminated received
  · rw [if_pos terminated] at stays
    cases returned : ShellInput.runShell loop.view received with
    | error fault =>
        rw [returned] at stays
        cases stays
    | ok shellReturn =>
        rw [returned] at stays
        cases shellReturn with
        | logout => cases stays
        | blank =>
            cases stays
            exact Or.inl ⟨rfl, rfl⟩
        | handled reply =>
            dsimp only at stays
            by_cases bounded : inBounds received = true
            · rw [if_pos bounded] at stays
              obtain ⟨other, obeyed, same⟩ := Option.map_eq_some_iff.mp stays
              cases same
              exact Or.inr ⟨reply, rfl, obeyed⟩
            · rw [if_neg bounded] at stays
              cases stays
  · rw [if_neg terminated] at stays
    cases stays

/-- The way in which it returns -1. -/
theorem runShell_leaves
    {received : List Char}
    {outside : Outside}
    {loop ran : MainLoop}
    (leaves : loop.runShell received outside = some (ran, true)) :
    ShellInput.runShell loop.view received = .ok .logout ∧
      ran =
        if endsSession received then
          loop
        else
          { loop with server := loop.server.countDown } := by
  unfold runShell at leaves
  by_cases terminated : Terminated received
  · rw [if_pos terminated] at leaves
    cases returned : ShellInput.runShell loop.view received with
    | error fault =>
        rw [returned] at leaves
        cases leaves
    | ok shellReturn =>
        rw [returned] at leaves
        cases shellReturn with
        | logout =>
            cases leaves
            exact ⟨rfl, rfl⟩
        | blank => cases leaves
        | handled reply =>
            dsimp only at leaves
            by_cases bounded : inBounds received = true
            · rw [if_pos bounded] at leaves
              obtain ⟨other, _, same⟩ := Option.map_eq_some_iff.mp leaves
              cases same
            · rw [if_neg bounded] at leaves
              cases leaves
  · rw [if_neg terminated] at leaves
    cases leaves

/-- Serving a client is its event in both models. -/
theorem serve_served
    {round : Round}
    {loop next : MainLoop}
    {fd : Int}
    (served : loop.serve round fd = some next) :
    Served loop fd (loop.eventOf round fd) (loop.envEventOf round fd) next := by
  have sameActive := loop.enter_activeFdSet fd
  have sameServer := loop.enter_server fd
  unfold serve at served
  by_cases connected : loop.server.connected fd = true
  · rw [if_pos connected] at served
    unfold eventOf envEventOf
    dsimp only
    cases ran :
        (loop.enter fd).runShell ((round.received fd).getD [])
          (round.outside fd) with
    | none =>
        rw [ran] at served
        cases served
    | some result =>
        obtain ⟨after, leaves⟩ := result
        rw [ran] at served
        cases leaves with
        | false =>
            cases served
            rcases runShell_stays ran with ⟨returned, rfl⟩ | ⟨reply, returned, obeyed⟩
            · rw [returned]
              exact .line .blank (round.outside fd) .command connected
                (onlyWrites_writeTo ..)
            · rw [returned]
              exact .line (inputOfReply reply) (round.outside fd)
                (lineOfReply reply) connected
                ((obey_effect obeyed).trans (onlyWrites_writeTo ..))
        | true =>
            obtain ⟨returned, isAfter⟩ := runShell_leaves ran
            obtain ⟨intact, remaining, deleted, writes⟩ := logout_effect served
            rw [returned]
            dsimp only
            by_cases isEnd : endsSession ((round.received fd).getD []) = true
            · rw [if_pos isEnd] at isAfter ⊢
              rw [isAfter] at intact deleted writes
              rw [sameActive] at writes
              refine .leaves (.endOfFile fd) _ remaining connected ?_ rfl
                (.inl rfl) deleted writes
              rw [sameServer] at intact ⊢
              exact Server.Moves.steps (.endOfFile connected intact)
            · rw [if_neg isEnd] at isAfter ⊢
              rw [isAfter] at deleted writes
              rw [sameActive] at writes
              refine .leaves (.exit fd) _ remaining connected ?_ rfl
                (.inr rfl) deleted writes
              rw [sameServer]
              exact Server.Moves.steps (.exit connected)
  · rw [if_neg connected] at served
    cases served

theorem Served.steps
    {loop next : MainLoop}
    {fd : Int}
    {event : ServerEvent}
    {envEvent : EnvEvent}
    (served : Served loop fd event envEvent next) :
    loop.server.Steps event next.server := by
  cases served with
  | line input outside envLine connected writes =>
      have sameServer :
          next.server = (loop.server.enter fd).runShell input outside := by
        rw [writes.server, ← loop.enter_server fd]
        cases envLine <;> rfl
      rw [sameServer]
      exact Server.Moves.steps (.input connected)
  | leaves event left remaining connected steps session isLogout deleted writes =>
      rw [writes.server]
      exact steps

theorem Served.session
    {loop next : MainLoop}
    {fd : Int}
    {event : ServerEvent}
    {envEvent : EnvEvent}
    (served : Served loop fd event envEvent next) :
    event.session = some fd := by
  cases served with
  | line input outside envLine connected writes => rfl
  | leaves event left remaining connected steps session isLogout deleted writes =>
      exact session

/-! ## A new client -/

/-- The round takes a new client. -/
def takesClient
    (totalFdNum : Nat)
    (round : Round)
    (loop : MainLoop) : Bool :=
  round.incoming.isSome && decide (loop.server.main.clientNum < maxClientNum) &&
    decide (loop.server.fds.lowestFree < totalFdNum)

/-- What a login does, apart from the texts and the address of the client. -/
theorem accept_effect
    (totalFdNum : Nat)
    (round : Round)
    (loop : MainLoop) :
    if loop.takesClient totalFdNum round then
      OnlyWrites
        { loop with
          server := loop.server.login
          activeFdSet :=
            Function.update loop.activeFdSet loop.server.fds.lowestFree true
          environ := setenv loop.environ "PATH" "bin:." false
          envVars :=
            setEnvVar "PATH" "bin:." loop.server.main.minId loop.envVars }
        (loop.accept totalFdNum round)
    else
      loop.accept totalFdNum round = loop := by
  unfold takesClient accept
  cases round.incoming with
  | none => rfl
  | some clientAddr =>
      simp only [Option.isSome_some, Bool.true_and, Bool.and_eq_true,
        decide_eq_true_eq]
      by_cases room : loop.server.main.clientNum < maxClientNum
      · by_cases free : loop.server.fds.lowestFree < totalFdNum
        · rw [if_pos ⟨room, free⟩, if_pos room, if_pos free]
          unfold login
          dsimp only
          generalize loginMsg _ _ = text
          refine OnlyWrites.trans ?_ (onlyWrites_writeTo _ _ _)
          refine OnlyWrites.trans ?_ (onlyWrites_broadcast _ _)
          have welcomed :=
            onlyWrites_writeTo
              { loop with
                server := loop.server.login
                activeFdSet :=
                  Function.update loop.activeFdSet
                    loop.server.fds.lowestFree true
                connectionInfor :=
                  Function.update loop.connectionInfor
                    loop.server.main.minId clientAddr }
              loop.server.fds.lowestFree .welcome
          unfold setEnv
          exact ⟨welcomed.server, by rw [welcomed.environ],
            by rw [welcomed.envVars], welcomed.envId, welcomed.activeFdSet⟩
        · rw [if_neg (fun both => free both.2), if_pos room, if_neg free]
      · rw [if_neg (fun both => room both.1), if_neg room]

/-! ## The run of the server model behind a run of `main` -/

/-- The events of the clients that are served, with the states between them. -/
def servePath
    (round : Round) :
    MainLoop → List Int → List (ServerEvent × Server)
  | _, [] => []
  | loop, fd :: rest =>
      match loop.serve round fd with
      | some next =>
          (loop.eventOf round fd, next.server) :: servePath round next rest
      | none => []

/-- The login of a round, if there is one. -/
def loginPath
    (totalFdNum : Nat)
    (round : Round)
    (loop : MainLoop) : List (ServerEvent × Server) :=
  if loop.takesClient totalFdNum round then
    [(.login, loop.server.login)]
  else
    []

/-- The events of one action. -/
def actionPath
    (totalFdNum : Nat)
    (loop : MainLoop) :
    MainAction → List (ServerEvent × Server)
  | .round round =>
      loop.loginPath totalFdNum round ++
        servePath round (loop.accept totalFdNum round)
          (loop.ready totalFdNum round)
  | .childExits index => [(.childExits index, loop.server.exitChild index)]

/-- The events of a run. -/
def serverPath
    (totalFdNum : Nat) :
    MainLoop → List (MainAction × MainLoop) → List (ServerEvent × Server)
  | _, [] => []
  | loop, (action, next) :: rest =>
      loop.actionPath totalFdNum action ++ serverPath totalFdNum next rest

section ServerPath

variable {totalFdNum : Nat}
variable {round : Round}
variable {loop next : MainLoop}

/-- The loop over the descriptors is a path of the server model. -/
theorem path_servePath
    {fds : List Int}
    (served : fds.foldlM (serve round) loop = some next) :
    Path Server.Steps loop.server (servePath round loop fds) ∧
      lastState loop.server (servePath round loop fds) = next.server ∧
      (servePath round loop fds).filterMap (·.1.session) = fds := by
  induction fds generalizing loop with
  | nil =>
      cases served
      exact ⟨trivial, rfl, rfl⟩
  | cons fd rest inductionHypothesis =>
      rw [List.foldlM_cons] at served
      obtain ⟨between, isServed, later⟩ := Option.bind_eq_some_iff.mp served
      obtain ⟨isPath, isLast, sessions⟩ := inductionHypothesis later
      have event := serve_served isServed
      unfold servePath
      rw [isServed]
      refine ⟨⟨event.steps, isPath⟩, isLast, ?_⟩
      dsimp only
      rw [List.filterMap_cons, event.session, sessions]

theorem path_loginPath
    (totalFdNum : Nat)
    (round : Round)
    (loop : MainLoop) :
    Path Server.Steps loop.server (loop.loginPath totalFdNum round) ∧
      lastState loop.server (loop.loginPath totalFdNum round) =
        (loop.accept totalFdNum round).server ∧
      (loop.loginPath totalFdNum round).filterMap (·.1.session) = [] := by
  have effect := accept_effect totalFdNum round loop
  unfold loginPath
  by_cases takes : loop.takesClient totalFdNum round = true
  · rw [if_pos takes] at effect ⊢
    unfold takesClient at takes
    simp only [Bool.and_eq_true, decide_eq_true_eq] at takes
    exact ⟨⟨Server.Moves.steps (.login takes.1.2), trivial⟩,
      effect.server.symm, rfl⟩
  · rw [if_neg takes] at effect ⊢
    rw [effect]
    exact ⟨trivial, rfl, rfl⟩

/-- A round serves each session that is ready once, and a login comes first. -/
theorem path_actionPath
    {action : MainAction}
    (stepped : loop.Steps totalFdNum action next) :
    Path Server.Steps loop.server (loop.actionPath totalFdNum action) ∧
      lastState loop.server (loop.actionPath totalFdNum action) =
        next.server := by
  cases action with
  | round round =>
      obtain ⟨loginIsPath, loginLast, _⟩ := path_loginPath totalFdNum round loop
      obtain ⟨isPath, isLast, _⟩ := path_servePath stepped
      rw [← loginLast] at isPath isLast
      exact ⟨loginIsPath.append isPath,
        (lastState_append ..).trans isLast⟩
  | childExits index =>
      cases stepped
      exact ⟨⟨Server.Moves.steps (.childExits index), trivial⟩, rfl⟩

/-- A run of `main` is a run of the server model. -/
theorem path_serverPath
    {path : List (MainAction × MainLoop)}
    (isPath : Path (Steps totalFdNum) loop path) :
    Path Server.Steps loop.server (serverPath totalFdNum loop path) ∧
      lastState loop.server (serverPath totalFdNum loop path) =
        (lastState loop path).server := by
  induction path generalizing loop with
  | nil =>
      exact ⟨trivial, rfl⟩
  | cons entry rest inductionHypothesis =>
      obtain ⟨action, between⟩ := entry
      obtain ⟨actionIsPath, actionLast⟩ := path_actionPath isPath.1
      obtain ⟨laterIsPath, laterLast⟩ := inductionHypothesis isPath.2
      rw [← actionLast] at laterIsPath laterLast
      exact ⟨actionIsPath.append laterIsPath,
        (lastState_append ..).trans laterLast⟩

end ServerPath

end MainLoop

/-! ## The descriptors that `select` watches -/

namespace Server

variable {server : Server}

/-- The descriptors that are no ends of pipes are left as they are. -/
structure KeepsFiles (before after : Server) : Prop where
  file :
    ∀ {fd file},
      before.fds.file fd = some file →
      file.pipe? = none →
      after.fds.file fd = some file
  nextConnection : after.nextConnection = before.nextConnection

theorem KeepsFiles.freeRecord
    {after : Server}
    (keeps : KeepsFiles server after) :
    KeepsFiles server after.freeRecord where
  file := by
    intro fd file isOpen notPipe
    rw [freeRecord_fds]
    exact keeps.file isOpen notPipe
  nextConnection := by
    unfold Server.freeRecord
    split_ifs
    · exact keeps.nextConnection
    · exact keeps.nextConnection

/-- A line keeps the sockets and files of the server. -/
theorem Settled.keepsFiles
    (settled : server.Settled)
    (state : (server.client.list server.client.id).state = true)
    {input : Input}
    (outside : Outside)
    (notSelf : ¬ server.countDown.SelfPipes input) :
    KeepsFiles server (server.runShell input outside) := by
  have lineReady := settled.lineReady state
  have counted : KeepsFiles server server.countDown :=
    ⟨fun isOpen _ => isOpen, rfl⟩
  have kept {line : Command} {number : Nat} {after : Server}
      (effect : Effect line number server.countDown after) :
      KeepsFiles server after := by
    obtain ⟨_, _, frame⟩ := effect.takes
    refine ⟨?_, frame.nextConnection⟩
    intro fd file isOpen notPipe
    exact frame.fds.file_base
      ((lineReady.underway_taken line).keeps isOpen notPipe)
  cases input with
  | blank => exact ⟨fun isOpen _ => isOpen, rfl⟩
  | talk => exact counted
  | builtin => exact counted.freeRecord
  | name name =>
      refine KeepsFiles.freeRecord ⟨?_, ?_⟩
      · intro fd file isOpen _
        change (server.countDown.cmdName name).fds.file fd = some file
        rw [(sameRecords_cmdName _ name).fds]
        exact isOpen
      · change (server.countDown.cmdName name).nextConnection = _
        unfold Server.cmdName
        split_ifs <;> rfl
  | single line =>
      exact
        (kept
          (singleCmd_effect outside (lineReady.inputPipes line).inputOpen
            notSelf)).freeRecord
  | pipeline line stages =>
      refine KeepsFiles.freeRecord ?_
      change KeepsFiles server (server.countDown.ordinaryPipe line outside _)
      unfold Server.ordinaryPipe
      split_ifs
      · exact ⟨fun isOpen _ => isOpen, rfl⟩
      · exact kept
          (runPipeline_effect outside stages
            (lineReady.inputPipes line).inputOpen)

end Server

namespace MainLoop

/--
`select` watches the listening socket and the sockets of the sessions, and the
two tables of descriptors and sessions are as between two lines.
-/
structure Watching (loop : MainLoop) : Prop where
  settled : loop.server.Settled
  listener : loop.server.fds.file msockfd = some .listener
  ids : ∀ fd, -1 ≤ loop.server.main.fdIdList fd
  active :
    ∀ fd,
      loop.activeFdSet fd = true ↔
        fd = msockfd ∨ 0 ≤ loop.server.main.fdIdList fd

section Watching

variable {loop next : MainLoop}

/-- A descriptor that is not open belongs to no session. -/
theorem Watching.noSession
    (watching : loop.Watching)
    {fd : Int}
    (free : loop.server.fds.file fd = none) :
    loop.server.main.fdIdList fd = -1 := by
  have bound := watching.ids fd
  by_contra isSession
  obtain ⟨connection, isOpen⟩ :=
    watching.settled.sockets.isOpen (by omega : 0 ≤ loop.server.main.fdIdList fd)
  rw [free] at isOpen
  cases isOpen

/-- The listening socket is not the one of a session. -/
theorem Watching.ne_msockfd
    (watching : loop.Watching)
    {fd : Int}
    (isSession : 0 ≤ loop.server.main.fdIdList fd) :
    fd ≠ msockfd := by
  rintro rfl
  obtain ⟨connection, isOpen⟩ := watching.settled.sockets.isOpen isSession
  rw [watching.listener] at isOpen
  cases isOpen

theorem Watching.of_server
    (watching : loop.Watching)
    (settled : next.server.Settled)
    (listener : next.server.fds.file msockfd = some .listener)
    (sameIds : next.server.main.fdIdList = loop.server.main.fdIdList)
    (sameActive : next.activeFdSet = loop.activeFdSet) :
    next.Watching where
  settled := settled
  listener := listener
  ids := by
    rw [sameIds]
    exact watching.ids
  active := by
    rw [sameIds, sameActive]
    exact watching.active

theorem Watching.of_onlyWrites
    (watching : loop.Watching)
    (writes : OnlyWrites loop next) :
    next.Watching := by
  refine watching.of_server ?_ ?_ ?_ writes.activeFdSet
  · rw [writes.server]
    exact watching.settled
  · rw [writes.server]
    exact watching.listener
  · rw [writes.server]

theorem connected_isSession
    {fd : Int}
    (connected : loop.server.connected fd = true) :
    0 ≤ loop.server.main.fdIdList fd := by
  unfold Server.connected at connected
  simp only [Bool.and_eq_true, decide_eq_true_eq] at connected
  exact connected.1

theorem Watching.serve
    (watching : loop.Watching)
    {fd : Int}
    {event : ServerEvent}
    {envEvent : EnvEvent}
    (served : Served loop fd event envEvent next)
    (notSelf : ¬ loop.server.SelfPipesAt event) :
    next.Watching := by
  have settled := watching.settled.step notSelf served.steps
  cases served with
  | line input outside envLine connected writes =>
      obtain ⟨state, _⟩ := Server.enter_of_connected connected
      have sameServer :
          next.server = (loop.server.enter fd).runShell input outside := by
        rw [writes.server, ← loop.enter_server fd]
        cases envLine <;> rfl
      have sameIds :
          next.server.main.fdIdList = loop.server.main.fdIdList := by
        rw [sameServer]
        exact (Server.sameSessions_runShell input outside _).1.fdIdList
      have sameActive : next.activeFdSet = loop.activeFdSet := by
        rw [writes.activeFdSet, ← loop.enter_activeFdSet fd]
        cases envLine <;> rfl
      refine watching.of_server settled ?_ sameIds sameActive
      rw [sameServer]
      exact
        ((watching.settled.enter fd).keepsFiles state outside notSelf).file
          watching.listener rfl
  | leaves event left remaining connected steps session isLogout deleted writes =>
      obtain ⟨state, isId⟩ := Server.enter_of_connected connected
      have isSession := connected_isSession connected
      have notListener := watching.ne_msockfd isSession
      have entered := watching.settled.enter fd
      have sameServer := loop.enter_server fd
      have listener : left.fds.file msockfd = some .listener := by
        rcases isLogout with rfl | rfl
        · rw [sameServer]
          exact entered.file_logout state watching.listener rfl
            (Ne.symm notListener)
        · rw [sameServer]
          exact (entered.countDown state).file_logout
            (entered.lineReady state).inLine.state watching.listener rfl
            (Ne.symm notListener)
      have leftIds :
          left.main.fdIdList =
            Function.update loop.server.main.fdIdList fd (-1) := by
        rcases isLogout with rfl | rfl
        · rw [sameServer]
          rfl
        · rw [sameServer]
          rfl
      have isLeft := writes.server
      have isActive := writes.activeFdSet
      refine ⟨settled, ?_, ?_, ?_⟩
      · rw [isLeft]
        exact listener
      · intro other
        rw [isLeft]
        dsimp only
        rw [leftIds, Function.update_apply]
        split_ifs
        · exact le_refl _
        · exact watching.ids other
      · intro other
        rw [isLeft, isActive]
        dsimp only
        rw [leftIds, Function.update_apply, Function.update_apply]
        split_ifs with here
        · subst here
          simp [notListener]
        · exact watching.active other

theorem Watching.accept
    (watching : loop.Watching)
    (totalFdNum : Nat)
    (round : Round) :
    (loop.accept totalFdNum round).Watching := by
  have effect := accept_effect totalFdNum round loop
  split_ifs at effect
  · have sameIds :
        loop.server.login.main.fdIdList =
          Function.update loop.server.main.fdIdList
            loop.server.fds.lowestFree loop.server.main.minId :=
      rfl
    refine Watching.of_onlyWrites ⟨?_, ?_, ?_, ?_⟩ effect
    · exact watching.settled.login
    · have different : msockfd ≠ loop.server.fds.lowestFree := by
        intro same
        have isOpen := watching.listener
        rw [same, file_lowestFree] at isOpen
        cases isOpen
      change (loop.server.fds.openFile _).file msockfd = _
      rw [openFile_file, Function.update_of_ne different]
      exact watching.listener
    · intro other
      dsimp only
      rw [sameIds, Function.update_apply]
      split_ifs
      · omega
      · exact watching.ids other
    · intro other
      dsimp only
      rw [sameIds, Function.update_apply, Function.update_apply]
      split_ifs
      · simp
      · exact watching.active other
  · rw [effect]
    exact watching

theorem watching_initial
    (environ : Environ) :
    (initial environ).Watching where
  settled := Server.settled_initial
  listener := by
    change Server.initial.fds.file msockfd = _
    decide
  ids := fun _ => le_refl _
  active := by
    intro fd
    simp [initial, Server.initial, MainState.initialClientInfor]

end Watching

/-! ## The run of the environment model behind a run of `main` -/

/-- The environment model is in the state of the loop. -/
structure Follows
    (env : EnvServer)
    (loop : MainLoop) : Prop where
  environ : env.environ = loop.environ
  envVars : env.envVars = loop.envVars
  envId : env.envId = loop.envId
  sessions : MainState.SameSessions env.main loop.server.main

section Follows

variable {loop next : MainLoop}
variable {env : EnvServer}

theorem Follows.of_onlyWrites
    (follows : Follows env loop)
    (writes : OnlyWrites loop next) :
    Follows env next where
  environ := follows.environ.trans writes.environ.symm
  envVars := follows.envVars.trans writes.envVars.symm
  envId := follows.envId.trans writes.envId.symm
  sessions := by
    rw [writes.server]
    exact follows.sessions

theorem Follows.idOf
    (follows : Follows env loop)
    (fd : Int) :
    env.idOf fd = (loop.server.main.fdIdList fd).toNat := by
  unfold EnvServer.idOf
  rw [follows.sessions.fdIdList]

theorem enter_envId
    (loop : MainLoop)
    (fd : Int) :
    (loop.enter fd).envId = (loop.server.main.fdIdList fd).toNat := by
  unfold enter
  dsimp only
  split_ifs with same
  · exact same.symm
  · rfl

/-- Both switch the environment to the client. -/
theorem Follows.enter
    (follows : Follows env loop)
    (fd : Int) :
    Follows (env.switch fd) (loop.enter fd) := by
  have sessions :
      MainState.SameSessions env.main (loop.server.enter fd).main :=
    ⟨follows.sessions.fdIdList, follows.sessions.clientNum,
      follows.sessions.minId, follows.sessions.state, follows.sessions.sockfd⟩
  unfold EnvServer.switch MainLoop.enter
  dsimp only
  rw [follows.idOf, follows.envId]
  split_ifs
  · exact ⟨follows.environ, follows.envVars, follows.envId, sessions⟩
  · refine ⟨?_, follows.envVars, rfl, sessions⟩
    dsimp only
    rw [follows.envVars, follows.environ]

theorem Follows.admits
    (follows : Follows env loop)
    {fd : Int}
    (connected : loop.server.connected fd = true) :
    env.main.admitsEvent (.logout fd) = true := by
  rw [follows.sessions.admitsEvent]
  exact connected

/-- The environment model takes the event of a client that is served. -/
theorem Follows.serve
    (follows : Follows env loop)
    {fd : Int}
    {event : ServerEvent}
    {envEvent : EnvEvent}
    (served : Served loop fd event envEvent next) :
    ∃ envNext, env.step envEvent = some envNext ∧ Follows envNext next := by
  have entered := follows.enter fd
  cases served with
  | line input outside envLine connected writes =>
      have ran :
          Follows (env.switch fd) ((loop.enter fd).run input outside) := by
        refine ⟨entered.environ, entered.envVars, entered.envId, ?_⟩
        have same :=
          (Server.sameSessions_runShell input outside
            (loop.enter fd).server).1
        exact ⟨entered.sessions.fdIdList.trans same.fdIdList.symm,
          entered.sessions.clientNum.trans same.clientNum.symm,
          entered.sessions.minId.trans same.minId.symm,
          fun i => (entered.sessions.state i).trans (same.state i).symm,
          fun i => (entered.sessions.sockfd i).trans (same.sockfd i).symm⟩
      refine ⟨(env.switch fd).obey fd envLine,
        if_pos (follows.admits connected), ?_⟩
      refine Follows.of_onlyWrites ?_ writes
      cases envLine with
      | setenv name value =>
          have sameId :
              (env.switch fd).idOf fd = (loop.enter fd).server.client.id := by
            rw [entered.idOf, enter_server]
            rfl
          refine ⟨?_, ?_, ran.envId, ran.sessions⟩
          · change setenv (env.switch fd).environ name value true = _
            rw [ran.environ]
            rfl
          · change setEnvVar name value ((env.switch fd).idOf fd) _ = _
            rw [ran.envVars, sameId]
            rfl
      | printenv name => exact ran
      | command => exact ran
  | leaves event left remaining connected steps session isLogout deleted writes =>
      have removed :
          deleteEnvVar (env.idOf fd) (env.switch fd).envVars =
            some remaining := by
        rw [follows.idOf, ← loop.enter_envId fd, entered.envVars]
        exact deleted
      have stepped :
          env.step (.logout fd) =
            some
              { env.switch fd with
                main := env.main.logout fd
                envVars := remaining } := by
        unfold EnvServer.step
        have admitted : env.admits (.logout fd) = true :=
          follows.admits connected
        rw [if_pos admitted]
        dsimp only
        rw [removed]
        rfl
      refine ⟨_, stepped, Follows.of_onlyWrites ?_ writes⟩
      refine ⟨entered.environ, rfl, entered.envId, ?_⟩
      have leftMain :
          left.main = (loop.enter fd).server.main.logout fd ∨
            left.main = (loop.enter fd).server.countDown.main.logout fd :=
        isLogout.imp (congrArg Server.main) (congrArg Server.main)
      have sameMain :
          MainState.SameSessions env.main (loop.enter fd).server.main := by
        rw [enter_server]
        exact ⟨follows.sessions.fdIdList, follows.sessions.clientNum,
          follows.sessions.minId, follows.sessions.state,
          follows.sessions.sockfd⟩
      rcases leftMain with isLeft | isLeft
      · change MainState.SameSessions (env.main.logout fd) left.main
        rw [isLeft]
        exact sameMain.logout fd
      · change MainState.SameSessions (env.main.logout fd) left.main
        rw [isLeft]
        have counted :=
          Server.sameSessions_setInfor (loop.enter fd).server
            (loop.enter fd).server.infor.countDownAndCheck
        exact (sameMain.trans ⟨counted.fdIdList.symm, counted.clientNum.symm,
          counted.minId.symm, fun i => (counted.state i).symm,
          fun i => (counted.sockfd i).symm⟩).logout fd

/-- The environment model takes the login of a round. -/
theorem Follows.login
    (follows : Follows env loop)
    (watching : loop.Watching)
    {totalFdNum : Nat}
    {round : Round}
    (takes : loop.takesClient totalFdNum round = true) :
    ∃ envNext,
      env.step (.login loop.server.fds.lowestFree) = some envNext ∧
        Follows envNext (loop.accept totalFdNum round) := by
  have effect := accept_effect totalFdNum round loop
  rw [if_pos takes] at effect
  unfold takesClient at takes
  simp only [Bool.and_eq_true, decide_eq_true_eq] at takes
  have noSession := watching.noSession loop.server.fds.file_lowestFree
  have admitted :
      env.admits (.login loop.server.fds.lowestFree) = true := by
    change env.main.admitsEvent (.login loop.server.fds.lowestFree) = true
    rw [follows.sessions.admitsEvent]
    unfold MainState.admitsEvent
    simp only [Bool.and_eq_true, decide_eq_true_eq]
    exact ⟨takes.1.2, noSession⟩
  have stepped :
      env.step (.login loop.server.fds.lowestFree) =
        some
          { env.setEnv "PATH" "bin:." env.main.minId false with
            main := env.main.login loop.server.fds.lowestFree } :=
    if_pos admitted
  refine ⟨_, stepped, Follows.of_onlyWrites ?_ effect⟩
  refine ⟨?_, ?_, follows.envId, follows.sessions.login _⟩
  · change setenv env.environ "PATH" "bin:." false = _
    rw [follows.environ]
  · change setEnvVar "PATH" "bin:." env.main.minId env.envVars = _
    rw [follows.envVars, follows.sessions.minId]

end Follows

/-- The environment events of the clients that are served. -/
def serveEvents
    (round : Round) :
    MainLoop → List Int → List EnvEvent
  | _, [] => []
  | loop, fd :: rest =>
      match loop.serve round fd with
      | some next => loop.envEventOf round fd :: serveEvents round next rest
      | none => []

/-- The environment events of an action. -/
def actionEvents
    (totalFdNum : Nat)
    (loop : MainLoop) :
    MainAction → List EnvEvent
  | .round round =>
      (if loop.takesClient totalFdNum round then
          [.login loop.server.fds.lowestFree]
        else []) ++
        serveEvents round (loop.accept totalFdNum round)
          (loop.ready totalFdNum round)
  | .childExits _ => []

/-- The environment events of a run. -/
def envEvents
    (totalFdNum : Nat) :
    MainLoop → List (MainAction × MainLoop) → List EnvEvent
  | _, [] => []
  | loop, (action, next) :: rest =>
      loop.actionEvents totalFdNum action ++ envEvents totalFdNum next rest

/-- No event reads the descriptors that `single_cmd` leaves uninitialised. -/
def NotSelfPiped
    (server : Server)
    (event : ServerEvent) : Prop :=
  ¬ server.SelfPipesAt event

instance NotSelfPiped.decidable
    (server : Server) :
    (event : ServerEvent) → Decidable (NotSelfPiped server event)
  | .input fd input _ =>
      inferInstanceAs
        (Decidable (¬ (server.enter fd).countDown.SelfPipes input))
  | .login | .exit _ | .endOfFile _ | .childExits _ => .isTrue id

section Runs

variable {totalFdNum : Nat}
variable {round : Round}
variable {loop next : MainLoop}
variable {env : EnvServer}

/-- The loop over the descriptors. -/
theorem Watching.foldl_serve
    {fds : List Int}
    (watching : loop.Watching)
    (served : fds.foldlM (MainLoop.serve round) loop = some next)
    (notSelf :
      EveryStep NotSelfPiped loop.server (servePath round loop fds)) :
    next.Watching := by
  induction fds generalizing loop with
  | nil =>
      cases served
      exact watching
  | cons fd rest inductionHypothesis =>
      rw [List.foldlM_cons] at served
      obtain ⟨between, isServed, later⟩ := Option.bind_eq_some_iff.mp served
      unfold servePath at notSelf
      rw [isServed] at notSelf
      exact
        inductionHypothesis (watching.serve (serve_served isServed) notSelf.1)
          later notSelf.2

/-- The condition on the events of a round, behind its login. -/
theorem everyStep_servePath
    (notSelf :
      EveryStep NotSelfPiped loop.server
        (loop.actionPath totalFdNum (.round round))) :
    EveryStep NotSelfPiped (loop.accept totalFdNum round).server
      (servePath round (loop.accept totalFdNum round)
        (loop.ready totalFdNum round)) := by
  obtain ⟨_, loginLast, _⟩ := path_loginPath totalFdNum round loop
  have laterNotSelf := (everyStep_append.mp notSelf).2
  rw [loginLast] at laterNotSelf
  exact laterNotSelf

/-- An action. -/
theorem Watching.act
    {action : MainAction}
    (watching : loop.Watching)
    (stepped : loop.Steps totalFdNum action next)
    (notSelf :
      EveryStep NotSelfPiped loop.server (loop.actionPath totalFdNum action)) :
    next.Watching := by
  cases action with
  | childExits index =>
      cases stepped
      exact watching.of_server (watching.settled.exitChild index)
        watching.listener rfl rfl
  | round round =>
      exact
        (watching.accept totalFdNum round).foldl_serve stepped
          (everyStep_servePath notSelf)

/-- The condition on the events of a run, for its first action and the rest. -/
theorem everyStep_serverPath_cons
    {action : MainAction}
    {rest : List (MainAction × MainLoop)}
    (stepped : loop.Steps totalFdNum action next)
    (notSelf :
      EveryStep NotSelfPiped loop.server
        (serverPath totalFdNum loop ((action, next) :: rest))) :
    EveryStep NotSelfPiped loop.server (loop.actionPath totalFdNum action) ∧
      EveryStep NotSelfPiped next.server (serverPath totalFdNum next rest) := by
  obtain ⟨actionNotSelf, laterNotSelf⟩ := everyStep_append.mp notSelf
  obtain ⟨_, actionLast⟩ := path_actionPath stepped
  rw [actionLast] at laterNotSelf
  exact ⟨actionNotSelf, laterNotSelf⟩

/-- A run. -/
theorem Watching.run
    {path : List (MainAction × MainLoop)}
    (watching : loop.Watching)
    (isPath : Path (Steps totalFdNum) loop path)
    (notSelf :
      EveryStep NotSelfPiped loop.server (serverPath totalFdNum loop path)) :
    EveryState Watching loop path := by
  induction path generalizing loop with
  | nil =>
      exact watching
  | cons entry rest inductionHypothesis =>
      obtain ⟨action, between⟩ := entry
      obtain ⟨actionNotSelf, laterNotSelf⟩ :=
        everyStep_serverPath_cons isPath.1 notSelf
      exact ⟨watching,
        inductionHypothesis (watching.act isPath.1 actionNotSelf) isPath.2
          laterNotSelf⟩

/-- The loop over the descriptors, in the environment model. -/
theorem serve_follows
    {fds : List Int}
    (follows : Follows env loop)
    (served : fds.foldlM (serve round) loop = some next) :
    ∃ envNext,
      env.run (serveEvents round loop fds) = some envNext ∧
        Follows envNext next := by
  induction fds generalizing loop env with
  | nil =>
      cases served
      exact ⟨env, rfl, follows⟩
  | cons fd rest inductionHypothesis =>
      rw [List.foldlM_cons] at served
      obtain ⟨between, isServed, later⟩ := Option.bind_eq_some_iff.mp served
      obtain ⟨envBetween, envStepped, followsBetween⟩ :=
        follows.serve (serve_served isServed)
      obtain ⟨envNext, envRan, followsNext⟩ :=
        inductionHypothesis followsBetween later
      refine ⟨envNext, ?_, followsNext⟩
      unfold serveEvents EnvServer.run
      rw [isServed]
      dsimp only
      rw [List.foldlM_cons, envStepped]
      exact envRan

/-- An action, in the environment model. -/
theorem act_follows
    {action : MainAction}
    (watching : loop.Watching)
    (follows : Follows env loop)
    (stepped : loop.Steps totalFdNum action next) :
    ∃ envNext,
      env.run (loop.actionEvents totalFdNum action) = some envNext ∧
        Follows envNext next := by
  cases action with
  | childExits index =>
      cases stepped
      exact ⟨env, rfl, follows.environ, follows.envVars, follows.envId,
        follows.sessions⟩
  | round round =>
      -- the login comes first
      obtain ⟨envBetween, envLogin, followsBetween⟩ :
          ∃ envBetween,
            env.run
                (if loop.takesClient totalFdNum round then
                  [.login loop.server.fds.lowestFree]
                else []) = some envBetween ∧
              Follows envBetween (loop.accept totalFdNum round) := by
        split_ifs with takes
        · obtain ⟨envBetween, envStepped, followsBetween⟩ :=
            follows.login watching takes
          refine ⟨envBetween, ?_, followsBetween⟩
          unfold EnvServer.run
          rw [List.foldlM_cons, envStepped]
          rfl
        · have effect := accept_effect totalFdNum round loop
          rw [if_neg takes] at effect
          rw [effect]
          exact ⟨env, rfl, follows⟩
      obtain ⟨envNext, envRan, followsNext⟩ :=
        serve_follows followsBetween stepped
      refine ⟨envNext, ?_, followsNext⟩
      unfold actionEvents EnvServer.run
      rw [List.foldlM_append]
      exact Option.bind_eq_some_iff.mpr ⟨envBetween, envLogin, envRan⟩

/-- A run, in the environment model. -/
theorem run_follows
    {path : List (MainAction × MainLoop)}
    (watching : loop.Watching)
    (follows : Follows env loop)
    (isPath : Path (Steps totalFdNum) loop path)
    (notSelf :
      EveryStep NotSelfPiped loop.server (serverPath totalFdNum loop path)) :
    ∃ envNext,
      env.run (envEvents totalFdNum loop path) = some envNext ∧
        Follows envNext (lastState loop path) := by
  induction path generalizing loop env with
  | nil =>
      exact ⟨env, rfl, follows⟩
  | cons entry rest inductionHypothesis =>
      obtain ⟨action, between⟩ := entry
      obtain ⟨actionNotSelf, laterNotSelf⟩ :=
        everyStep_serverPath_cons isPath.1 notSelf
      obtain ⟨envBetween, envRan, followsBetween⟩ :=
        act_follows watching follows isPath.1
      obtain ⟨envNext, envLater, followsNext⟩ :=
        inductionHypothesis (watching.act isPath.1 actionNotSelf)
          followsBetween isPath.2 laterNotSelf
      refine ⟨envNext, ?_, followsNext⟩
      unfold envEvents EnvServer.run
      rw [List.foldlM_append]
      exact Option.bind_eq_some_iff.mpr ⟨envBetween, envRan, envLater⟩

end Runs

theorem follows_initial
    (environ : Environ) :
    Follows (.initial environ) (initial environ) :=
  ⟨rfl, rfl, rfl, .refl _⟩

/-! ## The results -/

/-- Nothing is opened, and no variable is read before it is written. -/
def quietOutside : Outside where
  fd := { readFd := -1, writeFd := -1 }
  pos := -1
  exFd0 := -1
  opens := fun _ => false

/-- A round with what it accepts and reads; nothing is opened in it. -/
def quietRound
    (incoming : Option SockaddrIn)
    (received : List (Int × String)) : MainAction :=
  .round
    { incoming := incoming
      received := fun fd => (received.lookup fd).map String.toList
      outside := fun _ => quietOutside }

/-- Three clients arrive, and the first two leave in the round of the third. -/
def visitActions : List MainAction :=
  [quietRound (some { sinAddr := "10.0.0.1", sinPort := 40001 }) [],
    quietRound (some { sinAddr := "10.0.0.2", sinPort := 40002 }) [],
    quietRound (some { sinAddr := "10.0.0.3", sinPort := 40003 })
      [(5, "\x04"), (4, "\x04")]]

/-- The path of a list of actions; empty when the program is undefined in it. -/
@[irreducible] def roundsPath
    (totalFdNum : Nat)
    (loop : MainLoop)
    (actions : List MainAction) : List (MainAction × MainLoop) :=
  (trace (act totalFdNum) loop actions).getD []

/-- Actions after which the program is defined form a path. -/
theorem path_roundsPath
    {totalFdNum : Nat}
    {loop : MainLoop}
    {actions : List MainAction}
    (completes : (trace (act totalFdNum) loop actions).isSome = true) :
    Path (Steps totalFdNum) loop (roundsPath totalFdNum loop actions) := by
  unfold roundsPath
  exact path_trace completes

/-- The run of `visitActions`. -/
def visitPath : List (MainAction × MainLoop) :=
  roundsPath 8 (initial fun _ => none) visitActions

theorem path_visitPath :
    Path (Steps 8) (initial fun _ => none) visitPath :=
  path_roundsPath (by decide +kernel)

theorem visitPath_notSelf :
    EveryStep NotSelfPiped Server.initial
      (serverPath 8 (initial fun _ => none) visitPath) := by
  decide +kernel

/-- What `select` watches between two rounds. -/
structure WatchesSessions (loop : MainLoop) : Prop where
  active :
    ∀ fd,
      loop.activeFdSet fd = true ↔
        fd = msockfd ∨ 0 ≤ loop.server.main.fdIdList fd
  isOpen :
    ∀ {fd},
      loop.activeFdSet fd = true →
      loop.server.fds.file fd = some .listener ∨
        ∃ connection, loop.server.fds.file fd = some (.socket connection)
  listed :
    ∀ {c},
      (loop.server.client.list c).state = true →
      loop.activeFdSet (loop.server.client.list c).sockfd = true

/-- The round serves every ready client once, in the order of the descriptors. -/
def ServesReady
    (totalFdNum : Nat)
    (loop : MainLoop) :
    MainAction → Prop
  | .round round =>
      (loop.actionPath totalFdNum (.round round)).filterMap (·.1.session) =
        loop.ready totalFdNum round
  | .childExits _ => True

theorem Watching.watchesSessions
    {loop : MainLoop}
    (watching : loop.Watching) :
    loop.WatchesSessions where
  active := watching.active
  isOpen := by
    intro fd active
    rcases (watching.active fd).mp active with isListener | isSession
    · rw [isListener]
      exact .inl watching.listener
    · exact .inr (watching.settled.sockets.isOpen isSession)
  listed := by
    intro c state
    refine (watching.active _).mpr (.inr ?_)
    rw [watching.settled.sockets.own state]
    exact Int.natCast_nonneg c

theorem servesReady_of_steps
    {totalFdNum : Nat}
    {loop next : MainLoop}
    {action : MainAction}
    (stepped : loop.Steps totalFdNum action next) :
    loop.ServesReady totalFdNum action := by
  cases action with
  | childExits index => exact trivial
  | round round =>
      unfold ServesReady actionPath
      dsimp only
      rw [List.filterMap_append, (path_loginPath totalFdNum round loop).2.2,
        (path_servePath stepped).2.2, List.nil_append]

theorem everyStep_servesReady
    {totalFdNum : Nat}
    {loop : MainLoop}
    {path : List (MainAction × MainLoop)}
    (isPath : Path (Steps totalFdNum) loop path) :
    EveryStep (ServesReady totalFdNum) loop path := by
  induction path generalizing loop with
  | nil => exact trivial
  | cons entry rest inductionHypothesis =>
      exact ⟨servesReady_of_steps isPath.1, inductionHypothesis isPath.2⟩

end MainLoop

end NpServers.Shell
