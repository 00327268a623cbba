import NpServers.EnvTable
import NpServers.ClientIds

namespace NpServers.Shell

open LeastFreeSlot SlotLease

/-!
# Isolation of client environments

What a line of a client finds in the environment, from the events so far: its
own value since its login, an empty value for a variable that only others have
set, and the value at the start of the server for all other variables.

The server keeps to this as long as three defects are not reached: a login that
is given the id of a connected client, a logout that frees a node of the list,
and a line that is run without a switch of the environment although the values
loaded are those of a client that has left.
-/

/-! ## What a client should find -/

/-- The effect of one event on the value a client has for a variable. -/
def ownStep
    (fd : Int)
    (name : String)
    (value : Option String) :
    EnvEvent → Option String
  | .login ssockfd =>
      if ssockfd = fd then
        if name = "PATH" then some "bin:." else none
      else
        value
  | .line other (.setenv set stored) =>
      if other = fd ∧ set = name then some stored else value
  | _ => value

/-- The value a client has given a variable since its login. -/
def ownValue
    (fd : Int)
    (name : String)
    (events : List EnvEvent) : Option String :=
  events.foldl (ownStep fd name) none

/-- The event sets the variable, whoever the client is. -/
def EnvEvent.sets
    (name : String) :
    EnvEvent → Bool
  | .line _ (.setenv set _) => decide (set = name)
  | _ => false

/-- The variable is `PATH` or has been set by somebody. -/
def everSet
    (name : String)
    (events : List EnvEvent) : Bool :=
  decide (name = "PATH") || events.any (EnvEvent.sets name)

/-- The value a line of a client is to find. -/
def expected
    (atStart : Environ)
    (fd : Int)
    (name : String)
    (events : List EnvEvent) : Option String :=
  match ownValue fd name events with
  | some value => some value
  | none => if everSet name events then some "" else atStart name

theorem ownValue_concat
    (fd : Int)
    (name : String)
    (events : List EnvEvent)
    (event : EnvEvent) :
    ownValue fd name (events ++ [event]) =
      ownStep fd name (ownValue fd name events) event := by
  simp [ownValue]

theorem everSet_concat
    (name : String)
    (events : List EnvEvent)
    (event : EnvEvent) :
    everSet name (events ++ [event]) =
      (everSet name events || event.sets name) := by
  simp [everSet, Bool.or_assoc]

/-! ## Runs that do not reach the defects -/

namespace EnvServer

/--
The event does not reach a defect: the id for a login is free, the switch that
a line omits would change nothing, and no variable but `PATH` is held by the
leaving client alone.
-/
def clean
    (server : EnvServer) :
    EnvEvent → Bool
  | .login _ => !(server.main.client.list server.main.minId).state
  | .line fd _ =>
      decide (server.idOf fd ≠ server.envId) ||
        (envNames server.envVars).all fun name =>
          decide
            (renewEnvVar server.envVars (server.idOf fd) server.environ name =
              server.environ name)
  | .logout fd =>
      server.envVars.all fun node =>
        decide (node.userNum ≠ 1) || (node.envValue (server.idOf fd)).isNone

/-- The server after a list of events. -/
def run
    (server : EnvServer)
    (events : List EnvEvent) : Option EnvServer :=
  events.foldlM step server

/-- Every event of the list is admitted where the server takes it. -/
def admitsRun
    (server : EnvServer) :
    List EnvEvent → Bool
  | [] => true
  | event :: rest =>
      server.admits event &&
        match server.step event with
        | some next => next.admitsRun rest
        | none => true

/-- Every event of the list is admitted and clean. -/
def cleanRun
    (server : EnvServer) :
    List EnvEvent → Bool
  | [] => true
  | event :: rest =>
      server.admits event && server.clean event &&
        match server.step event with
        | some next => next.cleanRun rest
        | none => true

@[simp] theorem run_nil
    (server : EnvServer) :
    server.run [] = some server :=
  rfl

theorem run_cons
    (server : EnvServer)
    (event : EnvEvent)
    (rest : List EnvEvent) :
    server.run (event :: rest) =
      (server.step event).bind fun next => next.run rest :=
  rfl

/-- A logout that frees no node is defined. -/
theorem deleteEnvVar_isSome
    {nodes : List EnvVar}
    {id : Nat}
    (shared :
      ∀ node ∈ nodes, node.userNum = 1 → node.envValue id = none) :
    ∃ remaining, deleteEnvVar id nodes = some remaining := by
  induction nodes with
  | nil =>
      exact ⟨[], rfl⟩
  | cons node rest inductionHypothesis =>
      obtain ⟨later, deletedLater⟩ :=
        inductionHypothesis fun other member =>
          shared other (List.mem_cons_of_mem _ member)
      unfold deleteEnvVar
      split
      case h_1 => exact ⟨_, by rw [deletedLater]; rfl⟩
      case h_2 value held =>
        have others : node.userNum ≠ 1 := by
          intro alone
          rw [shared node List.mem_cons_self alone] at held
          cases held
        have notFreed :
            (if 0 ≤ node.userNum then node.userNum - 1 else node.userNum) ≠
              0 := by
          split <;> omega
        dsimp only
        rw [if_neg notFreed]
        exact ⟨_, by rw [deletedLater]; rfl⟩

@[simp] theorem switch_main
    (server : EnvServer)
    (fd : Int) :
    (server.switch fd).main = server.main := by
  unfold switch
  split <;> rfl

@[simp] theorem switch_envVars
    (server : EnvServer)
    (fd : Int) :
    (server.switch fd).envVars = server.envVars := by
  unfold switch
  split <;> rfl

@[simp] theorem switch_idOf
    (server : EnvServer)
    (fd other : Int) :
    (server.switch fd).idOf other = server.idOf other := by
  rw [idOf, switch_main]
  rfl

/-- The switch changes no variable without a node. -/
theorem switch_environ_of_not_mem
    {server : EnvServer}
    {name : String}
    (untracked : name ∉ envNames server.envVars)
    (fd : Int) :
    (server.switch fd).environ name = server.environ name := by
  unfold switch
  split
  · rfl
  · exact renewEnvVar_of_not_mem untracked _ _

/-- A clean event that is admitted has a result. -/
theorem step_isSome
    {server : EnvServer}
    {event : EnvEvent}
    (admitted : server.admits event = true)
    (isClean : server.clean event = true) :
    ∃ next, server.step event = some next := by
  cases event with
  | login ssockfd => exact ⟨_, by rw [step, if_pos admitted]⟩
  | line fd line => exact ⟨_, by rw [step, if_pos admitted]⟩
  | logout fd =>
      have shared :
          ∀ node ∈ server.envVars, node.userNum = 1 →
            node.envValue (server.idOf fd) = none := by
        intro node member alone
        simp only [clean, List.all_eq_true, Bool.or_eq_true, decide_eq_true_eq,
          Option.isNone_iff_eq_none] at isClean
        exact (isClean node member).resolve_left (by simp [alone])
      obtain ⟨remaining, deleted⟩ := deleteEnvVar_isSome shared
      rw [step, if_pos admitted]
      dsimp only
      rw [switch_envVars, deleted]
      exact ⟨_, rfl⟩

/-! ## Inversion of single events -/

theorem steps_login
    {server next : EnvServer}
    {ssockfd : Int}
    (steps : server.step (.login ssockfd) = some next) :
    server.main.fdIdList ssockfd = -1 ∧
      server.main.clientNum < maxClientNum ∧
      next.main = server.main.login ssockfd ∧
      next.environ = Shell.setenv server.environ "PATH" "bin:." false ∧
      next.envVars =
        setEnvVar "PATH" "bin:." server.main.minId server.envVars ∧
      next.envId = server.envId := by
  unfold step at steps
  split at steps
  case isFalse => cases steps
  case isTrue admitted =>
    cases steps
    simp only [admits, MainState.admitsEvent, Bool.and_eq_true,
      decide_eq_true_eq] at admitted
    exact ⟨admitted.2, admitted.1, rfl, rfl, rfl, rfl⟩

theorem steps_line
    {server next : EnvServer}
    {fd : Int}
    {line : EnvLine}
    (steps : server.step (.line fd line) = some next) :
    0 ≤ server.main.fdIdList fd ∧
      next = (server.switch fd).obey fd line := by
  unfold step at steps
  split at steps
  case isFalse => cases steps
  case isTrue admitted =>
    cases steps
    simp only [admits, MainState.admitsEvent, Bool.and_eq_true,
      decide_eq_true_eq] at admitted
    exact ⟨admitted.1, rfl⟩

theorem steps_logout
    {server next : EnvServer}
    {fd : Int}
    (steps : server.step (.logout fd) = some next) :
    0 ≤ server.main.fdIdList fd ∧
      deleteEnvVar (server.idOf fd) server.envVars = some next.envVars ∧
      next.main = server.main.logout fd ∧
      next.environ = (server.switch fd).environ := by
  unfold step at steps
  split at steps
  case isFalse => cases steps
  case isTrue admitted =>
    simp only [admits, MainState.admitsEvent, Bool.and_eq_true,
      decide_eq_true_eq] at admitted
    dsimp only at steps
    rw [Option.map_eq_some_iff] at steps
    obtain ⟨remaining, deleted, rfl⟩ := steps
    rw [switch_envVars] at deleted
    exact ⟨admitted.1, deleted, rfl, rfl⟩

end EnvServer

/-! ## The invariant -/

/-- The list and the environment after some events. -/
structure EnvKept
    (atStart : Environ)
    (events : List EnvEvent)
    (server : EnvServer) : Prop where
  tight : server.main.lease.cache.Tight clientIds
  inverse : server.main.FdsInverse
  vacant :
    ∀ i ∈ clientIds, (server.main.client.list i).state = false →
      ∀ name, cell server.envVars name i = none
  column :
    ∀ fd, 0 ≤ server.main.fdIdList fd →
      ∀ name, cell server.envVars name (server.idOf fd) = ownValue fd name events
  distinct : (envNames server.envVars).Nodup
  tracked :
    ∀ name, name ∈ envNames server.envVars ↔ everSet name events = true
  untracked :
    ∀ name, name ∉ envNames server.envVars → server.environ name = atStart name

namespace EnvKept

variable {atStart : Environ}
variable {events : List EnvEvent}
variable {server next : EnvServer}

theorem initially
    (atStart : Environ) :
    EnvKept atStart [] (.initial atStart) where
  tight := by
    refine ⟨?_, ?_⟩
    · change 1 ∈ clientIds
      decide
    intro slot member below
    have below : slot < 1 := below
    have positive := (mem_clientIds.mp member).1
    omega
  inverse := by
    constructor
    · intro i _ connected
      cases connected
    · intro fd connected
      cases connected
  vacant := by
    intro i _ _ name
    simp [EnvServer.initial, initialEnvVar]
  column := by
    intro fd connected
    cases connected
  distinct := by simp [EnvServer.initial, initialEnvVar, envNames]
  tracked := by simp [EnvServer.initial, initialEnvVar, envNames, everSet]
  untracked := fun _ _ => rfl

/-- Different connected descriptors have different ids. -/
theorem idOf_ne
    (kept : EnvKept atStart events server)
    {fd other : Int}
    (connected : 0 ≤ server.main.fdIdList fd)
    (otherConnected : 0 ≤ server.main.fdIdList other)
    (different : other ≠ fd) :
    server.idOf other ≠ server.idOf fd := by
  intro same
  have owner := (kept.inverse.sockfdOfId connected).2.2
  have otherOwner := (kept.inverse.sockfdOfId otherConnected).2.2
  unfold EnvServer.idOf at same
  rw [same, owner] at otherOwner
  exact different otherOwner.symm

theorem path_tracked
    (kept : EnvKept atStart events server) :
    "PATH" ∈ envNames server.envVars :=
  (kept.tracked "PATH").mpr (by simp [everSet])

/-- The client that logs in gets an empty column with `PATH` in it. -/
theorem login
    {ssockfd : Int}
    (kept : EnvKept atStart events server)
    (free : (server.main.client.list server.main.minId).state = false)
    (steps : server.step (.login ssockfd) = some next) :
    EnvKept atStart (events ++ [.login ssockfd]) next := by
  obtain ⟨unused, _, main, environ, envVars, _⟩ := EnvServer.steps_login steps
  have leased := MainState.lease_login server.main unused
  have least := kept.tight.isLeastFree (by simpa [Cache.Stale, MainState.lease] using free)
  have names : envNames next.envVars = envNames server.envVars := by
    rw [envVars, envNames_setEnvVar, if_pos kept.path_tracked]
  have cells :
      ∀ name i,
        cell next.envVars name i =
          if name = "PATH" ∧ i = server.main.minId then some "bin:."
          else cell server.envVars name i := by
    intro name i
    rw [envVars, cell_setEnvVar]
  constructor
  case tight =>
    rw [main]
    exact tight_step clientIds_increasing
      ((MainState.fdsInverse_iff _).mp kept.inverse) kept.tight leased
  case inverse =>
    rw [main, MainState.fdsInverse_iff]
    exact ((MainState.fdsInverse_iff _).mp kept.inverse).acquire least leased
  case vacant =>
    intro i isClient vacant name
    have different : i ≠ server.main.minId := by
      rintro rfl
      simp [main, MainState.login, MainState.updateClientInfor,
        ClientInfor.loggedIn] at vacant
    rw [cells, if_neg (fun both => different both.2)]
    refine kept.vacant i isClient ?_ name
    simpa [main, MainState.login, MainState.updateClientInfor,
      Function.update_of_ne different] using vacant
  case column =>
    intro fd connected name
    rw [ownValue_concat, cells]
    by_cases here : fd = ssockfd
    · subst here
      have ownId : next.idOf fd = server.main.minId := by
        simp [EnvServer.idOf, main, MainState.login,
          MainState.updateClientInfor]
      have empty := kept.vacant server.main.minId least.mem free name
      rw [ownId, empty]
      simp [ownStep]
    · have sameId : next.main.fdIdList fd = server.main.fdIdList fd := by
        simp [main, MainState.login, MainState.updateClientInfor,
          Function.update_of_ne here]
      rw [sameId] at connected
      have ownId : next.idOf fd = server.idOf fd := by
        rw [EnvServer.idOf, sameId]
        rfl
      have different : server.idOf fd ≠ server.main.minId := by
        intro same
        have used := (kept.inverse.sockfdOfId connected).2.1
        unfold EnvServer.idOf at same
        rw [same, free] at used
        cases used
      rw [ownId, if_neg (fun both => different both.2), kept.column fd connected]
      simp [ownStep, Ne.symm here]
  case distinct =>
    rw [names]
    exact kept.distinct
  case tracked =>
    intro name
    rw [names, kept.tracked, everSet_concat]
    simp [EnvEvent.sets]
  case untracked =>
    intro name notTracked
    rw [names] at notTracked
    have notPath : name ≠ "PATH" := by
      rintro rfl
      exact notTracked kept.path_tracked
    rw [environ, ← kept.untracked name notTracked]
    unfold setenv
    split
    · rfl
    · rw [Function.update_of_ne notPath]

/-- A line only changes the column of its client. -/
theorem line
    {fd : Int}
    {line : EnvLine}
    (kept : EnvKept atStart events server)
    (steps : server.step (.line fd line) = some next) :
    EnvKept atStart (events ++ [.line fd line]) next := by
  obtain ⟨connected, rfl⟩ := EnvServer.steps_line steps
  cases line with
  | setenv name value =>
      have cells :
          ∀ other i,
            cell ((server.switch fd).obey fd (.setenv name value)).envVars
                other i =
              if other = name ∧ i = server.idOf fd then some value
              else cell server.envVars other i := by
        intro other i
        simp only [EnvServer.obey, EnvServer.setEnv, EnvServer.switch_envVars,
          EnvServer.switch_idOf]
        exact cell_setEnvVar _ _ _ _ _ _
      have names :
          envNames ((server.switch fd).obey fd (.setenv name value)).envVars =
            if name ∈ envNames server.envVars then envNames server.envVars
            else envNames server.envVars ++ [name] := by
        simp [EnvServer.obey, EnvServer.setEnv, envNames_setEnvVar]
      have mem_names :
          ∀ other,
            other ∈ envNames
                ((server.switch fd).obey fd (.setenv name value)).envVars ↔
              other ∈ envNames server.envVars ∨ other = name := by
        intro other
        rw [names]
        split
        case isTrue member =>
          constructor
          · exact Or.inl
          · rintro (old | rfl)
            · exact old
            · exact member
        case isFalse => simp
      have sameMain :
          ((server.switch fd).obey fd (.setenv name value)).main =
            server.main := by
        simp [EnvServer.obey, EnvServer.setEnv]
      constructor
      case tight => exact sameMain ▸ kept.tight
      case inverse => exact sameMain ▸ kept.inverse
      case vacant =>
        intro i isClient vacant other
        rw [sameMain] at vacant
        have different : i ≠ server.idOf fd := by
          rintro rfl
          have used := (kept.inverse.sockfdOfId connected).2.1
          unfold EnvServer.idOf at vacant
          rw [used] at vacant
          cases vacant
        rw [cells, if_neg (fun both => different both.2)]
        exact kept.vacant i isClient vacant other
      case column =>
        intro other otherConnected set
        rw [sameMain] at otherConnected
        have sameId :
            ((server.switch fd).obey fd (.setenv name value)).idOf other =
              server.idOf other := by
          rw [EnvServer.idOf, sameMain]
          rfl
        rw [sameId, cells, ownValue_concat, kept.column other otherConnected]
        by_cases here : other = fd
        · subst here
          by_cases same : set = name
          · simp [ownStep, same]
          · simp [ownStep, same, Ne.symm same]
        · have different := kept.idOf_ne connected otherConnected here
          simp [ownStep, different, Ne.symm here]
      case distinct =>
        rw [names]
        split
        case isTrue => exact kept.distinct
        case isFalse notMember =>
          refine List.nodup_append.mpr ⟨kept.distinct, by simp, ?_⟩
          intro old oldMember new newMember same
          rw [List.mem_singleton] at newMember
          exact notMember (newMember ▸ same ▸ oldMember)
      case tracked =>
        intro other
        rw [mem_names, kept.tracked, everSet_concat, Bool.or_eq_true]
        simp [EnvEvent.sets, @eq_comm _ name other]
      case untracked =>
        intro other notTracked
        rw [mem_names, not_or] at notTracked
        obtain ⟨notBefore, notName⟩ := notTracked
        rw [← kept.untracked other notBefore,
          ← EnvServer.switch_environ_of_not_mem notBefore fd]
        simp [EnvServer.obey, EnvServer.setEnv, setenv,
          Function.update_of_ne notName]
  | printenv _ | command =>
      constructor
      case tight => simpa [EnvServer.obey] using kept.tight
      case inverse => simpa [EnvServer.obey] using kept.inverse
      case vacant => simpa [EnvServer.obey] using kept.vacant
      case column =>
        intro other otherConnected set
        rw [ownValue_concat]
        have otherConnected : 0 ≤ server.main.fdIdList other := by
          simpa [EnvServer.obey] using otherConnected
        simpa [EnvServer.obey, EnvServer.idOf, ownStep] using
          kept.column other otherConnected set
      case distinct => simpa [EnvServer.obey] using kept.distinct
      case tracked =>
        intro other
        rw [everSet_concat]
        simpa [EnvServer.obey, EnvEvent.sets] using kept.tracked other
      case untracked =>
        intro other notTracked
        have notTracked : other ∉ envNames server.envVars := by
          simpa [EnvServer.obey] using notTracked
        rw [← kept.untracked other notTracked]
        exact EnvServer.switch_environ_of_not_mem notTracked fd

/-- The client that leaves takes its column with it. -/
theorem logout
    {fd : Int}
    (kept : EnvKept atStart events server)
    (steps : server.step (.logout fd) = some next) :
    EnvKept atStart (events ++ [.logout fd]) next := by
  obtain ⟨connected, deleted, main, environ⟩ := EnvServer.steps_logout steps
  have leased := MainState.lease_logout server.main connected
  have inverse := (MainState.fdsInverse_iff _).mp kept.inverse
  obtain ⟨names, cells⟩ := deleteEnvVar_eq_some deleted
  constructor
  case tight =>
    rw [main]
    exact tight_step clientIds_increasing inverse kept.tight leased
  case inverse =>
    rw [main, MainState.fdsInverse_iff]
    exact inverse.release leased
  case vacant =>
    intro i isClient vacant name
    rw [cells]
    by_cases here : i = server.idOf fd
    · rw [if_pos here]
    · rw [if_neg here]
      refine kept.vacant i isClient ?_ name
      have here' : i ≠ (server.main.fdIdList fd).toNat := here
      simp only [main, MainState.logout, deleteClientInfor, here',
        if_false, if_pos isClient] at vacant
      exact vacant
  case column =>
    intro other otherConnected name
    have different : other ≠ fd := by
      rintro rfl
      simp [main, MainState.logout] at otherConnected
    have sameId : next.main.fdIdList other = server.main.fdIdList other := by
      simp [main, MainState.logout, Function.update_of_ne different]
    rw [sameId] at otherConnected
    have ownId : next.idOf other = server.idOf other := by
      rw [EnvServer.idOf, sameId]
      rfl
    have elsewhere := kept.idOf_ne connected otherConnected different
    rw [ownId, cells, if_neg elsewhere, ownValue_concat,
      kept.column other otherConnected]
    rfl
  case distinct =>
    rw [names]
    exact kept.distinct
  case tracked =>
    intro name
    rw [names, kept.tracked, everSet_concat]
    simp [EnvEvent.sets]
  case untracked =>
    intro name notTracked
    rw [names] at notTracked
    rw [environ, EnvServer.switch_environ_of_not_mem notTracked,
      kept.untracked name notTracked]

theorem step
    {event : EnvEvent}
    (kept : EnvKept atStart events server)
    (isClean : server.clean event = true)
    (steps : server.step event = some next) :
    EnvKept atStart (events ++ [event]) next := by
  cases event with
  | login ssockfd =>
      exact kept.login (by simpa [EnvServer.clean] using isClean) steps
  | line fd line => exact kept.line steps
  | logout fd => exact kept.logout steps

/-- A clean run is defined and keeps the environments apart. -/
theorem cleanRun
    {later : List EnvEvent}
    (kept : EnvKept atStart events server)
    (isClean : server.cleanRun later = true) :
    ∃ final, server.run later = some final ∧
      EnvKept atStart (events ++ later) final := by
  induction later generalizing server events with
  | nil =>
      exact ⟨server, rfl, by simpa using kept⟩
  | cons event rest inductionHypothesis =>
      simp only [EnvServer.cleanRun, Bool.and_eq_true] at isClean
      obtain ⟨⟨admitted, cleanHere⟩, cleanLater⟩ := isClean
      obtain ⟨next, steps⟩ := EnvServer.step_isSome admitted cleanHere
      rw [steps] at cleanLater
      obtain ⟨final, ran, finalKept⟩ :=
        inductionHypothesis (kept.step cleanHere steps) cleanLater
      refine ⟨final, ?_, by simpa using finalKept⟩
      rw [EnvServer.run_cons, steps]
      exact ran

/-- A clean line of a client finds what it is to find. -/
theorem seen_eq_expected
    {fd : Int}
    {line : EnvLine}
    (kept : EnvKept atStart events server)
    (admitted : server.admits (.line fd line) = true)
    (isClean : server.clean (.line fd line) = true)
    (name : String) :
    server.seen fd name = expected atStart fd name events := by
  simp only [EnvServer.admits, MainState.admitsEvent, Bool.and_eq_true,
    decide_eq_true_eq] at admitted
  have column := kept.column fd admitted.1 name
  unfold expected
  rw [← column]
  by_cases tracked : name ∈ envNames server.envVars
  · have loaded :
        server.seen fd name =
          some ((cell server.envVars name (server.idOf fd)).getD "") := by
      rw [← renewEnvVar_of_mem kept.distinct tracked (server.idOf fd)
        server.environ]
      unfold EnvServer.seen EnvServer.switch
      by_cases same : server.idOf fd = server.envId
      · rw [if_pos same]
        simp only [EnvServer.clean, same, ne_eq, not_true_eq_false, decide_false,
          Bool.false_or, List.all_eq_true, decide_eq_true_eq] at isClean
        rw [same]
        exact (isClean name tracked).symm
      · rw [if_neg same]
    rw [loaded, if_pos ((kept.tracked name).mp tracked)]
    cases cell server.envVars name (server.idOf fd) <;> rfl
  · have notSet : ¬ everSet name events = true := by
      rwa [← kept.tracked name]
    have empty : cell server.envVars name (server.idOf fd) = none := by
      unfold cell
      rw [List.find?_eq_none.mpr]
      · rfl
      · intro node member
        have different : node.envName ≠ name := by
          rintro rfl
          exact tracked (List.mem_map_of_mem member)
        simpa using different
    rw [empty, if_neg notSet]
    exact (EnvServer.switch_environ_of_not_mem tracked fd).trans
      (kept.untracked name tracked)

end EnvKept

/-! ## Values of clients that have left -/

/--
Two lists of events that differ only in values set by clients that log out
later in the list.
-/
inductive Varied : List EnvEvent → List EnvEvent → Prop
  | nil : Varied [] []
  | same
      (event : EnvEvent)
      {rest rest' : List EnvEvent}
      (later : Varied rest rest') :
      Varied (event :: rest) (event :: rest')
  | value
      (fd : Int)
      (name value value' : String)
      {rest rest' : List EnvEvent}
      (leaves : .logout fd ∈ rest)
      (later : Varied rest rest') :
      Varied (.line fd (.setenv name value) :: rest)
        (.line fd (.setenv name value') :: rest')

/-- Values do not matter for the question which variables have been set. -/
theorem Varied.any_sets
    {events events' : List EnvEvent}
    (varied : Varied events events')
    (name : String) :
    events.any (EnvEvent.sets name) = events'.any (EnvEvent.sets name) := by
  induction varied with
  | nil => rfl
  | same event later inductionHypothesis => simp [inductionHypothesis]
  | value fd set value value' leaves later inductionHypothesis =>
      simp [inductionHypothesis, EnvEvent.sets]

/-- A login starts from an empty column, whatever happened before. -/
theorem ownValue_login
    (fd : Int)
    (name : String)
    (before after : List EnvEvent) :
    ownValue fd name (before ++ .login fd :: after) =
      after.foldl (ownStep fd name)
        (if name = "PATH" then some "bin:." else none) := by
  simp [ownValue, ownStep]

/-- What a client is to find does not depend on the values of those that left. -/
theorem expected_varied
    {before before' : List EnvEvent}
    (varied : Varied before before')
    (atStart : Environ)
    (fd : Int)
    (name : String)
    (after : List EnvEvent) :
    expected atStart fd name (before ++ .login fd :: after) =
      expected atStart fd name (before' ++ .login fd :: after) := by
  have sameSet :
      everSet name (before ++ .login fd :: after) =
        everSet name (before' ++ .login fd :: after) := by
    simp [everSet, varied.any_sets name]
  rw [expected, expected, ownValue_login, ownValue_login, sameSet]

/-- A client that sets nothing keeps the value of its login. -/
theorem foldl_ownStep_of_not_set
    {fd : Int}
    {name : String}
    {after : List EnvEvent}
    {value : Option String}
    (notSet : ∀ stored, .line fd (.setenv name stored) ∉ after)
    (noLogin : .login fd ∉ after ∨
      value = if name = "PATH" then some "bin:." else none) :
    after.foldl (ownStep fd name) value = value := by
  induction after with
  | nil => rfl
  | cons event rest inductionHypothesis =>
      have notLater : ∀ stored, .line fd (.setenv name stored) ∉ rest :=
        fun stored member => notSet stored (List.mem_cons_of_mem _ member)
      have unchanged : ownStep fd name value event = value := by
        cases event with
        | login ssockfd =>
            by_cases here : ssockfd = fd
            · subst here
              rcases noLogin with absent | same
              · exact (absent List.mem_cons_self).elim
              · simp [ownStep, ← same]
            · simp [ownStep, here]
        | line other line =>
            cases line with
            | setenv set stored =>
                have different : ¬ (other = fd ∧ set = name) := by
                  rintro ⟨rfl, rfl⟩
                  exact notSet stored List.mem_cons_self
                simp [ownStep, different]
            | printenv _ | command => rfl
        | logout _ => rfl
      rw [List.foldl_cons, unchanged]
      refine inductionHypothesis notLater ?_
      rcases noLogin with absent | same
      · exact .inl fun member => absent (List.mem_cons_of_mem _ member)
      · exact .inr same

/-- The last event of a clean run is admitted and clean where it happens. -/
theorem EnvServer.cleanRun_concat
    {server final : EnvServer}
    {events : List EnvEvent}
    {event : EnvEvent}
    (isClean : server.cleanRun (events ++ [event]) = true)
    (ran : server.run events = some final) :
    server.cleanRun events = true ∧ final.admits event = true ∧
      final.clean event = true := by
  induction events generalizing server with
  | nil =>
      cases ran
      simp only [List.nil_append, cleanRun, Bool.and_eq_true] at isClean
      exact ⟨rfl, isClean.1⟩
  | cons first rest inductionHypothesis =>
      simp only [List.cons_append, cleanRun, Bool.and_eq_true] at isClean ⊢
      rw [run_cons] at ran
      cases stepped : server.step first with
      | none =>
          rw [stepped] at ran
          cases ran
      | some next =>
          rw [stepped] at ran isClean
          obtain ⟨cleanRest, atEnd⟩ := inductionHypothesis isClean.2 ran
          exact ⟨⟨isClean.1, cleanRest⟩, atEnd⟩

/-- A prefix of a clean run is clean. -/
theorem EnvServer.cleanRun_of_concat
    {server : EnvServer}
    {events : List EnvEvent}
    {event : EnvEvent}
    (isClean : server.cleanRun (events ++ [event]) = true) :
    server.cleanRun events = true := by
  induction events generalizing server with
  | nil => rfl
  | cons first rest inductionHypothesis =>
      simp only [List.cons_append, cleanRun, Bool.and_eq_true] at isClean ⊢
      refine ⟨isClean.1, ?_⟩
      cases stepped : server.step first with
      | none => rfl
      | some next =>
          have later := isClean.2
          rw [stepped] at later
          exact inductionHypothesis later

/-- At its last line, a client of a clean run finds what it is to find. -/
theorem cleanRun_seen
    {atStart : Environ}
    {events : List EnvEvent}
    {fd : Int}
    {line : EnvLine}
    (isClean :
      (EnvServer.initial atStart).cleanRun (events ++ [.line fd line]) = true) :
    ∃ server,
      (EnvServer.initial atStart).run events = some server ∧
        ∀ name, server.seen fd name = expected atStart fd name events := by
  obtain ⟨server, ran, kept⟩ :=
    (EnvKept.initially atStart).cleanRun (EnvServer.cleanRun_of_concat isClean)
  obtain ⟨_, admitted, cleanHere⟩ := EnvServer.cleanRun_concat isClean ran
  exact ⟨server, ran, fun name => kept.seen_eq_expected admitted cleanHere name⟩

/--
In two clean runs that differ only in values set by clients that left before
the client on `fd` logged in, each line of that client finds the same values,
prints the same text, and runs its commands under the same `PATH`.  Without a
`setenv` of its own it finds `bin:.` there.
-/
theorem departedValues_unseen
    (atStart : Environ)
    (before before' after : List EnvEvent)
    (fd : Int)
    (line : EnvLine)
    (varied : Varied before before')
    (isClean :
      (EnvServer.initial atStart).cleanRun
        (before ++ .login fd :: after ++ [.line fd line]) = true)
    (isClean' :
      (EnvServer.initial atStart).cleanRun
        (before' ++ .login fd :: after ++ [.line fd line]) = true) :
    ∃ server server',
      (EnvServer.initial atStart).run (before ++ .login fd :: after) =
          some server ∧
        (EnvServer.initial atStart).run (before' ++ .login fd :: after) =
          some server' ∧
        (∀ name, server.printed fd name = server'.printed fd name) ∧
        server.seen fd "PATH" = server'.seen fd "PATH" ∧
        ((∀ value, .line fd (.setenv "PATH" value) ∉ after) →
          server.seen fd "PATH" = some "bin:.") := by
  obtain ⟨server, ran, sees⟩ := cleanRun_seen isClean
  obtain ⟨server', ran', sees'⟩ := cleanRun_seen isClean'
  have same : ∀ name, server.seen fd name = server'.seen fd name := by
    intro name
    rw [sees, sees', expected_varied varied]
  refine ⟨server, server', ran, ran', ?_, same "PATH", ?_⟩
  · intro name
    rw [EnvServer.printed, EnvServer.printed, same]
  · intro notSet
    rw [sees, expected, ownValue_login,
      foldl_ownStep_of_not_set notSet (.inr rfl), if_pos rfl]

/-- The process environment of a server started with a `PATH`. -/
def pathOnly : Environ :=
  fun name => if name = "PATH" then some "/usr/bin" else none

/-- A client sets `PATH` and leaves, another sends a line, a third gets its id. -/
def switchedEvents
    (value : String) : List EnvEvent :=
  [.login 4, .login 5, .line 4 (.setenv "PATH" value), .logout 4,
    .line 5 .command]

/-- The third client is not affected by the first. -/
theorem departedValues_unseen_switched :
    ∃ server server',
      (EnvServer.initial pathOnly).run (switchedEvents "secret" ++ [.login 6]) =
          some server ∧
        (EnvServer.initial pathOnly).run (switchedEvents "other" ++ [.login 6]) =
          some server' ∧
        (∀ name, server.printed 6 name = server'.printed 6 name) ∧
        server.seen 6 "PATH" = some "bin:." := by
  have varied :
      Varied (switchedEvents "secret") (switchedEvents "other") :=
    .same _ (.same _ (.value 4 "PATH" "secret" "other" (by simp)
      (.same _ (.same _ .nil))))
  obtain ⟨server, server', ran, ran', printed, _, path⟩ :=
    departedValues_unseen pathOnly (switchedEvents "secret")
      (switchedEvents "other") [] 6 (.printenv "PATH") varied
      (by decide +kernel) (by decide +kernel)
  exact ⟨server, server', ran, ran', printed, path (by simp)⟩

/-- A client sets `PATH` and leaves. -/
def departedEvents
    (value : String) : List EnvEvent :=
  [.login 4, .line 4 (.setenv "PATH" value), .logout 4]

/-- The next client gets the id and the `PATH` of the one that left. -/
theorem departedValue_seen :
    Varied (departedEvents "secret") (departedEvents "other") ∧
      ((EnvServer.initial pathOnly).run
          (departedEvents "secret" ++ [.login 5])).map
        (fun server =>
          (server.admits (.line 5 (.printenv "PATH")),
            server.printed 5 "PATH")) = some (true, "secret\n") ∧
      ((EnvServer.initial pathOnly).run
          (departedEvents "other" ++ [.login 5])).map
        (fun server =>
          (server.admits (.line 5 (.printenv "PATH")),
            server.printed 5 "PATH")) = some (true, "other\n") := by
  refine ⟨?_, by decide +kernel, by decide +kernel⟩
  exact .same _ (.value 4 "PATH" "secret" "other" (by simp) (.same _ .nil))

/-! ## Connected clients -/

/-- Without logouts the ids are given out one after the other. -/
structure Sequential
    (main : MainState) : Prop where
  nonneg : 0 ≤ main.clientNum
  used :
    ∀ i : Nat,
      (main.client.list i).state = decide (1 ≤ i ∧ (i : Int) ≤ main.clientNum)
  minId :
    main.clientNum < maxClientNum → (main.minId : Int) = main.clientNum + 1

namespace Sequential

variable {main : MainState}

theorem free
    (sequential : Sequential main)
    (room : main.clientNum < maxClientNum) :
    (main.client.list main.minId).state = false := by
  rw [sequential.used, sequential.minId room, decide_eq_false_iff_not]
  omega

theorem login
    (sequential : Sequential main)
    {ssockfd : Int}
    (unused : main.fdIdList ssockfd = -1)
    (room : main.clientNum < maxClientNum) :
    Sequential (main.login ssockfd) := by
  have minId := sequential.minId room
  have nonneg := sequential.nonneg
  have count : (main.login ssockfd).clientNum = main.clientNum + 1 := rfl
  have used :
      ∀ i : Nat,
        ((main.login ssockfd).client.list i).state =
          decide (1 ≤ i ∧ (i : Int) ≤ main.clientNum + 1) := by
    intro i
    by_cases here : i = main.minId
    · subst here
      have isNext : 1 ≤ main.minId ∧ (main.minId : Int) ≤ main.clientNum + 1 := by
        omega
      simp [MainState.login, MainState.updateClientInfor, ClientInfor.loggedIn,
        isNext]
    · simp only [MainState.login, MainState.updateClientInfor,
        Function.update_of_ne here, sequential.used, decide_eq_decide]
      omega
  refine ⟨by omega, count ▸ used, ?_⟩
  intro stillRoom
  rw [count] at stillRoom ⊢
  -- the scan ends at the first id above those in use
  have cache :
      (main.login ssockfd).lease.cache = main.lease.cache.occupy clientIds := by
    cases MainState.lease_login main unused with
    | acquire _ cache _ _ _ => exact cache
  have room' : main.clientNum + 1 < 30 := stillRoom
  rcases Cache.occupy_cases clientIds_increasing main.lease.cache with
    least | ⟨_, full⟩
  · rw [← cache] at least
    have member := mem_clientIds.mp least.mem
    have isFree := (used (main.login ssockfd).minId).symm.trans least.free
    have above : ¬ ((main.login ssockfd).minId : Int) ≤ main.clientNum + 1 := by
      rw [decide_eq_false_iff_not] at isFree
      exact fun notAbove => isFree ⟨member.1, notAbove⟩
    by_contra later
    have next := least.below (main.clientNum + 2).toNat
      (mem_clientIds.mpr ⟨by omega, by unfold maxClientNum; omega⟩)
      (by change (main.clientNum + 2).toNat < (main.login ssockfd).minId; omega)
    have notUsed :
        ((main.login ssockfd).client.list
          (main.clientNum + 2).toNat).state = false := by
      rw [used]
      simp only [decide_eq_false_iff_not]
      omega
    have next :
        ((main.login ssockfd).client.list
          (main.clientNum + 2).toNat).state = true := next
    rw [notUsed] at next
    cases next
  · rw [← cache] at full
    have last := full 30 (by decide)
    have last : ((main.login ssockfd).client.list 30).state = true := last
    rw [used] at last
    simp only [decide_eq_true_eq] at last
    omega

end Sequential

/-- Without logouts the environment is that of the client it is switched to. -/
structure Loaded
    (server : EnvServer) : Prop where
  sequential : Sequential server.main
  owner :
    server.envId ≠ 0 → (server.main.client.list server.envId).state = true
  loaded :
    server.envId ≠ 0 →
      ∀ name ∈ envNames server.envVars,
        server.environ name =
          some ((cell server.envVars name server.envId).getD "")

namespace Loaded

variable {atStart : Environ}
variable {events : List EnvEvent}
variable {server next : EnvServer}

theorem initially
    (atStart : Environ) :
    Loaded (.initial atStart) where
  sequential := by
    refine ⟨le_refl _, ?_, fun _ => rfl⟩
    intro i
    change false = decide (1 ≤ i ∧ (i : Int) ≤ 0)
    simp only [Bool.false_eq, decide_eq_false_iff_not]
    omega
  owner := fun notZero => (notZero rfl).elim
  loaded := fun notZero => (notZero rfl).elim

/-- Events other than logouts are clean. -/
theorem clean
    {event : EnvEvent}
    (loaded : Loaded server)
    (kept : EnvKept atStart events server)
    (noLogout : ∀ fd, event ≠ .logout fd)
    (admitted : server.admits event = true) :
    server.clean event = true := by
  cases event with
  | login ssockfd =>
      simp only [EnvServer.admits, MainState.admitsEvent, Bool.and_eq_true,
        decide_eq_true_eq] at admitted
      simp [EnvServer.clean, loaded.sequential.free admitted.1]
  | line fd line =>
      simp only [EnvServer.admits, MainState.admitsEvent, Bool.and_eq_true,
        decide_eq_true_eq] at admitted
      have isClient := (kept.inverse.sockfdOfId admitted.1).1
      have positive : server.idOf fd ≠ 0 := by
        have bound := (mem_clientIds.mp isClient).1
        unfold EnvServer.idOf
        omega
      by_cases same : server.idOf fd = server.envId
      · simp only [EnvServer.clean, Bool.or_eq_true, List.all_eq_true,
          decide_eq_true_eq]
        right
        intro name tracked
        rw [renewEnvVar_of_mem kept.distinct tracked, same,
          loaded.loaded (same ▸ positive) name tracked]
      · simp [EnvServer.clean, same]
  | logout fd => exact (noLogout fd rfl).elim

/-- After the switch the environment is that of the client. -/
theorem switch
    {fd : Int}
    (loaded : Loaded server)
    (kept : EnvKept atStart events server)
    (connected : 0 ≤ server.main.fdIdList fd) :
    (server.switch fd).envId = server.idOf fd ∧ server.idOf fd ≠ 0 ∧
      (server.main.client.list (server.idOf fd)).state = true ∧
      ∀ name ∈ envNames server.envVars,
        (server.switch fd).environ name =
          some ((cell server.envVars name (server.idOf fd)).getD "") := by
  obtain ⟨isClient, state, _⟩ := kept.inverse.sockfdOfId connected
  have positive : server.idOf fd ≠ 0 := by
    have bound := (mem_clientIds.mp isClient).1
    unfold EnvServer.idOf
    omega
  refine ⟨?_, positive, state, ?_⟩
  · unfold EnvServer.switch
    split
    case isTrue same => exact same.symm
    case isFalse => rfl
  · intro name tracked
    unfold EnvServer.switch
    split
    case isTrue same =>
      rw [same]
      exact loaded.loaded (same ▸ positive) name tracked
    case isFalse => exact renewEnvVar_of_mem kept.distinct tracked _ _

theorem step
    {event : EnvEvent}
    (loaded : Loaded server)
    (kept : EnvKept atStart events server)
    (noLogout : ∀ fd, event ≠ .logout fd)
    (steps : server.step event = some next) :
    Loaded next := by
  cases event with
  | logout fd => exact (noLogout fd rfl).elim
  | login ssockfd =>
      obtain ⟨unused, room, main, environ, envVars, envId⟩ :=
        EnvServer.steps_login steps
      have free := loaded.sequential.free room
      have elsewhere : server.envId ≠ 0 → server.envId ≠ server.main.minId := by
        intro notZero same
        have used := loaded.owner notZero
        rw [same, free] at used
        cases used
      constructor
      case sequential => exact main ▸ loaded.sequential.login unused room
      case owner =>
        rw [envId, main]
        intro notZero
        simpa [MainState.login, MainState.updateClientInfor,
          Function.update_of_ne (elsewhere notZero)] using loaded.owner notZero
      case loaded =>
        rw [envId]
        intro notZero name tracked
        rw [envVars, envNames_setEnvVar, if_pos kept.path_tracked] at tracked
        have path := loaded.loaded notZero "PATH" kept.path_tracked
        rw [envVars, cell_setEnvVar,
          if_neg (fun both => elsewhere notZero both.2), environ]
        simp only [setenv, path, Option.isSome_some, Bool.not_false,
          Bool.and_self, if_true]
        exact loaded.loaded notZero name tracked
  | line fd line =>
      obtain ⟨connected, rfl⟩ := EnvServer.steps_line steps
      obtain ⟨switched, positive, state, values⟩ := loaded.switch kept connected
      cases line with
      | setenv name value =>
          constructor
          case sequential =>
            simpa [EnvServer.obey, EnvServer.setEnv] using loaded.sequential
          case owner =>
            intro _
            simpa [EnvServer.obey, EnvServer.setEnv, switched] using state
          case loaded =>
            intro _ other tracked
            simp only [EnvServer.obey, EnvServer.setEnv, switched,
              EnvServer.switch_envVars, EnvServer.switch_idOf] at tracked ⊢
            rw [cell_setEnvVar]
            by_cases here : other = name
            · subst here
              simp [setenv]
            · rw [if_neg (fun both => here both.1)]
              have old : other ∈ envNames server.envVars := by
                rw [envNames_setEnvVar] at tracked
                split at tracked
                · exact tracked
                · simpa [here] using tracked
              rw [← values other old]
              simp [setenv, Function.update_of_ne here]
      | printenv _ | command =>
          constructor
          case sequential => simpa [EnvServer.obey] using loaded.sequential
          case owner =>
            intro _
            simpa [EnvServer.obey, switched] using state
          case loaded =>
            intro _
            simpa [EnvServer.obey, switched] using values

/-- A run without logouts is defined and keeps the environments apart. -/
theorem run
    {later : List EnvEvent}
    (loaded : Loaded server)
    (kept : EnvKept atStart events server)
    (noLogout : ∀ fd, .logout fd ∉ later)
    (admitted : server.admitsRun later = true) :
    ∃ final, server.run later = some final ∧
      EnvKept atStart (events ++ later) final ∧ Loaded final := by
  induction later generalizing server events with
  | nil =>
      exact ⟨server, rfl, by simpa using kept, loaded⟩
  | cons event rest inductionHypothesis =>
      simp only [EnvServer.admitsRun, Bool.and_eq_true] at admitted
      obtain ⟨admittedHere, admittedLater⟩ := admitted
      have notLogout : ∀ fd, event ≠ .logout fd := by
        rintro fd rfl
        exact noLogout fd List.mem_cons_self
      have cleanHere := loaded.clean kept notLogout admittedHere
      obtain ⟨next, steps⟩ := EnvServer.step_isSome admittedHere cleanHere
      rw [steps] at admittedLater
      obtain ⟨final, ran, finalKept, finalLoaded⟩ :=
        inductionHypothesis (loaded.step kept notLogout steps)
          (kept.step cleanHere steps)
          (fun fd member => noLogout fd (List.mem_cons_of_mem _ member))
          admittedLater
      refine ⟨final, ?_, by simpa using finalKept, finalLoaded⟩
      rw [EnvServer.run_cons, steps]
      exact ran

end Loaded

/-- Without logouts a connected client does not log in again. -/
theorem not_login_of_connected
    {server final : EnvServer}
    {later : List EnvEvent}
    {fd : Int}
    (noLogout : ∀ other, .logout other ∉ later)
    (connected : 0 ≤ server.main.fdIdList fd)
    (ran : server.run later = some final) :
    .login fd ∉ later := by
  induction later generalizing server with
  | nil => simp
  | cons event rest inductionHypothesis =>
      rw [EnvServer.run_cons] at ran
      cases stepped : server.step event with
      | none =>
          rw [stepped] at ran
          cases ran
      | some next =>
          rw [stepped] at ran
          have noLogoutRest : ∀ other, .logout other ∉ rest :=
            fun other member => noLogout other (List.mem_cons_of_mem _ member)
          have stays : event ≠ .login fd ∧ 0 ≤ next.main.fdIdList fd := by
            cases event with
            | login ssockfd =>
                obtain ⟨unused, _, main, _⟩ := EnvServer.steps_login stepped
                have different : fd ≠ ssockfd := by
                  rintro rfl
                  rw [unused] at connected
                  cases connected
                refine ⟨by simp [Ne.symm different], ?_⟩
                simpa [main, MainState.login, MainState.updateClientInfor,
                  Function.update_of_ne different] using connected
            | line other line =>
                obtain ⟨_, rfl⟩ := EnvServer.steps_line stepped
                refine ⟨by simp, ?_⟩
                cases line <;>
                  simpa [EnvServer.obey, EnvServer.setEnv] using connected
            | logout other =>
                exact (noLogout other List.mem_cons_self).elim
          have notLater := inductionHypothesis noLogoutRest stays.2 ran
          simp only [List.mem_cons, not_or]
          exact ⟨Ne.symm stays.1, notLater⟩

/-- The run of a list in two parts. -/
theorem EnvServer.run_append
    (server : EnvServer)
    (first second : List EnvEvent) :
    server.run (first ++ second) =
      (server.run first).bind fun next => next.run second := by
  induction first generalizing server with
  | nil => rfl
  | cons event rest inductionHypothesis =>
      rw [List.cons_append, run_cons, run_cons]
      cases server.step event with
      | none => rfl
      | some next => exact inductionHypothesis next

/-- After a line or a login of a client, the client is not logged in again. -/
theorem not_login_after
    {atStart : Environ}
    {before after : List EnvEvent}
    {event : EnvEvent}
    {fd : Int}
    {final : EnvServer}
    (noLogout : ∀ other, .logout other ∉ before ++ event :: after)
    (own : event = .login fd ∨ ∃ line, event = .line fd line)
    (ran :
      (EnvServer.initial atStart).run (before ++ event :: after) =
        some final) :
    .login fd ∉ after := by
  rw [EnvServer.run_append] at ran
  obtain ⟨server, _, ranLater⟩ := Option.bind_eq_some_iff.mp ran
  rw [EnvServer.run_cons] at ranLater
  obtain ⟨next, stepped, ranAfter⟩ := Option.bind_eq_some_iff.mp ranLater
  have noLogoutAfter : ∀ other, .logout other ∉ after := by
    intro other member
    exact noLogout other (by simp [member])
  refine not_login_of_connected noLogoutAfter ?_ ranAfter
  rcases own with rfl | ⟨line, rfl⟩
  · obtain ⟨_, _, main, _⟩ := EnvServer.steps_login stepped
    simp [main, MainState.login, MainState.updateClientInfor]
  · obtain ⟨connected, rfl⟩ := EnvServer.steps_line stepped
    cases line <;> simpa [EnvServer.obey, EnvServer.setEnv] using connected

/--
In every run without logouts each connected client has its own environment.
What it last set, it finds again; a variable it has not set since its login is
empty or has the value from the start of the server, the latter only when no
client has set it; and `PATH` is `bin:.` until the client sets it.
-/
theorem connectedClients_isolated
    (atStart : Environ)
    (events : List EnvEvent)
    (noLogout : ∀ fd, .logout fd ∉ events)
    (admitted : (EnvServer.initial atStart).admitsRun events = true) :
    ∃ server,
      (EnvServer.initial atStart).run events = some server ∧
        ∀ fd, 0 ≤ server.main.fdIdList fd →
          (∀ before after name value,
            events = before ++ .line fd (.setenv name value) :: after →
            (∀ later, .line fd (.setenv name later) ∉ after) →
            value ≠ "" →
              server.printed fd name = value ++ "\n") ∧
          (∀ before after name,
            events = before ++ .login fd :: after →
            (∀ later, .line fd (.setenv name later) ∉ after) →
            name ≠ "PATH" →
              server.printed fd name = "" ∨
                server.seen fd name = atStart name ∧
                  ∀ other value, .line other (.setenv name value) ∉ events) ∧
          (∀ before after,
            events = before ++ .login fd :: after →
            (∀ later, .line fd (.setenv "PATH" later) ∉ after) →
              server.printed fd "PATH" = "bin:.\n") := by
  obtain ⟨server, ran, kept, loaded⟩ :=
    (Loaded.initially atStart).run (EnvKept.initially atStart) noLogout admitted
  rw [List.nil_append] at kept
  refine ⟨server, ran, ?_⟩
  intro fd connected
  have lineAdmitted : server.admits (.line fd .command) = true := by
    have used := (kept.inverse.sockfdOfId connected).2.1
    simp [EnvServer.admits, MainState.admitsEvent, connected, used]
  have sees : ∀ name, server.seen fd name = expected atStart fd name events :=
    kept.seen_eq_expected lineAdmitted
      (loaded.clean kept (by simp) lineAdmitted)
  refine ⟨?_, ?_, ?_⟩
  · intro before after name value split notLater nonempty
    subst split
    have noLogin := not_login_after noLogout (.inr ⟨_, rfl⟩) ran
    have own :
        ownValue fd name
            (before ++ .line fd (.setenv name value) :: after) =
          some value := by
      simp only [ownValue, List.foldl_append, List.foldl_cons]
      rw [foldl_ownStep_of_not_set notLater (.inl noLogin)]
      simp [ownStep]
    simp [EnvServer.printed, sees, expected, own, nonempty]
  · intro before after name split notLater notPath
    subst split
    have noLogin := not_login_after noLogout (.inl rfl) ran
    have own : ownValue fd name (before ++ .login fd :: after) = none := by
      rw [ownValue_login, foldl_ownStep_of_not_set notLater (.inl noLogin),
        if_neg notPath]
    by_cases set : everSet name (before ++ .login fd :: after) = true
    · left
      simp [EnvServer.printed, sees, expected, own, set]
    · right
      refine ⟨by simp [sees, expected, own, set], ?_⟩
      intro other value member
      refine set ?_
      simp only [everSet, Bool.or_eq_true, List.any_eq_true]
      exact .inr ⟨_, member, by simp [EnvEvent.sets]⟩
  · intro before after split notLater
    subst split
    have own :
        ownValue fd "PATH" (before ++ .login fd :: after) = some "bin:." := by
      rw [ownValue_login, foldl_ownStep_of_not_set notLater (.inr rfl),
        if_pos rfl]
    simp [EnvServer.printed, sees, expected, own]

/-- Two clients set the same variable; each finds its own value. -/
def twoClients : List EnvEvent :=
  [.login 4, .login 5, .line 4 (.setenv "LANG" "a"),
    .line 5 (.setenv "LANG" "b")]

/-- The first client still prints its own value, under its own `PATH`. -/
theorem twoClients_isolated :
    ∃ server,
      (EnvServer.initial pathOnly).run twoClients = some server ∧
        server.printed 4 "LANG" = "a\n" ∧
        server.printed 4 "PATH" = "bin:.\n" := by
  obtain ⟨server, ran, isolated⟩ :=
    connectedClients_isolated pathOnly twoClients (by simp [twoClients])
      (by decide +kernel)
  have connected : 0 ≤ server.main.fdIdList 4 := by
    have known :
        ((EnvServer.initial pathOnly).run twoClients).map
          (fun final => final.main.fdIdList 4) = some 1 := by
      decide +kernel
    rw [ran, Option.map_some, Option.some.injEq] at known
    omega
  obtain ⟨own, _, path⟩ := isolated 4 connected
  refine ⟨server, ran, ?_, ?_⟩
  · exact own [.login 4, .login 5] [.line 5 (.setenv "LANG" "b")] "LANG" "a" rfl
      (by simp) (by simp)
  · exact path [] _ rfl (by simp)

end NpServers.Shell
