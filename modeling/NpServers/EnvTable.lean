import NpServers.ClientTable

namespace NpServers.Shell

/-!
# Environment variables of the single-process server

The clients of `np_single_proc.c` share the environment of one process.  Their
own values are kept in a list with one node for each variable, and the process
environment is switched to a client's values when a line of that client is read
and the previous line came from a client with another id.

The list is modelled without its head node, which holds no variable.
`create_env_var_node` and `initial_env_var` are taken to return the node they
allocate.  `delete_env_var` reads `pos->next` after it has freed `pos`; a call
that frees a node has no defined result.
-/

/-- `env_var`, a node behind the head of the list. -/
structure EnvVar where
  userNum : Int
  envName : String
  envValue : Nat → Option String

/-- The process environment. -/
abbrev Environ :=
  String → Option String

/-- `setenv` of the C library. -/
def setenv
    (environ : Environ)
    (name value : String)
    (overwrite : Bool) : Environ :=
  if (environ name).isSome && !overwrite then
    environ
  else
    Function.update environ name (some value)

/-- `create_env_var_node` for a variable that one client holds. -/
def createEnvVarNode
    (userNum : Int)
    (name value : String)
    (id : Nat) : EnvVar where
  userNum := userNum
  envName := name
  envValue := fun i => if i = id then some value else none

/-- The list of `initial_env_var`: `PATH`, which is never removed. -/
def initialEnvVar : List EnvVar :=
  [{ userNum := -1, envName := "PATH", envValue := fun _ => none }]

/-- The part of `set_env` for a node of the right name. -/
def EnvVar.store
    (node : EnvVar)
    (value : String)
    (id : Nat) : EnvVar :=
  match node.envValue id with
  | none =>
      { node with
        envValue := Function.update node.envValue id (some value)
        userNum := if 0 ≤ node.userNum then node.userNum + 1 else node.userNum }
  | some old =>
      if old = value then
        node
      else
        { node with
          envValue := Function.update node.envValue id (some value) }

/-- The loop of `set_env` over the list. -/
def setEnvVar
    (name value : String)
    (id : Nat) :
    List EnvVar → List EnvVar
  | [] => [createEnvVarNode 1 name value id]
  | node :: rest =>
      if name = node.envName then
        node.store value id :: rest
      else
        node :: setEnvVar name value id rest

/-- `renew_env_var`. -/
def renewEnvVar
    (nodes : List EnvVar)
    (id : Nat)
    (environ : Environ) : Environ :=
  nodes.foldl
    (fun renewed node =>
      setenv renewed node.envName ((node.envValue id).getD "") true)
    environ

/-- `delete_env_var`; no result when it reads a node it has freed. -/
def deleteEnvVar
    (id : Nat) :
    List EnvVar → Option (List EnvVar)
  | [] => some []
  | node :: rest =>
      match node.envValue id with
      | none => (deleteEnvVar id rest).map (node :: ·)
      | some _ =>
          let userNum :=
            if 0 ≤ node.userNum then node.userNum - 1 else node.userNum
          if userNum = 0 then
            none
          else
            (deleteEnvVar id rest).map
              ({ node with
                envValue := Function.update node.envValue id none
                userNum := userNum } :: ·)

/-! ## The list as a table -/

/-- The value a client has in the list. -/
def cell
    (nodes : List EnvVar)
    (name : String)
    (id : Nat) : Option String :=
  (nodes.find? fun node => node.envName = name).bind (·.envValue id)

/-- The variables that have a node. -/
def envNames
    (nodes : List EnvVar) : List String :=
  nodes.map EnvVar.envName

@[simp] theorem cell_cons
    (node : EnvVar)
    (rest : List EnvVar)
    (name : String)
    (id : Nat) :
    cell (node :: rest) name id =
      if node.envName = name then node.envValue id else cell rest name id := by
  by_cases here : node.envName = name
  · simp [cell, here]
  · simp [cell, here]

@[simp] theorem cell_nil
    (name : String)
    (id : Nat) :
    cell [] name id = none :=
  rfl

@[simp] theorem EnvVar.envName_store
    (node : EnvVar)
    (value : String)
    (id : Nat) :
    (node.store value id).envName = node.envName := by
  unfold EnvVar.store
  split
  · rfl
  · split <;> rfl

theorem EnvVar.envValue_store
    (node : EnvVar)
    (value : String)
    (id : Nat) :
    (node.store value id).envValue =
      Function.update node.envValue id (some value) := by
  unfold EnvVar.store
  split
  case h_1 => rfl
  case h_2 old stored =>
    split
    case isTrue same =>
      rw [← same, ← stored, Function.update_eq_self]
    case isFalse => rfl

/-- `set_env` writes one cell. -/
theorem cell_setEnvVar
    (nodes : List EnvVar)
    (name value other : String)
    (id i : Nat) :
    cell (setEnvVar name value id nodes) other i =
      if other = name ∧ i = id then some value else cell nodes other i := by
  induction nodes with
  | nil =>
      by_cases sameName : other = name
      · subst sameName
        by_cases sameId : i = id <;>
          simp [setEnvVar, createEnvVarNode, sameId]
      · simp [setEnvVar, createEnvVarNode, sameName, Ne.symm sameName]
  | cons node rest inductionHypothesis =>
      unfold setEnvVar
      by_cases found : name = node.envName
      · rw [if_pos found, cell_cons, cell_cons, EnvVar.envName_store,
          EnvVar.envValue_store, ← found]
        by_cases sameName : other = name
        · subst sameName
          by_cases sameId : i = id
          · simp [sameId]
          · simp [sameId]
        · simp [sameName, Ne.symm sameName]
      · rw [if_neg found, cell_cons, cell_cons, inductionHypothesis]
        by_cases sameName : other = name
        · subst sameName
          simp [Ne.symm found]
        · simp [sameName]

/-- `set_env` adds a node for a new variable. -/
theorem envNames_setEnvVar
    (nodes : List EnvVar)
    (name value : String)
    (id : Nat) :
    envNames (setEnvVar name value id nodes) =
      if name ∈ envNames nodes then envNames nodes
      else envNames nodes ++ [name] := by
  induction nodes with
  | nil =>
      simp [setEnvVar, envNames, createEnvVarNode]
  | cons node rest inductionHypothesis =>
      unfold setEnvVar
      by_cases found : name = node.envName
      · simp [found, envNames]
      · have notFound : name ≠ node.envName := found
        rw [if_neg found]
        simp only [envNames, List.map_cons, List.mem_cons, notFound,
          false_or] at inductionHypothesis ⊢
        rw [inductionHypothesis]
        by_cases member : name ∈ List.map EnvVar.envName rest <;>
          simp [member]

/-- The switch leaves variables without a node alone. -/
theorem renewEnvVar_of_not_mem
    {nodes : List EnvVar}
    {name : String}
    (untracked : name ∉ envNames nodes)
    (id : Nat)
    (environ : Environ) :
    renewEnvVar nodes id environ name = environ name := by
  induction nodes generalizing environ with
  | nil =>
      rfl
  | cons node rest inductionHypothesis =>
      simp only [envNames, List.map_cons, List.mem_cons, not_or] at untracked
      obtain ⟨different, notLater⟩ := untracked
      refine (inductionHypothesis notLater _).trans ?_
      simp [setenv, different]

/-- The switch loads the values of one client, and empties the other variables. -/
theorem renewEnvVar_of_mem
    {nodes : List EnvVar}
    (distinct : (envNames nodes).Nodup)
    {name : String}
    (tracked : name ∈ envNames nodes)
    (id : Nat)
    (environ : Environ) :
    renewEnvVar nodes id environ name = some ((cell nodes name id).getD "") := by
  induction nodes generalizing environ with
  | nil =>
      cases tracked
  | cons node rest inductionHypothesis =>
      simp only [envNames, List.map_cons, List.nodup_cons] at distinct
      obtain ⟨notLater, distinctRest⟩ := distinct
      have later :
          renewEnvVar (node :: rest) id environ name =
            renewEnvVar rest id
              (setenv environ node.envName
                ((node.envValue id).getD "") true) name :=
        rfl
      rw [later, cell_cons]
      by_cases here : node.envName = name
      · subst here
        rw [if_pos rfl, renewEnvVar_of_not_mem notLater]
        simp [setenv]
      · rw [if_neg here]
        refine inductionHypothesis distinctRest ?_ _
        rcases List.mem_cons.mp tracked with same | member
        · exact (here same.symm).elim
        · exact member

/-- `delete_env_var` clears one column. -/
theorem deleteEnvVar_eq_some
    {nodes remaining : List EnvVar}
    {id : Nat}
    (deleted : deleteEnvVar id nodes = some remaining) :
    envNames remaining = envNames nodes ∧
      ∀ name i,
        cell remaining name i = if i = id then none else cell nodes name i := by
  induction nodes generalizing remaining with
  | nil =>
      cases deleted
      simp
  | cons node rest inductionHypothesis =>
      unfold deleteEnvVar at deleted
      split at deleted
      case h_1 absent =>
        rw [Option.map_eq_some_iff] at deleted
        obtain ⟨later, deletedLater, rfl⟩ := deleted
        obtain ⟨names, cells⟩ := inductionHypothesis deletedLater
        refine ⟨by simpa [envNames] using names, ?_⟩
        intro name i
        rw [cell_cons, cell_cons, cells]
        by_cases sameId : i = id
        · subst sameId
          simp [absent]
        · simp [sameId]
      case h_2 =>
        dsimp only at deleted
        generalize
          (if 0 ≤ node.userNum then node.userNum - 1 else node.userNum) =
            userNum at deleted
        split at deleted
        case isTrue => cases deleted
        case isFalse =>
          rw [Option.map_eq_some_iff] at deleted
          obtain ⟨later, deletedLater, rfl⟩ := deleted
          obtain ⟨names, cells⟩ := inductionHypothesis deletedLater
          refine ⟨by simpa [envNames] using names, ?_⟩
          intro name i
          rw [cell_cons, cell_cons, cells]
          by_cases sameId : i = id
          · subst sameId
            simp
          · simp [sameId]

/-! ## The server -/

/-- The variables of `main` that the environment depends on. -/
structure EnvServer where
  main : MainState
  environ : Environ
  envVars : List EnvVar
  envId : Nat

/-- A line of a client, as far as the environment is concerned. -/
inductive EnvLine where
  | setenv (name value : String)
  | printenv (name : String)
  | command
  deriving Repr, DecidableEq

/-- A login, a line, or the line with which a client leaves. -/
inductive EnvEvent where
  | login (ssockfd : Int)
  | line (fd : Int) (line : EnvLine)
  | logout (fd : Int)
  deriving Repr, DecidableEq

namespace EnvServer

/-- The server at its start, in a given process environment. -/
def initial (environ : Environ) : EnvServer where
  main := .initialClientInfor
  environ := environ
  envVars := initialEnvVar
  envId := 0

/-- `set_env`. -/
def setEnv
    (server : EnvServer)
    (name value : String)
    (id : Nat)
    (overwrite : Bool) : EnvServer :=
  { server with
    environ := Shell.setenv server.environ name value overwrite
    envVars := setEnvVar name value id server.envVars }

/-- The id of the client on a descriptor. -/
def idOf
    (server : EnvServer)
    (fd : Int) : Nat :=
  (server.main.fdIdList fd).toNat

/-- The switch to the environment of the client that sent a line. -/
def switch
    (server : EnvServer)
    (fd : Int) : EnvServer :=
  if server.idOf fd = server.envId then
    server
  else
    { server with
      envId := server.idOf fd
      environ :=
        renewEnvVar server.envVars (server.idOf fd) server.environ }

/-- `env_setting` after `setenv`; other lines leave the environment alone. -/
def obey
    (server : EnvServer)
    (fd : Int) :
    EnvLine → EnvServer
  | .setenv name value => server.setEnv name value (server.idOf fd) true
  | .printenv _ => server
  | .command => server

/-- The events the server admits. -/
def admits
    (server : EnvServer) :
    EnvEvent → Bool
  | .login ssockfd => server.main.admitsEvent (.login ssockfd)
  | .line fd _ => server.main.admitsEvent (.logout fd)
  | .logout fd => server.main.admitsEvent (.logout fd)

/-- The server after an event, when it is admitted and defined. -/
def step
    (server : EnvServer)
    (event : EnvEvent) : Option EnvServer :=
  if server.admits event then
    match event with
    | .login ssockfd =>
        some
          { server.setEnv "PATH" "bin:." server.main.minId false with
            main := server.main.login ssockfd }
    | .line fd line => some ((server.switch fd).obey fd line)
    | .logout fd =>
        (deleteEnvVar (server.idOf fd) (server.switch fd).envVars).map
          fun remaining =>
            { server.switch fd with
              main := server.main.logout fd
              envVars := remaining }
  else
    none

/-- The step relation of the server. -/
def Steps
    (server : EnvServer)
    (event : EnvEvent)
    (next : EnvServer) : Prop :=
  server.step event = some next

/-- The value of a variable that a line of the client on `fd` finds. -/
def seen
    (server : EnvServer)
    (fd : Int)
    (name : String) : Option String :=
  (server.switch fd).environ name

/-- What `printenv` writes: the value and a newline, unless it is empty. -/
def printed
    (server : EnvServer)
    (fd : Int)
    (name : String) : String :=
  match server.seen fd name with
  | some output => if output = "" then "" else output ++ "\n"
  | none => ""

end EnvServer

end NpServers.Shell
