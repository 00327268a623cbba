import Mathlib.Logic.Relation

namespace NpServers.TransitionPath

/-!
# Finite paths of labelled transition systems

A path lists, for each step, its action and the state reached.  The rules
below carry an invariant along a path, possibly under a condition on every
step, and compare a property of all visited states with a condition on all
steps.  The module is independent of any particular system.
-/

variable {State Action : Type}
variable {step : State → Action → State → Prop}

/-- Consecutive entries of the path are transitions. -/
def Path
    (step : State → Action → State → Prop) :
    State → List (Action × State) → Prop
  | _, [] => True
  | state, (action, next) :: rest =>
      step state action next ∧ Path step next rest

/-- The state at the end of a path. -/
def lastState :
    State → List (Action × State) → State
  | state, [] => state
  | _, (_, next) :: rest => lastState next rest

/-- A condition on the state before a step and its action, at every step. -/
def EveryStep
    (condition : State → Action → Prop) :
    State → List (Action × State) → Prop
  | _, [] => True
  | state, (action, next) :: rest =>
      condition state action ∧ EveryStep condition next rest

instance EveryStep.decidable
    {condition : State → Action → Prop}
    [∀ state action, Decidable (condition state action)] :
    (state : State) → (path : List (Action × State)) →
      Decidable (EveryStep condition state path)
  | _, [] => .isTrue trivial
  | state, (action, next) :: rest =>
      have : Decidable (EveryStep condition next rest) :=
        EveryStep.decidable next rest
      inferInstanceAs
        (Decidable (condition state action ∧ EveryStep condition next rest))

/-- A property of the start state and of every state visited later. -/
def EveryState
    (property : State → Prop) :
    State → List (Action × State) → Prop
  | state, [] => property state
  | state, (_, next) :: rest =>
      property state ∧ EveryState property next rest

/-- A property of every state holds at the end of the path. -/
theorem EveryState.last
    {property : State → Prop}
    {state : State}
    {path : List (Action × State)}
    (every : EveryState property state path) :
    property (lastState state path) := by
  induction path generalizing state with
  | nil =>
      exact every
  | cons entry rest inductionHypothesis =>
      exact inductionHypothesis every.2

/-- A weaker property holds at every state as well. -/
theorem EveryState.mono
    {property weaker : State → Prop}
    {state : State}
    {path : List (Action × State)}
    (every : EveryState property state path)
    (implies : ∀ state, property state → weaker state) :
    EveryState weaker state path := by
  induction path generalizing state with
  | nil =>
      exact implies state every
  | cons entry rest inductionHypothesis =>
      exact ⟨implies state every.1, inductionHypothesis every.2⟩

/-- A path can be prolonged by one step. -/
theorem Path.snoc
    {state next : State}
    {action : Action}
    {path : List (Action × State)}
    (isPath : Path step state path)
    (stepped : step (lastState state path) action next) :
    Path step state (path ++ [(action, next)]) := by
  induction path generalizing state with
  | nil =>
      exact ⟨stepped, trivial⟩
  | cons entry rest inductionHypothesis =>
      exact ⟨isPath.1, inductionHypothesis isPath.2 stepped⟩

/-- A path whose steps all meet a condition is one of the restricted system. -/
theorem Path.restrict
    {condition : State → Action → Prop}
    {state : State}
    {path : List (Action × State)}
    (isPath : Path step state path)
    (conditions : EveryStep condition state path) :
    Path
      (fun before action after =>
        condition before action ∧ step before action after)
      state path := by
  induction path generalizing state with
  | nil =>
      trivial
  | cons entry rest inductionHypothesis =>
      exact ⟨⟨conditions.1, isPath.1⟩,
        inductionHypothesis isPath.2 conditions.2⟩

/-- Two paths, one after the other. -/
theorem Path.append
    {state : State}
    {path later : List (Action × State)}
    (isPath : Path step state path)
    (isLater : Path step (lastState state path) later) :
    Path step state (path ++ later) := by
  induction path generalizing state with
  | nil =>
      exact isLater
  | cons entry rest inductionHypothesis =>
      exact ⟨isPath.1, inductionHypothesis isPath.2 isLater⟩

theorem lastState_append
    (state : State)
    (path later : List (Action × State)) :
    lastState state (path ++ later) =
      lastState (lastState state path) later := by
  induction path generalizing state with
  | nil =>
      rfl
  | cons entry rest inductionHypothesis =>
      exact inductionHypothesis entry.2

/-- A condition on every step of two paths, one after the other. -/
theorem everyStep_append
    {condition : State → Action → Prop}
    {state : State}
    {path later : List (Action × State)} :
    EveryStep condition state (path ++ later) ↔
      EveryStep condition state path ∧
        EveryStep condition (lastState state path) later := by
  induction path generalizing state with
  | nil =>
      exact ⟨fun every => ⟨trivial, every⟩, fun both => both.2⟩
  | cons entry rest inductionHypothesis =>
      exact (and_congr_right fun _ => inductionHypothesis).trans
        and_assoc.symm

theorem lastState_snoc
    (state : State)
    (path : List (Action × State))
    (action : Action)
    (next : State) :
    lastState state (path ++ [(action, next)]) = next := by
  induction path generalizing state with
  | nil =>
      rfl
  | cons entry rest inductionHypothesis =>
      exact inductionHypothesis entry.2

/-- An inductive invariant holds at every state of a path. -/
theorem Path.everyState
    {invariant : State → Prop}
    (preserved :
      ∀ {state action next},
        invariant state →
        step state action next →
        invariant next)
    {state : State}
    {path : List (Action × State)}
    (initially : invariant state)
    (isPath : Path step state path) :
    EveryState invariant state path := by
  induction path generalizing state with
  | nil =>
      exact initially
  | cons entry rest inductionHypothesis =>
      exact ⟨initially,
        inductionHypothesis (preserved initially isPath.1) isPath.2⟩

/--
An invariant that survives each step meeting a condition holds at every state
of a path whose steps all meet it.
-/
theorem Path.everyState_of_everyStep
    {invariant : State → Prop}
    {condition : State → Action → Prop}
    (preserved :
      ∀ {state action next},
        invariant state →
        condition state action →
        step state action next →
        invariant next)
    {state : State}
    {path : List (Action × State)}
    (initially : invariant state)
    (isPath : Path step state path)
    (conditions : EveryStep condition state path) :
    EveryState invariant state path := by
  induction path generalizing state with
  | nil =>
      exact initially
  | cons entry rest inductionHypothesis =>
      exact ⟨initially,
        inductionHypothesis
          (preserved initially conditions.1 isPath.1)
          isPath.2 conditions.2⟩

/--
When a property is decided at each step by a condition on the state before it,
every state of a path has the property exactly when every step meets the
condition.
-/
theorem Path.everyState_iff_everyStep
    {invariant property : State → Prop}
    {condition : State → Action → Prop}
    (preserved :
      ∀ {state action next},
        invariant state →
        step state action next →
        invariant next)
    (decided :
      ∀ {state action next},
        invariant state →
        property state →
        step state action next →
        (property next ↔ condition state action))
    {state : State}
    {path : List (Action × State)}
    (initially : invariant state)
    (startsWith : property state)
    (isPath : Path step state path) :
    EveryState property state path ↔
      EveryStep condition state path := by
  induction path generalizing state with
  | nil =>
      exact ⟨fun _ => trivial, fun _ => startsWith⟩
  | cons entry rest inductionHypothesis =>
      obtain ⟨action, next⟩ := entry
      have atStep := decided initially startsWith isPath.1
      have later := inductionHypothesis (preserved initially isPath.1)
      constructor
      · rintro ⟨_, everyLater⟩
        -- the next state is the first of the remaining ones
        have nextProperty : property next := by
          cases rest with
          | nil => exact everyLater
          | cons => exact everyLater.1
        exact ⟨atStep.mp nextProperty,
          (later nextProperty isPath.2).mp everyLater⟩
      · rintro ⟨conditionHere, conditionLater⟩
        have nextProperty := atStep.mpr conditionHere
        exact ⟨startsWith,
          (later nextProperty isPath.2).mpr conditionLater⟩

/-! ## Paths of deterministic systems -/

/-- The path a total transition function takes through a list of actions. -/
def follow
    (next : State → Action → State) :
    State → List Action → List (Action × State)
  | _, [] => []
  | state, action :: rest =>
      (action, next state action) :: follow next (next state action) rest

/-- Every action of the list is admitted where the function takes it. -/
def admits
    (guard : State → Action → Bool)
    (next : State → Action → State) :
    State → List Action → Bool
  | _, [] => true
  | state, action :: rest =>
      guard state action && admits guard next (next state action) rest

/-- Admitted actions give a path of the guarded transition function. -/
theorem path_follow
    {guard : State → Action → Bool}
    {next : State → Action → State}
    {state : State}
    {actions : List Action}
    (admitted : admits guard next state actions = true) :
    Path
      (fun before action after =>
        guard before action = true ∧ after = next before action)
      state (follow next state actions) := by
  induction actions generalizing state with
  | nil =>
      trivial
  | cons action rest inductionHypothesis =>
      simp only [admits, Bool.and_eq_true] at admitted
      exact ⟨⟨admitted.1, rfl⟩, inductionHypothesis admitted.2⟩

/-- The path a partial transition function takes, if no action is refused. -/
def trace
    (next : State → Action → Option State) :
    State → List Action → Option (List (Action × State))
  | _, [] => some []
  | state, action :: rest =>
      match next state action with
      | some after => (trace next after rest).map ((action, after) :: ·)
      | none => none

/-- A trace is a path of the partial transition function. -/
theorem path_of_trace
    {next : State → Action → Option State}
    {state : State}
    {actions : List Action}
    {path : List (Action × State)}
    (traced : trace next state actions = some path) :
    Path
      (fun before action after => next before action = some after)
      state path := by
  induction actions generalizing state path with
  | nil =>
      cases traced
      trivial
  | cons action rest inductionHypothesis =>
      simp only [trace] at traced
      split at traced
      case h_1 after stepped =>
        rw [Option.map_eq_some_iff] at traced
        obtain ⟨later, tracedLater, rfl⟩ := traced
        exact ⟨stepped, inductionHypothesis tracedLater⟩
      case h_2 => cases traced

/-- A trace takes the actions it was given. -/
theorem trace_actions
    {next : State → Action → Option State}
    {state : State}
    {actions : List Action}
    {path : List (Action × State)}
    (traced : trace next state actions = some path) :
    path.map Prod.fst = actions := by
  induction actions generalizing state path with
  | nil =>
      cases traced
      rfl
  | cons action rest inductionHypothesis =>
      simp only [trace] at traced
      split at traced
      case h_1 after stepped =>
        rw [Option.map_eq_some_iff] at traced
        obtain ⟨later, tracedLater, rfl⟩ := traced
        rw [List.map_cons, inductionHypothesis tracedLater]
      case h_2 => cases traced

/-- A trace that is never refused gives a path. -/
theorem path_trace
    {next : State → Action → Option State}
    {state : State}
    {actions : List Action}
    (completes : (trace next state actions).isSome = true) :
    Path
      (fun before action after => next before action = some after)
      state ((trace next state actions).getD []) := by
  obtain ⟨path, traced⟩ := Option.isSome_iff_exists.mp completes
  rw [traced]
  exact path_of_trace traced

/-- A condition on every step holds at the last action followed. -/
theorem EveryStep.follow_last
    {condition : State → Action → Prop}
    {next : State → Action → State}
    {state : State}
    {earlier : List Action}
    {action : Action}
    (conditions :
      EveryStep condition state (follow next state (earlier ++ [action]))) :
    condition (earlier.foldl next state) action := by
  induction earlier generalizing state with
  | nil =>
      exact conditions.1
  | cons first rest inductionHypothesis =>
      exact inductionHypothesis conditions.2

end NpServers.TransitionPath
