import Mathlib.Data.Finset.Max
import Mathlib.Logic.Relation
import NpServers.TransitionPath

namespace NpServers.WaitOrder

open TransitionPath

/-!
# Processes that wait for one another

A process waits for others, and ends once it waits for nobody who runs.  When
every process waits for earlier ones only, there is no cycle of waiting
processes, and each schedule that ends them one by one goes on until nobody
runs.  The module is independent of what the processes wait for.
-/

variable {State Process : Type}

/-- Who runs in a state, who waits for whom, and the end of a process. -/
structure Waiting (State Process : Type) where
  running : State → Finset Process
  waits : State → Process → Process → Prop
  finish : State → Process → State

namespace Waiting

variable (system : Waiting State Process)

/-- A process that runs and waits for nobody who runs. -/
def Free
    (state : State)
    (process : Process) : Prop :=
  process ∈ system.running state ∧
    ∀ other ∈ system.running state, ¬ system.waits state process other

/-- Some processes wait for each other around a cycle. -/
def Deadlocked (state : State) : Prop :=
  ∃ process,
    Relation.TransGen
      (fun waiter awaited =>
        awaited ∈ system.running state ∧ system.waits state waiter awaited)
      process process

/-- A process that waits for nobody ends. -/
def Ends
    (state : State)
    (process : Process)
    (next : State) : Prop :=
  system.Free state process ∧ next = system.finish state process

/-- A rank of the processes that goes down from each to those it waits for. -/
def Ranked
    (rank : Process → Nat)
    (state : State) : Prop :=
  ∀ waiter awaited,
    awaited ∈ system.running state →
    system.waits state waiter awaited →
    rank awaited < rank waiter

variable {system}
variable {rank : Process → Nat}
variable {state : State}

/-- The rank goes down along a chain of waiting processes. -/
theorem Ranked.lt_of_chain
    (ranked : system.Ranked rank state)
    {waiter awaited : Process}
    (chain :
      Relation.TransGen
        (fun waiter awaited =>
          awaited ∈ system.running state ∧ system.waits state waiter awaited)
        waiter awaited) :
    rank awaited < rank waiter := by
  induction chain with
  | single edge =>
      exact ranked _ _ edge.1 edge.2
  | tail _ edge inductionHypothesis =>
      exact (ranked _ _ edge.1 edge.2).trans inductionHypothesis

/-- So there is no cycle. -/
theorem Ranked.not_deadlocked
    (ranked : system.Ranked rank state) :
    ¬ system.Deadlocked state := by
  rintro ⟨process, cycle⟩
  exact Nat.lt_irrefl _ (ranked.lt_of_chain cycle)

/-- A running process of least rank waits for nobody. -/
theorem Ranked.exists_free
    (ranked : system.Ranked rank state)
    (someone : (system.running state).Nonempty) :
    ∃ process, system.Free state process := by
  obtain ⟨process, runs, least⟩ :=
    Finset.exists_min_image (system.running state) rank someone
  refine ⟨process, runs, ?_⟩
  intro other otherRuns waits
  exact Nat.not_lt.mpr (least other otherRuns) (ranked _ _ otherRuns waits)

/--
Every schedule that ends free processes is at most as long as there are running
ones, and while one still runs it can be continued.
-/
def Drains
    (system : Waiting State Process)
    (state : State) : Prop :=
  ∀ schedule,
    Path system.Ends state schedule →
    schedule.length ≤ (system.running state).card ∧
      ((system.running (lastState state schedule)).Nonempty →
        ∃ process, system.Free (lastState state schedule) process)

/--
If the end of a process leaves the others running and waiting for no one new, a
state whose processes are ranked drains.
-/
theorem Ranked.drains
    [DecidableEq Process]
    (runs :
      ∀ state process,
        system.running (system.finish state process) =
          (system.running state).erase process)
    (waits :
      ∀ {state process waiter awaited},
        system.waits (system.finish state process) waiter awaited →
        system.waits state waiter awaited)
    (ranked : system.Ranked rank state) :
    system.Drains state := by
  intro schedule isPath
  induction schedule generalizing state with
  | nil =>
      exact ⟨Nat.zero_le _, ranked.exists_free⟩
  | cons entry rest inductionHypothesis =>
      obtain ⟨process, next⟩ := entry
      obtain ⟨⟨free, rfl⟩, later⟩ := isPath
      have stillRanked :
          system.Ranked rank (system.finish state process) := by
        intro waiter awaited isRunning isWaiting
        rw [runs] at isRunning
        exact ranked _ _ (Finset.mem_of_mem_erase isRunning) (waits isWaiting)
      obtain ⟨bounded, continues⟩ := inductionHypothesis stillRanked later
      refine ⟨?_, continues⟩
      rw [runs, Finset.card_erase_of_mem free.1] at bounded
      have positive : 0 < (system.running state).card :=
        Finset.card_pos.mpr ⟨process, free.1⟩
      simp only [List.length_cons]
      omega

end Waiting

end NpServers.WaitOrder
