import NpServers.TransitionPath

namespace NpServers.InterleavedRuns

open TransitionPath

/-!
# Components that run interleaved

A process runs several components, one action of one of them at a time, and
what an action puts out is appended to one log.  A component reads and changes
nothing of the others, so in every run each of them is where its own actions
alone take it, and its part of the log is what these actions put out.

The module is independent of any particular program.
-/

variable {Component Action Output : Type}

/-- The components, and what they have put out so far. -/
structure System (Component Output : Type) where
  components : List Component
  log : List (Nat × Output)

section Run

variable (act : Component → Action → Option (Component × List Output))

/-- One action of the component with an index. -/
def System.step
    (system : System Component Output)
    (event : Nat × Action) : Option (System Component Output) :=
  match system.components[event.1]? with
  | none => none
  | some component =>
      match act component event.2 with
      | none => none
      | some (next, outputs) =>
          some
            { components := system.components.set event.1 next
              log := system.log ++ outputs.map fun output => (event.1, output) }

/-- One action that is possible. -/
def System.Steps
    (system : System Component Output)
    (event : Nat × Action)
    (next : System Component Output) : Prop :=
  system.step act event = some next

/-- A component that runs alone, with all that it puts out. -/
def alone
    (component : Component) :
    List Action → Option (Component × List Output)
  | [] => some (component, [])
  | action :: rest =>
      match act component action with
      | none => none
      | some (next, outputs) =>
          (alone next rest).map fun result => (result.1, outputs ++ result.2)

end Run

/-- The actions of one component among the events of a run. -/
def ownActions
    (index : Nat)
    (events : List (Nat × Action)) : List Action :=
  events.filterMap fun event => if event.1 = index then some event.2 else none

/-- The part of the log that one component has put out. -/
def ownOutputs
    (index : Nat)
    (log : List (Nat × Output)) : List Output :=
  log.filterMap fun entry => if entry.1 = index then some entry.2 else none

@[simp] theorem ownOutputs_append
    (index : Nat)
    (first second : List (Nat × Output)) :
    ownOutputs index (first ++ second) =
      ownOutputs index first ++ ownOutputs index second :=
  List.filterMap_append

theorem ownOutputs_same
    (index : Nat)
    (outputs : List Output) :
    ownOutputs index (outputs.map fun output => (index, output)) = outputs := by
  induction outputs with
  | nil =>
      rfl
  | cons output rest inductionHypothesis =>
      unfold ownOutputs at inductionHypothesis ⊢
      simp [inductionHypothesis]

theorem ownOutputs_other
    {index other : Nat}
    (different : other ≠ index)
    (outputs : List Output) :
    ownOutputs index (outputs.map fun output => (other, output)) = [] := by
  induction outputs with
  | nil =>
      rfl
  | cons output rest inductionHypothesis =>
      unfold ownOutputs at inductionHypothesis ⊢
      simp [different]

variable {act : Component → Action → Option (Component × List Output)}
variable {system next : System Component Output}

/-- What a step does: the component it names acts, all others stay. -/
theorem System.Steps.acts
    {event : Nat × Action}
    (stepped : system.Steps act event next) :
    ∃ component after outputs,
      system.components[event.1]? = some component ∧
        act component event.2 = some (after, outputs) ∧
        next.components = system.components.set event.1 after ∧
        next.log =
          system.log ++ outputs.map fun output => (event.1, output) := by
  unfold System.Steps System.step at stepped
  split at stepped
  · cases stepped
  · rename_i component isComponent
    split at stepped
    · cases stepped
    · rename_i after outputs acts
      cases stepped
      exact ⟨component, after, outputs, isComponent, acts, rfl, rfl⟩

/-- In every run, a component does and puts out what it would alone. -/
theorem run_alone
    {path : List ((Nat × Action) × System Component Output)}
    (isPath : Path (System.Steps act) system path)
    {index : Nat}
    {component : Component}
    (isComponent : system.components[index]? = some component) :
    ∃ after outputs,
      alone act component (ownActions index (path.map Prod.fst)) =
          some (after, outputs) ∧
        (lastState system path).components[index]? = some after ∧
        ownOutputs index (lastState system path).log =
          ownOutputs index system.log ++ outputs := by
  induction path generalizing system component with
  | nil =>
      exact ⟨component, [], rfl, isComponent, (List.append_nil _).symm⟩
  | cons entry rest inductionHypothesis =>
      obtain ⟨event, next⟩ := entry
      obtain ⟨stepped, isRest⟩ := isPath
      obtain ⟨acting, acted, outputs, isActing, acts, components, log⟩ :=
        stepped.acts
      by_cases own : event.1 = index
      · obtain rfl : acting = component := by
          rw [own, isComponent] at isActing
          exact (Option.some.inj isActing).symm
        have inside : index < system.components.length :=
          (List.getElem?_eq_some_iff.mp isComponent).1
        have isNext : next.components[index]? = some acted := by
          rw [components, own, List.getElem?_set_self inside]
        obtain ⟨after, later, ran, isAfter, isLog⟩ :=
          inductionHypothesis isRest isNext
        refine ⟨after, outputs ++ later, ?_, isAfter, ?_⟩
        · have isOwn :
              ownActions index (((event, next) :: rest).map Prod.fst) =
                event.2 :: ownActions index (rest.map Prod.fst) := by
            simp [ownActions, own]
          rw [isOwn]
          simp [alone, acts, ran]
        · change ownOutputs index (lastState next rest).log = _
          rw [isLog, log, ownOutputs_append, own, ownOutputs_same,
            List.append_assoc]
      · have isNext : next.components[index]? = some component := by
          rw [components, List.getElem?_set_ne own, isComponent]
        obtain ⟨after, later, ran, isAfter, isLog⟩ :=
          inductionHypothesis isRest isNext
        refine ⟨after, later, ?_, isAfter, ?_⟩
        · have isOwn :
              ownActions index (((event, next) :: rest).map Prod.fst) =
                ownActions index (rest.map Prod.fst) := by
            simp [ownActions, own]
          rw [isOwn, ran]
        · change ownOutputs index (lastState next rest).log = _
          rw [isLog, log, ownOutputs_append, ownOutputs_other own,
            List.append_nil]

/--
What an action keeps of the component that acts, a run keeps of all of them; and
what each action puts out is all that the log gets.
-/
theorem run_keeps
    {property : Nat → Component → Prop}
    {logs : Nat → Output → Prop}
    {admits : Action → Prop}
    (gives :
      ∀ {index component action after outputs},
        property index component → admits action →
        act component action = some (after, outputs) →
        property index after ∧ ∀ output ∈ outputs, logs index output)
    {path : List ((Nat × Action) × System Component Output)}
    (isPath : Path (System.Steps act) system path)
    (admitted : ∀ entry ∈ path, admits entry.1.2)
    (initially :
      ∀ index component,
        system.components[index]? = some component → property index component)
    (logged : ∀ entry ∈ system.log, logs entry.1 entry.2) :
    (∀ index component,
      (lastState system path).components[index]? = some component →
      property index component) ∧
      ∀ entry ∈ (lastState system path).log, logs entry.1 entry.2 := by
  induction path generalizing system with
  | nil =>
      exact ⟨initially, logged⟩
  | cons entry rest inductionHypothesis =>
      obtain ⟨event, next⟩ := entry
      obtain ⟨stepped, isRest⟩ := isPath
      obtain ⟨here, later⟩ := List.forall_mem_cons.mp admitted
      obtain ⟨acting, acted, outputs, isActing, acts, components, log⟩ :=
        stepped.acts
      obtain ⟨kept, outs⟩ := gives (initially event.1 acting isActing) here acts
      apply inductionHypothesis isRest later
      · intro index component isComponent
        rw [components] at isComponent
        by_cases own : event.1 = index
        · subst own
          have inside : event.1 < system.components.length :=
            (List.getElem?_eq_some_iff.mp isActing).1
          rw [List.getElem?_set_self inside] at isComponent
          exact Option.some.inj isComponent ▸ kept
        · rw [List.getElem?_set_ne own] at isComponent
          exact initially index component isComponent
      · intro logEntry member
        rw [log, List.mem_append] at member
        rcases member with old | new
        · exact logged logEntry old
        · obtain ⟨output, isOutput, rfl⟩ := List.mem_map.mp new
          exact outs output isOutput

end NpServers.InterleavedRuns
