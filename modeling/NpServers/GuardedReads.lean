namespace NpServers.GuardedReads

/-!
# Programs that read before they act

A program reads places of a shared store and acts in between.  A store that
others write may answer differently each time, so a program is a tree that
branches over the answers.  A policy says which places may be read, which
answers a place gives, and which actions are permitted after what was seen.  The
module is independent of any particular store.
-/

/-- A program with its reads and actions. -/
inductive Reads (Place Value Action α : Type) where
  | done (value : α)
  | read (place : Place) (next : Value → Reads Place Value Action α)
  | act (action : Action) (next : Reads Place Value Action α)

/-- Places that may be read, their answers, and the permitted actions. -/
structure Policy (Place Value Action : Type) where
  inside : Place → Prop
  returns : Place → Value → Prop
  permitted : List (Place × Value) → Action → Prop

variable {Place Value Action α β : Type}

namespace Reads

/-- One program behind another. -/
def bind :
    Reads Place Value Action α →
    (α → Reads Place Value Action β) → Reads Place Value Action β
  | done value, rest => rest value
  | read place next, rest => read place fun value => (next value).bind rest
  | act action next, rest => act action (next.bind rest)

instance : Monad (Reads Place Value Action) where
  pure := done
  bind := bind

/-- The answer of a place. -/
def ask (place : Place) : Reads Place Value Action Value :=
  read place done

/-- An action. -/
def perform (action : Action) : Reads Place Value Action Unit :=
  act action (done ())

/-- Whatever the places answer, the program stays inside of the policy and ends
with the postcondition. -/
def Safe
    (policy : Policy Place Value Action) :
    Reads Place Value Action α → List (Place × Value) →
      (List (Place × Value) → α → Prop) → Prop
  | done value, seen, post => post seen value
  | read place next, seen, post =>
      policy.inside place ∧
        ∀ value, policy.returns place value →
          Safe policy (next value) ((place, value) :: seen) post
  | act action next, seen, post =>
      policy.permitted seen action ∧ Safe policy next seen post

/-- The program stays inside of the policy wherever it starts. -/
def Clean
    (policy : Policy Place Value Action)
    (program : Reads Place Value Action α) : Prop :=
  ∀ seen, program.Safe policy seen fun _ _ => True

variable {policy : Policy Place Value Action}
variable {program : Reads Place Value Action α}
variable {seen : List (Place × Value)}

/-- A sequence is safe if its first part ends where its second part is safe. -/
theorem safe_bind
    {rest : α → Reads Place Value Action β}
    {post : List (Place × Value) → β → Prop} :
    Safe policy (program >>= rest) seen post ↔
      program.Safe policy seen fun later value =>
        (rest value).Safe policy later post := by
  change (program.bind rest).Safe policy seen post ↔ _
  induction program generalizing seen with
  | done value =>
      exact Iff.rfl
  | read place next inductionHypothesis =>
      simp only [bind, Safe, inductionHypothesis]
  | act action next inductionHypothesis =>
      simp only [bind, Safe, inductionHypothesis]

/-- A weaker postcondition holds as well. -/
theorem Safe.mono
    {post weaker : List (Place × Value) → α → Prop}
    (safe : program.Safe policy seen post)
    (implies : ∀ later value, post later value → weaker later value) :
    program.Safe policy seen weaker := by
  induction program generalizing seen with
  | done value =>
      exact implies _ _ safe
  | read place next inductionHypothesis =>
      exact ⟨safe.1, fun value returned =>
        inductionHypothesis value (safe.2 value returned)⟩
  | act action next inductionHypothesis =>
      exact ⟨safe.1, inductionHypothesis safe.2⟩

/-- A safe program ends somewhere if every place has an answer. -/
theorem Safe.ends
    {post : List (Place × Value) → α → Prop}
    (safe : program.Safe policy seen post)
    (answers : ∀ place, ∃ value, policy.returns place value) :
    ∃ later value, post later value := by
  induction program generalizing seen with
  | done value =>
      exact ⟨_, _, safe⟩
  | read place next inductionHypothesis =>
      obtain ⟨value, returned⟩ := answers place
      exact inductionHypothesis value (safe.2 value returned)
  | act action next inductionHypothesis =>
      exact inductionHypothesis safe.2

/-- A program without reads and actions is clean. -/
@[simp] theorem clean_pure
    (value : α) :
    Clean policy (pure value : Reads Place Value Action α) :=
  fun _ => trivial

/-- A sequence of clean programs is clean. -/
theorem Clean.bind
    {rest : α → Reads Place Value Action β}
    (clean : program.Clean policy)
    (cleanRest : ∀ value, (rest value).Clean policy) :
    Clean policy (program >>= rest) := by
  intro seen
  rw [safe_bind]
  exact (clean seen).mono fun later value _ => cleanRest value later

/-- A read of a place inside is clean. -/
theorem clean_ask
    {place : Place}
    (inside : policy.inside place) :
    Clean policy (ask place : Reads Place Value Action Value) :=
  fun _ => ⟨inside, fun _ _ => trivial⟩

/-- The first part of a safe sequence is safe. -/
theorem Safe.first
    {rest : α → Reads Place Value Action β}
    {post : List (Place × Value) → β → Prop}
    (safe : Safe policy (program >>= rest) seen post) :
    program.Safe policy seen fun _ _ => True :=
  (safe_bind.mp safe).mono fun _ _ _ => trivial

/-- The second part of a safe sequence is safe from somewhere. -/
theorem Safe.second
    {rest : α → Reads Place Value Action β}
    {post : List (Place × Value) → β → Prop}
    (safe : Safe policy (program >>= rest) seen post)
    (answers : ∀ place, ∃ value, policy.returns place value) :
    ∃ later value, (rest value).Safe policy later post :=
  (safe_bind.mp safe).ends answers

end Reads

end NpServers.GuardedReads
