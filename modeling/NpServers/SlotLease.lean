import NpServers.LeastFreeSlot
import NpServers.TransitionPath

namespace NpServers.SlotLease

open LeastFreeSlot TransitionPath

/-!
# Leasing slots from a cached table

Keys acquire the cached slot and release it later.  Two maps connect them: the
slot of a key and the owner of a slot.  This module lifts the cached table to
runs of any system that has such a view, and states exactly which runs hand out
the least free slot every time: those in which no acquisition follows a filling
one before a slot not above it was released.
-/

variable {κ ι : Type} [DecidableEq κ] [LinearOrder ι]

/-- A cached slot table together with the leases of its slots. -/
structure Lease (κ ι : Type) where
  cache : Cache ι
  slotOf : κ → Option ι
  ownerOf : ι → κ

/-- One lease operation. -/
inductive Event (κ : Type) where
  | acquire : κ → Event κ
  | release : κ → Event κ
  deriving Repr, DecidableEq

/-- A key without a slot takes the cached one; a key with a slot gives it back. -/
inductive Step (slots : List ι) :
    Lease κ ι → Event κ → Lease κ ι → Prop where
  | acquire
      {lease next : Lease κ ι}
      {key : κ}
      (unleased : lease.slotOf key = none)
      (cache : next.cache = lease.cache.occupy slots)
      (slotOf :
        next.slotOf =
          Function.update lease.slotOf key (some lease.cache.low))
      (owner : next.ownerOf lease.cache.low = key)
      (others :
        ∀ slot, slot ≠ lease.cache.low →
          next.ownerOf slot = lease.ownerOf slot) :
      Step slots lease (.acquire key) next
  | release
      {lease next : Lease κ ι}
      {key : κ}
      {slot : ι}
      (leased : lease.slotOf key = some slot)
      (cache : next.cache = lease.cache.release slot)
      (slotOf : next.slotOf = Function.update lease.slotOf key none)
      (others :
        ∀ other, other ≠ slot →
          next.ownerOf other = lease.ownerOf other) :
      Step slots lease (.release key) next

/-- Slots in use and keys with a slot correspond to each other. -/
structure Inverse
    (slots : List ι)
    (lease : Lease κ ι) : Prop where
  slotOf_ownerOf :
    ∀ {slot},
      slot ∈ slots →
      lease.cache.used slot = true →
      lease.slotOf (lease.ownerOf slot) = some slot
  used_of_slotOf :
    ∀ {key slot},
      lease.slotOf key = some slot →
      slot ∈ slots ∧
        lease.cache.used slot = true ∧
        lease.ownerOf slot = key

/-- An acquisition of the least free slot keeps the correspondence. -/
theorem Inverse.acquire
    {slots : List ι}
    {lease next : Lease κ ι}
    {key : κ}
    (inverse : Inverse slots lease)
    (least : IsLeastFree slots lease.cache.used lease.cache.low)
    (step : Step slots lease (.acquire key) next) :
    Inverse slots next := by
  cases step with
  | acquire unleased cache slotOf owner others =>
      have usedAfter :
          next.cache.used =
            Function.update lease.cache.used lease.cache.low true := by
        rw [cache]
        rfl
      constructor
      · intro slot member used
        by_cases here : slot = lease.cache.low
        · subst here
          rw [slotOf, owner, Function.update_self]
        · rw [usedAfter, Function.update_of_ne here] at used
          have oldKey := inverse.slotOf_ownerOf member used
          have notKey : lease.ownerOf slot ≠ key := by
            rintro rfl
            rw [unleased] at oldKey
            cases oldKey
          rw [slotOf, others slot here, Function.update_of_ne notKey]
          exact oldKey
      · intro other slot leased
        rw [slotOf] at leased
        by_cases here : other = key
        · subst here
          rw [Function.update_self, Option.some.injEq] at leased
          subst leased
          exact ⟨least.mem, by rw [usedAfter, Function.update_self], owner⟩
        · rw [Function.update_of_ne here] at leased
          obtain ⟨member, used, isOwner⟩ := inverse.used_of_slotOf leased
          have notLow : slot ≠ lease.cache.low := by
            rintro rfl
            rw [least.free] at used
            cases used
          exact ⟨member,
            by rw [usedAfter, Function.update_of_ne notLow]; exact used,
            (others slot notLow).trans isOwner⟩

/-- A release keeps the correspondence. -/
theorem Inverse.release
    {slots : List ι}
    {lease next : Lease κ ι}
    {key : κ}
    (inverse : Inverse slots lease)
    (step : Step slots lease (.release key) next) :
    Inverse slots next := by
  cases step with
  | @release _ _ slot leased cache slotOf others =>
      have usedAfter :
          next.cache.used = Function.update lease.cache.used slot false := by
        rw [cache]
        rfl
      obtain ⟨_, _, keyOwns⟩ := inverse.used_of_slotOf leased
      constructor
      · intro other member used
        have elsewhere : other ≠ slot := by
          rintro rfl
          rw [usedAfter, Function.update_self] at used
          cases used
        rw [usedAfter, Function.update_of_ne elsewhere] at used
        have oldKey := inverse.slotOf_ownerOf member used
        have notKey : lease.ownerOf other ≠ key := by
          intro same
          rw [same, leased, Option.some.injEq] at oldKey
          exact elsewhere oldKey.symm
        rw [slotOf, others other elsewhere, Function.update_of_ne notKey]
        exact oldKey
      · intro otherKey other otherLeased
        rw [slotOf] at otherLeased
        have notKey : otherKey ≠ key := by
          rintro rfl
          rw [Function.update_self] at otherLeased
          cases otherLeased
        rw [Function.update_of_ne notKey] at otherLeased
        obtain ⟨member, used, isOwner⟩ := inverse.used_of_slotOf otherLeased
        have elsewhere : other ≠ slot := by
          rintro rfl
          exact notKey (isOwner.symm.trans keyOwns)
        exact ⟨member,
          by rw [usedAfter, Function.update_of_ne elsewhere]; exact used,
          (others other elsewhere).trans isOwner⟩

/-! ## Runs of a system with a lease view -/

section View

variable {State Action : Type}
variable (slots : List ι)
variable (view : State → Lease κ ι)
variable (label : Action → Event κ)

/-- An action that acquires gets the least free slot of the state before it. -/
def AcquiresLeast
    (state : State)
    (action : Action) : Prop :=
  match label action with
  | .acquire _ =>
      IsLeastFree slots (view state).cache.used (view state).cache.low
  | .release _ => True

/--
The slot whose acquisition filled the table, remembered until a slot that is
not larger is released.
-/
def fillerAfter
    (filler : Option ι)
    (state : State)
    (action : Action)
    (next : State) : Option ι :=
  match label action with
  | .acquire _ =>
      if ∀ slot ∈ slots, (view next).cache.used slot = true then
        some (view state).cache.low
      else
        none
  | .release key =>
      match (view state).slotOf key with
      | some slot => filler.filter fun filling => decide (filling < slot)
      | none => filler

/-- No acquisition is made while a filling slot is remembered. -/
def NoStaleAcquire :
    Option ι → State → List (Action × State) → Prop
  | _, _, [] => True
  | filler, state, (action, next) :: rest =>
      (∀ key, label action = .acquire key → filler = none) ∧
        NoStaleAcquire
          (fillerAfter slots view label filler state action next) next rest

variable {slots view label}
variable {step : State → Action → State → Prop}

/-- The remembered slot is the one a stale cache points at. -/
theorem fillerAfter_eq_filler
    (increasing : slots.Pairwise (· < ·))
    {state next : State}
    {action : Action}
    (tight : (view state).cache.Tight slots)
    (stepped : Step slots (view state) (label action) (view next)) :
    fillerAfter slots view label (view state).cache.filler state action next =
      (view next).cache.filler := by
  unfold fillerAfter
  generalize label action = event at stepped
  cases stepped with
  | acquire unleased cache slotOf owner others =>
      simp only
      rw [cache, Cache.filler_occupy increasing tight]
  | release leased cache slotOf others =>
      simp only [leased]
      rw [cache, Cache.filler_release]

/-- Every lease step keeps the cache tight. -/
theorem tight_step
    (increasing : slots.Pairwise (· < ·))
    {lease next : Lease κ ι}
    {event : Event κ}
    (inverse : Inverse slots lease)
    (tight : lease.cache.Tight slots)
    (stepped : Step slots lease event next) :
    next.cache.Tight slots := by
  cases stepped with
  | acquire unleased cache slotOf owner others =>
      rw [cache]
      exact tight.occupy increasing
  | release leased cache slotOf others =>
      rw [cache]
      exact tight.release (inverse.used_of_slotOf leased).1

/--
A run hands out the least free slot at every acquisition, and keeps slots and
keys in correspondence, exactly when it makes no stale acquisition.
-/
theorem acquiresLeast_iff_noStaleAcquire
    (view : State → Lease κ ι)
    (label : Action → Event κ)
    (increasing : slots.Pairwise (· < ·))
    (simulates :
      ∀ {state action next},
        step state action next →
        Step slots (view state) (label action) (view next))
    {state : State}
    {path : List (Action × State)}
    (tight : (view state).cache.Tight slots)
    (inverse : Inverse slots (view state))
    (isPath : Path step state path) :
    (EveryStep (AcquiresLeast slots view label) state path ∧
        EveryState (fun visited => Inverse slots (view visited)) state path) ↔
      NoStaleAcquire slots view label (view state).cache.filler state path := by
  induction path generalizing state with
  | nil =>
      exact ⟨fun _ => trivial, fun _ => ⟨trivial, inverse⟩⟩
  | cons entry rest inductionHypothesis =>
      obtain ⟨action, next⟩ := entry
      have stepped := simulates isPath.1
      have nextTight := tight_step increasing inverse tight stepped
      have remembered :
          fillerAfter slots view label
              (view state).cache.filler state action next =
            (view next).cache.filler :=
        fillerAfter_eq_filler increasing tight stepped
      simp only [EveryStep, EveryState, NoStaleAcquire, remembered]
      cases labelled : label action with
      | acquire key =>
          simp only [AcquiresLeast, labelled]
          rw [labelled] at stepped
          by_cases stale : (view state).cache.Stale
          · -- both sides fail at this very acquisition
            have notLeast :
                ¬ IsLeastFree slots
                  (view state).cache.used (view state).cache.low := by
              intro least
              exact absurd stale (by simp [Cache.Stale, least.free])
            have remembers : (view state).cache.filler ≠ none := by
              simp [Cache.filler_eq_none_iff, stale]
            constructor
            · rintro ⟨⟨least, _⟩, _⟩
              exact absurd least notLeast
            · rintro ⟨forgotten, _⟩
              exact absurd (forgotten key rfl) remembers
          · have least := tight.isLeastFree stale
            have nextInverse := inverse.acquire least stepped
            have later :=
              inductionHypothesis nextTight nextInverse isPath.2
            have forgotten := (Cache.filler_eq_none_iff _).mpr stale
            constructor
            · rintro ⟨⟨_, steps⟩, _, states⟩
              exact ⟨fun _ _ => forgotten, later.mp ⟨steps, states⟩⟩
            · rintro ⟨_, rest⟩
              obtain ⟨steps, states⟩ := later.mpr rest
              exact ⟨⟨least, steps⟩, inverse, states⟩
      | release key =>
          simp only [AcquiresLeast, labelled]
          rw [labelled] at stepped
          have nextInverse := inverse.release stepped
          have later := inductionHypothesis nextTight nextInverse isPath.2
          constructor
          · rintro ⟨⟨_, steps⟩, _, states⟩
            exact ⟨by simp, later.mp ⟨steps, states⟩⟩
          · rintro ⟨_, rest⟩
            obtain ⟨steps, states⟩ := later.mpr rest
            exact ⟨⟨trivial, steps⟩, inverse, states⟩

end View

end NpServers.SlotLease
