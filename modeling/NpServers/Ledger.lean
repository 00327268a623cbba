import Mathlib.Tactic.Common

namespace NpServers

/-!
# Ledgers of handed-out names

A program that opens resources keeps their names in places of its tables.  A
ledger says which places hold a name and which one.  One round of the program
gives up the names of some places and stores new names in others.  The ledger
stays exact when no place that still holds a name is overwritten, and only
then.  The module is independent of what is named.
-/

/-- Places that may hold a name, and the name each of them stores. -/
structure Ledger (Place Name : Type) where
  held : Place → Prop
  name : Place → Name

namespace Ledger

variable {Place Name : Type}

/-- No name is held by two places. -/
def Distinct (ledger : Ledger Place Name) : Prop :=
  ∀ {first second},
    ledger.held first →
    ledger.held second →
    ledger.name first = ledger.name second →
    first = second

/-- The names in use are those held, each by one place. -/
structure Exact
    (ledger : Ledger Place Name)
    (inUse : Name → Prop) : Prop where
  distinct : ledger.Distinct
  inUse_iff :
    ∀ name, inUse name ↔ ∃ place, ledger.held place ∧ ledger.name place = name

/-- Ledgers that hold the same names are exact together. -/
theorem Exact.congr
    {ledger other : Ledger Place Name}
    {inUse : Name → Prop}
    (isExact : ledger.Exact inUse)
    (sameHeld : ∀ place, other.held place ↔ ledger.held place)
    (sameName : ∀ place, other.name place = ledger.name place) :
    other.Exact inUse where
  distinct := by
    intro first second firstHeld secondHeld same
    rw [sameName, sameName] at same
    exact isExact.distinct ((sameHeld first).mp firstHeld)
      ((sameHeld second).mp secondHeld) same
  inUse_iff := by
    intro name
    simp only [sameHeld, sameName]
    exact isExact.inUse_iff name

/--
One round: the places in `consumed` give up their names and the places in
`issued` store new ones, different from all names still held.
-/
structure Turnover
    (before after : Ledger Place Name)
    (consumed issued : List Place) : Prop where
  held_iff :
    ∀ place,
      after.held place ↔
        place ∈ issued ∨
          before.held place ∧ place ∉ consumed ∧ place ∉ issued
  name_eq :
    ∀ place,
      before.held place →
      place ∉ consumed →
      place ∉ issued →
      after.name place = before.name place
  consumed_held : ∀ place ∈ consumed, before.held place
  issued_distinct :
    ∀ first ∈ issued,
      ∀ second ∈ issued,
        after.name first = after.name second → first = second
  issued_fresh :
    ∀ place ∈ issued,
      ∀ old,
        before.held old →
        old ∉ consumed →
        before.name old ≠ after.name place

variable {before after : Ledger Place Name}
variable {consumed issued : List Place}

/-- A round keeps the held names distinct. -/
theorem Turnover.distinct
    (turnover : Turnover before after consumed issued)
    (distinctBefore : before.Distinct) :
    after.Distinct := by
  intro first second firstHeld secondHeld sameName
  rcases (turnover.held_iff first).mp firstHeld with
      firstIssued | ⟨firstOld, firstKept, firstNotIssued⟩
  · rcases (turnover.held_iff second).mp secondHeld with
        secondIssued | ⟨secondOld, secondKept, secondNotIssued⟩
    · exact turnover.issued_distinct first firstIssued second secondIssued
        sameName
    · rw [turnover.name_eq second secondOld secondKept secondNotIssued]
        at sameName
      exact absurd sameName.symm
        (turnover.issued_fresh first firstIssued second secondOld secondKept)
  · rw [turnover.name_eq first firstOld firstKept firstNotIssued] at sameName
    rcases (turnover.held_iff second).mp secondHeld with
        secondIssued | ⟨secondOld, secondKept, secondNotIssued⟩
    · exact absurd sameName
        (turnover.issued_fresh second secondIssued first firstOld firstKept)
    · rw [turnover.name_eq second secondOld secondKept secondNotIssued]
        at sameName
      exact distinctBefore firstOld secondOld sameName

/-- A name that some place holds. -/
def Holds
    (ledger : Ledger Place Name)
    (name : Name) : Prop :=
  ∃ place, ledger.held place ∧ ledger.name place = name

/-- The names held after a round are issued, or stay in their place. -/
theorem Turnover.holds_iff
    (turnover : Turnover before after consumed issued)
    (name : Name) :
    after.Holds name ↔
      (∃ place ∈ issued, after.name place = name) ∨
        ∃ place,
          before.held place ∧
            place ∉ consumed ∧
            place ∉ issued ∧
            before.name place = name := by
  constructor
  · rintro ⟨place, isHeld, isName⟩
    rcases (turnover.held_iff place).mp isHeld with
        isIssued | ⟨wasHeld, kept, notIssued⟩
    · exact Or.inl ⟨place, isIssued, isName⟩
    · rw [turnover.name_eq place wasHeld kept notIssued] at isName
      exact Or.inr ⟨place, wasHeld, kept, notIssued, isName⟩
  · rintro (⟨place, isIssued, isName⟩ |
      ⟨place, wasHeld, kept, notIssued, isName⟩)
    · exact ⟨place, (turnover.held_iff place).mpr (Or.inl isIssued), isName⟩
    · refine ⟨place,
        (turnover.held_iff place).mpr (Or.inr ⟨wasHeld, kept, notIssued⟩), ?_⟩
      rw [turnover.name_eq place wasHeld kept notIssued]
      exact isName

/-- An overwritten name is held by no place after the round. -/
theorem Turnover.not_holds_of_overwritten
    (turnover : Turnover before after consumed issued)
    (distinct : before.Distinct)
    {place : Place}
    (isIssued : place ∈ issued)
    (isHeld : before.held place)
    (notConsumed : place ∉ consumed) :
    ¬ after.Holds (before.name place) := by
  rw [turnover.holds_iff]
  rintro (⟨holder, holderIssued, sameName⟩ |
    ⟨holder, holderHeld, -, holderNotIssued, sameName⟩)
  · exact turnover.issued_fresh holder holderIssued place isHeld notConsumed
      sameName.symm
  · have same := distinct holderHeld isHeld sameName
    exact holderNotIssued (same ▸ isIssued)

/-- A name that is not consumed is still held, unless it is overwritten. -/
theorem Turnover.holds_of_kept
    (turnover : Turnover before after consumed issued)
    (noneLost : ∀ place ∈ issued, before.held place → place ∈ consumed)
    {place : Place}
    (isHeld : before.held place)
    (kept : place ∉ consumed) :
    after.Holds (before.name place) := by
  rw [turnover.holds_iff]
  right
  exact
    ⟨place, isHeld, kept, fun isIssued => kept (noneLost place isIssued isHeld),
      rfl⟩

/--
After a round that frees the consumed names and takes the issued ones into use,
an exact ledger is exact again unless a place was overwritten.
-/
theorem Turnover.exact_iff
    (turnover : Turnover before after consumed issued)
    {inUseBefore inUseAfter : Name → Prop}
    (exactBefore : before.Exact inUseBefore)
    (inUse_after :
      ∀ name,
        inUseAfter name ↔
          (∃ place ∈ issued, after.name place = name) ∨
            inUseBefore name ∧
              ∀ place ∈ consumed, before.name place ≠ name) :
    after.Exact inUseAfter ↔
      ∀ place ∈ issued, before.held place → place ∈ consumed := by
  have notConsumed_iff
      {place : Place}
      (isHeld : before.held place) :
      (∀ other ∈ consumed, before.name other ≠ before.name place) ↔
        place ∉ consumed := by
    constructor
    · intro apart isConsumed
      exact apart place isConsumed rfl
    · intro kept other isConsumed sameName
      have same :=
        exactBefore.distinct (turnover.consumed_held other isConsumed) isHeld
          sameName
      exact kept (same ▸ isConsumed)
  constructor
  · intro exactAfter place isIssued isHeld
    by_contra notConsumed
    -- the overwritten name stays in use, and no place holds it any more
    have stillInUse : inUseAfter (before.name place) := by
      rw [inUse_after]
      right
      exact
        ⟨(exactBefore.inUse_iff _).mpr ⟨place, isHeld, rfl⟩,
          (notConsumed_iff isHeld).mpr notConsumed⟩
    exact
      turnover.not_holds_of_overwritten exactBefore.distinct isIssued isHeld
        notConsumed ((exactAfter.inUse_iff _).mp stillInUse)
  · intro noneLost
    refine ⟨turnover.distinct exactBefore.distinct, ?_⟩
    intro name
    rw [inUse_after]
    constructor
    · rintro (⟨place, isIssued, isName⟩ | ⟨wasInUse, notConsumed⟩)
      · exact ⟨place, (turnover.held_iff place).mpr (Or.inl isIssued), isName⟩
      · obtain ⟨place, isHeld, rfl⟩ := (exactBefore.inUse_iff name).mp wasInUse
        exact
          turnover.holds_of_kept noneLost isHeld
            ((notConsumed_iff isHeld).mp notConsumed)
    · intro isHeld
      rcases (turnover.holds_iff name).mp isHeld with
          isIssued | ⟨place, wasHeld, kept, -, rfl⟩
      · exact Or.inl isIssued
      · exact
          Or.inr
            ⟨(exactBefore.inUse_iff _).mpr ⟨place, wasHeld, rfl⟩,
              (notConsumed_iff wasHeld).mpr kept⟩

end Ledger

end NpServers
