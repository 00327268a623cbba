import Mathlib.Algebra.BigOperators.Group.Finset.Basic
import Mathlib.Algebra.Order.BigOperators.Group.Finset

namespace NpServers.Custody

/-!
# Tokens held by finitely many parties

A store has a number of tokens, and each of finitely many parties holds a
number of them that can be read off its local state.  The rules below follow
the total when one party changes or a party joins, and say that a total of one
token has one owner.  The module is independent of any particular system.
-/

variable {Party Local : Type}

/-- The tokens in the store and with the parties. -/
def total
    (held : Local → Nat)
    (stored : Nat)
    (parties : Finset Party)
    (locals : Party → Local) : Nat :=
  stored + ∑ party ∈ parties, held (locals party)

variable {held : Local → Nat}
variable {stored : Nat}
variable {parties : Finset Party}
variable {locals : Party → Local}

/-- A change of one party and of the store changes the total accordingly. -/
theorem total_update
    [DecidableEq Party]
    {party : Party}
    (member : party ∈ parties)
    (stored' : Nat)
    (after : Local) :
    total held stored' parties (Function.update locals party after) +
        (stored + held (locals party)) =
      total held stored parties locals + (stored' + held after) := by
  have others :
      ∑ other ∈ parties.erase party,
          held (Function.update locals party after other) =
        ∑ other ∈ parties.erase party, held (locals other) := by
    refine Finset.sum_congr rfl fun other otherMember => ?_
    rw [Function.update_of_ne (Finset.ne_of_mem_erase otherMember)]
  have here := Finset.add_sum_erase parties
    (fun other => held (Function.update locals party after other)) member
  have before := Finset.add_sum_erase parties
    (fun other => held (locals other)) member
  simp only [Function.update_self, others] at here
  unfold total
  omega

/-- A new party adds what it holds to the total. -/
theorem total_insert_held
    [DecidableEq Party]
    {party : Party}
    (fresh : party ∉ parties)
    (after : Local) :
    total held stored (insert party parties)
        (Function.update locals party after) =
      total held stored parties locals + held after := by
  have others :
      ∑ other ∈ parties, held (Function.update locals party after other) =
        ∑ other ∈ parties, held (locals other) := by
    refine Finset.sum_congr rfl fun other member => ?_
    have different : other ≠ party := by
      rintro rfl
      exact fresh member
    rw [Function.update_of_ne different]
  unfold total
  rw [Finset.sum_insert fresh, Function.update_self, others]
  omega

/-- A new party that holds nothing leaves the total unchanged. -/
theorem total_insert
    [DecidableEq Party]
    {party : Party}
    (fresh : party ∉ parties)
    {after : Local}
    (nothing : held after = 0) :
    total held stored (insert party parties)
        (Function.update locals party after) =
      total held stored parties locals := by
  rw [total_insert_held fresh, nothing, Nat.add_zero]

/-- A party that holds the only token leaves none to the store and the others. -/
theorem alone
    {party : Party}
    (member : party ∈ parties)
    (holds : 0 < held (locals party))
    (atMostOne : total held stored parties locals ≤ 1) :
    stored = 0 ∧ held (locals party) = 1 ∧
      ∀ other ∈ parties, other ≠ party → held (locals other) = 0 := by
  classical
  unfold total at atMostOne
  have split := Finset.add_sum_erase parties
    (fun other => held (locals other)) member
  refine ⟨by omega, by omega, ?_⟩
  intro other otherMember different
  have bounded :=
    Finset.single_le_sum_of_canonicallyOrdered
      (f := fun other => held (locals other))
      (Finset.mem_erase.mpr ⟨different, otherMember⟩)
  omega

/-- Where there is no token, nobody holds one. -/
theorem nobody
    {party : Party}
    (member : party ∈ parties)
    (none : total held stored parties locals = 0) :
    held (locals party) = 0 := by
  unfold total at none
  have bounded :=
    Finset.single_le_sum_of_canonicallyOrdered
      (f := fun other => held (locals other)) member
  omega

/-- A token that is not in the store is with some party. -/
theorem owner_exists
    (one : total held stored parties locals = 1)
    (empty : stored = 0) :
    ∃ party ∈ parties, 0 < held (locals party) := by
  unfold total at one
  rw [empty, Nat.zero_add] at one
  have nonzero : ∑ party ∈ parties, held (locals party) ≠ 0 := by omega
  obtain ⟨party, member, holds⟩ := Finset.exists_ne_zero_of_sum_ne_zero nonzero
  exact ⟨party, member, Nat.pos_of_ne_zero holds⟩

end NpServers.Custody
