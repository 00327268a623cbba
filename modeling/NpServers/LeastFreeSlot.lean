import Mathlib.Logic.Function.Basic
import Mathlib.Order.Lattice
import Mathlib.Data.List.Pairwise

namespace NpServers.LeastFreeSlot

/-!
# A slot table with a cached least free slot

A table of slots is kept together with one cached index.  Occupying writes at
the cached index and then rescans the slots in increasing order; releasing only
lowers the cache when the released slot is smaller.  The rescan keeps the old
index when it finds no free slot, so a full table leaves a cache that points
at an occupied slot.

This module proves what the two rules maintain and characterizes exactly when
the cached index is stale.  Nothing here depends on a particular program.
-/

variable {ι : Type} [LinearOrder ι]

/-- Occupied slots together with the cached index of the next slot to use. -/
@[ext] structure Cache (ι : Type) where
  used : ι → Bool
  low : ι

/-- Scan the slots in order for a free one, keeping the old index if none. -/
def rescan
    (slots : List ι)
    (used : ι → Bool)
    (low : ι) : ι :=
  (slots.find? fun slot => !used slot).getD low

/-- An index is the least free slot of the table. -/
structure IsLeastFree
    (slots : List ι)
    (used : ι → Bool)
    (slot : ι) : Prop where
  mem : slot ∈ slots
  free : used slot = false
  below : ∀ smaller ∈ slots, smaller < slot → used smaller = true

/-- The scan of a strictly increasing list finds the least free slot. -/
theorem isLeastFree_of_find?
    {slots : List ι}
    (increasing : slots.Pairwise (· < ·))
    {used : ι → Bool}
    {slot : ι}
    (found : (slots.find? fun slot => !used slot) = some slot) :
    IsLeastFree slots used slot := by
  obtain ⟨isFree, earlier, later, shape, earlierUsed⟩ :=
    List.find?_eq_some_iff_append.mp found
  have slotMember : slot ∈ slots := by
    simp [shape]
  refine ⟨slotMember, by simpa using isFree, ?_⟩
  intro smaller member smallerLess
  rw [shape] at member increasing
  rcases List.mem_append.mp member with inEarlier | inLater
  · simpa using earlierUsed smaller inEarlier
  · -- anything at or after the hit is not smaller than it
    obtain ⟨_, tailIncreasing, _⟩ := List.pairwise_append.mp increasing
    rcases List.mem_cons.mp inLater with isSlot | afterSlot
    · exact absurd smallerLess (by simp [isSlot])
    · have slotLess := (List.pairwise_cons.mp tailIncreasing).1 smaller afterSlot
      exact absurd smallerLess (not_lt_of_gt slotLess)

namespace Cache

/-- Occupy the cached slot and rescan. -/
def occupy
    (slots : List ι)
    (cache : Cache ι) : Cache ι :=
  let used := Function.update cache.used cache.low true
  { used := used, low := rescan slots used cache.low }

/-- Release a slot, lowering the cached index when the slot is smaller. -/
def release
    (cache : Cache ι)
    (slot : ι) : Cache ι where
  used := Function.update cache.used slot false
  low := if slot < cache.low then slot else cache.low

/-- Every slot below the cached index is occupied. -/
def Tight
    (slots : List ι)
    (cache : Cache ι) : Prop :=
  cache.low ∈ slots ∧
    ∀ slot ∈ slots, slot < cache.low → cache.used slot = true

/-- The cached index points at an occupied slot. -/
def Stale (cache : Cache ι) : Prop :=
  cache.used cache.low = true

instance (cache : Cache ι) : Decidable cache.Stale :=
  inferInstanceAs (Decidable (_ = _))

/-- A tight cache that is not stale holds the least free slot. -/
theorem Tight.isLeastFree
    {slots : List ι}
    {cache : Cache ι}
    (tight : cache.Tight slots)
    (fresh : ¬ cache.Stale) :
    IsLeastFree slots cache.used cache.low where
  mem := tight.1
  free := by simpa [Stale] using fresh
  below := tight.2

/-- Occupying either finds the least free slot or leaves a full table behind. -/
theorem occupy_cases
    {slots : List ι}
    (increasing : slots.Pairwise (· < ·))
    (cache : Cache ι) :
    IsLeastFree slots (cache.occupy slots).used (cache.occupy slots).low ∨
      ((cache.occupy slots).low = cache.low ∧
        ∀ slot ∈ slots, (cache.occupy slots).used slot = true) := by
  cases scan : slots.find? fun slot =>
      !(Function.update cache.used cache.low true) slot with
  | some slot =>
      left
      have least := isLeastFree_of_find? increasing scan
      simpa [occupy, rescan, scan] using least
  | none =>
      right
      rw [List.find?_eq_none] at scan
      refine ⟨?_, ?_⟩
      · have noHit := List.find?_eq_none.mpr scan
        simp [occupy, rescan, noHit]
      · intro slot member
        simpa [occupy] using scan slot member

/-- Occupying keeps the cache tight. -/
theorem Tight.occupy
    {slots : List ι}
    (increasing : slots.Pairwise (· < ·))
    {cache : Cache ι}
    (tight : cache.Tight slots) :
    (cache.occupy slots).Tight slots := by
  rcases occupy_cases increasing cache with least | ⟨sameLow, full⟩
  · exact ⟨least.mem, least.below⟩
  · exact ⟨sameLow ▸ tight.1, fun slot member _ => full slot member⟩

/-- After an occupation the cache is stale exactly when the table is full. -/
theorem stale_occupy_iff
    {slots : List ι}
    (increasing : slots.Pairwise (· < ·))
    {cache : Cache ι}
    (tight : cache.Tight slots) :
    (cache.occupy slots).Stale ↔
      ∀ slot ∈ slots, (cache.occupy slots).used slot = true := by
  rcases occupy_cases increasing cache with least | ⟨sameLow, full⟩
  · constructor
    · intro stale
      simp [Stale, least.free] at stale
    · intro full
      exact full _ least.mem
  · constructor
    · intro _
      exact full
    · intro _
      exact full _ (sameLow ▸ tight.1)

/-- Releasing a slot keeps the cache tight. -/
theorem Tight.release
    {slots : List ι}
    {cache : Cache ι}
    (tight : cache.Tight slots)
    {slot : ι}
    (member : slot ∈ slots) :
    (cache.release slot).Tight slots := by
  by_cases smaller : slot < cache.low
  · refine ⟨by simpa [Cache.release, smaller] using member, ?_⟩
    intro other otherMember otherLess
    simp only [Cache.release, smaller, if_true] at otherLess ⊢
    rw [Function.update_of_ne otherLess.ne]
    exact tight.2 other otherMember (otherLess.trans smaller)
  · refine ⟨by simpa [Cache.release, smaller] using tight.1, ?_⟩
    intro other otherMember otherLess
    simp only [Cache.release, smaller, if_false] at otherLess ⊢
    have otherNe : other ≠ slot := by
      rintro rfl
      exact smaller otherLess
    rw [Function.update_of_ne otherNe]
    exact tight.2 other otherMember otherLess

/-- A release leaves the cache stale only when the released slot is larger. -/
theorem stale_release_iff
    (cache : Cache ι)
    (slot : ι) :
    (cache.release slot).Stale ↔ cache.Stale ∧ cache.low < slot := by
  rcases lt_trichotomy slot cache.low with smaller | same | larger
  · simp [Stale, Cache.release, smaller, not_lt_of_gt smaller]
  · subst same
    simp [Stale, Cache.release]
  · simp [Stale, Cache.release, not_lt_of_gt larger, larger, larger.ne]

/-- The occupied slot a stale cache points at. -/
def filler (cache : Cache ι) : Option ι :=
  if cache.Stale then some cache.low else none

omit [LinearOrder ι] in
/-- The filler is absent exactly when the cache is not stale. -/
theorem filler_eq_none_iff
    (cache : Cache ι) :
    cache.filler = none ↔ ¬ cache.Stale := by
  simp [filler]

/-- Occupying records its own slot as the filler when it fills the table. -/
theorem filler_occupy
    {slots : List ι}
    (increasing : slots.Pairwise (· < ·))
    {cache : Cache ι}
    (tight : cache.Tight slots) :
    (cache.occupy slots).filler =
      if ∀ slot ∈ slots, (cache.occupy slots).used slot = true then
        some cache.low
      else
        none := by
  by_cases full : ∀ slot ∈ slots, (cache.occupy slots).used slot = true
  · have stale := (stale_occupy_iff increasing tight).mpr full
    have sameLow : (cache.occupy slots).low = cache.low := by
      rcases occupy_cases increasing cache with least | ⟨sameLow, _⟩
      · exact absurd (full _ least.mem) (by simp [least.free])
      · exact sameLow
    rw [filler, if_pos stale, if_pos full, sameLow]
  · have notStale : ¬ (cache.occupy slots).Stale := fun stale =>
      full ((stale_occupy_iff increasing tight).mp stale)
    rw [filler, if_neg notStale, if_neg full]

/-- The filler survives exactly the releases of larger slots. -/
theorem filler_release
    (cache : Cache ι)
    (slot : ι) :
    (cache.release slot).filler =
      cache.filler.filter fun filling => decide (filling < slot) := by
  by_cases stale : cache.Stale
  · by_cases larger : cache.low < slot
    · have stillStale := (stale_release_iff cache slot).mpr ⟨stale, larger⟩
      have sameLow : (cache.release slot).low = cache.low := by
        simp [Cache.release, not_lt_of_gt larger]
      rw [filler, if_pos stillStale, sameLow, filler, if_pos stale]
      simp [Option.filter, larger]
    · have cleared : ¬ (cache.release slot).Stale := fun still =>
        larger ((stale_release_iff cache slot).mp still).2
      rw [filler, if_neg cleared, filler, if_pos stale]
      simp [Option.filter, larger]
  · have cleared : ¬ (cache.release slot).Stale := fun still =>
      stale ((stale_release_iff cache slot).mp still).1
    rw [filler, if_neg cleared, filler, if_neg stale]
    rfl

end Cache

end NpServers.LeastFreeSlot
