import Mathlib.Data.Set.Insert
import NpServers.TransitionPath

namespace NpServers.AtomicBroadcast

open TransitionPath

/-!
# Announcements in a room

Members enter a room at most once each and leave it.  An announcement is heard by
everyone who is in the room, and by nobody else.  Of all that is announced during
a run a member therefore hears one block without gaps: from the start if it was
there at the start, and to the end if it is there at the end.  Members and texts
are arbitrary.
-/

variable {Member Text : Type}

/-- What happens in a room. -/
inductive RoomEvent (Member Text : Type) where
  | join (member : Member)
  | leave (member : Member)
  | announce (text : Text)

/-- The text of an announcement. -/
def RoomEvent.text? : RoomEvent Member Text → Option Text
  | .announce text => some text
  | .join _ | .leave _ => none

/-- Who is there, who has been there, and what each has heard. -/
@[ext]
structure Room (Member Text : Type) where
  present : Set Member
  known : Set Member
  heard : Member → List Text

namespace Room

/-- The step relation. -/
inductive Moves
    (room : Room Member Text) :
    RoomEvent Member Text → Room Member Text → Prop where
  | join
      {member : Member}
      (fresh : member ∉ room.known) :
      Moves room (.join member)
        { room with
          present := insert member room.present
          known := insert member room.known }
  | leave
      (member : Member) :
      Moves room (.leave member)
        { room with present := room.present \ {member} }
  | announce
      {text : Text}
      {heard : Member → List Text}
      (reaches :
        ∀ member ∈ room.present, heard member = room.heard member ++ [text])
      (silent : ∀ member ∉ room.present, heard member = room.heard member) :
      Moves room (.announce text) { room with heard := heard }

/-- All that is announced on a path. -/
def said (path : List (RoomEvent Member Text × Room Member Text)) : List Text :=
  path.filterMap fun entry => entry.1.text?

/-- Those who are there have entered, and nobody hears anything before. -/
structure Consistent (room : Room Member Text) : Prop where
  known : room.present ⊆ room.known
  silent : ∀ member ∉ room.known, room.heard member = []

/-- What the members have heard at the end of a path on which `said` was said. -/
structure Agreed
    (room last : Room Member Text)
    (said : List Text) : Prop where
  stays :
    ∀ member ∈ room.present,
      member ∈ last.present →
      last.heard member = room.heard member ++ said
  leaves :
    ∀ member ∈ room.present,
      ∃ first, first <+: said ∧ last.heard member = room.heard member ++ first
  absent :
    ∀ member ∈ room.known,
      member ∉ room.present →
      member ∉ last.present ∧ last.heard member = room.heard member
  arrives :
    ∀ member ∉ room.known,
      last.heard member <:+: said ∧
        (member ∈ last.present → last.heard member <:+ said)

variable {room next last : Room Member Text}
variable {event : RoomEvent Member Text}
variable {path : List (RoomEvent Member Text × Room Member Text)}

theorem Consistent.moves
    (consistent : room.Consistent)
    (moves : room.Moves event next) :
    next.Consistent := by
  cases moves with
  | join fresh =>
      refine ⟨Set.insert_subset_insert consistent.known, ?_⟩
      intro member unknown
      exact consistent.silent member fun known => unknown (.inr known)
  | leave left =>
      exact ⟨fun member stays => consistent.known stays.1, consistent.silent⟩
  | announce reaches silent =>
      refine ⟨consistent.known, ?_⟩
      intro member unknown
      have isAbsent : member ∉ room.present :=
        fun present => unknown (consistent.known present)
      exact (silent member isAbsent).trans (consistent.silent member unknown)

/-- Who has left does not come back, and hears nothing more. -/
theorem absent_of_path
    {member : Member}
    (isPath : Path Moves room path)
    (known : member ∈ room.known)
    (isAbsent : member ∉ room.present) :
    member ∉ (lastState room path).present ∧
      (lastState room path).heard member = room.heard member := by
  induction path generalizing room with
  | nil =>
      exact ⟨isAbsent, rfl⟩
  | cons entry rest inductionHypothesis =>
      obtain ⟨event, next⟩ := entry
      obtain ⟨moves, later⟩ := isPath
      cases moves with
      | @join arriving fresh =>
          have other : member ≠ arriving := by
            rintro rfl
            exact fresh known
          refine inductionHypothesis later (.inr known) ?_
          rintro (isArriving | present)
          · exact other isArriving
          · exact isAbsent present
      | leave left =>
          exact inductionHypothesis later known fun present => isAbsent present.1
      | announce reaches silent =>
          obtain ⟨stillAbsent, sameHeard⟩ :=
            inductionHypothesis later known isAbsent
          exact ⟨stillAbsent, sameHeard.trans (silent member isAbsent)⟩

/-- Who is there hears everything until it leaves. -/
theorem heard_of_present
    {member : Member}
    (consistent : room.Consistent)
    (present : member ∈ room.present)
    (isPath : Path Moves room path) :
    ∃ first,
      first <+: said path ∧
        (lastState room path).heard member = room.heard member ++ first ∧
        (member ∈ (lastState room path).present → first = said path) := by
  induction path generalizing room with
  | nil =>
      exact ⟨[], List.prefix_rfl, (List.append_nil _).symm, fun _ => rfl⟩
  | cons entry rest inductionHypothesis =>
      obtain ⟨event, next⟩ := entry
      obtain ⟨moves, later⟩ := isPath
      have consistentNext := consistent.moves moves
      cases moves with
      | join fresh =>
          exact inductionHypothesis consistentNext (.inr present) later
      | leave left =>
          by_cases isLeft : member = left
          · -- nothing is heard from here on
            subst isLeft
            have isAbsent : member ∉ room.present \ {member} :=
              fun stays => stays.2 rfl
            obtain ⟨stillAbsent, sameHeard⟩ :=
              absent_of_path later (consistent.known present) isAbsent
            refine ⟨[], List.nil_prefix, ?_, fun stays => absurd stays stillAbsent⟩
            rw [List.append_nil]
            exact sameHeard
          · exact inductionHypothesis consistentNext ⟨present, isLeft⟩ later
      | @announce text heard reaches silent =>
          obtain ⟨first, isFirst, isHeard, complete⟩ :=
            inductionHypothesis consistentNext present later
          refine ⟨text :: first, ?_, ?_, ?_⟩
          · exact (List.prefix_cons_inj text).mpr isFirst
          · change (lastState _ rest).heard member = _
            rw [isHeard, List.append_cons]
            exact congrArg (· ++ first) (reaches member present)
          · intro stays
            exact congrArg (text :: ·) (complete stays)

/-- Who arrives hears everything from then on. -/
theorem heard_of_arriving
    {member : Member}
    (consistent : room.Consistent)
    (unknown : member ∉ room.known)
    (isPath : Path Moves room path) :
    (lastState room path).heard member <:+: said path ∧
      (member ∈ (lastState room path).present →
        (lastState room path).heard member <:+ said path) := by
  induction path generalizing room with
  | nil =>
      have nothing : room.heard member = [] := consistent.silent member unknown
      change room.heard member <:+: [] ∧ (_ → room.heard member <:+ [])
      rw [nothing]
      exact ⟨List.infix_rfl, fun _ => List.suffix_rfl⟩
  | cons entry rest inductionHypothesis =>
      obtain ⟨event, next⟩ := entry
      obtain ⟨moves, later⟩ := isPath
      have consistentNext := consistent.moves moves
      have nothing : room.heard member = [] := consistent.silent member unknown
      cases moves with
      | @join arriving fresh =>
          by_cases isArriving : member = arriving
          · subst isArriving
            obtain ⟨first, isFirst, isHeard, complete⟩ :=
              heard_of_present consistentNext (.inl rfl) later
            have isBlock :
                (lastState room ((RoomEvent.join member, _) :: rest)).heard member =
                  first :=
              isHeard.trans (congrArg (· ++ first) nothing)
            rw [isBlock]
            refine ⟨isFirst.isInfix, ?_⟩
            intro stays
            rw [complete stays]
            exact List.suffix_rfl
          · refine inductionHypothesis consistentNext ?_ later
            rintro (isOther | known)
            · exact isArriving isOther
            · exact unknown known
      | leave left =>
          exact inductionHypothesis consistentNext unknown later
      | @announce text heard reaches silent =>
          obtain ⟨isBlock, isEnd⟩ :=
            inductionHypothesis consistentNext unknown later
          exact ⟨List.infix_cons isBlock,
            fun stays => (isEnd stays).trans (List.suffix_cons text _)⟩

/-- The members agree on what is said on a path. -/
theorem Consistent.agreed
    (consistent : room.Consistent)
    (isPath : Path Moves room path) :
    Agreed room (lastState room path) (said path) where
  stays := by
    intro member present stays
    obtain ⟨first, _, isHeard, complete⟩ :=
      heard_of_present consistent present isPath
    rw [isHeard, complete stays]
  leaves := by
    intro member present
    obtain ⟨first, isFirst, isHeard, _⟩ :=
      heard_of_present consistent present isPath
    exact ⟨first, isFirst, isHeard⟩
  absent := by
    intro member known isAbsent
    exact absent_of_path isPath known isAbsent
  arrives := by
    intro member unknown
    exact heard_of_arriving consistent unknown isPath

/-- Some path leads from one state of the room to the other. -/
def Reaches (room last : Room Member Text) : Prop :=
  ∃ path, Path Moves room path ∧ lastState room path = last

theorem Reaches.refl (room : Room Member Text) : room.Reaches room :=
  ⟨[], trivial, rfl⟩

theorem Reaches.of_eq (same : room = last) : room.Reaches last :=
  ⟨[], trivial, same⟩

theorem Reaches.of_moves (moves : room.Moves event next) : room.Reaches next :=
  ⟨[(event, next)], ⟨moves, trivial⟩, rfl⟩

theorem Reaches.trans
    (reaches : room.Reaches next)
    (reachesLater : next.Reaches last) :
    room.Reaches last := by
  obtain ⟨path, isPath, rfl⟩ := reaches
  obtain ⟨later, laterIsPath, rfl⟩ := reachesLater
  exact ⟨path ++ later, isPath.append laterIsPath, lastState_append ..⟩

theorem Consistent.reaches
    (consistent : room.Consistent)
    (reaches : room.Reaches last) :
    last.Consistent := by
  obtain ⟨path, isPath, rfl⟩ := reaches
  refine (Path.everyState ?_ consistent isPath).last
  intro before event after consistentBefore moves
  exact consistentBefore.moves moves

/-- Whatever path it was, the members agree. -/
theorem Consistent.agreed_of_reaches
    (consistent : room.Consistent)
    (reaches : room.Reaches last) :
    ∃ said, Agreed room last said := by
  obtain ⟨path, isPath, rfl⟩ := reaches
  exact ⟨said path, consistent.agreed isPath⟩

/-- Several announcements in a row. -/
theorem reaches_announcements
    {texts : List Text}
    (samePresent : next.present = room.present)
    (sameKnown : next.known = room.known)
    (reaches :
      ∀ member ∈ room.present, next.heard member = room.heard member ++ texts)
    (silent : ∀ member ∉ room.present, next.heard member = room.heard member) :
    room.Reaches next := by
  classical
  induction texts generalizing room with
  | nil =>
      refine .of_eq (Room.ext samePresent.symm sameKnown.symm ?_)
      funext member
      by_cases present : member ∈ room.present
      · rw [reaches member present, List.append_nil]
      · exact (silent member present).symm
  | cons text rest inductionHypothesis =>
      -- the room after the first of them
      let first : Room Member Text :=
        { room with
          heard := fun member =>
            if member ∈ room.present then
              room.heard member ++ [text]
            else
              room.heard member }
      have announced : room.Moves (.announce text) first :=
        .announce (fun member present => if_pos present)
          (fun member isAbsent => if_neg isAbsent)
      have later : first.Reaches next := by
        refine inductionHypothesis samePresent sameKnown ?_ ?_
        · intro member present
          have isHeard :
              first.heard member = room.heard member ++ [text] :=
            if_pos present
          rw [reaches member present, isHeard, List.append_assoc]
          rfl
        · intro member isAbsent
          have isHeard : first.heard member = room.heard member :=
            if_neg isAbsent
          rw [isHeard]
          exact silent member isAbsent
      exact (Reaches.of_moves announced).trans later

end Room

end NpServers.AtomicBroadcast
