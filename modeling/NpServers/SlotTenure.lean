import NpServers.Admission
import NpServers.EntryWrites

namespace NpServers.MultiProc

open Shell TransitionPath

/-!
# Tenure of slots

A session takes an id inside its login section, makes the entry visible, and
gives it up inside its logout section.  As long as no login is given an id that
is in use, a slot has one tenant: the process whose id is in the entry, from its
login to the end of its logout.

The statements are read as moves of this tenure; the rest of the module is about
the moves only.
-/

/-! ## The tenure of a session -/

/-- The parts of a session, as far as its slot is concerned. -/
inductive Tenure where
  | outside
  | taking
  | taken
  | named
  | visible
  | row
  | column (i : Nat)
  | over
  deriving Repr, DecidableEq

/-- The slot is given up before the broadcast of the logout. -/
def AfterBroadcast.tenure :
    AfterBroadcast → Tenure
  | .unlockLogout => .over
  | _ => .visible

/-- The slot is given up before the messages of the logout. -/
def AfterSend.tenure :
    AfterSend → Tenure
  | .broadcast _ _ after => after.tenure
  | _ => .visible

/-- The part that a statement belongs to. -/
def Code.tenure :
    Code → Tenure
  | .lockLogin => .outside
  | .takeId => .taking
  | .countLogin | .storePid => .taken
  | .storeState => .named
  | .clearRow => .row
  | .clearColumn _ i => .column i
  | .countLogout _ | .lowerMinId _ | .unlockLogout | .exit => .over
  | .broadcast _ _ after => after.tenure
  | .send _ _ _ _ after => after.tenure
  | _ => .visible

namespace Tenure

/-- The parts inside a section of `lock2` in which the slot is touched. -/
def locked : Tenure → Bool
  | .taking | .taken | .named | .row | .column _ => true
  | .outside | .visible | .over => false

/-- The row of the slot is the one of this session. -/
def ownsRow : Tenure → Bool
  | .taken | .named | .visible | .row => true
  | .outside | .taking | .column _ | .over => false

/-- The slot is taken and not visible yet. -/
def waiting : Tenure → Bool
  | .taken | .named => true
  | _ => false

/-- The entry of the slot names this session. -/
def inEntry : Tenure → Bool
  | .named | .visible | .row | .column _ => true
  | .outside | .taking | .taken | .over => false

/-- The session has not cleared its column in the row `r` yet. -/
def keepsColumn (r : Nat) : Tenure → Bool
  | .visible | .row => true
  | .column i => decide (i ≤ r)
  | .outside | .taking | .taken | .named | .over => false

/-- The moves that change nothing in the table but the row or a column. -/
inductive Follows : Tenure → Tenure → Prop where
  | stay (tenure : Tenure) : Follows tenure tenure
  | enter : Follows .outside .taking
  | clearRow : Follows .row (.column 1)
  | clearColumn {i : Nat} (inRange : i ≤ maxClientNum) :
      Follows (.column i) (.column (i + 1))
  | cleared {i : Nat} (behind : maxClientNum < i) :
      Follows (.column i) .over

end Tenure

/-- A statement that touches the slot lies in a section of `lock2`. -/
theorem Code.inLock2_of_locked
    {code : Code}
    (locked : code.tenure.locked = true) :
    code.stage.inLock2 = true := by
  cases code with
  | broadcast msg i after =>
      cases after with
      | unlockLogout => rfl
      | shell | announceOut | userPipes => cases locked
  | send target signal text stage after =>
      cases after with
      | broadcast msg i after =>
          cases after with
          | unlockLogout => rfl
          | shell | announceOut | userPipes => cases locked
      | shell | openFifo => cases locked
  | _ => first | rfl | cases locked

/-- Outside the sections that touch the slot the stage decides the tenure. -/
theorem Code.tenure_eq_of_stage
    {code after : Code}
    (sameStage : after.stage = code.stage)
    (settled : code.stage = .online ∨ code.stage = .uncounted) :
    after.tenure = code.tenure := by
  have decides {code : Code} :
      (code.stage = .online → code.tenure = .visible) ∧
        (code.stage = .uncounted → code.tenure = .over) := by
    cases code with
    | broadcast msg i after => cases after <;> simp [stage, tenure,
        AfterBroadcast.stage, AfterBroadcast.tenure]
    | send target signal text stage after =>
        cases after with
        | broadcast msg i after => cases after <;> simp [Code.stage, tenure,
            AfterSend.stage, AfterSend.tenure, AfterBroadcast.stage,
            AfterBroadcast.tenure]
        | shell | openFifo => simp [Code.stage, tenure, AfterSend.stage,
            AfterSend.tenure]
    | _ => simp [stage, tenure]
  rcases settled with online | uncounted
  · rw [decides.1 online, decides.1 (sameStage.trans online)]
  · rw [decides.2 uncounted, decides.2 (sameStage.trans uncounted)]

/-- A broadcast is settled. -/
theorem AfterBroadcast.stage_settled
    (after : AfterBroadcast) :
    after.stage = .online ∨ after.stage = .uncounted := by
  cases after with
  | unlockLogout => exact Or.inr rfl
  | shell | announceOut | userPipes => exact Or.inl rfl

/-- A message is settled. -/
theorem AfterSend.stage_settled
    (after : AfterSend) :
    after.stage = .online ∨ after.stage = .uncounted := by
  cases after with
  | broadcast msg i after => exact after.stage_settled
  | shell | openFifo => exact Or.inl rfl

/-- The statements that move the tenure and write into the entry. -/
def Code.writesSlot :
    Code → Bool
  | .takeId | .storePid | .storeState | .clearState => true
  | _ => false

/-- Every other statement outside the handlers follows the course of a tenure. -/
theorem mainStep_tenure
    {self : Nat}
    {canOpen : String → Bool}
    {common common' : Common}
    {proc proc' : Process}
    (noWrite : proc.code.writesSlot = false)
    (steps : mainStep self canOpen common proc = some (common', proc')) :
    Tenure.Follows proc.code.tenure proc'.code.tenure := by
  have stays
      (sameStage : proc'.code.stage = proc.code.stage)
      (settled : proc.code.stage = .online ∨ proc.code.stage = .uncounted) :
      Tenure.Follows proc.code.tenure proc'.code.tenure := by
    rw [Code.tenure_eq_of_stage sameStage settled]
    exact .stay _
  cases code : proc.code with
  | takeId | storePid | storeState | clearState =>
      rw [code] at noWrite
      cases noWrite
  | send target signal text stage after =>
      rw [code] at stays
      simp only [mainStep, code] at steps
      exact stays (sendStep_stage steps).2 after.stage_settled
  | shell | exit =>
      simp [mainStep, code] at steps
  | lockLogin =>
      simp only [mainStep, code] at steps
      split at steps
      · cases steps
        exact .enter
      · cases steps
  | clearRow =>
      simp only [mainStep, code] at steps
      cases steps
      exact .clearRow
  | clearColumn name i =>
      simp only [mainStep, code] at steps
      split at steps
      · rename_i behind
        cases steps
        exact .cleared behind
      · rename_i inRange
        cases steps
        exact .clearColumn (Nat.not_lt.mp inRange)
  | countLogin | storeName | scanMinId | postLock | unlockLogin | printLoginMsg
  | nameStore name | countFifo vars | unlockFifo vars fileName | stop
  | countLogout name | lowerMinId name | unlockLogout =>
      simp only [mainStep, code] at steps
      cases steps
      exact .stay _
  | lockFifo vars | lockLogout =>
      simp only [mainStep, code] at steps
      split at steps
      · cases steps
        exact .stay _
      · cases steps
  | broadcast msg i after =>
      rw [code] at stays
      simp only [mainStep, code] at steps
      cases steps
      exact stays (broadcastStep_stage common proc msg i after)
        after.stage_settled
  | nameScan name i =>
      rw [code] at stays
      simp only [mainStep, code] at steps
      cases steps
      exact stays (nameStep_stage common proc name i) (Or.inl rfl)
  | announceIn vars =>
      rw [code] at stays
      simp only [mainStep, code] at steps
      cases steps
      exact stays (announceIn_stage common proc vars) (Or.inl rfl)
  | announceOut vars =>
      rw [code] at stays
      simp only [mainStep, code] at steps
      cases steps
      exact stays (announceOut_stage common proc vars) (Or.inl rfl)
  | createPipe vars =>
      rw [code] at stays
      simp only [mainStep, code] at steps
      split at steps
      · cases steps
        exact .stay _
      · cases steps
        exact stays vars.stage_created (Or.inl rfl)
  | openFifo path vars =>
      rw [code] at stays
      simp only [mainStep, code] at steps
      split at steps
      · cases steps
        exact stays vars.stage_created (Or.inl rfl)
      · cases steps
  | consumePipe vars =>
      rw [code] at stays
      simp only [mainStep, code] at steps
      split at steps
      all_goals
        cases steps
        exact stays vars.stage_consumed (Or.inl rfl)

/-! ## The moves of tenures -/

/-- The entries and the sessions, as far as slots are concerned. -/
structure Slots where
  state : Nat → Bool
  pid : Nat → Nat
  forked : Finset Nat
  id : Nat → Nat
  tenure : Nat → Tenure

/-- What the machine looks like to the slots. -/
def Machine.slots (machine : Machine) : Slots where
  state := fun i => (machine.common.client i).state
  pid := fun i => (machine.common.client i).pid
  forked := machine.forked
  id := fun pid => (machine.procs pid).id
  tenure := fun pid => (machine.procs pid).code.tenure

namespace Slots

/-- The moves of the sessions, when a login is only given a free id. -/
inductive Moves (before : Slots) : Slots → Prop where
  | idle : Moves before before
  | fork
      {pid : Nat}
      (fresh : pid ∉ before.forked) :
      Moves before
        { before with
          forked := insert pid before.forked
          id := Function.update before.id pid 0
          tenure := Function.update before.tenure pid .outside }
  | goes
      {pid : Nat}
      (member : pid ∈ before.forked)
      {tenure : Tenure}
      (follows : Tenure.Follows (before.tenure pid) tenure) :
      Moves before
        { before with
          tenure := Function.update before.tenure pid tenure }
  | takeId
      {pid i : Nat}
      (member : pid ∈ before.forked)
      (isTaking : before.tenure pid = .taking)
      (free : before.state i = false) :
      Moves before
        { before with
          id := Function.update before.id pid i
          tenure := Function.update before.tenure pid .taken }
  | storePid
      {pid : Nat}
      (member : pid ∈ before.forked)
      (isTaken : before.tenure pid = .taken) :
      Moves before
        { before with
          pid := Function.update before.pid (before.id pid) pid
          tenure := Function.update before.tenure pid .named }
  | storeState
      {pid : Nat}
      (member : pid ∈ before.forked)
      (isNamed : before.tenure pid = .named) :
      Moves before
        { before with
          state := Function.update before.state (before.id pid) true
          tenure := Function.update before.tenure pid .visible }
  | clearState
      {pid : Nat}
      (member : pid ∈ before.forked)
      (isVisible : before.tenure pid = .visible) :
      Moves before
        { before with
          state := Function.update before.state (before.id pid) false
          tenure := Function.update before.tenure pid .row }

/-- At most one session is in a part that touches slots. -/
def Exclusive (slots : Slots) : Prop :=
  ∀ pid ∈ slots.forked, ∀ other ∈ slots.forked,
    (slots.tenure pid).locked = true →
    (slots.tenure other).locked = true →
    pid = other

/-- A slot has at most one tenant, and its entry says who that is. -/
structure Tenancy (slots : Slots) : Prop where
  waiting :
    ∀ pid ∈ slots.forked,
      (slots.tenure pid).waiting = true → slots.state (slots.id pid) = false
  entry :
    ∀ pid ∈ slots.forked,
      (slots.tenure pid).inEntry = true → slots.pid (slots.id pid) = pid
  visible :
    ∀ pid ∈ slots.forked,
      slots.tenure pid = .visible → slots.state (slots.id pid) = true
  used :
    ∀ i, i ∈ clientIds → slots.state i = true →
      ∃ pid ∈ slots.forked, slots.tenure pid = .visible ∧ slots.id pid = i

variable {before after : Slots}

/-- Two sessions that own the row of a slot are the same. -/
theorem Tenancy.owner_unique
    (tenancy : before.Tenancy)
    (exclusive : before.Exclusive)
    {pid other : Nat}
    (member : pid ∈ before.forked)
    (otherMember : other ∈ before.forked)
    (owns : (before.tenure pid).ownsRow = true)
    (otherOwns : (before.tenure other).ownsRow = true)
    (sameId : before.id pid = before.id other) :
    pid = other := by
  have kinds {tenure : Tenure} (owns : tenure.ownsRow = true) :
      tenure = .visible ∨ tenure.locked = true ∧ (tenure.waiting = true ∨
        tenure = .row) := by
    cases tenure <;> simp_all [Tenure.ownsRow, Tenure.locked, Tenure.waiting]
  -- a visible tenant and one that is not have different states in the entry
  have apart {first second : Nat} (firstMember : first ∈ before.forked)
      (secondMember : second ∈ before.forked)
      (sameId : before.id first = before.id second)
      (isVisible : before.tenure first = .visible)
      (kind : (before.tenure second).waiting = true ∨
        before.tenure second = .row) :
      first = second := by
    rcases kind with isWaiting | isRow
    · have used := tenancy.visible first firstMember isVisible
      rw [sameId, tenancy.waiting second secondMember isWaiting] at used
      cases used
    · rw [← tenancy.entry first firstMember (by rw [isVisible]; rfl), sameId]
      exact tenancy.entry second secondMember (by rw [isRow]; rfl)
  rcases kinds owns with isVisible | ⟨isLocked, kind⟩
  · rcases kinds otherOwns with otherVisible | ⟨_, otherKind⟩
    · rw [← tenancy.entry pid member (by rw [isVisible]; rfl), sameId]
      exact tenancy.entry other otherMember (by rw [otherVisible]; rfl)
    · exact apart member otherMember sameId isVisible otherKind
  · rcases kinds otherOwns with otherVisible | ⟨otherLocked, _⟩
    · exact (apart otherMember member sameId.symm otherVisible kind).symm
    · exact exclusive pid member other otherMember isLocked otherLocked

/-- A move of one session, from what it means for itself and for the others. -/
theorem Tenancy.of_move
    (tenancy : before.Tenancy)
    (pid : Nat)
    (sameForked : after.forked = before.forked)
    (others :
      ∀ other, other ≠ pid →
        after.tenure other = before.tenure other ∧
          after.id other = before.id other)
    (otherState :
      ∀ other ∈ before.forked, other ≠ pid →
        (before.tenure other).waiting = true ∨
          before.tenure other = .visible →
        after.state (before.id other) = before.state (before.id other))
    (otherPid :
      ∀ other ∈ before.forked, other ≠ pid →
        (before.tenure other).inEntry = true →
        after.pid (before.id other) = before.pid (before.id other))
    (ownWaiting :
      (after.tenure pid).waiting = true → after.state (after.id pid) = false)
    (ownEntry :
      (after.tenure pid).inEntry = true → after.pid (after.id pid) = pid)
    (ownVisible :
      after.tenure pid = .visible → after.state (after.id pid) = true)
    (used :
      ∀ i, after.state i = true →
        pid ∈ before.forked ∧ after.tenure pid = .visible ∧
            after.id pid = i ∨
          before.state i = true ∧
            ¬ (before.tenure pid = .visible ∧ before.id pid = i)) :
    after.Tenancy := by
  refine ⟨?_, ?_, ?_, ?_⟩
  · intro other member isWaiting
    rw [sameForked] at member
    by_cases here : other = pid
    · subst here
      exact ownWaiting isWaiting
    · obtain ⟨sameTenure, sameId⟩ := others other here
      rw [sameTenure] at isWaiting
      rw [sameId, otherState other member here (Or.inl isWaiting)]
      exact tenancy.waiting other member isWaiting
  · intro other member inEntry
    rw [sameForked] at member
    by_cases here : other = pid
    · subst here
      exact ownEntry inEntry
    · obtain ⟨sameTenure, sameId⟩ := others other here
      rw [sameTenure] at inEntry
      rw [sameId, otherPid other member here inEntry]
      exact tenancy.entry other member inEntry
  · intro other member isVisible
    rw [sameForked] at member
    by_cases here : other = pid
    · subst here
      exact ownVisible isVisible
    · obtain ⟨sameTenure, sameId⟩ := others other here
      rw [sameTenure] at isVisible
      rw [sameId, otherState other member here (Or.inr isVisible)]
      exact tenancy.visible other member isVisible
  · intro i isId isUsed
    rcases used i isUsed with ⟨member, isVisible, sameId⟩ | ⟨wasUsed, notOwn⟩
    · exact ⟨pid, sameForked ▸ member, isVisible, sameId⟩
    · obtain ⟨other, member, isVisible, sameId⟩ := tenancy.used i isId wasUsed
      have different : other ≠ pid := by
        rintro rfl
        exact notOwn ⟨isVisible, sameId⟩
      obtain ⟨sameTenure, keptId⟩ := others other different
      exact ⟨other, sameForked ▸ member, sameTenure.trans isVisible,
        keptId.trans sameId⟩

/-- A tenure that follows another keeps what the entry says. -/
theorem Tenancy.goes
    (tenancy : before.Tenancy)
    {pid : Nat}
    (member : pid ∈ before.forked)
    {tenure : Tenure}
    (follows : Tenure.Follows (before.tenure pid) tenure) :
    Tenancy
      { before with tenure := Function.update before.tenure pid tenure } := by
  have kept :
      (tenure.waiting = true → (before.tenure pid).waiting = true) ∧
        (tenure.inEntry = true → (before.tenure pid).inEntry = true) ∧
        (tenure = .visible ↔ before.tenure pid = .visible) := by
    generalize before.tenure pid = old at follows
    cases follows <;> simp [Tenure.waiting, Tenure.inEntry]
  refine tenancy.of_move pid rfl ?_ ?_ ?_ ?_ ?_ ?_ ?_
  · intro other different
    simp [Function.update_of_ne different]
  · exact fun _ _ _ _ => rfl
  · exact fun _ _ _ _ => rfl
  · simp only [Function.update_self]
    exact fun isWaiting => tenancy.waiting pid member (kept.1 isWaiting)
  · simp only [Function.update_self]
    exact fun inEntry => tenancy.entry pid member (kept.2.1 inEntry)
  · simp only [Function.update_self]
    exact fun isVisible => tenancy.visible pid member (kept.2.2.mp isVisible)
  · intro i isUsed
    simp only [Function.update_self]
    by_cases own : before.tenure pid = .visible ∧ before.id pid = i
    · exact Or.inl ⟨member, kept.2.2.mpr own.1, own.2⟩
    · exact Or.inr ⟨isUsed, own⟩

/-- The login takes an id that is free. -/
theorem Tenancy.takeId
    (tenancy : before.Tenancy)
    {pid i : Nat}
    (isTaking : before.tenure pid = .taking)
    (free : before.state i = false) :
    Tenancy
      { before with
        id := Function.update before.id pid i
        tenure := Function.update before.tenure pid .taken } := by
  refine tenancy.of_move pid rfl ?_ ?_ ?_ ?_ ?_ ?_ ?_
  · intro other different
    simp [Function.update_of_ne different]
  · exact fun _ _ _ _ => rfl
  · exact fun _ _ _ _ => rfl
  · simp [free]
  · simp [Tenure.inEntry]
  · simp
  · intro i isUsed
    exact Or.inr ⟨isUsed, by simp [isTaking]⟩

/-- The login stores its process id in an entry that nobody else uses. -/
theorem Tenancy.storePid
    (tenancy : before.Tenancy)
    (exclusive : before.Exclusive)
    {pid : Nat}
    (member : pid ∈ before.forked)
    (isTaken : before.tenure pid = .taken) :
    Tenancy
      { before with
        pid := Function.update before.pid (before.id pid) pid
        tenure := Function.update before.tenure pid .named } := by
  have free := tenancy.waiting pid member (by rw [isTaken]; rfl)
  refine tenancy.of_move pid rfl ?_ ?_ ?_ ?_ ?_ ?_ ?_
  · intro other different
    simp [Function.update_of_ne different]
  · exact fun _ _ _ _ => rfl
  · intro other otherMember different inEntry
    have elsewhere : before.id other ≠ before.id pid := by
      intro sameId
      by_cases isVisible : before.tenure other = .visible
      · have used := tenancy.visible other otherMember isVisible
        rw [sameId, free] at used
        cases used
      · have isLocked : (before.tenure other).locked = true := by
          revert inEntry isVisible
          cases before.tenure other <;> simp [Tenure.inEntry, Tenure.locked]
        exact different (exclusive other otherMember pid member isLocked
          (by rw [isTaken]; rfl))
    simp [Function.update_of_ne elsewhere]
  · simp [free]
  · simp
  · simp
  · intro i isUsed
    exact Or.inr ⟨isUsed, by simp [isTaken]⟩

/-- The login makes its entry visible. -/
theorem Tenancy.storeState
    (tenancy : before.Tenancy)
    (exclusive : before.Exclusive)
    {pid : Nat}
    (member : pid ∈ before.forked)
    (isNamed : before.tenure pid = .named) :
    Tenancy
      { before with
        state := Function.update before.state (before.id pid) true
        tenure := Function.update before.tenure pid .visible } := by
  refine tenancy.of_move pid rfl ?_ ?_ ?_ ?_ ?_ ?_ ?_
  · intro other different
    simp [Function.update_of_ne different]
  · intro other otherMember different kind
    by_cases elsewhere : before.id other = before.id pid
    · rcases kind with isWaiting | isVisible
      · have isLocked : (before.tenure other).locked = true := by
          revert isWaiting
          cases before.tenure other <;> simp [Tenure.waiting, Tenure.locked]
        exact absurd (exclusive other otherMember pid member isLocked
          (by rw [isNamed]; rfl)) different
      · rw [tenancy.visible other otherMember isVisible, elsewhere]
        simp
    · simp [Function.update_of_ne elsewhere]
  · exact fun _ _ _ _ => rfl
  · simp [Tenure.waiting]
  · intro _
    exact tenancy.entry pid member (by rw [isNamed]; rfl)
  · simp
  · intro i isUsed
    by_cases here : i = before.id pid
    · subst here
      simp [member]
    · simp only [Function.update_of_ne here] at isUsed
      simp [isUsed, isNamed]

/-- The logout clears the state of its own entry only. -/
theorem Tenancy.clearState
    (tenancy : before.Tenancy)
    {pid : Nat}
    (member : pid ∈ before.forked)
    (isVisible : before.tenure pid = .visible) :
    Tenancy
      { before with
        state := Function.update before.state (before.id pid) false
        tenure := Function.update before.tenure pid .row } := by
  have ownEntry := tenancy.entry pid member (by rw [isVisible]; rfl)
  refine tenancy.of_move pid rfl ?_ ?_ ?_ ?_ ?_ ?_ ?_
  · intro other different
    simp [Function.update_of_ne different]
  · intro other otherMember different kind
    by_cases elsewhere : before.id other = before.id pid
    · rcases kind with isWaiting | otherVisible
      · rw [tenancy.waiting other otherMember isWaiting, elsewhere]
        simp
      · have otherEntry :=
          tenancy.entry other otherMember (by rw [otherVisible]; rfl)
        rw [elsewhere, ownEntry] at otherEntry
        exact absurd otherEntry.symm different
    · simp [Function.update_of_ne elsewhere]
  · exact fun _ _ _ _ => rfl
  · simp [Tenure.waiting]
  · exact fun _ => ownEntry
  · simp
  · intro i isUsed
    by_cases here : i = before.id pid
    · subst here
      simp at isUsed
    · simp only [Function.update_of_ne here] at isUsed
      refine Or.inr ⟨isUsed, ?_⟩
      rintro ⟨_, sameId⟩
      exact here sameId.symm

/-- A new process has no slot. -/
theorem Tenancy.fork
    (tenancy : before.Tenancy)
    {pid : Nat}
    (fresh : pid ∉ before.forked) :
    Tenancy
      { before with
        forked := insert pid before.forked
        id := Function.update before.id pid 0
        tenure := Function.update before.tenure pid .outside } := by
  have known {other : Nat} (member : other ∈ insert pid before.forked)
      (notOutside :
        Function.update before.tenure pid .outside other ≠ .outside) :
      other ∈ before.forked ∧ other ≠ pid := by
    have different : other ≠ pid := by
      rintro rfl
      simp at notOutside
    exact ⟨Finset.mem_of_mem_insert_of_ne member different, different⟩
  refine ⟨?_, ?_, ?_, ?_⟩
  · intro other member isWaiting
    dsimp only at member isWaiting ⊢
    obtain ⟨old, different⟩ := known member
      (fun outside => by rw [outside] at isWaiting; cases isWaiting)
    rw [Function.update_of_ne different] at isWaiting ⊢
    exact tenancy.waiting other old isWaiting
  · intro other member inEntry
    dsimp only at member inEntry ⊢
    obtain ⟨old, different⟩ := known member
      (fun outside => by rw [outside] at inEntry; cases inEntry)
    rw [Function.update_of_ne different] at inEntry ⊢
    exact tenancy.entry other old inEntry
  · intro other member isVisible
    dsimp only at member isVisible ⊢
    obtain ⟨old, different⟩ := known member
      (fun outside => by rw [outside] at isVisible; cases isVisible)
    rw [Function.update_of_ne different] at isVisible ⊢
    exact tenancy.visible other old isVisible
  · intro i isId isUsed
    obtain ⟨other, member, isVisible, sameId⟩ := tenancy.used i isId isUsed
    have different : other ≠ pid := by
      rintro rfl
      exact fresh member
    refine ⟨other, Finset.mem_insert_of_mem member, ?_⟩
    dsimp only
    rw [Function.update_of_ne different, Function.update_of_ne different]
    exact ⟨isVisible, sameId⟩

/-- Every move keeps the tenancy. -/
theorem Tenancy.moves
    (tenancy : before.Tenancy)
    (exclusive : before.Exclusive)
    (moves : before.Moves after) :
    after.Tenancy := by
  cases moves with
  | idle => exact tenancy
  | fork fresh => exact tenancy.fork fresh
  | goes member follows => exact tenancy.goes member follows
  | takeId member isTaking free => exact tenancy.takeId isTaking free
  | storePid member isTaken => exact tenancy.storePid exclusive member isTaken
  | storeState member isNamed =>
      exact tenancy.storeState exclusive member isNamed
  | clearState member isVisible => exact tenancy.clearState member isVisible

end Slots

/-! ## Steps of the machine as moves of tenures -/

namespace Machine

variable {machine next : Machine}

/-- A login is given an id that is not in use. -/
def givesFreeId
    (machine : Machine) :
    Action → Bool
  | .main pid =>
      match (machine.procs pid).code with
      | .takeId =>
          !(machine.common.client
            machine.common.shared.connectState.minId).state
      | _ => true
  | _ => true

/-- The slots after a change of one process and of what it shares. -/
theorem slots_setBoth
    (machine : Machine)
    (pid : Nat)
    (common' : Common)
    (proc' : Process) :
    (machine.setBoth pid (common', proc')).slots =
      { state := fun i => (common'.client i).state
        pid := fun i => (common'.client i).pid
        forked := machine.forked
        id := Function.update machine.slots.id pid proc'.id
        tenure :=
          Function.update machine.slots.tenure pid proc'.code.tenure } := by
  have ids :
      (fun other => (Function.update machine.procs pid proc' other).id) =
        Function.update machine.slots.id pid proc'.id := by
    funext other
    exact Function.apply_update (fun _ proc => proc.id) machine.procs pid proc'
      other
  have tenures :
      (fun other =>
          (Function.update machine.procs pid proc' other).code.tenure) =
        Function.update machine.slots.tenure pid proc'.code.tenure := by
    funext other
    exact Function.apply_update (fun _ proc => proc.code.tenure) machine.procs
      pid proc' other
  simp only [slots, setBoth, setProc] at ids tenures ⊢
  rw [ids, tenures]

/-- The same, for a process that keeps its id. -/
theorem slots_setBoth_of_id
    {pid : Nat}
    {proc' : Process}
    (sameId : proc'.id = (machine.procs pid).id)
    (common' : Common) :
    (machine.setBoth pid (common', proc')).slots =
      { state := fun i => (common'.client i).state
        pid := fun i => (common'.client i).pid
        forked := machine.forked
        id := machine.slots.id
        tenure :=
          Function.update machine.slots.tenure pid proc'.code.tenure } := by
  have ids : Function.update machine.slots.id pid proc'.id =
      machine.slots.id := by
    rw [sameId]
    exact Function.update_eq_self pid _
  rw [slots_setBoth, ids]

/-- A step that keeps states, process ids and its own id. -/
theorem slots_goes
    {pid : Nat}
    (member : pid ∈ machine.forked)
    {common' : Common}
    {proc' : Process}
    (sameId : proc'.id = (machine.procs pid).id)
    (sameState :
      ∀ i, (common'.client i).state = (machine.common.client i).state)
    (samePid : ∀ i, (common'.client i).pid = (machine.common.client i).pid)
    (follows :
      Tenure.Follows (machine.procs pid).code.tenure proc'.code.tenure) :
    machine.slots.Moves (machine.setBoth pid (common', proc')).slots := by
  rw [slots_setBoth_of_id sameId]
  simp only [sameState, samePid]
  exact .goes member follows

/-- The slots after a process has changed its own entry. -/
theorem slots_setClient
    (machine : Machine)
    (pid : Nat)
    (change : ClientInfor → ClientInfor)
    (code : Code) :
    (machine.setBoth pid
        (machine.common.setClient (machine.procs pid).id change,
          (machine.procs pid).goto code)).slots =
      { state :=
          Function.update machine.slots.state (machine.procs pid).id
            (change (machine.common.client (machine.procs pid).id)).state
        pid :=
          Function.update machine.slots.pid (machine.procs pid).id
            (change (machine.common.client (machine.procs pid).id)).pid
        forked := machine.forked
        id := machine.slots.id
        tenure := Function.update machine.slots.tenure pid code.tenure } := by
  rw [slots_setBoth_of_id (Process.goto_id _ _)]
  rw [Common.setClient_data ClientInfor.state,
    Common.setClient_data ClientInfor.pid]
  rfl

/-- The statements that write neither state nor process id. -/
theorem EntryWrite_keeps_slot
    {self i : Nat}
    {common : Common}
    {proc : Process}
    {change : ClientInfor → ClientInfor}
    (writes : EntryWrite self common proc i change)
    (noWrite : proc.code.writesSlot = false)
    (client : ClientInfor) :
    (change client).state = client.state ∧ (change client).pid = client.pid := by
  cases writes with
  | storePid code | storeState code | clearState code =>
      rw [code] at noWrite
      cases noWrite
  | storeName | nameStore | clearRow | clearColumn | consumePipe | acquire
  | copy | mark | release =>
      exact ⟨rfl, rfl⟩

/-- A statement outside the handlers. -/
theorem slots_main
    {pid : Nat}
    (free : machine.givesFreeId (.main pid) = true)
    (steps : machine.Steps (.main pid) next) :
    machine.slots.Moves next.slots := by
  obtain ⟨member, _, _, common', proc', stepped, rfl⟩ := steps_main steps
  cases noWrite : (machine.procs pid).code.writesSlot with
  | false =>
      have sameId : proc'.id = (machine.procs pid).id := by
        rcases mainStep_names stepped with ⟨code, _⟩ | ⟨code, _⟩ | names
        · rw [code] at noWrite
          cases noWrite
        · rw [code] at noWrite
          cases noWrite
        · exact names.id
      refine slots_goes member sameId ?_ ?_ (mainStep_tenure noWrite stepped)
      · exact (mainStep_writes stepped).keeps ClientInfor.state
          fun writes client => (EntryWrite_keeps_slot writes noWrite client).1
      · exact (mainStep_writes stepped).keeps ClientInfor.pid
          fun writes client => (EntryWrite_keeps_slot writes noWrite client).2
  | true =>
      have isTenure :
          (machine.procs pid).code.tenure = machine.slots.tenure pid :=
        rfl
      have samePid :
          Function.update machine.slots.pid (machine.procs pid).id
              (machine.common.client (machine.procs pid).id).pid =
            machine.slots.pid :=
        Function.update_eq_self _ _
      cases code : (machine.procs pid).code with
      | takeId =>
          simp only [givesFreeId, code, Bool.not_eq_true'] at free
          simp only [mainStep, code] at stepped
          cases stepped
          rw [slots_setBoth]
          exact .takeId member (by rw [← isTenure, code]; rfl) free
      | storePid =>
          simp only [mainStep, code] at stepped
          cases stepped
          have sameState :
              Function.update machine.slots.state (machine.procs pid).id
                  (machine.common.client (machine.procs pid).id).state =
                machine.slots.state :=
            Function.update_eq_self _ _
          rw [slots_setClient]
          dsimp only
          rw [sameState]
          exact .storePid member (by rw [← isTenure, code]; rfl)
      | storeState =>
          simp only [mainStep, code] at stepped
          cases stepped
          rw [slots_setClient]
          dsimp only
          rw [samePid]
          exact .storeState member (by rw [← isTenure, code]; rfl)
      | clearState =>
          simp only [mainStep, code] at stepped
          cases stepped
          rw [slots_setClient]
          dsimp only
          rw [samePid]
          exact .clearState member (by rw [← isTenure, code]; rfl)
      | _ =>
          rw [code] at noWrite
          cases noWrite

/-- A signal does not touch the slots. -/
theorem slots_receive
    (machine : Machine)
    (receiver : Nat)
    (letter : Letter) :
    (machine.setProc receiver
        ((machine.procs receiver).receive letter)).slots =
      machine.slots := by
  have same :
      ((machine.procs receiver).receive letter).id =
          (machine.procs receiver).id ∧
        ((machine.procs receiver).receive letter).code =
          (machine.procs receiver).code := by
    unfold Process.receive
    split <;> exact ⟨rfl, rfl⟩
  have isSlots :=
    slots_setBoth_of_id same.1 machine.common
  rw [same.2] at isSlots
  have tenures :
      Function.update machine.slots.tenure receiver
          (machine.procs receiver).code.tenure =
        machine.slots.tenure :=
    Function.update_eq_self receiver _
  rw [tenures] at isSlots
  exact isSlots

/-- Every step that gives out free ids only is a move of the slots. -/
theorem Steps.slots
    {action : Action}
    (free : machine.givesFreeId action = true)
    (steps : machine.Steps action next) :
    machine.slots.Moves next.slots := by
  have same {pid : Nat} (member : pid ∈ machine.forked) {proc' : Process}
      (sameId : proc'.id = (machine.procs pid).id)
      (sameTenure :
        proc'.code.tenure = (machine.procs pid).code.tenure) :
      machine.slots.Moves (machine.setProc pid proc').slots := by
    refine slots_goes member sameId (fun _ => rfl) (fun _ => rfl) ?_
    rw [sameTenure]
    exact .stay _
  cases action with
  | fork pid peer =>
      obtain ⟨fresh, _, _, sameCommon, forks, procs⟩ := steps_fork steps
      have isFork :
          next.slots =
            { machine.slots with
              forked := insert pid machine.forked
              id := Function.update machine.slots.id pid 0
              tenure :=
                Function.update machine.slots.tenure pid .outside } := by
        have isSlots :=
          slots_setBoth machine pid machine.common (.forked peer)
        simp only [Machine.slots, setBoth, setProc, Slots.mk.injEq]
          at isSlots ⊢
        rw [sameCommon, forks, procs]
        exact ⟨rfl, rfl, rfl, isSlots.2.2.2.1, isSlots.2.2.2.2⟩
      rw [isFork]
      exact .fork fresh
  | waitLock =>
      obtain ⟨sameClients, _, _, sameForked, sameProcs⟩ := steps_waitLock steps
      have isSame : next.slots = machine.slots := by
        simp only [Machine.slots, sameClients, sameForked, sameProcs]
      rw [isSame]
      exact .idle
  | waitRoom =>
      obtain ⟨sameCommon, sameForked, sameProcs⟩ := steps_waitRoom steps
      have isSame : next.slots = machine.slots := by
        simp only [Machine.slots, sameCommon, sameForked, sameProcs]
      rw [isSame]
      exact .idle
  | main pid => exact slots_main free steps
  | line pid line =>
      obtain ⟨member, _, atShell, rfl⟩ := steps_line steps
      refine same member (obey_names atShell machine.common line).1 ?_
      apply Code.tenure_eq_of_stage
      · rw [obey_stage atShell, atShell]
        rfl
      · rw [atShell]
        exact Or.inl rfl
  | kill pid =>
      obtain ⟨member, _, _, target, signal, text, after, code, rfl⟩ :=
        steps_kill steps
      unfold kill
      dsimp only
      rw [slots_receive]
      refine same member rfl ?_
      apply Code.tenure_eq_of_stage
      · rw [Process.goto_code, after.stage_signalled, code]
        rfl
      · rw [code]
        exact after.stage_settled
  | exit pid =>
      obtain ⟨member, _, _, _, rfl⟩ := steps_exit steps
      exact same member rfl rfl
  | deliver pid signal =>
      obtain ⟨member, _, _, rfl⟩ := steps_deliver steps
      exact same member rfl rfl
  | handle pid fd =>
      obtain ⟨member, _, common', proc', stepped, rfl⟩ := steps_handle steps
      have sameMain := handlerStep_sameMain stepped
      refine slots_goes member sameMain.id ?_ ?_ ?_
      · refine (handlerStep_writes stepped).keeps ClientInfor.state ?_
        intro i change writes client
        cases writes <;> rfl
      · exact (handlerStep_names stepped).pid
      · rw [sameMain.code]
        exact .stay _

/-- The mutex `lock2` makes the sessions exclusive. -/
theorem exclusive_of_balanced
    (balanced : machine.admission.Balanced) :
    machine.slots.Exclusive := by
  have inside {pid : Nat}
      (locked : (machine.slots.tenure pid).locked = true) :
      0 < (machine.admission.stage pid).mutex := by
    have inLock2 := Code.inLock2_of_locked locked
    change 0 < (machine.procs pid).code.stage.inLock2.toNat
    rw [inLock2]
    decide
  intro pid member other otherMember locked otherLocked
  obtain ⟨_, _, others⟩ :=
    Custody.alone member (inside locked) balanced.mutex.le
  by_contra different
  have none := others other otherMember (Ne.symm different)
  have holds := inside otherLocked
  omega

theorem tenancy_initial (serverPid : Nat) :
    (initial serverPid).slots.Tenancy := by
  refine ⟨by simp [slots, initial], by simp [slots, initial],
    by simp [slots, initial], ?_⟩
  intro i isId isUsed
  have isZero : i = 0 := by
    simpa [slots, initial, Common.client, Shared.createSharedMem] using isUsed
  subst isZero
  exact absurd isId Wired.zero_not_client

end Machine

end NpServers.MultiProc
