import NpServers.EntryWrites

namespace NpServers.MultiProc

open Shell TransitionPath

/-!
# Nicknames in the multi-process server

`cmd_name` first reads the entries one by one and then stores the name, without
a lock.  A login sets the state of its entry before it resets the name that the
last client has left there.  Nicknames stay unique exactly in the runs in which
no such store meets a name that is in use.
-/

/-! ## Writes that take a name -/

/-- A change that makes no client visible and takes no name. -/
def TakesNoName (change : ClientInfor → ClientInfor) : Prop :=
  ∀ client,
    (change client).state = true →
    client.state = true ∧
      ((change client).name = client.name ∨ (change client).name = noName)

/-- Only two statements make a client visible or take a name. -/
theorem EntryWrite.takesNoName
    {self i : Nat}
    {common : Common}
    {proc : Process}
    {change : ClientInfor → ClientInfor}
    (writes : EntryWrite self common proc i change)
    (notStore : ∀ name, proc.code ≠ .nameStore name)
    (notState : proc.code ≠ .storeState) :
    TakesNoName change := by
  cases writes with
  | storeState code => exact absurd code notState
  | nameStore code => exact absurd code (notStore _)
  | storeName => exact fun client isClient => ⟨isClient, Or.inr rfl⟩
  | clearState => exact fun client isClient => by cases isClient
  | storePid | clearRow | clearColumn | consumePipe | acquire | copy | mark
  | release =>
      exact fun client isClient => ⟨isClient, Or.inl rfl⟩

theorem HandlerWrite.takesNoName
    {proc : Process}
    {i : Nat}
    {change : ClientInfor → ClientInfor}
    (writes : HandlerWrite proc i change) :
    TakesNoName change := by
  cases writes with
  | storePipe | post => exact fun client isClient => ⟨isClient, Or.inl rfl⟩

/-! ## Steps of the machine -/

namespace Machine

/-- Connected clients with the same nickname are both without one. -/
def NamesDiffer (machine : Machine) : Prop :=
  ∀ i ∈ clientIds, ∀ j ∈ clientIds,
    i ≠ j →
    (machine.common.client i).state = true →
    (machine.common.client j).state = true →
    (machine.common.client i).name = (machine.common.client j).name →
    (machine.common.client i).name = noName

/-- No other connected client has the name, unless it stands for none. -/
def NameFree
    (machine : Machine)
    (id : Nat)
    (name : String) : Prop :=
  ∀ j ∈ clientIds,
    j ≠ id →
    (machine.common.client j).state = true →
    (machine.common.client j).name = name →
    name = noName

instance
    (machine : Machine)
    (id : Nat)
    (name : String) :
    Decidable (machine.NameFree id name) :=
  inferInstanceAs (Decidable (∀ j ∈ clientIds, _ → _ → _ → _))

/--
The condition on a step: the name is free when `cmd_name` of a connected client
stores it, and when a login makes its entry visible with the name left there.
-/
def storesFreeName
    (machine : Machine) :
    Action → Bool
  | .main pid =>
      match (machine.procs pid).code with
      | .nameStore name =>
          !(machine.common.client (machine.procs pid).id).state ||
            decide (machine.NameFree (machine.procs pid).id name)
      | .storeState =>
          decide (machine.NameFree (machine.procs pid).id
            (machine.common.client (machine.procs pid).id).name)
      | _ => true
  | _ => true

variable {machine next : Machine}

/-- A change of one entry, when the others have different names before it. -/
theorem namesDiffer_setClient_iff
    (differ : machine.NamesDiffer)
    {i : Nat}
    (member : i ∈ clientIds)
    {change : ClientInfor → ClientInfor}
    (same : ∀ j,
      next.common.client j = (machine.common.setClient i change).client j) :
    next.NamesDiffer ↔
      ((change (machine.common.client i)).state = true →
        machine.NameFree i (change (machine.common.client i)).name) := by
  have here : next.common.client i = change (machine.common.client i) := by
    rw [same, Common.client_setClient_self]
  have elsewhere {j : Nat} (other : j ≠ i) :
      next.common.client j = machine.common.client j := by
    rw [same, Common.client_setClient_of_ne other]
  constructor
  · intro differs isClient j isId other isOther sameName
    rw [← here] at isClient sameName ⊢
    rw [← elsewhere other] at isOther sameName
    exact differs i member j isId (Ne.symm other) isClient isOther sameName.symm
  · intro free j isId k isOtherId different isClient isOther sameName
    by_cases first : j = i
    · subst first
      rw [elsewhere (Ne.symm different)] at isOther sameName
      rw [here] at isClient sameName ⊢
      exact free isClient k isOtherId (Ne.symm different) isOther sameName.symm
    · by_cases second : k = i
      · subst second
        rw [elsewhere different] at isClient sameName ⊢
        rw [here] at isOther sameName
        rw [sameName]
        exact free isOther j isId different isClient sameName
      · rw [elsewhere first] at isClient sameName ⊢
        rw [elsewhere second] at isOther sameName
        exact differ j isId k isOtherId different isClient isOther sameName

/-- Such a change keeps the names different. -/
theorem NamesDiffer.of_takesNoName
    (differ : machine.NamesDiffer)
    {write : Nat → (ClientInfor → ClientInfor) → Prop}
    (writes : WritesEntry write machine.common next.common)
    (takesNone : ∀ {i change}, write i change → TakesNoName change) :
    next.NamesDiffer := by
  -- a visible client was visible before, with this name or with none now
  have before (j : Nat) (isClient : (next.common.client j).state = true) :
      (machine.common.client j).state = true ∧
        ((next.common.client j).name = (machine.common.client j).name ∨
          (next.common.client j).name = noName) := by
    rcases writes with same | ⟨i, change, written, same⟩
    · rw [same] at isClient ⊢
      exact ⟨isClient, Or.inl rfl⟩
    · rw [same] at isClient ⊢
      by_cases here : j = i
      · subst here
        rw [Common.client_setClient_self] at isClient ⊢
        exact takesNone written _ isClient
      · rw [Common.client_setClient_of_ne here] at isClient ⊢
        exact ⟨isClient, Or.inl rfl⟩
  intro i isId j isOtherId different isClient isOther sameName
  obtain ⟨wasClient, name⟩ := before i isClient
  obtain ⟨wasOther, otherName⟩ := before j isOther
  rcases name with kept | none
  · rcases otherName with otherKept | otherNone
    · rw [kept, otherKept] at sameName
      rw [kept]
      exact differ i isId j isOtherId different wasClient wasOther sameName
    · rw [sameName]
      exact otherNone
  · exact none

/-- A step keeps the names different exactly if it meets the condition. -/
theorem NamesDiffer.step_iff
    (wired : Wired machine)
    (differ : machine.NamesDiffer)
    {action : Action}
    (steps : machine.Steps action next) :
    next.NamesDiffer ↔ machine.storesFreeName action = true := by
  have harmless
      (notStore :
        ∀ pid, action = .main pid →
          (∀ name, (machine.procs pid).code ≠ .nameStore name) ∧
            (machine.procs pid).code ≠ .storeState) :
      next.NamesDiffer := by
    refine differ.of_takesNoName steps.writes ?_
    intro i change writes
    cases writes with
    | main member running writes =>
        obtain ⟨notName, notState⟩ := notStore _ rfl
        exact writes.takesNoName notName notState
    | handle member running writes => exact writes.takesNoName
  cases action with
  | main pid =>
      obtain ⟨member, _, _, common', proc', stepped, rfl⟩ := steps_main steps
      have isId (named : (machine.procs pid).code.unnamed = false) :
          (machine.procs pid).id ∈ clientIds := by
        rcases wired.named pid member with unnamed | isId
        · rw [named] at unnamed
          cases unnamed
        · exact isId
      cases code : (machine.procs pid).code with
      | nameStore name =>
          have same (j : Nat) :
              (machine.setBoth pid (common', proc')).common.client j =
                (machine.common.setClient (machine.procs pid).id
                  fun client => { client with name := name }).client j := by
            simp only [mainStep, code] at stepped
            cases stepped
            rfl
          rw [namesDiffer_setClient_iff differ (isId (by rw [code]; rfl)) same]
          simp only [storesFreeName, code, Bool.or_eq_true, decide_eq_true_eq,
            Bool.not_eq_eq_eq_not, Bool.not_true]
          rw [← Bool.not_eq_true, ← imp_iff_not_or]
      | storeState =>
          have same (j : Nat) :
              (machine.setBoth pid (common', proc')).common.client j =
                (machine.common.setClient (machine.procs pid).id
                  fun client => { client with state := true }).client j := by
            simp only [mainStep, code] at stepped
            cases stepped
            rfl
          rw [namesDiffer_setClient_iff differ (isId (by rw [code]; rfl)) same]
          simp only [storesFreeName, code, decide_eq_true_eq, true_implies]
      | _ =>
          simp only [storesFreeName, code]
          refine iff_of_true (harmless ?_) trivial
          rintro other ⟨⟩
          simp [code]
  | _ =>
      refine iff_of_true (harmless ?_) rfl
      rintro pid ⟨⟩

theorem namesDiffer_initial (serverPid : Nat) :
    (initial serverPid).NamesDiffer := by
  intro i isId j _ _ isClient
  have isZero : i = 0 := by
    simpa [initial, Common.client, Shared.createSharedMem] using isClient
  subst isZero
  exact absurd isId Wired.zero_not_client

/-- The first takes a name, and the second tries to take it later. -/
def refusedNameActions : List Action :=
  twoLoginActions ++ [Action.line 10 (.name "ken")] ++ List.replicate 32 (Action.main 10) ++
    [Action.line 11 (.name "ken"), .main 11]

/-- Both look for the name before either of them stores it. -/
def racingNameActions : List Action :=
  twoLoginActions ++ [Action.line 10 (.name "ken"), .line 11 (.name "ken")] ++
    List.replicate 31 (Action.main 10) ++ List.replicate 31 (Action.main 11) ++
    [Action.main 10, .main 11]

end Machine

end NpServers.MultiProc
