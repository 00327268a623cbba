import NpServers.EntryWrites
import NpServers.GuardedReads
import NpServers.MessageText
import NpServers.UserPipeTable

namespace NpServers.IdChecks

open NpServers.CStrings NpServers.Shell NpServers.ShellInput
open NpServers.GuardedReads NpServers.GuardedReads.Reads
open NpServers.TransitionPath

/-!
# Ids that a line gives

The numbers behind `<`, `>` and `tell` index the client list and its arrays
`user_pipe`.  The tests of both servers compare an id with `max_client_num`, and
then read the state of its slot.  None of them compares it with zero.

The functions are given here with what they read of the list and when they act
on an id.  Reads of the fields of the own entry are left out, and so is the
`broadcast` to the ids from 1 to 30.  In `np_multi_proc.c` another process may
change the list between any two reads.
-/

/-! ## Places and actions -/

/-- `list[slot].state`, another field of `list[slot]`, and
`list[owner].user_pipe[index]`. -/
inductive Place where
  | state (slot : Int)
  | entry (slot : Int)
  | userPipe (owner index : Int)
deriving DecidableEq, Repr

/-- A message of `tell` or a pipe of `>` reaches a client. -/
inductive Action where
  | reach (id : Int)
deriving DecidableEq, Repr

/-- What a function reads, and on which ids it acts. -/
abbrev Run (α : Type) : Type := Reads Place Int Action α

/-- An index of the list and of the arrays in it. -/
def InTable (i : Int) : Prop :=
  0 ≤ i ∧ i ≤ maxClientNum

instance (i : Int) : Decidable (InTable i) :=
  inferInstanceAs (Decidable (_ ∧ _))

namespace Place

/-- All indices are inside of their arrays. -/
def Inside : Place → Prop
  | state slot => InTable slot
  | entry slot => InTable slot
  | userPipe owner index => InTable owner ∧ InTable index

end Place

/-- `world` says which states a slot may have when it is read.  An action needs
an id from 1 to 30 whose state was read and was not zero. -/
def policy (world : Int → Int → Prop) : Policy Place Int Action where
  inside := Place.Inside
  returns place value :=
    match place with
    | .state slot => world slot value
    | _ => True
  permitted seen action :=
    match action with
    | .reach id =>
        1 ≤ id ∧ id ≤ maxClientNum ∧
          ∃ state, state ≠ 0 ∧ (Place.state id, state) ∈ seen

/-- What a line finds: the id of its client, whether a numbered pipe expires, and
whether the file of a pipeline can be opened. -/
structure Caller where
  self : Int
  expired : Bool
  opens : Bool
  isClient : 1 ≤ self ∧ self ≤ maxClientNum

/-! ## Tests -/

/-- `list[slot].state` as a condition. -/
def readState (slot : Int) : Run Bool := do
  let value ← ask (.state slot)
  pure (decide (value ≠ 0))

/-- `id > max_client_num || !list[id].state`. -/
def noUser (id : Int) : Run Bool :=
  if (maxClientNum : Int) < id then
    pure true
  else do
    let isClient ← readState id
    pure (!isClient)

/-- `noUser`, or the condition on `list[owner].user_pipe[index]`. -/
def noUserOr
    (id owner index : Int)
    (condition : Int → Bool) : Run Bool := do
  let missing ← noUser id
  if missing then
    pure true
  else do
    let fd ← ask (.userPipe owner index)
    pure (condition fd)

/-- The test of `<`, written with `||`; with `&&` it is negated. -/
def userInMissing (self userInId : Int) : Run Bool :=
  noUserOr userInId self userInId fun fd => decide (fd < 0)

/-- The test of `>`, written with `||`; with `&&` it is negated. -/
def userOutTaken (self userOutId : Int) : Run Bool :=
  noUserOr userOutId userOutId self fun fd => decide (0 ≤ fd)

/-- One half of `print_user_pipe_msg_handler`; a good message has the name of
`id`. -/
def printHalf
    (id : Int)
    (test : Run Bool) : Run Unit :=
  if id = 0 then
    pure ()
  else do
    let failed ← test
    if failed then do
      let _ ← noUser id
      pure ()
    else do
      let _ ← ask (.entry id)
      pure ()

/-- `print_user_pipe_msg_handler` of both programs. -/
def printUserPipeMsgHandler
    (self userInId userOutId : Int) : Run Unit := do
  printHalf userInId (userInMissing self userInId)
  printHalf userOutId (userOutTaken self userOutId)

/-! ## The functions of `np_single_proc.c` -/

/-- The part of a child for `<`. -/
def childInput
    (caller : Caller)
    (userInId : Int) : Run Unit :=
  if caller.expired = true ∨ userInId = 0 then
    pure ()
  else do
    let missing ← userInMissing caller.self userInId
    if missing then
      pure ()
    else do
      let _ ← ask (.userPipe caller.self userInId)
      pure ()

/-- The part of the parent for `<`; it reads the same places. -/
def parentInput
    (caller : Caller)
    (userInId : Int) : Run Unit :=
  childInput caller userInId

/-- A pipe is created for `>`. -/
def createsPipe
    (caller : Caller)
    (call : CallArguments) : Run Unit :=
  if call.crossNum ≠ 0 ∨ call.userOutId = 0 then
    pure ()
  else do
    let _ ← userOutTaken caller.self call.userOutId
    pure ()

/-- The part of a child for `>`. -/
def childOutput
    (caller : Caller)
    (call : CallArguments) : Run Unit :=
  if call.crossNum ≠ 0 ∨ call.redir = true ∨ call.userOutId = 0 then
    pure ()
  else do
    let _ ← userOutTaken caller.self call.userOutId
    pure ()

/-- The part of the parent for `>`, which stores the read end for the receiver. -/
def storesPipe (self userOutId : Int) : Run Unit := do
  let taken ← userOutTaken self userOutId
  if taken then
    pure ()
  else do
    let _ ← ask (.userPipe userOutId self)
    perform (.reach userOutId)

/-- `single_cmd`: the child and the parent. -/
def singleCmd
    (caller : Caller)
    (call : CallArguments) : Run Unit := do
  printUserPipeMsgHandler caller.self call.userInId call.userOutId
  createsPipe caller call
  childInput caller call.userInId
  childOutput caller call
  parentInput caller call.userInId
  if call.crossNum ≠ 0 ∨ call.userOutId = 0 then
    pure ()
  else
    storesPipe caller.self call.userOutId

/-- One round of the loop of `ordinary_pipe`. -/
def stage
    (caller : Caller)
    (call : CallArguments)
    (cmdNum i : Nat) : Run Unit := do
  (if i + 1 = cmdNum then createsPipe caller call else pure ())
  if i = 0 then do
    childInput caller call.userInId
    parentInput caller call.userInId
  else if i + 1 = cmdNum then do
    childOutput caller call
    if call.crossNum ≠ 0 ∨ call.redir = true ∨ call.userOutId = 0 then
      pure ()
    else
      storesPipe caller.self call.userOutId
  else
    pure ()

/-- A loop over stages with a variable. -/
def eachStage
    {α : Type}
    (round : α → Nat → Run α) :
    α → List Nat → Run α
  | value, [] => pure value
  | value, i :: rest => do
      let next ← round value i
      eachStage round next rest

/-- `ordinary_pipe`. -/
def ordinaryPipe
    (caller : Caller)
    (cmdNum : Nat)
    (call : CallArguments) : Run Unit :=
  if call.redir = true ∧ caller.opens = false then
    pure ()
  else do
    printUserPipeMsgHandler caller.self call.userInId call.userOutId
    eachStage (fun _ => stage caller call cmdNum) () (List.range cmdNum)

/-- `cmd_tell`; without a text it does not get to its end. -/
def cmdTell
    (tellId : Int)
    (hasText : Bool) : Run Unit := do
  let isClient ← readState tellId
  if isClient = true ∧ hasText = true then do
    let _ ← ask (.entry tellId)
    perform (.reach tellId)
  else
    pure ()

/-! ## The functions of `np_multi_proc.c` -/

/-- `create_user_pipe`. -/
def createUserPipe (userOutId : Int) : Run Unit := do
  let _ ← ask (.entry userOutId)
  let isClient ← readState userOutId
  if isClient then do
    let _ ← ask (.entry userOutId)
    perform (.reach userOutId)
  else
    pure ()

/-- The user pipe of `>` is created, or `upipe_write_exist` is set. -/
def multiCreatesPipe
    (caller : Caller)
    (call : CallArguments)
    (userOutState : Bool) : Run Bool :=
  if call.crossNum ≠ 0 ∨ call.userOutId = 0 then
    pure false
  else do
    let taken ← userOutTaken caller.self call.userOutId
    if !taken then
      if userOutState then do
        createUserPipe call.userOutId
        pure false
      else
        pure true
    else do
      let fd ← ask (.userPipe call.userOutId caller.self)
      pure (decide (0 ≤ fd))

/-- The part of a child for `<`. -/
def multiChildInput
    (caller : Caller)
    (userInId : Int) : Run Unit :=
  if caller.expired = true ∨ userInId = 0 then
    pure ()
  else do
    let _ ← noUser userInId
    pure ()

/-- The part of the parent for `<`. -/
def multiParentInput
    (caller : Caller)
    (userInId upipeReadFd : Int) : Run Unit :=
  if caller.expired = true ∨ userInId = 0 then
    pure ()
  else do
    let missing ← noUser userInId
    if missing = false ∧ 0 ≤ upipeReadFd then do
      let _ ← ask (.userPipe caller.self userInId)
      pure ()
    else
      pure ()

/-- The tests of the child and the parent for `>`. -/
def multiOutput
    (call : CallArguments)
    (ignoresRedir : Bool) : Run Unit :=
  if call.crossNum ≠ 0 ∨ (call.redir = true ∧ ignoresRedir = false) ∨
      call.userOutId = 0 then
    pure ()
  else do
    let _ ← noUser call.userOutId
    pure ()

/-- The tests for the wait. -/
def multiWait
    (call : CallArguments)
    (upipeWriteExist : Bool) : Run Unit :=
  if call.userOutId = 0 then
    pure ()
  else do
    let missing ← noUser call.userOutId
    if missing = true ∨ upipeWriteExist = true then
      pure ()
    else do
      let _ ← readState call.userOutId
      pure ()

/-- `single_cmd`. -/
def multiSingleCmd
    (caller : Caller)
    (call : CallArguments) : Run Unit := do
  let upipeReadFd ← ask (.userPipe caller.self call.userInId)
  let userOutState ← readState call.userOutId
  printUserPipeMsgHandler caller.self call.userInId call.userOutId
  let upipeWriteExist ← multiCreatesPipe caller call userOutState
  multiChildInput caller call.userInId
  multiOutput call false
  multiParentInput caller call.userInId upipeReadFd
  multiOutput call true
  multiWait call upipeWriteExist

/-- One round of the loop of `ordinary_pipe`. -/
def multiStage
    (caller : Caller)
    (call : CallArguments)
    (cmdNum : Nat)
    (upipeReadFd : Int)
    (userOutState upipeWriteExist : Bool)
    (i : Nat) : Run Bool := do
  let exist ←
    (if i + 1 = cmdNum then multiCreatesPipe caller call userOutState
      else pure upipeWriteExist)
  if i = 0 then do
    multiChildInput caller call.userInId
    multiParentInput caller call.userInId upipeReadFd
    pure exist
  else if i + 1 = cmdNum then do
    multiOutput call false
    multiOutput call false
    pure exist
  else
    pure exist

/-- `ordinary_pipe`. -/
def multiOrdinaryPipe
    (caller : Caller)
    (cmdNum : Nat)
    (call : CallArguments) : Run Unit := do
  let upipeReadFd ← ask (.userPipe caller.self call.userInId)
  let userOutState ← readState call.userOutId
  if call.redir = true ∧ caller.opens = false then
    pure ()
  else do
    printUserPipeMsgHandler caller.self call.userInId call.userOutId
    let upipeWriteExist ←
      eachStage (multiStage caller call cmdNum upipeReadFd userOutState) false
        (List.range cmdNum)
    multiWait call upipeWriteExist

/-- `cmd_tell`. -/
def multiCmdTell
    (tellId : Int)
    (hasText : Bool) : Run Unit := do
  let missing ← noUser tellId
  if missing = false ∧ hasText = true then do
    let _ ← ask (.entry tellId)
    let isClient ← readState tellId
    if isClient then
      perform (.reach tellId)
    else
      pure ()
  else
    pure ()

/-! ## Command lines -/

/-- What a line does with the client list. -/
inductive IdCall where
  | tell (tellId : Int) (hasText : Bool)
  | single (call : CallArguments)
  | pipe (cmdNum : Nat) (call : CallArguments)
  | other
deriving DecidableEq, Repr

/-- The call of a line, from its words. -/
def idCall
    (split : List Char → SplitResult)
    (line : List Char) : IdCall :=
  if (tokens isBlank line).head? = some "tell".toList then
    match (tokens isBlank line)[1]? with
    | some id => .tell (atoi id) (decide (2 < (tokens isBlank line).length))
    | none => .other
  else if (tokens isBlank line).head? = some "yell".toList then
    .other
  else
    match (split line).call with
    | some (.singleCmd call) => .single call
    | some (.ordinaryPipe cmdNum call) => .pipe cmdNum call
    | _ => .other

/-- The reads and actions of a line. -/
def lineRun
    (program : Program)
    (caller : Caller)
    (line : List Char) : Run Unit :=
  match program with
  | .single =>
      match idCall stringSplit line with
      | .tell tellId hasText => cmdTell tellId hasText
      | .single call => singleCmd caller call
      | .pipe cmdNum call => ordinaryPipe caller cmdNum call
      | .other => pure ()
  | .multi =>
      match idCall multiStringSplit line with
      | .tell tellId hasText => multiCmdTell tellId hasText
      | .single call => multiSingleCmd caller call
      | .pipe cmdNum call => multiOrdinaryPipe caller cmdNum call
      | .other => pure ()

/-! ## Ids that are not negative -/

section Checked

variable {world : Int → Int → Prop}

theorem Caller.inTable
    (caller : Caller) :
    InTable caller.self :=
  ⟨by have := caller.isClient.1; omega, caller.isClient.2⟩

theorem clean_readState
    {slot : Int}
    (inTable : InTable slot) :
    Clean (policy world) (readState slot) :=
  (clean_ask inTable).bind fun _ => clean_pure _

/-- The state of a slot in the table was read and was not zero. -/
def Known
    (id : Int)
    (seen : List (Place × Int)) : Prop :=
  id ≤ maxClientNum ∧ ∃ state, state ≠ 0 ∧ (Place.state id, state) ∈ seen

/-- A client that is not missing is known. -/
theorem safe_noUser
    {id : Int}
    (notNegative : 0 ≤ id)
    (seen : List (Place × Int)) :
    (noUser id).Safe (policy world) seen fun later missing =>
      missing = false → Known id later := by
  unfold noUser
  split
  · intro isFalse
    cases isFalse
  · rename_i upTo
    have inTable : InTable id := ⟨notNegative, by omega⟩
    refine ⟨inTable, fun state _ => ?_⟩
    intro isThere
    refine ⟨inTable.2, state, ?_, List.mem_cons_self⟩
    simpa using isThere

/-- A user pipe is read only for a client that is not missing. -/
theorem safe_noUserOr
    {id owner index : Int}
    {condition : Int → Bool}
    (notNegative : 0 ≤ id)
    (inside : id ≤ maxClientNum → InTable owner ∧ InTable index)
    (seen : List (Place × Int)) :
    (noUserOr id owner index condition).Safe (policy world) seen
      fun later failed => failed = false → Known id later := by
  unfold noUserOr
  rw [safe_bind]
  refine (safe_noUser notNegative seen).mono ?_
  intro later missing known
  cases missing with
  | true =>
      intro isFalse
      cases isFalse
  | false =>
      obtain ⟨upTo, state, nonzero, wasRead⟩ := known rfl
      refine ⟨inside upTo, fun fd _ => ?_⟩
      intro _
      exact ⟨upTo, state, nonzero, List.mem_cons_of_mem _ wasRead⟩

theorem clean_noUser
    {id : Int}
    (notNegative : 0 ≤ id) :
    Clean (policy world) (noUser id) :=
  fun seen => (safe_noUser notNegative seen).mono fun _ _ _ => trivial

variable {caller : Caller}

theorem safe_userOutTaken
    {userOutId : Int}
    (notNegative : 0 ≤ userOutId)
    (seen : List (Place × Int)) :
    (userOutTaken caller.self userOutId).Safe (policy world) seen
      fun later taken => taken = false → Known userOutId later :=
  safe_noUserOr notNegative
    (fun upTo => ⟨⟨notNegative, upTo⟩, caller.inTable⟩) seen

theorem safe_userInMissing
    {userInId : Int}
    (notNegative : 0 ≤ userInId)
    (seen : List (Place × Int)) :
    (userInMissing caller.self userInId).Safe (policy world) seen
      fun later missing => missing = false → Known userInId later :=
  safe_noUserOr notNegative
    (fun upTo => ⟨caller.inTable, ⟨notNegative, upTo⟩⟩) seen

theorem clean_userOutTaken
    {userOutId : Int}
    (notNegative : 0 ≤ userOutId) :
    Clean (policy world) (userOutTaken caller.self userOutId) :=
  fun seen => (safe_userOutTaken notNegative seen).mono fun _ _ _ => trivial

/-- A half of the handler whose test makes the id known. -/
theorem clean_printHalf
    {id : Int}
    {test : Run Bool}
    (notNegative : 0 ≤ id)
    (tested :
      ∀ seen,
        test.Safe (policy world) seen fun later failed =>
          failed = false → Known id later) :
    Clean (policy world) (printHalf id test) := by
  unfold printHalf
  split
  · exact clean_pure _
  · intro seen
    rw [safe_bind]
    refine (tested seen).mono ?_
    intro later failed known
    cases failed with
    | true =>
        exact (clean_noUser notNegative).bind (fun _ => clean_pure _) later
    | false =>
        have isInside : (policy world).inside (.entry id) :=
          ⟨notNegative, (known rfl).1⟩
        exact (clean_ask isInside).bind (fun _ => clean_pure _) later

variable {call : CallArguments}

/-- Both ids of a call are not negative. -/
def NotNegative (call : CallArguments) : Prop :=
  0 ≤ call.userInId ∧ 0 ≤ call.userOutId

instance (call : CallArguments) : Decidable (NotNegative call) :=
  inferInstanceAs (Decidable (_ ∧ _))

theorem clean_printUserPipeMsgHandler
    (notNegative : NotNegative call) :
    Clean (policy world)
      (printUserPipeMsgHandler caller.self call.userInId call.userOutId) :=
  (clean_printHalf notNegative.1 (safe_userInMissing notNegative.1)).bind
    fun _ => clean_printHalf notNegative.2 (safe_userOutTaken notNegative.2)

theorem clean_childInput
    {userInId : Int}
    (notNegative : 0 ≤ userInId) :
    Clean (policy world) (childInput caller userInId) := by
  unfold childInput
  split
  · exact clean_pure _
  · intro seen
    rw [safe_bind]
    refine (safe_userInMissing notNegative seen).mono ?_
    intro later missing known
    cases missing with
    | true =>
        exact trivial
    | false =>
        have inTable : InTable userInId := ⟨notNegative, (known rfl).1⟩
        exact ⟨⟨caller.inTable, inTable⟩, fun _ _ => trivial⟩

theorem clean_createsPipe
    (notNegative : 0 ≤ call.userOutId) :
    Clean (policy world) (createsPipe caller call) := by
  unfold createsPipe
  split
  · exact clean_pure _
  · exact (clean_userOutTaken notNegative).bind fun _ => clean_pure _

theorem clean_childOutput
    (notNegative : 0 ≤ call.userOutId) :
    Clean (policy world) (childOutput caller call) := by
  unfold childOutput
  split
  · exact clean_pure _
  · exact (clean_userOutTaken notNegative).bind fun _ => clean_pure _

/-- A pipe is stored only for a client whose state was read. -/
theorem clean_storesPipe
    {userOutId : Int}
    (positive : 0 < userOutId) :
    Clean (policy world) (storesPipe caller.self userOutId) := by
  intro seen
  unfold storesPipe
  rw [safe_bind]
  refine (safe_userOutTaken (Int.le_of_lt positive) seen).mono ?_
  intro later taken known
  cases taken with
  | true =>
      exact trivial
  | false =>
      obtain ⟨upTo, state, nonzero, wasRead⟩ := known rfl
      refine ⟨⟨⟨Int.le_of_lt positive, upTo⟩, caller.inTable⟩, fun _ _ => ?_⟩
      exact ⟨⟨positive, upTo, state, nonzero, List.mem_cons_of_mem _ wasRead⟩,
        trivial⟩

/-- The end of the parent's part, where `>` is given. -/
theorem clean_storesPipe_of_given
    (notNegative : 0 ≤ call.userOutId)
    {skipped : Prop}
    [Decidable skipped]
    (given : call.userOutId = 0 → skipped) :
    Clean (policy world)
      (if skipped then pure () else storesPipe caller.self call.userOutId) := by
  split
  · exact clean_pure _
  · rename_i notSkipped
    have nonzero : call.userOutId ≠ 0 := fun isZero =>
      notSkipped (given isZero)
    exact clean_storesPipe (by omega)

/-- `single_cmd` stays inside with ids that are not negative. -/
theorem clean_singleCmd
    (notNegative : NotNegative call) :
    Clean (policy world) (singleCmd caller call) := by
  refine (clean_printUserPipeMsgHandler notNegative).bind fun _ => ?_
  refine (clean_createsPipe notNegative.2).bind fun _ => ?_
  refine (clean_childInput notNegative.1).bind fun _ => ?_
  refine (clean_childOutput notNegative.2).bind fun _ => ?_
  refine (clean_childInput notNegative.1).bind fun _ => ?_
  exact clean_storesPipe_of_given notNegative.2 Or.inr

/-- So does every round of `ordinary_pipe`. -/
theorem clean_stage
    (notNegative : NotNegative call)
    (cmdNum i : Nat) :
    Clean (policy world) (stage caller call cmdNum i) := by
  refine Clean.bind ?_ fun _ => ?_
  · split
    · exact clean_createsPipe notNegative.2
    · exact clean_pure _
  · split
    · exact (clean_childInput notNegative.1).bind fun _ =>
        clean_childInput notNegative.1
    · split
      · refine (clean_childOutput notNegative.2).bind fun _ => ?_
        exact clean_storesPipe_of_given notNegative.2 fun isZero =>
          Or.inr (Or.inr isZero)
      · exact clean_pure _

/-- A loop of clean rounds is clean. -/
theorem clean_eachStage
    {α : Type}
    {round : α → Nat → Run α}
    (clean : ∀ value i, Clean (policy world) (round value i))
    (value : α)
    (stages : List Nat) :
    Clean (policy world) (eachStage round value stages) := by
  induction stages generalizing value with
  | nil =>
      exact clean_pure _
  | cons i rest inductionHypothesis =>
      exact (clean value i).bind fun next => inductionHypothesis next

/-- And so does `ordinary_pipe`. -/
theorem clean_ordinaryPipe
    (cmdNum : Nat)
    (checked :
      (call.redir = true ∧ caller.opens = false) ∨ NotNegative call) :
    Clean (policy world) (ordinaryPipe caller cmdNum call) := by
  unfold ordinaryPipe
  split
  · exact clean_pure _
  · rename_i opened
    have notNegative := checked.resolve_left opened
    refine (clean_printUserPipeMsgHandler notNegative).bind fun _ => ?_
    exact clean_eachStage (fun _ => clean_stage notNegative cmdNum) ()
      (List.range cmdNum)

/-! ### The same for `np_multi_proc.c` -/

/-- Both ids of a call are indices of the list. -/
def BothInTable (call : CallArguments) : Prop :=
  InTable call.userInId ∧ InTable call.userOutId

instance (call : CallArguments) : Decidable (BothInTable call) :=
  inferInstanceAs (Decidable (_ ∧ _))

theorem BothInTable.notNegative
    (inTable : BothInTable call) :
    NotNegative call :=
  ⟨inTable.1.1, inTable.2.1⟩

/-- A user pipe is created for a client whose state was read. -/
theorem clean_createUserPipe
    {userOutId : Int}
    (positive : 0 < userOutId)
    (upTo : userOutId ≤ maxClientNum) :
    Clean (policy world) (createUserPipe userOutId) := by
  have inTable : InTable userOutId := ⟨Int.le_of_lt positive, upTo⟩
  intro seen
  refine ⟨inTable, fun _ _ => ⟨inTable, fun state _ => ?_⟩⟩
  change
    Safe (policy world)
      (if decide (state ≠ 0) = true then _ else pure ()) _ _
  split
  · rename_i isClient
    refine ⟨inTable, fun _ _ => ⟨⟨positive, upTo, state, ?_, ?_⟩, trivial⟩⟩
    · simpa using isClient
    · exact List.mem_cons_of_mem _ List.mem_cons_self
  · exact trivial

theorem clean_multiCreatesPipe
    (inTable : InTable call.userOutId)
    (userOutState : Bool) :
    Clean (policy world) (multiCreatesPipe caller call userOutState) := by
  unfold multiCreatesPipe
  split
  · exact clean_pure _
  · rename_i given
    have nonzero : call.userOutId ≠ 0 := fun isZero => given (Or.inr isZero)
    have positive : 0 < call.userOutId := by
      have := inTable.1
      omega
    refine (clean_userOutTaken inTable.1).bind fun taken => ?_
    split
    · split
      · exact (clean_createUserPipe positive inTable.2).bind fun _ =>
          clean_pure _
      · exact clean_pure _
    · have isInside :
          (policy world).inside (.userPipe call.userOutId caller.self) :=
        ⟨inTable, caller.inTable⟩
      exact (clean_ask isInside).bind fun _ => clean_pure _

theorem clean_multiChildInput
    {userInId : Int}
    (notNegative : 0 ≤ userInId) :
    Clean (policy world) (multiChildInput caller userInId) := by
  unfold multiChildInput
  split
  · exact clean_pure _
  · exact (clean_noUser notNegative).bind fun _ => clean_pure _

theorem clean_multiParentInput
    {userInId : Int}
    (inTable : InTable userInId)
    (upipeReadFd : Int) :
    Clean (policy world) (multiParentInput caller userInId upipeReadFd) := by
  unfold multiParentInput
  split
  · exact clean_pure _
  · refine (clean_noUser inTable.1).bind fun missing => ?_
    split
    · have isInside :
          (policy world).inside (.userPipe caller.self userInId) :=
        ⟨caller.inTable, inTable⟩
      exact (clean_ask isInside).bind fun _ => clean_pure _
    · exact clean_pure _

theorem clean_multiOutput
    (notNegative : 0 ≤ call.userOutId)
    (ignoresRedir : Bool) :
    Clean (policy world) (multiOutput call ignoresRedir) := by
  unfold multiOutput
  split
  · exact clean_pure _
  · exact (clean_noUser notNegative).bind fun _ => clean_pure _

theorem clean_multiWait
    (inTable : InTable call.userOutId)
    (upipeWriteExist : Bool) :
    Clean (policy world) (multiWait call upipeWriteExist) := by
  unfold multiWait
  split
  · exact clean_pure _
  · refine (clean_noUser inTable.1).bind fun missing => ?_
    split
    · exact clean_pure _
    · exact (clean_readState inTable).bind fun _ => clean_pure _

/-- `single_cmd` stays inside with ids in the table. -/
theorem clean_multiSingleCmd
    (inTable : BothInTable call) :
    Clean (policy world) (multiSingleCmd caller call) := by
  have notNegative := inTable.notNegative
  have isInside :
      (policy world).inside (.userPipe caller.self call.userInId) :=
    ⟨caller.inTable, inTable.1⟩
  refine (clean_ask isInside).bind fun upipeReadFd => ?_
  refine (clean_readState inTable.2).bind fun userOutState => ?_
  refine (clean_printUserPipeMsgHandler notNegative).bind fun _ => ?_
  refine (clean_multiCreatesPipe inTable.2 userOutState).bind fun exist => ?_
  refine (clean_multiChildInput notNegative.1).bind fun _ => ?_
  refine (clean_multiOutput notNegative.2 false).bind fun _ => ?_
  refine (clean_multiParentInput inTable.1 upipeReadFd).bind fun _ => ?_
  refine (clean_multiOutput notNegative.2 true).bind fun _ => ?_
  exact clean_multiWait inTable.2 exist

theorem clean_multiStage
    (inTable : BothInTable call)
    (cmdNum : Nat)
    (upipeReadFd : Int)
    (userOutState upipeWriteExist : Bool)
    (i : Nat) :
    Clean (policy world)
      (multiStage caller call cmdNum upipeReadFd userOutState upipeWriteExist
        i) := by
  have notNegative := inTable.notNegative
  refine Clean.bind ?_ fun exist => ?_
  · split
    · exact clean_multiCreatesPipe inTable.2 userOutState
    · exact clean_pure _
  · split
    · refine (clean_multiChildInput notNegative.1).bind fun _ => ?_
      exact (clean_multiParentInput inTable.1 upipeReadFd).bind fun _ =>
        clean_pure _
    · split
      · refine (clean_multiOutput notNegative.2 false).bind fun _ => ?_
        exact (clean_multiOutput notNegative.2 false).bind fun _ =>
          clean_pure _
      · exact clean_pure _

/-- `ordinary_pipe` stays inside with ids in the table. -/
theorem clean_multiOrdinaryPipe
    (cmdNum : Nat)
    (inTable : BothInTable call) :
    Clean (policy world) (multiOrdinaryPipe caller cmdNum call) := by
  have isInside :
      (policy world).inside (.userPipe caller.self call.userInId) :=
    ⟨caller.inTable, inTable.1⟩
  refine (clean_ask isInside).bind fun upipeReadFd => ?_
  refine (clean_readState inTable.2).bind fun userOutState => ?_
  split
  · exact clean_pure _
  · refine (clean_printUserPipeMsgHandler inTable.notNegative).bind fun _ => ?_
    refine (clean_eachStage (clean_multiStage inTable cmdNum upipeReadFd
      userOutState) false (List.range cmdNum)).bind fun exist => ?_
    exact clean_multiWait inTable.2 exist

end Checked

/-! ## Ids that are not checked -/

section Unchecked

variable {world : Int → Int → Prop}

/-- What a read of a state may return: something. -/
def Answers (world : Int → Int → Prop) : Prop :=
  ∀ slot, ∃ state, world slot state

theorem Answers.returns
    (answers : Answers world)
    (place : Place) :
    ∃ value, (policy world).returns place value := by
  cases place with
  | state slot => exact answers slot
  | entry slot => exact ⟨0, trivial⟩
  | userPipe owner index => exact ⟨0, trivial⟩

/-- The test of a negative id reads outside of the list. -/
theorem not_safe_noUserOr
    {id owner index : Int}
    {condition : Int → Bool}
    (negative : id < 0)
    (seen : List (Place × Int))
    (post : List (Place × Int) → Bool → Prop) :
    ¬ (noUserOr id owner index condition).Safe (policy world) seen post := by
  intro safe
  have tested := safe.first
  unfold noUser at tested
  have small : ¬ (maxClientNum : Int) < id := by omega
  rw [if_neg small] at tested
  have inside : InTable id := tested.1
  exact absurd inside.1 (by omega)

/-- So does the handler of the messages. -/
theorem not_safe_printHalf
    {id owner index : Int}
    {condition : Int → Bool}
    (negative : id < 0)
    (seen : List (Place × Int))
    (post : List (Place × Int) → Unit → Prop) :
    ¬ (printHalf id (noUserOr id owner index condition)).Safe
        (policy world) seen post := by
  intro safe
  unfold printHalf at safe
  rw [if_neg (by omega)] at safe
  exact not_safe_noUserOr negative seen _ safe.first

/-- The handler is the first to read an id of `np_single_proc.c`. -/
theorem notNegative_of_safe_handler
    (answers : Answers world)
    {self userInId userOutId : Int}
    {seen : List (Place × Int)}
    {post : List (Place × Int) → Unit → Prop}
    (safe :
      (printUserPipeMsgHandler self userInId userOutId).Safe
        (policy world) seen post) :
    0 ≤ userInId ∧ 0 ≤ userOutId := by
  constructor
  · by_contra negative
    exact not_safe_printHalf (Int.not_le.mp negative) seen _ safe.first
  · by_contra negative
    obtain ⟨later, value, safeRest⟩ := safe.second answers.returns
    exact not_safe_printHalf (Int.not_le.mp negative) later _ safeRest

/-- The first reads of `np_multi_proc.c` use both ids. -/
theorem bothInTable_of_safe
    (answers : Answers world)
    {α : Type}
    {caller : Caller}
    {call : CallArguments}
    {rest : Int → Bool → Run α}
    {seen : List (Place × Int)}
    {post : List (Place × Int) → α → Prop}
    (safe :
      Safe (policy world)
        (do
          let upipeReadFd ← ask (.userPipe caller.self call.userInId)
          let userOutState ← readState call.userOutId
          rest upipeReadFd userOutState)
        seen post) :
    BothInTable call := by
  refine ⟨safe.first.1.2, ?_⟩
  obtain ⟨later, value, safeRest⟩ := safe.second answers.returns
  exact safeRest.first.1

end Unchecked

/-! ## Lines that keep to the list -/

/-- The ids of a line are checked where they are used. -/
def IdsChecked
    (program : Program)
    (caller : Caller)
    (line : List Char) : Prop :=
  match program with
  | .single =>
      match idCall stringSplit line with
      | .tell tellId _ => InTable tellId
      | .single call => NotNegative call
      | .pipe _ call =>
          (call.redir = true ∧ caller.opens = false) ∨ NotNegative call
      | .other => True
  | .multi =>
      match idCall multiStringSplit line with
      | .tell tellId hasText =>
          0 < tellId ∨ (tellId = 0 ∧ hasText = false)
      | .single call => BothInTable call
      | .pipe _ call => BothInTable call
      | .other => True

/-- In `np_single_proc.c` slot 0 is not in use; in `np_multi_proc.c` it is the
entry of the server. -/
def SlotZero
    (program : Program)
    (world : Int → Int → Prop) : Prop :=
  match program with
  | .single => ∀ state, world 0 state → state = 0
  | .multi => ∀ state, world 0 state → state ≠ 0

/-- `cmd_tell` of `np_single_proc.c` reads the slot of the id first. -/
theorem clean_cmdTell_iff
    {world : Int → Int → Prop}
    (slotZero : ∀ state, world 0 state → state = 0)
    {tellId : Int}
    {hasText : Bool} :
    Clean (policy world) (cmdTell tellId hasText) ↔ InTable tellId := by
  constructor
  · intro clean
    exact (clean []).first.1
  · intro inTable seen
    refine ⟨inTable, fun state returned => ?_⟩
    change
      Safe (policy world)
        (if decide (state ≠ 0) = true ∧ hasText = true then _ else pure ()) _ _
    split
    · rename_i isClient
      have nonzero : state ≠ 0 := by simpa using isClient.1
      have positive : 1 ≤ tellId := by
        have notNegative := inTable.1
        have notZero : tellId ≠ 0 := by
          rintro rfl
          exact nonzero (slotZero state returned)
        omega
      refine ⟨inTable, fun _ _ => ⟨⟨positive, inTable.2, state, nonzero, ?_⟩,
        trivial⟩⟩
      exact List.mem_cons_of_mem _ List.mem_cons_self
    · exact trivial

/-- A `tell` to a client of `np_multi_proc.c`. -/
theorem clean_multiCmdTell
    {world : Int → Int → Prop}
    {tellId : Int}
    (positive : 0 < tellId)
    (hasText : Bool) :
    Clean (policy world) (multiCmdTell tellId hasText) := by
  intro seen
  unfold multiCmdTell
  rw [safe_bind]
  refine (safe_noUser (Int.le_of_lt positive) seen).mono ?_
  intro later missing known
  split
  · rename_i isClient
    obtain ⟨upTo, -⟩ := known isClient.1
    have inTable : InTable tellId := ⟨Int.le_of_lt positive, upTo⟩
    refine ⟨inTable, fun _ _ => ⟨inTable, fun state _ => ?_⟩⟩
    change
      Safe (policy world) (if decide (state ≠ 0) = true then _ else pure ()) _ _
    split
    · rename_i stillClient
      refine ⟨⟨positive, upTo, state, ?_, List.mem_cons_self⟩, trivial⟩
      simpa using stillClient
    · exact trivial
  · exact trivial

/-- `cmd_tell` of `np_multi_proc.c` compares the id with the largest one first, and
takes slot 0 for a client. -/
theorem clean_multiCmdTell_iff
    {world : Int → Int → Prop}
    (answers : Answers world)
    (slotZero : ∀ state, world 0 state → state ≠ 0)
    {tellId : Int}
    {hasText : Bool} :
    Clean (policy world) (multiCmdTell tellId hasText) ↔
      0 < tellId ∨ (tellId = 0 ∧ hasText = false) := by
  constructor
  · intro clean
    have notNegative : 0 ≤ tellId := by
      by_contra negative
      have safe := (clean []).first
      unfold noUser at safe
      rw [if_neg (by omega)] at safe
      have inside : InTable tellId := safe.1
      exact negative inside.1
    rcases Int.lt_or_eq_of_le notNegative with positive | rfl
    · exact Or.inl positive
    · refine Or.inr ⟨rfl, ?_⟩
      -- with a text, the message for slot 0 is no message for a client
      by_contra isText
      have hasText := Bool.eq_true_of_not_eq_false isText
      subst hasText
      obtain ⟨state, returned⟩ := answers 0
      have nonzero := slotZero state returned
      have safe := clean []
      unfold multiCmdTell noUser at safe
      rw [if_neg (by decide)] at safe
      have tested := safe.2 state returned
      have notMissing : (!decide (state ≠ 0)) = false := by simp [nonzero]
      change
        Safe (policy world)
          (if (!decide (state ≠ 0)) = false ∧ true = true then _ else pure ())
          _ _ at tested
      rw [if_pos ⟨notMissing, rfl⟩] at tested
      have acts := (tested.2 0 trivial).2 state returned
      change
        Safe (policy world)
          (if decide (state ≠ 0) = true then perform (.reach 0) else pure ())
          _ _ at acts
      rw [if_pos (decide_eq_true nonzero)] at acts
      have fromOne : (1 : Int) ≤ 0 := acts.1.1
      exact absurd fromOne (by decide)
  · rintro (positive | ⟨rfl, rfl⟩)
    · exact clean_multiCmdTell positive hasText
    · unfold multiCmdTell
      refine (clean_noUser (le_refl 0)).bind fun missing => ?_
      rw [if_neg (by simp)]
      exact clean_pure _

/-- A line keeps to the list, and acts on logged-in clients only, exactly if its
ids are checked. -/
theorem lineRun_clean_iff
    (program : Program)
    {world : Int → Int → Prop}
    (answers : Answers world)
    (slotZero : SlotZero program world)
    (caller : Caller)
    (line : List Char) :
    Clean (policy world) (lineRun program caller line) ↔
      IdsChecked program caller line := by
  cases program with
  | single =>
      unfold lineRun IdsChecked
      dsimp only
      cases idCall stringSplit line with
      | tell tellId hasText =>
          exact clean_cmdTell_iff slotZero
      | single call =>
          constructor
          · intro clean
            exact notNegative_of_safe_handler answers (clean []).first
          · exact clean_singleCmd
      | pipe cmdNum call =>
          constructor
          · intro clean
            by_cases opened : call.redir = true ∧ caller.opens = false
            · exact Or.inl opened
            · have safe := clean []
              dsimp only at safe
              unfold ordinaryPipe at safe
              rw [if_neg opened] at safe
              exact Or.inr (notNegative_of_safe_handler answers safe.first)
          · exact clean_ordinaryPipe cmdNum
      | other =>
          exact ⟨fun _ => trivial, fun _ => clean_pure _⟩
  | multi =>
      unfold lineRun IdsChecked
      dsimp only
      cases idCall multiStringSplit line with
      | tell tellId hasText =>
          exact clean_multiCmdTell_iff answers slotZero
      | single call =>
          constructor
          · intro clean
            exact bothInTable_of_safe answers (clean [])
          · exact clean_multiSingleCmd
      | pipe cmdNum call =>
          constructor
          · intro clean
            exact bothInTable_of_safe answers (clean [])
          · exact clean_multiOrdinaryPipe cmdNum
      | other =>
          exact ⟨fun _ => trivial, fun _ => clean_pure _⟩

/-! ## Reachable states -/

/-- No write clears the state of slot 0. -/
theorem state_of_write
    {machine : MultiProc.Machine}
    {action : MultiProc.Action}
    {i : Nat}
    {change : MultiProc.ClientInfor → MultiProc.ClientInfor}
    (wired : MultiProc.Wired machine)
    (writes : machine.Write action i change)
    (isZero : i = 0)
    {client : MultiProc.ClientInfor}
    (inUse : client.state = true) :
    (change client).state = true := by
  cases writes with
  | main member running writes =>
      cases writes with
      | clearState code =>
          -- a session that has logged in has an id from 1 on
          rcases wired.named _ member with unnamed | isClient
          · rw [code] at unnamed
            cases unnamed
          · rw [isZero] at isClient
            exact absurd isClient MultiProc.Wired.zero_not_client
      | storeState code => rfl
      | _ => exact inUse
  | handle member running writes =>
      cases writes <;> exact inUse

/-- The entry of the server process stays in use. -/
theorem serverEntry_state
    {serverPid : Nat}
    {path : List (MultiProc.Action × MultiProc.Machine)}
    (isPath :
      Path MultiProc.Machine.Steps (MultiProc.Machine.initial serverPid) path) :
    ((lastState (MultiProc.Machine.initial serverPid) path).common.client
      0).state = true := by
  have kept :
      EveryState
        (fun machine : MultiProc.Machine =>
          MultiProc.Wired machine ∧ (machine.common.client 0).state = true)
        (MultiProc.Machine.initial serverPid) path := by
    refine Path.everyState ?_ ⟨.initially serverPid, rfl⟩ isPath
    rintro machine action next ⟨wired, inUse⟩ steps
    refine ⟨wired.step steps, ?_⟩
    rcases steps.writes with same | ⟨i, change, writes, same⟩
    · rw [same]
      exact inUse
    · rw [same]
      by_cases here : i = 0
      · subst here
        rw [MultiProc.Common.client_setClient_self]
        exact state_of_write wired writes rfl inUse
      · rw [MultiProc.Common.client_setClient_of_ne (Ne.symm here)]
        exact inUse
  exact kept.last.2

/-- A read of a state in a reachable state of the server; every read of
`np_multi_proc.c` may see another one. -/
def Reachable
    (program : Program)
    (world : Int → Int → Prop) : Prop :=
  match program with
  | .single =>
      ∃ path,
        Path Server.Steps Server.initial path ∧
          ∀ slot state, world slot state → InTable slot →
            (state ≠ 0 ↔
              (lastState Server.initial path).loggedIn slot.toNat = true)
  | .multi =>
      ∃ serverPid,
        ∀ slot state, world slot state → InTable slot →
          ∃ path,
            Path MultiProc.Machine.Steps
                (MultiProc.Machine.initial serverPid) path ∧
              (state ≠ 0 ↔
                ((lastState (MultiProc.Machine.initial serverPid)
                  path).common.client slot.toNat).state = true)

/-- What the entry with index 0 is in each of the servers. -/
theorem Reachable.slotZero
    {program : Program}
    {world : Int → Int → Prop}
    (reachable : Reachable program world) :
    SlotZero program world := by
  have inTable : InTable 0 := by decide
  cases program with
  | single =>
      obtain ⟨path, isPath, sees⟩ := reachable
      intro state returned
      by_contra nonzero
      have isClient := (sees 0 state returned inTable).mp nonzero
      have between : EveryState Server.PipesBetweenClients Server.initial path :=
        isPath.everyState (fun between stepped => between.step stepped)
          Server.pipesBetweenClients_initial
      have member := between.last.inRange isClient
      exact absurd member (by decide)
  | multi =>
      obtain ⟨serverPid, sees⟩ := reachable
      intro state returned
      obtain ⟨path, isPath, isState⟩ := sees 0 state returned inTable
      exact isState.mpr (serverEntry_state isPath)

/-- In every reachable state, a line indexes the client list and its arrays within
their bounds, and acts on logged-in clients from 1 to 30 only, exactly if its ids
are checked. -/
theorem idsInRange_iff
    (program : Program)
    {world : Int → Int → Prop}
    (answers : Answers world)
    (reachable : Reachable program world)
    (caller : Caller)
    (line : List Char) :
    Clean (policy world) (lineRun program caller line) ↔
      IdsChecked program caller line :=
  lineRun_clean_iff program answers reachable.slotZero caller line

/-- The first client, with no numbered pipe. -/
def firstCaller : Caller where
  self := 1
  expired := false
  opens := true
  isClient := by decide

/-- A server without clients: only `np_multi_proc.c` uses slot 0. -/
def emptyWorld (program : Program) : Int → Int → Prop :=
  fun slot state =>
    state = if program = .multi ∧ slot = 0 then 1 else 0

theorem answers_emptyWorld
    (program : Program) :
    Answers (emptyWorld program) :=
  fun _ => ⟨_, rfl⟩

theorem reachable_emptyWorld
    (program : Program) :
    Reachable program (emptyWorld program) := by
  cases program with
  | single =>
      refine ⟨[], trivial, ?_⟩
      rintro slot state rfl -
      rw [if_neg (by simp)]
      exact ⟨fun nonzero => absurd rfl nonzero, fun isClient => nomatch isClient⟩
  | multi =>
      refine ⟨0, ?_⟩
      rintro slot state rfl inTable
      refine ⟨[], trivial, ?_⟩
      have notNegative := inTable.1
      change _ ↔ decide (slot.toNat = 0) = true
      rw [decide_eq_true_eq]
      by_cases isZero : slot = 0
      · simp [isZero]
      · simp only [isZero, and_false, if_false, ne_eq, not_true_eq_false,
          false_iff]
        omega

/-- `np_single_proc.c` compares an id with the largest one before it reads. -/
theorem idsInRange_large :
    Clean (policy (emptyWorld .single))
      (lineRun .single firstCaller "cat <31".toList) :=
  (idsInRange_iff .single (answers_emptyWorld .single)
    (reachable_emptyWorld .single) firstCaller "cat <31".toList).mpr
    (by
      have isCall :
          idCall stringSplit "cat <31".toList =
            .single
              { cmd := [["cat".toList]]
                cmdReserve := "cat <31".toList
                crossNum := 0
                redir := false
                userInId := 31
                userOutId := 0 } := by
        decide +kernel
      unfold IdsChecked
      rw [isCall]
      exact ⟨by decide, by decide⟩)

/-- A negative id of `tell` is read in `np_single_proc.c`, and a large id of `<` in
`np_multi_proc.c`. -/
theorem ids_read_outside :
    ¬ Clean (policy (emptyWorld .single))
        (lineRun .single firstCaller "tell -1 x".toList) ∧
      ¬ Clean (policy (emptyWorld .multi))
        (lineRun .multi firstCaller "cat <31".toList) := by
  have slotZero (program : Program) :
      SlotZero program (emptyWorld program) :=
    (reachable_emptyWorld program).slotZero
  rw [lineRun_clean_iff .single (answers_emptyWorld .single) (slotZero .single),
    lineRun_clean_iff .multi (answers_emptyWorld .multi) (slotZero .multi)]
  constructor
  · have isCall :
        idCall stringSplit "tell -1 x".toList = .tell (-1) true := by
      decide +kernel
    unfold IdsChecked
    rw [isCall]
    decide
  · have isCall :
        idCall multiStringSplit "cat <31".toList =
          .single
            { cmd := [["cat".toList]]
              cmdReserve := "cat <31".toList
              crossNum := 0
              redir := false
              userInId := 31
              userOutId := 0 } := by
      decide +kernel
    unfold IdsChecked
    rw [isCall]
    decide

end NpServers.IdChecks
