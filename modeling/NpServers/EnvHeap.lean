import Mathlib.Data.List.Nodup
import NpServers.EnvTable

namespace NpServers.EnvHeap

open NpServers.Shell

/-!
# The list of environment variables on the heap

The nodes of `env_var` are cells that are allocated and freed.  A cell that was
freed may not be read or written, and addresses are not used again.  As long as
`delete_env_var` frees nothing, the functions on the heap do what the functions
on lists do.  The first node that is freed is read once more in the same round.
-/

/-! ## Cells -/

/-- `env_var` with its pointer; the head has no name. -/
structure Cell where
  userNum : Int
  envName : Option String
  envValue : Nat → Option String
  next : Option Nat

/-- The cells, which of them were freed, and the next address. -/
structure Heap where
  cells : Nat → Cell
  freed : Nat → Bool
  size : Nat

/-- Why a call fails. -/
inductive Fault where
  | freed (address : Nat)
  | null
  | endless
deriving DecidableEq, Repr

/-! ## Nodes -/

/-- The node of a variable once the value of a client was cleared. -/
def cleared
    (id : Nat)
    (node : EnvVar) : EnvVar :=
  match node.envValue id with
  | none => node
  | some _ =>
      { node with
        envValue := Function.update node.envValue id none
        userNum := if 0 ≤ node.userNum then node.userNum - 1 else node.userNum }

/-- Clearing the value of a client frees the node. -/
def Frees
    (id : Nat)
    (node : EnvVar) : Prop :=
  (node.envValue id).isSome ∧ (cleared id node).userNum = 0

namespace Heap

/-- A read through a pointer. -/
def load
    (heap : Heap)
    (pointer : Option Nat) : Except Fault Cell :=
  match pointer with
  | none => .error .null
  | some address =>
      if heap.freed address then
        .error (.freed address)
      else
        .ok (heap.cells address)

/-- A write through a pointer. -/
def store
    (heap : Heap)
    (pointer : Option Nat)
    (cell : Cell) : Except Fault Heap :=
  match pointer with
  | none => .error .null
  | some address =>
      if heap.freed address then
        .error (.freed address)
      else
        .ok { heap with cells := Function.update heap.cells address cell }

/-- `free`. -/
def free
    (heap : Heap)
    (address : Nat) : Except Fault Heap :=
  if heap.freed address then
    .error (.freed address)
  else
    .ok { heap with freed := Function.update heap.freed address true }

/-- `malloc`, with the cell that is stored there. -/
def alloc
    (heap : Heap)
    (cell : Cell) : Heap × Nat :=
  ({ heap with
      cells := Function.update heap.cells heap.size cell
      size := heap.size + 1 },
    heap.size)

/-! ## The source functions -/

/-- `create_env_var_node`. -/
def createEnvVarNode
    (heap : Heap)
    (userNum : Int)
    (name : Option String)
    (value : String)
    (id : Int) : Heap × Nat :=
  heap.alloc
    { userNum := userNum
      envName := name
      envValue := fun i =>
        if (i : Int) = id ∧ i ≤ maxClientNum then some value else none
      next := none }

/-- `initial_env_var`; the head is at address 0. -/
def initialEnvVar : Heap :=
  let none :=
    { userNum := -1, envName := none, envValue := fun _ => none, next := none }
  let (heap, tmp) :=
    createEnvVarNode
      { cells := fun _ => none, freed := fun _ => false, size := 0 } (-1) .none
      "" (-1)
  let (heap, path) := heap.createEnvVarNode (-1) "PATH" "" (-1)
  { heap with
    cells :=
      Function.update heap.cells tmp { heap.cells tmp with next := path } }

/-- The part of `set_env` for a node of the right name. -/
def setValue
    (cell : Cell)
    (value : String)
    (id : Nat) : Cell :=
  match cell.envValue id with
  | none =>
      { cell with
        envValue := Function.update cell.envValue id (some value)
        userNum := if 0 ≤ cell.userNum then cell.userNum + 1 else cell.userNum }
  | some old =>
      if old = value then
        cell
      else
        { cell with envValue := Function.update cell.envValue id (some value) }

/-- The loop of `set_env`. -/
def setEnvLoop
    (name value : String)
    (id : Nat) :
    Nat → Heap → Option Nat → Option Nat → Except Fault Heap
  | 0, _, _, _ => .error .endless
  | _ + 1, heap, pre, none => do
      let (heap, tmp) := heap.createEnvVarNode 1 name value id
      let cell ← heap.load pre
      heap.store pre { cell with next := tmp }
  | fuel + 1, heap, pre, some pos => do
      let cell ← heap.load (some pos)
      if some name = cell.envName then
        heap.store (some pos) (setValue cell value id)
      else
        let before ← heap.load pre
        setEnvLoop name value id fuel heap before.next cell.next

/-- `set_env` on the list; the loop ends within as many rounds as there are
cells. -/
def setEnv
    (heap : Heap)
    (name value : String)
    (id : Nat) : Except Fault Heap := do
  let head ← heap.load (some 0)
  setEnvLoop name value id (heap.size + 1) heap (some 0) head.next

/-- The body of the loop of `delete_env_var`, up to the moves of the pointers. -/
def deleteValue
    (id : Nat)
    (heap : Heap)
    (pre : Option Nat)
    (pos : Nat) : Except Fault Heap := do
  let cell ← heap.load (some pos)
  if (cell.envValue id).isSome then
    let cleared :=
      { cell with
        envValue := Function.update cell.envValue id none
        userNum := if 0 ≤ cell.userNum then cell.userNum - 1 else cell.userNum }
    let heap ← heap.store (some pos) cleared
    if cleared.userNum = 0 then
      let before ← heap.load pre
      let heap ← heap.store pre { before with next := cleared.next }
      heap.free pos
    else
      .ok heap
  else
    .ok heap

/-- The loop of `delete_env_var`. -/
def deleteEnvLoop (id : Nat) :
    Nat → Heap → Option Nat → Option Nat → Except Fault Heap
  | 0, _, _, _ => .error .endless
  | _ + 1, heap, _, none => .ok heap
  | fuel + 1, heap, pre, some pos => do
      let heap ← heap.deleteValue id pre pos
      let cell ← heap.load (some pos)
      let before ← heap.load pre
      deleteEnvLoop id fuel heap before.next cell.next

/-- `delete_env_var`. -/
def deleteEnvVar
    (heap : Heap)
    (id : Nat) : Except Fault Heap := do
  let head ← heap.load (some 0)
  deleteEnvLoop id (heap.size + 1) heap (some 0) head.next

/-! ## Lists in the heap -/

/-- The cell of a node. -/
def cellOf
    (node : EnvVar)
    (next : Option Nat) : Cell where
  userNum := node.userNum
  envName := some node.envName
  envValue := node.envValue
  next := next

/-- The nodes that are reached from a pointer, with their addresses; none of
them was freed. -/
def Chain
    (heap : Heap) :
    Option Nat → List (Nat × EnvVar) → Prop
  | start, [] => start = none
  | start, (address, node) :: rest =>
      start = some address ∧
        heap.freed address = false ∧
        ∃ next,
          heap.cells address = cellOf node next ∧ heap.Chain next rest

/-- The nodes that are reached from the head. -/
def Lists
    (heap : Heap)
    (entries : List (Nat × EnvVar)) : Prop :=
  heap.freed 0 = false ∧ heap.Chain (heap.cells 0).next entries

theorem load_of_live
    {heap : Heap}
    {address : Nat}
    (live : heap.freed address = false) :
    heap.load (some address) = .ok (heap.cells address) := by
  simp [load, live]

/-- The heap with another cell at an address. -/
def put
    (heap : Heap)
    (address : Nat)
    (cell : Cell) : Heap :=
  { heap with cells := Function.update heap.cells address cell }

@[simp] theorem freed_put
    (heap : Heap)
    (address : Nat)
    (cell : Cell) :
    (heap.put address cell).freed = heap.freed :=
  rfl

@[simp] theorem cells_put_self
    (heap : Heap)
    (address : Nat)
    (cell : Cell) :
    (heap.put address cell).cells address = cell :=
  Function.update_self ..

theorem cells_put_of_ne
    (heap : Heap)
    {address other : Nat}
    (different : other ≠ address)
    (cell : Cell) :
    (heap.put address cell).cells other = heap.cells other :=
  Function.update_of_ne different ..

theorem put_cells
    (heap : Heap)
    (address : Nat) :
    heap.put address (heap.cells address) = heap := by
  simp [put]

theorem store_of_live
    {heap : Heap}
    {address : Nat}
    (live : heap.freed address = false)
    (cell : Cell) :
    heap.store (some address) cell = .ok (heap.put address cell) := by
  simp [store, put, live]

/-- A list depends on its own cells only. -/
theorem Chain.congr
    {heap after : Heap}
    {start : Option Nat}
    {entries : List (Nat × EnvVar)}
    (chain : heap.Chain start entries)
    (freed : after.freed = heap.freed)
    (cells :
      ∀ address ∈ entries.map Prod.fst,
        after.cells address = heap.cells address) :
    after.Chain start entries := by
  induction entries generalizing start with
  | nil => exact chain
  | cons entry rest inductionHypothesis =>
      obtain ⟨address, node⟩ := entry
      obtain ⟨here, live, next, cell, later⟩ := chain
      refine ⟨here, by rw [freed, live], next, ?_, ?_⟩
      · rw [cells address (by simp), cell]
      · exact
          inductionHypothesis later fun other member =>
            cells other (List.mem_cons_of_mem _ member)

/-- A list does not depend on the cells in front of it. -/
theorem Chain.put
    {heap : Heap}
    {start : Option Nat}
    {entries : List (Nat × EnvVar)}
    (chain : heap.Chain start entries)
    {address : Nat}
    (outside : address ∉ entries.map Prod.fst)
    (cell : Cell) :
    (heap.put address cell).Chain start entries :=
  chain.congr rfl fun other member =>
    heap.cells_put_of_ne
      (fun same => outside (by rwa [← same])) cell

/-! ## `set_env` on the heap -/

theorem setValue_cellOf
    (node : EnvVar)
    (next : Option Nat)
    (value : String)
    (id : Nat) :
    setValue (cellOf node next) value id = cellOf (node.store value id) next := by
  cases held : node.envValue id with
  | none =>
      simp only [setValue, EnvVar.store, cellOf, held]
      rfl
  | some old =>
      by_cases same : old = value <;>
        simp [setValue, EnvVar.store, cellOf, held, same]

/-- The rest of a list after a variable was set: the cell in front of it may get
a new pointer, and the last node may be new. -/
structure SetFrom
    (heap after : Heap)
    (before : Nat)
    (entries later : List (Nat × EnvVar)) : Prop where
  front :
    ∃ start,
      after.cells before = { heap.cells before with next := start } ∧
        after.Chain start later
  freed : after.freed = heap.freed
  addresses :
    later.map Prod.fst = entries.map Prod.fst ∧ after.size = heap.size ∨
      later.map Prod.fst = entries.map Prod.fst ++ [heap.size] ∧
        after.size = heap.size + 1
  outside :
    ∀ address,
      address ≠ before →
      address ∉ entries.map Prod.fst →
      address ≠ heap.size →
        after.cells address = heap.cells address

/-- `set_env` adds a node behind the last one. -/
theorem setEnvLoop_nil
    {heap : Heap}
    {before id : Nat}
    (name value : String)
    (inRange : id ≤ maxClientNum)
    (beforeLive : heap.freed before = false)
    (old : before < heap.size)
    (fresh : heap.freed heap.size = false)
    (fuel : Nat) :
    ∃ after address,
      setEnvLoop name value id (fuel + 1) heap (some before) none = .ok after ∧
        heap.SetFrom after before []
          [(address, Shell.createEnvVarNode 1 name value id)] := by
  have different : before ≠ heap.size := Nat.ne_of_lt old
  let grown : Heap := (heap.createEnvVarNode 1 name value id).1
  have grownLive : grown.freed before = false := beforeLive
  have grownCell : grown.cells before = heap.cells before := by
    simp [grown, createEnvVarNode, alloc, different]
  have newCell :
      grown.cells heap.size =
        cellOf (Shell.createEnvVarNode 1 name value id) none := by
    simp only [grown, createEnvVarNode, alloc, Function.update_self, cellOf,
      Shell.createEnvVarNode, Cell.mk.injEq, and_true, true_and]
    funext i
    by_cases same : i = id
    · subst same
      simp [inRange]
    · have differentInt : (i : Int) ≠ id := by exact_mod_cast same
      simp [same, differentInt]
  refine
    ⟨grown.put before { heap.cells before with next := heap.size },
      heap.size, ?_, ?_⟩
  · change
      (do
        let cell ← grown.load (some before)
        grown.store (some before) { cell with next := heap.size }) = _
    rw [load_of_live grownLive, grownCell]
    exact store_of_live grownLive _
  · constructor
    case front =>
      refine
        ⟨some heap.size, grown.cells_put_self .., rfl, fresh, none, ?_, rfl⟩
      rw [grown.cells_put_of_ne different.symm, newCell]
    case freed => rfl
    case addresses => exact .inr ⟨rfl, rfl⟩
    case outside =>
      intro address notBefore _ notNew
      rw [grown.cells_put_of_ne notBefore]
      exact Function.update_of_ne notNew ..

/-- `set_env` on the heap follows the list. -/
theorem setEnvLoop_chain
    {heap : Heap}
    {before id fuel : Nat}
    {entries : List (Nat × EnvVar)}
    (name value : String)
    (inRange : id ≤ maxClientNum)
    (enough : entries.length < fuel)
    (chain : heap.Chain (heap.cells before).next entries)
    (distinct : (before :: entries.map Prod.fst).Nodup)
    (beforeLive : heap.freed before = false)
    (old : ∀ address ∈ before :: entries.map Prod.fst, address < heap.size)
    (fresh : heap.freed heap.size = false) :
    ∃ after later,
      setEnvLoop name value id fuel heap (some before)
          (heap.cells before).next = .ok after ∧
        heap.SetFrom after before entries later ∧
        later.map Prod.snd =
          setEnvVar name value id (entries.map Prod.snd) := by
  induction entries generalizing before fuel with
  | nil =>
      obtain ⟨fuel, rfl⟩ :=
        Nat.exists_eq_succ_of_ne_zero (Nat.ne_zero_of_lt enough)
      obtain ⟨after, address, run, setFrom⟩ :=
        setEnvLoop_nil name value inRange beforeLive (old before (by simp))
          fresh fuel
      have last : (heap.cells before).next = none := chain
      rw [last]
      exact ⟨after, _, run, setFrom, rfl⟩
  | cons entry rest inductionHypothesis =>
      obtain ⟨fuel, rfl⟩ :=
        Nat.exists_eq_succ_of_ne_zero (Nat.ne_zero_of_lt enough)
      obtain ⟨address, node⟩ := entry
      obtain ⟨here, live, next, cell, later⟩ := chain
      have distinctRest : (address :: rest.map Prod.fst).Nodup :=
        (List.nodup_cons.mp distinct).2
      have notAhead : before ∉ address :: rest.map Prod.fst :=
        (List.nodup_cons.mp distinct).1
      have different : before ≠ address :=
        (List.ne_of_not_mem_cons notAhead)
      have nodeNext : (heap.cells address).next = next := by rw [cell]; rfl
      rw [here]
      by_cases found : name = node.envName
      · refine
          ⟨heap.put address (cellOf (node.store value id) next),
            (address, node.store value id) :: rest, ?_, ?_, ?_⟩
        · simp only [setEnvLoop, load_of_live live, cell, bind, Except.bind]
          rw [if_pos (show some name = (cellOf node next).envName by
            rw [found]; rfl), setValue_cellOf]
          exact store_of_live live _
        · constructor
          case front =>
            refine
              ⟨some address, ?_, rfl, live, next, heap.cells_put_self ..,
                later.put (List.nodup_cons.mp distinctRest).1 _⟩
            rw [heap.cells_put_of_ne different, ← here]
          case freed => rfl
          case addresses => exact .inl ⟨rfl, rfl⟩
          case outside =>
            intro other _ outside _
            exact
              heap.cells_put_of_ne (List.ne_of_not_mem_cons outside) _
        · simp [setEnvVar, found]
      · have chainRest : heap.Chain (heap.cells address).next rest := by
          rwa [nodeNext]
        obtain ⟨after, later', run, setFrom, nodes⟩ :=
          inductionHypothesis (Nat.lt_of_succ_lt_succ enough) chainRest
            distinctRest live
            fun other member => old other (List.mem_cons_of_mem _ member)
        obtain ⟨start, front, chainLater⟩ := setFrom.front
        refine ⟨after, (address, node) :: later', ?_, ?_, ?_⟩
        · have step :
              setEnvLoop name value id (fuel + 1) heap (some before)
                  (some address) =
                setEnvLoop name value id fuel heap (some address) next := by
            have notNamed : some name ≠ (cellOf node next).envName := by
              simpa [cellOf] using found
            simp only [setEnvLoop, load_of_live live, load_of_live beforeLive,
              cell, here, bind, Except.bind, if_neg notNamed]
            rfl
          rw [nodeNext] at run
          exact step.trans run
        · constructor
          case front =>
            refine ⟨some address, ?_, rfl, ?_, start, ?_, chainLater⟩
            · rw [setFrom.outside before different
                (fun member => notAhead (List.mem_cons_of_mem _ member))
                (Nat.ne_of_lt (old before (by simp)))]
              rw [← here]
            · rw [setFrom.freed, live]
            · rw [front, cell]
              rfl
          case freed => exact setFrom.freed
          case addresses =>
            rcases setFrom.addresses with ⟨same, size⟩ | ⟨more, size⟩
            · exact .inl ⟨by simp [same], size⟩
            · exact .inr ⟨by simp [more], size⟩
          case outside =>
            intro other notBefore outside notNew
            rw [List.map_cons, List.mem_cons, not_or] at outside
            exact setFrom.outside other outside.1 outside.2 notNew
        · have notFound : ¬ name = node.envName := found
          simp only [List.map_cons, setEnvVar, if_neg notFound, nodes]

/-! ## `delete_env_var` on the heap -/

/-- A node that is not freed is cleared in place. -/
theorem deleteValue_kept
    {heap : Heap}
    {address id : Nat}
    {node : EnvVar}
    {next : Option Nat}
    (before : Nat)
    (live : heap.freed address = false)
    (cell : heap.cells address = cellOf node next)
    (kept : ¬ Frees id node) :
    heap.deleteValue id (some before) address =
      .ok (heap.put address (cellOf (cleared id node) next)) := by
  cases held : node.envValue id with
  | none =>
      have absent : ((cellOf node next).envValue id).isSome = false := by
        simp [cellOf, held]
      have unchanged :
          heap.put address (cellOf (cleared id node) next) = heap := by
        simp only [cleared, held, ← cell, put_cells]
      simp only [deleteValue, load_of_live live, cell, bind, Except.bind,
        absent, Bool.false_eq_true, if_false, unchanged]
  | some value =>
      have present : ((cellOf node next).envValue id).isSome = true := by
        simp [cellOf, held]
      have several : (cleared id node).userNum ≠ 0 :=
        fun last => kept ⟨by simp [held], last⟩
      simp only [cleared, held] at several ⊢
      simp only [deleteValue, load_of_live live, cell, bind, Except.bind,
        present, if_true, store_of_live live]
      exact if_neg several

/-- After a node that is not freed, the next round starts behind it. -/
theorem deleteEnvLoop_cons
    {heap : Heap}
    {before address id : Nat}
    {node : EnvVar}
    {next : Option Nat}
    (different : before ≠ address)
    (live : heap.freed address = false)
    (beforeLive : heap.freed before = false)
    (linked : (heap.cells before).next = some address)
    (cell : heap.cells address = cellOf node next)
    (kept : ¬ Frees id node)
    (fuel : Nat) :
    deleteEnvLoop id (fuel + 1) heap (some before) (some address) =
      deleteEnvLoop id fuel (heap.put address (cellOf (cleared id node) next))
        (some address) next := by
  let middle : Heap := heap.put address (cellOf (cleared id node) next)
  have middleLive : middle.freed address = false := live
  have middleBefore : middle.freed before = false := beforeLive
  have middleLinked : (middle.cells before).next = some address := by
    rw [heap.cells_put_of_ne different, linked]
  have middleCell : middle.cells address = cellOf (cleared id node) next :=
    heap.cells_put_self ..
  simp only [deleteEnvLoop, deleteValue_kept before live cell kept, bind,
    Except.bind]
  change
    (do
      let cell ← middle.load (some address)
      let before ← middle.load (some before)
      deleteEnvLoop id fuel middle before.next cell.next) = _
  simp only [load_of_live middleLive, load_of_live middleBefore, bind,
    Except.bind, middleLinked, middleCell]
  rfl

/-- A node that is freed leaves a freed cell under the pointer of the loop. -/
theorem deleteValue_freed
    {heap : Heap}
    {before address id : Nat}
    {node : EnvVar}
    {next : Option Nat}
    (different : before ≠ address)
    (live : heap.freed address = false)
    (beforeLive : heap.freed before = false)
    (cell : heap.cells address = cellOf node next)
    (last : Frees id node) :
    ∃ after,
      heap.deleteValue id (some before) address = .ok after ∧
        after.freed address = true := by
  obtain ⟨present, lastHolder⟩ := last
  obtain ⟨value, held⟩ := Option.isSome_iff_exists.mp present
  have presentCell : ((cellOf node next).envValue id).isSome = true := present
  simp only [cleared, held] at lastHolder
  let clearedHeap : Heap :=
    heap.put address
      { cellOf node next with
        envValue := Function.update node.envValue id none
        userNum := if 0 ≤ node.userNum then node.userNum - 1 else node.userNum }
  let unlinked : Heap :=
    clearedHeap.put before { heap.cells before with next := next }
  refine
    ⟨{ unlinked with freed := Function.update unlinked.freed address true },
      ?_, Function.update_self ..⟩
  have clearedLive : clearedHeap.freed before = false := beforeLive
  have beforeCell : clearedHeap.cells before = heap.cells before :=
    heap.cells_put_of_ne different _
  have unlinkedLive : unlinked.freed address = false := live
  simp only [deleteValue, load_of_live live, cell, bind, Except.bind,
    presentCell, if_true, store_of_live live]
  refine (if_pos lastHolder).trans ?_
  change
    (do
      let cell ← clearedHeap.load (some before)
      let heap ← clearedHeap.store (some before) { cell with next := next }
      heap.free address) = _
  rw [load_of_live clearedLive]
  simp only [bind, Except.bind, store_of_live clearedLive, beforeCell]
  have notFreed : ¬ unlinked.freed address = true := by
    rw [unlinkedLive]
    exact Bool.false_ne_true
  exact if_neg notFreed

/-- As long as no node is freed, the loop clears the values in place. -/
theorem deleteEnvLoop_kept
    {heap : Heap}
    {before id fuel : Nat}
    {entries : List (Nat × EnvVar)}
    (enough : entries.length < fuel)
    (chain : heap.Chain (heap.cells before).next entries)
    (distinct : (before :: entries.map Prod.fst).Nodup)
    (beforeLive : heap.freed before = false)
    (kept : ∀ entry ∈ entries, ¬ Frees id entry.2) :
    ∃ after,
      deleteEnvLoop id fuel heap (some before) (heap.cells before).next =
          .ok after ∧
        after.Chain (heap.cells before).next
          (entries.map fun entry => (entry.1, cleared id entry.2)) ∧
        after.freed = heap.freed ∧
        after.size = heap.size ∧
        ∀ address ∉ entries.map Prod.fst,
          after.cells address = heap.cells address := by
  induction entries generalizing heap before fuel with
  | nil =>
      obtain ⟨fuel, rfl⟩ :=
        Nat.exists_eq_succ_of_ne_zero (Nat.ne_zero_of_lt enough)
      have last : (heap.cells before).next = none := chain
      rw [last]
      exact ⟨heap, rfl, rfl, rfl, rfl, fun _ _ => rfl⟩
  | cons entry rest inductionHypothesis =>
      obtain ⟨fuel, rfl⟩ :=
        Nat.exists_eq_succ_of_ne_zero (Nat.ne_zero_of_lt enough)
      obtain ⟨address, node⟩ := entry
      obtain ⟨here, live, next, cell, later⟩ := chain
      obtain ⟨notAhead, distinctRest⟩ := List.nodup_cons.mp distinct
      have different : before ≠ address := List.ne_of_not_mem_cons notAhead
      have notLater : address ∉ rest.map Prod.fst :=
        (List.nodup_cons.mp distinctRest).1
      let middle : Heap := heap.put address (cellOf (cleared id node) next)
      have middleNext : (middle.cells address).next = next := by
        rw [heap.cells_put_self]
        rfl
      have middleRest : middle.Chain (middle.cells address).next rest := by
        rw [middleNext]
        exact later.put notLater _
      obtain ⟨after, run, chainAfter, freed, size, outside⟩ :=
        inductionHypothesis (Nat.lt_of_succ_lt_succ enough) middleRest
          distinctRest live
          fun entry member => kept entry (List.mem_cons_of_mem _ member)
      rw [middleNext] at run chainAfter
      refine ⟨after, ?_, ?_, freed, size, ?_⟩
      · rw [here]
        exact
          (deleteEnvLoop_cons different live beforeLive here cell
            (kept _ List.mem_cons_self) fuel).trans run
      · refine ⟨here, by rw [freed]; exact live, next, ?_, chainAfter⟩
        rw [outside address notLater]
        exact heap.cells_put_self ..
      · intro other notHere
        rw [List.map_cons, List.mem_cons, not_or] at notHere
        rw [outside other notHere.2]
        exact heap.cells_put_of_ne notHere.1 _

/-- The first node that is freed is read after that. -/
theorem deleteEnvLoop_freed
    {heap : Heap}
    {before id fuel : Nat}
    {entries : List (Nat × EnvVar)}
    (enough : entries.length < fuel)
    (chain : heap.Chain (heap.cells before).next entries)
    (distinct : (before :: entries.map Prod.fst).Nodup)
    (beforeLive : heap.freed before = false)
    (last : ∃ entry ∈ entries, Frees id entry.2) :
    ∃ address ∈ entries.map Prod.fst,
      deleteEnvLoop id fuel heap (some before) (heap.cells before).next =
        .error (.freed address) := by
  induction entries generalizing heap before fuel with
  | nil => simp at last
  | cons entry rest inductionHypothesis =>
      obtain ⟨fuel, rfl⟩ :=
        Nat.exists_eq_succ_of_ne_zero (Nat.ne_zero_of_lt enough)
      obtain ⟨address, node⟩ := entry
      obtain ⟨here, live, next, cell, later⟩ := chain
      obtain ⟨notAhead, distinctRest⟩ := List.nodup_cons.mp distinct
      have different : before ≠ address := List.ne_of_not_mem_cons notAhead
      have notLater : address ∉ rest.map Prod.fst :=
        (List.nodup_cons.mp distinctRest).1
      rw [here]
      by_cases freesHere : Frees id node
      · obtain ⟨after, run, freed⟩ :=
          deleteValue_freed different live beforeLive cell freesHere
        refine ⟨address, by simp, ?_⟩
        simp [deleteEnvLoop, run, bind, Except.bind, load, freed]
      · let middle : Heap := heap.put address (cellOf (cleared id node) next)
        have middleNext : (middle.cells address).next = next := by
          rw [heap.cells_put_self]
          rfl
        have middleRest : middle.Chain (middle.cells address).next rest := by
          rw [middleNext]
          exact later.put notLater _
        have lastLater : ∃ entry ∈ rest, Frees id entry.2 := by
          obtain ⟨entry, member, frees⟩ := last
          rcases List.mem_cons.mp member with rfl | laterMember
          · exact (freesHere frees).elim
          · exact ⟨entry, laterMember, frees⟩
        obtain ⟨found, member, run⟩ :=
          inductionHypothesis (Nat.lt_of_succ_lt_succ enough) middleRest
            distinctRest live lastLater
        rw [middleNext] at run
        exact
          ⟨found, List.mem_cons_of_mem _ member,
            (deleteEnvLoop_cons different live beforeLive here cell freesHere
              fuel).trans run⟩

end Heap

end NpServers.EnvHeap
