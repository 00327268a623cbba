import Mathlib.Data.Finset.Card
import NpServers.EnvHeap

namespace NpServers.EnvHeap

open NpServers.Shell

/-!
# The variables of a client that leaves

`user_num` counts the clients that hold a variable; it is -1 for `PATH`, which
is never removed.  When a client leaves, the variables that nobody else holds
are to be removed from the list.
-/

/-! ## Holders -/

/-- The clients that have a value of the variable. -/
def holders (node : EnvVar) : Finset Nat :=
  (Finset.range (maxClientNum + 1)).filter fun id => (node.envValue id).isSome

/-- Only this client holds the variable. -/
def SoleHolder
    (id : Nat)
    (node : EnvVar) : Prop :=
  node.envName ≠ "PATH" ∧ holders node = {id}

instance
    (id : Nat)
    (node : EnvVar) :
    Decidable (SoleHolder id node) :=
  inferInstanceAs (Decidable (_ ∧ _))

/-- `user_num` counts the holders, except for `PATH`. -/
def Counted (node : EnvVar) : Prop :=
  node.userNum =
    if node.envName = "PATH" then -1 else ((holders node).card : Int)

/-- A kept node without the value of a client that left. -/
def leftBy
    (id : Nat)
    (node : EnvVar) : EnvVar :=
  let kept := { node with envValue := Function.update node.envValue id none }
  { kept with
    userNum :=
      if node.envName = "PATH" then -1 else ((holders kept).card : Int) }

/-- The list that a client is to leave behind. -/
def departed
    (id : Nat)
    (entries : List (Nat × EnvVar)) : List (Nat × EnvVar) :=
  (entries.filter fun entry => ¬ SoleHolder id entry.2).map
    fun entry => (entry.1, leftBy id entry.2)

theorem mem_holders
    {node : EnvVar}
    {id : Nat}
    (inRange : id ≤ maxClientNum) :
    id ∈ holders node ↔ (node.envValue id).isSome := by
  simp [holders, Nat.lt_succ_of_le inRange]

theorem holders_update
    (node : EnvVar)
    (id userNum) :
    holders
        { node with
          envValue := Function.update node.envValue id none
          userNum := userNum } =
      (holders node).erase id := by
  ext other
  by_cases same : other = id
  · simp [holders, same]
  · simp [holders, same]

theorem holders_store
    (node : EnvVar)
    {id : Nat}
    (inRange : id ≤ maxClientNum)
    (value : String) :
    holders (node.store value id) = insert id (holders node) := by
  ext other
  by_cases same : other = id
  · subst same
    simp [holders, EnvVar.envValue_store, Nat.lt_succ_of_le inRange]
  · simp [holders, EnvVar.envValue_store, same]

/-- Storing a value keeps the count. -/
theorem counted_store
    {node : EnvVar}
    (counted : Counted node)
    {id : Nat}
    (inRange : id ≤ maxClientNum)
    (value : String) :
    Counted (node.store value id) := by
  unfold Counted at counted ⊢
  rw [EnvVar.envName_store, holders_store node inRange]
  cases held : node.envValue id with
  | none =>
      have absent : id ∉ holders node := by
        simp [mem_holders inRange, held]
      rw [Finset.card_insert_of_notMem absent]
      simp only [EnvVar.store, held]
      by_cases path : node.envName = "PATH"
      · simp [path] at counted ⊢
        simp [counted]
      · simp only [path, if_false] at counted ⊢
        rw [counted, if_pos (Int.natCast_nonneg _)]
        push_cast
        rfl
  | some old =>
      have present : id ∈ holders node := by
        simp [mem_holders inRange, held]
      rw [Finset.insert_eq_of_mem present, ← counted]
      simp only [EnvVar.store, held]
      split <;> rfl

/-- A node of one client has one holder. -/
theorem counted_createEnvVarNode
    {id : Nat}
    (inRange : id ≤ maxClientNum)
    {name : String}
    (notPath : name ≠ "PATH")
    (value : String) :
    Counted (Shell.createEnvVarNode 1 name value id) := by
  have single :
      holders (Shell.createEnvVarNode 1 name value id) = {id} := by
    ext other
    by_cases same : other = id
    · subst same
      simp [holders, Shell.createEnvVarNode, Nat.lt_succ_of_le inRange]
    · have absent :
          (Shell.createEnvVarNode 1 name value id).envValue other = none :=
        if_neg same
      rw [holders, Finset.mem_filter, absent]
      simp [same]
  unfold Counted
  rw [single]
  simp [Shell.createEnvVarNode, notPath]

/-- `set_env` keeps the counts. -/
theorem counted_setEnvVar
    {nodes : List EnvVar}
    (counted : ∀ node ∈ nodes, Counted node)
    {id : Nat}
    (inRange : id ≤ maxClientNum)
    {name : String}
    (tracked : name = "PATH" → name ∈ envNames nodes)
    (value : String) :
    ∀ node ∈ setEnvVar name value id nodes, Counted node := by
  induction nodes with
  | nil =>
      have notPath : name ≠ "PATH" := by simpa [envNames] using tracked
      intro node member
      rw [setEnvVar, List.mem_singleton] at member
      rw [member]
      exact counted_createEnvVarNode inRange notPath value
  | cons first rest inductionHypothesis =>
      intro node member
      unfold setEnvVar at member
      split at member
      case isTrue =>
        rcases List.mem_cons.mp member with rfl | later
        · exact counted_store (counted first (by simp)) inRange value
        · exact counted node (List.mem_cons_of_mem _ later)
      case isFalse notFound =>
        rcases List.mem_cons.mp member with rfl | later
        · exact counted _ (by simp)
        · refine
            inductionHypothesis
              (fun other here => counted other (List.mem_cons_of_mem _ here))
              (fun path => ?_) node later
          exact
            (List.mem_cons.mp (tracked path)).resolve_left notFound

/-- Clearing a value keeps the count. -/
theorem cleared_eq_leftBy
    {node : EnvVar}
    (counted : Counted node)
    {id : Nat}
    (inRange : id ≤ maxClientNum) :
    cleared id node = leftBy id node := by
  unfold Counted at counted
  simp only [leftBy, holders_update]
  cases held : node.envValue id with
  | none =>
      have absent : id ∉ holders node := by
        simp [mem_holders inRange, held]
      have unchanged : Function.update node.envValue id none = node.envValue := by
        rw [← held, Function.update_eq_self]
      rw [Finset.erase_eq_of_notMem absent, unchanged, ← counted]
      simp only [cleared, held]
  | some value =>
      have present : id ∈ holders node := by
        simp [mem_holders inRange, held]
      have some_holder : 0 < (holders node).card :=
        Finset.card_pos.mpr ⟨id, present⟩
      simp only [cleared, held, EnvVar.mk.injEq, and_true]
      rw [Finset.card_erase_of_mem present]
      by_cases path : node.envName = "PATH"
      · simp only [path, if_true] at counted ⊢
        simp [counted]
      · simp only [path, if_false] at counted ⊢
        omega

/-- A node is freed when the client is its only holder. -/
theorem frees_iff
    {node : EnvVar}
    (counted : Counted node)
    {id : Nat}
    (inRange : id ≤ maxClientNum) :
    Frees id node ↔ SoleHolder id node := by
  unfold Frees SoleHolder
  rw [cleared_eq_leftBy counted inRange, ← mem_holders inRange]
  simp only [leftBy, holders_update]
  by_cases path : node.envName = "PATH"
  · simp [path]
  · simp only [path, if_false, Int.natCast_eq_zero, Finset.card_eq_zero,
      ne_eq, not_false_eq_true, true_and]
    constructor
    · rintro ⟨present, last⟩
      rw [← Finset.insert_erase present, last]
      rfl
    · intro single
      simp [single]

/-! ## Sequences of calls -/

/-- The heaps that calls with ids of clients lead to. -/
inductive Built : Heap → Prop where
  | initialEnvVar : Built Heap.initialEnvVar
  | setEnv
      {heap after : Heap}
      {name value : String}
      {id : Nat}
      (built : Built heap)
      (inRange : id ≤ maxClientNum)
      (called : heap.setEnv name value id = .ok after) :
      Built after
  | deleteEnvVar
      {heap after : Heap}
      {id : Nat}
      (built : Built heap)
      (inRange : id ≤ maxClientNum)
      (called : heap.deleteEnvVar id = .ok after) :
      Built after

/-- What holds of the list between two calls. -/
structure Sound
    (heap : Heap)
    (entries : List (Nat × EnvVar)) : Prop where
  lists : heap.Lists entries
  unfreed : ∀ address, heap.freed address = false
  distinct : (0 :: entries.map Prod.fst).Nodup
  old : ∀ address ∈ 0 :: entries.map Prod.fst, address < heap.size
  path : "PATH" ∈ envNames (entries.map Prod.snd)
  counted : ∀ node ∈ entries.map Prod.snd, Counted node

/-- The loops have a round for each node. -/
theorem Sound.length_lt
    {heap : Heap}
    {entries : List (Nat × EnvVar)}
    (sound : Sound heap entries) :
    entries.length < heap.size + 1 := by
  have within : entries.map Prod.fst ⊆ List.range heap.size :=
    fun address member =>
      List.mem_range.mpr (sound.old address (List.mem_cons_of_mem _ member))
  have bound :=
    ((List.nodup_cons.mp sound.distinct).2.subperm within).length_le
  rw [List.length_map, List.length_range] at bound
  exact Nat.lt_succ_of_le bound

theorem sound_initialEnvVar :
    Sound Heap.initialEnvVar
      [(1, { userNum := -1, envName := "PATH", envValue := fun _ => none })]
    where
  lists := by
    refine ⟨rfl, rfl, rfl, none, ?_, rfl⟩
    simp [Heap.initialEnvVar, Heap.createEnvVarNode, Heap.alloc, Heap.cellOf]
  unfreed := fun _ => rfl
  distinct := by decide
  old := by decide
  path := by decide
  counted := by
    intro node member
    rw [List.map_singleton, List.mem_singleton] at member
    rw [member]
    rfl

/-- `set_env` is defined on every list. -/
theorem Sound.setEnv
    {heap : Heap}
    {entries : List (Nat × EnvVar)}
    (sound : Sound heap entries)
    {id : Nat}
    (inRange : id ≤ maxClientNum)
    (name value : String) :
    ∃ after later,
      heap.setEnv name value id = .ok after ∧
        Sound after later ∧
        later.map Prod.snd =
          setEnvVar name value id (entries.map Prod.snd) := by
  obtain ⟨headLive, chain⟩ := sound.lists
  obtain ⟨after, later, run, setFrom, nodes⟩ :=
    Heap.setEnvLoop_chain name value inRange sound.length_lt chain
      sound.distinct headLive sound.old (sound.unfreed heap.size)
  refine ⟨after, later, ?_, ?_, nodes⟩
  · simp only [Heap.setEnv, Heap.load_of_live headLive, bind, Except.bind]
    exact run
  · constructor
    case lists =>
      obtain ⟨start, front, chainLater⟩ := setFrom.front
      refine ⟨by rw [setFrom.freed, headLive], ?_⟩
      rw [front]
      exact chainLater
    case unfreed =>
      rw [setFrom.freed]
      exact sound.unfreed
    case distinct =>
      rcases setFrom.addresses with ⟨same, -⟩ | ⟨more, -⟩
      · rw [same]
        exact sound.distinct
      · rw [more, ← List.cons_append, List.nodup_append]
        refine ⟨sound.distinct, List.nodup_singleton _, ?_⟩
        intro address member new isNew
        rw [List.mem_singleton.mp isNew]
        exact Nat.ne_of_lt (sound.old address member)
    case old =>
      rcases setFrom.addresses with ⟨same, size⟩ | ⟨more, size⟩
      · rw [same, size]
        exact sound.old
      · intro address member
        rw [more, ← List.cons_append, List.mem_append] at member
        rw [size]
        rcases member with known | new
        · exact Nat.lt_succ_of_lt (sound.old address known)
        · rw [List.mem_singleton.mp new]
          exact Nat.lt_succ_self _
    case path =>
      rw [nodes, envNames_setEnvVar]
      split
      · exact sound.path
      · exact List.mem_append_left _ sound.path
    case counted =>
      rw [nodes]
      exact
        counted_setEnvVar sound.counted inRange
          (fun path => path ▸ sound.path) value

/-- When a client is nobody's only holder, all nodes are kept. -/
theorem departed_of_others
    {id : Nat}
    {entries : List (Nat × EnvVar)}
    (others : ∀ entry ∈ entries, ¬ SoleHolder id entry.2) :
    departed id entries =
      entries.map fun entry => (entry.1, leftBy id entry.2) := by
  unfold departed
  rw [List.filter_eq_self.mpr fun entry member => by
    simpa using others entry member]

/-- A call that frees no node clears the values in place. -/
theorem Sound.deleteEnvVar_kept
    {heap : Heap}
    {entries : List (Nat × EnvVar)}
    (sound : Sound heap entries)
    {id : Nat}
    (inRange : id ≤ maxClientNum)
    (others : ∀ entry ∈ entries, ¬ SoleHolder id entry.2) :
    ∃ after,
      heap.deleteEnvVar id = .ok after ∧ Sound after (departed id entries) := by
  have counted : ∀ entry ∈ entries, Counted entry.2 :=
    fun entry member => sound.counted _ (List.mem_map_of_mem member)
  obtain ⟨headLive, chain⟩ := sound.lists
  obtain ⟨after, run, chainAfter, freed, size, outside⟩ :=
    Heap.deleteEnvLoop_kept sound.length_lt chain sound.distinct headLive
      fun entry member frees =>
        others entry member ((frees_iff (counted entry member) inRange).mp frees)
  have left :
      (entries.map fun entry => (entry.1, cleared id entry.2)) =
        departed id entries := by
    rw [departed_of_others others]
    refine List.map_congr_left fun entry member => ?_
    rw [cleared_eq_leftBy (counted entry member) inRange]
  have addresses :
      (departed id entries).map Prod.fst = entries.map Prod.fst := by
    rw [departed_of_others others, List.map_map]
    rfl
  have headOutside : 0 ∉ entries.map Prod.fst :=
    (List.nodup_cons.mp sound.distinct).1
  refine ⟨after, ?_, ?_⟩
  · simp only [Heap.deleteEnvVar, Heap.load_of_live headLive, bind, Except.bind]
    exact run
  · constructor
    case lists =>
      refine ⟨by rw [freed, headLive], ?_⟩
      rw [outside 0 headOutside, ← left]
      exact chainAfter
    case unfreed =>
      rw [freed]
      exact sound.unfreed
    case distinct =>
      rw [addresses]
      exact sound.distinct
    case old =>
      rw [addresses, size]
      exact sound.old
    case path =>
      rw [departed_of_others others, envNames, List.map_map, List.map_map]
      have path := sound.path
      rwa [envNames, List.map_map] at path
    case counted =>
      intro node member
      rw [← left, List.map_map, List.mem_map] at member
      obtain ⟨entry, here, rfl⟩ := member
      change Counted (cleared id entry.2)
      rw [cleared_eq_leftBy (counted entry here) inRange]
      rfl

/-- A call that frees a node reads it afterwards. -/
theorem Sound.deleteEnvVar_freed
    {heap : Heap}
    {entries : List (Nat × EnvVar)}
    (sound : Sound heap entries)
    {id : Nat}
    (inRange : id ≤ maxClientNum)
    (sole : ∃ entry ∈ entries, SoleHolder id entry.2) :
    ∃ address, heap.deleteEnvVar id = .error (.freed address) := by
  obtain ⟨headLive, chain⟩ := sound.lists
  obtain ⟨entry, member, soleHolder⟩ := sole
  have counted : Counted entry.2 :=
    sound.counted _ (List.mem_map_of_mem member)
  obtain ⟨address, -, run⟩ :=
    Heap.deleteEnvLoop_freed sound.length_lt chain sound.distinct headLive
      ⟨entry, member, (frees_iff counted inRange).mpr soleHolder⟩
  refine ⟨address, ?_⟩
  simp only [Heap.deleteEnvVar, Heap.load_of_live headLive, bind, Except.bind]
  exact run

/-- `delete_env_var` on lists clears all values or has no result. -/
theorem deleteEnvVar_eq
    (id : Nat)
    (nodes : List EnvVar) :
    (deleteEnvVar id nodes = some (nodes.map (cleared id)) ∧
        ∀ node ∈ nodes, ¬ Frees id node) ∨
      deleteEnvVar id nodes = none ∧ ∃ node ∈ nodes, Frees id node := by
  induction nodes with
  | nil => exact .inl ⟨rfl, by simp⟩
  | cons node rest inductionHypothesis =>
      have head :
          deleteEnvVar id (node :: rest) =
              (deleteEnvVar id rest).map (cleared id node :: ·) ∧
            ¬ Frees id node ∨
          deleteEnvVar id (node :: rest) = none ∧ Frees id node := by
        rw [deleteEnvVar]
        cases held : node.envValue id with
        | none => exact .inl ⟨by simp [cleared, held], by simp [Frees, held]⟩
        | some value =>
            by_cases last : (cleared id node).userNum = 0
            · have frees : Frees id node := ⟨by simp [held], last⟩
              simp only [cleared, held] at last
              exact .inr ⟨if_pos last, frees⟩
            · have kept : ¬ Frees id node := fun frees => last frees.2
              simp only [cleared, held] at last ⊢
              exact .inl ⟨if_neg last, kept⟩
      rcases head with ⟨head, keptHead⟩ | ⟨head, freesHead⟩
      · rcases inductionHypothesis with ⟨tail, keptTail⟩ | ⟨tail, freesTail⟩
        · refine .inl ⟨by rw [head, tail]; rfl, ?_⟩
          intro other member
          rcases List.mem_cons.mp member with rfl | later
          · exact keptHead
          · exact keptTail other later
        · obtain ⟨other, member, frees⟩ := freesTail
          exact
            .inr
              ⟨by rw [head, tail]; rfl, other,
                List.mem_cons_of_mem _ member, frees⟩
      · exact .inr ⟨head, node, by simp, freesHead⟩

/-- `delete_env_var` on the heap has the result that it has on lists. -/
theorem Sound.deleteEnvVar_refines
    {heap : Heap}
    {entries : List (Nat × EnvVar)}
    (sound : Sound heap entries)
    {id : Nat}
    (inRange : id ≤ maxClientNum) :
    (∃ after later,
        heap.deleteEnvVar id = .ok after ∧
          Sound after later ∧
          deleteEnvVar id (entries.map Prod.snd) =
            some (later.map Prod.snd)) ∨
      (∃ address, heap.deleteEnvVar id = .error (.freed address)) ∧
        deleteEnvVar id (entries.map Prod.snd) = none := by
  rcases deleteEnvVar_eq id (entries.map Prod.snd) with
    ⟨list, kept⟩ | ⟨list, node, member, frees⟩
  · have others : ∀ entry ∈ entries, ¬ SoleHolder id entry.2 :=
      fun entry member sole =>
        kept entry.2 (List.mem_map_of_mem member)
          ((frees_iff (sound.counted _ (List.mem_map_of_mem member))
            inRange).mpr sole)
    obtain ⟨after, run, soundAfter⟩ := sound.deleteEnvVar_kept inRange others
    refine .inl ⟨after, _, run, soundAfter, ?_⟩
    rw [list, departed_of_others others, List.map_map, List.map_map]
    congr 1
    refine List.map_congr_left fun entry here => ?_
    exact
      cleared_eq_leftBy (sound.counted _ (List.mem_map_of_mem here)) inRange
  · obtain ⟨entry, here, rfl⟩ := List.mem_map.mp member
    exact
      .inr
        ⟨sound.deleteEnvVar_freed inRange
            ⟨entry, here, (frees_iff (sound.counted _ member) inRange).mp
              frees⟩,
          list⟩

/-- Every list that the calls build is sound. -/
theorem Built.sound
    {heap : Heap}
    (built : Built heap) :
    ∃ entries, Sound heap entries := by
  induction built with
  | initialEnvVar => exact ⟨_, sound_initialEnvVar⟩
  | @setEnv heap after name value id _ inRange called inductionHypothesis =>
      obtain ⟨entries, sound⟩ := inductionHypothesis
      obtain ⟨next, later, run, soundLater, -⟩ :=
        sound.setEnv inRange name value
      rw [called, Except.ok.injEq] at run
      exact ⟨later, run ▸ soundLater⟩
  | @deleteEnvVar heap after id _ inRange called inductionHypothesis =>
      obtain ⟨entries, sound⟩ := inductionHypothesis
      by_cases others : ∀ entry ∈ entries, ¬ SoleHolder id entry.2
      · obtain ⟨next, run, soundNext⟩ :=
          sound.deleteEnvVar_kept inRange others
        rw [called, Except.ok.injEq] at run
        exact ⟨_, run ▸ soundNext⟩
      · push Not at others
        obtain ⟨address, run⟩ := sound.deleteEnvVar_freed inRange others
        rw [called] at run
        cases run

/-- A heap has one list. -/
theorem chain_unique
    {heap : Heap}
    {start : Option Nat}
    {entries others : List (Nat × EnvVar)}
    (chain : heap.Chain start entries)
    (other : heap.Chain start others) :
    entries = others := by
  induction entries generalizing start others with
  | nil =>
      cases others with
      | nil => rfl
      | cons entry rest =>
          have nothing : start = none := chain
          obtain ⟨here, -⟩ := other
          rw [nothing] at here
          cases here
  | cons entry rest inductionHypothesis =>
      obtain ⟨address, node⟩ := entry
      obtain ⟨here, -, next, cell, later⟩ := chain
      cases others with
      | nil =>
          have nothing : start = none := other
          rw [nothing] at here
          cases here
      | cons second remaining =>
          obtain ⟨otherAddress, otherNode⟩ := second
          obtain ⟨otherHere, -, otherNext, otherCell, otherLater⟩ := other
          rw [here, Option.some.injEq] at otherHere
          subst otherHere
          rw [cell] at otherCell
          simp only [Heap.cellOf, Cell.mk.injEq, Option.some.injEq]
            at otherCell
          obtain ⟨sameNum, sameName, sameValue, rfl⟩ := otherCell
          have sameNode : node = otherNode := by
            cases node
            cases otherNode
            cases sameNum
            cases sameName
            cases sameValue
            rfl
          rw [sameNode, inductionHypothesis later otherLater]

/-! ## What a leaving client leaves behind -/

/-- `delete_env_var` touches no freed cell and removes exactly the variables
that only this client holds. -/
def DeletesExactly
    (heap : Heap)
    (id : Nat) : Prop :=
  ∃ entries after,
    heap.Lists entries ∧
      heap.deleteEnvVar id = .ok after ∧
      after.Lists (departed id entries)

/-- Somebody else holds each variable of the client. -/
def AllShared
    (heap : Heap)
    (id : Nat) : Prop :=
  ∀ entries,
    heap.Lists entries →
      ∀ entry ∈ entries, ¬ SoleHolder id entry.2

/-- `delete_env_var` works when it has nothing to remove. -/
theorem deletesExactly_iff
    {heap : Heap}
    (built : Built heap)
    {id : Nat}
    (inRange : id ≤ maxClientNum) :
    DeletesExactly heap id ↔ AllShared heap id := by
  obtain ⟨entries, sound⟩ := built.sound
  constructor
  · rintro ⟨-, after, -, run, -⟩ others lists entry member sole
    have same : entries = others := chain_unique sound.lists.2 lists.2
    rw [← same] at member
    obtain ⟨address, faulty⟩ :=
      sound.deleteEnvVar_freed inRange ⟨entry, member, sole⟩
    rw [run] at faulty
    cases faulty
  · intro shared
    obtain ⟨after, run, soundAfter⟩ :=
      sound.deleteEnvVar_kept inRange (shared entries sound.lists)
    exact ⟨entries, after, sound.lists, run, soundAfter.lists⟩

/-- Two clients set a variable, and one of them leaves. -/
theorem deletesExactly_iff_shared :
    ∃ middle heap,
      Heap.initialEnvVar.setEnv "TERM" "vt100" 1 = .ok middle ∧
        middle.setEnv "TERM" "xterm" 2 = .ok heap ∧
        DeletesExactly heap 1 := by
  have one : 1 ≤ maxClientNum := by decide
  have two : 2 ≤ maxClientNum := by decide
  obtain ⟨middle, entries, set, sound, nodes⟩ :=
    sound_initialEnvVar.setEnv one "TERM" "vt100"
  obtain ⟨heap, later, setAgain, soundLater, nodesLater⟩ :=
    sound.setEnv two "TERM" "xterm"
  have built : Built heap :=
    (Built.initialEnvVar.setEnv one set).setEnv two setAgain
  have others : ∀ node ∈ later.map Prod.snd, ¬ SoleHolder 1 node := by
    rw [nodesLater, nodes]
    decide +kernel
  refine ⟨middle, heap, set, setAgain, ?_⟩
  refine (deletesExactly_iff built one).mpr ?_
  intro reached lists entry member
  rw [← chain_unique soundLater.lists.2 lists.2] at member
  exact others entry.2 (List.mem_map_of_mem member)

/-- The only holder of a variable leaves. -/
theorem soleHolder_reads_freed :
    ∃ heap,
      Heap.initialEnvVar.setEnv "TERM" "vt100" 1 = .ok heap ∧
        Built heap ∧
        heap.deleteEnvVar 1 = .error (.freed 2) ∧
        ¬ DeletesExactly heap 1 := by
  have one : 1 ≤ maxClientNum := by decide
  have faulty :
      (Heap.initialEnvVar.setEnv "TERM" "vt100" 1).bind
        (·.deleteEnvVar 1) = .error (.freed 2) := by
    rfl
  obtain ⟨heap, entries, set, -⟩ :=
    sound_initialEnvVar.setEnv one "TERM" "vt100"
  rw [set] at faulty
  refine ⟨heap, set, Built.initialEnvVar.setEnv one set, faulty, ?_⟩
  rintro ⟨-, after, -, run, -⟩
  have deleted : heap.deleteEnvVar 1 = .error (.freed 2) := faulty
  rw [run] at deleted
  cases deleted

end NpServers.EnvHeap
