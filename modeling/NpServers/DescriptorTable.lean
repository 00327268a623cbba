import Mathlib.Data.List.Find
import Mathlib.Data.List.Range
import Mathlib.Logic.Function.Basic
import Mathlib.Tactic.Common

namespace NpServers

/-!
# Descriptor tables

The table of one process that maps descriptors to open files.  `fork` copies
the table, so a child starts with the value its parent has; `open` and `pipe`
take the lowest free descriptor; `close` and `dup2` follow POSIX.  The module
is independent of what the descriptors are used for.
-/

/--
A descriptor table.  Only descriptors from zero up to `limit` can be open.
`badCloses` counts the calls of `close` on a descriptor that was not open.
-/
structure DescriptorTable (File : Type) where
  file : Int → Option File
  limit : Nat
  badCloses : Nat
  bounded : ∀ fd, file fd ≠ none → 0 ≤ fd ∧ fd < limit

namespace DescriptorTable

variable {File : Type}

/-- `STDIN_FILENO`. -/
def stdin : Int := 0

/-- `STDOUT_FILENO`. -/
def stdout : Int := 1

/-- `STDERR_FILENO`. -/
def stderr : Int := 2

/-- The descriptors of the three standard streams. -/
def Standard (fd : Int) : Prop :=
  0 ≤ fd ∧ fd ≤ 2

instance (fd : Int) : Decidable (Standard fd) :=
  inferInstanceAs (Decidable (_ ∧ _))

@[simp] theorem standard_stdin : Standard stdin := by
  decide

@[simp] theorem standard_stdout : Standard stdout := by
  decide

@[simp] theorem standard_stderr : Standard stderr := by
  decide

theorem Standard.cases
    {fd : Int}
    (isStandard : Standard fd) :
    fd = stdin ∨ fd = stdout ∨ fd = stderr := by
  unfold Standard at isStandard
  unfold stdin stdout stderr
  omega

/-- A process without open descriptors. -/
def empty : DescriptorTable File where
  file := fun _ => none
  limit := 0
  badCloses := 0
  bounded := by
    intro fd isOpen
    exact absurd rfl isOpen

/-- The lowest descriptor that is not open. -/
def lowestFree (table : DescriptorTable File) : Int :=
  let free :=
    (List.range table.limit).find? fun fd : Nat => (table.file fd).isNone
  (free.getD table.limit : Nat)

/-- The table with a file at a given descriptor. -/
def install
    (table : DescriptorTable File)
    (fd : Int)
    (nonneg : 0 ≤ fd)
    (file : File) : DescriptorTable File where
  file := Function.update table.file fd (some file)
  limit := max table.limit (fd.toNat + 1)
  badCloses := table.badCloses
  bounded := by
    intro other isOpen
    by_cases here : other = fd
    · subst here
      omega
    · rw [Function.update_of_ne here] at isOpen
      have := table.bounded other isOpen
      omega

theorem lowestFree_nonneg
    (table : DescriptorTable File) :
    0 ≤ table.lowestFree :=
  Int.natCast_nonneg _

/-- `open` and `accept`: the new file gets the lowest free descriptor. -/
def openFile
    (table : DescriptorTable File)
    (file : File) : DescriptorTable File :=
  table.install table.lowestFree table.lowestFree_nonneg file

/-- `close`. -/
def close
    (table : DescriptorTable File)
    (fd : Int) : DescriptorTable File where
  file := Function.update table.file fd none
  limit := table.limit
  badCloses :=
    if (table.file fd).isSome then table.badCloses else table.badCloses + 1
  bounded := by
    intro other isOpen
    by_cases here : other = fd
    · subst here
      simp at isOpen
    · rw [Function.update_of_ne here] at isOpen
      exact table.bounded other isOpen

/-- Several calls of `close`. -/
def closeAll
    (table : DescriptorTable File)
    (fds : List Int) : DescriptorTable File :=
  fds.foldl close table

/-- `dup2`. -/
def dup2
    (table : DescriptorTable File)
    (oldFd newFd : Int) : DescriptorTable File :=
  match table.file oldFd with
  | some file =>
      if nonneg : 0 ≤ newFd then table.install newFd nonneg file else table
  | none => table

/-! ## Looking up a descriptor after an operation -/

@[simp] theorem file_lowestFree
    (table : DescriptorTable File) :
    table.file table.lowestFree = none := by
  unfold lowestFree
  cases search :
      (List.range table.limit).find? fun fd : Nat =>
        (table.file fd).isNone with
  | none =>
      by_contra isOpen
      have := table.bounded _ isOpen
      simp at this
  | some fd =>
      simpa using List.find?_some search

/-- An open descriptor is not the one the next `open` returns. -/
theorem ne_lowestFree
    {table : DescriptorTable File}
    {fd : Int}
    {file : File}
    (isOpen : table.file fd = some file) :
    fd ≠ table.lowestFree := by
  intro same
  rw [same, file_lowestFree] at isOpen
  cases isOpen

@[simp] theorem install_file
    (table : DescriptorTable File)
    (fd : Int)
    (nonneg : 0 ≤ fd)
    (file : File) :
    (table.install fd nonneg file).file =
      Function.update table.file fd (some file) :=
  rfl

@[simp] theorem install_badCloses
    (table : DescriptorTable File)
    (fd : Int)
    (nonneg : 0 ≤ fd)
    (file : File) :
    (table.install fd nonneg file).badCloses = table.badCloses :=
  rfl

@[simp] theorem openFile_file
    (table : DescriptorTable File)
    (file : File) :
    (table.openFile file).file =
      Function.update table.file table.lowestFree (some file) :=
  rfl

/-- An open descriptor stays what it is when another file is opened. -/
theorem openFile_file_of_open
    {table : DescriptorTable File}
    {fd : Int}
    {old : File}
    (isOpen : table.file fd = some old)
    (new : File) :
    (table.openFile new).file fd = some old := by
  rw [openFile_file, Function.update_of_ne (ne_lowestFree isOpen)]
  exact isOpen

@[simp] theorem openFile_badCloses
    (table : DescriptorTable File)
    (file : File) :
    (table.openFile file).badCloses = table.badCloses :=
  rfl

@[simp] theorem close_file
    (table : DescriptorTable File)
    (fd : Int) :
    (table.close fd).file = Function.update table.file fd none :=
  rfl

/-- Closing an open descriptor is not counted. -/
theorem close_badCloses
    {table : DescriptorTable File}
    {fd : Int}
    {file : File}
    (isOpen : table.file fd = some file) :
    (table.close fd).badCloses = table.badCloses := by
  simp [close, isOpen]

@[simp] theorem closeAll_nil
    (table : DescriptorTable File) :
    table.closeAll [] = table :=
  rfl

theorem closeAll_cons
    (table : DescriptorTable File)
    (fd : Int)
    (fds : List Int) :
    table.closeAll (fd :: fds) = (table.close fd).closeAll fds :=
  rfl

theorem closeAll_append
    (table : DescriptorTable File)
    (first second : List Int) :
    table.closeAll (first ++ second) =
      (table.closeAll first).closeAll second := by
  simp [closeAll]

theorem closeAll_file
    (table : DescriptorTable File)
    (fds : List Int)
    (fd : Int) :
    (table.closeAll fds).file fd =
      if fd ∈ fds then none else table.file fd := by
  induction fds generalizing table with
  | nil =>
      simp
  | cons first rest inductionHypothesis =>
      rw [closeAll_cons, inductionHypothesis, close_file]
      by_cases inRest : fd ∈ rest
      · simp [inRest]
      · by_cases here : fd = first
        · simp [here]
        · simp [inRest, here]

/-- Closing open descriptors that do not repeat is not counted. -/
theorem closeAll_badCloses
    {table : DescriptorTable File}
    {fds : List Int}
    (distinct : fds.Nodup)
    (areOpen : ∀ fd ∈ fds, table.file fd ≠ none) :
    (table.closeAll fds).badCloses = table.badCloses := by
  induction fds generalizing table with
  | nil =>
      rfl
  | cons first rest inductionHypothesis =>
      obtain ⟨notInRest, restDistinct⟩ := List.nodup_cons.mp distinct
      obtain ⟨file, firstOpen⟩ :=
        Option.ne_none_iff_exists'.mp (areOpen first (by simp))
      rw [closeAll_cons, inductionHypothesis restDistinct,
        close_badCloses firstOpen]
      intro fd inRest
      have different : fd ≠ first := by
        rintro rfl
        exact notInRest inRest
      rw [close_file, Function.update_of_ne different]
      exact areOpen fd (by simp [inRest])

theorem dup2_file_of_ne
    (table : DescriptorTable File)
    {oldFd newFd fd : Int}
    (different : fd ≠ newFd) :
    (table.dup2 oldFd newFd).file fd = table.file fd := by
  unfold dup2
  split
  · split
    · exact Function.update_of_ne different _ _
    · rfl
  · rfl

theorem dup2_file_self
    {table : DescriptorTable File}
    {oldFd newFd : Int}
    {file : File}
    (isOpen : table.file oldFd = some file)
    (nonneg : 0 ≤ newFd) :
    (table.dup2 oldFd newFd).file newFd = some file := by
  simp [dup2, isOpen, nonneg]

/-- What `dup2` puts into its target was open before, or is what was there. -/
theorem dup2_file_cases
    (table : DescriptorTable File)
    (oldFd newFd : Int) :
    (table.dup2 oldFd newFd).file newFd = table.file oldFd ∨
      (table.dup2 oldFd newFd).file newFd = table.file newFd := by
  unfold dup2
  split
  · rename_i file isOpen
    split
    · left
      simp [isOpen]
    · right
      rfl
  · right
    rfl

/-! ## Closing descriptors around redirections of the standard streams -/

/--
Outside the standard streams, `after` is `before` without the descriptors
in `closed`.
-/
def Sheds
    (closed : List Int)
    (before after : DescriptorTable File) : Prop :=
  ∀ fd,
    ¬ Standard fd →
    after.file fd = if fd ∈ closed then none else before.file fd

theorem Sheds.refl
    (table : DescriptorTable File) :
    Sheds [] table table := by
  intro fd _
  simp

theorem Sheds.trans
    {first second : List Int}
    {before between after : DescriptorTable File}
    (shedsFirst : Sheds first before between)
    (shedsSecond : Sheds second between after) :
    Sheds (first ++ second) before after := by
  intro fd notStandard
  rw [shedsSecond fd notStandard, shedsFirst fd notStandard]
  by_cases inFirst : fd ∈ first
  · simp [inFirst]
  · simp [inFirst]

theorem sheds_closeAll
    (table : DescriptorTable File)
    (fds : List Int) :
    Sheds fds table (table.closeAll fds) :=
  fun fd _ => table.closeAll_file fds fd

theorem sheds_dup2
    (table : DescriptorTable File)
    (oldFd : Int)
    {newFd : Int}
    (toStandard : Standard newFd) :
    Sheds [] table (table.dup2 oldFd newFd) := by
  intro fd notStandard
  have different : fd ≠ newFd := by
    rintro rfl
    exact notStandard toStandard
  simp [table.dup2_file_of_ne different]

/--
What a process has on its standard streams after it closed `closed` elsewhere.
-/
structure Image
    (before after : DescriptorTable File)
    (closed : List Int)
    (input output errors : Option File) : Prop where
  sheds : Sheds closed before after
  stdin : after.file stdin = input
  stdout : after.file stdout = output
  stderr : after.file stderr = errors

theorem Image.refl
    (table : DescriptorTable File) :
    Image table table [] (table.file DescriptorTable.stdin)
      (table.file DescriptorTable.stdout)
      (table.file DescriptorTable.stderr) where
  sheds := .refl table
  stdin := rfl
  stdout := rfl
  stderr := rfl

variable {before after : DescriptorTable File}
variable {closed : List Int}
variable {input output errors : Option File}

/-- A descriptor that was not closed still refers to its file. -/
theorem Image.file_of_not_mem
    (image : Image before after closed input output errors)
    {fd : Int}
    (notStandard : ¬ Standard fd)
    (kept : fd ∉ closed) :
    after.file fd = before.file fd := by
  rw [image.sheds fd notStandard, if_neg kept]

theorem Image.closeAll
    (image : Image before after closed input output errors)
    {fds : List Int}
    (notStandard : ∀ fd ∈ fds, ¬ Standard fd) :
    Image before (after.closeAll fds) (closed ++ fds) input output errors where
  sheds := image.sheds.trans (sheds_closeAll after fds)
  stdin := by
    rw [closeAll_file, if_neg fun member => notStandard _ member (by decide)]
    exact image.stdin
  stdout := by
    rw [closeAll_file, if_neg fun member => notStandard _ member (by decide)]
    exact image.stdout
  stderr := by
    rw [closeAll_file, if_neg fun member => notStandard _ member (by decide)]
    exact image.stderr

theorem Image.close
    (image : Image before after closed input output errors)
    {fd : Int}
    (notStandard : ¬ Standard fd) :
    Image before (after.close fd) (closed ++ [fd]) input output errors := by
  have single : ∀ other ∈ [fd], ¬ Standard other := by
    simpa using notStandard
  exact image.closeAll single

theorem Image.dup2_stdin
    (image : Image before after closed input output errors)
    {fd : Int}
    {file : File}
    (isOpen : after.file fd = some file) :
    Image before (after.dup2 fd DescriptorTable.stdin) closed
      (some file) output errors where
  sheds := by
    simpa using image.sheds.trans (sheds_dup2 after fd standard_stdin)
  stdin := dup2_file_self isOpen (by decide)
  stdout := by
    rw [dup2_file_of_ne _ (by decide)]
    exact image.stdout
  stderr := by
    rw [dup2_file_of_ne _ (by decide)]
    exact image.stderr

theorem Image.dup2_stdout
    (image : Image before after closed input output errors)
    {fd : Int}
    {file : File}
    (isOpen : after.file fd = some file) :
    Image before (after.dup2 fd DescriptorTable.stdout) closed
      input (some file) errors where
  sheds := by
    simpa using image.sheds.trans (sheds_dup2 after fd standard_stdout)
  stdin := by
    rw [dup2_file_of_ne _ (by decide)]
    exact image.stdin
  stdout := dup2_file_self isOpen (by decide)
  stderr := by
    rw [dup2_file_of_ne _ (by decide)]
    exact image.stderr

theorem Image.dup2_stderr
    (image : Image before after closed input output errors)
    {fd : Int}
    {file : File}
    (isOpen : after.file fd = some file) :
    Image before (after.dup2 fd DescriptorTable.stderr) closed
      input output (some file) where
  sheds := by
    simpa using image.sheds.trans (sheds_dup2 after fd standard_stderr)
  stdin := by
    rw [dup2_file_of_ne _ (by decide)]
    exact image.stdin
  stdout := by
    rw [dup2_file_of_ne _ (by decide)]
    exact image.stdout
  stderr := dup2_file_self isOpen (by decide)

/-- A file opened for a standard stream only, from a process with all three. -/
def redirected
    (table : DescriptorTable File)
    (file : File)
    (target : Int) : DescriptorTable File :=
  ((table.openFile file).dup2 table.lowestFree target).close table.lowestFree

theorem redirected_file_self
    {table : DescriptorTable File}
    (free : ¬ Standard table.lowestFree)
    (file : File)
    {target : Int}
    (toStandard : Standard target) :
    (table.redirected file target).file target = some file := by
  have different : target ≠ table.lowestFree := by
    intro same
    exact free (same ▸ toStandard)
  have opened :
      (table.openFile file).file table.lowestFree = some file := by
    simp
  rw [redirected, close_file, Function.update_of_ne different]
  exact dup2_file_self opened toStandard.1

theorem redirected_file_of_ne
    (table : DescriptorTable File)
    (file : File)
    {target fd : Int}
    (notTarget : fd ≠ target) :
    (table.redirected file target).file fd = table.file fd := by
  rw [redirected, close_file]
  by_cases here : fd = table.lowestFree
  · subst here
    simp
  · rw [Function.update_of_ne here, dup2_file_of_ne _ notTarget, openFile_file,
      Function.update_of_ne here]

theorem sheds_redirected
    (table : DescriptorTable File)
    (file : File)
    {target : Int}
    (toStandard : Standard target) :
    Sheds [] table (table.redirected file target) := by
  intro fd notStandard
  have notTarget : fd ≠ target := by
    rintro rfl
    exact notStandard toStandard
  simp [table.redirected_file_of_ne file notTarget]

theorem Image.redirected_stdin
    (image : Image before after closed input output errors)
    (free : ¬ Standard after.lowestFree)
    (file : File) :
    Image before (after.redirected file DescriptorTable.stdin) closed
      (some file) output errors where
  sheds := by
    simpa using image.sheds.trans (sheds_redirected after file standard_stdin)
  stdin := redirected_file_self free file standard_stdin
  stdout := by
    rw [redirected_file_of_ne _ _ (by decide)]
    exact image.stdout
  stderr := by
    rw [redirected_file_of_ne _ _ (by decide)]
    exact image.stderr

theorem Image.redirected_stdout
    (image : Image before after closed input output errors)
    (free : ¬ Standard after.lowestFree)
    (file : File) :
    Image before (after.redirected file DescriptorTable.stdout) closed
      input (some file) errors where
  sheds := by
    simpa using image.sheds.trans (sheds_redirected after file standard_stdout)
  stdin := by
    rw [redirected_file_of_ne _ _ (by decide)]
    exact image.stdin
  stdout := redirected_file_self free file standard_stdout
  stderr := by
    rw [redirected_file_of_ne _ _ (by decide)]
    exact image.stderr

/-- With all three streams open, a new descriptor is not a standard one. -/
theorem Image.lowestFree_not_standard
    {first second third : File}
    (image :
      Image before after closed (some first) (some second) (some third)) :
    ¬ Standard after.lowestFree := by
  rintro ⟨lower, upper⟩
  have free := after.file_lowestFree
  obtain isIn | isOut | isErr :
      after.lowestFree = DescriptorTable.stdin ∨
        after.lowestFree = DescriptorTable.stdout ∨
        after.lowestFree = DescriptorTable.stderr := by
    unfold DescriptorTable.stdin DescriptorTable.stdout DescriptorTable.stderr
    omega
  · rw [isIn, image.stdin] at free
    cases free
  · rw [isOut, image.stdout] at free
    cases free
  · rw [isErr, image.stderr] at free
    cases free

/-! ## A table made of a base and further descriptors -/

/--
The open descriptors of `table` are those of `base` and, apart from them, the
ones listed in `extra`; the closes between the two tables all met open files.
-/
structure Extends
    (base : DescriptorTable File)
    (extra : List (Int × File))
    (table : DescriptorTable File) : Prop where
  file_iff :
    ∀ fd file,
      table.file fd = some file ↔
        (fd, file) ∈ extra ∨ base.file fd = some file
  free : ∀ {fd file}, (fd, file) ∈ extra → base.file fd = none
  badCloses : table.badCloses = base.badCloses

theorem Extends.refl
    (base : DescriptorTable File) :
    Extends base [] base where
  file_iff := by simp
  free := by simp
  badCloses := rfl

variable {base table : DescriptorTable File}
variable {extra : List (Int × File)}

theorem Extends.file_extra
    (extension : Extends base extra table)
    {fd : Int}
    {file : File}
    (member : (fd, file) ∈ extra) :
    table.file fd = some file :=
  (extension.file_iff fd file).mpr (Or.inl member)

theorem Extends.file_base
    (extension : Extends base extra table)
    {fd : Int}
    {file : File}
    (isOpen : base.file fd = some file) :
    table.file fd = some file :=
  (extension.file_iff fd file).mpr (Or.inr isOpen)

/-- A descriptor is listed with one file only. -/
theorem Extends.file_unique
    (extension : Extends base extra table)
    {fd : Int}
    {first second : File}
    (firstMember : (fd, first) ∈ extra)
    (secondMember : (fd, second) ∈ extra) :
    first = second := by
  have atFirst := extension.file_extra firstMember
  rw [extension.file_extra secondMember] at atFirst
  exact (Option.some.inj atFirst).symm

/-- Different files have different descriptors. -/
theorem Extends.fd_ne
    (extension : Extends base extra table)
    {firstFd secondFd : Int}
    {first second : File}
    (firstMember : (firstFd, first) ∈ extra)
    (secondMember : (secondFd, second) ∈ extra)
    (different : first ≠ second) :
    firstFd ≠ secondFd := by
  rintro rfl
  exact different (extension.file_unique firstMember secondMember)

/-- Only the entries of `extra` matter, not their order. -/
theorem Extends.congr
    (extension : Extends base extra table)
    {other : List (Int × File)}
    (same : ∀ entry, entry ∈ other ↔ entry ∈ extra) :
    Extends base other table where
  file_iff := by
    intro fd file
    rw [same]
    exact extension.file_iff fd file
  free := fun member => extension.free ((same _).mp member)
  badCloses := extension.badCloses

theorem Extends.openFile
    (extension : Extends base extra table)
    (file : File) :
    Extends base ((table.lowestFree, file) :: extra) (table.openFile file) where
  file_iff := by
    intro fd other
    rw [openFile_file, List.mem_cons, Prod.mk.injEq]
    by_cases here : fd = table.lowestFree
    · subst here
      have notListed : ¬ ((table.lowestFree, other) ∈ extra ∨
          base.file table.lowestFree = some other) := by
        rw [← extension.file_iff, file_lowestFree]
        simp
      rw [Function.update_self, or_assoc, or_iff_left notListed]
      simp [eq_comm]
    · rw [Function.update_of_ne here, extension.file_iff]
      simp [here]
  free := by
    intro fd other member
    rcases List.mem_cons.mp member with here | there
    · obtain ⟨rfl, rfl⟩ := Prod.mk.injEq .. ▸ here
      by_contra isOpen
      obtain ⟨old, oldOpen⟩ := Option.ne_none_iff_exists'.mp isOpen
      exact ne_lowestFree (extension.file_base oldOpen) rfl
    · exact extension.free there
  badCloses := extension.badCloses

/-- Closing a further descriptor takes it off the list. -/
theorem Extends.close_extra
    (extension : Extends base extra table)
    {fd : Int}
    {file : File}
    (member : (fd, file) ∈ extra)
    {rest : List (Int × File)}
    (others : ∀ entry, entry ∈ rest ↔ entry ∈ extra ∧ entry.1 ≠ fd) :
    Extends base rest (table.close fd) where
  file_iff := by
    intro other otherFile
    rw [close_file, others]
    by_cases here : other = fd
    · subst here
      simp [extension.free member]
    · rw [Function.update_of_ne here, extension.file_iff]
      simp [here]
  free := fun inRest => extension.free ((others _).mp inRest).1
  badCloses := by
    rw [close_badCloses (extension.file_extra member)]
    exact extension.badCloses

/-- Closing descriptors of the base closes them in the base. -/
theorem Extends.closeAll_base
    (extension : Extends base extra table)
    {fds : List Int}
    (distinct : fds.Nodup)
    (areOpen : ∀ fd ∈ fds, base.file fd ≠ none) :
    Extends (base.closeAll fds) extra (table.closeAll fds) where
  file_iff := by
    intro fd file
    rw [closeAll_file, closeAll_file]
    by_cases member : fd ∈ fds
    · have notExtra : (fd, file) ∉ extra :=
        fun inExtra => areOpen fd member (extension.free inExtra)
      simp [member, notExtra]
    · simp [member, extension.file_iff]
  free := by
    intro fd file inExtra
    rw [closeAll_file, extension.free inExtra]
    simp
  badCloses := by
    rw [closeAll_badCloses distinct areOpen,
      closeAll_badCloses distinct, extension.badCloses]
    intro fd member
    obtain ⟨file, isOpen⟩ :=
      Option.ne_none_iff_exists'.mp (areOpen fd member)
    rw [extension.file_base isOpen]
    simp

end DescriptorTable

end NpServers
