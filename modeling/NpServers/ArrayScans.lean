import NpServers.CStrings

namespace NpServers.ArrayScans

open NpServers.CStrings

/-!
# String functions on an array

The functions of the C library read an array symbol by symbol until they find
what they look for or the end of the string.  Here they have no result if they
reach the end of the array before.  The module is independent of any particular
program.
-/

variable {Symbol : Type}

/-! ## The functions -/

/-- The symbols that are read while the search goes on, and the array from the
one that stops it. -/
def scanWhile
    (goesOn : Symbol → Bool) : List Symbol → Option (List Symbol × List Symbol)
  | [] => none
  | symbol :: rest =>
      if goesOn symbol then
        (scanWhile goesOn rest).map fun (before, behind) =>
          (symbol :: before, behind)
      else
        some ([], symbol :: rest)

section Functions

variable [DecidableEq Symbol]
variable (ending : Symbol)

/-- The C string at the start of the array, as `strlen` or a conversion to
`std::string` finds it. -/
def cString (array : List Symbol) : Option (List Symbol) :=
  (scanWhile (fun symbol => symbol ≠ ending) array).map Prod.fst

/-- Whether `strchr` finds the symbol. -/
def strchrFinds
    (target : Symbol)
    (array : List Symbol) : Option Bool :=
  (scanWhile (fun symbol => symbol ≠ target ∧ symbol ≠ ending) array).map
    fun (_, found) => decide (found.head? = some target)

/-- Whether `strcmp` finds no difference to a text. -/
def strcmpSame : List Symbol → List Symbol → Option Bool
  | [], _ => none
  | symbol :: _, [] => some (decide (symbol = ending))
  | symbol :: rest, first :: others =>
      if symbol = first then
        strcmpSame rest others
      else
        some false

/-- The array after the first call of `strtok`.  Nothing is written where the
string has no word. -/
def strtokCut
    (isDelimiter : Symbol → Bool)
    (array : List Symbol) : Option (List Symbol) := do
  let (gap, start) ← scanWhile isDelimiter array
  if start.head? = some ending then
    some array
  else
    let (word, stop) ←
      scanWhile (fun symbol => !isDelimiter symbol && symbol ≠ ending) start
    some (gap ++ word ++ ending :: stop.tail)

/-- An array of the given size with some symbols read into it; it was filled with
the ending before. -/
def filled
    (size : Nat)
    (symbols : List Symbol) : List Symbol :=
  symbols ++ List.replicate (size - symbols.length) ending

end Functions

/-! ## Where a scan stops -/

section Scan

variable {goesOn : Symbol → Bool}

/-- A scan stays inside exactly if the array has a symbol that stops it. -/
theorem scanWhile_eq (array : List Symbol) :
    scanWhile goesOn array =
      if ∃ symbol ∈ array, goesOn symbol = false then
        some (array.takeWhile goesOn, array.dropWhile goesOn)
      else
        none := by
  induction array with
  | nil =>
      simp [scanWhile]
  | cons symbol rest inductionHypothesis =>
      unfold scanWhile
      cases here : goesOn symbol with
      | true =>
          rw [if_pos rfl, inductionHypothesis]
          simp only [List.mem_cons, exists_eq_or_imp, here, Bool.true_eq_false,
            false_or, List.takeWhile_cons, List.dropWhile_cons, if_true]
          split
          · rfl
          · rfl
      | false =>
          simp [here]

/-- The parts of an array that a scan has found. -/
theorem scanWhile_parts
    {array before behind : List Symbol}
    (isScanned : scanWhile goesOn array = some (before, behind)) :
    array = before ++ behind ∧ (∀ symbol ∈ before, goesOn symbol = true) ∧
      ∃ last rest, behind = last :: rest ∧ goesOn last = false := by
  rw [scanWhile_eq] at isScanned
  split at isScanned
  · rename_i stops
    obtain ⟨symbol, member, isStop⟩ := stops
    cases isScanned
    refine ⟨List.takeWhile_append_dropWhile.symm, ?_, ?_⟩
    · intro other inBefore
      exact List.mem_takeWhile_imp inBefore
    · cases left : array.dropWhile goesOn with
      | nil =>
          have continues := List.dropWhile_eq_nil_iff.mp left symbol member
          rw [isStop] at continues
          cases continues
      | cons last rest =>
          have atLast := List.head?_dropWhile_not goesOn array
          rw [left] at atLast
          exact ⟨last, rest, rfl, by simpa using atLast⟩
  · cases isScanned

end Scan

/-! ## The first word of a text -/

section FirstWord

variable {isDelimiter : Symbol → Bool}

/-- The delimiters at the start of a text and its first word. -/
def throughWord
    (isDelimiter : Symbol → Bool)
    (text : List Symbol) : List Symbol :=
  text.takeWhile isDelimiter ++
    (text.dropWhile isDelimiter).takeWhile fun symbol => !isDelimiter symbol

theorem throughWord_parts
    {gap word rest : List Symbol}
    (isGap : ∀ symbol ∈ gap, isDelimiter symbol = true)
    (isWord : ∀ symbol ∈ word, isDelimiter symbol = false)
    (started : word = [] → rest = [])
    (stopped : ∀ first ∈ rest.head?, isDelimiter first = true) :
    throughWord isDelimiter (gap ++ (word ++ rest)) = gap ++ word := by
  have wordStarts : (word ++ rest).takeWhile isDelimiter = [] ∧
      (word ++ rest).dropWhile isDelimiter = word ++ rest := by
    cases word with
    | nil =>
        rw [started rfl]
        exact ⟨rfl, rfl⟩
    | cons first others =>
        have plain := isWord first List.mem_cons_self
        rw [List.cons_append, List.takeWhile_cons_of_neg (by simp [plain]),
          List.dropWhile_cons_of_neg (by simp [plain])]
        exact ⟨rfl, rfl⟩
  have restStops :
      (rest.takeWhile fun symbol => !isDelimiter symbol) = [] := by
    cases rest with
    | nil =>
        rfl
    | cons first others =>
        have delimits := stopped first rfl
        rw [List.takeWhile_cons_of_neg (by simp [delimits])]
  have inWord (symbol : Symbol) (member : symbol ∈ word) :
      (!isDelimiter symbol) = true := by
    simp [isWord symbol member]
  rw [throughWord, List.takeWhile_append_of_pos isGap,
    List.dropWhile_append_of_pos isGap, wordStarts.1, wordStarts.2,
    List.takeWhile_append_of_pos inWord, restStops, List.append_nil,
    List.append_nil]

end FirstWord

/-! ## Filled arrays -/

section Filled

variable {ending : Symbol}

theorem length_filled
    {size : Nat}
    {symbols : List Symbol}
    (fits : symbols.length ≤ size) :
    (filled ending size symbols).length = size := by
  rw [filled, List.length_append, List.length_replicate,
    Nat.add_sub_cancel' fits]

theorem mem_filled_iff
    {size : Nat}
    {symbols : List Symbol} :
    ending ∈ filled ending size symbols ↔
      symbols.length < size ∨ ending ∈ symbols := by
  rw [filled, List.mem_append, List.mem_replicate, Nat.sub_ne_zero_iff_lt]
  constructor
  · rintro (inside | ⟨short, -⟩)
    · exact Or.inr inside
    · exact Or.inl short
  · rintro (short | inside)
    · exact Or.inr ⟨short, rfl⟩
    · exact Or.inl inside

/-- What goes on before an ending goes on before the fill. -/
theorem takeWhile_filled
    {goesOn : Symbol → Bool}
    (stops : goesOn ending = false)
    (size : Nat)
    (symbols : List Symbol) :
    (filled ending size symbols).takeWhile goesOn = symbols.takeWhile goesOn := by
  have fill (count : Nat) :
      (List.replicate count ending).takeWhile goesOn = [] := by
    cases count with
    | zero =>
        rfl
    | succ count =>
        rw [List.replicate_succ, List.takeWhile_cons_of_neg (by simp [stops])]
  unfold filled
  generalize size - symbols.length = count
  induction symbols with
  | nil =>
      exact fill count
  | cons symbol rest inductionHypothesis =>
      rw [List.cons_append, List.takeWhile_cons, List.takeWhile_cons,
        inductionHypothesis]

end Filled

section Functions

variable [DecidableEq Symbol]
variable {ending : Symbol}

theorem cString_eq (array : List Symbol) :
    cString ending array =
      if ending ∈ array then
        some (array.takeWhile fun symbol => symbol ≠ ending)
      else
        none := by
  have stops :
      (∃ symbol ∈ array, decide (symbol ≠ ending) = false) ↔ ending ∈ array := by
    simp
  rw [cString, scanWhile_eq]
  simp only [stops]
  split
  · rfl
  · rfl

/-! ## Searches and comparisons -/

theorem strchrFinds_cons
    (target symbol : Symbol)
    (rest : List Symbol) :
    strchrFinds ending target (symbol :: rest) =
      if symbol = target then
        some true
      else if symbol = ending then
        some false
      else
        strchrFinds ending target rest := by
  unfold strchrFinds
  rw [scanWhile]
  by_cases isTarget : symbol = target
  · simp [isTarget]
  · by_cases isEnd : symbol = ending
    · subst isEnd
      simp [isTarget]
    · simp [isTarget, isEnd, Function.comp_def]

/-- In an array with an ending, `strchr` looks at the string only. -/
theorem strchrFinds_of_mem
    {target : Symbol}
    (notEnd : target ≠ ending)
    {array : List Symbol}
    (inside : ending ∈ array) :
    strchrFinds ending target array =
      some
        (decide (target ∈ array.takeWhile fun symbol => symbol ≠ ending)) := by
  induction array with
  | nil =>
      cases inside
  | cons symbol rest inductionHypothesis =>
      rw [strchrFinds_cons]
      by_cases isTarget : symbol = target
      · subst isTarget
        simp [notEnd]
      · by_cases isEnd : symbol = ending
        · simp [isEnd, notEnd.symm]
        · have later : ending ∈ rest := by
            rcases List.mem_cons.mp inside with same | later
            · exact absurd same.symm isEnd
            · exact later
          rw [if_neg isTarget, if_neg isEnd, inductionHypothesis later]
          simp [isEnd, Ne.symm isTarget]

/-- A comparison stops behind the text at the latest, so a longer array needs no
ending. -/
theorem strcmpSame_eq
    {array text : List Symbol}
    (noEnding : ending ∉ text)
    (short : text.length < array.length) :
    strcmpSame ending array text =
      some
        (decide ((array.takeWhile fun symbol => symbol ≠ ending) = text)) := by
  induction array generalizing text with
  | nil =>
      exact absurd short (Nat.not_lt_zero _)
  | cons symbol rest inductionHypothesis =>
      cases text with
      | nil =>
          by_cases isEnd : symbol = ending
          · simp [strcmpSame, isEnd]
          · simp [strcmpSame, isEnd]
      | cons first others =>
          obtain ⟨notFirst, notOthers⟩ := not_or.mp (List.mem_cons.not.mp noEnding)
          rw [strcmpSame]
          by_cases same : symbol = first
          · subst same
            rw [if_pos rfl,
              inductionHypothesis notOthers (Nat.lt_of_succ_lt_succ short)]
            simp [Ne.symm notFirst]
          · rw [if_neg same]
            by_cases isEnd : symbol = ending
            · simp [isEnd]
            · simp [isEnd, same]

/-! ## The first call of `strtok` -/

section FirstCall

variable {isDelimiter : Symbol → Bool}

/-- The array from the first word on, as `strtok` comes to it. -/
theorem strtokCut_eq (array : List Symbol) :
    strtokCut ending isDelimiter array =
      match array.dropWhile isDelimiter with
      | [] => none
      | first :: rest =>
          if first = ending then
            some array
          else
            (scanWhile (fun symbol => !isDelimiter symbol && symbol ≠ ending)
              (first :: rest)).map fun (word, stop) =>
                array.takeWhile isDelimiter ++ word ++ ending :: stop.tail := by
  unfold strtokCut
  rw [scanWhile_eq]
  cases start : array.dropWhile isDelimiter with
  | nil =>
      have none : ¬ ∃ symbol ∈ array, isDelimiter symbol = false := by
        rintro ⟨symbol, member, plain⟩
        have delimits := List.dropWhile_eq_nil_iff.mp start symbol member
        rw [plain] at delimits
        cases delimits
      rw [if_neg none]
      rfl
  | cons first rest =>
      have notDelimiter : isDelimiter first = false := by
        have atStart := List.head?_dropWhile_not isDelimiter array
        rw [start] at atStart
        simpa using atStart
      have inArray : first ∈ array := by
        apply (List.dropWhile_suffix isDelimiter).subset
        rw [start]
        exact List.mem_cons_self
      rw [if_pos ⟨first, inArray, notDelimiter⟩]
      simp only [Option.bind_eq_bind, Option.bind_some, List.head?_cons,
        Option.some.injEq]
      split
      · rfl
      · cases scanWhile _ (first :: rest) with
        | none =>
            rfl
        | some found =>
            rfl

/-- `strtok` stays inside exactly if the string ends in the array or a delimiter
stands behind its first word. -/
theorem strtokCut_isSome_iff
    (notDelimiter : isDelimiter ending = false)
    (array : List Symbol) :
    (strtokCut ending isDelimiter array).isSome = true ↔
      ending ∈ array ∨
        ∃ symbol ∈ array.dropWhile isDelimiter, isDelimiter symbol = true := by
  have inStart (member : ending ∈ array) :
      ending ∈ array.dropWhile isDelimiter := by
    rw [← List.takeWhile_append_dropWhile (p := isDelimiter) (l := array)]
      at member
    rcases List.mem_append.mp member with inGap | inStart
    · have delimits := List.mem_takeWhile_imp inGap
      rw [notDelimiter] at delimits
      cases delimits
    · exact inStart
  have fromStart {symbol : Symbol} :
      symbol ∈ array.dropWhile isDelimiter → symbol ∈ array :=
    fun member => (List.dropWhile_suffix isDelimiter).subset member
  rw [strtokCut_eq]
  cases start : array.dropWhile isDelimiter with
  | nil =>
      rw [start] at inStart
      simpa using inStart
  | cons first rest =>
      rw [start] at inStart fromStart
      dsimp only
      by_cases isEnd : first = ending
      · rw [if_pos isEnd]
        exact iff_of_true rfl (Or.inl (fromStart (isEnd ▸ List.mem_cons_self)))
      · rw [if_neg isEnd, scanWhile_eq, Option.isSome_map]
        simp only [Option.isSome_ite, Bool.and_eq_false_iff, Bool.not_eq_eq_eq_not,
          Bool.not_false, decide_eq_false_iff_not, not_not]
        constructor
        · rintro ⟨symbol, member, delimits | rfl⟩
          · exact Or.inr ⟨symbol, member, delimits⟩
          · exact Or.inl (fromStart member)
        · rintro (member | ⟨symbol, member, delimits⟩)
          · exact ⟨ending, inStart member, Or.inr rfl⟩
          · exact ⟨symbol, member, Or.inl delimits⟩

/-- After the call, the array has the same size and holds the string up to the
end of its first word. -/
theorem strtokCut_spec
    (notDelimiter : isDelimiter ending = false)
    {array cut : List Symbol}
    (isCut : strtokCut ending isDelimiter array = some cut) :
    cut.length = array.length ∧
      (cut.takeWhile fun symbol => symbol ≠ ending) =
        throughWord isDelimiter
          (array.takeWhile fun symbol => symbol ≠ ending) := by
  unfold strtokCut at isCut
  obtain ⟨⟨gap, start⟩, isStart, isCut⟩ := Option.bind_eq_some_iff.mp isCut
  obtain ⟨rfl, isGap, first, rest, rfl, plain⟩ := scanWhile_parts isStart
  have inString (symbol : Symbol) (member : symbol ∈ gap) :
      decide (symbol ≠ ending) = true := by
    apply decide_eq_true
    rintro rfl
    rw [isGap symbol member] at notDelimiter
    cases notDelimiter
  dsimp only at isCut
  split at isCut
  · -- nothing but delimiters in front of the end
    rename_i isEnd
    cases isCut
    cases isEnd
    refine ⟨rfl, ?_⟩
    rw [List.takeWhile_append_of_pos inString,
      List.takeWhile_cons_of_neg (by simp)]
    exact (throughWord_parts isGap (by simp) (fun _ => rfl) (by simp)).symm
  · rename_i notEnd
    obtain ⟨⟨word, stop⟩, isWord, isCut⟩ := Option.bind_eq_some_iff.mp isCut
    obtain ⟨isParts, inWord, last, behind, rfl, stops⟩ := scanWhile_parts isWord
    cases isCut
    have wordString (symbol : Symbol) (member : symbol ∈ gap ++ word) :
        decide (symbol ≠ ending) = true := by
      rcases List.mem_append.mp member with inGap | isWord
      · exact inString symbol inGap
      · have goesOn := inWord symbol isWord
        rw [Bool.and_eq_true] at goesOn
        exact goesOn.2
    have started : word ≠ [] := by
      rintro rfl
      obtain ⟨rfl, -⟩ := List.cons.inj isParts
      simp only [List.head?_cons, Option.some.injEq] at notEnd
      simp [plain, notEnd] at stops
    rw [isParts, List.tail_cons]
    refine ⟨by simp, ?_⟩
    rw [List.takeWhile_append_of_pos wordString,
      List.takeWhile_cons_of_neg (by simp), List.append_nil, ← List.append_assoc,
      List.takeWhile_append_of_pos wordString, List.append_assoc]
    refine (throughWord_parts isGap ?_ (fun none => absurd none started) ?_).symm
    · intro symbol member
      have goesOn := inWord symbol member
      rw [Bool.and_eq_true, Bool.not_eq_true'] at goesOn
      exact goesOn.1
    · intro other isFirst
      rw [List.takeWhile_cons] at isFirst
      split at isFirst
      · rename_i notLast
        cases isFirst
        simpa [of_decide_eq_true notLast] using stops
      · cases isFirst

end FirstCall

/-! ## The string of a filled array -/

/-- The string of a filled array is that of the cleared buffer. -/
theorem cString_filled
    (size : Nat)
    (symbols : List Symbol) :
    cString ending (filled ending size symbols) =
      bufferString size ending symbols := by
  rw [cString_eq, bufferString, takeWhile_filled (by simp)]
  simp only [mem_filled_iff]

end Functions

end NpServers.ArrayScans
