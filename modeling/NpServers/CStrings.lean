import Mathlib.Algebra.Group.Int.Defs
import Mathlib.Algebra.Group.Nat.Defs
import Mathlib.Data.List.DropRight
import Mathlib.Data.List.TakeWhile
import Mathlib.Tactic.Common

namespace NpServers.CStrings

/-!
# Tokens and copies of C strings

A C string is the list of its characters without the terminator.  `strtok`
returns the words between delimiters one after the other; what a program does
with a word does not change the words behind it.  A copy that does not fit its
array has no result.  The module is independent of any particular program.
-/

/-- A statement about the symbols of a text is tested symbol by symbol; other
instances go through all characters. -/
instance (priority := high) decidableForallSymbol
    (statement : Char → Prop)
    [DecidablePred statement]
    (text : List Char) :
    Decidable (∀ symbol ∈ text, statement symbol) :=
  List.decidableBAll statement text

instance nontrivialChar : Nontrivial Char :=
  ⟨'a', 'b', by decide⟩

variable {Symbol : Type}

/-! ## Successive calls of `strtok` -/

section Tokens

variable (isDelimiter : Symbol → Bool)

/-- One call: the next word, and where the search goes on. -/
def strtok (text : List Symbol) : Option (List Symbol × List Symbol) :=
  match text.dropWhile isDelimiter with
  | [] => none
  | first :: rest =>
      let word := first :: rest.takeWhile fun symbol => !isDelimiter symbol
      some (word, (rest.dropWhile fun symbol => !isDelimiter symbol).tail)

theorem strtok_shortens
    {text word rest : List Symbol}
    (isNext : strtok isDelimiter text = some (word, rest)) :
    rest.length < text.length := by
  unfold strtok at isNext
  have skipped := List.length_dropWhile_le isDelimiter text
  split at isNext
  · cases isNext
  · rename_i first behind isStart
    obtain ⟨_, rfl⟩ := Prod.mk.inj (Option.some.inj isNext)
    have dropped :=
      List.length_dropWhile_le (fun symbol => !isDelimiter symbol) behind
    rw [isStart, List.length_cons] at skipped
    rw [List.length_tail]
    omega

/-- The words that successive calls return. -/
def tokens (text : List Symbol) : List (List Symbol) :=
  match isNext : strtok isDelimiter text with
  | none => []
  | some (word, rest) =>
      have := strtok_shortens isDelimiter isNext
      word :: tokens rest
termination_by text.length

theorem tokens_of_none
    {text : List Symbol}
    (isNone : strtok isDelimiter text = none) :
    tokens isDelimiter text = [] := by
  rw [tokens]
  split
  · rfl
  · rename_i word rest isNext
    rw [isNone] at isNext
    cases isNext

theorem tokens_of_some
    {text word rest : List Symbol}
    (isSome : strtok isDelimiter text = some (word, rest)) :
    tokens isDelimiter text = word :: tokens isDelimiter rest := by
  rw [tokens]
  split
  · rename_i isNext
    rw [isSome] at isNext
    cases isNext
  · rename_i other behind isNext
    rw [isSome] at isNext
    cases isNext
    rfl

variable {isDelimiter}

@[simp] theorem tokens_nil :
    tokens isDelimiter [] = [] :=
  tokens_of_none isDelimiter rfl

/-- A word is not empty and contains no delimiter. -/
theorem mem_tokens
    {text word : List Symbol}
    (member : word ∈ tokens isDelimiter text) :
    word ≠ [] ∧ ∀ symbol ∈ word, isDelimiter symbol = false := by
  induction text using tokens.induct isDelimiter with
  | case1 text isNone =>
      rw [tokens_of_none isDelimiter isNone] at member
      cases member
  | case2 text next rest isNext _ inductionHypothesis =>
      rw [tokens_of_some isDelimiter isNext] at member
      rcases List.mem_cons.mp member with rfl | later
      · unfold strtok at isNext
        split at isNext
        · cases isNext
        · rename_i first behind isStart
          obtain ⟨rfl, -⟩ := Prod.mk.inj (Option.some.inj isNext)
          refine ⟨List.cons_ne_nil _ _, ?_⟩
          intro symbol inWord
          rcases List.mem_cons.mp inWord with rfl | inRest
          · have notSkipped := List.head?_dropWhile_not isDelimiter text
            rw [isStart] at notSkipped
            simpa using notSkipped
          · have taken := List.mem_takeWhile_imp inRest
            simpa using taken
      · exact inductionHypothesis later

/-- A delimiter in front of the text is skipped. -/
theorem tokens_cons_of_delimiter
    {symbol : Symbol}
    (delimits : isDelimiter symbol = true)
    (text : List Symbol) :
    tokens isDelimiter (symbol :: text) = tokens isDelimiter text := by
  have same :
      strtok isDelimiter (symbol :: text) = strtok isDelimiter text := by
    unfold strtok
    rw [List.dropWhile_cons_of_pos delimits]
  cases isNext : strtok isDelimiter text with
  | none =>
      rw [tokens_of_none isDelimiter (same.trans isNext),
        tokens_of_none isDelimiter isNext]
  | some found =>
      rw [tokens_of_some isDelimiter (same.trans isNext),
        tokens_of_some isDelimiter isNext]

theorem tokens_replicate_append
    {symbol : Symbol}
    (delimits : isDelimiter symbol = true)
    (count : Nat)
    (text : List Symbol) :
    tokens isDelimiter (List.replicate count symbol ++ text) =
      tokens isDelimiter text := by
  induction count with
  | zero =>
      rfl
  | succ count inductionHypothesis =>
      rw [List.replicate_succ, List.cons_append,
        tokens_cons_of_delimiter delimits, inductionHypothesis]

/-- A word at the end of the text. -/
theorem tokens_word
    {word : List Symbol}
    (nonempty : word ≠ [])
    (noDelimiter : ∀ symbol ∈ word, isDelimiter symbol = false) :
    tokens isDelimiter word = [word] := by
  cases word with
  | nil =>
      exact absurd rfl nonempty
  | cons first rest =>
      have inRest (symbol : Symbol) (member : symbol ∈ rest) :
          (!isDelimiter symbol) = true := by
        simp [noDelimiter symbol (List.mem_cons_of_mem _ member)]
      have isNext :
          strtok isDelimiter (first :: rest) = some (first :: rest, []) := by
        unfold strtok
        rw [List.dropWhile_cons_of_neg
          (by simp [noDelimiter first List.mem_cons_self])]
        dsimp only
        rw [List.takeWhile_eq_self_iff.mpr inRest,
          List.dropWhile_eq_nil_iff.mpr inRest]
        rfl
      rw [tokens_of_some isDelimiter isNext, tokens_nil]

/-- A word with a delimiter behind it. -/
theorem tokens_word_append
    {word : List Symbol}
    (nonempty : word ≠ [])
    (noDelimiter : ∀ symbol ∈ word, isDelimiter symbol = false)
    {symbol : Symbol}
    (delimits : isDelimiter symbol = true)
    (text : List Symbol) :
    tokens isDelimiter (word ++ symbol :: text) =
      word :: tokens isDelimiter text := by
  cases word with
  | nil =>
      exact absurd rfl nonempty
  | cons first rest =>
      have inRest (other : Symbol) (member : other ∈ rest) :
          (!isDelimiter other) = true := by
        simp [noDelimiter other (List.mem_cons_of_mem _ member)]
      have isNext :
          strtok isDelimiter (first :: rest ++ symbol :: text) =
            some (first :: rest, text) := by
        unfold strtok
        rw [List.cons_append, List.dropWhile_cons_of_neg
          (by simp [noDelimiter first List.mem_cons_self])]
        dsimp only
        rw [List.takeWhile_append_of_pos inRest,
          List.dropWhile_append_of_pos inRest,
          List.takeWhile_cons_of_neg (by simp [delimits]),
          List.dropWhile_cons_of_neg (by simp [delimits]), List.append_nil]
        rfl
      exact tokens_of_some isDelimiter isNext

/-- Words with one delimiter between any two. -/
theorem tokens_intercalate
    {words : List (List Symbol)}
    (areWords :
      ∀ word ∈ words,
        word ≠ [] ∧ ∀ symbol ∈ word, isDelimiter symbol = false)
    {symbol : Symbol}
    (delimits : isDelimiter symbol = true) :
    tokens isDelimiter ([symbol].intercalate words) = words := by
  induction words with
  | nil =>
      exact tokens_nil
  | cons word rest inductionHypothesis =>
      obtain ⟨nonempty, noDelimiter⟩ := areWords word List.mem_cons_self
      have later :=
        inductionHypothesis fun other member =>
          areWords other (List.mem_cons_of_mem _ member)
      cases rest with
      | nil =>
          simpa using tokens_word nonempty noDelimiter
      | cons next others =>
          rw [List.intercalate_cons_cons, List.append_assoc,
            List.singleton_append,
            tokens_word_append nonempty noDelimiter delimits, later]

/-- The next word, with the delimiters in front of it and the one behind it. -/
theorem strtok_parts
    {text word rest : List Symbol}
    (isNext : strtok isDelimiter text = some (word, rest)) :
    ∃ gap,
      (∀ symbol ∈ gap, isDelimiter symbol = true) ∧ word ≠ [] ∧
        (∀ symbol ∈ word, isDelimiter symbol = false) ∧
        ((text = gap ++ word ∧ rest = []) ∨
          ∃ delimiter,
            isDelimiter delimiter = true ∧
              text = gap ++ (word ++ delimiter :: rest)) := by
  unfold strtok at isNext
  split at isNext
  · cases isNext
  · rename_i first behind isStart
    obtain ⟨rfl, rfl⟩ := Prod.mk.inj (Option.some.inj isNext)
    have whole :
        text = text.takeWhile isDelimiter ++ (first :: behind) := by
      rw [← isStart, List.takeWhile_append_dropWhile]
    have notFirst : isDelimiter first = false := by
      have notSkipped := List.head?_dropWhile_not isDelimiter text
      rw [isStart] at notSkipped
      simpa using notSkipped
    have parts :
        behind =
          behind.takeWhile (fun symbol => !isDelimiter symbol) ++
            behind.dropWhile fun symbol => !isDelimiter symbol :=
      List.takeWhile_append_dropWhile.symm
    refine ⟨text.takeWhile isDelimiter, ?_, List.cons_ne_nil _ _, ?_, ?_⟩
    · intro symbol member
      exact List.mem_takeWhile_imp member
    · intro symbol member
      rcases List.mem_cons.mp member with rfl | inRest
      · exact notFirst
      · simpa using List.mem_takeWhile_imp inRest
    · cases left : behind.dropWhile fun symbol => !isDelimiter symbol with
      | nil =>
          rw [left, List.append_nil] at parts
          refine Or.inl ⟨?_, rfl⟩
          rw [← parts]
          exact whole
      | cons delimiter rest =>
          have delimits :=
            List.head?_dropWhile_not (fun symbol => !isDelimiter symbol) behind
          rw [left] at delimits parts
          refine Or.inr ⟨delimiter, by simpa using delimits, ?_⟩
          rw [List.tail_cons, List.cons_append, ← parts]
          exact whole

/-- Without a word, the text has delimiters only. -/
theorem strtok_eq_none
    {text : List Symbol}
    (isNone : strtok isDelimiter text = none) :
    ∀ symbol ∈ text, isDelimiter symbol = true := by
  unfold strtok at isNone
  split at isNone
  · rename_i isEmpty
    exact List.dropWhile_eq_nil_iff.mp isEmpty
  · cases isNone

/-- Without a word in it, a text has no tokens. -/
theorem tokens_of_delimiters
    {text : List Symbol}
    (delimit : ∀ symbol ∈ text, isDelimiter symbol = true) :
    tokens isDelimiter text = [] := by
  apply tokens_of_none
  unfold strtok
  rw [List.dropWhile_eq_nil_iff.mpr delimit]

/-- The text in front of a delimiter and the text behind it are taken apart on
their own. -/
theorem tokens_append_cons
    {symbol : Symbol}
    (delimits : isDelimiter symbol = true)
    (text behind : List Symbol) :
    tokens isDelimiter (text ++ symbol :: behind) =
      tokens isDelimiter text ++ tokens isDelimiter behind := by
  have skipGap
      {gap : List Symbol}
      (isGap : ∀ symbol ∈ gap, isDelimiter symbol = true)
      (rest : List Symbol) :
      tokens isDelimiter (gap ++ rest) = tokens isDelimiter rest := by
    induction gap with
    | nil =>
        rfl
    | cons first others inductionHypothesis =>
        rw [List.cons_append,
          tokens_cons_of_delimiter (isGap first List.mem_cons_self)]
        exact inductionHypothesis fun other member =>
          isGap other (List.mem_cons_of_mem _ member)
  induction text using tokens.induct isDelimiter with
  | case1 text isNone =>
      have isGap := strtok_eq_none isNone
      rw [tokens_of_delimiters isGap, skipGap isGap,
        tokens_cons_of_delimiter delimits, List.nil_append]
  | case2 text word rest isNext _ inductionHypothesis =>
      rw [tokens_of_some isDelimiter isNext]
      obtain ⟨gap, isGap, nonempty, isWord, shape⟩ := strtok_parts isNext
      rcases shape with ⟨rfl, rfl⟩ | ⟨delimiter, isDelimiter', rfl⟩
      · rw [List.append_assoc, skipGap isGap,
          tokens_word_append nonempty isWord delimits]
        simp
      · rw [List.append_assoc, skipGap isGap, List.append_assoc,
          List.cons_append, tokens_word_append nonempty isWord isDelimiter',
          inductionHypothesis, List.cons_append]

/-- The text without the delimiters around it. -/
def trimmed
    (isDelimiter : Symbol → Bool)
    (text : List Symbol) : List Symbol :=
  (text.dropWhile isDelimiter).rdropWhile isDelimiter

/-- The delimiters around a text are in no word. -/
theorem tokens_trimmed
    (text : List Symbol) :
    tokens isDelimiter (trimmed isDelimiter text) = tokens isDelimiter text := by
  have behind (rest : List Symbol) :
      tokens isDelimiter (rest.rdropWhile isDelimiter) =
        tokens isDelimiter rest := by
    induction rest using List.reverseRecOn with
    | nil =>
        rfl
    | append_singleton rest symbol inductionHypothesis =>
        rw [List.rdropWhile_concat]
        split
        · rename_i delimits
          rw [inductionHypothesis, tokens_append_cons delimits, tokens_nil,
            List.append_nil]
        · rfl
  rw [trimmed, behind]
  induction text with
  | nil =>
      rfl
  | cons symbol rest inductionHypothesis =>
      rw [List.dropWhile_cons]
      split
      · rename_i delimits
        rw [inductionHypothesis, tokens_cons_of_delimiter delimits]
      · rfl

/-- Every word takes two symbols, except for the separator of the last one. -/
theorem length_tokens_le
    (text : List Symbol) :
    2 * (tokens isDelimiter text).length ≤ text.length + 1 := by
  induction text using tokens.induct isDelimiter with
  | case1 text isNone =>
      rw [tokens_of_none isDelimiter isNone]
      exact Nat.zero_le _
  | case2 text word rest isNext _ inductionHypothesis =>
      rw [tokens_of_some isDelimiter isNext, List.length_cons]
      obtain ⟨gap, -, nonempty, -, shape⟩ := strtok_parts isNext
      have positive := List.length_pos_iff.mpr nonempty
      rcases shape with ⟨rfl, rfl⟩ | ⟨delimiter, -, rfl⟩
      · simp only [tokens_nil, List.length_nil, List.length_append]
        omega
      · simp only [List.length_append, List.length_cons]
        omega

/-- A word stands between delimiters or the ends of the text. -/
theorem tokens_bounded
    {text word : List Symbol}
    (member : word ∈ tokens isDelimiter text) :
    ∃ before behind,
      text = before ++ (word ++ behind) ∧
        (∀ last ∈ before.getLast?, isDelimiter last = true) ∧
        ∀ first ∈ behind.head?, isDelimiter first = true := by
  induction text using tokens.induct isDelimiter with
  | case1 text isNone =>
      rw [tokens_of_none isDelimiter isNone] at member
      cases member
  | case2 text next rest isNext _ inductionHypothesis =>
      rw [tokens_of_some isDelimiter isNext] at member
      obtain ⟨gap, isGap, -, -, shape⟩ := strtok_parts isNext
      rcases List.mem_cons.mp member with rfl | later
      · have delimitsLast (last : Symbol) (isLast : last ∈ gap.getLast?) :
            isDelimiter last = true :=
          isGap last (List.mem_of_getLast? isLast)
        rcases shape with ⟨rfl, -⟩ | ⟨delimiter, delimits, rfl⟩
        · exact ⟨gap, [], by simp, delimitsLast, by simp⟩
        · refine ⟨gap, delimiter :: rest, rfl, delimitsLast, ?_⟩
          intro first isFirst
          cases isFirst
          exact delimits
      · obtain ⟨before, behind, isRest, atLast, atFirst⟩ :=
          inductionHypothesis later
        rcases shape with ⟨-, rfl⟩ | ⟨delimiter, delimits, rfl⟩
        · rw [tokens_nil] at later
          cases later
        · refine ⟨gap ++ next ++ delimiter :: before, behind, ?_, ?_, atFirst⟩
          · simp [isRest]
          · intro last isLast
            rw [List.getLast?_append] at isLast
            cases before with
            | nil =>
                cases isLast
                exact delimits
            | cons symbol others =>
                rw [List.getLast?_cons_cons, List.getLast?_cons, Option.some_or]
                  at isLast
                exact atLast last (by rw [List.getLast?_cons]; exact isLast)

/-- The words, with the symbol once or more often between any two. -/
inductive Separated (symbol : Symbol) : List (List Symbol) → List Symbol → Prop
  | last (word : List Symbol) : Separated symbol [word] word
  | next
      (word : List Symbol)
      (gap : Nat)
      {words : List (List Symbol)}
      {text : List Symbol}
      (rest : Separated symbol words text) :
      Separated symbol (word :: words)
        (word ++ symbol :: (List.replicate gap symbol ++ text))

theorem tokens_separated
    {symbol : Symbol}
    (delimits : isDelimiter symbol = true)
    {words : List (List Symbol)}
    {text : List Symbol}
    (separated : Separated symbol words text)
    (areWords :
      ∀ word ∈ words,
        word ≠ [] ∧ ∀ symbol ∈ word, isDelimiter symbol = false) :
    tokens isDelimiter text = words := by
  induction separated with
  | last word =>
      obtain ⟨nonempty, noDelimiter⟩ := areWords word List.mem_cons_self
      exact tokens_word nonempty noDelimiter
  | next word gap rest inductionHypothesis =>
      obtain ⟨nonempty, noDelimiter⟩ := areWords word List.mem_cons_self
      rw [tokens_word_append nonempty noDelimiter delimits,
        tokens_replicate_append delimits,
        inductionHypothesis fun other member =>
          areWords other (List.mem_cons_of_mem _ member)]

/-- Every word takes two symbols, except for the separator of the last one. -/
theorem Separated.length_le
    {symbol : Symbol}
    {words : List (List Symbol)}
    {text : List Symbol}
    (separated : Separated symbol words text)
    (nonempty : ∀ word ∈ words, word ≠ []) :
    2 * words.length ≤ text.length + 1 := by
  induction separated with
  | last word =>
      have positive :=
        List.length_pos_iff.mpr (nonempty word List.mem_cons_self)
      rw [List.length_singleton]
      omega
  | next word gap rest inductionHypothesis =>
      have positive :=
        List.length_pos_iff.mpr (nonempty word List.mem_cons_self)
      have behind :=
        inductionHypothesis fun other member =>
          nonempty other (List.mem_cons_of_mem _ member)
      simp only [List.length_append, List.length_cons, List.length_replicate]
      omega

end Tokens

/-! ## Searches and copies -/

/-- `strchr(text, symbol) + 1`, if the symbol occurs. -/
def behindFirst
    [DecidableEq Symbol]
    (symbol : Symbol)
    (text : List Symbol) : Option (List Symbol) :=
  match text.dropWhile fun other => decide (other ≠ symbol) with
  | [] => none
  | _ :: rest => some rest

theorem behindFirst_append
    [DecidableEq Symbol]
    {symbol : Symbol}
    {before : List Symbol}
    (notBefore : symbol ∉ before)
    (text : List Symbol) :
    behindFirst symbol (before ++ symbol :: text) = some text := by
  unfold behindFirst
  rw [List.dropWhile_append_of_pos, List.dropWhile_cons_of_neg (by simp)]
  intro other member
  simpa using fun same : other = symbol => notBefore (same ▸ member)

/-- `strcpy` into an array of the given size. -/
def copyInto
    (size : Nat)
    (text : List Symbol) : Option (List Symbol) :=
  if text.length < size then some text else none

theorem copyInto_of_fits
    {size : Nat}
    {text : List Symbol}
    (fits : text.length < size) :
    copyInto size text = some text :=
  if_pos fits

theorem copyInto_eq
    {size : Nat}
    {text copied : List Symbol}
    (isCopied : copyInto size text = some copied) :
    copied = text := by
  unfold copyInto at isCopied
  split at isCopied
  · exact (Option.some.inj isCopied).symm
  · cases isCopied

/-- `strcpy` in a memory that is given by addresses: the text and its ending are
written from the start address on. -/
def strcpyAt
    (ending : Symbol)
    (start : Nat)
    (text : List Symbol)
    (memory : Nat → Symbol)
    (address : Nat) : Symbol :=
  if start ≤ address ∧ address ≤ start + text.length then
    text.getD (address - start) ending
  else
    memory address

/-- A text that is too long for its array changes the symbol behind it, for some
memory. -/
theorem lt_of_strcpyAt_behind
    [Nontrivial Symbol]
    {ending : Symbol}
    {start size : Nat}
    {text : List Symbol}
    (kept :
      ∀ memory,
        strcpyAt ending start text memory (start + size) =
          memory (start + size)) :
    text.length < size := by
  by_contra long
  obtain ⟨other, differs⟩ := exists_ne (text.getD size ending)
  have written := kept fun _ => other
  rw [strcpyAt, if_pos ⟨by omega, by omega⟩, Nat.add_sub_cancel_left] at written
  exact differs written.symm

/-- A text that is shorter than its array leaves all other memory alone. -/
theorem strcpyAt_outside
    {ending : Symbol}
    {start size : Nat}
    {text : List Symbol}
    (short : text.length < size)
    (memory : Nat → Symbol)
    {address : Nat}
    (outside : address < start ∨ start + size ≤ address) :
    strcpyAt ending start text memory address = memory address := by
  rw [strcpyAt, if_neg]
  rintro ⟨behindStart, beforeEnd⟩
  omega

/-- The string in a cleared array of the given size after some symbols are read
into it.  It has no result if the search for its end leaves the array. -/
def bufferString
    [DecidableEq Symbol]
    (size : Nat)
    (ending : Symbol)
    (symbols : List Symbol) : Option (List Symbol) :=
  if symbols.length < size ∨ ending ∈ symbols then
    some (symbols.takeWhile fun symbol => symbol ≠ ending)
  else
    none

theorem bufferString_eq
    [DecidableEq Symbol]
    {size : Nat}
    {ending : Symbol}
    {symbols text : List Symbol}
    (isBuffered : bufferString size ending symbols = some text) :
    text = symbols.takeWhile fun symbol => symbol ≠ ending := by
  unfold bufferString at isBuffered
  split at isBuffered
  · exact (Option.some.inj isBuffered).symm
  · cases isBuffered

/-- The parts between delimiters, empty ones included. -/
def split (isDelimiter : Symbol → Bool) : List Symbol → List (List Symbol)
  | [] => [[]]
  | symbol :: rest =>
      if isDelimiter symbol then
        [] :: split isDelimiter rest
      else
        match split isDelimiter rest with
        | [] => [[symbol]]
        | part :: parts => (symbol :: part) :: parts

/-! ## Numbers -/

/-- Conversion to `int`. -/
def toInt (value : Int) : Int :=
  value.bmod (2 ^ 32)

theorem toInt_of_fits
    {value : Int}
    (lower : -2 ^ 31 ≤ value)
    (upper : value < 2 ^ 31) :
    toInt value = value := by
  apply Int.bmod_eq_of_le
  · exact lower
  · exact upper

/-- `isspace`. -/
def isSpace (symbol : Char) : Bool :=
  symbol = ' ' ∨ 9 ≤ symbol.toNat ∧ symbol.toNat ≤ 13

/-- The value of the decimal digits at the start. -/
def digitsValue (text : List Char) : Nat :=
  Nat.ofDigitChars 10 (text.takeWhile Char.isDigit) 0

/-- `atoi`: the result of `strtol`, which saturates, as an `int`. -/
def atoi (text : List Char) : Int :=
  match text.dropWhile isSpace with
  | '-' :: digits => toInt (max (-2 ^ 63) (-digitsValue digits))
  | '+' :: digits => toInt (min (2 ^ 63 - 1) (digitsValue digits))
  | digits => toInt (min (2 ^ 63 - 1) (digitsValue digits))

theorem not_isSpace_of_isDigit
    {symbol : Char}
    (isDigit : symbol.isDigit = true) :
    isSpace symbol = false := by
  have range : 48 ≤ symbol.toNat ∧ symbol.toNat ≤ 57 := by
    simpa [Char.isDigit, Char.le_def, UInt32.le_iff_toNat_le] using isDigit
  have notSpace : symbol ≠ ' ' := by
    rintro rfl
    exact absurd range (by decide)
  apply decide_eq_false
  rintro (same | ⟨_, upper⟩)
  · exact notSpace same
  · omega

/-- Digits are read as their value. -/
theorem atoi_of_digits
    {digits : List Char}
    (areDigits : ∀ symbol ∈ digits, symbol.isDigit = true)
    (fits : digitsValue digits < 2 ^ 31) :
    atoi digits = digitsValue digits := by
  have value :
      toInt (min (2 ^ 63 - 1) (digitsValue digits : Int)) = digitsValue digits := by
    rw [Int.min_eq_right (by omega)]
    exact toInt_of_fits (by omega) (by omega)
  cases digits with
  | nil =>
      exact value
  | cons first rest =>
      have isDigit := areDigits first List.mem_cons_self
      unfold atoi
      rw [List.dropWhile_cons_of_neg (by simp [not_isSpace_of_isDigit isDigit])]
      split
      · rename_i isMinus
        cases isMinus
        exact absurd isDigit (by decide)
      · rename_i isPlus
        cases isPlus
        exact absurd isDigit (by decide)
      · exact value

end NpServers.CStrings
