import Mathlib.Data.List.Basic
import Mathlib.Data.List.Infix
import Mathlib.Tactic.Common

namespace NpServers.MarkupText

/-!
# Quoted literals and character entities

A text that is shown by a script passes two languages: it is the value of a
single-quoted literal of JavaScript, and then the source of an HTML fragment.
This module has the part of both that such a text meets, and says which texts
survive.  It is independent of any particular program.
-/

/-! ## Character entities -/

/-- Names behind `&`, with the symbols that they stand for. -/
def entities : List (List Char × Char) :=
  [(['N', 'e', 'w', 'L', 'i', 'n', 'e', ';'], '\n'),
    (['#', 'x', '2', '7', ';'], '\''),
    (['l', 't', ';'], '<'),
    (['g', 't', ';'], '>')]

/-- The entity whose name the text starts with. -/
def entityAt (text : List Char) : Option (List Char × Char) :=
  entities.find? fun entity => entity.1.isPrefixOf text

/-- Every entity is replaced by its symbol. -/
def decode : List Char → List Char
  | [] => []
  | symbol :: rest =>
      if symbol = '&' then
        match entityAt rest with
        | some entity => entity.2 :: decode (rest.drop entity.1.length)
        | none => symbol :: decode rest
      else
        symbol :: decode rest
termination_by text => text.length
decreasing_by
  · simp only [List.length_drop, List.length_cons]
    omega
  · simp
  · simp

/-- An entity stands in the text. -/
def HasEntity (text : List Char) : Prop :=
  ∃ entity ∈ entities, ('&' :: entity.1) <:+: text

instance (text : List Char) : Decidable (HasEntity text) :=
  inferInstanceAs (Decidable (∃ entity ∈ entities, _))

/-- `<` with a symbol behind it that makes it a tag. -/
def HasMarkup (text : List Char) : Prop :=
  ∃ symbol,
    (symbol.isAlpha = true ∨ symbol = '/' ∨ symbol = '!' ∨ symbol = '?') ∧
      ['<', symbol] <:+: text

theorem entityAt_some
    {text : List Char}
    {entity : List Char × Char}
    (found : entityAt text = some entity) :
    entity ∈ entities ∧ ∃ rest, text = entity.1 ++ rest := by
  refine ⟨List.mem_of_find?_eq_some found, ?_⟩
  have starts := List.find?_some found
  obtain ⟨rest, same⟩ := List.isPrefixOf_iff_prefix.mp starts
  exact ⟨rest, same.symm⟩

theorem entityAt_name
    {entity : List Char × Char}
    (isEntity : entity ∈ entities)
    (rest : List Char) :
    entityAt (entity.1 ++ rest) = some entity := by
  simp only [entities, List.mem_cons, List.not_mem_nil, or_false] at isEntity
  rcases isEntity with rfl | rfl | rfl | rfl <;> rfl

theorem ampersand_not_mem_name
    {entity : List Char × Char}
    (isEntity : entity ∈ entities) :
    '&' ∉ entity.1 := by
  revert entity
  decide

theorem name_length_pos
    {entity : List Char × Char}
    (isEntity : entity ∈ entities) :
    0 < entity.1.length := by
  revert entity
  decide

@[simp] theorem decode_nil :
    decode [] = [] := by
  rw [decode]

theorem decode_cons_of_ne
    {symbol : Char}
    (notAmpersand : symbol ≠ '&')
    (rest : List Char) :
    decode (symbol :: rest) = symbol :: decode rest := by
  rw [decode, if_neg notAmpersand]

theorem decode_ampersand
    {rest : List Char}
    (noEntity : entityAt rest = none) :
    decode ('&' :: rest) = '&' :: decode rest := by
  rw [decode, if_pos rfl, noEntity]

theorem decode_entity
    {entity : List Char × Char}
    (isEntity : entity ∈ entities)
    (rest : List Char) :
    decode ('&' :: (entity.1 ++ rest)) = entity.2 :: decode rest := by
  rw [decode, if_pos rfl, entityAt_name isEntity]
  simp

/-- Decoding passes a text without `&`. -/
theorem decode_append_of_noAmpersand
    {text : List Char}
    (noAmpersand : '&' ∉ text)
    (rest : List Char) :
    decode (text ++ rest) = text ++ decode rest := by
  induction text with
  | nil =>
      rfl
  | cons symbol others inductionHypothesis =>
      rw [List.mem_cons, not_or] at noAmpersand
      rw [List.cons_append, decode_cons_of_ne (Ne.symm noAmpersand.1),
        inductionHypothesis noAmpersand.2, List.cons_append]

/-- One more symbol decodes to one more at most, and to less where an entity
starts. -/
theorem length_decode_cons
    (symbol : Char)
    (rest : List Char) :
    (decode (symbol :: rest)).length ≤ (decode rest).length + 1 ∧
      ((symbol = '&' ∧ ∃ entity, entityAt rest = some entity) →
        (decode (symbol :: rest)).length < (decode rest).length + 1) := by
  by_cases isAmpersand : symbol = '&'
  · subst isAmpersand
    cases isFound : entityAt rest with
    | none =>
        rw [decode_ampersand isFound]
        simp
    | some entity =>
        obtain ⟨isEntity, behind, rfl⟩ := entityAt_some isFound
        have noAmpersand := ampersand_not_mem_name isEntity
        have nonempty := name_length_pos isEntity
        rw [decode_entity isEntity, decode_append_of_noAmpersand noAmpersand]
        simp only [List.length_cons, List.length_append]
        exact ⟨by omega, fun _ => by omega⟩
  · rw [decode_cons_of_ne isAmpersand]
    exact ⟨le_rfl, fun starts => absurd starts.1 isAmpersand⟩

/-- A prefix without the symbol ends before the symbol. -/
theorem append_of_not_mem
    {symbol : Char}
    {first rest before behind : List Char}
    (same : before ++ symbol :: rest = first ++ behind)
    (outside : symbol ∉ first) :
    ∃ middle, before = first ++ middle ∧ behind = middle ++ symbol :: rest := by
  induction first generalizing before with
  | nil =>
      exact ⟨before, rfl, same.symm⟩
  | cons head tail inductionHypothesis =>
      rw [List.mem_cons, not_or] at outside
      cases before with
      | nil =>
          exact absurd (List.cons.inj same).1 outside.1
      | cons other others =>
          obtain ⟨rfl, sameTail⟩ := List.cons.inj same
          obtain ⟨middle, rfl, isBehind⟩ :=
            inductionHypothesis sameTail outside.2
          exact ⟨middle, rfl, isBehind⟩

/-- A part of a text that does not contain a symbol of it is before or behind
that symbol. -/
theorem infix_append_cons
    {symbol : Char}
    {part before behind : List Char}
    (inside : part <:+: before ++ symbol :: behind)
    (outside : symbol ∉ part) :
    part <:+: before ∨ part <:+: behind := by
  induction before with
  | nil =>
      rcases List.infix_cons_iff.mp inside with starts | later
      · obtain ⟨rest, same⟩ := starts
        obtain ⟨middle, isPart, _⟩ :=
          @append_of_not_mem symbol part behind [] rest same.symm outside
        rw [← (List.append_eq_nil_iff.mp isPart.symm).1]
        exact Or.inl (List.infix_refl _)
      · exact Or.inr later
  | cons head tail inductionHypothesis =>
      rcases List.infix_cons_iff.mp inside with starts | later
      · obtain ⟨rest, same⟩ := starts
        obtain ⟨middle, isBefore, _⟩ :=
          @append_of_not_mem symbol part behind (head :: tail) rest same.symm outside
        rw [isBefore]
        exact Or.inl (List.prefix_append part middle).isInfix
      · rcases inductionHypothesis later with inTail | inBehind
        · exact Or.inl (inTail.trans (List.suffix_cons head tail).isInfix)
        · exact Or.inr inBehind

/-- Decoding stops at a symbol that no name contains. -/
theorem decode_append_cons
    {symbol : Char}
    (outside : ∀ entity ∈ entities, symbol ∉ entity.1)
    (text rest : List Char) :
    decode (text ++ symbol :: rest) = decode text ++ decode (symbol :: rest) := by
  induction isLength : text.length using Nat.strong_induction_on
    generalizing text with
  | _ length inductionHypothesis =>
      cases text with
      | nil =>
          simp
      | cons first others =>
          have shorter : others.length < length := by
            rw [← isLength]
            exact Nat.lt_succ_self _
          by_cases isAmpersand : first = '&'
          · subst isAmpersand
            cases isFound : entityAt (others ++ symbol :: rest) with
            | none =>
                have notBefore : entityAt others = none := by
                  cases isBefore : entityAt others with
                  | none =>
                      rfl
                  | some entity =>
                      obtain ⟨isEntity, behind, rfl⟩ := entityAt_some isBefore
                      rw [List.append_assoc, entityAt_name isEntity] at isFound
                      cases isFound
                rw [List.cons_append, decode_ampersand isFound,
                  decode_ampersand notBefore,
                  inductionHypothesis _ shorter others rfl, List.cons_append]
            | some entity =>
                obtain ⟨isEntity, behind, same⟩ := entityAt_some isFound
                obtain ⟨middle, rfl, _⟩ :=
                  append_of_not_mem same (outside entity isEntity)
                have laterShorter : middle.length < length := by
                  rw [List.length_append] at shorter
                  omega
                rw [List.cons_append, List.append_assoc, decode_entity isEntity,
                  decode_entity isEntity,
                  inductionHypothesis _ laterShorter middle rfl,
                  List.cons_append]
          · rw [List.cons_append, decode_cons_of_ne isAmpersand,
              decode_cons_of_ne isAmpersand,
              inductionHypothesis _ shorter others rfl, List.cons_append]

/-! ## Encoded texts -/

section Encode

variable (encodes : Char → Bool)

/-- The entity of a symbol. -/
def entityOf (symbol : Char) : Option (List Char × Char) :=
  entities.find? fun entity => entity.2 = symbol

/-- One symbol, as its entity if it has one and is to be encoded. -/
def encodeSymbol (symbol : Char) : List Char :=
  if encodes symbol then
    match entityOf symbol with
    | some entity => '&' :: entity.1
    | none => [symbol]
  else
    [symbol]

/-- Some symbols of a text are replaced by their entities. -/
def encode (text : List Char) : List Char :=
  text.flatMap (encodeSymbol encodes)

variable {encodes}

theorem encode_cons
    (symbol : Char)
    (rest : List Char) :
    encode encodes (symbol :: rest) =
      encodeSymbol encodes symbol ++ encode encodes rest :=
  rfl

theorem encode_append
    (first second : List Char) :
    encode encodes (first ++ second) =
      encode encodes first ++ encode encodes second :=
  List.flatMap_append

/-- A symbol stays, or its entity stands for it. -/
theorem encodeSymbol_cases
    (encodes : Char → Bool)
    (symbol : Char) :
    encodeSymbol encodes symbol = [symbol] ∨
      ∃ entity ∈ entities,
        entity.2 = symbol ∧ encodeSymbol encodes symbol = '&' :: entity.1 := by
  unfold encodeSymbol
  split
  · cases isEntity : entityOf symbol with
    | none =>
        exact Or.inl rfl
    | some entity =>
        refine Or.inr ⟨entity, List.mem_of_find?_eq_some isEntity, ?_, rfl⟩
        simpa using List.find?_some isEntity
  · exact Or.inl rfl

/-- A symbol without an entity stays. -/
theorem encodeSymbol_of_plain
    {symbol : Char}
    (plain : ∀ entity ∈ entities, entity.2 ≠ symbol) :
    encodeSymbol encodes symbol = [symbol] := by
  rcases encodeSymbol_cases encodes symbol with stays | ⟨entity, isEntity, same, _⟩
  · exact stays
  · exact absurd same (plain entity isEntity)

/-- Names stay as they are. -/
theorem encode_name
    {entity : List Char × Char}
    (isEntity : entity ∈ entities) :
    encode encodes entity.1 = entity.1 := by
  have outside :
      ∀ entity ∈ entities, ∀ other ∈ entities, other.2 ∉ entity.1 := by
    decide
  have stays : ∀ symbol ∈ entity.1, encodeSymbol encodes symbol = [symbol] := by
    intro symbol member
    apply encodeSymbol_of_plain
    rintro other isOther rfl
    exact outside entity isEntity other isOther member
  rw [encode, List.flatMap_congr stays]
  simp

/-- A symbol of an encoded text is one of the text, or it belongs to an entity. -/
theorem mem_of_mem_encode
    {symbol : Char}
    (notAmpersand : symbol ≠ '&')
    (outside : ∀ entity ∈ entities, symbol ∉ entity.1)
    {text : List Char}
    (member : symbol ∈ encode encodes text) :
    symbol ∈ text := by
  obtain ⟨other, inText, inSymbol⟩ := List.mem_flatMap.mp member
  rcases encodeSymbol_cases encodes other with
    stays | ⟨entity, isEntity, _, encoded⟩
  · rw [stays, List.mem_singleton] at inSymbol
    exact inSymbol ▸ inText
  · rw [encoded] at inSymbol
    rcases List.mem_cons.mp inSymbol with isAmpersand | inName
    · exact absurd isAmpersand notAmpersand
    · exact absurd inName (outside entity isEntity)

/-- A symbol without an entity stays in the text. -/
theorem mem_encode_of_plain
    {symbol : Char}
    (plain : ∀ entity ∈ entities, entity.2 ≠ symbol)
    {text : List Char}
    (member : symbol ∈ text) :
    symbol ∈ encode encodes text := by
  refine List.mem_flatMap.mpr ⟨symbol, member, ?_⟩
  rw [encodeSymbol_of_plain plain]
  exact List.mem_singleton_self symbol

/-- What an encoded text starts with, up to the next `&`, is not encoded. -/
theorem encode_eq_append
    {first text rest : List Char}
    (same : encode encodes text = first ++ rest)
    (noAmpersand : '&' ∉ first) :
    ∃ behind, text = first ++ behind ∧ rest = encode encodes behind := by
  induction first generalizing text with
  | nil =>
      exact ⟨text, rfl, same.symm⟩
  | cons head tail inductionHypothesis =>
      rw [List.mem_cons, not_or] at noAmpersand
      cases text with
      | nil =>
          cases same
      | cons symbol others =>
          rw [encode_cons] at same
          rcases encodeSymbol_cases encodes symbol with
            stays | ⟨entity, _, _, isEntity⟩
          · rw [stays] at same
            obtain ⟨rfl, sameTail⟩ := List.cons.inj same
            obtain ⟨behind, rfl, isRest⟩ :=
              inductionHypothesis sameTail noAmpersand.2
            exact ⟨behind, rfl, isRest⟩
          · rw [isEntity] at same
            exact absurd (List.cons.inj same).1 noAmpersand.1

/-- Decoding gives back an encoded text without entities of its own. -/
theorem decode_encode
    {text : List Char}
    (noEntity : ¬ HasEntity text) :
    decode (encode encodes text) = text := by
  induction text with
  | nil =>
      simp [encode]
  | cons symbol rest inductionHypothesis =>
      have later : ¬ HasEntity rest := by
        rintro ⟨entity, isEntity, inside⟩
        exact noEntity ⟨entity, isEntity, inside.trans (List.suffix_cons _ _).isInfix⟩
      rw [encode_cons]
      rcases encodeSymbol_cases encodes symbol with
        stays | ⟨entity, isEntity, rfl, encoded⟩
      · rw [stays, List.singleton_append]
        by_cases isAmpersand : symbol = '&'
        · subst isAmpersand
          have noneHere : entityAt (encode encodes rest) = none := by
            cases isFound : entityAt (encode encodes rest) with
            | none =>
                rfl
            | some entity =>
                obtain ⟨isEntity, behind, same⟩ := entityAt_some isFound
                obtain ⟨others, rfl, _⟩ :=
                  encode_eq_append same (ampersand_not_mem_name isEntity)
                exact absurd
                  ⟨entity, isEntity, (List.prefix_append ('&' :: entity.1) others).isInfix⟩
                  noEntity
          rw [decode_ampersand noneHere, inductionHypothesis later]
        · rw [decode_cons_of_ne isAmpersand, inductionHypothesis later]
      · rw [encoded, List.cons_append, decode_entity isEntity,
          inductionHypothesis later]

/-- Decoding never gives more than the text, and less if it has an entity. -/
theorem length_decode_encode
    (text : List Char) :
    (decode (encode encodes text)).length ≤ text.length ∧
      (HasEntity text →
        (decode (encode encodes text)).length < text.length) := by
  induction text with
  | nil =>
      refine ⟨by simp [encode], ?_⟩
      rintro ⟨entity, _, inside⟩
      exact absurd (List.infix_nil.mp inside) (List.cons_ne_nil _ _)
  | cons symbol rest inductionHypothesis =>
      obtain ⟨atMost, less⟩ := inductionHypothesis
      rw [encode_cons]
      rcases encodeSymbol_cases encodes symbol with
        stays | ⟨other, isOther, rfl, encoded⟩
      · rw [stays, List.singleton_append, List.length_cons]
        obtain ⟨oneMore, lessHere⟩ :=
          length_decode_cons symbol (encode encodes rest)
        refine ⟨by omega, ?_⟩
        rintro ⟨entity, isEntity, inside⟩
        rcases List.infix_cons_iff.mp inside with starts | later
        · obtain ⟨behind, same⟩ := starts
          obtain ⟨rfl, _⟩ := List.cons.inj same
          have isRest : entity.1 ++ behind = rest := (List.cons.inj same).2
          have found : entityAt (encode encodes rest) = some entity := by
            rw [← isRest, encode_append, encode_name isEntity]
            exact entityAt_name isEntity _
          have := lessHere ⟨rfl, entity, found⟩
          omega
        · have := less ⟨entity, isEntity, later⟩
          omega
      · rw [encoded, List.cons_append, decode_entity isOther, List.length_cons,
          List.length_cons]
        refine ⟨by omega, ?_⟩
        rintro ⟨entity, isEntity, inside⟩
        rcases List.infix_cons_iff.mp inside with starts | later
        · obtain ⟨behind, same⟩ := starts
          have notAmpersand : ∀ entity ∈ entities, entity.2 ≠ '&' := by
            decide
          exact absurd (List.cons.inj same).1.symm (notAmpersand other isOther)
        · have := less ⟨entity, isEntity, later⟩
          omega

end Encode

/-! ## Quoted literals -/

/--
The escape sequences of JavaScript, behind the backslash.  A sequence has a
symbol at least and stands for at most one.  `&` stands for itself, and no other
sequence contains it.
-/
structure EscapeRules where
  escape : List Char → Option (List Char × List Char)
  shape :
    ∀ text value rest,
      escape text = some (value, rest) →
        ∃ used,
          text = used ++ rest ∧ used ≠ [] ∧
            (used = ['&'] ∧ value = ['&'] ∨ '&' ∉ used ∧ value.length ≤ 1)

/-- A symbol that stands for itself in a literal. -/
def IsPlain (symbol : Char) : Prop :=
  symbol ≠ '\'' ∧ symbol ≠ '\\' ∧ symbol ≠ '\n' ∧ symbol ≠ '\r'

/-- The line terminators of JavaScript. -/
def lineTerminators : List Char :=
  ['\n', '\r', Char.ofNat 0x2028, Char.ofNat 0x2029]

/-- Behind an opening quote: the value of the literal, and what follows the quote
that ends it. -/
inductive Evaluates (rules : EscapeRules) :
    List Char → List Char → List Char → Prop
  | quote (rest : List Char) : Evaluates rules ('\'' :: rest) [] rest
  | plain
      {symbol : Char}
      {text value rest : List Char}
      (isPlain : IsPlain symbol)
      (behind : Evaluates rules text value rest) :
      Evaluates rules (symbol :: text) (symbol :: value) rest
  | escape
      {text part later value rest : List Char}
      (isEscape : rules.escape text = some (part, later))
      (behind : Evaluates rules later value rest) :
      Evaluates rules ('\\' :: text) (part ++ value) rest

section Literal

variable {rules : EscapeRules}

/-- A literal has its last quote at least. -/
theorem Evaluates.length_lt
    {text value rest : List Char}
    (evaluates : Evaluates rules text value rest) :
    rest.length < text.length := by
  induction evaluates with
  | quote rest =>
      exact Nat.lt_succ_self _
  | plain _ _ inductionHypothesis =>
      exact Nat.lt_succ_of_lt inductionHypothesis
  | escape isEscape _ inductionHypothesis =>
      obtain ⟨used, rfl, _⟩ := rules.shape _ _ _ isEscape
      simp only [List.length_cons, List.length_append]
      omega

/-- The ways in which a literal goes on at a symbol. -/
theorem Evaluates.cases_cons
    {symbol : Char}
    {text value rest : List Char}
    (evaluates : Evaluates rules (symbol :: text) value rest) :
    (symbol = '\'' ∧ value = [] ∧ rest = text) ∨
      (IsPlain symbol ∧
        ∃ behind, value = symbol :: behind ∧ Evaluates rules text behind rest) ∨
      (symbol = '\\' ∧
        ∃ part later behind,
          rules.escape text = some (part, later) ∧
            value = part ++ behind ∧ Evaluates rules later behind rest) := by
  cases evaluates with
  | quote =>
      exact Or.inl ⟨rfl, rfl, rfl⟩
  | plain isPlain behind =>
      exact Or.inr (Or.inl ⟨isPlain, _, rfl, behind⟩)
  | escape isEscape behind =>
      exact Or.inr (Or.inr ⟨rfl, _, _, _, isEscape, rfl, behind⟩)

theorem evaluates_plain
    {body : List Char}
    (arePlain : ∀ symbol ∈ body, IsPlain symbol)
    (later : List Char) :
    Evaluates rules (body ++ '\'' :: later) body later := by
  induction body with
  | nil =>
      exact .quote later
  | cons symbol rest inductionHypothesis =>
      exact
        .plain (arePlain symbol List.mem_cons_self)
          (inductionHypothesis fun other member =>
            arePlain other (List.mem_cons_of_mem _ member))

/-- A literal starts with the plain symbols that its text starts with. -/
theorem Evaluates.of_plain_append
    {block text value rest : List Char}
    (arePlain : ∀ symbol ∈ block, IsPlain symbol)
    (evaluates : Evaluates rules (block ++ text) value rest) :
    ∃ behind, value = block ++ behind ∧ Evaluates rules text behind rest := by
  induction block generalizing value with
  | nil =>
      exact ⟨value, rfl, evaluates⟩
  | cons symbol others inductionHypothesis =>
      have isPlain := arePlain symbol List.mem_cons_self
      rcases evaluates.cases_cons with
        ⟨isQuote, _⟩ | ⟨_, later, rfl, isLater⟩ | ⟨isBackslash, _⟩
      · exact absurd isQuote isPlain.1
      · obtain ⟨behind, rfl, isBehind⟩ :=
          inductionHypothesis
            (fun other member => arePlain other (List.mem_cons_of_mem _ member))
            isLater
        exact ⟨behind, rfl, isBehind⟩
      · exact absurd isBackslash isPlain.2.1

/-- Without a backslash, a literal that ends at its last quote is its own value. -/
theorem Evaluates.of_noBackslash
    {body value later : List Char}
    (noBackslash : '\\' ∉ body)
    (evaluates : Evaluates rules (body ++ '\'' :: later) value later) :
    value = body ∧ ∀ symbol ∈ body, IsPlain symbol := by
  induction body generalizing value with
  | nil =>
      rcases evaluates.cases_cons with
        ⟨_, rfl, _⟩ | ⟨isPlain, _⟩ | ⟨isBackslash, _⟩
      · exact ⟨rfl, fun symbol member => absurd member List.not_mem_nil⟩
      · exact absurd rfl isPlain.1
      · exact absurd isBackslash (by decide)
  | cons symbol rest inductionHypothesis =>
      rw [List.mem_cons, not_or] at noBackslash
      rcases evaluates.cases_cons with
        ⟨_, _, isEnd⟩ | ⟨isPlain, behind, rfl, isBehind⟩ | ⟨isBackslash, _⟩
      · exact absurd (congrArg List.length isEnd) (by simp; omega)
      · obtain ⟨rfl, arePlain⟩ := inductionHypothesis noBackslash.2 isBehind
        refine ⟨rfl, ?_⟩
        intro other member
        rcases List.mem_cons.mp member with rfl | inRest
        · exact isPlain
        · exact arePlain other inRest
      · exact absurd isBackslash.symm noBackslash.1

variable {encodes : Char → Bool}

theorem plain_entity
    {entity : List Char × Char}
    (isEntity : entity ∈ entities) :
    ∀ symbol ∈ entity.1, IsPlain symbol := by
  have absent :
      ∀ entity ∈ entities,
        '\'' ∉ entity.1 ∧ '\\' ∉ entity.1 ∧ '\n' ∉ entity.1 ∧
          '\r' ∉ entity.1 := by
    decide
  obtain ⟨noQuote, noBackslash, noNewline, noReturn⟩ := absent entity isEntity
  intro symbol member
  refine ⟨?_, ?_, ?_, ?_⟩
  · rintro rfl
    exact noQuote member
  · rintro rfl
    exact noBackslash member
  · rintro rfl
    exact noNewline member
  · rintro rfl
    exact noReturn member

/-- An escape sequence without `&` takes symbols of the text, or it takes the
quote behind it. -/
theorem encode_quote_eq_append
    {used text behind later : List Char}
    (same : encode encodes text ++ '\'' :: later = used ++ behind)
    (noAmpersand : '&' ∉ used) :
    (∃ rest,
        text = used ++ rest ∧ behind = encode encodes rest ++ '\'' :: later) ∨
      behind.length ≤ later.length := by
  rcases List.append_eq_append_iff.mp same with
    ⟨middle, isUsed, isLater⟩ | ⟨middle, isEncoded, isBehind⟩
  · cases middle with
    | nil =>
        rw [List.append_nil] at isUsed
        obtain ⟨rest, rfl, isRest⟩ :=
          encode_eq_append (isUsed.symm.trans (List.append_nil _).symm) noAmpersand
        left
        refine ⟨rest, rfl, ?_⟩
        rw [← isRest]
        exact isLater.symm
    | cons head tail =>
        right
        have lengths := congrArg List.length isLater
        simp only [List.length_append, List.length_cons] at lengths
        omega
  · obtain ⟨rest, rfl, isRest⟩ := encode_eq_append isEncoded noAmpersand
    exact Or.inl ⟨rest, rfl, by rw [isBehind, isRest]⟩

/-- A value of at most one symbol adds at most one. -/
theorem length_decode_part
    {part : List Char}
    (short : part.length ≤ 1)
    (rest : List Char) :
    (decode (part ++ rest)).length ≤ (decode rest).length + 1 := by
  match part, short with
  | [], _ =>
      simp
  | [symbol], _ =>
      exact (length_decode_cons symbol rest).1

/-- The text of a literal is not shorter than what is shown of it, and longer if
it has a backslash. -/
theorem Evaluates.length_decode
    {text value later : List Char}
    (evaluates :
      Evaluates rules (encode encodes text ++ '\'' :: later) value later) :
    (decode value).length ≤ text.length ∧
      ('\\' ∈ text → (decode value).length < text.length) := by
  induction isLength : text.length using Nat.strong_induction_on
    generalizing text value with
  | _ length inductionHypothesis =>
      cases text with
      | nil =>
          rcases evaluates.cases_cons with
            ⟨_, rfl, _⟩ | ⟨isPlain, _⟩ | ⟨isBackslash, _⟩
          · simp
          · exact absurd rfl isPlain.1
          · exact absurd isBackslash (by decide)
      | cons symbol rest =>
          rw [List.length_cons] at isLength
          rw [encode_cons] at evaluates
          rcases encodeSymbol_cases encodes symbol with
            stays | ⟨entity, isEntity, isSymbol, encoded⟩
          · rw [stays, List.append_assoc, List.singleton_append] at evaluates
            rcases evaluates.cases_cons with
              ⟨_, _, isEnd⟩ | ⟨isPlain, behind, rfl, isBehind⟩ |
                ⟨_, part, left, behind, isEscape, rfl, isBehind⟩
            · exact absurd (congrArg List.length isEnd) (by simp; omega)
            · obtain ⟨atMost, less⟩ :=
                inductionHypothesis _ (by omega) isBehind rfl
              have oneMore := (length_decode_cons symbol behind).1
              refine ⟨by omega, ?_⟩
              intro member
              rcases List.mem_cons.mp member with isBackslash | inRest
              · exact absurd isBackslash.symm isPlain.2.1
              · have := less inRest
                omega
            · -- the symbols of the escape sequence are lost but for one
              suffices strict : (decode (part ++ behind)).length < length from
                ⟨strict.le, fun _ => strict⟩
              obtain ⟨used, same, nonempty, isAmpersand | others⟩ :=
                rules.shape _ _ _ isEscape
              · obtain ⟨rfl, rfl⟩ := isAmpersand
                cases rest with
                | nil =>
                    exact absurd (List.cons.inj same).1 (by decide)
                | cons next others =>
                    rw [List.length_cons] at isLength
                    rw [encode_cons] at same
                    rcases encodeSymbol_cases encodes next with
                      stays | ⟨entity, isEntity, _, encoded⟩
                    · rw [stays] at same
                      obtain ⟨_, rfl⟩ := List.cons.inj same
                      obtain ⟨atMost, _⟩ :=
                        inductionHypothesis _ (by omega) isBehind rfl
                      have oneMore := (length_decode_cons '&' behind).1
                      rw [List.singleton_append]
                      omega
                    · -- the entity behind the backslash is whole again
                      rw [encoded, List.append_assoc] at same
                      obtain ⟨_, rfl⟩ := List.cons.inj same
                      obtain ⟨last, rfl, isLast⟩ :=
                        isBehind.of_plain_append (plain_entity isEntity)
                      obtain ⟨atMost, _⟩ :=
                        inductionHypothesis _ (by omega) isLast rfl
                      rw [List.singleton_append, decode_entity isEntity,
                        List.length_cons]
                      omega
              · obtain ⟨noAmpersand, short⟩ := others
                rcases encode_quote_eq_append same noAmpersand with
                  ⟨others, rfl, rfl⟩ | crossed
                · have positive := List.length_pos_iff.mpr nonempty
                  rw [List.length_append] at isLength
                  obtain ⟨atMost, _⟩ :=
                    inductionHypothesis _ (by omega) isBehind rfl
                  have added := length_decode_part short behind
                  omega
                · have := isBehind.length_lt
                  omega
          · have arePlain : ∀ symbol ∈ '&' :: entity.1, IsPlain symbol := by
              intro other member
              rcases List.mem_cons.mp member with rfl | inName
              · exact ⟨by decide, by decide, by decide, by decide⟩
              · exact plain_entity isEntity other inName
            rw [encoded, List.append_assoc] at evaluates
            obtain ⟨behind, rfl, isBehind⟩ := evaluates.of_plain_append arePlain
            obtain ⟨atMost, less⟩ := inductionHypothesis _ (by omega) isBehind rfl
            rw [List.cons_append, decode_entity isEntity, List.length_cons]
            refine ⟨by omega, ?_⟩
            intro member
            rcases List.mem_cons.mp member with isBackslash | inRest
            · have notBackslash : ∀ entity ∈ entities, entity.2 ≠ '\\' := by
                decide
              exact absurd (isSymbol.trans isBackslash.symm)
                (notBackslash entity isEntity)
            · have := less inRest
              omega

/-- What is shown of a literal is its text exactly if nothing in it is taken for
an escape sequence or an entity. -/
theorem Evaluates.decode_eq_iff
    {text value later : List Char}
    (evaluates :
      Evaluates rules (encode encodes text ++ '\'' :: later) value later) :
    decode value = text ↔ '\\' ∉ text ∧ ¬ HasEntity text := by
  have noneInEncoded (noBackslash : '\\' ∉ text) :
      '\\' ∉ encode encodes text :=
    fun member => noBackslash (mem_of_mem_encode (by decide) (by decide) member)
  constructor
  · intro same
    have sameLength := congrArg List.length same
    have noBackslash : '\\' ∉ text := by
      intro member
      have := evaluates.length_decode.2 member
      omega
    obtain ⟨rfl, _⟩ := evaluates.of_noBackslash (noneInEncoded noBackslash)
    refine ⟨noBackslash, ?_⟩
    intro hasEntity
    have := (@length_decode_encode encodes text).2 hasEntity
    omega
  · rintro ⟨noBackslash, noEntity⟩
    obtain ⟨rfl, _⟩ := evaluates.of_noBackslash (noneInEncoded noBackslash)
    exact decode_encode noEntity

end Literal

end NpServers.MarkupText
