import NpServers.SocksSession

namespace NpServers.Socks

/-!
# The rules of the firewall

`check_dest_ip` compares the address with the pattern of each rule by two
cursors that advance at different rates.  For patterns and addresses made of
dotted fields this is matching field by field.

`fscanf` stops in the middle of a rule when the file ends there, and the arrays
that it has not filled still hold the rule before.  So the end of a damaged file
can permit what no complete rule permits.
-/

/-! ## Dotted fields -/

/-- The text of some fields with a dot between any two. -/
def dotted : List (List Char) → List Char
  | [] => []
  | field :: rest => field ++ rest.flatMap fun next => '.' :: next

/-- A field of an address. -/
def IsLiteral (field : List Char) : Prop :=
  field ≠ [] ∧ '*' ∉ field ∧ '.' ∉ field

instance (field : List Char) : Decidable (IsLiteral field) :=
  inferInstanceAs (Decidable (_ ∧ _ ∧ _))

/-- A field of a pattern is a wildcard or a literal. -/
def IsPatternField (field : List Char) : Prop :=
  field = ['*'] ∨ IsLiteral field

instance (field : List Char) : Decidable (IsPatternField field) :=
  inferInstanceAs (Decidable (_ ∨ _))

/-- A pattern field accepts an address field. -/
def FieldMatches (pattern field : List Char) : Prop :=
  pattern = ['*'] ∨ pattern = field

/-- The fields of an address; the empty address has none. -/
structure AddressFields where
  fields : List (List Char)
  literal : ∀ field ∈ fields, IsLiteral field

/-- A complete line of the rule file. -/
structure FirewallRule where
  word : List Char
  op : Char
  fields : List (List Char)
  nonempty : fields ≠ []
  wellFormed : ∀ field ∈ fields, IsPatternField field

namespace FirewallRule

/-- The words of a rule. -/
def words (rule : FirewallRule) : List (List Char) :=
  [rule.word, [rule.op], dotted rule.fields]

/-- The letter of the rule selects the command. -/
def Selects
    (rule : FirewallRule)
    (command : UInt8) : Prop :=
  rule.op = 'c' ∧ command = 1 ∨ rule.op = 'b' ∧ command = 2

/-- As many fields as the address has, and each of them accepts its field. -/
def Accepts
    (rule : FirewallRule)
    (address : AddressFields) : Prop :=
  List.Forall₂ FieldMatches rule.fields address.fields

end FirewallRule

/-! ## The two cursors -/

/-- What follows a field: nothing, or a dot and the next field. -/
def AtFieldEnd (text : List Char) : Prop :=
  text = [] ∨ ∃ rest, text = '.' :: rest

theorem atFieldEnd_flatMap
    (fields : List (List Char)) :
    AtFieldEnd (fields.flatMap fun next => '.' :: next) := by
  cases fields with
  | nil =>
      exact Or.inl rfl
  | cons field rest =>
      exact Or.inr ⟨_, rfl⟩

/-- The cursors pass a literal exactly if it is the field of the address. -/
theorem matchIp_literal
    {field pattern : List Char}
    (fieldLiteral : '*' ∉ field ∧ '.' ∉ field)
    (patternLiteral : '*' ∉ pattern ∧ '.' ∉ pattern)
    {text symbols : List Char}
    (textEnd : AtFieldEnd text)
    (symbolsEnd : AtFieldEnd symbols) :
    matchIp (field ++ text) (pattern ++ symbols) = true ↔
      pattern = field ∧ matchIp text symbols = true := by
  induction pattern generalizing field with
  | nil =>
      cases field with
      | nil =>
          simp
      | cons digit rest =>
          -- the pattern is at the end of its field, the address is not
          have notDot : digit ≠ '.' := by
            rintro rfl
            exact fieldLiteral.2 List.mem_cons_self
          rcases symbolsEnd with rfl | ⟨later, rfl⟩
          · simp [matchIp]
          · simp [matchIp, notDot]
  | cons symbol others inductionHypothesis =>
      have notStar : symbol ≠ '*' := by
        rintro rfl
        exact patternLiteral.1 List.mem_cons_self
      have notDot : symbol ≠ '.' := by
        rintro rfl
        exact patternLiteral.2 List.mem_cons_self
      cases field with
      | nil =>
          rcases textEnd with rfl | ⟨later, rfl⟩
          · simp [matchIp]
          · simp [matchIp, notStar, notDot.symm]
      | cons digit rest =>
          have step :=
            @inductionHypothesis rest
              ⟨fun member => fieldLiteral.1 (List.mem_cons_of_mem _ member),
                fun member => fieldLiteral.2 (List.mem_cons_of_mem _ member)⟩
              ⟨fun member => patternLiteral.1 (List.mem_cons_of_mem _ member),
                fun member => patternLiteral.2 (List.mem_cons_of_mem _ member)⟩
          by_cases same : digit = symbol
          · subst same
            simpa [matchIp] using step
          · simp [matchIp, same, notStar, Ne.symm same]

/-- A wildcard passes one field of the address. -/
theorem matchIp_wildcard
    {field : List Char}
    (literal : IsLiteral field)
    {text : List Char}
    (textEnd : AtFieldEnd text)
    (symbols : List Char) :
    matchIp (field ++ text) ('*' :: symbols) = matchIp text symbols := by
  obtain ⟨nonempty, noStar, noDot⟩ := literal
  have skipped :
      (field ++ text).dropWhile (fun next => decide (next ≠ '.')) = text := by
    rw [List.dropWhile_append_of_pos]
    · rcases textEnd with rfl | ⟨later, rfl⟩
      · rfl
      · simp
    · intro next member
      simpa using fun isDot : next = '.' => noDot (isDot ▸ member)
  cases field with
  | nil =>
      exact absurd rfl nonempty
  | cons digit rest =>
      have notStar : digit ≠ '*' := by
        rintro rfl
        exact noStar List.mem_cons_self
      rw [List.cons_append] at skipped ⊢
      rw [matchIp, if_pos notStar, if_pos rfl, skipped]

/-- One field of the pattern against one field of the address. -/
theorem matchIp_field
    {pattern field : List Char}
    (isPattern : IsPatternField pattern)
    (literal : IsLiteral field)
    {text symbols : List Char}
    (textEnd : AtFieldEnd text)
    (symbolsEnd : AtFieldEnd symbols) :
    matchIp (field ++ text) (pattern ++ symbols) = true ↔
      FieldMatches pattern field ∧ matchIp text symbols = true := by
  unfold FieldMatches
  rcases isPattern with rfl | patternLiteral
  · rw [List.singleton_append, matchIp_wildcard literal textEnd]
    simp
  · have notStar : pattern ≠ ['*'] := by
      rintro rfl
      exact patternLiteral.2.1 List.mem_cons_self
    rw [matchIp_literal literal.2 patternLiteral.2 textEnd symbolsEnd]
    simp [notStar]

/-- The fields behind the first one. -/
theorem matchIp_rest
    {patterns fields : List (List Char)}
    (arePatterns : ∀ pattern ∈ patterns, IsPatternField pattern)
    (literal : ∀ field ∈ fields, IsLiteral field) :
    matchIp (fields.flatMap fun next => '.' :: next)
        (patterns.flatMap fun next => '.' :: next) = true ↔
      List.Forall₂ FieldMatches patterns fields := by
  induction patterns generalizing fields with
  | nil =>
      cases fields with
      | nil =>
          simp [matchIp]
      | cons field rest =>
          exact iff_of_false (by simp [matchIp]) (by rintro ⟨⟩)
  | cons pattern others inductionHypothesis =>
      cases fields with
      | nil =>
          exact iff_of_false (by simp [matchIp]) (by rintro ⟨⟩)
      | cons field rest =>
          have later :=
            inductionHypothesis
              (fun next member =>
                arePatterns next (List.mem_cons_of_mem _ member))
              (fun next member => literal next (List.mem_cons_of_mem _ member))
          have first :=
            matchIp_field (arePatterns pattern List.mem_cons_self)
              (literal field List.mem_cons_self)
              (atFieldEnd_flatMap rest) (atFieldEnd_flatMap others)
          rw [later] at first
          simpa [List.flatMap_cons, matchIp] using first

/-- The loop of `check_dest_ip` matches field by field. -/
theorem matchIp_dotted_iff
    (rule : FirewallRule)
    (address : AddressFields) :
    matchIp (dotted address.fields) (dotted rule.fields) = true ↔
      rule.Accepts address := by
  obtain ⟨_, _, patterns, nonempty, arePatterns⟩ := rule
  obtain ⟨fields, literal⟩ := address
  unfold FirewallRule.Accepts
  dsimp only
  cases patterns with
  | nil =>
      exact absurd rfl nonempty
  | cons pattern others =>
      cases fields with
      | nil =>
          -- the empty address ends before any pattern
          have notEmpty : pattern ≠ [] := by
            rcases arePatterns pattern List.mem_cons_self with
              rfl | isLiteral
            · simp
            · exact isLiteral.1
          cases pattern with
          | nil => exact absurd rfl notEmpty
          | cons symbol symbols =>
              exact iff_of_false (by simp [dotted, matchIp]) (by rintro ⟨⟩)
      | cons field rest =>
          have first :=
            matchIp_field (arePatterns pattern List.mem_cons_self)
              (literal field List.mem_cons_self)
              (atFieldEnd_flatMap rest) (atFieldEnd_flatMap others)
          have later :=
            matchIp_rest
              (fun next member =>
                arePatterns next (List.mem_cons_of_mem _ member))
              (fun next member => literal next (List.mem_cons_of_mem _ member))
          rw [later] at first
          simpa [dotted] using first

/-! ## Files of complete rules -/

theorem sameType_iff
    (rule : FirewallRule)
    (command : UInt8) :
    sameType command.toNat [rule.op] = true ↔ rule.Selects command := by
  have isConnect : command.toNat = 1 ↔ command = 1 :=
    ⟨fun same => UInt8.toNat_inj.mp same, fun same => same ▸ rfl⟩
  have isBind : command.toNat = 2 ↔ command = 2 :=
    ⟨fun same => UInt8.toNat_inj.mp same, fun same => same ▸ rfl⟩
  simp [sameType, FirewallRule.Selects, isConnect, isBind, and_comm]

/--
On a file of complete rules the firewall permits a request exactly if some rule
selects its command and accepts its address field by field, whatever the arrays
held before.
-/
theorem checkDestIp_complete_iff
    (rules : List FirewallRule)
    (command : UInt8)
    (address : AddressFields)
    (buffers : RuleBuffers) :
    checkDestIp command.toNat (dotted address.fields) buffers
        (rules.flatMap FirewallRule.words) = true ↔
      ∃ rule ∈ rules, rule.Selects command ∧ rule.Accepts address := by
  induction rules generalizing buffers with
  | nil =>
      simp [checkDestIp]
  | cons rule rest inductionHypothesis =>
      have here :
          matchRule command.toNat (dotted address.fields)
              { ignore := rule.word
                opType := [rule.op]
                ip := dotted rule.fields } = true ↔
            rule.Selects command ∧ rule.Accepts address := by
        rw [matchRule, Bool.and_eq_true, sameType_iff, matchIp_dotted_iff]
      rw [List.flatMap_cons, FirewallRule.words]
      simp only [List.cons_append, List.nil_append, checkDestIp, Bool.or_eq_true,
        inductionHypothesis, here, List.mem_cons, exists_eq_or_imp]

/-! ## Damaged files -/

/-- The complete rules of a file. -/
def completeRules : List (List Char) → List RuleBuffers
  | ignore :: opType :: ip :: rest =>
      { ignore := ignore, opType := opType, ip := ip } :: completeRules rest
  | _ => []

/-- The words behind the last complete rule. -/
def strayWords : List (List Char) → List (List Char)
  | _ :: _ :: _ :: rest => strayWords rest
  | words => words

/-- The arrays after the last complete rule. -/
def heldBuffers
    (buffers : RuleBuffers)
    (words : List (List Char)) : RuleBuffers :=
  (completeRules words).getLastD buffers

/-- A complete rule of the file permits the request. -/
def Permitted
    (operation : Nat)
    (destIp : List Char)
    (words : List (List Char)) : Prop :=
  ∃ rule ∈ completeRules words, matchRule operation destIp rule = true

/--
The end of the file permits the request by itself: its last two words select the
command and the pattern left from the rule before accepts the address, or it is
a single word and the uninitialised arrays match.
-/
def StrayPermits
    (operation : Nat)
    (destIp : List Char)
    (buffers : RuleBuffers)
    (words : List (List Char)) : Prop :=
  (∃ ignore opType,
      strayWords words = [ignore, opType] ∧
        sameType operation opType = true ∧
        matchIp destIp (heldBuffers buffers words).ip = true) ∨
    (∃ ignore,
      words = [ignore] ∧ matchRule operation destIp buffers = true)

theorem heldBuffers_cons
    (buffers : RuleBuffers)
    (ignore opType ip : List Char)
    (rest : List (List Char)) :
    heldBuffers buffers (ignore :: opType :: ip :: rest) =
      heldBuffers { ignore := ignore, opType := opType, ip := ip } rest := by
  unfold heldBuffers
  rw [completeRules, List.getLastD_cons]

/-- A request is permitted by a complete rule or by the end of the file. -/
theorem checkDestIp_iff
    (operation : Nat)
    (destIp : List Char)
    (buffers : RuleBuffers)
    (words : List (List Char)) :
    checkDestIp operation destIp buffers words = true ↔
      Permitted operation destIp words ∨
        StrayPermits operation destIp buffers words := by
  unfold Permitted StrayPermits
  induction buffers, words using checkDestIp.induct with
  | case1 buffers =>
      simp [checkDestIp, completeRules, strayWords]
  | case2 buffers ignore =>
      simp [checkDestIp, completeRules, strayWords, matchRule]
  | case3 buffers ignore opType =>
      simp [checkDestIp, completeRules, strayWords, heldBuffers, matchRule]
  | case4 buffers ignore opType ip rest inductionHypothesis =>
      rw [checkDestIp, Bool.or_eq_true, inductionHypothesis, heldBuffers_cons,
        completeRules, strayWords]
      simp only [List.mem_cons, exists_eq_or_imp]
      constructor
      · rintro (here | later | stray | ⟨word, isRest, again⟩)
        · exact Or.inl (Or.inl here)
        · exact Or.inl (Or.inr later)
        · exact Or.inr (Or.inl stray)
        · -- a single word repeats the rule before it
          exact Or.inl (Or.inl again)
      · rintro ((here | later) | stray | ⟨word, isRest, _⟩)
        · exact Or.inl here
        · exact Or.inr (Or.inl later)
        · exact Or.inr (Or.inr (Or.inl stray))
        · simp at isRest

/--
The firewall permits a request only if a complete rule does, exactly unless the
end of a damaged file permits by itself what no complete rule permits.
-/
theorem firewall_fails_closed_iff
    (operation : Nat)
    (destIp : List Char)
    (buffers : RuleBuffers)
    (words : List (List Char)) :
    (checkDestIp operation destIp buffers words = true →
        Permitted operation destIp words) ↔
      ¬ StrayPermits operation destIp buffers words ∨
        Permitted operation destIp words := by
  rw [checkDestIp_iff]
  constructor
  · intro failsClosed
    by_cases stray : StrayPermits operation destIp buffers words
    · exact Or.inr (failsClosed (Or.inr stray))
    · exact Or.inl stray
  · rintro (notStray | permitted) (complete | stray)
    · exact complete
    · exact absurd stray notStray
    · exact permitted
    · exact permitted

/-- A file whose only complete rule is for BIND, and which ends after `permit c`. -/
def damagedRules : List (List Char) :=
  ["permit".toList, ['b'], "1.2.3.4".toList, "permit".toList, ['c']]

/-- Its end permits a CONNECT to that address, which no complete rule does. -/
theorem damagedRules_permit_connect :
    checkDestIp 1 "1.2.3.4".toList
        { ignore := [], opType := [], ip := [] } damagedRules = true ∧
      ¬ Permitted 1 "1.2.3.4".toList damagedRules := by
  refine ⟨by decide, ?_⟩
  unfold Permitted
  decide

end NpServers.Socks
