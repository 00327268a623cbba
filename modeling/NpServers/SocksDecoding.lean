import NpServers.SocksSession

namespace NpServers.Socks

/-!
# Decoding of received requests

The decoder of a session scans its buffer for zero bytes and ignores how many
bytes were received.  On a well-formed request it stays inside the received
bytes.  On other requests it may read what the buffer held before, or leave the
buffer; this happens exactly for requests shorter than the header, and for those
with a domain name whose two terminators were not received.
-/

namespace Session

/-! ## The elements that the decoder reads -/

/-- The elements that one search reads, the one behind the array included. -/
def searchReads
    (socks4Request : Nat → UInt8)
    (count : Nat) : List Nat :=
  match findNul socks4Request count with
  | some stop => List.range' count (stop + 1 - count)
  | none => List.range' count (maxLength + 1 - count)

/-- The elements that `get_domain_name` reads. -/
def domainReads (socks4Request : Nat → UInt8) : List Nat :=
  searchReads socks4Request 8 ++
    match findNul socks4Request 8 with
    | some userEnd => searchReads socks4Request (userEnd + 1)
    | none => []

/-- The first three bytes of the address are zero. -/
def NamesDomain (socks4Request : Nat → UInt8) : Prop :=
  socks4Request 4 = 0 ∧ socks4Request 5 = 0 ∧ socks4Request 6 = 0

instance (socks4Request : Nat → UInt8) : Decidable (NamesDomain socks4Request) :=
  inferInstanceAs (Decidable (_ ∧ _ ∧ _))

/-- The elements that `get_dest_port` and `get_dest_ip` read. -/
def decodeReads (socks4Request : Nat → UInt8) : List Nat :=
  [2, 3, 4, 5, 6] ++
    if NamesDomain socks4Request then domainReads socks4Request else [7]

/-- The buffer after a read of these bytes into it. -/
def receivedBytes
    (bytes : List UInt8)
    (earlier : Nat → UInt8) : Nat → UInt8 :=
  received (fun i => bytes.getD i 0) bytes.length earlier

theorem receivedBytes_of_lt
    {bytes : List UInt8}
    {i : Nat}
    (inBytes : i < bytes.length)
    (earlier : Nat → UInt8) :
    receivedBytes bytes earlier i = bytes[i] := by
  unfold receivedBytes received
  rw [if_pos inBytes]
  simp [inBytes]

theorem receivedBytes_of_le
    {bytes : List UInt8}
    {i : Nat}
    (behind : bytes.length ≤ i)
    (earlier : Nat → UInt8) :
    receivedBytes bytes earlier i = earlier i := by
  unfold receivedBytes received
  rw [if_neg (by omega)]

/-! ## The decoder depends on nothing else -/

section Congruence

variable {first second : Nat → UInt8}

theorem findNul_congr
    {count : Nat}
    (same : ∀ i ∈ searchReads first count, first i = second i) :
    findNul second count = findNul first count := by
  unfold searchReads at same
  cases search : findNul first count with
  | some stop =>
      rw [search] at same
      obtain ⟨lower, upper, isZero, before⟩ := findNul_eq_some_iff.mp search
      have agree (i : Nat) (atLeast : count ≤ i) (atMost : i ≤ stop) :
          first i = second i :=
        same i (List.mem_range'_1.mpr ⟨atLeast, by omega⟩)
      refine findNul_eq_some_iff.mpr ⟨lower, upper, ?_, ?_⟩
      · rw [← agree stop lower (Nat.le_refl _)]
        exact isZero
      · intro i atLeast notYet
        rw [← agree i atLeast (by omega)]
        exact before i atLeast notYet
  | none =>
      rw [search] at same
      by_contra found
      obtain ⟨stop, isStop⟩ := Option.ne_none_iff_exists'.mp found
      obtain ⟨lower, upper, isZero, before⟩ := findNul_eq_some_iff.mp isStop
      have agree (i : Nat) (atLeast : count ≤ i) (atMost : i < maxLength) :
          first i = second i :=
        same i (List.mem_range'_1.mpr ⟨atLeast, by omega⟩)
      have alsoFound : findNul first count = some stop := by
        refine findNul_eq_some_iff.mpr ⟨lower, upper, ?_, ?_⟩
        · rw [agree stop lower upper]
          exact isZero
        · intro i atLeast notYet
          rw [agree i atLeast (by omega)]
          exact before i atLeast notYet
      rw [search] at alsoFound
      cases alsoFound

theorem getDomainName_congr
    (same : ∀ i ∈ domainReads first, first i = second i) :
    getDomainName second = getDomainName first := by
  unfold domainReads at same
  have userSearch : findNul second 8 = findNul first 8 :=
    findNul_congr fun i member => same i (List.mem_append_left _ member)
  unfold getDomainName
  rw [userSearch]
  cases userEnd : findNul first 8 with
  | none =>
      rfl
  | some stop =>
      rw [userEnd] at same
      have nameReads (i : Nat) (member : i ∈ searchReads first (stop + 1)) :
          first i = second i :=
        same i (List.mem_append_right _ member)
      have nameSearch := findNul_congr nameReads
      simp only [Option.bind_eq_bind, Option.bind_some]
      rw [nameSearch]
      cases nameEnd : findNul first (stop + 1) with
      | none =>
          rfl
      | some last =>
          unfold searchReads at nameReads
          rw [nameEnd] at nameReads
          simp only [Option.bind_some, Option.pure_def, Option.some.injEq]
          apply List.map_congr_left
          intro i member
          rw [List.mem_range'_1] at member
          exact (nameReads i (List.mem_range'_1.mpr (by omega))).symm

/-- Buffers that agree on what is read decode to the same destination. -/
theorem decode_congr
    (same : ∀ i ∈ decodeReads first, first i = second i)
    (network : Network) :
    getDestPort second = getDestPort first ∧
      getDestIp network second = getDestIp network first := by
  have header (i : Nat) (member : i ∈ [2, 3, 4, 5, 6]) :
      second i = first i :=
    (same i (List.mem_append_left _ member)).symm
  have behind (i : Nat)
      (member :
        i ∈ if NamesDomain first then domainReads first else [7]) :
      first i = second i :=
    same i (List.mem_append_right _ member)
  have atFour : second 4 = first 4 := header 4 (by decide)
  have atFive : second 5 = first 5 := header 5 (by decide)
  have atSix : second 6 = first 6 := header 6 (by decide)
  constructor
  · unfold getDestPort
    rw [header 2 (by decide), header 3 (by decide)]
  · unfold getDestIp
    rw [atFour, atFive, atSix]
    by_cases names : first 4 = 0 ∧ first 5 = 0 ∧ first 6 = 0
    · rw [if_pos (show NamesDomain first from names)] at behind
      rw [if_pos names, if_pos names, getDomainName_congr behind]
    · rw [if_neg (show ¬ NamesDomain first from names)] at behind
      rw [if_neg names, if_neg names, behind 7 (List.mem_singleton_self 7)]

end Congruence

/-! ## Requests that are decoded from their own bytes -/

/--
The header was received and, if it names a domain, two zero bytes behind it.
-/
def Complete (bytes : List UInt8) : Prop :=
  8 ≤ bytes.length ∧
    (NamesDomain (fun i => bytes.getD i 0) →
      ∃ i j,
        8 ≤ i ∧ i < j ∧ bytes[i]? = some 0 ∧ bytes[j]? = some 0)

/-- A search stops at the latest at any zero inside the array. -/
theorem findNul_of_zero
    {socks4Request : Nat → UInt8}
    {count i : Nat}
    (lower : count ≤ i)
    (upper : i < maxLength)
    (isZero : socks4Request i = 0) :
    ∃ stop, findNul socks4Request count = some stop ∧ stop ≤ i := by
  cases search : findNul socks4Request count with
  | none =>
      unfold findNul at search
      rw [List.find?_eq_none] at search
      have notZero := search i (List.mem_range'_1.mpr ⟨lower, by omega⟩)
      simp [isZero] at notZero
  | some stop =>
      refine ⟨stop, rfl, ?_⟩
      obtain ⟨_, _, _, before⟩ := findNul_eq_some_iff.mp search
      by_contra later
      exact before i lower (by omega) isZero

theorem receivedBytes_of_getElem?
    {bytes : List UInt8}
    {i : Nat}
    {byte : UInt8}
    (isByte : bytes[i]? = some byte)
    (earlier : Nat → UInt8) :
    i < bytes.length ∧ receivedBytes bytes earlier i = byte := by
  obtain ⟨inBytes, isElement⟩ := List.getElem?_eq_some_iff.mp isByte
  exact ⟨inBytes, (receivedBytes_of_lt inBytes earlier).trans isElement⟩

/-- The header of a buffer is that of the received bytes. -/
theorem namesDomain_receivedBytes_iff
    {bytes : List UInt8}
    (hasHeader : 8 ≤ bytes.length)
    (earlier : Nat → UInt8) :
    NamesDomain (receivedBytes bytes earlier) ↔
      NamesDomain fun i => bytes.getD i 0 := by
  have same (i : Nat) (inHeader : i < 8) :
      receivedBytes bytes earlier i = bytes.getD i 0 := by
    unfold receivedBytes received
    rw [if_pos (by omega)]
  unfold NamesDomain
  rw [same 4 (by omega), same 5 (by omega), same 6 (by omega)]

/-- The two searches of a complete request end inside its bytes. -/
theorem domain_searches
    {bytes : List UInt8}
    (fits : bytes.length ≤ maxLength)
    {i j : Nat}
    (atLeast : 8 ≤ i)
    (before : i < j)
    (firstZero : bytes[i]? = some 0)
    (secondZero : bytes[j]? = some 0)
    (earlier : Nat → UInt8) :
    ∃ userEnd nameEnd,
      findNul (receivedBytes bytes earlier) 8 = some userEnd ∧
        findNul (receivedBytes bytes earlier) (userEnd + 1) = some nameEnd ∧
        userEnd < nameEnd ∧ nameEnd < bytes.length := by
  obtain ⟨iInBytes, iZero⟩ := receivedBytes_of_getElem? firstZero earlier
  obtain ⟨jInBytes, jZero⟩ := receivedBytes_of_getElem? secondZero earlier
  obtain ⟨userEnd, userSearch, userBound⟩ :=
    findNul_of_zero atLeast (by omega) iZero
  obtain ⟨nameEnd, nameSearch, nameBound⟩ :=
    findNul_of_zero (by omega : userEnd + 1 ≤ j) (by omega) jZero
  have lower := (findNul_eq_some_iff.mp nameSearch).1
  exact ⟨userEnd, nameEnd, userSearch, nameSearch, by omega, by omega⟩

/-- The decoder of a complete request reads nothing behind it. -/
theorem Complete.reads_inside
    {bytes : List UInt8}
    (complete : Complete bytes)
    (fits : bytes.length ≤ maxLength)
    (earlier : Nat → UInt8) :
    ∀ i ∈ decodeReads (receivedBytes bytes earlier), i < bytes.length := by
  obtain ⟨hasHeader, terminated⟩ := complete
  intro i member
  unfold decodeReads at member
  rcases List.mem_append.mp member with inHeader | behind
  · have small : i ≤ 6 := by
      simp only [List.mem_cons, List.not_mem_nil, or_false] at inHeader
      omega
    omega
  · split_ifs at behind with names
    · have namesBytes :=
        (namesDomain_receivedBytes_iff hasHeader earlier).mp names
      obtain ⟨first, second, atLeast, before, firstZero, secondZero⟩ :=
        terminated namesBytes
      obtain ⟨userEnd, nameEnd, userSearch, nameSearch, order, inside⟩ :=
        domain_searches fits atLeast before firstZero secondZero earlier
      unfold domainReads searchReads at behind
      rw [userSearch] at behind
      dsimp only at behind
      rw [nameSearch] at behind
      simp only [List.mem_append, List.mem_range'_1] at behind
      omega
    · rw [List.mem_singleton] at behind
      omega

/-- The decoder stays in the array and decodes the received bytes only. -/
def DecodedSafely (bytes : List UInt8) : Prop :=
  ∀ earlier,
    (∀ i ∈ decodeReads (receivedBytes bytes earlier), i < maxLength) ∧
      ∀ other network,
        getDestPort (receivedBytes bytes other) =
            getDestPort (receivedBytes bytes earlier) ∧
          getDestIp network (receivedBytes bytes other) =
            getDestIp network (receivedBytes bytes earlier)

theorem Complete.decodedSafely
    {bytes : List UInt8}
    (complete : Complete bytes)
    (fits : bytes.length ≤ maxLength) :
    DecodedSafely bytes := by
  intro earlier
  have inside := complete.reads_inside fits earlier
  refine ⟨fun i member => Nat.lt_of_lt_of_le (inside i member) fits, ?_⟩
  intro other network
  refine decode_congr ?_ network
  intro i member
  have inBytes := inside i member
  rw [receivedBytes_of_lt inBytes, receivedBytes_of_lt inBytes]

end Session

/-! ## Texts of addresses -/

/-- Texts without dots in front of a dot can be told apart. -/
theorem append_dot_inj
    {first second firstRest secondRest : List Char}
    (firstNoDot : '.' ∉ first)
    (secondNoDot : '.' ∉ second)
    (same : first ++ '.' :: firstRest = second ++ '.' :: secondRest) :
    first = second ∧ firstRest = secondRest := by
  induction first generalizing second with
  | nil =>
      cases second with
      | nil =>
          exact ⟨rfl, List.cons.inj same |>.2⟩
      | cons head rest =>
          exact absurd ((List.cons.inj same).1 ▸ List.mem_cons_self) secondNoDot
  | cons head rest inductionHypothesis =>
      cases second with
      | nil =>
          exact absurd ((List.cons.inj same).1 ▸ List.mem_cons_self) firstNoDot
      | cons other others =>
          obtain ⟨sameHead, sameRest⟩ := List.cons.inj same
          obtain ⟨sameField, sameLater⟩ :=
            inductionHypothesis
              (fun member => firstNoDot (List.mem_cons_of_mem _ member))
              (fun member => secondNoDot (List.mem_cons_of_mem _ member))
              sameRest
          exact ⟨by rw [sameHead, sameField], sameLater⟩

theorem no_dot_in_digits
    (byte : UInt8) :
    '.' ∉ (toString byte.toNat).toList := by
  intro member
  rw [Nat.toString_eq_ofList_toDigits, String.toList_ofList] at member
  have isDigit :=
    Nat.isDigit_of_mem_toDigits (by decide) (by decide) member
  revert isDigit
  decide

theorem digits_inj
    {first second : UInt8}
    (same : (toString first.toNat).toList = (toString second.toNat).toList) :
    first = second := by
  apply UInt8.toNat_inj.mp
  rw [Nat.toString_eq_ofList_toDigits, Nat.toString_eq_ofList_toDigits,
    String.toList_ofList, String.toList_ofList] at same
  have sameNumber := congrArg (fun digits => Nat.ofDigitChars 10 digits 0) same
  simpa [Nat.ofDigitChars_ten_toDigits] using sameNumber

/-- Distinct IPv4 addresses have distinct texts. -/
theorem address_text_inj
    {a b c d a' b' c' d' : UInt8}
    (same : (Address.v4 a b c d).text = (Address.v4 a' b' c' d').text) :
    a = a' ∧ b = b' ∧ c = c' ∧ d = d' := by
  simp only [Address.text, String.toList_append, List.append_assoc] at same
  have first := append_dot_inj (no_dot_in_digits a) (no_dot_in_digits a') same
  have second :=
    append_dot_inj (no_dot_in_digits b) (no_dot_in_digits b') first.2
  have third :=
    append_dot_inj (no_dot_in_digits c) (no_dot_in_digits c') second.2
  exact ⟨digits_inj first.1, digits_inj second.1, digits_inj third.1,
    digits_inj third.2⟩

/-! ## Requests that are not -/

namespace Session

/-- An earlier content of the buffer without zero bytes. -/
def ones : Nat → UInt8 :=
  fun _ => 1

/-- A zero in such a buffer was received. -/
theorem getElem?_of_zero
    {bytes : List UInt8}
    {i : Nat}
    (isZero : receivedBytes bytes ones i = 0) :
    bytes[i]? = some 0 := by
  by_cases inBytes : i < bytes.length
  · rw [receivedBytes_of_lt inBytes] at isZero
    rw [List.getElem?_eq_getElem inBytes, isZero]
  · rw [receivedBytes_of_le (by omega)] at isZero
    exact absurd (show (1 : UInt8) = 0 from isZero) (by decide)

/-- Without two received zeros the searches leave the array. -/
theorem maxLength_mem_domainReads
    {bytes : List UInt8}
    (unterminated :
      ¬ ∃ i j, 8 ≤ i ∧ i < j ∧ bytes[i]? = some 0 ∧ bytes[j]? = some 0) :
    maxLength ∈ domainReads (receivedBytes bytes ones) := by
  unfold domainReads searchReads
  cases userSearch : findNul (receivedBytes bytes ones) 8 with
  | none =>
      exact List.mem_append_left _ (List.mem_range'_1.mpr (by decide))
  | some userEnd =>
      obtain ⟨userLower, userUpper, userZero, _⟩ :=
        findNul_eq_some_iff.mp userSearch
      apply List.mem_append_right
      dsimp only
      cases nameSearch :
          findNul (receivedBytes bytes ones) (userEnd + 1) with
      | none =>
          exact List.mem_range'_1.mpr (by omega)
      | some nameEnd =>
          obtain ⟨nameLower, _, nameZero, _⟩ :=
            findNul_eq_some_iff.mp nameSearch
          exact absurd
            ⟨userEnd, nameEnd, userLower, by omega,
              getElem?_of_zero userZero, getElem?_of_zero nameZero⟩
            unterminated

/-- A request that is decoded safely has two zeros if it names a domain. -/
theorem DecodedSafely.terminated
    {bytes : List UInt8}
    (safely : DecodedSafely bytes)
    (names : NamesDomain (receivedBytes bytes ones)) :
    ∃ i j, 8 ≤ i ∧ i < j ∧ bytes[i]? = some 0 ∧ bytes[j]? = some 0 := by
  by_contra unterminated
  have outside :
      maxLength ∈ decodeReads (receivedBytes bytes ones) := by
    unfold decodeReads
    rw [if_pos names]
    exact List.mem_append_right _ (maxLength_mem_domainReads unterminated)
  exact absurd ((safely ones).1 maxLength outside) (Nat.lt_irrefl _)

/-- A request that is decoded safely has a whole header. -/
theorem DecodedSafely.hasHeader
    {bytes : List UInt8}
    (safely : DecodedSafely bytes)
    (network : Network) :
    8 ≤ bytes.length := by
  by_contra short
  by_cases names : NamesDomain (receivedBytes bytes ones)
  · obtain ⟨i, j, atLeast, _, firstZero, _⟩ := safely.terminated names
    have inBytes := (List.getElem?_eq_some_iff.mp firstZero).1
    omega
  · -- the last byte of the address is not received, but it is decoded
    have same :=
      ((safely ones).2 (Function.update ones 7 2) network).2
    have agree (i : Nat) (notSeven : i ≠ 7) :
        receivedBytes bytes (Function.update ones 7 2) i =
          receivedBytes bytes ones i := by
      unfold receivedBytes received
      rw [Function.update_of_ne notSeven]
    have seven (earlier : Nat → UInt8) :
        receivedBytes bytes earlier 7 = earlier 7 :=
      receivedBytes_of_le (by omega) earlier
    have notNames :
        ¬ (receivedBytes bytes ones 4 = 0 ∧ receivedBytes bytes ones 5 = 0 ∧
          receivedBytes bytes ones 6 = 0) :=
      names
    unfold getDestIp at same
    rw [agree 4 (by decide), agree 5 (by decide), agree 6 (by decide),
      if_neg notNames, if_neg notNames, seven, seven, Decoded.ip.injEq] at same
    have sameByte := (address_text_inj same).2.2.2
    rw [Function.update_self] at sameByte
    exact absurd sameByte (by decide)

/-- A network without rules whose resolver knows no name. -/
def closedNetwork : Network where
  rules := []
  buffers := { ignore := [], opType := [], ip := [] }
  lookup := fun _ => none
  resolve := fun _ _ => none

/--
The decoder stays in its array and depends on the received bytes only, exactly
for complete requests.
-/
theorem decodedSafely_iff
    {bytes : List UInt8}
    (fits : bytes.length ≤ maxLength) :
    DecodedSafely bytes ↔ Complete bytes := by
  constructor
  · intro safely
    have hasHeader := safely.hasHeader closedNetwork
    refine ⟨hasHeader, ?_⟩
    intro names
    exact safely.terminated
      ((namesDomain_receivedBytes_iff hasHeader ones).mpr names)
  · intro complete
    exact complete.decodedSafely fits

/-- The request for 1.2.3.4 with port 80 and without a user is complete. -/
theorem decodedSafely_numeric :
    DecodedSafely [4, 1, 0, 80, 1, 2, 3, 4, 0] :=
  (decodedSafely_iff (by decide)).mpr
    ⟨by decide, fun names => absurd names (by decide)⟩

/-- A request of a whole array without a zero behind its header. -/
def unterminatedRequest : List UInt8 :=
  [4, 1, 0, 80, 0, 0, 0, 1] ++ List.replicate 1016 97

/--
The decoder leaves the array for this request, and a request of one byte takes
its address from the earlier content.
-/
theorem not_decodedSafely :
    (maxLength ∈ decodeReads (receivedBytes unterminatedRequest ones)) ∧
      ¬ DecodedSafely unterminatedRequest ∧
      ¬ DecodedSafely [4] := by
  have outside :
      maxLength ∈ decodeReads (receivedBytes unterminatedRequest ones) := by
    unfold decodeReads
    rw [if_pos (by decide +kernel)]
    apply List.mem_append_right
    apply maxLength_mem_domainReads
    rintro ⟨i, j, atLeast, _, isZero, _⟩
    unfold unterminatedRequest at isZero
    rw [List.getElem?_append_right (by simpa using atLeast)] at isZero
    exact absurd (List.eq_of_mem_replicate (List.mem_of_getElem? isZero))
      (by decide)
  refine ⟨outside, ?_, ?_⟩
  · intro safely
    exact absurd ((safely ones).1 maxLength outside) (Nat.lt_irrefl _)
  · intro safely
    exact absurd (safely.hasHeader closedNetwork) (by decide)

end Session

/-! ## Well-formed requests -/

/-- The first eight bytes of a request. -/
structure RequestHeader where
  version : UInt8
  command : UInt8
  portHigh : UInt8
  portLow : UInt8
  first : UInt8
  second : UInt8
  third : UInt8
  fourth : UInt8
  deriving Repr, DecidableEq

namespace RequestHeader

def bytes (header : RequestHeader) : List UInt8 :=
  [header.version, header.command, header.portHigh, header.portLow,
    header.first, header.second, header.third, header.fourth]

/-- The first three bytes of the address are zero. -/
def ZeroPrefix (header : RequestHeader) : Prop :=
  header.first = 0 ∧ header.second = 0 ∧ header.third = 0

end RequestHeader

/-- A SOCKS4 request, or a SOCKS4A request with a domain name. -/
inductive Request where
  | socks4
      (header : RequestHeader)
      (user : List UInt8)
      (userNoNul : 0 ∉ user)
  | socks4a
      (header : RequestHeader)
      (invalid : header.ZeroPrefix ∧ header.fourth ≠ 0)
      (user : List UInt8)
      (userNoNul : 0 ∉ user)
      (domain : List UInt8)
      (named : domain ≠ [])
      (domainNoNul : 0 ∉ domain)

namespace Request

def header : Request → RequestHeader
  | .socks4 header .. => header
  | .socks4a header .. => header

/-- The request has a numeric address that is not read as a domain, or a domain. -/
def Addressed : Request → Prop
  | .socks4 header .. => ¬ header.ZeroPrefix
  | .socks4a .. => True

/-- What the requester sends. -/
def bytes : Request → List UInt8
  | .socks4 header user _ => header.bytes ++ (user ++ [0])
  | .socks4a header _ user _ domain _ _ =>
      header.bytes ++ (user ++ 0 :: (domain ++ [0]))

/-- The destination that the requester means. -/
def destination
    (network : Network) :
    Request → Decoded
  | .socks4 header .. =>
      .ip (Address.v4 header.first header.second header.third
        header.fourth).text
  | .socks4a _ _ _ _ domain _ _ =>
      match network.lookup domain with
      | none => .thrown
      | some addresses => .ip (firstV4 addresses)

/-- The part of the bytes behind the header. -/
def body : Request → List UInt8
  | .socks4 _ user _ => user ++ [0]
  | .socks4a _ _ user _ domain _ _ => user ++ 0 :: (domain ++ [0])

theorem bytes_eq
    (request : Request) :
    request.bytes = request.header.bytes ++ request.body := by
  cases request <;> rfl

/-- An element of the header in the buffer. -/
theorem received_header
    (request : Request)
    (earlier : Nat → UInt8)
    {i : Nat}
    (inHeader : i < 8) :
    Session.receivedBytes request.bytes earlier i =
      request.header.bytes.getD i 0 := by
  have inBytes : i < request.bytes.length := by
    rw [bytes_eq, List.length_append]
    exact Nat.lt_of_lt_of_le inHeader (Nat.le_add_right _ _)
  rw [Session.receivedBytes_of_lt inBytes]
  simp only [bytes_eq]
  rw [List.getElem_append_left (show i < request.header.bytes.length from inHeader)]
  have inList : i < request.header.bytes.length := inHeader
  simp [List.getD_eq_getElem?_getD, inList]

/-- An element behind the header. -/
theorem getElem?_body
    (request : Request)
    (i : Nat) :
    request.bytes[8 + i]? = request.body[i]? := by
  rw [bytes_eq, List.getElem?_append_right (by simp [RequestHeader.bytes])]
  congr 1
  simp [RequestHeader.bytes]

theorem namesDomain_iff
    (request : Request)
    (earlier : Nat → UInt8) :
    Session.NamesDomain (Session.receivedBytes request.bytes earlier) ↔
      request.header.ZeroPrefix := by
  unfold Session.NamesDomain
  rw [received_header request earlier (by decide),
    received_header request earlier (by decide),
    received_header request earlier (by decide)]
  rfl

/-- Well-formed requests with a destination are complete. -/
theorem complete
    (request : Request)
    (addressed : request.Addressed) :
    Session.Complete request.bytes := by
  have hasHeader : 8 ≤ request.bytes.length := by
    rw [bytes_eq, List.length_append]
    exact Nat.le_add_right _ _
  refine ⟨hasHeader, ?_⟩
  intro names
  rw [← Session.namesDomain_receivedBytes_iff hasHeader Session.ones,
    namesDomain_iff] at names
  cases request with
  | socks4 header user userNoNul =>
      exact absurd names addressed
  | socks4a header invalid user userNoNul domain named domainNoNul =>
      refine ⟨8 + user.length, 8 + (user.length + 1 + domain.length),
        by omega, by omega, ?_, ?_⟩
      · rw [getElem?_body, body, List.getElem?_append_right (Nat.le_refl _)]
        simp
      · rw [getElem?_body, body, List.getElem?_append_right (by omega)]
        have isIndex :
            user.length + 1 + domain.length - user.length =
              domain.length + 1 := by
          omega
        rw [isIndex, List.getElem?_cons_succ,
          List.getElem?_append_right (Nat.le_refl _)]
        simp

/-- An element behind the header in the buffer. -/
theorem received_body
    (request : Request)
    (earlier : Nat → UInt8)
    {i : Nat}
    {byte : UInt8}
    (isByte : request.body[i]? = some byte) :
    Session.receivedBytes request.bytes earlier (8 + i) = byte := by
  rw [← getElem?_body] at isByte
  exact (Session.receivedBytes_of_getElem? isByte earlier).2

/-- The search over a field without zeros ends at the zero behind it. -/
theorem findNul_field
    (request : Request)
    (fits : request.bytes.length ≤ Session.maxLength)
    (earlier : Nat → UInt8)
    {start : List UInt8}
    {field : List UInt8}
    {later : List UInt8}
    (isBody : request.body = start ++ (field ++ 0 :: later))
    (noNul : 0 ∉ field) :
    Session.findNul (Session.receivedBytes request.bytes earlier)
        (8 + start.length) =
      some (8 + (start.length + field.length)) := by
  have inField (i : Nat) (isIndex : i < field.length) :
      request.body[start.length + i]? = some field[i] := by
    rw [isBody, List.getElem?_append_right (Nat.le_add_right _ _),
      Nat.add_sub_cancel_left, List.getElem?_append_left isIndex,
      List.getElem?_eq_getElem isIndex]
  have atEnd : request.body[start.length + field.length]? = some 0 := by
    rw [isBody, List.getElem?_append_right (Nat.le_add_right _ _),
      Nat.add_sub_cancel_left, List.getElem?_append_right (Nat.le_refl _)]
    simp
  have inBytes : 8 + (start.length + field.length) < request.bytes.length := by
    rw [← getElem?_body] at atEnd
    exact (List.getElem?_eq_some_iff.mp atEnd).1
  refine Session.findNul_eq_some_iff.mpr ⟨by omega, by omega, ?_, ?_⟩
  · exact received_body request earlier atEnd
  · intro i lower upper
    obtain ⟨k, rfl⟩ : ∃ k, i = 8 + (start.length + k) :=
      ⟨i - 8 - start.length, by omega⟩
    have isIndex : k < field.length := by omega
    rw [received_body request earlier (inField k isIndex)]
    exact fun isZero => noNul (isZero ▸ List.getElem_mem isIndex)

/-- The elements of a field in the buffer. -/
theorem map_received_field
    (request : Request)
    (earlier : Nat → UInt8)
    {start : List UInt8}
    {field : List UInt8}
    {later : List UInt8}
    (isBody : request.body = start ++ (field ++ later)) :
    (List.range' (8 + start.length) field.length).map
        (Session.receivedBytes request.bytes earlier) = field := by
  apply List.ext_getElem
  · simp
  · intro i _ isIndex
    have isByte : request.body[start.length + i]? = some field[i] := by
      rw [isBody, List.getElem?_append_right (Nat.le_add_right _ _),
        Nat.add_sub_cancel_left, List.getElem?_append_left isIndex,
        List.getElem?_eq_getElem isIndex]
    have atIndex := received_body request earlier isByte
    simpa [Nat.add_assoc] using atIndex

/-- The name that a SOCKS4A request gives to the resolver. -/
theorem getDomainName_socks4a
    {header : RequestHeader}
    {invalid : header.ZeroPrefix ∧ header.fourth ≠ 0}
    {user : List UInt8}
    {userNoNul : 0 ∉ user}
    {domain : List UInt8}
    {named : domain ≠ []}
    {domainNoNul : 0 ∉ domain}
    (fits :
      (Request.socks4a header invalid user userNoNul domain named
        domainNoNul).bytes.length ≤ Session.maxLength)
    (earlier : Nat → UInt8) :
    Session.getDomainName
        (Session.receivedBytes
          (Request.socks4a header invalid user userNoNul domain named
            domainNoNul).bytes
          earlier) =
      some domain := by
  generalize isRequest :
    Request.socks4a header invalid user userNoNul domain named domainNoNul =
      request at fits
  have userBody : request.body = [] ++ (user ++ 0 :: (domain ++ [0])) := by
    rw [← isRequest]
    rfl
  have nameBody : request.body = (user ++ [0]) ++ (domain ++ 0 :: []) := by
    rw [userBody]
    simp
  have userSearch := request.findNul_field fits earlier userBody userNoNul
  have nameSearch := request.findNul_field fits earlier nameBody domainNoNul
  have isName := request.map_received_field earlier nameBody
  simp only [List.length_append, List.length_nil, List.length_singleton,
    Nat.zero_add, Nat.add_zero] at userSearch nameSearch isName
  have isNext : 8 + user.length + 1 = 8 + (user.length + 1) := by omega
  have isLength :
      8 + (user.length + 1 + domain.length) - (8 + (user.length + 1)) =
        domain.length := by
    omega
  unfold Session.getDomainName
  rw [userSearch]
  simp only [Option.bind_eq_bind, Option.bind_some]
  rw [isNext, nameSearch]
  simp only [Option.bind_some, Option.pure_def]
  rw [isLength, isName]

end Request

/--
A well-formed request that fits the buffer is decoded to its port, whatever the
buffer held before.  If it has a destination, it is decoded to this, and nothing
behind the request is read.  Distinct numeric addresses have distinct texts.
-/
theorem request_decoded
    (request : Request)
    (fits : request.bytes.length ≤ Session.maxLength)
    (earlier : Nat → UInt8)
    (network : Network) :
    Session.getDestPort (Session.receivedBytes request.bytes earlier) =
        toString
          (256 * request.header.portHigh.toNat +
            request.header.portLow.toNat) ∧
      (request.Addressed →
        getDestIp network (Session.receivedBytes request.bytes earlier) =
            request.destination network ∧
          ∀ i ∈
              Session.decodeReads
                (Session.receivedBytes request.bytes earlier),
            i < request.bytes.length) ∧
      ∀ a b c d a' b' c' d',
        (Address.v4 a b c d).text = (Address.v4 a' b' c' d').text →
        Address.v4 a b c d = Address.v4 a' b' c' d' := by
  refine ⟨?_, ?_, ?_⟩
  · unfold Session.getDestPort
    rw [request.received_header earlier (by decide),
      request.received_header earlier (by decide), Nat.mul_comm]
    rfl
  · intro addressed
    refine ⟨?_, (request.complete addressed).reads_inside fits earlier⟩
    have names := request.namesDomain_iff earlier
    have byte (i : Nat) (inHeader : i < 8) :=
      request.received_header earlier inHeader
    unfold Session.NamesDomain at names
    unfold getDestIp
    cases request with
    | socks4 header user userNoNul =>
        rw [if_neg fun zeros => addressed (names.mp zeros), byte 4 (by decide),
          byte 5 (by decide), byte 6 (by decide), byte 7 (by decide)]
        rfl
    | socks4a header invalid user userNoNul domain named domainNoNul =>
        rw [if_pos (names.mpr invalid.1),
          Request.getDomainName_socks4a fits earlier]
        rfl
  · intro a b c d a' b' c' d' same
    obtain ⟨rfl, rfl, rfl, rfl⟩ := address_text_inj same
    rfl

/-- The SOCKS4A request for the domain `nctu` and port 80, by user `me`. -/
def namedRequest : Request :=
  .socks4a
    { version := 4, command := 1, portHigh := 0, portLow := 80
      first := 0, second := 0, third := 0, fourth := 1 }
    ⟨⟨rfl, rfl, rfl⟩, by decide⟩ [109, 101] (by decide) nctuHost (by decide)
    (by decide)

/-- It is decoded behind a buffer without zeros. -/
theorem request_decoded_named :
    getDestIp Session.closedNetwork
        (Session.receivedBytes namedRequest.bytes Session.ones) =
      namedRequest.destination Session.closedNetwork ∧
    Session.getDestPort
        (Session.receivedBytes namedRequest.bytes Session.ones) = "80" := by
  have decoded :=
    request_decoded namedRequest (by decide) Session.ones Session.closedNetwork
  exact ⟨(decoded.2.1 trivial).1, decoded.1⟩

end NpServers.Socks
