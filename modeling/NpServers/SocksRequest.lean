import Mathlib.Data.List.Basic
import Mathlib.Logic.Function.Basic
import Mathlib.Tactic.Common

namespace NpServers.Socks

/-!
# SOCKS4A requests between the console and the proxy server

The console encodes a destination host and port with `make_socks4a_request`, and
a session of the server decodes them with `get_dest_port` and
`get_domain_name`.  The two programs agree only through byte offsets and
terminators.

An array is a function of its indices.  Assignments are listed with their index,
so that one outside of the array can be told apart; a search for a terminator
that leaves the array has no result.
-/

/-! ## The encoder of the console -/

/-- `socks4a_request_len`. -/
def socks4aRequestLen : Nat := 100

/-- `std::stoi` on decimal digits. -/
def stoi (text : List Char) : Nat :=
  Nat.ofDigitChars 10 (text.takeWhile Char.isDigit) 0

/-- The assignments to elements of `socks4a_request`, and the returned length. -/
structure Socks4aRequest where
  assigned : List (Nat × UInt8)
  length : Nat

/-- `make_socks4a_request`. -/
def makeSocks4aRequest
    (proxyDestDomainName : List UInt8)
    (proxyDestPort : List Char) : Socks4aRequest :=
  let port := stoi proxyDestPort
  { assigned :=
      [(0, 4), (1, 1), (2, UInt8.ofNat (port / 256)),
        (3, UInt8.ofNat (port % 256)), (4, 0), (5, 0), (6, 0), (7, 1), (8, 0)] ++
        proxyDestDomainName.zipIdx.map fun entry => (entry.2 + 9, entry.1)
    length := proxyDestDomainName.length + 9 }

namespace Socks4aRequest

/-- The array after the assignments; it was filled with zeros before. -/
def buffer (request : Socks4aRequest) : Nat → UInt8 :=
  request.assigned.foldl
    (fun buffer entry => Function.update buffer entry.1 entry.2)
    (fun _ => 0)

/-- All assignments are to elements of the array. -/
def Inside (request : Socks4aRequest) : Prop :=
  ∀ entry ∈ request.assigned, entry.1 < socks4aRequestLen

instance (request : Socks4aRequest) : Decidable request.Inside :=
  inferInstanceAs (Decidable (∀ entry ∈ request.assigned, _))

end Socks4aRequest

/-! ## The decoder of the server -/

namespace Session

/-- `max_length`. -/
def maxLength : Nat := 1024

/-- The buffer after a read of `length` bytes into it. -/
def received
    (sent : Nat → UInt8)
    (length : Nat)
    (earlier : Nat → UInt8) : Nat → UInt8 :=
  fun i => if i < length then sent i else earlier i

/-- `get_dest_port`. -/
def getDestPort (socks4Request : Nat → UInt8) : String :=
  toString ((socks4Request 2).toNat * 256 + (socks4Request 3).toNat)

/-- The loop `while((int)socks4_request[count]) count++`. -/
def findNul
    (socks4Request : Nat → UInt8)
    (count : Nat) : Option Nat :=
  (List.range' count (maxLength - count)).find? fun i =>
    decide (socks4Request i = 0)

/-- The part of `get_domain_name` that reads the request. -/
def getDomainName (socks4Request : Nat → UInt8) : Option (List UInt8) := do
  let userEnd ← findNul socks4Request 8
  let nameEnd ← findNul socks4Request (userEnd + 1)
  return (List.range' (userEnd + 1) (nameEnd - (userEnd + 1))).map socks4Request

end Session

/-! ## The encoded bytes -/

/-- The bytes of a request, from index zero on. -/
def socks4aBytes
    (host : List UInt8)
    (port : Nat) : List UInt8 :=
  [4, 1, UInt8.ofNat (port / 256), UInt8.ofNat (port % 256), 0, 0, 0, 1, 0] ++
    host

theorem assigned_eq
    (host : List UInt8)
    (portText : List Char) :
    (makeSocks4aRequest host portText).assigned =
      (socks4aBytes host (stoi portText)).zipIdx.map
        fun entry => (entry.2, entry.1) := by
  have shifted :
      (host.zipIdx 9).map (fun entry => (entry.2, entry.1)) =
        host.zipIdx.map fun entry => (entry.2 + 9, entry.1) := by
    rw [List.zipIdx_eq_map_add, List.map_map]
    apply List.map_congr_left
    intro entry _
    simp [Nat.add_comm]
  unfold makeSocks4aRequest socks4aBytes
  rw [List.zipIdx_append, List.map_append]
  simp [← shifted]

/-- Storing bytes one after the other. -/
theorem foldl_update_zipIdx
    (bytes : List UInt8)
    (start : Nat)
    (buffer : Nat → UInt8)
    (i : Nat) :
    ((bytes.zipIdx start).map fun entry => (entry.2, entry.1)).foldl
        (fun buffer entry => Function.update buffer entry.1 entry.2) buffer i =
      if start ≤ i then (bytes[i - start]?).getD (buffer i) else buffer i := by
  induction bytes generalizing start buffer with
  | nil =>
      simp
  | cons byte rest inductionHypothesis =>
      rw [List.zipIdx_cons, List.map_cons, List.foldl_cons, inductionHypothesis]
      by_cases here : i = start
      · subst here
        have notLater : ¬ i + 1 ≤ i := by omega
        simp [notLater]
      · by_cases later : start + 1 ≤ i
        · have isRest : i - start = (i - (start + 1)) + 1 := by omega
          have atLeast : start ≤ i := by omega
          simp [later, atLeast, isRest, Function.update_of_ne here]
        · have before : ¬ start ≤ i := by omega
          simp [later, before, Function.update_of_ne here]

theorem buffer_eq
    (host : List UInt8)
    (portText : List Char)
    (i : Nat) :
    (makeSocks4aRequest host portText).buffer i =
      ((socks4aBytes host (stoi portText))[i]?).getD 0 := by
  unfold Socks4aRequest.buffer
  rw [assigned_eq, foldl_update_zipIdx]
  simp

/-- The request fits its array exactly for hosts of up to 91 bytes. -/
theorem inside_iff
    (host : List UInt8)
    (portText : List Char) :
    (makeSocks4aRequest host portText).Inside ↔ host.length ≤ 91 := by
  unfold Socks4aRequest.Inside
  rw [assigned_eq]
  have bytesLength :
      (socks4aBytes host (stoi portText)).length = host.length + 9 := by
    simp [socks4aBytes]
  constructor
  · intro inside
    by_contra tooLong
    have inBound :
        100 < (socks4aBytes host (stoi portText)).length := by
      omega
    have member :
        (100, (socks4aBytes host (stoi portText))[100]) ∈
          (socks4aBytes host (stoi portText)).zipIdx.map
            fun entry => (entry.2, entry.1) := by
      refine List.mem_map.mpr
        ⟨((socks4aBytes host (stoi portText))[100], 100), ?_, rfl⟩
      rw [List.mem_zipIdx_iff_getElem?]
      exact List.getElem?_eq_getElem inBound
    exact absurd (inside _ member) (Nat.lt_irrefl 100)
  · rintro short entry member
    obtain ⟨⟨byte, i⟩, isEntry, rfl⟩ := List.mem_map.mp member
    have inBound := (List.mem_zipIdx' isEntry).1
    simp only [socks4aRequestLen]
    omega

/-! ## Decoding -/

namespace Session

/-- A search ends at the first zero inside the array. -/
theorem findNul_eq_some_iff
    {socks4Request : Nat → UInt8}
    {count stop : Nat} :
    findNul socks4Request count = some stop ↔
      count ≤ stop ∧ stop < maxLength ∧ socks4Request stop = 0 ∧
        ∀ i, count ≤ i → i < stop → socks4Request i ≠ 0 := by
  unfold findNul
  rw [List.find?_range'_eq_some]
  simp only [decide_eq_true_eq, List.mem_range'_1, Bool.not_eq_true',
    decide_eq_false_iff_not]
  constructor
  · rintro ⟨isZero, ⟨lower, upper⟩, noneBefore⟩
    exact ⟨lower, by omega, isZero, noneBefore⟩
  · rintro ⟨lower, upper, isZero, noneBefore⟩
    exact ⟨isZero, ⟨lower, by omega⟩, noneBefore⟩

/-- A decoded name is the host exactly if a zero follows the host. -/
theorem getDomainName_eq_some_iff
    {socks4Request : Nat → UInt8}
    {host : List UInt8}
    (noUser : socks4Request 8 = 0)
    (isHost : ∀ i, (inHost : i < host.length) → socks4Request (i + 9) = host[i])
    (noNul : 0 ∉ host) :
    getDomainName socks4Request = some host ↔
      host.length + 9 < maxLength ∧ socks4Request (host.length + 9) = 0 := by
  have userEnd : findNul socks4Request 8 = some 8 :=
    findNul_eq_some_iff.mpr
      ⟨Nat.le_refl _, by decide, noUser, fun i lower upper => by omega⟩
  have nonzero (i : Nat) (lower : 9 ≤ i) (upper : i < host.length + 9) :
      socks4Request i ≠ 0 := by
    have inHost : i - 9 < host.length := by omega
    have isByte := isHost (i - 9) inHost
    rw [Nat.sub_add_cancel lower] at isByte
    rw [isByte]
    exact fun isZero => noNul (isZero ▸ List.getElem_mem inHost)
  have isName :
      (List.range' 9 host.length).map socks4Request = host := by
    apply List.ext_getElem
    · simp
    · intro i _ inHost
      simpa [Nat.add_comm] using isHost i inHost
  unfold getDomainName
  rw [userEnd]
  simp only [Option.bind_eq_bind, Option.bind_some, Option.bind_eq_some_iff,
    Option.pure_def, Option.some.injEq]
  constructor
  · rintro ⟨nameEnd, isEnd, isHostName⟩
    obtain ⟨lower, upper, isZero, _⟩ := findNul_eq_some_iff.mp isEnd
    have sameLength := congrArg List.length isHostName
    simp only [List.length_map, List.length_range'] at sameLength
    have isNext : nameEnd = host.length + 9 := by omega
    rw [isNext] at upper isZero
    exact ⟨upper, isZero⟩
  · rintro ⟨upper, isZero⟩
    refine ⟨host.length + 9, ?_, ?_⟩
    · exact findNul_eq_some_iff.mpr
        ⟨by omega, upper, isZero, fun i lower before => nonzero i lower before⟩
    · rw [Nat.add_sub_cancel]
      exact isName

end Session

/-! ## Encoder and decoder together -/

/--
A request for a host and port stays in the console's array, and what the server
decodes from it, behind the earlier content of its buffer, is that port and that
host.
-/
def RoundTrips
    (host : List UInt8)
    (portText : List Char)
    (earlier : Nat → UInt8) : Prop :=
  let request := makeSocks4aRequest host portText
  let socks4Request :=
    Session.received request.buffer request.length earlier
  request.Inside ∧
    Session.getDestPort socks4Request = toString (stoi portText) ∧
    Session.getDomainName socks4Request = some host

/-- The bytes of the request as the server has them. -/
theorem received_of_lt
    {host : List UInt8}
    {portText : List Char}
    {earlier : Nat → UInt8}
    {i : Nat}
    (inRequest : i < host.length + 9) :
    Session.received (makeSocks4aRequest host portText).buffer
        (makeSocks4aRequest host portText).length earlier i =
      ((socks4aBytes host (stoi portText))[i]?).getD 0 := by
  rw [← buffer_eq]
  exact if_pos inRequest

theorem getDestPort_received
    {host : List UInt8}
    {portText : List Char}
    (inRange : stoi portText ≤ 65535)
    (earlier : Nat → UInt8) :
    Session.getDestPort
        (Session.received (makeSocks4aRequest host portText).buffer
          (makeSocks4aRequest host portText).length earlier) =
      toString (stoi portText) := by
  unfold Session.getDestPort
  rw [received_of_lt (by omega), received_of_lt (by omega)]
  have high : stoi portText / 256 < 256 := by omega
  have low : stoi portText % 256 < 256 := by omega
  have isPort :
      stoi portText / 256 * 256 + stoi portText % 256 = stoi portText := by
    omega
  simp [socks4aBytes, Nat.mod_eq_of_lt high, isPort]

/--
The server decodes what the console encodes exactly if the host has at most 91
bytes and the server's buffer happens to hold a zero behind the received bytes:
the console sends no terminator.
-/
theorem socks4a_roundTrips_iff
    {host : List UInt8}
    {portText : List Char}
    (noNul : 0 ∉ host)
    (inRange : stoi portText ≤ 65535)
    (earlier : Nat → UInt8) :
    RoundTrips host portText earlier ↔
      host.length ≤ 91 ∧ earlier (host.length + 9) = 0 := by
  have noUser :
      Session.received (makeSocks4aRequest host portText).buffer
        (makeSocks4aRequest host portText).length earlier 8 = 0 := by
    rw [received_of_lt (by omega)]
    rfl
  have isHost (i : Nat) (inHost : i < host.length) :
      Session.received (makeSocks4aRequest host portText).buffer
        (makeSocks4aRequest host portText).length earlier (i + 9) =
        host[i] := by
    rw [received_of_lt (by omega)]
    simp [socks4aBytes, inHost]
  have behind :
      Session.received (makeSocks4aRequest host portText).buffer
        (makeSocks4aRequest host portText).length earlier (host.length + 9) =
        earlier (host.length + 9) :=
    if_neg (Nat.lt_irrefl _)
  unfold RoundTrips
  dsimp only
  rw [inside_iff, Session.getDomainName_eq_some_iff noUser isHost noNul, behind]
  constructor
  · rintro ⟨short, _, _, isZero⟩
    exact ⟨short, isZero⟩
  · rintro ⟨short, isZero⟩
    refine ⟨short, getDestPort_received inRange earlier, ?_, isZero⟩
    unfold Session.maxLength
    omega

/-- The host `nctu`. -/
def nctuHost : List UInt8 := [110, 99, 116, 117]

/-- With a cleared buffer, host `nctu` and port 1234 are decoded. -/
theorem socks4a_roundTrips_nctu :
    RoundTrips nctuHost "1234".toList fun _ => 0 :=
  (socks4a_roundTrips_iff (by decide) (by decide) _).mpr ⟨by decide, rfl⟩

/--
Host `nctu` and port 1234 are not decoded behind a buffer full of other bytes,
and for a host of 92 bytes the request leaves the console's array.
-/
theorem socks4a_not_decoded :
    (Session.getDomainName
        (Session.received (makeSocks4aRequest nctuHost "1234".toList).buffer
          (makeSocks4aRequest nctuHost "1234".toList).length
          fun i => if i < 15 then 120 else 0) =
      some (nctuHost ++ [120, 120])) ∧
      ¬ RoundTrips nctuHost "1234".toList
        (fun i => if i < 15 then 120 else 0) ∧
      ¬ (makeSocks4aRequest (List.replicate 92 97) "80".toList).Inside := by
  refine ⟨by decide +kernel, ?_, ?_⟩
  · rintro ⟨_, _, decoded⟩
    revert decoded
    decide +kernel
  · decide +kernel

end NpServers.Socks
