import DomainProcessing.PrefixMasks
import Mathlib.Data.List.TakeWhile

namespace DomainProcessing

inductive IpVersion
  | v4
  | v6
  deriving DecidableEq, Repr

def IpVersion.maxPrefixlen : IpVersion → Nat
  | .v4 => 32
  | .v6 => 128

/-- An address of the standard module `ipaddress`. -/
structure IpAddress where
  version : IpVersion
  ip : Nat
  deriving DecidableEq, Repr

structure IpNetwork where
  text : String
  version : IpVersion
  networkAddress : Nat
  prefixlen : Nat
  deriving DecidableEq, Repr

/-- `address in network`, false between versions. -/
def IpNetwork.contains (network : IpNetwork) (address : IpAddress) : Bool :=
  decide (network.version = address.version) &&
    decide (address.ip &&& PrefixMasks.prefixMask network.version.maxPrefixlen network.prefixlen =
      network.networkAddress)

def IpAddress.ipv4Mapped (address : IpAddress) : Option IpAddress :=
  match address.version with
  | .v4 => none
  | .v6 => if address.ip >>> 32 = 0xFFFF then some ⟨.v4, address.ip &&& 0xFFFFFFFF⟩ else none

def parseOctet (text : List Char) : Option Nat :=
  if text = [] then none
  else if !text.all Char.isDigit then none
  else if text.length > 3 then none
  else if text ≠ ['0'] ∧ text.head? = some '0' then none
  else
    let octet := Nat.ofDigitChars 10 text 0
    if octet > 255 then none else some octet

/-- `int.from_bytes(octets, 'big')` -/
def fromBytes (octets : List Nat) : Nat := octets.foldl (fun n octet => n * 256 + octet) 0

/-- `IPv4Address(text)._ip` -/
def parseIpv4 (text : List Char) : Option Nat :=
  if '/' ∈ text then none
  else
    let octets := text.splitOn '.'
    if octets.length ≠ 4 then none else (octets.mapM parseOctet).map fromBytes

def hexDigitValue (c : Char) : Option Nat :=
  if '0' ≤ c ∧ c ≤ '9' then some (c.toNat - 48)
  else if 'a' ≤ c ∧ c ≤ 'f' then some (c.toNat - 87)
  else if 'A' ≤ c ∧ c ≤ 'F' then some (c.toNat - 55)
  else none

/-- `int(digits, 16)` of digits that have been checked. -/
def fromHex (digits : List Nat) : Nat := digits.foldl (fun n digit => n * 16 + digit) 0

def parseHextet (text : List Char) : Option Nat :=
  (text.mapM hexDigitValue).bind fun digits =>
    if text.length > 4 then none else if text = [] then none else some (fromHex digits)

/-- Shift the hextets of a list into an address. -/
def appendHextets : Nat → List (List Char) → Option Nat
  | ip, [] => some ip
  | ip, part :: rest => (parseHextet part).bind fun hextet => appendHextets (ip * 65536 + hextet) rest

/-- `addr, sep, scope_id = text.partition('%')`, where a scope may not be empty. -/
def splitScopeId (text : List Char) : Option (List Char) :=
  match text.dropWhile (· ≠ '%') with
  | [] => some text
  | _ :: scopeId => if scopeId = [] ∨ '%' ∈ scopeId then none else some (text.takeWhile (· ≠ '%'))

/-- The IPv4 suffix of an address as two more hextets. -/
def expandIpv4Suffix (parts : List (List Char)) : Option (List (List Char)) :=
  match parts.getLast? with
  | none => some parts
  | some last =>
    if '.' ∈ last then
      (parseIpv4 last).map fun ip =>
        parts.dropLast ++ [Nat.toDigits 16 (ip >>> 16 &&& 0xFFFF), Nat.toDigits 16 (ip &&& 0xFFFF)]
    else some parts

/-- The positions of `::`, the endpoints disregarded. -/
def skipIndices (parts : List (List Char)) : List Nat :=
  (List.range' 1 (parts.length - 2)).filter fun i => parts[i]? = some []

def ipFromParts (parts : List (List Char)) : Option Nat :=
  let emptyFirst := decide (parts.head? = some [])
  let emptyLast := decide (parts.getLast? = some [])
  match skipIndices parts with
  | [] =>
    if parts.length ≠ 8 then none
    else if emptyFirst || emptyLast then none
    else appendHextets 0 parts
  | [skipIndex] =>
    let partsHi := if emptyFirst then skipIndex - 1 else skipIndex
    let partsLo := if emptyLast then parts.length - skipIndex - 1 - 1 else parts.length - skipIndex - 1
    if emptyFirst && decide (partsHi ≠ 0) then none
    else if emptyLast && decide (partsLo ≠ 0) then none
    else if 8 ≤ partsHi + partsLo then none
    else
      (appendHextets 0 (parts.take partsHi)).bind fun high =>
        appendHextets (high * 65536 ^ (8 - (partsHi + partsLo))) (parts.drop (parts.length - partsLo))
  | _ :: _ :: _ => none

/-- `IPv6Address(text)._ip` -/
def parseIpv6 (text : List Char) : Option Nat :=
  if '/' ∈ text then none
  else
    (splitScopeId text).bind fun address =>
      let parts := address.splitOn ':'
      if parts.length < 3 then none
      else
        (expandIpv4Suffix parts).bind fun expanded =>
          if expanded.length > 9 then none else ipFromParts expanded

/-- `ipaddress.ip_address`, where `none` is the `ValueError`. -/
def ipAddress (text : List Char) : Option IpAddress :=
  match parseIpv4 text with
  | some ip => some ⟨.v4, ip⟩
  | none => (parseIpv6 text).map fun ip => ⟨.v6, ip⟩

/-- `str(IPv4Address(ip))` -/
def formatIpv4 (ip : Nat) : List Char :=
  ['.'].intercalate ([ip / 16777216 % 256, ip / 65536 % 256, ip / 256 % 256, ip % 256].map
    (Nat.toDigits 10))

/-- `"::ffff:" + str(IPv4Address(ip))` -/
def formatMapped (ip : Nat) : List Char := [':', ':', 'f', 'f', 'f', 'f', ':'] ++ formatIpv4 ip

theorem foldl_digits_lt {b n : Nat} {digits : List Nat} (h : ∀ d ∈ digits, d < b) :
    digits.foldl (fun n d => n * b + d) n < (n + 1) * b ^ digits.length := by
  induction digits generalizing n with
  | nil => simp
  | cons d rest ih =>
    obtain ⟨hd, hrest⟩ := List.forall_mem_cons.mp h
    have step := ih (n := n * b + d) hrest
    have grow : (n * b + d + 1) * b ^ rest.length ≤ (n + 1) * b * b ^ rest.length := by
      apply Nat.mul_le_mul_right
      rw [Nat.succ_mul]
      omega
    rw [List.foldl_cons, List.length_cons, Nat.pow_succ']
    calc
      _ < (n * b + d + 1) * b ^ rest.length := step
      _ ≤ (n + 1) * b * b ^ rest.length := grow
      _ = (n + 1) * (b * b ^ rest.length) := Nat.mul_assoc _ _ _

theorem parseOctet_lt {text : List Char} {n : Nat} (h : parseOctet text = some n) : n < 256 := by
  simp only [parseOctet, Option.ite_none_left_eq_some, Option.some.injEq] at h
  obtain ⟨_, _, _, _, bound, rfl⟩ := h
  omega

theorem hexDigitValue_lt {c : Char} {n : Nat} (h : hexDigitValue c = some n) : n < 16 := by
  unfold hexDigitValue at h
  split at h
  next hc =>
    cases Option.some.inj h
    have upper : c.toNat ≤ 57 := hc.2
    omega
  next =>
    split at h
    next hc =>
      cases Option.some.inj h
      have upper : c.toNat ≤ 102 := hc.2
      omega
    next =>
      split at h
      next hc =>
        cases Option.some.inj h
        have upper : c.toNat ≤ 70 := hc.2
        omega
      next => cases h

theorem mem_of_mapM {α β : Type*} {f : α → Option β} {P : β → Prop} (hf : ∀ {x y}, f x = some y → P y)
    {xs : List α} {ys : List β} (h : xs.mapM f = some ys) : ys.length = xs.length ∧ ∀ y ∈ ys, P y := by
  induction xs generalizing ys with
  | nil =>
    cases Option.some.inj h
    simp
  | cons x xs ih =>
    rw [List.mapM_cons] at h
    obtain ⟨y, hy, h⟩ := Option.bind_eq_some_iff.mp h
    obtain ⟨rest, hr, h⟩ := Option.bind_eq_some_iff.mp h
    cases Option.some.inj h
    obtain ⟨len, all⟩ := ih hr
    exact ⟨congrArg (· + 1) len, List.forall_mem_cons.mpr ⟨hf hy, all⟩⟩

theorem parseIpv4_lt {text : List Char} {ip : Nat} (h : parseIpv4 text = some ip) : ip < 2 ^ 32 := by
  simp only [parseIpv4, Option.ite_none_left_eq_some, not_not] at h
  obtain ⟨_, four, h⟩ := h
  obtain ⟨octets, hm, rfl⟩ := Option.map_eq_some_iff.mp h
  obtain ⟨len, bound⟩ := mem_of_mapM parseOctet_lt hm
  have total := foldl_digits_lt (n := 0) bound
  rw [len, four] at total
  exact total

theorem parseHextet_lt {text : List Char} {n : Nat} (h : parseHextet text = some n) : n < 65536 := by
  obtain ⟨digits, hm, h⟩ := Option.bind_eq_some_iff.mp h
  simp only [Option.ite_none_left_eq_some, Option.some.injEq] at h
  obtain ⟨short, _, rfl⟩ := h
  obtain ⟨len, bound⟩ := mem_of_mapM hexDigitValue_lt hm
  have total := foldl_digits_lt (n := 0) bound
  have size : 16 ^ digits.length ≤ 16 ^ 4 := Nat.pow_le_pow_right (by decide) (by omega)
  unfold fromHex
  omega

theorem appendHextets_lt {parts : List (List Char)} {ip result k : Nat}
    (h : appendHextets ip parts = some result) (bound : ip < 65536 ^ k) :
    result < 65536 ^ (k + parts.length) := by
  induction parts generalizing ip k with
  | nil =>
    cases Option.some.inj h
    exact bound
  | cons part rest ih =>
    obtain ⟨hextet, hh, h⟩ := Option.bind_eq_some_iff.mp h
    have small := parseHextet_lt hh
    have grown : ip * 65536 + hextet < 65536 ^ (k + 1) := by
      rw [Nat.pow_succ]
      omega
    have := ih h grown
    rwa [List.length_cons, show k + (rest.length + 1) = k + 1 + rest.length by omega]

theorem ipFromParts_lt {parts : List (List Char)} {ip : Nat} (h : ipFromParts parts = some ip) :
    ip < 2 ^ 128 := by
  have base : (0 : Nat) < 65536 ^ 0 := by decide
  have size : (65536 : Nat) ^ 8 = 2 ^ 128 := by decide
  rw [← size]
  unfold ipFromParts at h
  dsimp only at h
  split at h
  next =>
    simp only [Option.ite_none_left_eq_some, not_not] at h
    obtain ⟨eight, _, h⟩ := h
    simpa [eight] using appendHextets_lt h base
  next skipIndex _ =>
    generalize (if decide (parts.head? = some []) then skipIndex - 1 else skipIndex) = hi at h
    generalize (if decide (parts.getLast? = some []) then parts.length - skipIndex - 1 - 1
      else parts.length - skipIndex - 1) = lo at h
    simp only [Option.ite_none_left_eq_some] at h
    obtain ⟨_, _, room, h⟩ := h
    obtain ⟨high, hh, h⟩ := Option.bind_eq_some_iff.mp h
    have front : high < 65536 ^ hi := by
      refine (appendHextets_lt hh base).trans_le (Nat.pow_le_pow_right (by decide) ?_)
      rw [Nat.zero_add]
      exact List.length_take_le hi parts
    have shifted : high * 65536 ^ (8 - (hi + lo)) < 65536 ^ (8 - lo) := by
      rw [show 8 - lo = hi + (8 - (hi + lo)) by omega, Nat.pow_add]
      exact Nat.mul_lt_mul_of_pos_right front (Nat.pow_pos (by decide))
    refine (appendHextets_lt h shifted).trans_le (Nat.pow_le_pow_right (by decide) ?_)
    rw [List.length_drop]
    omega
  next => cases h

theorem parseIpv6_lt {text : List Char} {ip : Nat} (h : parseIpv6 text = some ip) : ip < 2 ^ 128 := by
  simp only [parseIpv6, Option.ite_none_left_eq_some, Option.bind_eq_some_iff] at h
  obtain ⟨_, _, _, _, _, _, _, h⟩ := h
  exact ipFromParts_lt h

theorem ipAddress_lt {text : List Char} {address : IpAddress} (h : ipAddress text = some address) :
    address.ip < 2 ^ address.version.maxPrefixlen := by
  unfold ipAddress at h
  split at h
  next ip hv =>
    cases Option.some.inj h
    exact parseIpv4_lt hv
  next =>
    obtain ⟨ip, hv, rfl⟩ := Option.map_eq_some_iff.mp h
    exact parseIpv6_lt hv

/-- The addresses that a network stands for. -/
def IpNetwork.Covers (network : IpNetwork) (address : IpAddress) : Prop :=
  network.version = address.version ∧ network.networkAddress ≤ address.ip ∧
    address.ip < network.networkAddress + 2 ^ (network.version.maxPrefixlen - network.prefixlen)

/-- A network whose host bits are zero. -/
def IpNetwork.Aligned (network : IpNetwork) : Prop :=
  network.prefixlen ≤ network.version.maxPrefixlen ∧
    2 ^ (network.version.maxPrefixlen - network.prefixlen) ∣ network.networkAddress

instance (network : IpNetwork) : Decidable network.Aligned := inferInstanceAs (Decidable (_ ∧ _))

/-- The masked comparison decides whether an address lies in the network. -/
theorem contains_iff_covers {network : IpNetwork} {address : IpAddress} (aligned : network.Aligned)
    (bound : address.ip < 2 ^ address.version.maxPrefixlen) :
    network.contains address ↔ network.Covers address := by
  simp only [IpNetwork.contains, IpNetwork.Covers, Bool.and_eq_true, decide_eq_true_eq]
  refine and_congr_right fun same => ?_
  exact PrefixMasks.land_prefixMask_eq_iff (same ▸ bound) aligned.1 aligned.2

theorem parseOctet_toDigits {n : Nat} (h : n < 256) : parseOctet (Nat.toDigits 10 n) = some n := by
  have all : ∀ m < 256, parseOctet (Nat.toDigits 10 m) = some m := by decide +kernel
  exact all n h

theorem hexDigitValue_digitChar {d : Nat} (h : d < 16) : hexDigitValue d.digitChar = some d := by
  have all : ∀ e < 16, hexDigitValue (Nat.digitChar e) = some e := by decide
  exact all d h

theorem mapM_hexDigits (n : Nat) : ∃ digits, (Nat.toDigits 16 n).mapM hexDigitValue = some digits ∧
    fromHex digits = n := by
  induction n using Nat.strongRecOn with
  | ind n ih =>
    by_cases small : n < 16
    · refine ⟨[n], ?_, by simp [fromHex]⟩
      rw [Nat.toDigits_of_lt_base small, List.mapM_cons, hexDigitValue_digitChar small]
      rfl
    · obtain ⟨digits, hm, hv⟩ := ih (n / 16) (by omega)
      refine ⟨digits ++ [n % 16], ?_, ?_⟩
      · rw [Nat.toDigits_of_base_le (by decide) (by omega), List.mapM_append, hm, List.mapM_cons,
          hexDigitValue_digitChar (Nat.mod_lt n (by decide))]
        rfl
      · have last : fromHex (digits ++ [n % 16]) = fromHex digits * 16 + n % 16 := by
          simp [fromHex]
        omega

theorem parseHextet_toDigits {n : Nat} (h : n < 65536) :
    parseHextet (Nat.toDigits 16 n) = some n := by
  obtain ⟨digits, hm, rfl⟩ := mapM_hexDigits n
  have short : (Nat.toDigits 16 (fromHex digits)).length ≤ 4 :=
    (Nat.length_toDigits_le_iff (by decide) (by decide)).mpr h
  rw [parseHextet, hm, Option.bind_some, if_neg (by omega), if_neg Nat.toDigits_ne_nil]

theorem not_mem_toDigits {c : Char} {n : Nat} (h : c.isDigit = false) : c ∉ Nat.toDigits 10 n := by
  intro hc
  simp [Nat.isDigit_of_mem_toDigits (by decide) (by decide) hc] at h

theorem mem_formatIpv4 {c : Char} {ip : Nat} (h : c ∈ formatIpv4 ip) : c = '.' ∨ c.isDigit := by
  have digits : ∀ n, c ∈ Nat.toDigits 10 n → c.isDigit := fun n =>
    Nat.isDigit_of_mem_toDigits (by decide) (by decide)
  simp only [formatIpv4, List.map_cons, List.map_nil, List.intercalate_cons_cons,
    List.intercalate_singleton, List.mem_append, List.mem_singleton, or_assoc] at h
  rcases h with h | h | h | h | h | h | h
  · exact Or.inr (digits _ h)
  · exact Or.inl h
  · exact Or.inr (digits _ h)
  · exact Or.inl h
  · exact Or.inr (digits _ h)
  · exact Or.inl h
  · exact Or.inr (digits _ h)

theorem not_mem_formatIpv4 {c : Char} {ip : Nat} (dot : c ≠ '.') (h : c.isDigit = false) :
    c ∉ formatIpv4 ip := by
  intro hc
  rcases mem_formatIpv4 hc with rfl | digit
  · exact dot rfl
  · simp [digit] at h

theorem splitOn_formatIpv4 (ip : Nat) : (formatIpv4 ip).splitOn '.' =
    [ip / 16777216 % 256, ip / 65536 % 256, ip / 256 % 256, ip % 256].map (Nat.toDigits 10) := by
  apply List.splitOn_intercalate
  · intro part hp
    obtain ⟨n, _, rfl⟩ := List.mem_map.mp hp
    exact not_mem_toDigits (by decide)
  · simp

theorem parseIpv4_format {ip : Nat} (h : ip < 2 ^ 32) : parseIpv4 (formatIpv4 ip) = some ip := by
  have noSlash : '/' ∉ formatIpv4 ip := not_mem_formatIpv4 (by decide) (by decide)
  have octet : ∀ n, parseOctet (Nat.toDigits 10 (n % 256)) = some (n % 256) := fun n =>
    parseOctet_toDigits (Nat.mod_lt n (by decide))
  simp only [parseIpv4, if_neg noSlash, splitOn_formatIpv4, List.length_cons,
    List.length_nil, List.map_cons, List.map_nil, List.mapM_cons, octet, List.mapM_nil]
  have value : fromBytes [ip / 16777216 % 256, ip / 65536 % 256, ip / 256 % 256, ip % 256] = ip := by
    simp only [fromBytes, List.foldl_cons, List.foldl_nil]
    omega
  exact congrArg some value

theorem splitOn_formatMapped (ip : Nat) :
    (formatMapped ip).splitOn ':' = [[], [], ['f', 'f', 'f', 'f'], formatIpv4 ip] := by
  have parts : formatMapped ip = [':'].intercalate [[], [], ['f', 'f', 'f', 'f'], formatIpv4 ip] := by
    simp [formatMapped, List.intercalate_cons_cons]
  rw [parts]
  apply List.splitOn_intercalate
  · intro part hp
    simp only [List.mem_cons, List.not_mem_nil, or_false] at hp
    rcases hp with rfl | rfl | rfl | rfl
    · simp
    · simp
    · decide
    · exact not_mem_formatIpv4 (by decide) (by decide)
  · simp

/-- The mapped form is no IPv4 address: its first part holds a colon. -/
theorem parseIpv4_formatMapped (ip : Nat) : parseIpv4 (formatMapped ip) = none := by
  let first := [':', ':', 'f', 'f', 'f', 'f', ':'] ++ Nat.toDigits 10 (ip / 16777216 % 256)
  let others := [ip / 65536 % 256, ip / 256 % 256, ip % 256].map (Nat.toDigits 10)
  have joined : formatMapped ip = ['.'].intercalate (first :: others) := by
    simp [first, others, formatMapped, formatIpv4, List.intercalate_cons_cons]
  have parts : (formatMapped ip).splitOn '.' = first :: others := by
    rw [joined]
    apply List.splitOn_intercalate
    · intro part hp
      rcases List.mem_cons.mp hp with rfl | hp
      · simp [first, not_mem_toDigits]
      · obtain ⟨n, _, rfl⟩ := List.mem_map.mp hp
        exact not_mem_toDigits (by decide)
    · simp
  have bad : parseOctet first = none := by simp [first, parseOctet]
  unfold parseIpv4
  split
  next => rfl
  next => simp [parts, bad, others]

theorem hextet_lt (n : Nat) : n &&& 0xFFFF < 65536 := Nat.and_lt_two_pow n (by decide : 0xFFFF < 2 ^ 16)

theorem ipFromParts_mapped {hi lo : Nat} (hhi : hi < 65536) (hlo : lo < 65536) :
    ipFromParts [[], [], ['f', 'f', 'f', 'f'], Nat.toDigits 16 hi, Nat.toDigits 16 lo] =
      some ((0xFFFF * 65536 + hi) * 65536 + lo) := by
  have skip : skipIndices [[], [], ['f', 'f', 'f', 'f'], Nat.toDigits 16 hi, Nat.toDigits 16 lo] =
      [1] := by
    simp [skipIndices, List.range', Nat.toDigits_ne_nil]
  have ffff : parseHextet ['f', 'f', 'f', 'f'] = some 65535 := by decide
  simp [ipFromParts, skip, Nat.toDigits_ne_nil, appendHextets, ffff, parseHextet_toDigits hhi,
    parseHextet_toDigits hlo]

theorem parseIpv6_formatMapped {ip : Nat} (h : ip < 2 ^ 32) :
    parseIpv6 (formatMapped ip) = some (0xFFFF * 2 ^ 32 + ip) := by
  have absent : ∀ c, c ≠ ':' → c ≠ 'f' → c ≠ '.' → c.isDigit = false → c ∉ formatMapped ip := by
    intro c colon f dot digit
    simp [formatMapped, colon, f, not_mem_formatIpv4 dot digit]
  have noSlash : '/' ∉ formatMapped ip := absent _ (by decide) (by decide) (by decide) (by decide)
  have noScope : '%' ∉ formatMapped ip := absent _ (by decide) (by decide) (by decide) (by decide)
  have scope : splitScopeId (formatMapped ip) = some (formatMapped ip) := by
    have none_left : (formatMapped ip).dropWhile (· ≠ '%') = [] := by
      rw [List.dropWhile_eq_nil_iff]
      intro c hc
      simp only [decide_eq_true_eq]
      rintro rfl
      exact noScope hc
    simp only [splitScopeId, none_left]
  have dotted : '.' ∈ formatIpv4 ip := by
    simp [formatIpv4, List.intercalate_cons_cons]
  have expanded : expandIpv4Suffix [[], [], ['f', 'f', 'f', 'f'], formatIpv4 ip] =
      some [[], [], ['f', 'f', 'f', 'f'], Nat.toDigits 16 (ip >>> 16 &&& 0xFFFF),
        Nat.toDigits 16 (ip &&& 0xFFFF)] := by
    simp [expandIpv4Suffix, dotted, parseIpv4_format h]
  simp only [parseIpv6, if_neg noSlash, scope, Option.bind_some, splitOn_formatMapped, expanded,
    ipFromParts_mapped (hextet_lt _) (hextet_lt _)]
  have low : ∀ n, n &&& 0xFFFF = n % 65536 := fun n => Nat.and_two_pow_sub_one_eq_mod n 16
  have value : (0xFFFF * 65536 + (ip >>> 16 &&& 0xFFFF)) * 65536 + (ip &&& 0xFFFF) =
      0xFFFF * 2 ^ 32 + ip := by
    rw [low, low, Nat.shiftRight_eq_div_pow]
    omega
  exact congrArg some value

theorem ipAddress_format {ip : Nat} (h : ip < 2 ^ 32) : ipAddress (formatIpv4 ip) = some ⟨.v4, ip⟩ := by
  simp only [ipAddress, parseIpv4_format h]

theorem ipAddress_formatMapped {ip : Nat} (h : ip < 2 ^ 32) :
    ipAddress (formatMapped ip) = some ⟨.v6, 0xFFFF * 2 ^ 32 + ip⟩ := by
  simp only [ipAddress, parseIpv4_formatMapped, parseIpv6_formatMapped h, Option.map_some]

theorem ipv4Mapped_mapped {ip : Nat} (h : ip < 2 ^ 32) :
    (IpAddress.mk .v6 (0xFFFF * 2 ^ 32 + ip)).ipv4Mapped = some ⟨.v4, ip⟩ := by
  have high : (0xFFFF * 2 ^ 32 + ip) >>> 32 = 0xFFFF := by
    rw [Nat.shiftRight_eq_div_pow]
    omega
  have low : (0xFFFF * 2 ^ 32 + ip) &&& 0xFFFFFFFF = ip := by
    refine (Nat.and_two_pow_sub_one_eq_mod (0xFFFF * 2 ^ 32 + ip) 32).trans ?_
    omega
  simp only [IpAddress.ipv4Mapped, high, low, if_true]

end DomainProcessing
