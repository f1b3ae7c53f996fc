import DomainProcessing.IpAddresses
import DomainProcessing.ProcessTask

namespace DomainProcessing

def ipv4Network (text : String) (a b c d prefixlen : Nat) : IpNetwork :=
  ⟨text, .v4, fromBytes [a, b, c, d], prefixlen⟩

/-- A network whose address has only the two first hextets. -/
def ipv6Network (text : String) (first second prefixlen : Nat) : IpNetwork :=
  ⟨text, .v6, (first * 65536 + second) * 65536 ^ 6, prefixlen⟩

/-- `BLOCKED_NETWORKS` -/
def blockedNetworks : List IpNetwork :=
  [ipv4Network "127.0.0.0/8" 127 0 0 0 8,
    ⟨"::1/128", .v6, 1, 128⟩,
    ipv4Network "10.0.0.0/8" 10 0 0 0 8,
    ipv4Network "172.16.0.0/12" 172 16 0 0 12,
    ipv4Network "192.168.0.0/16" 192 168 0 0 16,
    ipv4Network "169.254.0.0/16" 169 254 0 0 16,
    ipv6Network "fe80::/10" 0xfe80 0 10,
    ipv6Network "fc00::/7" 0xfc00 0 7,
    ipv4Network "224.0.0.0/4" 224 0 0 0 4,
    ipv6Network "ff00::/8" 0xff00 0 8,
    ipv4Network "0.0.0.0/32" 0 0 0 0 32,
    ⟨"::/128", .v6, 0, 128⟩,
    ipv4Network "240.0.0.0/4" 240 0 0 0 4,
    ipv4Network "198.18.0.0/15" 198 18 0 0 15,
    ipv4Network "198.19.0.0/16" 198 19 0 0 16,
    ipv4Network "100.64.0.0/10" 100 64 0 0 10,
    ipv4Network "192.0.2.0/24" 192 0 2 0 24,
    ipv4Network "198.51.100.0/24" 198 51 100 0 24,
    ipv4Network "203.0.113.0/24" 203 0 113 0 24,
    ipv6Network "2001:db8::/32" 0x2001 0xdb8 32]

/-- The networks as the module parses them. -/
example : blockedNetworks.map (fun network => ipAddress (network.text.toList.takeWhile (· ≠ '/'))) =
    blockedNetworks.map fun network => some ⟨network.version, network.networkAddress⟩ := by
  decide +kernel

/-- `IpValidator.validate`; `repr` is Python's, which the error message uses. -/
def validateIp (repr : String → String) (text : String) : IpValidationResult :=
  match ipAddress text.toList with
  | none =>
    ⟨false, text, some s!"Invalid IP address format: {repr text} does not appear to be an IPv4 or IPv6 address"⟩
  | some ip =>
    match blockedNetworks.find? fun network => network.contains ip with
    | some network => ⟨false, text, some s!"IP blocked: matches restricted network {network.text}"⟩
    | none =>
      match ip.ipv4Mapped with
      | none => ⟨true, text, none⟩
      | some mapped =>
        match blockedNetworks.find? fun network =>
            decide (network.version = .v4) && network.contains mapped with
        | some network => ⟨false, text, some s!"IPv4-mapped address blocked: {network.text}"⟩
        | none => ⟨true, text, none⟩

/-- No blocked network covers the address. -/
def Unblocked (address : IpAddress) : Prop :=
  ∀ network ∈ blockedNetworks, ¬network.Covers address

/-- The text is an address outside the blocked networks, and so is the IPv4
address that it may embed. -/
def Permitted (text : String) : Prop :=
  ∃ address, ipAddress text.toList = some address ∧ Unblocked address ∧
    ∀ mapped, address.ipv4Mapped = some mapped → Unblocked mapped

theorem blockedNetworks_aligned : ∀ network ∈ blockedNetworks, network.Aligned := by
  decide +kernel

theorem find_blocked_eq_none_iff {address : IpAddress}
    (bound : address.ip < 2 ^ address.version.maxPrefixlen) :
    (blockedNetworks.find? fun network => network.contains address) = none ↔ Unblocked address := by
  rw [List.find?_eq_none]
  refine forall₂_congr fun network hn => ?_
  exact not_congr (contains_iff_covers (blockedNetworks_aligned network hn) bound)

theorem ipv4Mapped_spec {address mapped : IpAddress} (h : address.ipv4Mapped = some mapped) :
    mapped.version = .v4 ∧ mapped.ip < 2 ^ mapped.version.maxPrefixlen := by
  unfold IpAddress.ipv4Mapped at h
  split at h
  next => cases h
  next =>
    split at h
    next =>
      cases Option.some.inj h
      exact ⟨rfl, Nat.and_lt_two_pow _ (by decide : 0xFFFFFFFF < 2 ^ 32)⟩
    next => cases h

/-- The second pass asks for the version first, which changes nothing. -/
theorem find_mapped_eq {mapped : IpAddress} (v4 : mapped.version = .v4) :
    (blockedNetworks.find? fun network =>
        decide (network.version = .v4) && network.contains mapped) =
      blockedNetworks.find? fun network => network.contains mapped := by
  congr 1
  funext network
  by_cases hv : network.version = .v4
  · simp [hv]
  · simp [IpNetwork.contains, v4, hv]

theorem validateIp_isAllowed_iff {repr : String → String} {text : String} :
    (validateIp repr text).isAllowed ↔ Permitted text := by
  unfold validateIp Permitted
  cases hp : ipAddress text.toList with
  | none => simp
  | some address =>
    have outside := find_blocked_eq_none_iff (ipAddress_lt hp)
    simp only [Option.some.injEq, exists_eq_left']
    cases hf : blockedNetworks.find? fun network => network.contains address with
    | some network =>
      simp only [Bool.false_eq_true, false_iff, not_and]
      intro unblocked
      rw [outside.mpr unblocked] at hf
      cases hf
    | none =>
      have unblocked := outside.mp hf
      cases hm : address.ipv4Mapped with
      | none => simp [unblocked]
      | some mapped =>
        obtain ⟨v4, bound⟩ := ipv4Mapped_spec hm
        have embedded := find_blocked_eq_none_iff bound
        simp only [find_mapped_eq v4, Option.some.injEq, forall_eq']
        cases hg : blockedNetworks.find? fun network => network.contains mapped with
        | some network =>
          simp only [Bool.false_eq_true, false_iff, not_and]
          intro _ clear
          rw [embedded.mpr clear] at hg
          cases hg
        | none => simp [unblocked, embedded.mp hg]

theorem validateIp_ip (repr : String → String) (text : String) : (validateIp repr text).ip = text := by
  unfold validateIp
  split
  · rfl
  · split
    · rfl
    · split
      · rfl
      · split <;> rfl

/-- No IPv6 network of the list reaches into the mapped block. -/
theorem unblocked_mapped {ip : Nat} (h : ip < 2 ^ 32) :
    Unblocked ⟨.v6, 0xFFFF * 2 ^ 32 + ip⟩ := by
  have apart : ∀ network ∈ blockedNetworks, network.version = .v6 →
      network.networkAddress + 2 ^ (network.version.maxPrefixlen - network.prefixlen) ≤
          0xFFFF * 2 ^ 32 ∨ 0x10000 * 2 ^ 32 ≤ network.networkAddress := by
    decide +kernel
  rintro network hn ⟨version, lower, upper⟩
  have := apart network hn version
  dsimp only at lower upper
  omega

theorem permitted_mapped_iff {ip : Nat} (h : ip < 2 ^ 32) :
    Permitted (String.ofList (formatMapped ip)) ↔ Permitted (String.ofList (formatIpv4 ip)) := by
  unfold Permitted
  rw [String.toList_ofList, String.toList_ofList, ipAddress_formatMapped h, ipAddress_format h]
  have plain : (IpAddress.mk .v4 ip).ipv4Mapped = none := rfl
  simp only [Option.some.injEq, exists_eq_left', ipv4Mapped_mapped h, forall_eq', plain, reduceCtorEq,
    false_implies, implies_true, and_true]
  exact ⟨fun both => both.2, fun embedded => ⟨unblocked_mapped h, embedded⟩⟩

end DomainProcessing
