import DomainProcessing.IpValidator
import DomainProcessing.Spellings

namespace DomainProcessing

/-- The two URLs of `HttpClient.probe`. -/
def probeUrls (validatedIp : String) : List String := ["https://" ++ validatedIp, "http://" ++ validatedIp]

structure UrlTarget where
  host : List Char
  port : Option (List Char)
  deriving DecidableEq, Repr

/-- What follows the host: a colon and the port, or nothing. -/
def urlPort : List Char → Option (List Char)
  | ':' :: port => some port
  | _ => none

/-- A bracketed literal, or the text up to the first colon. -/
def hostPort : List Char → UrlTarget
  | '[' :: rest => ⟨rest.takeWhile (· ≠ ']'), urlPort (rest.dropWhile (· ≠ ']')).tail⟩
  | text => ⟨text.takeWhile (· ≠ ':'), urlPort (text.dropWhile (· ≠ ':'))⟩

/-- What follows the user information, if there is any. -/
def afterUserinfo (authority : List Char) : List Char :=
  match authority.dropWhile (· ≠ '@') with
  | [] => authority
  | _ :: rest => rest

/-- Host and port of an absolute URL. -/
def urlTarget (url : List Char) : Option UrlTarget :=
  (afterScheme url).map fun tail => hostPort (afterUserinfo (before '#' (before '?' (before '/' tail))))

theorem urlTarget_probe {ip url : String} (h : url ∈ probeUrls ip) : urlTarget url.toList =
    some (hostPort (afterUserinfo (before '#' (before '?' (before '/' ip.toList))))) := by
  have letters : IsScheme "https".toList ∧ IsScheme "http".toList :=
    ⟨⟨'h', "ttps".toList, by decide, by decide, List.all_eq_true.mp (by decide)⟩,
      ⟨'h', "ttp".toList, by decide, by decide, List.all_eq_true.mp (by decide)⟩⟩
  unfold urlTarget
  rcases List.mem_cons.mp h with rfl | h
  · have scheme := afterScheme_of_scheme letters.1 ip.toList
    rw [String.toList_append]
    exact congrArg (Option.map _) scheme
  · have scheme := afterScheme_of_scheme letters.2 ip.toList
    rw [List.mem_singleton.mp h, String.toList_append]
    exact congrArg (Option.map _) scheme

theorem parseOctet_digits {text : List Char} {n : Nat} (h : parseOctet text = some n) :
    ∀ c ∈ text, c.isDigit = true := by
  simp only [parseOctet, Option.ite_none_left_eq_some] at h
  simpa using h.2.1

/-- An IPv4 address has digits and dots only. -/
theorem mem_of_parseIpv4 {text : List Char} {ip : Nat} (h : parseIpv4 text = some ip) {c : Char}
    (hc : c ∈ text) : c = '.' ∨ c.isDigit = true := by
  simp only [parseIpv4, Option.ite_none_left_eq_some] at h
  obtain ⟨octets, parsed, _⟩ := Option.map_eq_some_iff.mp h.2.2
  rcases mem_splitOn (a := '.') hc with dot | ⟨octet, listed, hc⟩
  · exact Or.inl dot
  · obtain ⟨n, _, hn⟩ := exists_image_of_mapM parsed listed
    exact Or.inr (parseOctet_digits hn c hc)

/-- An IPv6 address has a colon. -/
theorem colon_of_parseIpv6 {text : List Char} {ip : Nat} (h : parseIpv6 text = some ip) : ':' ∈ text := by
  simp only [parseIpv6, Option.ite_none_left_eq_some] at h
  obtain ⟨address, unscoped, h⟩ := Option.bind_eq_some_iff.mp h.2
  simp only [Option.ite_none_left_eq_some] at h
  have inAddress : ':' ∈ address := by
    by_contra absent
    have single : address.splitOn ':' = [address] := List.splitOn_eq_singleton absent
    rw [single, List.length_singleton] at h
    exact h.1 (by decide)
  unfold splitScopeId at unscoped
  split at unscoped
  next => rwa [Option.some.inj unscoped]
  next =>
    simp only [Option.ite_none_left_eq_some, Option.some.injEq] at unscoped
    rw [← unscoped.2] at inAddress
    exact (List.takeWhile_sublist _).subset inAddress

theorem hostPort_plain {text : List Char} (bracket : '[' ∉ text) (colon : ':' ∉ text) :
    hostPort text = ⟨text, none⟩ := by
  have host : text.takeWhile (· ≠ ':') = text := by
    rw [List.takeWhile_eq_self_iff]
    intro c hc
    rw [decide_eq_true_eq]
    rintro rfl
    exact colon hc
  have port : text.dropWhile (· ≠ ':') = [] := by
    have whole := List.takeWhile_append_dropWhile (p := (· ≠ ':')) (l := text)
    rw [host] at whole
    exact List.append_right_eq_self.mp whole
  unfold hostPort
  split
  next => exact absurd List.mem_cons_self bracket
  next =>
    rw [host, port]
    rfl

theorem afterUserinfo_sublist (authority : List Char) : (afterUserinfo authority).Sublist authority := by
  unfold afterUserinfo
  split
  next => exact List.Sublist.refl _
  next rest same =>
    have tail : (authority.dropWhile (· ≠ '@')).tail = rest := by rw [same, List.tail_cons]
    rw [← tail]
    exact (List.tail_sublist _).trans (List.dropWhile_sublist _)

/-- A text with a colon is not its own host. -/
theorem hostPort_ne {text ip : List Char} (inside : text.Sublist ip) (colon : ':' ∈ ip)
    (port : Option (List Char)) : hostPort text ≠ ⟨ip, port⟩ := by
  intro same
  unfold hostPort at same
  split at same
  next rest =>
    have host : rest.takeWhile (· ≠ ']') = ip := (UrlTarget.mk.inj same).1
    have shorter := (List.takeWhile_sublist (p := (· ≠ ']')) (l := rest)).length_le
    have longer := inside.length_le
    rw [host] at shorter
    rw [List.length_cons] at longer
    omega
  next =>
    have host : text.takeWhile (· ≠ ':') = ip := (UrlTarget.mk.inj same).1
    rw [← host] at colon
    exact absurd (List.mem_takeWhile_imp colon) (by decide)

/-- The URLs of the probe have an accepted address as their host exactly if it
is an IPv4 address. -/
theorem urlTarget_probe_iff {repr : String → String} {ip url : String}
    (allowed : (validateIp repr ip).isAllowed = true) (h : url ∈ probeUrls ip) :
    urlTarget url.toList = some ⟨ip.toList, none⟩ ↔ ∃ n, ipAddress ip.toList = some ⟨.v4, n⟩ := by
  obtain ⟨address, parsed, _⟩ := validateIp_isAllowed_iff.mp allowed
  rw [urlTarget_probe h, Option.some.injEq]
  unfold ipAddress at parsed ⊢
  cases v4 : parseIpv4 ip.toList with
  | some n =>
    have chars : ∀ c, c ≠ '.' → c.isDigit = false → c ∉ ip.toList := by
      intro c dot digit hc
      rcases mem_of_parseIpv4 v4 hc with same | number
      · exact dot same
      · exact absurd number (by simp [digit])
    have whole : ∀ sep, sep ≠ '.' → sep.isDigit = false → before sep ip.toList = ip.toList := by
      intro sep dot digit
      have appended := before_append (chars sep dot digit) []
      rw [List.append_nil] at appended
      exact appended.trans (List.append_nil _)
    have anonymous : afterUserinfo ip.toList = ip.toList := by
      have none : ip.toList.dropWhile (· ≠ '@') = [] := by
        rw [List.dropWhile_eq_nil_iff]
        intro c hc
        rw [decide_eq_true_eq]
        rintro rfl
        exact chars '@' (by decide) (by decide) hc
      unfold afterUserinfo
      rw [none]
    rw [whole '/' (by decide) (by decide), whole '?' (by decide) (by decide), whole '#' (by decide) (by decide),
      anonymous, hostPort_plain (chars '[' (by decide) (by decide)) (chars ':' (by decide) (by decide))]
    exact iff_of_true rfl ⟨n, rfl⟩
  | none =>
    rw [v4] at parsed
    obtain ⟨n, v6, _⟩ := Option.map_eq_some_iff.mp parsed
    refine iff_of_false ?_ ?_
    · refine hostPort_ne ?_ (colon_of_parseIpv6 v6) none
      have cut : ∀ sep (text : List Char), (before sep text).Sublist text :=
        fun sep text => List.takeWhile_sublist _
      exact (((afterUserinfo_sublist _).trans (cut '#' _)).trans (cut '?' _)).trans (cut '/' _)
    · rw [v6]
      rintro ⟨m, same⟩
      cases same

/-- Every URL of the probe leads to the address that was validated exactly if
it is an IPv4 address. -/
theorem probe_targets_address_iff {repr : String → String} {ip : String}
    (allowed : (validateIp repr ip).isAllowed = true) :
    (∀ url ∈ probeUrls ip, urlTarget url.toList = some ⟨ip.toList, none⟩) ↔
      ∃ n, ipAddress ip.toList = some ⟨.v4, n⟩ := by
  constructor
  · intro targets
    exact (urlTarget_probe_iff allowed List.mem_cons_self).mp (targets _ List.mem_cons_self)
  · intro v4 url h
    exact (urlTarget_probe_iff allowed h).mpr v4

theorem probe_targets_address_v4 : (validateIp id "104.20.23.154").isAllowed = true ∧
    ∀ url ∈ probeUrls "104.20.23.154", urlTarget url.toList = some ⟨"104.20.23.154".toList, none⟩ := by
  have allowed : (validateIp id "104.20.23.154").isAllowed = true := by decide +kernel
  exact ⟨allowed, (probe_targets_address_iff allowed).mpr
    ⟨104 * 16777216 + 20 * 65536 + 23 * 256 + 154, by decide +kernel⟩⟩

/-- The first hextet becomes the host, the others the port. -/
theorem probe_misses_ipv6 :
    (validateIp id "2606:4700::1111").isAllowed = true ∧
      (∀ url ∈ probeUrls "2606:4700::1111",
        urlTarget url.toList = some ⟨"2606".toList, some "4700::1111".toList⟩) ∧
      ¬∀ url ∈ probeUrls "2606:4700::1111", urlTarget url.toList = some ⟨"2606:4700::1111".toList, none⟩ := by
  decide +kernel

end DomainProcessing
