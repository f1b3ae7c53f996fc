import DomainProcessing.IpValidator

namespace DomainProcessing

open Tables

namespace Attempt

/-- The attempt comes to the DNS lookup. -/
def looksUp (a : Attempt) : Bool :=
  a.domainFound && !a.freshBefore && decide (a.lock = .acquired) && !a.freshAfter

/-- The `validated_ip` of the call of `HttpClient.probe`, when there is one. -/
def probedAddress (a : Attempt) : Option String :=
  if a.looksUp && a.dns.isSuccess then a.validatedIp else none

variable {a : Attempt} {repr : String → String}

theorem processTask_of_looksUp (h : a.looksUp = true) : a.processTask = a.probeDomain := by
  simp only [looksUp, Bool.and_eq_true, Bool.not_eq_true', decide_eq_true_eq] at h
  obtain ⟨⟨⟨found, stale⟩, locked⟩, still⟩ := h
  simp [processTask, found, stale, locked, still]

/-- The only way out of the selection loop is with a permitted string. -/
theorem allowed_of_validateIps (resolved : a.dns.isSuccess = true) {validation : IpValidationResult}
    (h : a.validateIps = .ok validation) : validation.isAllowed = true := by
  unfold validateIps at h
  split at h
  next empty => simp [DnsResult.isSuccess, empty] at resolved
  next =>
    split at h
    next found =>
      have passed := List.find?_some found
      cases Except.ok.inj h
      exact passed
    next => cases h

/-- An attempt that probes ends as the answer of the server has it. -/
theorem processTask_of_probed (h : a.probedAddress.isSome) : a.processTask = a.probeServer := by
  unfold probedAddress at h
  split at h
  next reached =>
    obtain ⟨looks, resolved⟩ := Bool.and_eq_true_iff.mp reached
    rw [processTask_of_looksUp looks]
    exact probeDomain_of_allows resolved (allows_of_validated h)
  next => cases h

/-- The selection loop returns the result of the first permitted string. -/
theorem validateIps_of_find (hv : a.validate = validateIp repr) {text : String}
    (h : a.dns.allIps.find? (fun ip => (a.validate ip).isAllowed) = some text) :
    a.validateIps = .ok (validateIp repr text) := by
  unfold validateIps
  split
  next he => simp [he] at h
  next ip rest he =>
    rw [he] at h
    rw [h, hv]

/-- Without one the function raises. -/
theorem validateIps_of_find_none (resolved : a.dns.allIps ≠ [])
    (h : a.dns.allIps.find? (fun ip => (a.validate ip).isAllowed) = none) :
    a.validateIps = .error unboundLocalError := by
  unfold validateIps
  split
  next he => exact absurd he resolved
  next ip rest he =>
    rw [he] at h
    rw [h]

end Attempt

section Pipeline

variable {a : Attempt} {repr : String → String} {ipsV4 ipsV6 : List String} {cname : Option String}

/-- The address that is probed is the first one that passes. -/
theorem validatedIp_first (hv : a.validate = validateIp repr) {address : String}
    (h : a.validatedIp = some address) :
    a.dns.allIps.find? (fun ip => (a.validate ip).isAllowed) = some address := by
  unfold Attempt.validatedIp at h
  cases hf : a.dns.allIps.find? fun ip => (a.validate ip).isAllowed with
  | none =>
    by_cases resolved : a.dns.allIps = []
    · simp [Attempt.validateIps, resolved] at h
    · simp [Attempt.validateIps_of_find_none resolved hf] at h
  | some text =>
    rw [Attempt.validateIps_of_find hv hf] at h
    obtain ⟨_, same⟩ := Option.ite_none_right_eq_some.mp h
    rwa [validateIp_ip] at same

theorem isSuccess_of_resolved (hdns : a.dns = ⟨ipsV4, ipsV6, cname, none⟩) (resolved : ipsV4 ++ ipsV6 ≠ []) :
    a.dns.isSuccess = true := by
  rw [hdns, DnsResult.isSuccess, DnsResult.allIps]
  simpa [List.isEmpty_iff] using resolved

theorem validateIps_of_unpermitted (hv : a.validate = validateIp repr) (resolved : a.dns.allIps ≠ [])
    (none_permitted : ∀ text ∈ a.dns.allIps, ¬Permitted text) :
    a.validateIps = .error Attempt.unboundLocalError := by
  refine Attempt.validateIps_of_find_none resolved (List.find?_eq_none.mpr fun text ht allowed => ?_)
  rw [hv] at allowed
  exact none_permitted text ht (validateIp_isAllowed_iff.mp allowed)

/-- What becomes of an answer without a permitted address: the exception is
classified as permanent. -/
theorem write_of_unpermitted (hv : a.validate = validateIp repr) (looks : a.looksUp = true)
    (success : a.dns.isSuccess = true) (none_permitted : ∀ text ∈ a.dns.allIps, ¬Permitted text) :
    a.probedAddress = none ∧ a.processTask.write = .fail Attempt.unboundLocalError.text a.now := by
  have resolved : a.dns.allIps ≠ [] := by
    intro empty
    simp [DnsResult.isSuccess, empty] at success
  have raised := validateIps_of_unpermitted hv resolved none_permitted
  constructor
  · rw [Attempt.probedAddress, looks, success, Attempt.validatedIp, raised]
    rfl
  · rw [Attempt.processTask_of_looksUp looks, Attempt.probeDomain, if_pos success, raised]
    rfl

theorem probed_first (hv : a.validate = validateIp repr) (hdns : a.dns = ⟨ipsV4, ipsV6, cname, none⟩)
    {address : String} (h : a.probedAddress = some address) : Permitted address ∧
      ∃ earlier later, ipsV4 ++ ipsV6 = earlier ++ address :: later ∧ ∀ text ∈ earlier, ¬Permitted text := by
  have all : a.dns.allIps = ipsV4 ++ ipsV6 := by rw [hdns, DnsResult.allIps]
  obtain ⟨_, validated⟩ := Option.ite_none_right_eq_some.mp h
  have first := validatedIp_first hv validated
  rw [all, List.find?_eq_some_iff_append] at first
  obtain ⟨allowed, earlier, later, split, rejected⟩ := first
  rw [hv] at allowed
  refine ⟨validateIp_isAllowed_iff.mp allowed, earlier, later, split, ?_⟩
  intro text ht permitted
  have refused := rejected text ht
  rw [hv, validateIp_isAllowed_iff.mpr permitted] at refused
  cases refused

/-- With a permitted address there is a probe. -/
theorem probed_of_permitted (hv : a.validate = validateIp repr) (looks : a.looksUp = true)
    (success : a.dns.isSuccess = true) {text : String} (listed : text ∈ a.dns.allIps)
    (permitted : Permitted text) : ∃ address, a.probedAddress = some address := by
  have passes : (a.validate text).isAllowed = true := by
    rw [hv]
    exact validateIp_isAllowed_iff.mpr permitted
  cases hf : a.dns.allIps.find? fun ip => (a.validate ip).isAllowed with
  | none => exact absurd passes (List.find?_eq_none.mp hf text listed)
  | some address =>
    have allowed := List.find?_some hf
    rw [hv] at allowed
    refine ⟨address, ?_⟩
    simp [Attempt.probedAddress, looks, success, Attempt.validatedIp, Attempt.validateIps_of_find hv hf,
      allowed, validateIp_ip]

/-- What the pipeline promises for the addresses of an answer: only the first
permitted one is probed, and without one the task fails and its domain is
deactivated in the same transaction. -/
structure SsrfSound (a : Attempt) (repr : String → String) (maxAttempts : Nat) (db : Db) (task : Task)
    (ips : List String) : Prop where
  probed : ∀ address, a.probedAddress = some address → Permitted address ∧
    ∃ earlier later, ips = earlier ++ address :: later ∧ ∀ text ∈ earlier, ¬Permitted text
  rejected : (∀ text ∈ ips, ¬Permitted text) → a.probedAddress = none ∧
    ((a.processTask.write.apply maxAttempts db task).tasks.get task.id).map Task.status = some .failed ∧
    ((a.processTask.write.apply maxAttempts db task).domains.get task.domainId).map Domain.isActive =
      some false
  mapped : ∀ ip < 2 ^ 32, (validateIp repr (String.ofList (formatMapped ip))).isAllowed =
    (validateIp repr (String.ofList (formatIpv4 ip))).isAllowed

/-- The promise is kept exactly when some address is permitted, or the domain
is inactive anyway. -/
theorem ssrf_sound_iff (hv : a.validate = validateIp repr) (hdns : a.dns = ⟨ipsV4, ipsV6, cname, none⟩)
    (resolved : ipsV4 ++ ipsV6 ≠ []) (looks : a.looksUp = true) {maxAttempts : Nat} {db : Db} {task : Task}
    (stored : (db.tasks.get task.id).isSome) :
    SsrfSound a repr maxAttempts db task (ipsV4 ++ ipsV6) ↔
      (∃ text ∈ ipsV4 ++ ipsV6, Permitted text) ∨
        (db.domains.get task.domainId).map Domain.isActive = some false := by
  have all : a.dns.allIps = ipsV4 ++ ipsV6 := by rw [hdns, DnsResult.allIps]
  have success : a.dns.isSuccess = true := isSuccess_of_resolved hdns resolved
  have probed := fun address => @probed_first a repr ipsV4 ipsV6 cname hv hdns address
  have mapped : ∀ ip < 2 ^ 32, (validateIp repr (String.ofList (formatMapped ip))).isAllowed =
      (validateIp repr (String.ofList (formatIpv4 ip))).isAllowed := by
    intro ip h
    rw [Bool.eq_iff_iff, validateIp_isAllowed_iff, validateIp_isAllowed_iff]
    exact permitted_mapped_iff h
  by_cases some_permitted : ∃ text ∈ ipsV4 ++ ipsV6, Permitted text
  · refine iff_of_true ⟨probed, fun none_permitted => ?_, mapped⟩ (Or.inl some_permitted)
    obtain ⟨text, ht, permitted⟩ := some_permitted
    exact absurd permitted (none_permitted text ht)
  · have none_permitted : ∀ text ∈ ipsV4 ++ ipsV6, ¬Permitted text :=
      fun text ht permitted => some_permitted ⟨text, ht, permitted⟩
    obtain ⟨unprobed, write⟩ := write_of_unpermitted hv looks success (all ▸ none_permitted)
    have domains : (a.processTask.write.apply maxAttempts db task).domains = db.domains := by
      rw [write]
      exact writeTerminal_domains _ _ _ _ _
    have failed : ((a.processTask.write.apply maxAttempts db task).tasks.get task.id).map Task.status =
        some .failed := by
      obtain ⟨row, hrow⟩ := Option.isSome_iff_exists.mp stored
      rw [write, WorkerWrite.apply_tasks, Table.get_set, if_pos rfl, hrow]
      rfl
    rw [or_iff_right some_permitted]
    constructor
    · intro sound
      have inactive := (sound.rejected none_permitted).2.2
      rwa [domains] at inactive
    · intro inactive
      exact ⟨probed, fun _ => ⟨unprobed, failed, by rwa [domains]⟩, mapped⟩

/-- The gate by what the addresses of an answer are: with none that passes no
request is made and the task fails, else the first that passes is probed. -/
theorem ssrf_gate (hv : a.validate = validateIp repr) (hdns : a.dns = ⟨ipsV4, ipsV6, cname, none⟩)
    (resolved : ipsV4 ++ ipsV6 ≠ []) (looks : a.looksUp = true) {maxAttempts : Nat} {db : Db} {task : Task}
    (stored : (db.tasks.get task.id).isSome) :
    ((∀ text ∈ ipsV4 ++ ipsV6, ¬Permitted text) → a.probedAddress = none ∧
      ((a.processTask.write.apply maxAttempts db task).tasks.get task.id).map Task.status = some .failed) ∧
    ((∃ text ∈ ipsV4 ++ ipsV6, Permitted text) → ∃ address earlier later,
      a.probedAddress = some address ∧ Permitted address ∧
        ipsV4 ++ ipsV6 = earlier ++ address :: later ∧ ∀ text ∈ earlier, ¬Permitted text) := by
  have all : a.dns.allIps = ipsV4 ++ ipsV6 := by rw [hdns, DnsResult.allIps]
  have success : a.dns.isSuccess = true := isSuccess_of_resolved hdns resolved
  refine ⟨?_, ?_⟩
  · intro none_permitted
    obtain ⟨unprobed, write⟩ := write_of_unpermitted hv looks success (all ▸ none_permitted)
    obtain ⟨row, hrow⟩ := Option.isSome_iff_exists.mp stored
    refine ⟨unprobed, ?_⟩
    rw [write, WorkerWrite.apply_tasks, Table.get_set, if_pos rfl, hrow]
    rfl
  · rintro ⟨text, ht, permitted⟩
    obtain ⟨address, probed⟩ := probed_of_permitted hv looks success (all ▸ ht) permitted
    obtain ⟨allowed, earlier, later, split, rejected⟩ := probed_first hv hdns probed
    exact ⟨address, earlier, later, probed, allowed, split, rejected⟩

end Pipeline

/-- A resolver that answers with an internal address before a public one. -/
def rebindingAttempt : Attempt :=
  { now := 5, draw := .unjittered 5, domainFound := true, freshBefore := false, lock := .acquired,
    freshAfter := false, dns := ⟨["10.0.0.1", "93.184.216.34"], ["::1"], none, none⟩,
    validate := validateIp id, probe := .ok ⟨200, [], 5, none, none⟩, persisted := .ok () }

/-- A task that a worker has claimed, with its job and its domain. -/
def claimedTask : Task :=
  { id := 1, jobId := some 7, domainId := 11, type := .userRequest, status := .processing, attempts := 1,
    nextAttemptAt := 0, leaseExpiresAt := some 120, errorPayload := none, createdAt := 0, updatedAt := 0 }

def claimedDb : Db :=
  { jobs := ⟨[⟨7, .processing, 0, 0⟩], by decide⟩
    domains := ⟨[⟨11, "a.example", true, none, 0, 0⟩], by decide⟩
    tasks := ⟨[claimedTask], by decide⟩
    details := .empty
    idempotencyRecords := .empty }

theorem permitted_public : Permitted "93.184.216.34" := by
  apply (@validateIp_isAllowed_iff id _).mp
  decide +kernel

/-- One public address among internal ones is enough. -/
theorem ssrf_sound_rebinding : SsrfSound rebindingAttempt id 3 claimedDb claimedTask
    (["10.0.0.1", "93.184.216.34"] ++ ["::1"]) :=
  (ssrf_sound_iff rfl rfl (by simp) (by decide) (by decide)).mpr
    (Or.inl ⟨"93.184.216.34", by simp, permitted_public⟩)

/-- The answer of a resolver with internal addresses only. -/
def internalAttempt : Attempt := { rebindingAttempt with dns := ⟨["10.0.0.1"], ["::1"], none, none⟩ }

theorem unpermitted_internal : ∀ text ∈ ["10.0.0.1"] ++ ["::1"], ¬Permitted text := by
  have refused : ∀ text ∈ ["10.0.0.1"] ++ ["::1"], (validateIp id text).isAllowed = false := by
    decide +kernel
  intro text ht permitted
  have allowed : (validateIp id text).isAllowed = true := validateIp_isAllowed_iff.mpr permitted
  rw [refused text ht] at allowed
  cases allowed

/-- The task fails with the exception, and the domain stays active. -/
theorem ssrf_unsound_internal :
    ((internalAttempt.processTask.write.apply 3 claimedDb claimedTask).tasks.get 1).map
        (fun t => (t.status, t.errorPayload.map ErrorPayload.code)) = some (.failed, some "PERMANENT_ERROR") ∧
    ((internalAttempt.processTask.write.apply 3 claimedDb claimedTask).domains.get 11).map Domain.isActive =
      some true ∧
    ¬SsrfSound internalAttempt id 3 claimedDb claimedTask (["10.0.0.1"] ++ ["::1"]) := by
  have active : ((internalAttempt.processTask.write.apply 3 claimedDb claimedTask).domains.get 11).map
      Domain.isActive = some true := by decide +kernel
  refine ⟨by decide +kernel, active, fun sound => ?_⟩
  have inactive := (sound.rejected unpermitted_internal).2.2
  exact absurd (active.symm.trans inactive) (by decide)

/-- An internal address is resolved, and the probe is made all the same. -/
theorem ssrf_gate_mixed : "10.0.0.1" ∈ rebindingAttempt.dns.allIps ∧
    (∃ address, ipAddress "10.0.0.1".toList = some address ∧ ¬Unblocked address) ∧
    rebindingAttempt.probedAddress = some "93.184.216.34" ∧
    ((rebindingAttempt.processTask.write.apply 3 claimedDb claimedTask).tasks.get 1).map Task.status =
      some .completed := by
  have parsed : ipAddress "10.0.0.1".toList = some ⟨.v4, 10 * 2 ^ 24 + 1⟩ := by decide +kernel
  refine ⟨by decide +kernel, ⟨_, parsed, ?_⟩, by decide +kernel, by decide +kernel⟩
  intro unblocked
  have passed := (find_blocked_eq_none_iff (by decide)).mpr unblocked
  have found : (blockedNetworks.find? fun network => network.contains ⟨.v4, 10 * 2 ^ 24 + 1⟩).isSome := by
    decide +kernel
  rw [passed] at found
  cases found

theorem ssrf_gate_internal : internalAttempt.probedAddress = none ∧
    ((internalAttempt.processTask.write.apply 3 claimedDb claimedTask).tasks.get 1).map Task.status =
      some .failed :=
  (ssrf_gate (a := internalAttempt) rfl rfl (by simp) (by decide) (by decide)).1 unpermitted_internal

end DomainProcessing
