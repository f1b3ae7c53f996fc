import DomainProcessing.SsrfProtection

namespace DomainProcessing

open Tables

/-- The c-ares codes that the source names, and all others. -/
inductive AresCode
  | enodata
  | eservfail
  | enotfound
  | econnrefused
  | etimeout
  | other (code : Nat)
  deriving DecidableEq, Repr

/-- What a query raises, and the exception `_resolve_dns` makes of a text. -/
inductive DnsException
  | timeoutError
  | dnsError (code : AresCode)
  | exception (text : String)
  deriving DecidableEq, Repr

inductive DnsClassification
  | retryable
  | permanent
  | unknown
  deriving DecidableEq, Repr

def classifyDnsError : DnsException → DnsClassification
  | .timeoutError => .retryable
  | .dnsError .etimeout | .dnsError .eservfail | .dnsError .econnrefused => .retryable
  | .dnsError .enotfound | .dnsError .enodata => .permanent
  | .dnsError (.other _) | .exception _ => .unknown

/-- What `query` returns or raises for the hosts of one record type. -/
abbrev DnsAnswer := Except DnsException (List String)

/-- An address lookup answers not-found and no-data with an empty list. -/
def resolveAddresses : DnsAnswer → Except DnsException (List String)
  | .ok hosts => .ok hosts
  | .error (.dnsError .enotfound) | .error (.dnsError .enodata) => .ok []
  | .error e => .error e

def resolveA : DnsAnswer → Except DnsException (List String) := resolveAddresses

def resolveAaaa : DnsAnswer → Except DnsException (List String) := resolveAddresses

def resolveCname : DnsAnswer → Except DnsException (Option String)
  | .ok hosts => .ok hosts.head?
  | .error (.dnsError _) => .ok none
  | .error e => .error e

/-- The result of a gathered lookup; one that raised is logged and dropped. -/
def gathered {α : Type} (default : α) : Except DnsException α → α
  | .ok value => value
  | .error _ => default

structure DnsLookups where
  a : DnsAnswer
  aaaa : DnsAnswer
  cname : DnsAnswer

/-- `DnsResolver.resolve`, whose result never carries an error. -/
def DnsLookups.resolve (l : DnsLookups) : DnsResult where
  ipsV4 := gathered [] (resolveA l.a)
  ipsV6 := gathered [] (resolveAaaa l.aaaa)
  cname := gathered none (resolveCname l.cname)
  error := none

def DnsAnswer.Failed (classification : DnsClassification) (answer : DnsAnswer) : Prop :=
  ∃ e, answer = .error e ∧ classifyDnsError e = classification

namespace Attempt

variable {a : Attempt} {l : DnsLookups}

/-- Whatever the lookups answered, without an address the attempt is
rescheduled with the same text. -/
theorem processTask_of_unresolved (looks : a.looksUp = true) (dns : a.dns = l.resolve)
    (unresolved : l.resolve.allIps = []) :
    a.processTask.write = a.reschedule "DNS error: None" := by
  have missing : a.dns.error = none := by rw [dns]; rfl
  have failed : ¬a.dns.isSuccess = true := by
    rw [DnsResult.isSuccess, dns, unresolved]
    simp
  rw [processTask_of_looksUp looks, probeDomain, if_neg failed]
  have text : "DNS error: " ++ "None" = "DNS error: None" := by decide
  simp only [handleDnsFailure, missing, truthy, dnsClassification, formatted]
  exact congrArg a.reschedule text

end Attempt

/-- A lookup without an address fails the task and deactivates the domain at
the end of the attempts and at no other time. -/
theorem processTask_dns_failure_iff {a : Attempt} {l : DnsLookups} (looks : a.looksUp = true)
    (dns : a.dns = l.resolve) (unresolved : l.resolve.allIps = []) {maxAttempts : Nat} {db : Db}
    {task row : Task} (stored : db.tasks.get task.id = some row)
    (known : (db.domains.get row.domainId).isSome) :
    let after := a.processTask.write.apply maxAttempts db task
    ((l.a.Failed .permanent ∧ l.aaaa.Failed .permanent →
        (after.tasks.get task.id).map Task.status = some .failed ∧
          (after.domains.get row.domainId).map Domain.isActive = some false) ∧
      (l.a.Failed .retryable ∨ l.aaaa.Failed .retryable →
        (∃ error, a.processTask.write = a.reschedule error) ∧
          (row.attempts < maxAttempts → after.domains = db.domains))) ↔
    (l.a.Failed .permanent ∧ l.aaaa.Failed .permanent → maxAttempts ≤ row.attempts) := by
  have write := Attempt.processTask_of_unresolved looks dns unresolved
  intro after
  have written : after = writeRescheduleTask maxAttempts db task.id "DNS error: None" a.now a.draw := by
    show WorkerWrite.apply maxAttempts db task a.processTask.write = _
    rw [write]
    rfl
  have tasks : after.tasks.get task.id =
      some (rescheduleRow maxAttempts "DNS error: None" a.now a.draw row) := by
    rw [written, writeRescheduleTask_tasks, Table.get_set, if_pos rfl, stored]
    rfl
  constructor
  · rintro ⟨meaning, _⟩ permanent
    by_contra left
    have failed := (meaning permanent).1
    rw [tasks, rescheduleRow, if_neg left] at failed
    cases failed
  · intro exhausted
    refine ⟨?_, ?_⟩
    · intro permanent
      have reached := exhausted permanent
      refine ⟨?_, ?_⟩
      · rw [tasks, rescheduleRow, if_pos reached]
        rfl
      · rw [written]
        exact writeRescheduleTask_inactive db _ _ _ stored reached known
    · intro _
      refine ⟨⟨_, write⟩, ?_⟩
      intro left
      rw [written]
      exact writeRescheduleTask_domains db _ _ _ stored left

/-- A name that does not exist. -/
def nxdomainLookups : DnsLookups :=
  ⟨.error (.dnsError .enotfound), .error (.dnsError .enotfound), .error (.dnsError .enotfound)⟩

def nxdomainAttempt : Attempt := { rebindingAttempt with dns := nxdomainLookups.resolve }

/-- The first attempt at a name that does not exist ends in a retry. -/
theorem processTask_dns_failure_nxdomain :
    nxdomainLookups.a.Failed .permanent ∧ nxdomainLookups.aaaa.Failed .permanent ∧
      nxdomainAttempt.looksUp = true ∧ nxdomainAttempt.dns = nxdomainLookups.resolve ∧
      ((nxdomainAttempt.processTask.write.apply 3 claimedDb claimedTask).tasks.get 1).map Task.status =
        some .pending ∧
      ((nxdomainAttempt.processTask.write.apply 3 claimedDb claimedTask).domains.get 11).map
        Domain.isActive = some true :=
  ⟨⟨_, rfl, rfl⟩, ⟨_, rfl, rfl⟩, by decide, rfl, by decide +kernel, by decide +kernel⟩

/-- On the last attempt the two meet. -/
theorem processTask_dns_failure_last :
    ((nxdomainAttempt.processTask.write.apply 1 claimedDb claimedTask).tasks.get 1).map Task.status =
        some .failed ∧
      ((nxdomainAttempt.processTask.write.apply 1 claimedDb claimedTask).domains.get 11).map
        Domain.isActive = some false := by
  have stored : claimedDb.tasks.get claimedTask.id = some claimedTask := rfl
  have meaning := (processTask_dns_failure_iff (a := nxdomainAttempt) (l := nxdomainLookups) (by decide) rfl
    (by decide) stored (by decide)).mpr (fun _ => le_refl 1)
  exact meaning.1 ⟨⟨_, rfl, rfl⟩, ⟨_, rfl, rfl⟩⟩

end DomainProcessing
