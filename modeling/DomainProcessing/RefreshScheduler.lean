import DomainProcessing.Models
import DomainProcessing.OrderedSelection

namespace DomainProcessing

open Tables OrderedSelection

/-- The `WHERE` clause of `get_domains_needing_refresh`, with its join. -/
def needsRefresh (domains : Table Domain.id) (now : Instant) (detail : DomainDetail) : Bool :=
  (domains.get detail.domainId).any Domain.isActive && decide (detail.nextRefreshAt ≤ now)

/-- `get_domains_needing_refresh`; the order of the rows decides between equal
`next_refresh_at`. -/
def getDomainsNeedingRefresh (domains : Table Domain.id) (limit : Int) (now : Instant)
    (details : List DomainDetail) : List DomainId :=
  (select DomainDetail.nextRefreshAt (needsRefresh domains now) limit.toNat details).map
    DomainDetail.domainId

variable {domains : Table Domain.id} {limit : Int} {now : Instant} {details : List DomainDetail}
  {domainId : DomainId}

theorem mem_getDomainsNeedingRefresh
    (h : domainId ∈ getDomainsNeedingRefresh domains limit now details) :
    ∃ detail ∈ details, detail.domainId = domainId ∧ detail.nextRefreshAt ≤ now ∧
      ∃ domain, domains.get domainId = some domain ∧ domain.isActive = true := by
  obtain ⟨detail, hm, rfl⟩ := List.mem_map.mp h
  obtain ⟨hd, due⟩ := mem_select hm
  simp only [needsRefresh, Bool.and_eq_true, decide_eq_true_eq, Option.any_eq_true] at due
  exact ⟨detail, hd, rfl, due.2, due.1⟩

theorem getDomainsNeedingRefresh_nodup (h : (details.map DomainDetail.domainId).Nodup) :
    (getDomainsNeedingRefresh domains limit now details).Nodup :=
  select_sublist_nodup h

end DomainProcessing
