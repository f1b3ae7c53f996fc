import Mathlib.Init

namespace DomainProcessing

/-- The settings that the model reads, with the bounds that `AppSettings`
validates. -/
structure AppSettings where
  maxDomainsPerRequest : Nat
  defaultPageSize : Nat
  maxPageSize : Nat
  domainDetailFreshnessSeconds : Nat
  refreshIntervalSeconds : Nat
  one_le_maxDomainsPerRequest : 1 ≤ maxDomainsPerRequest
  one_le_defaultPageSize : 1 ≤ defaultPageSize
  one_le_maxPageSize : 1 ≤ maxPageSize
  defaultPageSize_le_maxPageSize : defaultPageSize ≤ maxPageSize
  one_le_domainDetailFreshnessSeconds : 1 ≤ domainDetailFreshnessSeconds
  one_le_refreshIntervalSeconds : 1 ≤ refreshIntervalSeconds

namespace AppSettings

def defaults : AppSettings :=
  ⟨1000, 100, 1000, 24 * 60 * 60, 14 * 24 * 60 * 60, by decide, by decide, by decide, by decide,
    by decide, by decide⟩

end AppSettings

end DomainProcessing
