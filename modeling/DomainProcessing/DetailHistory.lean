import DomainProcessing.DomainProbing
import DomainProcessing.VersionedCell

namespace DomainProcessing

open Tables Runs VersionedCell

abbrev DetailTable := Table DomainDetail.domainId

/-- How one call of `upsert_with_occ` ends. -/
inductive UpsertOutcome
  | updated (row : DomainDetail)
  | inserted (row : DomainDetail)
  | occConflict (expected found : Int)
  | integrityError
  | notFound
  deriving DecidableEq, Repr

/-- `WHERE domain_id = :domain_id AND version = :expected_version` -/
def versionMatches (domainId : DomainId) (expected : Int) (row : DomainDetail) : Bool :=
  decide (row.domainId = domainId) && decide (row.version = expected)

def updateIfVersion (detail : DomainDetail) (expected : Int) (details : DetailTable) : DetailTable :=
  details.update
    (fun row => if versionMatches detail.domainId expected row then
        { detail with version := expected + 1 }
      else row)
    (fun row => by
      split
      next h =>
        simp only [versionMatches, Bool.and_eq_true, decide_eq_true_eq] at h
        exact h.1.symm
      next => rfl)

/-- `upsert_with_occ`: the table it leaves and how it ends. -/
def upsertDetail (detail : DomainDetail) (expected : Int) (details : DetailTable) :
    DetailTable × UpsertOutcome :=
  let updated := updateIfVersion detail expected details
  let rowcount := details.rows.countP (versionMatches detail.domainId expected)
  if rowcount = 0 then
    match updated.get detail.domainId with
    | none =>
      match updated.insert [{ detail with version := 1 }] with
      | none => (updated, .integrityError)
      | some inserted =>
        match inserted.get detail.domainId with
        | some row => (inserted, .inserted row)
        | none => (inserted, .notFound)
    | some existing => (updated, .occConflict expected existing.version)
  else
    match updated.get detail.domainId with
    | some row => (updated, .updated row)
    | none => (updated, .notFound)

def clearDomainDetail (domainId : DomainId) (details : DetailTable) : DetailTable :=
  details.delete fun row => decide (row.domainId = domainId)

def clearDomainDetailsBatch (domainIds : List DomainId) (details : DetailTable) : DetailTable :=
  details.delete fun row => decide (row.domainId ∈ domainIds)

/-- The calls that writers make, each one atomic. -/
inductive DetailOp
  | upsertWithOcc (detail : DomainDetail) (expected : Int)
  | clearDomainDetail (domainId : DomainId)
  | clearDomainDetailsBatch (domainIds : List DomainId)
  deriving DecidableEq, Repr

def detailNext (details : DetailTable) : DetailOp → Option DetailTable
  | .upsertWithOcc detail expected => some (upsertDetail detail expected details).1
  | .clearDomainDetail domainId => some (clearDomainDetail domainId details)
  | .clearDomainDetailsBatch domainIds => some (clearDomainDetailsBatch domainIds details)

section Upsert

variable {detail : DomainDetail} {expected : Int} {details : DetailTable}

theorem versionMatches_iff {domainId : DomainId} {row : DomainDetail} :
    versionMatches domainId expected row ↔ row.domainId = domainId ∧ row.version = expected := by
  simp [versionMatches]

theorem rowcount_eq_zero_iff :
    details.rows.countP (versionMatches detail.domainId expected) = 0 ↔
      ∀ row, details.get detail.domainId = some row → row.version ≠ expected := by
  rw [List.countP_eq_zero]
  constructor
  · intro h row hg hv
    obtain ⟨hm, hk⟩ := Table.get_eq_some_iff.mp hg
    exact h row hm (versionMatches_iff.mpr ⟨hk, hv⟩)
  · intro h row hm hmatch
    obtain ⟨hk, hv⟩ := versionMatches_iff.mp hmatch
    exact h row (Table.get_eq_some_iff.mpr ⟨hm, hk⟩) hv

theorem updateIfVersion_unmatched (h : ∀ row, details.get detail.domainId = some row →
    row.version ≠ expected) : updateIfVersion detail expected details = details := by
  apply Table.ext
  have same : ∀ row ∈ details.rows, (if versionMatches detail.domainId expected row then
      { detail with version := expected + 1 } else row) = id row := by
    intro row hm
    apply if_neg
    intro hmatch
    obtain ⟨hk, hv⟩ := versionMatches_iff.mp hmatch
    exact h row (Table.get_eq_some_iff.mpr ⟨hm, hk⟩) hv
  exact (List.map_congr_left same).trans (List.map_id _)

theorem updateIfVersion_get (domainId : DomainId) :
    (updateIfVersion detail expected details).get domainId =
      (details.get domainId).map fun row =>
        if versionMatches detail.domainId expected row then { detail with version := expected + 1 }
        else row :=
  Table.get_update _ _ _ _

/-- All that a call of `upsert_with_occ` can do. -/
inductive UpsertEffect (detail : DomainDetail) (expected : Int) (details : DetailTable) :
    DetailTable → UpsertOutcome → Prop
  | updated {after current} : details.get detail.domainId = some current →
      current.version = expected →
      after.get detail.domainId = some { detail with version := expected + 1 } →
      (∀ other, other ≠ detail.domainId → after.get other = details.get other) →
      UpsertEffect detail expected details after (.updated { detail with version := expected + 1 })
  | inserted {after} : details.get detail.domainId = none →
      after.get detail.domainId = some { detail with version := 1 } →
      (∀ other, other ≠ detail.domainId → after.get other = details.get other) →
      UpsertEffect detail expected details after (.inserted { detail with version := 1 })
  | occConflict {current} : details.get detail.domainId = some current →
      current.version ≠ expected →
      UpsertEffect detail expected details details (.occConflict expected current.version)

theorem upsertDetail_effect : UpsertEffect detail expected details
    (upsertDetail detail expected details).1 (upsertDetail detail expected details).2 := by
  unfold upsertDetail
  dsimp only
  split
  next h =>
    have unmatched := rowcount_eq_zero_iff.mp h
    rw [updateIfVersion_unmatched unmatched]
    cases hg : details.get detail.domainId with
    | some existing => exact .occConflict hg (unmatched existing hg)
    | none =>
      have absent := Table.get_eq_none_iff.mp hg
      have distinct : ((details.rows ++ [{ detail with version := 1 }]).map
          DomainDetail.domainId).Nodup := by
        rw [List.map_append]
        refine details.nodup.append (List.nodup_singleton _) ?_
        intro k hk hn
        exact absent (List.mem_singleton.mp hn ▸ hk)
      have hins : details.insert [{ detail with version := 1 }] =
          some ⟨details.rows ++ [{ detail with version := 1 }], distinct⟩ := dif_pos distinct
      have found : (⟨details.rows ++ [{ detail with version := 1 }], distinct⟩ : DetailTable).get
          detail.domainId = some { detail with version := 1 } := by
        rw [Table.get_insert hins, hg, Option.none_or]
        simp
      simp only [hins, found]
      refine .inserted hg found ?_
      intro other hne
      rw [Table.get_insert hins]
      simp [Ne.symm hne]
  next h =>
    obtain ⟨row, hg, hv⟩ : ∃ row, details.get detail.domainId = some row ∧ row.version = expected := by
      by_contra none
      refine h (rowcount_eq_zero_iff.mpr fun row hg hv => none ⟨row, hg, hv⟩)
    have hk := (Table.get_eq_some_iff.mp hg).2
    have found : (updateIfVersion detail expected details).get detail.domainId =
        some { detail with version := expected + 1 } := by
      rw [updateIfVersion_get, hg, Option.map_some, if_pos (versionMatches_iff.mpr ⟨hk, hv⟩)]
    simp only [found]
    refine .updated hg hv found ?_
    intro other hne
    rw [updateIfVersion_get]
    cases ho : details.get other with
    | none => rfl
    | some r =>
      have hother := (Table.get_eq_some_iff.mp ho).2
      rw [Option.map_some, if_neg]
      intro hmatch
      exact hne (hother.symm.trans (versionMatches_iff.mp hmatch).1)

end Upsert

theorem upsertDetail_get_other {detail : DomainDetail} {expected : Int} {details : DetailTable}
    {domainId : DomainId} (other : domainId ≠ detail.domainId) :
    (upsertDetail detail expected details).1.get domainId = details.get domainId := by
  have effect : UpsertEffect detail expected details _ _ := upsertDetail_effect
  generalize upsertDetail detail expected details = result at effect
  obtain ⟨after, outcome⟩ := result
  cases effect with
  | updated _ _ _ frame => exact frame domainId other
  | inserted _ _ frame => exact frame domainId other
  | occConflict => rfl

theorem upsertDetail_conflict {detail : DomainDetail} {expected v found : Int}
    {details after : DetailTable}
    (h : upsertDetail detail expected details = (after, .occConflict v found)) : after = details := by
  have effect : UpsertEffect detail expected details _ _ := upsertDetail_effect
  rw [h] at effect
  cases effect
  rfl

/-- A call updates exactly when it finds the version it expects. -/
theorem upsertDetail_updated_iff {detail : DomainDetail} {expected : Int} {details : DetailTable} :
    (∃ row, (upsertDetail detail expected details).2 = .updated row) ↔
      (details.get detail.domainId).map DomainDetail.version = some expected := by
  have effect : UpsertEffect detail expected details _ _ := upsertDetail_effect
  generalize upsertDetail detail expected details = result at effect
  obtain ⟨after, outcome⟩ := result
  cases effect with
  | updated hg hv => simp [hg, hv]
  | inserted hg => simp [hg]
  | occConflict hg hv => simp [hg, hv]

def detailVersioning : Versioning DomainDetail :=
  ⟨DomainDetail.version, fun detail v => { detail with version := v }, fun _ _ => rfl⟩

theorem put_detail (detail : DomainDetail) (expected : Int) :
    put detailVersioning detail expected = upsertWithOcc detail expected := by
  funext cell
  cases cell <;> rfl

/-- What a call means for the row of one domain. -/
def DetailOp.onDomain (domainId : DomainId) : DetailOp → CellOp DomainDetail
  | .upsertWithOcc detail expected =>
    if detail.domainId = domainId then .put detail expected else .idle
  | .clearDomainDetail cleared => if cleared = domainId then .clear else .idle
  | .clearDomainDetailsBatch cleared => if domainId ∈ cleared then .clear else .idle

/-- The table's upsert is the upsert of the row. -/
theorem upsertDetail_get {detail : DomainDetail} {expected : Int} {details : DetailTable} :
    (upsertDetail detail expected details).1.get detail.domainId =
      (upsertWithOcc detail expected (details.get detail.domainId)).or
        (details.get detail.domainId) := by
  have effect : UpsertEffect detail expected details _ _ := upsertDetail_effect
  generalize upsertDetail detail expected details = result at effect
  obtain ⟨after, outcome⟩ := result
  cases effect with
  | updated hg hv now _ => simp [hg, upsertWithOcc, hv, now]
  | inserted hg now _ => simp [hg, upsertWithOcc, now]
  | occConflict hg hv => simp [hg, upsertWithOcc, hv]

theorem detailNext_get {details after : DetailTable} {op : DetailOp} (domainId : DomainId)
    (h : detailNext details op = some after) :
    next detailVersioning (details.get domainId) (op.onDomain domainId) = some (after.get domainId) := by
  cases op with
  | upsertWithOcc detail expected =>
    cases Option.some.inj h
    by_cases hd : detail.domainId = domainId
    · subst hd
      simp only [DetailOp.onDomain, if_pos, next, put_detail, upsertDetail_get]
    · simp only [DetailOp.onDomain, if_neg hd, next, upsertDetail_get_other (Ne.symm hd)]
  | clearDomainDetail cleared =>
    cases Option.some.inj h
    rw [clearDomainDetail, Table.get_delete details (fun k => decide (k = cleared))]
    by_cases hd : cleared = domainId
    · simp [DetailOp.onDomain, hd, next]
    · simp [DetailOp.onDomain, hd, Ne.symm hd, next]
  | clearDomainDetailsBatch cleared =>
    cases Option.some.inj h
    rw [clearDomainDetailsBatch, Table.get_delete details (fun k => decide (k ∈ cleared))]
    by_cases hd : domainId ∈ cleared <;> simp [DetailOp.onDomain, hd, next]

def UpsertOutcome.succeeded : UpsertOutcome → Bool
  | .updated _ | .inserted _ => true
  | .occConflict _ _ | .integrityError | .notFound => false

def DetailOp.upserts (domainId : DomainId) (details : DetailTable) : DetailOp → Bool
  | .upsertWithOcc detail expected =>
    decide (detail.domainId = domainId) && (upsertDetail detail expected details).2.succeeded
  | .clearDomainDetail _ | .clearDomainDetailsBatch _ => false

def DetailOp.clears (domainId : DomainId) : DetailOp → Bool
  | .upsertWithOcc _ _ => false
  | .clearDomainDetail cleared => decide (cleared = domainId)
  | .clearDomainDetailsBatch cleared => decide (domainId ∈ cleared)

/-- The successful upserts on a domain since its last clear, the latest call first. -/
def upsertsSinceClear (domainId : DomainId) : List (DetailTable × DetailOp) → Nat
  | [] => 0
  | (details, op) :: earlier =>
    if op.clears domainId then 0
    else upsertsSinceClear domainId earlier + if op.upserts domainId details then 1 else 0

/-- The history of one domain's row in a trace. -/
def cellTrace (domainId : DomainId) (trace : List (DetailTable × DetailOp)) :
    List (Option DomainDetail × CellOp DomainDetail) :=
  trace.map fun p => (p.1.get domainId, p.2.onDomain domainId)

theorem writes_onDomain (domainId : DomainId) (details : DetailTable) (op : DetailOp) :
    writes detailVersioning (details.get domainId) (op.onDomain domainId) =
      op.upserts domainId details := by
  cases op with
  | upsertWithOcc detail expected =>
    by_cases hd : detail.domainId = domainId
    · subst hd
      simp only [DetailOp.onDomain, if_pos, writes, DetailOp.upserts, decide_true, Bool.true_and,
        put_detail]
      have effect : UpsertEffect detail expected details _ _ := upsertDetail_effect
      generalize upsertDetail detail expected details = result at effect
      obtain ⟨after, outcome⟩ := result
      cases effect with
      | updated hg hv => simp [hg, upsertWithOcc, hv, UpsertOutcome.succeeded]
      | inserted hg => simp [hg, upsertWithOcc, UpsertOutcome.succeeded]
      | occConflict hg hv => simp [hg, upsertWithOcc, hv, UpsertOutcome.succeeded]
    · simp [DetailOp.onDomain, hd, writes, DetailOp.upserts]
  | clearDomainDetail cleared =>
    by_cases hd : cleared = domainId <;> simp [DetailOp.onDomain, hd, writes, DetailOp.upserts]
  | clearDomainDetailsBatch cleared =>
    by_cases hd : domainId ∈ cleared <;> simp [DetailOp.onDomain, hd, writes, DetailOp.upserts]

theorem onDomain_clear_iff {domainId : DomainId} {op : DetailOp} :
    op.onDomain domainId = .clear ↔ op.clears domainId := by
  cases op with
  | upsertWithOcc detail expected =>
    by_cases hd : detail.domainId = domainId <;> simp [DetailOp.onDomain, DetailOp.clears, hd]
  | clearDomainDetail cleared =>
    by_cases hd : cleared = domainId <;> simp [DetailOp.onDomain, DetailOp.clears, hd]
  | clearDomainDetailsBatch cleared =>
    by_cases hd : domainId ∈ cleared <;> simp [DetailOp.onDomain, DetailOp.clears, hd]

theorem upsertsSinceClear_eq (domainId : DomainId) (trace : List (DetailTable × DetailOp)) :
    upsertsSinceClear domainId trace =
      writesSinceClear detailVersioning (cellTrace domainId trace) := by
  induction trace with
  | nil => rfl
  | cons p earlier ih =>
    obtain ⟨details, op⟩ := p
    have counted := writes_onDomain domainId details op
    rw [upsertsSinceClear, cellTrace, List.map_cons, ← cellTrace, ih, ← counted]
    by_cases hc : op.clears domainId
    · rw [if_pos hc, onDomain_clear_iff.mpr hc, writesSinceClear]
    · have other : op.onDomain domainId ≠ .clear := fun h => hc (onDomain_clear_iff.mp h)
      rw [if_neg hc, writesSinceClear]
      exact fun h => other h

theorem cellTrace_run {trace : List (DetailTable × DetailOp)} {start details : DetailTable}
    (domainId : DomainId) (run : Run detailNext start trace details) :
    Run (next detailVersioning) (start.get domainId) (cellTrace domainId trace)
      (details.get domainId) :=
  run.map (fun details => details.get domainId) (fun _ op => op.onDomain domainId)
    fun h => detailNext_get domainId h

/-- Two updates that expect one version are separated by a clear. -/
theorem clear_between {trace later mid earlier : List (DetailTable × DetailOp)}
    {details s₁ s₂ : DetailTable} {d₁ d₂ row₁ row₂ : DomainDetail} {expected : Int}
    (run : Run detailNext .empty trace details)
    (parts : trace = later ++ (s₂, .upsertWithOcc d₂ expected) :: (mid ++
      (s₁, .upsertWithOcc d₁ expected) :: earlier))
    (same : d₁.domainId = d₂.domainId)
    (first : (upsertDetail d₁ expected s₁).2 = .updated row₁)
    (second : (upsertDetail d₂ expected s₂).2 = .updated row₂) :
    ∃ p ∈ mid, p.2.clears d₁.domainId := by
  subst parts
  obtain ⟨_, before, _⟩ := run.of_append
  cases before with
  | step before _ =>
    obtain ⟨t₁, reached, between⟩ := before.of_append
    cases reached with
    | step _ h =>
      have found₁ := upsertDetail_updated_iff.mp ⟨row₁, first⟩
      have found₂ := upsertDetail_updated_iff.mp ⟨row₂, second⟩
      rw [← same] at found₂
      have put₁ := detailNext_get d₁.domainId h
      simp only [DetailOp.onDomain, if_pos] at put₁
      obtain ⟨p, hp, deleted⟩ :=
        deleted_between put₁ found₁ (cellTrace_run d₁.domainId between) found₂
      obtain ⟨q, hq, rfl⟩ := List.mem_map.mp hp
      refine ⟨q, hq, onDomain_clear_iff.mp ?_⟩
      unfold deletes at deleted
      split at deleted
      next he => exact he
      next => cases deleted
      next => cases deleted

theorem linear_version_history {trace : List (DetailTable × DetailOp)} {details : DetailTable}
    (run : Run detailNext .empty trace details) :
    (∀ domainId, (details.get domainId).map DomainDetail.version =
      if upsertsSinceClear domainId trace = 0 then none
      else some (upsertsSinceClear domainId trace : Int)) ∧
    (∀ later mid earlier s₁ s₂ d₁ d₂ row₁ row₂ expected,
      trace = later ++ (s₂, .upsertWithOcc d₂ expected) :: (mid ++
        (s₁, .upsertWithOcc d₁ expected) :: earlier) →
      d₁.domainId = d₂.domainId →
      (upsertDetail d₁ expected s₁).2 = .updated row₁ →
      (upsertDetail d₂ expected s₂).2 = .updated row₂ →
      ∃ p ∈ mid, p.2.clears d₁.domainId) ∧
    ∀ s detail expected, (s, DetailOp.upsertWithOcc detail expected) ∈ trace →
      ((∃ row, (upsertDetail detail expected s).2 = .updated row) ↔
        (s.get detail.domainId).map DomainDetail.version = some expected) ∧
      (∀ after v found, upsertDetail detail expected s = (after, .occConflict v found) →
        after = s) ∧
      ∀ domainId, domainId ≠ detail.domainId →
        (upsertDetail detail expected s).1.get domainId = s.get domainId := by
  refine ⟨?_, ?_, ?_⟩
  · intro domainId
    rw [upsertsSinceClear_eq]
    exact version_eq_writes (cellTrace_run domainId run)
  · intro later mid earlier s₁ s₂ d₁ d₂ row₁ row₂ expected parts same first second
    exact clear_between run parts same first second
  · intro s detail expected _
    exact ⟨upsertDetail_updated_iff, fun _ _ _ h => upsertDetail_conflict h,
      fun _ h => upsertDetail_get_other h⟩

def plainDetail (domainId : DomainId) : DomainDetail :=
  ⟨domainId, [], [], 200, none, 5, [], 1, 2, 1⟩

/-- An insertion, an update, a stale update, a clear and an insertion again. -/
def historyOps : List DetailOp :=
  [.upsertWithOcc (plainDetail 1) 0, .upsertWithOcc (plainDetail 1) 1, .upsertWithOcc (plainDetail 1) 1,
    .clearDomainDetail 1, .upsertWithOcc (plainDetail 1) 1, .upsertWithOcc (plainDetail 1) 1]

theorem linear_version_history_cleared : ∃ details, exec detailNext .empty historyOps = some details ∧
    (details.get 1).map DomainDetail.version = some 2 := by
  obtain ⟨details, h⟩ := Option.isSome_iff_exists.mp
    (show (exec detailNext .empty historyOps).isSome from by decide)
  refine ⟨details, h, ?_⟩
  have counted := (linear_version_history (exec_run h)).1 1
  have two : upsertsSinceClear 1 (steps detailNext .empty historyOps) = 2 := by decide
  simpa [two] using counted

end DomainProcessing
