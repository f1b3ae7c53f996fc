import DomainProcessing.SubmissionRaces

namespace DomainProcessing

open Tables RowLocks Runs

section Tables

variable {ι κ ρ : Type*} [DecidableEq ι] [DecidableEq κ] {key : ρ → κ} {table : Table key}
variable {s : Store ι κ ρ} {i : ι} {new : List ρ}

theorem find?_of_nodup (nodup : (new.map key).Nodup) {row : ρ} (h : row ∈ new) :
    (new.find? fun row' => decide (key row' = key row)) = some row :=
  Table.get_eq_some_iff (t := ⟨new, nodup⟩).mpr ⟨h, rfl⟩

/-- What a transaction commits that holds new rows and no others. -/
theorem insert_of_held (committed : s.committed = table.get)
    (held : ∀ k row, s.locks k = some (i, row) ↔ ∃ x ∈ new, key x = k ∧ row = some x)
    (unused : ∀ x ∈ new, s.committed (key x) = none) (nodup : (new.map key).Nodup) :
    ∃ table', table.insert new = some table' ∧ s.view i = table'.get := by
  obtain ⟨table', inserted⟩ := Table.exists_insert nodup (committed ▸ unused)
  refine ⟨table', inserted, ?_⟩
  funext k
  rw [Table.get_insert inserted]
  by_cases hk : ∃ x ∈ new, key x = k
  · obtain ⟨x, hx, rfl⟩ := hk
    rw [Store.view_of_held ((held (key x) (some x)).mpr ⟨x, hx, rfl, rfl⟩), ← committed,
      unused x hx, find?_of_nodup nodup hx]
    rfl
  · have absent : (new.find? fun x => decide (key x = k)) = none := by
      refine List.find?_eq_none.mpr fun x hx same => hk ⟨x, hx, by simpa using same⟩
    rw [absent, Option.or_none, ← committed]
    refine Store.view_of_unheld fun row hl => ?_
    obtain ⟨x, hx, same, _⟩ := (held k row).mp hl
    exact hk ⟨x, hx, same⟩

end Tables

section Domains

variable {ι : Type*} {sub : Submission} {domains : Store ι String Domain} {r : ι}
variable {known : List Domain} {table : Table Domain.id} {name : String} {d : Domain}

/-- The table with the rows that `create_batch` adds. -/
def withMissing (sub : Submission) (rows : List Domain) : List Domain :=
  rows ++ (sub.allDomainStrs.filter fun name => (findDomain rows name).isNone).map sub.domainRow

theorem findDomain_withMissing (rows : List Domain) (name : String) :
    findDomain (withMissing sub rows) name =
      if name ∈ sub.allDomainStrs ∧ findDomain rows name = none then some (sub.domainRow name)
      else findDomain rows name := by
  have split : findDomain (withMissing sub rows) name = (findDomain rows name).or
      (findDomain ((sub.allDomainStrs.filter fun name => (findDomain rows name).isNone).map
        sub.domainRow) name) := List.find?_append
  rw [split]
  cases hf : findDomain rows name with
  | some d => simp
  | none =>
    by_cases hn : name ∈ sub.allDomainStrs
    · have missing : name ∈ sub.allDomainStrs.filter fun name => (findDomain rows name).isNone :=
        List.mem_filter.mpr ⟨hn, by rw [hf]; rfl⟩
      rw [findDomain_created sub missing]
      simp [hn]
    · simp only [hn, false_and, if_false, Option.none_or]
      cases hd : findDomain ((sub.allDomainStrs.filter fun name =>
        (findDomain rows name).isNone).map sub.domainRow) name with
      | none => rfl
      | some d =>
        obtain ⟨n, hm, rfl⟩ := List.mem_map.mp (List.mem_of_find?_eq_some hd)
        have same : n = name := findDomain_name hd
        exact absurd (same ▸ (List.mem_filter.mp hm).1) hn

theorem createMissingDomains_fresh
    (fresh : ∀ d ∈ table.rows, ∀ name ∈ sub.allDomainStrs, d.id ≠ sub.domainUuid name)
    (injective : ∀ name ∈ sub.allDomainStrs, ∀ name' ∈ sub.allDomainStrs,
      sub.domainUuid name = sub.domainUuid name' → name = name') :
    ∃ table', createMissingDomains sub table = some table' ∧
      table'.rows = withMissing sub table.rows := by
  obtain ⟨table', inserted⟩ : ∃ table', createMissingDomains sub table = some table' := by
    apply Table.exists_insert
    · rw [List.map_map]
      refine List.Nodup.map_on ?_ ((List.nodup_dedup _).filter _)
      intro name hn name' hn' same
      exact injective name (List.mem_filter.mp hn).1 name' (List.mem_filter.mp hn').1 same
    · intro row hrow
      obtain ⟨name, hn, rfl⟩ := List.mem_map.mp hrow
      rw [Table.get_eq_none_iff]
      intro used
      obtain ⟨d, hd, same⟩ := List.mem_map.mp used
      exact fresh d hd name (List.mem_filter.mp hn).1 same
  exact ⟨table', inserted, Table.insert_rows inserted⟩

section Locked

variable (same : domains.committed = findDomain table.rows) (locks : DomainLocks sub domains r known true)

include same locks

/-- A request that holds its locks knows the domains that the serial one finds. -/
theorem known_withMissing (hn : name ∈ sub.allDomainStrs) :
    ∃ dk d, findDomain known name = some dk ∧ findDomain (withMissing sub table.rows) name = some d ∧
      d.id = dk.id ∧ (name ∈ sub.finalValidDomains.map NormalizedDomain.value →
        dk.isActive = d.isActive ∧ (dk.isActive = false → d = dk)) := by
  obtain ⟨dk, hk, ⟨absent, rfl⟩ | ⟨d, hd, hid, active⟩⟩ := locks.rows name hn
  · rw [same] at absent
    refine ⟨_, sub.domainRow name, hk, ?_, rfl, fun _ => ⟨rfl, fun _ => rfl⟩⟩
    rw [findDomain_withMissing, if_pos ⟨hn, absent⟩]
  · have stored : findDomain (withMissing sub table.rows) name = some d := by
      rw [same] at hd
      rw [findDomain_withMissing, if_neg (by simp [hd]), hd]
    refine ⟨dk, d, hk, stored, hid, fun hv => ?_⟩
    cases ha : dk.isActive with
    | true => exact ⟨(active ha).symm, fun h => by cases h⟩
    | false =>
      have unchanged := locks.unchanged rfl name (mem_reactivatedNames.mpr ⟨hv, dk, hk, ha⟩)
      rw [hk, hd] at unchanged
      cases Option.some.inj unchanged
      exact ⟨ha.symm, fun _ => rfl⟩

theorem reactivatedIds_withMissing :
    reactivatedIds sub known = reactivatedIds sub (withMissing sub table.rows) := by
  apply List.filterMap_congr
  intro v hv
  obtain ⟨dk, d, hk, hd, _, valid⟩ := known_withMissing same locks (mem_allDomainStrs_valid hv)
  obtain ⟨active, equal⟩ := valid (List.mem_map_of_mem hv)
  rw [hk, hd]
  cases ha : dk.isActive with
  | false => rw [equal ha]
  | true =>
    have kept : d.isActive = true := active.symm.trans ha
    have skip : ∀ {d : Domain}, d.isActive = true →
        (Option.filter (fun row : Domain => !row.isActive) (some d)).map Domain.id = none := by
      intro d h
      simp [Option.filter_some, h]
    rw [skip ha, skip kept]

theorem tasks_withMissing (db : Db) (rows : db.domains.rows = withMissing sub table.rows) :
    validTasks sub known = validTasks sub (reactivate sub db).domains.rows ∧
      invalidTasks sub known = invalidTasks sub (reactivate sub db).domains.rows := by
  apply tasks_congr
  intro name hn
  obtain ⟨dk, d, hk, hd, hid, _⟩ := known_withMissing same locks hn
  rw [findDomain_reactivate, rows, hk, hd, Option.map_some, Option.map_some, hid]

/-- The rows that the serial transaction reactivates. -/
theorem mem_reactivatedIds_iff {table' : Table Domain.id}
    (rows : table'.rows = withMissing sub table.rows) (hd : findDomain table'.rows name = some d) :
    d.id ∈ reactivatedIds sub table'.rows ↔ name ∈ reactivatedNames sub known := by
  rw [mem_reactivatedNames]
  constructor
  · intro h
    obtain ⟨v, hv, he⟩ := List.mem_filterMap.mp h
    obtain ⟨d', hf, hid⟩ := Option.map_eq_some_iff.mp he
    obtain ⟨hd', inactive⟩ := Option.filter_eq_some_iff.mp hf
    have equal : d' = d := Table.eq_of_key (List.mem_of_find?_eq_some hd')
      (List.mem_of_find?_eq_some hd) hid
    subst equal
    have value : v.value = name := (findDomain_name hd').symm.trans (findDomain_name hd)
    subst value
    obtain ⟨dk, d, hk, hs, _, valid⟩ := known_withMissing same locks (mem_allDomainStrs_valid hv)
    rw [rows, hs] at hd
    cases Option.some.inj hd
    obtain ⟨active, _⟩ := valid (List.mem_map_of_mem hv)
    refine ⟨List.mem_map_of_mem hv, dk, hk, ?_⟩
    rw [active]
    simpa using inactive
  · rintro ⟨hv, dk, hk, inactive⟩
    obtain ⟨v, hm, rfl⟩ := List.mem_map.mp hv
    obtain ⟨dk', d', hk', hs, _, valid⟩ := known_withMissing same locks (mem_allDomainStrs_valid hm)
    rw [hk] at hk'
    cases Option.some.inj hk'
    have equal := (valid hv).2 inactive
    subst equal
    rw [rows, hs] at hd
    cases Option.some.inj hd
    refine List.mem_filterMap.mpr ⟨v, hm, ?_⟩
    rw [rows, hs]
    simp [inactive]

/-- What the request commits in `domain` is what the serial transaction leaves. -/
theorem view_domains [DecidableEq ι] (db : Db) (rows : db.domains.rows = withMissing sub table.rows) :
    domains.view r = findDomain (reactivate sub db).domains.rows := by
  funext name
  have mapped : findDomain (reactivate sub db).domains.rows name =
      (findDomain db.domains.rows name).map fun d =>
        if d.id ∈ reactivatedIds sub db.domains.rows then reactivation sub.now d else d :=
    findDomain_map fun d => by split <;> rfl
  rw [mapped]
  by_cases created : name ∈ sub.allDomainStrs ∧ domains.committed name = none
  · obtain ⟨hn, absent⟩ := created
    have seen := Store.view_of_held ((locks.locks name _).mpr (Or.inl ⟨hn, absent, rfl⟩))
    rw [same] at absent
    have stored : findDomain db.domains.rows name = some (sub.domainRow name) := by
      rw [rows, findDomain_withMissing, if_pos ⟨hn, absent⟩]
    have kept : (sub.domainRow name).id ∉ reactivatedIds sub db.domains.rows := by
      rw [mem_reactivatedIds_iff same locks rows stored]
      intro listed
      have equal := locks.unchanged rfl name listed
      obtain ⟨_, d, hd, _⟩ := mem_reactivatedNames.mp listed
      rw [same, absent, hd] at equal
      cases equal
    rw [seen, stored, Option.map_some, if_neg kept]
  · have stored : findDomain db.domains.rows name = domains.committed name := by
      rw [same] at created ⊢
      rw [rows, findDomain_withMissing, if_neg created]
    rw [stored]
    by_cases listed : name ∈ reactivatedNames sub known
    · rw [Store.view_of_held ((locks.locks name _).mpr (Or.inr ⟨rfl, listed, rfl⟩))]
      cases hd : domains.committed name with
      | none => rfl
      | some d =>
        rw [hd] at stored
        have changed := (mem_reactivatedIds_iff same locks rows stored).mpr listed
        rw [Option.map_some, Option.map_some, if_pos changed]
    · have unheld : domains.view r name = domains.committed name := by
        refine Store.view_of_unheld fun row hl => ?_
        rcases (locks.locks name row).mp hl with ⟨hn, absent, _⟩ | ⟨_, hl, _⟩
        · exact created ⟨hn, absent⟩
        · exact listed hl
      rw [unheld]
      cases hd : domains.committed name with
      | none => rfl
      | some d =>
        rw [hd] at stored
        have kept : d.id ∉ reactivatedIds sub db.domains.rows := fun h =>
          listed ((mem_reactivatedIds_iff same locks rows stored).mp h)
        rw [Option.map_some, if_neg kept]

end Locked

end Domains

section Built

variable {sub : Submission} {domains : List Domain} {valid invalid : List Task}

theorem ids_of_mapM {α : Type*} {f : α × Nat → Option Task} {xs : List α} {n : Nat} {ys : List Task}
    (keep : ∀ x i t, f (x, i) = some t → t.id = sub.taskUuid i) (h : (xs.zipIdx n).mapM f = some ys) :
    ys.map Task.id = (List.range' n xs.length).map sub.taskUuid := by
  rw [← List.zipIdx_map_snd, List.map_map]
  exact map_of_mapM (fun p t ht => keep p.1 p.2 t ht) h

/-- The tasks take the identifiers in the order in which they are drawn. -/
theorem taskIds_of_built (hv : validTasks sub domains = some valid)
    (hi : invalidTasks sub domains = some invalid) :
    (valid ++ invalid).map Task.id =
      (List.range' 0 (sub.finalValidDomains.length + sub.invalidDomains.length)).map sub.taskUuid := by
  have first := ids_of_mapM (fun d i t ht => by
    obtain ⟨row, _, rfl⟩ := Option.map_eq_some_iff.mp ht
    rfl) hv
  have second := ids_of_mapM (fun d i t ht => by
    obtain ⟨row, _, rfl⟩ := Option.map_eq_some_iff.mp ht
    rfl) hi
  rw [List.map_append, first, second, ← List.map_append, ← List.range'_append_1, Nat.zero_add]

theorem taskId_of_built (hv : validTasks sub domains = some valid)
    (hi : invalidTasks sub domains = some invalid) {t : Task} (ht : t ∈ valid ++ invalid) :
    ∃ n, t.id = sub.taskUuid n := by
  have listed : t.id ∈ (valid ++ invalid).map Task.id := List.mem_map_of_mem ht
  rw [taskIds_of_built hv hi] at listed
  obtain ⟨n, _, same⟩ := List.mem_map.mp listed
  exact ⟨n, same.symm⟩

theorem nodup_taskIds (injective : Function.Injective sub.taskUuid)
    (hv : validTasks sub domains = some valid) (hi : invalidTasks sub domains = some invalid) :
    ((valid ++ invalid).map Task.id).Nodup := by
  rw [taskIds_of_built hv hi]
  exact List.Nodup.map injective List.nodup_range'

end Built

/-- The table after requests that ran one after the other, the latest first,
each of them accepted. -/
inductive Serial {ι : Type*} (sub : ι → Submission) (db : Db) : List ι → Db → Prop
  | start : Serial sub db [] db
  | next {order before after r} : Serial sub db order before →
      createJob (sub r) before = (after, .accepted (sub r).jobUuid) → Serial sub db (r :: order) after

/-- The committed rows of a state are those of `db`. -/
structure TablesAre {ι : Type*} (s : IngestState ι) (db : Db) : Prop where
  jobs : s.jobs.committed = db.jobs.get
  records : s.records.committed = db.idempotencyRecords.get
  domains : s.domains.committed = findDomain db.domains.rows
  details : s.details.committed = db.details.get
  tasks : s.tasks.committed = db.tasks.get

section Origins

variable {ι : Type*} {sub : ι → Submission} {db after : Db} {order : List ι}

theorem serial_domains (h : Serial sub db order after) {d : Domain} (hd : d ∈ after.domains.rows) :
    (∃ old ∈ db.domains.rows, old.id = d.id) ∨
      ∃ r ∈ order, ∃ name ∈ (sub r).allDomainStrs, (sub r).domainUuid name = d.id := by
  induction h generalizing d with
  | start => exact Or.inl ⟨d, hd, rfl⟩
  | @next order before after r _ accepted ih =>
    obtain ⟨⟨domains, created, kept⟩, _⟩ := accepted_spec accepted
    obtain ⟨row, hrow, same⟩ := kept d hd
    rw [← same]
    rw [Table.insert_rows created] at hrow
    rcases List.mem_append.mp hrow with old | new
    · rcases ih old with stored | ⟨r', hr', drawn⟩
      · exact Or.inl stored
      · exact Or.inr ⟨r', List.mem_cons_of_mem _ hr', drawn⟩
    · obtain ⟨name, hn, rfl⟩ := List.mem_map.mp new
      exact Or.inr ⟨r, List.mem_cons_self, name, (List.mem_filter.mp hn).1, rfl⟩

theorem serial_tasks (h : Serial sub db order after) {t : Task} (ht : t ∈ after.tasks.rows) :
    t ∈ db.tasks.rows ∨ ∃ r ∈ order, ∃ n, t.id = (sub r).taskUuid n := by
  induction h with
  | start => exact Or.inl ht
  | @next order before after r _ accepted ih =>
    obtain ⟨_, _, valid, invalid, hv, hi, rows⟩ := accepted_spec accepted
    rw [rows] at ht
    rcases List.mem_append.mp ht with old | new
    · rcases ih old with old | ⟨r', hr', drawn⟩
      · exact Or.inl old
      · exact Or.inr ⟨r', List.mem_cons_of_mem _ hr', drawn⟩
    · exact Or.inr ⟨r, List.mem_cons_self, taskId_of_built hv hi new⟩

end Origins

section Commit

variable {ι : Type*} [DecidableEq ι] {sub : ι → Submission} {db before : Db} {order : List ι}
variable {s t : IngestState ι} {r : ι} {action : IngestAction}

theorem opens_of_held (inv : IngestInv sub (ingestInit db) s) (are : TablesAre s before)
    (job : HoldsJob s (sub r) r) (record : HoldsRecord s (sub r) r) :
    ∃ opened, openJob (sub r) before = some opened ∧ s.jobs.view r = opened.jobs.get ∧
      s.records.view r = opened.idempotencyRecords.get := by
  have heldJob : ∀ k row, s.jobs.locks k = some (r, row) ↔
      ∃ x ∈ [(sub r).jobRow], x.id = k ∧ row = some x := by
    intro k row
    rw [job]
    simp [Submission.jobRow, eq_comm]
  have unusedJob : ∀ x ∈ [(sub r).jobRow], s.jobs.committed x.id = none := by
    intro x hx
    exact inv.jobsOnly x.id r _ ((heldJob _ _).mpr ⟨x, hx, rfl, rfl⟩)
  obtain ⟨jobs, hj, viewJobs⟩ := insert_of_held are.jobs heldJob unusedJob (List.nodup_singleton _)
  cases hs : (sub r).scope with
  | none =>
    have quiet : s.records.Quiet r := by
      intro scope row hl
      have keyed := ((record scope row).mp hl).1
      rw [hs] at keyed
      cases keyed
    refine ⟨{ before with jobs := jobs }, ?_, viewJobs, ?_⟩
    · simp only [openJob, hs]
      exact Option.bind_eq_some_iff.mpr ⟨jobs, hj, rfl⟩
    · rw [← are.records]
      exact quiet.commit_committed
  | some scope =>
    have heldRecord : ∀ k row, s.records.locks k = some (r, row) ↔
        ∃ x ∈ [(sub r).recordRow scope], x.scope = k ∧ row = some x := by
      intro k row
      rw [record, hs]
      constructor
      · rintro ⟨same, rfl⟩
        cases Option.some.inj same
        exact ⟨_, List.mem_singleton_self _, rfl, rfl⟩
      · rintro ⟨x, hx, rfl, rfl⟩
        rw [List.mem_singleton.mp hx]
        exact ⟨rfl, rfl⟩
    have unusedRecord : ∀ x ∈ [(sub r).recordRow scope], s.records.committed x.scope = none := by
      intro x hx
      exact inv.recordsOnly _ r _ ((heldRecord _ _).mpr ⟨x, hx, rfl, rfl⟩)
    obtain ⟨records, hr, viewRecords⟩ :=
      insert_of_held are.records heldRecord unusedRecord (List.nodup_singleton _)
    refine ⟨{ before with jobs := jobs, idempotencyRecords := records }, ?_, viewJobs, viewRecords⟩
    simp only [openJob, hs]
    exact Option.bind_eq_some_iff.mpr ⟨jobs, hj, Option.bind_eq_some_iff.mpr ⟨records, hr, rfl⟩⟩

theorem view_details {opened : Db} {known : List Domain} {rows : List Domain}
    (same : s.details.committed = opened.details.get)
    (locks : DetailLocks (sub r) s.details r known)
    (ids : reactivatedIds (sub r) known = reactivatedIds (sub r) rows) :
    s.details.view r = (opened.details.delete fun detail =>
      decide (detail.domainId ∈ reactivatedIds (sub r) rows)).get := by
  funext id
  rw [Table.get_delete opened.details fun k => decide (k ∈ reactivatedIds (sub r) rows), ← ids, ← same]
  by_cases listed : id ∈ reactivatedIds (sub r) known
  · rw [if_pos (by simpa using listed)]
    exact Store.view_of_held ((locks id none).mpr ⟨listed, rfl⟩)
  · rw [if_neg (by simpa using listed)]
    refine Store.view_of_unheld fun row hl => listed ((locks id row).mp hl).1

/-- A transaction commits what the serial `create_job` would have written. -/
theorem createJob_of_tasksInserted (ind : Independent sub db) (inv : SubmitInv sub db s)
    (are : TablesAre s before) (serial : Serial sub db order before) (unfinished : r ∉ order)
    (hp : s.phase r = .tasksInserted) :
    ∃ after, createJob (sub r) before = (after, .accepted (sub r).jobUuid) ∧
      TablesAre (s.commit r) after := by
  have request := inv.ingest.requests r
  have ok := inv.lookup r
  rw [hp] at request ok
  obtain ⟨job, record, _⟩ := request
  obtain ⟨known, domainLocks, detailLocks, valid, invalid, hv, hi, taskLocks⟩ := ok
  obtain ⟨opened, ho, viewJobs, viewRecords⟩ := opens_of_held inv.ingest are job record
  have fresh : ∀ d ∈ before.domains.rows, ∀ name ∈ (sub r).allDomainStrs,
      d.id ≠ (sub r).domainUuid name := by
    intro d hd name hn same
    rcases serial_domains serial hd with ⟨old, hold, eq⟩ | ⟨r', hr', name', hn', eq⟩
    · exact ind.domainFresh r name hn old hold (eq.trans same)
    · obtain ⟨rfl, _⟩ := ind.domainInjective r' r name' hn' name hn (eq.trans same)
      exact unfinished hr'
  have injective : ∀ name ∈ (sub r).allDomainStrs, ∀ name' ∈ (sub r).allDomainStrs,
      (sub r).domainUuid name = (sub r).domainUuid name' → name = name' :=
    fun name hn name' hn' same => (ind.domainInjective r r name hn name' hn' same).2
  obtain ⟨domains, created, rows⟩ := createMissingDomains_fresh fresh injective
  let db' : Db := { opened with domains := domains }
  obtain ⟨sameValid, sameInvalid⟩ := tasks_withMissing are.domains domainLocks db' rows
  have ids : reactivatedIds (sub r) known = reactivatedIds (sub r) domains.rows := by
    rw [rows]
    exact reactivatedIds_withMissing are.domains domainLocks
  have unused : ∀ t ∈ valid ++ invalid, s.tasks.committed t.id = none := by
    intro t ht
    exact inv.ingest.tasksOnly t.id r _ ((taskLocks t.id (some t)).mpr ⟨t, ht, rfl, rfl⟩)
  obtain ⟨tasks, inserted, viewTasks⟩ :=
    insert_of_held are.tasks taskLocks unused (nodup_taskIds (ind.taskUuid_injective r) hv hi)
  have persisted : persistTasks (sub r) opened = some { reactivate (sub r) db' with tasks := tasks } := by
    rw [← openJob_domains ho] at created
    rw [← (openJob_spec ho).2.1] at inserted
    refine Option.bind_eq_some_iff.mpr ⟨domains, created, ?_⟩
    refine Option.bind_eq_some_iff.mpr ⟨valid, sameValid.symm.trans hv, ?_⟩
    refine Option.bind_eq_some_iff.mpr ⟨invalid, sameInvalid.symm.trans hi, ?_⟩
    exact Option.bind_eq_some_iff.mpr ⟨tasks, inserted, rfl⟩
  have sameDetails : s.details.committed = opened.details.get := by
    rw [openJob_details ho]
    exact are.details
  refine ⟨{ reactivate (sub r) db' with tasks := tasks }, ?_, ?_⟩
  · simp only [createJob, ho, persisted]
  · exact ⟨viewJobs, viewRecords, view_domains are.domains domainLocks db' rows,
      view_details sameDetails detailLocks ids, viewTasks⟩

end Commit

end DomainProcessing
