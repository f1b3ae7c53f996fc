import DomainProcessing.CursorText
import DomainProcessing.ForeignKeys

namespace DomainProcessing

open Tables Runs OrderedSelection

section Response

variable {settings : AppSettings} {codec : CursorCodec} {db : Db} {jobId : JobId} {limit : Option Int}
  {cursor : Option String} {response : GetJobResponse}

theorem mem_results {job : Job} {size : Nat} {decoded : Option Cursor} {result : TaskResultDto}
    (mem : result ∈ (jobPage codec db job size decoded).results) :
    ∃ t ∈ db.tasks.rows, t.jobId = some job.id ∧ result = taskResult db t := by
  obtain ⟨t, listed, rfl⟩ := List.mem_map.mp mem
  have fetched : t ∈ getByJobIdPaginated job.id (size + 1) decoded db.tasks.rows := by
    split at listed
    · exact List.mem_of_mem_take listed
    · exact listed
  obtain ⟨stored, wanted⟩ := mem_select fetched
  have own : ofJob job.id t = true := (Bool.and_eq_true_iff.mp wanted).1
  exact ⟨t, stored, by simpa [ofJob] using own, rfl⟩

theorem getJob_shown (h : getJob settings codec db jobId limit cursor = .ok response) :
    (db.jobs.get jobId).isSome ∧ response.summary = jobSummary jobId db.tasks.rows ∧
      ∀ result ∈ response.results, ∃ t ∈ db.tasks.rows, t.jobId = some jobId ∧
        result = taskResult db t := by
  unfold getJob at h
  split at h
  next => cases h
  next job found =>
    have named : job.id = jobId := (Table.get_eq_some_iff.mp found).2
    cases limited : pageLimit settings limit with
    | error _ =>
      rw [limited] at h
      cases h
    | ok size =>
      cases decoded : decodeCursor codec cursor with
      | error _ =>
        rw [limited, decoded] at h
        cases h
      | ok start =>
        rw [limited, decoded] at h
        cases Except.ok.inj h
        refine ⟨by rw [found]; rfl, by rw [← named]; rfl, fun result mem => ?_⟩
        rw [← named]
        exact mem_results mem

/-- With the foreign keys in place no result names the placeholder domain. -/
theorem domain_shown (keys : db.ForeignKeys) {t : Task} (mem : t ∈ db.tasks.rows) :
    ∃ d ∈ db.domains.rows, d.id = t.domainId ∧ (taskResult db t).domain = d.normalizedDomain := by
  obtain ⟨d, stored, named⟩ := keys.taskDomain t mem
  have found : db.domains.get t.domainId = some d := Table.get_eq_some_iff.mpr ⟨stored, named⟩
  refine ⟨d, stored, named, ?_⟩
  rw [taskResult, found]
  rfl

theorem domain_kept {before after : Db} (keys : before.ForeignKeys) (names : before.KeepsNames after)
    {t t' : Task} (mem : t ∈ before.tasks.rows) (same : t'.domainId = t.domainId) :
    (taskResult after t').domain = (taskResult before t).domain := by
  obtain ⟨d, stored, named, shown⟩ := domain_shown keys mem
  obtain ⟨d', stored', id, name⟩ := names d stored
  have found : after.domains.get t'.domainId = some d' :=
    Table.get_eq_some_iff.mpr ⟨stored', by rw [id, named, same]⟩
  rw [shown, ← name, taskResult, found]
  rfl

end Response

section Run

variable {ω ι : Type*} [DecidableEq ω] [DecidableEq ι] {settings : AppSettings} {maxAttempts : Nat}
  {s s' : SystemState ω ι} {op : SystemOp ω ι} {trace later : List (SystemState ω ι × SystemOp ω ι)}
  {codec codec' : CursorCodec} {jobId : JobId} {limit limit' : Option Int}
  {cursor cursor' : Option String} {earlier following : GetJobResponse}

theorem keepsListing_of_systemNext (h : systemNext settings maxAttempts s op = some s') {job : Job}
    (stored : job ∈ s.service.db.jobs.rows) : KeepsListing job.id s.service.db s'.service.db := by
  have change := (systemNext_effect h).service
  generalize s'.service = service at change
  cases change with
  | same => exact ⟨fun h => h, List.Perm.refl _⟩
  | external _ next => exact keepsListing_of_serviceNext next stored
  | reused _ next => exact keepsListing_of_serviceNext next stored
  | observed _ _ next =>
    have kept := keepsListing_of_serviceNext next stored
    exact ⟨kept.job, kept.tasks⟩
  | scheduled _ next => exact keepsListing_of_serviceNext next stored

/-- What a run leaves of a job's tasks and of the domains. -/
structure ViewKept (jobId : JobId) (s s' : SystemState ω ι) : Prop where
  listing : KeepsListing jobId s.service.db s'.service.db
  names : s.service.db.KeepsNames s'.service.db
  tasks : ∀ t ∈ s.tasks, KnownTask s' t

theorem viewKept_of_run (run : SystemRun settings maxAttempts s later s')
    (found : (s.service.db.jobs.get jobId).isSome) : ViewKept jobId s s' := by
  refine run.invariant (P := ViewKept jobId s)
    ⟨⟨fun h => h, List.Perm.refl _⟩, .refl _, fun t mem => ⟨t, mem, rfl, rfl, rfl, rfl⟩⟩
    fun kept next => ⟨?_, ?_, ?_⟩
  · exact kept.listing.step found fun _ mem => keepsListing_of_systemNext next mem
  · exact kept.names.trans (systemNext_effect next).service.keepsNames
  · exact fun t mem => knownTask_step next (kept.tasks t mem)

/-- Two responses about a job, whatever the service does between them, agree on
how many tasks it has and on the domain of each, which is a stored name. -/
theorem job_views_agree (run : SystemRun settings maxAttempts .init trace s)
    (between : SystemRun settings maxAttempts s later s')
    (first : getJob settings codec s.service.db jobId limit cursor = .ok earlier)
    (second : getJob settings codec' s'.service.db jobId limit' cursor' = .ok following) :
    following.summary.total = earlier.summary.total ∧
      (∀ result ∈ earlier.results,
        result.domain ∈ s.service.db.domains.rows.map Domain.normalizedDomain) ∧
      ∀ result ∈ earlier.results, ∀ result' ∈ following.results, result'.taskId = result.taskId →
        result'.domain = result.domain := by
  have keys := (refers_run run).keys
  obtain ⟨found, summary, shown⟩ := getJob_shown first
  obtain ⟨-, summary', shown'⟩ := getJob_shown second
  have kept : ViewKept jobId s s' := viewKept_of_run between found
  refine ⟨?_, ?_, ?_⟩
  · rw [summary, summary', jobSummary_total, jobSummary_total, ← length_jobListing, ← length_jobListing,
      kept.listing.listing]
  · intro result mem
    obtain ⟨t, stored, -, rfl⟩ := shown result mem
    obtain ⟨d, listed, -, name⟩ := domain_shown keys stored
    exact List.mem_map.mpr ⟨d, listed, name.symm⟩
  · intro result mem result' mem' same
    obtain ⟨t, stored, -, rfl⟩ := shown result mem
    obtain ⟨t', stored', -, rfl⟩ := shown' result' mem'
    have subject : t.domainId = t'.domainId := (knownTask_row (kept.tasks t stored) stored' same.symm).1
    exact domain_kept keys kept.names stored subject.symm

end Run

/-- The first response comes before the task is claimed, the second after its completion. -/
theorem job_views_agree_completed :
    ∃ (s s' : SystemState Nat Nat) (earlier following : GetJobResponse),
      exec (systemNext .defaults 3) .init (completingOps.take 1) = some s ∧
      exec (systemNext .defaults 3) s (completingOps.drop 1) = some s' ∧
      getJob .defaults (cursorCodec plainDecoders) s.service.db 1 none none = .ok earlier ∧
      getJob .defaults (cursorCodec plainDecoders) s'.service.db 1 none none = .ok following ∧
      earlier.results.length = 1 ∧ following.summary.total = earlier.summary.total := by
  have enabled : (exec (systemNext .defaults 3) (SystemState.init : SystemState Nat Nat)
      (completingOps.take 1)).bind (fun s => (exec (systemNext .defaults 3) s (completingOps.drop 1)).map
        fun s' => ((getJob .defaults (cursorCodec plainDecoders) s.service.db 1 none none).toOption.map
            fun response => response.results.length,
          (getJob .defaults (cursorCodec plainDecoders) s'.service.db 1 none none).toOption.isSome)) =
        some (some 1, true) := by
    decide +kernel
  obtain ⟨s, reached, enabled⟩ := Option.bind_eq_some_iff.mp enabled
  obtain ⟨s', completed, answers⟩ := Option.map_eq_some_iff.mp enabled
  injection answers with one answered
  cases first : getJob .defaults (cursorCodec plainDecoders) s.service.db 1 none none with
  | error refused =>
    rw [first] at one
    cases one
  | ok earlier =>
    cases second : getJob .defaults (cursorCodec plainDecoders) s'.service.db 1 none none with
    | error refused =>
      rw [second] at answered
      cases answered
    | ok following =>
      rw [first] at one
      exact ⟨s, s', earlier, following, reached, completed, first, second, Option.some.inj one,
        (job_views_agree (exec_run reached) (exec_run completed) first second).1⟩

end DomainProcessing
