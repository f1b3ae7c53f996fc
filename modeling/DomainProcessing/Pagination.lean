import DomainProcessing.JobContract
import DomainProcessing.JobRetrieval
import DomainProcessing.KeysetPaging

namespace DomainProcessing

open Tables OrderedSelection Runs

/-- The `(created_at, id)` keys of a job's tasks, in ascending order. -/
def jobListing (jobId : JobId) (tasks : List Task) : List (ℤ ×ₗ ℕ) :=
  ((tasks.filter (ofJob jobId)).map Task.pageKey).insertionSort (· ≤ ·)

def keyCursor (k : ℤ ×ₗ ℕ) : Cursor := ⟨(ofLex k).1, (ofLex k).2⟩

/-- What may happen to a job between two requests: its tasks may change in
everything but their `created_at` and their ids. -/
structure KeepsListing (jobId : JobId) (before after : Db) : Prop where
  job : (before.jobs.get jobId).isSome → (after.jobs.get jobId).isSome
  tasks : ((after.tasks.rows.filter (ofJob jobId)).map Task.pageKey).Perm
    ((before.tasks.rows.filter (ofJob jobId)).map Task.pageKey)

/-- Ask for the job until there is no next cursor; request `i` meets the
database `db i` and asks for `limits i` tasks. -/
def followCursors (settings : AppSettings) (codec : CursorCodec) (db : Nat → Db) (jobId : JobId)
    (limits : Nat → Option Int) : Nat → Nat → Option String → Option (List GetJobResponse)
  | 0, _, _ => none
  | requests + 1, i, cursor =>
    match getJob settings codec (db i) jobId (limits i) cursor with
    | .error _ => none
    | .ok response =>
      match response.nextCursor with
      | none => some [response]
      | some text =>
        (followCursors settings codec db jobId limits requests (i + 1) (some text)).map (response :: ·)

section Listing

variable {jobId : JobId} {tasks : TaskTable} {cursor : Option (ℤ ×ₗ ℕ)} {limit : Nat}

theorem pageKey_nodup (tasks : TaskTable) : (tasks.rows.map Task.pageKey).Nodup := by
  have h := tasks.nodup
  rw [List.nodup_iff_pairwise_ne, List.pairwise_map] at h ⊢
  exact h.imp fun hne same => hne (congrArg (fun k => (ofLex k).2) same)

theorem pastCursor_keyCursor (cursor : Option (ℤ ×ₗ ℕ)) (t : Task) :
    pastCursor (cursor.map keyCursor) t = cursor.all fun c => decide (c < t.pageKey) := by
  cases cursor with
  | none => rfl
  | some c =>
    have lex : c < t.pageKey ↔
        (ofLex c).1 < t.createdAt ∨ (ofLex c).1 = t.createdAt ∧ (ofLex c).2 < t.id := by
      conv_lhs => rw [← toLex_ofLex c, Task.pageKey, Prod.Lex.toLex_lt_toLex]
    simp only [pastCursor, keyCursor, Option.map_some, Option.all_some, decide_eq_decide, lex]
    rw [eq_comm]

theorem jobListing_perm (jobId : JobId) (tasks : List Task) :
    (jobListing jobId tasks).Perm ((tasks.filter (ofJob jobId)).map Task.pageKey) :=
  List.perm_insertionSort _ _

theorem length_jobListing (jobId : JobId) (tasks : List Task) :
    (jobListing jobId tasks).length = tasks.countP (ofJob jobId) := by
  rw [(jobListing_perm jobId tasks).length_eq, List.length_map, List.countP_eq_length_filter]

theorem mem_jobListing {tasks : List Task} {k : ℤ ×ₗ ℕ} (h : k ∈ jobListing jobId tasks) :
    ∃ t ∈ tasks, t.jobId = some jobId ∧ t.pageKey = k := by
  obtain ⟨t, ht, rfl⟩ := List.mem_map.mp ((jobListing_perm jobId tasks).mem_iff.mp h)
  obtain ⟨ht, hj⟩ := List.mem_filter.mp ht
  exact ⟨t, ht, by simpa [ofJob] using hj, rfl⟩

theorem jobListing_id_injective {a b : ℤ ×ₗ ℕ} (ha : a ∈ jobListing jobId tasks.rows)
    (hb : b ∈ jobListing jobId tasks.rows) (h : (ofLex a).2 = (ofLex b).2) : a = b := by
  obtain ⟨t, ht, _, rfl⟩ := mem_jobListing ha
  obtain ⟨u, hu, _, rfl⟩ := mem_jobListing hb
  rw [Table.eq_of_key ht hu h]

theorem jobListing_sorted (jobId : JobId) (tasks : TaskTable) :
    (jobListing jobId tasks.rows).Pairwise (· < ·) := by
  have distinct : (jobListing jobId tasks.rows).Nodup :=
    (jobListing_perm jobId tasks.rows).nodup_iff.mpr
      ((pageKey_nodup tasks).sublist (List.filter_sublist.map _))
  have ascending := List.pairwise_insertionSort (· ≤ ·) ((tasks.rows.filter (ofJob jobId)).map Task.pageKey)
  exact ascending.imp₂ (fun _ _ le ne => lt_of_le_of_ne le ne) distinct

theorem KeepsListing.listing {before after : Db} (h : KeepsListing jobId before after) :
    jobListing jobId after.tasks.rows = jobListing jobId before.tasks.rows := by
  have same := ((jobListing_perm jobId _).trans h.tasks).trans (jobListing_perm jobId _).symm
  exact same.eq_of_pairwise' (List.pairwise_insertionSort _ _) (List.pairwise_insertionSort _ _)

/-- The keys of the rows that the page query returns. -/
theorem getByJobIdPaginated_keys (jobId : JobId) (tasks : TaskTable) (limit : Nat)
    (cursor : Option (ℤ ×ₗ ℕ)) :
    (getByJobIdPaginated jobId limit (cursor.map keyCursor) tasks.rows).map Task.pageKey =
      (KeysetPaging.after cursor (jobListing jobId tasks.rows)).take (limit + 1) := by
  have wanted : tasks.rows.filter (fun t => ofJob jobId t && pastCursor (cursor.map keyCursor) t) =
      (tasks.rows.filter (ofJob jobId)).filter fun t => cursor.all fun c => decide (c < t.pageKey) := by
    rw [List.filter_filter]
    apply List.filter_congr
    intro t _
    rw [pastCursor_keyCursor, Bool.and_comm]
  have order : ∀ rows : List Task,
      (rows.insertionSort fun a b => a.pageKey ≤ b.pageKey).map Task.pageKey =
        (rows.map Task.pageKey).insertionSort (· ≤ ·) := fun rows =>
    List.map_insertionSort _ _ _ _ fun _ _ _ _ => Iff.rfl
  let past : ℤ ×ₗ ℕ → Bool := fun k => cursor.all fun c => decide (c < k)
  have keys : ((tasks.rows.filter (ofJob jobId)).filter fun t => past t.pageKey).map Task.pageKey =
      ((tasks.rows.filter (ofJob jobId)).map Task.pageKey).filter past :=
    (List.filter_map (p := past) (f := Task.pageKey)).symm
  have perm : (((tasks.rows.filter (ofJob jobId)).map Task.pageKey).filter past).Perm
      (KeysetPaging.after cursor (jobListing jobId tasks.rows)) :=
    (jobListing_perm jobId tasks.rows).symm.filter _
  rw [getByJobIdPaginated, select, List.map_take, order, wanted, keys]
  congr 1
  exact ((List.perm_insertionSort _ _).trans perm).eq_of_pairwise' (List.pairwise_insertionSort _ _)
    ((KeysetPaging.after_sorted (jobListing_sorted jobId tasks)).imp le_of_lt)

end Listing

section Pages

variable {settings : AppSettings} {codec : CursorCodec} {jobId : JobId} {job : Job} {db : Db}
  {limit : Nat} {cursor : Option (ℤ ×ₗ ℕ)}

/-- The extra rows that the route and the repository ask for do not change the
page: it is the page of the job's listing, and its cursor is the next one. -/
theorem jobPage_spec (codec : CursorCodec) (db : Db) (job : Job) (limit : Nat)
    (cursor : Option (ℤ ×ₗ ℕ)) :
    (jobPage codec db job limit (cursor.map keyCursor)).results.map TaskResultDto.taskId =
      (KeysetPaging.page (jobListing job.id db.tasks.rows) cursor limit).map (fun k => (ofLex k).2) ∧
    (jobPage codec db job limit (cursor.map keyCursor)).nextCursor =
      (KeysetPaging.next (jobListing job.id db.tasks.rows) cursor limit).map
        (fun k => codec.encode (keyCursor k)) := by
  let listing := jobListing job.id db.tasks.rows
  let fetched := getByJobIdPaginated job.id (limit + 1) (cursor.map keyCursor) db.tasks.rows
  have keys : fetched.map Task.pageKey = (KeysetPaging.after cursor listing).take (limit + 1 + 1) :=
    getByJobIdPaginated_keys job.id db.tasks (limit + 1) cursor
  have length : fetched.length = min (limit + 1 + 1) (KeysetPaging.after cursor listing).length := by
    rw [← List.length_map (f := Task.pageKey), keys, List.length_take]
  have more : fetched.length > limit ↔ limit < (KeysetPaging.after cursor listing).length := by
    omega
  have shown : (fetched.take limit).map Task.pageKey = KeysetPaging.page listing cursor limit := by
    rw [List.map_take, keys, List.take_take, KeysetPaging.page]
    congr 1
    omega
  have ids : ∀ tasks : List Task, (tasks.map (taskResult db)).map TaskResultDto.taskId =
      (tasks.map Task.pageKey).map (fun k => (ofLex k).2) := by
    intro tasks
    rw [List.map_map, List.map_map]
    rfl
  by_cases h : fetched.length > limit
  · have results : (jobPage codec db job limit (cursor.map keyCursor)).results =
        (fetched.take limit).map (taskResult db) := by
      simp only [jobPage, fetched, decide_eq_true h, if_true]
    have following : (jobPage codec db job limit (cursor.map keyCursor)).nextCursor =
        (fetched.take limit).getLast?.map (fun t => codec.encode t.cursor) := by
      simp only [jobPage, fetched, decide_eq_true h, if_true]
    rw [results, following, ids, shown, KeysetPaging.next, if_pos (more.mp h)]
    refine ⟨rfl, ?_⟩
    rw [← shown, List.getLast?_map, Option.map_map]
    rfl
  · have results : (jobPage codec db job limit (cursor.map keyCursor)).results =
        fetched.map (taskResult db) := by
      simp only [jobPage, fetched, decide_eq_false h, Bool.false_eq_true, if_false]
    have following : (jobPage codec db job limit (cursor.map keyCursor)).nextCursor = none := by
      simp only [jobPage, fetched, decide_eq_false h, Bool.false_eq_true, if_false]
    have whole : fetched.take limit = fetched := List.take_of_length_le (by omega)
    rw [results, following, ids, ← whole, shown, KeysetPaging.next, if_neg (mt more.mpr h)]
    exact ⟨rfl, rfl⟩

end Pages

section Walk

variable {settings : AppSettings} {codec : CursorCodec} {jobId : JobId} {db : Nat → Db}
  {limits : Nat → Option Int} {listing : List (ℤ ×ₗ ℕ)}

/-- The response is a page of the listing with the cursor that follows it. -/
def ShowsPage (codec : CursorCodec) (listing : List (ℤ ×ₗ ℕ)) (limit : Nat)
    (response : GetJobResponse) : Prop :=
  ∃ cursor, response.results.map TaskResultDto.taskId =
      (KeysetPaging.page listing cursor limit).map (fun k => (ofLex k).2) ∧
    response.nextCursor =
      (KeysetPaging.next listing cursor limit).map fun k => codec.encode (keyCursor k)

/-- One request with a cursor of the listing is answered with its page. -/
theorem getJob_page {db : Db} {limit : Option Int} {cursor : Option (ℤ ×ₗ ℕ)}
    (found : (db.jobs.get jobId).isSome) (positive : ∀ l, limit = some l → 0 < l)
    (decodes : ∀ c, cursor = some c → codec.decode (codec.encode (keyCursor c)) = some (keyCursor c)) :
    ∃ response, getJob settings codec db jobId limit
        (cursor.map fun k => codec.encode (keyCursor k)) = .ok response ∧
      response.results.map TaskResultDto.taskId =
        (KeysetPaging.page (jobListing jobId db.tasks.rows) cursor (shownLimit settings limit)).map
          (fun k => (ofLex k).2) ∧
      response.nextCursor =
        (KeysetPaging.next (jobListing jobId db.tasks.rows) cursor (shownLimit settings limit)).map
          fun k => codec.encode (keyCursor k) := by
  obtain ⟨job, found⟩ := Option.isSome_iff_exists.mp found
  have named : job.id = jobId := (Table.get_eq_some_iff.mp found).2
  have limited := (@pageLimit_ok settings _ positive).1
  have decoded : decodeCursor codec (cursor.map fun k => codec.encode (keyCursor k)) =
      .ok (cursor.map keyCursor) := by
    cases cursor with
    | none => rfl
    | some c => simp only [Option.map_some, decodeCursor, decodes c rfl]
  have shown := jobPage_spec codec db job (shownLimit settings limit) cursor
  rw [named] at shown
  refine ⟨_, ?_, shown⟩
  simp only [getJob, found, limited, decoded]
  rfl

theorem showsPage_cons {responses : List GetJobResponse} {response : GetJobResponse} {i : Nat}
    (first : ShowsPage codec listing (shownLimit settings (limits i)) response)
    (rest : ∀ j r, responses[j]? = some r →
      ShowsPage codec listing (shownLimit settings (limits (i + 1 + j))) r) :
    ∀ j r, (response :: responses)[j]? = some r →
      ShowsPage codec listing (shownLimit settings (limits (i + j))) r := by
  intro j r hr
  cases j with
  | zero =>
    cases Option.some.inj hr
    exact first
  | succ j =>
    have later := rest j r hr
    have index : i + 1 + j = i + (j + 1) := by omega
    rwa [index] at later

/-- Following the cursors of the route is the walk over the listing. -/
theorem followCursors_walk (jobs : ∀ i, ((db i).jobs.get jobId).isSome)
    (stable : ∀ i, jobListing jobId (db i).tasks.rows = listing)
    (positive : ∀ i l, limits i = some l → 0 < l)
    (decodes : ∀ k ∈ listing, codec.decode (codec.encode (keyCursor k)) = some (keyCursor k))
    {requests i : Nat} {cursor : Option (ℤ ×ₗ ℕ)} (known : ∀ c, cursor = some c → c ∈ listing)
    {pages : List (List (ℤ ×ₗ ℕ))}
    (h : KeysetPaging.walk listing (fun i => shownLimit settings (limits i)) requests i cursor =
      some pages) :
    ∃ responses, followCursors settings codec db jobId limits requests i
        (cursor.map fun k => codec.encode (keyCursor k)) = some responses ∧
      responses.map (fun response => response.results.map TaskResultDto.taskId) =
        pages.map (fun page => page.map fun k => (ofLex k).2) ∧
      ∀ j response, responses[j]? = some response →
        ShowsPage codec listing (shownLimit settings (limits (i + j))) response := by
  induction requests generalizing i cursor pages with
  | zero => cases h
  | succ requests ih =>
    obtain ⟨response, answered, ids, following⟩ := @getJob_page settings codec jobId (db i) (limits i)
      cursor (jobs i) (positive i) (fun c hc => decodes c (known c hc))
    rw [stable i] at ids following
    have first : ShowsPage codec listing (shownLimit settings (limits i)) response :=
      ⟨cursor, ids, following⟩
    unfold KeysetPaging.walk at h
    unfold followCursors
    rw [answered]
    cases hn : KeysetPaging.next listing cursor (shownLimit settings (limits i)) with
    | none =>
      rw [hn] at h following
      cases Option.some.inj h
      have last : response.nextCursor = none := following
      simp only [last]
      refine ⟨[response], rfl, congrArg (fun page => [page]) ids, ?_⟩
      exact showsPage_cons first (fun j r hr => by cases hr)
    | some c =>
      rw [hn] at h following
      obtain ⟨later, hw, rfl⟩ := Option.map_eq_some_iff.mp h
      have more : response.nextCursor = some (codec.encode (keyCursor c)) := following
      obtain ⟨responses, hf, same, shows⟩ := @ih _ (some c)
        (fun d hd => Option.some.inj hd ▸ KeysetPaging.next_mem hn) _ hw
      have rest : followCursors settings codec db jobId limits requests (i + 1)
          (some (codec.encode (keyCursor c))) = some responses := hf
      simp only [more, rest]
      exact ⟨response :: responses, rfl, congrArg₂ List.cons ids same, showsPage_cons first shows⟩

/-- The job stays, with its listing, however often the database changes. -/
theorem keepsListing_iterate (touched : ∀ i, KeepsListing jobId (db i) (db (i + 1)))
    (exists_job : ((db 0).jobs.get jobId).isSome) (i : Nat) :
    ((db i).jobs.get jobId).isSome ∧
      jobListing jobId (db i).tasks.rows = jobListing jobId (db 0).tasks.rows := by
  induction i with
  | zero => exact ⟨exists_job, rfl⟩
  | succ i ih => exact ⟨(touched i).job ih.1, (touched i).listing.trans ih.2⟩

/-- Whatever happens to the tasks between the requests, the walk ends and shows
each of them once, in order, on full pages with a cursor on all but the last. -/
theorem pagination_partition (exists_job : ((db 0).jobs.get jobId).isSome)
    (touched : ∀ i, KeepsListing jobId (db i) (db (i + 1)))
    (positive : ∀ i l, limits i = some l → 0 < l)
    (decodes : ∀ t ∈ (db 0).tasks.rows, t.jobId = some jobId →
      codec.decode (codec.encode t.cursor) = some t.cursor) :
    (jobListing jobId (db 0).tasks.rows).Pairwise (· < ·) ∧
    (jobListing jobId (db 0).tasks.rows).Perm
      (((db 0).tasks.rows.filter (ofJob jobId)).map Task.pageKey) ∧
    ∃ pages, followCursors settings codec db jobId limits
        ((db 0).tasks.rows.countP (ofJob jobId) + 1) 0 none = some pages ∧
      pages.flatMap (fun page => page.results.map TaskResultDto.taskId) =
        (jobListing jobId (db 0).tasks.rows).map (fun k => (ofLex k).2) ∧
      (∀ j page, pages[j]? = some page → j + 1 < pages.length →
        page.results.length = shownLimit settings (limits j)) ∧
      ∀ (j : Nat) (page : GetJobResponse), pages[j]? = some page →
        (page.nextCursor = none ↔ page.results = [] ∨
          ∃ last, (jobListing jobId (db 0).tasks.rows).getLast? = some last ∧
            (ofLex last).2 ∈ page.results.map TaskResultDto.taskId) := by
  let listing := jobListing jobId (db 0).tasks.rows
  have sorted : listing.Pairwise (· < ·) := jobListing_sorted jobId (db 0).tasks
  have kept := keepsListing_iterate touched exists_job
  have decodes' : ∀ k ∈ listing, codec.decode (codec.encode (keyCursor k)) = some (keyCursor k) := by
    intro k hk
    obtain ⟨t, ht, hj, rfl⟩ := mem_jobListing hk
    exact decodes t ht hj
  have enough : (KeysetPaging.after none listing).length < (db 0).tasks.rows.countP (ofJob jobId) + 1 := by
    rw [KeysetPaging.after_none, length_jobListing]
    exact Nat.lt_succ_self _
  obtain ⟨parts, hw, flat, _, full⟩ := @KeysetPaging.walk_spec _ _ listing none
    sorted (fun i => shownLimit settings (limits i)) (fun i => (pageLimit_ok (positive i)).2) _ 0 enough
  obtain ⟨pages, hf, same, shows⟩ := followCursors_walk (fun i => (kept i).1)
    (fun i => (kept i).2) positive decodes' (fun c hc => by cases hc) hw
  have lengths : pages.length = parts.length := by
    simpa using congrArg List.length same
  refine ⟨sorted, jobListing_perm jobId _, pages, hf, ?_, ?_, ?_⟩
  · rw [List.flatMap_def, same, ← List.map_flatten, flat, KeysetPaging.after_none]
  · intro j page hj notLast
    obtain ⟨part, hp⟩ : ∃ part, parts[j]? = some part :=
      ⟨_, List.getElem?_eq_getElem (by omega)⟩
    have ids := congrArg (fun rows => rows[j]?) same
    simp only [List.getElem?_map, hj, hp, Option.map_some, Option.some.injEq] at ids
    have size := congrArg List.length ids
    simp only [List.length_map] at size
    rw [size, full j part hp (by omega), Nat.zero_add]
  · intro j page hj
    obtain ⟨cursor, ids, following⟩ := shows j page hj
    have none_iff := @KeysetPaging.next_eq_none_iff _ _ listing cursor _ sorted
      (@pageLimit_ok settings _ (positive (0 + j))).2
    rw [following, Option.map_eq_none_iff, none_iff]
    refine or_congr ?_ (exists_congr fun last => and_congr_right fun hl => ?_)
    · rw [← List.map_eq_nil_iff (f := TaskResultDto.taskId), ids, List.map_eq_nil_iff]
    · rw [ids]
      constructor
      · exact fun h => List.mem_map_of_mem h
      · intro h
        obtain ⟨k, hk, he⟩ := List.mem_map.mp h
        have inListing : k ∈ listing := (List.mem_filter.mp (List.mem_of_mem_take hk)).1
        rwa [← jobListing_id_injective inListing (List.mem_of_getLast? hl) he]

end Walk

section Transactions

variable {maxAttempts : Nat} {s s' : ServiceState} {op : ServiceOp}

theorem rowAfter_createdAt (tasks : List Task) (op : ServiceOp) (t : Task) :
    (rowAfter maxAttempts tasks op t).createdAt = t.createdAt := by
  cases op <;> simp only [rowAfter] <;> (try split) <;> (try rfl)
  · unfold recoverRow
    split <;> rfl
  · unfold rescheduleRow
    split <;> rfl

/-- No transaction of the service disturbs a reader of the job. -/
theorem keepsListing_of_serviceNext (h : serviceNext maxAttempts s op = some s') {job : Job}
    (hj : job ∈ s.db.jobs.rows) : KeepsListing job.id s.db s'.db := by
  obtain ⟨new, newJobs, effect⟩ := serviceNext_effect h
  constructor
  · intro _
    have kept : reevaluated (evaluatedJob maxAttempts s.db.tasks op).1 s'.tasks
        (evaluatedJob maxAttempts s.db.tasks op).2 job ∈ s'.db.jobs.rows := by
      rw [effect.jobs]
      exact List.mem_append_left _ (List.mem_map_of_mem hj)
    exact Option.isSome_iff_exists.mpr
      ⟨_, Table.get_eq_some_iff.mpr ⟨kept, reevaluated_id _ _ _ _⟩⟩
  · have foreign : new.filter (ofJob job.id) = [] := by
      refine List.filter_eq_nil_iff.mpr fun t ht => ?_
      simpa [ofJob] using effect.added.not_of_old_job ht hj
    have rows : s'.db.tasks.rows = s.tasks.map (rowAfter maxAttempts s.tasks op) ++ new := effect.tasks
    have same : ofJob job.id ∘ rowAfter maxAttempts s.tasks op = ofJob job.id := by
      funext t
      simp only [Function.comp_apply, ofJob, rowAfter_jobId]
    rw [rows, List.filter_append, foreign, List.append_nil, List.filter_map, same, List.map_map]
    refine List.Perm.of_eq (List.map_congr_left fun t _ => ?_)
    simp only [Function.comp_apply, Task.pageKey, rowAfter_createdAt, rowAfter_id]

end Transactions

/-- Three tasks with one `created_at`. -/
def tiedSubmission : Submission :=
  plainSubmission 1 [⟨"a.example", true, none⟩, ⟨"b.example.org", true, none⟩, ⟨"c.org", true, none⟩] []

/-- The tasks are claimed after the first request. -/
def claimedBetween : Nat → Db
  | 0 => (createJob tiedSubmission .empty).1
  | _ + 1 =>
    let db := (createJob tiedSubmission .empty).1
    { db with tasks := (claimTasks 5 120 none 0 db.tasks).1 }

def cursorText : TaskId → String
  | 1 => "eyJjcmVhdGVkX2F0IjoiMTk3MC0wMS0wMVQwMDowMDowMCswMDowMCIsInRhc2tfaWQiOiIwMDAwMDAwMC0wMDAwLTAwMDAtMDAwMC0wMDAwMDAwMDAwMDEifQ=="
  | 2 => "eyJjcmVhdGVkX2F0IjoiMTk3MC0wMS0wMVQwMDowMDowMCswMDowMCIsInRhc2tfaWQiOiIwMDAwMDAwMC0wMDAwLTAwMDAtMDAwMC0wMDAwMDAwMDAwMDIifQ=="
  | _ => "eyJjcmVhdGVkX2F0IjoiMTk3MC0wMS0wMVQwMDowMDowMCswMDowMCIsInRhc2tfaWQiOiIwMDAwMDAwMC0wMDAwLTAwMDAtMDAwMC0wMDAwMDAwMDAwMDMifQ=="

/-- The cursors of the three tasks, as the code encodes them. -/
def tiedCodec : CursorCodec :=
  ⟨fun cursor => cursorText cursor.taskId,
    fun text => ([1, 2, 3].find? fun id => decide (cursorText id = text)).map fun id => ⟨0, id⟩⟩

theorem pagination_partition_tied :
    ∃ pages, followCursors .defaults tiedCodec claimedBetween 1 (fun _ => some 2) 4 0 none = some pages ∧
      pages.flatMap (fun page => page.results.map TaskResultDto.taskId) = [1, 2, 3] := by
  have touched : ∀ i, KeepsListing 1 (claimedBetween i) (claimedBetween (i + 1)) := by
    intro i
    cases i with
    | zero => exact ⟨fun _ => by decide, List.Perm.of_eq (by decide)⟩
    | succ i => exact ⟨id, List.Perm.refl _⟩
  have ids : ∀ t ∈ (claimedBetween 0).tasks.rows, t.createdAt = 0 ∧ (t.id = 1 ∨ t.id = 2 ∨ t.id = 3) := by
    decide
  have decodes : ∀ t ∈ (claimedBetween 0).tasks.rows, t.jobId = some 1 →
      tiedCodec.decode (tiedCodec.encode t.cursor) = some t.cursor := by
    intro t ht _
    obtain ⟨created, first | second | third⟩ := ids t ht
    · simp [tiedCodec, Task.cursor, cursorText, created, first]
    · simp [tiedCodec, Task.cursor, cursorText, created, second]
    · simp [tiedCodec, Task.cursor, cursorText, created, third]
  have positive : ∀ (_ : Nat) (l : Int), some 2 = some l → 0 < l := by
    rintro _ l ⟨⟩
    decide
  obtain ⟨_, _, pages, hf, shown, _⟩ :=
    @pagination_partition .defaults tiedCodec 1 claimedBetween (fun _ => some 2) (by decide) touched
      positive decodes
  exact ⟨pages, hf, shown⟩

end DomainProcessing
