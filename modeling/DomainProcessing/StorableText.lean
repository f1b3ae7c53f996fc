import DomainProcessing.ReplaySoundness

namespace DomainProcessing

open Tables

/-- `str.lower` and the codec keep U+0000 where it is and bring none in. -/
structure KeepsNul (text : PythonText) : Prop where
  lower : ∀ s, nul ∈ text.lower s ↔ nul ∈ s
  encoded : ∀ {label encoded}, text.idna label = .ok encoded → (nul ∈ encoded ↔ nul ∈ label)
  message : ∀ {label message}, text.idna label = .error (.other message) → nul ∈ message.toList → nul ∈ label

namespace PyStr

open CodePoint

section Text

variable {s t : PyStr} {sep : Char} {labels : List PyStr}

theorem storable_append : (s ++ t).Storable ↔ s.Storable ∧ t.Storable := List.forall_mem_append

theorem storable_ofChars {chars : List Char} : (ofChars chars).Storable ↔ nul ∉ chars := by
  rw [← String.toList_ofList (l := chars)]
  exact storable_ofString

theorem storable_rdropWhile {p : CodePoint → Bool} (h : ∀ q, p q = true → q.within (· ≠ nul) = true) :
    Storable (s.rdropWhile p) ↔ s.Storable := by
  have dropped : Storable (s.rtakeWhile p) := fun q hq => h q (List.mem_rtakeWhile_imp hq)
  have parts := List.rdropWhile_append_rtakeWhile (p := p) (l := s)
  conv_rhs => rw [← parts, storable_append]
  exact (and_iff_left dropped).symm

theorem storable_intercalate (h : sep ≠ nul) :
    Storable ([char sep].intercalate labels) ↔ ∀ l ∈ labels, l.Storable := by
  cases labels with
  | nil => simp [List.intercalate, Storable]
  | cons first rest =>
    have joined : [char sep].intercalate ((first :: rest).map id) =
        first ++ rest.flatMap fun l => char sep :: l := PrefixCodes.intercalate_cons (char sep) first rest
    have separator : (char sep).within (· ≠ nul) = true := decide_eq_true h
    rw [List.map_id] at joined
    rw [joined, storable_append, List.forall_mem_cons]
    refine and_congr_right fun _ => ?_
    unfold Storable
    simp only [List.mem_flatMap, forall_exists_index, and_imp]
    constructor
    · exact fun all l hl p hp => all p l hl (List.mem_cons_of_mem _ hp)
    · intro all p l hl inside
      rcases List.mem_cons.mp inside with rfl | hp
      · exact separator
      · exact all l hl p hp

theorem storable_splitOn (h : sep ≠ nul) : s.Storable ↔ ∀ l ∈ s.splitOn (char sep), Storable l := by
  rw [← storable_intercalate h, List.intercalate_splitOn]

theorem eq_ofChars_of_chars? {chars : List Char} (h : chars? s = some chars) : s = ofChars chars := by
  unfold chars? at h
  induction s generalizing chars with
  | nil =>
    cases Option.some.inj h
    rfl
  | cons p rest ih =>
    rw [List.mapM_cons] at h
    obtain ⟨c, hc, h⟩ := Option.bind_eq_some_iff.mp h
    obtain ⟨tail, ht, h⟩ := Option.bind_eq_some_iff.mp h
    cases Option.some.inj h
    rw [ih ht]
    cases p with
    | char d =>
      cases Option.some.inj hc
      rfl
    | surrogate _ => cases hc

theorem storable_of_syntaxError {error : PyStr} (h : validateDomainSyntax s = some error) (storable : s.Storable) :
    error.Storable := by
  unfold validateDomainSyntax at h
  split at h
  next =>
    cases Option.some.inj h
    decide
  next =>
    split at h
    next =>
      cases Option.some.inj h
      decide
    next =>
      dsimp only at h
      split at h
      next =>
        cases Option.some.inj h
        decide
      next =>
        obtain ⟨label, found, rfl⟩ := Option.map_eq_some_iff.mp h
        refine storable_append.mpr ⟨by decide, ?_⟩
        exact (storable_splitOn (by decide)).mp storable label (List.mem_of_find?_eq_some found)

end Text

section Normalized

variable {text : PythonText} {s : PyStr}

theorem storable_lowerFrom (keeps : KeepsNul text) {run : List Char} :
    (lowerFrom text run s).Storable ↔ nul ∉ run ∧ s.Storable := by
  induction s generalizing run with
  | nil =>
    rw [lowerFrom, storable_ofChars, keeps.lower]
    exact (and_iff_left (by decide)).symm
  | cons p rest ih =>
    cases p with
    | char c =>
      have head : (char c).within (· ≠ nul) = true ↔ nul ∉ [c] := by
        rw [within, decide_eq_true_eq, List.mem_singleton]
        exact ne_comm
      have parts : Storable (char c :: rest) ↔ (char c).within (· ≠ nul) = true ∧ Storable rest :=
        List.forall_mem_cons
      rw [lowerFrom, ih, List.mem_append, not_or, and_assoc, ← head, parts]
    | surrogate offset =>
      have refused : ∀ t : PyStr, ¬Storable (surrogate offset :: t) := by
        intro t all
        cases all (surrogate offset) List.mem_cons_self
      rw [lowerFrom, storable_append]
      exact iff_of_false (fun h => refused _ h.2) fun h => refused _ h.2

theorem storable_lower (keeps : KeepsNul text) : (lower text s).Storable ↔ s.Storable :=
  (storable_lowerFrom keeps).trans (and_iff_right List.not_mem_nil)

theorem storable_idnaLabel (keeps : KeepsNul text) {label encoded : PyStr}
    (h : idnaLabel text label = .ok encoded) : encoded.Storable ↔ label.Storable := by
  unfold idnaLabel idna at h
  cases hc : chars? label with
  | none =>
    rw [hc] at h
    cases Except.ok.inj h
    exact Iff.rfl
  | some chars =>
    simp only [hc] at h
    cases code : text.idna chars with
    | ok own =>
      rw [code] at h
      cases Except.ok.inj h
      rw [eq_ofChars_of_chars? hc, storable_ofChars, storable_ofChars, keeps.encoded code]
    | error failure =>
      rw [code] at h
      cases failure with
      | unicodeError =>
        cases Except.ok.inj h
        exact Iff.rfl
      | other message => cases h

theorem storable_idnaFailure (keeps : KeepsNul text) {label : PyStr} {message : String}
    (h : idnaLabel text label = .error message) (storable : label.Storable) : (ofString message).Storable := by
  unfold idnaLabel idna at h
  cases hc : chars? label with
  | none =>
    rw [hc] at h
    cases h
  | some chars =>
    simp only [hc] at h
    cases code : text.idna chars with
    | ok own =>
      rw [code] at h
      cases h
    | error failure =>
      rw [code] at h
      cases failure with
      | unicodeError => cases h
      | other own =>
        cases Except.error.inj h
        rw [eq_ofChars_of_chars? hc, storable_ofChars] at storable
        exact storable_ofString.mpr fun inside => storable (keeps.message code inside)

theorem storable_encoded (keeps : KeepsNul text) {labels encoded : List PyStr}
    (h : labels.mapM (idnaLabel text) = .ok encoded) :
    (∀ l ∈ encoded, l.Storable) ↔ ∀ l ∈ labels, l.Storable := by
  induction labels generalizing encoded with
  | nil =>
    cases Except.ok.inj h
    exact Iff.rfl
  | cons label rest ih =>
    rw [List.mapM_cons] at h
    cases first : idnaLabel text label with
    | error message =>
      rw [first] at h
      cases h
    | ok own =>
      cases others : rest.mapM (idnaLabel text) with
      | error message =>
        rw [first, others] at h
        cases h
      | ok tail =>
        rw [first, others] at h
        cases Except.ok.inj h
        rw [List.forall_mem_cons, List.forall_mem_cons, ih others, storable_idnaLabel keeps first]

theorem storable_failed (keeps : KeepsNul text) {labels : List PyStr} {message : String}
    (h : labels.mapM (idnaLabel text) = .error message) (storable : ∀ l ∈ labels, l.Storable) :
    (ofString message).Storable := by
  induction labels with
  | nil => cases h
  | cons label rest ih =>
    obtain ⟨head, tail⟩ := List.forall_mem_cons.mp storable
    rw [List.mapM_cons] at h
    cases first : idnaLabel text label with
    | error own =>
      rw [first] at h
      cases Except.error.inj h
      exact storable_idnaFailure keeps first head
    | ok own =>
      cases others : rest.mapM (idnaLabel text) with
      | error later =>
        rw [first, others] at h
        cases Except.error.inj h
        exact ih others tail
      | ok encoded =>
        rw [first, others] at h
        cases h

/-- The value of an entry is storable exactly if its host part is. -/
theorem storable_value (keeps : KeepsNul text) (domain : PyStr) :
    (normalizeDomain text domain).value.Storable ↔ (hostPart (strip domain)).Storable := by
  have lowered : Storable ((lower text (hostPart (strip domain))).rdropWhile (· == char '.')) ↔
      (hostPart (strip domain)).Storable := by
    rw [storable_rdropWhile, storable_lower keeps]
    intro q hq
    rw [eq_of_beq hq]
    decide
  unfold normalizeDomain
  dsimp only
  split
  next empty =>
    rw [empty]
    exact iff_of_true (by decide) (by decide)
  next =>
    split
    next empty =>
      rw [← lowered, empty]
    next =>
      split
      next => exact lowered
      next labels encoded =>
        have value : Storable ([char '.'].intercalate labels) ↔ (hostPart (strip domain)).Storable := by
          rw [storable_intercalate (by decide), storable_encoded keeps encoded, ← storable_splitOn (by decide)]
          exact lowered
        split
        next => exact value
        next => exact value

theorem storable_error (keeps : KeepsNul text) {domain error : PyStr}
    (h : (normalizeDomain text domain).error = some error)
    (storable : (normalizeDomain text domain).value.Storable) : error.Storable := by
  revert h storable
  unfold normalizeDomain
  dsimp only
  split
  next =>
    intro h _
    cases Option.some.inj h
    decide
  next =>
    split
    next =>
      intro h _
      cases Option.some.inj h
      decide
    next =>
      split
      next message failed =>
        intro h storable
        cases Option.some.inj h
        rw [ofString_append, storable_append]
        exact ⟨by decide, storable_failed keeps failed ((storable_splitOn (by decide)).mp storable)⟩
      next labels encoded =>
        split
        next refused =>
          intro h storable
          cases Option.some.inj h
          exact storable_of_syntaxError refused storable
        next =>
          intro h
          cases h

end Normalized

end PyStr

/-- The names of the domain rows that were not there before. -/
def createdNames (before after : Db) : List String :=
  (after.domains.rows.filter fun d => (before.domains.get d.id).isNone).map Domain.normalizedDomain

/-- The texts of the error payloads of the tasks that were not there before. -/
def createdPayloads (before after : Db) : List String :=
  (createdTasks before after).flatMap fun t => (t.errorPayload.map fun e => [e.code, e.message]).getD []

section Created

variable {sub : Submission} {db after : Db} {jobId : JobId}

/-- The row of a name that was missing. -/
theorem created_of_missing (accepted : createJob sub db = (after, .accepted jobId)) {name : String}
    (submitted : name ∈ sub.allDomainStrs) (missing : name ∉ db.domains.rows.map Domain.normalizedDomain) :
    name ∈ createdNames db after := by
  obtain ⟨_, opened, ho, hp⟩ := createJob_accepted accepted
  obtain ⟨domains, valid, invalid, tasks, hd, _, _, _, rfl⟩ := persistTasks_cases hp
  rw [openJob_domains ho] at hd
  have listed : sub.domainRow name ∈
      (sub.allDomainStrs.filter fun n => (findDomain db.domains.rows n).isNone).map sub.domainRow := by
    refine List.mem_map_of_mem (List.mem_filter.mpr ⟨submitted, ?_⟩)
    exact findDomain_isNone_iff.mpr missing
  have unused : db.domains.get (sub.domainRow name).id = none := Table.insert_fresh hd listed
  refine List.mem_map.mpr ⟨sub.domainRow name, List.mem_filter.mpr ⟨?_, ?_⟩, rfl⟩
  · have row : sub.domainRow name ∈ domains.rows := by
      rw [Table.insert_rows hd]
      exact List.mem_append_right _ listed
    refine List.mem_map.mpr ⟨sub.domainRow name, row, ?_⟩
    split
    · rfl
    · rfl
  · rw [unused, Option.isNone_none]

theorem mem_reactivate {row : Domain} (h : row ∈ (reactivate sub db).domains.rows) :
    ∃ old ∈ db.domains.rows, row.id = old.id ∧ row.normalizedDomain = old.normalizedDomain := by
  obtain ⟨old, stored, rfl⟩ := List.mem_map.mp h
  refine ⟨old, stored, ?_, ?_⟩
  · split <;> rfl
  · split <;> rfl

theorem mem_createdNames (accepted : createJob sub db = (after, .accepted jobId)) {name : String} :
    name ∈ createdNames db after ↔
      name ∈ sub.allDomainStrs ∧ name ∉ db.domains.rows.map Domain.normalizedDomain := by
  refine ⟨fun created => ?_, fun h => created_of_missing accepted h.1 h.2⟩
  obtain ⟨_, opened, ho, hp⟩ := createJob_accepted accepted
  obtain ⟨domains, valid, invalid, tasks, hd, _, _, _, rfl⟩ := persistTasks_cases hp
  rw [openJob_domains ho] at hd
  obtain ⟨row, listed, rfl⟩ := List.mem_map.mp created
  obtain ⟨inTable, new⟩ := List.mem_filter.mp listed
  obtain ⟨old, hold, sameId, sameName⟩ := mem_reactivate inTable
  rw [sameId] at new
  rw [sameName]
  rw [Table.insert_rows hd] at hold
  rcases List.mem_append.mp hold with stored | created
  · have found : db.domains.get old.id = some old := Table.get_eq_some_iff.mpr ⟨stored, rfl⟩
    rw [found] at new
    cases new
  · obtain ⟨n, hn, rfl⟩ := List.mem_map.mp created
    obtain ⟨submitted, missing⟩ := List.mem_filter.mp hn
    exact ⟨submitted, findDomain_isNone_iff.mp missing⟩

theorem mem_createdPayloads (accepted : createJob sub db = (after, .accepted jobId)) {s : String} :
    s ∈ createdPayloads db after ↔
      ∃ d ∈ sub.invalidDomains, s ∈ ["VALIDATION_ERROR", Submission.validationMessage d] := by
  obtain ⟨_, opened, ho, hp⟩ := createJob_accepted accepted
  obtain ⟨domains, valid, invalid, tasks, _, hv, hi, ht, rfl⟩ := persistTasks_cases hp
  rw [(openJob_spec ho).2.1] at ht
  unfold createdPayloads
  rw [createdTasks_of_insert ht, List.mem_flatMap]
  constructor
  · rintro ⟨t, built, inside⟩
    rcases List.mem_append.mp built with pending | failed
    · obtain ⟨_, _, rfl⟩ := validTasks_shape hv pending
      cases inside
    · obtain ⟨⟨d, i⟩, numbered, he⟩ := exists_source_of_mapM hi failed
      obtain ⟨_, _, rfl⟩ := Option.map_eq_some_iff.mp he
      exact ⟨d, List.fst_mem_of_mem_zipIdx numbered, inside⟩
  · rintro ⟨d, listed, inside⟩
    obtain ⟨i, hi'⟩ := List.mem_iff_getElem?.mp listed
    have numbered : (d, sub.finalValidDomains.length + i) ∈
        sub.invalidDomains.zipIdx sub.finalValidDomains.length :=
      List.mk_add_mem_zipIdx_iff_getElem?.mpr hi'
    obtain ⟨t, built, he⟩ := exists_image_of_mapM hi numbered
    obtain ⟨_, _, rfl⟩ := Option.map_eq_some_iff.mp he
    exact ⟨_, List.mem_append_right _ built, inside⟩

end Created

section Batches

variable {settings : AppSettings} {text : PythonText} {sha256 : String → String}
  {request : PyCreateJobRequest} {draws : RequestDraws} {db after : Db} {jobId : JobId}

/-- The names of the rows that the request creates, and the texts of its payloads. -/
def PyCreateJobRequest.writtenTexts (text : PythonText) (request : PyCreateJobRequest) (db : Db) : List PyStr :=
  if request.keyUsed db = true then []
  else
    ((request.names text).filter fun name =>
      decide (name ∉ db.domains.rows.map fun d => PyStr.ofString d.normalizedDomain)) ++ request.payloadTexts text

theorem storable_name {d : PyNormalizedDomain} : d.name.Storable ↔ d.value.Storable := by
  unfold PyNormalizedDomain.name
  split
  next => exact Iff.rfl
  next =>
    split
    next empty =>
      rw [empty]
      exact iff_of_true (by decide) (by decide)
    next => exact Iff.rfl

theorem storable_validationMessage {d : PyNormalizedDomain} (h : ∀ error, d.error = some error → error.Storable) :
    d.validationMessage.Storable := by
  unfold PyNormalizedDomain.validationMessage
  split
  next => decide
  next error same =>
    split
    next => decide
    next => exact h error same

theorem sentTexts_storable (keeps : KeepsNul text) : (∀ s ∈ request.sentTexts text, s.Storable) ↔
    ∀ d ∈ request.domains, (PyStr.hostPart (PyStr.strip d)).Storable := by
  unfold PyCreateJobRequest.sentTexts PyCreateJobRequest.names PyCreateJobRequest.payloadTexts
  rw [List.forall_mem_append, List.forall_mem_map]
  simp only [storable_name, PyStr.storable_value keeps]
  refine and_iff_left_of_imp fun hosts s written => ?_
  obtain ⟨result, invalid, inside⟩ := List.mem_flatMap.mp written
  obtain ⟨raw, hraw, rfl⟩ := List.mem_map.mp (List.mem_filter.mp invalid).1
  rcases List.mem_cons.mp inside with rfl | inside
  · decide
  · rw [List.mem_singleton.mp inside]
    refine storable_validationMessage fun error same => ?_
    exact PyStr.storable_error keeps same ((PyStr.storable_value keeps raw).mpr (hosts raw hraw))

/-- The rows there are have storable names. -/
theorem writtenTexts_storable (stored : ∀ d ∈ db.domains.rows, Storable d.normalizedDomain) :
    (∀ s ∈ request.writtenTexts text db, s.Storable) ↔
      request.keyUsed db = true ∨ ∀ s ∈ request.sentTexts text, s.Storable := by
  unfold PyCreateJobRequest.writtenTexts PyCreateJobRequest.sentTexts
  split
  next used => exact iff_of_true (fun s h => absurd h List.not_mem_nil) (Or.inl used)
  next unused =>
    rw [or_iff_right unused, List.forall_mem_append, List.forall_mem_append]
    refine and_congr_left fun _ => ⟨fun new name listed => ?_, fun all name listed => ?_⟩
    · by_cases old : name ∈ db.domains.rows.map fun d => PyStr.ofString d.normalizedDomain
      · obtain ⟨row, hrow, rfl⟩ := List.mem_map.mp old
        exact PyStr.storable_ofString.mpr (stored row hrow)
      · exact new name (List.mem_filter.mpr ⟨listed, decide_eq_true old⟩)
    · exact all name (List.mem_filter.mp listed).1

theorem text_eq_empty {s : PyStr} (storable : s.Storable) : s.text = "" ↔ s = [] := by
  constructor
  · intro empty
    rw [← PyStr.ofString_text storable, empty]
    rfl
  · rintro rfl
    rfl

theorem ofString_name {d : PyNormalizedDomain} (storable : d.name.Storable) :
    PyStr.ofString (if d.isValid then d.text.value else Submission.invalidName d.text) = d.name := by
  have value := storable_name.mp storable
  have empty : d.text.value = "" ↔ d.value = [] := text_eq_empty value
  unfold PyNormalizedDomain.name Submission.invalidName
  simp only [empty]
  split
  next => exact PyStr.ofString_text value
  next =>
    split
    next => rfl
    next => exact PyStr.ofString_text value

theorem ofString_validationMessage {d : PyNormalizedDomain} (storable : d.validationMessage.Storable) :
    PyStr.ofString (Submission.validationMessage d.text) = d.validationMessage := by
  revert storable
  unfold PyNormalizedDomain.validationMessage Submission.validationMessage PyNormalizedDomain.text
  cases d.error with
  | none => exact fun _ => rfl
  | some e =>
    dsimp only [Option.map_some]
    split
    next empty =>
      intro _
      rw [empty]
      rfl
    next some =>
      intro storable
      rw [if_neg fun empty => some ((text_eq_empty storable).mp empty)]
      exact PyStr.ofString_text storable

theorem mem_names (storable : ∀ s ∈ request.sentTexts text, s.Storable) {name : String} :
    PyStr.ofString name ∈ request.names text ↔
      name ∈ (request.submission text sha256 draws).allDomainStrs := by
  let results := request.domains.map (PyStr.normalizeDomain text)
  have valid : name ∈ (request.submission text sha256 draws).finalValidDomains.map NormalizedDomain.value ↔
      name ∈ (validResults (results.map PyNormalizedDomain.text)).map NormalizedDomain.value :=
    mem_deduplicatedResults normalResults_text
  have named : ∀ d ∈ results,
      PyStr.ofString (if d.isValid then d.text.value else Submission.invalidName d.text) = d.name := by
    intro d hd
    obtain ⟨raw, hraw, rfl⟩ := List.mem_map.mp hd
    exact ofString_name (storable _ (List.mem_append_left _ (List.mem_map_of_mem hraw)))
  have listed : PyStr.ofString name ∈ request.names text ↔ ∃ d ∈ results, d.name = PyStr.ofString name := by
    unfold PyCreateJobRequest.names
    simp only [results, List.mem_map, exists_exists_and_eq_and]
  unfold Submission.allDomainStrs
  rw [listed, List.mem_dedup, List.mem_append, valid]
  constructor
  · rintro ⟨d, hd, same⟩
    rw [← named d hd] at same
    rw [← PyStr.ofString_injective same]
    by_cases accepted : d.isValid = true
    · rw [if_pos accepted]
      exact Or.inl (List.mem_map_of_mem (List.mem_filter.mpr ⟨List.mem_map_of_mem hd, accepted⟩))
    · rw [if_neg accepted]
      have refused : (!d.text.isValid) = true := by simpa [PyNormalizedDomain.text] using accepted
      exact Or.inr (List.mem_map_of_mem (List.mem_filter.mpr ⟨List.mem_map_of_mem hd, refused⟩))
  · rintro (h | h)
    · obtain ⟨_, kept, rfl⟩ := List.mem_map.mp h
      obtain ⟨mapped, accepted⟩ := List.mem_filter.mp kept
      obtain ⟨d, hd, rfl⟩ := List.mem_map.mp mapped
      have own : d.isValid = true := accepted
      exact ⟨d, hd, by rw [← named d hd, if_pos own]⟩
    · obtain ⟨_, kept, rfl⟩ := List.mem_map.mp h
      obtain ⟨mapped, refused⟩ := List.mem_filter.mp kept
      obtain ⟨d, hd, rfl⟩ := List.mem_map.mp mapped
      have own : ¬d.isValid = true := by simpa [PyNormalizedDomain.text] using refused
      exact ⟨d, hd, by rw [← named d hd, if_neg own]⟩

theorem mem_payloadTexts (storable : ∀ s ∈ request.sentTexts text, s.Storable) {s : String} :
    PyStr.ofString s ∈ request.payloadTexts text ↔
      ∃ d ∈ (request.submission text sha256 draws).invalidDomains,
        s ∈ ["VALIDATION_ERROR", Submission.validationMessage d] := by
  let invalid := (request.domains.map (PyStr.normalizeDomain text)).filter fun d => !d.isValid
  have results : (request.submission text sha256 draws).invalidDomains = invalid.map PyNormalizedDomain.text :=
    List.filter_map
  have texts : ∀ d ∈ invalid, [PyStr.ofString "VALIDATION_ERROR", d.validationMessage] =
      ["VALIDATION_ERROR", Submission.validationMessage d.text].map PyStr.ofString := by
    intro d hd
    have sent : d.validationMessage ∈ request.sentTexts text :=
      List.mem_append_right _ (List.mem_flatMap.mpr ⟨d, hd, by simp⟩)
    rw [List.map_cons, List.map_cons, List.map_nil, ofString_validationMessage (storable _ sent)]
  unfold PyCreateJobRequest.payloadTexts
  rw [results, List.mem_flatMap]
  simp only [List.mem_map (f := PyNormalizedDomain.text), exists_exists_and_eq_and]
  refine exists_congr fun d => and_congr_right fun hd => ?_
  rw [texts d hd, List.mem_map_of_injective PyStr.ofString_injective]

theorem unused_of_accepted
    (accepted : createJob (request.submission text sha256 draws) db = (after, .accepted jobId)) :
    ¬request.keyUsed db = true := by
  obtain ⟨_, opened, ho, _⟩ := createJob_accepted accepted
  have free := (openJob_spec ho).2.2
  have used : request.keyUsed db =
      ((request.submission text sha256 draws).scope.bind db.idempotencyRecords.get).isSome := rfl
  rw [used, free]
  exact Bool.false_ne_true

/-- What an accepted request is said to write is what it leaves in the tables. -/
theorem mem_writtenTexts (storable : ∀ s ∈ request.sentTexts text, s.Storable)
    (accepted : createJob (request.submission text sha256 draws) db = (after, .accepted jobId)) {s : String} :
    PyStr.ofString s ∈ request.writtenTexts text db ↔ s ∈ createdNames db after ++ createdPayloads db after := by
  have known : PyStr.ofString s ∈ (db.domains.rows.map fun d => PyStr.ofString d.normalizedDomain) ↔
      s ∈ db.domains.rows.map Domain.normalizedDomain := by
    rw [← List.mem_map_of_injective PyStr.ofString_injective, List.map_map]
    rfl
  unfold PyCreateJobRequest.writtenTexts
  rw [if_neg (unused_of_accepted accepted), List.mem_append, List.mem_append, List.mem_filter,
    decide_eq_true_eq, known,
    mem_names storable, mem_payloadTexts storable, mem_createdNames accepted, mem_createdPayloads accepted]

theorem postJobsStoring_admitted (some : request.domains ≠ [])
    (size : request.domains.length ≤ settings.maxDomainsPerRequest) :
    postJobsStoring settings text sha256 false request draws db =
      if request.keyUsed db = true ∨ ∀ s ∈ request.sentTexts text, s.Storable then
        ((createJob (request.submission text sha256 draws) db).1,
          .ok (createJob (request.submission text sha256 draws) db).2)
      else (db, .ok .failed) := by
  unfold postJobsStoring
  rw [if_neg Bool.false_ne_true, if_neg some, if_neg (by omega)]

theorem createJob_ne_failed (fresh : FreshDraws (request.submission text sha256 draws) db) :
    (createJob (request.submission text sha256 draws) db).2 ≠ .failed := by
  cases used : (request.submission text sha256 draws).scope.bind db.idempotencyRecords.get with
  | some existing =>
    rw [createJob_of_used used]
    dsimp only
    split
    · simp
    · simp
  | none =>
    obtain ⟨after, accepted⟩ := createJob_of_unused fresh used
    rw [accepted]
    simp

/-- A batch is stored exactly if the host part of every entry is storable, or
nothing is to be written. -/
theorem batch_stored_iff (keeps : KeepsNul text)
    (stored : ∀ d ∈ db.domains.rows, Storable d.normalizedDomain)
    (fresh : FreshDraws (request.submission text sha256 draws) db) (some : request.domains ≠ [])
    (size : request.domains.length ≤ settings.maxDomainsPerRequest) :
    ((∀ s ∈ request.writtenTexts text db, s.Storable) ↔
        request.keyUsed db = true ∨ ∀ d ∈ request.domains, (PyStr.hostPart (PyStr.strip d)).Storable) ∧
      ((postJobsStoring settings text sha256 false request draws db).2 ≠ .ok .failed ↔
        request.keyUsed db = true ∨ ∀ d ∈ request.domains, (PyStr.hostPart (PyStr.strip d)).Storable) ∧
      ((postJobsStoring settings text sha256 false request draws db).2 = .ok .failed →
        (postJobsStoring settings text sha256 false request draws db).1 = db) ∧
      ∀ after jobId, postJobsStoring settings text sha256 false request draws db = (after, .ok (.accepted jobId)) →
        ∀ s, PyStr.ofString s ∈ request.writtenTexts text db ↔
          s ∈ createdNames db after ++ createdPayloads db after := by
  have answered : (Except.ok (createJob (request.submission text sha256 draws) db).2 :
      Except HttpException JobResponse) ≠ .ok .failed := fun same => createJob_ne_failed fresh (Except.ok.inj same)
  rw [writtenTexts_storable stored, ← sentTexts_storable keeps, postJobsStoring_admitted some size]
  refine ⟨Iff.rfl, ?_, ?_, ?_⟩
  · split
    next fine => exact iff_of_true answered fine
    next refused => exact iff_of_false (fun fine => fine rfl) refused
  · split
    next => exact fun failed => absurd failed answered
    next => exact fun _ => rfl
  · intro after jobId answer s
    split at answer
    next fine =>
      obtain ⟨stored, response⟩ := Prod.mk.inj answer
      have accepted : createJob (request.submission text sha256 draws) db = (after, .accepted jobId) :=
        Prod.ext stored (Except.ok.inj response)
      exact mem_writtenTexts (fine.resolve_left (unused_of_accepted accepted)) accepted
    next => cases answer

end Batches

theorem toLower_eq_nul_iff {c : Char} : c.toLower = nul ↔ c = nul := by
  unfold Char.toLower
  split
  next upper =>
    simp only [ge_iff_le, UInt32.le_iff_toNat_le] at upper
    have bounds : 65 ≤ c.val.toNat ∧ c.val.toNat ≤ 90 := upper
    refine iff_of_false ?_ ?_
    · intro same
      have value := congrArg (fun d : Char => d.val.toNat) same
      simp only [UInt32.toNat_add] at value
      change (c.val.toNat + 32) % 2 ^ 32 = 0 at value
      omega
    · rintro rfl
      exact absurd bounds (by decide)
  next => exact Iff.rfl

theorem asciiText_keepsNul : KeepsNul asciiText := by
  refine ⟨?_, ?_, ?_⟩
  · intro s
    show nul ∈ s.map Char.toLower ↔ nul ∈ s
    simp only [List.mem_map, toLower_eq_nul_iff, exists_eq_right]
  · intro label encoded h
    change (if label.all isAscii then Except.ok label else Except.error IdnaFailure.unicodeError) = _ at h
    split at h
    · cases Except.ok.inj h
      exact Iff.rfl
    · cases h
  · intro label message h
    change (if label.all isAscii then Except.ok label else Except.error IdnaFailure.unicodeError) = _ at h
    split at h
    · cases h
    · cases h

/-- A batch whose second entry has U+0000 and a surrogate in its path. -/
def pathRequest : PyCreateJobRequest :=
  { domains := [.ofString "ok.com", PyStr.ofString "http://b.a/\x00" ++ [.surrogate 0]], idempotencyKey := none,
    clientId := none, requestId := "r" }

theorem batch_stored_path :
    (postJobsStoring .defaults asciiText id false pathRequest mixedDraws Db.empty).2 ≠ .ok .failed := by
  have names : (pathRequest.submission asciiText id mixedDraws).allDomainStrs = ["ok.com", "b.a"] := by
    decide +kernel
  have fresh : FreshDraws (pathRequest.submission asciiText id mixedDraws) Db.empty := by
    refine ⟨rfl, fun d hd => absurd hd List.not_mem_nil, ?_, fun _ => rfl, fun _ _ same => same⟩
    rw [names]
    decide
  have clean : ∀ d ∈ pathRequest.domains, (PyStr.hostPart (PyStr.strip d)).Storable := by decide +kernel
  have stored : ∀ d ∈ Db.empty.domains.rows, Storable d.normalizedDomain :=
    fun d hd => absurd hd List.not_mem_nil
  exact (batch_stored_iff asciiText_keepsNul stored fresh (by decide) (by decide)).2.1.mpr (Or.inr clean)

/-- The valid entry `ok.com` with another one. -/
def batchWith (entry : PyStr) : PyCreateJobRequest := { pathRequest with domains := [.ofString "ok.com", entry] }

/-- The entry is to be written, is not storable, and takes the valid one down with it. -/
def PyStr.SinksBatch (entry : PyStr) : Prop :=
  entry ∈ (batchWith entry).writtenTexts asciiText Db.empty ∧ ¬entry.Storable ∧
    (postJobsStoring .defaults asciiText id false (batchWith entry) mixedDraws Db.empty).2 = .ok .failed

/-- A host with U+0000 and one with a surrogate. -/
theorem batch_sunk_by_nul :
    (PyStr.ofString "a\x00.b").SinksBatch ∧ PyStr.SinksBatch (.surrogate 0 :: PyStr.ofString ".com") := by
  unfold PyStr.SinksBatch
  decide +kernel

end DomainProcessing
