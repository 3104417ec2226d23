import AgentRuntimeGrid.Cli.Smoke
import AgentRuntimeGrid.Runtime.Budget
import Mathlib.Algebra.BigOperators.Group.List.Basic

/-! The two lifecycle counts, of the smoke report and of the status command, and the failure
classification, which is counted from the events. -/
namespace AgentRuntimeGrid

/-- `lifecycle_counts` of the status command. -/
def Database.lifecycleCounts (db : Database) (runId : RunId) : Counts :=
  ["queued", "running", "completed", "failed", "timed_out", "cancelled", "retry", "dlq"].map
    fun key => (key,
      if key = "retry" then
        db.jobEvents.countP fun e => e.runId = runId && e.eventType = .retryScheduled
      else (db.jobsOfRun runId).countP fun row => lifecycleKey row.status = key)

def statusKeys : List String :=
  ["queued", "running", "completed", "failed", "timed_out", "cancelled"]

namespace Counts

/-- `sum(counts.values())`. -/
def total (c : Counts) : ℕ := (c.map Prod.snd).sum

@[simp] theorem total_bump (c : Counts) (key : String) : (c.bump key).total = c.total + 1 := by
  induction c with
  | nil => rfl
  | cons kn c ih =>
    obtain ⟨k, n⟩ := kn
    unfold bump
    split
    · simp only [total, List.map_cons, List.sum_cons]
      omega
    · simp only [total, List.map_cons, List.sum_cons] at ih ⊢
      omega

theorem total_foldl_bump (keys : List String) (c : Counts) :
    (keys.foldl bump c).total = c.total + keys.length := by
  induction keys generalizing c with
  | nil => rfl
  | cons key keys ih =>
    rw [List.foldl_cons, ih, total_bump, List.length_cons]
    omega

end Counts

theorem sum_countP_keys {keys : List String} {p : JobStatus → Bool}
    (hone : ∀ status, (keys.map fun key =>
      if decide (lifecycleKey status = key) then 1 else 0).sum = if p status then 1 else 0)
    (rows : List JobRecord) :
    (keys.map fun key => rows.countP fun row => lifecycleKey row.status = key).sum =
      rows.countP fun row => p row.status := by
  induction rows with
  | nil =>
    induction keys with
    | nil => rfl
    | cons key keys ih => simp
  | cons row rows ih => simp only [List.countP_cons, List.sum_map_add, ih, hone]

/-- Every status has its one key. -/
theorem sum_lifecycleCounts (rows : List JobRecord) :
    (statusKeys.map (lifecycleCounts rows).get).sum = rows.length := by
  have hsum := @sum_countP_keys statusKeys (fun _ => true)
    (fun status => by cases status <;> decide) rows
  rw [List.countP_true] at hsum
  exact hsum

theorem terminalCount_lifecycleCounts (rows : List JobRecord) :
    terminalCount (lifecycleCounts rows) = rows.countP fun row => row.status.terminal := by
  have hsum := @sum_countP_keys ["completed", "failed", "timed_out", "cancelled"]
    JobStatus.terminal (fun status => by cases status <;> decide) rows
  simp only [List.map_cons, List.map_nil, List.sum_cons, List.sum_nil, Nat.add_zero] at hsum
  rw [← hsum]
  simp only [terminalCount, Nat.add_assoc]
  rfl

theorem get_lifecycleCounts (db : Database) (runId : RunId) {key : String}
    (hkey : key ∈ statusKeys) : (db.lifecycleCounts runId).get key =
      (lifecycleCounts (db.jobsOfRun runId)).get key := by
  simp only [statusKeys, List.mem_cons, List.not_mem_nil, or_false] at hkey
  rcases hkey with rfl | rfl | rfl | rfl | rfl | rfl <;> rfl

def JobStatus.unsuccessful : JobStatus → Bool
  | .failed | .timedOut | .cancelled => true
  | _ => false

theorem JobStatus.terminal_of_unsuccessful {status : JobStatus}
    (h : status.unsuccessful = true) : status.terminal = true := by
  cases status <;> first | rfl | cases h

theorem lifecycleCounts_unsuccessful (rows : List JobRecord) :
    (lifecycleCounts rows).get "failed" + (lifecycleCounts rows).get "timed_out" +
      (lifecycleCounts rows).get "cancelled" = rows.countP fun row => row.status.unsuccessful := by
  have hsum := @sum_countP_keys ["failed", "timed_out", "cancelled"]
    JobStatus.unsuccessful (fun status => by cases status <;> decide) rows
  simp only [List.map_cons, List.map_nil, List.sum_cons, List.sum_nil, Nat.add_zero] at hsum
  rw [← hsum, ← Nat.add_assoc]
  rfl

theorem sum_map_ite {α : Type*} (p : α → Bool) (as : List α) :
    (as.map fun a => if p a then 1 else 0).sum = as.countP p := by
  induction as with
  | nil => rfl
  | cons a as ih => rw [List.map_cons, List.sum_cons, ih, List.countP_cons, Nat.add_comm]

theorem exists_mapM_ok {ε α β : Type} {f : α → Except ε β} {as : List α}
    (h : ∀ a ∈ as, ∃ b, f a = .ok b) : ∃ bs, as.mapM f = .ok bs := by
  induction as with
  | nil => exact ⟨[], rfl⟩
  | cons a as ih =>
    rw [List.forall_mem_cons] at h
    obtain ⟨b, hb⟩ := h.1
    obtain ⟨bs, hbs⟩ := ih h.2
    exact ⟨b :: bs, by rw [List.mapM_cons, hb, hbs]; rfl⟩

/-- The report counts the event in its failure classification. -/
def classified (e : JobEvent) : Bool := (failureClass e).isSome

theorem unsuccessful_eq (e : JobEvent) : e.eventType.status.unsuccessful =
    (classified e || decide (e.eventType = .budgetBlocked)) := by
  unfold classified failureClass
  cases htype : e.eventType <;> simp [EventType.status, JobStatus.unsuccessful]
  cases e.eventData.retryable with
  | none => rfl
  | some b => cases b <;> rfl

theorem failureClassification_total (es : List JobEvent) :
    ((es.filterMap failureClass).foldl Counts.bump []).total = es.countP classified := by
  rw [Counts.total_foldl_bump, List.length_filterMap_eq_countP]
  exact Nat.zero_add _

namespace JobHistory
variable {v : JobHistory} {row : JobRecord}

theorem Lawful.terminalEvents_eq (hv : v.Lawful) (hrow : v.row = some row)
    (hterminal : row.status.terminal = true) :
    ∃ e, terminalEvents v.events = [e] ∧ e.eventType.status = row.status := by
  obtain ⟨e, he, hstatus⟩ := exists_of_replay (hv.status row hrow)
  have hmem : e ∈ terminalEvents v.events := List.mem_filter.mpr ⟨he, hstatus ▸ hterminal⟩
  obtain ⟨f, hf⟩ := Option.isSome_iff_exists.mp (hv.settled row hrow hterminal)
  have htypes := hv.terminal
  rw [hf, Option.map_some, Option.toList_some] at htypes
  obtain ⟨e', he', -⟩ := List.map_eq_singleton_iff.mp htypes
  rw [he'] at hmem
  obtain rfl := List.mem_singleton.mp hmem
  exact ⟨e, he', hstatus⟩

theorem countP_terminalEvents (es : List JobEvent) {p : JobEvent → Bool}
    (hp : ∀ e, p e = true → e.eventType.status.terminal = true) :
    es.countP p = (terminalEvents es).countP p := by
  rw [terminalEvents, List.countP_filter]
  refine List.countP_congr fun e _ => ?_
  simp only [Bool.and_eq_true]
  exact ⟨fun h => ⟨h, hp e h⟩, And.left⟩

theorem Lawful.terminalEvents_cases (hv : v.Lawful) :
    terminalEvents v.events = [] ∨ ∃ e, terminalEvents v.events = [e] := by
  have htypes := hv.terminal
  cases hf : v.finalization with
  | none =>
    rw [hf] at htypes
    exact .inl (List.map_eq_nil_iff.mp htypes)
  | some f =>
    rw [hf] at htypes
    obtain ⟨e, he, -⟩ := List.map_eq_singleton_iff.mp htypes
    exact .inr ⟨e, he⟩

/-- A budget block ended the job, and it stands so. -/
def blocked (v : JobHistory) (row : JobRecord) : Bool :=
  row.status.unsuccessful && v.events.any fun e => e.eventType = .budgetBlocked

/-- The job stands open after an event that the report classifies. -/
def reopened (v : JobHistory) (row : JobRecord) : Bool :=
  !row.status.terminal && v.events.any classified

/-- The classified events of a job: one if it ended unsuccessfully, unless a budget block ended it,
and one if it was reopened after such an event. -/
theorem Lawful.countP_classified (hv : v.Lawful) (hrow : v.row = some row) :
    v.events.countP classified + (if v.blocked row then 1 else 0) =
      (if row.status.unsuccessful then 1 else 0) + if v.reopened row then 1 else 0 := by
  have hclassified : ∀ e, classified e = true → e.eventType.status.terminal = true := by
    intro e he
    cases htype : e.eventType <;> first | rfl | simp [classified, failureClass, htype] at he
  have hblocked : ∀ e : JobEvent, decide (e.eventType = .budgetBlocked) = true →
      e.eventType.status.terminal = true := by
    intro e he
    rw [of_decide_eq_true he]
    rfl
  have hany : ∀ p : JobEvent → Bool, (∀ e, p e = true → e.eventType.status.terminal = true) →
      v.events.any p = (terminalEvents v.events).any p := by
    intro p hp
    rw [Bool.eq_iff_iff, List.any_eq_true, List.any_eq_true]
    refine exists_congr fun e => ?_
    rw [terminalEvents, List.mem_filter]
    exact ⟨fun h => ⟨⟨h.1, hp e h.2⟩, h.2⟩, fun h => ⟨h.1.1, h.2⟩⟩
  unfold blocked reopened
  rw [countP_terminalEvents _ hclassified, hany _ hclassified, hany _ hblocked]
  cases hterminal : row.status.terminal with
  | true =>
    obtain ⟨e, he, hstatus⟩ := hv.terminalEvents_eq hrow hterminal
    have hsplit := unsuccessful_eq e
    rw [hstatus] at hsplit
    rw [he, hsplit]
    by_cases hblock : e.eventType = .budgetBlocked
    · simp [hblock, classified, failureClass]
    · simp [hblock]
  | false =>
    have hopen : row.status.unsuccessful = false := by
      cases hs : row.status <;> first | rfl | simp [hs, JobStatus.terminal] at hterminal
    rw [hopen]
    rcases hv.terminalEvents_cases with hes | ⟨e, hes⟩
    · simp [hes]
    · simp [hes]

end JobHistory

theorem failureClassification_of_build {env : ReportEnv} {files : FileStore} {db : Database}
    {runId : RunId} {name : PyStr} {measured : Measurements} {report : ReliabilityReport}
    (h : buildSmokeReport env files db runId name measured = .ok report) :
    report.failureClassification =
      ((db.eventsByJob runId).flatten.filterMap failureClass).foldl Counts.bump [] := by
  unfold buildSmokeReport at h
  cases hrss : (db.eventsByJob runId).flatten.mapM (artifactRows env files) with
  | error c => simp [hrss, bind, Except.bind] at h
  | ok rss =>
    simp only [hrss, bind, Except.bind, pure, Except.pure, Except.ok.injEq] at h
    rw [← h]

namespace Database

theorem nodup_jobsOfRun (db : Database) (runId : RunId) :
    ((db.jobsOfRun runId).map JobRecord.id).Nodup :=
  db.jobs.nodup.sublist (List.filter_sublist.map _)

theorem loadJob_of_mem_jobsOfRun {db : Database} {runId : RunId} {row : JobRecord}
    (h : row ∈ db.jobsOfRun runId) : db.loadJob row.id = some row :=
  KeyedTable.get?_eq_some_iff.mpr ⟨(List.mem_filter.mp h).1, rfl⟩

theorem mem_jobsOfRun_ids {db : Database} {runId : RunId} {j : JobId} :
    j ∈ (db.jobsOfRun runId).map JobRecord.id ↔ db.runOf j = some runId := by
  rw [List.mem_map]
  constructor
  · rintro ⟨row, hrow, rfl⟩
    exact Option.map_eq_some_iff.mpr
      ⟨row, loadJob_of_mem_jobsOfRun hrow, of_decide_eq_true (List.mem_filter.mp hrow).2⟩
  · intro hj
    obtain ⟨row, hrow, hrun⟩ := Option.map_eq_some_iff.mp hj
    obtain ⟨hmem, hid⟩ := KeyedTable.get?_eq_some_iff.mp hrow
    exact ⟨row, List.mem_filter.mpr ⟨hmem, decide_eq_true hrun⟩, hid⟩

end Database

namespace Deployment
variable {cfg : Deployment} {s : State}

theorem countP_eventsByJob (hs : cfg.lts.Reachable Lts.anyStep s) (runId : RunId)
    (p : JobEvent → Bool) : (s.shared.db.eventsByJob runId).flatten.countP p =
      ((s.shared.db.jobsOfRun runId).map fun row =>
        (s.shared.db.eventsOf row.id).countP p).sum := by
  obtain ⟨ids, hnodup, hids, hgroups⟩ := eventsByJob_eq hs runId
  have hperm : ids.Perm ((s.shared.db.jobsOfRun runId).map JobRecord.id) :=
    (List.perm_ext_iff_of_nodup hnodup (s.shared.db.nodup_jobsOfRun runId)).mpr fun j => by
      rw [hids, Database.mem_jobsOfRun_ids]
  rw [hgroups, List.countP_flatten, List.map_map, (hperm.map _).sum_eq, List.map_map]
  rfl

/-- The classified events of a run and its jobs ended by a budget block are as many as its
unsuccessful jobs and its jobs reopened after a classified event. -/
theorem classified_add_blocked (hs : cfg.lts.Reachable Lts.anyStep s) (runId : RunId) :
    (s.shared.db.eventsByJob runId).flatten.countP classified +
        (s.shared.db.jobsOfRun runId).countP (fun row => (s.shared.db.history row.id).blocked row) =
      (s.shared.db.jobsOfRun runId).countP (fun row => row.status.unsuccessful) +
        (s.shared.db.jobsOfRun runId).countP
          fun row => (s.shared.db.history row.id).reopened row := by
  have hone : ∀ row ∈ s.shared.db.jobsOfRun runId, _ := fun row hrow =>
    (history_lawful hs row.id).countP_classified (Database.loadJob_of_mem_jobsOfRun hrow)
  rw [countP_eventsByJob hs, ← sum_map_ite, ← sum_map_ite, ← sum_map_ite, ← List.sum_map_add,
    ← List.sum_map_add]
  exact congrArg List.sum (List.map_congr_left hone)

/-- Every unsuccessful job of the run is classified once, and no event of another job is, exactly
when no job of the run stands blocked by the budget and none reopened. -/
theorem classifiedOnce_iff (hs : cfg.lts.Reachable Lts.anyStep s) (runId : RunId) :
    ((s.shared.db.eventsByJob runId).flatten.countP classified =
        (s.shared.db.jobsOfRun runId).countP (fun row => row.status.unsuccessful) ∧
      ∀ row ∈ s.shared.db.jobsOfRun runId, row.status.unsuccessful = true →
        (s.shared.db.eventsOf row.id).countP classified = 1) ↔
    ∀ row ∈ s.shared.db.jobsOfRun runId, (s.shared.db.history row.id).blocked row = false ∧
      (s.shared.db.history row.id).reopened row = false := by
  have hsum := classified_add_blocked hs runId
  have hone : ∀ row ∈ s.shared.db.jobsOfRun runId, _ := fun row hrow =>
    (history_lawful hs row.id).countP_classified (Database.loadJob_of_mem_jobsOfRun hrow)
  constructor
  · rintro ⟨htotal, honce⟩
    have hblocked : ∀ row ∈ s.shared.db.jobsOfRun runId,
        (s.shared.db.history row.id).blocked row = false := by
      intro row hrow
      cases hfailed : row.status.unsuccessful with
      | false => simp only [JobHistory.blocked, hfailed, Bool.false_and]
      | true =>
        have hclosed : (s.shared.db.history row.id).reopened row = false := by
          rw [JobHistory.reopened, JobStatus.terminal_of_unsuccessful hfailed]
          rfl
        have hevents : (s.shared.db.history row.id).events.countP classified = 1 :=
          honce row hrow hfailed
        have hrow := hone row hrow
        rw [hevents, hfailed, hclosed] at hrow
        by_contra hblock
        rw [Bool.not_eq_false] at hblock
        simp [hblock] at hrow
    have hnone : (s.shared.db.jobsOfRun runId).countP
        (fun row => (s.shared.db.history row.id).blocked row) = 0 :=
      List.countP_eq_zero.mpr fun row hrow => by simp [hblocked row hrow]
    have hopen := List.countP_eq_zero.mp (show (s.shared.db.jobsOfRun runId).countP
      (fun row => (s.shared.db.history row.id).reopened row) = 0 by omega)
    exact fun row hrow => ⟨hblocked row hrow, Bool.not_eq_true _ ▸ hopen row hrow⟩
  · intro h
    constructor
    · have hnone : (s.shared.db.jobsOfRun runId).countP
          (fun row => (s.shared.db.history row.id).blocked row) = 0 :=
        List.countP_eq_zero.mpr fun row hrow => by simp [(h row hrow).1]
      have hopen : (s.shared.db.jobsOfRun runId).countP
          (fun row => (s.shared.db.history row.id).reopened row) = 0 :=
        List.countP_eq_zero.mpr fun row hrow => by simp [(h row hrow).2]
      omega
    · intro row hrow hfailed
      have heq := hone row hrow
      rw [(h row hrow).1, (h row hrow).2, hfailed] at heq
      exact heq

/-- A report of a run counts each job of the run under the key of its status, as the status
command does. Its classes sum to the unsuccessful jobs, each of them classified once, exactly when
no job of the run stands ended by a budget block and none stands reopened after a classified
event. -/
theorem report_classifies_iff {env : ReportEnv} {files : FileStore} {runId : RunId} {name : PyStr}
    {measured : Measurements} {report : ReliabilityReport}
    (hs : cfg.lts.Reachable Lts.anyStep s)
    (hbuild : buildSmokeReport env files s.shared.db runId name measured = .ok report) :
    (statusKeys.map report.lifecycleCounts.get).sum = report.submittedJobs ∧
    (∀ key ∈ statusKeys, report.lifecycleCounts.get key =
      (s.shared.db.lifecycleCounts runId).get key) ∧
    ((report.failureClassification.total = report.lifecycleCounts.get "failed" +
        report.lifecycleCounts.get "timed_out" + report.lifecycleCounts.get "cancelled" ∧
      ∀ row ∈ s.shared.db.jobsOfRun runId, row.status.unsuccessful = true →
        (s.shared.db.eventsOf row.id).countP classified = 1) ↔
      ∀ row ∈ s.shared.db.jobsOfRun runId, (s.shared.db.history row.id).blocked row = false ∧
        (s.shared.db.history row.id).reopened row = false) := by
  obtain ⟨hsubmitted, hcounts, -⟩ := buildSmokeReport_eq_ok hbuild
  have hclassified := failureClassification_of_build hbuild
  rw [hsubmitted, hcounts, hclassified, failureClassification_total, lifecycleCounts_unsuccessful]
  exact ⟨sum_lifecycleCounts _, fun key hkey => (get_lifecycleCounts _ _ hkey).symm,
    classifiedOnce_iff hs runId⟩

/-- A worker that fails the job at its first attempt. -/
def failedRun : List (ℕ × Action) :=
  [(0, .createJob stubSubmission), (0, .publishJob 1 1), (1, .processOne), (1, .advance ""),
    (1, .run [] .timedOut), (1, .advance "")]

private def buildsReport (env : ReportEnv) (p : Database → ReliabilityReport → Bool) (s : State) :
    Bool :=
  match buildSmokeReport env s.shared.files s.shared.db 2 (py "artifacts")
    ⟨.finite 0, .finite 0, none⟩ with
  | .ok report => p s.shared.db report
  | .error _ => false

private theorem build_of_buildsReport {env : ReportEnv} {p : Database → ReliabilityReport → Bool}
    (h : buildsReport env p s = true) : ∃ report,
    buildSmokeReport env s.shared.files s.shared.db 2 (py "artifacts")
      ⟨.finite 0, .finite 0, none⟩ = .ok report ∧ p s.shared.db report = true := by
  unfold buildsReport at h
  split at h
  next report hreport => exact ⟨report, hreport, h⟩
  next => cases h

/-- The end of a job that ran out of time is classified. -/
theorem report_classifies_iff_timedOut : ∃ (s : State) (report : ReliabilityReport),
    stubDeployment.lts.Reachable Lts.anyStep s ∧ report.lifecycleCounts.get "timed_out" = 1 ∧
    report.failureClassification.total = report.lifecycleCounts.get "failed" +
      report.lifecycleCounts.get "timed_out" + report.lifecycleCounts.get "cancelled" := by
  obtain ⟨s, hs, hp⟩ := Lts.exists_reachable_of_exec stubDeployment.lts failedRun
    (buildsReport reportEnv fun db (report : ReliabilityReport) =>
      report.lifecycleCounts.get "timed_out" = 1 &&
      decide (∀ row ∈ db.jobsOfRun 2, (db.history row.id).blocked row = false ∧
        (db.history row.id).reopened row = false)) (by decide +kernel)
  obtain ⟨report, hbuild, hp⟩ := build_of_buildsReport hp
  obtain ⟨htimedOut, hcondition⟩ := Bool.and_eq_true_iff.mp hp
  exact ⟨s, report, hs, of_decide_eq_true htimedOut,
    ((report_classifies_iff hs hbuild).2.2.mpr (of_decide_eq_true hcondition)).1⟩

/-- A live job without a budget, which the dispatch gate blocks. -/
def blockedRun : List (ℕ × Action) :=
  [(0, .createJob stubSubmission), (0, .publishJob 1 1), (1, .processOne), (1, .advance ""),
    (1, .advance ""), (1, .advance "")]

/-- The failed job is in no class. -/
theorem report_misses_budget_block : ¬ ∀ s, liveDeployment.lts.Reachable Lts.anyStep s →
    ∀ report, buildSmokeReport reportEnv s.shared.files s.shared.db 2 (py "artifacts")
      ⟨.finite 0, .finite 0, none⟩ = .ok report →
    report.failureClassification.total = report.lifecycleCounts.get "failed" +
      report.lifecycleCounts.get "timed_out" + report.lifecycleCounts.get "cancelled" := by
  intro claim
  obtain ⟨s, hs, hp⟩ := Lts.exists_reachable_of_exec liveDeployment.lts blockedRun
    (buildsReport reportEnv fun _ (report : ReliabilityReport) =>
      report.failureClassification.total ≠
      report.lifecycleCounts.get "failed" + report.lifecycleCounts.get "timed_out" +
        report.lifecycleCounts.get "cancelled") (by decide +kernel)
  obtain ⟨report, hbuild, hp⟩ := build_of_buildsReport hp
  exact of_decide_eq_true hp (claim s hs report hbuild)

end Deployment
end AgentRuntimeGrid
