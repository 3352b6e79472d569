import OpenCollabEval.Evaluation.Reconciliation

/-!
# What a reconciliation selects

When the reconciliation returns, a bound index is represented by the newest admitted report with a
verdict, if there is one, and only execution evidence of the same candidate and projection is selected
beside it. The order in which the reports are enumerated does not matter.
-/

open Python

namespace OpenCollabEval

section Tables

variable (env : Env) (query : ReconciliationQuery)

/-- The tables hold the best reports by index among those that were admitted. -/
structure TablesHold (tables : ReconciliationTables) : Prop where
  any : IsBest (·.index) (·.score) tables.accepted tables.any
  verdict : IsBest (·.index) (·.score) (tables.accepted.filter (countsAsVerdict env query))
    tables.verdict

variable {env query} {tables : ReconciliationTables} {report : ReadReport}

theorem tablesHold_empty : TablesHold env query .empty := ⟨isBest_nil, isBest_nil⟩

theorem TablesHold.add (h : TablesHold env query tables) (report : ReadReport) :
    TablesHold env query (tables.add env query report) := by
  refine ⟨h.any.keep report, ?_⟩
  simp only [ReconciliationTables.add, List.filter_append, List.filter_singleton]
  split
  · rename_i hcounts
    simpa [hcounts] using h.verdict.keep report
  · rename_i hcounts
    simpa [hcounts] using h.verdict

/-- The report that stands for an index of an admitted report. -/
theorem TablesHold.canonical_mem (h : TablesHold env query tables) {index : Int} {best : ReadReport}
    (hbest : tables.canonical index = some best) : best ∈ tables.accepted ∧ best.index = index := by
  rcases Option.or_eq_some_iff.mp hbest with hverdict | ⟨-, hany⟩
  · obtain ⟨hmem, hindex⟩ := h.verdict.mem index best hverdict
    exact ⟨(List.mem_filter.mp hmem).1, hindex⟩
  · exact h.any.mem index best hany

theorem TablesHold.exists_canonical (h : TablesHold env query tables)
    (hreport : report ∈ tables.accepted) : ∃ best, tables.canonical report.index = some best := by
  obtain ⟨best, -, hany, -⟩ := h.any.exists_best hreport
  cases hverdict : tables.verdict report.index with
  | some verdict => exact ⟨verdict, by simp [ReconciliationTables.canonical, hverdict]⟩
  | none => exact ⟨best, by simp [ReconciliationTables.canonical, hverdict, hany]⟩

/-- The newest report that counts as a verdict stands for its index. -/
theorem TablesHold.canonical_verdict (h : TablesHold env query tables)
    (hreport : report ∈ tables.accepted) (hcounts : countsAsVerdict env query report = true) :
    ∃ best ∈ tables.accepted, tables.canonical report.index = some best ∧
      best.index = report.index ∧ countsAsVerdict env query best = true ∧
      ∀ other ∈ tables.accepted, other.index = report.index →
        countsAsVerdict env query other = true → other.score ≤ best.score := by
  obtain ⟨best, hmem, hverdict, hindex, hle⟩ :=
    h.verdict.exists_best (List.mem_filter.mpr ⟨hreport, hcounts⟩)
  obtain ⟨hmem, hbest⟩ := List.mem_filter.mp hmem
  exact ⟨best, hmem, by simp [ReconciliationTables.canonical, hverdict], hindex, hbest,
    fun other hother hsame hother' => hle other (List.mem_filter.mpr ⟨hother, hother'⟩) hsame⟩

/-- A selected path is one of execution evidence, or of a report that stands for an index. -/
theorem mem_selected_iff {path : Str} :
    path ∈ tables.selected env query ↔
      (∃ report ∈ tables.accepted, isEvidence env query tables report = true ∧ report.path = path) ∨
      ∃ report ∈ tables.accepted, ∃ best, tables.canonical report.index = some best ∧
        best.path = path := by
  simp only [ReconciliationTables.selected, Finset.mem_sort, List.mem_toFinset, List.mem_append,
    List.mem_map, List.mem_filter, List.mem_filterMap]
  constructor
  · rintro (⟨report, ⟨hreport, hevidence⟩, hpath⟩ | ⟨best, ⟨report, hreport, hbest⟩, hpath⟩)
    · exact .inl ⟨report, hreport, hevidence, hpath⟩
    · exact .inr ⟨report, hreport, best, hbest, hpath⟩
  · rintro (⟨report, hreport, hevidence, hpath⟩ | ⟨report, hreport, best, hbest, hpath⟩)
    · exact .inl ⟨report, ⟨hreport, hevidence⟩, hpath⟩
    · exact .inr ⟨best, ⟨report, hreport, hbest⟩, hpath⟩

/-- What is selected depends on the admitted reports and on which of them stand for their indices. -/
theorem selected_congr {tables' : ReconciliationTables}
    (haccepted : ∀ report, report ∈ tables.accepted ↔ report ∈ tables'.accepted)
    (hany : tables.any = tables'.any) (hverdict : tables.verdict = tables'.verdict) :
    tables.selected env query = tables'.selected env query := by
  have hcanonical : tables.canonical = tables'.canonical := by
    funext index
    rw [ReconciliationTables.canonical, ReconciliationTables.canonical, hany, hverdict]
  have hevidence : isEvidence env query tables = isEvidence env query tables' := by
    funext report
    rw [isEvidence, isEvidence, hcanonical]
  have hset : ∀ path, path ∈ tables.selected env query ↔ path ∈ tables'.selected env query := by
    intro path
    simp only [mem_selected_iff, haccepted, hcanonical, hevidence]
  simp only [ReconciliationTables.selected, Finset.mem_sort] at hset ⊢
  rw [Finset.ext hset]

end Tables

section Reading

variable {env : Env} {host : ReportHost} {query : ReconciliationQuery} {report report' : ReadReport}
  {path candidate : Str} {tables : ReconciliationTables}

theorem path_of_readReport (h : readReport env host path = .ok report) : report.path = path := by
  unfold readReport at h
  split at h
  · simp only at h
    split at h
    · cases h
    · split at h
      · cases h; rfl
      · cases h
    · cases h
  · cases h
  · cases h

/-- A report is read where it was looked for, not passed over, and of the candidate that its index is
bound to. -/
structure Admitted (env : Env) (host : ReportHost) (query : ReconciliationQuery)
    (report : ReadReport) : Prop where
  read : readReport env host report.path = .ok report
  kept : report.path ≠ query.current host →
    report.path ∉ query.ignored host ∧ host.quarantined report.path = false
  bound : ∀ expected, query.bound env report.index = some expected →
    ∃ observed, report.observed = some observed ∧ observed.source = expected.source

theorem admitted_of_admitReport (h : admitReport env host query candidate = .ok (some report)) :
    Admitted env host query report ∧ report.path = absolutePath host.cwd candidate := by
  unfold admitReport at h
  simp only at h
  split at h
  · cases h
  · rename_i hkept
    obtain ⟨read, hread, h⟩ := bind_eq_ok_iff.mp h
    have hpath := path_of_readReport hread
    have hreport : read = report ∧ ∀ expected, query.bound env read.index = some expected →
        read.observed.any (candidateIdentityMatches · expected) = true := by
      split at h
      · rename_i expected hbound
        split at h
        · rename_i hmatches
          cases h
          exact ⟨rfl, fun other hother => by rw [hbound] at hother; cases hother; exact hmatches⟩
        · cases h
      · rename_i hbound
        cases h
        exact ⟨rfl, fun other hother => by rw [hbound] at hother; cases hother⟩
    obtain ⟨rfl, hmatches⟩ := hreport
    refine ⟨⟨hpath ▸ hread, fun hcurrent => ?_, fun expected hbound => ?_⟩, hpath⟩
    · rw [hpath] at hcurrent ⊢
      simp only [Bool.and_eq_true, bne_iff_ne, ne_eq, Bool.or_eq_true, List.contains_iff_mem,
        not_and, not_or, Bool.not_eq_true] at hkept
      exact hkept hcurrent
    · obtain ⟨observed, hobserved, hsource⟩ := (Option.any_eq_true _ _).mp (hmatches expected hbound)
      exact ⟨observed, hobserved, eq_of_beq hsource⟩

/-- Two admitted reports with one score are one report. -/
theorem Admitted.eq_of_score (h : Admitted env host query report) (h' : Admitted env host query report')
    (hscore : report.score = report'.score) : report = report' := by
  have hpath : report.path = report'.path := congrArg (fun s => (ofLex s).2) hscore
  have hread := h.read
  rw [hpath, h'.read] at hread
  cases hread
  rfl

/-- The loop takes up exactly the reports that are admitted at the paths it goes through. -/
theorem accepted_of_foldlM {candidates : List Str} {tables tables' : ReconciliationTables}
    (h : candidates.foldlM (considerReport env host query) tables = .ok tables')
    (hholds : TablesHold env query tables) :
    TablesHold env query tables' ∧ ∀ report, report ∈ tables'.accepted ↔
      report ∈ tables.accepted ∨
        ∃ candidate ∈ candidates, admitReport env host query candidate = .ok (some report) := by
  induction candidates generalizing tables with
  | nil =>
    cases h
    exact ⟨hholds, fun report => by simp⟩
  | cons candidate candidates ih =>
    rw [List.foldlM_cons] at h
    obtain ⟨next, hnext, hrest⟩ := bind_eq_ok_iff.mp h
    obtain ⟨admitted, hadmitted, hnext⟩ := bind_eq_ok_iff.mp hnext
    cases hnext
    have hnext : TablesHold env query (admitted.elim tables (tables.add env query)) := by
      cases admitted with
      | none => exact hholds
      | some report => exact hholds.add report
    obtain ⟨hholds', hmem⟩ := ih hrest hnext
    refine ⟨hholds', fun report => ?_⟩
    rw [hmem report]
    simp only [List.mem_cons, exists_eq_or_imp, hadmitted, Except.ok.injEq]
    cases admitted with
    | none => simp
    | some other =>
      simp only [Option.elim_some, ReconciliationTables.add, List.mem_append, List.mem_singleton,
        Option.some.injEq, or_assoc, eq_comm]

/-- The loop returns if every path can be looked at. -/
theorem returns_foldlM_iff {candidates : List Str} {tables : ReconciliationTables} :
    Returns (candidates.foldlM (considerReport env host query) tables) ↔
      ∀ candidate ∈ candidates, Returns (admitReport env host query candidate) := by
  induction candidates generalizing tables with
  | nil => simp [Returns, pure_eq_ok]
  | cons candidate candidates ih =>
    rw [List.foldlM_cons, returns_bind_iff]
    constructor
    · rintro ⟨next, hnext, hrest⟩ other hother
      rcases List.mem_cons.mp hother with rfl | hother
      · obtain ⟨admitted, hadmitted, -⟩ := bind_eq_ok_iff.mp hnext
        exact ⟨admitted, hadmitted⟩
      · exact ih.mp hrest other hother
    · intro hall
      obtain ⟨admitted, hadmitted⟩ := hall candidate List.mem_cons_self
      refine ⟨_, by rw [considerReport, hadmitted]; rfl, ih.mpr fun other hother =>
        hall other (List.mem_cons_of_mem _ hother)⟩

end Reading

section Claim

variable (env : Env) (host : ReportHost) (query : ReconciliationQuery)

/-- A report is admitted at one of the paths that the reconciliation looks at. -/
def LookedAt (report : ReadReport) : Prop :=
  ∃ candidates, candidateReports host query = .ok candidates ∧
    ∃ candidate ∈ candidates, admitReport env host query candidate = .ok (some report)

/-- A report represents an index: it is selected, it is the newest verdict if there is one, and other
reports of the index are selected only for having executed evaluations of the same candidate and
projection. -/
structure RepresentsIndex (selected : List Str) (index : Int) (best : ReadReport) : Prop where
  lookedAt : LookedAt env host query best
  index_eq : best.index = index
  isSelected : best.path ∈ selected
  verdict : ∀ report, LookedAt env host query report → report.index = index →
    report.verdict = true → best.verdict = true ∧ report.score ≤ best.score
  evidence : ∀ report, LookedAt env host query report → report.index = index →
    report.path ∈ selected → report = best ∨
      report.executed = true ∧ report.observed = best.observed ∧ report.projection = best.projection

/-- What a selection keeps: the candidates and the verdicts of the bound indices. -/
structure KeepsVerdicts (selected : List Str) : Prop where
  admitted : ∀ path ∈ selected, ∃ report, LookedAt env host query report ∧ report.path = path
  candidate : ∀ report, LookedAt env host query report → report.path ∈ selected →
    ∀ expected, query.bound env report.index = some expected →
      ∃ observed, report.observed = some observed ∧ observed.source = expected.source
  represented : ∀ report expected, LookedAt env host query report →
    query.bound env report.index = some expected →
      ∃ best, RepresentsIndex env host query selected report.index best
  kept : ∀ path ∈ selected, path ≠ query.current host →
    path ∉ query.ignored host ∧ host.quarantined path = false

variable {env host query} {report : ReadReport} {tables : ReconciliationTables} {selected : List Str}

theorem LookedAt.admitted (h : LookedAt env host query report) : Admitted env host query report := by
  obtain ⟨-, -, candidate, -, hadmit⟩ := h
  exact (admitted_of_admitReport hadmit).1

/-- Reports at one path are one report. -/
theorem LookedAt.eq_of_path {other : ReadReport} (h : LookedAt env host query report)
    (hother : LookedAt env host query other) (hpath : report.path = other.path) : report = other := by
  have hread := h.admitted.read
  rw [hpath, hother.admitted.read] at hread
  cases hread
  rfl

/-- The report that stands for a bound index represents it. -/
theorem TablesHold.representsIndex (h : TablesHold env query tables)
    (haccepted : ∀ report, report ∈ tables.accepted ↔ LookedAt env host query report)
    (hreport : LookedAt env host query report) {expected : CandidateIdentity}
    (hbound : query.bound env report.index = some expected) :
    ∃ best, RepresentsIndex env host query (tables.selected env query) report.index best := by
  have hmem := (haccepted report).mpr hreport
  obtain ⟨best, hbest⟩ := h.exists_canonical hmem
  obtain ⟨hbestMem, hbestIndex⟩ := h.canonical_mem hbest
  refine ⟨best, (haccepted best).mp hbestMem, hbestIndex, ?_, ?_, ?_⟩
  · exact mem_selected_iff.mpr (.inr ⟨report, hmem, best, hbest, rfl⟩)
  · intro other hother hindex hverdict
    have hcounts : countsAsVerdict env query other = true := by simp [countsAsVerdict, hverdict]
    obtain ⟨newest, -, hnewest, -, hnewestCounts, hle⟩ :=
      h.canonical_verdict ((haccepted other).mpr hother) hcounts
    rw [hindex, hbest] at hnewest
    cases hnewest
    refine ⟨?_, hle other ((haccepted other).mpr hother) rfl hcounts⟩
    simpa [countsAsVerdict, hbestIndex, hbound] using hnewestCounts
  · intro other hother hindex hselected
    rcases mem_selected_iff.mp hselected with ⟨found, hfound, hevidence, hpath⟩ |
      ⟨found, hfound, standing, hstanding, hpath⟩
    · cases ((haccepted found).mp hfound).eq_of_path hother hpath
      simp only [isEvidence, hindex, hbound, hbest, Option.any_some, Option.isNone_some,
        Bool.false_or, Bool.and_eq_true, beq_iff_eq] at hevidence
      obtain ⟨hexecuted, ⟨-, hobserved⟩, hprojection⟩ := hevidence
      exact .inr ⟨hexecuted, hobserved, hprojection⟩
    · obtain ⟨hstandingMem, hstandingIndex⟩ := h.canonical_mem hstanding
      cases ((haccepted standing).mp hstandingMem).eq_of_path hother hpath
      rw [← hstandingIndex, hindex, hbest] at hstanding
      cases hstanding
      exact .inl rfl

/-- The tables of a reconciliation that returns. -/
theorem exists_tables {enumerate : List Str → List Str}
    (henumerate : ∀ paths path, path ∈ enumerate paths ↔ path ∈ paths)
    (h : evalOnlyReconciliationReports env host query enumerate = .ok selected) :
    ∃ tables, TablesHold env query tables ∧ tables.selected env query = selected ∧
      ∀ report, report ∈ tables.accepted ↔ LookedAt env host query report := by
  obtain ⟨candidates, hcandidates, h⟩ := bind_eq_ok_iff.mp h
  obtain ⟨tables, htables, h⟩ := bind_eq_ok_iff.mp h
  obtain ⟨hholds, hmem⟩ := accepted_of_foldlM htables tablesHold_empty
  refine ⟨tables, hholds, by cases h; rfl, fun report => ?_⟩
  rw [hmem report]
  constructor
  · rintro (hempty | ⟨candidate, hcandidate, hadmit⟩)
    · simp [ReconciliationTables.empty] at hempty
    · exact ⟨candidates, hcandidates, candidate, (henumerate _ _).mp hcandidate, hadmit⟩
  · rintro ⟨others, hothers, candidate, hcandidate, hadmit⟩
    rw [hcandidates] at hothers
    cases hothers
    exact .inr ⟨candidate, (henumerate _ _).mpr hcandidate, hadmit⟩

/-- Another enumeration of the reports selects the same. -/
theorem reconciliation_eq_of_enumerate {enumerate enumerate' : List Str → List Str}
    (henumerate : ∀ paths path, path ∈ enumerate paths ↔ path ∈ paths)
    (henumerate' : ∀ paths path, path ∈ enumerate' paths ↔ path ∈ paths)
    (h : evalOnlyReconciliationReports env host query enumerate = .ok selected) :
    evalOnlyReconciliationReports env host query enumerate' = .ok selected := by
  have hreturns : Returns (evalOnlyReconciliationReports env host query enumerate') := by
    obtain ⟨candidates, hcandidates, hrest⟩ := bind_eq_ok_iff.mp h
    obtain ⟨tables, htables, -⟩ := bind_eq_ok_iff.mp hrest
    have hall := returns_foldlM_iff.mp ⟨tables, htables⟩
    obtain ⟨tables', htables'⟩ := returns_foldlM_iff.mpr fun candidate hcandidate =>
      hall candidate ((henumerate _ _).mpr ((henumerate' _ _).mp hcandidate))
    exact ⟨tables'.selected env query, by
      rw [evalOnlyReconciliationReports, hcandidates, ok_bind, htables', ok_bind, pure_eq_ok]⟩
  obtain ⟨selected', h'⟩ := hreturns
  obtain ⟨tables, hholds, hselected, hmem⟩ := exists_tables henumerate h
  obtain ⟨tables', hholds', hselected', hmem'⟩ := exists_tables henumerate' h'
  have haccepted : ∀ report, report ∈ tables.accepted ↔ report ∈ tables'.accepted :=
    fun report => (hmem report).trans (hmem' report).symm
  have hscore : ∀ report ∈ tables.accepted, ∀ other ∈ tables.accepted,
      report.score = other.score → report = other := fun report hreport other hother hscore =>
    ((hmem report).mp hreport).admitted.eq_of_score ((hmem other).mp hother).admitted hscore
  have hany := hholds.any.unique hholds'.any haccepted hscore
  have hverdict := hholds.verdict.unique hholds'.verdict
    (fun report => by simp only [List.mem_filter, haccepted])
    (fun report hreport other hother => hscore report (List.mem_filter.mp hreport).1 other
      (List.mem_filter.mp hother).1)
  rw [h', ← hselected, ← hselected', selected_congr haccepted hany hverdict]

/-- A reconciliation that returns selects the right candidates, keeps the newest verdicts, and does not
depend on the order of the reports. -/
theorem reconciliation_keeps_verdicts (enumerate : List Str → List Str)
    (henumerate : ∀ paths path, path ∈ enumerate paths ↔ path ∈ paths)
    (h : evalOnlyReconciliationReports env host query enumerate = .ok selected) :
    KeepsVerdicts env host query selected ∧
      ∀ enumerate' : List Str → List Str, (∀ paths path, path ∈ enumerate' paths ↔ path ∈ paths) →
        evalOnlyReconciliationReports env host query enumerate' = .ok selected := by
  refine ⟨?_, fun enumerate' henumerate' => reconciliation_eq_of_enumerate henumerate henumerate' h⟩
  obtain ⟨tables, hholds, rfl, hmem⟩ := exists_tables henumerate h
  have hadmitted : ∀ path ∈ tables.selected env query,
      ∃ report, LookedAt env host query report ∧ report.path = path := by
    intro path hpath
    rcases mem_selected_iff.mp hpath with ⟨report, hreport, -, hpath⟩ |
      ⟨report, -, best, hbest, hpath⟩
    · exact ⟨report, (hmem report).mp hreport, hpath⟩
    · exact ⟨best, (hmem best).mp (hholds.canonical_mem hbest).1, hpath⟩
  refine ⟨hadmitted, fun report hreport _ => hreport.admitted.bound,
    fun report expected hreport => hholds.representsIndex hmem hreport, fun path hpath hcurrent => ?_⟩
  obtain ⟨report, hreport, rfl⟩ := hadmitted path hpath
  exact hreport.admitted.kept hcurrent

end Claim

/-- A report with one resolved row. -/
def resolvedReport : Obj := Obj.of
  [("rows", .list [.dict (Obj.of
    [("index", .int 1), ("task", .str (lit "task")),
      ("generation", .dict (Obj.of [("record_id", .str (lit "record")),
        ("patch_sha256", .str (Sha256.hexdigest (lit "diff")))])),
      ("eval", .dict (Obj.of [("status", .str (lit "eval_done")), ("attempt_count", .int 1),
        ("summary", .dict (Obj.of [("resolved", .bool true)]))]))])])]

/-- A parent directory with one eval-only report. -/
def oneReportHost : ReportHost where
  cwd := lit "/work"
  parent := lit "/parent"
  evalOnlyReports := [lit "/parent/task_1_eval_only_a.json"]
  lstat path := if path == lit "/parent/task_1_eval_only_a.json" then .found true 5 else .missing
  loadJson path :=
    if path == lit "/parent/task_1_eval_only_a.json" then some resolvedReport else none
  quarantined _ := false

/-- The queue binds the index of the report to its candidate. -/
def oneReportQuery : ReconciliationQuery where
  currentReport := lit "/parent/task_1_eval_only_a.json"
  ignoredPaths := []
  candidateIdentities := [(.int 1, .list [.str (lit "task"), .str (lit "record"),
    .str (Sha256.hexdigest (lit "diff")), .str (Sha256.hexdigest (lit "diff"))])]

/-- The one report of a directory is selected. -/
theorem reconciliation_keeps_verdicts_one_report :
    ∃ selected, evalOnlyReconciliationReports asciiEnv oneReportHost oneReportQuery id =
      .ok selected ∧ selected = [lit "/parent/task_1_eval_only_a.json"] ∧
      KeepsVerdicts asciiEnv oneReportHost oneReportQuery selected := by
  have hrun : (evalOnlyReconciliationReports asciiEnv oneReportHost oneReportQuery id).toOption.any
      (· == [lit "/parent/task_1_eval_only_a.json"]) = true := by decide +kernel
  obtain ⟨selected, h, hselected⟩ := exists_of_any_toOption hrun
  exact ⟨selected, h, eq_of_beq hselected,
    (reconciliation_keeps_verdicts id (fun _ _ => Iff.rfl) h).1⟩

end OpenCollabEval
