import OpenCollabEval.Queue.Plan

/-!
# Job keys

A job key is the start of a digest over the fields of a candidate, joined by zeros. A plan gives two
jobs one key exactly when their fields join alike: digests that differ in case only are the same here,
although the check for duplicates tells them apart, and a zero in a field moves its end.
-/

open Python

namespace OpenCollabEval

/-- The digests of different key texts among some jobs start differently. -/
def PrefixesDiffer (env : Env) (jobs : List Job) : Prop :=
  ∀ a ∈ jobs, ∀ b ∈ jobs, jobKey env a = jobKey env b →
    (jobKeyText a).encodeSurrogatePass = (jobKeyText b).encodeSurrogatePass

/-- Two jobs whose fields join alike: their tasks and records around a zero, and their digests up to
case. -/
structure JoinsAlike (a b : Job) : Prop where
  names : a.task ++ 0 :: a.recordId = b.task ++ 0 :: b.recordId
  source : lowerHex a.sourcePatchSha256 = lowerHex b.sourcePatchSha256
  eval : lowerHex a.evalPatchSha256 = lowerHex b.evalPatchSha256

/-- The digests of a job have the length of a digest. -/
structure FullDigests (job : Job) : Prop where
  source : job.sourcePatchSha256.length = 64
  eval : job.evalPatchSha256.length = 64

theorem jobKeyText_eq (job : Job) :
    jobKeyText job = (job.task ++ 0 :: job.recordId) ++
      0 :: (lowerHex job.sourcePatchSha256 ++ 0 :: lowerHex job.evalPatchSha256) := by
  simp [jobKeyText, jobIdentity, Str.join, List.intercalate, List.intersperse]

theorem length_lowerHex (s : Str) : (lowerHex s).length = s.length := by
  simp [lowerHex]

theorem jobKeyText_eq_iff {a b : Job} (ha : FullDigests a) (hb : FullDigests b) :
    jobKeyText a = jobKeyText b ↔ JoinsAlike a b := by
  rw [jobKeyText_eq, jobKeyText_eq]
  constructor
  · intro h
    obtain ⟨hnames, hdigests⟩ := List.append_inj' h (by
      simp [length_lowerHex, ha.source, ha.eval, hb.source, hb.eval])
    obtain ⟨hsource, heval⟩ := List.append_inj (List.cons.inj hdigests).2 (by
      simp [length_lowerHex, ha.source, hb.source])
    exact ⟨hnames, hsource, (List.cons.inj heval).2⟩
  · rintro ⟨hnames, hsource, heval⟩
    rw [hnames, hsource, heval]

theorem length_of_digestText {value : Json} {digest : Str} (h : digestText value = .ok digest) :
    digest.length = 64 := by
  unfold digestText at h
  obtain ⟨text, -, h⟩ := bind_eq_ok_iff.mp h
  obtain ⟨_, hdigest, h⟩ := bind_eq_ok_iff.mp h
  cases h
  rw [ensure_eq_ok_iff, isSha256, Bool.and_eq_true, beq_iff_eq] at hdigest
  exact hdigest.1

theorem fullDigests_of_readJob {host : QueueHost} {raw : Json} {job : Job}
    (h : readJob host raw = .ok job) : FullDigests job := by
  unfold readJob at h
  -- the digests are read last
  iterate 14 obtain ⟨_, -, h⟩ := bind_eq_ok_iff.mp h
  obtain ⟨source, hsource, h⟩ := bind_eq_ok_iff.mp h
  obtain ⟨eval, heval, h⟩ := bind_eq_ok_iff.mp h
  cases h
  exact ⟨length_of_digestText hsource, length_of_digestText heval⟩

theorem fullDigests_of_readJobs {host : QueueHost} {seen jobs : List Job} {items : List Json}
    (h : readJobs host seen items = .ok jobs) : ∀ job ∈ jobs, FullDigests job := by
  induction items generalizing seen jobs with
  | nil =>
    cases h
    simp
  | cons raw rest ih =>
    rw [readJobs] at h
    obtain ⟨job, hjob, h⟩ := bind_eq_ok_iff.mp h
    obtain ⟨_, -, h⟩ := bind_eq_ok_iff.mp h
    obtain ⟨_, -, h⟩ := bind_eq_ok_iff.mp h
    obtain ⟨others, hothers, h⟩ := bind_eq_ok_iff.mp h
    cases h
    have hfull := fullDigests_of_readJob hjob
    rw [List.forall_mem_cons]
    exact ⟨⟨(length_lowerHex _).trans hfull.source, (length_lowerHex _).trans hfull.eval⟩,
      ih hothers⟩

theorem fullDigests_of_readPlan {host : QueueHost} {value : Obj} {plan : QueuePlan}
    (h : readPlan host value = .ok plan) : ∀ job ∈ plan.jobs, FullDigests job := by
  unfold readPlan at h
  iterate 7 obtain ⟨_, -, h⟩ := bind_eq_ok_iff.mp h
  obtain ⟨jobs, hjobs, h⟩ := bind_eq_ok_iff.mp h
  cases h
  exact fullDigests_of_readJobs hjobs

/-- The jobs of a plan have distinct keys exactly when no two of them join alike. -/
theorem jobKeys_nodup_iff {env : Env} {host : QueueHost} {value : Obj} {plan : QueuePlan}
    (hread : readPlan host value = .ok plan) (hdiffer : PrefixesDiffer env plan.jobs) :
    (plan.jobs.map (jobKey env)).Nodup ↔ plan.jobs.Pairwise fun a b => ¬JoinsAlike a b := by
  have hfull := fullDigests_of_readPlan hread
  rw [List.Nodup, List.pairwise_map]
  refine List.Pairwise.iff_of_mem fun {a b} ha hb => not_congr ?_
  rw [← jobKeyText_eq_iff (hfull a ha) (hfull b hb)]
  constructor
  · intro hkey
    exact Str.encodeSurrogatePass_injective (hdiffer a ha b hb hkey)
  · intro htext
    rw [jobKey, jobKey, htext]

/-- Jobs with distinct keys are distinct candidates, whatever the case of their digests. -/
theorem jobIdentities_nodup {env : Env} {jobs : List Job} (h : (jobs.map (jobKey env)).Nodup) :
    (jobs.map jobIdentity).Nodup := by
  have hkeys : jobs.map (jobKey env) = (jobs.map jobIdentity).map fun identity =>
      (env.sha256 (Str.join [0] [identity.1, identity.2.1, identity.2.2.1,
        identity.2.2.2]).encodeSurrogatePass).take 16 := by
    simp [jobKey, jobKeyText, Function.comp_def]
  rw [hkeys] at h
  exact h.of_map _

end OpenCollabEval
