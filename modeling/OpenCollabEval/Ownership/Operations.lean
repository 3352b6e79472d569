import OpenCollabEval.Ownership.Interference

/-!
# What operations preserve

Each change of the shared state keeps the invariant under a condition on the state before it, and
each operation of a process keeps its guarantee.
-/

open Python Concurrency

namespace OpenCollabEval

section Changes

variable {calm : Prop} {ownerPath : Str → Str} {p : ProcessId} {s s' : OwnershipState}

theorem Recorded.of_born {attempt : Attempt} {record : OwnerRecord}
    (h : Recorded s attempt record)
    (hborn : ∀ id token, s.born id = some token → s'.born id = some token) :
    Recorded s' attempt record :=
  { h with id := fun hid => hborn _ _ (h.id hid) }

theorem Recorded.of_extends {attempt later : Attempt} {record : OwnerRecord}
    (h : Recorded s attempt record) (hextends : attempt.Extends later) :
    Recorded s later record where
  token := h.token.trans hextends.token.symm
  name := h.name.trans hextends.name.symm
  pid := by rw [h.pid, hextends.owner]
  identity := by rw [hextends.owner]; exact h.identity
  id hid := by rw [hextends.token]; exact h.id hid
  started := h.started

theorem Declared.of_le {attempt : Attempt} {state : OwnerState} (h : Declared s attempt state)
    (hstaged : ∀ token, s.staged token = true → s'.staged token = true)
    (hended : ∀ q, s.process q = .ended → s'.process q = .ended) :
    Declared s' attempt state where
  owner := h.owner
  staged hstate := hstaged _ (h.staged hstate)
  preserved hstate := (h.preserved hstate).imp (hstaged _) (hended _)

/-- Processes begin and end. -/
theorem OwnershipHolds.setProcess (h : OwnershipHolds calm ownerPath s)
    {process : ProcessId → ProcessStatus}
    (hbegun : ∀ q, s.process q ≠ .notBegun → process q ≠ .notBegun)
    (hended : ∀ q, s.process q = .ended → process q = .ended) :
    OwnershipHolds calm ownerPath { s with process := process } :=
  { h with
    begun := fun path attempt hattempt => hbegun _ (h.begun path attempt hattempt)
    files := fun path file hfile => by
      obtain ⟨attempt, hattempt, hrecorded, hdeclared⟩ := h.files path file hfile
      exact ⟨attempt, hattempt, hrecorded.of_born fun _ _ hb => hb,
        hdeclared.of_le (fun _ ht => ht) hended⟩ }

/-- A process looks at a record, or away from it. -/
theorem OwnershipHolds.setWatched (h : OwnershipHolds calm ownerPath s)
    (watched : ProcessId → Option Str) :
    OwnershipHolds calm ownerPath { s with watched := watched } :=
  { h with
    files := fun path file hfile => by
      obtain ⟨attempt, hattempt, hrecorded, hdeclared⟩ := h.files path file hfile
      exact ⟨attempt, hattempt, hrecorded.of_born fun _ _ hb => hb,
        hdeclared.of_le (fun _ ht => ht) fun _ hq => hq⟩ }

/-- A pending output is created. -/
theorem OwnershipHolds.setStaged (h : OwnershipHolds calm ownerPath s) (token : Str) :
    OwnershipHolds calm ownerPath { s with staged := Function.update s.staged token true } :=
  { h with
    files := fun path file hfile => by
      obtain ⟨attempt, hattempt, hrecorded, hdeclared⟩ := h.files path file hfile
      refine ⟨attempt, hattempt, hrecorded.of_born fun _ _ hb => hb,
        hdeclared.of_le (fun other hother => ?_) fun _ hq => hq⟩
      by_cases heq : other = token
      · simp [heq]
      · simpa [heq] using hother }

/-- A container is created. One with the token of an attempt is its first one, and has its name and
its record. -/
theorem OwnershipHolds.addContainer (h : OwnershipHolds calm ownerPath s) {container : Container}
    (hadmits : s.Admits container)
    (hlabel : ∀ path attempt, s.attempts path = some attempt → attempt.token = container.label →
      container.name = attempt.name ∧ (s.files path).isSome = true ∧ attempt.launched = true ∧
        ∀ id, s.born id ≠ some attempt.token) :
    OwnershipHolds calm ownerPath (s.addContainer container) := by
  obtain ⟨hfresh, -, hother, hname⟩ := hadmits
  -- what was born before is known as it was
  have hborn : ∀ id token, s.born id = some token →
      (s.addContainer container).born id = some token := by
    intro id token hid
    have hne : id ≠ container.id := by
      rintro rfl
      rw [hfresh] at hid
      cases hid
    simpa [OwnershipState.addContainer, hne] using hid
  have hid : ∀ id token, (s.addContainer container).born id = some token →
      s.born id = some token ∨ id = container.id ∧ token = container.label := by
    intro id token hid
    by_cases heq : id = container.id
    · subst heq
      right
      simpa [OwnershipState.addContainer, eq_comm] using hid
    · left
      simpa [OwnershipState.addContainer, heq] using hid
  exact
    { h with
      unborn := fun path attempt hattempt => by
        have hne := hname path attempt hattempt
        simpa [OwnershipState.addContainer, hne] using h.unborn path attempt hattempt
      born := fun other hmem => by
        rcases List.mem_cons.mp hmem with rfl | hmem
        · simp [OwnershipState.addContainer]
        · exact hborn _ _ (h.born other hmem)
      unique := fun first hfirst second hsecond heq => by
        have hnew : ∀ old ∈ s.containers, container.id ≠ old.id ∧ container.name ≠ old.name := by
          intro old hold
          refine ⟨fun hsame => ?_, fun hsame => (hother old hold).1 (.inr hsame.symm)⟩
          have hcontra := h.born old hold
          rw [← hsame, hfresh] at hcontra
          cases hcontra
        rcases List.mem_cons.mp hfirst with rfl | hold <;>
          rcases List.mem_cons.mp hsecond with rfl | hold'
        · rfl
        · exact absurd heq (by simp [hnew second hold'])
        · have hne := hnew first hold
          exact absurd heq (by simp [Ne.symm hne.1, Ne.symm hne.2])
        · exact h.unique first hold second hold' heq
      held := fun other hmem path attempt hattempt htoken => by
        rcases List.mem_cons.mp hmem with rfl | hmem
        · have hown := hlabel path attempt hattempt htoken.symm
          exact ⟨hown.1, hown.2.1⟩
        · exact h.held other hmem path attempt hattempt htoken
      launched := fun path attempt id hattempt hbirth => by
        rcases hid id _ hbirth with hold | ⟨-, htoken⟩
        · exact h.launched path attempt id hattempt hold
        · exact (hlabel path attempt hattempt htoken).2.2.1
      one := fun path attempt id id' hattempt hbirth hbirth' => by
        rcases hid id _ hbirth with hold | ⟨rfl, htoken⟩ <;>
          rcases hid id' _ hbirth' with hold' | ⟨rfl, htoken'⟩
        · exact h.one path attempt id id' hattempt hold hold'
        · exact absurd hold ((hlabel path attempt hattempt htoken').2.2.2 id)
        · exact absurd hold' ((hlabel path attempt hattempt htoken).2.2.2 id')
        · rfl
      files := fun path file hfile => by
        obtain ⟨attempt, hattempt, hrecorded, hdeclared⟩ := h.files path file hfile
        exact ⟨attempt, hattempt, hrecorded.of_born hborn,
          hdeclared.of_le (fun _ ht => ht) fun _ hq => hq⟩ }

/-- Containers are removed. -/
theorem OwnershipHolds.removeContainers (h : OwnershipHolds calm ownerPath s)
    {containers : List Container} {removals : List Removal}
    (hsub : ∀ container ∈ containers, container ∈ s.containers)
    (hremovals : ∀ removal ∈ removals, removal.Holds calm) :
    OwnershipHolds calm ownerPath { s with containers := containers, removals := removals } :=
  { h with
    born := fun container hmem => h.born container (hsub container hmem)
    unique := fun first hfirst second hsecond =>
      h.unique first (hsub first hfirst) second (hsub second hsecond)
    held := fun container hmem => h.held container (hsub container hmem)
    files := fun path file hfile => by
      obtain ⟨attempt, hattempt, hrecorded, hdeclared⟩ := h.files path file hfile
      exact ⟨attempt, hattempt, hrecorded.of_born fun _ _ hb => hb,
        hdeclared.of_le (fun _ ht => ht) fun _ hq => hq⟩
    removals := hremovals }

/-- A record takes its path. -/
theorem OwnershipHolds.putRecord (h : OwnershipHolds calm ownerPath s) {path : Str}
    {record : OwnerRecord} {attempt : Attempt} (hattempt : s.attempts path = some attempt)
    (hrecorded : Recorded s attempt record) (hdeclared : Declared s attempt record.state) :
    OwnershipHolds calm ownerPath (s.putRecord path record) :=
  { h with
    held := fun container hmem path' attempt' hattempt' htoken => by
      obtain ⟨hname, hfile⟩ := h.held container hmem path' attempt' hattempt' htoken
      refine ⟨hname, ?_⟩
      by_cases heq : path' = path
      · simp [OwnershipState.putRecord, heq]
      · simpa [OwnershipState.putRecord, heq] using hfile
    files := fun path' file hfile => by
      by_cases heq : path' = path
      · subst heq
        have hsame : (s.inodes, record) = file := by
          simpa [OwnershipState.putRecord] using hfile
        subst hsame
        exact ⟨attempt, hattempt, hrecorded.of_born fun _ _ hb => hb,
          hdeclared.of_le (fun _ ht => ht) fun _ hq => hq⟩
      · have hold : s.files path' = some file := by
          simpa [OwnershipState.putRecord, heq] using hfile
        obtain ⟨attempt', hattempt', hrecorded', hdeclared'⟩ := h.files path' file hold
        exact ⟨attempt', hattempt', hrecorded'.of_born fun _ _ hb => hb,
          hdeclared'.of_le (fun _ ht => ht) fun _ hq => hq⟩ }

/-- A record is taken away when no container of its attempt is left. -/
theorem OwnershipHolds.dropRecord (h : OwnershipHolds calm ownerPath s) {path : Str}
    (hgone : ∀ attempt, s.attempts path = some attempt → attempt.Gone s) :
    OwnershipHolds calm ownerPath { s with files := Function.update s.files path none } :=
  { h with
    held := fun container hmem path' attempt hattempt htoken => by
      obtain ⟨hname, hfile⟩ := h.held container hmem path' attempt hattempt htoken
      refine ⟨hname, ?_⟩
      by_cases heq : path' = path
      · subst heq
        exact absurd htoken (hgone attempt hattempt container hmem)
      · simpa [heq] using hfile
    files := fun path' file hfile => by
      by_cases heq : path' = path
      · subst heq
        simp at hfile
      · have hold : s.files path' = some file := by simpa [heq] using hfile
        obtain ⟨attempt', hattempt', hrecorded', hdeclared'⟩ := h.files path' file hold
        exact ⟨attempt', hattempt', hrecorded'.of_born fun _ _ hb => hb,
          hdeclared'.of_le (fun _ ht => ht) fun _ hq => hq⟩ }

/-- An attempt goes on. -/
theorem OwnershipHolds.setAttempt (h : OwnershipHolds calm ownerPath s) {path : Str}
    {attempt later : Attempt} (hattempt : s.attempts path = some attempt)
    (hextends : attempt.Extends later)
    (hdeclared : ∀ file, s.files path = some file → Declared s later file.2.state)
    (hwork : (later.work ≠ .none → later.declared ≠ .pending) ∧
      (later.work = .running → later.declared ≠ .active)) :
    OwnershipHolds calm ownerPath (s.setAttempt path later) := by
  -- every attempt was there before, at an earlier state
  have hbefore : ∀ path' attempt', (s.setAttempt path later).attempts path' = some attempt' →
      ∃ earlier, s.attempts path' = some earlier ∧ earlier.Extends attempt' := by
    intro path' attempt' hattempt'
    by_cases heq : path' = path
    · subst heq
      have hsame : later = attempt' := by simpa [OwnershipState.setAttempt] using hattempt'
      exact ⟨attempt, hattempt, hsame ▸ hextends⟩
    · exact ⟨attempt', by simpa [OwnershipState.setAttempt, heq] using hattempt', .refl _⟩
  exact
    { h with
      path := fun path' attempt' hattempt' => by
        obtain ⟨earlier, hearlier, hext⟩ := hbefore path' attempt' hattempt'
        rw [hext.name]
        exact h.path path' earlier hearlier
      begun := fun path' attempt' hattempt' => by
        obtain ⟨earlier, hearlier, hext⟩ := hbefore path' attempt' hattempt'
        rw [hext.owner]
        exact h.begun path' earlier hearlier
      isToken := fun path' attempt' hattempt' => by
        obtain ⟨earlier, hearlier, hext⟩ := hbefore path' attempt' hattempt'
        rw [hext.token]
        exact h.isToken path' earlier hearlier
      token := fun first second attempt' attempt'' hattempt' hattempt'' htoken => by
        obtain ⟨earlier, hearlier, hext⟩ := hbefore first attempt' hattempt'
        obtain ⟨earlier', hearlier', hext'⟩ := hbefore second attempt'' hattempt''
        rw [hext.token, hext'.token] at htoken
        exact h.token first second earlier earlier' hearlier hearlier' htoken
      unborn := fun path' attempt' hattempt' => by
        obtain ⟨earlier, hearlier, hext⟩ := hbefore path' attempt' hattempt'
        rw [hext.name]
        exact h.unborn path' earlier hearlier
      held := fun container hmem path' attempt' hattempt' htoken => by
        obtain ⟨earlier, hearlier, hext⟩ := hbefore path' attempt' hattempt'
        rw [hext.token] at htoken
        rw [hext.name]
        exact h.held container hmem path' earlier hearlier htoken
      launched := fun path' attempt' id hattempt' hbirth => by
        obtain ⟨earlier, hearlier, hext⟩ := hbefore path' attempt' hattempt'
        rw [hext.token] at hbirth
        exact hext.launched (h.launched path' earlier id hearlier hbirth)
      one := fun path' attempt' id id' hattempt' hbirth hbirth' => by
        obtain ⟨earlier, hearlier, hext⟩ := hbefore path' attempt' hattempt'
        rw [hext.token] at hbirth hbirth'
        exact h.one path' earlier id id' hearlier hbirth hbirth'
      files := fun path' file hfile => by
        obtain ⟨earlier, hearlier, hrecorded, hstate⟩ := h.files path' file hfile
        by_cases heq : path' = path
        · subst heq
          obtain rfl : attempt = earlier := Option.some.inj (hattempt.symm.trans hearlier)
          refine ⟨later, by simp [OwnershipState.setAttempt], ?_, ?_⟩
          · exact (hrecorded.of_extends hextends).of_born fun _ _ hb => hb
          · exact (hdeclared file hfile).of_le (fun _ ht => ht) fun _ hq => hq
        · exact ⟨earlier, by simpa [OwnershipState.setAttempt, heq] using hearlier,
            hrecorded.of_born fun _ _ hb => hb, hstate.of_le (fun _ ht => ht) fun _ hq => hq⟩
      work := fun path' attempt' hattempt' => by
        by_cases heq : path' = path
        · subst heq
          obtain rfl : later = attempt' := by
            simpa [OwnershipState.setAttempt] using hattempt'
          exact hwork
        · exact h.work path' attempt' (by simpa [OwnershipState.setAttempt, heq] using hattempt') }

/-- A pending owner record is created under a path that was never used. -/
theorem OwnershipHolds.createAttempt (h : OwnershipHolds calm ownerPath s) {name : Str}
    {record : OwnerRecord} (hrunning : s.process p = .running)
    (hfile : s.files (ownerPath name) = none) (hnew : s.attempts (ownerPath name) = none)
    (hborn : s.born name = none) (hisToken : IsOwnerToken record.ownerToken)
    (htoken : ∀ path attempt, s.attempts path = some attempt →
      attempt.token ≠ record.ownerToken)
    (hunborn : ∀ id, s.born id ≠ some record.ownerToken) (hstate : record.state = .pending)
    (hname : record.containerName = name) (hid : record.containerId = [])
    (hpid : record.ownerPid = p.pid)
    (hidentity : record.ownerStartIdentity = [] ∨ record.ownerStartIdentity = p.startIdentity) :
    OwnershipHolds calm ownerPath
      ((s.putRecord (ownerPath name) record).setAttempt (ownerPath name)
        ⟨name, record.ownerToken, p, .pending, false, .none⟩) := by
  have hcases : ∀ path attempt, ((s.putRecord (ownerPath name) record).setAttempt (ownerPath name)
      ⟨name, record.ownerToken, p, .pending, false, .none⟩).attempts path = some attempt →
      (path = ownerPath name ∧ attempt = ⟨name, record.ownerToken, p, .pending, false, .none⟩) ∨
        path ≠ ownerPath name ∧ s.attempts path = some attempt := by
    intro path attempt hattempt
    by_cases heq : path = ownerPath name
    · subst heq
      left
      refine ⟨rfl, ?_⟩
      simpa [OwnershipState.setAttempt, eq_comm] using hattempt
    · right
      exact ⟨heq, by simpa [OwnershipState.setAttempt, OwnershipState.putRecord, heq] using hattempt⟩
  exact
    { h with
      path := fun path attempt hattempt => by
        rcases hcases path attempt hattempt with ⟨rfl, rfl⟩ | ⟨-, hold⟩
        · rfl
        · exact h.path path attempt hold
      begun := fun path attempt hattempt => by
        rcases hcases path attempt hattempt with ⟨rfl, rfl⟩ | ⟨-, hold⟩
        · show s.process p ≠ .notBegun
          simp [hrunning]
        · exact h.begun path attempt hold
      isToken := fun path attempt hattempt => by
        rcases hcases path attempt hattempt with ⟨rfl, rfl⟩ | ⟨-, hold⟩
        · exact hisToken
        · exact h.isToken path attempt hold
      token := fun first second attempt attempt' hattempt hattempt' heq => by
        rcases hcases first attempt hattempt with ⟨rfl, rfl⟩ | ⟨-, hold⟩ <;>
          rcases hcases second attempt' hattempt' with ⟨rfl, rfl⟩ | ⟨-, hold'⟩
        · rfl
        · exact absurd heq.symm (htoken second attempt' hold')
        · exact absurd heq (htoken first attempt hold)
        · exact h.token first second attempt attempt' hold hold' heq
      unborn := fun path attempt hattempt => by
        rcases hcases path attempt hattempt with ⟨rfl, rfl⟩ | ⟨-, hold⟩
        · exact hborn
        · exact h.unborn path attempt hold
      held := fun container hmem path attempt hattempt heq => by
        rcases hcases path attempt hattempt with ⟨rfl, rfl⟩ | ⟨hne, hold⟩
        · have hbirth := h.born container hmem
          rw [heq] at hbirth
          exact absurd hbirth (hunborn container.id)
        · obtain ⟨hname', hsome⟩ := h.held container hmem path attempt hold heq
          refine ⟨hname', ?_⟩
          simpa [OwnershipState.setAttempt, OwnershipState.putRecord, hne] using hsome
      launched := fun path attempt id hattempt hbirth => by
        rcases hcases path attempt hattempt with ⟨rfl, rfl⟩ | ⟨-, hold⟩
        · exact absurd hbirth (hunborn id)
        · exact h.launched path attempt id hold hbirth
      one := fun path attempt id id' hattempt hbirth hbirth' => by
        rcases hcases path attempt hattempt with ⟨rfl, rfl⟩ | ⟨-, hold⟩
        · exact absurd hbirth (hunborn id)
        · exact h.one path attempt id id' hold hbirth hbirth'
      files := fun path file hfile' => by
        by_cases heq : path = ownerPath name
        · subst heq
          have hsame : (s.inodes, record) = file := by
            simpa [OwnershipState.setAttempt, OwnershipState.putRecord] using hfile'
          subst hsame
          refine ⟨⟨name, record.ownerToken, p, .pending, false, .none⟩,
            by simp [OwnershipState.setAttempt], ⟨rfl, hname, hpid, hidentity, ?_, ?_⟩,
            ⟨?_, ?_, ?_⟩⟩ <;> simp [hstate, hid]
        · have hold : s.files path = some file := by
            simpa [OwnershipState.setAttempt, OwnershipState.putRecord, heq] using hfile'
          obtain ⟨attempt, hattempt, hrecorded, hdeclared⟩ := h.files path file hold
          exact ⟨attempt, by simpa [OwnershipState.setAttempt, OwnershipState.putRecord, heq]
            using hattempt, hrecorded.of_born fun _ _ hb => hb,
            hdeclared.of_le (fun _ ht => ht) fun _ hq => hq⟩
      work := fun path attempt hattempt => by
        rcases hcases path attempt hattempt with ⟨rfl, rfl⟩ | ⟨-, hold⟩
        · simp
        · exact h.work path attempt hold }

end Changes

end OpenCollabEval
