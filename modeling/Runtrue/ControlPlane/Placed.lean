import Runtrue.ControlPlane.Change

/-!
# Open leases and held jobs

`Placed s`: a job is held by exactly one open lease, which carries the job's last generation, or it is not
held and has none. Every single change keeps this (`Change.placed`).
-/

section

open BTreeMap

namespace Runtrue.ControlPlane

variable {E : Type} {s t : Store E} {N : Prop}

structure Placed (s : Store E) : Prop where
  open_held : ∀ {leaseId : String} {lease : Lease}, s.leases[leaseId]? = some lease → lease.isOpen = true →
    ∃ job : JobRecord, s.jobs[lease.jobId]? = some job ∧ job.status.isHeld = true ∧
      (lease.state = .offered ↔ job.status = .leased) ∧ lease.fencingGeneration = job.lastGeneration
  held_open : ∀ {jobId : String} {job : JobRecord}, s.jobs[jobId]? = some job → job.status.isHeld = true →
    ∃ (leaseId : String) (lease : Lease), s.leases[leaseId]? = some lease ∧ lease.jobId = jobId ∧
      lease.isOpen = true
  generation_le : ∀ {leaseId : String} {lease : Lease}, s.leases[leaseId]? = some lease →
    ∃ job : JobRecord, s.jobs[lease.jobId]? = some job ∧ lease.fencingGeneration ≤ job.lastGeneration
  generation_unique : ∀ {leaseId leaseId' : String} {lease lease' : Lease}, s.leases[leaseId]? = some lease →
    s.leases[leaseId']? = some lease' → lease.jobId = lease'.jobId →
    lease.fencingGeneration = lease'.fencingGeneration → leaseId = leaseId'
  runner : ∀ {leaseId : String} {lease : Lease}, s.leases[leaseId]? = some lease →
    ∃ runner, s.runners[lease.runnerId]? = some runner

theorem placed_initial (outside : E) : Placed (initial outside) := by
  have hnone : ∀ {id : String} {lease : Lease}, (∅ : BTreeMap String Lease)[id]? ≠ some lease := by simp
  have hnone' : ∀ {id : String} {job : JobRecord}, (∅ : BTreeMap String JobRecord)[id]? ≠ some job := by simp
  exact ⟨fun h => absurd h hnone, fun h => absurd h hnone', fun h => absurd h hnone, fun h => absurd h hnone,
    fun h => absurd h hnone⟩

namespace Placed

variable {lease lease' : Lease}

theorem open_unique (hp : Placed s) {leaseId leaseId' : String}
    (hlease : s.leases[leaseId]? = some lease) (hlease' : s.leases[leaseId']? = some lease')
    (hopen : lease.isOpen = true) (hopen' : lease'.isOpen = true)
    (hjob : lease.jobId = lease'.jobId) : leaseId = leaseId' := by
  obtain ⟨_, hgot, -, -, hgeneration⟩ := hp.open_held hlease hopen
  obtain ⟨_, hgot', -, -, hgeneration'⟩ := hp.open_held hlease' hopen'
  rw [hjob, hgot'] at hgot
  cases hgot
  exact hp.generation_unique hlease hlease' hjob (hgeneration.trans hgeneration'.symm)

variable {leaseId : String} {job : JobRecord}

theorem not_isHeld (hp : Placed s) (hlease : s.leases[leaseId]? = some lease)
    (hclosed : lease.isOpen = false) (hjob : s.jobs[lease.jobId]? = some job)
    (hgeneration : lease.fencingGeneration = job.lastGeneration) : job.status.isHeld = false := by
  by_contra hheld
  obtain ⟨_, _, hlease', hjobId, hopen⟩ := hp.held_open hjob (Bool.not_eq_false _ ▸ hheld)
  obtain ⟨_, hjob', -, -, hgeneration'⟩ := hp.open_held hlease' hopen
  rw [hjobId, hjob] at hjob'
  cases hjob'
  obtain rfl := hp.generation_unique hlease hlease' hjobId.symm (hgeneration.trans hgeneration'.symm)
  rw [hlease] at hlease'
  cases hlease'
  rw [hopen] at hclosed
  cases hclosed

theorem congr (hp : Placed s) (hjobs : t.jobs = s.jobs) (hleases : t.leases = s.leases)
    (hrunners : ∀ {leaseId : String} {lease : Lease} {runner : Runner}, s.leases[leaseId]? = some lease →
      s.runners[lease.runnerId]? = some runner → ∃ runner', t.runners[lease.runnerId]? = some runner') : Placed t where
  open_held := by
    rw [hjobs, hleases]
    exact hp.open_held
  held_open := by
    rw [hjobs, hleases]
    exact hp.held_open
  generation_le := by
    rw [hjobs, hleases]
    exact hp.generation_le
  generation_unique := by
    rw [hleases]
    exact hp.generation_unique
  runner := by
    rw [hleases]
    intro _ _ hlease
    obtain ⟨_, hrunner⟩ := hp.runner hlease
    exact hrunners hlease hrunner

theorem setLease (hp : Placed s) (hlease : s.leases[leaseId]? = some lease)
    (hfence : lease.SameFence lease') (hopen : lease'.isOpen = lease.isOpen)
    (hstate : lease'.state = .offered ↔ lease.state = .offered) : Placed (s.setLease leaseId lease') := by
  have hrow : ∀ {id : String} {row : Lease}, (s.leases.insert leaseId lease')[id]? = some row →
      ∃ row₀, s.leases[id]? = some row₀ ∧ row₀.SameFence row ∧ row.isOpen = row₀.isOpen ∧
        (row.state = .offered ↔ row₀.state = .offered) := by
    intro id row hrow
    rcases get_insert_eq_some.mp hrow with ⟨rfl, rfl⟩ | ⟨-, hrow⟩
    · exact ⟨lease, hlease, hfence, hopen, hstate⟩
    · exact ⟨row, hrow, .refl row, rfl, Iff.rfl⟩
  constructor
  · intro id row hgot hopenRow
    obtain ⟨row₀, hrow₀, hsame, hopen₀, hstate₀⟩ := hrow hgot
    obtain ⟨job, hjob, hheld, hoffered, hgeneration⟩ := hp.open_held hrow₀ (hopen₀ ▸ hopenRow)
    exact ⟨job, by rw [hsame.jobId]; exact hjob, hheld, hstate₀.trans hoffered,
      hsame.fencingGeneration.trans hgeneration⟩
  · intro jobId job hjob hheld
    obtain ⟨id, row, hrow₀, hjobId, hopenRow⟩ := hp.held_open hjob hheld
    by_cases hid : leaseId = id
    · subst hid
      rw [hlease] at hrow₀
      cases hrow₀
      exact ⟨leaseId, lease', get_insert_self _ _ _, hfence.jobId.trans hjobId, hopen.trans hopenRow⟩
    · exact ⟨id, row, get_insert_eq_some.mpr (.inr ⟨hid, hrow₀⟩), hjobId, hopenRow⟩
  · intro id row hgot
    obtain ⟨row₀, hrow₀, hsame, -⟩ := hrow hgot
    obtain ⟨job, hjob, hle⟩ := hp.generation_le hrow₀
    exact ⟨job, by rw [hsame.jobId]; exact hjob, by rw [hsame.fencingGeneration]; exact hle⟩
  · intro id _ row _ hgot hgot' hjobId hgeneration
    obtain ⟨row₀, hrow₀, hsame, -⟩ := hrow hgot
    obtain ⟨_, hrow₀', hsame', -⟩ := hrow hgot'
    rw [hsame.jobId, hsame'.jobId] at hjobId
    rw [hsame.fencingGeneration, hsame'.fencingGeneration] at hgeneration
    exact hp.generation_unique hrow₀ hrow₀' hjobId hgeneration
  · intro _ _ hgot
    obtain ⟨_, hrow₀, hsame, -⟩ := hrow hgot
    rw [hsame.runnerId]
    exact hp.runner hrow₀

variable {job' : JobRecord}

theorem setJob (hp : Placed s) {jobId : String} (hjob : s.jobs[jobId]? = some job)
    (hheld : job'.status.isHeld = job.status.isHeld) (hleased : job'.status = .leased ↔ job.status = .leased)
    (hgeneration : job'.lastGeneration = job.lastGeneration) : Placed (s.setJob jobId job') := by
  have hrow : ∀ {id : String} {row : JobRecord}, s.jobs[id]? = some row →
      ∃ row', (s.jobs.insert jobId job')[id]? = some row' ∧ row'.status.isHeld = row.status.isHeld ∧
        (row'.status = .leased ↔ row.status = .leased) ∧ row'.lastGeneration = row.lastGeneration := by
    intro id row hrow
    by_cases hid : jobId = id
    · subst hid
      rw [hjob] at hrow
      cases hrow
      exact ⟨job', get_insert_self _ _ _, hheld, hleased, hgeneration⟩
    · exact ⟨row, get_insert_eq_some.mpr (.inr ⟨hid, hrow⟩), rfl, Iff.rfl, rfl⟩
  constructor
  · intro leaseId lease hlease hopen
    obtain ⟨row, hgot, hheldRow, hoffered, hgen⟩ := hp.open_held hlease hopen
    obtain ⟨row', hgot', hheld', hleased', hgen'⟩ := hrow hgot
    exact ⟨row', hgot', hheld'.trans hheldRow, hoffered.trans hleased'.symm, hgen.trans hgen'.symm⟩
  · intro _ _ hgot hheldRow
    rcases get_insert_eq_some.mp hgot with ⟨rfl, rfl⟩ | ⟨-, hgot⟩
    · exact hp.held_open hjob (hheld ▸ hheldRow)
    · exact hp.held_open hgot hheldRow
  · intro _ _ hlease
    obtain ⟨_, hgot, hle⟩ := hp.generation_le hlease
    obtain ⟨row', hgot', -, -, hgen'⟩ := hrow hgot
    exact ⟨row', hgot', hgen' ▸ hle⟩
  · exact hp.generation_unique
  · exact hp.runner

theorem newJob (hp : Placed s) {jobId : String} (hnew : s.jobs[jobId]? = none)
    (hidle : job.status.isHeld = false) : Placed (s.setJob jobId job) := by
  constructor
  · intro leaseId lease hlease hopen
    obtain ⟨row, hgot, hrest⟩ := hp.open_held hlease hopen
    exact ⟨row, get_insert_fresh hnew hgot, hrest⟩
  · intro _ row hgot hheld
    rcases get_insert_eq_some.mp hgot with ⟨rfl, rfl⟩ | ⟨-, hgot⟩
    · rw [hidle] at hheld
      cases hheld
    · exact hp.held_open hgot hheld
  · intro _ _ hlease
    obtain ⟨row, hgot, hle⟩ := hp.generation_le hlease
    exact ⟨row, get_insert_fresh hnew hgot, hle⟩
  · exact hp.generation_unique
  · exact hp.runner

theorem move (hp : Placed s) (hlease : s.leases[leaseId]? = some lease)
    (hopen : lease.isOpen = true) (hfence : lease.SameFence lease') (hjob : s.jobs[lease.jobId]? = some job)
    (hgeneration : job'.lastGeneration = job.lastGeneration) (hheld : job'.status.isHeld = lease'.isOpen)
    (hoffered : lease'.isOpen = true → (lease'.state = .offered ↔ job'.status = .leased)) :
    Placed ((s.setLease leaseId lease').setJob lease.jobId job') := by
  -- the other open leases belong to other jobs
  have hother : ∀ {id : String} {row : Lease}, leaseId ≠ id → s.leases[id]? = some row → row.isOpen = true →
      lease.jobId ≠ row.jobId :=
    fun hne hrow hopenRow hjobId => hne (hp.open_unique hlease hrow hopen hopenRow hjobId)
  have hsame : ∀ {id : String} {row : Lease}, (s.leases.insert leaseId lease')[id]? = some row →
      ∃ row₀, s.leases[id]? = some row₀ ∧ row₀.SameFence row := by
    intro id row hrow
    rcases get_insert_eq_some.mp hrow with ⟨rfl, rfl⟩ | ⟨-, hrow⟩
    · exact ⟨lease, hlease, hfence⟩
    · exact ⟨row, hrow, .refl row⟩
  constructor
  · intro id row hgot hopenRow
    rcases get_insert_eq_some.mp hgot with ⟨rfl, rfl⟩ | ⟨hne, hgot⟩
    · obtain ⟨job₀, hjob₀, -, -, hgen⟩ := hp.open_held hlease hopen
      rw [hjob] at hjob₀
      cases hjob₀
      refine ⟨job', by rw [hfence.jobId]; exact get_insert_self _ _ _, hheld.trans hopenRow,
        hoffered hopenRow, ?_⟩
      rw [hfence.fencingGeneration, hgen, hgeneration]
    · obtain ⟨row₀, hrow₀, hrest⟩ := hp.open_held hgot hopenRow
      exact ⟨row₀, get_insert_eq_some.mpr (.inr ⟨hother hne hgot hopenRow, hrow₀⟩), hrest⟩
  · intro id row hgot hheldRow
    rcases get_insert_eq_some.mp hgot with ⟨rfl, rfl⟩ | ⟨hne, hgot⟩
    · exact ⟨leaseId, lease', get_insert_self _ _ _, hfence.jobId, hheld ▸ hheldRow⟩
    · obtain ⟨id', row', hrow', hjobId, hopenRow⟩ := hp.held_open hgot hheldRow
      refine ⟨id', row', get_insert_eq_some.mpr (.inr ⟨?_, hrow'⟩), hjobId, hopenRow⟩
      rintro rfl
      rw [hlease] at hrow'
      cases hrow'
      exact hne hjobId
  · intro id row hgot
    obtain ⟨row₀, hrow₀, hfence₀⟩ := hsame hgot
    obtain ⟨job₀, hjob₀, hle⟩ := hp.generation_le hrow₀
    rw [hfence₀.jobId, hfence₀.fencingGeneration]
    by_cases hid : lease.jobId = row₀.jobId
    · rw [← hid, hjob] at hjob₀
      cases hjob₀
      exact ⟨job', by rw [← hid]; exact get_insert_self _ _ _, hgeneration ▸ hle⟩
    · exact ⟨job₀, get_insert_eq_some.mpr (.inr ⟨hid, hjob₀⟩), hle⟩
  · intro id _ row _ hgot hgot' hjobId hgen
    obtain ⟨row₀, hrow₀, hfence₀⟩ := hsame hgot
    obtain ⟨_, hrow₀', hfence₀'⟩ := hsame hgot'
    rw [hfence₀.jobId, hfence₀'.jobId] at hjobId
    rw [hfence₀.fencingGeneration, hfence₀'.fencingGeneration] at hgen
    exact hp.generation_unique hrow₀ hrow₀' hjobId hgen
  · intro _ _ hgot
    obtain ⟨_, hrow₀, hfence₀⟩ := hsame hgot
    rw [hfence₀.runnerId]
    exact hp.runner hrow₀

theorem offer (hp : Placed s) (h : s.Offers leaseId lease job) (hstatus : job'.status = .leased)
    (hgeneration : job'.lastGeneration = lease.fencingGeneration) :
    Placed ((s.setJob lease.jobId job').setLease leaseId lease) := by
  have hidle : job.status.isHeld ≠ true := by
    rw [h.queued]
    exact Bool.false_ne_true
  have hother : ∀ {id : String} {row : Lease}, s.leases[id]? = some row → row.isOpen = true →
      lease.jobId ≠ row.jobId := by
    intro id row hrow hopen hjobId
    obtain ⟨job₀, hjob₀, hheld, -⟩ := hp.open_held hrow hopen
    rw [← hjobId, h.stored] at hjob₀
    cases hjob₀
    exact hidle hheld
  have hless : ∀ {id : String} {row : Lease}, s.leases[id]? = some row → lease.jobId = row.jobId →
      row.fencingGeneration < lease.fencingGeneration := by
    intro id row hrow hjobId
    obtain ⟨job₀, hjob₀, hle⟩ := hp.generation_le hrow
    rw [← hjobId, h.stored] at hjob₀
    cases hjob₀
    rw [h.generation]
    omega
  constructor
  · intro id row hgot hopen
    rcases get_insert_eq_some.mp hgot with ⟨rfl, rfl⟩ | ⟨hne, hgot⟩
    · refine ⟨job', get_insert_self _ _ _, by rw [hstatus]; rfl, ?_, hgeneration.symm⟩
      exact ⟨fun _ => hstatus, fun _ => h.state⟩
    · obtain ⟨row₀, hrow₀, hrest⟩ := hp.open_held hgot hopen
      exact ⟨row₀, get_insert_eq_some.mpr (.inr ⟨hother hgot hopen, hrow₀⟩), hrest⟩
  · intro id row hgot hheld
    rcases get_insert_eq_some.mp hgot with ⟨rfl, rfl⟩ | ⟨hne, hgot⟩
    · exact ⟨leaseId, lease, get_insert_self _ _ _, rfl, by rw [Lease.isOpen, h.state]⟩
    · obtain ⟨id', row', hrow', hrest⟩ := hp.held_open hgot hheld
      exact ⟨id', row', get_insert_fresh h.fresh hrow', hrest⟩
  · intro id row hgot
    rcases get_insert_eq_some.mp hgot with ⟨rfl, rfl⟩ | ⟨hne, hgot⟩
    · exact ⟨job', get_insert_self _ _ _, hgeneration.ge⟩
    · obtain ⟨job₀, hjob₀, hle⟩ := hp.generation_le hgot
      by_cases hid : lease.jobId = row.jobId
      · exact ⟨job', by rw [← hid]; exact get_insert_self _ _ _,
          hgeneration ▸ (hless hgot hid).le⟩
      · exact ⟨job₀, get_insert_eq_some.mpr (.inr ⟨hid, hjob₀⟩), hle⟩
  · intro id _ row _ hgot hgot' hjobId hgen
    rcases get_insert_eq_some.mp hgot with ⟨rfl, rfl⟩ | ⟨hne, hgot⟩ <;>
      rcases get_insert_eq_some.mp hgot' with ⟨rfl, rfl⟩ | ⟨-, hgot'⟩
    · rfl
    · exact absurd hgen (hless hgot' hjobId).ne'
    · exact absurd hgen (hless hgot hjobId.symm).ne
    · exact hp.generation_unique hgot hgot' hjobId hgen
  · intro _ _ hgot
    rcases get_insert_eq_some.mp hgot with ⟨rfl, rfl⟩ | ⟨-, hgot⟩
    · obtain ⟨runner, hrunner, -⟩ := h.runner
      exact ⟨runner, hrunner⟩
    · exact hp.runner hgot

end Placed

theorem JobState.ne_leased {state : JobState} (h : state.isHeld = false) : state ≠ .leased := by
  rintro rfl
  cases h

theorem Idle.placed (h : Idle s t) (hp : Placed s) : Placed t := by
  cases h with
  | frame h => exact hp.congr h.jobs h.leases fun _ hrunner => ⟨_, by rw [h.runners]; exact hrunner⟩
  | job hjob hidle hnext =>
    exact hp.setJob hjob (hnext.trans hidle.symm)
      ⟨fun h => absurd h (JobState.ne_leased hnext), fun h => absurd h (JobState.ne_leased hidle)⟩ rfl

theorem Change.placed (h : Change N s t) (hp : Placed s) : Placed t := by
  cases h with
  | idle h => exact h.placed hp
  | @runners runners _ hgone =>
    refine hp.congr rfl rfl fun {leaseId lease runner} hlease hrunner => ?_
    cases hgot : runners[lease.runnerId]? with
    | some runner' => exact ⟨runner', rfl⟩
    | none =>
      have hnone := hgone lease.runnerId hgot (by rw [hrunner]; exact Option.some_ne_none _)
      rw [Store.hasLease, List.any_eq_false] at hnone
      exact absurd (hnone (leaseId, lease) (mem_toList.mpr hlease)) (by simp)
  | newJob _ hnew _ hidle => exact hp.newJob hnew hidle
  | move hlease hopen hfence hjob hheld hoffered => exact hp.move hlease hopen hfence hjob rfl hheld hoffered
  | work hjob hheld hnext hleased => exact hp.setJob hjob (hnext.trans hheld.symm) hleased rfl
  | lease hlease hfence hopen hoffered => exact hp.setLease hlease hfence hopen hoffered
  | wider | objects => exact hp.congr rfl rfl fun _ hrunner => ⟨_, hrunner⟩

theorem Issue.placed (h : Issue s t) (hp : Placed s) : Placed t := by
  cases h with
  | offer h => exact hp.offer h rfl rfl

theorem Leads.placed (h : Leads N s t) (hp : Placed s) : Placed t := h.keeps Change.placed hp

theorem Idles.placed (h : Idles s t) (hp : Placed s) : Placed t := (h.leads (N := True)).placed hp

theorem isHeld_iff {state : JobState} :
    state.isHeld = true ↔ state ∈ [JobState.leased, .preparing, .running, .finalizing] := by
  cases state <;> decide

theorem Placed.putRunner (hp : Placed s) (id : String) (runner : Runner) :
    Placed { s with runners := s.runners.insert id runner } := by
  refine hp.congr rfl rfl fun {leaseId lease runner'} _ hrunner => ?_
  by_cases hid : id = lease.runnerId
  · exact ⟨runner, by rw [← hid]; exact get_insert_self _ _ _⟩
  · exact ⟨runner', get_insert_eq_some.mpr (.inr ⟨hid, hrunner⟩)⟩

end Runtrue.ControlPlane

end
