import Runtrue.ControlPlane.Operations

/-!
# Concurrency groups

At most one job of a concurrency group is held. An offer takes the first of the queued and held jobs of the
group, by creation and then by id, so a second job is offered only if it comes before the one that is held,
as a job may that was not in the queue when the other took its turn (`late_dependent_breaks_group`). The
exclusion holds while the jobs that wait come after the held one (`Store.InTurn`).
-/

namespace Runtrue.ControlPlane

open Fallible Run Option Std.ExtTreeMap

variable {E : Type} {o : Outside E} {s t u : Store E} {op : Operation E} {N : Prop}

/-- Of each group at most one job is held. -/
def Store.GroupsExclusive (s : Store E) : Prop :=
  ∀ {id id' : String} {job job' : JobRecord}, s.jobs[id]? = some job → s.jobs[id']? = some job' →
    job.status.isHeld = true → job'.status.isHeld = true → s.SameGroup job job' → id = id'

def JobState.isWaiting (state : JobState) : Bool := state matches .created | .queued

theorem JobState.isWaiting_iff {state : JobState} : isWaiting state = true ↔ state = .created ∨ state = .queued := by
  cases state <;> decide

/-- The jobs of a group that wait come after the one that is held. -/
def Store.InTurn (s : Store E) : Prop :=
  ∀ held ∈ s.jobs.toList, ∀ waiting ∈ s.jobs.toList, held.2.status.isHeld = true →
    JobState.isWaiting waiting.2.status = true → s.SameGroup waiting.2 held.2 → Store.turn held < Store.turn waiting

/-! ### Where the jobs come from -/

/-- The job is the one it was; a held job was held, and one that waits has not ended before. -/
structure JobRecord.Follows (job job₀ : JobRecord) : Prop where
  same : job₀.SameJob job
  held : job.status.isHeld = true → job₀.status.isHeld = true
  waiting : JobState.isWaiting job.status = true →
    JobState.isWaiting job₀.status = true ∨ job₀.status.isHeld = true

theorem JobRecord.Follows.refl (job : JobRecord) : job.Follows job := ⟨.refl job, fun h => h, .inl⟩

/-- What a sequence of changes does to jobs and groups. -/
structure Traced (N : Prop) (s t : Store E) : Prop where
  job : ∀ {id : String} {job : JobRecord}, t.jobs[id]? = some job →
    (∃ job₀ : JobRecord, s.jobs[id]? = some job₀ ∧ job.Follows job₀) ∨
      N ∧ t.Homed job.runId ∧ job.status.isHeld = false
  homed : ∀ {runId : String}, s.Homed runId → t.Homed runId
  group : ∀ {job : JobRecord}, s.Homed job.runId → t.groupOf job = s.groupOf job

theorem Traced.trans (h : Traced N s t) (h' : Traced N t u) : Traced N s u where
  job hjob := by
    rcases h'.job hjob with ⟨_, hjob₁, hfollows⟩ | hnew
    · rcases h.job hjob₁ with ⟨job₀, hjob₀, hfollows₀⟩ | ⟨hN, hhomed, hidle⟩
      · refine .inl ⟨job₀, hjob₀, hfollows₀.same.trans hfollows.same, fun h => hfollows₀.held (hfollows.held h),
          fun h => ?_⟩
        exact (hfollows.waiting h).elim hfollows₀.waiting fun h => .inr (hfollows₀.held h)
      · refine .inr ⟨hN, hfollows.same.runId ▸ h'.homed hhomed, ?_⟩
        by_contra hheld
        rw [hfollows.held (Bool.not_eq_false _ ▸ hheld)] at hidle
        cases hidle
    · exact .inr hnew
  homed hhomed := h'.homed (h.homed hhomed)
  group hhomed := (h'.group (h.homed hhomed)).trans (h.group hhomed)

theorem Change.homed (h : Change N s t) {runId : String} (hhomed : s.Homed runId) :
    t.Homed runId ∧ ∀ {job : JobRecord}, job.runId = runId → t.groupOf job = s.groupOf job := by
  cases h with
  | idle h =>
    cases h with
    | frame h => exact ⟨h.homed hhomed, fun _ => h.groupOf _⟩
    | job => exact ⟨hhomed, fun _ => rfl⟩
  | wider hruns hrepositories =>
    obtain ⟨run, tenantId, hrun, htenant⟩ := hhomed
    refine ⟨⟨run, tenantId, hruns hrun, hrepositories htenant⟩, fun {job} hid => ?_⟩
    simp only [Store.groupOf, hid, hrun, hruns hrun, map_some, bind, bind_some, htenant,
      hrepositories htenant]
  | objects | runners | newJob | move | work | lease => exact ⟨hhomed, fun _ => rfl⟩

theorem Store.setJob_follows {id id' : String} {row job job' : JobRecord} (hrow : s.jobs[id]? = some row)
    (hjob : (s.setJob id job').jobs[id']? = some job) (hfollows : job'.Follows row) :
    ∃ job₀ : JobRecord, s.jobs[id']? = some job₀ ∧ job.Follows job₀ := by
  rcases BTreeMap.get_insert_eq_some.mp hjob with ⟨rfl, rfl⟩ | ⟨-, hjob⟩
  · exact ⟨row, hrow, hfollows⟩
  · exact ⟨job, hjob, .refl job⟩

theorem Change.traced (hp : Placed s) (h : Change N s t) : Traced N s t := by
  refine ⟨fun {id job} hjob => ?_, fun hhomed => (h.homed hhomed).1, fun hhomed => (h.homed hhomed).2 rfl⟩
  cases h with
  | idle h =>
    cases h with
    | frame h => exact .inl ⟨job, h.jobs ▸ hjob, .refl job⟩
    | @job _ _ _ _ hrow _ hnext hqueued hcreated =>
      refine .inl (Store.setJob_follows hrow hjob ⟨⟨rfl, rfl, rfl, rfl⟩, fun hheld => ?_, fun hwaiting => .inl ?_⟩)
      · rw [hnext] at hheld
        cases hheld
      · rcases JobState.isWaiting_iff.mp hwaiting with rfl | rfl
        · exact absurd rfl hcreated
        · rw [hqueued rfl]
          rfl
  | newJob hN _ hhomed hidle =>
    rcases BTreeMap.get_insert_eq_some.mp hjob with ⟨rfl, rfl⟩ | ⟨-, hjob⟩
    · exact .inr ⟨hN, hhomed, hidle⟩
    · exact .inl ⟨job, hjob, .refl job⟩
  | @move _ _ _ row _ _ hlease hopen _ hrow =>
    -- the job of an open lease is held
    obtain ⟨row', hrow', hheld, -⟩ := hp.open_held hlease hopen
    obtain rfl : row = row' := Option.mem_unique hrow hrow'
    exact .inl (Store.setJob_follows hrow hjob ⟨⟨rfl, rfl, rfl, rfl⟩, fun _ => hheld, fun _ => .inr hheld⟩)
  | work hrow hheld =>
    exact .inl (Store.setJob_follows hrow hjob ⟨⟨rfl, rfl, rfl, rfl⟩, fun _ => hheld, fun _ => .inr hheld⟩)
  | wider | objects | runners | lease => exact .inl ⟨job, hjob, .refl job⟩

theorem Leads.traced (hp : Placed s) (h : Leads N s t) : Traced N s t := by
  induction h with
  | refl => exact ⟨fun hjob => .inl ⟨_, hjob, .refl _⟩, fun h => h, fun _ => rfl⟩
  | tail hleads hchange ih => exact ih.trans (hchange.traced (Leads.placed hleads hp))

/-! ### The exclusion -/

variable {id : String} {job : JobRecord}

theorem Traced.held_old (h : Traced N s t) (hjob : t.jobs[id]? = some job) (hheld : job.status.isHeld = true) :
    ∃ job₀ : JobRecord, s.jobs[id]? = some job₀ ∧ job.Follows job₀ ∧ job₀.status.isHeld = true := by
  rcases h.job hjob with ⟨job₀, hjob₀, hfollows⟩ | ⟨-, -, hidle⟩
  · exact ⟨job₀, hjob₀, hfollows, hfollows.held hheld⟩
  · rw [hheld] at hidle
    cases hidle

/-- What holds between the operations of a run. -/
structure Grouped (s : Store E) : Prop where
  placed : Placed s
  homed : ∀ {id : String} {job : JobRecord}, s.jobs[id]? = some job → s.Homed job.runId
  exclusive : s.GroupsExclusive

section
variable (hs : Grouped s) (h : Traced N s t)
include hs h

variable {id : String} {job : JobRecord}

theorem Grouped.homed_of_traced (hjob : t.jobs[id]? = some job) : t.Homed job.runId := by
  rcases h.job hjob with ⟨_, hjob₀, hfollows⟩ | ⟨-, hhomed, -⟩
  · exact hfollows.same.runId ▸ h.homed (hs.homed hjob₀)
  · exact hhomed

theorem Grouped.groupOf_of_traced {job job₀ : JobRecord} (hjob₀ : s.jobs[id]? = some job₀)
    (hfollows : job.Follows job₀) : t.groupOf job = s.groupOf job₀ := by
  rw [← h.group (hs.homed hjob₀), Store.groupOf, Store.groupOf, hfollows.same.concurrencyGroup, hfollows.same.runId]

theorem Grouped.exclusive_of_traced : t.GroupsExclusive := by
  intro _ _ _ _ hjob hjob' hheld hheld' hgroup
  obtain ⟨_, hjob₀, hfollows, hheld₀⟩ := h.held_old hjob hheld
  obtain ⟨_, hjob₀', hfollows', hheld₀'⟩ := h.held_old hjob' hheld'
  rw [Store.SameGroup, hs.groupOf_of_traced h hjob₀ hfollows, hs.groupOf_of_traced h hjob₀' hfollows'] at hgroup
  exact hs.exclusive hjob₀ hjob₀' hheld₀ hheld₀' hgroup

end

theorem Leads.grouped (h : Leads N s t) (hs : Grouped s) : Grouped t :=
  have htraced := h.traced hs.placed
  ⟨h.placed hs.placed, hs.homed_of_traced htraced, hs.exclusive_of_traced htraced⟩

variable {job' : JobRecord}

theorem Store.Offers.alone {leaseId : String} {lease : Lease} (hoffers : t.Offers leaseId lease job)
    (hs : Grouped s) (hturn : s.InTurn) (h : Traced False s t) (hjob' : t.jobs[id]? = some job')
    (hheld : job'.status.isHeld = true) : ¬t.SameGroup job job' := by
  intro hgroup
  obtain ⟨held, hheld₀, hfollows', hold⟩ := h.held_old hjob' hheld
  rcases h.job hoffers.stored with ⟨waiting, hwaiting₀, hfollows⟩ | ⟨hfalse, -⟩
  · have hgroup₀ := hgroup
    rw [Store.SameGroup, hs.groupOf_of_traced h hwaiting₀ hfollows, hs.groupOf_of_traced h hheld₀ hfollows'] at hgroup₀
    rcases hfollows.waiting (by rw [hoffers.queued]; rfl) with hwaiting | hwasHeld
    · have hlt := hturn (id, held) (BTreeMap.mem_toList.mpr hheld₀) (lease.jobId, waiting)
        (BTreeMap.mem_toList.mpr hwaiting₀) hold hwaiting hgroup₀
      refine hoffers.turn hjob' hheld hgroup ?_
      rw [Store.turn, Store.turn] at hlt ⊢
      rw [hfollows.same.createdUnixMs, hfollows'.same.createdUnixMs]
      exact hlt
    · -- a job that went back to the queue was the held one
      obtain rfl := hs.exclusive hwaiting₀ hheld₀ hwasHeld hold hgroup₀
      obtain rfl : job = job' := Option.mem_unique hoffers.stored hjob'
      rw [hoffers.queued] at hheld
      cases hheld
  · exact hfalse

theorem Issue.grouped (hissue : Issue t u) (hs : Grouped s) (hturn : s.InTurn) (h : Leads False s t) : Grouped u := by
  have htraced := h.traced hs.placed
  have ht := h.grouped hs
  refine ⟨hissue.placed ht.placed, ?_, ?_⟩
  · cases hissue with
    | offer hoffers =>
      intro id job hjob
      rcases BTreeMap.get_insert_eq_some.mp hjob with ⟨-, rfl⟩ | ⟨-, hjob⟩
      · exact (ht.homed hoffers.stored : t.Homed _)
      · exact ht.homed hjob
  · cases hissue with
    | offer hoffers =>
      intro _ _ _ _ hjob hjob' hheld hheld' hgroup
      rcases BTreeMap.get_insert_eq_some.mp hjob with ⟨rfl, rfl⟩ | ⟨-, hjob⟩
      · rcases BTreeMap.get_insert_eq_some.mp hjob' with ⟨rfl, -⟩ | ⟨-, hjob'⟩
        · rfl
        · exact absurd hgroup (hoffers.alone hs hturn htraced hjob' hheld')
      · rcases BTreeMap.get_insert_eq_some.mp hjob' with ⟨rfl, rfl⟩ | ⟨-, hjob'⟩
        · exact absurd ⟨hgroup.2 ▸ hgroup.1, hgroup.2.symm⟩ (hoffers.alone hs hturn htraced hjob hheld)
        · exact ht.exclusive hjob hjob' hheld hheld' hgroup

theorem step_grouped (hs : Grouped s) (hserved : op.isServed) (hturn : s.InTurn) : Grouped (step o s op).2 := by
  cases hroutine : op.administers with
  | false =>
    rcases step_moves (o := o) hs.placed hserved hroutine with hleads | ⟨_, hleads, hissue⟩
    · exact hleads.grouped hs
    · exact hissue.grouped hs hturn hleads
  | true =>
    cases op with
    | putRunner id runner => exact ⟨hs.placed.putRunner id runner, hs.homed, hs.exclusive⟩
    | setQuota =>
      refine answerDone_cases hs fun t h => ?_
      simp only [Store.setTenantSchedulerQuota, bind_eq_ok, pure_eq_ok] at h
      obtain ⟨-, -, -, -, rfl⟩ := h
      exact ⟨hs.placed.congr rfl rfl fun _ hrunner => ⟨_, hrunner⟩, hs.homed, hs.exclusive⟩
    | _ => cases hroutine

theorem grouped_initial (outside : E) : Grouped (initial outside) := by
  refine ⟨placed_initial outside, fun hjob => ?_, fun hjob => ?_⟩
  · rw [initial, getElem?_empty] at hjob
    cases hjob
  · rw [initial, getElem?_empty] at hjob
    cases hjob

section
variable {h : List (Run.Event (Store E) (Operation E) (Except Error Reply))}

/-- The calls of a run that are served while the jobs that wait come after the held ones. -/
def ServesInTurn (e : Run.Event (Store E) (Operation E) (Except Error Reply))
    (_ : List (Run.Event (Store E) (Operation E) (Except Error Reply))) : Prop :=
  e.op.isServed ∧ e.before.InTurn

/-- **Concurrency groups are exclusive.** At most one job of a group is leased, preparing, running or
finalizing. -/
theorem groups_exclusive {outside : E} (hrun : Run.Reaches (step o) (initial outside) h s)
    (hall : Run.AllCalls ServesInTurn h) {id id' : String} {job job' : JobRecord} (hjob : s.jobs[id]? = some job)
    (hjob' : s.jobs[id']? = some job') (hheld : job.status ∈ [JobState.leased, .preparing, .running, .finalizing])
    (hheld' : job'.status ∈ [JobState.leased, .preparing, .running, .finalizing]) (hgroup : s.SameGroup job job') :
    id = id' := by
  have hs : Grouped s := hrun.invariant (P := fun _ t => Grouped t) (grouped_initial outside)
    (fun _ _ _ _ hcall ht => step_grouped ht hcall.1 hcall.2) hall
  exact hs.exclusive hjob hjob' (isHeld_iff.mpr hheld) (isHeld_iff.mpr hheld') hgroup

end

/-! ### Instances -/

instance Store.SameGroup.decidable (s : Store E) (job job' : JobRecord) : Decidable (s.SameGroup job job') :=
  inferInstanceAs (Decidable (_ ∧ _))

instance Store.InTurn.decidable (s : Store E) : Decidable s.InTurn := by
  unfold InTurn
  infer_instance

instance ServesInTurn.decidable (e : Run.Event (Store E) (Operation E) (Except Error Reply))
    (h : List (Run.Event (Store E) (Operation E) (Except Error Reply))) : Decidable (ServesInTurn e h) :=
  inferInstanceAs (Decidable (_ ∧ _))

/-- Two runs share a group, and the job of the first is offered. -/
def sharedGroup : List (Operation Unit) :=
  installation ++ startRun "r1" (plainCapsule [plainJob "a" [] (some "g")] []) 1 ++
    startRun "r2" (plainCapsule [plainJob "b" [] (some "g")] []) 2 ++
    [.offer "l1" "runner" 3, .accept "l1" "runner" 1 1 4, .offer "l2" "runner" 5]

/-- The job of the second waits. -/
theorem groups_exclusive_sharedGroup :
    let s := (exec (step quietOutside) (initial ()) sharedGroup).2
    AllCalls ServesInTurn (exec (step quietOutside) (initial ()) sharedGroup).1 ∧
      (s.jobs["r1/a"]?.map (·.status) = some .preparing ∧ s.jobs["r2/b"]?.map (·.status) = some .queued) ∧
      ∀ {id id' : String} {job job' : JobRecord}, s.jobs[id]? = some job → s.jobs[id']? = some job' →
        job.status ∈ [JobState.leased, .preparing, .running, .finalizing] →
        job'.status ∈ [JobState.leased, .preparing, .running, .finalizing] → s.SameGroup job job' → id = id' :=
  have hall : AllCalls ServesInTurn (exec (step quietOutside) (initial ()) sharedGroup).1 := by
    decide +kernel
  ⟨hall, by decide +kernel, groups_exclusive (reaches_exec (step quietOutside) (initial ()) sharedGroup) hall⟩

/-- A job of the first run waits for another one while the job of the second run takes the group. -/
def lateDependent : List (Operation Unit) :=
  installation ++ startRun "r1" (plainCapsule [plainJob "a" [] none, plainJob "b" ["a"] (some "g")] []) 1 ++
    startRun "r2" (plainCapsule [plainJob "c" [] (some "g")] []) 2 ++
    [.offer "l1" "runner" 3, .accept "l1" "runner" 1 1 4, .offer "l2" "runner" 4,
      .transitionJob "r1/a" .finalizing 5, .accept "l2" "runner" 1 1 5,
      .recordTaint (completion "l1" .succeeded 6), .complete (completion "l1" .succeeded 6) .none,
      .offer "l3" "runner" 7]

/-- When it has its turn it comes first, and two jobs of the group are held. -/
theorem late_dependent_breaks_group :
    Run.AllCalls (fun e _ => e.op.isServed) (Run.exec (step quietOutside) (initial ()) lateDependent).1 ∧
      ∃ job job' : JobRecord, (Run.exec (step quietOutside) (initial ()) lateDependent).2.jobs["r1/b"]? = some job ∧
        (Run.exec (step quietOutside) (initial ()) lateDependent).2.jobs["r2/c"]? = some job' ∧
        job.status = .leased ∧ job'.status = .preparing ∧
        (Run.exec (step quietOutside) (initial ()) lateDependent).2.SameGroup job job' := by
  have hheld : ((exec (step quietOutside) (initial ()) lateDependent).2.jobs["r1/b"]?.any fun job =>
      (exec (step quietOutside) (initial ()) lateDependent).2.jobs["r2/c"]?.any fun job' =>
        decide (job.status = .leased ∧ job'.status = .preparing ∧
          (exec (step quietOutside) (initial ()) lateDependent).2.SameGroup job job')) = true := by
    decide +kernel
  obtain ⟨job, hjob, hrest⟩ := (any_eq_true _ _).mp hheld
  obtain ⟨job', hjob', hrest⟩ := (any_eq_true _ _).mp hrest
  exact ⟨by decide +kernel, job, job', hjob, hjob', of_decide_eq_true hrest⟩

end Runtrue.ControlPlane
