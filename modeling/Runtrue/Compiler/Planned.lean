import Runtrue.Compiler.Compile
import Runtrue.Compiler.Fragments

/-!
# What a compilation consists of

Inversions of the compiler: `StepFrom` and `JobFrom` say where a planned step and a planned job come from,
`StepKept` and `JobKept` what the resolution of references keeps of them, and `exists_compiled` puts them
together for the jobs of a capsule.
-/

namespace Runtrue.Compiler

open Fallible List Ir

variable {ext : Externals} {canonical : Canonical} {settings : CompilerSettings}

/-! ### Steps -/

/-- A planned step comes from a source step, and its findings are among `risks`. -/
def StepFrom (ext : Externals) (settings : CompilerSettings) (path : String) (permissions : Ir.PermissionSet)
    (risks : List RiskFinding) (source : Ast.Step) (step : Ir.PlannedStep) : Prop :=
  ∃ stepId index found, compileStep ext.numbers ext.sha256 settings source stepId index path permissions =
    .ok (step, found) ∧ found ⊆ risks

variable {permissions : Ir.PermissionSet} {path : String} {step : Ir.PlannedStep}

theorem StepFrom.mono {risks risks' : List RiskFinding} {source : Ast.Step}
    (h : StepFrom ext settings path permissions risks source step) (hrisks : risks ⊆ risks') :
    StepFrom ext settings path permissions risks' source step := by
  obtain ⟨stepId, index, found, hstep, hfound⟩ := h
  exact ⟨stepId, index, found, hstep, List.Subset.trans hfound hrisks⟩

theorem foldEach_planned {σ τ : Type} {add : Planned σ → τ × Nat → Compiled (Planned σ)}
    {R : List RiskFinding → τ → σ → Prop} (hmono : ∀ {risks risks' a b}, R risks a b → risks ⊆ risks' → R risks' a b)
    (hadd : ∀ {planned planned' e}, add planned e = .ok planned' → ∃ found b, R found e.1 b ∧
      planned'.risks = planned.risks ++ found ∧ planned'.done = planned.done ++ [b])
    {planned planned' : Planned σ} {l : List (τ × Nat)} (h : foldEach add planned l = .ok planned') :
    planned.risks ⊆ planned'.risks ∧ ∀ b ∈ planned'.done, b ∈ planned.done ∨ ∃ e ∈ l, R planned'.risks e.1 b := by
  induction l generalizing planned with
  | nil =>
    cases h
    exact ⟨List.Subset.refl _, fun b hb => .inl hb⟩
  | cons e l ih =>
    obtain ⟨_, hmiddle, hrest⟩ := foldEach_cons_eq_ok.mp h
    obtain ⟨_, _, hfrom', hrisks', hdone'⟩ := hadd hmiddle
    obtain ⟨hrisks, hdone⟩ := ih hrest
    rw [hrisks'] at hrisks
    refine ⟨List.Subset.trans (subset_append_left _ _) hrisks, fun b hb => ?_⟩
    rcases hdone b hb with hb | ⟨e', he', hfrom⟩
    · rw [hdone'] at hb
      rcases mem_append.mp hb with hb | hb
      · exact .inl hb
      · obtain rfl := mem_singleton.mp hb
        exact .inr ⟨e, mem_cons_self, hmono hfrom' (List.Subset.trans (subset_append_right _ _) hrisks)⟩
    · exact .inr ⟨e', mem_cons_of_mem _ he', hfrom⟩

/-! ### Jobs -/

/-- A planned job comes from a source job, and the findings about it are among `risks`. -/
structure JobFrom (ext : Externals) (settings : CompilerSettings) (maximum : Ir.PermissionSet)
    (expandedNeeds : List String) (risks : List RiskFinding) (base : String) (source : Ast.Job)
    (expanded : MatrixExpansion) (job : Ir.PlannedJob) : Prop where
  id : job.id = expanded.id
  baseId : job.baseId = base
  needs : job.needs = expandedNeeds
  condition : mapSome (normalizeExpression ext.numbers · s!"jobs.{base}.if") source.condition =
    .ok job.condition
  environment : job.environment = source.environment
  runner : compileRunner source.runner s!"jobs.{base}" = .ok job.runner
  permissions : ∃ requested, requestedPermissions ext source maximum = .ok requested ∧
    job.permissions = intersectPermissions maximum requested
  services : mapEach (fun (id, service) => compileService s!"jobs.{base}" id service)
    source.services.toList = .ok job.services
  steps : ∀ step ∈ job.steps, ∃ origin ∈ source.steps,
    StepFrom ext settings s!"jobs.{base}" job.permissions risks origin step
  finalizers : ∀ finalizer ∈ job.finalizers, ∃ origin ∈ source.finalizers,
    StepFrom ext settings s!"jobs.{base}.finalizers" job.permissions risks origin.step finalizer.step
  valueOutputs : source.valueOutputs.mapEntries (compileValueOutput s!"jobs.{base}" job.allSteps) =
    .ok job.valueOutputs
  permissionRisks : collectPermissionRisks job.permissions s!"jobs.{base}" ⊆ risks
  jobRisks : jobRisks source job.runner.capabilities s!"jobs.{base}" ⊆ risks

variable {job : Ir.PlannedJob} {risks : List RiskFinding} {source : Ast.Job}
  {vars : BTreeMap String Ir.ScalarValue} {needs : List String}

theorem jobFrom_of_compileJob {baseId : String} {expanded : MatrixExpansion}
    (h : compileJob ext settings baseId source expanded needs permissions vars = .ok (job, risks)) :
    JobFrom ext settings permissions needs risks baseId source expanded job := by
  simp only [compileJob, bind_eq_ok, exists_unit, pure_eq_ok, Prod.mk.injEq] at h
  obtain ⟨_, hcondition, -, requested, hrequested, _, -, _, hrunner, _, -, _,
    hservices, _, hsteps, _, -, -, _, hfinalizers, _, hvalueOutputs,
    _, -, rfl, rfl⟩ := h
  obtain ⟨-, hstepFrom⟩ := foldEach_planned (R := StepFrom ext settings s!"jobs.{baseId}" _) StepFrom.mono
      (fun {_ _ e} hadd => by
    simp only [addStep, bind_eq_ok, exists_unit, pure_eq_ok, Prod.exists] at hadd
    obtain ⟨-, -, compiled, found, hcompiled, rfl⟩ := hadd
    exact ⟨found, compiled, ⟨_, _, found, hcompiled, List.Subset.refl _⟩, rfl, rfl⟩) hsteps
  obtain ⟨-, hfinalizerFrom⟩ := foldEach_planned (R := fun risks source finalizer => StepFrom ext settings
      s!"jobs.{baseId}.finalizers" _ risks source.step finalizer.step) StepFrom.mono (fun {_ _ e} hadd => by
    simp only [addFinalizer, bind_eq_ok, exists_unit, pure_eq_ok, Prod.exists] at hadd
    obtain ⟨-, -, _, found, hcompiled, rfl⟩ := hadd
    exact ⟨found, _, ⟨_, _, found, hcompiled, List.Subset.refl _⟩, rfl, rfl⟩) hfinalizers
  refine ⟨rfl, rfl, rfl, hcondition, rfl, hrunner, ⟨requested, hrequested, rfl⟩, hservices, ?_, ?_,
    hvalueOutputs, ?_, ?_⟩
  · intro step hstep
    rcases hstepFrom step hstep with hnil | ⟨e, he, hfrom⟩
    · cases hnil
    · refine ⟨e.1, fst_mem_of_mem_zipIdx he, hfrom.mono ?_⟩
      intro finding hfinding
      simp [hfinding]
  · intro finalizer hfinalizer
    rcases hfinalizerFrom finalizer hfinalizer with hnil | ⟨e, he, hfrom⟩
    · cases hnil
    · refine ⟨e.1, fst_mem_of_mem_zipIdx he, hfrom.mono ?_⟩
      intro finding hfinding
      simp [hfinding]
  · intro finding hfinding
    simp [hfinding]
  · intro _ hfinding
    simp [hfinding]

/-! ### Resolved jobs -/

/-- A step after resolution: only the reference of a component can have changed. -/
inductive StepKept (step : Ir.PlannedStep) : Ir.PlannedStep → Prop
  | same : StepKept step step
  | component {reference reference' : String} (haction : step.action = .component reference) :
      StepKept step { step with action := .component reference' }

structure JobKept (job kept : Ir.PlannedJob) : Prop where
  id : kept.id = job.id
  baseId : kept.baseId = job.baseId
  needs : kept.needs = job.needs
  condition : kept.condition = job.condition
  environment : kept.environment = job.environment
  isolation : kept.runner.isolation = job.runner.isolation
  capabilities : kept.runner.capabilities = job.runner.capabilities
  permissions : kept.permissions = job.permissions
  valueOutputs : kept.valueOutputs = job.valueOutputs
  services : ∀ service ∈ kept.services, ∃ origin ∈ job.services, service.environment = origin.environment
  steps : ∀ step ∈ kept.steps, ∃ origin ∈ job.steps, StepKept origin step
  finalizers : ∀ finalizer ∈ kept.finalizers, ∃ origin ∈ job.finalizers, StepKept origin.step finalizer.step

theorem JobKept.refl (job : PlannedJob) : JobKept job job where
  id := rfl
  baseId := rfl
  needs := rfl
  condition := rfl
  environment := rfl
  isolation := rfl
  capabilities := rfl
  permissions := rfl
  valueOutputs := rfl
  services := fun service hservice => ⟨service, hservice, rfl⟩
  steps := fun step hstep => ⟨step, hstep, .same⟩
  finalizers := fun finalizer hfinalizer => ⟨finalizer, hfinalizer, .same⟩

theorem stepKept_of_resolveStep {resolved : Lock.ResolvedLock} {step kept : PlannedStep}
    (h : resolveStep resolved step = .ok kept) : StepKept step kept := by
  simp only [resolveStep, bind_eq_ok, pure_eq_ok] at h
  obtain ⟨_, haction, rfl⟩ := h
  cases hcase : step.action with
  | component =>
    simp only [resolveAction, hcase, bind_eq_ok, pure_eq_ok] at haction
    obtain ⟨_, -, rfl⟩ := haction
    exact .component hcase
  | command | container | script =>
    simp only [resolveAction, hcase, Except.ok.injEq] at haction
    rw [← haction, ← hcase]
    exact .same

theorem jobKept_of_resolveJob {resolved : Lock.ResolvedLock} {job kept : PlannedJob}
    (h : resolveJob resolved job = .ok kept) : JobKept job kept := by
  simp only [resolveJob, bind_eq_ok, pure_eq_ok] at h
  obtain ⟨image, -, _, hservices, _, hsteps, _, hfinalizers, rfl⟩ := h
  refine ⟨rfl, rfl, rfl, rfl, rfl, rfl, rfl, rfl, rfl, ?_, ?_, ?_⟩
  · intro _ hservice
    obtain ⟨origin, horigin, hresolve⟩ := exists_of_mem_mapEach hservices hservice
    simp only [resolveService, bind_eq_ok, pure_eq_ok] at hresolve
    obtain ⟨_, -, rfl⟩ := hresolve
    exact ⟨origin, horigin, rfl⟩
  · intro _ hstep
    obtain ⟨origin, horigin, hresolve⟩ := exists_of_mem_mapEach hsteps hstep
    exact ⟨origin, horigin, stepKept_of_resolveStep hresolve⟩
  · intro _ hfinalizer
    obtain ⟨origin, horigin, hresolve⟩ := exists_of_mem_mapEach hfinalizers hfinalizer
    simp only [resolveFinalizer, bind_eq_ok, pure_eq_ok] at hresolve
    obtain ⟨_, hstep, rfl⟩ := hresolve
    exact ⟨origin, horigin, stepKept_of_resolveStep hstep⟩

variable {resolved : Resolved}

theorem mem_of_resolveExternalReferences
    {lockDigest : Lock.LockFile → Except Lock.LockError ContentDigest} {jobs : List PlannedJob}
    {dynamicJobs : List DynamicJobTemplate} {lockfile : Option Lock.LockFile} {references : List String}
    (h : resolveExternalReferences lockDigest jobs dynamicJobs lockfile references = .ok resolved) :
    (∀ kept ∈ resolved.jobs, ∃ job ∈ jobs, JobKept job kept) ∧
    ∀ kept ∈ resolved.dynamicJobs, ∃ template ∈ dynamicJobs, JobKept template.template kept.template := by
  unfold resolveExternalReferences at h
  split at h
  · simp only [bind_eq_ok, exists_unit, pure_eq_ok] at h
    obtain ⟨-, rfl⟩ := h
    exact ⟨fun job hjob => ⟨job, hjob, .refl job⟩, fun template htemplate => ⟨template, htemplate, .refl _⟩⟩
  · simp only [bind_eq_ok, pure_eq_ok] at h
    obtain ⟨_, -, _, hjobs, _, hdynamicJobs, rfl⟩ := h
    refine ⟨fun kept hkept => ?_, fun _ hkept => ?_⟩
    · obtain ⟨job, hjob, hresolve⟩ := exists_of_mem_mapEach hjobs hkept
      exact ⟨job, hjob, jobKept_of_resolveJob hresolve⟩
    · obtain ⟨template, htemplate, hresolve⟩ := exists_of_mem_mapEach hdynamicJobs hkept
      simp only [resolveTemplate, bind_eq_ok, pure_eq_ok] at hresolve
      obtain ⟨_, hjob, rfl⟩ := hresolve
      exact ⟨template, htemplate, jobKept_of_resolveJob hjob⟩

/-! ### Plans -/

/-- Where a planned job of an expanded workflow comes from: a combination of the matrix of a source job, or a
source job with a dynamic matrix. -/
inductive Origin (ext : Externals) (settings : CompilerSettings) (workflow : Ast.Workflow)
    (maximum : Ir.PermissionSet) (expansions : BTreeMap String (List MatrixExpansion))
    (risks : List RiskFinding) : Bool → Ir.PlannedJob → Prop
  | static {base : String} {source : Ast.Job} {matrix : MatrixExpansion} {job : Ir.PlannedJob}
      (hsource : workflow.jobs[base]? = some source) (hdynamic : source.dynamicMatrix = none)
      (hmatrix : matrix ∈ expansions[base]?.getD [])
      (hfrom : JobFrom ext settings maximum (expandedNeeds expansions source) risks base source matrix job) :
      Origin ext settings workflow maximum expansions risks false job
  | dynamic {base : String} {source : Ast.Job} {definition : Ast.DynamicMatrixDefinition}
      {job : Ir.PlannedJob} (hsource : workflow.jobs[base]? = some source)
      (hdynamic : source.dynamicMatrix = some definition)
      (hfrom : JobFrom ext settings maximum (expandedNeeds expansions source) risks base source ⟨base, ∅⟩ job) :
      Origin ext settings workflow maximum expansions risks true job

variable {maximum : Ir.PermissionSet} {base : String}

theorem JobFrom.mono {risks risks' : List RiskFinding} {matrix : MatrixExpansion}
    (h : JobFrom ext settings maximum needs risks base source matrix job) (hrisks : risks ⊆ risks') :
    JobFrom ext settings maximum needs risks' base source matrix job :=
  { h with
    steps := fun step hstep => by
      obtain ⟨origin, horigin, hfrom⟩ := h.steps step hstep
      exact ⟨origin, horigin, hfrom.mono hrisks⟩
    finalizers := fun finalizer hfinalizer => by
      obtain ⟨origin, horigin, hfrom⟩ := h.finalizers finalizer hfinalizer
      exact ⟨origin, horigin, hfrom.mono hrisks⟩
    permissionRisks := List.Subset.trans h.permissionRisks hrisks
    jobRisks := List.Subset.trans h.jobRisks hrisks }

variable {workflow : Ast.Workflow} {plan : Plan}

theorem origin_of_planJob {expansions : BTreeMap String (List MatrixExpansion)}
    (hsource : workflow.jobs[base]? = some source) (hrisks : plan.risks ⊆ risks)
    (h : planJob ext settings maximum vars expansions (base, source) = .ok plan) :
    (∀ job ∈ plan.jobs, Origin ext settings workflow maximum expansions risks false job) ∧
    ∀ template ∈ plan.dynamicJobs, Origin ext settings workflow maximum expansions risks true template.template := by
  simp only [planJob] at h
  split at h
  · rename_i dynamic hdynamic
    simp only [bind_eq_ok, pure_eq_ok, Prod.exists] at h
    obtain ⟨job, found, hjob, _, _, -, rfl⟩ := h
    refine ⟨fun _ hmem => absurd hmem not_mem_nil, fun _ htemplate => ?_⟩
    obtain rfl := mem_singleton.mp htemplate
    exact .dynamic hsource hdynamic ((jobFrom_of_compileJob hjob).mono hrisks)
  · rename_i hdynamic
    simp only [bind_eq_ok, pure_eq_ok] at h
    obtain ⟨planned, hplanned, rfl⟩ := h
    refine ⟨fun _ hjob => ?_, fun _ hmem => absurd hmem not_mem_nil⟩
    obtain ⟨⟨_, found⟩, hmem, rfl⟩ := mem_map.mp hjob
    obtain ⟨_, hmatrix, hcompile⟩ := exists_of_mem_mapEach hplanned hmem
    have hfound : found ⊆ planned.flatMap Prod.snd := fun _ hfinding =>
      mem_flatMap.mpr ⟨_, hmem, hfinding⟩
    exact .static hsource hdynamic hmatrix
      ((jobFrom_of_compileJob hcompile).mono (List.Subset.trans hfound hrisks))

theorem origin_of_planJobs (h : planJobs ext canonical settings workflow maximum vars = .ok plan) :
    ∃ expansions, expandAllMatrices canonical.scalar workflow settings.maxMatrixJobs = .ok expansions ∧
      (∀ job ∈ plan.jobs, Origin ext settings workflow maximum expansions plan.risks false job) ∧
      ∀ template ∈ plan.dynamicJobs,
        Origin ext settings workflow maximum expansions plan.risks true template.template := by
  simp only [planJobs, bind_eq_ok, exists_unit, pure_eq_ok] at h
  obtain ⟨expansions, hexpansions, plans, hplans, -, rfl⟩ := h
  have hplan : ∀ plan ∈ plans, (∀ job ∈ plan.jobs, Origin ext settings workflow maximum expansions
      (plans.flatMap (·.risks)) false job) ∧ ∀ template ∈ plan.dynamicJobs,
        Origin ext settings workflow maximum expansions (plans.flatMap (·.risks)) true template.template := by
    intro plan hmem
    obtain ⟨⟨_, _⟩, hentry, hplanJob⟩ := exists_of_mem_mapEach hplans hmem
    exact origin_of_planJob (BTreeMap.mem_toList.mp hentry)
      (fun _ hfinding => mem_flatMap.mpr ⟨plan, hmem, hfinding⟩) hplanJob
  refine ⟨expansions, hexpansions, fun job hjob => ?_, fun template htemplate => ?_⟩
  · obtain ⟨plan, hmem, hjob⟩ := mem_flatMap.mp ((perm_insertionSort _ _).mem_iff.mp hjob)
    exact (hplan plan hmem).1 job hjob
  · obtain ⟨plan, hmem, htemplate⟩ :=
      mem_flatMap.mp ((perm_insertionSort _ _).mem_iff.mp htemplate)
    exact (hplan plan hmem).2 template htemplate

/-! ### Capsules -/

structure CompiledFrom (ext : Externals) (canonical : Canonical) (settings : CompilerSettings)
    (workflow : Ast.Workflow) (context : CompileContext) (compilation : Compilation)
    (expanded : ExpandedReusableWorkflows) (planned : Plan) (resolved : Resolved) (selected : Plan) : Prop where
  expands : expandReusableWorkflows ext context settings workflow = .ok expanded
  dag : validateDag expanded.workflow = .ok ()
  permissions : convertPermissions ext.sha256 workflow.permissions = .ok compilation.capsule.permissions
  plans : ∃ vars, planJobs ext canonical settings expanded.workflow compilation.capsule.permissions vars =
    .ok planned
  resolves : resolveExternalReferences canonical.lock planned.jobs planned.dynamicJobs context.lockfile
    expanded.references = .ok resolved
  selects : selectPlan context expanded.selectionAliases
    ⟨resolved.jobs, resolved.dynamicJobs, planned.risks⟩ = .ok selected
  jobs : compilation.capsule.jobs = selected.jobs
  dynamicJobs : compilation.capsule.dynamicJobs = selected.dynamicJobs
  approval : compilation.capsule.approval =
    approvalRequirements context { selected with risks := selected.risks.sort.dedupAdjacent }
  findings : compilation.riskReport.findings = selected.risks.sort.dedupAdjacent

variable {context : CompileContext} {compilation : Compilation}

theorem exists_compiled {snapshot : Option ContentDigest}
    (h : compileInner ext canonical settings workflow context snapshot = .ok compilation) :
    ∃ expanded planned resolved selected, CompiledFrom ext canonical settings workflow context compilation
      expanded planned resolved selected := by
  simp only [compileInner, bind_eq_ok, exists_unit, pure_eq_ok] at h
  obtain ⟨expanded, hexpanded, -, hdag, _, hpermissions, vars, -, planned, hplanned, resolved,
    hresolved, selected, hselected, _, -, _, -, rfl⟩ := h
  have hworkflow : expanded.workflow.permissions = workflow.permissions := by
    simp only [expandReusableWorkflows, bind_eq_ok, exists_unit, Prod.exists, pure_eq_ok] at hexpanded
    obtain ⟨-, -, _, _, -, -, rfl⟩ := hexpanded
    rfl
  rw [hworkflow] at hpermissions
  exact ⟨expanded, planned, resolved, selected, hexpanded, hdag, hpermissions, ⟨vars, hplanned⟩, hresolved,
    hselected, rfl, rfl, rfl, rfl⟩

variable {selected : Plan}

theorem selectPlan_sub {aliases : BTreeMap String (List String)} (h : selectPlan context aliases plan = .ok selected) :
    selected.jobs ⊆ plan.jobs ∧ selected.dynamicJobs = plan.dynamicJobs := by
  unfold selectPlan at h
  split at h
  · cases h
    exact ⟨List.Subset.refl _, rfl⟩
  · simp only [bind_eq_ok, pure_eq_ok] at h
    obtain ⟨_, hjobs, rfl⟩ := h
    simp only [selectJobClosure, bind_eq_ok, exists_unit, pure_eq_ok] at hjobs
    obtain ⟨-, _, -, rfl⟩ := hjobs
    exact ⟨filter_subset_self _, rfl⟩

variable {expanded : ExpandedReusableWorkflows} {planned : Plan}

section
variable (h : CompiledFrom ext canonical settings workflow context compilation expanded planned resolved selected)
include h

theorem CompiledFrom.origin :
    ∃ expansions, expandAllMatrices canonical.scalar expanded.workflow settings.maxMatrixJobs = .ok expansions ∧
      (∀ job ∈ compilation.capsule.jobs, ∃ before, Origin ext settings expanded.workflow
        compilation.capsule.permissions expansions planned.risks false before ∧ JobKept before job) ∧
      ∀ template ∈ compilation.capsule.dynamicJobs, ∃ before, Origin ext settings expanded.workflow
        compilation.capsule.permissions expansions planned.risks true before ∧ JobKept before template.template := by
  obtain ⟨_, hplans⟩ := h.plans
  obtain ⟨expansions, hexpansions, hstatic, hdynamic⟩ := origin_of_planJobs hplans
  obtain ⟨hjobs, hdynamicJobs⟩ := mem_of_resolveExternalReferences h.resolves
  obtain ⟨hsub, hsame⟩ := selectPlan_sub h.selects
  refine ⟨expansions, hexpansions, fun job hjob => ?_, fun template htemplate => ?_⟩
  · obtain ⟨before, hbefore, hkept⟩ := hjobs job (hsub (h.jobs ▸ hjob))
    exact ⟨before, hstatic before hbefore, hkept⟩
  · rw [h.dynamicJobs, hsame] at htemplate
    obtain ⟨before, hbefore, hkept⟩ := hdynamicJobs template htemplate
    exact ⟨before.template, hdynamic before hbefore, hkept⟩

theorem CompiledFrom.jobFrom (hjob : job ∈ compilation.capsule.allJobs) :
    ∃ base source needs matrix before, expanded.workflow.jobs[base]? = some source ∧
      JobFrom ext settings compilation.capsule.permissions needs planned.risks base source matrix before ∧
      JobKept before job := by
  obtain ⟨expansions, -, hjobs, htemplates⟩ := h.origin
  have hbefore : ∃ kind before, Origin ext settings expanded.workflow compilation.capsule.permissions
      expansions planned.risks kind before ∧ JobKept before job := by
    rcases mem_append.mp hjob with hjob | hjob
    · exact ⟨false, hjobs job hjob⟩
    · obtain ⟨template, htemplate, rfl⟩ := mem_map.mp hjob
      exact ⟨true, htemplates template htemplate⟩
  obtain ⟨_, _, hbefore, hkept⟩ := hbefore
  cases hbefore with
  | static hsource _ _ hfrom => exact ⟨_, _, _, _, _, hsource, hfrom, hkept⟩
  | dynamic hsource _ hfrom => exact ⟨_, _, _, _, _, hsource, hfrom, hkept⟩

end

end Runtrue.Compiler
