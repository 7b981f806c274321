import Runtrue.Compiler.Risk
import Runtrue.Compiler.Validation

/-!
# Steps, services and outputs

`steps.rs`: the checks and the conversion of the parts of a job. A step is planned with capabilities bounded
by the permissions of its job, together with the findings about it.
-/

namespace Runtrue.Compiler

open Fallible Expression

/-! ### Actions -/

def convertShell : Ast.Shell → Ir.Shell
  | .bash => .bash
  | .sh => .sh
  | .pwsh => .pwsh
  | .cmd => .cmd

def convertArguments (path : String) (arguments : List Ast.ValueBinding) : Compiled (List Ir.ValueBinding) :=
  mapEach (fun (value, index) => convertBinding value s!"{path}[{index}]") arguments.zipIdx

def compileCommand (command : Ast.CommandRun) (path : String) :
    Compiled (Ir.StepAction × Option String) := do
  rejectIf (command.command.headD "" = "")
    (.semantic s!"{path}.run.command" "command must contain a non-empty program")
  rejectIf (command.command.any fun argument => '\x00' ∈ argument.toList)
    (.semantic s!"{path}.run.command" "command values cannot contain NUL bytes")
  let bound ← convertArguments s!"{path}.run.args" command.args
  let arguments := command.command.tail.map (fun value => Ir.ValueBinding.literal (.string value)) ++ bound
  rejectIf (arguments.any isUntrustedRuntimeContext) (.semantic s!"{path}.run.args"
    ("untrusted runtime values cannot be passed to process arguments; use a reviewed workflow literal, " ++
      "vars value, or static matrix value"))
  let directory ← mapSome (normalizePath · s!"{path}.run.working-directory") command.workingDirectory
  return (.command (command.command.headD "") arguments, directory)

def compileContainer (container : Ast.ContainerInvocation) (path : String) :
    Compiled (Ir.StepAction × Option String) := do
  rejectIf (container.entrypoint.any fun entrypoint => entrypoint = "" ∨ '\x00' ∈ entrypoint.toList)
    (.semantic s!"{path}.run.container.entrypoint"
      "container entrypoint must be non-empty and contain no NUL byte")
  let arguments ← mapSome (convertArguments s!"{path}.run.container.args") container.args
  rejectIf (arguments = some [])
    (.semantic s!"{path}.run.container.args" "container args must be omitted or non-empty")
  rejectIf (arguments.any fun arguments => arguments.any isUntrustedRuntimeContext)
    (.semantic s!"{path}.run.container.args"
      "untrusted runtime values cannot be passed to container arguments")
  return (.container container.entrypoint arguments, none)

variable (numbers : NumberText) (sha256 : List UInt8 → ContentDigest)

def compileScript (script : Ast.ScriptRun) (path : String) (allowUnsafeInterpolation : Bool) :
    Compiled ((Ir.StepAction × Option String) × List RiskFinding) := do
  rejectIf ('\x00' ∈ script.script.toList)
    (.semantic s!"{path}.run.script" "script source cannot contain NUL bytes")
  rejectIf (script.shell = .pwsh ∨ script.shell = .cmd)
    (.semantic s!"{path}.run.shell" "the current compiler supports bash and sh scripts only")
  rejectIf (Text.occursIn ['$', '\x7b', '\x7b'] script.script.toList ∧
      ¬(script.unsafeInterpolation ∧ allowUnsafeInterpolation))
    (.semantic s!"{path}.run.script"
      "expression interpolation in shell source is denied; pass values through env or args")
  rejectIf (script.unsafeInterpolation ∧ ¬allowUnsafeInterpolation)
    (.semantic s!"{path}.run.unsafe-interpolation"
      "unsafe interpolation requires an explicit compiler policy exception")
  let directory ← mapSome (normalizePath · s!"{path}.run.working-directory") script.workingDirectory
  let action := Ir.StepAction.script (convertShell script.shell) script.script
    (sha256 (Text.bytes script.script))
  let risks := flag script.unsafeInterpolation (.high "unsafe-shell-interpolation" s!"{path}.run.script"
    "shell source permits unsafe expression interpolation")
  return ((action, directory), risks)

def compileRun (run : Ast.Run) (path : String) (allowUnsafeInterpolation : Bool) :
    Compiled ((Ir.StepAction × Option String) × List RiskFinding) :=
  match run with
  | .command command => do return (← compileCommand command path, [])
  | .container container => do return (← compileContainer container path, [])
  | .script script => compileScript sha256 script path allowUnsafeInterpolation

/-! ### Services, outputs and caches -/

def compileHealthcheck (healthcheck : Ast.Healthcheck) (path : String) : Compiled Ir.Healthcheck := do
  rejectIf (healthcheck.command.headD "" = "")
    (.semantic s!"{path}.command" "healthcheck command must contain a non-empty program")
  rejectIf (healthcheck.retries < 1 ∨ healthcheck.retries > 100)
    (.semantic s!"{path}.retries" "healthcheck retries must be between 1 and 100")
  let intervalMs ← parseDuration healthcheck.interval s!"{path}.interval"
  let timeoutMs ← parseDuration healthcheck.timeout s!"{path}.timeout"
  return ⟨healthcheck.command, intervalMs, timeoutMs, healthcheck.retries⟩

def compileEnvironment (env : BTreeMap String Ast.ValueBinding) (path : String) :
    Compiled (BTreeMap String Ir.ValueBinding) :=
  env.mapEntries fun name binding => do
    validateEnvironmentName name s!"{path}.{name}"
    convertEnvironmentBinding binding s!"{path}.{name}"

def compileService (jobPath : String) (id : String) (service : Ast.Service) :
    Compiled Ir.PlannedService := do
  let path := s!"{jobPath}.services.{id}"
  validateIdentifier id path
  validateExternalReference service.image s!"{path}.image"
  rejectIf (service.ports.contains 0) (.semantic s!"{path}.ports" "service ports must be between 1 and 65535")
  let environment ← compileEnvironment service.env s!"{path}.env"
  let healthcheck ← mapSome (compileHealthcheck · s!"{path}.healthcheck") service.healthcheck
  return ⟨id, service.image, service.ports.sort.dedupAdjacent, environment, healthcheck⟩

def convertClassification : Ast.ArtifactClassification → Ir.ArtifactClassification
  | .untrustedBuild => .untrustedBuild
  | .quarantined => .quarantined
  | .verifiedTestOutput => .verifiedTestOutput
  | .releaseCandidate => .releaseCandidate
  | .promotedRelease => .promotedRelease
  | .sensitive => .sensitive
  | .pub => .pub

def compileOutput (jobPath : String) (id : String) (output : Ast.OutputDefinition) :
    Compiled Ir.ArtifactOutput := do
  validateIdentifier id s!"{jobPath}.outputs.{id}"
  let path ← normalizePath output.path s!"{jobPath}.outputs.{id}.path"
  let retentionMs ← parseRetention output.retention s!"{jobPath}.outputs.{id}.retention"
  return ⟨path, retentionMs, convertClassification output.classification⟩

def convertCacheMode : Ast.CacheMode → Ir.CacheMode
  | .readOnly => .readOnly
  | .readWrite => .readWrite
  | .writeOnly => .writeOnly

def compileCache (path : String) (cache : Ast.CacheDeclaration) : Compiled Ir.CacheDeclaration := do
  let inputs ← mapEach (normalizePattern · s!"{path}.cache.inputs") cache.inputs
  let outputs ← mapEach (normalizePattern · s!"{path}.cache.outputs") cache.outputs
  rejectIf (inputs = [] ∧ outputs = [])
    (.semantic s!"{path}.cache" "cache declaration must include inputs or outputs")
  let maxSizeBytes ← mapSome (parseSize · s!"{path}.cache.max-size") cache.maxSize
  rejectIf (maxSizeBytes = some 0)
    (.semantic s!"{path}.cache.max-size" "cache max-size must be greater than zero")
  return ⟨inputs.sort.dedupAdjacent, outputs.sort.dedupAdjacent, convertCacheMode cache.mode, maxSizeBytes⟩

/-! ### Capabilities -/

def requestedNetwork : Option Ast.NetworkPolicy → Compiled Ir.NetworkPermission
  | some policy => convertNetworkPolicy policy
  | none => .ok .deny

def stepCacheRead (permissions : Ir.PermissionSet) : Option Ast.CachePermissions → Ir.CacheRead
  | some cache => minCacheRead permissions.cacheRead (convertCacheRead cache.read)
  | none => .deny

def stepCacheWrite (permissions : Ir.PermissionSet) : Option Ast.CachePermissions → Ir.CacheWrite
  | some cache => minCacheWrite permissions.cacheWrite (convertCacheWrite cache.write)
  | none => .deny

def compileStepCapabilities (capabilities : Ast.StepCapabilities) (permissions : Ir.PermissionSet)
    (path : String) : Compiled Ir.StepCapabilitySet := do
  let fs := capabilities.fs.getD {}
  let fsRead ← mapEach (normalizePattern · s!"{path}.capabilities.fs.read") fs.read
  let fsWrite ← mapEach (normalizePattern · s!"{path}.capabilities.fs.write") fs.write
  let network ← requestedNetwork capabilities.network
  forEach capabilities.secrets fun request =>
    rejectIf (secretReference sha256 request ∉ permissions.secrets)
      (.semantic s!"{path}.capabilities.secrets"
        s!"step requests secret `{request.name}` with an ungranted purpose")
  let audiences := ((capabilities.oidc.map (·.audiences)).getD []).sort.dedupAdjacent
  rejectIf (¬audiences ⊆ permissions.oidcAudiences) (.semantic s!"{path}.capabilities.oidc"
    "step requests an OIDC audience outside the job permission set")
  validateSigningRequests capabilities.signing s!"{path}.capabilities.signing"
  let signing := capabilities.signing.map signingCapability
  rejectIf (¬signing ⊆ permissions.signing) (.semantic s!"{path}.capabilities.signing"
    "step requests a signing purpose, operation, or key policy outside the job permission set")
  return {
    fsRead := fsRead.sort.dedupAdjacent
    fsWrite := fsWrite.sort.dedupAdjacent
    network := intersectNetwork permissions.network network
    secrets := (capabilities.secrets.map (secretReference sha256)).sort.dedupAdjacent
    checks := minAccess permissions.checks (convertAccess capabilities.checks)
    artifacts := minAccess permissions.artifacts (convertAccess capabilities.artifacts)
    cacheRead := stepCacheRead permissions capabilities.cache
    cacheWrite := stepCacheWrite permissions capabilities.cache
    oidcAudiences := audiences
    signing := signing.sort }

/-! ### Steps -/

def convertStepOutputType : Ast.StepOutputType → Ir.StepOutputType
  | .string => .string
  | .integer => .integer
  | .number => .number
  | .boolean => .boolean
  | .json => .json
  | .artifactReference => .artifactReference

/-- The action of a step that has exactly one of `uses` and `run`. -/
def compileAction (settings : CompilerSettings) (step : Ast.Step) (path : String) :
    Compiled ((Ir.StepAction × Option String) × List RiskFinding) :=
  match step.uses, step.run with
  | some reference, _ => do
    validateExternalReference reference s!"{path}.uses"
    return ((.component reference, none), [])
  | none, some run => compileRun sha256 run path settings.allowUnsafeInterpolation
  | none, none => .error (.semantic path "validated run")

def compileStep (settings : CompilerSettings) (step : Ast.Step) (stepId : String) (index : Nat)
    (jobPath : String) (permissions : Ir.PermissionSet) : Compiled (Ir.PlannedStep × List RiskFinding) := do
  let path := s!"{jobPath}.steps[{index}]"
  rejectIf (step.uses.isSome = step.run.isSome)
    (.semantic path "a step must define exactly one of `uses` or `run`")
  rejectIf (step.run.isSome ∧ ¬step.inputs.isEmpty) (.semantic s!"{path}.with"
    "`with` inputs are valid only for component steps; use env or run.args for commands")
  let condition ← mapSome (normalizeExpression numbers · s!"{path}.if") step.condition
  forEach step.env.keys fun name => validateEnvironmentName name s!"{path}.env.{name}"
  let environment ← step.env.mapEntries fun name value =>
    convertEnvironmentBinding value s!"{path}.env.{name}"
  let inputs ← step.inputs.mapEntries fun name value => convertBinding value s!"{path}.with.{name}"
  let ((action, workingDirectory), actionRisks) ← compileAction sha256 settings step path
  let timeoutMs ← mapSome (parseDuration · s!"{path}.timeout") step.timeout
  let capabilities ← compileStepCapabilities sha256 step.capabilities permissions path
  let cache ← mapSome (compileCache path) step.cache
  let outputs ← step.outputs.mapEntries fun name output => do
    validateIdentifier name s!"{path}.outputs.{name}"
    return (⟨convertStepOutputType output.kind, output.required⟩ : Ir.StepOutputSchema)
  return ({
    id := stepId
    name := step.name.getD stepId
    condition := condition
    action := action
    inputs := inputs
    environment := environment
    capabilities := capabilities
    cache := cache
    timeoutMs := timeoutMs
    continueOnError := step.continueOnError
    outputs := outputs
    workingDirectory := workingDirectory }, actionRisks ++ collectStepRisks capabilities path)

end Runtrue.Compiler
