import Runtrue.Compiler.Bindings

/-!
# Permissions

`permissions/*.rs` and `intersect_ast_permissions`: the checks of a requested permission set, its conversion
and its intersection with the largest set allowed. `sha256` is the digest of the identity of a secret. The
permissions of a reusable workflow are intersected as definitions, which costs a round trip through the
request types.
-/

namespace Runtrue.Compiler

open Fallible

def maxSigningCapabilities : Nat := 32
def maxSigningIdentifierBytes : Nat := 128

/-! ### Network policies -/

def isDnsLabel (label : String) : Bool :=
  label ≠ "" && label.utf8ByteSize ≤ 63 && !Text.startsWith "-" label && (Text.stripEnd "-" label).isNone &&
    label.toList.all fun c => c.isAlphanum || c = '-'

def validateHost (host path : String) : Compiled Unit :=
  let value := (Text.stripStart "*." host).getD host
  let validDnsName := value ≠ "" && value.utf8ByteSize ≤ 253 && (Text.split '.' value).all isDnsLabel
  rejectIf (host = "*" ∨ host.toList.count '*' > (if Text.startsWith "*." host then 1 else 0) ∨ ¬validDnsName)
    (.semantic path s!"invalid network host `{host}`")

def convertProtocol : Ast.NetworkProtocol → Ir.NetworkProtocol
  | .tcp => .tcp
  | .udp => .udp

def convertDestination (destination : Ast.NetworkDestination) : Ir.NetworkDestination :=
  ⟨Text.toAsciiLowercase destination.host, destination.port, convertProtocol destination.protocol⟩

/-- The loop over the destinations of a policy, with those seen before. -/
def checkDestination (path : String) (seen : List Ir.NetworkDestination)
    (destination : Ast.NetworkDestination) : Compiled (List Ir.NetworkDestination) := do
  rejectIf (destination.port = 0)
    (.semantic s!"{path}.allow" "network destination port must be between 1 and 65535")
  validateHost destination.host s!"{path}.allow"
  rejectIf (convertDestination destination ∈ seen)
    (.semantic s!"{path}.allow" "duplicate network destination")
  return convertDestination destination :: seen

def validateNetworkPolicy (policy : Ast.NetworkPolicy) (path : String) : Compiled Unit := do
  let _ ← foldEach (checkDestination path) [] policy.allow
  rejectIf (0 ∈ policy.listen) (.semantic s!"{path}.listen" "listen port must be between 1 and 65535")

def convertDns : Ast.DnsPolicy → Ir.DnsPolicy
  | .deny => .deny
  | .restricted => .restricted
  | .allow => .allow

/-- A policy that allows nothing is a denial. -/
def networkOf (dns : Ir.DnsPolicy) (denyPrivateRanges : Bool) (destinations : List Ir.NetworkDestination)
    (listen : List U16) : Ir.NetworkPermission :=
  if dns = .deny ∧ destinations = [] ∧ listen = [] then .deny
  else .allow dns denyPrivateRanges destinations listen

def convertNetworkPolicy (policy : Ast.NetworkPolicy) : Compiled Ir.NetworkPermission := do
  validateNetworkPolicy policy "network"
  return networkOf (convertDns policy.dns) policy.denyPrivateRanges
    (policy.allow.map convertDestination).sort.dedupAdjacent policy.listen.sort.dedupAdjacent

/-! ### Signing requests -/

def convertSigningOperation : Ast.SigningOperation → Ir.SigningOperation
  | .signDigest => .signDigest
  | .signAttestation => .signAttestation

def signingCapability (request : Ast.SigningRequest) : Ir.SigningCapability :=
  ⟨request.purpose, convertSigningOperation request.operation, request.keyPolicy⟩

def isSigningIdentifier (value : String) : Bool :=
  value ≠ "" && value.utf8ByteSize ≤ maxSigningIdentifierBytes &&
    (value.toList.head?.any Char.isAlphanum) &&
    value.toList.all fun c => c.isAlphanum || c = '-' || c = '_' || c = '.'

def validateSigningIdentifier (value path : String) : Compiled Unit :=
  rejectIf (¬isSigningIdentifier value) (.semantic path
    (s!"signing identifier must be 1..={maxSigningIdentifierBytes} ASCII letters, digits, '.', '_' or '-', " ++
      "starting with a letter or digit"))

/-- The loop over the requests, with those seen before. -/
def checkSigningRequest (path : String) (seen : List Ir.SigningCapability)
    (entry : Ast.SigningRequest × Nat) : Compiled (List Ir.SigningCapability) := do
  let (request, index) := entry
  validateSigningIdentifier request.purpose s!"{path}[{index}].purpose"
  validateSigningIdentifier request.keyPolicy s!"{path}[{index}].key-policy"
  rejectIf (signingCapability request ∈ seen)
    (.semantic path "signing capabilities must be exact and unique")
  return signingCapability request :: seen

def validateSigningRequests (requests : List Ast.SigningRequest) (path : String) : Compiled Unit := do
  rejectIf (requests.length > maxSigningCapabilities) (.semantic path
    s!"signing capabilities exceed the {maxSigningCapabilities} entry limit")
  let _ ← foldEach (checkSigningRequest path) [] requests.zipIdx

/-! ### Permission sets -/

def validateNetworkPermission (network : Ast.NetworkPermission) (path : String) : Compiled Unit :=
  match network with
  | .keyword keyword => rejectIf (keyword ≠ "deny")
      (.semantic s!"{path}.network" s!"unknown network permission keyword `{keyword}`")
  | .policy policy => validateNetworkPolicy policy s!"{path}.network"

def validateOidcPermission (oidc : Ast.OidcPermission) (path : String) : Compiled Unit :=
  match oidc with
  | .keyword keyword => rejectIf (keyword ≠ "deny")
      (.semantic s!"{path}.oidc" s!"unknown OIDC permission keyword `{keyword}`")
  | .allow allow => rejectIf (allow.audiences = [] ∨ "" ∈ allow.audiences)
      (.semantic s!"{path}.oidc.audiences" "OIDC audiences must contain at least one non-empty value")

/-- The loop over the secrets, with the names seen before. -/
def checkSecret (path : String) (seen : List String) (secret : Ast.SecretRequest) :
    Compiled (List String) := do
  rejectIf (secret.name = "") (.semantic s!"{path}.secrets" "secret name cannot be empty")
  rejectIf (secret.name ∈ seen) (.semantic s!"{path}.secrets" s!"duplicate secret request `{secret.name}`")
  return secret.name :: seen

def validatePermissions (permissions : Ast.Permissions) (path : String) : Compiled Unit := do
  validateNetworkPermission permissions.network path
  validateOidcPermission permissions.oidc path
  let _ ← foldEach (checkSecret path) [] permissions.secrets
  validateSigningRequests permissions.signing s!"{path}.signing"

def convertAccess : Ast.Access → Ir.Access
  | .deny => .deny
  | .read => .read
  | .write => .write

def convertScm (scm : Ast.ScmPermissions) : Ir.ScmPermissions :=
  ⟨convertAccess scm.contents, convertAccess scm.issues, convertAccess scm.pullRequests,
    convertAccess scm.checks, convertAccess scm.statuses⟩

def convertCacheRead : Ast.CacheRead → Ir.CacheRead
  | .deny => .deny
  | .pub => .pub
  | .verified => .verified
  | .branch => .branch
  | .run => .run

def convertCacheWrite : Ast.CacheWrite → Ir.CacheWrite
  | .deny => .deny
  | .quarantine => .quarantine
  | .branch => .branch
  | .verified => .verified

variable (sha256 : List UInt8 → ContentDigest)

def secretReference (request : Ast.SecretRequest) : SecretReference :=
  let purpose := request.purpose.getD ""
  let identity := s!"{request.name}\x00{purpose}"
  ⟨s!"local:{(sha256 (Text.bytes identity)).asStr}", request.name, request.purpose, none⟩

def convertNetworkPermission : Ast.NetworkPermission → Compiled Ir.NetworkPermission
  | .keyword _ => .ok .deny
  | .policy policy => convertNetworkPolicy policy

def requestedAudiences : Ast.OidcPermission → List String
  | .keyword _ => []
  | .allow allow => allow.audiences

def convertPermissions (permissions : Ast.Permissions) : Compiled Ir.PermissionSet := do
  validatePermissions permissions "permissions"
  let network ← convertNetworkPermission permissions.network
  return {
    repository := convertAccess permissions.repository
    scm := convertScm permissions.scm
    checks := convertAccess permissions.checks
    artifacts := convertAccess permissions.artifacts
    registry := convertAccess permissions.registry
    network := network
    oidcAudiences := (requestedAudiences permissions.oidc).sort.dedupAdjacent
    cacheRead := convertCacheRead permissions.cache.read
    cacheWrite := convertCacheWrite permissions.cache.write
    secrets := (permissions.secrets.map (secretReference sha256)).sort
    signing := (permissions.signing.map signingCapability).sort }

/-! ### Intersections -/

def accessRank : Ir.Access → Nat
  | .deny => 0
  | .read => 1
  | .write => 2

def minAccess (left right : Ir.Access) : Ir.Access := if accessRank left < accessRank right then left else right

def dnsRank : Ir.DnsPolicy → Nat
  | .deny => 0
  | .restricted => 1
  | .allow => 2

def minDns (left right : Ir.DnsPolicy) : Ir.DnsPolicy := if dnsRank left < dnsRank right then left else right

/-- Cache domains are not nested: two of them have a common part only if they are the same. -/
def minCacheRead (left right : Ir.CacheRead) : Ir.CacheRead := if left = right then left else .deny

def minCacheWrite (left right : Ir.CacheWrite) : Ir.CacheWrite := if left = right then left else .deny

def intersectNetwork : Ir.NetworkPermission → Ir.NetworkPermission → Ir.NetworkPermission
  | .allow maxDns maxPrivate maxDestinations maxListen, .allow dns denyPrivate destinations listen =>
    networkOf (minDns maxDns dns) (maxPrivate || denyPrivate)
      (destinations.filter fun destination => destination ∈ maxDestinations)
      (listen.filter fun port => port ∈ maxListen)
  | _, _ => .deny

def intersectScm (maximum requested : Ir.ScmPermissions) : Ir.ScmPermissions :=
  ⟨minAccess maximum.contents requested.contents, minAccess maximum.issues requested.issues,
    minAccess maximum.pullRequests requested.pullRequests, minAccess maximum.checks requested.checks,
    minAccess maximum.statuses requested.statuses⟩

def intersectPermissions (maximum requested : Ir.PermissionSet) : Ir.PermissionSet where
  repository := minAccess maximum.repository requested.repository
  scm := intersectScm maximum.scm requested.scm
  checks := minAccess maximum.checks requested.checks
  artifacts := minAccess maximum.artifacts requested.artifacts
  registry := minAccess maximum.registry requested.registry
  network := intersectNetwork maximum.network requested.network
  oidcAudiences := (requested.oidcAudiences.filter fun audience => audience ∈ maximum.oidcAudiences).sort
  cacheRead := minCacheRead maximum.cacheRead requested.cacheRead
  cacheWrite := minCacheWrite maximum.cacheWrite requested.cacheWrite
  secrets := (requested.secrets.filter fun secret => secret ∈ maximum.secrets).sort
  signing := (requested.signing.filter fun capability => capability ∈ maximum.signing).sort

/-! ### Back to a definition -/

def astAccess : Ir.Access → Ast.Access
  | .deny => .deny
  | .read => .read
  | .write => .write

def astScm (scm : Ir.ScmPermissions) : Ast.ScmPermissions :=
  ⟨astAccess scm.contents, astAccess scm.issues, astAccess scm.pullRequests, astAccess scm.checks,
    astAccess scm.statuses⟩

def astDns : Ir.DnsPolicy → Ast.DnsPolicy
  | .deny => .deny
  | .restricted => .restricted
  | .allow => .allow

def astProtocol : Ir.NetworkProtocol → Ast.NetworkProtocol
  | .tcp => .tcp
  | .udp => .udp

def astDestination (destination : Ir.NetworkDestination) : Ast.NetworkDestination :=
  ⟨destination.host, destination.port, astProtocol destination.protocol⟩

def astNetwork : Ir.NetworkPermission → Ast.NetworkPermission
  | .deny => .keyword "deny"
  | .allow dns denyPrivateRanges destinations listen =>
    .policy ⟨astDns dns, denyPrivateRanges, destinations.map astDestination, listen⟩

def astCacheRead : Ir.CacheRead → Ast.CacheRead
  | .deny => .deny
  | .pub => .pub
  | .verified => .verified
  | .branch => .branch
  | .run => .run

def astCacheWrite : Ir.CacheWrite → Ast.CacheWrite
  | .deny => .deny
  | .quarantine => .quarantine
  | .branch => .branch
  | .verified => .verified

def astSecret (secret : SecretReference) : Ast.SecretRequest := ⟨secret.name, secret.purpose⟩

def astSigningOperation : Ir.SigningOperation → Ast.SigningOperation
  | .signDigest => .signDigest
  | .signAttestation => .signAttestation

def astSigning (capability : Ir.SigningCapability) : Ast.SigningRequest :=
  ⟨capability.purpose, astSigningOperation capability.operation, capability.keyPolicy⟩

def astPermissions (permissions : Ir.PermissionSet) : Ast.Permissions where
  repository := astAccess permissions.repository
  scm := astScm permissions.scm
  checks := astAccess permissions.checks
  artifacts := astAccess permissions.artifacts
  registry := astAccess permissions.registry
  network := astNetwork permissions.network
  oidc := if permissions.oidcAudiences = [] then .keyword "deny" else .allow ⟨permissions.oidcAudiences⟩
  cache := ⟨astCacheRead permissions.cacheRead, astCacheWrite permissions.cacheWrite⟩
  secrets := permissions.secrets.map astSecret
  signing := permissions.signing.map astSigning

def intersectAstPermissions (maximum requested : Ast.Permissions) : Compiled Ast.Permissions := do
  let maximum ← convertPermissions sha256 maximum
  let requested ← convertPermissions sha256 requested
  return astPermissions (intersectPermissions maximum requested)

end Runtrue.Compiler
