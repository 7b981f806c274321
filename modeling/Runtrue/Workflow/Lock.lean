import Runtrue.Base.Collect
import Runtrue.Base.Text
import Runtrue.Expression.Lexer
import Runtrue.Workflow.Ir

/-!
# Lockfiles

`LockFile::resolve` of the `lock` crate: every required reference has an entry and every entry is required.
`digest` stands for the canonical digest of a lockfile.
-/

namespace Runtrue

open Fallible Expression

/-! ### Digests as texts -/

/-- `count` lower-case hexadecimal digits, most significant first. -/
def hexDigits (value : Nat) : Nat → List Char
  | 0 => []
  | count + 1 => Nat.digitChar (value / 16 ^ count % 16) :: hexDigits value count

def ContentDigest.asStr (digest : ContentDigest) : String :=
  String.ofList ("sha256:".toList ++ hexDigits digest.bits.toNat 64)

def isLowerHex (c : Char) : Bool := c.isDigit || ('a' ≤ c && c ≤ 'f')

/-- `ContentDigest::parse` accepts the text. -/
def isDigestText (text : String) : Bool :=
  match Text.stripStart "sha256:" text with
  | none => false
  | some encoded => encoded.utf8ByteSize = 64 && encoded.toList.all isLowerHex

namespace Lock

inductive EntryKind
  | component | image | workflow
deriving DecidableEq

inductive LockError
  | invalidField (path reason : String)
  | missingEntry (kind : EntryKind) (logicalSource : String)
  | missingImageEntry (logicalSource platform : String)
  | unusedEntry (kind : EntryKind) (logicalSource : String)
  | unusedImageEntry (logicalSource platform : String)
  | canonical
deriving DecidableEq

structure ComponentEntry where
  source : String
  resolved : ContentDigest
  signatureIdentity : String
  witWorld : String

structure ImageEntry where
  source : String
  resolved : String
  platform : String

structure WorkflowEntry where
  source : String
  commit : String
  digest : ContentDigest

structure LockFile where
  lockVersion : U32
  components : List ComponentEntry
  images : List ImageEntry
  workflows : List WorkflowEntry

structure ImageRequirement where
  source : String
  platform : String
deriving DecidableEq, Ord

/-- What a plan needs, in any order and with repetitions. -/
structure LockRequirements where
  components : List String
  images : List ImageRequirement
  workflows : List String

def LockRequirements.isEmpty (requirements : LockRequirements) : Bool :=
  requirements.components.isEmpty && requirements.images.isEmpty && requirements.workflows.isEmpty

structure ResolvedLock where
  digest : ContentDigest
  components : List (String × String)
  images : List (ImageRequirement × String)
  workflows : List (String × String × ContentDigest)

def ResolvedLock.component (resolved : ResolvedLock) (source : String) : Option String :=
  resolved.components.lookup source

def ResolvedLock.image (resolved : ResolvedLock) (source platform : String) : Option String :=
  resolved.images.lookup ⟨source, platform⟩

/-! ### The form of a requirement -/

def maxSourceBytes : Nat := 4096
def maxMetadataBytes : Nat := 1024

def validateText (path value : String) (maxBytes : Nat) : Except LockError Unit :=
  rejectIf (value = "" ∨ value.utf8ByteSize > maxBytes ∨ value.toList.any isWhitespace ∨
      value.toList.any isControl)
    (.invalidField path "value must be non-empty, bounded, and contain no whitespace or control characters")

/-- A selector that claims to be a digest. -/
def isDigestSelector (selector : String) : Bool :=
  Text.eqIgnoreAsciiCase selector "sha256" ||
    ((selector.toList.take 7).map Char.toLower = "sha256:".toList)

def validateEmbeddedDigest (path source : String) : Except LockError Unit :=
  match Text.rsplitOnce '@' source with
  | none => .ok ()
  | some (_, digest) =>
    rejectIf (isDigestSelector digest ∧ ¬isDigestText digest)
      (.invalidField path "embedded digest must be a full lowercase SHA-256 pin")

def validateComponentSource (source : String) : Except LockError Unit := do
  let path := "component.source"
  validateText path source maxSourceBytes
  let locator ← okOr ((Text.stripStart "wasm://" source).or (Text.stripStart "oci://" source))
    (.invalidField path "component sources must use wasm:// or oci://")
  let (location, selector) := match Text.rsplitOnce '@' locator with
    | none => (locator, none)
    | some (location, selector) => (location, some selector)
  rejectIf (location = "" ∨ selector = some "")
    (.invalidField path "component source locator and optional selector must be non-empty")
  validateEmbeddedDigest path source

def validateImageSource (source : String) : Except LockError Unit := do
  validateText "image.source" source maxSourceBytes
  validateEmbeddedDigest "image.source" source

/-- The parts of a text before and after its last double slash. -/
def rsplitDoubleSlash (text : List Char) : Option (List Char × List Char) :=
  match text with
  | [] => none
  | c :: rest =>
    match rsplitDoubleSlash rest with
    | some (before, after) => some (c :: before, after)
    | none => if ['/', '/'].isPrefixOf (c :: rest) then some ([], rest.drop 1) else none

def validateWorkflowSource (source : String) : Except LockError Unit := do
  let path := "workflow.source"
  validateText path source maxSourceBytes
  let withoutScheme ← okOr ((Text.stripStart "git+https://" source).or (Text.stripStart "git+ssh://" source))
    (.invalidField path "workflow sources must use git+https:// or git+ssh://")
  let (location, selector) ← okOr (Text.rsplitOnce '@' withoutScheme)
    (.invalidField path "reusable workflow source must include an @selector")
  rejectIf (selector = "") (.invalidField path "reusable workflow selector must be non-empty")
  let (repository, workflowPath) ← okOr (rsplitDoubleSlash location.toList)
    (.invalidField path "reusable workflow source must include //path")
  let extension := (Text.rsplitOnce '.' (String.ofList workflowPath)).map Prod.snd
  rejectIf (repository = [] ∨ workflowPath = [] ∨ '\\' ∈ workflowPath ∨
      (Text.split '/' (String.ofList workflowPath)).any (fun segment => segment ∈ ["", ".", ".."]) ∨
      extension ∉ [some "yaml", some "yml"])
    (.invalidField path "reusable workflow path must be normalized and non-empty")

def validatePlatform (platform : String) : Except LockError Unit := do
  validateText "image.platform" platform maxMetadataBytes
  rejectIf (platform ∉ ["linux/amd64", "linux/arm64", "windows/amd64", "windows/arm64"])
    (.invalidField "image.platform"
      "platform must be linux/amd64, linux/arm64, windows/amd64, or windows/arm64")

def LockRequirements.validate (requirements : LockRequirements) : Except LockError Unit := do
  forEach requirements.components.sort validateComponentSource
  forEach requirements.images.sort fun image => do
    validateImageSource image.source
    validatePlatform image.platform
  forEach requirements.workflows.sort validateWorkflowSource

/-! ### Resolution -/

def ComponentEntry.immutableReference (entry : ComponentEntry) : Except LockError String := do
  let base := match Text.rsplitOnce '@' entry.source with
    | none => entry.source
    | some (base, _) => base
  rejectIf (base = "")
    (.invalidField "component.source" "source must contain a non-empty component locator")
  return s!"{base}@{entry.resolved.asStr}"

def LockFile.resolve (digest : LockFile → Except LockError ContentDigest) (lock : LockFile)
    (requirements : LockRequirements) : Except LockError ResolvedLock := do
  requirements.validate
  let components ← mapEach (fun source => do
    let entry ← okOr (lock.components.reverse.find? (·.source = source)) (.missingEntry .component source)
    return (source, ← entry.immutableReference)) requirements.components.sort.dedupAdjacent
  let images ← mapEach (fun image => do
    let entry ← okOr
      (lock.images.reverse.find? fun entry => entry.source = image.source ∧ entry.platform = image.platform)
      (.missingImageEntry image.source image.platform)
    return (image, entry.resolved)) requirements.images.sort.dedupAdjacent
  let workflows ← mapEach (fun source => do
    let entry ← okOr (lock.workflows.reverse.find? (·.source = source)) (.missingEntry .workflow source)
    return (source, entry.commit, entry.digest)) requirements.workflows.sort.dedupAdjacent
  forEach lock.components fun entry =>
    rejectIf (entry.source ∉ requirements.components) (.unusedEntry .component entry.source)
  forEach lock.images fun entry =>
    rejectIf (⟨entry.source, entry.platform⟩ ∉ requirements.images)
      (.unusedImageEntry entry.source entry.platform)
  forEach lock.workflows fun entry =>
    rejectIf (entry.source ∉ requirements.workflows) (.unusedEntry .workflow entry.source)
  return ⟨← digest lock, components, images, workflows⟩

end Lock

end Runtrue
