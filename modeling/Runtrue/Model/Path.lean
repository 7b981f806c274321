import Runtrue.Base.Fallible

/-!
# Normalised relative paths

`normalize_relative_path` of the model crate. `components` is the standard library's reading of a Unix
path: separators only separate, so empty segments and a `.` after the first segment are skipped.
-/

namespace Runtrue

open Fallible

/-- The one error of the model crate's path functions. -/
inductive ModelError
  | unsafePath (value : String)
deriving DecidableEq

inductive Component
  | rootDir | curDir | parentDir
  | normal (segment : String)
deriving DecidableEq

/-- A segment that is not the first one of a relative path. -/
def Component.ofSegment : List Char → Option Component
  | [] => none
  | ['.'] => none
  | ['.', '.'] => some .parentDir
  | segment => some (.normal (String.ofList segment))

def segments (value : String) : List (List Char) := value.toList.splitOn '/'

def components (value : String) : List Component :=
  match segments value with
  | [] :: rest => if value = "" then [] else .rootDir :: rest.filterMap Component.ofSegment
  | ['.'] :: rest => .curDir :: rest.filterMap Component.ofSegment
  | all => all.filterMap Component.ofSegment

/-- What the loop over the components does to the segments kept so far. -/
def keepSegment (value : String) (kept : List String) : Component → Except ModelError (List String)
  | .normal segment => .ok (kept ++ [segment])
  | .curDir => .ok kept
  | .parentDir | .rootDir => .error (.unsafePath value)

def normalizeRelativePath (value : String) : Except ModelError String := do
  rejectIf (value = "" ∨ '\x00' ∈ value.toList ∨ '\\' ∈ value.toList) (.unsafePath value)
  let kept ← foldEach (keepSegment value) [] (components value)
  rejectIf (kept = []) (.unsafePath value)
  return "/".intercalate kept

end Runtrue
