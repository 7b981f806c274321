import Runtrue.Base.Text

/-!
# Durations and sizes

`DurationMillis::parse` and `ByteSize::parse` of the model crate. Each has one error, which names the text.
-/

namespace Runtrue

/-- The amount before the first suffix that the text ends with, in that suffix's unit. -/
def parseUnits (value : String) : List (String × U64) → Option U64
  | [] => none
  | (suffix, multiplier) :: rest =>
    match Text.stripEnd suffix value with
    | some digits => (Text.parseU64 digits).bind fun amount =>
        Fixed.tryFrom 64 (amount.toNat * multiplier.toNat)
    | none => parseUnits value rest

def parseDurationMillis (value : String) : Option U64 :=
  (parseUnits value [("ms", 1), ("s", 1000), ("m", 60000), ("h", 3600000)]).filter (· ≠ 0)

def parseByteSize (value : String) : Option U64 :=
  parseUnits value [("KiB", 2 ^ 10), ("MiB", 2 ^ 20), ("GiB", 2 ^ 30), ("TiB", 2 ^ 40), ("KB", 1000),
    ("MB", 1000000), ("GB", 1000000000), ("B", 1)]

def invalidDuration (value : String) : String :=
  s!"invalid duration `{value}`; expected a positive integer followed by ms, s, m, or h"

def invalidSize (value : String) : String :=
  s!"invalid byte size `{value}`; expected an integer followed by B, KB, MB, GB, KiB, MiB, GiB, or TiB"

end Runtrue
