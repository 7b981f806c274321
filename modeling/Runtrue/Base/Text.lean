import Runtrue.Base.Fixed

/-!
# Text

The functions on strings that the source uses, over the characters of a text.
-/

namespace Text

open List Char

/-- The parts of a text between separators. -/
def split (separator : Char) (text : String) : List String :=
  (text.toList.splitOn separator).map String.ofList

/-- What follows `start`, if the text starts with it. -/
def stripStart (start text : String) : Option String :=
  (text.toList.dropPrefix? start.toList).map String.ofList

/-- What precedes `finish`, if the text ends with it. -/
def stripEnd (finish text : String) : Option String :=
  (text.toList.reverse.dropPrefix? finish.toList.reverse).map fun rest => String.ofList rest.reverse

def startsWith (start text : String) : Bool := start.toList.isPrefixOf text.toList

/-- The parts before and after the last separator. -/
def rsplitOnce (separator : Char) (text : String) : Option (String × String) :=
  match text.toList.reverse.span (· ≠ separator) with
  | (_, []) => none
  | (after, _ :: before) => some (String.ofList before.reverse, String.ofList after.reverse)

def toAsciiLowercase (text : String) : String := String.ofList (text.toList.map Char.toLower)

def eqIgnoreAsciiCase (left right : String) : Bool := toAsciiLowercase left = toAsciiLowercase right

def occursIn (part : List Char) : List Char → Bool
  | [] => part.isEmpty
  | c :: rest => part.isPrefixOf (c :: rest) || occursIn part rest

/-- The number that a list of decimal digits stands for. -/
def decimal (digits : List Char) : Nat := digits.foldl (fun n d => n * 10 + (d.toNat - '0'.toNat)) 0

/-- `str::parse::<u64>`. -/
def parseU64 (text : String) : Option U64 :=
  let digits := match text.toList with
    | '+' :: rest => rest
    | all => all
  if digits ≠ [] ∧ digits.all Char.isDigit then Fixed.tryFrom 64 (decimal digits) else none

/-- The UTF-8 encoding. -/
def bytes (text : String) : List UInt8 := text.toUTF8.data.toList

/-! ### Parts -/

variable {start text rest : String}

theorem stripStart_eq_some : stripStart start text = some rest ↔ text.toList = start.toList ++ rest.toList := by
  rw [stripStart, Option.map_eq_some_iff]
  constructor
  · rintro ⟨_, hrest', rfl⟩
    obtain ⟨_, htext, hstart⟩ := dropPrefix?_eq_some_iff.mp hrest'
    rw [htext, eq_of_beq hstart, String.toList_ofList]
  · intro htext
    exact ⟨rest.toList, dropPrefix?_eq_some_iff.mpr ⟨start.toList, htext, beq_self_eq_true _⟩,
      String.ofList_toList⟩

variable {separator : Char}

theorem split_cons {first text rest : String} (hfirst : separator ∉ first.toList)
    (htext : text.toList = first.toList ++ separator :: rest.toList) :
    split separator text = first :: split separator rest := by
  have hne : ∀ c ∈ first.toList, (c == separator) = false := by
    intro c hc
    rw [beq_eq_false_iff_ne]
    rintro rfl
    exact hfirst hc
  have hsplit := splitOnP_append_cons_of_forall_mem hne separator (beq_self_eq_true _) rest.toList
  rw [split, htext, splitOn, hsplit, map_cons, String.ofList_toList]
  rfl

theorem toAsciiLowercase_idem (text : String) : toAsciiLowercase (toAsciiLowercase text) = toAsciiLowercase text := by
  have hcomp : toLower ∘ toLower = toLower :=
    funext fun c => toLower_eq_of_not_isUpper (by simp)
  simp [toAsciiLowercase, hcomp]

theorem startsWith_trans {start middle text : String} (h : startsWith start middle = true)
    (h' : startsWith middle text = true) : startsWith start text = true := by
  rw [startsWith, isPrefixOf_iff_prefix] at *
  exact h.trans h'

theorem startsWith_append_right (h : startsWith start text = true) (rest : String) :
    startsWith start (text ++ rest) = true := by
  rw [startsWith, isPrefixOf_iff_prefix] at h ⊢
  rw [String.toList_append]
  exact h.trans (prefix_append _ _)

@[simp] theorem startsWith_append_left (path start text : String) :
    startsWith (path ++ start) (path ++ text) = startsWith start text := by
  rw [Bool.eq_iff_iff, startsWith, startsWith, isPrefixOf_iff_prefix, isPrefixOf_iff_prefix,
    String.toList_append, String.toList_append, prefix_append_right_inj]

end Text
