import Runtrue.Compiler.Bindings

/-!
# Where a path leads

Both normalisers keep the names among the segments of a path. Below a directory without symbolic links the names alone
say where a path leads, as long as no segment goes back to a parent.
-/

namespace Runtrue

open Fallible Compiler List Text
open String (ofList)

/-- A lookup of one segment below a directory, which is the list of the names on the way to it. -/
def enter (directory : List String) (segment : String) : List String :=
  if segment = "" ∨ segment = "." then directory
  else if segment = ".." then directory.dropLast
  else directory ++ [segment]

def partsOf (value : String) : List String := split '/' value

/-- Where a path leads from a directory. A path that begins with a separator leads from the root of the file system. -/
def locate (directory : List String) (value : String) : List String :=
  match partsOf value with
  | "" :: parts => parts.foldl enter []
  | parts => parts.foldl enter directory

def names (parts : List String) : List String := parts.filter fun part => part ≠ "" ∧ part ≠ "."

/-- What both normalisers accept. -/
structure Contained (value : String) : Prop where
  nonempty : value ≠ ""
  noNul : '\x00' ∉ value.toList
  noBackslash : '\\' ∉ value.toList
  relative : (partsOf value).head? ≠ some ""
  downward : ".." ∉ partsOf value
  named : names (partsOf value) ≠ []

variable {value normal part : String} {parts kept : List String}

theorem mem_names : part ∈ names parts ↔ part ∈ parts ∧ part ≠ "" ∧ part ≠ "." := by simp [names]

theorem names_names : names (names parts) = names parts := by simp [names]

theorem foldl_enter (h : ".." ∉ parts) (directory : List String) :
    parts.foldl enter directory = directory ++ names parts := by
  induction parts generalizing directory with
  | nil => simp [names]
  | cons part parts ih =>
    obtain ⟨hpart, hparts⟩ := not_or.mp (mt mem_cons.mpr h)
    rw [foldl_cons, ih hparts, enter, names, names, filter_cons]
    by_cases hname : part = "" ∨ part = "."
    · rcases hname with rfl | rfl <;> simp
    · simp [not_or.mp hname, Ne.symm hpart]

theorem Contained.locate (h : Contained value) (directory : List String) :
    locate directory value = directory ++ names (partsOf value) := by
  rw [← foldl_enter h.downward]
  unfold Runtrue.locate
  split
  · rename_i hparts
    exact absurd (congrArg head? hparts) h.relative
  · rfl

theorem not_mem_of_mem_splitOn {c : Char} {text piece : List Char} (h : piece ∈ text.splitOn c) : c ∉ piece := by
  induction text generalizing piece with
  | nil => simp_all
  | cons d text ih =>
    rw [splitOn, splitOnP_cons_eq_if_modifyHead] at h
    obtain ⟨first, more, hsplit⟩ := exists_cons_of_ne_nil (splitOn_ne_nil c text)
    rw [splitOn] at hsplit
    rw [splitOn, hsplit] at ih
    by_cases hd : d = c <;> simp_all <;> grind

theorem partsOf_intercalate (h : names (partsOf value) ≠ []) :
    partsOf ("/".intercalate (names (partsOf value))) = names (partsOf value) := by
  have hfree : ∀ piece ∈ (names (partsOf value)).map String.toList, '/' ∉ piece := by
    refine forall_mem_map.mpr fun name hname => ?_
    obtain ⟨piece, hpiece, rfl⟩ := mem_map.mp (mem_names.mp hname).1
    exact String.toList_ofList ▸ not_mem_of_mem_splitOn hpiece
  have hsplit := splitOn_intercalate '/' hfree (mt map_eq_nil_iff.mp h)
  rw [partsOf, split, String.toList_intercalate]
  change List.map _ (splitOn _ (['/'].intercalate _)) = _
  simp [hsplit]

theorem not_mem_iff {c : Char} (h : c ≠ '/') : c ∉ value.toList ↔ ∀ part ∈ partsOf value, c ∉ part.toList := by
  have hmem (pieces : List (List Char)) : c ∉ ['/'].intercalate pieces ↔ ∀ piece ∈ pieces, c ∉ piece := by
    induction pieces with
    | nil => simp
    | cons _ pieces ih => cases pieces <;> simp_all [intercalate_cons_cons]
  have hvalue := hmem (value.toList.splitOn '/')
  rw [intercalate_splitOn] at hvalue
  simpa [partsOf, split] using hvalue

/-! ### The two normalisers -/

theorem foldEach_keepSegment {pieces : List (List Char)} {result : List String} :
    foldEach (keepSegment value) kept (pieces.filterMap Component.ofSegment) = .ok result ↔
      ".." ∉ pieces.map ofList ∧ result = kept ++ names (pieces.map ofList) := by
  unfold names
  induction pieces generalizing kept with
  | nil => simp [foldEach, eq_comm]
  | cons piece pieces ih =>
    rw [filterMap_cons, map_cons, filter_cons]
    fun_cases Component.ofSegment piece with
    | case1 => simp [ih]
    | case2 => simp [ih]
    | case3 => simp [foldEach, keepSegment, error_bind]
    | case4 =>
      have hname : ofList piece ≠ "" ∧ ofList piece ≠ "." ∧ ofList piece ≠ ".." := by
        clear ih
        refine ⟨?_, ?_, ?_⟩ <;> intro h <;> simp_all [String.ext_iff]
      simp [foldEach, keepSegment, ok_bind, ih, hname, hname.2.2.symm]

theorem foldEach_components (hvalue : value ≠ "") :
    foldEach (keepSegment value) [] (components value) = .ok kept ↔
      (partsOf value).head? ≠ some "" ∧ ".." ∉ partsOf value ∧ kept = names (partsOf value) := by
  have hparts : partsOf value = (segments value).map ofList := rfl
  rw [hparts]
  unfold components
  split
  · simp [*, foldEach, keepSegment, error_bind]
  · simp [*, foldEach, keepSegment, ok_bind, foldEach_keepSegment, names]
  · rename_i hroot _
    have hhead : (segments value).head? ≠ some [] := fun h => (head?_eq_some_iff.mp h).elim hroot
    simp [hhead, foldEach_keepSegment]

/-- What a successful normalisation of a path returns. -/
def Normalizes (value normal : String) : Prop := Contained value ∧ normal = "/".intercalate (names (partsOf value))

theorem normalizeRelativePath_eq_ok : normalizeRelativePath value = .ok normal ↔ Normalizes value normal := by
  simp only [normalizeRelativePath, bind_eq_ok, exists_unit, rejectIf_eq_ok, pure_eq_ok, not_or]
  constructor
  · rintro ⟨⟨hvalue, hnul, hslash⟩, _, hkept, hnamed, rfl⟩
    obtain ⟨hrelative, hdownward, rfl⟩ := (foldEach_components hvalue).mp hkept
    exact ⟨⟨hvalue, hnul, hslash, hrelative, hdownward, hnamed⟩, rfl⟩
  · rintro ⟨h, rfl⟩
    have hkept := (foldEach_components h.nonempty).mpr ⟨h.relative, h.downward, rfl⟩
    exact ⟨⟨h.nonempty, h.noNul, h.noBackslash⟩, _, hkept, h.named, rfl⟩

theorem startsWith_separator (hvalue : value ≠ "") :
    startsWith "/" value = true ↔ (partsOf value).head? = some "" := by
  obtain ⟨c, text, htext⟩ := exists_cons_of_ne_nil (mt String.toList_eq_nil_iff.mp hvalue)
  obtain ⟨first, more, hsplit⟩ := exists_cons_of_ne_nil (splitOn_ne_nil '/' text)
  rw [splitOn] at hsplit
  rw [startsWith, partsOf, split, splitOn, htext, splitOnP_cons_eq_if_modifyHead, hsplit]
  rcases eq_or_ne c '/' with rfl | hc
  · simp
  · simp [hc, hc.symm]

theorem names_stripStart : names (partsOf ((stripStart "./" value).getD value)) = names (partsOf value) := by
  cases hstrip : stripStart "./" value with
  | none => rfl
  | some rest =>
    have hparts : partsOf value = "." :: partsOf rest := split_cons (by decide) (stripStart_eq_some.mp hstrip)
    rw [hparts]
    rfl

theorem intercalate_names : "/".intercalate (names (partsOf value)) = "" ↔ names (partsOf value) = [] := by
  refine ⟨fun h => by_contra fun hnamed => ?_, fun h => by rw [h]; rfl⟩
  have hparts := partsOf_intercalate hnamed
  rw [h] at hparts
  have hmem : "" ∈ names (partsOf value) := hparts ▸ by decide
  exact (mem_names.mp hmem).2.1 rfl

theorem normalizePattern_eq_ok {path : String} :
    normalizePattern value path = .ok normal ↔ Normalizes value normal := by
  simp only [normalizePattern, bind_eq_ok, exists_unit, rejectIf_eq_ok, pure_eq_ok, not_or]
  change _ ∧ "/".intercalate (names (partsOf _)) ≠ "" ∧ "/".intercalate (names (partsOf _)) = _ ↔ _
  rw [names_stripStart, intercalate_names.ne]
  constructor
  · rintro ⟨⟨hvalue, hrelative, hslash, hdownward, hnul⟩, hnamed, rfl⟩
    exact ⟨⟨hvalue, hnul, hslash, mt (startsWith_separator hvalue).mpr hrelative, hdownward, hnamed⟩, rfl⟩
  · rintro ⟨h, rfl⟩
    have hrelative := mt (startsWith_separator h.nonempty).mp h.relative
    exact ⟨⟨h.nonempty, hrelative, h.noBackslash, h.downward, h.noNul⟩, h.named, rfl⟩

theorem Contained.normalized (h : Contained value) : Contained ("/".intercalate (names (partsOf value))) := by
  have hparts := partsOf_intercalate h.named
  have hplain {c : Char} (hc : c ≠ '/') (hvalue : c ∉ value.toList) :
      c ∉ ("/".intercalate (names (partsOf value))).toList := by
    rw [not_mem_iff hc] at hvalue ⊢
    rw [hparts]
    exact fun part hpart => hvalue part (mem_names.mp hpart).1
  refine ⟨mt intercalate_names.mp h.named, hplain (by decide) h.noNul, hplain (by decide) h.noBackslash, ?_, ?_, ?_⟩ <;>
    rw [hparts]
  · exact fun hhead => (mem_names.mp (mem_of_mem_head? hhead)).2.1 rfl
  · exact fun hparent => h.downward (mem_names.mp hparent).1
  · exact names_names.symm ▸ h.named

/-- **Normalisation is a projection that stays below the root.** -/
theorem normalization_contained :
    (∀ value normal, normalizeRelativePath value = .ok normal →
      normalizeRelativePath normal = .ok normal ∧
      (∀ segment ∈ partsOf normal, segment ≠ "" ∧ segment ≠ "." ∧ segment ≠ "..") ∧
      ∀ root, locate root normal = locate root value ∧ root <+: locate root value) ∧
    (∀ value other normal normal' root, normalizeRelativePath value = .ok normal →
      normalizeRelativePath other = .ok normal' → locate root value = locate root other → normal = normal') ∧
    ∀ value path normal, normalizePattern value path = .ok normal ↔ normalizeRelativePath value = .ok normal := by
  refine ⟨fun value normal h => ?_, fun value other normal normal' root h h' hsame => ?_,
    fun _ _ _ => normalizePattern_eq_ok.trans normalizeRelativePath_eq_ok.symm⟩
  · obtain ⟨hvalue, rfl⟩ := normalizeRelativePath_eq_ok.mp h
    have hparts := partsOf_intercalate hvalue.named
    refine ⟨normalizeRelativePath_eq_ok.mpr ⟨hvalue.normalized, ?_⟩, fun segment hsegment => ?_, fun root => ?_⟩
    · rw [hparts, names_names]
    · rw [hparts] at hsegment
      obtain ⟨hpart, hempty, hdot⟩ := mem_names.mp hsegment
      exact ⟨hempty, hdot, fun hparent => hvalue.downward (hparent ▸ hpart)⟩
    · rw [hvalue.normalized.locate, hvalue.locate, hparts, names_names]
      exact ⟨rfl, prefix_append root _⟩
  · obtain ⟨hvalue, rfl⟩ := normalizeRelativePath_eq_ok.mp h
    obtain ⟨hother, rfl⟩ := normalizeRelativePath_eq_ok.mp h'
    rw [hvalue.locate, hother.locate] at hsame
    rw [append_cancel_left hsame]

end Runtrue
