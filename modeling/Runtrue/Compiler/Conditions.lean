import Runtrue.Compiler.Rewrite
import Runtrue.Expression.Printing

/-!
# Rewritten conditions

A condition is rewritten as text, word by word. On the canonical text of a tree the words outside of strings
are the paths that the tree looks up, keywords and the exponents of numerals, so the rewritten text is that
of the same tree with its paths rewritten (`SyntaxNode.scans`). Reading it back finds nothing but what
replaced the paths.
-/

namespace Runtrue.Compiler

open Fallible Expression List Text Bool
open String (ofList toList_ofList)

variable {numbers : NumberText} {rewrite : List Char → Compiled (List Char)}

/-! ### Scanning printed text -/

/-- A scan of `text` that succeeds writes `text'`, leads from `scan` to `scan'` and rewrites `words`. -/
def Scans (rewrite : List Char → Compiled (List Char)) (words : List (List Char)) (scan : Scan)
    (text text' : List Char) (scan' : Scan) (rest : List Char) : Prop :=
  ∀ out, rewriteText rewrite scan (text ++ rest) = .ok out →
    (∀ word ∈ words, ∃ replaced, rewrite word = .ok replaced) ∧
      ∃ out', rewriteText rewrite scan' rest = .ok out' ∧ out = text' ++ out'

theorem Scans.nil (scan : Scan) (rest : List Char) : Scans rewrite [] scan [] [] scan rest :=
  fun out hout => ⟨fun _ h => absurd h not_mem_nil, out, hout, rfl⟩

theorem Scans.append {words words' : List (List Char)} {scan scan' scan'' : Scan}
    {text text' more more' rest : List Char} (h : Scans rewrite words scan text text' scan' (more ++ rest))
    (h' : Scans rewrite words' scan' more more' scan'' rest) :
    Scans rewrite (words ++ words') scan (text ++ more) (text' ++ more') scan'' rest := by
  intro out hout
  rw [append_assoc] at hout
  obtain ⟨hwords, middle, hmiddle, rfl⟩ := h out hout
  obtain ⟨hwords', last, hlast, rfl⟩ := h' middle hmiddle
  refine ⟨fun word hword => ?_, last, hlast, (append_assoc _ _ _).symm⟩
  exact (mem_append.mp hword).elim (hwords word) (hwords' word)

variable {words : List (List Char)}

variable {c : Char} {scan : Scan}

theorem Scans.outside (hc : scanOutside c = ([c], scan)) (rest : List Char) :
    Scans rewrite [] .outside [c] [c] scan rest := by
  intro _ hout
  rw [singleton_append, rewriteText_outside, hc] at hout
  simp only [bind_eq_ok, pure_eq_ok] at hout
  obtain ⟨out', hout', rfl⟩ := hout
  exact ⟨fun _ h => absurd h not_mem_nil, out', hout', rfl⟩

variable {text : List Char}

def EndsWord (rest : List Char) : Prop := ∀ c ∈ rest.head?, isWordContinue c = false

variable {rest : List Char}

theorem rewriteText_word {letters more rest out : List Char} (hmore : ∀ c ∈ more, isWordContinue c = true)
    (hrest : EndsWord rest) (h : rewriteText rewrite (.word letters) (more ++ rest) = .ok out) :
    ∃ replaced out', rewrite (letters ++ more) = .ok replaced ∧
      rewriteText rewrite .outside rest = .ok out' ∧ out = replaced ++ out' := by
  induction more generalizing letters with
  | nil =>
    rw [append_nil]
    cases rest with
    | nil => exact ⟨out, [], h, rfl, (append_nil out).symm⟩
    | cons c =>
      -- the character after the word is scanned as one outside of it
      simp only [nil_append, rewriteText_letter, hrest c rfl, false_eq_true, ↓reduceIte, bind_eq_ok,
        pure_eq_ok] at h
      obtain ⟨replaced, hreplaced, out', hout', rfl⟩ := h
      refine ⟨replaced, _, hreplaced, ?_, rfl⟩
      simp only [rewriteText_outside, hout', bind_eq_ok, pure_eq_ok]
      exact ⟨out', rfl, rfl⟩
  | cons _ _ ih =>
    obtain ⟨hc, hmore⟩ := forall_mem_cons.mp hmore
    simp only [cons_append, rewriteText_letter, hc, ↓reduceIte] at h
    obtain ⟨replaced, out', hreplaced, hout', rfl⟩ := ih hmore h
    exact ⟨replaced, out', by rwa [append_assoc] at hreplaced, hout', rfl⟩

/-- What a word is replaced by, if it can be. -/
def replacement (rewrite : List Char → Compiled (List Char)) (word : List Char) : List Char :=
  match rewrite word with
  | .ok replaced => replaced
  | .error _ => []

variable {more : List Char}

theorem Scans.word (hc : isWordStart c = true) (hmore : ∀ d ∈ more, isWordContinue d = true) (hrest : EndsWord rest) :
    Scans rewrite [c :: more] .outside (c :: more) (replacement rewrite (c :: more)) .outside rest := by
  intro _ hout
  have hquote : c ≠ '"' := by
    rintro rfl
    exact absurd hc (by decide)
  have hscan : scanOutside c = ([], .word [c]) := by simp [scanOutside, hc, hquote]
  rw [cons_append, rewriteText_outside, hscan] at hout
  simp only [bind_eq_ok, pure_eq_ok, nil_append] at hout
  obtain ⟨_, hout', rfl⟩ := hout
  obtain ⟨replaced, last, hreplaced, hlast, rfl⟩ := rewriteText_word hmore hrest hout'
  rw [singleton_append] at hreplaced
  refine ⟨forall_mem_singleton.mpr ⟨replaced, hreplaced⟩, last, hlast, ?_⟩
  rw [replacement, hreplaced]

variable {path : List String}

/-- What the reference `needs.<job>…` is replaced by. -/
inductive Redirects (mappings : ReusableContextMappings) : List String → String → Prop
  | output {job output : String} {outputs : BTreeMap String ReusableOutputTarget}
      {target : ReusableOutputTarget} (houtputs : mappings.outputs[job]? = some outputs)
      (htarget : outputs[output]? = some target) :
      Redirects mappings ["needs", job, "outputs", output] target.contextPath
  | job {job target : String} {more : List String} (htarget : mappings.jobs[job]? = some (some target)) :
      Redirects mappings ("needs" :: job :: more) (joinPath ["needs", target, joinPath more])

variable {mappings : ReusableContextMappings}

/-- A reference that names one of `jobs`, if it names a job, and meets `reads`, if it names an input. -/
def Resolves (jobs : String → Prop) (reads : List String → Prop) (path : List String) : Prop :=
  (∀ job more, path = "needs" :: job :: more → jobs job) ∧ ∀ name more, path = "inputs" :: name :: more → reads path

theorem Resolves.mono {jobs jobs' : String → Prop} {reads reads' : List String → Prop} {path : List String}
    (h : Resolves jobs reads path) (hjobs : ∀ {id}, jobs id → jobs' id)
    (hreads : ∀ {path}, reads path → reads' path) : Resolves jobs' reads' path :=
  ⟨fun id more heq => hjobs (h.1 id more heq), fun name more heq => hreads (h.2 name more heq)⟩

/-- What source names stand for is among `jobs`. -/
structure Targets (mappings : ReusableContextMappings) (jobs : String → Prop) : Prop where
  job : ∀ {job target : String}, mappings.jobs[job]? = some (some target) → jobs target ∧ IsWord target.toList
  output : ∀ {job output : String} {outputs : BTreeMap String ReusableOutputTarget}
    {target : ReusableOutputTarget}, mappings.outputs[job]? = some outputs → outputs[output]? = some target →
    jobs target.job ∧ IsWord target.job.toList ∧ (IsWord output.toList → IsWord target.output.toList)

variable {jobs : String → Prop} {reads : List String → Prop}

theorem resolves_needs {job : String} {more : List String} (hjob : jobs job) :
    Resolves jobs reads ("needs" :: job :: more) := by
  constructor
  · rintro _ _ heq
    cases heq
    exact hjob
  · intro _ _ heq
    exact absurd (List.cons.inj heq).1 (by decide)

theorem contextPath_eq (target : ReusableOutputTarget) :
    target.contextPath = joinPath ["needs", target.job, "outputs", target.output] := by
  rw [← String.toList_inj, toList_joinPath]
  simp [ReusableOutputTarget.contextPath, segmentText, toString]

theorem split_joinPath_cons {first second : String} {more : List String} (hfirst : '.' ∉ first.toList) :
    Text.split '.' (joinPath (first :: second :: more)) = first :: Text.split '.' (joinPath (second :: more)) := by
  refine split_cons hfirst ?_
  rw [toList_joinPath, toList_joinPath]
  simp [segmentText]

variable {result : String}

theorem Redirects.resolves (htargets : Targets mappings jobs) (h : Redirects mappings path result) :
    Resolves jobs reads (Text.split '.' result) := by
  have hneeds : '.' ∉ "needs".toList := by decide
  cases h with
  | output houtputs htarget =>
    obtain ⟨hjob, hword, -⟩ := htargets.output houtputs htarget
    rw [contextPath_eq, split_joinPath_cons hneeds, split_joinPath_cons hword.no_dot]
    exact resolves_needs hjob
  | job htarget =>
    obtain ⟨hjob, hword⟩ := htargets.job htarget
    rw [split_joinPath_cons hneeds, split_joinPath_cons hword.no_dot]
    exact resolves_needs hjob

theorem Holds.dotted {P : List String → Prop} (hpath : IsPath path) (hP : P path) :
    Holds numbers P ((joinPath path).toList ++ ['.']) := by
  obtain ⟨_, _, ⟨hstart, -, -⟩, -⟩ : Holds numbers P (joinPath path).toList := Holds.path hpath hP
  refine ⟨pathTokens path ++ [.dot], [path], ⟨?_, fun rest _ => ?_, fun rest hrest => ?_⟩,
    forall_mem_singleton.mpr hP⟩
  · obtain ⟨c, cs, htext, hc⟩ := hstart
    exact ⟨c, cs ++ ['.'], by rw [htext, cons_append], hc⟩
  · refine ((spells_path hpath ?_).append (.single (isToken_dot rest))).mono IsToken.mayScan
    rintro _ ⟨⟩
    rfl
  · have hne : path ≠ [] := by
      rintro rfl
      exact hpath
    have hdot : lookupsOf (.dot :: rest) = lookupsOf rest := lookupsOf_skip (fun _ => TokenKind.noConfusion) rest
    rw [append_assoc, singleton_append, lookupsOf_pathTokens hne hrest.segmentsOf_dot, hdot]
    rfl

section
variable {inputs : Option (BTreeMap String Ast.Scalar)} {mappings : ReusableContextMappings}
  {jobs : String → Prop} {reads : List String → Prop} {place : String} {path : List String}

theorem Redirects.holds {result : String} (htargets : Targets mappings jobs) (hpath : IsPath path)
    (h : Redirects mappings path result) : Holds numbers (Resolves jobs reads) result.toList := by
  obtain ⟨hneeds, hkeyword, hsegments⟩ : IsPath ("needs" :: path.tail) := by
    cases h with
    | output => exact hpath
    | job => exact hpath
  have hpathOf : ∀ {more : List String}, (∀ segment ∈ more, IsWord segment.toList) → IsPath ("needs" :: more) :=
    fun hmore => ⟨hneeds, hkeyword, hmore⟩
  cases h with
  | output houtputs htarget =>
    obtain ⟨hjob, hword, houtput⟩ := htargets.output houtputs htarget
    simp only [tail_cons, forall_mem_cons] at hsegments
    rw [contextPath_eq]
    refine Holds.path (hpathOf ?_) (resolves_needs hjob)
    simp only [forall_mem_cons]
    exact ⟨hword, hsegments.2.1, houtput hsegments.2.2.1, hsegments.2.2.2⟩
  | @job _ target more htarget =>
    obtain ⟨hjob, hword⟩ := htargets.job htarget
    have hmore := (forall_mem_cons.mp hsegments).2
    cases more with
    | nil =>
      have hdotted : Holds numbers (Resolves jobs reads) ((joinPath ["needs", target]).toList ++ ['.']) :=
        Holds.dotted (hpathOf (forall_mem_singleton.mpr hword)) (resolves_needs hjob)
      simpa [joinPath] using hdotted
    | cons segment more =>
      have hjoin : joinPath ["needs", target, joinPath (segment :: more)] =
          joinPath ("needs" :: target :: segment :: more) := by
        simp [joinPath, String.intercalate_cons_cons]
      rw [hjoin]
      exact Holds.path (hpathOf (forall_mem_cons.mpr ⟨hword, hmore⟩)) (resolves_needs hjob)

/-! ### Bound inputs -/

def FiniteInputs (inputs : Option (BTreeMap String Ast.Scalar)) : Prop :=
  ∀ bound, inputs = some bound → ∀ (name : String) (value : Ast.Scalar), bound[name]? = some value →
    value.isFinite = true

/-! ### Rewritten conditions -/

/-- The paths that a condition looks up, none if it does not parse. -/
def conditionReferences (numbers : NumberText) (condition : Option String) : List (List String) :=
  match condition.map (Expression.parse numbers) with
  | some (.ok expression) => expression.root.lookups
  | _ => []

/-- The canonical text of a tree whose lookups have the property `P`. -/
def Condition (numbers : NumberText) (P : List String → Prop) (text : String) : Prop :=
  ∃ node : SyntaxNode, text = String.ofList (node.writeCanonical numbers) ∧
    ∀ path ∈ node.lookups, IsPath path ∧ P path

variable {P : List String → Prop} {text : String}

theorem Condition.holds (hnumbers : numbers.WritesNumerals) (h : Condition numbers P text) :
    Holds numbers P text.toList := by
  obtain ⟨node, rfl, hlookups⟩ := h
  rw [toList_ofList]
  exact node.holds hnumbers fun path hpath => Holds.path (hlookups path hpath).1 (hlookups path hpath).2

variable {expression : Expression}

variable {source : String}

theorem Condition.references (hnumbers : numbers.WritesNumerals) (h : Condition numbers P text) :
    ∀ path ∈ conditionReferences numbers (some text), P path := by
  intro path hpath
  simp only [conditionReferences, Option.map_some] at hpath
  split at hpath
  · rename_i expression hparse
    exact Expression.of_mem_lookups (h.holds hnumbers) (Option.some.inj hparse) path hpath
  · exact absurd hpath not_mem_nil

theorem Condition.mono {Q : List String → Prop} (hPQ : ∀ path, P path → Q path)
    (h : Condition numbers P text) : Condition numbers Q text := by
  obtain ⟨node, htext, hlookups⟩ := h
  exact ⟨node, htext, fun path hpath => ⟨(hlookups path hpath).1, hPQ path (hlookups path hpath).2⟩⟩

end

end Runtrue.Compiler
