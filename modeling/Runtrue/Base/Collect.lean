import Runtrue.Base.Fallible
import Runtrue.Base.TreeMap

/-!
# Collecting results

Iterators of the source end in a collection: a fallible map over a list, an option or an ordered map
(`mapEach`, `mapSome`, `mapEntries`), a sorted vector (`sort`) and one without repetitions (`dedup`). Each
comes with what its result holds: the same keys, the same elements.
-/

namespace Fallible

open List

variable {ε α β : Type}

/-- Run a fallible function on every element, in order. -/
def mapEach (f : α → Except ε β) : List α → Except ε (List β)
  | [] => .ok []
  | a :: l => do
    let b ← f a
    let bs ← mapEach f l
    return b :: bs

/-- Run a fallible function on a value that is present. -/
def mapSome (f : α → Except ε β) : Option α → Except ε (Option β)
  | none => .ok none
  | some a => do
    let b ← f a
    return some b

variable {x : Except ε α}

theorem exists_eq_ok (h : x.isOk = true) : ∃ a, x = .ok a := by
  cases x with
  | ok a => exact ⟨a, rfl⟩
  | error => cases h

theorem exists_eq_ok_of_any {p : α → Bool} (h : x.toOption.any p = true) : ∃ a, x = .ok a ∧ p a = true := by
  cases x with
  | ok a => exact ⟨a, rfl, h⟩
  | error => cases h

variable {f : α → Except ε β} {l : List α} {bs : List β}

theorem mapEach_eq_ok : mapEach f l = .ok bs ↔ Forall₂ (fun a b => f a = .ok b) l bs := by
  induction l generalizing bs with
  | nil => simp [mapEach, eq_comm]
  | cons a l ih =>
    simp only [mapEach, bind_eq_ok, pure_eq_ok, ih, forall₂_cons_left_iff]
    constructor
    · rintro ⟨b, hb, bs, hbs, rfl⟩
      exact ⟨b, bs, hb, hbs, rfl⟩
    · rintro ⟨b, bs, hb, hbs, rfl⟩
      exact ⟨b, hb, bs, hbs, rfl⟩

variable {b : β}

theorem exists_of_mem_mapEach (h : mapEach f l = .ok bs) (hb : b ∈ bs) : ∃ a ∈ l, f a = .ok b := by
  rw [mapEach_eq_ok] at h
  induction h with
  | nil => cases hb
  | cons hhead _ ih =>
    rcases mem_cons.mp hb with rfl | hb
    · exact ⟨_, mem_cons_self, hhead⟩
    · obtain ⟨a, ha, hfa⟩ := ih hb
      exact ⟨a, mem_cons_of_mem _ ha, hfa⟩

variable {a : α}

theorem exists_mem_of_mapEach (h : mapEach f l = .ok bs) (ha : a ∈ l) : ∃ b ∈ bs, f a = .ok b := by
  rw [mapEach_eq_ok] at h
  induction h with
  | nil => cases ha
  | cons hhead _ ih =>
    rcases mem_cons.mp ha with rfl | ha
    · exact ⟨_, mem_cons_self, hhead⟩
    · obtain ⟨b, hb, hfb⟩ := ih ha
      exact ⟨b, mem_cons_of_mem _ hb, hfb⟩

theorem map_eq_map_of_mapEach {γ : Type} {g : β → γ} {g' : α → γ}
    (hf : ∀ a b, f a = .ok b → g b = g' a) (h : mapEach f l = .ok bs) : bs.map g = l.map g' := by
  rw [mapEach_eq_ok] at h
  induction h with
  | nil => rfl
  | cons hhead _ ih => rw [map_cons, map_cons, hf _ _ hhead, ih]

theorem mapSome_eq_ok {x : Option α} {y : Option β} :
    mapSome f x = .ok y ↔ (x = none ∧ y = none) ∨ ∃ a b, x = some a ∧ f a = .ok b ∧ y = some b := by
  cases x with
  | none => simp [mapSome, eq_comm]
  | some a =>
    simp only [mapSome, bind_eq_ok, pure_eq_ok, Option.some.injEq, reduceCtorEq, false_and, false_or]
    constructor
    · rintro ⟨b, hb, rfl⟩
      exact ⟨a, b, rfl, hb, rfl⟩
    · rintro ⟨_, b, rfl, hb, rfl⟩
      exact ⟨b, hb, rfl⟩

variable {σ : Type}

theorem foldEach_keeps {f : σ → α → Except ε σ} {P : σ → Prop}
    (hkeep : ∀ a ∈ l, ∀ s t, f s a = .ok t → P s → P t) {s t : σ} (h : foldEach f s l = .ok t) (hs : P s) : P t := by
  induction l generalizing s with
  | nil =>
    cases h
    exact hs
  | cons a l ih =>
    obtain ⟨u, hu, hrest⟩ := foldEach_cons_eq_ok.mp h
    obtain ⟨hhead, htail⟩ := forall_mem_cons.mp hkeep
    exact ih htail hrest (hhead s u hu hs)

/-- What the update for an element establishes and the others keep holds of every element. -/
theorem foldEach_establishes {f : σ → α → Except ε σ} {Q : α → σ → Prop}
    (hmake : ∀ s a t, f s a = .ok t → Q a t) (hkeep : ∀ s a b t, f s b = .ok t → Q a s → Q a t)
    {s t : σ} (h : foldEach f s l = .ok t) (ha : a ∈ l) : Q a t := by
  induction l generalizing s with
  | nil => cases ha
  | cons b l ih =>
    obtain ⟨u, hu, hrest⟩ := foldEach_cons_eq_ok.mp h
    rcases mem_cons.mp ha with rfl | ha
    · exact foldEach_keeps (fun b _ s t h hs => hkeep s a b t h hs) hrest (hmake s a u hu)
    · exact ih hrest ha

end Fallible

namespace BTreeMap

open Std.ExtTreeMap Fallible List

variable {ε K V U : Type} [Ord K] [Std.TransOrd K] [Std.LawfulEqOrd K]

omit [Std.LawfulEqOrd K] in
theorem nodup_map_fst_toList (m : BTreeMap K V) : (m.toList.map Prod.fst).Nodup := by
  rw [map_fst_toList_eq_keys]
  exact nodup_keys

variable {k : K} {l : List (K × V)} {v : V}

theorem get_ofList_eq_some (hkeys : (l.map Prod.fst).Nodup) :
    (Std.ExtTreeMap.ofList l : BTreeMap K V)[k]? = some v ↔ (k, v) ∈ l := by
  classical
  have hdistinct : l.Pairwise fun a b => ¬compare a.1 b.1 = .eq :=
    (pairwise_map.mp hkeys).imp fun hne heq => hne (Std.LawfulEqCmp.compare_eq_iff_eq.mp heq)
  have hget : ∀ {w : V}, (k, w) ∈ l → (Std.ExtTreeMap.ofList l : BTreeMap K V)[k]? = some w :=
    getElem?_ofList_of_mem Std.ReflCmp.compare_self hdistinct
  constructor
  · intro hsome
    have hmem : k ∈ (Std.ExtTreeMap.ofList l : BTreeMap K V) := by
      rw [mem_iff_isSome_getElem?, hsome]
      rfl
    rw [mem_ofList, List.contains_iff_mem] at hmem
    obtain ⟨⟨_, _⟩, hw, rfl⟩ := List.mem_map.mp hmem
    rw [hget hw] at hsome
    cases hsome
    exact hw
  · exact hget

theorem mem_of_get_ofList (h : (Std.ExtTreeMap.ofList l : BTreeMap K V)[k]? = some v) : (k, v) ∈ l := by
  classical
  have hfold : ∀ (l : List (K × V)) (m : BTreeMap K V),
      (l.foldl (fun m p => m.insert p.1 p.2) m)[k]? = some v → (k, v) ∈ l ∨ m[k]? = some v := by
    intro l
    induction l with
    | nil => exact fun m hm => .inr hm
    | cons p l ih =>
      intro m hm
      rcases ih _ hm with hmem | hget
      · exact .inl (mem_cons_of_mem p hmem)
      · rcases get_insert_eq_some.mp hget with ⟨rfl, rfl⟩ | ⟨-, hget⟩
        · exact .inl mem_cons_self
        · exact .inr hget
  rw [ofList_eq_insertMany_empty, insertMany_list_eq_foldl] at h
  rcases hfold l ∅ h with hmem | hget
  · exact hmem
  · simp at hget

/-- Rebuild a map with a fallible function of its entries, in key order. -/
def mapEntries (f : K → V → Except ε U) (m : BTreeMap K V) : Except ε (BTreeMap K U) := do
  let entries ← Fallible.mapEach (fun p => do return (p.1, ← f p.1 p.2)) m.toList
  return Std.ExtTreeMap.ofList entries

variable {f : K → V → Except ε U} {m : BTreeMap K V} {m' : BTreeMap K U}

theorem get_mapEntries (h : m.mapEntries f = .ok m') {u : U} :
    m'[k]? = some u ↔ ∃ v, m[k]? = some v ∧ f k v = .ok u := by
  simp only [mapEntries, bind_eq_ok, pure_eq_ok] at h
  obtain ⟨entries, hentries, rfl⟩ := h
  have hentry : ∀ p : K × V, ∀ q : K × U, (do return (p.1, ← f p.1 p.2)) = .ok q ↔
      q.1 = p.1 ∧ f p.1 p.2 = .ok q.2 := by
    rintro ⟨k, v⟩ ⟨k', u⟩
    simp only [bind_eq_ok, pure_eq_ok, Prod.mk.injEq]
    constructor
    · rintro ⟨_, hu, rfl, rfl⟩
      exact ⟨rfl, hu⟩
    · rintro ⟨rfl, hu⟩
      exact ⟨u, hu, rfl, rfl⟩
  have hkeys : entries.map Prod.fst = m.toList.map Prod.fst :=
    map_eq_map_of_mapEach (fun p q hq => ((hentry p q).mp hq).1) hentries
  rw [get_ofList_eq_some (hkeys ▸ nodup_map_fst_toList m)]
  constructor
  · intro hmem
    obtain ⟨p, hp, hq⟩ := exists_of_mem_mapEach hentries hmem
    obtain ⟨hk, hu⟩ := (hentry p (k, u)).mp hq
    have hk' : k = p.1 := hk
    exact ⟨p.2, by rw [hk']; exact mem_toList.mp hp, by rw [hk']; exact hu⟩
  · rintro ⟨v, hv, hu⟩
    have hmem : (k, v) ∈ m.toList := mem_toList.mpr hv
    obtain ⟨q, hq, hfq⟩ := exists_mem_of_mapEach hentries hmem
    obtain ⟨hk, hu'⟩ := (hentry (k, v) q).mp hfq
    obtain ⟨_, _⟩ := q
    cases hk
    rw [hu] at hu'
    cases hu'
    exact hq

theorem exists_get_mapEntries (h : m.mapEntries f = .ok m') (hv : m[k]? = some v) :
    ∃ u, f k v = .ok u ∧ m'[k]? = some u := by
  have hentries := h
  simp only [mapEntries, bind_eq_ok, pure_eq_ok] at hentries
  obtain ⟨_, hentries, -⟩ := hentries
  have hmem : (k, v) ∈ m.toList := mem_toList.mpr hv
  obtain ⟨_, -, hq⟩ := exists_mem_of_mapEach hentries hmem
  obtain ⟨u, hu, -⟩ := bind_eq_ok.mp hq
  exact ⟨u, hu, (get_mapEntries h).mpr ⟨v, hv, hu⟩⟩

/-- A loop that inserts the entries of a map one after the other, each at a free key, builds the map. -/
theorem foldEach_rebuild [DecidableEq K] {α : Type} {f : BTreeMap K V → α → Except ε (BTreeMap K V)} {g : K × V → α}
    (m : BTreeMap K V) (hf : ∀ p ∈ m.toList, ∀ built : BTreeMap K V, built[p.1]? = none →
      f built (g p) = .ok (built.insert p.1 p.2)) : foldEach f ∅ (m.toList.map g) = .ok m := by
  have hloop : ∀ (l : List (K × V)) (built : BTreeMap K V), (l.map Prod.fst).Nodup → (∀ p ∈ l, built[p.1]? = none) →
      (∀ p ∈ l, ∀ built : BTreeMap K V, built[p.1]? = none → f built (g p) = .ok (built.insert p.1 p.2)) →
      ∃ last : BTreeMap K V, foldEach f built (l.map g) = .ok last ∧
        ∀ k v, last[k]? = some v ↔ built[k]? = some v ∨ (k, v) ∈ l := by
    intro l
    induction l with
    | nil =>
      intro built _ _ _
      exact ⟨built, rfl, fun k v => by simp⟩
    | cons p l ih =>
      intro built hnodup hfree hf
      obtain ⟨hnew, hrest⟩ := nodup_cons.mp hnodup
      obtain ⟨hp, hfree⟩ := forall_mem_cons.mp hfree
      obtain ⟨hfp, hf⟩ := forall_mem_cons.mp hf
      have hfree' : ∀ q ∈ l, (built.insert p.1 p.2)[q.1]? = none := by
        intro q hq
        have hne : p.1 ≠ q.1 := fun heq => hnew (heq ▸ mem_map_of_mem hq)
        rw [get_insert, if_neg hne]
        exact hfree q hq
      obtain ⟨last, hlast, hget⟩ := ih (built.insert p.1 p.2) hrest hfree' hf
      refine ⟨last, foldEach_cons_eq_ok.mpr ⟨_, hfp built hp, hlast⟩, fun k v => ?_⟩
      rw [hget, get_insert_eq_some, mem_cons]
      constructor
      · rintro ((⟨rfl, rfl⟩ | ⟨-, hold⟩) | hmem)
        · exact .inr (.inl rfl)
        · exact .inl hold
        · exact .inr (.inr hmem)
      · rintro (hold | rfl | hmem)
        · refine .inl (.inr ⟨?_, hold⟩)
          rintro rfl
          rw [hp] at hold
          cases hold
        · exact .inl (.inl ⟨rfl, rfl⟩)
        · exact .inr hmem
  obtain ⟨last, hlast, hget⟩ := hloop m.toList ∅ (nodup_map_fst_toList m) (fun _ _ => by simp) hf
  have hsame : last = m := by
    refine ext_getElem? fun k => Option.ext fun v => ?_
    rw [hget k v, mem_toList]
    simp
  rw [hlast, hsame]

end BTreeMap

/-- The elements in order. -/
def List.sort {α : Type} [Ord α] (l : List α) : List α := l.insertionSort fun a b => (compare a b).isLE

variable {α : Type}

@[simp] theorem List.mem_sort [Ord α] {l : List α} {a : α} : a ∈ l.sort ↔ a ∈ l :=
  (List.perm_insertionSort _ l).mem_iff

/-- Drop an element that repeats the one before it. -/
def List.dedupAdjacent {α : Type} [DecidableEq α] : List α → List α
  | [] => []
  | [a] => [a]
  | a :: b :: l => if a = b then (b :: l).dedupAdjacent else a :: (b :: l).dedupAdjacent

@[simp] theorem List.mem_dedupAdjacent [DecidableEq α] {l : List α} {a : α} : a ∈ l.dedupAdjacent ↔ a ∈ l := by
  fun_induction List.dedupAdjacent l with
  | case1 => rfl
  | case2 => rfl
  | case3 b l ih => simp [ih]
  | case4 _ _ _ _ ih => simp [ih]
