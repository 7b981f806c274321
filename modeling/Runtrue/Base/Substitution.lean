import Mathlib

/-!
# Graphs substituted for the nodes of a graph

A `Fragment` is a dependency graph with some entries, the nodes that need nothing else of it, and some
terminals, the nodes nothing else of it needs. Substituting a fragment for every node of an outer graph turns
an outer edge `i needs j` into edges from the entries of `i` to the terminals of `j`.

That is enough for every node of `i` to need every node of `j` (`Pieces.Sound.ordered`), and the result is a
sound fragment again (`substitute_sound`).
-/

open Relation

namespace Digraph

open List

@[ext]
structure Fragment (α : Type) where
  node : α → Prop
  needs : α → α → Prop
  entry : α → Prop
  terminal : α → Prop

structure Fragment.Sound {α : Type} (F : Fragment α) : Prop where
  inhabited : ∃ a, F.node a
  needs_node : ∀ {a b}, F.needs a b → F.node a ∧ F.node b
  entry_node : ∀ {a}, F.entry a → F.node a
  terminal_node : ∀ {a}, F.terminal a → F.node a
  to_entry : ∀ {a}, F.node a → ∃ e, F.entry e ∧ ReflTransGen F.needs a e
  from_terminal : ∀ {a}, F.node a → ∃ t, F.terminal t ∧ ReflTransGen F.needs t a
  wf : WellFounded fun b a => F.needs a b

variable {α ι : Type} {F : Fragment α}

theorem Fragment.Sound.exists_entry (h : F.Sound) : ∃ e, F.entry e := by
  obtain ⟨_, ha⟩ := h.inhabited
  obtain ⟨e, he, -⟩ := h.to_entry ha
  exact ⟨e, he⟩

theorem Fragment.Sound.exists_terminal (h : F.Sound) : ∃ t, F.terminal t := by
  obtain ⟨_, ha⟩ := h.inhabited
  obtain ⟨t, ht, -⟩ := h.from_terminal ha
  exact ⟨t, ht⟩

theorem Fragment.Sound.acyclic (h : F.Sound) (a : α) : ¬TransGen F.needs a a := by
  intro hcycle
  have hback : TransGen (fun b a => F.needs a b) a a := transGen_swap.mpr hcycle
  exact h.wf.transGen.irrefl.irrefl a hback

def single (a : α) : Fragment α where
  node b := b = a
  needs _ _ := False
  entry b := b = a
  terminal b := b = a

theorem single_sound (a : α) : (single a).Sound where
  inhabited := ⟨a, rfl⟩
  needs_node := False.elim
  entry_node := id
  terminal_node := id
  to_entry := fun hb => ⟨_, hb, .refl⟩
  from_terminal := fun hb => ⟨_, hb, .refl⟩
  wf := ⟨fun _ => ⟨_, fun _ h => h.elim⟩⟩

/-- An outer graph on `ι` and a fragment for each of its nodes. -/
structure Pieces (ι α : Type) where
  member : ι → Prop
  needs : ι → ι → Prop
  piece : ι → Fragment α

structure Pieces.Sound (P : Pieces ι α) : Prop where
  inhabited : ∃ i, P.member i
  needs_member : ∀ {i j}, P.needs i j → P.member i ∧ P.member j
  down : WellFounded fun j i => P.needs i j
  up : WellFounded P.needs
  sound : ∀ {i}, P.member i → (P.piece i).Sound
  disjoint : ∀ {i j a}, P.member i → P.member j → (P.piece i).node a → (P.piece j).node a → i = j

/-- An edge inside a piece, or from an entry of a piece to a terminal of one it needs. -/
inductive Pieces.Edge (P : Pieces ι α) : α → α → Prop
  | inner {i : ι} {a b : α} (hi : P.member i) (h : (P.piece i).needs a b) : P.Edge a b
  | outer {i j : ι} {a b : α} (h : P.needs i j) (ha : (P.piece i).entry a) (hb : (P.piece j).terminal b) :
      P.Edge a b

def Pieces.substitute (P : Pieces ι α) : Fragment α where
  node a := ∃ i, P.member i ∧ (P.piece i).node a
  needs := P.Edge
  entry a := ∃ i, P.member i ∧ (∀ j, ¬P.needs i j) ∧ (P.piece i).entry a
  terminal a := ∃ i, P.member i ∧ (∀ j, ¬P.needs j i) ∧ (P.piece i).terminal a

variable {P : Pieces ι α} {i : ι} {a b : α}

theorem Pieces.inner_path (hi : P.member i) (h : ReflTransGen (P.piece i).needs a b) : ReflTransGen P.Edge a b :=
  ReflTransGen.mono (fun _ _ hab => Pieces.Edge.inner hi hab) _ _ h

section
variable (h : P.Sound)
include h

theorem Pieces.Sound.ordered_of_needs {i j : ι} (hij : P.needs i j)
    (ha : (P.piece i).node a) (hb : (P.piece j).node b) : TransGen P.Edge a b := by
  obtain ⟨hi, hj⟩ := h.needs_member hij
  obtain ⟨e, he, hae⟩ := (h.sound hi).to_entry ha
  obtain ⟨t, ht, htb⟩ := (h.sound hj).from_terminal hb
  have hmiddle : TransGen P.Edge e t := .single (.outer hij he ht)
  exact TransGen.trans_right (P.inner_path hi hae) (TransGen.trans_left hmiddle (P.inner_path hj htb))

theorem Pieces.Sound.ordered {i j : ι} (hij : TransGen P.needs i j)
    (ha : (P.piece i).node a) (hb : (P.piece j).node b) : TransGen P.Edge a b := by
  induction hij generalizing b with
  | single hij => exact h.ordered_of_needs hij ha hb
  | @tail k j _ hkj ih =>
    obtain ⟨_, hc⟩ := (h.sound (h.needs_member hkj).1).inhabited
    exact (ih hc).trans (h.ordered_of_needs hkj hc hb)

theorem Pieces.Sound.to_entry (hi : P.member i) (ha : (P.piece i).node a) :
    ∃ e, P.substitute.entry e ∧ ReflTransGen P.Edge a e := by
  induction i using h.down.induction generalizing a with
  | _ i ih =>
    obtain ⟨e, he, hae⟩ := (h.sound hi).to_entry ha
    by_cases hneeds : ∃ j, P.needs i j
    · obtain ⟨j, hij⟩ := hneeds
      have hj := (h.needs_member hij).2
      obtain ⟨_, ht⟩ := (h.sound hj).exists_terminal
      obtain ⟨e', he', hte'⟩ := ih j hij hj ((h.sound hj).terminal_node ht)
      exact ⟨e', he', (P.inner_path hi hae).trans (.head (.outer hij he ht) hte')⟩
    · exact ⟨e, ⟨i, hi, not_exists.mp hneeds, he⟩, P.inner_path hi hae⟩

theorem Pieces.Sound.from_terminal (hi : P.member i) (ha : (P.piece i).node a) :
    ∃ t, P.substitute.terminal t ∧ ReflTransGen P.Edge t a := by
  induction i using h.up.induction generalizing a with
  | _ i ih =>
    obtain ⟨t, ht, hta⟩ := (h.sound hi).from_terminal ha
    by_cases hneeded : ∃ j, P.needs j i
    · obtain ⟨j, hji⟩ := hneeded
      have hj := (h.needs_member hji).1
      obtain ⟨_, he⟩ := (h.sound hj).exists_entry
      obtain ⟨t', ht', hte⟩ := ih j hji hj ((h.sound hj).entry_node he)
      exact ⟨t', ht', (hte.tail (.outer hji he ht)).trans (P.inner_path hi hta)⟩
    · exact ⟨t, ⟨i, hi, not_exists.mp hneeded, ht⟩, P.inner_path hi hta⟩

/-- Edges go down in the outer graph, or stay in a piece and go down there. -/
theorem Pieces.Sound.acc (hi : P.member i) (ha : (P.piece i).node a) : Acc (fun b a => P.Edge a b) a := by
  induction i using h.down.induction generalizing a with
  | _ i ih =>
    induction a using (h.sound hi).wf.induction with
    | _ a iha =>
      refine ⟨a, fun b hab => ?_⟩
      cases hab with
      | @inner k _ _ hk hab =>
        obtain ⟨hka, hkb⟩ := (h.sound hk).needs_node hab
        obtain rfl := h.disjoint hi hk ha hka
        exact iha b hab hkb
      | @outer k j _ _ hkj hka hjb =>
        obtain ⟨hk, hj⟩ := h.needs_member hkj
        obtain rfl := h.disjoint hi hk ha ((h.sound hk).entry_node hka)
        exact ih j hkj hj ((h.sound hj).terminal_node hjb)

theorem Pieces.Sound.edge_node (hab : P.Edge a b) : P.substitute.node a ∧ P.substitute.node b := by
  cases hab with
  | @inner i _ _ hi hab =>
    obtain ⟨ha, hb⟩ := (h.sound hi).needs_node hab
    exact ⟨⟨i, hi, ha⟩, i, hi, hb⟩
  | @outer i j _ _ hij ha hb =>
    obtain ⟨hi, hj⟩ := h.needs_member hij
    exact ⟨⟨i, hi, (h.sound hi).entry_node ha⟩, j, hj, (h.sound hj).terminal_node hb⟩

/-- **Substituting sound fragments for the nodes of an acyclic graph gives a sound fragment.** -/
theorem Pieces.Sound.substitute_sound : P.substitute.Sound where
  inhabited := by
    obtain ⟨i, hi⟩ := h.inhabited
    obtain ⟨a, ha⟩ := (h.sound hi).inhabited
    exact ⟨a, i, hi, ha⟩
  needs_node := h.edge_node
  entry_node := fun ⟨i, hi, _, ha⟩ => ⟨i, hi, (h.sound hi).entry_node ha⟩
  terminal_node := fun ⟨i, hi, _, ha⟩ => ⟨i, hi, (h.sound hi).terminal_node ha⟩
  to_entry := fun ⟨_, hi, ha⟩ => h.to_entry hi ha
  from_terminal := fun ⟨_, hi, ha⟩ => h.from_terminal hi ha
  wf := by
    refine ⟨fun a => ⟨a, fun b hab => ?_⟩⟩
    obtain ⟨_, hi, hb⟩ := (h.edge_node hab).2
    exact h.acc hi hb

end

/-! ### Topological orders -/

/-- Everything that an element of the list needs comes after it. -/
def TopoSorted (needs : α → List α) : List α → Prop
  | [] => True
  | a :: l => (∀ b ∈ needs a, b ∈ l) ∧ TopoSorted needs l

theorem TopoSorted.mem {needs : α → List α} {l : List α} (h : TopoSorted needs l) (ha : a ∈ l)
    (hb : b ∈ needs a) : b ∈ l := by
  induction l with
  | nil => cases ha
  | cons c l ih =>
    rcases mem_cons.mp ha with rfl | ha
    · exact mem_cons_of_mem _ (h.1 b hb)
    · exact mem_cons_of_mem _ (ih h.2 ha)

theorem TopoSorted.exists_height [DecidableEq α] {needs : α → List α} {l : List α}
    (h : TopoSorted needs l) : ∃ height : α → Nat, (∀ a, height a ≤ l.length) ∧
      ∀ a ∈ l, ∀ b ∈ needs a, height b < height a := by
  induction l with
  | nil => exact ⟨fun _ => 0, fun _ => le_refl 0, fun _ ha => absurd ha not_mem_nil⟩
  | cons c l ih =>
    obtain ⟨height, hbound, hneeds⟩ := ih h.2
    by_cases hc : c ∈ l
    · refine ⟨height, fun a => (hbound a).trans (Nat.le_succ _), fun a ha => ?_⟩
      rcases mem_cons.mp ha with rfl | ha
      · exact hneeds a hc
      · exact hneeds a ha
    · -- the head is put above everything else
      refine ⟨fun a => if a = c then l.length + 1 else height a, fun a => ?_, fun a ha b hb => ?_⟩
      · have := hbound a
        simp only [length_cons]
        split <;> omega
      · have hbl : b ∈ l := by
          rcases mem_cons.mp ha with rfl | ha
          · exact h.1 b hb
          · exact h.2.mem ha hb
        have hbc : b ≠ c := fun heq => hc (heq ▸ hbl)
        have := hbound b
        simp only [if_neg hbc]
        split
        · omega
        · rename_i hac
          exact hneeds a ((mem_cons.mp ha).resolve_left hac) b hb

/-- A bounded height makes a graph well-founded in both directions. -/
theorem wellFounded_of_height {needs : α → α → Prop} {height : α → Nat} {bound : Nat}
    (hbound : ∀ a, height a ≤ bound) (hneeds : ∀ a b, needs a b → height b < height a) :
    (WellFounded fun b a => needs a b) ∧ WellFounded needs := by
  constructor
  · exact Subrelation.wf (fun {b a} hab => hneeds a b hab) (measure height).wf
  · refine Subrelation.wf (fun {a b} hab => ?_) (measure fun a => bound - height a).wf
    have := hneeds a b hab
    have := hbound a
    show bound - height a < bound - height b
    omega

end Digraph
