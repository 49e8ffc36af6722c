import Mathlib.Data.Nat.Notation
import Mathlib.Logic.Function.Basic

/-!
# A Heap of Objects with Identity

Objects are constructed, changed and destroyed, and are referred to by pointers that
outlive them. A heap hands out every pointer once: an object's pointer is its identity,
so a pointer to a destroyed object never comes to denote another one and using it can
be told apart from every legal access. The allocation frontier is part of the
structure: nothing exists at or beyond `next` (`fresh`).

A pointer is **live** while its object is constructed and not destroyed.
-/

/-- A heap of objects of type `α`: the next unused pointer and the objects alive. -/
structure Heap (α : Type) where
  next : ℕ
  cell : ℕ → Option α
  fresh : ∀ p, next ≤ p → cell p = none

namespace Heap

variable {α : Type} (h : Heap α)

/-- No object has been constructed yet. -/
def empty : Heap α := ⟨0, fun _ => none, fun _ _ => rfl⟩

/-- The object at `p` is alive. -/
def Live (p : ℕ) : Prop := (h.cell p).isSome

instance (p : ℕ) : Decidable (h.Live p) := inferInstanceAs (Decidable (_ = true))

/-- Construct an object at the frontier. -/
def alloc (a : α) : Heap α where
  next := h.next + 1
  cell := Function.update h.cell h.next (some a)
  fresh := by
    intro p hp
    rw [Function.update_of_ne (by omega)]
    exact h.fresh p (by omega)

/-- Change the object at `p`; nothing happens when there is none. -/
def modify (p : ℕ) (f : α → α) : Heap α where
  next := h.next
  cell := Function.update h.cell p ((h.cell p).map f)
  fresh := by
    intro q hq
    by_cases hqp : q = p
    · subst hqp
      simp [h.fresh q hq]
    · rw [Function.update_of_ne hqp]
      exact h.fresh q hq

/-- Destroy the object at `p`. -/
def free (p : ℕ) : Heap α where
  next := h.next
  cell := Function.update h.cell p none
  fresh := by
    intro q hq
    by_cases hqp : q = p
    · subst hqp
      simp
    · rw [Function.update_of_ne hqp]
      exact h.fresh q hq

/-- The heap of what `g` shows of each object. -/
def map {β : Type} (g : α → β) : Heap β where
  next := h.next
  cell := fun p => (h.cell p).map g
  fresh := fun p hp => by rw [h.fresh p hp]; rfl

variable {h} {p q : ℕ} {a : α} {f : α → α}

/-- Heaps are equal when their frontiers and objects are. -/
@[ext] theorem ext {h h' : Heap α} (hn : h.next = h'.next) (hc : ∀ p, h.cell p = h'.cell p) :
    h = h' := by
  cases h
  cases h'
  obtain rfl : _ = _ := hn
  obtain rfl : _ = _ := funext hc
  rfl

@[simp] theorem next_modify : (h.modify p f).next = h.next := rfl

theorem cell_alloc : (h.alloc a).cell q = if q = h.next then some a else h.cell q := by
  simp [alloc, Function.update_apply]

theorem cell_modify :
    (h.modify p f).cell q = if q = p then (h.cell p).map f else h.cell q := by
  simp [modify, Function.update_apply]

/-- What is there after a change is the changed object, or was there before. -/
theorem cases_of_modify {b : α} (ha : h.cell p = some a) (hb : (h.modify p f).cell q = some b) :
    q = p ∧ b = f a ∨ q ≠ p ∧ h.cell q = some b := by
  rw [cell_modify] at hb
  by_cases hq : q = p
  · rw [if_pos hq, ha] at hb
    exact .inl ⟨hq, (Option.some.inj hb).symm⟩
  · rw [if_neg hq] at hb
    exact .inr ⟨hq, hb⟩

/-- What was there before a change is there after it, changed or as it was. -/
theorem exists_cell_modify {P : α → Prop} (ha : h.cell q = some a) (hsame : P a)
    (hf : q = p → P (f a)) : ∃ b, (h.modify p f).cell q = some b ∧ P b := by
  rw [cell_modify]
  by_cases hq : q = p
  · subst hq
    exact ⟨f a, by rw [if_pos rfl, ha]; rfl, hf rfl⟩
  · exact ⟨a, by rw [if_neg hq, ha], hsame⟩

theorem cell_free : (h.free p).cell q = if q = p then none else h.cell q := by
  simp [free, Function.update_apply]

@[simp] theorem cell_next : h.cell h.next = none := h.fresh _ (Nat.le_refl _)

/-- A pointer that holds an object lies below the frontier. -/
theorem lt_next_of_cell (hc : h.cell p = some a) : p < h.next := by
  by_contra hge
  rw [h.fresh p (by omega)] at hc
  cases hc

/-- What is there after an allocation is the new object, or was there before. -/
theorem cases_of_alloc {b : α} (hb : (h.alloc a).cell q = some b) :
    q = h.next ∧ b = a ∨ h.cell q = some b := by
  rw [cell_alloc] at hb
  by_cases hq : q = h.next
  · rw [if_pos hq] at hb
    exact .inl ⟨hq, (Option.some.inj hb).symm⟩
  · rw [if_neg hq] at hb
    exact .inr hb

/-- An allocation leaves the objects alone that are there. -/
theorem cell_alloc_of_cell {b : α} (hb : h.cell q = some b) : (h.alloc a).cell q = some b := by
  rw [cell_alloc, if_neg (Nat.ne_of_lt (lt_next_of_cell hb)), hb]

theorem live_iff : h.Live p ↔ ∃ a, h.cell p = some a := Option.isSome_iff_exists

theorem live_of_cell (hc : h.cell p = some a) : h.Live p := live_iff.mpr ⟨a, hc⟩

/-- A live pointer is not the next one to be handed out. -/
theorem Live.ne_next (hp : h.Live p) : p ≠ h.next := by
  obtain ⟨a, ha⟩ := live_iff.mp hp
  exact Nat.ne_of_lt (lt_next_of_cell ha)

/-- A change to an object that is then destroyed is not seen. -/
@[simp] theorem free_modify : (h.modify p f).free p = h.free p := by
  simp [free, modify]

theorem modify_id : h.modify p id = h := by
  refine Heap.ext rfl fun q => ?_
  by_cases hq : q = p <;> simp [cell_modify, hq]

/-- Two changes to an object are one. -/
theorem modify_modify {f' : α → α} :
    (h.modify p f).modify p f' = h.modify p fun a => f' (f a) := by
  refine Heap.ext rfl fun q => ?_
  by_cases hq : q = p
  · simp [cell_modify, hq, Function.comp_def]
  · simp [cell_modify, hq]

@[simp] theorem live_alloc : (h.alloc a).Live q ↔ q = h.next ∨ h.Live q := by
  simp only [Live, cell_alloc]
  by_cases hq : q = h.next <;> simp [hq]

@[simp] theorem live_modify : (h.modify p f).Live q ↔ h.Live q := by
  simp only [Live, cell_modify]
  by_cases hq : q = p <;> simp [hq]

/-! ### Partial views of the objects -/

variable {β : Type} {g : α → β}

@[simp] theorem next_map : (h.map g).next = h.next := rfl

@[simp] theorem cell_map : (h.map g).cell p = (h.cell p).map g := rfl

@[simp] theorem live_map : (h.map g).Live p ↔ h.Live p := by simp [Live]

@[simp] theorem map_alloc : (h.alloc a).map g = (h.map g).alloc (g a) := by
  refine Heap.ext rfl fun p => ?_
  by_cases hp : p = h.next <;> simp [cell_alloc, hp]

@[simp] theorem map_free : (h.free p).map g = (h.map g).free p := by
  refine Heap.ext rfl fun q => ?_
  by_cases hq : q = p <;> simp [cell_free, hq]

/-- A change is seen as the change it makes to what is shown. -/
theorem map_modify_comm {k : β → β} (hg : ∀ a, g (f a) = k (g a)) :
    (h.modify p f).map g = (h.map g).modify p k := by
  refine Heap.ext rfl fun q => ?_
  by_cases hq : q = p
  · subst hq
    cases hc : h.cell q <;> simp [cell_modify, hc, hg]
  · simp [cell_modify, hq]

/-- A change to what is not shown is not seen. -/
theorem map_modify (hg : ∀ a, g (f a) = g a) : (h.modify p f).map g = h.map g :=
  (map_modify_comm (k := id) hg).trans modify_id

/-- What is seen of an object after a change to what is not shown was there before. -/
theorem cell_of_modify {b : α} (hb : (h.modify p f).cell q = some b) (hg : ∀ a, g (f a) = g a) :
    ∃ a, h.cell q = some a ∧ g a = g b := by
  have hmap : ((h.modify p f).map g).cell q = some (g b) := by rw [cell_map, hb, Option.map_some]
  rw [map_modify hg, cell_map] at hmap
  exact Option.map_eq_some_iff.mp hmap

end Heap
