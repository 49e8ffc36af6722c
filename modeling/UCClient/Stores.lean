import Mathlib.Data.List.Induction
import Mathlib.Logic.Function.Basic

/-!
# Stores and Their Last Writes

A store finds a value under a key, if there is one. After a list of writes it finds what the
last write to the key wrote, or what it found before if there was none.

## Main results

* `Store.writes_apply`: **a store holds the last write**.
* `Store.last_append`: of two lists of writes, the second counts where it writes at all.
-/

namespace Store

variable {κ ν : Type} [DecidableEq κ]

/-- The store after a value is written under a key. -/
def write (s : κ → Option ν) (w : κ × ν) : κ → Option ν := Function.update s w.1 (some w.2)

/-- The store after some writes. -/
def writes (s : κ → Option ν) (ws : List (κ × ν)) : κ → Option ν := ws.foldl write s

/-- The values written under a key, one after the other. -/
def under (ws : List (κ × ν)) (k : κ) : List ν :=
  ws.filterMap fun w => if w.1 = k then some w.2 else none

/-- The last value written under a key. -/
def last (ws : List (κ × ν)) (k : κ) : Option ν := (under ws k).getLast?

theorem last_nil (k : κ) : last ([] : List (κ × ν)) k = none := rfl

theorem last_append (ws ws' : List (κ × ν)) (k : κ) :
    last (ws ++ ws') k = (last ws' k).or (last ws k) := by
  rw [last, under, List.filterMap_append, List.getLast?_append]
  rfl

theorem last_singleton (w : κ × ν) (k : κ) :
    last [w] k = if w.1 = k then some w.2 else none := by
  by_cases hk : w.1 = k <;> simp [last, under, hk]

/-- **The last write counts.** -/
theorem writes_apply (s : κ → Option ν) (ws : List (κ × ν)) (k : κ) :
    writes s ws k = (last ws k).or (s k) := by
  induction ws using List.reverseRecOn with
  | nil => rfl
  | append_singleton ws w ih =>
      have hsnoc : writes s (ws ++ [w]) = write (writes s ws) w := by
        rw [writes, List.foldl_append]
        rfl
      rw [hsnoc, write, last_append, last_singleton]
      by_cases hk : w.1 = k
      · subst hk
        rw [Function.update_self, if_pos rfl]
        rfl
      · rw [Function.update_of_ne (Ne.symm hk), ih, if_neg hk]
        rfl

/-- A last value is one of those written. -/
theorem mem_of_last {ws : List (κ × ν)} {k : κ} {v : ν} (h : last ws k = some v) :
    (k, v) ∈ ws := by
  obtain ⟨w, hw, hv⟩ := List.mem_filterMap.mp (List.mem_of_getLast? h)
  by_cases hk : w.1 = k
  · rw [if_pos hk] at hv
    cases hv
    rwa [← hk]
  · rw [if_neg hk] at hv
    cases hv

end Store
