import Mathlib.Data.List.Basic
import Mathlib.Data.List.Induction

/-!
# Step Systems and Their Runs

A **step system** is a program inside an environment: the environment picks an action
that its contract allows in the current state, the program answers with the next state
or with a fault. This module defines the runs of such a system and the two rules by
which everything later is proved about them, and a way to compute runs.

Actions carry every choice the environment makes, so the program side is a function
and a run is determined by its list of actions (`Run.unique`). "Every state along a
run" and "every step along a run" are therefore predicates on the action list
(`AllStates`, `AllSteps`), read through the prefixes of the run.

## Main results

* `Run.invariant`: a property that holds initially and is kept by every allowed step
  holds after every run.
* `allStates_iff_allSteps`: **exactness of a step condition** — if one step keeps a
  property exactly when a condition on the state before it and on its action holds,
  then a run stays inside the property exactly when all its steps meet the condition.
* `allSteps_iff_allSteps`: the same for two conditions on steps that agree inside an
  invariant.
* `Run.later`: the invariant rule for the continuations of a run.
* `Run.ranked`: the ranking rule, which bounds how often steps of a kind are taken.
* `Run.of_restrict`: a run in a stricter environment is a run whose steps all meet the
  condition added.
* `run_of_check_map`: runs of systems with decidable contracts can be computed.
-/

/-- A program in its environment: the initial state, the actions the environment may
take in a state, and the program's answer to an action. -/
structure StepSystem (σ α ε : Type) where
  init : σ
  allowed : σ → α → Prop
  step : σ → α → Except ε σ

namespace StepSystem

variable {σ α ε : Type} (S : StepSystem σ α ε)

/-- `S.Run as s`: from the initial state the actions `as`, each allowed where it is
taken, lead without a fault to `s`. -/
inductive Run : List α → σ → Prop
  | nil : Run [] S.init
  | snoc {as : List α} {s s' : σ} {a : α} :
      Run as s → S.allowed s a → S.step s a = .ok s' → Run (as ++ [a]) s'

/-- The states some run ends in. -/
def Reachable (s : σ) : Prop := ∃ as, S.Run as s

/-- Every state along the run `as` satisfies `P`. -/
def AllStates (as : List α) (P : σ → Prop) : Prop :=
  ∀ bs t, bs <+: as → S.Run bs t → P t

/-- Every step along the run `as` satisfies `C`, read at the state before the step. -/
def AllSteps (as : List α) (C : σ → α → Prop) : Prop :=
  ∀ bs a t, bs ++ [a] <+: as → S.Run bs t → C t a

variable {S}

/-- Inversion of a nonempty run at its last action. -/
theorem Run.snoc_inv {as : List α} {a : α} {s' : σ} (h : S.Run (as ++ [a]) s') :
    ∃ s, S.Run as s ∧ S.allowed s a ∧ S.step s a = .ok s' := by
  generalize hbs : as ++ [a] = bs at h
  cases h with
  | nil => simp at hbs
  | snoc hrun hal hst =>
      obtain ⟨rfl, rfl⟩ : _ = _ ∧ _ = _ := by simpa using List.append_inj' hbs rfl
      exact ⟨_, hrun, hal, hst⟩

/-- The actions of a run determine the state it ends in. -/
theorem Run.unique {as : List α} {s t : σ} (hs : S.Run as s) (ht : S.Run as t) : s = t := by
  induction hs generalizing t with
  | nil =>
      generalize has : ([] : List α) = as at ht
      cases ht with
      | nil => rfl
      | snoc => simp at has
  | snoc _ _ hst ih =>
      obtain ⟨u, hu, -, hst'⟩ := ht.snoc_inv
      obtain rfl := ih hu
      exact Except.ok.inj (hst.symm.trans hst')

/-- **The invariant rule.** What holds initially and survives every allowed step holds
after every run. The step may use that its state is reachable. -/
theorem Run.invariant {I : σ → Prop} (h0 : I S.init)
    (hstep : ∀ s a s', S.Reachable s → I s → S.allowed s a → S.step s a = .ok s' → I s')
    {as : List α} {s : σ} (h : S.Run as s) : I s := by
  induction h with
  | nil => exact h0
  | snoc hrun hal hst ih => exact hstep _ _ _ ⟨_, hrun⟩ ih hal hst

/-- The invariant rule on reachable states. -/
theorem Reachable.invariant {I : σ → Prop} (h0 : I S.init)
    (hstep : ∀ s a s', S.Reachable s → I s → S.allowed s a → S.step s a = .ok s' → I s')
    {s : σ} (h : S.Reachable s) : I s := by
  obtain ⟨as, hrun⟩ := h
  exact hrun.invariant h0 hstep

/-! ### Conditions on the steps of a run -/

/-- A condition on all steps of a run is one on all steps of a shorter run and on the
last step. -/
theorem allSteps_snoc {as : List α} {a : α} {s : σ} {C : σ → α → Prop} (h : S.Run as s) :
    S.AllSteps (as ++ [a]) C ↔ S.AllSteps as C ∧ C s a := by
  constructor
  · intro hall
    refine ⟨fun bs b t hp => hall bs b t (hp.trans (List.prefix_append as [a])), ?_⟩
    exact hall as a s (List.prefix_rfl) h
  · rintro ⟨hall, hlast⟩ bs b t hp hrun
    rcases List.prefix_concat_iff.mp hp with heq | hp'
    · obtain ⟨rfl, rfl⟩ : _ = _ ∧ _ = _ := by simpa using List.append_inj' heq rfl
      obtain rfl := hrun.unique h
      exact hlast
    · exact hall bs b t hp' hrun

/-- A property of all states of a run is one of all states of a shorter run and of the
last state. -/
theorem allStates_snoc {as : List α} {a : α} {s' : σ} {P : σ → Prop}
    (h : S.Run (as ++ [a]) s') :
    S.AllStates (as ++ [a]) P ↔ S.AllStates as P ∧ P s' := by
  constructor
  · intro hall
    refine ⟨fun bs t hp => hall bs t (hp.trans (List.prefix_append as [a])), ?_⟩
    exact hall _ s' List.prefix_rfl h
  · rintro ⟨hall, hlast⟩ bs t hp hrun
    rcases List.prefix_concat_iff.mp hp with rfl | hp'
    · obtain rfl := hrun.unique h
      exact hlast
    · exact hall bs t hp' hrun

/-- The same program in an environment that also keeps to `C`. -/
def restrict (S : StepSystem σ α ε) (C : σ → α → Prop) : StepSystem σ α ε :=
  { S with allowed := fun s a => S.allowed s a ∧ C s a }

instance (C : σ → α → Prop) [∀ s a, Decidable (S.allowed s a)] [∀ s a, Decidable (C s a)]
    (s : σ) (a : α) : Decidable ((S.restrict C).allowed s a) :=
  inferInstanceAs (Decidable (S.allowed s a ∧ C s a))

/-- A run in the stricter environment is a run whose steps all meet the condition. -/
theorem Run.of_restrict {C : σ → α → Prop} {as : List α} {s : σ}
    (h : (S.restrict C).Run as s) : S.Run as s ∧ S.AllSteps as C := by
  induction h with
  | nil => exact ⟨.nil, fun bs a t hp => by simp at hp⟩
  | snoc _ hal hst ih =>
      obtain ⟨hrun, hall⟩ := ih
      exact ⟨hrun.snoc hal.1 hst, (allSteps_snoc hrun).mpr ⟨hall, hal.2⟩⟩

/-- **Exactness of a step condition.** If `P` holds initially and each allowed step from
a reachable state inside `P` ends inside `P` exactly when it meets `C`, then a run stays
inside `P` exactly when all its steps meet `C`. -/
theorem allStates_iff_allSteps {P : σ → Prop} {C : σ → α → Prop} (h0 : P S.init)
    (hstep : ∀ s a s', S.Reachable s → P s → S.allowed s a → S.step s a = .ok s' →
      (P s' ↔ C s a))
    {as : List α} {s : σ} (h : S.Run as s) : S.AllStates as P ↔ S.AllSteps as C := by
  induction h with
  | nil =>
      constructor
      · intro _ bs a t hp
        simp at hp
      · intro _ bs t hp hrun
        obtain rfl := List.prefix_nil.mp hp
        obtain rfl := hrun.unique .nil
        exact h0
  | @snoc as s s' a hrun hal hst ih =>
      rw [allStates_snoc (hrun.snoc hal hst), allSteps_snoc hrun, ih]
      constructor
      · rintro ⟨hall, hP'⟩
        have hP : P s := (ih.mpr hall) as s List.prefix_rfl hrun
        exact ⟨hall, (hstep s a s' ⟨as, hrun⟩ hP hal hst).mp hP'⟩
      · rintro ⟨hall, hC⟩
        have hP : P s := (ih.mpr hall) as s List.prefix_rfl hrun
        exact ⟨hall, (hstep s a s' ⟨as, hrun⟩ hP hal hst).mpr hC⟩

/-- **Two step conditions that agree while an invariant holds.** If the invariant holds
initially, the conditions are equivalent for steps from inside it, and steps that meet them
stay inside it, then all steps of a run meet one condition exactly when they meet the other,
and the run then stays inside the invariant. -/
theorem allSteps_iff_allSteps {I : σ → Prop} {D C : σ → α → Prop} (h0 : I S.init)
    (hiff : ∀ s a s', S.Reachable s → I s → S.allowed s a → S.step s a = .ok s' →
      (D s a ↔ C s a))
    (hkeep : ∀ s a s', S.Reachable s → I s → S.allowed s a → S.step s a = .ok s' → C s a → I s')
    {as : List α} {s : σ} (h : S.Run as s) :
    (S.AllSteps as D ↔ S.AllSteps as C) ∧ (S.AllSteps as C → S.AllStates as I) := by
  induction h with
  | nil =>
      refine ⟨⟨?_, ?_⟩, ?_⟩
      · intro _ bs a t hp
        simp at hp
      · intro _ bs a t hp
        simp at hp
      · intro _ bs t hp hrun
        obtain rfl := List.prefix_nil.mp hp
        obtain rfl := hrun.unique .nil
        exact h0
  | @snoc as s s' a hrun hal hst ih =>
      obtain ⟨hsame, hinv⟩ := ih
      have hI : S.AllSteps as C → I s := fun hC => hinv hC as s List.prefix_rfl hrun
      rw [allSteps_snoc hrun, allSteps_snoc hrun, allStates_snoc (hrun.snoc hal hst), hsame]
      refine ⟨and_congr_right fun hC => hiff s a s' ⟨as, hrun⟩ (hI hC) hal hst, ?_⟩
      rintro ⟨hC, hCa⟩
      exact ⟨hinv hC, hkeep s a s' ⟨as, hrun⟩ (hI hC) hal hst hCa⟩

/-- The beginning of a run is a run. -/
theorem Run.of_append {as bs : List α} {t : σ} (h : S.Run (as ++ bs) t) : ∃ s, S.Run as s := by
  induction bs using List.reverseRecOn generalizing t with
  | nil =>
      rw [List.append_nil] at h
      exact ⟨t, h⟩
  | append_singleton bs b ih =>
      rw [← List.append_assoc] at h
      obtain ⟨u, hu, -, -⟩ := h.snoc_inv
      exact ih hu

/-- A property of all states of a run says something of each of its steps, by the state the
step ends in. -/
theorem AllStates.allSteps {P : σ → Prop} {C : σ → α → Prop}
    (hstep : ∀ s a s', S.allowed s a → S.step s a = .ok s' → P s' → C s a)
    {as : List α} {s : σ} (h : S.Run as s) (hP : S.AllStates as P) : S.AllSteps as C := by
  rintro bs a t ⟨cs, rfl⟩ hrun
  obtain ⟨t', ht'⟩ := h.of_append
  obtain ⟨u, hu, hal, hst⟩ := ht'.snoc_inv
  obtain rfl := hu.unique hrun
  exact hstep u a t' hal hst (hP _ t' (List.prefix_append _ cs) ht')

/-- **The invariant rule for what comes after a state.** What holds after a run and survives
every allowed step with an action of the continuation holds after the continuation. -/
theorem Run.later {I : σ → Prop} {as bs : List α} {s t : σ} (h : S.Run as s) (h0 : I s)
    (hstep : ∀ u b u', b ∈ bs → S.Reachable u → I u → S.allowed u b → S.step u b = .ok u' → I u')
    (h' : S.Run (as ++ bs) t) : I t := by
  induction bs using List.reverseRecOn generalizing t with
  | nil =>
      rw [List.append_nil] at h'
      rwa [← h.unique h']
  | append_singleton bs b ih =>
      rw [← List.append_assoc] at h'
      obtain ⟨u, hu, hal, hst⟩ := h'.snoc_inv
      have hI := ih (fun v b' v' hb => hstep v b' v' (List.mem_append_left _ hb)) hu
      exact hstep u b t (List.mem_append_right _ List.mem_cons_self) ⟨_, hu⟩ hI hal hst

/-- **The ranking rule.** If, while an invariant holds, no step of the continuation raises the
rank of the state and every step of a kind lowers it, then the continuation has at most as many
steps of that kind as the rank falls. -/
theorem Run.ranked {I : σ → Prop} {rank : σ → ℕ} {kind : α → Bool} {as bs : List α} {s t : σ}
    (h : S.Run as s) (h0 : I s)
    (hstep : ∀ u b u', b ∈ bs → S.Reachable u → I u → S.allowed u b → S.step u b = .ok u' →
      I u' ∧ rank u' + (if kind b then 1 else 0) ≤ rank u)
    (h' : S.Run (as ++ bs) t) : I t ∧ rank t + bs.countP kind ≤ rank s := by
  induction bs using List.reverseRecOn generalizing t with
  | nil =>
      rw [List.append_nil] at h'
      obtain rfl := h.unique h'
      exact ⟨h0, Nat.le_refl _⟩
  | append_singleton bs b ih =>
      rw [← List.append_assoc] at h'
      obtain ⟨u, hu, hal, hst⟩ := h'.snoc_inv
      obtain ⟨hI, hle⟩ := ih (fun v b' v' hb => hstep v b' v' (List.mem_append_left _ hb)) hu
      obtain ⟨hI', hle'⟩ :=
        hstep u b t (List.mem_append_right _ List.mem_cons_self) ⟨_, hu⟩ hI hal hst
      rw [List.countP_append, List.countP_singleton]
      exact ⟨hI', by omega⟩

/-! ### Computing runs -/

/-- Take the actions one after another, checking the contract; `none` when an action is
not allowed or faults. -/
def check (S : StepSystem σ α ε) [∀ s a, Decidable (S.allowed s a)] :
    σ → List α → Option σ
  | s, [] => some s
  | s, a :: as =>
      if S.allowed s a then
        match S.step s a with
        | .ok s' => check S s' as
        | .error _ => none
      else none

/-- A checked continuation of a run is a run. -/
theorem Run.append_check [∀ s a, Decidable (S.allowed s a)] {as bs : List α} {s t : σ}
    (h : S.Run as s) (hc : S.check s bs = some t) : S.Run (as ++ bs) t := by
  induction bs generalizing as s with
  | nil =>
      obtain rfl : s = t := by simpa [check] using hc
      simpa using h
  | cons b bs ih =>
      simp only [check] at hc
      split at hc
      · next hal =>
        split at hc
        · next s' hst =>
          have hrun := ih (h.snoc hal hst) hc
          rwa [List.append_assoc] at hrun
        · cases hc
      · cases hc

/-- A checked action list is a run. -/
theorem run_of_check [∀ s a, Decidable (S.allowed s a)] {as : List α} {s : σ}
    (hc : S.check S.init as = some s) : S.Run as s :=
  Run.append_check .nil hc

/-- A checked action list is a run, and what can be computed of its last state is true of
it. -/
theorem run_of_check_map [∀ s a, Decidable (S.allowed s a)] {β : Type} {f : σ → β} {b : β}
    (as : List α) (hc : (S.check S.init as).map f = some b) :
    ∃ s, S.Run as s ∧ f s = b := by
  obtain ⟨s, hs, hb⟩ := Option.map_eq_some_iff.mp hc
  exact ⟨s, run_of_check hs, hb⟩

end StepSystem
