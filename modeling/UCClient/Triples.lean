import Mathlib.Order.Defs.Unbundled

/-!
# Pre- and Postconditions for Stateful Code with Faults

Code that changes a state and can fault is a program of `EStateM`: it ends in a value
and a state, or in a fault and the state the fault was met in. A **triple**
`Triple P m Q` says that from every state satisfying `P` the program `m` ends without a
fault, in a value and a state satisfying `Q`.

The rules are the usual ones, one for each way programs are put together: `Triple.pure`,
`Triple.bind`, `Triple.ite`, and `Triple.forM` for a loop over a list with an invariant.
`bind_ok` and `bind_error` are the two equations behind them, for statements about one
given state.

A triple says nothing about a program that faults. What holds of every outcome is a
**frame**: `Frame R m` says that the state `m` ends in, with a value or with a fault, is
related by `R` to the state it started in. For a relation that is reflexive and
transitive a frame goes through all program constructors.
-/

variable {ε σ α β : Type}

namespace EStateM

/-- A program that continues after one that ends without a fault. -/
theorem bind_ok {m : EStateM ε σ α} {f : α → EStateM ε σ β} {s s' : σ} {a : α}
    (h : m s = .ok a s') : (m >>= f) s = f a s' := by
  simp only [bind, EStateM.bind, h]

/-- A fault ends the whole program. -/
theorem bind_error {m : EStateM ε σ α} {f : α → EStateM ε σ β} {s s' : σ} {e : ε}
    (h : m s = .error e s') : (m >>= f) s = .error e s' := by
  simp only [bind, EStateM.bind, h]

/-- A program that first reads the state. -/
theorem get_bind (f : σ → EStateM ε σ β) (s : σ) : (get >>= f) s = f s s := rfl

/-- A program that first changes the state. -/
theorem modify_bind (g : σ → σ) (f : PUnit → EStateM ε σ β) (s : σ) :
    (modify g >>= f) s = f ⟨⟩ (g s) := rfl

/-- A composed program that ends without a fault ends both its parts without one. -/
theorem bind_ok_inv {m : EStateM ε σ α} {f : α → EStateM ε σ β} {s s' : σ} {b : β}
    (h : (m >>= f) s = .ok b s') : ∃ a t, m s = .ok a t ∧ f a t = .ok b s' := by
  cases hm : m s with
  | ok a t => exact ⟨a, t, rfl, by rwa [bind_ok hm] at h⟩
  | error e t =>
      rw [bind_error hm] at h
      cases h

end EStateM

/-- From every state satisfying `P`, the program ends without a fault, in a value and a
state satisfying `Q`. -/
def Triple (P : σ → Prop) (m : EStateM ε σ α) (Q : α → σ → Prop) : Prop :=
  ∀ s, P s → ∃ a s', m s = .ok a s' ∧ Q a s'

namespace Triple

variable {P : σ → Prop} {Q : α → σ → Prop} {R : β → σ → Prop}
  {m : EStateM ε σ α} {f : α → EStateM ε σ β}

theorem pure {a : α} (h : ∀ s, P s → Q a s) : Triple P (pure a : EStateM ε σ α) Q :=
  fun s hs => ⟨a, s, rfl, h s hs⟩

theorem bind (hm : Triple P m Q) (hf : ∀ a, Triple (Q a) (f a) R) :
    Triple P (m >>= f) R := by
  intro s hs
  obtain ⟨a, t, hmt, hq⟩ := hm s hs
  obtain ⟨b, s', hfs, hr⟩ := hf a t hq
  exact ⟨b, s', by rw [EStateM.bind_ok hmt, hfs], hr⟩

theorem ite {c : Prop} [Decidable c] {m' : EStateM ε σ α} (ht : c → Triple P m Q)
    (he : ¬ c → Triple P m' Q) : Triple P (if c then m else m') Q := by
  by_cases hc : c
  · simpa only [if_pos hc] using ht hc
  · simpa only [if_neg hc] using he hc

/-- A loop over a list keeps what its body keeps. -/
theorem forM {I : σ → Prop} {body : β → EStateM ε σ Unit} :
    ∀ (xs : List β), (∀ x ∈ xs, Triple I (body x) fun _ s => I s) →
      Triple I (xs.forM body) fun _ s => I s
  | [], _ => fun s hs => ⟨(), s, rfl, hs⟩
  | x :: xs, hbody => by
      show Triple I (body x >>= fun _ => xs.forM body) fun _ s => I s
      refine (hbody x List.mem_cons_self).bind fun _ => ?_
      exact forM xs fun y hy => hbody y (List.mem_cons_of_mem x hy)

end Triple

/-! ### Frames -/

/-- The state a program ended in, with a value or with a fault. -/
def EStateM.Result.state : EStateM.Result ε σ α → σ
  | .ok _ s => s
  | .error _ s => s

/-- Returning another value does not change the state. -/
theorem EStateM.state_bind_pure (m : EStateM ε σ α) (b : β) (s : σ) :
    ((m >>= fun _ => (pure b : EStateM ε σ β)) s).state = (m s).state := by
  cases h : m s with
  | ok a t =>
      rw [EStateM.bind_ok h]
      rfl
  | error e t =>
      rw [EStateM.bind_error h]
      rfl

theorem EStateM.state_map (f : α → β) (m : EStateM ε σ α) (s : σ) :
    ((f <$> m) s).state = (m s).state := by
  simp only [Functor.map, EStateM.map]
  cases m s <;> rfl

/-- The value or the fault a program ended with. -/
def EStateM.Result.value : EStateM.Result ε σ α → Except ε α
  | .ok a _ => .ok a
  | .error e _ => .error e

theorem EStateM.value_map (f : α → β) (m : EStateM ε σ α) (s : σ) :
    ((f <$> m) s).value = (m s).value.map f := by
  simp only [Functor.map, EStateM.map]
  cases m s <;> rfl

theorem EStateM.Result.eq_ok_of_value {r : EStateM.Result ε σ α} {a : α} (h : r.value = .ok a) :
    r = .ok a r.state := by
  cases r with
  | ok a' s =>
      cases h
      rfl
  | error e s => cases h

/-- Whatever the outcome of the program, the state it ends in is related to the state it
started in. -/
def Frame (R : σ → σ → Prop) (m : EStateM ε σ α) : Prop := ∀ s, R s (m s).state

namespace Frame

variable {R : σ → σ → Prop} {m : EStateM ε σ α} {f : α → EStateM ε σ β}

theorem pure [Std.Refl R] (a : α) : Frame R (pure a : EStateM ε σ α) :=
  fun s => Std.Refl.refl s

theorem get [Std.Refl R] : Frame R (get : EStateM ε σ σ) := fun s => Std.Refl.refl s

theorem bind [IsTrans σ R] (hm : Frame R m) (hf : ∀ a, Frame R (f a)) :
    Frame R (m >>= f) := by
  intro s
  have hs := hm s
  cases h : m s with
  | ok a t =>
      rw [EStateM.bind_ok h]
      rw [h] at hs
      exact IsTrans.trans _ _ _ hs (hf a t)
  | error e t =>
      rw [EStateM.bind_error h]
      rwa [h] at hs

theorem map (g : α → β) (hm : Frame R m) : Frame R (g <$> m) := by
  intro s
  rw [EStateM.state_map]
  exact hm s

/-- The frame of a run that ended with a value. -/
theorem of_ok (hm : Frame R m) {s s' : σ} {a : α} (h : m s = .ok a s') : R s s' := by
  have hs := hm s
  rwa [h] at hs

theorem ite {c : Prop} [Decidable c] {m' : EStateM ε σ α} (ht : Frame R m)
    (he : Frame R m') : Frame R (if c then m else m') := by
  by_cases hc : c
  · simpa only [if_pos hc] using ht
  · simpa only [if_neg hc] using he

theorem forM [Std.Refl R] [IsTrans σ R] {body : β → EStateM ε σ Unit}
    (h : ∀ x, Frame R (body x)) : ∀ xs : List β, Frame R (xs.forM body)
  | [] => fun s => Std.Refl.refl s
  | x :: xs => by
      show Frame R (body x >>= fun _ => xs.forM body)
      exact (h x).bind fun _ => forM h xs

end Frame
