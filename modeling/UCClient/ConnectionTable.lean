import UCClient.World

/-!
# The Connection Table

Everything the program does with client pointers can be seen on a small machine: which
clients exist and for which connection each was made, and the three places that refer to
clients. This `Table` has four moves. A connection is created: a client is made for it,
registered unless the address is taken, and becomes the instance. It is established: its
client joins the list. It is closed: its client disappears from everywhere, and with it
the instance, whichever client that was. Every other call leaves the table alone.

`WellFormed` says that the three places agree: a registered client exists and was made
for the connection it is registered for, a listed client is registered, the instance
exists. All moves keep it (`WellFormed.step`).
-/

namespace UCClient

/-- The clients by the connection they were made for, and the places that refer to them. -/
structure Table where
  objects : Heap Wsi
  WSClientSet : Wsi → Option ℕ
  g_WSClientSet : List ℕ
  g_Instance : Option ℕ

namespace Table

/-- A connection is created. -/
def create (t : Table) (wsi : Wsi) : Table where
  objects := t.objects.alloc wsi
  WSClientSet := Function.update t.WSClientSet wsi
    ((t.WSClientSet wsi).or (some t.objects.next))
  g_WSClientSet := t.g_WSClientSet
  g_Instance := some t.objects.next

/-- A connection is established. -/
def establish (t : Table) (wsi : Wsi) : Table :=
  match t.WSClientSet wsi with
  | none => t
  | some p => { t with g_WSClientSet := t.g_WSClientSet ++ [p] }

/-- A connection is closed. -/
def close (t : Table) (wsi : Wsi) : Table :=
  match t.WSClientSet wsi with
  | none => t
  | some p =>
      { objects := t.objects.free p
        WSClientSet := Function.update t.WSClientSet wsi none
        g_WSClientSet := t.g_WSClientSet.filter (· != p)
        g_Instance := none }

/-- What a call into the server does to the table. -/
def step (t : Table) : Action → Table
  | .lws wsi reason =>
      if reason.establishes then t.establish wsi
      else if reason.closes then t.close wsi
      else if reason = .WSI_CREATE false then t.create wsi
      else t
  | _ => t

section Moves

variable (t : Table) {wsi : Wsi} {reason : Reason}

theorem step_establishes (h : reason.establishes = true) :
    t.step (.lws wsi reason) = t.establish wsi := if_pos h

theorem step_closes (h : reason.closes = true) : t.step (.lws wsi reason) = t.close wsi :=
  (if_neg fun h' => Reason.not_closes_of_establishes h' h).trans (if_pos h)

theorem step_stays (h₁ : ¬ reason.establishes = true) (h₂ : ¬ reason.closes = true)
    (h₃ : reason ≠ .WSI_CREATE false) : t.step (.lws wsi reason) = t :=
  (if_neg h₁).trans ((if_neg h₂).trans (if_neg h₃))

end Moves

theorem establish_WSClientSet (t : Table) (wsi : Wsi) :
    (t.establish wsi).WSClientSet = t.WSClientSet := by
  rw [establish]
  split <;> rfl

theorem close_WSClientSet (t : Table) (wsi : Wsi) :
    (t.close wsi).WSClientSet = Function.update t.WSClientSet wsi none := by
  cases hreg : t.WSClientSet wsi with
  | none =>
      have hsame := Function.update_eq_self wsi t.WSClientSet
      rw [hreg] at hsame
      simp only [close, hreg, hsame]
  | some p => simp only [close, hreg]

/-- The places that refer to clients agree with each other and with the clients. -/
structure WellFormed (t : Table) : Prop where
  registered : ∀ wsi p, t.WSClientSet wsi = some p → t.objects.cell p = some wsi
  listed : ∀ p ∈ t.g_WSClientSet, ∃ wsi, t.objects.cell p = some wsi ∧
    t.WSClientSet wsi = some p
  instanced : ∀ p, t.g_Instance = some p → t.objects.Live p

variable {t : Table} {wsi : Wsi} {p : ℕ}

namespace WellFormed

theorem live_registered (h : t.WellFormed) (hp : t.WSClientSet wsi = some p) :
    t.objects.Live p := Heap.live_of_cell (h.registered wsi p hp)

theorem live_listed (h : t.WellFormed) (hp : p ∈ t.g_WSClientSet) : t.objects.Live p := by
  obtain ⟨wsi, hcell, -⟩ := h.listed p hp
  exact Heap.live_of_cell hcell

/-- A listed client is the one its connection is registered with. -/
theorem registered_of_listed (h : t.WellFormed) (hp : p ∈ t.g_WSClientSet)
    (hcell : t.objects.cell p = some wsi) : t.WSClientSet wsi = some p := by
  obtain ⟨wsi', hcell', hreg⟩ := h.listed p hp
  obtain rfl : wsi' = wsi := Option.some.inj (hcell'.symm.trans hcell)
  exact hreg

theorem create (h : t.WellFormed) (wsi : Wsi) : (t.create wsi).WellFormed := by
  refine ⟨fun wsi' p hp => ?_, fun p hp => ?_, fun p hp => ?_⟩
  · simp only [Table.create, Function.update_apply] at hp ⊢
    rw [Heap.cell_alloc]
    by_cases hw : wsi' = wsi
    · subst hw
      rw [if_pos rfl] at hp
      cases hreg : t.WSClientSet wsi' with
      | none =>
          rw [hreg] at hp
          rw [if_pos (Option.some.inj hp).symm]
      | some q =>
          rw [hreg] at hp
          obtain rfl : q = p := Option.some.inj hp
          rw [if_neg (h.live_registered hreg).ne_next]
          exact h.registered wsi' q hreg
    · rw [if_neg hw] at hp
      rw [if_neg (h.live_registered hp).ne_next]
      exact h.registered wsi' p hp
  · obtain ⟨wsi', hcell, hreg⟩ := h.listed p hp
    refine ⟨wsi', ?_, ?_⟩
    · simp only [Table.create, Heap.cell_alloc]
      rw [if_neg (Heap.live_of_cell hcell).ne_next]
      exact hcell
    · simp only [Table.create, Function.update_apply]
      by_cases hw : wsi' = wsi
      · subst hw
        simp [hreg]
      · simpa [hw] using hreg
  · obtain rfl : t.objects.next = p := Option.some.inj hp
    simp [Table.create]

theorem establish (h : t.WellFormed) (wsi : Wsi) : (t.establish wsi).WellFormed := by
  cases hreg : t.WSClientSet wsi with
  | none => simpa only [Table.establish, hreg] using h
  | some p =>
      simp only [Table.establish, hreg]
      refine ⟨h.registered, fun q hq => ?_, h.instanced⟩
      rcases List.mem_append.mp hq with hq | hq
      · exact h.listed q hq
      · obtain rfl := List.mem_singleton.mp hq
        exact ⟨wsi, h.registered wsi q hreg, hreg⟩

theorem close (h : t.WellFormed) (wsi : Wsi) : (t.close wsi).WellFormed := by
  cases hreg : t.WSClientSet wsi with
  | none => simpa only [Table.close, hreg] using h
  | some p =>
      have hcell := h.registered wsi p hreg
      simp only [Table.close, hreg]
      refine ⟨fun wsi' q hq => ?_, fun q hq => ?_, fun q hq => ?_⟩
      · simp only [Function.update_apply] at hq
        by_cases hw : wsi' = wsi
        · simp [hw] at hq
        · rw [if_neg hw] at hq
          have hcell' := h.registered wsi' q hq
          have hne : q ≠ p := by
            rintro rfl
            exact hw (Option.some.inj (hcell'.symm.trans hcell))
          rw [Heap.cell_free, if_neg hne]
          exact hcell'
      · obtain ⟨hmem, hne⟩ : q ∈ t.g_WSClientSet ∧ q ≠ p := by simpa using hq
        obtain ⟨wsi', hcell', hreg'⟩ := h.listed q hmem
        have hw : wsi' ≠ wsi := by
          rintro rfl
          exact hne (Option.some.inj (hreg'.symm.trans hreg))
        refine ⟨wsi', ?_, ?_⟩
        · rw [Heap.cell_free, if_neg hne]
          exact hcell'
        · simpa [Function.update_of_ne hw] using hreg'
      · cases hq

/-- **Every move keeps the table well formed.** -/
theorem step (h : t.WellFormed) (a : Action) : (t.step a).WellFormed := by
  cases a with
  | lws wsi reason =>
      by_cases h₁ : reason.establishes = true
      · rw [t.step_establishes h₁]
        exact h.establish wsi
      by_cases h₂ : reason.closes = true
      · rw [t.step_closes h₂]
        exact h.close wsi
      by_cases h₃ : reason = .WSI_CREATE false
      · subst h₃
        exact h.create wsi
      · rw [t.step_stays h₁ h₂ h₃]
        exact h
  | sdk | send | close | construct | connect | delete => exact h

end WellFormed

end Table

end UCClient
