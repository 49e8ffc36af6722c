import Mathlib.Tactic.ByContra
import UCClient.ServerTable

/-!
# The Connection Registry

For every address lws goes through lives: `WSI_CREATE` first, then at most one
`ESTABLISHED`, then possibly a closing callback — always one if `ESTABLISHED` happened —
and `WSI_DESTROY` last; afterwards the address may be used again (`lives`). In such an
environment the registry should hold, for every life that is not closed, the client that
was made for it, and nothing else (`Exact`).

It does, until a connection dies without having been established: such a life can end
with no closing callback. `WSI_DESTROY` deletes objects of the base class only, so the
page connection stays registered; and because `insert` keeps an entry that exists, the
next connection at the same address is served by the dead one's object.

## Main results

* `registry_exact_iff`: a run keeps the registry exact exactly when each of its
  `WSI_DESTROY` comes after a closing callback of that life.
* `registry_not_exact`: after a port probe and a page at the same address, the page is
  served by the object of the probe.
-/

namespace UCClient

/-- The callbacks that may come next in a life. -/
def Life.admits (l : Life) : Reason → Prop
  | .WSI_CREATE hasUser => hasUser = false ∧ l.alive = false
  | .ESTABLISHED => l.alive = true ∧ l.established = false ∧ l.closed = false
  | .CLOSED _ | .CLOSED_HTTP _ => l.alive = true ∧ l.closed = false
  | .WSI_DESTROY => l.alive = true ∧ (l.established = true → l.closed = true)
  | .RECEIVE _ | .SERVER_WRITEABLE _ | .other => l.alive = true
  | .CLIENT_ESTABLISHED | .CLIENT_CONNECTION_ERROR _ | .CLOSED_CLIENT_HTTP _
  | .CLIENT_RECEIVE _ | .CLIENT_WRITEABLE _ => False

instance (l : Life) : ∀ reason, Decidable (l.admits reason)
  | .WSI_CREATE _ | .ESTABLISHED | .CLOSED _ | .CLOSED_HTTP _ | .WSI_DESTROY =>
      inferInstanceAs (Decidable (_ ∧ _))
  | .RECEIVE _ | .SERVER_WRITEABLE _ | .other => inferInstanceAs (Decidable (l.alive = true))
  | .CLIENT_ESTABLISHED | .CLIENT_CONNECTION_ERROR _ | .CLOSED_CLIENT_HTTP _
  | .CLIENT_RECEIVE _ | .CLIENT_WRITEABLE _ => inferInstanceAs (Decidable False)

/-- The contract of the environment: the callbacks of a connection come in lives. -/
def lives (w : World) (wsi : Wsi) (reason : Reason) : Prop := (w.life wsi).admits reason

instance (w : World) (wsi : Wsi) (reason : Reason) : Decidable (lives w wsi reason) :=
  inferInstanceAs (Decidable ((w.life wsi).admits reason))

/-- The registry holds for each life that is not closed the page connection made for it,
and no address without a life. -/
structure Exact (w : World) : Prop where
  owner : ∀ wsi, (w.life wsi).alive = true → (w.life wsi).closed = false →
    ∃ p c, (w.life wsi).owner = some p ∧ w.server.WSClientSet wsi = some p ∧
      w.server.heap.cell p = some c ∧ c.cls = .UCClientWSclient ∧ c.wsi = wsi
  ended : ∀ wsi, (w.life wsi).alive = false → w.server.WSClientSet wsi = none

/-- A life ends only after its closing callback. -/
def closedFirst (w : World) : Action → Prop
  | .lws wsi reason => reason = .WSI_DESTROY → (w.life wsi).closed = true
  | .sdk _ _ | .send _ _ | .close _ | .construct | .connect _ _ | .delete _ => True

instance (w : World) : ∀ a, Decidable (closedFirst w a)
  | .lws wsi reason =>
      inferInstanceAs (Decidable (reason = .WSI_DESTROY → (w.life wsi).closed = true))
  | .sdk _ _ | .send _ _ | .close _ | .construct | .connect _ _ | .delete _ =>
      inferInstanceAs (Decidable True)

/-! ### One address

Life and registry entry of an address change together, and only by the callbacks of that
address. -/

/-- The entry of an address after a callback; `p` is the client a `WSI_CREATE` makes. -/
def nextEntry (e : Option ℕ) (p : ℕ) (reason : Reason) : Option ℕ :=
  if reason.closes then none
  else if reason = .WSI_CREATE false then e.or (some p)
  else e

theorem Table.step_lws_WSClientSet (t : Table) (wsi : Wsi) (reason : Reason) :
    (t.step (.lws wsi reason)).WSClientSet =
      Function.update t.WSClientSet wsi (nextEntry (t.WSClientSet wsi) t.objects.next reason) := by
  cases reason with
  | WSI_CREATE hasUser =>
      cases hasUser with
      | false => rfl
      | true => exact (Function.update_eq_self wsi t.WSClientSet).symm
  | ESTABLISHED | CLIENT_ESTABLISHED =>
      exact (t.establish_WSClientSet wsi).trans (Function.update_eq_self wsi t.WSClientSet).symm
  | CLIENT_CONNECTION_ERROR | CLOSED | CLOSED_CLIENT_HTTP | CLOSED_HTTP =>
      exact t.close_WSClientSet wsi
  | RECEIVE | CLIENT_RECEIVE | SERVER_WRITEABLE | CLIENT_WRITEABLE | WSI_DESTROY | other =>
      exact (Function.update_eq_self wsi t.WSClientSet).symm

/-- The entry of an address fits its life. -/
structure ExactAt (l : Life) (e : Option ℕ) : Prop where
  owner : l.alive = true → l.closed = false → ∃ p, l.owner = some p ∧ e = some p
  ended : l.alive = false → e = none

/-- What holds of every address in every state of a run. -/
structure LifeInv (l : Life) (e : Option ℕ) : Prop where
  unborn : l.alive = false → l.closed = false
  erased : l.closed = true → e = none

variable {l : Life} {e : Option ℕ} {p : ℕ} {reason : Reason}

theorem LifeInv.next (h : LifeInv l e) (ha : l.admits reason) :
    LifeInv (l.next p reason) (nextEntry e p reason) := by
  cases reason with
  | WSI_CREATE hasUser =>
      have hopen : l.closed = false := h.unborn ha.2
      refine ⟨fun h' => (nomatch h'), fun (h' : l.closed = true) => ?_⟩
      rw [hopen] at h'
      cases h'
  | ESTABLISHED => exact ⟨fun _ => rfl, fun h' => (nomatch h')⟩
  | CLOSED data | CLOSED_HTTP data =>
      refine ⟨fun (h' : l.alive = false) => ?_, fun _ => rfl⟩
      rw [ha.1] at h'
      cases h'
  | WSI_DESTROY => exact ⟨fun _ => rfl, fun h' => (nomatch h')⟩
  | RECEIVE | SERVER_WRITEABLE | other => exact ⟨h.unborn, h.erased⟩
  | CLIENT_ESTABLISHED | CLIENT_CONNECTION_ERROR | CLOSED_CLIENT_HTTP | CLIENT_RECEIVE
  | CLIENT_WRITEABLE => exact ha.elim

/-- **One callback keeps the entry exact exactly when it is no `WSI_DESTROY` of a life
that was not closed.** -/
theorem ExactAt.next_iff (h : ExactAt l e) (hi : LifeInv l e) (ha : l.admits reason) :
    ExactAt (l.next p reason) (nextEntry e p reason) ↔
      (reason = .WSI_DESTROY → l.closed = true) := by
  cases reason with
  | WSI_CREATE hasUser =>
      obtain ⟨rfl, hnot⟩ := ha
      obtain rfl := h.ended hnot
      exact iff_of_true ⟨fun _ _ => ⟨p, rfl, rfl⟩, fun h' => (nomatch h')⟩ nofun
  | ESTABLISHED =>
      obtain ⟨halive, -, hopen⟩ := ha
      exact iff_of_true ⟨fun _ _ => h.owner halive hopen, h.ended⟩ nofun
  | CLOSED data | CLOSED_HTTP data =>
      exact iff_of_true ⟨fun _ h' => (nomatch h'), fun _ => rfl⟩ nofun
  | WSI_DESTROY =>
      obtain ⟨halive, -⟩ := ha
      constructor
      · rintro h' -
        have hnone : e = none := h'.ended rfl
        by_contra hopen
        obtain ⟨q, -, hq⟩ := h.owner halive (by simpa using hopen)
        rw [hnone] at hq
        cases hq
      · intro hclosed
        exact ⟨fun h' => (nomatch h'), fun _ => hi.erased (hclosed rfl)⟩
  | RECEIVE | SERVER_WRITEABLE | other => exact iff_of_true ⟨h.owner, h.ended⟩ nofun
  | CLIENT_ESTABLISHED | CLIENT_CONNECTION_ERROR | CLOSED_CLIENT_HTTP | CLIENT_RECEIVE
  | CLIENT_WRITEABLE => exact ha.elim

/-! ### Runs -/

/-- What holds in every state of a run. -/
structure LivesInv (w : World) : Prop where
  good : Good w.server
  fits : ∀ wsi, LifeInv (w.life wsi) (w.server.WSClientSet wsi)

/-- Exactness is a matter of each address: which client is registered decides the rest. -/
theorem exact_iff {w : World} (h : Good w.server) :
    Exact w ↔ ∀ wsi, ExactAt (w.life wsi) (w.server.WSClientSet wsi) := by
  constructor
  · intro he wsi
    refine ⟨fun halive hopen => ?_, he.ended wsi⟩
    obtain ⟨p, -, howner, hreg, -⟩ := he.owner wsi halive hopen
    exact ⟨p, howner, hreg⟩
  · intro he
    refine ⟨fun wsi halive hopen => ?_, fun wsi => (he wsi).ended⟩
    obtain ⟨p, howner, hreg⟩ := (he wsi).owner halive hopen
    obtain ⟨c, hc, hw, hcls, -⟩ := h.registered hreg
    exact ⟨p, c, howner, hreg, hc, hcls, hw⟩

variable {sdk : Sdk} {w w' : World} {a : Action}

/-- What a step does to life and entry of an address. -/
theorem step_entry (h : Good w.server) (ha : contract lives w a)
    (hst : World.step .UCClientWSServer sdk w a = .ok w') (wsi : Wsi) :
    (∃ reason, a = .lws wsi reason ∧ (w.life wsi).admits reason ∧
        w'.life wsi = (w.life wsi).next w.server.heap.next reason ∧
        w'.server.WSClientSet wsi =
          nextEntry (w.server.WSClientSet wsi) w.server.heap.next reason) ∨
      ((∀ reason, a ≠ .lws wsi reason) ∧ w'.life wsi = w.life wsi ∧
        w'.server.WSClientSet wsi = w.server.WSClientSet wsi) := by
  have hlife := step_life hst ha.ofServer
  have htable := congrArg Table.WSClientSet (step_table h ha.ofServer hst).1
  change w'.server.WSClientSet = _ at htable
  cases a with
  | lws wsi' reason =>
      rw [Table.step_lws_WSClientSet] at htable
      by_cases hw : wsi = wsi'
      · subst hw
        refine .inl ⟨reason, rfl, ha, ?_, ?_⟩
        · rw [hlife]
          exact Function.update_self ..
        · rw [htable]
          exact Function.update_self ..
      · refine .inr ⟨fun reason h' => ?_, ?_, ?_⟩
        · cases h'
          exact hw rfl
        · rw [hlife]
          exact Function.update_of_ne hw ..
        · rw [htable]
          exact Function.update_of_ne hw ..
  | sdk | send | close | construct | connect | delete =>
      exact .inr ⟨nofun, congrFun hlife wsi, congrFun htable wsi⟩

theorem LivesInv.step (h : LivesInv w) (ha : contract lives w a)
    (hst : World.step .UCClientWSServer sdk w a = .ok w') : LivesInv w' := by
  refine ⟨(step_table h.good ha.ofServer hst).2, fun wsi => ?_⟩
  obtain ⟨reason, -, hadm, hlife, hentry⟩ | ⟨-, hlife, hentry⟩ := step_entry h.good ha hst wsi
  · rw [hlife, hentry]
    exact (h.fits wsi).next hadm
  · rw [hlife, hentry]
    exact h.fits wsi

theorem livesInv_reachable
    (h : (World.system .UCClientWSServer sdk (contract lives)).Reachable w) : LivesInv w :=
  h.invariant ⟨.empty, fun _ => ⟨fun _ => rfl, fun _ => rfl⟩⟩
    fun _ _ _ _ hinv hal hst => hinv.step hal hst

/-- **One step keeps the registry exact exactly when it destroys no connection that was
not closed.** -/
theorem Exact.step_iff (h : Exact w) (hinv : LivesInv w) (ha : contract lives w a)
    (hst : World.step .UCClientWSServer sdk w a = .ok w') : Exact w' ↔ closedFirst w a := by
  have hat := (exact_iff hinv.good).mp h
  have hcond : closedFirst w a ↔
      ∀ wsi, a = .lws wsi .WSI_DESTROY → (w.life wsi).closed = true := by
    cases a with
    | lws wsi reason =>
        constructor
        · rintro hc _ h'
          cases h'
          exact hc rfl
        · rintro hc rfl
          exact hc wsi rfl
    | sdk | send | close | construct | connect | delete => exact iff_of_true trivial nofun
  rw [exact_iff (hinv.step ha hst).good, hcond]
  refine forall_congr' fun wsi => ?_
  obtain ⟨reason, rfl, hadm, hlife, hentry⟩ | ⟨hne, hlife, hentry⟩ :=
    step_entry hinv.good ha hst wsi
  · rw [hlife, hentry, (hat wsi).next_iff (hinv.fits wsi) hadm]
    simp only [Action.lws.injEq, true_and]
  · rw [hlife, hentry]
    exact iff_of_true (hat wsi) fun h' => absurd h' (hne _)

/-- **Exactness of the registry.** Whatever the callbacks of any number of connections,
as long as they come in lives: the registry is exact in every state of a run exactly when
every life of the run that ends was closed before. -/
theorem registry_exact_iff (sdk : Sdk) {as : List Action} {w : World}
    (h : (World.system .UCClientWSServer sdk (contract lives)).Run as w) :
    (World.system .UCClientWSServer sdk (contract lives)).AllStates as Exact ↔
      (World.system .UCClientWSServer sdk (contract lives)).AllSteps as closedFirst :=
  StepSystem.allStates_iff_allSteps ⟨nofun, fun _ _ => rfl⟩
    (fun _ _ _ hreach hP hal hst => hP.step_iff (livesInv_reachable hreach) hal hst) h

/-- A page closes, its address is used for another page: the registry is exact all along,
and holds the client of the second page. -/
theorem registry_exact_reused :
    ∃ as w, (World.system .UCClientWSServer silentSdk (contract lives)).Run as w ∧
      (World.system .UCClientWSServer silentSdk (contract lives)).AllStates as Exact ∧
      w.server.WSClientSet 1 = some 1 := by
  obtain ⟨w, hrun, hreg⟩ := StepSystem.run_of_check_map
    (S := (World.system .UCClientWSServer silentSdk (contract lives)).restrict closedFirst)
    (f := fun w => w.server.WSClientSet 1) (b := some 1)
    [.lws 1 (.WSI_CREATE false), .lws 1 .ESTABLISHED, .lws 1 (.CLOSED none),
      .lws 1 .WSI_DESTROY, .lws 1 (.WSI_CREATE false)] (by decide)
  obtain ⟨hrun, hsteps⟩ := hrun.of_restrict
  exact ⟨_, w, hrun, (registry_exact_iff silentSdk hrun).mpr hsteps, hreg⟩

/-- **The registry is not always exact.** A connection is created and destroyed before the
handshake, as by a port probe; lws then uses the address for a page. The page's own
client is the second one, but the address is registered with the first. -/
theorem registry_not_exact :
    ∃ w, (World.system .UCClientWSServer silentSdk (contract lives)).Run
        [.lws 1 (.WSI_CREATE false), .lws 1 .WSI_DESTROY, .lws 1 (.WSI_CREATE false)] w ∧
      (w.life 1).owner = some 1 ∧ w.server.WSClientSet 1 = some 0 ∧ ¬ Exact w := by
  obtain ⟨w, hrun, hw⟩ := StepSystem.run_of_check_map
    (S := World.system .UCClientWSServer silentSdk (contract lives))
    (f := fun w => (w.life 1, w.server.WSClientSet 1))
    (b := ({ alive := true, owner := some 1 }, some 0))
    [.lws 1 (.WSI_CREATE false), .lws 1 .WSI_DESTROY, .lws 1 (.WSI_CREATE false)] (by decide)
  obtain ⟨hlife, hreg⟩ := Prod.mk.inj hw
  refine ⟨w, hrun, by rw [hlife], hreg, fun hexact => ?_⟩
  obtain ⟨p, c, howner, hreg', -⟩ := hexact.owner 1 (by rw [hlife]) (by rw [hlife])
  rw [hlife] at howner
  rw [hreg] at hreg'
  cases howner
  cases hreg'

end UCClient
