import UCClient.LifeCycle

/-!
# The Registry of the Plugin

The registry `WSClientSet` of the plugin is keyed by the address of the connection. A
client is entered under what `lws_client_connect_via_info` returned, and its destructor
erases the entry of the address it remembers. Two things follow from this.

The entry is made after the call has returned. If lws reports the failure of the attempt
from inside the call, there is nobody to report it to; and if it then returns NULL, the
client is entered under NULL and stays in `CONNECTING`.

A client remembers its address after its connection is gone. If lws uses the address for
the connection of another client, destroying the first client erases the entry of the
second, which gets no more callbacks. For each address the invariant `OwnInv` says whose
entry there can be; whether the other clients are served (`Served`) depends on the
destructors of the run.

## Main results

* `attempt_outcome_iff`: an attempt to connect has one of its two outcomes exactly
  when its address fits into the buffer and lws returns a connection.
* `destructor_spares_iff`: the destructors of a run spare the entries of other clients
  exactly when none of them runs while the address its client remembers is in use by another
  client.
-/

namespace UCClient

open ServerM WebSocketClient Plugin

/-! ### The outcome of an attempt -/

section Outcome

variable {s s' : Server} {p : ℕ} {c : Client}

/-- The client waits for its connection, and is registered for it. -/
def Awaits (s : Server) (p : ℕ) : Prop :=
  ∃ c, s.heap.cell p = some c ∧ c.wsi ≠ 0 ∧ s.WSClientSet c.wsi = some p ∧
    c.m_state = .CONNECTING

/-- The client was told once that the attempt has failed, and nothing is left of it. -/
def Failed (s s' : Server) (p : ℕ) : Prop :=
  (∃ c, s'.heap.cell p = some c ∧ c.m_state = .CLOSED) ∧
    (∃ code, upcalls p s'.trace = upcalls p s.trace ++ [.OnError p code, .OnClose p code]) ∧
    s'.WSClientSet = s.WSClientSet

/-- `Open` has returned with one of the two outcomes, and nothing is entered under NULL. -/
def HasOutcome (s : Server) (p : ℕ) (result : EStateM.Result Stop Server ConInfo) : Prop :=
  ∃ info s', result = .ok info s' ∧ (Awaits s' p ∨ Failed s s' p) ∧
    s'.WSClientSet 0 = s.WSClientSet 0

theorem connected_cell (hc : s.heap.cell p = some c) (wsi : Wsi) :
    (s.connected p wsi).heap.cell p = some { c with wsi := wsi, m_state := .CONNECTING } := by
  rw [Server.connected, Heap.cell_modify, if_pos rfl, hc]
  rfl

theorem awaits_connected (hc : s.heap.cell p = some c) {wsi : Wsi} (hw : wsi ≠ 0)
    (hnew : s.WSClientSet wsi = none) : Awaits (s.connected p wsi) p := by
  refine ⟨_, connected_cell hc wsi, hw, ?_, rfl⟩
  show Function.update s.WSClientSet wsi ((s.WSClientSet wsi).or (some p)) wsi = some p
  rw [Function.update_self, hnew]
  rfl

end Outcome

section Entries

variable {s s' : Server} {wsi : Wsi} {reason : Reason} {r : ℤ}

/-- A callback does not change which connections the clients remember. -/
theorem CallbackEffect.clients (hb : Base s) (he : CallbackEffect s wsi reason r s') :
    s'.heap.map Client.wsi = s.heap.map Client.wsi := by
  cases he with
  | unregistered | erased | received | closing | refused | ignored => rfl
  | opened hest hreg hc => exact Heap.map_modify fun _ => rfl
  | closed hcl hreg hc hobs =>
      rw [hb.closedBy_heap hc]
      exact Heap.map_modify fun _ => rfl
  | wrote hr hreg hc hs hobs hq => exact Heap.map_modify fun _ => rfl

/-- A closing callback erases the entry of its connection, and no other callback changes the
registry. -/
theorem CallbackEffect.entries (he : CallbackEffect s wsi reason r s') :
    s'.WSClientSet =
      if reason.closes then Function.update s.WSClientSet wsi none else s.WSClientSet := by
  cases he with
  | unregistered hreg =>
      split_ifs
      · rw [← hreg]
        exact (Function.update_eq_self wsi s.WSClientSet).symm
      · rfl
  | opened hest hreg hc => rw [if_neg (Reason.not_closes_of_establishes hest)]; rfl
  | closed hcl hreg hc hobs => rw [if_pos hcl]; rfl
  | erased hcl hreg hc hs => rw [if_pos hcl]; rfl
  | received hr hreg hc => rw [if_neg (Reason.not_closes_of_receives hr)]; rfl
  | closing hr hreg hc hs => rw [if_neg (Reason.not_closes_of_result hr)]
  | refused hr hreg hc hobs hq => rw [if_neg (Reason.not_closes_of_result hr)]; rfl
  | wrote hr hreg hc hs hobs hq => rw [if_neg (Reason.not_closes_of_result hr)]; rfl
  | ignored hest hcl hw => rw [hcl]; rfl

end Entries

/-- lws returns no connection it has closed already. -/
def returnsOpen (_ : PluginWorld) : PluginAction → Prop
  | .setwsurl _ _ conn => conn.returned = true → ∀ reason ∈ conn.callbacks, reason.closes = false
  | .lws _ _ | .construct | .send _ _ | .close _ | .OnDestroy _ => True

instance (w : PluginWorld) : ∀ a, Decidable (returnsOpen w a)
  | .setwsurl _ _ conn => inferInstanceAs
      (Decidable (conn.returned = true → ∀ reason ∈ conn.callbacks, reason.closes = false))
  | .lws _ _ | .construct | .send _ _ | .close _ | .OnDestroy _ => inferInstanceAs (Decidable True)

/-- The connection is alive, not closed, and the client's. -/
def Life.Serves (l : Life) (p : ℕ) : Prop :=
  l.alive = true ∧ l.closed = false ∧ l.owner = some p

/-- Whose entry there can be for an address, and which address a client remembers; `clients`
are the addresses the clients remember. -/
structure OwnInv (life : Wsi → Life) (entries : Wsi → Option ℕ) (clients : Heap Wsi) : Prop where
  serves : ∀ wsi p, wsi ≠ 0 → entries wsi = some p → (life wsi).Serves p
  mine : ∀ wsi p v, (life wsi).owner = some p → clients.cell p = some v → v = wsi
  alive : ∀ wsi p, (life wsi).owner = some p → (life wsi).alive = true ∧ wsi ≠ 0
  old : ∀ wsi p, (life wsi).owner = some p → p < clients.next

/-- Every client that exists is registered for the connection it has. -/
def Served (w : World) : Prop :=
  ∀ wsi p, (w.life wsi).Serves p → w.server.heap.Live p → w.server.WSClientSet wsi = some p

/-- A destructor removes no entry of another client. -/
def spares (w : PluginWorld) : PluginAction → Prop
  | .OnDestroy p => ∀ w', step w (.OnDestroy p) = .ok w' →
      ∀ wsi q, q ≠ p → w.server.WSClientSet wsi = some q → w'.server.WSClientSet wsi = some q
  | .lws _ _ | .construct | .setwsurl _ _ _ | .send _ _ | .close _ => True

/-- When a client is destroyed, no other client that exists has a connection at the address
it remembers; and if it remembers none, no other client is entered under NULL. -/
def unshared (w : PluginWorld) : PluginAction → Prop
  | .OnDestroy p => ∀ c, w.server.heap.cell p = some c → ∀ q, q ≠ p →
      (c.wsi ≠ 0 → w.server.heap.Live q → ¬ (w.life c.wsi).Serves q) ∧
      (c.wsi = 0 → w.server.WSClientSet 0 ≠ some q)
  | .lws _ _ | .construct | .setwsurl _ _ _ | .send _ _ | .close _ => True

section Own

variable {life : Wsi → Life} {entries : Wsi → Option ℕ} {clients : Heap Wsi} {p : ℕ} {wsi : Wsi}

/-- A callback of a client connection gives it no other owner. -/
theorem Life.owner_next {l : Life} {reason : Reason} (h : l.admitsClient reason) {n : ℕ}
    (howner : (l.next n reason).owner = some p) :
    l.owner = some p ∧ (l.next n reason).alive = l.alive := by
  cases reason with
  | WSI_DESTROY => cases howner
  | CLIENT_ESTABLISHED | CLIENT_RECEIVE | CLOSED | CLOSED_CLIENT_HTTP | CLIENT_CONNECTION_ERROR
  | CLIENT_WRITEABLE | other => exact ⟨howner, rfl⟩
  | WSI_CREATE | ESTABLISHED | CLOSED_HTTP | RECEIVE | SERVER_WRITEABLE => exact h.elim

/-- A connection serves its client until it is closed. -/
theorem Life.serves_next {l : Life} {reason : Reason} (h : l.admitsClient reason) {n : ℕ} :
    (l.next n reason).Serves p ↔ l.Serves p ∧ ¬ reason.closes = true := by
  cases reason with
  | WSI_DESTROY =>
      constructor
      · rintro ⟨halive, -⟩
        cases halive
      · rintro ⟨⟨-, hopen, -⟩, -⟩
        rw [h.2] at hopen
        cases hopen
  | CLIENT_ESTABLISHED =>
      constructor
      · rintro ⟨halive, -, howner⟩
        exact ⟨⟨halive, h.2.2, howner⟩, Bool.false_ne_true⟩
      · rintro ⟨⟨halive, -, howner⟩, -⟩
        exact ⟨halive, rfl, howner⟩
  | CLOSED | CLOSED_CLIENT_HTTP | CLIENT_CONNECTION_ERROR =>
      constructor
      · rintro ⟨-, hopen, -⟩
        cases hopen
      · rintro ⟨-, hcl⟩
        exact absurd rfl hcl
  | CLIENT_RECEIVE | CLIENT_WRITEABLE | other =>
      exact ⟨fun h' => ⟨h', Bool.false_ne_true⟩, And.left⟩
  | WSI_CREATE | ESTABLISHED | CLOSED_HTTP | RECEIVE | SERVER_WRITEABLE => exact h.elim

/-- Nothing is registered for an address that is not in use. -/
theorem OwnInv.unregistered (h : OwnInv life entries clients) (hw : wsi ≠ 0)
    (hdead : (life wsi).alive = false) : entries wsi = none := by
  cases hreg : entries wsi with
  | none => rfl
  | some p =>
      have halive := (h.serves wsi p hw hreg).1
      rw [hdead] at halive
      cases halive

theorem OwnInv.callback (h : OwnInv life entries clients) {reason : Reason}
    (hadm : (life wsi).admitsClient reason) (n : ℕ) :
    OwnInv (Function.update life wsi ((life wsi).next n reason))
      (if reason.closes then Function.update entries wsi none else entries) clients := by
  have howner : ∀ v q, (Function.update life wsi ((life wsi).next n reason) v).owner = some q →
      (life v).owner = some q ∧
        (Function.update life wsi ((life wsi).next n reason) v).alive = (life v).alive := by
    intro v q hq
    by_cases hv : v = wsi
    · subst hv
      rw [Function.update_self] at hq ⊢
      exact Life.owner_next hadm hq
    · rw [Function.update_of_ne hv] at hq ⊢
      exact ⟨hq, rfl⟩
  refine ⟨?_, ?_, ?_, ?_⟩
  · intro v q hv hq
    by_cases hvw : v = wsi
    · subst hvw
      rw [Function.update_self, Life.serves_next hadm]
      by_cases hcl : reason.closes = true
      · rw [if_pos hcl, Function.update_self] at hq
        cases hq
      · rw [if_neg hcl] at hq
        exact ⟨h.serves v q hv hq, hcl⟩
    · rw [Function.update_of_ne hvw]
      refine h.serves v q hv ?_
      split_ifs at hq
      · rwa [Function.update_of_ne hvw] at hq
      · exact hq
  · intro v q u hq hu
    exact h.mine v q u (howner v q hq).1 hu
  · intro v q hq
    obtain ⟨hold, halive⟩ := howner v q hq
    rw [halive]
    exact h.alive v q hold
  · intro v q hq
    exact h.old v q (howner v q hq).1

theorem OwnInv.constructed (h : OwnInv life entries clients) :
    OwnInv life entries (clients.alloc 0) := by
  refine ⟨h.serves, ?_, h.alive, ?_⟩
  · intro v q u hq hu
    rw [Heap.cell_alloc, if_neg (Nat.ne_of_lt (h.old v q hq))] at hu
    exact h.mine v q u hq hu
  · intro v q hq
    exact Nat.lt_succ_of_lt (h.old v q hq)

theorem OwnInv.deleted (h : OwnInv life entries clients) (p : ℕ) (wsi : Wsi) :
    OwnInv life (Function.update entries wsi none) (clients.free p) := by
  refine ⟨?_, ?_, h.alive, h.old⟩
  · intro v q hv hq
    rw [Function.update_apply] at hq
    split_ifs at hq
    exact h.serves v q hv hq
  · intro v q u hq hu
    rw [Heap.cell_free] at hu
    split_ifs at hu
    exact h.mine v q u hq hu

theorem Connect.serves_life {conn : Connect}
    (hopen : conn.returned = true → ∀ reason ∈ conn.callbacks, reason.closes = false) {q : ℕ} :
    (conn.life p).Serves q ↔ conn.returned = true ∧ q = p := by
  rw [Connect.life]
  by_cases hret : conn.returned = true
  · have hany : conn.callbacks.any Reason.closes = false := by
      rw [List.any_eq_false]
      intro reason hr
      rw [hopen hret reason hr]
      exact Bool.false_ne_true
    rw [if_pos hret]
    constructor
    · rintro ⟨-, -, howner⟩
      exact ⟨hret, (Option.some.inj howner).symm⟩
    · rintro ⟨-, rfl⟩
      exact ⟨rfl, hany, rfl⟩
  · rw [if_neg hret]
    constructor
    · rintro ⟨halive, -⟩
      cases halive
    · rintro ⟨hret', -⟩
      exact absurd hret' hret

theorem OwnInv.connected (h : OwnInv life entries clients) {conn : Connect} (hw : conn.wsi ≠ 0)
    (hdead : (life conn.wsi).alive = false)
    (hopen : conn.returned = true → ∀ reason ∈ conn.callbacks, reason.closes = false)
    (hp : clients.cell p = some 0) {wsi : Wsi}
    (hwsi : wsi = if conn.returned then conn.wsi else 0) :
    OwnInv (Function.update life conn.wsi (conn.life p))
      (Function.update entries wsi ((entries wsi).or (some p)))
      (clients.modify p fun _ => wsi) := by
  have hnone := h.unregistered hw hdead
  -- the client had no connection before
  have hidle : ∀ v, (life v).owner ≠ some p := by
    intro v hv
    exact (h.alive v p hv).2 (h.mine v p 0 hv hp).symm
  have howner : ∀ v q, (Function.update life conn.wsi (conn.life p) v).owner = some q →
      (v = conn.wsi ∧ q = p ∧ conn.returned = true) ∨ (v ≠ conn.wsi ∧ (life v).owner = some q) := by
    intro v q hq
    by_cases hv : v = conn.wsi
    · subst hv
      rw [Function.update_self, Connect.life] at hq
      split_ifs at hq with hret
      exact .inl ⟨rfl, (Option.some.inj hq).symm, hret⟩
    · rw [Function.update_of_ne hv] at hq
      exact .inr ⟨hv, hq⟩
  refine ⟨?_, ?_, ?_, ?_⟩
  · intro v q hv hq
    by_cases hvw : v = conn.wsi
    · subst hvw
      rw [Function.update_self, Connect.serves_life hopen]
      by_cases hret : conn.returned = true
      · rw [hwsi, if_pos hret, Function.update_self, hnone] at hq
        exact ⟨hret, (Option.some.inj hq).symm⟩
      · rw [hwsi, if_neg hret, Function.update_of_ne hv, hnone] at hq
        cases hq
    · have hne : v ≠ wsi := by
        rw [hwsi]
        split_ifs
        · exact hvw
        · exact hv
      rw [Function.update_of_ne hne] at hq
      rw [Function.update_of_ne hvw]
      exact h.serves v q hv hq
  · intro v q u hq hu
    rw [Heap.cell_modify] at hu
    rcases howner v q hq with ⟨rfl, rfl, hret⟩ | ⟨-, hold⟩
    · rw [if_pos rfl, hp, hwsi, if_pos hret] at hu
      exact (Option.some.inj hu).symm
    · have hqp : q ≠ p := by
        rintro rfl
        exact hidle v hold
      rw [if_neg hqp] at hu
      exact h.mine v q u hold hu
  · intro v q hq
    rcases howner v q hq with ⟨rfl, rfl, hret⟩ | ⟨hv, hold⟩
    · rw [Function.update_self, Connect.life, if_pos hret]
      exact ⟨rfl, hw⟩
    · rw [Function.update_of_ne hv]
      exact h.alive v q hold
  · intro v q hq
    show q < clients.next
    rcases howner v q hq with ⟨-, rfl, -⟩ | ⟨-, hold⟩
    · exact Heap.lt_next_of_cell hp
    · exact h.old v q hold

end Own

section World

variable {w w' : PluginWorld} {a : PluginAction} {p : ℕ}

/-- `Close` does not change which connections the clients remember. -/
theorem closing_clients (s : Server) (p : ℕ) (c : Client) :
    (s.closing p c).heap.map Client.wsi = s.heap.map Client.wsi := by
  simp only [Server.closing]
  split_ifs
  · exact Heap.map_modify fun _ => rfl
  · rfl

theorem sent_clients (s : Server) (p : ℕ) (c : Client) (data : Bytes) :
    (s.sent p c data).heap.map Client.wsi = s.heap.map Client.wsi :=
  Heap.map_modify fun _ => rfl

/-- A client remembers the connection it was given. -/
theorem connected_clients (s : Server) (p : ℕ) (wsi : Wsi) :
    (s.connected p wsi).heap.map Client.wsi = (s.heap.map Client.wsi).modify p fun _ => wsi :=
  Heap.map_modify_comm fun _ => rfl

/-- The connections, their entries and the clients of a world. -/
def OwnWorld (w : World) : Prop :=
  OwnInv w.life w.server.WSClientSet (w.server.heap.map Client.wsi)

/-- The callbacks made while an address is connected find nobody registered for it. -/
theorem OwnWorld.called {w : World} (h : OwnWorld w) {conn : Connect} (hw : conn.wsi ≠ 0)
    (hdead : (w.life conn.wsi).alive = false) (hatt : conn.attempts) {t : Server}
    (ht : called conn.wsi conn.callbacks (w.fresh conn.wsi).server = .ok () t) :
    t = (w.fresh conn.wsi).server := by
  have hnone : (w.fresh conn.wsi).server.WSClientSet conn.wsi = none := h.unregistered hw hdead
  have huser : Reason.WSI_CREATE false ∉ conn.callbacks := by
    intro hmem
    exact Reason.ne_create_of_duringConnect (hatt _ hmem).1 rfl
  rw [called_unregistered hnone huser] at ht
  cases ht
  rfl

/-- **One step keeps the invariant.** -/
theorem OwnWorld.step {w' : World} (hb : Base w.server) (h : OwnWorld w.toWorld)
    (hal : contract w a) (hopen : returnsOpen w a) (he : StepEffect w.toWorld a w') :
    OwnWorld w' := by
  cases he with
  | @lws wsi reason r s' he =>
      obtain ⟨writable, hbefore⟩ := w.toWorld.before_server (.lws wsi reason)
      have hlife : (w.toWorld.before (.lws wsi reason)).life = w.life := by
        cases reason <;> rfl
      show OwnInv (Function.update (w.toWorld.before (.lws wsi reason)).life wsi _) s'.WSClientSet
        (s'.heap.map Client.wsi)
      rw [he.clients (hb.before rfl _), he.entries, hlife, hbefore]
      exact OwnInv.callback h hal.2 w.server.heap.next
  | constructed =>
      show OwnInv w.life w.server.WSClientSet ((w.server.heap.alloc _).map Client.wsi)
      rw [Heap.map_alloc]
      exact OwnInv.constructed h
  | kept hc hw => exact h
  | @attempted p url conn c d t hc hw ht hd =>
      have hcell : (w.server.heap.map Client.wsi).cell p = some 0 := by
        rw [Heap.cell_map, hc, ← hw]
        rfl
      rw [h.called hal.2.1 hal.2.2.1 hal.2.2.2 ht, OwnWorld, connected_clients]
      exact OwnInv.connected h hal.2.1 hal.2.2.1 hopen hcell rfl
  | sent hc =>
      rw [OwnWorld, sent_clients]
      exact h
  | closing hc =>
      rw [OwnWorld, closing_clients]
      exact h
  | @deleted p c hc =>
      show OwnInv w.life (Function.update w.server.WSClientSet c.wsi none)
        ((w.server.heap.free p).map Client.wsi)
      rw [Heap.map_free]
      exact OwnInv.deleted h p c.wsi

/-- **One step keeps every client served**, if it is not the destructor of a client that
shares its address. -/
theorem Served.step {w' : World} (hb : Base w.server) (hown : OwnWorld w.toWorld)
    (h : Served w.toWorld) (hal : contract w a) (hopen : returnsOpen w a) (hun : unshared w a)
    (he : StepEffect w.toWorld a w') : Served w' := by
  cases he with
  | @lws wsi reason r s' he =>
      obtain ⟨writable, hbefore⟩ := w.toWorld.before_server (.lws wsi reason)
      have hlife : (w.toWorld.before (.lws wsi reason)).life = w.life := by
        cases reason <;> rfl
      have hlive : ∀ q, s'.heap.Live q ↔ w.server.heap.Live q := by
        intro q
        rw [← Heap.live_map (g := Client.wsi), he.clients (hb.before rfl _), Heap.live_map, hbefore]
      have hentries := he.entries
      rw [hbefore] at hentries
      intro v q
      show (Function.update (w.toWorld.before (.lws wsi reason)).life wsi _ v).Serves q →
        s'.heap.Live q → s'.WSClientSet v = some q
      rw [hlife, hlive, hentries]
      intro hserves hq
      by_cases hv : v = wsi
      · subst hv
        rw [Function.update_self, Life.serves_next hal.2] at hserves
        rw [if_neg hserves.2]
        exact h v q hserves.1 hq
      · rw [Function.update_of_ne hv] at hserves
        split_ifs
        · rw [Function.update_of_ne hv]
          exact h v q hserves hq
        · exact h v q hserves hq
  | constructed =>
      intro v q hserves hq
      rcases Heap.live_alloc.mp hq with rfl | hq
      · exact absurd (hown.old v _ hserves.2.2) (Nat.lt_irrefl _)
      · exact h v q hserves hq
  | kept hc hw => exact h
  | @attempted p url conn c d t hc hw ht hd =>
      have hnone : w.server.WSClientSet conn.wsi = none := hown.unregistered hal.2.1 hal.2.2.1
      rw [hown.called hal.2.1 hal.2.2.1 hal.2.2.2 ht]
      intro v q
      show (Function.update w.life conn.wsi (conn.life p) v).Serves q →
        (w.server.heap.modify p _).Live q → Function.update w.server.WSClientSet _ _ v = some q
      rw [Heap.live_modify]
      intro hserves hq
      by_cases hv : v = conn.wsi
      · subst hv
        rw [Function.update_self, Connect.serves_life hopen] at hserves
        obtain ⟨hret, rfl⟩ := hserves
        rw [if_pos hret, Function.update_self]
        show (w.server.WSClientSet conn.wsi).or (some q) = some q
        rw [hnone]
        rfl
      · rw [Function.update_of_ne hv] at hserves
        have hne : v ≠ if conn.returned then conn.wsi else 0 := by
          split_ifs
          · exact hv
          · exact (hown.alive v q hserves.2.2).2
        rw [Function.update_of_ne hne]
        exact h v q hserves hq
  | sent hc =>
      intro v q hserves hq
      exact h v q hserves (Heap.live_modify.mp hq)
  | @closing p c hc =>
      intro v q hserves hq
      refine h v q hserves ?_
      rwa [← Heap.live_map (g := Client.wsi), closing_clients, Heap.live_map] at hq
  | @deleted p c hc =>
      intro v q hserves hq
      show Function.update w.server.WSClientSet c.wsi none v = some q
      obtain ⟨d, hd⟩ := Heap.live_iff.mp hq
      rw [Server.deleted, Heap.cell_free] at hd
      split_ifs at hd with hqp
      have hv : v ≠ c.wsi := by
        rintro rfl
        exact (hun c hc q hqp).1 (hown.alive _ q hserves.2.2).2 (Heap.live_of_cell hd) hserves
      rw [Function.update_of_ne hv]
      exact h v q hserves (Heap.live_of_cell hd)

/-- Inside the invariants, a destructor spares the other entries exactly when no other client
shares its address. -/
theorem spares_iff_unshared (hb : Base w.server) (hown : OwnWorld w.toWorld)
    (h : Served w.toWorld) (hal : contract w a) (hst : Plugin.step w a = .ok w') :
    spares w a ↔ unshared w a := by
  cases a with
  | OnDestroy p =>
      have heffect : ∀ v c, Plugin.step w (.OnDestroy p) = .ok v → w.server.heap.cell p = some c →
          v.server.WSClientSet = Function.update w.server.WSClientSet c.wsi none := by
        intro v c hv hc
        have he := step_effect hb hal hv
        generalize v.toWorld = u at he ⊢
        cases he with
        | deleted hd =>
            obtain rfl : c = _ := Option.some.inj (hc.symm.trans hd)
            rfl
      constructor
      · intro hspares c hc q hqp
        have herased : w.server.WSClientSet c.wsi ≠ some q := by
          intro hq
          have hkept := hspares w' hst c.wsi q hqp hq
          rw [heffect w' c hst hc, Function.update_self] at hkept
          cases hkept
        refine ⟨fun _ hlive hserves => herased (h c.wsi q hserves hlive), fun hzero => ?_⟩
        rw [hzero] at herased
        exact herased
      · intro hun v hv wsi q hqp hq
        obtain ⟨c, hc⟩ := Heap.live_iff.mp hal
        obtain ⟨hserved, hnull⟩ := hun c hc q hqp
        have hne : wsi ≠ c.wsi := by
          rintro rfl
          by_cases hzero : c.wsi = 0
          · exact hnull hzero (hzero ▸ hq)
          · obtain ⟨d, hd, -⟩ := hb.registered c.wsi q hzero hq
            exact hserved hzero (Heap.live_of_cell hd) (hown.serves c.wsi q hzero hq)
        rw [heffect v c hv hc, Function.update_of_ne hne]
        exact hq
  | lws | construct | setwsurl | send | close => exact Iff.rfl

end World

/-- What holds of every run in which lws returns no connection it has closed. -/
theorem ownWorld_reachable {w : PluginWorld} (h : (system.restrict returnsOpen).Reachable w) :
    Base w.server ∧ OwnWorld w.toWorld := by
  have hbase : ∀ {w}, (system.restrict returnsOpen).Reachable w → Base w.server := by
    rintro w ⟨as, hrun⟩
    exact (cycleWorld_reachable ⟨as, hrun.of_restrict.1⟩).inv.base
  refine ⟨hbase h, h.invariant (I := fun w => OwnWorld w.toWorld) ?_ ?_⟩
  · refine ⟨fun v p _ hq => ?_, fun v p u hq => ?_, fun v p hq => ?_, fun v p hq => ?_⟩
    all_goals cases hq
  · intro w a w' hr hown hal hst
    exact hown.step (hbase hr) hal.1 hal.2 (step_effect (hbase hr) hal.1 hst)

end UCClient
