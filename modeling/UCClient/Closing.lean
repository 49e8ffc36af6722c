import UCClient.PluginRegistry

/-!
# Closing Connections of the Plugin

`Close` marks an open client as closing and asks for a `WRITEABLE` callback; the destructor
calls `Close` and erases the entry of the client. In both cases the callback asked for is
answered with -1, which makes lws close the connection.

Nothing is asked for while the connection is being made. A client that is then closed is
told later that it is open, and the connection of a client that is then destroyed stays
open. `Shut` is what holds from a call on when the call works.

## Main results

* `closing_works_iff`: after a call of `Close` or of the destructor no `OnOpen` follows and
  the connection is closed or about to be closed, exactly when the call found the client
  registered for an established connection, or without an entry and with a request pending.
-/

namespace UCClient

open ServerM WebSocketClient Plugin

/-! ### What a callback leaves as it is -/

section Callback

variable {s s' : Server} {wsi : Wsi} {reason : Reason} {r : ℤ} {p : ℕ} {c : Client}

/-- A callback changes no client but the one registered for its connection. -/
theorem CallbackEffect.cell_of_ne (hb : Base s) (he : CallbackEffect s wsi reason r s')
    (hp : s.WSClientSet wsi ≠ some p) : s'.heap.cell p = s.heap.cell p := by
  have hne : ∀ {q}, s.WSClientSet wsi = some q → p ≠ q := by
    rintro q hq rfl
    exact hp hq
  cases he with
  | unregistered | erased | received | closing | refused | ignored => rfl
  | opened hest hreg hc =>
      rw [Server.opened, Heap.cell_modify, if_neg (hne hreg)]
  | closed hcl hreg hc hobs =>
      rw [hb.closedBy_heap hc, Heap.cell_modify, if_neg (hne hreg)]
  | wrote hr hreg hc hs hobs hq =>
      rw [Server.wrote, Heap.cell_modify, if_neg (hne hreg)]

/-- A request stays pending. -/
theorem CallbackEffect.writable_mono (he : CallbackEffect s wsi reason r s') {v : Wsi}
    (h : s.writable v = true) : s'.writable v = true := by
  have hset : Function.update s.writable wsi true v = true := by
    rw [Function.update_apply]
    split_ifs
    · rfl
    · exact h
  cases he with
  | unregistered | closed | erased | received | closing | refused | ignored => exact h
  | opened hest hreg hc => exact hset
  | wrote hr hreg hc hs hobs hq =>
      rw [Server.wrote]
      split_ifs
      · exact hset
      · exact h

/-- Observations of data are no `OnOpen`. -/
theorem count_onOpen_eq_zero {obs : List Obs} {q : ℕ} (hobs : ∀ o ∈ obs, o.dataOf = some q) :
    obs.count (.OnOpen p) = 0 := by
  rw [List.count_eq_zero]
  intro hmem
  cases hobs _ hmem

/-- Only the client registered for a connection is told that it is established. -/
theorem CallbackEffect.count_onOpen (he : CallbackEffect s wsi reason r s')
    (h : ¬ (reason.establishes = true ∧ s.WSClientSet wsi = some p)) :
    s'.trace.count (.OnOpen p) = s.trace.count (.OnOpen p) := by
  cases he with
  | unregistered | erased | closing | ignored => rfl
  | @opened q c hest hreg hc =>
      have hne : q ≠ p := by
        rintro rfl
        exact h ⟨hest, hreg⟩
      rw [Server.opened, List.count_append]
      simp [hne]
  | closed hcl hreg hc hobs =>
      rw [Server.closedBy, List.count_append]
      rcases hobs with rfl | rfl <;> simp
  | received hr hreg hc =>
      rw [Server.observed, List.count_append]
      simp
  | refused hr hreg hc hobs hq =>
      rw [Server.observed, List.count_append, List.count_cons, count_onOpen_eq_zero hobs]
      simp
  | wrote hr hreg hc hs hobs hq =>
      rw [Server.wrote, List.count_append, List.count_cons, count_onOpen_eq_zero hobs]
      simp

/-- A client that is closing stays so while it is registered. -/
theorem CallbackEffect.closing_kept (he : CallbackEffect s wsi reason r s')
    (hest : ¬ reason.establishes = true) (hreg : s.WSClientSet wsi = some p)
    (hreg' : s'.WSClientSet wsi = some p) (hc : s.heap.cell p = some c)
    (hs : c.m_state = .CLOSING) : s'.heap.cell p = some c := by
  cases he with
  | unregistered | received | closing | refused | ignored => exact hc
  | opened hest' => exact absurd hest' hest
  | closed => simp [Server.closedBy] at hreg'
  | erased => exact hc
  | wrote hr hq hd hs' =>
      obtain rfl := Option.some.inj (hreg.symm.trans hq)
      obtain rfl := Option.some.inj (hc.symm.trans hd)
      exact absurd hs hs'

/-- No callback makes a client closing. -/
theorem CallbackEffect.closing_before (hb : Base s) (he : CallbackEffect s wsi reason r s')
    (hc : s'.heap.cell p = some c) (hs : c.m_state = .CLOSING) :
    ∃ d, s.heap.cell p = some d ∧ d.m_state = .CLOSING := by
  by_cases hp : s.WSClientSet wsi = some p
  · cases he with
    | unregistered | erased | received | closing | refused | ignored => exact ⟨c, hc, hs⟩
    | opened hest hreg hd =>
        obtain rfl := Option.some.inj (hp.symm.trans hreg)
        rw [Server.opened, Heap.cell_modify, if_pos rfl, hd] at hc
        cases hc
        cases hs
    | closed hcl hreg hd =>
        obtain rfl := Option.some.inj (hp.symm.trans hreg)
        rw [hb.closedBy_heap hd, Heap.cell_modify, if_pos rfl, hd] at hc
        cases hc
        cases hs
    | wrote hr hreg hd =>
        obtain rfl := Option.some.inj (hp.symm.trans hreg)
        rw [Server.wrote, Heap.cell_modify, if_pos rfl, hd] at hc
        cases hc
        exact ⟨_, hd, hs⟩
  · rw [he.cell_of_ne hb hp] at hc
    exact ⟨c, hc, hs⟩

/-- A `WRITEABLE` callback without a client, or of a closing one, returns -1. -/
theorem CallbackEffect.refuses (he : CallbackEffect s wsi reason r s')
    (hr : reason.result.isSome = true)
    (hno : ∀ p, s.WSClientSet wsi = some p → ∃ c, s.heap.cell p = some c ∧ c.m_state = .CLOSING) :
    r = -1 := by
  obtain ⟨res, hres⟩ := Option.isSome_iff_exists.mp hr
  cases he with
  | unregistered => rw [if_pos hr]
  | opened hest => exact absurd hest (Reason.not_establishes_of_result hres)
  | closed hcl | erased hcl => exact absurd hcl (Reason.not_closes_of_result hres)
  | received hrec =>
      rw [Reason.result_of_receives hrec] at hres
      cases hres
  | closing | refused => rfl
  | wrote _ hreg hd hs =>
      obtain ⟨c, hc, hclosing⟩ := hno _ hreg
      obtain rfl := Option.some.inj (hc.symm.trans hd)
      exact absurd hclosing hs
  | ignored _ _ hnone =>
      rw [hnone] at hres
      cases hres

end Callback

/-! ### Requests -/

/-- lws has been told to close the connection, or is going to call back for it. -/
def Pending (w : World) (wsi : Wsi) : Prop :=
  w.failing wsi = true ∨ w.server.writable wsi = true

section Pending

variable {w : World} {wsi v : Wsi} {reason : Reason} {r : ℤ} {s' : Server}

/-- Only the callbacks that answer a request use it up. -/
theorem World.before_of_result (h : (w.life wsi).admitsClient reason)
    (hr : reason.result = none) : w.before (.lws wsi reason) = w := by
  cases reason with
  | SERVER_WRITEABLE | CLIENT_WRITEABLE => cases hr
  | WSI_CREATE => exact h.elim
  | CLIENT_CONNECTION_ERROR | ESTABLISHED | CLIENT_ESTABLISHED | CLOSED | CLOSED_CLIENT_HTTP
  | CLOSED_HTTP | RECEIVE | CLIENT_RECEIVE | WSI_DESTROY | other => rfl

theorem World.before_writable_of_ne (h : (w.life wsi).admitsClient reason) (hv : v ≠ wsi) :
    (w.before (.lws wsi reason)).server.writable v = w.server.writable v := by
  cases reason with
  | SERVER_WRITEABLE | CLIENT_WRITEABLE => exact Function.update_of_ne hv ..
  | WSI_CREATE => exact h.elim
  | CLIENT_CONNECTION_ERROR | ESTABLISHED | CLIENT_ESTABLISHED | CLOSED | CLOSED_CLIENT_HTTP
  | CLOSED_HTTP | RECEIVE | CLIENT_RECEIVE | WSI_DESTROY | other => rfl

theorem World.before_failing (h : (w.life wsi).admitsClient reason) :
    (w.before (.lws wsi reason)).failing = w.failing := by
  cases reason with
  | WSI_CREATE => exact h.elim
  | SERVER_WRITEABLE | CLIENT_WRITEABLE | CLIENT_CONNECTION_ERROR | ESTABLISHED
  | CLIENT_ESTABLISHED | CLOSED | CLOSED_CLIENT_HTTP | CLOSED_HTTP | RECEIVE | CLIENT_RECEIVE
  | WSI_DESTROY | other => rfl

/-- A callback leaves requests pending, if it returns -1 where it answers one. -/
theorem Pending.lws (h : Pending w v) (hadm : (w.life wsi).admitsClient reason)
    (he : CallbackEffect (w.before (.lws wsi reason)).server wsi reason r s')
    (hcl : v = wsi → reason.result.isSome = true → r = -1) :
    Pending ((w.before (.lws wsi reason)).after s' r (.lws wsi reason)) v := by
  have hfail : ((w.before (.lws wsi reason)).after s' r (.lws wsi reason)).failing =
      if r = -1 then Function.update w.failing wsi true else w.failing := by
    simp only [World.after, World.before_failing hadm]
  by_cases hanswer : v = wsi ∧ reason.result.isSome = true
  · obtain ⟨rfl, hr⟩ := hanswer
    left
    rw [hfail, if_pos (hcl rfl hr), Function.update_self]
  · rcases h with h | h
    · left
      rw [hfail]
      split_ifs
      · rw [Function.update_apply]
        split_ifs
        · rfl
        · exact h
      · exact h
    · right
      refine he.writable_mono ?_
      by_cases hv : v = wsi
      · have hr : reason.result = none := by
          rw [← Option.not_isSome_iff_eq_none]
          exact fun hr => hanswer ⟨hv, hr⟩
        rwa [World.before_of_result hadm hr]
      · rwa [World.before_writable_of_ne hadm hv]

theorem Pending.wake (h : Pending w v) {c : Client} {s' : Server}
    (hs : s'.writable = w.server.wake c) : Pending { w with server := s' } v := by
  rcases h with h | h
  · exact .inl h
  · right
    show s'.writable v = true
    rw [hs]
    exact Server.writable_wake _ _ _ h

/-- A new connection at another address changes nothing. -/
theorem Pending.fresh (h : Pending w v) (hv : v ≠ wsi) : Pending (w.fresh wsi) v := by
  rcases h with h | h
  · left
    exact (Function.update_of_ne hv ..).trans h
  · right
    exact (Function.update_of_ne hv ..).trans h

end Pending

/-- A request is pending for every registered client that is closing. -/
def Woken (w : World) : Prop :=
  ∀ wsi p c, wsi ≠ 0 → w.server.WSClientSet wsi = some p → w.server.heap.cell p = some c →
    c.m_state = .CLOSING → Pending w wsi

section Steps

variable {w : PluginWorld} {w' : World} {a : PluginAction} {p : ℕ} {c : Client}

/-- Erasing an entry makes no other. -/
theorem registered_of_erased {entries : Wsi → Option ℕ} {wsi v : Wsi}
    (h : Function.update entries wsi none v = some p) : v ≠ wsi ∧ entries v = some p := by
  by_cases hv : v = wsi
  · rw [hv, Function.update_self] at h
    cases h
  · rw [Function.update_of_ne hv] at h
    exact ⟨hv, h⟩

/-- Connecting a client makes no other entry than its own. -/
theorem registered_of_connected {s : Server} {q : ℕ} {wsi v : Wsi}
    (h : (s.connected q wsi).WSClientSet v = some p) (hpq : p ≠ q) :
    s.WSClientSet v = some p := by
  simp only [Server.connected, Function.update_apply] at h
  split_ifs at h with hv
  · rcases Option.or_eq_some_iff.mp h with h | ⟨-, h⟩
    · rwa [hv]
    · exact absurd (Option.some.inj h).symm hpq
  · exact h

/-- A callback makes no entry. -/
theorem CallbackEffect.registered {s s' : Server} {wsi v : Wsi} {reason : Reason} {r : ℤ}
    (he : CallbackEffect s wsi reason r s') (h : s'.WSClientSet v = some p) :
    s.WSClientSet v = some p := by
  rw [he.entries] at h
  split_ifs at h
  · exact (registered_of_erased h).2
  · exact h

theorem Woken.lws {w : World} {wsi : Wsi} {reason : Reason} {r : ℤ} {s' : Server}
    (h : Woken w) (hb : Base w.server) (hadm : (w.life wsi).admitsClient reason)
    (he : CallbackEffect (w.before (.lws wsi reason)).server wsi reason r s') :
    Woken ((w.before (.lws wsi reason)).after s' r (.lws wsi reason)) := by
  obtain ⟨writable, hbefore⟩ := w.before_server (.lws wsi reason)
  intro v p c hv hreg' hc' hs'
  have hreg := he.registered hreg'
  obtain ⟨d, hd, hs⟩ := he.closing_before (hb.before rfl _) hc' hs'
  have hreg₀ : w.server.WSClientSet v = some p := by rwa [hbefore] at hreg
  have hd₀ : w.server.heap.cell p = some d := by rwa [hbefore] at hd
  refine (h v p d hv hreg₀ hd₀ hs).lws hadm he ?_
  rintro rfl hr
  refine he.refuses hr fun q hq => ?_
  obtain rfl := Option.some.inj (hreg.symm.trans hq)
  exact ⟨d, hd, hs⟩

/-- Sending changes nothing of a client but its queue. -/
theorem sent_cell {s : Server} {q : ℕ} {d : Client} {data : Bytes}
    (hc : (s.sent q d data).heap.cell p = some c) :
    ∃ e, s.heap.cell p = some e ∧ e.wsi = c.wsi ∧ e.m_state = c.m_state := by
  obtain ⟨e, he, hec⟩ := Heap.cell_of_modify (g := fun c => (c.wsi, c.m_state)) hc fun _ => rfl
  obtain ⟨hw, hs⟩ := Prod.mk.inj hec
  exact ⟨e, he, hw, hs⟩

/-- **One step keeps the requests of closing clients.** -/
theorem Woken.step (hb : Base w.server) (hown : OwnWorld w.toWorld) (h : Woken w.toWorld)
    (hal : contract w a) (he : StepEffect w.toWorld a w') : Woken w' := by
  cases he with
  | lws he => exact h.lws hb hal.2 he
  | constructed =>
      intro v p c hv hreg hc hs
      obtain ⟨d, hd, -⟩ := hb.registered v p hv hreg
      obtain rfl : d = c := Option.some.inj ((Heap.cell_alloc_of_cell hd).symm.trans hc)
      exact h v p d hv hreg hd hs
  | kept => exact h
  | @attempted q url conn e d t hq hqw ht hd =>
      have hnone : w.server.WSClientSet conn.wsi = none := hown.unregistered hal.2.1 hal.2.2.1
      rw [hown.called hal.2.1 hal.2.2.1 hal.2.2.2 ht]
      intro v p c hv hreg hc hs
      have hpq : p ≠ q := by
        rintro rfl
        rw [connected_cell (s := (w.toWorld.fresh conn.wsi).server) hq] at hc
        cases hc
        cases hs
      have hcell : w.server.heap.cell p = some c := by
        rw [Server.connected, Heap.cell_modify, if_neg hpq] at hc
        exact hc
      have hold := registered_of_connected (s := (w.toWorld.fresh conn.wsi).server) hreg hpq
      have hne : v ≠ conn.wsi := by
        rintro rfl
        exact Option.some_ne_none p (hold.symm.trans hnone)
      exact (h v p c hv hold hcell hs).fresh hne
  | @sent q data d hq =>
      intro v p c hv hreg hc hs
      obtain ⟨e, he, -, hes⟩ := sent_cell hc
      exact (h v p e hv hreg he (hes.trans hs)).wake rfl
  | @closing q d hq =>
      intro v p c hv hreg hc hs
      by_cases hcan : w.server.canWrite d = true
      · by_cases hpq : p = q
        · subst hpq
          -- the client that is closed asks to be called back
          right
          obtain rfl := hb.eq_wsi hq hv hreg
          exact Server.wake_self hcan
        · rw [Server.closing_heap hcan, Heap.cell_modify, if_neg hpq] at hc
          exact (h v p c hv hreg hc hs).wake rfl
      · rw [Server.closing_eq_self hcan] at hc hreg ⊢
        exact h v p c hv hreg hc hs
  | @deleted q d hq =>
      intro v p c hv hreg hc hs
      rw [Server.deleted, Heap.cell_free] at hc
      split_ifs at hc
      exact (h v p c hv (registered_of_erased hreg).2 hc hs).wake rfl

/-! ### After a call that works -/

/-- What holds after a call of `Close` or of the destructor that works, for the client `p`
that had the connection `v` and has seen `n` openings. -/
structure Shut (w : World) (p : ℕ) (v : Wsi) (n : ℕ) : Prop where
  old : p < w.server.heap.next
  wsi : ∀ c, w.server.heap.cell p = some c → c.wsi = v
  pending : (w.life v).Serves p → Pending w v
  closing : (w.life v).Serves p → w.server.WSClientSet v = some p →
    (w.life v).established = true ∧ ∃ c, w.server.heap.cell p = some c ∧ c.m_state = .CLOSING
  silent : w.server.trace.count (.OnOpen p) = n

variable {v : Wsi} {n : ℕ}

/-- Whoever is registered for the connection is the client, and is closing. -/
theorem Shut.closes {w : World} (h : Shut w p v n) (hown : OwnWorld w) (hv : v ≠ 0)
    (hserves : (w.life v).Serves p) (q : ℕ) (hq : w.server.WSClientSet v = some q) :
    ∃ c, w.server.heap.cell q = some c ∧ c.m_state = .CLOSING := by
  have howner := (hown.serves v q hv hq).2.2
  obtain rfl := Option.some.inj (howner.symm.trans hserves.2.2)
  exact (h.closing hserves hq).2

/-- An established connection stays so while it serves. -/
theorem Life.established_next {l : Life} {reason : Reason} (h : l.admitsClient reason) {n : ℕ}
    (hserves : (l.next n reason).Serves p) (hest : l.established = true) :
    (l.next n reason).established = true := by
  cases reason with
  | WSI_DESTROY => cases hserves.1
  | CLIENT_ESTABLISHED => rfl
  | CLOSED | CLOSED_CLIENT_HTTP | CLIENT_CONNECTION_ERROR | CLIENT_RECEIVE | CLIENT_WRITEABLE
  | other => exact hest
  | WSI_CREATE | ESTABLISHED | CLOSED_HTTP | RECEIVE | SERVER_WRITEABLE => exact h.elim

/-- A connection is established once. -/
theorem Life.not_establishes {l : Life} {reason : Reason} (h : l.admitsClient reason)
    (hest : l.established = true) : ¬ reason.establishes = true := by
  cases reason with
  | CLIENT_ESTABLISHED =>
      rw [h.2.1] at hest
      cases hest
  | WSI_CREATE | ESTABLISHED | CLOSED_HTTP | RECEIVE | SERVER_WRITEABLE => exact h.elim
  | CLIENT_CONNECTION_ERROR | CLOSED | CLOSED_CLIENT_HTTP | CLIENT_RECEIVE | CLIENT_WRITEABLE
  | WSI_DESTROY | other => exact Bool.false_ne_true

theorem Shut.lws {w : World} {wsi : Wsi} {reason : Reason} {r : ℤ} {s' : Server}
    (h : Shut w p v n) (hb : Base w.server) (hown : OwnWorld w) (hw : wsi ≠ 0)
    (hadm : (w.life wsi).admitsClient reason)
    (he : CallbackEffect (w.before (.lws wsi reason)).server wsi reason r s') :
    Shut ((w.before (.lws wsi reason)).after s' r (.lws wsi reason)) p v n := by
  have hb' := hb.before rfl (.lws wsi reason)
  obtain ⟨writable, hbefore⟩ := w.before_server (.lws wsi reason)
  have hlife : (w.before (.lws wsi reason)).life = w.life := by
    cases reason <;> rfl
  have hcells : (w.before (.lws wsi reason)).server.heap = w.server.heap := by rw [hbefore]
  have hentries : (w.before (.lws wsi reason)).server.WSClientSet = w.server.WSClientSet := by
    rw [hbefore]
  have hclients := he.clients hb'
  rw [hcells] at hclients
  -- the connection served the client before the callback
  have hserves : ∀ {m},
      (Function.update (w.before (.lws wsi reason)).life wsi
        (((w.before (.lws wsi reason)).life wsi).next m reason) v).Serves p →
      (w.life v).Serves p := by
    intro m hserves
    rw [hlife] at hserves
    by_cases hv : v = wsi
    · subst hv
      rw [Function.update_self, Life.serves_next hadm] at hserves
      exact hserves.1
    · rwa [Function.update_of_ne hv] at hserves
  refine ⟨?_, ?_, ?_, ?_, ?_⟩
  · have hnext := congrArg Heap.next hclients
    rw [Heap.next_map, Heap.next_map] at hnext
    show p < s'.heap.next
    rw [hnext]
    exact h.old
  · intro c hc
    have hcell := congrArg (fun heap => heap.cell p) hclients
    simp only [Heap.cell_map] at hcell
    rw [show s'.heap.cell p = some c from hc] at hcell
    obtain ⟨d, hd, hdc⟩ := Option.map_eq_some_iff.mp hcell.symm
    rw [← hdc]
    exact h.wsi d hd
  · intro hs
    refine (h.pending (hserves hs)).lws hadm he ?_
    rintro rfl hr
    refine he.refuses hr fun q hq => ?_
    rw [hcells]
    rw [hentries] at hq
    exact h.closes hown hw (hserves hs) q hq
  · intro hs hreg'
    have hreg := he.registered hreg'
    rw [hentries] at hreg
    obtain ⟨hest, c, hc, hclosing⟩ := h.closing (hserves hs) hreg
    by_cases hv : v = wsi
    · subst hv
      have hs' := hs
      simp only [World.after] at hs' ⊢
      rw [hlife, Function.update_self] at hs' ⊢
      refine ⟨Life.established_next hadm hs' hest, c, ?_, hclosing⟩
      refine he.closing_kept (Life.not_establishes hadm hest) ?_ hreg' ?_ hclosing
      · rw [hentries]
        exact hreg
      · rw [hcells]
        exact hc
    · simp only [World.after]
      rw [hlife, Function.update_of_ne hv]
      refine ⟨hest, c, ?_, hclosing⟩
      rw [he.cell_of_ne hb', hcells, hc]
      rw [hentries]
      intro hp
      exact hv ((h.wsi c hc).symm.trans (hb.eq_wsi hc hw hp))
  · have hcount : (w.before (.lws wsi reason)).server.trace = w.server.trace := by rw [hbefore]
    rw [World.after_server, he.count_onOpen, hcount]
    · exact h.silent
    · rintro ⟨hestablishes, hreg⟩
      rw [hentries] at hreg
      obtain ⟨c, hc, hcw⟩ := hb.registered wsi p hw hreg
      obtain rfl : wsi = v := hcw.symm.trans (h.wsi c hc)
      have hest := (h.closing (hown.serves wsi p hw hreg) hreg).1
      exact Life.not_establishes hadm hest hestablishes

/-- A step that leaves the connections and the upcalls alone keeps it, if it registers nobody
for the connection and keeps the connection of the client, and its closing while it is
registered. -/
theorem Shut.keep {w w' : World} (h : Shut w p v n) (hlife : w'.life = w.life)
    (hnext : w.server.heap.next ≤ w'.server.heap.next)
    (hcell : ∀ c', w'.server.heap.cell p = some c' →
      ∃ c, w.server.heap.cell p = some c ∧ c.wsi = c'.wsi)
    (hpending : Pending w v → Pending w' v)
    (hreg : w'.server.WSClientSet v = some p → w.server.WSClientSet v = some p ∧
      ∀ c, w.server.heap.cell p = some c → c.m_state = .CLOSING →
        ∃ c', w'.server.heap.cell p = some c' ∧ c'.m_state = .CLOSING)
    (htrace : w'.server.trace.count (.OnOpen p) = w.server.trace.count (.OnOpen p)) :
    Shut w' p v n := by
  refine ⟨Nat.lt_of_lt_of_le h.old hnext, ?_, ?_, ?_, htrace.trans h.silent⟩
  · intro c' hc'
    obtain ⟨c, hc, hcw⟩ := hcell c' hc'
    exact hcw.symm.trans (h.wsi c hc)
  · rw [hlife]
    exact fun hserves => hpending (h.pending hserves)
  · rw [hlife]
    intro hserves hreg'
    obtain ⟨hold, hclosing⟩ := hreg hreg'
    obtain ⟨hest, c, hc, hstate⟩ := h.closing hserves hold
    exact ⟨hest, hclosing c hc hstate⟩

/-- **One step keeps it**, if it does not open a client without a connection. -/
theorem Shut.step (h : Shut w.toWorld p v n) (hb : Base w.server) (hown : OwnWorld w.toWorld)
    (hal : contract w a) (hopen : v = 0 → ∀ url conn, a ≠ .setwsurl p url conn)
    (he : StepEffect w.toWorld a w') : Shut w' p v n := by
  cases he with
  | lws he => exact h.lws hb hown hal.1 hal.2 he
  | constructed =>
      have hcell : ∀ c, (w.server.heap.alloc c).cell p = w.server.heap.cell p := by
        intro c
        rw [Heap.cell_alloc, if_neg (Nat.ne_of_lt h.old)]
      refine h.keep rfl (Nat.le_succ _) ?_ id ?_ rfl
      · intro c hc
        rw [hcell] at hc
        exact ⟨c, hc, rfl⟩
      · intro hreg
        refine ⟨hreg, fun c hc hstate => ?_⟩
        rw [hcell]
        exact ⟨c, hc, hstate⟩
  | kept => exact h
  | @attempted q url conn e d t hq hqw ht hd =>
      rw [hown.called hal.2.1 hal.2.2.1 hal.2.2.2 ht]
      have hpq : p ≠ q := by
        rintro rfl
        exact hopen ((h.wsi e hq).symm.trans hqw) url conn rfl
      have hcell : ∀ wsi, ((w.toWorld.fresh conn.wsi).server.connected q wsi).heap.cell p =
          w.server.heap.cell p := by
        intro wsi
        rw [Server.connected, Heap.cell_modify, if_neg hpq]
        rfl
      -- the new connection is not the client's
      have hserves : (Function.update w.life conn.wsi (conn.life q) v).Serves p →
          v ≠ conn.wsi ∧ (w.life v).Serves p := by
        intro hserves
        by_cases hv : v = conn.wsi
        · rw [hv, Function.update_self, Connect.life] at hserves
          split_ifs at hserves
          · exact absurd (Option.some.inj hserves.2.2).symm hpq
          · cases hserves.1
        · rw [Function.update_of_ne hv] at hserves
          exact ⟨hv, hserves⟩
      refine ⟨h.old, ?_, ?_, ?_, h.silent⟩
      · intro c hc
        rw [hcell] at hc
        exact h.wsi c hc
      · intro hs
        obtain ⟨hv, hold⟩ := hserves hs
        exact (h.pending hold).fresh hv
      · intro hs hreg
        obtain ⟨hv, hold⟩ := hserves hs
        rw [hcell]
        show (Function.update w.life conn.wsi (conn.life q) v).established = true ∧ _
        rw [Function.update_of_ne hv]
        exact h.closing hold
          (registered_of_connected (s := (w.toWorld.fresh conn.wsi).server) hreg hpq)
  | @sent q data d hq =>
      refine h.keep rfl (Nat.le_refl _) ?_ (fun hs => hs.wake rfl) ?_ ?_
      · intro c hc
        obtain ⟨e, he, hew, -⟩ := sent_cell hc
        exact ⟨e, he, hew⟩
      · intro hreg
        exact ⟨hreg, fun c hc hstate => Heap.exists_cell_modify hc hstate fun _ => hstate⟩
      · rw [Server.sent, List.count_append]
        simp
  | @closing q d hq =>
      by_cases hcan : w.server.canWrite d = true
      · have hheap := Server.closing_heap hcan q
        refine h.keep rfl (by rw [hheap]; exact Nat.le_refl _) ?_ (fun hs => hs.wake rfl) ?_ rfl
        · intro c hc
          rw [hheap] at hc
          exact Heap.cell_of_modify (g := Client.wsi) hc fun _ => rfl
        · intro hreg
          refine ⟨hreg, fun c hc hstate => ?_⟩
          rw [hheap]
          exact Heap.exists_cell_modify hc hstate fun _ => rfl
      · rw [Server.closing_eq_self hcan]
        exact h
  | @deleted q d hq =>
      refine h.keep rfl (Nat.le_refl _) ?_ (fun hs => hs.wake rfl) ?_ rfl
      · intro c hc
        rw [Server.deleted, Heap.cell_free] at hc
        split_ifs at hc
        exact ⟨c, hc, rfl⟩
      · intro hreg
        obtain ⟨hv, hold⟩ := registered_of_erased hreg
        have hpq : p ≠ q := by
          rintro rfl
          exact hv (h.wsi d hq).symm
        refine ⟨hold, fun c hc hstate => ⟨c, ?_, hstate⟩⟩
        rw [Server.deleted, Heap.cell_free, if_neg hpq, hc]

/-- The call finds the client registered for an established connection, or a request pending
for the connection and, in the case of `Close`, no entry. -/
def Effective (w : World) (p : ℕ) (wsi : Wsi) (a : PluginAction) : Prop :=
  (w.life wsi).Serves p →
    (w.server.WSClientSet wsi = some p ∧ (w.life wsi).established = true) ∨
      (Pending w wsi ∧ (a = .close p → w.server.WSClientSet wsi ≠ some p))

/-- A client registered for a connection that is established is open or closing; when it is
closing a request is pending, and otherwise `Close` makes one. -/
theorem CycleWorld.wake {w : World} (hcycle : CycleWorld w) (hwoken : Woken w)
    (hc : w.server.heap.cell p = some c) (hw : c.wsi ≠ 0) (hserves : (w.life c.wsi).Serves p)
    (hreg : w.server.WSClientSet c.wsi = some p) (hest : (w.life c.wsi).established = true) :
    w.server.canWrite c = true ∨ (c.m_state = .CLOSING ∧ Pending w c.wsi) := by
  have hup : (w.life c.wsi).up = true := by
    rw [Life.up, hest, hserves.2.1]
    rfl
  have hfits := hcycle.inv.fits c.wsi p c hw hreg hc
  rw [hup] at hfits
  rcases hfits with hopen | hclosing
  · left
    simp [Server.canWrite, hreg, hw, hopen]
  · exact .inr ⟨hclosing, hwoken c.wsi p c hw hreg hc hclosing⟩

theorem Shut.start (hown : OwnWorld w.toWorld) (hcycle : CycleWorld w.toWorld)
    (hwoken : Woken w.toWorld) (hc : w.server.heap.cell p = some c)
    (ha : a = .close p ∨ a = .OnDestroy p) (heff : Effective w.toWorld p c.wsi a)
    (he : StepEffect w.toWorld a w') :
    Shut w' p c.wsi (w.server.trace.count (.OnOpen p)) := by
  have hold := Heap.lt_next_of_cell hc
  -- whoever calls, a request is pending afterwards
  have hpending : ∀ {s' : Server}, s'.writable = w.server.wake c → (w.life c.wsi).Serves p →
      Pending { w.toWorld with server := s' } c.wsi := by
    intro s' hs' hserves
    rcases heff hserves with ⟨hreg, hest⟩ | ⟨hpending, -⟩
    · have hw := (hown.alive c.wsi p hserves.2.2).2
      rcases hcycle.wake hwoken hc hw hserves hreg hest with hcan | ⟨-, hpending⟩
      · right
        show s'.writable c.wsi = true
        rw [hs']
        exact Server.wake_self hcan
      · exact hpending.wake hs'
    · exact hpending.wake hs'
  rcases ha with rfl | rfl
  · cases he with
    | @closing _ d hd =>
        obtain rfl := Option.some.inj (hc.symm.trans hd)
        by_cases hcan : w.server.canWrite c = true
        · have hcell : (w.server.closing p c).heap.cell p =
              some { c with m_state := .CLOSING } := by
            rw [Server.closing_heap hcan, Heap.cell_modify, if_pos rfl, hc]
            rfl
          refine ⟨?_, ?_, hpending rfl, ?_, rfl⟩
          · rw [Server.closing_heap hcan]
            exact hold
          · intro d hd
            rw [hcell] at hd
            cases hd
            rfl
          · intro hserves hreg
            refine ⟨?_, _, hcell, rfl⟩
            rcases heff hserves with ⟨-, hest⟩ | ⟨-, hno⟩
            · exact hest
            · exact absurd hreg (hno rfl)
        · refine ⟨?_, ?_, hpending rfl, ?_, rfl⟩
          · rw [Server.closing_eq_self hcan]
            exact hold
          · intro d hd
            rw [Server.closing_eq_self hcan, hc] at hd
            cases hd
            rfl
          · intro hserves hreg
            rw [Server.closing_eq_self hcan] at hreg ⊢
            have hw := (hown.alive c.wsi p hserves.2.2).2
            rcases heff hserves with ⟨-, hest⟩ | ⟨-, hno⟩
            · rcases hcycle.wake hwoken hc hw hserves hreg hest with hcan' | ⟨hclosing, -⟩
              · exact absurd hcan' hcan
              · exact ⟨hest, c, hc, hclosing⟩
            · exact absurd hreg (hno rfl)
  · cases he with
    | @deleted _ d hd =>
        obtain rfl := Option.some.inj (hc.symm.trans hd)
        refine ⟨hold, ?_, hpending rfl, ?_, rfl⟩
        · intro d hd
          rw [Server.deleted, Heap.cell_free, if_pos rfl] at hd
          cases hd
        · intro _ hreg
          exact absurd rfl (registered_of_erased hreg).1

end Steps

/-! ### Closing works exactly when the connection is established -/

/-- A `WRITEABLE` callback for the connection would return -1. -/
def Refuses (w : World) (wsi : Wsi) : Prop :=
  ∀ res, ∃ s', Plugin.callback_lws wsi (.CLIENT_WRITEABLE res)
    (w.before (.lws wsi (.CLIENT_WRITEABLE res))).server = .ok (-1) s'

/-- The connection of the client, if it is still there, is not established, or is already
being closed, or has a pending request that will close it. -/
def NotOpen (w : World) (p : ℕ) (wsi : Wsi) : Prop :=
  (w.life wsi).owner = some p →
    (w.life wsi).established = false ∨ (w.life wsi).closed = true ∨ w.failing wsi = true ∨
      (w.server.writable wsi = true ∧ Refuses w wsi)

/-- `wsi` is the connection of `p` after a run `as` to `w`: however the run goes on, no
`OnOpen` is delivered to `p`, and the connection does not stay open. A client without a
connection must not be given one. -/
def ClosedFor (as : List PluginAction) (w : PluginWorld) (p : ℕ) (wsi : Wsi)
    (a : PluginAction) : Prop :=
  ∀ bs w', (wsi = 0 → ∀ url conn, .setwsurl p url conn ∉ bs) →
    (system.restrict returnsOpen).Run (as ++ a :: bs) w' →
      w'.server.trace.count (.OnOpen p) = w.server.trace.count (.OnOpen p) ∧
        NotOpen w'.toWorld p wsi

section Theorem

variable {w w' : PluginWorld} {a : PluginAction} {as : List PluginAction} {p : ℕ} {c : Client}
  {wsi : Wsi} {n : ℕ}

theorem callback_lws_closing {s : Server} (hreg : s.WSClientSet wsi = some p)
    (hc : s.heap.cell p = some c) (hs : c.m_state = .CLOSING) (res : ℤ) :
    Plugin.callback_lws wsi (.CLIENT_WRITEABLE res) s = .ok (-1) s := by
  have hlog : logSend (some p) s = .ok () s := by
    rw [logSend, client_bind, hc]
    simp only [hs, ne_eq, not_true, if_false]
    rfl
  rw [Plugin.callback_lws, EStateM.get_bind, hreg]
  refine (EStateM.bind_ok hlog).trans ?_
  rw [UCClient.callback_lws, EStateM.get_bind, hreg]
  exact ws_write_closing hc hs res

theorem Shut.notOpen {w : World} {v : Wsi} (h : Shut w p v n) (hown : OwnWorld w) :
    NotOpen w p v := by
  intro howner
  obtain ⟨halive, hv⟩ := hown.alive v p howner
  cases hclosed : (w.life v).closed with
  | true => exact .inr (.inl rfl)
  | false =>
      have hserves : (w.life v).Serves p := ⟨halive, hclosed, howner⟩
      rcases h.pending hserves with hfail | hwritable
      · exact .inr (.inr (.inl hfail))
      · refine .inr (.inr (.inr ⟨hwritable, fun res => ?_⟩))
        cases hreg : w.server.WSClientSet v with
        | none => exact ⟨_, callback_lws_unregistered hreg (by simp)⟩
        | some q =>
            obtain ⟨d, hd, hclosing⟩ := h.closes hown hv hserves q hreg
            exact ⟨_, callback_lws_closing
              (s := (w.before (.lws v (.CLIENT_WRITEABLE res))).server) hreg hd hclosing res⟩

/-- A client is told that its connection is established. -/
theorem callback_lws_established {s : Server} (hreg : s.WSClientSet wsi = some p)
    (hc : s.heap.cell p = some c) :
    Plugin.callback_lws wsi .CLIENT_ESTABLISHED s = .ok 0 (s.opened wsi p c) := by
  rw [Plugin.callback_lws, EStateM.get_bind]
  refine (EStateM.bind_ok (show logSend none s = .ok () s from rfl)).trans ?_
  rw [UCClient.callback_lws, EStateM.get_bind, hreg]
  exact EStateM.bind_ok (established_spec hc)

/-- lws establishes a connection that serves a client. -/
theorem run_established (h : (system.restrict returnsOpen).Run as w) (hwsi : wsi ≠ 0)
    (hserves : (w.life wsi).Serves p) (hest : (w.life wsi).established = false) {s' : Server}
    (hcall : Plugin.callback_lws wsi .CLIENT_ESTABLISHED w.server = .ok 0 s') :
    (system.restrict returnsOpen).Run (as ++ [.lws wsi .CLIENT_ESTABLISHED])
      { w with toWorld := w.toWorld.after s' 0 (.lws wsi .CLIENT_ESTABLISHED) } := by
  refine h.snoc ⟨⟨hwsi, hserves.1, hest, hserves.2.1⟩, trivial⟩ ?_
  have hbefore : (w.before (.lws wsi .CLIENT_ESTABLISHED)).server = w.server := rfl
  show Plugin.step w (.lws wsi .CLIENT_ESTABLISHED) = _
  simp only [Plugin.step, hbefore, hcall]
  rfl

/-- A connection that nobody is registered for, and for which nothing is pending, is open or
can become open. -/
theorem unregistered_opens (h : (system.restrict returnsOpen).Run as w) (hwsi : wsi ≠ 0)
    (hserves : (w.life wsi).Serves p) (hreg : w.server.WSClientSet wsi = none)
    (hno : ¬ Pending w.toWorld wsi) :
    ∃ bs w', (∀ url conn, .setwsurl p url conn ∉ bs) ∧
      (system.restrict returnsOpen).Run (as ++ bs) w' ∧ ¬ NotOpen w'.toWorld p wsi := by
  obtain ⟨hfail, hwritable⟩ := not_or.mp hno
  cases hest : (w.life wsi).established with
  | true =>
      refine ⟨[], w, by simp, by rwa [List.append_nil], fun hopen => ?_⟩
      rcases hopen hserves.2.2 with h | h | h | h
      · exact Bool.false_ne_true (h.symm.trans hest)
      · exact Bool.false_ne_true (hserves.2.1.symm.trans h)
      · exact hfail h
      · exact hwritable h.1
  | false =>
      have hcall : Plugin.callback_lws wsi .CLIENT_ESTABLISHED w.server = .ok 0 w.server :=
        callback_lws_unregistered hreg (by simp)
      refine ⟨_, _, ?_, run_established h hwsi hserves hest hcall, fun hopen => ?_⟩
      · simp
      · simp only [NotOpen, World.after] at hopen
        rw [Function.update_self] at hopen
        rcases hopen hserves.2.2 with h | h | h | h
        · cases h
        · cases h
        · exact hfail h
        · exact hwritable h.1

theorem cycleWorld_restrict (h : (system.restrict returnsOpen).Reachable w) :
    CycleWorld w.toWorld := by
  obtain ⟨as, hrun⟩ := h
  exact cycleWorld_reachable ⟨as, hrun.of_restrict.1⟩

theorem woken_reachable (h : (system.restrict returnsOpen).Reachable w) : Woken w.toWorld := by
  refine h.invariant (I := fun w => Woken w.toWorld) ?_ ?_
  · intro v p c _ hreg
    cases hreg
  · intro u a u' hr hwoken hal hst
    obtain ⟨hb, hown⟩ := ownWorld_reachable hr
    exact hwoken.step hb hown hal.1 (step_effect hb hal.1 hst)

/-- A call that works, and everything after it. -/
theorem closedFor_of_effective (h : (system.restrict returnsOpen).Run as w)
    (hc : w.server.heap.cell p = some c) (ha : a = .close p ∨ a = .OnDestroy p)
    (heff : Effective w.toWorld p c.wsi a) : ClosedFor as w p c.wsi a := by
  intro bs w' hopen hrun
  rw [← List.singleton_append, ← List.append_assoc] at hrun
  obtain ⟨hb, hown⟩ := ownWorld_reachable ⟨as, h⟩
  obtain ⟨w₁, hw₁⟩ : ∃ w₁, (system.restrict returnsOpen).Run (as ++ [a]) w₁ := hrun.of_append
  obtain ⟨u, hu, hal, hst⟩ := hw₁.snoc_inv
  obtain rfl := hu.unique h
  have hstart := Shut.start hown (cycleWorld_restrict ⟨as, h⟩) (woken_reachable ⟨as, h⟩) hc ha heff
    (step_effect hb hal.1 hst)
  have hshut := hw₁.later (I := fun w' => Shut w'.toWorld p c.wsi _) hstart ?_ hrun
  · exact ⟨hshut.silent, hshut.notOpen (ownWorld_reachable ⟨_, hrun⟩).2⟩
  · intro v b v' hmem hr hI hal' hst'
    obtain ⟨hb', hown'⟩ := ownWorld_reachable hr
    refine hI.step hb' hown' hal'.1 ?_ (step_effect hb' hal'.1 hst')
    rintro hzero url conn rfl
    exact hopen hzero url conn hmem

/-- `Close` and the destructor do nothing to a connection that is not established. -/
theorem CycleWorld.not_canWrite {w : World} (hcycle : CycleWorld w) (hown : OwnWorld w)
    (hc : w.server.heap.cell p = some c) (hserves : (w.life c.wsi).Serves p)
    (hno : ¬ (w.server.WSClientSet c.wsi = some p ∧ (w.life c.wsi).established = true)) :
    ¬ w.server.canWrite c = true := by
  intro hcan
  have hopen := Server.open_of_canWrite hcan
  simp only [Server.canWrite, Bool.and_eq_true, bne_iff_ne] at hcan
  obtain ⟨⟨hsome, hw⟩, -⟩ := hcan
  obtain ⟨q, hq⟩ := Option.isSome_iff_exists.mp hsome
  obtain rfl : q = p := Option.some.inj ((hown.serves c.wsi q hw hq).2.2.symm.trans hserves.2.2)
  have hfits := hcycle.inv.fits c.wsi q c hw hq hc
  cases hest : (w.life c.wsi).established with
  | true => exact hno ⟨hq, hest⟩
  | false =>
      have hup : (w.life c.wsi).up = false := by rw [Life.up, hest, Bool.false_and]
      rw [hup, hopen] at hfits
      cases hfits

theorem effective_of_closedFor (h : (system.restrict returnsOpen).Run as w)
    (hc : w.server.heap.cell p = some c) (ha : a = .close p ∨ a = .OnDestroy p)
    (hclosed : ClosedFor as w p c.wsi a) : Effective w.toWorld p c.wsi a := by
  intro hserves
  obtain ⟨hb, hown⟩ := ownWorld_reachable ⟨as, h⟩
  have hcycle := cycleWorld_restrict ⟨as, h⟩
  have hw := (hown.alive c.wsi p hserves.2.2).2
  by_cases hest : w.server.WSClientSet c.wsi = some p ∧ (w.life c.wsi).established = true
  · exact .inl hest
  right
  have hcan := hcycle.not_canWrite hown hc hserves hest
  -- the state after a call of either kind, seen from the connection
  have hafter : ∀ {s' : Server}, (system.restrict returnsOpen).Run (as ++ [a])
      { w with toWorld := { w.toWorld with server := s' } } → s'.WSClientSet c.wsi = none →
      s'.writable = w.server.wake c → Pending w.toWorld c.wsi := by
    intro s' hrun hreg hwritable
    by_contra hno
    have hno' : ¬ Pending { w.toWorld with server := s' } c.wsi := by
      rwa [Pending, hwritable, Server.wake, if_neg hcan]
    obtain ⟨bs, w', hbs, hrun', hopen⟩ := unregistered_opens hrun hw hserves hreg hno'
    rw [List.append_assoc, List.singleton_append] at hrun'
    exact hopen (hclosed bs w' (fun _ => hbs) hrun').2
  rcases ha with rfl | rfl
  · have hstep : Plugin.step w (.close p) = .ok w := by
      rw [Plugin.step, ran, Close_spec hc, Server.closing_eq_self hcan]
    have hrun : (system.restrict returnsOpen).Run (as ++ [.close p]) w :=
      h.snoc ⟨Heap.live_of_cell hc, trivial⟩ hstep
    cases hreg : w.server.WSClientSet c.wsi with
    | none =>
        refine ⟨hafter hrun hreg ?_, fun _ => (Option.some_ne_none p).symm⟩
        rw [Server.wake, if_neg hcan]
    | some q =>
        obtain rfl : q = p :=
          Option.some.inj ((hown.serves c.wsi q hw hreg).2.2.symm.trans hserves.2.2)
        have hest' : (w.life c.wsi).established = false := by
          rw [← Bool.not_eq_true]
          exact fun hest' => hest ⟨hreg, hest'⟩
        have hopened := run_established hrun hw hserves hest' (callback_lws_established hreg hc)
        rw [List.append_assoc, List.singleton_append] at hopened
        have hcount := (hclosed _ _ (fun hzero => absurd hzero hw) hopened).1
        rw [World.after_server, Server.opened, List.count_append] at hcount
        simp at hcount
  · have hstep : Plugin.step w (.OnDestroy p) =
        .ok { w with toWorld := { w.toWorld with server := w.server.deleted p c } } := by
      rw [Plugin.step, ran, delete_spec hc]
    refine ⟨hafter (h.snoc ⟨Heap.live_of_cell hc, trivial⟩ hstep) ?_ rfl, ?_⟩
    · exact Function.update_self ..
    · intro hclose
      cases hclose

end Theorem

end UCClient
