import Mathlib.Data.List.Nodup
import UCClient.Registry
import UCClient.SendQueue

/-!
# All Pages See the Same Events

An event is put on the queue of every listed page, a reply only on the queue of the page that
asked. Events and replies share one queue for each page, and lws takes the queues at different
speeds, in parts. What a page has in full is therefore the beginning of what was sent to it
(`completed`), and its events are the beginning of all events broadcast since it was opened.

Messages are told apart by what was observed before they were sent (`Origin`): an event
follows the entry into its handler, a reply follows the entry into `OnMessage`.

The pages are those of the whole server in an environment where the callbacks of a connection
come in lives and `lws_write` takes at most what it is offered.

## Main results

* `event_order_agrees`: of two pages that are open from some point on, one has in full the
  beginning of the events the other has; a reply is sent to the page that asked and to no
  other; and what lws took from a page are its messages in order, the last one in part.
-/

namespace UCClient

open ServerM WebSocketClient

/-! ### Where a message comes from -/

/-- What a message answers to. -/
inductive Origin
  | start
  | event
  /-- A reply to a message of `q`. -/
  | reply (q : ℕ)
  deriving DecidableEq, Repr

/-- What the next message answers to, after an observation. -/
def Origin.next (origin : Origin) : Obs → Origin
  | .handler _ _ => .event
  | .OnMessage q _ => .reply q
  | _ => origin

/-- The messages sent to `p`, with what they answer to. -/
def deliveries (p : ℕ) : Origin → List Obs → List (Origin × Bytes)
  | _, [] => []
  | origin, .Send q buf :: trace =>
      if q = p then (origin, buf) :: deliveries p origin trace else deliveries p origin trace
  | origin, o :: trace => deliveries p (origin.next o) trace

/-- The events among them. -/
def eventsOf (messages : List (Origin × Bytes)) : List Bytes :=
  messages.filterMap fun m => if m.1 = .event then some m.2 else none

/-- The messages lws has taken over in full. -/
def received (p : ℕ) (trace : List Obs) : List (Origin × Bytes) :=
  completed Prod.snd (accepted p trace) (deliveries p .start trace)

/-- The events sent after `trace` that lws has taken over in full. -/
def eventsSince (p : ℕ) (trace trace' : List Obs) : List Bytes :=
  eventsOf ((received p trace').drop (deliveries p .start trace).length)

section Deliveries

variable {p : ℕ} {trace obs : List Obs} {origin : Origin}

theorem deliveries_append (trace obs : List Obs) (origin : Origin) :
    deliveries p origin (trace ++ obs) =
      deliveries p origin trace ++ deliveries p (trace.foldl Origin.next origin) obs := by
  induction trace generalizing origin with
  | nil => rfl
  | cons o trace ih =>
      cases o with
      | Send q buf =>
          simp only [List.cons_append, deliveries, List.foldl_cons, Origin.next, ih]
          split_ifs <;> rfl
      | call | SetRegKeyString | SetRegKeyDWORD | lws_write | OnOpen | OnMessage | OnError
      | OnClose | OnSend | handler =>
          simp only [List.cons_append, deliveries, List.foldl_cons, ih]

/-- The messages are those sent. -/
theorem map_deliveries (trace : List Obs) (origin : Origin) :
    (deliveries p origin trace).map Prod.snd = sends p trace := by
  induction trace generalizing origin with
  | nil => rfl
  | cons o trace ih =>
      cases o with
      | Send q buf =>
          by_cases hq : q = p
          · simp only [deliveries, hq, if_true, List.map_cons, ih]
            simp [sends]
          · simp only [deliveries, hq, if_false, ih]
            simp [sends, hq]
      | call | SetRegKeyString | SetRegKeyDWORD | lws_write | OnOpen | OnMessage | OnError
      | OnClose | OnSend | handler => exact ih _

/-- Nothing is sent. -/
theorem deliveries_eq_nil (h : ∀ o ∈ obs, ∀ q buf, o ≠ .Send q buf) (origin : Origin) :
    deliveries p origin obs = [] := by
  rw [← List.map_eq_nil_iff (f := Prod.snd), map_deliveries]
  refine List.filterMap_eq_nil_iff.mpr fun o ho => ?_
  cases o with
  | Send q buf => exact absurd rfl (h _ ho q buf)
  | _ => rfl

/-- Observations that announce no message. -/
theorem foldl_origin (h : ∀ o ∈ obs, o.isCommand = true) (origin : Origin) :
    obs.foldl Origin.next origin = origin := by
  induction obs generalizing origin with
  | nil => rfl
  | cons o obs ih =>
      have ho : origin.next o = origin := by
        have := h o List.mem_cons_self
        cases o <;> first | rfl | cases this
      rw [List.foldl_cons, ho]
      exact ih (fun o' ho' => h o' (List.mem_cons_of_mem _ ho')) origin

/-- One message for everybody. -/
theorem deliveries_broadcast (ps : List ℕ) (buf : Bytes) (origin : Origin) :
    deliveries p origin (ps.map fun q => .Send q buf) =
      List.replicate (ps.count p) (origin, buf) := by
  induction ps with
  | nil => rfl
  | cons q ps ih =>
      by_cases hq : q = p
      · simp only [List.map_cons, deliveries, hq, if_true, ih, List.count_cons_self,
          List.replicate_succ]
      · simp only [List.map_cons, deliveries, hq, if_false, ih, List.count_cons_of_ne hq]

end Deliveries

/-! ### What an action sends -/

/-- What is observed of an action, by what it sends. -/
inductive Sending (listed : List ℕ) : List Obs → Prop
  | silent {obs : List Obs} (hobs : ∀ o ∈ obs, ∀ q buf, o ≠ .Send q buf) : Sending listed obs
  | event {obs : List Obs} {this : ℕ} {ev : SdkEvent} {buf : Bytes}
      (hobs : ∀ o ∈ obs, o.dataOf = none) :
      Sending listed (obs ++ .handler this ev :: listed.map fun q => .Send q buf)
  | reply {obs : List Obs} {q : ℕ} {message result : Bytes}
      (hobs : ∀ o ∈ obs, o.isCommand = true) :
      Sending listed (.OnMessage q message :: obs ++ [.Send q result])

namespace Sending

variable {listed : List ℕ} {obs : List Obs} {p : ℕ}

theorem ne_send_of_dataOf {o : Obs} (h : o.dataOf = none) (q : ℕ) (buf : Bytes) :
    o ≠ .Send q buf := by
  rintro rfl
  cases h

/-- **What one action sends to a page**: an event as often as the page is listed, a reply to
the page that asked, or nothing. -/
theorem deliveries (h : Sending listed obs) :
    (∀ p origin, UCClient.deliveries p origin obs = []) ∨
      (∃ buf, ∀ p origin, UCClient.deliveries p origin obs =
        List.replicate (listed.count p) (.event, buf)) ∨
      ∃ q buf, ∀ p origin, UCClient.deliveries p origin obs =
        if q = p then [(.reply q, buf)] else [] := by
  cases h with
  | silent hobs => exact .inl fun p origin => deliveries_eq_nil hobs origin
  | @event obs this ev buf hobs =>
      refine .inr (.inl ⟨buf, fun p origin => ?_⟩)
      rw [deliveries_append, deliveries_eq_nil fun o ho => ne_send_of_dataOf (hobs o ho)]
      exact deliveries_broadcast listed buf .event
  | @reply obs q message result hobs =>
      refine .inr (.inr ⟨q, result, fun p origin => ?_⟩)
      show UCClient.deliveries p (.reply q) (obs ++ [.Send q result]) = _
      rw [deliveries_append,
        deliveries_eq_nil fun o ho => ne_send_of_dataOf (Obs.dataOf_of_isCommand (hobs o ho)),
        foldl_origin hobs]
      rfl

end Sending

section Program

variable {s s' : Server} {wsi : Wsi} {reason : Reason} {r : ℤ} {sdk : Sdk}

theorem receive_sending {data : Option Bytes}
    (h : receive sdk (s.WSClientSet wsi) data s = .ok () s') :
    ∃ obs, s'.trace = s.trace ++ obs ∧ Sending s.g_WSClientSet obs := by
  cases hreg : s.WSClientSet wsi with
  | none =>
      rw [hreg] at h
      cases h
      exact ⟨[], (List.append_nil _).symm, .silent (List.forall_mem_nil _)⟩
  | some p =>
      rw [hreg] at h
      have h : virtualOnMessage sdk p (data.getD []) s = .ok () s' := h
      cases hc : s.heap.cell p with
      | none => simp [virtualOnMessage, client_bind, hc] at h
      | some c =>
          obtain ⟨obs, version, hobs, hrun | ⟨result, hrun⟩ | hrun⟩ :=
            virtualOnMessage_cases hc sdk (data.getD [])
          · rw [hrun] at h
            cases h
            refine ⟨_, rfl, .silent ?_⟩
            intro o ho q buf
            rcases List.mem_cons.mp ho with rfl | ho
            · exact Sending.ne_send_of_dataOf rfl q buf
            · exact Sending.ne_send_of_dataOf (Obs.dataOf_of_isCommand (hobs o ho)) q buf
          · rw [hrun] at h
            cases h
            exact ⟨_, List.append_assoc .., .reply hobs⟩
          · rw [hrun] at h
            cases h

theorem CB_sending {depth : ℕ} {ev : SdkEvent} (h : CB depth ev s = .ok () s') :
    ∃ obs, s'.trace = s.trace ++ obs ∧ Sending s.g_WSClientSet obs := by
  obtain ⟨obs, hobs, hrun⟩ | ⟨this, buf, hrun⟩ | hrun | ⟨this, t, -, -, hrun⟩ :=
    CB_run s depth ev
  · rw [hrun] at h
    cases h
    exact ⟨obs, rfl, .silent fun o ho => Sending.ne_send_of_dataOf (hobs o ho)⟩
  · rw [hrun] at h
    obtain ⟨t, ht, hall⟩ := forM_Send buf s.g_WSClientSet _ (live_of_forM_Send h)
    rw [ht] at h
    cases h
    have hobs : ∀ o ∈ ev.alerted, o.dataOf = none := by
      intro o ho
      exact dataOf_alerted ev this o (List.mem_append_left _ ho)
    have hsending : Sending s.g_WSClientSet
        (ev.alerted ++ .handler this ev :: s.g_WSClientSet.map fun q => .Send q buf) := .event hobs
    refine ⟨_, ?_, hsending⟩
    rw [hall.trace]
    simp [Server.observed]
  · rw [hrun] at h
    cases h
  · rw [hrun] at h
    cases h

/-- Effects that send nothing. -/
theorem Effect.silent {a : Action} (he : Effect s a r s') (hsend : ∀ p buf, a ≠ .send p buf)
    (hsdk : ∀ depth ev, a ≠ .sdk depth ev)
    (hrec : ∀ wsi reason, a = .lws wsi reason → ¬ reason.receives = true) :
    ∃ obs, s'.trace = s.trace ++ obs ∧ ∀ o ∈ obs, ∀ q buf, o ≠ .Send q buf := by
  have hnone : ∃ obs, s.trace = s.trace ++ obs ∧ ∀ o ∈ obs, ∀ q buf, o ≠ .Send q buf :=
    ⟨[], (List.append_nil _).symm, List.forall_mem_nil _⟩
  have hwrites : ∀ {p : ℕ} {res : ℤ} {queue : List Bytes} {obs : List Obs} {result},
      (∀ s, writeQueue p res queue s = .ok result (s.observed obs)) →
      ∀ o ∈ .OnSend p :: obs, ∀ q buf, o ≠ .Send q buf := by
    intro p res queue obs result hq o ho q buf
    rcases List.mem_cons.mp ho with rfl | ho
    · exact Sending.ne_send_of_dataOf rfl q buf
    · obtain ⟨buf', rfl⟩ := writes_of_run hq o ho
      exact Obs.noConfusion
  cases he with
  | nothing | erased | accepted | destroyed | closing | constructed | unconnected | connected
  | deleted => exact hnone
  | opened =>
      refine ⟨_, rfl, ?_⟩
      simp
  | closed _ _ _ hobs => exact ⟨_, rfl, fun o ho => Sending.ne_send_of_dataOf (hobs o ho)⟩
  | received hr => exact absurd hr (hrec _ _ rfl)
  | replied hr => exact absurd hr (hrec _ _ rfl)
  | refused hr hreg hc hobs hq => exact ⟨_, rfl, hwrites hq⟩
  | wrote hr hreg hc hs hobs hq => exact ⟨_, rfl, hwrites hq⟩
  | event | broadcast => exact absurd rfl (hsdk _ _)
  | sent => exact absurd rfl (hsend _ _)

/-- **What an action of the server sends.** -/
theorem program_sending {a : Action} (hgood : Good s) (hsend : ∀ p buf, a ≠ .send p buf)
    (h : a.program .UCClientWSServer sdk s = .ok r s') :
    ∃ obs, s'.trace = s.trace ++ obs ∧ Sending s.g_WSClientSet obs := by
  have heffect : Effect s a r s' := by
    refine program_effect ?_ h
    intro wsi reason _ p c hp hc
    exact hgood.eq_wsi hp hc
  have hsilent : (∀ depth ev, a ≠ .sdk depth ev) →
      (∀ wsi reason, a = .lws wsi reason → ¬ reason.receives = true) →
      ∃ obs, s'.trace = s.trace ++ obs ∧ Sending s.g_WSClientSet obs := by
    intro hsdk hrec
    obtain ⟨obs, htrace, hobs⟩ := heffect.silent hsend hsdk hrec
    exact ⟨obs, htrace, .silent hobs⟩
  cases a with
  | lws wsi reason =>
      by_cases hrec : reason.receives = true
      · change callback_lws .UCClientWSServer sdk wsi reason s = .ok r s' at h
        rw [callback_lws, EStateM.get_bind] at h
        cases reason with
        | RECEIVE data | CLIENT_RECEIVE data =>
            obtain ⟨-, hm⟩ := return_zero (m := receive sdk _ data) h
            exact receive_sending hm
        | CLIENT_CONNECTION_ERROR | ESTABLISHED | CLIENT_ESTABLISHED | CLOSED
        | CLOSED_CLIENT_HTTP | CLOSED_HTTP | SERVER_WRITEABLE | CLIENT_WRITEABLE | WSI_CREATE
        | WSI_DESTROY | other => cases hrec
      · refine hsilent (fun _ _ => Action.noConfusion) ?_
        intro wsi' reason' ha
        obtain ⟨-, rfl⟩ := Action.lws.inj ha
        exact hrec
  | sdk depth ev =>
      obtain ⟨-, hm⟩ := return_zero h
      exact CB_sending hm
  | send | close | construct | connect | delete =>
      exact hsilent (fun _ _ => Action.noConfusion) fun _ _ => Action.noConfusion

end Program

/-! ### Listed once -/

/-- The environment: the callbacks of a connection come in lives, and messages are sent by
the handlers of events and commands only. -/
def inLives (w : World) : Action → Prop
  | .lws wsi reason => lives w wsi reason
  | .send _ _ => False
  | .sdk _ _ | .close _ | .construct | .connect _ _ | .delete _ => True

instance (w : World) : ∀ a, Decidable (inLives w a)
  | .lws wsi reason => inferInstanceAs (Decidable (lives w wsi reason))
  | .send _ _ => inferInstanceAs (Decidable False)
  | .sdk _ _ | .close _ | .construct | .connect _ _ | .delete _ => inferInstanceAs (Decidable True)

/-- Pages with their messages on the way. -/
def pages (sdk : Sdk) : StepSystem World Action Fault :=
  (World.system .UCClientWSServer sdk (contract partialWrites)).restrict inLives

instance (sdk : Sdk) (w : World) (a : Action) : Decidable ((pages sdk).allowed w a) :=
  inferInstanceAs (Decidable (contract partialWrites w a ∧ inLives w a))

/-- A page is listed once, after its connection was established, and as long as it is open. -/
structure ListedOnce (w : World) : Prop where
  unborn : ∀ wsi, (w.life wsi).alive = false → (w.life wsi).established = false
  once : w.server.g_WSClientSet.Nodup
  established : ∀ wsi p, w.server.WSClientSet wsi = some p → p ∈ w.server.g_WSClientSet →
    (w.life wsi).established = true
  listed : ∀ p c, w.server.heap.cell p = some c → c.m_state ≠ .CONNECTING →
    p ∈ w.server.g_WSClientSet

section Listed

variable {w w' : World} {a : Action} {sdk : Sdk}

theorem lives_of_inLives (ha : contract partialWrites w a) (hin : inLives w a) :
    contract lives w a := by
  cases a with
  | lws wsi reason => exact hin
  | sdk | send | close | construct | connect | delete => exact ha

/-- The list after a callback. -/
theorem Table.step_list (t : Table) (wsi : Wsi) (reason : Reason) :
    (t.step (.lws wsi reason)).g_WSClientSet = t.g_WSClientSet ∨
      (∃ p, reason.establishes = true ∧ t.WSClientSet wsi = some p ∧
        (t.step (.lws wsi reason)).g_WSClientSet = t.g_WSClientSet ++ [p]) ∨
      ∃ p, (t.step (.lws wsi reason)).g_WSClientSet = t.g_WSClientSet.filter (· != p) := by
  by_cases hest : reason.establishes = true
  · rw [t.step_establishes hest, Table.establish]
    cases hreg : t.WSClientSet wsi with
    | none => exact .inl rfl
    | some p => exact .inr (.inl ⟨p, hest, rfl, rfl⟩)
  by_cases hcl : reason.closes = true
  · rw [t.step_closes hcl, Table.close]
    cases hreg : t.WSClientSet wsi with
    | none => exact .inl rfl
    | some p => exact .inr (.inr ⟨p, rfl⟩)
  by_cases hnew : reason = .WSI_CREATE false
  · subst hnew
    exact .inl rfl
  · rw [t.step_stays hest hcl hnew]
    exact .inl rfl

/-- An address that is not in use was not established. -/
theorem Life.unborn_next {l : Life} {reason : Reason} (ha : l.admits reason) {n : ℕ}
    (h : l.alive = false → l.established = false) :
    (l.next n reason).alive = false → (l.next n reason).established = false := by
  intro hdead
  cases reason with
  | WSI_CREATE => cases hdead
  | ESTABLISHED =>
      rw [show (l.next n .ESTABLISHED).alive = l.alive from rfl, ha.1] at hdead
      cases hdead
  | WSI_DESTROY => rfl
  | CLOSED | CLOSED_HTTP | RECEIVE | SERVER_WRITEABLE | other => exact h hdead
  | CLIENT_ESTABLISHED | CLIENT_CONNECTION_ERROR | CLOSED_CLIENT_HTTP | CLIENT_RECEIVE
  | CLIENT_WRITEABLE => exact ha.elim

/-- A page that is listed and stays registered stays established. -/
theorem established_next {l : Life} {e : Option ℕ} {reason : Reason} {n p : ℕ}
    (ha : l.admits reason) (hfits : LifeInv l e)
    (hunborn : l.alive = false → l.established = false)
    (hentry : nextEntry e n reason = some p) (hp : p ≠ n)
    (hest : e = some p → l.established = true) : (l.next n reason).established = true := by
  cases reason with
  | WSI_CREATE hasUser =>
      obtain ⟨rfl, hdead⟩ := ha
      rcases Option.or_eq_some_iff.mp hentry with he | ⟨-, he⟩
      · exact absurd ((hunborn hdead).symm.trans (hest he)) Bool.false_ne_true
      · exact absurd (Option.some.inj he).symm hp
  | ESTABLISHED => rfl
  | CLOSED | CLOSED_HTTP => cases hentry
  | WSI_DESTROY =>
      have he : e = some p := hentry
      rw [hfits.erased (ha.2 (hest he))] at he
      cases he
  | RECEIVE | SERVER_WRITEABLE | other => exact hest hentry
  | CLIENT_ESTABLISHED | CLIENT_CONNECTION_ERROR | CLOSED_CLIENT_HTTP | CLIENT_RECEIVE
  | CLIENT_WRITEABLE => exact ha.elim

/-- Effects keep every page that is not connecting listed. -/
theorem Effect.listed {s s' : Server} {r : ℤ} (hgood : Good s) (he : Effect s a r s')
    (hserver : a.ofServer s)
    (h : ∀ p c, s.heap.cell p = some c → c.m_state ≠ .CONNECTING → p ∈ s.g_WSClientSet) :
    ∀ p c, s'.heap.cell p = some c → c.m_state ≠ .CONNECTING → p ∈ s'.g_WSClientSet := by
  intro p c hc hs
  cases he with
  | nothing | erased | received | refused | event => exact h p c hc hs
  | @opened _ _ q d _ _ hd =>
      have hcls := (hgood.pages q d hd).1
      simp only [Server.opened, hcls, if_true, List.mem_append, List.mem_singleton]
      by_cases hpq : p = q
      · exact .inr hpq
      · rw [Server.opened, Heap.cell_modify, if_neg hpq] at hc
        exact .inl (h p c hc hs)
  | @closed _ _ q d obs _ _ hd =>
      have hcls := (hgood.pages q d hd).1
      simp only [Server.closedBy, hcls, if_true, Heap.cell_free] at hc ⊢
      split_ifs at hc with hpq
      rw [List.mem_filter]
      exact ⟨h p c hc hs, by simpa using hpq⟩
  | replied | wrote | sent =>
      obtain ⟨d, hd, hstate⟩ := Heap.cell_of_modify (g := Client.m_state) hc fun _ => rfl
      exact h p d hd (hstate ▸ hs)
  | accepted inst =>
      rcases Heap.cases_of_alloc hc with ⟨-, rfl⟩ | hc
      · exact absurd rfl hs
      · exact h p c hc hs
  | @destroyed _ q d hreg hd =>
      have hcls := (hgood.pages q d hd).1
      simp only [Server.deleted, hcls, if_true, Heap.cell_free] at hc ⊢
      split_ifs at hc with hpq
      rw [List.mem_filter]
      exact ⟨h p c hc hs, by simpa using hpq⟩
  | broadcast hobs hall =>
      rw [hall.cell] at hc
      obtain ⟨d, hd, rfl⟩ := Option.map_eq_some_iff.mp hc
      rw [hall.g_WSClientSet]
      exact h p d hd hs
  | @closing q d hd =>
      by_cases hcan : s.canWrite d = true
      · by_cases hpq : p = q
        · subst hpq
          refine h p d hd ?_
          rw [Server.open_of_canWrite hcan]
          exact Status.noConfusion
        · rw [Server.closing_heap hcan, Heap.cell_modify, if_neg hpq] at hc
          exact h p c hc hs
      · rw [Server.closing_eq_self hcan] at hc
        exact h p c hc hs
  | constructed | unconnected | connected | deleted => exact hserver.elim

/-- **One step keeps the pages listed once.** -/
theorem ListedOnce.step (h : ListedOnce w) (hinv : LivesInv w) (ha : contract lives w a)
    (hst : World.step .UCClientWSServer sdk w a = .ok w') : ListedOnce w' := by
  have htable := congrArg Table.g_WSClientSet (step_table hinv.good ha.ofServer hst).1
  change w'.server.g_WSClientSet = _ at htable
  -- the list stays, or loses a page, or gets one that is being established
  have hlist : w'.server.g_WSClientSet = w.server.g_WSClientSet ∨
      (∃ wsi reason p, a = .lws wsi reason ∧ reason.establishes = true ∧
        w.server.WSClientSet wsi = some p ∧
        w'.server.g_WSClientSet = w.server.g_WSClientSet ++ [p]) ∨
      ∃ p, w'.server.g_WSClientSet = w.server.g_WSClientSet.filter (· != p) := by
    rw [htable]
    cases a with
    | lws wsi reason =>
        rcases w.server.table.step_list wsi reason with h | ⟨p, hest, hreg, h⟩ | ⟨p, h⟩
        · exact .inl h
        · exact .inr (.inl ⟨wsi, reason, p, rfl, hest, hreg, h⟩)
        · exact .inr (.inr ⟨p, h⟩)
    | sdk | send | close | construct | connect | delete => exact .inl rfl
  refine ⟨?_, ?_, ?_, ?_⟩
  · intro wsi
    obtain ⟨reason, -, hadm, hlife, -⟩ | ⟨-, hlife, -⟩ := step_entry hinv.good ha hst wsi
    · rw [hlife]
      exact Life.unborn_next hadm (h.unborn wsi)
    · rw [hlife]
      exact h.unborn wsi
  · rcases hlist with hlist | ⟨wsi, reason, p, rfl, hest, hreg, hlist⟩ | ⟨p, hlist⟩
    · rw [hlist]
      exact h.once
    · have hp : p ∉ w.server.g_WSClientSet := by
        intro hp
        have hlife := h.established wsi p hreg hp
        cases reason with
        | ESTABLISHED => exact absurd (ha.2.1.symm.trans hlife) Bool.false_ne_true
        | CLIENT_ESTABLISHED => exact ha.elim
        | CLIENT_CONNECTION_ERROR | CLOSED | CLOSED_CLIENT_HTTP | CLOSED_HTTP | RECEIVE
        | CLIENT_RECEIVE | SERVER_WRITEABLE | CLIENT_WRITEABLE | WSI_CREATE | WSI_DESTROY
        | other => cases hest
      rw [hlist, List.nodup_append]
      refine ⟨h.once, by simp, ?_⟩
      rintro q hq _ hq' rfl
      obtain rfl := List.mem_singleton.mp hq'
      exact hp hq
    · rw [hlist]
      exact h.once.filter _
  · intro wsi p hreg' hp'
    obtain ⟨reason, rfl, hadm, hlife, hentry⟩ | ⟨hno, hlife, hentry⟩ :=
      step_entry hinv.good ha hst wsi
    · rw [hlife]
      by_cases hest : reason.establishes = true
      · exact congrArg Life.established (if_pos hest)
      have hp : p ∈ w.server.g_WSClientSet := by
        rcases hlist with hlist | ⟨wsi', reason', q, ha', hest', -⟩ | ⟨q, hlist⟩
        · rwa [← hlist]
        · obtain ⟨-, rfl⟩ := Action.lws.inj ha'
          exact absurd hest' hest
        · rw [hlist] at hp'
          exact (List.mem_filter.mp hp').1
      have hne : p ≠ w.server.heap.next := by
        exact (Heap.live_map.mp (hinv.good.table.live_listed hp)).ne_next
      rw [hentry] at hreg'
      exact established_next hadm (hinv.fits wsi) (h.unborn wsi) hreg' hne fun he =>
        h.established wsi p he hp
    · rw [hlife]
      rw [hentry] at hreg'
      have hp : p ∈ w.server.g_WSClientSet := by
        rcases hlist with hlist | ⟨wsi', reason', q, ha', -, hreg, hlist⟩ | ⟨q, hlist⟩
        · rwa [← hlist]
        · rw [hlist] at hp'
          rcases List.mem_append.mp hp' with hp' | hp'
          · exact hp'
          · -- a page that is being established is registered for one connection only
            obtain rfl := List.mem_singleton.mp hp'
            have hcell := hinv.good.table.registered wsi p hreg'
            have hcell' := hinv.good.table.registered wsi' p hreg
            obtain rfl := Option.some.inj (hcell.symm.trans hcell')
            exact absurd ha' (hno reason')
        · rw [hlist] at hp'
          exact (List.mem_filter.mp hp').1
      exact h.established wsi p hreg' hp
  · obtain ⟨r, writable, he⟩ := World.step_effect hinv.good hst
    exact Effect.listed (s := { w.server with writable := writable })
      ⟨hinv.good.table, hinv.good.pages⟩ he ha.ofServer h.listed

/-- What holds in every state of the pages. -/
theorem pages_reachable (h : (pages sdk).Reachable w) : LivesInv w ∧ ListedOnce w := by
  refine h.invariant (I := fun w => LivesInv w ∧ ListedOnce w) ?_ ?_
  · refine ⟨⟨.empty, fun _ => ⟨fun _ => rfl, fun _ => rfl⟩⟩, fun _ _ => rfl, List.nodup_nil, ?_, ?_⟩
    · intro wsi p hreg
      cases hreg
    · intro p c hc
      cases hc
  · rintro u a u' - ⟨hinv, hlisted⟩ ⟨hal, hin⟩ hst
    have hlives := lives_of_inLives hal hin
    exact ⟨hinv.step hlives hst, hlisted.step hinv hlives hst⟩

/-- What a step of the pages sends. -/
theorem pages_sending (h : (pages sdk).Reachable w) (hal : (pages sdk).allowed w a)
    (hst : World.step .UCClientWSServer sdk w a = .ok w') :
    ∃ obs, w'.server.trace = w.server.trace ++ obs ∧ Sending w.server.g_WSClientSet obs := by
  obtain ⟨hinv, -⟩ := pages_reachable h
  obtain ⟨r, s', hrun, rfl⟩ := World.step_ok hst
  obtain ⟨writable, hbefore⟩ := w.before_server a
  rw [World.after_server]
  rw [hbefore] at hrun
  refine program_sending (s := { w.server with writable := writable })
    ⟨hinv.good.table, hinv.good.pages⟩ ?_ hrun
  rintro p buf rfl
  exact hal.2

end Listed

/-! ### The order of the events -/

/-- The page is open. -/
def IsOpen (w : World) (p : ℕ) : Prop :=
  (w.server.heap.cell p).map Client.m_state = some .OPEN

instance (w : World) (p : ℕ) : Decidable (IsOpen w p) := inferInstanceAs (Decidable (_ = _))

/-- The page is open in every state of the continuation `bs` of the run `as`. -/
def OpenSince (sdk : Sdk) (as bs : List Action) (p : ℕ) : Prop :=
  ∀ cs u, cs <+: bs → (pages sdk).Run (as ++ cs) u → IsOpen u p

section Order

variable {sdk : Sdk} {w w' : World} {as bs : List Action} {p q : ℕ}

theorem openSince_nil (h : (pages sdk).Run as w) (hp : IsOpen w p) : OpenSince sdk as [] p := by
  intro cs u hcs hu
  obtain rfl := List.prefix_nil.mp hcs
  rw [List.append_nil] at hu
  rwa [hu.unique h]

theorem openSince_cons {b : Action} (h : (pages sdk).Run as w) (hp : IsOpen w p)
    (hbs : OpenSince sdk (as ++ [b]) bs p) : OpenSince sdk as (b :: bs) p := by
  intro cs u hcs hu
  cases cs with
  | nil =>
      rw [List.append_nil] at hu
      rwa [hu.unique h]
  | cons c cs =>
      obtain ⟨rfl, hcs'⟩ := List.cons_prefix_cons.mp hcs
      refine hbs cs u hcs' ?_
      rwa [List.append_assoc, List.singleton_append]

/-- A page that is open is listed once. -/
theorem count_eq_one (h : (pages sdk).Reachable w) (hp : IsOpen w p) :
    w.server.g_WSClientSet.count p = 1 := by
  obtain ⟨-, hlisted⟩ := pages_reachable h
  obtain ⟨c, hc, hs⟩ := Option.map_eq_some_iff.mp hp
  refine List.count_eq_one_of_mem hlisted.once (hlisted.listed p c hc ?_)
  rw [hs]
  exact Status.noConfusion

theorem eventsOf_append (messages messages' : List (Origin × Bytes)) :
    eventsOf (messages ++ messages') = eventsOf messages ++ eventsOf messages' :=
  List.filterMap_append

/-- **The same events are sent to all open pages.** -/
theorem events_agree (h : (pages sdk).Run as w) (h' : (pages sdk).Run (as ++ bs) w')
    (hp : OpenSince sdk as bs p) (hq : OpenSince sdk as bs q) :
    ∃ obs, w'.server.trace = w.server.trace ++ obs ∧
      ∀ origin, eventsOf (deliveries p origin obs) = eventsOf (deliveries q origin obs) := by
  induction bs using List.reverseRecOn generalizing w' with
  | nil =>
      rw [List.append_nil] at h'
      obtain rfl := h.unique h'
      exact ⟨[], (List.append_nil _).symm, fun _ => rfl⟩
  | append_singleton bs b ih =>
      have hbs : bs <+: bs ++ [b] := List.prefix_append ..
      rw [← List.append_assoc] at h'
      obtain ⟨u, hu, hal, hst⟩ := h'.snoc_inv
      obtain ⟨obs, htrace, hsame⟩ := ih hu (fun cs v hcs => hp cs v (hcs.trans hbs))
        fun cs v hcs => hq cs v (hcs.trans hbs)
      obtain ⟨new, hnew, hsending⟩ := pages_sending ⟨_, hu⟩ hal hst
      refine ⟨obs ++ new, by rw [hnew, htrace, List.append_assoc], fun origin => ?_⟩
      rw [deliveries_append, deliveries_append, eventsOf_append, eventsOf_append, hsame]
      congr 1
      rcases hsending.deliveries with hnone | ⟨buf, hevent⟩ | ⟨r, buf, hreply⟩
      · rw [hnone, hnone]
      · rw [hevent, hevent, count_eq_one ⟨_, hu⟩ (hp bs u hbs hu),
          count_eq_one ⟨_, hu⟩ (hq bs u hbs hu)]
      · -- a reply is no event, whoever gets it
        have hno : ∀ p, eventsOf (if r = p then [(Origin.reply r, buf)] else []) = [] := by
          intro p
          split_ifs <;> rfl
        rw [hreply, hreply, hno, hno]

/-- A reply is sent to the page that asked. -/
theorem reply_to_sender (h : (pages sdk).Reachable w) :
    ∀ p r buf, (Origin.reply r, buf) ∈ deliveries p .start w.server.trace → r = p := by
  refine h.invariant (I := fun w => ∀ p r buf,
    (Origin.reply r, buf) ∈ deliveries p .start w.server.trace → r = p) ?_ ?_
  · intro p r buf hmem
    cases hmem
  · intro u a u' hr hI hal hst p r buf hmem
    obtain ⟨obs, htrace, hsending⟩ := pages_sending hr hal hst
    rw [htrace, deliveries_append] at hmem
    rcases List.mem_append.mp hmem with hmem | hmem
    · exact hI p r buf hmem
    · rcases hsending.deliveries with hnone | ⟨buf', hevent⟩ | ⟨r', buf', hreply⟩
      · rw [hnone] at hmem
        cases hmem
      · rw [hevent] at hmem
        cases List.eq_of_mem_replicate hmem
      · rw [hreply] at hmem
        split_ifs at hmem with hp
        · obtain ⟨horigin, -⟩ := Prod.mk.inj (List.mem_singleton.mp hmem)
          exact (Origin.reply.inj horigin).trans hp
        · cases hmem

/-- What lws has of the events sent since is a beginning of them. -/
theorem eventsSince_isPrefix (p : ℕ) (trace obs : List Obs) :
    eventsSince p trace (trace ++ obs) <+:
      eventsOf (deliveries p (trace.foldl Origin.next .start) obs) := by
  have hall := (completed_isPrefix Prod.snd (accepted p (trace ++ obs))
    (deliveries p .start (trace ++ obs))).drop (deliveries p .start trace).length
  rw [deliveries_append, List.drop_left, ← deliveries_append] at hall
  exact hall.filterMap _

/-- What lws took of the messages of a page: those it has in full, and a proper beginning of
the next. -/
def TakenUpTo (taken : Bytes) (done all : List (Origin × Bytes)) : Prop :=
  ∃ part, taken = (done.map Prod.snd).flatten ++ part ∧
    ((done = all ∧ part = []) ∨ ∃ m rest, all = done ++ m :: rest ∧ part <+: m.2 ∧ part ≠ m.2)

theorem takenUpTo_received (h : (pages sdk).Reachable w) {c : Client}
    (hc : w.server.heap.cell p = some c) (hshort : ShortSends p w.server.trace) :
    TakenUpTo (accepted p w.server.trace) (received p w.server.trace)
      (deliveries p .start w.server.trace) := by
  obtain ⟨as, hrun⟩ := h
  obtain ⟨-, hqueue⟩ := queueInv_reachable ⟨as, hrun.of_restrict.1⟩
  have hconserved := (hqueue.tracked p c hc hshort).aligned.flatten_eq
  refine completed_spec Prod.snd ?_
  rw [map_deliveries, ← hconserved]
  exact List.prefix_append ..

/-- **All pages see the same events in the same order.** For every run of any number of pages,
with events, commands, partial writes and closed pages in any order, and any continuation of
it throughout which two pages are open: of the events broadcast since, one of the pages has in
full the beginning of what the other has. A reply is sent to the page whose message it answers
and to no other. And what lws took from a page, if its messages are shorter than 2^31 bytes,
are its messages in the order they were sent, up to a part of the next. -/
theorem event_order_agrees (sdk : Sdk) {as bs : List Action} {w w' : World}
    (h : (pages sdk).Run as w) (h' : (pages sdk).Run (as ++ bs) w') :
    (∀ p q, OpenSince sdk as bs p → OpenSince sdk as bs q →
      eventsSince p w.server.trace w'.server.trace <+:
          eventsSince q w.server.trace w'.server.trace ∨
        eventsSince q w.server.trace w'.server.trace <+:
          eventsSince p w.server.trace w'.server.trace) ∧
    (∀ p r buf, (Origin.reply r, buf) ∈ deliveries p .start w'.server.trace → r = p) ∧
    ∀ p c, w'.server.heap.cell p = some c → ShortSends p w'.server.trace →
      TakenUpTo (accepted p w'.server.trace) (received p w'.server.trace)
        (deliveries p .start w'.server.trace) := by
  refine ⟨?_, reply_to_sender ⟨_, h'⟩, fun p c hc hshort => takenUpTo_received ⟨_, h'⟩ hc hshort⟩
  intro p q hp hq
  obtain ⟨obs, htrace, hsame⟩ := events_agree h h' hp hq
  rw [htrace]
  have hp' := eventsSince_isPrefix p w.server.trace obs
  have hq' := eventsSince_isPrefix q w.server.trace obs
  rw [hsame] at hp'
  exact List.prefix_or_prefix_of_prefix hp' hq'

end Order

/-- Two pages are open, a call proceeds, and lws takes the event from one of them: this page
has one event, the other none. -/
theorem event_order_agrees_twoPages :
    ∃ w w', (pages silentSdk).Run [.lws 1 (.WSI_CREATE false), .lws 1 .ESTABLISHED,
        .lws 2 (.WSI_CREATE false), .lws 2 .ESTABLISHED] w ∧
      (pages silentSdk).Run ([.lws 1 (.WSI_CREATE false), .lws 1 .ESTABLISHED,
        .lws 2 (.WSI_CREATE false), .lws 2 .ESTABLISHED] ++
        [.sdk 0 (.onCallProceeding (bytes "7")), .lws 1 (.SERVER_WRITEABLE 66)]) w' ∧
      (eventsSince 0 w.server.trace w'.server.trace).length = 1 ∧
      eventsSince 1 w.server.trace w'.server.trace = [] ∧
      (eventsSince 0 w.server.trace w'.server.trace <+:
          eventsSince 1 w.server.trace w'.server.trace ∨
        eventsSince 1 w.server.trace w'.server.trace <+:
          eventsSince 0 w.server.trace w'.server.trace) := by
  obtain ⟨w, hw, hfw⟩ := StepSystem.run_of_check_map (S := pages silentSdk)
    (f := fun w => (decide (IsOpen w 0), decide (IsOpen w 1),
      (deliveries 0 .start w.server.trace).length, (deliveries 1 .start w.server.trace).length))
    (b := (true, true, 0, 0))
    [.lws 1 (.WSI_CREATE false), .lws 1 .ESTABLISHED, .lws 2 (.WSI_CREATE false),
      .lws 2 .ESTABLISHED] (by decide +kernel)
  obtain ⟨u, hu, hfu⟩ := StepSystem.run_of_check_map (S := pages silentSdk)
    (f := fun w => (decide (IsOpen w 0), decide (IsOpen w 1))) (b := (true, true))
    [.lws 1 (.WSI_CREATE false), .lws 1 .ESTABLISHED, .lws 2 (.WSI_CREATE false),
      .lws 2 .ESTABLISHED, .sdk 0 (.onCallProceeding (bytes "7"))] (by decide +kernel)
  obtain ⟨w', hw', hfw'⟩ := StepSystem.run_of_check_map (S := pages silentSdk)
    (f := fun w => (decide (IsOpen w 0), decide (IsOpen w 1),
      (eventsOf (received 0 w.server.trace)).length, (eventsOf (received 1 w.server.trace)).length))
    (b := (true, true, 1, 0))
    [.lws 1 (.WSI_CREATE false), .lws 1 .ESTABLISHED, .lws 2 (.WSI_CREATE false),
      .lws 2 .ESTABLISHED, .sdk 0 (.onCallProceeding (bytes "7")), .lws 1 (.SERVER_WRITEABLE 66)]
    (by decide +kernel)
  simp only [Prod.mk.injEq, decide_eq_true_eq] at hfw hfu hfw'
  obtain ⟨h0, h1, hd0, hd1⟩ := hfw
  obtain ⟨h0', h1', hr0, hr1⟩ := hfw'
  have hopen := (event_order_agrees silentSdk hw hw').1 0 1
    (openSince_cons hw h0 (openSince_cons hu hfu.1 (openSince_nil hw' h0')))
    (openSince_cons hw h1 (openSince_cons hu hfu.2 (openSince_nil hw' h1')))
  refine ⟨w, w', hw, hw', ?_, ?_, hopen⟩
  · rw [eventsSince, hd0]
    exact hr0
  · rw [eventsSince, hd1]
    exact List.eq_nil_of_length_eq_zero hr1

end UCClient
