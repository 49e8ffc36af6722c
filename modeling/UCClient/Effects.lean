import UCClient.World

/-!
# What an Action Can Do

The inversion of an action: if it ended without a fault, it did one of the things listed
in `Effect`, each with the state it leaves written out. Whatever is to be shown of every
step of a run is shown by a case distinction on it, without going back to the programs.

Of the state before, only one thing is assumed: the client registered for the connection
a callback is about, if there is one, has that connection. Closing relies on it, for the
destructor erases the registry by the client's own connection.

## Main results

* `program_effect`: every action that ends has one of the effects.
-/

namespace UCClient

open ServerM WebSocketClient

/-- What an action did: the value returned to lws, and the state it left. -/
inductive Effect (s : Server) : Action → ℤ → Server → Prop
  /-- There was nothing to do for the connection. -/
  | nothing {wsi : Wsi} {reason : Reason} {r : ℤ}
      (hest : reason.establishes = true → s.WSClientSet wsi = none)
      (hcl : ¬ reason.closes = true) (hw : reason.result ≠ none → r = -1) :
      Effect s (.lws wsi reason) r s
  | opened {wsi : Wsi} {reason : Reason} {p : ℕ} {c : Client}
      (hest : reason.establishes = true) (hreg : s.WSClientSet wsi = some p)
      (hc : s.heap.cell p = some c) : Effect s (.lws wsi reason) 0 (s.opened wsi p c)
  /-- A connection without a client, or with one that is closed already, is closed. -/
  | erased {wsi : Wsi} {reason : Reason} (hcl : reason.closes = true)
      (hold : ∀ p c, s.WSClientSet wsi = some p → s.heap.cell p = some c →
        c.m_state = .CLOSED) : Effect s (.lws wsi reason) 0 (s.erased wsi)
  | closed {wsi : Wsi} {reason : Reason} {p : ℕ} {c : Client} {obs : List Obs}
      (hcl : reason.closes = true) (hreg : s.WSClientSet wsi = some p)
      (hc : s.heap.cell p = some c) (hobs : ∀ o ∈ obs, o.dataOf = none) :
      Effect s (.lws wsi reason) 0 (s.closedBy wsi p c obs)
  /-- A message was received, and run if the client is a page. -/
  | received {wsi : Wsi} {reason : Reason} {p : ℕ} {c : Client} {message : Bytes}
      {obs : List Obs} {version : Bytes} (hr : reason.receives = true)
      (hreg : s.WSClientSet wsi = some p) (hc : s.heap.cell p = some c)
      (hobs : ∀ o ∈ obs, o.dataOf = none) :
      Effect s (.lws wsi reason) 0 (s.ranCommand p message obs version)
  /-- A message was received and answered. -/
  | replied {wsi : Wsi} {reason : Reason} {p : ℕ} {c : Client} {message : Bytes}
      {obs : List Obs} {version result : Bytes} (hr : reason.receives = true)
      (hreg : s.WSClientSet wsi = some p) (hc : s.heap.cell p = some c)
      (hobs : ∀ o ∈ obs, o.dataOf = none) :
      Effect s (.lws wsi reason) 0 ((s.ranCommand p message obs version).sent p c result)
  /-- `lws_write` refused the data. -/
  | refused {wsi : Wsi} {reason : Reason} {p : ℕ} {c : Client} {res : ℤ} {obs : List Obs}
      (hr : reason.result = some res) (hreg : s.WSClientSet wsi = some p)
      (hc : s.heap.cell p = some c) (hobs : ∀ o ∈ obs, o.dataOf = some p)
      (hq : ∀ s, writeQueue p res c.m_sendBuf s = .ok none (s.observed obs)) :
      Effect s (.lws wsi reason) (-1) (s.observed (.OnSend p :: obs))
  | wrote {wsi : Wsi} {reason : Reason} {p : ℕ} {c : Client} {res : ℤ} {obs : List Obs}
      {queue : List Bytes} (hr : reason.result = some res) (hreg : s.WSClientSet wsi = some p)
      (hc : s.heap.cell p = some c) (hs : c.m_state ≠ .CLOSING)
      (hobs : ∀ o ∈ obs, o.dataOf = some p)
      (hq : ∀ s, writeQueue p res c.m_sendBuf s = .ok (some queue) (s.observed obs)) :
      Effect s (.lws wsi reason) 0 (s.wrote wsi p queue (.OnSend p :: obs))
  | accepted {wsi : Wsi} {cls : ClientClass} (inst : Option ℕ) :
      Effect s (.lws wsi (.WSI_CREATE false)) 0
        { s.constructed cls wsi with g_Instance := inst }
  | destroyed {wsi : Wsi} {p : ℕ} {c : Client} (hreg : s.WSClientSet wsi = some p)
      (hc : s.heap.cell p = some c) : Effect s (.lws wsi .WSI_DESTROY) 0 (s.deleted p c)
  /-- An event was not sent to anyone. -/
  | event {depth : ℕ} {ev : SdkEvent} {obs : List Obs} (hobs : ∀ o ∈ obs, o.dataOf = none) :
      Effect s (.sdk depth ev) 0 (s.observed obs)
  | broadcast {depth : ℕ} {ev : SdkEvent} {obs : List Obs} {buf : Bytes} {s' : Server}
      (hobs : ∀ o ∈ obs, o.dataOf = none)
      (hall : SentAll s.g_WSClientSet buf (s.observed obs) s') : Effect s (.sdk depth ev) 0 s'
  | sent {p : ℕ} {c : Client} {buf : Bytes} (hc : s.heap.cell p = some c) :
      Effect s (.send p buf) 0 (s.sent p c buf)
  | closing {p : ℕ} {c : Client} (hc : s.heap.cell p = some c) :
      Effect s (.close p) 0 (s.closing p c)
  | constructed :
      Effect s .construct 0 { s with heap := s.heap.alloc { cls := .ATLWSclient, wsi := 0 } }
  /-- `Open` had nothing to connect. -/
  | unconnected {p : ℕ} {connected : Option Wsi} {c : Client} (hc : s.heap.cell p = some c)
      (hno : connected ≠ none → c.wsi ≠ 0) : Effect s (.connect p connected) 0 s
  | connected {p : ℕ} {w : Wsi} {c : Client} (hc : s.heap.cell p = some c) (hw : c.wsi = 0) :
      Effect s (.connect p (some w)) 0 (s.connected p w)
  | deleted {p : ℕ} {c : Client} (hc : s.heap.cell p = some c) :
      Effect s (.delete p) 0 (s.deleted p c)

variable {s s' : Server} {p : ℕ} {c : Client} {wsi : Wsi} {reason : Reason} {r : ℤ}

/-- A command makes no observation of data. -/
theorem Obs.dataOf_of_isCommand {o : Obs} (h : o.isCommand = true) : o.dataOf = none := by
  cases o <;> first | rfl | cases h

/-! ### Callbacks -/

/-- The body of a callback before `return 0`. -/
theorem return_zero {m : ServerM Unit} (h : (m >>= fun _ => (pure 0 : ServerM ℤ)) s = .ok r s') :
    r = 0 ∧ m s = .ok () s' := by
  obtain ⟨_, t, hm, ht⟩ := EStateM.bind_ok_inv h
  cases ht
  exact ⟨rfl, hm⟩

theorem established_effect (hest : reason.establishes = true)
    (h : established wsi (s.WSClientSet wsi) s = .ok () s') :
    Effect s (.lws wsi reason) 0 s' := by
  cases hreg : s.WSClientSet wsi with
  | none =>
      rw [hreg] at h
      cases h
      exact .nothing (fun _ => hreg) (Reason.not_closes_of_establishes hest)
        fun hw => absurd (Reason.result_of_establishes hest) hw
  | some p =>
      rw [hreg] at h
      cases hc : s.heap.cell p with
      | none => simp [established, setClient_bind, hc] at h
      | some c =>
          rw [established_spec hc] at h
          cases h
          exact .opened hest hreg hc

theorem connectionError_effect (hcl : reason.closes = true)
    (hkey : ∀ p c, s.WSClientSet wsi = some p → s.heap.cell p = some c → c.wsi = wsi)
    {data : Option Bytes} (h : connectionError wsi (s.WSClientSet wsi) data s = .ok () s') :
    Effect s (.lws wsi reason) 0 s' := by
  cases hreg : s.WSClientSet wsi with
  | none =>
      rw [hreg, connectionError_none] at h
      cases h
      exact .erased hcl fun p c hp => by rw [hreg] at hp; cases hp
  | some p =>
      rw [hreg] at h
      cases hc : s.heap.cell p with
      | none => simp [connectionError, erase_bind, setClient_bind, hc] at h
      | some c =>
          rw [connectionError_spec hc (hkey p c hreg hc)] at h
          cases h
          exact .closed hcl hreg hc (by simp [Obs.dataOf])

theorem lwsclose_effect (hcl : reason.closes = true)
    (hkey : ∀ p c, s.WSClientSet wsi = some p → s.heap.cell p = some c → c.wsi = wsi)
    {data : Option Bytes} (h : lwsclose wsi (s.WSClientSet wsi) data s = .ok () s') :
    Effect s (.lws wsi reason) 0 s' := by
  cases hreg : s.WSClientSet wsi with
  | none =>
      rw [hreg, lwsclose_none] at h
      cases h
      exact .erased hcl fun p c hp => by rw [hreg] at hp; cases hp
  | some p =>
      rw [hreg] at h
      cases hc : s.heap.cell p with
      | none => simp [lwsclose, erase_bind, client_bind, hc] at h
      | some c =>
          by_cases hs : c.m_state = .CLOSED
          · rw [lwsclose_closed hc hs] at h
            cases h
            refine .erased hcl fun q d hq hd => ?_
            obtain rfl : p = q := Option.some.inj (hreg.symm.trans hq)
            obtain rfl : c = d := Option.some.inj (hc.symm.trans hd)
            exact hs
          · rw [lwsclose_spec hc (hkey p c hreg hc) hs] at h
            cases h
            exact .closed hcl hreg hc (by simp [Obs.dataOf])

theorem receive_effect {sdk : Sdk} (hr : reason.receives = true) {data : Option Bytes}
    (h : receive sdk (s.WSClientSet wsi) data s = .ok () s') :
    Effect s (.lws wsi reason) 0 s' := by
  cases hreg : s.WSClientSet wsi with
  | none =>
      rw [hreg] at h
      cases h
      exact .nothing (fun _ => hreg) (Reason.not_closes_of_receives hr)
        fun hw => absurd (Reason.result_of_receives hr) hw
  | some p =>
      rw [hreg] at h
      have h : virtualOnMessage sdk p (data.getD []) s = .ok () s' := h
      cases hc : s.heap.cell p with
      | none => simp [virtualOnMessage, client_bind, hc] at h
      | some c =>
          obtain ⟨obs, version, hobs, hrun | ⟨result, hrun⟩ | hrun⟩ :=
            virtualOnMessage_cases hc sdk (data.getD [])
          · rw [hrun] at h
            cases h
            exact .received hr hreg hc fun o ho => Obs.dataOf_of_isCommand (hobs o ho)
          · rw [hrun] at h
            cases h
            exact .replied hr hreg hc fun o ho => Obs.dataOf_of_isCommand (hobs o ho)
          · rw [hrun] at h
            cases h

/-- A `WRITEABLE` callback of a registered client that ends: the client wants to close, or
the data was refused, or the client has a new queue. -/
theorem ws_write_inv {res : ℤ} (hc : s.heap.cell p = some c)
    (h : ws_write wsi (some p) res s = .ok r s') :
    (c.m_state = .CLOSING ∧ r = -1 ∧ s' = s) ∨
      ∃ obs, (∀ o ∈ obs, o.dataOf = some p) ∧
        ((r = -1 ∧ s' = s.observed (.OnSend p :: obs) ∧
            ∀ s, writeQueue p res c.m_sendBuf s = .ok none (s.observed obs)) ∨
          ∃ queue, r = 0 ∧ s' = s.wrote wsi p queue (.OnSend p :: obs) ∧
            c.m_state ≠ .CLOSING ∧
            ∀ s, writeQueue p res c.m_sendBuf s = .ok (some queue) (s.observed obs)) := by
  by_cases hs : c.m_state = .CLOSING
  · rw [ws_write_closing hc hs] at h
    cases h
    exact .inl ⟨hs, rfl, rfl⟩
  obtain ⟨obs, hobs, ⟨q, hq⟩ | hq⟩ := writeQueue_run p res c.m_sendBuf
  · refine .inr ⟨obs, ?_, ?_⟩
    · intro o ho
      obtain ⟨buf, rfl⟩ := hobs o ho
      rfl
    cases q with
    | none =>
        rw [ws_write_fail hc hs hq] at h
        cases h
        exact .inl ⟨rfl, rfl, hq⟩
    | some queue =>
        rw [ws_write_done hc hs hq] at h
        cases h
        exact .inr ⟨queue, rfl, rfl, hs, hq⟩
  · rw [ws_write_fault hc hs hq] at h
    cases h

theorem ws_write_effect {res : ℤ} (hr : reason.result = some res)
    (h : ws_write wsi (s.WSClientSet wsi) res s = .ok r s') : Effect s (.lws wsi reason) r s' := by
  have hest := Reason.not_establishes_of_result hr
  have hcl := Reason.not_closes_of_result hr
  cases hreg : s.WSClientSet wsi with
  | none =>
      rw [hreg] at h
      cases h
      exact .nothing (fun h' => absurd h' hest) hcl fun _ => rfl
  | some p =>
      rw [hreg] at h
      cases hc : s.heap.cell p with
      | none => simp [ws_write, client_bind, hc] at h
      | some c =>
          obtain ⟨-, rfl, rfl⟩ | ⟨obs, hobs, ⟨rfl, rfl, hq⟩ | ⟨queue, rfl, rfl, hs, hq⟩⟩ :=
            ws_write_inv hc h
          · exact .nothing (fun h' => absurd h' hest) hcl fun _ => rfl
          · exact .refused hr hreg hc hobs hq
          · exact .wrote hr hreg hc hs hobs hq

theorem wsiCreate_effect {This : ServerClass} {hasUser : Bool}
    (h : wsiCreate This wsi hasUser s = .ok () s') :
    Effect s (.lws wsi (.WSI_CREATE hasUser)) 0 s' := by
  cases hasUser with
  | true =>
      cases h
      exact .nothing nofun Bool.false_ne_true fun hw => absurd rfl hw
  | false =>
      cases This with
      | WebSocketServer =>
          cases h
          exact .accepted s.g_Instance
      | UCClientWSServer =>
          cases h
          exact .accepted (some s.heap.next)

theorem wsiDestroy_effect (h : wsiDestroy (s.WSClientSet wsi) s = .ok () s') :
    Effect s (.lws wsi .WSI_DESTROY) 0 s' := by
  have hnothing : Effect s (.lws wsi .WSI_DESTROY) 0 s :=
    .nothing nofun Bool.false_ne_true fun hw => absurd rfl hw
  cases hreg : s.WSClientSet wsi with
  | none =>
      rw [hreg] at h
      cases h
      exact hnothing
  | some p =>
      rw [hreg] at h
      cases hc : s.heap.cell p with
      | none => simp [wsiDestroy, client_bind, hc] at h
      | some c =>
          simp only [wsiDestroy, client_bind, hc] at h
          split at h
          · rw [delete_spec hc] at h
            cases h
            exact .destroyed hreg hc
          · cases h
            exact hnothing

theorem callback_lws_effect {This : ServerClass} {sdk : Sdk}
    (hkey : ∀ p c, s.WSClientSet wsi = some p → s.heap.cell p = some c → c.wsi = wsi)
    (h : callback_lws This sdk wsi reason s = .ok r s') : Effect s (.lws wsi reason) r s' := by
  rw [callback_lws, EStateM.get_bind] at h
  cases reason with
  | ESTABLISHED | CLIENT_ESTABLISHED =>
      obtain ⟨rfl, hm⟩ := return_zero (m := established wsi _) h
      exact established_effect rfl hm
  | CLIENT_CONNECTION_ERROR data =>
      obtain ⟨rfl, hm⟩ := return_zero (m := connectionError wsi _ data) h
      exact connectionError_effect rfl hkey hm
  | CLOSED data | CLOSED_CLIENT_HTTP data | CLOSED_HTTP data =>
      obtain ⟨rfl, hm⟩ := return_zero (m := lwsclose wsi _ data) h
      exact lwsclose_effect rfl hkey hm
  | RECEIVE data | CLIENT_RECEIVE data =>
      obtain ⟨rfl, hm⟩ := return_zero (m := receive sdk _ data) h
      exact receive_effect rfl hm
  | SERVER_WRITEABLE res | CLIENT_WRITEABLE res => exact ws_write_effect rfl h
  | WSI_CREATE hasUser =>
      obtain ⟨rfl, hm⟩ := return_zero (m := wsiCreate This wsi hasUser) h
      exact wsiCreate_effect hm
  | WSI_DESTROY =>
      obtain ⟨rfl, hm⟩ := return_zero (m := wsiDestroy _) h
      exact wsiDestroy_effect hm
  | other =>
      cases h
      exact .nothing nofun Bool.false_ne_true fun hw => absurd rfl hw

/-! ### Events and calls from inside -/

theorem CB_effect {depth : ℕ} {ev : SdkEvent} (h : CB depth ev s = .ok () s') :
    Effect s (.sdk depth ev) 0 s' := by
  obtain ⟨obs, hobs, hrun⟩ | ⟨this, buf, hrun⟩ | hrun | ⟨this, t, -, -, hrun⟩ :=
    CB_run s depth ev
  · rw [hrun] at h
    cases h
    exact .event hobs
  · rw [hrun] at h
    obtain ⟨t, ht, hall⟩ := forM_Send buf s.g_WSClientSet _ (live_of_forM_Send h)
    rw [ht] at h
    cases h
    exact .broadcast (dataOf_alerted ev this) hall
  · rw [hrun] at h
    cases h
  · rw [hrun] at h
    cases h

theorem Open_effect {connected : Option Wsi} (h : Open p connected s = .ok () s') :
    Effect s (.connect p connected) 0 s' := by
  cases hc : s.heap.cell p with
  | none => simp [Open, client_bind, hc] at h
  | some c =>
      by_cases hw : c.wsi = 0
      · cases connected with
        | none =>
            simp only [Open, client_bind, hc, hw, if_true] at h
            cases h
            exact .unconnected hc fun h' => absurd rfl h'
        | some w =>
            rw [Open_spec hc hw] at h
            cases h
            exact .connected hc hw
      · simp only [Open, client_bind, hc, hw, if_false] at h
        cases h
        exact .unconnected hc fun _ => hw

/-- **Every action that ends has one of the effects.** -/
theorem program_effect {This : ServerClass} {sdk : Sdk} {a : Action}
    (hkey : ∀ wsi reason, a = .lws wsi reason → ∀ p c, s.WSClientSet wsi = some p →
      s.heap.cell p = some c → c.wsi = wsi)
    (h : a.program This sdk s = .ok r s') : Effect s a r s' := by
  cases a with
  | lws wsi reason => exact callback_lws_effect (hkey wsi reason rfl) h
  | sdk depth ev =>
      obtain ⟨rfl, hm⟩ := return_zero h
      exact CB_effect hm
  | send p buf =>
      obtain ⟨rfl, hm⟩ := return_zero h
      cases hc : s.heap.cell p with
      | none => simp [Send, observe_bind, setClient_bind, hc] at hm
      | some c =>
          rw [Send_spec hc] at hm
          cases hm
          exact .sent hc
  | close p =>
      obtain ⟨rfl, hm⟩ := return_zero h
      cases hc : s.heap.cell p with
      | none => simp [Close, client_bind, hc] at hm
      | some c =>
          rw [Close_spec hc] at hm
          cases hm
          exact .closing hc
  | construct =>
      cases h
      exact .constructed
  | connect p connected =>
      obtain ⟨rfl, hm⟩ := return_zero h
      exact Open_effect hm
  | delete p =>
      obtain ⟨rfl, hm⟩ := return_zero h
      cases hc : s.heap.cell p with
      | none =>
          simp only [delete, EStateM.get_bind, hc] at hm
          cases hm
      | some c =>
          rw [delete_spec hc] at hm
          cases hm
          exact .deleted hc

end UCClient
