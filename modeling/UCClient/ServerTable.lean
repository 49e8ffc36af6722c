import UCClient.ConnectionTable
import UCClient.Events

/-!
# The Server Refines the Connection Table

The table of a server (`Server.table`) forgets the queues, the states and everything the
outside sees. From a state with a well-formed table, in which all clients are page
connections that are not closed (`Good`), each call into the server moves the table as
the machine of `ConnectionTable` says, or faults with something else than a bad pointer.
What is proved of the table is thereby proved of the server.

## Main results

* `program_simulates`: every call refines a move of the table.
* `step_table`, `step_not_isPointer`: the same for a step of the world, as an equation
  between tables and as the absence of pointer faults.
-/

namespace UCClient

open ServerM WebSocketClient CWinSDKBase

/-- The table of a server. -/
def Server.table (s : Server) : Table where
  objects := s.heap.map Client.wsi
  WSClientSet := s.WSClientSet
  g_WSClientSet := s.g_WSClientSet
  g_Instance := s.g_Instance

/-- All clients are page connections, and none that exists is closed. -/
def Pages (s : Server) : Prop :=
  ∀ p c, s.heap.cell p = some c → c.cls = .UCClientWSclient ∧ c.m_state ≠ .CLOSED

/-- The states of the server. -/
structure Good (s : Server) : Prop where
  table : s.table.WellFormed
  pages : Pages s

/-- The fault is a use of a pointer that refers to nothing. -/
def Fault.isPointer : Fault → Bool
  | .dangling _ | .doubleDelete _ => true
  | .jsonAssert | .vectorRange | .stackOverflow => false

/-- The program moves the table to `t` and leaves all clients open page connections, or
faults with something else than a bad pointer. -/
def Simulates (m : ServerM ℤ) (s : Server) (t : Table) : Prop :=
  (∃ r s', m s = .ok r s' ∧ s'.table = t ∧ Pages s') ∨
    ∃ f s', m s = .error f s' ∧ f.isPointer = false

/-- The calls that are made into the server: on clients that exist. -/
def Action.ofServer (s : Server) : Action → Prop
  | .lws _ _ | .sdk _ _ => True
  | .send p _ | .close p => s.heap.Live p
  | .construct | .connect _ _ | .delete _ => False

/-- The contract of an environment of the server, by which callbacks of lws it makes. -/
def contract (callbacks : World → Wsi → Reason → Prop) (w : World) : Action → Prop
  | .lws wsi reason => callbacks w wsi reason
  | a => a.ofServer w.server

instance (callbacks : World → Wsi → Reason → Prop)
    [∀ w wsi reason, Decidable (callbacks w wsi reason)] (w : World) :
    ∀ a : Action, Decidable (contract callbacks w a)
  | .lws wsi reason => inferInstanceAs (Decidable (callbacks w wsi reason))
  | .sdk _ _ => inferInstanceAs (Decidable True)
  | .send p _ | .close p => inferInstanceAs (Decidable (w.server.heap.Live p))
  | .construct | .connect _ _ | .delete _ => inferInstanceAs (Decidable False)

theorem contract.ofServer {callbacks : World → Wsi → Reason → Prop} {w : World} {a : Action}
    (h : contract callbacks w a) : a.ofServer w.server := by
  cases a with
  | lws | sdk => exact trivial
  | send | close | construct | connect | delete => exact h

variable {s s' : Server} {p : ℕ} {c : Client} {wsi : Wsi}

/-- A registered client exists and knows the connection. -/
theorem Good.registered (h : Good s) (hp : s.WSClientSet wsi = some p) :
    ∃ c, s.heap.cell p = some c ∧ c.wsi = wsi ∧ c.cls = .UCClientWSclient ∧
      c.m_state ≠ .CLOSED := by
  have hcell := h.table.registered wsi p hp
  obtain ⟨c, hc, hw⟩ := Option.map_eq_some_iff.mp hcell
  exact ⟨c, hc, hw, h.pages p c hc⟩

theorem Good.eq_wsi (h : Good s) (hp : s.WSClientSet wsi = some p) (hc : s.heap.cell p = some c) :
    c.wsi = wsi := by
  obtain ⟨d, hd, hw, -⟩ := h.registered hp
  obtain rfl := Option.some.inj (hc.symm.trans hd)
  exact hw

/-- A change to one client that keeps its class and does not close it. -/
theorem Pages.modify (h : Pages s) {f : Client → Client}
    (hs' : s'.heap = s.heap.modify p f) (hcls : ∀ c, (f c).cls = c.cls)
    (hs : ∀ c, c.m_state ≠ .CLOSED → (f c).m_state ≠ .CLOSED) : Pages s' := by
  intro q c hc
  rw [hs', Heap.cell_modify] at hc
  by_cases hq : q = p
  · rw [if_pos hq] at hc
    obtain ⟨c₀, hc₀, rfl⟩ := Option.map_eq_some_iff.mp hc
    obtain ⟨h₁, h₂⟩ := h p c₀ hc₀
    exact ⟨(hcls c₀).trans h₁, hs c₀ h₂⟩
  · rw [if_neg hq] at hc
    exact h q c hc

/-- A change to one client that keeps its connection does not show in the table. -/
theorem table_modify {f : Client → Client} (hs' : s'.heap = s.heap.modify p f)
    (hw : ∀ c, (f c).wsi = c.wsi) (hset : s'.WSClientSet = s.WSClientSet)
    (hlist : s'.g_WSClientSet = s.g_WSClientSet) (hinst : s'.g_Instance = s.g_Instance) :
    s'.table = s.table := by
  simp only [Server.table, hs', hset, hlist, hinst, Heap.map_modify hw]

/-- The program ends without a fault. -/
theorem Simulates.ok {m : ServerM ℤ} {r : ℤ} {t : Table} (h : m s = .ok r s')
    (ht : s'.table = t) (hp : Pages s') : Simulates m s t := .inl ⟨r, s', h, ht, hp⟩

/-! #### Callbacks of lws -/

variable (sdk : Sdk)

theorem simulates_established (h : Good s) :
    Simulates (do established wsi (s.WSClientSet wsi); pure 0) s (s.table.establish wsi) := by
  have htable : s.table.WSClientSet wsi = s.WSClientSet wsi := rfl
  cases hreg : s.WSClientSet wsi with
  | none =>
      rw [hreg] at htable
      simp only [Table.establish, htable]
      exact .ok (r := 0) rfl rfl h.pages
  | some p =>
      obtain ⟨c, hc, -, hcls, -⟩ := h.registered hreg
      rw [hreg] at htable
      simp only [Table.establish, htable]
      refine .ok (EStateM.bind_ok (established_spec hc)) ?_ ?_
      · simp only [Server.table, Server.opened, hcls, if_true]
        rw [Heap.map_modify]
        intro _
        rfl
      · exact h.pages.modify rfl (fun _ => rfl) fun _ _ h' => by cases h'

/-- A closing callback of a registered connection. -/
theorem simulates_closedBy {m : ServerM Unit} {obs : List Obs} (h : Good s)
    (hreg : s.WSClientSet wsi = some p) (hc : s.heap.cell p = some c)
    (hrun : m s = .ok () (s.closedBy wsi p c obs)) :
    Simulates (do m; pure 0) s (s.table.close wsi) := by
  have hcls := (h.pages p c hc).1
  have htable : s.table.WSClientSet wsi = some p := hreg
  refine .ok (EStateM.bind_ok hrun) ?_ fun q d hd => ?_
  · simp only [Table.close, htable]
    simp only [Server.table, Server.closedBy, hcls, if_true, Heap.map_free]
  · simp only [Server.closedBy, hcls, if_true, Heap.cell_free] at hd
    split at hd
    · cases hd
    · exact h.pages q d hd

/-- A closing callback of a connection that is not registered. -/
theorem simulates_erased {m : ServerM Unit} (h : Good s) (hreg : s.WSClientSet wsi = none)
    (hrun : m s = .ok () (s.erased wsi)) :
    Simulates (do m; pure 0) s (s.table.close wsi) := by
  have htable : s.table.WSClientSet wsi = none := hreg
  rw [erased_eq_self hreg] at hrun
  simp only [Table.close, htable]
  exact .ok (EStateM.bind_ok hrun) rfl h.pages

theorem simulates_lwsclose (h : Good s) (data : Option Bytes) :
    Simulates (do lwsclose wsi (s.WSClientSet wsi) data; pure 0) s (s.table.close wsi) := by
  cases hreg : s.WSClientSet wsi with
  | none => exact simulates_erased h hreg (lwsclose_none data)
  | some p =>
      obtain ⟨c, hc, hw, -, hopen⟩ := h.registered hreg
      exact simulates_closedBy h hreg hc (lwsclose_spec hc hw hopen data)

theorem simulates_connectionError (h : Good s) (data : Option Bytes) :
    Simulates (do connectionError wsi (s.WSClientSet wsi) data; pure 0) s
      (s.table.close wsi) := by
  cases hreg : s.WSClientSet wsi with
  | none => exact simulates_erased h hreg (connectionError_none data)
  | some p =>
      obtain ⟨c, hc, hw, -, -⟩ := h.registered hreg
      exact simulates_closedBy h hreg hc (connectionError_spec hc hw data)

theorem simulates_receive (h : Good s) (data : Option Bytes) :
    Simulates (do receive sdk (s.WSClientSet wsi) data; pure 0) s s.table := by
  cases hreg : s.WSClientSet wsi with
  | none => exact .ok (r := 0) rfl rfl h.pages
  | some p =>
      obtain ⟨c, hc, -, -, -⟩ := h.registered hreg
      obtain ⟨obs, version, -, hrun | ⟨result, hrun⟩ | hrun⟩ :=
        virtualOnMessage_cases hc sdk (data.getD [])
      · exact .ok (EStateM.bind_ok hrun) rfl h.pages
      · refine .ok (EStateM.bind_ok hrun) ?_ ?_
        · exact table_modify (s := s.ranCommand _ _ _ _) rfl (fun _ => rfl) rfl rfl rfl
        · exact Pages.modify (s := s.ranCommand _ _ _ _) h.pages rfl (fun _ => rfl) fun _ h' => h'
      · exact .inr ⟨_, _, EStateM.bind_error hrun, rfl⟩

theorem simulates_ws_write (h : Good s) (res : ℤ) :
    Simulates (ws_write wsi (s.WSClientSet wsi) res) s s.table := by
  cases hreg : s.WSClientSet wsi with
  | none => exact .ok (r := -1) rfl rfl h.pages
  | some p =>
      obtain ⟨c, hc, -, -, -⟩ := h.registered hreg
      obtain ⟨obs, hrun | ⟨queue, -, hrun⟩ | hrun⟩ := ws_write_cases wsi hc res
      · exact .ok hrun rfl h.pages
      · refine .ok hrun ?_ ?_
        · exact table_modify rfl (fun _ => rfl) rfl rfl rfl
        · exact h.pages.modify rfl (fun _ => rfl) fun _ h' => h'
      · exact .inr ⟨_, _, hrun, rfl⟩

theorem simulates_wsiCreate (h : Good s) :
    Simulates (do wsiCreate .UCClientWSServer wsi false; pure 0) s (s.table.create wsi) := by
  refine .ok (r := 0) rfl ?_ ?_
  · simp only [Server.table, Heap.map_alloc]
    rfl
  · intro q c hc
    rcases Heap.cases_of_alloc hc with ⟨-, rfl⟩ | hc
    · exact ⟨rfl, by simp⟩
    · exact h.pages q c hc

/-- A page connection is not deleted by `WSI_DESTROY`. -/
theorem simulates_wsiDestroy (h : Good s) :
    Simulates (do wsiDestroy (s.WSClientSet wsi); pure 0) s s.table := by
  cases hreg : s.WSClientSet wsi with
  | none => exact .ok (r := 0) rfl rfl h.pages
  | some p =>
      obtain ⟨c, hc, -, hcls, -⟩ := h.registered hreg
      have hrun : wsiDestroy (some p) s = .ok () s := by
        simp only [wsiDestroy, client_bind, hc, hcls, reduceCtorEq, if_false]
        rfl
      exact .ok (EStateM.bind_ok hrun) rfl h.pages

/-- **A callback of lws moves the table as the machine says.** -/
theorem simulates_lws (h : Good s) (wsi : Wsi) (reason : Reason) :
    Simulates (callback_lws .UCClientWSServer sdk wsi reason) s
      (s.table.step (.lws wsi reason)) := by
  cases reason with
  | ESTABLISHED => exact simulates_established h
  | CLIENT_ESTABLISHED => exact simulates_established h
  | CLIENT_CONNECTION_ERROR data => exact simulates_connectionError h data
  | CLOSED data => exact simulates_lwsclose h data
  | CLOSED_CLIENT_HTTP data => exact simulates_lwsclose h data
  | CLOSED_HTTP data => exact simulates_lwsclose h data
  | RECEIVE data => exact simulates_receive sdk h data
  | CLIENT_RECEIVE data => exact simulates_receive sdk h data
  | SERVER_WRITEABLE res => exact simulates_ws_write h res
  | CLIENT_WRITEABLE res => exact simulates_ws_write h res
  | WSI_CREATE hasUser =>
      cases hasUser with
      | false => exact simulates_wsiCreate h
      | true => exact .ok (r := 0) rfl rfl h.pages
  | WSI_DESTROY => exact simulates_wsiDestroy h
  | other => exact .ok (r := 0) rfl rfl h.pages

/-! #### Events and calls from inside -/

/-- Sending to listed clients does not show in the table. -/
theorem SentAll.table {ps : List ℕ} {buf : Bytes} (h : SentAll ps buf s s') :
    s'.table = s.table := by
  have hobjects : s'.heap.map Client.wsi = s.heap.map Client.wsi := by
    refine Heap.ext h.next fun q => ?_
    rw [Heap.cell_map, Heap.cell_map, h.cell, Option.map_map]
    rfl
  simp only [Server.table, hobjects, h.WSClientSet, h.g_WSClientSet, h.g_Instance]

theorem SentAll.pages {ps : List ℕ} {buf : Bytes} (h : SentAll ps buf s s') (hp : Pages s) :
    Pages s' := by
  intro q c hc
  rw [h.cell] at hc
  obtain ⟨c₀, hc₀, rfl⟩ := Option.map_eq_some_iff.mp hc
  exact hp q c₀ hc₀

theorem simulates_sdk (h : Good s) (depth : ℕ) (ev : SdkEvent) :
    Simulates (do CB depth ev; pure 0) s s.table := by
  obtain ⟨obs, -, hrun⟩ | ⟨this, buf, hrun⟩ | hrun | ⟨this, -, hi, hdead, -⟩ :=
    CB_run s depth ev
  · exact .ok (EStateM.bind_ok hrun) rfl h.pages
  · obtain ⟨s', hs', hall⟩ := forM_Send buf s.g_WSClientSet
      (s.observed (ev.alerted ++ [.handler this ev]))
      fun p hp => Heap.live_map.mp (h.table.live_listed hp)
    rw [hs'] at hrun
    exact .ok (EStateM.bind_ok hrun) hall.table (hall.pages h.pages)
  · exact .inr ⟨_, _, EStateM.bind_error hrun, rfl⟩
  · exact absurd (Heap.live_map.mp (h.table.instanced this hi)) hdead

/-- **The server refines the table**: every call made into it moves the table as the
machine says, or faults with something else than a bad pointer. -/
theorem program_simulates (h : Good s) {a : Action} (ha : a.ofServer s) :
    Simulates (a.program .UCClientWSServer sdk) s (s.table.step a) := by
  cases a with
  | lws wsi reason => exact simulates_lws sdk h wsi reason
  | sdk depth ev => exact simulates_sdk h depth ev
  | send p buf =>
      obtain ⟨c, hc⟩ := Heap.live_iff.mp ha
      refine .ok (EStateM.bind_ok (Send_spec hc buf)) ?_ ?_
      · exact table_modify rfl (fun _ => rfl) rfl rfl rfl
      · exact h.pages.modify rfl (fun _ => rfl) fun _ h' => h'
  | close p =>
      obtain ⟨c, hc⟩ := Heap.live_iff.mp ha
      have hrun := EStateM.bind_ok (f := fun _ => (pure 0 : ServerM ℤ)) (Close_spec hc)
      by_cases hw : s.canWrite c = true
      · have hheap := Server.closing_heap hw p
        refine .ok hrun (table_modify hheap (fun _ => rfl) rfl rfl rfl) ?_
        exact h.pages.modify hheap (fun _ => rfl) fun _ _ h' => by cases h'
      · rw [Server.closing_eq_self hw] at hrun
        exact .ok hrun rfl h.pages
  | construct => exact ha.elim
  | connect p connected => exact ha.elim
  | delete p => exact ha.elim

/-! ### Steps of the world -/

variable {w w' : World} {a : Action}

theorem before_simulates (h : Good w.server) (ha : a.ofServer w.server) :
    Simulates (a.program .UCClientWSServer sdk) (w.before a).server (w.server.table.step a) := by
  obtain ⟨writable, hbefore⟩ := w.before_server a
  have hact : a.ofServer { w.server with writable := writable } := by cases a <;> exact ha
  rw [hbefore]
  exact program_simulates (s := { w.server with writable := writable }) sdk
    ⟨h.table, h.pages⟩ hact

variable {sdk}

/-- **A step of the server is a move of its table.** -/
theorem step_table (h : Good w.server) (ha : a.ofServer w.server)
    (hst : World.step .UCClientWSServer sdk w a = .ok w') :
    w'.server.table = w.server.table.step a ∧ Good w'.server := by
  obtain ⟨r, s', hrun, rfl⟩ := World.step_ok hst
  obtain ⟨r', s'', hrun', hmove, hpages⟩ | ⟨f, s'', hrun', -⟩ :=
    before_simulates sdk h ha
  · rw [hrun] at hrun'
    cases hrun'
    rw [World.after_server]
    refine ⟨hmove, ?_, hpages⟩
    rw [hmove]
    exact h.table.step a
  · rw [hrun] at hrun'
    cases hrun'

/-- **No step of the server uses a bad pointer.** -/
theorem step_not_isPointer (h : Good w.server) (ha : a.ofServer w.server) {f : Fault}
    (hst : World.step .UCClientWSServer sdk w a = .error f) : f.isPointer = false := by
  rw [World.step] at hst
  obtain ⟨r, s', hrun, -, -⟩ | ⟨f', s', hrun, hf⟩ := before_simulates sdk h ha
  · rw [hrun] at hst
    cases hst
  · rw [hrun] at hst
    cases hst
    exact hf

/-- The life of the connection a callback is about. -/
theorem step_life (hst : World.step .UCClientWSServer sdk w a = .ok w')
    (ha : a.ofServer w.server) :
    w'.life = match a with
      | .lws wsi reason =>
          Function.update w.life wsi ((w.life wsi).next w.server.heap.next reason)
      | _ => w.life := by
  obtain ⟨r, s', -, rfl⟩ := World.step_ok hst
  cases a with
  | lws wsi reason => cases reason <;> rfl
  | sdk | send | close => rfl
  | construct | connect | delete => exact ha.elim

theorem Good.empty : Good {} where
  table := ⟨nofun, nofun, nofun⟩
  pages := nofun

end UCClient
