import UCClient.Dispatch
import UCClient.ServerTable

/-!
# Events While a Page Is Connected

An SDK event travels through the instance pointer: it reaches the pages of the broadcast
list only if `g_Instance` is set (`delivering_iff`). The two are maintained by different
code. Every constructor sets the instance and every destructor clears it, whichever
client it points to; the list follows `OnOpen` and the destructor of the listed client.

In the environment of this module lws calls back for any number of connections in any
order. A run then keeps delivering exactly as long as no page is closed while another one
is listed, and none is established while the instance is null (`instanceStays`).

## Main results

* `delivering_runs_iff`: a run delivers events in all its states exactly when its steps
  keep to `instanceStays`.
* `event_lost_twoPages`: two pages connect, one leaves: the other is still listed, and a
  call that comes in is not shown to it.
-/

namespace UCClient

open ServerM WebSocketClient CWinSDKBase

/-- The event, arriving in `s`, is put on the queue of every listed client, as one and the
same message that names it. -/
def Reaches (ev : SdkEvent) (s : Server) : Prop :=
  ∃ v : Value, v.member (bytes "event") = .ofLiteral ev.name ∧
    ∀ depth, ∃ s', CB depth ev s = .ok () s' ∧
      ∀ p ∈ s.g_WSClientSet, ∀ c, s.heap.cell p = some c → ∃ n,
        s'.heap.cell p = some
          { c with m_sendBuf := c.m_sendBuf ++ List.replicate (n + 1) (entry v.writeValue) }

/-- Events reach the pages: while one is listed the instance is set, and an event whose
dispatcher calls its handler is put on the queues. -/
structure Delivering (s : Server) : Prop where
  instanced : s.g_WSClientSet ≠ [] → s.g_Instance ≠ none
  reaches : ∀ ev : SdkEvent, ev.forwarded = true → Reaches ev s

/-- A page is established only while the instance is set, and a page is closed only while
no other one is listed. -/
def instanceStays (w : World) : Action → Prop
  | .lws wsi reason => ∀ p, w.server.WSClientSet wsi = some p →
      (reason.establishes = true → w.server.g_Instance ≠ none) ∧
        (reason.closes = true → ∀ q ∈ w.server.g_WSClientSet, q = p)
  | .sdk _ _ | .send _ _ | .close _ | .construct | .connect _ _ | .delete _ => True

instance (w : World) : ∀ a, Decidable (instanceStays w a)
  | .lws wsi reason =>
      match h : w.server.WSClientSet wsi with
      | none => .isTrue fun p hp => by rw [h] at hp; cases hp
      | some p => decidable_of_iff
          ((reason.establishes = true → w.server.g_Instance ≠ none) ∧
            (reason.closes = true → ∀ q ∈ w.server.g_WSClientSet, q = p))
          ⟨fun hc q hq => by
            obtain rfl : p = q := Option.some.inj (h.symm.trans hq)
            exact hc, fun hc => hc p h⟩
  | .sdk _ _ | .send _ _ | .close _ | .construct | .connect _ _ | .delete _ =>
      inferInstanceAs (Decidable True)

/-- The environment of this module: any callback may come at any time. -/
def anyCallback (_ : World) (_ : Wsi) (_ : Reason) : Prop := True

instance (w : World) (wsi : Wsi) (reason : Reason) : Decidable (anyCallback w wsi reason) :=
  inferInstanceAs (Decidable True)

/-! ### The instance decides -/

variable {s : Server} {ev : SdkEvent}

/-- Without an instance the event is dropped. -/
theorem CB_dropped (hfwd : ev.forwarded = true) (hi : s.g_Instance = none) (depth : ℕ) :
    CB depth ev s = .ok () (s.observed ev.alerted) := by
  obtain ⟨param, hparam⟩ := CB_forwarded hfwd
  have hi' : (s.observed ev.alerted).g_Instance = none := hi
  rw [hparam, toInstance, EStateM.get_bind]
  simp only [hi']
  rfl

theorem reaches_of_instance (h : Good s) (hfwd : ev.forwarded = true)
    (hinst : s.g_WSClientSet ≠ [] → s.g_Instance ≠ none) : Reaches ev s := by
  obtain ⟨param, hparam⟩ := CB_forwarded hfwd
  obtain ⟨v, hv, hev⟩ := eventValue_spec ev.name param
  refine ⟨v, hev.event, fun depth => ?_⟩
  cases hi : s.g_Instance with
  | none =>
      have hnil : s.g_WSClientSet = [] := by
        by_contra hne
        exact hinst hne hi
      refine ⟨_, CB_dropped hfwd hi depth, fun p hp => ?_⟩
      rw [hnil] at hp
      cases hp
  | some this =>
      have hthis : s.heap.Live this := Heap.live_map.mp (h.table.instanced this hi)
      have hlive : ∀ p ∈ s.g_WSClientSet, s.heap.Live p :=
        fun p hp => Heap.live_map.mp (h.table.live_listed hp)
      obtain ⟨s', hs', hall⟩ := CB_sentAll hparam hv hi hthis hlive
      refine ⟨s', hs' depth, fun p hp c hc => ?_⟩
      obtain ⟨n, hn⟩ := Nat.exists_eq_add_one.mpr (List.count_pos_iff.mpr hp)
      refine ⟨n, ?_⟩
      rw [hall.cell, ← hn]
      simp [Server.observed, hc]

/-- **Whether events reach the pages is a matter of the instance.** -/
theorem delivering_iff (h : Good s) :
    Delivering s ↔ (s.g_WSClientSet ≠ [] → s.g_Instance ≠ none) :=
  ⟨fun hd => hd.instanced, fun hinst => ⟨hinst, fun _ hfwd => reaches_of_instance h hfwd hinst⟩⟩

/-! ### Runs -/

/-- One callback keeps the instance exactly when it meets the condition. -/
theorem Table.instance_step_iff {t : Table} {wsi : Wsi} {reason : Reason}
    (h : t.g_WSClientSet ≠ [] → t.g_Instance ≠ none) :
    ((t.step (.lws wsi reason)).g_WSClientSet ≠ [] →
        (t.step (.lws wsi reason)).g_Instance ≠ none) ↔
      ∀ p, t.WSClientSet wsi = some p →
        (reason.establishes = true → t.g_Instance ≠ none) ∧
          (reason.closes = true → ∀ q ∈ t.g_WSClientSet, q = p) := by
  by_cases hest : reason.establishes = true
  · have hcl := Reason.not_closes_of_establishes hest
    rw [t.step_establishes hest]
    cases hreg : t.WSClientSet wsi with
    | none => exact iff_of_true (by simpa only [Table.establish, hreg] using h) (by simp)
    | some p => simp [Table.establish, hreg, hest, hcl]
  by_cases hcl : reason.closes = true
  · rw [t.step_closes hcl]
    cases hreg : t.WSClientSet wsi with
    | none => exact iff_of_true (by simpa only [Table.close, hreg] using h) (by simp)
    | some p => simp [Table.close, hreg, hest, hcl]
  refine iff_of_true ?_ fun _ _ => ⟨fun h' => absurd h' hest, fun h' => absurd h' hcl⟩
  by_cases hnew : reason = .WSI_CREATE false
  · subst hnew
    exact fun _ => Option.some_ne_none _
  · rw [t.step_stays hest hcl hnew]
    exact h

variable {sdk : Sdk} {w w' : World} {a : Action}

theorem good_reachable
    (h : (World.system .UCClientWSServer sdk (contract anyCallback)).Reachable w) :
    Good w.server :=
  h.invariant (I := fun w => Good w.server) .empty
    fun _ _ _ _ hgood hal hst => (step_table hgood (contract.ofServer hal) hst).2

theorem Delivering.step_iff (h : Delivering w.server) (hgood : Good w.server)
    (ha : contract anyCallback w a)
    (hst : World.step .UCClientWSServer sdk w a = .ok w') :
    Delivering w'.server ↔ instanceStays w a := by
  obtain ⟨htable, hgood'⟩ := step_table hgood ha.ofServer hst
  have hlist := congrArg Table.g_WSClientSet htable
  have hinst := congrArg Table.g_Instance htable
  change w'.server.g_WSClientSet = _ at hlist
  change w'.server.g_Instance = _ at hinst
  rw [delivering_iff hgood', hlist, hinst]
  cases a with
  | lws wsi reason => exact Table.instance_step_iff h.instanced
  | sdk | send | close | construct | connect | delete => exact iff_of_true h.instanced trivial

/-- **Events are delivered as long as the instance stays.** For any number of connections
and any order of callbacks, events and calls: events reach every listed page in all
states of a run exactly when no step of the run establishes a page without an instance or
closes one of several listed pages. -/
theorem delivering_runs_iff (sdk : Sdk) {as : List Action} {w : World}
    (h : (World.system .UCClientWSServer sdk (contract anyCallback)).Run as w) :
    (World.system .UCClientWSServer sdk (contract anyCallback)).AllStates as
        (fun w => Delivering w.server) ↔
      (World.system .UCClientWSServer sdk (contract anyCallback)).AllSteps as instanceStays :=
  StepSystem.allStates_iff_allSteps ((delivering_iff .empty).mpr fun h' => absurd rfl h')
    (fun _ _ _ hreach hP hal hst => hP.step_iff (good_reachable hreach) hal hst) h

/-- A page connects, leaves, and comes back: it is listed, and events reach it. -/
theorem delivering_onePage :
    ∃ as w, (World.system .UCClientWSServer silentSdk (contract anyCallback)).Run as w ∧
      (World.system .UCClientWSServer silentSdk (contract anyCallback)).AllStates as
        (fun w => Delivering w.server) ∧ w.server.g_WSClientSet = [1] := by
  obtain ⟨w, hrun, hlist⟩ := StepSystem.run_of_check_map
    (S := (World.system .UCClientWSServer silentSdk (contract anyCallback)).restrict
      instanceStays)
    (f := fun w => w.server.g_WSClientSet) (b := [1])
    [.lws 1 (.WSI_CREATE false), .lws 1 .ESTABLISHED, .lws 1 (.CLOSED none),
      .lws 1 (.WSI_CREATE false), .lws 1 .ESTABLISHED] (by decide)
  obtain ⟨hrun, hsteps⟩ := hrun.of_restrict
  exact ⟨_, w, hrun, (delivering_runs_iff silentSdk hrun).mpr hsteps, hlist⟩

/-- **Events are lost while a page is connected.** Two pages connect and the first one
leaves. The second is still listed but the instance is gone, and an incoming call puts
nothing on any queue. -/
theorem event_lost_twoPages :
    ∃ w, (World.system .UCClientWSServer silentSdk (contract anyCallback)).Run
        [.lws 1 (.WSI_CREATE false), .lws 1 .ESTABLISHED, .lws 2 (.WSI_CREATE false),
          .lws 2 .ESTABLISHED, .lws 1 (.CLOSED none)] w ∧
      w.server.g_WSClientSet = [1] ∧ w.server.g_Instance = none ∧
      ∀ depth, ∃ s', CB depth (.onIncomingCallReceived 0 0 (bytes "7") (bytes "100"))
        w.server = .ok () s' ∧ s'.heap = w.server.heap := by
  obtain ⟨w, hrun, hw⟩ := StepSystem.run_of_check_map
    (S := World.system .UCClientWSServer silentSdk (contract anyCallback))
    (f := fun w => (w.server.g_WSClientSet, w.server.g_Instance)) (b := ([1], none))
    [.lws 1 (.WSI_CREATE false), .lws 1 .ESTABLISHED, .lws 2 (.WSI_CREATE false),
      .lws 2 .ESTABLISHED, .lws 1 (.CLOSED none)] (by decide)
  obtain ⟨hlist, hinst⟩ := Prod.mk.inj hw
  exact ⟨w, hrun, hlist, hinst, fun depth => ⟨_, CB_dropped rfl hinst depth, rfl⟩⟩

end UCClient
