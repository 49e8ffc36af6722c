import UCClient.Closing
import UCClient.SendQueue

/-!
# The Send Queue of the Plugin

The plugin queues messages as the server does, and the queue of every client fits what was
sent and what lws took (`QueueInv`). `Close` does not wait for the queue: it marks the client
as closing, and the next `WRITEABLE` callback closes the connection without a look at what is
queued. What was taken over is compared as a stream of bytes; so an empty message that is left in
the queue counts as taken over.

## Main results

* `close_drains_iff`: what was sent to an open client before `Close` is taken over before the
  connection is closed exactly when nothing was left in the queue at the call of `Close`.
-/

namespace UCClient

open ServerM WebSocketClient Plugin

/-- `lws_write` takes at most what it is offered. -/
def takes (w : PluginWorld) : PluginAction → Prop
  | .lws wsi reason => partialWrites w.toWorld wsi reason
  | .construct | .setwsurl _ _ _ | .send _ _ | .close _ | .OnDestroy _ => True

instance (w : PluginWorld) : ∀ a, Decidable (takes w a)
  | .lws wsi reason => inferInstanceAs (Decidable (partialWrites w.toWorld wsi reason))
  | .construct | .setwsurl _ _ _ | .send _ _ | .close _ | .OnDestroy _ =>
      inferInstanceAs (Decidable True)

section Steps

variable {s s' : Server} {wsi : Wsi} {reason : Reason} {r : ℤ} {p : ℕ}

/-- What a callback of the plugin observes. -/
theorem CallbackEffect.trace (he : CallbackEffect s wsi reason r s') :
    s.trace <+: s'.trace := by
  cases he with
  | unregistered | erased | closing | ignored => exact List.prefix_rfl
  | opened | closed | received | refused | wrote => exact List.prefix_append ..

/-- **Every callback keeps the queues**, if `lws_write` takes no more than it is offered. -/
theorem QueueInv.callback (h : QueueInv s) (hb : Base s) (he : CallbackEffect s wsi reason r s')
    (htakes : ∀ res ∈ reason.result, ∀ e ∈ firstEntry s wsi, res ≤ (payload e).length) :
    QueueInv s' := by
  cases he with
  | unregistered | closing | ignored => exact h
  | opened => exact h.frame (.modify fun _ => rfl) rfl (by simp [Obs.dataOf])
  | closed hcl hreg hc hobs =>
      refine h.frame ?_ rfl ?_
      · rw [hb.closedBy_heap hc]
        exact .modify fun _ => rfl
      · rcases hobs with rfl | rfl <;> simp [Obs.dataOf]
  | erased => exact h.quiet (.refl _) rfl
  | received => exact h.frame (.refl _) rfl (by simp [Obs.dataOf])
  | refused hr hreg hc hobs hq =>
      exact h.refused hc hobs (le_of_offered hreg hc (htakes _ hr)) hq
  | wrote hr hreg hc hs hobs hq =>
      exact h.wrote hc hobs (le_of_offered hreg hc (htakes _ hr)) hq _

/-- No callback of the plugin sends anything. -/
theorem CallbackEffect.sends (he : CallbackEffect s wsi reason r s') (q : ℕ) :
    sends q s'.trace = UCClient.sends q s.trace := by
  cases he with
  | unregistered | erased | closing | ignored => rfl
  | opened | received => exact sends_append.trans (List.append_nil _)
  | closed hcl hreg hc hobs =>
      refine sends_append.trans ?_
      rcases hobs with rfl | rfl <;> exact List.append_nil _
  | refused hr hreg hc hobs hq =>
      rw [Server.observed, sends_append, sends_onSend (writes_of_run hq), List.append_nil]
  | wrote hr hreg hc hs hobs hq =>
      rw [Server.wrote, sends_append, sends_onSend (writes_of_run hq), List.append_nil]

end Steps

/-- The queues fit the trace, and everything sent was short. -/
structure QueueWorld (w : World) : Prop where
  inv : QueueInv w.server
  short : ∀ p, ShortSends p w.server.trace

section World

variable {w : PluginWorld} {w' : World} {a : PluginAction}

/-- **One step keeps the queues and forgets nothing that was observed.** -/
theorem QueueWorld.step (h : QueueWorld w.toWorld) (hcycle : CycleWorld w.toWorld)
    (hal : Plugin.contract w a) (htakes : takes w a) (he : StepEffect w.toWorld a w') :
    QueueWorld w' ∧ w.server.trace <+: w'.server.trace := by
  -- the state does not count, only the heap and the trace
  have hquiet : ∀ {s' : Server}, SameQueues w.server.heap s'.heap → s'.trace = w.server.trace →
      QueueWorld { w.toWorld with server := s' } ∧ w.server.trace <+: s'.trace := by
    intro s' hheap htrace
    refine ⟨⟨h.inv.quiet hheap htrace, ?_⟩, ?_⟩
    · show ∀ p, ShortSends p s'.trace
      rw [htrace]
      exact h.short
    · exact htrace ▸ List.prefix_rfl
  cases he with
  | @lws wsi reason r s' he =>
      obtain ⟨writable, hbefore⟩ := w.toWorld.before_server (.lws wsi reason)
      rw [hbefore] at he
      have hinv : QueueInv { w.server with writable := writable } := ⟨h.inv.known, h.inv.tracked⟩
      refine ⟨⟨hinv.callback ⟨hcycle.inv.base.cls, hcycle.inv.base.registered⟩ he htakes, ?_⟩,
        he.trace⟩
      intro p m hm
      rw [World.after_server, he.sends] at hm
      exact h.short p m hm
  | constructed => exact hquiet (.alloc rfl) rfl
  | kept => exact ⟨h, List.prefix_rfl⟩
  | @attempted p url conn c d t hc hw ht hd =>
      have hnone : ∀ reason ∈ conn.callbacks, ∀ s : Server, ∀ res ∈ reason.result,
          ∀ e ∈ firstEntry s conn.wsi, res ≤ (payload e).length := by
        intro reason hr s res hres
        rw [Reason.result_of_duringConnect (hal.2.2.2 reason hr).1] at hres
        cases hres
      obtain ⟨-, -, hinv, hshort, htrace⟩ := (hcycle.inv.writable
          (Function.update w.server.writable conn.wsi false)).called
        (I := fun t => QueueInv t ∧ (∀ p, ShortSends p t.trace) ∧ w.server.trace <+: t.trace)
        hal.2.1 (hcycle.dead conn.wsi hal.2.2.1) (fun r hr => (hal.2.2.2 r hr).1)
        (by
          rintro reason hr u u' r hb ⟨hu, hushort, hutrace⟩ hue
          refine ⟨hu.callback hb hue (hnone reason hr u), ?_, hutrace.trans hue.trace⟩
          intro q m hm
          rw [hue.sends] at hm
          exact hushort q m hm)
        ⟨⟨h.inv.known, h.inv.tracked⟩, h.short, List.prefix_rfl⟩ ht
      exact ⟨⟨hinv.quiet (.modify fun _ => rfl) rfl, hshort⟩, htrace⟩
  | @sent p data c hc =>
      refine ⟨⟨h.inv.sent hc data, ?_⟩, List.prefix_append ..⟩
      intro q m hm
      rw [Server.sent, sends_append] at hm
      rcases List.mem_append.mp hm with hm | hm
      · exact h.short q m hm
      · obtain rfl : m = data := by
          by_cases hq : p = q
          · simpa [sends, hq] using hm
          · simp [sends, hq] at hm
        exact hal.2
  | closing hc => exact ⟨⟨h.inv.closing _ _, h.short⟩, List.prefix_rfl⟩
  | deleted hc => exact hquiet .free rfl

end World

theorem queueWorld_reachable {w : PluginWorld} (h : (system.restrict takes).Reachable w) :
    CycleWorld w.toWorld ∧ QueueWorld w.toWorld := by
  have hcycle : ∀ {w}, (system.restrict takes).Reachable w → CycleWorld w.toWorld := by
    rintro w ⟨as, hrun⟩
    exact cycleWorld_reachable ⟨as, hrun.of_restrict.1⟩
  refine ⟨hcycle h, h.invariant (I := fun w => QueueWorld w.toWorld) ⟨.empty, ?_⟩ ?_⟩
  · intro p m hm
    cases hm
  · intro w a w' hr hinv hal hst
    exact (hinv.step (hcycle hr) hal.1 hal.2 (step_effect (hcycle hr).inv.base hal.1 hst)).1

/-! ### What `Close` drops -/

/-- The connection is not closed by the peer, and no `lws_write` for it fails. -/
def Healthy (wsi : Wsi) : PluginAction → Prop
  | .lws v reason => v = wsi → reason.closes = false ∧ ∀ res ∈ reason.result, 0 < res
  | .construct | .setwsurl _ _ _ | .send _ _ | .close _ | .OnDestroy _ => True

/-- `wsi` is the connection of `p` after a run `as` to `w`, and `Close` is called. However
the run goes on, as long as the connection is healthy: when a `WRITEABLE` callback returns -1,
lws has taken over everything that was sent before the call. -/
def Drains (as : List PluginAction) (w : PluginWorld) (p : ℕ) (wsi : Wsi) : Prop :=
  ∀ bs w' res s', (∀ b ∈ bs, Healthy wsi b) →
    (system.restrict takes).Run (as ++ .close p :: bs) w' →
    (system.restrict takes).allowed w' (.lws wsi (.CLIENT_WRITEABLE res)) →
    Plugin.callback_lws wsi (.CLIENT_WRITEABLE res)
      (w'.toWorld.before (.lws wsi (.CLIENT_WRITEABLE res))).server = .ok (-1) s' →
    (sends p w.server.trace).flatten <+: accepted p w'.server.trace

section Theorem

variable {w w' : PluginWorld} {as bs : List PluginAction} {p : ℕ} {c : Client}

/-- What was observed is remembered. -/
theorem trace_remembered (h : (system.restrict takes).Run as w)
    (h' : (system.restrict takes).Run (as ++ bs) w') : w.server.trace <+: w'.server.trace := by
  refine h.later (I := fun u => w.server.trace <+: u.server.trace) List.prefix_rfl ?_ h'
  intro u b u' _ hr hu hal hst
  obtain ⟨hcycle, hqueue⟩ := queueWorld_reachable hr
  exact hu.trans (hqueue.step hcycle hal.1 hal.2 (step_effect hcycle.inv.base hal.1 hst)).2

/-- What lws has taken over stays taken over. -/
theorem accepted_mono {trace trace' : List Obs} (h : trace <+: trace') :
    accepted p trace <+: accepted p trace' := by
  obtain ⟨obs, rfl⟩ := h
  rw [accepted_append]
  exact List.prefix_append ..

/-- **`Close` waits for nothing.** After every run of any number of clients in which
`lws_write` takes at most what it is offered, `Close` is called on an open client. Everything
sent to the client before is taken over before a callback closes the connection, in every
healthy continuation, exactly when nothing was left in its queue at the call. -/
theorem close_drains_iff (h : (system.restrict takes).Run as w)
    (hc : w.server.heap.cell p = some c) (hw : c.wsi ≠ 0)
    (hreg : w.server.WSClientSet c.wsi = some p) (hopen : c.m_state = .OPEN) :
    Drains as w p c.wsi ↔ (c.m_sendBuf.map payload).flatten = [] := by
  obtain ⟨hcycle, hqueue⟩ := queueWorld_reachable ⟨as, h⟩
  have hconserved := (hqueue.inv.tracked p c hc (hqueue.short p)).aligned.flatten_eq
  have hcan : w.server.canWrite c = true := by simp [Server.canWrite, hreg, hw, hopen]
  constructor
  · intro hdrains
    -- the callback that `Close` asked for is the next thing that happens
    have hstep : Plugin.step w (.close p) =
        .ok { w with toWorld := { w.toWorld with server := w.server.closing p c } } := by
      rw [Plugin.step, ran, Close_spec hc]
    have hrun : (system.restrict takes).Run (as ++ [.close p]) _ :=
      h.snoc ⟨Heap.live_of_cell hc, trivial⟩ hstep
    have hcell : (w.server.closing p c).heap.cell p = some { c with m_state := .CLOSING } := by
      rw [Server.closing_heap hcan, Heap.cell_modify, if_pos rfl, hc]
      rfl
    have halive : (w.life c.wsi).alive = true := by
      have hfits := hcycle.inv.fits c.wsi p c hw hreg hc
      rw [hopen] at hfits
      by_contra hdead
      rw [hcycle.dead c.wsi (Bool.eq_false_iff.mpr hdead)] at hfits
      cases hfits
    have hcall := callback_lws_closing
      (s := (World.before { w.toWorld with server := w.server.closing p c }
        (.lws c.wsi (.CLIENT_WRITEABLE 0))).server) hreg hcell rfl 0
    have hdone := hdrains [] _ 0 _ (List.forall_mem_nil _) hrun ⟨⟨hw, halive⟩, ?_⟩ hcall
    · have hlen := hdone.length_le
      rw [← hconserved, List.length_append] at hlen
      refine List.eq_nil_of_length_eq_zero ?_
      have hsame : accepted p (w.server.closing p c).trace = accepted p w.server.trace := rfl
      rw [hsame] at hlen
      omega
    · intro res hres e _
      obtain rfl := Option.some.inj hres
      exact Int.natCast_nonneg _
  · intro hnil bs w' res s' _ hrun _ _
    rw [hnil, List.append_nil] at hconserved
    rw [← hconserved]
    exact accepted_mono (trace_remembered h hrun)

end Theorem

/-- Everything was taken over when `Close` is called. -/
theorem close_drains_empty :
    ∃ w c, (system.restrict takes).Run [.construct, .setwsurl 0 (bytes "ws://a/") { wsi := 1 },
        .lws 1 .CLIENT_ESTABLISHED, .send 0 [97, 98], .lws 1 (.CLIENT_WRITEABLE 1),
        .lws 1 (.CLIENT_WRITEABLE 1)] w ∧
      w.server.heap.cell 0 = some c ∧ sends 0 w.server.trace = [[97, 98]] ∧
      Drains [.construct, .setwsurl 0 (bytes "ws://a/") { wsi := 1 },
        .lws 1 .CLIENT_ESTABLISHED, .send 0 [97, 98], .lws 1 (.CLIENT_WRITEABLE 1),
        .lws 1 (.CLIENT_WRITEABLE 1)] w 0 c.wsi := by
  obtain ⟨w, hrun, hw⟩ := StepSystem.run_of_check_map (S := system.restrict takes)
    (f := fun w => (w.server.heap.cell 0, w.server.WSClientSet 1, sends 0 w.server.trace))
    (b := (some { cls := .ATLWSclient, wsi := 1, m_state := .OPEN }, some 0, [[97, 98]]))
    [.construct, .setwsurl 0 (bytes "ws://a/") { wsi := 1 }, .lws 1 .CLIENT_ESTABLISHED,
      .send 0 [97, 98], .lws 1 (.CLIENT_WRITEABLE 1), .lws 1 (.CLIENT_WRITEABLE 1)]
    (by decide +kernel)
  simp only [Prod.mk.injEq] at hw
  obtain ⟨hc, hreg, hsends⟩ := hw
  exact ⟨w, _, hrun, hc, hsends, (close_drains_iff hrun hc (by decide) hreg rfl).mpr rfl⟩

/-- A message is sent, and the client closed: the first `WRITEABLE` callback closes the
connection, and lws has taken over nothing. -/
theorem close_drops_message :
    ∃ w, (system.restrict takes).Run [.construct, .setwsurl 0 (bytes "ws://a/") { wsi := 1 },
        .lws 1 .CLIENT_ESTABLISHED, .send 0 [97, 98], .close 0, .lws 1 (.CLIENT_WRITEABLE 2)] w ∧
      w.failing 1 = true ∧ sends 0 w.server.trace = [[97, 98]] ∧
      accepted 0 w.server.trace = [] := by
  obtain ⟨w, hrun, hw⟩ := StepSystem.run_of_check_map (S := system.restrict takes)
    (f := fun w => (w.failing 1, sends 0 w.server.trace, accepted 0 w.server.trace))
    (b := (true, [[97, 98]], []))
    [.construct, .setwsurl 0 (bytes "ws://a/") { wsi := 1 }, .lws 1 .CLIENT_ESTABLISHED,
      .send 0 [97, 98], .close 0, .lws 1 (.CLIENT_WRITEABLE 2)] (by decide +kernel)
  simp only [Prod.mk.injEq] at hw
  exact ⟨w, hrun, hw⟩

end UCClient
