import UCClient.ControlWindow

/-!
# Window Messages

The events a page sees went through a queue of window messages, and their texts through strings
on the heap. Three things have to fit for this to be right, and they are the invariant
(`ControlInv`): a client gets a connection only while its control has a window, so that no
upcall is ever for a window that is not there (`WindowInv`); each string belongs to one message
(`Mail.Owned`); and the messages in the queue of a window are those of the upcalls of its client
that were posted and not handled yet.

Windows may refuse a message, and what is refused is missed. All results hold whichever it
refuses; that nothing is missed is said of runs in which it refuses none (`ControlAction.Accepted`).

What one action of the plugin does to the clients, and whom its upcalls reach, is said once
(`Plugin.StepEffect.reaches`); what some upcalls do to the queues, in `Upcalled`; what handling
one message does, in `ControlInv.dispatch_eq` and `handling_ok`.

## Main results

* `window_message_handled_iff`: when the handler of a window message ends.
* `window_messages_in_order`: the page sees the upcalls that were posted in order, each once.
* `readyState_not_behind`: the state of a client is never behind the events the page has seen.
* `late_handlers_miss_nothing`: functions may be set after the connection is established.
* `strings_kept_iff`: strings are lost with refused messages and destroyed windows only.
-/

namespace UCClient

open Plugin

/-! ### What a step of the plugin does to the clients -/

/-- What an action does to the clients and the connections they remember. -/
inductive ClientsEffect (clients : Heap Wsi) : PluginAction → Heap Wsi → Prop
  | kept {a : PluginAction} (ha : ∀ p, a ≠ .OnDestroy p) : ClientsEffect clients a clients
  | constructed : ClientsEffect clients .construct (clients.alloc 0)
  | connected {p : ℕ} {url : Bytes} {conn : Connect} {wsi : Wsi} :
      ClientsEffect clients (.setwsurl p url conn) (clients.modify p fun _ => wsi)
  | deleted {p : ℕ} : ClientsEffect clients (.OnDestroy p) (clients.free p)

/-- The upcalls among some observations are of clients with a connection. -/
def UpcallsReach (clients : Heap Wsi) (obs : List Obs) : Prop :=
  ∀ o ∈ obs, ∀ p, o.upcallOf = some p → ∃ wsi, clients.cell p = some wsi ∧ wsi ≠ 0

section Plugin

variable {s s' : Server} {wsi : Wsi} {reason : Reason} {r : ℤ}

theorem upcallsReach_of_quiet {clients : Heap Wsi} {obs : List Obs}
    (h : ∀ o ∈ obs, o.upcallOf = none) : UpcallsReach clients obs := by
  intro o ho p hp
  rw [h o ho] at hp
  cases hp

theorem UpcallsReach.append {clients : Heap Wsi} {obs obs' : List Obs}
    (h : UpcallsReach clients obs) (h' : UpcallsReach clients obs') :
    UpcallsReach clients (obs ++ obs') := by
  intro o ho
  rcases List.mem_append.mp ho with ho | ho
  · exact h o ho
  · exact h' o ho

/-- The upcalls of one client with a connection. -/
theorem upcallsReach_of_cell {p : ℕ} {c : Client} {obs : List Obs} (hc : s.heap.cell p = some c)
    (hw : c.wsi ≠ 0) (h : ∀ o ∈ obs, o.upcallOf = some p) :
    UpcallsReach (s.heap.map Client.wsi) obs := by
  intro o ho q hq
  obtain rfl : p = q := Option.some.inj ((h o ho).symm.trans hq)
  exact ⟨c.wsi, by rw [Heap.cell_map, hc]; rfl, hw⟩

/-- The upcalls of a callback are of a client with a connection. -/
theorem CallbackEffect.reaches (hb : Base s) (hw : wsi ≠ 0)
    (he : CallbackEffect s wsi reason r s') :
    ∃ obs, s'.trace = s.trace ++ obs ∧ UpcallsReach (s.heap.map Client.wsi) obs := by
  have hnone : ∃ obs, s.trace = s.trace ++ obs ∧ UpcallsReach (s.heap.map Client.wsi) obs :=
    ⟨[], (List.append_nil _).symm, upcallsReach_of_quiet fun o ho => by cases ho⟩
  have hclient : ∀ {p c}, s.WSClientSet wsi = some p → s.heap.cell p = some c → c.wsi ≠ 0 := by
    intro p c hreg hc
    rw [hb.eq_wsi hc hw hreg]
    exact hw
  cases he with
  | unregistered | erased | closing | ignored => exact hnone
  | opened hest hreg hc =>
      exact ⟨_, rfl, upcallsReach_of_cell hc (hclient hreg hc) (by simp [Obs.upcallOf])⟩
  | closed hcl hreg hc hobs =>
      refine ⟨_, rfl, upcallsReach_of_cell hc (hclient hreg hc) ?_⟩
      rcases hobs with rfl | rfl <;> simp [Obs.upcallOf]
  | received hr hreg hc =>
      exact ⟨_, rfl, upcallsReach_of_cell hc (hclient hreg hc) (by simp [Obs.upcallOf])⟩
  | refused hr hreg hc hobs hq => exact ⟨_, rfl, upcallsReach_of_quiet (upcallOf_of_write hobs)⟩
  | wrote hr hreg hc hs hobs hq => exact ⟨_, rfl, upcallsReach_of_quiet (upcallOf_of_write hobs)⟩

/-- **What every action does to the clients, and whom its upcalls reach.** -/
theorem Plugin.StepEffect.reaches {w : PluginWorld} {w' : World} {a : PluginAction}
    (h : CycleWorld w.toWorld) (hal : Plugin.contract w a) (he : StepEffect w.toWorld a w') :
    ClientsEffect (w.server.heap.map Client.wsi) a (w'.server.heap.map Client.wsi) ∧
      ∃ obs, w'.server.trace = w.server.trace ++ obs ∧
        UpcallsReach (w.server.heap.map Client.wsi) obs := by
  have hnone : ∃ obs, w.server.trace = w.server.trace ++ obs ∧
      UpcallsReach (w.server.heap.map Client.wsi) obs :=
    ⟨[], (List.append_nil _).symm, upcallsReach_of_quiet fun o ho => by cases ho⟩
  cases he with
  | @lws wsi reason r s' he =>
      obtain ⟨writable, hbefore⟩ := w.toWorld.before_server (.lws wsi reason)
      have hb := h.inv.base.before rfl (.lws wsi reason)
      have hreaches := he.reaches hb hal.1
      have hclients := he.clients hb
      rw [hbefore] at hreaches hclients
      refine ⟨?_, hreaches⟩
      rw [World.after_server, hclients]
      exact .kept (by simp)
  | constructed =>
      refine ⟨?_, hnone⟩
      rw [Heap.map_alloc]
      exact .constructed
  | kept => exact ⟨.kept (by simp), hnone⟩
  | @attempted p url conn c d t hc hw ht hd =>
      -- what holds when lws is asked for the connection, and after each callback it makes
      let I : Server → Prop := fun t => t.heap.map Client.wsi = w.server.heap.map Client.wsi ∧
        ∃ obs, t.trace = w.server.trace ++ obs ∧ UpcallsReach (w.server.heap.map Client.wsi) obs
      have hkept : ∀ reason ∈ conn.callbacks, ∀ t t' r, Base t → I t →
          CallbackEffect t conn.wsi reason r t' → I t' := by
        rintro reason - t t' r hb ⟨hsame, obs, htrace, hreaches⟩ he
        obtain ⟨obs', htrace', hreaches'⟩ := he.reaches hb hal.2.1
        rw [hsame] at hreaches'
        refine ⟨(he.clients hb).trans hsame, obs ++ obs', ?_, hreaches.append hreaches'⟩
        rw [htrace', htrace, List.append_assoc]
      have hinv := h.inv.writable (Function.update w.server.writable conn.wsi false)
      obtain ⟨-, -, hclients, hreaches⟩ := hinv.called hal.2.1 (h.dead conn.wsi hal.2.2.1)
        (fun r hr => (hal.2.2.2 r hr).1) hkept ⟨rfl, hnone⟩ ht
      refine ⟨?_, hreaches⟩
      rw [connected_clients, hclients]
      exact .connected
  | sent hc =>
      refine ⟨?_, _, rfl, upcallsReach_of_quiet (by simp [Obs.upcallOf])⟩
      rw [sent_clients]
      exact .kept (by simp)
  | closing hc =>
      refine ⟨?_, hnone⟩
      rw [closing_clients]
      exact .kept (by simp)
  | deleted hc =>
      refine ⟨?_, hnone⟩
      show ClientsEffect _ _ ((w.server.heap.free _).map Client.wsi)
      rw [Heap.map_free]
      exact .deleted

end Plugin

/-! ### Upcalls become window messages -/

/-- What the window message of an upcall says. -/
def Obs.letter : Obs → Option (WindowMessage × Option Bytes)
  | .OnOpen _ => some (.WM_onOpen, none)
  | .OnClose _ errorCode => some (.WM_onClose, some errorCode)
  | .OnError _ errorCode => some (.WM_onError, some errorCode)
  | .OnMessage _ message => some (.WM_onMessage, some message)
  | _ => none

/-- What some upcalls leave behind: the messages that were `taken` are at the ends of their
queues, those `rejected` are missed with their strings, and there are no others. -/
structure Upcalled (w : ControlWorld) (obs : List Obs) (taken : ℕ → List Obs)
    (rejected : List Obs) (w' : ControlWorld) : Prop where
  world : ∃ mail lost, w' = { w with
    mail := mail, lost := lost
    posted := fun p => w.posted p ++ taken p, refused := w.refused ++ rejected }
  owned : w'.mail.Owned w'.lost
  contents : ∀ p, w'.mail.contents p = w.mail.contents p ++ (taken p).map Obs.letter
  sublist : ∀ p, (taken p).Sublist (upcalls p obs)
  perm : ∀ p, (taken p ++ upcalls p rejected).Perm (upcalls p obs)
  live : ∀ p, w.window p ≠ .live → taken p = []
  lost : w'.lost = [] ↔ w.lost = [] ∧ ∀ o ∈ rejected, ∃ p, o = .OnOpen p

section Upcalled

variable {w w' w'' : ControlWorld} {p : ℕ} {obs obs' : List Obs} {taken taken' : ℕ → List Obs}
  {rejected rejected' : List Obs}

theorem upcalls_singleton {o : Obs} {q : ℕ} (ho : o.upcallOf = some q) (p : ℕ) :
    upcalls p [o] = if q = p then [o] else [] := by
  by_cases hq : q = p <;> simp [upcalls, ho, hq]

/-- Two pairs of lists are put together part by part. -/
theorem perm_append_parts {α : Type} (a b c d : List α) :
    (a ++ b ++ (c ++ d)).Perm (a ++ c ++ (b ++ d)) := by
  simp only [List.append_assoc]
  exact List.Perm.append_left _ (List.perm_append_comm_assoc ..)

theorem Upcalled.nil (howned : w.mail.Owned w.lost) : Upcalled w [] (fun _ => []) [] w where
  world := ⟨w.mail, w.lost, by simp⟩
  owned := howned
  contents p := (List.append_nil _).symm
  sublist p := List.Sublist.refl []
  perm p := List.Perm.refl []
  live p _ := rfl
  lost := by simp

theorem Upcalled.append (h : Upcalled w obs taken rejected w')
    (h' : Upcalled w' obs' taken' rejected' w'') :
    Upcalled w (obs ++ obs') (fun p => taken p ++ taken' p) (rejected ++ rejected') w'' := by
  obtain ⟨mail, lost, hw'⟩ := h.world
  obtain ⟨mail', lost', hw''⟩ := h'.world
  have hwindow : w'.window = w.window := by rw [hw']
  refine ⟨⟨mail', lost', ?_⟩, h'.owned, fun p => ?_, fun p => ?_, fun p => ?_, fun p hp => ?_, ?_⟩
  · rw [hw'', hw']
    simp only [List.append_assoc]
  · rw [h'.contents, h.contents, List.map_append, List.append_assoc]
  · rw [upcalls_append]
    exact (h.sublist p).append (h'.sublist p)
  · rw [upcalls_append, upcalls_append]
    exact (perm_append_parts ..).trans ((h.perm p).append (h'.perm p))
  · rw [h.live p hp, h'.live p (hwindow ▸ hp)]
    rfl
  · rw [h'.lost, h.lost, List.forall_mem_append, and_assoc]

/-- An upcall posts its message; only that of `OnOpen` has no string. -/
theorem upcall_eq {o : Obs} (h : o.upcallOf = some p) (accepted : Bool) :
    ∃ msg param, o.letter = some (msg, param) ∧ (param = none ↔ ∃ p, o = .OnOpen p) ∧
      ATLWSclient.upcall w accepted o = ATLWSclient.PostMessage w accepted p o msg param := by
  cases o with
  | OnOpen | OnClose | OnError | OnMessage =>
      cases h
      exact ⟨_, _, rfl, by simp, rfl⟩
  | _ => cases h

/-- A message is taken. -/
theorem Upcalled.ofTaken {o : Obs} (howned : w.mail.Owned w.lost) (ho : o.upcallOf = some p)
    (hlive : w.window p = .live) :
    Upcalled w [o] (fun q => if p = q then [o] else []) [] (ATLWSclient.upcall w true o) := by
  obtain ⟨msg, param, hletter, -, hpost⟩ := upcall_eq (w := w) ho true
  rw [hpost, ATLWSclient.PostMessage, if_pos ⟨rfl, hlive⟩]
  refine ⟨⟨w.mail.post p msg param, w.lost, ?_⟩, howned.post p msg param, fun q => ?_,
    fun q => ?_, fun q => ?_, fun q hq => ?_, by simp⟩
  · have hposted : Function.update w.posted p (w.posted p ++ [o]) =
        fun q => w.posted q ++ if p = q then [o] else [] := by
      funext q
      by_cases hq : p = q
      · subst hq
        rw [Function.update_self, if_pos rfl]
      · rw [Function.update_of_ne (Ne.symm hq), if_neg hq, List.append_nil]
    rw [hposted, List.append_nil]
  · by_cases hq : p = q
    · subst hq
      rw [if_pos rfl, Mail.contents_post_self howned, List.map_cons, List.map_nil, hletter]
    · rw [if_neg hq, Mail.contents_post_other howned param (Ne.symm hq)]
      exact (List.append_nil _).symm
  · rw [upcalls_singleton ho]
  · rw [upcalls_singleton ho]
    exact (List.append_nil _).symm ▸ List.Perm.refl _
  · rw [if_neg]
    rintro rfl
    exact hq hlive

/-- A message is not taken, and its string is lost. -/
theorem Upcalled.ofRefused {o : Obs} {accepted : Bool} (howned : w.mail.Owned w.lost)
    (ho : o.upcallOf = some p) (hno : ¬ (accepted = true ∧ w.window p = .live)) :
    Upcalled w [o] (fun _ => []) [o] (ATLWSclient.upcall w accepted o) := by
  obtain ⟨msg, param, -, hopen, hpost⟩ := upcall_eq (w := w) ho accepted
  rw [hpost, ATLWSclient.PostMessage, if_neg hno]
  refine ⟨⟨_, _, by simp only [List.append_nil]; rfl⟩, ?_, fun q => ?_, fun q => List.nil_sublist _,
    fun q => List.Perm.refl _, fun q _ => rfl, ?_⟩
  · cases param with
    | none => simpa using howned
    | some text => exact howned.leak text
  · rw [List.map_nil, List.append_nil]
    cases param with
    | none => rfl
    | some text => exact Mail.contents_leak howned text q
  · rw [List.forall_mem_singleton, ← hopen, List.append_eq_nil_iff]
    cases param <;> simp

/-- **What upcalls do to the queues.** If the outcomes are all good and the windows are there,
nothing is rejected. -/
theorem upcalled_spec (howned : w.mail.Owned w.lost) (accepted : List Bool) (obs : List Obs) :
    ∃ taken rejected, Upcalled w obs taken rejected (ATLWSclient.upcalled w accepted obs) ∧
      (false ∉ accepted → (∀ o ∈ obs, ∀ p, o.upcallOf = some p → w.window p = .live) →
        rejected = []) := by
  induction obs generalizing w accepted with
  | nil => exact ⟨_, _, .nil howned, fun _ _ => rfl⟩
  | cons o obs ih =>
      rw [ATLWSclient.upcalled]
      cases ho : o.upcallOf with
      | none =>
          rw [if_pos rfl]
          obtain ⟨taken, rejected, h, hall⟩ := ih howned accepted
          have hcalls : ∀ p, upcalls p (o :: obs) = upcalls p obs := fun p => by
            simp [upcalls, ho]
          refine ⟨taken, rejected, ⟨h.world, h.owned, h.contents, fun p => ?_, fun p => ?_, h.live,
            h.lost⟩, fun hgood hlive => hall hgood fun o' ho' => hlive o' (.tail _ ho')⟩
          · rw [hcalls]
            exact h.sublist p
          · rw [hcalls]
            exact h.perm p
      | some p =>
          rw [if_neg (by simp)]
          by_cases hok : accepted.headD true = true ∧ w.window p = .live
          · have hfirst := Upcalled.ofTaken howned ho hok.2
            rw [hok.1]
            obtain ⟨mail, lost, hw'⟩ := hfirst.world
            obtain ⟨taken, rejected, h, hall⟩ := ih hfirst.owned accepted.tail
            refine ⟨_, _, hfirst.append h, fun hgood hlive => ?_⟩
            refine hall (fun hmem => hgood (List.mem_of_mem_tail hmem)) fun o' ho' q hq => ?_
            rw [hw']
            exact hlive o' (.tail _ ho') q hq
          · have hfirst := Upcalled.ofRefused howned ho hok
            obtain ⟨taken, rejected, h, -⟩ := ih hfirst.owned accepted.tail
            refine ⟨_, _, hfirst.append h, fun hgood hlive => ?_⟩
            refine absurd ⟨?_, hlive o List.mem_cons_self p ho⟩ hok
            cases accepted with
            | nil => rfl
            | cons b rest =>
                cases b with
                | true => rfl
                | false => exact absurd List.mem_cons_self hgood

end Upcalled

/-! ### Windows and clients -/

/-- A window that is there has its client; a client without a window has no connection; and the
client of a window that was destroyed is gone. -/
structure WindowInv (clients : Heap Wsi) (window : ℕ → Window) : Prop where
  live : ∀ p, window p = .live → clients.Live p
  idle : ∀ p wsi, window p = .none → clients.cell p = some wsi → wsi = 0
  gone : ∀ p, window p = .destroyed → clients.cell p = none ∧ p < clients.next

section Windows

variable {clients clients' : Heap Wsi} {window : ℕ → Window} {a : PluginAction} {p : ℕ}

/-- Upcalls are for windows that are there. -/
theorem WindowInv.reaches (h : WindowInv clients window) {obs : List Obs}
    (hobs : UpcallsReach clients obs) : ∀ o ∈ obs, ∀ p, o.upcallOf = some p → window p = .live := by
  intro o ho p hp
  obtain ⟨wsi, hcell, hne⟩ := hobs o ho p hp
  cases hwin : window p with
  | none => exact absurd (h.idle p wsi hwin hcell) hne
  | live => rfl
  | destroyed =>
      rw [(h.gone p hwin).1] at hcell
      cases hcell

theorem WindowInv.constructed (h : WindowInv clients window) :
    WindowInv (clients.alloc 0) window := by
  refine ⟨fun p hp => ?_, fun p wsi hp hcell => ?_, fun p hp => ?_⟩
  · exact Heap.live_alloc.mpr (.inr (h.live p hp))
  · rcases Heap.cases_of_alloc hcell with ⟨-, rfl⟩ | hcell
    · rfl
    · exact h.idle p wsi hp hcell
  · obtain ⟨hcell, hlt⟩ := h.gone p hp
    refine ⟨?_, Nat.lt_succ_of_lt hlt⟩
    rw [Heap.cell_alloc, if_neg (Nat.ne_of_lt hlt)]
    exact hcell

/-- The client of a window that is there gets a connection. -/
theorem WindowInv.connected (h : WindowInv clients window) (hp : window p = .live) (wsi : Wsi) :
    WindowInv (clients.modify p fun _ => wsi) window := by
  have hne : ∀ {q}, window q ≠ .live → q ≠ p := by
    rintro q hq rfl
    exact hq hp
  refine ⟨fun q hq => ?_, fun q wsi' hq hcell => ?_, fun q hq => ?_⟩
  · exact Heap.live_modify.mpr (h.live q hq)
  · rw [Heap.cell_modify, if_neg (hne (by simp [hq]))] at hcell
    exact h.idle q wsi' hq hcell
  · rw [Heap.cell_modify, if_neg (hne (by simp [hq]))]
    exact h.gone q hq

/-- A window is destroyed, and its client is gone. -/
theorem WindowInv.deleted (h : WindowInv clients window) (hp : window p = .live) :
    WindowInv (clients.free p) (Function.update window p .destroyed) := by
  have hlt : p < clients.next := by
    obtain ⟨wsi, hcell⟩ := Heap.live_iff.mp (h.live p hp)
    exact Heap.lt_next_of_cell hcell
  have hcase : ∀ q, q = p ∧ Function.update window p .destroyed q = .destroyed ∨
      q ≠ p ∧ Function.update window p .destroyed q = window q := by
    intro q
    by_cases hq : q = p
    · exact .inl ⟨hq, by rw [hq, Function.update_self]⟩
    · exact .inr ⟨hq, Function.update_of_ne hq ..⟩
  refine ⟨fun q hq => ?_, fun q wsi hq hcell => ?_, fun q hq => ?_⟩
  all_goals
    rcases hcase q with ⟨rfl, hwin⟩ | ⟨hne, hwin⟩
    all_goals rw [hwin] at hq
  · cases hq
  · rw [Heap.Live, Heap.cell_free, if_neg hne]
    exact h.live q hq
  · cases hq
  · rw [Heap.cell_free, if_neg hne] at hcell
    exact h.idle q wsi hq hcell
  · rw [Heap.cell_free, if_pos rfl]
    exact ⟨rfl, hlt⟩
  · rw [Heap.cell_free, if_neg hne]
    exact h.gone q hq

/-- The windows after an action of the plugin. -/
def PluginAction.windows (window : ℕ → Window) : PluginAction → ℕ → Window
  | .OnDestroy p => Function.update window p .destroyed
  | .lws _ _ | .construct | .setwsurl _ _ _ | .send _ _ | .close _ => window

/-- **One action of the plugin keeps windows and clients together.** -/
theorem WindowInv.plugin (h : WindowInv clients window)
    (hlive : ∀ p ∈ a.control, window p = .live) (he : ClientsEffect clients a clients') :
    WindowInv clients' (a.windows window) := by
  cases he with
  | kept ha =>
      cases a with
      | OnDestroy p => exact absurd rfl (ha p)
      | lws | construct | setwsurl | send | close => exact h
  | constructed => exact h.constructed
  | connected => exact h.connected (hlive _ rfl) _
  | deleted => exact h.deleted (hlive _ rfl)

/-- A control gets its window. -/
theorem WindowInv.made (h : WindowInv clients window) (hp : clients.Live p) :
    WindowInv clients (Function.update window p .live) := by
  refine ⟨fun q hq => ?_, fun q wsi hq => ?_, fun q hq => ?_⟩
  all_goals by_cases hne : q = p
  · rwa [hne]
  · rw [Function.update_of_ne hne] at hq
    exact h.live q hq
  · rw [hne, Function.update_self] at hq
    cases hq
  · rw [Function.update_of_ne hne] at hq
    exact h.idle q wsi hq
  · rw [hne, Function.update_self] at hq
    cases hq
  · rw [Function.update_of_ne hne] at hq
    exact h.gone q hq

end Windows

/-! ### One message is handled -/

section Fire

open CATLWebSocket

variable {w w' : ControlWorld} {p : ℕ} {site : Site} {sets : Bool} {event : Obs}

/-- The function for an event can be called: there is none, or there are the script engine and
the object it needs. -/
def Callable (w : ControlWorld) (p : ℕ) (site : Site) (sets : Bool) (event : Obs) : Prop :=
  (w.handlers p).function event ≠ none →
    (w.m_Script p = true ∨ site.script = true) ∧ (sets = true → site.object = true)

/-- A handler ends where its function can be called, and then its message is done. -/
theorem fire_spec (w : ControlWorld) (p : ℕ) (site : Site) (sets : Bool) (event : Obs) :
    Callable w p site sets event ∧
        (∃ script, fire w p site sets event = .ok (finish { w with m_Script := script } p event)) ∨
      ¬ Callable w p site sets event ∧ fire w p site sets event = .error .nullObject := by
  rw [Callable, fire]
  cases (w.handlers p).function event with
  | none => exact .inl ⟨fun h => absurd rfl h, w.m_Script, rfl⟩
  | some f =>
      rw [invoke]
      split_ifs with hscript hobject
      · rw [Bool.or_eq_false_iff] at hscript
        exact .inr ⟨by simp [hscript], rfl⟩
      · rw [Bool.and_eq_true, Bool.not_eq_true'] at hobject
        exact .inr ⟨by simp [hobject], rfl⟩
      · refine .inl ⟨fun _ => ⟨?_, ?_⟩, _, rfl⟩
        · cases hm : w.m_Script p <;> simp_all
        · cases ho : site.object <;> simp_all

/-- The text can be looked at for its type. -/
def Loggable (message : Bytes) : Prop :=
  ∀ root, Reader.parse message = some root → root.indexable = true

theorem logType_iff (message : Bytes) : logType message = .ok () ↔ Loggable message := by
  rw [logType, Loggable]
  cases Reader.parse message with
  | none => simp
  | some root =>
      have hindex : (root.index (bytes "type")).map (fun _ => ()) = .ok () ↔
          root.indexable = true := by
        cases root with
        | object ms =>
            simp only [Value.index, Value.indexable, iff_true]
            cases Value.find ms (bytes "type") <;> rfl
        | null => exact iff_of_true rfl rfl
        | _ => exact iff_of_false (by simp [Value.index, Except.map]) Bool.false_ne_true
      simpa using hindex

/-- What the window does for an upcall. -/
def handling (w : ControlWorld) (p : ℕ) (site : Site) : Obs → Except ControlStop ControlWorld
  | .OnMessage _ message => onMessage w p message site
  | event => fire w p site false event

/-- The handler of an upcall ends. -/
def Handles (w : ControlWorld) (p : ℕ) (site : Site) : Obs → Prop
  | .OnMessage _ message => Loggable message ∧ Callable w p site true (.OnMessage p message)
  | event => Callable w p site false event

theorem handling_ok_iff (hp : event.upcallOf = some p) :
    (∃ w', handling w p site event = .ok w') ↔ Handles w p site event := by
  have hfire : ∀ sets event, (∃ w', fire w p site sets event = .ok w') ↔
      Callable w p site sets event := by
    intro sets event
    rcases fire_spec w p site sets event with ⟨hcall, script, h⟩ | ⟨hcall, h⟩
    · exact iff_of_true ⟨_, h⟩ hcall
    · exact iff_of_false (by simp [h]) hcall
  cases event with
  | OnMessage q message =>
      cases hp
      rw [handling, onMessage, Handles, ← logType_iff, ← hfire]
      cases hlog : logType message with
      | error f => exact iff_of_false (by simp [Except.mapError, Bind.bind, Except.bind]) (by simp)
      | ok u => exact (and_iff_right rfl).symm
  | _ => exact hfire false _

/-- What a handler that ends leaves behind. -/
theorem handling_ok (hp : event.upcallOf = some p) (h : handling w p site event = .ok w') :
    ∃ script, w' = finish { w with m_Script := script } p event := by
  have hfire : ∀ {sets event}, fire w p site sets event = .ok w' →
      ∃ script, w' = finish { w with m_Script := script } p event := by
    intro sets event h
    rcases fire_spec w p site sets event with ⟨-, script, hok⟩ | ⟨-, herr⟩
    · rw [hok] at h
      exact ⟨script, (Except.ok.inj h).symm⟩
    · rw [herr] at h
      cases h
  cases event with
  | OnMessage q message =>
      cases hp
      rw [handling, onMessage] at h
      cases hlog : logType message with
      | error f =>
          rw [hlog] at h
          cases h
      | ok u =>
          rw [hlog] at h
          exact hfire h
  | _ => exact hfire h

end Fire

/-! ### The invariant -/

/-- What holds in every state: windows and clients fit together, every string is in one message
or lost, every upcall was posted or refused, and the messages of a window are the upcalls that
were posted and not handled yet. -/
structure ControlInv (w : ControlWorld) : Prop where
  cycle : CycleWorld w.toWorld
  windows : WindowInv (w.server.heap.map Client.wsi) w.window
  owned : w.mail.Owned w.lost
  blank : ∀ p, w.window p ≠ .live → w.mail.contents p = []
  sublist : ∀ p, (w.posted p).Sublist (upcalls p w.server.trace)
  perm : ∀ p, (w.posted p ++ upcalls p w.refused).Perm (upcalls p w.server.trace)
  seen : ∀ p, (w.fired p).map Fired.event <+: w.posted p
  pending : ∀ p, w.window p = .live → ∃ pending, w.mail.contents p = pending.map Obs.letter ∧
    (w.fired p).map Fired.event ++ pending = w.posted p

section Step

open CATLWebSocket

variable {w w' : ControlWorld} {p : ℕ} {site : Site} {a : PluginAction} {accepted : List Bool}

/-- An action of the plugin: what it did, what it showed, and what became of its upcalls. -/
theorem ControlInv.plugin_step (h : ControlInv w) (hal : Control.contract w (.plugin a accepted))
    (hst : Control.step w (.plugin a accepted) = .ok w') :
    ∃ pw obs taken rejected u, StepEffect w.toWorld a pw.toWorld ∧
      pw.server.trace = w.server.trace ++ obs ∧
      Upcalled { w with toPluginWorld := pw } obs taken rejected u ∧
      w' = u.destroyed a ∧ (false ∉ accepted → rejected = []) := by
  rw [Control.step] at hst
  split at hst
  · next pw hpw =>
    have he := step_effect h.cycle.inv.base hal.1 hpw
    obtain ⟨-, obs, htrace, hreaches⟩ := he.reaches h.cycle hal.1
    obtain ⟨taken, rejected, hup, hall⟩ :=
      upcalled_spec (w := { w with toPluginWorld := pw }) h.owned accepted obs
    rw [htrace, List.drop_left] at hst
    exact ⟨pw, obs, taken, rejected, _, he, htrace, hup, (Except.ok.inj hst).symm,
      fun hgood => hall hgood (h.windows.reaches hreaches)⟩
  · cases hst

theorem ControlInv.plugin (h : ControlInv w) (hal : Control.contract w (.plugin a accepted))
    (hst : Control.step w (.plugin a accepted) = .ok w') : ControlInv w' := by
  obtain ⟨pw, obs, taken, rejected, u, he, htrace, hup, rfl, -⟩ := h.plugin_step hal hst
  have hcycle := (h.cycle.step hal.1 he).1
  have hwindows := h.windows.plugin hal.2 (he.reaches h.cycle hal.1).1
  have hcalls : ∀ q, upcalls q pw.server.trace = upcalls q w.server.trace ++ upcalls q obs := by
    intro q
    rw [htrace, upcalls_append]
  obtain ⟨howned, hcontents⟩ := And.intro hup.owned hup.contents
  obtain ⟨mail, lost, hu⟩ := hup.world
  have hsublist : ∀ q, (w.posted q ++ taken q).Sublist (upcalls q pw.server.trace) := by
    intro q
    rw [hcalls]
    exact (h.sublist q).append (hup.sublist q)
  have hperm : ∀ q, (w.posted q ++ taken q ++ upcalls q (w.refused ++ rejected)).Perm
      (upcalls q pw.server.trace) := by
    intro q
    rw [hcalls, upcalls_append]
    exact (perm_append_parts ..).trans ((h.perm q).append (hup.perm q))
  have hseen : ∀ q, (w.fired q).map Fired.event <+: w.posted q ++ taken q := fun q =>
    (h.seen q).trans (List.prefix_append ..)
  have hblank : ∀ q, w.window q ≠ .live → u.mail.contents q = [] := by
    intro q hq
    rw [hcontents, hup.live q hq]
    exact (List.append_nil _).trans (h.blank q hq)
  have hpending : ∀ q, w.window q = .live →
      ∃ pending, u.mail.contents q = pending.map Obs.letter ∧
        (w.fired q).map Fired.event ++ pending = w.posted q ++ taken q := by
    intro q hq
    obtain ⟨pending, hold, hevents⟩ := h.pending q hq
    refine ⟨pending ++ taken q, ?_, ?_⟩
    · rw [hcontents, List.map_append, ← hold]
    · rw [← List.append_assoc, hevents]
  subst hu
  cases a with
  | lws | construct | setwsurl | send | close =>
      exact ⟨hcycle, hwindows, howned, hblank, hsublist, hperm, hseen, hpending⟩
  | OnDestroy p =>
      refine ⟨hcycle, hwindows, howned.discard p, fun q hq => ?_, hsublist, hperm, hseen,
        fun q hq => ?_⟩
      all_goals
        simp only [ControlWorld.destroyed] at hq ⊢
        by_cases hqp : q = p
      · subst hqp
        simp [Mail.contents, Mail.discard]
      · rw [Function.update_of_ne hqp] at hq
        rw [Mail.contents_discard_other hqp]
        exact hblank q hq
      · subst hqp
        rw [Function.update_self] at hq
        cases hq
      · rw [Function.update_of_ne hqp] at hq
        rw [Mail.contents_discard_other hqp]
        exact hpending q hq

/-- A control that has no window yet has got no upcall. -/
theorem ControlInv.upcalls_eq_nil (h : ControlInv w) (hp : w.server.heap.Live p)
    (hwin : w.window p = .none) : upcalls p w.server.trace = [] := by
  obtain ⟨c, hc⟩ := Heap.live_iff.mp hp
  have hw : c.wsi = 0 := h.windows.idle p c.wsi hwin (by rw [Heap.cell_map, hc]; rfl)
  have hstage := h.cycle.inv.stage p c hc
  rwa [h.cycle.inv.idle p c hc hw] at hstage

theorem ControlInv.made (h : ControlInv w) (hp : w.server.heap.Live p)
    (hwin : w.window p = .none) :
    ControlInv { w with window := Function.update w.window p .live } := by
  refine ⟨h.cycle, h.windows.made (Heap.live_map.mpr hp), h.owned, fun q hq => ?_, h.sublist,
    h.perm, h.seen, fun q hq => ?_⟩
  all_goals
    dsimp only at hq
    by_cases hqp : q = p
  · rw [hqp, Function.update_self] at hq
    exact absurd rfl hq
  · rw [Function.update_of_ne hqp] at hq
    exact h.blank q hq
  · subst hqp
    have hposted := h.sublist q
    rw [h.upcalls_eq_nil hp hwin, List.sublist_nil] at hposted
    have hseen := h.seen q
    rw [hposted, List.prefix_nil] at hseen
    refine ⟨[], h.blank q (by simp [hwin]), ?_⟩
    rw [hseen, hposted]
    rfl
  · rw [Function.update_of_ne hqp] at hq
    exact h.pending q hq

/-- **The first message of a window is the first upcall posted and not handled yet**, and the
window does for it what it does for this upcall. -/
theorem ControlInv.dispatch_eq (h : ControlInv w) (hwin : w.window p = .live)
    (hbox : w.mail.box p ≠ []) :
    ∃ event pending, event.upcallOf = some p ∧
      (w.fired p).map Fired.event ++ event :: pending = w.posted p ∧
      (w.mail.take p).Owned w.lost ∧ (w.mail.take p).contents p = pending.map Obs.letter ∧
      ∀ site, dispatch w p site = handling w p site event := by
  obtain ⟨l, rest, hl⟩ := List.exists_cons_of_ne_nil hbox
  obtain ⟨c, hc⟩ := Heap.live_iff.mp (Heap.live_map.mp (h.windows.live p hwin))
  obtain ⟨pending, hcontents, hevents⟩ := h.pending p hwin
  rw [Mail.contents_take_self h.owned hl] at hcontents
  cases pending with
  | nil => cases hcontents
  | cons event pending =>
      rw [List.map_cons, List.cons.injEq] at hcontents
      have hmem : event ∈ upcalls p w.server.trace := by
        refine (h.sublist p).subset ?_
        rw [← hevents]
        exact List.mem_append_right _ List.mem_cons_self
      have hcall : event.upcallOf = some p := by
        rw [upcalls, List.mem_filter] at hmem
        exact of_decide_eq_true hmem.2
      refine ⟨event, pending, hcall, hevents, h.owned.take hl, hcontents.2, fun site => ?_⟩
      rw [dispatch, hl, hc]
      dsimp only
      rw [hcontents.1]
      cases event with
      | OnOpen | OnClose | OnError | OnMessage =>
          cases hcall
          rfl
      | _ => cases hcall

theorem ControlInv.handled (h : ControlInv w) (hal : Control.contract w (.dispatch p site))
    (hst : Control.step w (.dispatch p site) = .ok w') : ControlInv w' := by
  obtain ⟨hwin, hbox⟩ := hal
  obtain ⟨event, pending, hcall, hevents, howned, hcontents, hdispatch⟩ := h.dispatch_eq hwin hbox
  rw [Control.step, hdispatch] at hst
  obtain ⟨script, rfl⟩ := handling_ok hcall hst
  have hother : ∀ q, q ≠ p → (w.mail.take p).contents q = w.mail.contents q := fun q hq =>
    Mail.contents_take_other h.owned hq
  have hfired : (w.fired p ++ [Fired.mk event ((w.handlers p).function event)]).map Fired.event ++
      pending = w.posted p := by
    rw [List.map_append, List.append_assoc]
    exact hevents
  refine ⟨h.cycle, h.windows, howned, fun q hq => ?_, h.sublist, h.perm, fun q => ?_,
    fun q hq => ?_⟩
  · have hqp : q ≠ p := by
      rintro rfl
      exact hq hwin
    show (w.mail.take p).contents q = []
    rw [hother q hqp]
    exact h.blank q hq
  all_goals
    simp only [finish] at *
    by_cases hqp : q = p
  · subst hqp
    rw [Function.update_self, ← hfired]
    exact List.prefix_append ..
  · rw [Function.update_of_ne hqp]
    exact h.seen q
  · subst hqp
    rw [Function.update_self]
    exact ⟨pending, hcontents, hfired⟩
  · rw [Function.update_of_ne hqp, hother q hqp]
    exact h.pending q hq

/-- **Every action keeps the invariant.** -/
theorem ControlInv.step {a : ControlAction} (h : ControlInv w) (hal : Control.contract w a)
    (hst : Control.step w a = .ok w') : ControlInv w' := by
  cases a with
  | plugin a => exact h.plugin hal hst
  | SetClientSite p =>
      cases hst
      exact h.made hal.1 hal.2
  | put p name newVal =>
      cases hst
      exact ⟨h.cycle, h.windows, h.owned, h.blank, h.sublist, h.perm, h.seen, h.pending⟩
  | dispatch p site => exact h.handled hal hst

theorem controlInv_reachable (h : Control.system.Reachable w) : ControlInv w := by
  refine h.invariant ?_ fun w a w' _ hinv hal hst => hinv.step hal hst
  refine ⟨cycleWorld_reachable ⟨[], .nil⟩, ⟨?_, ?_, ?_⟩, Mail.Owned.empty, ?_, ?_, ?_, ?_, ?_⟩
  · intro p hp
    cases hp
  · intro p wsi _ hcell
    cases hcell
  · intro p hp
    cases hp
  · intro p _
    rfl
  · intro p
    exact List.Sublist.refl []
  · intro p
    exact List.Perm.refl []
  · intro p
    exact List.nil_prefix
  · intro p hp
    cases hp

end Step

/-! ### What the page sees -/

section Results

open CATLWebSocket

variable {w w' : ControlWorld} {p : ℕ} {site : Site}

/-- A control whose connection is established, and a message with an array has come. -/
def arrived : List ControlAction :=
  [.plugin .construct, .SetClientSite 0, .plugin (.setwsurl 0 (bytes "ws://a/") { wsi := 1 }),
    .plugin (.lws 1 .CLIENT_ESTABLISHED), .put 0 .onopen (some 7), .dispatch 0 {},
    .plugin (.lws 1 (.CLIENT_RECEIVE (some (bytes "[]"))))]

/-- Windows accepts the messages an action posts to windows. -/
def ControlAction.Accepted : ControlAction → Prop
  | .plugin _ accepted => false ∉ accepted
  | .SetClientSite _ | .put _ _ _ | .dispatch _ _ => True

/-- What Windows accepts is not missed: there is a window for every upcall. -/
theorem refused_eq_nil {as : List ControlAction} (h : Control.system.Run as w)
    (has : ∀ a ∈ as, a.Accepted) : w.refused = [] := by
  induction h with
  | nil => rfl
  | @snoc as w w' a hrun hal hst ih =>
      have hbefore : w.refused = [] := ih fun b hb => has b (List.mem_append_left _ hb)
      cases a with
      | plugin a accepted =>
          obtain ⟨pw, obs, taken, rejected, u, -, -, hup, rfl, hnone⟩ :=
            (controlInv_reachable ⟨as, hrun⟩).plugin_step hal hst
          obtain ⟨mail, lost, rfl⟩ := hup.world
          obtain rfl := hnone (has (.plugin a accepted) (by simp))
          cases a <;> exact (List.append_nil _).trans hbefore
      | SetClientSite q =>
          cases hst
          exact hbefore
      | put q name newVal =>
          cases hst
          exact hbefore
      | dispatch q site =>
          obtain ⟨event, pending, hcall, -, -, -, hdispatch⟩ :=
            (controlInv_reachable ⟨as, hrun⟩).dispatch_eq hal.1 hal.2
          have hst : CATLWebSocket.dispatch w q site = .ok w' := hst
          rw [hdispatch] at hst
          obtain ⟨script, rfl⟩ := handling_ok hcall hst
          exact hbefore

theorem posted_eq_upcalls {as : List ControlAction} (h : Control.system.Run as w)
    (has : ∀ a ∈ as, a.Accepted) (p : ℕ) : w.posted p = upcalls p w.server.trace := by
  have hinv := controlInv_reachable ⟨as, h⟩
  have hlength := (hinv.perm p).length_eq
  rw [refused_eq_nil h has] at hlength
  exact (hinv.sublist p).eq_of_length (by simpa [upcalls] using hlength)

/-- **The page sees the upcalls that were posted in order, each once.** After every run the
events a window has handled are the first upcalls of its client that were posted, and its queue
holds the messages of exactly the others. An upcall was posted or refused: if Windows accepts
all messages, the events are the beginning of a life cycle, and else a part of one. -/
theorem window_messages_in_order {as : List ControlAction} (h : Control.system.Run as w) (p : ℕ) :
    (w.fired p).map Fired.event <+: w.posted p ∧
    (w.window p = .live →
      w.mail.contents p = ((w.posted p).drop (w.fired p).length).map Obs.letter) ∧
    (w.posted p).Sublist (upcalls p w.server.trace) ∧
    (w.posted p ++ upcalls p w.refused).Perm (upcalls p w.server.trace) ∧
    ∃ messages error code,
      ((w.fired p).map Fired.event).Sublist (lifeCycle p messages error code) ∧
      ((∀ a ∈ as, a.Accepted) → w.posted p = upcalls p w.server.trace ∧
        (w.fired p).map Fired.event <+: lifeCycle p messages error code) := by
  have hinv := controlInv_reachable ⟨as, h⟩
  obtain ⟨messages, error, code, hcycle⟩ := hinv.cycle.inv.cycle p
  refine ⟨hinv.seen p, fun hwin => ?_, hinv.sublist p, hinv.perm p, messages, error, code, ?_,
    fun has => ?_⟩
  · obtain ⟨pending, hcontents, hevents⟩ := hinv.pending p hwin
    have hlength : (w.fired p).length = ((w.fired p).map Fired.event).length :=
      (List.length_map _).symm
    rw [hcontents, ← hevents, hlength, List.drop_left]
  · exact ((hinv.seen p).sublist.trans (hinv.sublist p)).trans hcycle.sublist
  · have hposted := posted_eq_upcalls h has p
    exact ⟨hposted, (hposted ▸ hinv.seen p).trans hcycle⟩

/-- The message that comes after the connection is established is refused: it is not in the
queue, and only the first of the two upcalls was posted. -/
theorem window_messages_in_order_refused :
    ∃ w, Control.system.Run (arrived.take 6 ++
        [.plugin (.lws 1 (.CLIENT_RECEIVE (some (bytes "[]")))) [false]]) w ∧
      w.refused = [.OnMessage 0 (bytes "[]")] ∧ w.window 0 = .live ∧
      w.mail.contents 0 = ((w.posted 0).drop (w.fired 0).length).map Obs.letter ∧
      (w.posted 0 ++ upcalls 0 w.refused).Perm (upcalls 0 w.server.trace) := by
  obtain ⟨w, hrun, hw⟩ := StepSystem.run_of_check_map (S := Control.system)
    (f := fun w => (w.refused, w.window 0)) (b := ([.OnMessage 0 (bytes "[]")], .live))
    (arrived.take 6 ++ [.plugin (.lws 1 (.CLIENT_RECEIVE (some (bytes "[]")))) [false]])
    (by decide +kernel)
  rw [Prod.mk.injEq] at hw
  obtain ⟨-, hqueue, -, hperm, -⟩ := window_messages_in_order hrun 0
  exact ⟨w, hrun, hw.1, hw.2, hqueue hw.2, hperm⟩

/-! ### The state of the client -/

/-- The state a client has reached when it makes an upcall. -/
def Obs.status : Obs → Status
  | .OnOpen _ | .OnMessage _ _ => .OPEN
  | .OnError _ _ | .OnClose _ _ => .CLOSED
  | _ => .CONNECTING

/-- A client in a stage has reached the states of its upcalls. -/
theorem Stage.status_le {calls : List Obs} {status : Status} (h : Stage p calls status) :
    ∀ o ∈ calls, o.status.rank ≤ status.rank := by
  have hopening : ∀ messages, ∀ o ∈ openingCalls p (some messages), o.status = .OPEN := by
    intro messages
    simp [openingCalls, Obs.status]
  cases status with
  | CONNECTING =>
      obtain rfl : calls = [] := h
      intro o ho
      cases ho
  | OPEN | CLOSING =>
      obtain ⟨messages, rfl⟩ := h
      intro o ho
      exact (congrArg Status.rank (hopening messages o ho)).trans_le (by decide)
  | CLOSED => exact fun o _ => o.status.rank_le_closed

/-- **`m_readyState` is never behind the events.** For every event a window has handled, the
state of its client is the state of the event or a later one: at least `OPEN` after an `onopen`
or an `onmessage`, and `CLOSED` after an `onerror` or an `onclose`. -/
theorem readyState_not_behind (h : Control.system.Reachable w) {c : Client}
    (hc : w.server.heap.cell p = some c) :
    ∀ fired ∈ w.fired p, fired.event.status.rank ≤ c.m_state.rank := by
  have hinv := controlInv_reachable h
  intro fired hfired
  have hmem : fired.event ∈ upcalls p w.server.trace :=
    (hinv.sublist p).subset ((hinv.seen p).subset (List.mem_map_of_mem hfired))
  exact (hinv.cycle.inv.stage p c hc).status_le fired.event hmem

/-- The page is told of its connection while it is open. -/
theorem readyState_not_behind_arrived :
    ∃ w c, Control.system.Run arrived w ∧ w.server.heap.cell 0 = some c ∧
      c.m_state = .OPEN ∧ ∀ fired ∈ w.fired 0, fired.event.status.rank ≤ c.m_state.rank := by
  obtain ⟨w, hrun, hw⟩ := StepSystem.run_of_check_map (S := Control.system)
    (f := fun w => (w.server.heap.cell 0).map Client.m_state) (b := some .OPEN) arrived
    (by decide +kernel)
  obtain ⟨c, hc, hopen⟩ := Option.map_eq_some_iff.mp hw
  exact ⟨w, c, hrun, hc, hopen, readyState_not_behind ⟨_, hrun⟩ hc⟩

/-! ### Functions set late -/

/-- An action that does not set a function of a control. -/
theorem handlers_kept (h : ControlInv w) {a : ControlAction} (hal : Control.contract w a)
    (hst : Control.step w a = .ok w') (ha : ∀ name newVal, a ≠ .put p name newVal) :
    w'.handlers p = w.handlers p ∧
      (w'.fired p = w.fired p ∨
        ∃ event, w'.fired p = w.fired p ++ [⟨event, (w.handlers p).function event⟩]) := by
  cases a with
  | plugin a accepted =>
      obtain ⟨pw, obs, taken, rejected, u, -, -, hup, rfl, -⟩ := h.plugin_step hal hst
      obtain ⟨mail, lost, rfl⟩ := hup.world
      cases a <;> exact ⟨rfl, .inl rfl⟩
  | SetClientSite q =>
      cases hst
      exact ⟨rfl, .inl rfl⟩
  | put q name newVal =>
      cases hst
      have hpq : p ≠ q := by
        rintro rfl
        exact ha name newVal rfl
      exact ⟨Function.update_of_ne hpq .., .inl rfl⟩
  | dispatch q site =>
      obtain ⟨event, pending, hcall, -, -, -, hdispatch⟩ := h.dispatch_eq hal.1 hal.2
      rw [Control.step, hdispatch] at hst
      obtain ⟨script, rfl⟩ := handling_ok hcall hst
      refine ⟨rfl, ?_⟩
      by_cases hpq : p = q
      · subst hpq
        exact .inr ⟨event, Function.update_self ..⟩
      · exact .inl (Function.update_of_ne hpq ..)

/-- **Functions that are set before the first message is handled miss nothing** that was posted,
however long the connection is established then: from there on every upcall is handled by the
function set for it. -/
theorem late_handlers_miss_nothing {as bs : List ControlAction} (h : Control.system.Run as w)
    (hnone : w.fired p = []) (h' : Control.system.Run (as ++ bs) w')
    (hbs : ∀ name newVal, .put p name newVal ∉ bs) :
    (w'.fired p = ((w'.posted p).take (w'.fired p).length).map
      fun event => ⟨event, (w.handlers p).function event⟩) ∧
    ((∀ a ∈ as ++ bs, a.Accepted) → w'.posted p = upcalls p w'.server.trace) := by
  have hfired : w'.handlers p = w.handlers p ∧ w'.fired p = ((w'.fired p).map Fired.event).map
      fun event => ⟨event, (w.handlers p).function event⟩ := by
    refine h.later (I := fun u => u.handlers p = w.handlers p ∧ u.fired p =
      ((u.fired p).map Fired.event).map fun event => ⟨event, (w.handlers p).function event⟩)
      ⟨rfl, by rw [hnone]; rfl⟩ ?_ h'
    rintro u b u' hb hu ⟨hhandlers, hfired⟩ hal hst
    have hput : ∀ name newVal, b ≠ .put p name newVal := by
      rintro name newVal rfl
      exact hbs name newVal hb
    obtain ⟨hkept, hsame | ⟨event, hmore⟩⟩ := handlers_kept (controlInv_reachable hu) hal hst hput
    · refine ⟨hkept.trans hhandlers, ?_⟩
      rw [hsame]
      exact hfired
    · refine ⟨hkept.trans hhandlers, ?_⟩
      rw [hmore, List.map_append, List.map_append, ← hfired, hhandlers]
      rfl
  have hseen := List.prefix_iff_eq_take.mp ((controlInv_reachable ⟨_, h'⟩).seen p)
  rw [List.length_map] at hseen
  refine ⟨?_, fun has => posted_eq_upcalls h' has p⟩
  rw [← hseen]
  exact hfired.2

/-- A page that sets its function after the connection is established is told of it. -/
theorem late_handlers_miss_nothing_open :
    ∃ w w', Control.system.Run (arrived.take 5) w ∧ w.fired 0 = [] ∧
      Control.system.Run (arrived.take 5 ++ arrived.drop 5) w' ∧
      (w'.fired 0 = ((w'.posted 0).take (w'.fired 0).length).map
        fun event => ⟨event, (w.handlers 0).function event⟩) ∧
      w'.posted 0 = upcalls 0 w'.server.trace := by
  obtain ⟨w, hrun, hw⟩ := StepSystem.run_of_check_map (S := Control.system)
    (f := fun w => w.fired 0) (b := []) (arrived.take 5) (by decide +kernel)
  obtain ⟨w', hrun', -⟩ := StepSystem.run_of_check_map (S := Control.system)
    (f := fun _ => ()) (b := ()) (arrived.take 5 ++ arrived.drop 5) (by decide +kernel)
  obtain ⟨hfired, hposted⟩ := late_handlers_miss_nothing hrun hw hrun' (by simp [arrived])
  refine ⟨w, w', hrun, hw, hrun', hfired, hposted ?_⟩
  simp [ControlAction.Accepted, arrived]

/-! ### Lost strings -/

/-- What is lost in a step: the strings of refused messages, and those in the queue of a window
that is destroyed. -/
theorem lost_step (h : ControlInv w) {a : ControlAction} (hal : Control.contract w a)
    (hst : Control.step w a = .ok w') :
    ∃ rejected, w'.refused = w.refused ++ rejected ∧
      (w'.lost = [] ↔ (w.lost = [] ∧ ∀ o ∈ rejected, ∃ p, o = .OnOpen p) ∧
        ∀ p accepted, a = .plugin (.OnDestroy p) accepted → Mail.params (w.mail.box p) = []) := by
  cases a with
  | plugin a accepted =>
      cases a with
      | OnDestroy p =>
          rw [Control.step] at hst
          split at hst
          · next pw hpw =>
            have htrace : pw.server.trace = w.server.trace := by
              have he := step_effect h.cycle.inv.base hal.1 hpw
              generalize pw.toWorld = t at he ⊢
              cases he
              rfl
            rw [htrace, List.drop_length, ATLWSclient.upcalled] at hst
            cases hst
            refine ⟨[], (List.append_nil _).symm, ?_⟩
            simp [ControlWorld.destroyed]
          · cases hst
      | lws | construct | setwsurl | send | close =>
          obtain ⟨pw, obs, taken, rejected, u, -, -, hup, rfl, -⟩ := h.plugin_step hal hst
          have hlost := hup.lost
          obtain ⟨mail, lost, rfl⟩ := hup.world
          exact ⟨rejected, rfl, hlost.trans (by simp)⟩
  | SetClientSite q =>
      cases hst
      exact ⟨[], (List.append_nil _).symm, by simp⟩
  | put q name newVal =>
      cases hst
      exact ⟨[], (List.append_nil _).symm, by simp⟩
  | dispatch q site =>
      obtain ⟨event, pending, hcall, -, -, -, hdispatch⟩ := h.dispatch_eq hal.1 hal.2
      rw [Control.step, hdispatch] at hst
      obtain ⟨script, rfl⟩ := handling_ok hcall hst
      exact ⟨[], (List.append_nil _).symm, by simp [CATLWebSocket.finish]⟩

/-- Strings that are not lost are in the queues of windows that are there. -/
theorem ControlInv.lost_eq_nil_iff (h : ControlInv w) :
    w.lost = [] ↔ ∀ q, w.mail.heap.Live q →
      ∃ p, w.window p = .live ∧ q ∈ Mail.params (w.mail.box p) := by
  obtain ⟨owner, howned⟩ := h.owned
  constructor
  · intro hlost q hq
    rw [howned.live] at hq
    cases howner : owner q with
    | none =>
        rw [howner] at hq
        cases hq
    | some place =>
        cases place with
        | none =>
            have hmem := (howned.lost q).mpr howner
            rw [hlost] at hmem
            cases hmem
        | some p =>
            have hmem := (howned.box p q).mpr howner
            refine ⟨p, ?_, hmem⟩
            by_contra hwin
            have hblank := h.blank p hwin
            rw [Mail.contents, List.map_eq_nil_iff] at hblank
            rw [hblank] at hmem
            cases hmem
  · intro hall
    rw [List.eq_nil_iff_forall_not_mem]
    intro q hq
    have howner := (howned.lost q).mp hq
    obtain ⟨p, -, hmem⟩ := hall q (by rw [howned.live, howner]; rfl)
    have hother := (howned.box p q).mp hmem
    rw [howner] at hother
    cases hother

/-- **Strings are lost with refused messages and destroyed windows only.** After a run every
string that is not deleted is in the queue of a window that is there, exactly when no message
with a text was refused, and every window that was destroyed in the run had handled all its
messages with a text by then. -/
theorem strings_kept_iff {as : List ControlAction} (h : Control.system.Run as w) :
    (∀ q, w.mail.heap.Live q → ∃ p, w.window p = .live ∧ q ∈ Mail.params (w.mail.box p)) ↔
      (∀ o ∈ w.refused, ∃ p, o = .OnOpen p) ∧ Control.system.AllSteps as fun w a =>
        ∀ p accepted, a = .plugin (.OnDestroy p) accepted → Mail.params (w.mail.box p) = [] := by
  rw [← (controlInv_reachable ⟨as, h⟩).lost_eq_nil_iff]
  induction h with
  | nil =>
      refine iff_of_true rfl ⟨fun o ho => ?_, fun bs a t hp => ?_⟩
      · exact absurd ho List.not_mem_nil
      · simp at hp
  | @snoc as w w' a hrun hal hst ih =>
      obtain ⟨rejected, hrefused, hlost⟩ := lost_step (controlInv_reachable ⟨as, hrun⟩) hal hst
      rw [hlost, ih, hrefused, List.forall_mem_append, StepSystem.allSteps_snoc hrun]
      constructor
      · rintro ⟨⟨⟨hold, hsteps⟩, hnew⟩, hlast⟩
        exact ⟨⟨hold, hnew⟩, hsteps, hlast⟩
      · rintro ⟨⟨hold, hnew⟩, hsteps, hlast⟩
        exact ⟨⟨⟨hold, hsteps⟩, hnew⟩, hlast⟩

/-- A window is destroyed with a message in its queue: the string is lost. -/
theorem strings_kept_destroyed :
    ∃ w, Control.system.Run (arrived ++ [.plugin (.OnDestroy 0)]) w ∧ w.lost = [0] ∧
      ((∀ q, w.mail.heap.Live q → ∃ p, w.window p = .live ∧ q ∈ Mail.params (w.mail.box p)) ↔
        (∀ o ∈ w.refused, ∃ p, o = .OnOpen p) ∧
        Control.system.AllSteps (arrived ++ [.plugin (.OnDestroy 0)]) fun w a =>
          ∀ p accepted, a = .plugin (.OnDestroy p) accepted →
            Mail.params (w.mail.box p) = []) := by
  obtain ⟨w, hrun, hw⟩ := StepSystem.run_of_check_map (S := Control.system)
    (f := fun w => w.lost) (b := [0]) (arrived ++ [.plugin (.OnDestroy 0)]) (by decide +kernel)
  exact ⟨w, hrun, hw, strings_kept_iff hrun⟩

end Results

end UCClient
