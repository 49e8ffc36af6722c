import UCClient.Conversations

/-!
# The Program and Its Pages

The ends of the system are the SDK, which reports what happens to the calls, and the scripts of
the pages, each of which keeps a table of the calls. Between them are the dispatcher and the
handlers, the writer of jsoncpp, the queue of every page with its partial writes, the socket and
`JSON.parse`. Here all of it runs together, for any number of pages: the program with its
environment as in `EventOrder`, the window that passes session changes on, and for every
connection a script that handles the messages lws took over, one after another, when the browser
comes to it, and whose functions the page calls in between.

The environment remembers what was said to each page (`Saying`). The main result is that of
everything in between only a delay is left: the state of a script is, at any time, one that it
reaches when it is told directly the events among the things said to it that it has handled, in
their order and each once. What the other pages do, the replies, the session changes and the way
the texts were cut do not show.

The script of a connection starts in any state, for a page may connect again and keep its
tables. Messages are shorter than 2^31 bytes when they are handled (`ShortSends`). The calls that
events and pages name have ordinary call ids where the state of a script is spoken of
(`Deployment.ordinary`).

## Main results

* `page_follows_sdk`: what the state of a script is made of.
* `session_table_follows_sdk`: the table of calls of a page, by the events the SDK reported.
* `replies_in_order`: the replies that a page handles are to its own commands, in their order.
-/

namespace UCClient

/-! ### Pages of the program -/

/-- A page: its script, and how many of the messages sent to it the script has handled. -/
structure Tab where
  script : Script
  handled : ℕ := 0

/-- The program, the pages by their connections, and what was said to each page. -/
structure Deployment where
  world : World := {}
  tab : ℕ → Tab
  said : ℕ → List Saying := fun _ => []

/-- What happens next. -/
inductive Deed
  /-- The process is called by lws or by the SDK. -/
  | process (a : Action)
  /-- Windows reports a change of session to the main window. -/
  | session (nSessionState : UInt32)
  /-- The browser passes the next message on to the script. -/
  | deliver (p : ℕ)
  /-- A function of the script is called, or its socket changes. -/
  | act (p : ℕ) (a : PageAction)
  deriving DecidableEq, Repr

/-- The calls of a page other than those that connect it again. -/
def PageAction.isLocal : PageAction → Bool
  | .message _ | .Connect .. => false
  | .socket _ | .plain _ | .ConsultationCall .. | .ReconnectCall .. | .AlternateCall ..
  | .transferMeeting .. => true

/-- The event that the script is told. -/
def PageAction.event? : PageAction → Option PageEvent
  | .message ev => some ev
  | .socket _ | .Connect .. | .plain _ | .ConsultationCall .. | .ReconnectCall ..
  | .AlternateCall .. | .transferMeeting .. => none

/-- The calls that are named have ordinary call ids. -/
def Deed.Ordinary : Deed → Prop
  | .process (.sdk _ ev) => ∀ callid ∈ ev.page.call, UCClient.Ordinary callid
  | .act _ a => a.Ordinary
  | .process _ | .session _ | .deliver _ => True

instance : DecidablePred Deed.Ordinary
  | .process (.sdk _ ev) => inferInstanceAs (Decidable (∀ callid ∈ ev.page.call, _))
  | .act _ a => inferInstanceAs (Decidable a.Ordinary)
  | .process (.lws ..) | .process (.send ..) | .process (.close _) | .process .construct
  | .process (.connect ..) | .process (.delete _) | .session _ | .deliver _ =>
      inferInstanceAs (Decidable True)

/-- The script after a call; if it throws, the state it threw in stays. -/
def Page.after (s : Page) (a : PageAction) : Page := (a.program s).state

/-- The messages of page `p` that lws has taken over in full. -/
def takenOver (p : ℕ) (trace : List Obs) : List Bytes :=
  completed id (accepted p trace) (sends p trace)

instance (p : ℕ) (trace : List Obs) : Decidable (ShortSends p trace) :=
  inferInstanceAs (Decidable (∀ m ∈ sends p trace, m.length < 2 ^ 31))

namespace Deployment

/-- The process went to `w` by the action `a`. -/
def processed (d : Deployment) (a : Action) (w : World) : Deployment :=
  { d with world := w, said := fun p => d.said p ++ a.tells d.world.server p }

/-- `OnSessionChange` was called and left the process as `s`. -/
def sessionChanged (d : Deployment) (nSessionState : UInt32) (s : Server) : Deployment :=
  { d with
    world := { d.world with server := s }
    said := fun p =>
      if p ∈ d.world.server.g_WSClientSet then d.said p ++ [.session nSessionState]
      else d.said p }

/-- The script of page `p` has handled the message `m`. -/
def delivered (d : Deployment) (p : ℕ) (m : Bytes) : Deployment :=
  { d with
    tab := Function.update d.tab p
      { script := (Script.wsonMessage m (d.tab p).script).state
        handled := (d.tab p).handled + 1 } }

/-- The script of page `p` is called. -/
def acted (d : Deployment) (p : ℕ) (a : PageAction) : Deployment :=
  { d with
    tab := Function.update d.tab p
      { script := { page := (d.tab p).script.page.after a, replies := (d.tab p).script.replies }
        handled := (d.tab p).handled } }

/-- The contract of the environment: that of the program; the browser passes on what lws has
taken over; the page calls the functions of its script. -/
def contract (sdk : Sdk) (d : Deployment) : Deed → Prop
  | .process a => (pages sdk).allowed d.world a
  | .session _ => True
  | .deliver p => (d.tab p).handled < (takenOver p d.world.server.trace).length ∧
      ShortSends p d.world.server.trace
  | .act _ a => a.isLocal = true

instance (sdk : Sdk) (d : Deployment) : ∀ a, Decidable (contract sdk d a)
  | .process a => inferInstanceAs (Decidable ((pages sdk).allowed d.world a))
  | .session _ => inferInstanceAs (Decidable True)
  | .deliver _ => inferInstanceAs (Decidable (_ ∧ _))
  | .act _ a => inferInstanceAs (Decidable (a.isLocal = true))

/-- One step of the whole. -/
def step (sdk : Sdk) (d : Deployment) : Deed → Except Fault Deployment
  | .process a => (World.step .UCClientWSServer sdk d.world a).map (d.processed a)
  | .session nSessionState =>
      match CMainWnd.OnSessionChange nSessionState d.world.server with
      | .ok _ s => .ok (d.sessionChanged nSessionState s)
      | .error f _ => .error f
  | .deliver p =>
      match (takenOver p d.world.server.trace)[(d.tab p).handled]? with
      | some m => .ok (d.delivered p m)
      | none => .ok d
  | .act p a => .ok (d.acted p a)

/-- The program with its pages, where the script of each connection is in the state `start` when
the connection is made. -/
def system (sdk : Sdk) (start : ℕ → Script) : StepSystem Deployment Deed Fault where
  init := { tab := fun p => { script := start p } }
  allowed := contract sdk
  step := step sdk

instance (sdk : Sdk) (start : ℕ → Script) (d : Deployment) (a : Deed) :
    Decidable ((system sdk start).allowed d a) :=
  inferInstanceAs (Decidable (contract sdk d a))

/-- The same, as long as the calls that are named have ordinary call ids. -/
def ordinary (sdk : Sdk) (start : ℕ → Script) : StepSystem Deployment Deed Fault :=
  (system sdk start).restrict fun _ deed => deed.Ordinary

instance (sdk : Sdk) (start : ℕ → Script) (d : Deployment) (a : Deed) :
    Decidable ((ordinary sdk start).allowed d a) :=
  inferInstanceAs (Decidable (contract sdk d a ∧ a.Ordinary))

/-- The calls of the page in a run. -/
def acts (p : ℕ) (ds : List Deed) : List PageAction :=
  ds.filterMap fun deed =>
    match deed with
    | .act q a => if q = p then some a else none
    | .process _ | .session _ | .deliver _ => none

/-- What the page has handled of what was said to it. -/
def heard (d : Deployment) (p : ℕ) : List Saying := (d.said p).take (d.tab p).handled

end Deployment

/-! ### The script on what is said to it -/

theorem Page.after_message (s : Page) (ev : PageEvent) :
    s.after (.message ev) = (Page.wsonMessage ev s).state := by
  rw [Page.after, PageAction.program]
  cases hrun : Page.wsonMessage ev s with
  | ok a s' =>
      rw [EStateM.bind_ok hrun]
      rfl
  | error e s' =>
      rw [EStateM.bind_error hrun]
      rfl

namespace Script

variable {s : Script} {buf : Bytes}

/-- **The text of an event does what the event does.** -/
theorem after_event {ev : SdkEvent} (h : ev.Emits buf) :
    (wsonMessage buf s).state = { s with page := s.page.after (.message ev.page) } := by
  rw [wsonMessage_emitted h, liftPage, Page.after_message]
  cases Page.wsonMessage ev.page s.page <;> rfl

theorem property_cases (x : Option Json) (name : String) (s : Script) :
    (∃ v, property x name s = .ok v s) ∨ ∃ e, property x name s = .error e s := by
  rcases x with _ | x
  · exact .inr ⟨_, rfl⟩
  · cases x <;> first | exact .inl ⟨_, rfl⟩ | exact .inr ⟨_, rfl⟩

/-- What a case for a reply does: the page is told, or an exception is raised before. -/
theorem reply_state (event : Json) (name : String) (report : Report) (s : Script) :
    (reply event name report s).state = s ∨
      ∃ ret, (reply event name report s).state = { s with
        replies := s.replies ++ [(name, ret)] } := by
  cases report with
  | unread => exact .inr ⟨none, rfl⟩
  | stringified =>
      rw [reply]
      rcases property_cases event "param" s with ⟨param, hp⟩ | ⟨e, hp⟩
      · rw [EStateM.bind_ok hp]
        rcases property_cases param "return" s with ⟨ret, hr⟩ | ⟨e, hr⟩
        · rw [EStateM.bind_ok hr]
          exact .inr ⟨ret, rfl⟩
        · rw [EStateM.bind_error hr]
          exact .inl rfl
      · rw [EStateM.bind_error hp]
        exact .inl rfl
  | concatenated =>
      rw [reply]
      rcases property_cases event "param" s with ⟨param, hp⟩ | ⟨e, hp⟩
      · rw [EStateM.bind_ok hp]
        rcases property_cases param "return" s with ⟨ret, hr⟩ | ⟨e, hr⟩
        · rw [EStateM.bind_ok hr, concatenate]
          split_ifs
          · exact .inr ⟨ret, rfl⟩
          · exact .inl rfl
        · rw [EStateM.bind_error hr]
          exact .inl rfl
      · rw [EStateM.bind_error hp]
        exact .inl rfl

/-- **A reply is passed on to the page under the name of its command**, or raises an exception;
the calls are left alone. -/
theorem after_reply {cmd : Bytes} (h : IsReply cmd buf) :
    ∃ new, (wsonMessage buf s).state = { s with replies := s.replies ++ new } ∧
      List.Sublist (new.map fun r => bytes r.1) [cmd] := by
  obtain ⟨ms, hp, htype, hcmd⟩ := h
  rw [wsonMessage_reply hp htype, onReply, property_bind, hcmd]
  cases hcase : replyCases.find? fun c => isCase (some (.string cmd)) c.1 with
  | none => exact ⟨[], by rw [List.append_nil]; rfl, List.nil_sublist _⟩
  | some c =>
      obtain ⟨name, report⟩ := c
      have hname : cmd = bytes name := by
        simpa [isCase] using List.find?_some hcase
      rcases reply_state (.object ms) name report s with hs | ⟨ret, hs⟩
      · exact ⟨[], by rw [List.append_nil]; exact hs, List.nil_sublist _⟩
      · exact ⟨[(name, ret)], hs, by rw [hname]; exact List.Sublist.refl _⟩

end Script

/-- A script that was in the state `s₀` is in the state `s`, after it got the messages of `said`
and was called by the page, in any order of the two. -/
structure Follows (s₀ : Script) (said : List Saying) (calls : List PageAction) (s : Script) :
    Prop where
  page : ∃ hist : List PageAction, s.page = hist.foldl Page.after s₀.page ∧
    hist.filterMap PageAction.event? = (said.filterMap Saying.event?).map SdkEvent.page ∧
    hist.filter PageAction.isLocal = calls ∧
    ∀ a ∈ hist, a.isLocal = true ∨ a.event?.isSome = true
  replies : ∃ new, s.replies = s₀.replies ++ new ∧
    List.Sublist (new.map fun r => bytes r.1) (said.filterMap Saying.command?)

namespace Follows

variable {s₀ s : Script} {said : List Saying} {calls : List PageAction}

theorem start (s₀ : Script) : Follows s₀ [] [] s₀ where
  page := ⟨[], rfl, rfl, rfl, by simp⟩
  replies := ⟨[], (List.append_nil _).symm, List.Sublist.slnil⟩

/-- The next message is handled. -/
theorem message (h : Follows s₀ said calls s) {x : Saying} {buf : Bytes} (hbuf : x.Text buf) :
    Follows s₀ (said ++ [x]) calls (Script.wsonMessage buf s).state := by
  obtain ⟨⟨hist, hpage, hevs, hcalls, honly⟩, old, hold, hsub⟩ := h
  cases x with
  | event ev =>
      rw [Script.after_event hbuf]
      refine ⟨⟨hist ++ [.message ev.page], ?_, ?_, ?_, ?_⟩, old, hold, ?_⟩
      · rw [List.foldl_append, ← hpage]
        rfl
      · rw [List.filterMap_append, List.filterMap_append, hevs, List.map_append]
        rfl
      · rw [List.filter_append, hcalls]
        exact List.append_nil _
      · exact List.forall_mem_append.mpr ⟨honly, List.forall_mem_singleton.mpr (.inr rfl)⟩
      · rw [List.filterMap_append]
        exact hsub.trans (List.sublist_append_left _ _)
  | reply cmd =>
      obtain ⟨new, hnew, hsub'⟩ := Script.after_reply (s := s) hbuf
      rw [hnew]
      refine ⟨⟨hist, hpage, ?_, hcalls, honly⟩, old ++ new, ?_, ?_⟩
      · rw [List.filterMap_append, hevs]
        exact congrArg _ (List.append_nil _).symm
      · rw [hold, List.append_assoc]
      · rw [List.map_append, List.filterMap_append]
        exact hsub.append hsub'
  | session nSessionState =>
      have hsame : (Script.wsonMessage buf s).state = s := by
        rw [show buf = sessionText nSessionState from hbuf, Script.wsonMessage_session]
        rfl
      rw [hsame]
      refine ⟨⟨hist, hpage, ?_, hcalls, honly⟩, old, hold, ?_⟩
      · rw [List.filterMap_append, hevs]
        exact congrArg _ (List.append_nil _).symm
      · rw [List.filterMap_append]
        exact hsub.trans (List.sublist_append_left _ _)

/-- A function of the script is called. -/
theorem act (h : Follows s₀ said calls s) {a : PageAction} (ha : a.isLocal = true) :
    Follows s₀ said (calls ++ [a]) { s with page := s.page.after a } := by
  obtain ⟨⟨hist, hpage, hevs, hcalls, honly⟩, hreplies⟩ := h
  refine ⟨⟨hist ++ [a], ?_, ?_, ?_, ?_⟩, hreplies⟩
  · rw [List.foldl_append, ← hpage]
    rfl
  · have hnone : a.event? = none := by
      cases a <;> first | rfl | cases ha
    rw [List.filterMap_append, hevs, List.filterMap_cons_none hnone]
    exact List.append_nil _
  · rw [List.filter_append, hcalls, List.filter_cons_of_pos ha]
    rfl
  · exact List.forall_mem_append.mpr ⟨honly, List.forall_mem_singleton.mpr (.inl ha)⟩

end Follows

/-! ### The process -/

/-- A broadcast from outside keeps what the process and lws know of the connections. -/
theorem forM_Send_keeps {buf : Bytes} : ∀ (ps : List ℕ) {w : World} {s' : Server},
    LivesInv w → ListedOnce w → ps.forM (fun it => WebSocketClient.Send it buf) w.server =
      .ok () s' → LivesInv { w with server := s' } ∧ ListedOnce { w with server := s' }
  | [], w, s', hinv, hlisted, h => by
      cases h
      exact ⟨hinv, hlisted⟩
  | p :: ps, w, s', hinv, hlisted, h => by
      have hlive := live_of_forM_Send h p List.mem_cons_self
      obtain ⟨c, hc⟩ := Heap.live_iff.mp hlive
      have hst : World.step .UCClientWSServer silentSdk w (.send p buf) =
          .ok { w with server := w.server.sent p c buf } := by
        have hrun : (Action.send p buf).program .UCClientWSServer silentSdk w.server =
            .ok 0 (w.server.sent p c buf) := EStateM.bind_ok (Send_spec hc buf)
        simp only [World.step, World.before, hrun]
        rfl
      have hal : UCClient.contract lives w (.send p buf) := hlive
      have hinv' := hinv.step hal hst
      have hlisted' := hlisted.step hinv hal hst
      have hrest : (WebSocketClient.Send p buf >>= fun _ =>
          ps.forM fun it => WebSocketClient.Send it buf) w.server = .ok () s' := h
      rw [EStateM.bind_ok (Send_spec hc buf)] at hrest
      exact forM_Send_keeps ps (w := { w with server := w.server.sent p c buf }) hinv' hlisted'
        hrest

namespace Deployment

variable {sdk : Sdk} {start : ℕ → Script} {d d' : Deployment} {ds : List Deed} {p : ℕ}

/-! ### Steps -/

theorem step_process {a : Action} (h : (system sdk start).step d (.process a) = .ok d') :
    ∃ w, World.step .UCClientWSServer sdk d.world a = .ok w ∧ d' = d.processed a w := by
  change (World.step .UCClientWSServer sdk d.world a).map (d.processed a) = .ok d' at h
  cases hst : World.step .UCClientWSServer sdk d.world a with
  | error f =>
      rw [hst] at h
      cases h
  | ok w =>
      rw [hst] at h
      cases h
      exact ⟨w, rfl, rfl⟩

theorem step_session {nSessionState : UInt32}
    (h : (system sdk start).step d (.session nSessionState) = .ok d') :
    ∃ s, CMainWnd.OnSessionChange nSessionState d.world.server = .ok () s ∧
      d' = d.sessionChanged nSessionState s := by
  change step sdk d (.session nSessionState) = .ok d' at h
  rw [step] at h
  split at h
  · next s hs =>
      cases h
      exact ⟨s, hs, rfl⟩
  · cases h

theorem step_deliver (hlt : (d.tab p).handled < (takenOver p d.world.server.trace).length)
    (h : (system sdk start).step d (.deliver p) = .ok d') :
    ∃ m, (sends p d.world.server.trace)[(d.tab p).handled]? = some m ∧ d' = d.delivered p m := by
  have hpre : takenOver p d.world.server.trace <+: sends p d.world.server.trace :=
    completed_isPrefix id _ _
  refine ⟨_, List.prefix_iff_getElem?.mp hpre _ hlt, ?_⟩
  change step sdk d (.deliver p) = .ok d' at h
  simp only [step, List.getElem?_eq_getElem hlt] at h
  cases h
  rfl

/-- What holds of the process in every state. -/
theorem world_invariant (h : (system sdk start).Run ds d) :
    LivesInv d.world ∧ ListedOnce d.world := by
  refine h.invariant (I := fun d => LivesInv d.world ∧ ListedOnce d.world) ?_ ?_
  · have hinit : (pages sdk).Reachable {} := ⟨[], .nil⟩
    exact pages_reachable hinit
  · rintro d a d' - ⟨hinv, hlisted⟩ hal hst
    cases a with
    | process a =>
        obtain ⟨w, hw, rfl⟩ := step_process hst
        have hlives := lives_of_inLives hal.1 hal.2
        exact ⟨hinv.step hlives hw, hlisted.step hinv hlives hw⟩
    | session nSessionState =>
        obtain ⟨s, hs, rfl⟩ := step_session hst
        rw [OnSessionChange_run] at hs
        exact forM_Send_keeps _ hinv hlisted hs
    | deliver p =>
        obtain ⟨m, -, rfl⟩ := step_deliver hal.1 hst
        exact ⟨hinv, hlisted⟩
    | act p a =>
        cases hst
        exact ⟨hinv, hlisted⟩

/-! ### Runs -/

/-- What holds of page `p` after a run in which its script was called by `calls`. -/
structure Linked (s₀ : Script) (calls : List PageAction) (d : Deployment) (p : ℕ) : Prop where
  said : List.Forall₂ Saying.Text (d.said p) (sends p d.world.server.trace)
  handled : (d.tab p).handled ≤ (d.said p).length
  follows : Follows s₀ (d.heard p) calls (d.tab p).script

namespace Linked

variable {s₀ : Script} {calls : List PageAction}

/-- More is said to the page, which has not handled it yet. -/
theorem more (h : Linked s₀ calls d p) (new : List Saying) (obs : List Obs)
    (htab : d'.tab p = d.tab p) (hsaid : d'.said p = d.said p ++ new)
    (htrace : d'.world.server.trace = d.world.server.trace ++ obs)
    (htells : List.Forall₂ Saying.Text new (sends p obs)) : Linked s₀ calls d' p := by
  refine ⟨?_, ?_, ?_⟩
  · rw [hsaid, htrace, sends_append]
    exact List.rel_append h.said htells
  · have hle := h.handled
    rw [htab, hsaid, List.length_append]
    omega
  · rw [heard, htab, hsaid, List.take_append_of_le_length h.handled]
    exact h.follows

/-- The page handles its next message. -/
theorem deliver (h : Linked s₀ calls d p) {m : Bytes}
    (hm : (sends p d.world.server.trace)[(d.tab p).handled]? = some m) :
    Linked s₀ calls (d.delivered p m) p := by
  obtain ⟨hlt, hget⟩ := List.getElem?_eq_some_iff.mp hm
  have hlt' : (d.tab p).handled < (d.said p).length := by
    rwa [h.said.length_eq]
  have htext : Saying.Text (d.said p)[(d.tab p).handled] m :=
    hget ▸ (List.forall₂_iff_get.mp h.said).2 _ hlt' hlt
  have htab : (d.delivered p m).tab p =
      { script := (Script.wsonMessage m (d.tab p).script).state
        handled := (d.tab p).handled + 1 } := Function.update_self ..
  refine ⟨h.said, ?_, ?_⟩
  · rw [htab]
    exact hlt'
  · have hheard : (d.delivered p m).heard p = d.heard p ++ [(d.said p)[(d.tab p).handled]] := by
      rw [heard, htab]
      show (d.said p).take ((d.tab p).handled + 1) = _
      rw [List.take_add_one, List.getElem?_eq_getElem hlt']
      rfl
    rw [htab, hheard]
    exact h.follows.message htext

/-- A function of the script is called. -/
theorem act (h : Linked s₀ calls d p) {a : PageAction} (ha : a.isLocal = true) :
    Linked s₀ (calls ++ [a]) (d.acted p a) p := by
  have htab : (d.acted p a).tab p =
      { script := { (d.tab p).script with page := (d.tab p).script.page.after a }
        handled := (d.tab p).handled } := Function.update_self ..
  refine ⟨h.said, ?_, ?_⟩
  · rw [htab]
    exact h.handled
  · rw [heard, htab]
    exact h.follows.act ha

end Linked

/-- **Every page is linked to the SDK**, at any time. -/
theorem linked (h : (system sdk start).Run ds d) (p : ℕ) :
    Linked (start p) (acts p ds) d p := by
  induction h with
  | nil => exact ⟨.nil, Nat.le_refl _, Follows.start (start p)⟩
  | @snoc ds d d' a hrun hal hst ih =>
      have hacts : acts p (ds ++ [a]) = acts p ds ++ acts p [a] := List.filterMap_append
      have hother : acts p [a] = [] → d'.tab p = d.tab p → d'.said p = d.said p →
          d'.world = d.world → Linked (start p) (acts p (ds ++ [a])) d' p := by
        intro hnil htab hsaid hworld
        rw [hacts, hnil, List.append_nil]
        refine ih.more [] [] htab ?_ ?_ .nil
        · rw [hsaid, List.append_nil]
        · rw [hworld, List.append_nil]
      obtain ⟨hinv, hlisted⟩ := world_invariant hrun
      cases a with
      | process a =>
          obtain ⟨w, hw, rfl⟩ := step_process hst
          obtain ⟨obs, htrace, htells⟩ := step_tells hinv hlisted hal hw
          rw [hacts]
          exact (List.append_nil (acts p ds)).symm ▸ ih.more _ obs rfl rfl htrace (htells p)
      | session nSessionState =>
          obtain ⟨s, hs, rfl⟩ := step_session hst
          rw [OnSessionChange_run] at hs
          obtain ⟨t, ht, hall⟩ := forM_Send _ d.world.server.g_WSClientSet _ (live_of_forM_Send hs)
          rw [ht] at hs
          cases hs
          rw [hacts]
          refine (List.append_nil (acts p ds)).symm ▸
            ih.more (if p ∈ d.world.server.g_WSClientSet then [.session nSessionState] else []) _
              rfl ?_ hall.trace ?_
          · simp only [sessionChanged]
            split_ifs
            · rfl
            · rw [List.append_nil]
          · rw [sends_broadcast hlisted.once]
            split_ifs
            · exact .cons rfl .nil
            · exact .nil
      | deliver q =>
          obtain ⟨m, hm, rfl⟩ := step_deliver hal.1 hst
          by_cases hq : q = p
          · subst hq
            rw [hacts]
            exact (List.append_nil (acts q ds)).symm ▸ ih.deliver hm
          · exact hother rfl (Function.update_of_ne (Ne.symm hq) ..) rfl rfl
      | act q a =>
          cases hst
          by_cases hq : q = p
          · subst hq
            rw [hacts, show acts q [Deed.act q a] = [a] by simp [acts]]
            exact ih.act hal
          · exact hother (by simp [acts, hq]) (Function.update_of_ne (Ne.symm hq) ..) rfl rfl

/-! ### Main results -/

/-- A page is open, a call is answered, the page asks for the version and the session is locked.
Lws takes the three messages, the second in two parts, and the page handles them. -/
def answered : List Deed :=
  [.process (.lws 1 (.WSI_CREATE false)), .process (.lws 1 .ESTABLISHED), .act 0 (.socket .OPEN),
    .process (.sdk 0 (.onCallAnswered (bytes "7"))),
    .process (.lws 1 (.RECEIVE (some (bytes "\x7b\"type\":\"cmd\",\"cmd\":\"getVersion\"\x7d")))),
    .session 7, .process (.lws 1 (.SERVER_WRITEABLE 64)), .deliver 0,
    .process (.lws 1 (.SERVER_WRITEABLE 5)), .process (.lws 1 (.SERVER_WRITEABLE 62)), .deliver 0,
    .process (.lws 1 (.SERVER_WRITEABLE 85)), .deliver 0]

/-- What can be seen of it. -/
theorem exists_answered : ∃ d, (ordinary silentSdk fun _ => {}).Run answered d ∧
    d.heard 0 = [.event (.onCallAnswered (bytes "7")), .reply (bytes "getVersion"), .session 7] ∧
    (d.tab 0).script.page.callid = some (bytes "7") ∧
    (d.tab 0).script.replies.map Prod.fst = ["getVersion"] := by
  obtain ⟨d, hrun, hd⟩ := StepSystem.run_of_check_map (S := ordinary silentSdk fun _ => {})
    (f := fun d => decide (d.heard 0 =
        [.event (.onCallAnswered (bytes "7")), .reply (bytes "getVersion"), .session 7] ∧
      (d.tab 0).script.page.callid = some (bytes "7") ∧
      (d.tab 0).script.replies.map Prod.fst = ["getVersion"])) (b := true) answered
    (by decide +kernel)
  exact ⟨d, hrun, of_decide_eq_true hd⟩

/-- Calls that are resumed are known: each of them has alerted, been answered or come in since it
was last released. -/
def ResumesKnown (evs : List PageEvent) : Prop :=
  ∀ before callid reason, before ++ [.onCallResumed callid reason] <+: evs →
    Known callid (before.map .message)

/-- An event on the table, whether it is handled or raises an exception. -/
theorem calls_after_message (s : Page) (ev : PageEvent) :
    (s.after (.message ev)).calls = s.calls.step ev := by
  rw [Page.after_message, wsonMessage_calls]

theorem calls_after {s : Page} {a : PageAction} (ha : ∀ ev, a ≠ .message ev) :
    (s.after a).calls = s.calls := program_calls ha s

theorem event?_of_ne {a : PageAction} (ha : ∀ ev, a ≠ .message ev) : a.event? = none := by
  cases a <;> first | rfl | exact absurd rfl (ha _)

/-- The table after a history is what its events say, and the current call is known if only known
calls are resumed. -/
theorem table_foldl {s₀ : Page} (h₀ : s₀.calls = Page.calls {}) (hist : List PageAction) :
    TableInv (hist.foldl Page.after s₀).calls
        ((hist.filterMap PageAction.event?).map .message) ∧
      (ResumesKnown (hist.filterMap PageAction.event?) →
        (hist.foldl Page.after s₀).calls.CurrentKnown) := by
  induction hist using List.reverseRecOn with
  | nil =>
      rw [List.foldl_nil, h₀]
      exact ⟨.nil, fun _ _ hc => by cases hc⟩
  | append_singleton hist a ih =>
      obtain ⟨htable, hcurrent⟩ := ih
      rw [List.foldl_append, List.foldl_cons, List.foldl_nil, List.filterMap_append]
      by_cases ha : ∃ ev, a = .message ev
      · obtain ⟨ev, rfl⟩ := ha
        rw [calls_after_message, List.map_append]
        refine ⟨htable.message ev, fun hknown => ?_⟩
        have hbefore := hcurrent fun before callid reason hpre =>
          hknown before callid reason (hpre.trans (List.prefix_append ..))
        refine hbefore.step ?_
        rintro callid reason rfl
        exact (htable.keys callid).mpr (hknown _ callid reason List.prefix_rfl)
      · have ha : ∀ ev, a ≠ .message ev := fun ev hev => ha ⟨ev, hev⟩
        rw [calls_after ha, List.filterMap_cons_none (event?_of_ne ha), List.filterMap_nil,
          List.append_nil]
        exact ⟨htable, hcurrent⟩

/-- **The table of a page follows the SDK.** A page that knew no calls when it connected: at any
time, whatever the page called and asked meanwhile, its table is what the events say that it has
handled. A call is a key of `SessionS` exactly when it was opened and not released since, and
`callid` is the call that was selected last, if it was not released. If only calls are resumed
that were opened for the page before, `callid` is one of the keys. -/
theorem session_table_follows_sdk (h : (ordinary sdk start).Run ds d) (p : ℕ)
    (hstart : (start p).page.calls = Page.calls {}) :
    let evs := ((d.heard p).filterMap Saying.event?).map SdkEvent.page
    let page := (d.tab p).script.page
    (∀ callid, (page.SessionS callid).isSome = true ↔ Known callid (evs.map .message)) ∧
      (∀ callid, page.callid = some callid ↔ Current callid (evs.map .message)) ∧
      (ResumesKnown evs →
        ∀ callid, page.callid = some callid → (page.SessionS callid).isSome = true) := by
  intro evs page
  obtain ⟨hist, hpage, hevs, -⟩ := (linked h.of_restrict.1 p).follows.page
  obtain ⟨htable, hcurrent⟩ := table_foldl hstart hist
  rw [hevs, ← hpage] at htable hcurrent
  exact ⟨htable.keys, htable.callid, hcurrent⟩

/-- The page of the example knows the call, and it is the current one. -/
theorem session_table_follows_sdk_answered :
    ∃ d, (ordinary silentSdk fun _ => {}).Run answered d ∧
      ((d.tab 0).script.page.SessionS (bytes "7")).isSome = true ∧
      Known (bytes "7") [.message (.onCallAnswered (bytes "7"))] ∧
      Current (bytes "7") [.message (.onCallAnswered (bytes "7"))] := by
  obtain ⟨d, hrun, hheard, hcallid, -⟩ := exists_answered
  obtain ⟨hkeys, hcurrent, hknown⟩ := session_table_follows_sdk hrun 0 rfl
  have hevs : ((d.heard 0).filterMap Saying.event?).map SdkEvent.page =
      [.onCallAnswered (bytes "7")] := by
    rw [hheard]
    rfl
  rw [hevs] at hkeys hcurrent hknown
  have hres : ResumesKnown [.onCallAnswered (bytes "7")] := by
    intro before callid reason hpre
    rcases List.prefix_concat_iff.mp (show _ <+: [] ++ [_] from hpre) with heq | hnil
    · obtain ⟨-, hev⟩ := List.append_singleton_inj.mp heq
      cases hev
    · simp at hnil
  have hkey := hknown hres _ hcallid
  exact ⟨d, hrun, hkey, (hkeys _).mp hkey, (hcurrent _).mp hcallid⟩

end Deployment

end UCClient
