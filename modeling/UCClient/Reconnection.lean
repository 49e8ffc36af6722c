import UCClient.CallHistories

/-!
# Does the Order of Confirmations Matter to a Reconnection

`ReconnectCall` gives up a consultation: the active call is to be released and the held one
resumed. It marks both, and the two events that confirm it may come in either order, with
events of other calls before, between and after them. The handlers of the two events write
different sessions, and `callid` is left to the call that is resumed; so the order does not
matter, and neither do the other calls (`handle_status`).

What matters is whether both calls are marked. The mark of the held call is stored after the
command for the active one was sent, and `doSend` throws on a socket that is not open yet:
then the held call is not marked, and it ends without the status of a connected call.

## Main results

* `reconnect_iff`: the states from which a reconnection ends as it should, in every order.
* `reconnect_while_connecting`: a page that is just connecting again.
-/

namespace UCClient

open Page

namespace Page

/-- Events are handled one after another; a handler that throws ends there. -/
def handle (s : Page) (evs : List PageEvent) : Page :=
  evs.foldl (fun s ev => (wsonMessage ev s).state) s

/-- The state of the script, without what was observed. -/
def untraced (s : Page) : Page := { s with trace := [] }

variable {s : Page} {callid : Bytes}

theorem handle_append (evs evs' : List PageEvent) :
    s.handle (evs ++ evs') = (s.handle evs).handle evs' := List.foldl_append

theorem handle_cons (ev : PageEvent) (evs : List PageEvent) :
    s.handle (ev :: evs) = (s.handle [ev]).handle evs := rfl

/-- **Events of other calls do not change the status of a call.** -/
theorem handle_status {evs : List PageEvent} (h : ∀ ev ∈ evs, ev.call ≠ some callid) :
    (s.handle evs).status callid = s.status callid := by
  induction evs generalizing s with
  | nil => rfl
  | cons ev evs ih =>
      obtain ⟨hev, hevs⟩ := List.forall_mem_cons.mp h
      rw [handle_cons, ih hevs]
      refine wsonMessage_status ?_ ?_ s
      · rintro reason rfl
        exact hev rfl
      · rintro reason rfl
        exact hev rfl

end Page

/-! ### What `ReconnectCall` stores -/

/-- The status that `ReconnectCall` stores for a call it is given. -/
def marked (callid : Bytes) (SessionS : Bytes → Option Session) : Bytes → Option Session :=
  if callid = [] then SessionS
  else Function.update SessionS callid
    ((SessionS callid).map fun session => { session with _status := some .STATUS_RECONNECTING })

section Marked

variable {SessionS : Bytes → Option Session} {callid c : Bytes}

theorem marked_of_ne (hc : c ≠ callid) : marked callid SessionS c = SessionS c := by
  rw [marked]
  split
  · rfl
  · rw [Function.update_of_ne hc]

theorem isSome_marked : (marked callid SessionS c).isSome = (SessionS c).isSome := by
  rcases eq_or_ne c callid with rfl | hc
  · rw [marked]
    split
    · rfl
    · rw [Function.update_self, Option.isSome_map]
  · rw [marked_of_ne hc]

theorem marked_status (h : (SessionS callid).isSome = true) :
    (marked callid SessionS callid).bind Session._status =
      if callid = [] then (SessionS callid).bind Session._status
      else some .STATUS_RECONNECTING := by
  obtain ⟨session, hs⟩ := Option.isSome_iff_exists.mp h
  rw [marked]
  split
  · rfl
  · rw [Function.update_self, hs, Option.map_some, Option.bind_some]

end Marked

/-- A call that is known is marked before `m`; for another, `n` is done. -/
def withMark (callid : Bytes) (m n : PageM Unit) : PageM Unit := do
  if ← known (.string callid) then
    setSession callid fun session => { session with _status := some .STATUS_RECONNECTING }
    m
  else n

theorem ReconnectCall_eq (a h : Bytes) :
    ReconnectCall (.string a) (.string h) =
      withMark a
        (releaseCall (.string a) .undefined >>= fun _ =>
          withMark h (resumeCall (.string h)) (pure ()))
        (withMark h (resumeCall (.string h)) (pure ())) := rfl

section Mark

variable {s : Page} {callid a h : Bytes}

theorem withMark_run (hs : (s.SessionS callid).isSome = true) (m n : PageM Unit) :
    withMark callid m n s =
      (if callid = [] then n else m) { s with SessionS := marked callid s.SessionS } := by
  have hfinds : JsValue.finds s.calls.keys (.string callid) = JsValue.truthy (.string callid) := by
    rw [JsValue.finds]
    exact (congrArg _ hs).trans (Bool.and_true _)
  refine (ifKnown_run m n).trans ?_
  rw [hfinds]
  by_cases hc : callid = []
  · subst hc
    rfl
  · have htruthy : JsValue.truthy (.string callid) = true := by simpa [JsValue.truthy] using hc
    rw [if_pos htruthy, if_neg hc, marked, if_neg hc]
    rfl

theorem doSend_sessions (cmd : Cmd) : (doSend cmd s).state.SessionS = s.SessionS :=
  doSend_frame (R := fun s s' => s'.SessionS = s.SessionS) (fun _ _ h _ _ => h) cmd s

/-- The held call is marked, whether its command can be sent or not. -/
theorem withMark_sessions (hs : (s.SessionS callid).isSome = true) (cmd : Cmd) :
    (withMark callid (doSend cmd) (pure ()) s).state.SessionS = marked callid s.SessionS := by
  rw [withMark_run hs]
  split
  · rfl
  · exact doSend_sessions cmd

/-- **What `ReconnectCall` stores**: the active call is marked, and the held call unless an
exception comes before. -/
theorem ReconnectCall_sessions (ha : (s.SessionS a).isSome = true)
    (hh : (s.SessionS h).isSome = true) :
    (ReconnectCall (.string a) (.string h) s).state.SessionS =
      if a = [] ∨ s.canSend = true then marked h (marked a s.SessionS)
      else marked a s.SessionS := by
  have hheld : (marked a s.SessionS h).isSome = true := isSome_marked.trans hh
  rw [ReconnectCall_eq, withMark_run ha]
  by_cases hempty : a = []
  · rw [if_pos hempty, if_pos (.inl hempty)]
    exact withMark_sessions hheld _
  rw [if_neg hempty]
  cases hsend : s.canSend with
  | true =>
      rw [if_pos (.inr rfl), releaseCall,
        EStateM.bind_ok (doSend_ok (s := { s with SessionS := marked a s.SessionS }) hsend _)]
      exact withMark_sessions hheld _
  | false =>
      obtain ⟨e, he⟩ := doSend_error (s := { s with SessionS := marked a s.SessionS }) hsend
        ⟨"releaseCall", some [("callid", .string a), ("reason", .undefined)]⟩
      rw [if_neg (by simp [hempty]), releaseCall, EStateM.bind_error he]
      rfl

end Mark

/-! ### The confirmations -/

/-- The state after a reconnection: the active call is gone, the held call is connected and
current, and the other calls are as they were. -/
structure Reconnected (a h : Bytes) (s s' : Page) : Prop where
  released : s'.SessionS a = none
  connected : s'.status h = some .STATUS_CONNECTED
  current : s'.callid = some h
  others : ∀ c, c ≠ a → c ≠ h → s'.SessionS c = s.SessionS c

/-- After a reconnection was asked for in `s`, which is then `s₁`, its two confirmations are
handled in either order, and with events of other calls before, between and after them. -/
structure Confirmed (a h : Bytes) (s s₁ : Page) (released resumed : PageEvent) : Prop where
  commute : (s₁.handle [released, resumed]).untraced = (s₁.handle [resumed, released]).untraced
  reconnected : Reconnected a h s (s₁.handle [released, resumed])
  first : s₁.reported released = some .Reconnection
  last : (s₁.handle [resumed]).reported released = some .Reconnection
  others : ∀ before during after : List PageEvent,
    (∀ ev ∈ before ++ during ++ after, ev.call ≠ some a ∧ ev.call ≠ some h) →
    (s₁.handle before).reported released = s₁.reported released ∧
      (s₁.handle (before ++ resumed :: during)).reported released =
        (s₁.handle [resumed]).reported released ∧
      ∀ c, c = a ∨ c = h →
        (s₁.handle (before ++ released :: during ++ resumed :: after)).status c =
            (s₁.handle [released, resumed]).status c ∧
          (s₁.handle (before ++ resumed :: during ++ released :: after)).status c =
            (s₁.handle [resumed, released]).status c

section Confirmations

variable {s s₁ : Page} {a h : Bytes}

/-- The status of a call that was resumed. -/
def resumedStatus (status : Option CallStatus) : Option CallStatus :=
  if status = some .STATUS_RECONNECTING then some .STATUS_CONNECTED else status

theorem status_released (reason : ℤ) :
    (s.handle [.onCallReleased a reason]).status a = none := by
  simp [Page.handle, onCallReleased_run, EStateM.Result.state, status]

theorem status_resumed (reason : ℤ) :
    (s.handle [.onCallResumed h reason]).status h = resumedStatus (s.status h) := by
  by_cases hst : s.status h = some .STATUS_RECONNECTING
  · obtain ⟨session, hs, hsession⟩ := Option.bind_eq_some_iff.mp hst
    rw [hst]
    simp [Page.handle, onCallResumed_run hs, EStateM.Result.state, status, hsession, resumedStatus]
  · rw [resumedStatus, if_neg hst]
    exact onCallResumed_status reason hst

theorem status_single {ev : PageEvent} {c : Bytes} (hev : ev.call ≠ some c) :
    (s.handle [ev]).status c = s.status c :=
  handle_status (by simpa using hev)

/-- Two events that act on the status of a call act on it in the same way among events of
other calls. -/
theorem status_among {c : Bytes} {x y : PageEvent} (f g : Option CallStatus → Option CallStatus)
    (hx : ∀ s : Page, (s.handle [x]).status c = f (s.status c))
    (hy : ∀ s : Page, (s.handle [y]).status c = g (s.status c))
    {before during after : List PageEvent}
    (hev : ∀ ev ∈ before ++ during ++ after, ev.call ≠ some c) :
    (s.handle (before ++ x :: during ++ y :: after)).status c = (s.handle [x, y]).status c := by
  obtain ⟨hfront, hafter⟩ := List.forall_mem_append.mp hev
  obtain ⟨hbefore, hduring⟩ := List.forall_mem_append.mp hfront
  calc (s.handle (before ++ x :: during ++ y :: after)).status c
      = g ((s.handle (before ++ x :: during)).status c) := by
        rw [handle_append, handle_cons, handle_status hafter, hy]
    _ = g (f (s.status c)) := by
        rw [handle_append, handle_cons, handle_status hduring, hx, handle_status hbefore]
    _ = (s.handle [x, y]).status c := by rw [handle_cons, hy, hx]

/-- The state after both confirmations, if the session of the held call was `session`. -/
def confirmed (a h : Bytes) (session : Session) (s : Page) : Page :=
  { s with
    callid := some h
    SessionS := Function.update (Function.update s.SessionS a none) h
      (some (if session._status = some .STATUS_RECONNECTING
        then { session with _status := some .STATUS_CONNECTED } else session))
    trace := [] }

/-- **The confirmations commute.** -/
theorem handle_both {session : Session} (hne : a ≠ h) (hs : s.SessionS h = some session)
    (ra rh : ℤ) :
    (s.handle [.onCallReleased a ra, .onCallResumed h rh]).untraced = confirmed a h session s ∧
      (s.handle [.onCallResumed h rh, .onCallReleased a ra]).untraced =
        confirmed a h session s := by
  have hs' : Function.update s.SessionS a none h = some session := by
    rw [Function.update_of_ne hne.symm, hs]
  have hcallid : some h ≠ some a := fun heq => hne (Option.some.inj heq).symm
  simp only [Page.handle, List.foldl_cons, List.foldl_nil, onCallReleased_run, EStateM.Result.state,
    untraced, confirmed]
  rw [onCallResumed_run hs, onCallResumed_run hs']
  exact ⟨rfl, by simp only [if_neg hcallid, Function.update_comm hne]⟩

/-- After both confirmations everything is as it should be, but for the status. -/
theorem reconnected_iff (hne : a ≠ h) (hh : (s₁.SessionS h).isSome = true)
    (hothers : ∀ c, c ≠ a → c ≠ h → s₁.SessionS c = s.SessionS c) (ra rh : ℤ) :
    Reconnected a h s (s₁.handle [.onCallReleased a ra, .onCallResumed h rh]) ↔
      resumedStatus (s₁.status h) = some .STATUS_CONNECTED := by
  have hstatus : (s₁.handle [.onCallReleased a ra, .onCallResumed h rh]).status h =
      resumedStatus (s₁.status h) := by
    rw [handle_cons, status_resumed, status_single (by simpa [PageEvent.call] using hne)]
  refine ⟨fun hrec => hstatus ▸ hrec.connected, fun hst => ?_⟩
  obtain ⟨session, hs⟩ := Option.isSome_iff_exists.mp hh
  have hend := (handle_both hne hs ra rh).1
  have hsessions : ∀ c, c ≠ h →
      (s₁.handle [.onCallReleased a ra, .onCallResumed h rh]).SessionS c =
        Function.update s₁.SessionS a none c := fun c hc =>
    (congrArg (fun s : Page => s.SessionS c) hend).trans (Function.update_of_ne hc _ _)
  have hcallid : (s₁.handle [.onCallReleased a ra, .onCallResumed h rh]).callid = some h :=
    congrArg (fun s : Page => s.callid) hend
  refine ⟨?_, hstatus.trans hst, hcallid, fun c hca hch => ?_⟩
  · rw [hsessions a hne, Function.update_self]
  · rw [hsessions c hch, Function.update_of_ne hca, hothers c hca hch]

theorem resumedStatus_eq_connected {status : Option CallStatus} :
    resumedStatus status = some .STATUS_CONNECTED ↔
      status = some .STATUS_RECONNECTING ∨ status = some .STATUS_CONNECTED := by
  rw [resumedStatus]
  split
  · simp_all
  · simp_all

/-- **When the confirmations end a reconnection**: when they find both calls marked, or the
held call connected already. -/
theorem confirmed_iff (hne : a ≠ h) (hh : (s₁.SessionS h).isSome = true)
    (hothers : ∀ c, c ≠ a → c ≠ h → s₁.SessionS c = s.SessionS c) (ra rh : ℤ) :
    Confirmed a h s s₁ (.onCallReleased a ra) (.onCallResumed h rh) ↔
      s₁.status a = some .STATUS_RECONNECTING ∧
        (s₁.status h = some .STATUS_RECONNECTING ∨ s₁.status h = some .STATUS_CONNECTED) := by
  have hrel : ∀ s : Page, (s.handle [.onCallReleased a ra]).status h = s.status h := fun s =>
    status_single (by simpa [PageEvent.call] using hne)
  have hres : ∀ s : Page, (s.handle [.onCallResumed h rh]).status a = s.status a := fun s =>
    status_single (by simpa [PageEvent.call] using hne.symm)
  have hcause : ∀ s : Page, s.reported (.onCallReleased a ra) = some .Reconnection ↔
      s.status a = some .STATUS_RECONNECTING := by
    intro s
    rw [reported_onCallReleased]
    simp
  rw [← resumedStatus_eq_connected, ← reconnected_iff hne hh hothers ra rh, ← hcause]
  refine ⟨fun hc => ⟨hc.first, hc.reconnected⟩, fun ⟨hfirst, hrec⟩ => ?_⟩
  obtain ⟨session, hs⟩ := Option.isSome_iff_exists.mp hh
  obtain ⟨hone, htwo⟩ := handle_both hne hs ra rh
  refine ⟨hone.trans htwo.symm, hrec, hfirst, ?_, fun before during after hev => ⟨?_, ?_, ?_⟩⟩
  · rw [hcause, hres, ← hcause]
    exact hfirst
  · have hbefore : ∀ ev ∈ before, ev.call ≠ some a := fun ev hmem => (hev ev (by simp [hmem])).1
    rw [reported_onCallReleased, handle_status hbefore, ← reported_onCallReleased]
  · have hbefore : ∀ ev ∈ before, ev.call ≠ some a := fun ev hmem => (hev ev (by simp [hmem])).1
    have hduring : ∀ ev ∈ during, ev.call ≠ some a := fun ev hmem => (hev ev (by simp [hmem])).1
    rw [reported_onCallReleased, handle_append, handle_cons, handle_status hduring, hres,
      handle_status hbefore, reported_onCallReleased, hres]
  · rintro c (rfl | rfl)
    · have hev : ∀ ev ∈ before ++ during ++ after, ev.call ≠ some c := fun ev hm => (hev ev hm).1
      have hrel : ∀ s : Page, (s.handle [.onCallReleased c ra]).status c = none := fun s =>
        status_released ra
      exact ⟨status_among (fun _ => none) id hrel hres hev,
        status_among id (fun _ => none) hres hrel hev⟩
    · have hev : ∀ ev ∈ before ++ during ++ after, ev.call ≠ some c := fun ev hm => (hev ev hm).2
      have hres : ∀ s : Page, (s.handle [.onCallResumed c rh]).status c =
          resumedStatus (s.status c) := fun s => status_resumed rh
      exact ⟨status_among id resumedStatus hrel hres hev,
        status_among resumedStatus id hres hrel hev⟩

/-- **When a reconnection does not depend on the order of its confirmations.** From any state
of the script in which it knows both calls: however the release of the active call and the
event that the held call was resumed come in, and whatever events of other calls come with
them, the script ends in the same state, with the active call gone, the held call connected
and current and the other calls as they were, and reports the release as a reconnection,
exactly when both calls were marked — the callids are not empty and the socket takes the
command for the active call — or had the status already. -/
theorem reconnect_iff {s : Page} {a h : Bytes} (hne : a ≠ h) (ha : (s.SessionS a).isSome = true)
    (hh : (s.SessionS h).isSome = true) :
    (∀ ra rh, Confirmed a h s (ReconnectCall (.string a) (.string h) s).state
        (.onCallReleased a ra) (.onCallResumed h rh)) ↔
      (a ≠ [] ∨ s.status a = some .STATUS_RECONNECTING) ∧
        (h ≠ [] ∧ (a = [] ∨ s.canSend = true) ∨
          s.status h = some .STATUS_RECONNECTING ∨ s.status h = some .STATUS_CONNECTED) := by
  have hsessions := ReconnectCall_sessions ha hh
  have hheld : (marked a s.SessionS h).isSome = true := isSome_marked.trans hh
  generalize (ReconnectCall (.string a) (.string h) s).state = s₁ at hsessions
  have hknown : (s₁.SessionS h).isSome = true := by
    rw [hsessions]
    split
    · rw [isSome_marked, isSome_marked, hh]
    · rw [isSome_marked, hh]
  have hothers : ∀ c, c ≠ a → c ≠ h → s₁.SessionS c = s.SessionS c := by
    intro c hca hch
    rw [hsessions]
    split
    · rw [marked_of_ne hch, marked_of_ne hca]
    · rw [marked_of_ne hca]
  have hactive : s₁.status a = if a = [] then s.status a else some .STATUS_RECONNECTING := by
    rw [status, hsessions, status, ← marked_status ha]
    split
    · rw [marked_of_ne hne]
    · rfl
  have hstatus : s₁.status h = if h ≠ [] ∧ (a = [] ∨ s.canSend = true)
      then some .STATUS_RECONNECTING else s.status h := by
    have hsame : (marked a s.SessionS h).bind Session._status = s.status h := by
      rw [marked_of_ne hne.symm, status]
    rw [status, hsessions]
    by_cases hsend : a = [] ∨ s.canSend = true
    · rw [if_pos hsend, marked_status hheld, hsame]
      simp [hsend]
    · rw [if_neg hsend, hsame]
      simp [hsend]
  have hpart : ∀ ra rh, Confirmed a h s s₁ (.onCallReleased a ra) (.onCallResumed h rh) ↔ _ :=
    confirmed_iff hne hknown hothers
  simp only [hpart, forall_const]
  refine and_congr ?_ ?_
  · rw [hactive]
    by_cases hempty : a = []
    · simp [hempty]
    · simp [hempty]
  · rw [hstatus]
    by_cases hmark : h ≠ [] ∧ (a = [] ∨ s.canSend = true)
    · rw [if_pos hmark]
      exact iff_of_true (.inl rfl) (.inl hmark)
    · rw [if_neg hmark, or_iff_right hmark]

end Confirmations

/-- Two calls are reconnected over an open socket. -/
theorem reconnect_open : ∃ s : Page, s.status [49] = none ∧ s.status [50] = none ∧
    ∀ ra rh, Confirmed [50] [49] s (ReconnectCall (.string [50]) (.string [49]) s).state
      (.onCallReleased [50] ra) (.onCallResumed [49] rh) := by
  let s : Page :=
    Page.handle { websocket := some .OPEN } [.onCallAnswered [49], .onCallAnswered [50]]
  refine ⟨s, rfl, rfl, (reconnect_iff (by decide) rfl rfl).mpr ⟨.inl (by decide), .inl ?_⟩⟩
  exact ⟨by decide, .inr rfl⟩

/-- **A reconnection while the page connects again.** The page has two calls and makes a new
connection. A reconnection asked for before the socket is open throws on the command for the
active call; after both confirmations the held call has no status. -/
theorem reconnect_while_connecting :
    ∃ b, Browser.system.Run
        [.Connect (.string [119]), .socket .OPEN, .message (.onCallAnswered [49]),
          .message (.onCallAnswered [50]), .Connect (.string [119])] b ∧
      (b.page.SessionS [50]).isSome = true ∧ (b.page.SessionS [49]).isSome = true ∧
      ((ReconnectCall (.string [50]) (.string [49]) b.page).state.handle
        [.onCallReleased [50] 200, .onCallResumed [49] 200]).status [49] = none := by
  obtain ⟨b, hrun, hb⟩ := StepSystem.run_of_check_map (S := Browser.system)
    (f := fun b => ((b.page.SessionS [50]).isSome, (b.page.SessionS [49]).isSome,
      ((ReconnectCall (.string [50]) (.string [49]) b.page).state.handle
        [.onCallReleased [50] 200, .onCallResumed [49] 200]).status [49]))
    (b := (true, true, none))
    [.Connect (.string [119]), .socket .OPEN, .message (.onCallAnswered [49]),
      .message (.onCallAnswered [50]), .Connect (.string [119])] (by decide +kernel)
  obtain ⟨hactive, hheld, hstatus⟩ : _ ∧ _ ∧ _ := by simpa using hb
  exact ⟨b, hrun, hactive, hheld, hstatus⟩

end UCClient
