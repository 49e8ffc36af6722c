import UCClient.CallHistories

/-!
# What a Consultation Dials

`ConsultationCall` notes the number on the session, sets its status and holds the call;
when the hold is confirmed, the branch of `onCallPaused` dials the number. Nothing resets
the status then, and the branch does not look at the reason of the event. So the number is
dialled again whenever the call is held again, and also when a hold failed; and it is dialled
for a consultation that threw, because its command could not be sent.

That every dial is owed to its own consultation is stated on the history: the dials are
matched with earlier consultations of the same call and number that returned 0, no two
with the same one (`Matched`), and each is made on reason 200 (`Accounted`).

When this holds is said of the calls and events: a call that is to be consulted on is held once,
with success, before it is released or given to a function of the script again (`HeldOnce`). If
no call is consulted on twice with the same number, this is also necessary; otherwise the second
hold may use up a consultation that was never dialled.

## Main results

* `consultation_dials_iff`: the histories in which all dials are accounted for.
* `consultation_dials_twice`: a call is consulted on once, held, resumed and held again;
  the number is dialled twice.
-/

namespace UCClient

open Page

/-- The number a command dials. -/
def PageObs.called : PageObs → Option JsValue
  | .send ⟨"makeCall", some [("called", number)]⟩ => some number
  | _ => none

namespace Entry

/-- The call and the number of a `ConsultationCall` that returned 0. -/
def consulted (e : Entry) : Option (Bytes × JsValue) :=
  match e.action, e.result with
  | .ConsultationCall callid called _, .ok (some 0) => some (callid.key, called)
  | _, _ => none

/-- The call and the number of a `makeCall` that the branch of `onCallPaused` sent. -/
def dialled (e : Entry) : Option (Bytes × JsValue) :=
  match e.action with
  | .message (.onCallPaused callid _) => (e.obs.findSome? PageObs.called).map (callid, ·)
  | _ => none

end Entry

/-- Every dial corresponds to an earlier consultation of its own, on the same call and with
the same number, and was made when a hold succeeded. -/
structure Accounted (log : List Entry) : Prop where
  matched : Matched Entry.consulted Entry.dialled log
  succeeded : ∀ e ∈ log, e.dialled ≠ none → ∃ callid, e.action = .message (.onCallPaused callid 200)

/-- The number a pause event for the call dials in this state. -/
def Page.dials (s : Page) (callid : Bytes) : Option JsValue :=
  (s.SessionS callid).bind fun session =>
    if session._status = some .STATUS_CONSULTATIONING ∧ s.canSend = true
    then some session._consultNumber else none

namespace PageAction

/-- The call and the reason of a pause event. -/
def paused : PageAction → Option (Bytes × ℤ)
  | .message (.onCallPaused callid reason) => some (callid, reason)
  | _ => none

/-- The call and the number of a `ConsultationCall`. -/
def consults : PageAction → Option (Bytes × JsValue)
  | .ConsultationCall callid called _ => some (callid.key, called)
  | _ => none

end PageAction

/-- The number of a mark for a consultation. -/
def Mark.number : Mark → Option JsValue
  | .consultation called => some called
  | .reconnection | .alternation | .conference => none

/-- `ConsultationCall` was the last function of the script that marked the call, and the call was
not released since. -/
def Consulting (callid : Bytes) (as : List PageAction) : Prop :=
  SinceAt (fun past a => ((marks past a callid).bind Mark.number).isSome = true)
    (fun past a => marks past a callid ≠ none ∨ a.Releases callid) as

/-- Moreover, its command could be sent, and the call was not held since while the socket took
what is sent. -/
def HoldAwaited (callid : Bytes) (as : List PageAction) : Prop :=
  SinceAt (fun past a => ((marks past a callid).bind Mark.number).isSome = true ∧
      takesSends past = true)
    (fun past a => (marks past a callid ≠ none ∨ a.Releases callid) ∨
      (∃ pause ∈ a.paused, pause.1 = callid) ∧ takesSends past = true) as

instance (callid : Bytes) (as : List PageAction) : Decidable (Consulting callid as) :=
  inferInstanceAs (Decidable (SinceAt _ _ as))

instance (callid : Bytes) (as : List PageAction) : Decidable (HoldAwaited callid as) :=
  inferInstanceAs (Decidable (SinceAt _ _ as))

/-- If a call that is to be consulted on is held while the socket takes what is sent, the hold
succeeded and is the first since the consultation was asked for. -/
def HeldOnce (past : List PageAction) (a : PageAction) : Prop :=
  ∀ pause ∈ a.paused, takesSends past = true → Consulting pause.1 past →
    pause.2 = 200 ∧ HoldAwaited pause.1 past

instance (past : List PageAction) (a : PageAction) : Decidable (HeldOnce past a) :=
  inferInstanceAs (Decidable (∀ pause ∈ _, _ → _ → _))

/-- If the action is a pause event that dials, the hold succeeded and a consultation on the
call with that number has not been dialled. -/
def mayDial (b : Browser) (a : PageAction) : Prop :=
  ∀ pause ∈ a.paused, ∀ number ∈ b.page.dials pause.1, pause.2 = 200 ∧
    b.log.countP (fun e => e.dialled = some (pause.1, number)) <
      b.log.countP (fun e => e.consulted = some (pause.1, number))

/-! ### One event -/

variable {s : Page} {b : Browser} {a : PageAction}

/-- **What the branch of `onCallPaused` dials** is decided by the state it finds. -/
theorem onCallPaused_called (callid : Bytes) (reason : ℤ) (hs : s.trace = []) :
    (wsonMessage (.onCallPaused callid reason) s).state.trace.findSome? PageObs.called =
      s.dials callid := by
  cases hsession : s.SessionS callid with
  | none =>
      simp only [wsonMessage, session_bind, hsession, dials, EStateM.Result.state, hs]
      rfl
  | some session =>
      rw [onCallPaused_run hsession]
      by_cases hc : session._status = some .STATUS_CONSULTATIONING
      · rw [if_pos hc, setUserData, makeCall]
        cases hsend : s.canSend with
        | true =>
            rw [EStateM.bind_ok (doSend_ok hsend _),
              EStateM.bind_ok (doSend_ok (s := s.observed _) hsend _), callback_ok]
            simp only [dials, hsession, Option.bind_some, hc, hsend, and_self, if_true]
            simp [EStateM.Result.state, observed, hs, List.findSome?, PageObs.called]
        | false =>
            obtain ⟨e, he⟩ := doSend_error hsend
              ⟨"setUserData", some [("type", .number 2), ("data", session._userdata)]⟩
            rw [EStateM.bind_error he]
            simp [dials, hsession, hsend, EStateM.Result.state, hs]
      · rw [if_neg hc]
        simp [dials, hsession, hc, EStateM.Result.state, observed, hs, PageObs.called]

/-- What a step adds to the dials of the history. -/
theorem dialled_entry : (b.entry a).dialled =
    a.paused.bind fun pause => (b.page.dials pause.1).map (pause.1, ·) := by
  cases a with
  | message ev =>
      cases ev with
      | onCallPaused callid reason =>
          have hcalled := onCallPaused_called (s := { b.page with trace := [] }) callid reason rfl
          rw [← EStateM.state_bind_pure _ (none : Option ℕ)] at hcalled
          exact congrArg (Option.map (callid, ·)) hcalled
      | _ => rfl
  | _ => rfl

/-- An entry that dials is one of a pause event, and consults nobody. -/
theorem of_dialled_entry {dial : Bytes × JsValue} (h : (b.entry a).dialled = some dial) :
    ∃ reason, a = .message (.onCallPaused dial.1 reason) ∧ b.page.dials dial.1 = some dial.2 ∧
      (b.entry a).consulted = none := by
  rw [dialled_entry, Option.bind_eq_some_iff] at h
  obtain ⟨⟨callid, reason⟩, hpause, h⟩ := h
  obtain ⟨number, hnumber, rfl⟩ := Option.map_eq_some_iff.mp h
  obtain rfl : a = .message (.onCallPaused callid reason) := by
    cases a with
    | message ev => cases ev <;> cases hpause; rfl
    | _ => cases hpause
  exact ⟨reason, rfl, hnumber, rfl⟩

/-! ### Histories -/

theorem Accounted.nil : Accounted [] := ⟨.nil, fun _ he => absurd he List.not_mem_nil⟩

/-- **One step keeps the dials accounted for exactly when it may dial what it dials.** -/
theorem Accounted.step_iff (h : Accounted b.log) :
    Accounted (b.step a).log ↔ mayDial b a := by
  rw [Browser.step]
  cases hdial : (b.entry a).dialled with
  | none =>
      refine iff_of_true ⟨(Matched.snoc_of_none hdial).mpr h.matched, fun e he hne => ?_⟩ ?_
      · rcases List.mem_append.mp he with he | he
        · exact h.succeeded e he hne
        · obtain rfl := List.mem_singleton.mp he
          exact absurd hdial hne
      · intro pause hpause number hnumber
        rw [dialled_entry, hpause, Option.bind_some, hnumber] at hdial
        cases hdial
  | some dial =>
      obtain ⟨reason, rfl, hnumber, hnone⟩ := of_dialled_entry hdial
      have hmay : mayDial b (.message (.onCallPaused dial.1 reason)) ↔ reason = 200 ∧
          b.log.countP (fun e => e.dialled = some dial) <
            b.log.countP (fun e => e.consulted = some dial) := by
        simp [mayDial, PageAction.paused, hnumber]
      rw [hmay]
      constructor
      · intro h'
        obtain ⟨callid, heq⟩ := h'.succeeded _ (List.mem_append_right _ List.mem_cons_self)
          (by rw [hdial]; exact Option.some_ne_none _)
        cases heq
        exact ⟨rfl, ((Matched.snoc hdial hnone).mp h'.matched).2⟩
      · rintro ⟨rfl, hlt⟩
        refine ⟨(Matched.snoc hdial hnone).mpr ⟨h.matched, hlt⟩, fun e he hne => ?_⟩
        rcases List.mem_append.mp he with he | he
        · exact h.succeeded e he hne
        · obtain rfl := List.mem_singleton.mp he
          exact ⟨dial.1, rfl⟩

/-! ### What the history says -/

section History

variable {as : List PageAction} {callid : Bytes} {number : JsValue}

theorem dials_eq_some : s.dials callid = some number ↔
    s.canSend = true ∧ s.mark callid = some (.consultation number) := by
  rw [dials, mark]
  cases s.SessionS callid with
  | none => simp
  | some session =>
      rw [Option.bind_some, Option.bind_some, Session.mark]
      by_cases hst : session._status = some .STATUS_CONSULTATIONING
      · simp [hst, and_comm]
      · rw [if_neg fun h => hst h.1]
        split <;> simp_all

theorem number_isSome_iff {m : Option Mark} :
    (m.bind Mark.number).isSome = true ↔ ∃ called, m = some (.consultation called) := by
  rcases m with _ | _ | _ | _ | _ <;> simp [Mark.number]

theorem consulting_iff :
    Consulting callid as ↔ ∃ number, Marked callid (.consultation number) as := by
  simp only [Consulting, Marked, number_isSome_iff, sinceAt_exists, reduceCtorEq, false_and,
    or_false]

/-- A hold is awaited for a number. -/
def AwaitedFor (callid : Bytes) (number : JsValue) (as : List PageAction) : Prop :=
  SinceAt (fun past a => marks past a callid = some (.consultation number) ∧
      takesSends past = true)
    (fun past a => (marks past a callid ≠ none ∨ a.Releases callid) ∨
      (∃ pause ∈ a.paused, pause.1 = callid) ∧ takesSends past = true) as

theorem holdAwaited_iff : HoldAwaited callid as ↔ ∃ number, AwaitedFor callid number as := by
  simp only [HoldAwaited, AwaitedFor, number_isSome_iff, ← sinceAt_exists, exists_and_right]

theorem AwaitedFor.marked (h : AwaitedFor callid number as) :
    Marked callid (.consultation number) as :=
  h.mono (fun _ _ hp => hp.1) fun _ _ hq => .inl (hq.imp_right fun h => h.resolve_right (by simp))

theorem awaitedFor_snoc : AwaitedFor callid number (as ++ [a]) ↔
    marks as a callid = some (.consultation number) ∧ takesSends as = true ∨
      AwaitedFor callid number as ∧ ¬ ((marks as a callid ≠ none ∨ a.Releases callid) ∨
        (∃ pause ∈ a.paused, pause.1 = callid) ∧ takesSends as = true) := sinceAt_snoc

/-- When a `ConsultationCall` returns 0. -/
theorem ConsultationCall_value (x called userdata : JsValue) :
    (Page.ConsultationCall x called userdata s).value = .ok 0 ↔
      x.finds s.calls.keys = true ∧ s.canSend = true := by
  rw [Page.ConsultationCall, ifKnown_run]
  cases hx : x.finds s.calls.keys with
  | false =>
      refine iff_of_false ?_ (by simp)
      simp [EStateM.Result.value, pure, EStateM.pure]
  | true =>
      rw [if_pos rfl, pauseCall]
      cases hsend : s.canSend with
      | true =>
          rw [EStateM.bind_ok (doSend_ok (s := s.stored x _) hsend _)]
          exact iff_of_true rfl ⟨rfl, rfl⟩
      | false =>
          obtain ⟨e, he⟩ := doSend_error (s := s.stored x _) hsend
            ⟨"pauseCall", some [("callid", x)]⟩
          rw [EStateM.bind_error he]
          exact iff_of_false (by simp [EStateM.Result.value]) (by simp)

theorem consulted_eq_some {x called userdata : JsValue} {dial : Bytes × JsValue} :
    (b.entry (.ConsultationCall x called userdata)).consulted = some dial ↔
      (x.key, called) = dial ∧ x.finds b.page.calls.keys = true ∧ b.page.canSend = true := by
  have hvalue : (b.entry (.ConsultationCall x called userdata)).result =
      (Page.ConsultationCall x called userdata { b.page with trace := [] }).value.map some :=
    EStateM.value_map some _ _
  have hzero := ConsultationCall_value (s := { b.page with trace := [] }) x called userdata
  have hkeys : Page.calls { b.page with trace := [] } = b.page.calls := rfl
  have hsend : Page.canSend { b.page with trace := [] } = b.page.canSend := rfl
  rw [hkeys, hsend] at hzero
  rw [← hzero]
  have hact : (b.entry (.ConsultationCall x called userdata)).action =
    .ConsultationCall x called userdata := rfl
  rw [Entry.consulted, hact, hvalue]
  rcases (Page.ConsultationCall x called userdata { b.page with trace := [] }).value with e | n
  · simp [Except.map]
  · cases n with
    | zero => simp [Except.map]
    | succ n => simp [Except.map]

/-- The consultations that count are those that mark the call while the socket takes what is
sent. -/
theorem consulted_entry_iff (h : Browser.system.Run as b) :
    (b.entry a).consulted = some (callid, number) ↔
      marks as a callid = some (.consultation number) ∧ takesSends as = true := by
  rw [← marks_history h, ← canSend_history h]
  cases a with
  | ConsultationCall x called userdata =>
      rw [consulted_eq_some, PageAction.mark]
      simp only [Prod.mk.injEq, Option.ite_none_right_eq_some, Option.some.injEq,
        Mark.consultation.injEq]
      tauto
  | ReconnectCall | AlternateCall | transferMeeting =>
      refine iff_of_false (by simp [Entry.consulted, Browser.entry]) fun h => ?_
      obtain ⟨hmark, -⟩ := h
      rw [PageAction.mark] at hmark
      split_ifs at hmark
      cases hmark
  | Connect | socket | message | plain =>
      exact iff_of_false (by simp [Entry.consulted, Browser.entry]) (by simp [PageAction.mark])

/-- The dials are made by the holds that come while the call is to be consulted on. -/
theorem dialled_entry_iff (h : Browser.system.Run as b) :
    (b.entry a).dialled = some (callid, number) ↔ (∃ reason, a.paused = some (callid, reason)) ∧
      takesSends as = true ∧ Marked callid (.consultation number) as := by
  rw [dialled_entry, Option.bind_eq_some_iff, ← mark_history h, ← canSend_history h]
  simp only [Option.map_eq_some_iff, dials_eq_some, Prod.mk.injEq, Prod.exists]
  constructor
  · rintro ⟨_, reason, hpause, _, hdials, rfl, rfl⟩
    exact ⟨⟨reason, hpause⟩, hdials⟩
  · rintro ⟨⟨reason, hpause⟩, hdials⟩
    exact ⟨callid, reason, hpause, number, hdials, rfl, rfl⟩

/-- A consultation that counts is one of the calls of the page. -/
theorem consults_of_marks (h : marks as a callid = some (.consultation number)) :
    a.consults = some (callid, number) := by
  cases a with
  | ConsultationCall x called userdata =>
      rw [marks, PageAction.mark] at h
      split_ifs at h with hx
      cases h
      rw [PageAction.consults, hx.2]
  | ReconnectCall | AlternateCall | transferMeeting =>
      rw [marks, PageAction.mark] at h
      split_ifs at h
      cases h
  | Connect | socket | message | plain => cases h

/-- The consultations of a call with a number that returned 0. -/
def consultations (log : List Entry) (dial : Bytes × JsValue) : ℕ :=
  log.countP fun e => e.consulted = some dial

/-- The dials of a number for a call. -/
def dialCount (log : List Entry) (dial : Bytes × JsValue) : ℕ :=
  log.countP fun e => e.dialled = some dial

theorem consultations_step (dial : Bytes × JsValue) : consultations (b.step a).log dial =
    consultations b.log dial + if (b.entry a).consulted = some dial then 1 else 0 := by
  simp [consultations, Browser.step, List.countP_append, List.countP_singleton]

theorem dialCount_step (dial : Bytes × JsValue) : dialCount (b.step a).log dial =
    dialCount b.log dial + if (b.entry a).dialled = some dial then 1 else 0 := by
  simp [dialCount, Browser.step, List.countP_append, List.countP_singleton]

/-- **Holds that come once each are paid for**: if a hold is awaited, one consultation more has
returned 0 than was dialled. -/
theorem dialCount_le (h : Browser.system.Run as b) (hheld : AtEach HeldOnce as)
    (callid : Bytes) (number : JsValue) :
    dialCount b.log (callid, number) ≤ consultations b.log (callid, number) ∧
      (AwaitedFor callid number as →
        dialCount b.log (callid, number) < consultations b.log (callid, number)) := by
  induction h with
  | nil => exact ⟨Nat.le_refl _, fun hawait => absurd hawait not_sinceAt_nil⟩
  | @snoc as b b' a hrun _ hst ih =>
      cases hst
      obtain ⟨hbefore, hlast⟩ := atEach_snoc.mp hheld
      obtain ⟨hle, hlt⟩ := ih hbefore
      rw [consultations_step, dialCount_step, awaitedFor_snoc]
      by_cases hcons : (b.entry a).consulted = some (callid, number)
      · have hdial : (b.entry a).dialled ≠ some (callid, number) := by
          intro hdial
          obtain ⟨_, -, -, hnone⟩ := of_dialled_entry hdial
          rw [hcons] at hnone
          cases hnone
        rw [if_pos hcons, if_neg hdial]
        omega
      have hnew := mt (consulted_entry_iff hrun).mpr hcons
      rw [if_neg hcons]
      by_cases hdial : (b.entry a).dialled = some (callid, number)
      · -- this is the hold that was awaited
        obtain ⟨⟨reason, hpause⟩, hsend, hmarked⟩ := (dialled_entry_iff hrun).mp hdial
        obtain ⟨-, hawait⟩ := hlast _ hpause hsend (consulting_iff.mpr ⟨number, hmarked⟩)
        obtain ⟨number', hfor⟩ := holdAwaited_iff.mp hawait
        obtain rfl : number = number' := by
          have hmark := (mark_history hrun callid _).mpr hmarked
          rw [(mark_history hrun callid _).mpr hfor.marked] at hmark
          cases hmark
          rfl
        have hless := hlt hfor
        rw [if_pos hdial]
        refine ⟨hless, fun hawait' => ?_⟩
        rcases hawait' with hmark | ⟨-, hnot⟩
        · exact absurd hmark hnew
        · exact absurd (.inr ⟨⟨_, hpause, rfl⟩, hsend⟩) hnot
      · rw [if_neg hdial]
        refine ⟨hle, fun hawait' => ?_⟩
        rcases hawait' with hmark | ⟨hfor, -⟩
        · exact absurd hmark hnew
        · exact hlt hfor

theorem consultations_le (h : Browser.system.Run as b) (dial : Bytes × JsValue) :
    consultations b.log dial ≤ (as.filterMap PageAction.consults).count dial := by
  induction h with
  | nil => exact Nat.le_refl _
  | @snoc as b b' a hrun _ hst ih =>
      cases hst
      rw [consultations_step, List.filterMap_append, List.count_append]
      by_cases hcons : (b.entry a).consulted = some dial
      · have hconsults := consults_of_marks ((consulted_entry_iff hrun).mp hcons).1
        rw [if_pos hcons, List.filterMap_cons_some hconsults, List.filterMap_nil,
          List.count_singleton_self]
        omega
      · rw [if_neg hcons]
        omega

/-- **A hold that is not awaited is not paid for**, if no call is consulted on twice with the
same number. -/
theorem consultations_le_dialCount (h : Browser.system.Run as b)
    (hfresh : (as.filterMap PageAction.consults).Nodup)
    (hmarked : Marked callid (.consultation number) as)
    (hawait : ¬ AwaitedFor callid number as) :
    consultations b.log (callid, number) ≤ dialCount b.log (callid, number) := by
  induction h with
  | nil => exact absurd hmarked not_sinceAt_nil
  | @snoc as b b' a hrun _ hst ih =>
      cases hst
      have hone := consultations_le hrun (callid, number)
      rw [awaitedFor_snoc] at hawait
      have hcons : (b.entry a).consulted ≠ some (callid, number) := fun hcons =>
        hawait (.inl ((consulted_entry_iff hrun).mp hcons))
      rw [consultations_step, dialCount_step, if_neg hcons]
      rw [List.filterMap_append] at hfresh
      rcases marked_snoc.mp hmarked with hmarks | ⟨hmarked, hkept⟩
      · -- no consultation came before
        have hnew : (callid, number) ∉ as.filterMap PageAction.consults := by
          rw [List.filterMap_cons_some (consults_of_marks hmarks)] at hfresh
          exact fun hmem => List.disjoint_of_nodup_append hfresh hmem List.mem_cons_self
        rw [List.count_eq_zero_of_not_mem hnew] at hone
        omega
      have hfresh := hfresh.of_append_left
      have hcount := List.nodup_iff_count_le_one.mp hfresh (callid, number)
      by_cases hfor : AwaitedFor callid number as
      · -- the hold that was awaited has come
        have hdial : (b.entry a).dialled = some (callid, number) := by
          by_contra hdial
          refine hawait (.inr ⟨hfor, ?_⟩)
          rintro (hq | ⟨⟨pause, hpause, rfl⟩, hsend⟩)
          · exact hkept (hq.imp_right .inl)
          · exact hdial ((dialled_entry_iff hrun).mpr ⟨⟨pause.2, hpause⟩, hsend, hmarked⟩)
        rw [if_pos hdial]
        omega
      · have hle := ih hfresh hmarked hfor
        omega

end History

/-! ### Main results -/

/-- **When a consultation dials as it should.** Over any calls of the page and any events, with
ordinary call ids: if each call that is to be consulted on is held once, with success, until it is
released or given to a function of the script again, then all dials are accounted for at every
point of the history. If no call is consulted on twice with the same number, the dials are
accounted for only then. -/
theorem consultation_dials_iff {as : List PageAction} {b : Browser}
    (h : Browser.ordinary.Run as b) :
    (AtEach HeldOnce as → Browser.ordinary.AllStates as fun b => Accounted b.log) ∧
      ((as.filterMap PageAction.consults).Nodup →
        (Browser.ordinary.AllStates as fun b => Accounted b.log) → AtEach HeldOnce as) := by
  have hiff : (Browser.ordinary.AllStates as fun b => Accounted b.log) ↔
      Browser.ordinary.AllSteps as mayDial := by
    refine StepSystem.allStates_iff_allSteps Accounted.nil (fun b a b' _ hacc _ hst => ?_) h
    cases hst
    exact hacc.step_iff
  rw [hiff]
  constructor
  · intro hheld past a b hp hrun pause hpause number hdials
    obtain ⟨hrun, -⟩ := hrun.of_restrict
    have hdial : (b.entry a).dialled = some (pause.1, number) := by
      rw [dialled_entry, hpause, Option.bind_some, hdials]
      rfl
    obtain ⟨-, hsend, hmarked⟩ := (dialled_entry_iff hrun).mp hdial
    obtain ⟨hreason, -⟩ := hheld past a hp pause hpause hsend (consulting_iff.mpr ⟨_, hmarked⟩)
    -- one step on, the dial is still covered
    have hcovered := (dialCount_le (hrun.snoc trivial rfl) (hheld.of_prefix hp) pause.1 number).1
    obtain ⟨_, -, -, hnone⟩ := of_dialled_entry hdial
    rw [consultations_step, dialCount_step, if_pos hdial, if_neg (by simp [hnone])] at hcovered
    exact ⟨hreason, hcovered⟩
  · rintro hfresh hmay past a ⟨rest, rfl⟩ pause hpause hsend hconsulting
    obtain ⟨_, hstep⟩ := h.of_append
    obtain ⟨b, hrun, -, -⟩ := hstep.snoc_inv
    obtain ⟨number, hmarked⟩ := consulting_iff.mp hconsulting
    have hsystem := hrun.of_restrict.1
    have hdials : b.page.dials pause.1 = some number := by
      rw [dials_eq_some, canSend_history hsystem, mark_history hsystem]
      exact ⟨hsend, hmarked⟩
    obtain ⟨hreason, hlt⟩ :=
      hmay past a b (List.prefix_append _ rest) hrun pause hpause number hdials
    refine ⟨hreason, holdAwaited_iff.mpr ⟨number, ?_⟩⟩
    by_contra hawait
    rw [List.filterMap_append, List.filterMap_append] at hfresh
    have hle := consultations_le_dialCount hsystem hfresh.of_append_left.of_append_left hmarked
      hawait
    exact Nat.not_lt_of_le hle hlt

/-- A call is consulted on, held and dialled for: everything is accounted for. -/
theorem consultation_dials_once :
    ∃ as b, Browser.ordinary.Run as b ∧
      Browser.ordinary.AllStates as (fun b => Accounted b.log) ∧
      b.log.filterMap Entry.dialled = [([49], .string [50])] := by
  obtain ⟨b, hrun, hb⟩ := StepSystem.run_of_check_map (S := Browser.ordinary)
    (f := fun b => b.log.filterMap Entry.dialled) (b := [([49], .string [50])])
    [.Connect (.string [119]), .socket .OPEN, .message (.onCallAnswered [49]),
      .ConsultationCall (.string [49]) (.string [50]) .undefined,
      .message (.onCallPaused [49] 200)] (by decide +kernel)
  exact ⟨_, b, hrun, (consultation_dials_iff hrun).1 (by decide +kernel), hb⟩

/-- **A consultation can dial twice.** After one consultation the call is resumed and later
held again, both times with success, and the number is dialled once more. -/
theorem consultation_dials_twice :
    ∃ b, Browser.ordinary.Run
        [.Connect (.string [119]), .socket .OPEN, .message (.onCallAnswered [49]),
          .ConsultationCall (.string [49]) (.string [50]) .undefined,
          .message (.onCallPaused [49] 200), .message (.onCallResumed [49] 200),
          .plain ⟨"pauseCall", some [("callid", .string [49])]⟩,
          .message (.onCallPaused [49] 200)] b ∧
      b.log.filterMap Entry.consulted = [([49], .string [50])] ∧
      b.log.filterMap Entry.dialled = [([49], .string [50]), ([49], .string [50])] ∧
      ¬ Accounted b.log := by
  obtain ⟨b, hrun, hb⟩ := StepSystem.run_of_check_map (S := Browser.ordinary)
    (f := fun b => (b.log.filterMap Entry.consulted, b.log.filterMap Entry.dialled,
      b.log.countP fun e => e.consulted = some ([49], .string [50]),
      b.log.countP fun e => e.dialled = some ([49], .string [50])))
    (b := ([([49], .string [50])], [([49], .string [50]), ([49], .string [50])], 1, 2))
    [.Connect (.string [119]), .socket .OPEN, .message (.onCallAnswered [49]),
      .ConsultationCall (.string [49]) (.string [50]) .undefined,
      .message (.onCallPaused [49] 200), .message (.onCallResumed [49] 200),
      .plain ⟨"pauseCall", some [("callid", .string [49])]⟩,
      .message (.onCallPaused [49] 200)] (by decide +kernel)
  obtain ⟨hconsulted, hdialled, hgives, htakes⟩ : _ ∧ _ ∧ _ ∧ _ := by simpa using hb
  refine ⟨b, hrun, hconsulted, hdialled, fun hacc => ?_⟩
  have hle := hacc.matched.countP_le (k := ([49], .string [50]))
  rw [hgives, htakes] at hle
  omega

end UCClient
