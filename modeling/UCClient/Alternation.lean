import UCClient.CallHistories

/-!
# Is the Cause of an Alternation Stale

`AlternateCall` marks two calls by their status and has the one held and the other
retrieved; the events that confirm this are reported to the page with the cause `Alternate`,
because of the status. Nobody takes the mark away then. So long as no other function of the
script is given the call, every further hold and retrieve of it, whatever it is made for, is
reported as part of an alternation that was over long ago.

So an alternation is good for one hold or retrieve of a call: a second one is reported wrongly,
unless the call was released in between or given to a function of the script again (`Stale`).

## Main results

* `alternate_cause_iff`: the histories in which a cause `Alternate` is always owed to an
  alternation asked for since the last hold or retrieve of the call.
* `alternate_cause_stale`: two calls are alternated, and the next ordinary hold is reported
  as an alternation.
-/

namespace UCClient

open Page

namespace PageAction

/-- The call that an event says was held or retrieved. -/
def held : PageAction → Option Bytes
  | .message (.onCallPaused callid _) | .message (.onCallResumed callid _) => some callid
  | _ => none

/-- The calls an alternation is asked for. -/
def alternated : PageAction → List JsValue
  | .AlternateCall activeCall otherCall => [activeCall, otherCall]
  | _ => []

end PageAction

/-- An alternation of the call was asked for since it was last held or retrieved. -/
def Alternated (callid : Bytes) (log : List Entry) : Prop :=
  Since (fun e => ∃ x ∈ e.action.alternated, x.key = callid)
    (fun e => e.action.held = some callid) log

instance (callid : Bytes) (log : List Entry) : Decidable (Alternated callid log) :=
  inferInstanceAs (Decidable (Since _ _ log))

/-- The call was held or retrieved when an alternation was the last that had marked it, and since
then it was neither released nor given to a function of the script that marks it, nor was another
alternation of it asked for. -/
def Stale (callid : Bytes) (as : List PageAction) : Prop :=
  SinceAt (fun past a => a.held = some callid ∧ Marked callid .alternation past)
    (fun past a => marks past a callid ≠ none ∨ a.Releases callid ∨
      ∃ x ∈ a.alternated, x.key = callid) as

instance (callid : Bytes) (as : List PageAction) : Decidable (Stale callid as) :=
  inferInstanceAs (Decidable (SinceAt _ _ as))

/-! ### One event -/

section Event

variable {s : Page} {callid : Bytes}

theorem onCallPaused_cause (reason : ℤ) (hs : s.trace = []) :
    (wsonMessage (.onCallPaused callid reason) s).state.trace.findSome? PageObs.cause =
        some .Alternate ↔ s.status callid = some .STATUS_ALTERNATEING := by
  rw [status]
  cases hsession : s.SessionS callid with
  | none =>
      simp only [wsonMessage, session_bind, hsession, EStateM.Result.state, hs]
      simp
  | some session =>
      rw [onCallPaused_run hsession, Option.bind_some]
      by_cases hc : session._status = some .STATUS_CONSULTATIONING
      · -- what is reported, if anything, is the consultation
        have hne : session._status ≠ some .STATUS_ALTERNATEING := by simp [hc]
        rw [if_pos hc, setUserData, makeCall]
        refine iff_of_false ?_ hne
        cases hsend : s.canSend with
        | true =>
            rw [EStateM.bind_ok (doSend_ok hsend _),
              EStateM.bind_ok (doSend_ok (s := s.observed _) hsend _), callback_ok]
            simp [EStateM.Result.state, observed, hs, List.findSome?, PageObs.cause]
        | false =>
            obtain ⟨e, he⟩ := doSend_error hsend
              ⟨"setUserData", some [("type", .number 2), ("data", session._userdata)]⟩
            rw [EStateM.bind_error he]
            simp [EStateM.Result.state, hs]
      · rw [if_neg hc]
        by_cases ha : session._status = some .STATUS_ALTERNATEING
        · simp [ha, EStateM.Result.state, observed, hs, PageObs.cause]
        · simp [ha, EStateM.Result.state, observed, hs, PageObs.cause]

theorem onCallResumed_cause (reason : ℤ) (hs : s.trace = []) :
    (wsonMessage (.onCallResumed callid reason) s).state.trace.findSome? PageObs.cause =
        some .Alternate ↔ s.status callid = some .STATUS_ALTERNATEING := by
  rw [status]
  cases hsession : s.SessionS callid with
  | none =>
      simp only [wsonMessage, setCallid, EStateM.modify_bind, session_bind, hsession,
        EStateM.Result.state, hs]
      simp
  | some session =>
      rw [onCallResumed_run hsession, Option.bind_some]
      by_cases ha : session._status = some .STATUS_ALTERNATEING
      · simp [ha, EStateM.Result.state, hs, PageObs.cause]
      · simp [ha, EStateM.Result.state, hs, PageObs.cause]

end Event

variable {b : Browser} {a : PageAction} {callid : Bytes}

/-- **The status alone decides** whether a hold or retrieve is reported as an alternation. -/
theorem cause_entry_iff (ha : a.held = some callid) :
    (b.entry a).cause = some .Alternate ↔ b.page.status callid = some .STATUS_ALTERNATEING := by
  cases a with
  | message ev =>
      rw [Browser.cause_entry_message]
      cases ev with
      | onCallPaused c reason =>
          cases ha
          exact onCallPaused_cause reason rfl
      | onCallResumed c reason =>
          cases ha
          exact onCallResumed_cause reason rfl
      | onCallReleased | onCallAnswered | onCallAlerting | onIncomingCallReceived | other =>
          cases ha
  | Connect | socket | plain | ConsultationCall | ReconnectCall | AlternateCall
  | transferMeeting => cases ha

/-! ### Histories -/

theorem mark_alternation {s : Page} :
    s.mark callid = some .alternation ↔ s.status callid = some .STATUS_ALTERNATEING := by
  rw [Page.mark, status]
  cases s.SessionS callid with
  | none => simp
  | some session =>
      rw [Option.bind_some, Option.bind_some, Session.mark]
      split <;> simp_all

/-- A call that is held or retrieved is not marked by that, and no alternation is asked for. -/
theorem of_held (as : List PageAction) (ha : a.held = some callid) :
    marks as a callid = none ∧ ¬ a.Releases callid ∧ a.alternated = [] := by
  cases a with
  | message ev => cases ev <;> cases ha <;> simp [marks, PageAction.mark, PageAction.Releases,
      PageAction.alternated]
  | Connect | socket | plain | ConsultationCall | ReconnectCall | AlternateCall
  | transferMeeting => cases ha

/-- A call that is marked for an alternation was given to it. -/
theorem alternated_of_marks {as : List PageAction} (h : marks as a callid = some .alternation) :
    ∃ x ∈ a.alternated, x.key = callid := by
  cases a with
  | AlternateCall activeCall otherCall =>
      rw [marks, PageAction.mark] at h
      split_ifs at h with hc
      rcases hc with hc | hc
      · exact ⟨activeCall, List.mem_cons_self, hc.2⟩
      · exact ⟨otherCall, List.mem_cons_of_mem _ List.mem_cons_self, hc.1.2⟩
  | ConsultationCall | ReconnectCall | transferMeeting =>
      rw [marks, PageAction.mark] at h
      split_ifs at h
      cases h
  | Connect | socket | message | plain => cases h

/-- **When a mark is stale**: it is there, and no alternation was asked for since the last hold or
retrieve. -/
theorem stale_iff {as : List PageAction} : Stale callid as ↔ Marked callid .alternation as ∧
    ¬ Since (fun a => ∃ x ∈ a.alternated, x.key = callid)
      (fun a => a.held = some callid) as := by
  induction as using List.reverseRecOn with
  | nil => exact iff_of_false not_sinceAt_nil fun h => not_sinceAt_nil h.1
  | append_singleton as a ih =>
      rw [marked_snoc, since_snoc, Stale, sinceAt_snoc, ← Stale, ih]
      by_cases hheld : a.held = some callid
      · obtain ⟨hmarks, hrel, halt⟩ := of_held as hheld
        simpa [hheld, hmarks, hrel, halt] using fun hmarked _ => hmarked
      · by_cases halt : ∃ x ∈ a.alternated, x.key = callid
        · simp [hheld, halt]
        · have hmarks : marks as a callid ≠ some .alternation := mt alternated_of_marks halt
          simp only [hheld, halt, hmarks, false_and, false_or, or_false, not_false_eq_true,
            and_true, reduceCtorEq]
          tauto

theorem alternated_history {as : List PageAction} (h : Browser.system.Run as b) :
    Alternated callid b.log ↔ Since (fun a => ∃ x ∈ a.alternated, x.key = callid)
      (fun a => a.held = some callid) as := by
  have hmap := since_map (f := Entry.action) (l := b.log)
    (p := fun a => ∃ x ∈ a.alternated, x.key = callid) (q := fun a => a.held = some callid)
  rw [log_history h] at hmap
  exact hmap.symm

/-- **When the cause `Alternate` is not stale.** Over any calls of the page and any events, with
ordinary call ids: each hold or retrieve that is reported with the cause `Alternate` has an
alternation of its call asked for since the last hold or retrieve of it, exactly when no call is
held or retrieved for the second time after an alternation that marked it, without having been
released or given to a function of the script in between. -/
theorem alternate_cause_iff {as : List PageAction} (h : Browser.ordinary.Run as b) :
    Browser.ordinary.AllSteps as (fun b a => ∀ callid ∈ a.held,
        (b.entry a).cause = some .Alternate → Alternated callid b.log) ↔
      AtEach (fun past a => ∀ callid ∈ a.held, ¬ Stale callid past) as := by
  refine StepSystem.allSteps_iff_atEach (fun past b a hrun => ?_) h
  obtain ⟨hrun, -⟩ := hrun.of_restrict
  refine forall₂_congr fun callid hheld => ?_
  rw [cause_entry_iff hheld, ← mark_alternation, mark_history hrun, stale_iff, not_and, not_not,
    alternated_history hrun]

/-- Two calls are alternated and alternated back, and everything is reported as it should be. -/
theorem alternate_cause_back :
    ∃ as b, Browser.ordinary.Run as b ∧
      Browser.ordinary.AllSteps as (fun b a => ∀ callid ∈ a.held,
        (b.entry a).cause = some .Alternate → Alternated callid b.log) ∧
      b.log.filterMap Entry.cause = [.Consultation, .Alternate, .Alternate, .Alternate,
        .Alternate] := by
  obtain ⟨b, hrun, hb⟩ := StepSystem.run_of_check_map (S := Browser.ordinary)
    (f := fun b => b.log.filterMap Entry.cause)
    (b := [.Consultation, .Alternate, .Alternate, .Alternate, .Alternate])
    [.Connect (.string [119]), .socket .OPEN, .message (.onCallAnswered [49]),
      .message (.onCallAnswered [50]), .AlternateCall (.string [50]) (.string [49]),
      .message (.onCallPaused [50] 200), .message (.onCallResumed [49] 200),
      .AlternateCall (.string [49]) (.string [50]), .message (.onCallPaused [49] 200),
      .message (.onCallResumed [50] 200)] (by decide +kernel)
  exact ⟨_, b, hrun, (alternate_cause_iff hrun).mpr (by decide +kernel), hb⟩

/-- **The cause `Alternate` is stale.** Two calls are alternated, and both events of it come
in. Then the call that is current is held in the ordinary way, and the page is told that this
is an alternation. -/
theorem alternate_cause_stale :
    ∃ b, Browser.ordinary.Run
        [.Connect (.string [119]), .socket .OPEN, .message (.onCallAnswered [49]),
          .message (.onCallAnswered [50]), .AlternateCall (.string [50]) (.string [49]),
          .message (.onCallPaused [50] 200), .message (.onCallResumed [49] 200),
          .plain ⟨"pauseCall", some [("callid", .string [49])]⟩] b ∧
      (b.entry (.message (.onCallPaused [49] 200))).cause = some .Alternate ∧
      ¬ Alternated [49] b.log := by
  obtain ⟨b, hrun, hb⟩ := StepSystem.run_of_check_map (S := Browser.ordinary)
    (f := fun b => ((b.entry (.message (.onCallPaused [49] 200))).cause,
      decide (Alternated [49] b.log))) (b := (some .Alternate, false))
    [.Connect (.string [119]), .socket .OPEN, .message (.onCallAnswered [49]),
      .message (.onCallAnswered [50]), .AlternateCall (.string [50]) (.string [49]),
      .message (.onCallPaused [50] 200), .message (.onCallResumed [49] 200),
      .plain ⟨"pauseCall", some [("callid", .string [49])]⟩] (by decide +kernel)
  obtain ⟨hcause, hlog⟩ : _ ∧ _ := by simpa using hb
  exact ⟨b, hrun, hcause, hlog⟩

end UCClient
