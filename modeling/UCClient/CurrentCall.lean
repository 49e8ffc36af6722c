import UCClient.SessionTable

/-!
# Is There a Current Call

The buttons of a page act on `callid`, and the events of a second call compare with it, so
a page relies on it: while the script knows a call, one is current. But `callid` is a
single slot. An event that selects a call overwrites it, and the release of the call it
holds empties it, whatever other calls there are.

On the table of `SessionTable` this is one condition on the steps: the current call is
released only when it is the last one the script knows.

## Main results

* `current_call_iff`: the histories in which a call is current as long as one is known.
* `current_call_forgotten`: a second call comes in and is missed; the first one goes on, and
  none is current.
-/

namespace UCClient

open Page

/-- While a call is known, one is current. -/
def CallTable.HasCurrent (t : CallTable) : Prop :=
  ∀ callid, t.keys callid = true → t.callid ≠ none

/-- If the event releases the current call, no other is known. -/
def CallTable.lastOne (t : CallTable) (ev : PageEvent) : Prop :=
  ∀ callid reason, ev = .onCallReleased callid reason → t.callid = some callid →
    ∀ other, t.keys other = true → other = callid

namespace Browser

/-- The action throws no exception while an event is handled. -/
def handled (b : Browser) : PageAction → Prop
  | .message ev => (b.outcome (.message ev)).value.isOk = true
  | _ => True

instance (b : Browser) : ∀ a, Decidable (b.handled a)
  | .message _ => inferInstanceAs (Decidable (_ = true))
  | .Connect .. | .socket _ | .plain _ | .ConsultationCall .. | .ReconnectCall ..
  | .AlternateCall .. | .transferMeeting .. => inferInstanceAs (Decidable True)

/-- If the action is the release of the current call, no other call is known. -/
def releasesLast (b : Browser) (a : PageAction) : Prop :=
  ∀ ev, a = .message ev → b.page.calls.lastOne ev

end Browser

/-- **One event keeps a call current exactly when it does not release the current call of
several.** -/
theorem CallTable.HasCurrent.step_iff {t : CallTable} (h : t.HasCurrent) (ev : PageEvent) :
    (t.step ev).HasCurrent ↔ t.lastOne ev := by
  cases ev with
  | onCallReleased c reason =>
      by_cases hcur : t.callid = some c
      · have hnone : (t.step (.onCallReleased c reason)).callid = none := if_pos hcur
        constructor
        · rintro hstep _ _ ⟨⟩ - other hother
          by_contra hne
          refine hstep other (keys_step_iff.mpr (.inr ⟨hother, ?_⟩)) hnone
          rintro ⟨_, ⟨⟩⟩
          exact hne rfl
        · intro hlast callid hkey
          rw [keys_step_iff] at hkey
          rcases hkey with hopen | ⟨hkey, hnot⟩
          · simp [PageAction.Opens] at hopen
          · obtain rfl := hlast c reason rfl hcur callid hkey
            exact absurd ⟨reason, rfl⟩ hnot
      · refine iff_of_true (fun callid hkey => ?_) ?_
        · rw [keys_step_iff] at hkey
          rcases hkey with hopen | ⟨hkey, -⟩
          · simp [PageAction.Opens] at hopen
          · rw [CallTable.step, if_neg hcur]
            exact h callid hkey
        · rintro _ _ ⟨⟩ hcallid
          exact absurd hcallid hcur
  | onCallAnswered | onCallAlerting | onIncomingCallReceived | onCallResumed =>
      exact iff_of_true (fun _ _ => Option.some_ne_none _) (by simp [CallTable.lastOne])
  | onCallPaused | other => exact iff_of_true h (by simp [CallTable.lastOne])

namespace Browser

variable {b : Browser} {a : PageAction}

theorem hasCurrent_step_iff (h : b.page.calls.HasCurrent) :
    (b.step a).page.calls.HasCurrent ↔ b.releasesLast a := by
  by_cases hmsg : ∃ ev, a = .message ev
  · obtain ⟨ev, rfl⟩ := hmsg
    rw [step_message, h.step_iff]
    simp [releasesLast]
  · have hnot : ∀ ev, a ≠ .message ev := fun ev hev => hmsg ⟨ev, hev⟩
    rw [step_calls hnot]
    exact iff_of_true h fun ev hev => absurd hev (hnot ev)

end Browser

/-- **When a live call is never forgotten as current.** Over any calls of the page and any
events that are handled without an exception: `callid` is set at every point at which
`SessionS` contains a call exactly when each release of the current call comes while
`SessionS` contains no other. -/
theorem current_call_iff {as : List PageAction} {b : Browser}
    (h : (Browser.system.restrict Browser.handled).Run as b) :
    (Browser.system.restrict Browser.handled).AllStates as
        (fun b => ∀ callid, (b.page.SessionS callid).isSome = true → b.page.callid ≠ none) ↔
      (Browser.system.restrict Browser.handled).AllSteps as
        (fun b a => ∀ callid reason, a = .message (.onCallReleased callid reason) →
          b.page.callid = some callid →
          ∀ other, (b.page.SessionS other).isSome = true → other = callid) := by
  have hcond : ∀ (b : Browser) a, b.releasesLast a ↔
      ∀ callid reason, a = .message (.onCallReleased callid reason) →
        b.page.callid = some callid →
        ∀ other, (b.page.SessionS other).isSome = true → other = callid := by
    intro b a
    constructor
    · rintro hlast callid reason rfl
      exact hlast _ rfl callid reason rfl
    · rintro hlast ev rfl callid reason rfl
      exact hlast callid reason rfl
  refine StepSystem.allStates_iff_allSteps (fun _ hnone => absurd hnone Bool.false_ne_true)
    (fun b a b' _ hcur _ hst => ?_) h
  cases hst
  rw [← hcond]
  exact Browser.hasCurrent_step_iff hcur

/-- A second call comes in and the first one ends: the second stays current. -/
theorem current_call_second :
    ∃ as b, (Browser.system.restrict Browser.handled).Run as b ∧
      (Browser.system.restrict Browser.handled).AllStates as
        (fun b => ∀ callid, (b.page.SessionS callid).isSome = true → b.page.callid ≠ none) ∧
      b.page.callid = some [50] ∧ (b.page.SessionS [49]).isSome = false := by
  obtain ⟨b, hrun, hb⟩ := StepSystem.run_of_check_map
    (S := (Browser.system.restrict Browser.handled).restrict fun b a =>
      a = .message (.onCallReleased [49] 200) → b.page.callid = some [50])
    (f := fun b => (b.page.callid, (b.page.SessionS [49]).isSome)) (b := (some [50], false))
    [.message (.onCallAnswered [49]), .message (.onIncomingCallReceived [50]),
      .message (.onCallReleased [49] 200)] (by decide)
  obtain ⟨hrun, hsteps⟩ := hrun.of_restrict
  obtain ⟨hcallid, hkey⟩ := Prod.mk.inj hb
  refine ⟨_, b, hrun, (current_call_iff hrun).mpr fun bs a t hp ht => ?_, hcallid, hkey⟩
  rintro callid reason rfl hcur
  have hmem := hp.subset (List.mem_append_right bs List.mem_cons_self)
  obtain ⟨rfl, rfl⟩ : callid = [49] ∧ reason = 200 := by simpa using hmem
  rw [hsteps _ _ _ hp ht rfl] at hcur
  cases hcur

/-- **A live call can be forgotten.** A call is answered, a second one comes in and is
missed: its release empties `callid`, though the first call goes on. -/
theorem current_call_forgotten :
    ∃ b, (Browser.system.restrict Browser.handled).Run
        [.message (.onCallAnswered [49]), .message (.onIncomingCallReceived [50]),
          .message (.onCallReleased [50] 487)] b ∧
      (b.page.SessionS [49]).isSome = true ∧ b.page.callid = none := by
  obtain ⟨b, hrun, hb⟩ := StepSystem.run_of_check_map
    (S := Browser.system.restrict Browser.handled)
    (f := fun b => ((b.page.SessionS [49]).isSome, b.page.callid)) (b := (true, none))
    [.message (.onCallAnswered [49]), .message (.onIncomingCallReceived [50]),
      .message (.onCallReleased [50] 487)] (by decide)
  obtain ⟨hkey, hcallid⟩ := Prod.mk.inj hb
  exact ⟨b, hrun, hkey, hcallid⟩

end UCClient
