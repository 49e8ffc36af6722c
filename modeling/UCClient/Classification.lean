import UCClient.CallHistories

/-!
# Is a Call Classified Consistently

A call that alerts while another call is current is a consultation, and the page is told so.
When the call is answered the question is asked once more, of the call that is current then:
another call that came in between makes a consultation of any call. A call that was found to
be one stays one, by a mark in its session; so an alerting that is repeated, which finds the
call current itself, is reported as no consultation although the answer will be.

Whether another call is current can be read off the events before (`Another`). So a call changes
its class exactly if, before it is released, it alerts once alone and alerts or is answered once
beside another call.

## Main results

* `cause_history`: the mark is its history.
* `classification_iff`: the histories in which every call is classified by its answer as it
  was by its alerting.
* `classification_changes`: an incoming call makes a consultation of the call that alerts.
-/

namespace UCClient

open Page

/-- The call that is answered. -/
def PageAction.answered : PageAction → Option Bytes
  | .message (.onCallAnswered callid) => some callid
  | _ => none

theorem PageAction.answered_eq_some {a : PageAction} {callid : Bytes} :
    a.answered = some callid ↔ a = .message (.onCallAnswered callid) := by
  cases a with
  | message ev => cases ev <;> simp [answered]
  | _ => simp [answered]

/-- Another call was the last to be selected, and was not released since; its id is not empty. -/
def Another (callid : Bytes) (as : List PageAction) : Prop :=
  ∃ other, other ≠ [] ∧ other ≠ callid ∧ Current other as

/-- The call alerted while no other was current, and was not released since. -/
def AlertedAlone (callid : Bytes) (as : List PageAction) : Prop :=
  SinceAt (fun past a => a = .message (.onCallAlerting callid) ∧ ¬ Another callid past)
    (fun _ a => a.Releases callid) as

/-- The call alerted or was answered while another was current, and was not released since. -/
def BesideAnother (callid : Bytes) (as : List PageAction) : Prop :=
  SinceAt (fun past a => (a = .message (.onCallAlerting callid) ∨
      a = .message (.onCallAnswered callid)) ∧ Another callid past)
    (fun _ a => a.Releases callid) as

/-- A call that is current was selected. -/
theorem Current.mem {callid : Bytes} {as : List PageAction} (h : Current callid as) :
    callid ∈ as.filterMap PageAction.selected := by
  obtain ⟨pre, a, post, rfl, ha, -⟩ := h
  exact List.mem_filterMap.mpr ⟨a, by simp, PageAction.selects_iff.mp ha⟩

instance (callid : Bytes) (as : List PageAction) : Decidable (Another callid as) :=
  decidable_of_iff (∃ other ∈ as.filterMap PageAction.selected,
      other ≠ [] ∧ other ≠ callid ∧ Current other as)
    ⟨fun ⟨other, _, h⟩ => ⟨other, h⟩, fun ⟨other, h⟩ => ⟨other, h.2.2.mem, h⟩⟩

instance (callid : Bytes) (as : List PageAction) : Decidable (AlertedAlone callid as) :=
  inferInstanceAs (Decidable (SinceAt _ _ as))

instance (callid : Bytes) (as : List PageAction) : Decidable (BesideAnother callid as) :=
  inferInstanceAs (Decidable (SinceAt _ _ as))

/-- The entry is an alerting of the call, and the call was not released after it. -/
def Alerting (callid : Bytes) (log : List Entry) (e : Entry) : Prop :=
  ∃ before after, log = before ++ e :: after ∧ e.action = .message (.onCallAlerting callid) ∧
    ∀ e' ∈ after, ¬ e'.action.Releases callid

/-! ### One action -/

namespace Browser

variable {b : Browser} {a : PageAction} {callid : Bytes}

/-- The page asks whether another call is current, whatever was observed before. -/
theorem classified_of_page :
    Page.classified { b.page with trace := [] } callid = b.page.classified callid := rfl

theorem cause_entry_alerting :
    (b.entry (.message (.onCallAlerting callid))).cause = some .Consultation ↔
      b.page.another callid = true := by
  have hcause : (b.entry (.message (.onCallAlerting callid))).cause =
      if b.page.another callid then some .Consultation else none := by
    rw [cause_entry_message, reported, onCallAlerting_run]
    exact findSome?_callback _ _
  simp [hcause]

theorem cause_entry_answered :
    (b.entry (.message (.onCallAnswered callid))).cause = some .Consultation ↔
      b.page.another callid = true ∨ b.page.cause callid = some .Consultation := by
  have hcause : (b.entry (.message (.onCallAnswered callid))).cause =
      (b.page.classified callid)._cause := by
    rw [cause_entry_message, reported, onCallAnswered_run]
    exact findSome?_callback _ _
  rw [hcause, classified_cause]

/-- **One action on the mark of a call.** -/
theorem cause_step_iff : (b.step a).page.cause callid = some .Consultation ↔
    (a = .message (.onCallAlerting callid) ∨ a = .message (.onCallAnswered callid)) ∧
        b.page.another callid = true ∨
      b.page.cause callid = some .Consultation ∧ ¬ a.Releases callid := by
  by_cases hrel : a.Releases callid
  · obtain ⟨reason, rfl⟩ := hrel
    rw [page_step_message, onCallReleased_cause]
    simp [PageAction.Releases]
  by_cases halert : a = .message (.onCallAlerting callid)
  · subst halert
    rw [page_step_message, onCallAlerting_cause, classified_of_page, classified_cause]
    simp [hrel]
  by_cases hanswer : a = .message (.onCallAnswered callid)
  · subst hanswer
    rw [page_step_message, onCallAnswered_cause, classified_of_page, classified_cause]
    simp [hrel]
  have hsame : (b.step a).page.cause callid = b.page.cause callid :=
    program_cause hrel halert hanswer { b.page with trace := [] }
  simp [hsame, hrel, halert, hanswer]

end Browser

/-! ### Histories -/

section Histories

variable {as : List PageAction} {b : Browser}

theorem another_history (h : Browser.system.Run as b) (callid : Bytes) :
    b.page.another callid = true ↔ Another callid as := by
  have hcurrent : ∀ other, b.page.callid = some other ↔ Current other as :=
    (calls_history h).callid
  simp only [Another, ← hcurrent, another]
  cases b.page.callid with
  | none => simp
  | some current => simp

/-- **The mark is its history**: a session is marked as a consultation exactly when the call
alerted or was answered beside another one since it was last released. -/
theorem cause_history (h : Browser.system.Run as b) (callid : Bytes) :
    b.page.cause callid = some .Consultation ↔ BesideAnother callid as := by
  induction h with
  | nil => exact iff_of_false (by simp [Browser.system, cause]) not_sinceAt_nil
  | @snoc as b b' a hrun _ hst ih =>
      cases hst
      rw [Browser.cause_step_iff, ih, another_history hrun, BesideAnother, BesideAnother,
        sinceAt_snoc]

/-- The alertings of a call by how they were reported: as consultations if another call was
current. -/
theorem alerting_history (h : Browser.system.Run as b) (callid : Bytes) (q : Prop → Prop) :
    (∃ e, Alerting callid b.log e ∧ q (e.cause = some .Consultation)) ↔
      SinceAt (fun past a => a = .message (.onCallAlerting callid) ∧ q (Another callid past))
        (fun _ a => a.Releases callid) as := by
  have hsince : (∃ e, Alerting callid b.log e ∧ q (e.cause = some .Consultation)) ↔
      Since (fun e => e.action = .message (.onCallAlerting callid) ∧
        q (e.cause = some .Consultation)) (fun e => e.action.Releases callid) b.log := by
    constructor
    · rintro ⟨e, ⟨before, after, hlog, hact, hafter⟩, hq⟩
      exact ⟨before, e, after, hlog, ⟨hact, hq⟩, hafter⟩
    · rintro ⟨before, e, after, hlog, ⟨hact, hq⟩, hafter⟩
      exact ⟨e, ⟨before, after, hlog, hact, hafter⟩, hq⟩
  rw [hsince]
  clear hsince
  induction h with
  | nil => exact iff_of_false not_since_nil not_sinceAt_nil
  | @snoc as b b' a hrun _ hst ih =>
      cases hst
      have hentry : ((b.entry a).action = .message (.onCallAlerting callid) ∧
            q ((b.entry a).cause = some .Consultation)) ↔
          (a = .message (.onCallAlerting callid) ∧ q (Another callid as)) := by
        refine and_congr_right fun ha => ?_
        obtain rfl : a = .message (.onCallAlerting callid) := ha
        rw [propext (Browser.cause_entry_alerting.trans (another_history hrun callid))]
      rw [sinceAt_snoc]
      exact since_snoc.trans (or_congr hentry (and_congr ih Iff.rfl))

/-- The answer of a call after a history. -/
theorem answered_history (h : Browser.system.Run as b) (callid : Bytes) :
    (b.entry (.message (.onCallAnswered callid))).cause = some .Consultation ↔
      BesideAnother callid (as ++ [.message (.onCallAnswered callid)]) := by
  rw [Browser.cause_entry_answered, cause_history h, another_history h, BesideAnother,
    BesideAnother, sinceAt_snoc]
  simp [PageAction.Releases]

end Histories

/-- **When calls are classified consistently.** Over any calls of the page and any events, with
ordinary call ids: the answer of a call is reported as a consultation exactly if its alerting
was, for every alerting of the call that it was not released after, exactly when no call is
answered that, since it was last released, has alerted while no other call was current, and has
also alerted or been answered while another one was. -/
theorem classification_iff {as : List PageAction} {b : Browser}
    (h : Browser.ordinary.Run as b) :
    Browser.ordinary.AllSteps as (fun b a => ∀ callid ∈ a.answered,
        ∀ e, Alerting callid b.log e →
          ((b.entry a).cause = some .Consultation ↔ e.cause = some .Consultation)) ↔
      AtEach (fun past a => ∀ callid ∈ a.answered,
        ¬ (AlertedAlone callid (past ++ [a]) ∧ BesideAnother callid (past ++ [a]))) as := by
  refine StepSystem.allSteps_iff_atEach (fun past b a hrun => ?_) h
  obtain ⟨hrun, -⟩ := hrun.of_restrict
  refine forall₂_congr fun callid ha => ?_
  obtain rfl := PageAction.answered_eq_some.mp ha
  have halone : AlertedAlone callid (past ++ [.message (.onCallAnswered callid)]) ↔
      ∃ e, Alerting callid b.log e ∧ ¬ e.cause = some .Consultation := by
    rw [alerting_history hrun callid Not, AlertedAlone, sinceAt_snoc]
    simp [PageAction.Releases]
  rw [halone, ← answered_history hrun]
  constructor
  · rintro hsame ⟨⟨e, he, hnot⟩, hanswer⟩
    exact hnot ((hsame e he).mp hanswer)
  · intro hnot e he
    refine ⟨fun hanswer => by_contra fun hcause => hnot ⟨⟨e, he, hcause⟩, hanswer⟩,
      fun hcause => ?_⟩
    -- an alerting beside another call makes a consultation of the answer too
    have hbeside := (alerting_history hrun callid id).mp ⟨e, he, hcause⟩
    rw [Browser.cause_entry_answered, cause_history hrun]
    exact .inr (hbeside.mono (fun _ _ h => ⟨.inl h.1, h.2⟩) fun _ _ => id)

/-- A call is made beside another one, and is a consultation from its alerting on. -/
theorem classification_consistent :
    ∃ as b, Browser.ordinary.Run as b ∧
      Browser.ordinary.AllSteps as (fun b a => ∀ callid ∈ a.answered,
        ∀ e, Alerting callid b.log e →
          ((b.entry a).cause = some .Consultation ↔ e.cause = some .Consultation)) ∧
      b.log.map Entry.cause = [none, some .Consultation, some .Consultation] := by
  obtain ⟨b, hrun, hb⟩ := StepSystem.run_of_check_map (S := Browser.ordinary)
    (f := fun b => b.log.map Entry.cause) (b := [none, some .Consultation, some .Consultation])
    [.message (.onCallAnswered [49]), .message (.onCallAlerting [50]),
      .message (.onCallAnswered [50])] (by decide +kernel)
  refine ⟨_, b, hrun, (classification_iff hrun).mpr ?_, hb⟩
  decide +kernel

/-- **A call changes its class.** A call alerts when no other is known, another call comes in,
and the answer of the first is reported as that of a consultation. -/
theorem classification_changes :
    ∃ b e, Browser.ordinary.Run
        [.message (.onCallAlerting [49]), .message (.onIncomingCallReceived [50])] b ∧
      Alerting [49] b.log e ∧ e.cause = none ∧
      (b.entry (.message (.onCallAnswered [49]))).cause = some .Consultation := by
  obtain ⟨b, hrun, hb⟩ := StepSystem.run_of_check_map (S := Browser.ordinary)
    (f := fun b => (b.log.map fun e => (e.action, e.cause),
      (b.entry (.message (.onCallAnswered [49]))).cause))
    (b := ([(.message (.onCallAlerting [49]), none),
      (.message (.onIncomingCallReceived [50]), none)], some .Consultation))
    [.message (.onCallAlerting [49]), .message (.onIncomingCallReceived [50])] (by decide +kernel)
  obtain ⟨hlog, hanswer⟩ := Prod.mk.inj hb
  obtain ⟨e, log, hcons, he, hlog⟩ := List.map_eq_cons_iff.mp hlog
  obtain ⟨e', log', rfl, he', hnil⟩ := List.map_eq_cons_iff.mp hlog
  obtain rfl := List.map_eq_nil_iff.mp hnil
  obtain ⟨hact, hcause⟩ := Prod.mk.inj he
  refine ⟨b, e, hrun, ⟨[], [e'], hcons, hact, ?_⟩, hcause, hanswer⟩
  simp [(Prod.mk.inj he').1, PageAction.Releases]

end UCClient
