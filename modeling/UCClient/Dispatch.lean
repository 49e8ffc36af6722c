import Mathlib.Data.List.Nodup
import UCClient.Events

/-!
# Event Dispatch Terminates and Reaches Every Page Once

An event that arrives while an instance is set should end in exactly one call of its
handler, and in exactly one message on the queue of every client of the broadcast list,
with nothing else changed. A dispatcher runs on a stack, so "it terminates" reads: from
some stack depth on it ends, and in the same state (`DispatchOk`).

This holds of every event except one. `sonSwitchCallMediaTypeRequest` does not call the
handler of the instance but, through the instance, itself: no stack is deep enough for it
(`sonSwitchCallMediaTypeRequest_overflows`).

## Main results

* `CB_dispatchOk_iff`: an event is dispatched once to every page exactly when it is not
  `onSwitchCallMediaTypeRequest` and no client is listed twice.
* `CB_switchRequest_never_returns`: with one page connected, the switch request never
  comes back.
-/

namespace UCClient

open ServerM WebSocketClient CWinSDKBase

/-- The handler calls among the observations, with the instance and the event they are
made for. -/
def handlerCalls (trace : List Obs) : List (ℕ × SdkEvent) :=
  trace.filterMap fun
    | .handler p ev => some (p, ev)
    | _ => none

/-- From `s` to `s'` the event was handled once, by `this` and with its own arguments; the
message `buf` was appended to the queue of every listed client; and nothing else of any
client, and no registry, was changed. -/
structure Dispatched (ev : SdkEvent) (buf : Bytes) (this : ℕ) (s s' : Server) : Prop where
  handled : handlerCalls s'.trace = handlerCalls s.trace ++ [(this, ev)]
  queued : ∀ p ∈ s.g_WSClientSet, ∀ c, s.heap.cell p = some c →
    s'.heap.cell p = some { c with m_sendBuf := c.m_sendBuf ++ [entry buf] }
  others : ∀ p, p ∉ s.g_WSClientSet → s'.heap.cell p = s.heap.cell p
  WSClientSet : s'.WSClientSet = s.WSClientSet
  g_WSClientSet : s'.g_WSClientSet = s.g_WSClientSet
  g_Instance : s'.g_Instance = s.g_Instance

/-- The dispatcher of the event ends, on every stack that is deep enough, in one state in
which the event has been dispatched. -/
def DispatchOk (ev : SdkEvent) (buf : Bytes) (this : ℕ) (s : Server) : Prop :=
  ∃ depth s', (∀ d, depth ≤ d → CB d ev s = .ok () s') ∧ Dispatched ev buf this s s'

variable {ev : SdkEvent} {s : Server} {this : ℕ}

/-- The observations of a dispatch: at most one call of the SDK, the handler, the sends. -/
theorem handlerCalls_dispatch (ps : List ℕ) (buf : Bytes) (trace : List Obs) :
    handlerCalls (trace ++ ev.alerted ++ [.handler this ev] ++ ps.map fun p => .Send p buf) =
      handlerCalls trace ++ [(this, ev)] := by
  have halert : handlerCalls ev.alerted = [] := by cases ev <;> rfl
  have hsends : handlerCalls (ps.map fun p => .Send p buf) = [] := by
    induction ps with
    | nil => rfl
    | cons p ps ih => simp [handlerCalls]
  simp only [handlerCalls, List.filterMap_append] at halert hsends ⊢
  rw [halert, hsends]
  simp

/-- A forwarded event ends in a state in which each listed client got its message as often
as it is listed. -/
theorem CB_sentAll {param : List (String × Value)} {v : Value}
    (hparam : ∀ depth s, CB depth ev s =
      (toInstance fun this => handle this ev ev.name param) (s.observed ev.alerted))
    (hv : eventValue ev.name param = .ok v) (hi : s.g_Instance = some this)
    (hthis : s.heap.Live this) (hlive : ∀ p ∈ s.g_WSClientSet, s.heap.Live p) :
    ∃ s', (∀ depth, CB depth ev s = .ok () s') ∧
      SentAll s.g_WSClientSet v.writeValue
        (s.observed (ev.alerted ++ [.handler this ev])) s' := by
  obtain ⟨s', hs', hall⟩ := forM_Send v.writeValue s.g_WSClientSet
    (s.observed (ev.alerted ++ [.handler this ev])) hlive
  refine ⟨s', fun depth => ?_, hall⟩
  have hi' : (s.observed ev.alerted).g_Instance = some this := hi
  rw [hparam, toInstance, EStateM.get_bind]
  simp only [hi']
  refine (handle_run (s := s.observed ev.alerted) hthis ev hv).trans ?_
  rw [← hs']
  simp only [Server.observed, List.append_assoc]

/-- Sending to all is dispatching exactly when no client is listed twice. -/
theorem SentAll.dispatched_iff {buf : Bytes} {s' : Server}
    (h : SentAll s.g_WSClientSet buf (s.observed (ev.alerted ++ [.handler this ev])) s')
    (hlive : ∀ p ∈ s.g_WSClientSet, s.heap.Live p) :
    Dispatched ev buf this s s' ↔ s.g_WSClientSet.Nodup := by
  constructor
  · intro hd
    rw [List.nodup_iff_count_eq_one]
    intro p hp
    obtain ⟨c, hc⟩ := Heap.live_iff.mp (hlive p hp)
    have hq := hd.queued p hp c hc
    rw [h.cell] at hq
    have hlen : List.replicate (s.g_WSClientSet.count p) (entry buf) = [entry buf] := by
      simpa [Server.observed, hc] using hq
    simpa using congrArg List.length hlen
  · intro hnd
    refine ⟨?_, fun p hp c hc => ?_, fun p hp => ?_, h.WSClientSet, h.g_WSClientSet,
      h.g_Instance⟩
    · rw [h.trace]
      simpa [Server.observed] using handlerCalls_dispatch s.g_WSClientSet buf s.trace
    · rw [h.cell, List.count_eq_one_of_mem hnd hp]
      simp [Server.observed, hc]
    · rw [h.cell, List.count_eq_zero_of_not_mem hp]
      simp [Server.observed]

/-- **Dispatch terminates and reaches every page once**, for every event but the switch
request and exactly when no client is listed twice. The message has type `event`, the name
of the handler, and is built from the input arguments of the event alone: it is the same in
every state and for all output buffers. -/
theorem CB_dispatchOk_iff (ev : SdkEvent) (hlog : ∀ loginfo, ev ≠ .onLogInfo loginfo) :
    ∃ v : Value, v.member (bytes "type") = .ofLiteral "event" ∧
      v.member (bytes "event") = .ofLiteral ev.name ∧
      ∀ (outData outLen : ℕ) (s : Server) (this : ℕ), s.g_Instance = some this →
        s.heap.Live this → (∀ p ∈ s.g_WSClientSet, s.heap.Live p) →
        (DispatchOk (ev.withOut outData outLen) v.writeValue this s ↔
          (∀ callid video reason, ev ≠ .onSwitchCallMediaTypeRequest callid video reason) ∧
            s.g_WSClientSet.Nodup) := by
  by_cases hfwd : ev.forwarded = true
  · obtain ⟨param, hparam⟩ := CB_withOut hfwd
    obtain ⟨v, hv, hev⟩ := eventValue_spec ev.name param
    refine ⟨v, hev.type, hev.event, fun outData outLen s this hi hthis hlive => ?_⟩
    rw [← ev.name_withOut outData outLen] at hv
    obtain ⟨s', hs', hall⟩ := CB_sentAll (hparam outData outLen) hv hi hthis hlive
    have hswitch : ∀ callid video reason,
        ev ≠ .onSwitchCallMediaTypeRequest callid video reason := by
      rintro callid video reason rfl
      cases hfwd
    constructor
    · rintro ⟨depth, t, ht, hd⟩
      obtain rfl : s' = t := by simpa [hs'] using ht depth (Nat.le_refl _)
      exact ⟨hswitch, (hall.dispatched_iff hlive).mp hd⟩
    · rintro ⟨-, hnd⟩
      exact ⟨0, s', fun d _ => hs' d, (hall.dispatched_iff hlive).mpr hnd⟩
  · obtain ⟨callid, video, reason, rfl⟩ :
        ∃ callid video reason, ev = .onSwitchCallMediaTypeRequest callid video reason := by
      cases ev
      case onLogInfo loginfo => exact absurd rfl (hlog loginfo)
      case onSwitchCallMediaTypeRequest callid video reason => exact ⟨_, _, _, rfl⟩
      all_goals exact absurd rfl hfwd
    obtain ⟨v, -, hev⟩ := eventValue_spec "onSwitchCallMediaTypeRequest" []
    refine ⟨v, hev.type, hev.event, fun _ _ s this hi _ _ => ?_⟩
    constructor
    · rintro ⟨depth, s', hs', -⟩
      have hend : CB depth (.onSwitchCallMediaTypeRequest callid video reason) s = .ok () s' :=
        hs' depth (Nat.le_refl _)
      have hnever : CB depth (.onSwitchCallMediaTypeRequest callid video reason) s =
        .error .stackOverflow s :=
          sonSwitchCallMediaTypeRequest_overflows hi callid video reason depth
      rw [hnever] at hend
      cases hend
    · rintro ⟨hswitch, -⟩
      exact absurd rfl (hswitch callid video reason)

/-- A page that is connected alone gets a call's answer once. -/
theorem CB_dispatchOk_onePage :
    ∃ v : Value, v.member (bytes "event") = .ofLiteral "onCallAnswered" ∧
      DispatchOk (.onCallAnswered (bytes "7")) v.writeValue 0 onePage := by
  have hlog : ∀ loginfo, SdkEvent.onCallAnswered (bytes "7") ≠ .onLogInfo loginfo :=
    fun _ h => by cases h
  have hswitch : ∀ callid video reason, SdkEvent.onCallAnswered (bytes "7") ≠
      .onSwitchCallMediaTypeRequest callid video reason := fun _ _ _ h => by cases h
  obtain ⟨v, -, hev, h⟩ := CB_dispatchOk_iff (.onCallAnswered (bytes "7")) hlog
  exact ⟨v, hev, (h 0 0 onePage 0 rfl (by decide) (by decide)).mpr ⟨hswitch, by decide⟩⟩

/-- With one page connected, a request to switch the media type of a call never comes
back from its dispatcher. -/
theorem CB_switchRequest_never_returns :
    ¬ ∃ depth s', CB depth (.onSwitchCallMediaTypeRequest (bytes "7") 1 200) onePage =
      .ok () s' := by
  rintro ⟨depth, s', hs'⟩
  have hnever : CB depth (.onSwitchCallMediaTypeRequest (bytes "7") 1 200) onePage =
    .error .stackOverflow onePage := sonSwitchCallMediaTypeRequest_overflows rfl _ _ _ depth
  rw [hnever] at hs'
  cases hs'

end UCClient
