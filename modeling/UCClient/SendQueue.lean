import UCClient.Effects
import UCClient.ServerTable
import UCClient.Streams

/-!
# The Send Queue Loses Nothing

`Send` puts `LWS_PRE` bytes of space and the message on a queue; each `WRITEABLE` callback
offers the first entry to `lws_write`, which takes as much of it as it likes, and erases
what was taken. This module follows the queues of all clients through runs of the whole
server, with any number of connections, messages received, events and closed pages.

Two things are assumed. `lws_write` does not take more than it was offered
(`partialWrites`), and the messages sent to the client are shorter than 2^31 bytes, for
the source keeps the length of an entry in an `int`.

What was sent and what was taken over is read from the observations of a run, so the
invariant (`Tracked`) relates a queue to a trace: the payloads of the queue are aligned
with the messages sent (`Aligned`), and the space before each payload is whole.

## Main results

* `send_queue_conserved`: what lws took of a client's messages, followed by the payloads of
  its queue, is what was sent to it; every `lws_write` was offered the rest of a single
  message; and no callback computes a length or a range outside its entry.
-/

namespace UCClient

open ServerM WebSocketClient

/-- The bytes of an entry after the space for lws. -/
def payload (e : Bytes) : Bytes := e.drop LWS_PRE

/-- The messages sent to a client. -/
def sends (p : ℕ) (trace : List Obs) : List Bytes :=
  trace.filterMap fun
    | .Send q buf => if q = p then some buf else none
    | _ => none

/-- The bytes lws took over from a client. -/
def accepted (p : ℕ) (trace : List Obs) : Bytes :=
  trace.flatMap fun
    | .lws_write q buf res => if q = p then buf.take res.toNat else []
    | _ => []

/-- What is offered to lws is the rest of a single message, everything before which has
been taken over. -/
def OneSend (p : ℕ) (trace : List Obs) (buf : Bytes) : Prop :=
  ∃ before m k later, sends p trace = before ++ m :: later ∧ buf = m.drop k ∧
    accepted p trace = before.flatten ++ m.take k

/-- The first entry of the queue of a connection. -/
def firstEntry (s : Server) (wsi : Wsi) : Option Bytes :=
  ((s.WSClientSet wsi).bind s.heap.cell).bind fun c => c.m_sendBuf.head?

/-- The environment: callbacks come in any order, and `lws_write` takes at most what it is
offered. -/
def partialWrites (w : World) (wsi : Wsi) (reason : Reason) : Prop :=
  ∀ res ∈ reason.result, ∀ e ∈ firstEntry w.server wsi, res ≤ (payload e).length

instance (w : World) (wsi : Wsi) (reason : Reason) : Decidable (partialWrites w wsi reason) :=
  inferInstanceAs (Decidable (∀ res ∈ _, ∀ e ∈ _, _))

theorem le_of_offered {s : Server} {wsi : Wsi} {p : ℕ} {c : Client} {res : ℤ}
    (hreg : s.WSClientSet wsi = some p) (hc : s.heap.cell p = some c)
    (h : ∀ e ∈ firstEntry s wsi, res ≤ (payload e).length) :
    ∀ e rest, c.m_sendBuf = e :: rest → res ≤ (payload e).length := by
  intro e rest hq
  refine h e ?_
  simp only [firstEntry, hreg, hc, hq, Option.bind_some, List.head?_cons, Option.mem_def]

/-! ### Lengths -/

theorem sizeSub_of_le {a b : ℕ} (h : b ≤ a) (hlt : a - b < 2 ^ 32) : sizeSub a b = a - b := by
  rw [sizeSub]
  omega

theorem toInt_of_lt {n : ℕ} (h : n < 2 ^ 31) : toInt n = n := by
  unfold toInt
  apply Int.bmod_eq_of_le <;> omega

/-- The entries `Send` makes of messages that are short enough, and their remainders. -/
structure Sized (e : Bytes) : Prop where
  space : LWS_PRE ≤ e.length
  short : (payload e).length < 2 ^ 31

namespace Sized

variable {e buf : Bytes}

theorem length_payload (e : Bytes) : (payload e).length = e.length - LWS_PRE :=
  List.length_drop

theorem sizeSub (h : Sized e) : UCClient.sizeSub e.length LWS_PRE = (payload e).length := by
  have hshort := h.short
  rw [length_payload] at hshort ⊢
  exact sizeSub_of_le h.space (by omega)

theorem entry (h : buf.length < 2 ^ 31) : Sized (entry buf) ∧ payload (entry buf) = buf := by
  have hpay : payload (WebSocketClient.entry buf) = buf := by
    simp [payload, WebSocketClient.entry]
  refine ⟨⟨?_, by rwa [hpay]⟩, hpay⟩
  simp [WebSocketClient.entry]

/-- What is left of an entry after `n` bytes have been taken. -/
theorem erase (h : Sized e) {n : ℕ} (hn : n ≤ (payload e).length) :
    eraseRange e LWS_PRE (LWS_PRE + n) = .ok (e.take LWS_PRE ++ e.drop (LWS_PRE + n)) ∧
      Sized (e.take LWS_PRE ++ e.drop (LWS_PRE + n)) ∧
      payload (e.take LWS_PRE ++ e.drop (LWS_PRE + n)) = (payload e).drop n := by
  have hspace := h.space
  have hshort := h.short
  have hlen := length_payload e
  have htake : (e.take LWS_PRE).length = LWS_PRE := List.length_take_of_le hspace
  have hpay : payload (e.take LWS_PRE ++ e.drop (LWS_PRE + n)) = (payload e).drop n := by
    rw [payload, List.drop_append_of_le_length (by omega), List.drop_eq_nil_iff.mpr (by omega),
      List.nil_append, payload, List.drop_drop]
  refine ⟨if_pos (by omega), ⟨?_, ?_⟩, hpay⟩
  · rw [List.length_append]
    omega
  · rw [hpay, List.length_drop]
    omega

end Sized

/-! ### Writing the first entry -/

/-- The ways a `WRITEABLE` callback of `p` can go about the queue: what is observed, and
the queue afterwards or `none`. -/
inductive Written (p : ℕ) (res : ℤ) : List Bytes → List Obs → Option (List Bytes) → Prop
  | idle : Written p res [] [] (some [])
  | empty {e : Bytes} {rest : List Bytes} (h : payload e = []) :
      Written p res (e :: rest) [] (some rest)
  | refused {e : Bytes} {rest : List Bytes} (h : res ≤ 0) :
      Written p res (e :: rest) [.lws_write p (payload e) res] none
  | whole {e : Bytes} {rest : List Bytes} (h : (payload e).drop res.toNat = []) :
      Written p res (e :: rest) [.lws_write p (payload e) res] (some rest)
  | part {e e' : Bytes} {rest : List Bytes} (he : Sized e')
      (h : payload e' = (payload e).drop res.toNat) :
      Written p res (e :: rest) [.lws_write p (payload e) res] (some (e' :: rest))

theorem writeHead_spec {e : Bytes} (h : Sized e) {res : ℤ} (hres : res ≤ (payload e).length)
    (hne : payload e ≠ []) (p : ℕ) (s : Server) :
    writeHead p e res s =
      .ok (if 0 < res then some (e.take LWS_PRE ++ e.drop (LWS_PRE + res.toNat)) else none)
        (s.observed [.lws_write p (payload e) res]) := by
  have hpos : (payload e).length > 0 := List.length_pos_iff.mpr hne
  have hlen : toInt (UCClient.sizeSub e.length LWS_PRE) = (payload e).length := by
    rw [h.sizeSub, toInt_of_lt h.short]
  have hbuf : (e.drop LWS_PRE).take (payload e).length = payload e := List.take_length
  have hgt : ((payload e).length : ℤ) > 0 := by omega
  by_cases h0 : 0 < res
  · have herase := (h.erase (n := res.toNat) (by omega)).1
    simp only [writeHead, hlen, hgt, h0, if_true, Int.toNat_natCast, hbuf, herase]
    rfl
  · simp only [writeHead, hlen, hgt, h0, if_true, if_false, Int.toNat_natCast, hbuf]
    rfl

/-- **A `WRITEABLE` callback on sound entries** ends without a fault, in one of the listed
ways. -/
theorem writeQueue_spec (p : ℕ) {res : ℤ} {queue : List Bytes} (hs : ∀ e ∈ queue, Sized e)
    (hres : ∀ e rest, queue = e :: rest → res ≤ (payload e).length) :
    ∃ obs r, Written p res queue obs r ∧
      ∀ s, writeQueue p res queue s = .ok r (s.observed obs) := by
  cases queue with
  | nil => exact ⟨[], _, .idle, fun s => by simp [Server.observed]; rfl⟩
  | cons e rest =>
      have he := hs e List.mem_cons_self
      have hle := hres e rest rfl
      by_cases hne : payload e = []
      · refine ⟨[], _, .empty hne, fun s => ?_⟩
        have hlen : UCClient.sizeSub e.length LWS_PRE = 0 := by rw [he.sizeSub, hne]; rfl
        have hhead : writeHead p e res s = .ok (some e) s := by
          simp only [writeHead, hlen]
          rfl
        rw [writeQueue, EStateM.bind_ok hhead]
        simp only [hlen, Nat.le_refl, if_true, Server.observed, List.append_nil]
        rfl
      · by_cases h0 : 0 < res
        · obtain ⟨-, hsized, hpay⟩ := he.erase (n := res.toNat) (by omega)
          have hhead := writeHead_spec he hle hne p
          simp only [h0, if_true] at hhead
          by_cases hall : (payload e).drop res.toNat = []
          · refine ⟨_, _, .whole hall, fun s => ?_⟩
            rw [writeQueue, EStateM.bind_ok (hhead s)]
            simp only [hsized.sizeSub, hpay, hall, List.length_nil, Nat.le_refl, if_true]
            rfl
          · have hlen : ¬ ((payload e).drop res.toNat).length ≤ 0 := by
              have := List.length_pos_iff.mpr hall
              omega
            refine ⟨_, _, .part hsized hpay, fun s => ?_⟩
            rw [writeQueue, EStateM.bind_ok (hhead s)]
            simp only [hsized.sizeSub, hpay, hlen, if_false]
            rfl
        · have hhead := writeHead_spec he hle hne p
          simp only [h0, if_false] at hhead
          refine ⟨_, _, .refused (by omega), fun s => ?_⟩
          rw [writeQueue, EStateM.bind_ok (hhead s)]
          rfl

theorem ws_write_ok {s : Server} {p : ℕ} {c : Client} (hc : s.heap.cell p = some c)
    (hs : ∀ e ∈ c.m_sendBuf, Sized e) {res : ℤ}
    (hres : ∀ e rest, c.m_sendBuf = e :: rest → res ≤ (payload e).length) (wsi : Wsi) :
    ∃ r s', ws_write wsi (some p) res s = .ok r s' := by
  by_cases hclosing : c.m_state = .CLOSING
  · exact ⟨_, _, ws_write_closing hc hclosing res⟩
  · obtain ⟨obs, r, -, hrun⟩ := writeQueue_spec p hs hres
    cases r with
    | none => exact ⟨_, _, ws_write_fail hc hclosing hrun⟩
    | some queue => exact ⟨_, _, ws_write_done hc hclosing hrun⟩

/-! ### A queue and its trace -/

section Trace

variable {p : ℕ} {trace obs : List Obs}

theorem sends_append : sends p (trace ++ obs) = sends p trace ++ sends p obs :=
  List.filterMap_append

theorem accepted_append : accepted p (trace ++ obs) = accepted p trace ++ accepted p obs :=
  List.flatMap_append

theorem sends_eq_nil (h : ∀ o ∈ obs, o.dataOf ≠ some p) : sends p obs = [] := by
  refine List.filterMap_eq_nil_iff.mpr fun o ho => ?_
  cases o with
  | Send q buf => exact if_neg fun hq => h _ ho (congrArg some hq)
  | _ => rfl

/-- A `WRITEABLE` callback sends nothing. -/
theorem sends_onSend {q : ℕ} {res : ℤ} (hobs : ∀ o ∈ obs, ∃ buf, o = .lws_write q buf res) :
    sends p (.OnSend q :: obs) = [] := by
  refine List.filterMap_eq_nil_iff.mpr fun o ho => ?_
  rcases List.mem_cons.mp ho with rfl | ho
  · rfl
  · obtain ⟨buf, rfl⟩ := hobs o ho
    rfl

theorem accepted_eq_nil (h : ∀ o ∈ obs, o.dataOf ≠ some p) : accepted p obs = [] := by
  refine List.flatMap_eq_nil_iff.mpr fun o ho => ?_
  cases o with
  | lws_write q buf res => exact if_neg fun hq => h _ ho (congrArg some hq)
  | _ => rfl

end Trace

/-- Every write of the trace was offered the rest of a single message. -/
def OneSends (p : ℕ) (trace : List Obs) : Prop :=
  ∀ pre buf res post, trace = pre ++ .lws_write p buf res :: post → OneSend p pre buf

theorem OneSends.append {p : ℕ} {trace obs : List Obs} (h : OneSends p trace)
    (hobs : ∀ pre buf res post, obs = pre ++ .lws_write p buf res :: post →
      OneSend p (trace ++ pre) buf) : OneSends p (trace ++ obs) := by
  intro pre buf res post heq
  rcases List.append_eq_append_iff.mp heq with ⟨mid, rfl, hmid⟩ | ⟨mid, rfl, hmid⟩
  · exact hobs mid buf res post hmid
  · cases mid with
    | nil => simpa using hobs [] buf res post hmid.symm
    | cons o mid =>
        obtain ⟨rfl, -⟩ := List.cons.inj hmid
        exact h pre buf res mid rfl

/-- The queue of `p` fits the trace. -/
structure Tracks (p : ℕ) (queue : List Bytes) (trace : List Obs) : Prop where
  aligned : Aligned (accepted p trace) (queue.map payload) (sends p trace)
  sized : ∀ e ∈ queue, Sized e
  oneSends : OneSends p trace

/-- The messages sent to `p` are shorter than 2^31 bytes. -/
def ShortSends (p : ℕ) (trace : List Obs) : Prop := ∀ m ∈ sends p trace, m.length < 2 ^ 31

/-- The queue of `p` fits the trace if the messages sent to it are short. -/
def Tracked (p : ℕ) (queue : List Bytes) (trace : List Obs) : Prop :=
  ShortSends p trace → Tracks p queue trace

namespace Tracked

variable {p : ℕ} {queue : List Bytes} {trace obs : List Obs} {buf : Bytes}

theorem shortSends_left (h : ShortSends p (trace ++ obs)) : ShortSends p trace := by
  intro m hm
  refine h m ?_
  rw [sends_append]
  exact List.mem_append_left _ hm

/-- A client no data was sent to. -/
theorem fresh (h : ∀ o ∈ trace, o.dataOf ≠ some p) : Tracked p [] trace := by
  intro _
  refine ⟨?_, nofun, fun pre buf res post htrace => ?_⟩
  · rw [sends_eq_nil h, accepted_eq_nil h]
    exact .idle []
  · exact absurd rfl (h (.lws_write p buf res) (by rw [htrace]; simp))

/-- Observations that show no data of `p`. -/
theorem frame (h : Tracked p queue trace) (hobs : ∀ o ∈ obs, o.dataOf ≠ some p) :
    Tracked p queue (trace ++ obs) := by
  intro hshort
  obtain ⟨haligned, hsized, hone⟩ := h (shortSends_left hshort)
  refine ⟨?_, hsized, hone.append fun pre buf res post heq => ?_⟩
  · rw [sends_append, accepted_append, sends_eq_nil hobs, accepted_eq_nil hobs, List.append_nil,
      List.append_nil]
    exact haligned
  · exact absurd rfl (hobs (.lws_write p buf res) (by rw [heq]; simp))

theorem send (h : Tracked p queue trace) (buf : Bytes) :
    Tracked p (queue ++ [entry buf]) (trace ++ [.Send p buf]) := by
  intro hshort
  obtain ⟨haligned, hsized, hone⟩ := h (shortSends_left hshort)
  have hsend : sends p (trace ++ [.Send p buf]) = sends p trace ++ [buf] := by
    rw [sends_append]
    simp [sends]
  have hlen : buf.length < 2 ^ 31 := hshort buf (by rw [hsend]; simp)
  obtain ⟨hentry, hpay⟩ := Sized.entry hlen
  refine ⟨?_, fun e he => ?_, hone.append fun pre buf' res post heq => ?_⟩
  · have hacc : accepted p (trace ++ [.Send p buf]) = accepted p trace := by
      rw [accepted_append]
      simp [accepted]
    rw [hsend, hacc, List.map_append, List.map_singleton, hpay]
    exact haligned.push buf
  · rcases List.mem_append.mp he with he | he
    · exact hsized e he
    · obtain rfl := List.mem_singleton.mp he
      exact hentry
  · -- the one new observation is no write
    cases pre with
    | nil => cases heq
    | cons o pre => simp at heq

/-- A broadcast sends to `p` as often as it is listed. -/
theorem sendAll (buf : Bytes) :
    ∀ (ps : List ℕ) {queue : List Bytes} {trace : List Obs}, Tracked p queue trace →
      Tracked p (queue ++ List.replicate (ps.count p) (entry buf))
        (trace ++ ps.map fun q => .Send q buf)
  | [], _, _, h => by simpa using h
  | q :: ps, queue, trace, h => by
      rw [List.map_cons, List.append_cons]
      by_cases hq : q = p
      · have h' := sendAll buf ps (h.send buf)
        rw [hq, List.count_cons_self, List.replicate_succ]
        simpa using h'
      · have hother : ∀ o ∈ [Obs.Send q buf], o.dataOf ≠ some p := by
          simpa [Obs.dataOf] using hq
        rw [List.count_cons_of_ne hq]
        exact sendAll buf ps (h.frame hother)

end Tracked

namespace Tracks

variable {p : ℕ} {e : Bytes} {queue rest : List Bytes} {trace obs : List Obs} {res : ℤ}

/-- The first entry is offered to lws, which takes `res` bytes of it. -/
theorem offer (h : Tracks p (e :: rest) trace) (hq : ∀ e ∈ queue, Sized e)
    (hal : Aligned (accepted p trace ++ (payload e).take res.toNat) (queue.map payload)
      (sends p trace)) : Tracks p queue (trace ++ [.lws_write p (payload e) res]) := by
  refine ⟨?_, hq, h.oneSends.append fun pre buf res' post heq => ?_⟩
  · rw [sends_append, accepted_append]
    simpa [sends, accepted] using hal
  · cases pre with
    | nil =>
        obtain ⟨hwrite, -⟩ := List.cons.inj heq
        cases hwrite
        rw [List.append_nil]
        exact h.aligned.head_eq
    | cons o pre => simp at heq

/-- A `WRITEABLE` callback, whichever way it went. -/
theorem written {r : Option (List Bytes)} (h : Tracks p queue trace)
    (hw : Written p res queue obs r) : Tracks p (r.getD queue) (trace ++ obs) := by
  cases hw with
  | idle => simpa using h
  | @empty e rest hpay =>
      have hal := h.aligned
      rw [List.map_cons, hpay] at hal
      rw [List.append_nil]
      exact ⟨hal.skip, fun e he => h.sized e (List.mem_cons_of_mem _ he), h.oneSends⟩
  | @refused e rest hres =>
      refine h.offer h.sized ?_
      rw [Int.toNat_of_nonpos hres, List.take_zero, List.append_nil]
      exact h.aligned
  | @whole e rest hall =>
      have hal := h.aligned.take res.toNat
      rw [hall] at hal
      exact h.offer (fun e he => h.sized e (List.mem_cons_of_mem _ he)) hal.skip
  | @part e e' rest he' hpay =>
      have hal := h.aligned.take res.toNat
      rw [← hpay] at hal
      refine h.offer (fun e he => ?_) hal
      rcases List.mem_cons.mp he with rfl | he
      · exact he'
      · exact h.sized e (List.mem_cons_of_mem _ he)

end Tracks

/-! ### The queues of all clients -/

/-- Every queue fits the trace, and no data was sent to a client before it existed. -/
structure QueueInv (s : Server) : Prop where
  known : ∀ o ∈ s.trace, ∀ p, o.dataOf = some p → p < s.heap.next
  tracked : ∀ p c, s.heap.cell p = some c → Tracked p c.m_sendBuf s.trace

/-- The clients of the second heap have the queues they had in the first, or are new and
have nothing queued. -/
structure SameQueues (h h' : Heap Client) : Prop where
  next : h.next ≤ h'.next
  queue : ∀ p c', h'.cell p = some c' →
    (∃ c, h.cell p = some c ∧ c'.m_sendBuf = c.m_sendBuf) ∨ h.next ≤ p ∧ c'.m_sendBuf = []

namespace SameQueues

variable {h : Heap Client} {p : ℕ}

theorem refl (h : Heap Client) : SameQueues h h :=
  ⟨Nat.le_refl _, fun _ c hc => .inl ⟨c, hc, rfl⟩⟩

theorem modify {f : Client → Client} (hf : ∀ c, (f c).m_sendBuf = c.m_sendBuf) :
    SameQueues h (h.modify p f) := by
  refine ⟨Nat.le_refl _, fun q c' hc' => .inl ?_⟩
  obtain ⟨c, hc, hsame⟩ := Heap.cell_of_modify (g := Client.m_sendBuf) hc' hf
  exact ⟨c, hc, hsame.symm⟩

theorem free : SameQueues h (h.free p) := by
  refine ⟨Nat.le_refl _, fun q c' hc' => .inl ⟨c', ?_, rfl⟩⟩
  rw [Heap.cell_free] at hc'
  split at hc'
  · cases hc'
  · exact hc'

theorem alloc {c : Client} (hc : c.m_sendBuf = []) : SameQueues h (h.alloc c) := by
  refine ⟨Nat.le_succ _, fun q c' hc' => ?_⟩
  rcases Heap.cases_of_alloc hc' with ⟨rfl, rfl⟩ | hc'
  · exact .inr ⟨Nat.le_refl _, hc⟩
  · exact .inl ⟨c', hc', rfl⟩

end SameQueues

/-- A run of `writeQueue` on sound entries went one of the listed ways. -/
theorem written_of_run {p : ℕ} {res : ℤ} {queue : List Bytes} {obs : List Obs}
    {r : Option (List Bytes)} (hs : ∀ e ∈ queue, Sized e)
    (hres : ∀ e rest, queue = e :: rest → res ≤ (payload e).length)
    (hrun : ∀ s, writeQueue p res queue s = .ok r (s.observed obs)) :
    Written p res queue obs r := by
  obtain ⟨obs', r', hw, hrun'⟩ := writeQueue_spec p hs hres
  obtain ⟨rfl, htrace⟩ := EStateM.Result.ok.inj ((hrun' {}).symm.trans (hrun {}))
  obtain rfl : obs' = obs := by simpa [Server.observed] using congrArg Server.trace htrace
  exact hw

namespace QueueInv

variable {s s' : Server} {p : ℕ} {c : Client} {obs : List Obs}

theorem known_append (h : QueueInv s) (hnext : s.heap.next ≤ s'.heap.next)
    (htrace : s'.trace = s.trace ++ obs)
    (hobs : ∀ o ∈ obs, ∀ p, o.dataOf = some p → p < s.heap.next) :
    ∀ o ∈ s'.trace, ∀ p, o.dataOf = some p → p < s'.heap.next := by
  intro o ho p hp
  rw [htrace] at ho
  refine Nat.lt_of_lt_of_le ?_ hnext
  rcases List.mem_append.mp ho with ho | ho
  · exact h.known o ho p hp
  · exact hobs o ho p hp

/-- Steps that send nothing and write nothing. -/
theorem frame (h : QueueInv s) (hheap : SameQueues s.heap s'.heap)
    (htrace : s'.trace = s.trace ++ obs) (hobs : ∀ o ∈ obs, o.dataOf = none) : QueueInv s' := by
  refine ⟨h.known_append hheap.next htrace fun o ho p hp => ?_, fun p c' hc' => ?_⟩
  · rw [hobs o ho] at hp
    cases hp
  · have hquiet : ∀ o ∈ obs, o.dataOf ≠ some p := fun o ho hp => by
      rw [hobs o ho] at hp
      cases hp
    rw [htrace]
    refine Tracked.frame ?_ hquiet
    obtain ⟨c, hc, heq⟩ | ⟨hnew, heq⟩ := hheap.queue p c' hc'
    · rw [heq]
      exact h.tracked p c hc
    · rw [heq]
      refine .fresh fun o ho hp => ?_
      have := h.known o ho p hp
      omega

/-- Steps that are not observed at all. -/
theorem quiet (h : QueueInv s) (hheap : SameQueues s.heap s'.heap)
    (htrace : s'.trace = s.trace) : QueueInv s' :=
  h.frame hheap (htrace.trans (List.append_nil _).symm) (List.forall_mem_nil _)

/-- A step about the queue of one client. -/
theorem modify (h : QueueInv s) (hc : s.heap.cell p = some c) {f : Client → Client}
    (hheap : s'.heap = s.heap.modify p f) (htrace : s'.trace = s.trace ++ obs)
    (hobs : ∀ o ∈ obs, o.dataOf = none ∨ o.dataOf = some p)
    (hp : Tracked p (f c).m_sendBuf (s.trace ++ obs)) : QueueInv s' := by
  have hnext : s'.heap.next = s.heap.next := by rw [hheap, Heap.next_modify]
  refine ⟨h.known_append (Nat.le_of_eq hnext.symm) htrace fun o ho q hq => ?_,
    fun q c' hc' => ?_⟩
  · rcases hobs o ho with hnone | hsome
    · rw [hnone] at hq
      cases hq
    · rw [hsome] at hq
      cases hq
      exact Heap.lt_next_of_cell hc
  · rw [hheap] at hc'
    rw [htrace]
    rcases Heap.cases_of_modify hc hc' with ⟨rfl, rfl⟩ | ⟨hq, hc'⟩
    · exact hp
    · refine (h.tracked q c' hc').frame fun o ho hqo => ?_
      rcases hobs o ho with hnone | hsome
      · rw [hnone] at hqo
        cases hqo
      · rw [hsome] at hqo
        exact hq (Option.some.inj hqo).symm

theorem sent (h : QueueInv s) (hc : s.heap.cell p = some c) (buf : Bytes) :
    QueueInv (s.sent p c buf) :=
  h.modify hc rfl rfl (by simp [Obs.dataOf]) ((h.tracked p c hc).send buf)

theorem sentAll (h : QueueInv s) {ps : List ℕ} {buf : Bytes} (hall : SentAll ps buf s s')
    (hlive : ∀ p ∈ ps, s.heap.Live p) : QueueInv s' := by
  refine ⟨h.known_append (Nat.le_of_eq hall.next.symm) hall.trace fun o ho p hp => ?_,
    fun p c' hc' => ?_⟩
  · obtain ⟨q, hq, rfl⟩ := List.mem_map.mp ho
    cases hp
    obtain ⟨c, hc⟩ := Heap.live_iff.mp (hlive p hq)
    exact Heap.lt_next_of_cell hc
  · rw [hall.cell] at hc'
    obtain ⟨c, hc, rfl⟩ := Option.map_eq_some_iff.mp hc'
    rw [hall.trace]
    exact (h.tracked p c hc).sendAll buf ps

/-- After a `WRITEABLE` callback that wrote, or was refused: the queue it left fits. -/
theorem tracked_written (h : QueueInv s) (hc : s.heap.cell p = some c) {res : ℤ}
    {r : Option (List Bytes)}
    (hres : ∀ e rest, c.m_sendBuf = e :: rest → res ≤ (payload e).length)
    (hq : ∀ s, writeQueue p res c.m_sendBuf s = .ok r (s.observed obs)) :
    Tracked p (r.getD c.m_sendBuf) (s.trace ++ .OnSend p :: obs) := by
  intro hshort
  rw [List.append_cons] at hshort ⊢
  have hquiet : ∀ o ∈ [Obs.OnSend p], o.dataOf ≠ some p := by simp [Obs.dataOf]
  have htracks := (h.tracked p c hc).frame hquiet (Tracked.shortSends_left hshort)
  exact htracks.written (written_of_run htracks.sized hres hq)

theorem empty : QueueInv {} := ⟨nofun, nofun⟩

/-- The observations of a `WRITEABLE` callback of `p`. -/
theorem dataOf_onSend (hobs : ∀ o ∈ obs, o.dataOf = some p) :
    ∀ o ∈ .OnSend p :: obs, o.dataOf = none ∨ o.dataOf = some p := by
  intro o ho
  rcases List.mem_cons.mp ho with rfl | ho
  · exact .inl rfl
  · exact .inr (hobs o ho)

theorem refused (h : QueueInv s) (hc : s.heap.cell p = some c) {res : ℤ}
    (hobs : ∀ o ∈ obs, o.dataOf = some p)
    (hres : ∀ e rest, c.m_sendBuf = e :: rest → res ≤ (payload e).length)
    (hq : ∀ s, writeQueue p res c.m_sendBuf s = .ok none (s.observed obs)) :
    QueueInv (s.observed (.OnSend p :: obs)) :=
  h.modify hc (f := id) Heap.modify_id.symm rfl (dataOf_onSend hobs) (h.tracked_written hc hres hq)

theorem wrote (h : QueueInv s) (hc : s.heap.cell p = some c) {res : ℤ} {queue : List Bytes}
    (hobs : ∀ o ∈ obs, o.dataOf = some p)
    (hres : ∀ e rest, c.m_sendBuf = e :: rest → res ≤ (payload e).length)
    (hq : ∀ s, writeQueue p res c.m_sendBuf s = .ok (some queue) (s.observed obs)) (wsi : Wsi) :
    QueueInv (s.wrote wsi p queue (.OnSend p :: obs)) :=
  h.modify hc rfl rfl (dataOf_onSend hobs) (h.tracked_written hc hres hq)

theorem closing (h : QueueInv s) (p : ℕ) (c : Client) : QueueInv (s.closing p c) := by
  refine h.quiet ?_ rfl
  by_cases hw : s.canWrite c = true
  · rw [Server.closing_heap hw]
    exact .modify fun _ => rfl
  · rw [Server.closing_eq_self hw]
    exact .refl _

/-- **Every effect keeps the queues**, if `lws_write` takes no more than it is offered. -/
theorem effect {a : Action} {r : ℤ} (h : QueueInv s) (hgood : Good s)
    (htakes : ∀ wsi reason, a = .lws wsi reason → ∀ res ∈ reason.result,
      ∀ e ∈ firstEntry s wsi, res ≤ (payload e).length)
    (he : Effect s a r s') : QueueInv s' := by
  cases he with
  | nothing => exact h
  | opened => exact h.frame (.modify fun _ => rfl) rfl (by simp [Obs.dataOf])
  | erased => exact h.quiet (.refl _) rfl
  | @closed _ _ p c _ _ _ _ hobs =>
      refine h.frame ?_ rfl hobs
      by_cases hcls : c.cls = .UCClientWSclient
      · simp only [Server.closedBy, hcls, if_true]
        exact .free
      · simp only [Server.closedBy, hcls, if_false]
        exact .modify fun _ => rfl
  | received _ _ _ hobs =>
      exact h.frame (.refl _) rfl (by simpa [Obs.dataOf] using hobs)
  | replied _ _ hc hobs =>
      refine sent (s := s.ranCommand _ _ _ _) (h.frame (.refl _) rfl ?_) hc _
      simpa [Obs.dataOf] using hobs
  | refused hr hreg hc hobs hq =>
      exact h.refused hc hobs (le_of_offered hreg hc (htakes _ _ rfl _ hr)) hq
  | wrote hr hreg hc hs hobs hq =>
      exact h.wrote hc hobs (le_of_offered hreg hc (htakes _ _ rfl _ hr)) hq _
  | accepted => exact h.quiet (.alloc rfl) rfl
  | destroyed => exact h.quiet .free rfl
  | event hobs => exact h.frame (.refl _) rfl hobs
  | @broadcast _ _ obs _ _ hobs hall =>
      have hinv : QueueInv (s.observed obs) := h.frame (.refl _) rfl hobs
      exact hinv.sentAll hall fun p hp => Heap.live_map.mp (hgood.table.live_listed hp)
  | sent hc => exact h.sent hc _
  | closing hc => exact h.closing _ _
  | constructed => exact h.quiet (.alloc rfl) rfl
  | unconnected => exact h
  | connected => exact h.quiet (.modify fun _ => rfl) rfl
  | deleted => exact h.quiet .free rfl

end QueueInv

/-! ### Runs -/

variable {sdk : Sdk} {w w' : World} {a : Action}

/-- What a step of the server did, up to the requests lws has answered. -/
theorem World.step_effect (hgood : Good w.server)
    (hst : World.step .UCClientWSServer sdk w a = .ok w') :
    ∃ r writable, Effect { w.server with writable := writable } a r w'.server := by
  obtain ⟨r, s', hrun, rfl⟩ := World.step_ok hst
  obtain ⟨writable, hbefore⟩ := w.before_server a
  rw [World.after_server]
  rw [hbefore] at hrun
  refine ⟨r, writable, program_effect ?_ hrun⟩
  intro wsi reason _ p c hp hc
  exact hgood.eq_wsi hp hc

theorem QueueInv.step (h : QueueInv w.server) (hgood : Good w.server)
    (ha : contract partialWrites w a)
    (hst : World.step .UCClientWSServer sdk w a = .ok w') : QueueInv w'.server := by
  obtain ⟨r, writable, he⟩ := World.step_effect hgood hst
  refine QueueInv.effect (s := { w.server with writable := writable }) ⟨h.known, h.tracked⟩
    ⟨hgood.table, hgood.pages⟩ ?_ he
  rintro wsi reason rfl
  exact ha

theorem queueInv_reachable
    (h : (World.system .UCClientWSServer sdk (contract partialWrites)).Reachable w) :
    Good w.server ∧ QueueInv w.server :=
  h.invariant (I := fun w => Good w.server ∧ QueueInv w.server) ⟨.empty, .empty⟩
    fun _ _ _ _ hinv hal hst =>
      ⟨(step_table hinv.1 (contract.ofServer hal) hst).2, hinv.2.step hinv.1 hal hst⟩

/-- **The send queue loses nothing.** In every state of every run of the server, for every
client whose messages are short: what lws took followed by the payloads of the queue is
what was sent; every `lws_write` so far was offered the rest of a single message; every
entry has its space, so that its length does not wrap; and a `WRITEABLE` callback erases
no range outside its entry — it ends without a fault. -/
theorem send_queue_conserved (sdk : Sdk) {w : World}
    (h : (World.system .UCClientWSServer sdk (contract partialWrites)).Reachable w)
    {p : ℕ} {c : Client} (hc : w.server.heap.cell p = some c)
    (hshort : ShortSends p w.server.trace) :
    accepted p w.server.trace ++ (c.m_sendBuf.map payload).flatten =
        (sends p w.server.trace).flatten ∧
      OneSends p w.server.trace ∧
      (∀ e ∈ c.m_sendBuf, LWS_PRE ≤ e.length ∧
        sizeSub e.length LWS_PRE = e.length - LWS_PRE) ∧
      ∀ wsi reason res, w.server.WSClientSet wsi = some p → reason.result = some res →
        contract partialWrites w (.lws wsi reason) →
        ∃ w', World.step .UCClientWSServer sdk w (.lws wsi reason) = .ok w' := by
  obtain ⟨hgood, hinv⟩ := queueInv_reachable h
  obtain ⟨haligned, hsized, hone⟩ := hinv.tracked p c hc hshort
  refine ⟨haligned.flatten_eq, hone, fun e he => ?_, fun wsi reason res hreg hr ha => ?_⟩
  · refine ⟨(hsized e he).space, ?_⟩
    rw [(hsized e he).sizeSub, Sized.length_payload]
  · obtain ⟨writable, hbefore⟩ := w.before_server (.lws wsi reason)
    obtain ⟨r, s', hrun⟩ := ws_write_ok (s := { w.server with writable := writable }) hc hsized
      (le_of_offered hreg hc (ha res hr)) wsi
    have hprogram : (Action.lws wsi reason).program .UCClientWSServer sdk
        (w.before (.lws wsi reason)).server = .ok r s' := by
      rw [hbefore, ← hrun, ← hreg]
      cases reason <;> cases hr <;> rfl
    exact ⟨_, by rw [World.step, hprogram]⟩

/-- A page is sent two bytes before it is open and an empty message after; lws takes one
byte. The other one and the empty message are left. -/
theorem send_queue_conserved_part :
    ∃ w c, (World.system .UCClientWSServer silentSdk (contract partialWrites)).Reachable w ∧
      w.server.heap.cell 0 = some c ∧ ShortSends 0 w.server.trace ∧
      accepted 0 w.server.trace = [97] ∧ c.m_sendBuf.map payload = [[98], []] ∧
      accepted 0 w.server.trace ++ (c.m_sendBuf.map payload).flatten =
        (sends 0 w.server.trace).flatten := by
  obtain ⟨w, hrun, hw⟩ := StepSystem.run_of_check_map
    (S := World.system .UCClientWSServer silentSdk (contract partialWrites))
    (f := fun w => (w.server.heap.cell 0, sends 0 w.server.trace, accepted 0 w.server.trace))
    (b := (some ⟨.UCClientWSclient, 1, .OPEN, [entry [98], entry []]⟩, [[97, 98], []], [97]))
    [.lws 1 (.WSI_CREATE false), .send 0 [97, 98], .lws 1 .ESTABLISHED, .send 0 [],
      .lws 1 (.SERVER_WRITEABLE 1)] (by decide +kernel)
  obtain ⟨hc, hsends, haccepted⟩ : _ ∧ _ ∧ _ := by simpa using hw
  have hshort : ShortSends 0 w.server.trace := by
    intro m hm
    rw [hsends] at hm
    revert m
    decide
  exact ⟨w, _, ⟨_, hrun⟩, hc, hshort, haccepted, by decide +kernel,
    (send_queue_conserved silentSdk ⟨_, hrun⟩ hc hshort).1⟩

end UCClient
