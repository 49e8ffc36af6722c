import UCClient.Plugin

/-!
# The Life Cycle of a Plugin Connection

The page behind a control sees its connection through four upcalls. They should come as
for a WebSocket of the browser: `OnOpen` and then messages, if the connection is
established; `OnError`, if the attempt failed; `OnClose` at the end, once, and nothing
after it. `m_state` should only move upward, and be `CLOSED` from `OnClose` on.

The source writes `m_state` in five places without looking at its old value. That it moves
upward nevertheless rests on the registry: a callback reaches a client only through its
entry, a closing callback erases the entry, and a client is entered only once. The
invariant (`CycleInv`) says what the state of a registered client is, by whether its
connection is established and not closed (`Life.up`), and which upcalls a client in each
state has got (`Stage`).

## Main results

* `upcalls_follow_lifeCycle`: in every run of any number of clients, the upcalls of each
  client are the beginning of a life cycle, and its state only moves upward.
-/

namespace UCClient

open ServerM WebSocketClient Plugin

/-! ### Upcalls -/

/-- The client an observation is an upcall of; `OnSend` does not count. -/
def Obs.upcallOf : Obs → Option ℕ
  | .OnOpen p | .OnMessage p _ | .OnError p _ | .OnClose p _ => some p
  | _ => none

/-- The upcalls of a client. -/
def upcalls (p : ℕ) (trace : List Obs) : List Obs := trace.filter fun o => o.upcallOf = some p

theorem upcalls_append (p : ℕ) (trace obs : List Obs) :
    upcalls p (trace ++ obs) = upcalls p trace ++ upcalls p obs :=
  List.filter_append ..

theorem upcalls_eq_nil {p : ℕ} {obs : List Obs} (h : ∀ o ∈ obs, o.upcallOf ≠ some p) :
    upcalls p obs = [] := by
  rw [upcalls, List.filter_eq_nil_iff]
  intro o ho
  rw [decide_eq_true_eq]
  exact h o ho

/-- Data on its way is no upcall. -/
theorem Obs.upcallOf_of_dataOf {o : Obs} {p : ℕ} (h : o.dataOf = some p) : o.upcallOf = none := by
  cases o <;> first | rfl | cases h

/-- The upcalls of a connection that was established and got these messages, or was not. -/
def openingCalls (p : ℕ) : Option (List Bytes) → List Obs
  | none => []
  | some messages => .OnOpen p :: messages.map (.OnMessage p)

/-- The upcall of a connection that failed, or did not. -/
def errorCalls (p : ℕ) : Option Bytes → List Obs
  | none => []
  | some code => [.OnError p code]

/-- `(OnOpen, OnMessage*)?, OnError?, OnClose`. -/
def lifeCycle (p : ℕ) (messages : Option (List Bytes)) (error : Option Bytes) (code : Bytes) :
    List Obs :=
  openingCalls p messages ++ errorCalls p error ++ [.OnClose p code]

/-- The upcalls of a client, by its state. -/
def Stage (p : ℕ) (calls : List Obs) : Status → Prop
  | .CONNECTING => calls = []
  | .OPEN | .CLOSING => ∃ messages, calls = openingCalls p (some messages)
  | .CLOSED => ∃ messages error code, calls = lifeCycle p messages error code

/-- The order of the states. -/
def Status.rank : Status → ℕ
  | .CONNECTING => 0
  | .OPEN => 1
  | .CLOSING => 2
  | .CLOSED => 3

variable {p q : ℕ} {calls : List Obs} {status : Status}

theorem Status.rank_le_closed (status : Status) : status.rank ≤ Status.CLOSED.rank := by
  cases status <;> decide

/-- Every stage is the beginning of a life cycle. -/
theorem Stage.isPrefix (h : Stage p calls status) :
    ∃ messages error code, calls <+: lifeCycle p messages error code := by
  cases status with
  | CONNECTING =>
      obtain rfl : calls = [] := h
      exact ⟨none, none, [], List.nil_prefix⟩
  | OPEN | CLOSING =>
      obtain ⟨messages, rfl⟩ := h
      refine ⟨some messages, none, [], ?_⟩
      rw [lifeCycle, List.append_assoc]
      exact List.prefix_append ..
  | CLOSED =>
      obtain ⟨messages, error, code, rfl⟩ := h
      exact ⟨messages, error, code, List.prefix_rfl⟩

/-- A client that is not closed has got the upcalls of an opening, or none. -/
theorem Stage.opening (h : Stage p calls status) (hs : status ≠ .CLOSED) :
    ∃ messages, calls = openingCalls p messages := by
  cases status with
  | CONNECTING => exact ⟨none, h⟩
  | OPEN | CLOSING =>
      obtain ⟨messages, rfl⟩ := h
      exact ⟨some messages, rfl⟩
  | CLOSED => exact absurd rfl hs

/-- No `OnClose` comes before the last upcall of a life cycle. -/
theorem onClose_not_mem (messages : Option (List Bytes)) (error : Option Bytes) (code : Bytes) :
    .OnClose p code ∉ openingCalls p messages ++ errorCalls p error := by
  rw [List.mem_append, not_or]
  constructor
  · cases messages <;> simp [openingCalls]
  · cases error <;> simp [errorCalls]

/-- A life cycle ends with its `OnClose`. -/
theorem lifeCycle_onClose {messages : Option (List Bytes)} {error : Option Bytes}
    {code code' : Bytes} {before rest : List Obs}
    (h : before ++ .OnClose p code' :: rest <+: lifeCycle p messages error code) : rest = [] := by
  have hno := onClose_not_mem (p := p) messages error code'
  obtain ⟨more, hmore⟩ := h
  rw [lifeCycle, List.append_assoc, List.append_eq_append_iff] at hmore
  rcases hmore with ⟨tail, hstart, htail⟩ | ⟨tail, -, htail⟩
  · cases tail with
    | nil =>
        rw [List.nil_append, List.cons_append, List.cons.injEq] at htail
        exact (List.append_eq_nil_iff.mp htail.2).1
    | cons o tail =>
        rw [List.cons_append, List.cons_append, List.cons.injEq] at htail
        rw [hstart, ← htail.1] at hno
        exact absurd (List.mem_append_right _ List.mem_cons_self) hno
  · cases tail with
    | nil =>
        rw [List.nil_append, List.cons_append, List.cons.injEq] at htail
        exact (List.append_eq_nil_iff.mp htail.2.symm).1
    | cons o tail =>
        rw [List.cons_append, List.cons.injEq] at htail
        simp at htail

/-! ### The state of a registered client -/

/-- The connection is established and not closed. -/
def Life.up (l : Life) : Bool := l.established && !l.closed

/-- The state of a client registered for a connection that is up, or is not. -/
def Fits (up : Bool) (status : Status) : Prop :=
  if up then status = .OPEN ∨ status = .CLOSING else status = .CONNECTING

theorem Fits.ne_closed {up : Bool} (h : Fits up status) : status ≠ .CLOSED := by
  rintro rfl
  cases up with
  | true => rcases h with h | h <;> cases h
  | false => cases h

/-- What holds in every state of a run; `up` says which connections are up. -/
structure CycleInv (up : Wsi → Bool) (s : Server) : Prop where
  base : Base s
  fits : ∀ wsi p c, wsi ≠ 0 → s.WSClientSet wsi = some p → s.heap.cell p = some c →
    Fits (up wsi) c.m_state
  idle : ∀ p c, s.heap.cell p = some c → c.wsi = 0 → c.m_state = .CONNECTING
  stage : ∀ p c, s.heap.cell p = some c → Stage p (upcalls p s.trace) c.m_state
  unborn : ∀ p, s.heap.next ≤ p → upcalls p s.trace = []
  cycle : ∀ p, ∃ messages error code, upcalls p s.trace <+: lifeCycle p messages error code

/-- A client goes on as it is, or upward. -/
def Upward (s s' : Server) : Prop :=
  ∀ p c, s.heap.cell p = some c →
    ∃ c', s'.heap.cell p = some c' ∧ c'.wsi = c.wsi ∧ c.m_state.rank ≤ c'.m_state.rank

theorem Upward.refl (s : Server) : Upward s s := fun _ c hc => ⟨c, hc, rfl, Nat.le_refl _⟩

theorem Upward.trans {s s' s'' : Server} (h : Upward s s') (h' : Upward s' s'') :
    Upward s s'' := by
  intro p c hc
  obtain ⟨c', hc', hw, hle⟩ := h p c hc
  obtain ⟨c'', hc'', hw', hle'⟩ := h' p c' hc'
  exact ⟨c'', hc'', hw'.trans hw, Nat.le_trans hle hle'⟩

/-- One client changes. -/
theorem Upward.modify {s s' : Server} {c : Client} {f : Client → Client}
    (hc : s.heap.cell p = some c) (hheap : s'.heap = s.heap.modify p f) (hw : (f c).wsi = c.wsi)
    (hle : c.m_state.rank ≤ (f c).m_state.rank) : Upward s s' := by
  intro q d hd
  rw [hheap]
  refine Heap.exists_cell_modify hd ⟨rfl, Nat.le_refl _⟩ ?_
  rintro rfl
  obtain rfl : c = d := Option.some.inj (hc.symm.trans hd)
  exact ⟨hw, hle⟩

section Touch

variable {up up' : Wsi → Bool} {s s' : Server} {c : Client} {f : Client → Client}

/-- **One client changes and gets upcalls**, and entries of the registry may go. -/
theorem CycleInv.touch (h : CycleInv up s) (obs : List Obs) (hc : s.heap.cell p = some c)
    (hheap : s'.heap = s.heap.modify p f) (hcls : (f c).cls = c.cls) (hw : (f c).wsi = c.wsi)
    (hreg : ∀ v q, s'.WSClientSet v = some q → s.WSClientSet v = some q)
    (htrace : s'.trace = s.trace ++ obs) (hobs : ∀ q, q ≠ p → upcalls q obs = [])
    (hself : ∀ v, v ≠ 0 → s'.WSClientSet v = some p → Fits (up' v) (f c).m_state)
    (hother : ∀ v q, q ≠ p → s'.WSClientSet v = some q → up' v = up v)
    (hidle : c.wsi = 0 → (f c).m_state = .CONNECTING)
    (hstage : Stage p (upcalls p s.trace ++ upcalls p obs) (f c).m_state) : CycleInv up' s' := by
  have hcell : ∀ q d, s'.heap.cell q = some d →
      (q = p ∧ d = f c) ∨ (q ≠ p ∧ s.heap.cell q = some d) := by
    intro q d hd
    rw [hheap] at hd
    exact Heap.cases_of_modify hc hd
  have hcalls : ∀ q, q ≠ p → upcalls q s'.trace = upcalls q s.trace := by
    intro q hq
    rw [htrace, upcalls_append, hobs q hq, List.append_nil]
  have hown : upcalls p s'.trace = upcalls p s.trace ++ upcalls p obs := by
    rw [htrace, upcalls_append]
  constructor
  · constructor
    · intro q d hd
      rcases hcell q d hd with ⟨-, rfl⟩ | ⟨-, hd⟩
      · rw [hcls]
        exact h.base.cls p c hc
      · exact h.base.cls q d hd
    · intro v q hv hq
      obtain ⟨d, hd, hdw⟩ := h.base.registered v q hv (hreg v q hq)
      rw [hheap]
      refine Heap.exists_cell_modify hd hdw ?_
      rintro rfl
      obtain rfl : c = d := Option.some.inj (hc.symm.trans hd)
      exact hw.trans hdw
  · intro v q d hv hq hd
    rcases hcell q d hd with ⟨rfl, rfl⟩ | ⟨hne, hd⟩
    · exact hself v hv hq
    · rw [hother v q hne hq]
      exact h.fits v q d hv (hreg v q hq) hd
  · intro q d hd hd0
    rcases hcell q d hd with ⟨-, rfl⟩ | ⟨-, hd⟩
    · exact hidle (hw.symm.trans hd0)
    · exact h.idle q d hd hd0
  · intro q d hd
    rcases hcell q d hd with ⟨rfl, rfl⟩ | ⟨hne, hd⟩
    · rw [hown]
      exact hstage
    · rw [hcalls q hne]
      exact h.stage q d hd
  · intro q hq
    have hne : q ≠ p := by
      rintro rfl
      rw [hheap, Heap.next_modify] at hq
      exact absurd (Heap.lt_next_of_cell hc) (Nat.not_lt_of_le hq)
    rw [hcalls q hne]
    rw [hheap, Heap.next_modify] at hq
    exact h.unborn q hq
  · intro q
    by_cases hq : q = p
    · subst hq
      rw [hown]
      exact hstage.isPrefix
    · rw [hcalls q hq]
      exact h.cycle q

/-- One client changes, but not its state, and nobody gets an upcall. -/
theorem CycleInv.quiet (h : CycleInv up s) (obs : List Obs) (hc : s.heap.cell p = some c)
    (hheap : s'.heap = s.heap.modify p f) (hcls : (f c).cls = c.cls) (hw : (f c).wsi = c.wsi)
    (hstate : (f c).m_state = c.m_state) (hreg : s'.WSClientSet = s.WSClientSet)
    (htrace : s'.trace = s.trace ++ obs) (hobs : ∀ o ∈ obs, o.upcallOf = none) :
    CycleInv up s' := by
  have hnone : ∀ q, upcalls q obs = [] := by
    intro q
    refine upcalls_eq_nil fun o ho => ?_
    rw [hobs o ho]
    exact Option.some_ne_none q ∘ Eq.symm
  refine h.touch obs hc hheap hcls hw (fun v q hq => by rwa [hreg] at hq) htrace
    (fun q _ => hnone q) ?_ (fun _ _ _ _ => rfl) ?_ ?_
  · intro v hv hp
    rw [hreg] at hp
    rw [hstate]
    exact h.fits v p c hv hp hc
  · intro h0
    rw [hstate]
    exact h.idle p c hc h0
  · rw [hnone, List.append_nil, hstate]
    exact h.stage p c hc

/-- What is said of connections without a client does not matter. -/
theorem CycleInv.up_congr (h : CycleInv up s)
    (hup : ∀ v q, s.WSClientSet v = some q → up' v = up v) : CycleInv up' s := by
  refine ⟨h.base, ?_, h.idle, h.stage, h.unborn, h.cycle⟩
  intro v q c hv hq hc
  rw [hup v q hq]
  exact h.fits v q c hv hq hc

end Touch

/-! ### Callbacks -/

/-- Whether a connection is up after a callback. -/
def Reason.raises (reason : Reason) (up : Bool) : Bool :=
  if reason.establishes then true else if reason.closes then false else up

section Callbacks

variable {up : Wsi → Bool} {s s' : Server} {c : Client} {wsi : Wsi} {reason : Reason} {r : ℤ}

/-- A client is registered under its own connection only. -/
theorem Plugin.Base.eq_wsi (hb : Base s) (hc : s.heap.cell p = some c) {v : Wsi} (hv : v ≠ 0)
    (hreg : s.WSClientSet v = some p) : c.wsi = v := by
  obtain ⟨d, hd, hdw⟩ := hb.registered v p hv hreg
  obtain rfl : c = d := Option.some.inj (hc.symm.trans hd)
  exact hdw

theorem CycleInv.opened (h : CycleInv up s) (hw : wsi ≠ 0) (hreg : s.WSClientSet wsi = some p)
    (hc : s.heap.cell p = some c) (hup : up wsi = false) :
    CycleInv (Function.update up wsi true) (s.opened wsi p c) ∧ Upward s (s.opened wsi p c) := by
  have hcw : c.wsi = wsi := h.base.eq_wsi hc hw hreg
  have hstate : c.m_state = .CONNECTING := by
    have hfits := h.fits wsi p c hw hreg hc
    rwa [hup] at hfits
  have hcalls : upcalls p s.trace = [] := by
    have hstage := h.stage p c hc
    rwa [hstate] at hstage
  constructor
  · refine h.touch [.OnOpen p] hc rfl rfl rfl (fun v q hq => hq) rfl ?_ ?_ ?_ ?_ ?_
    · intro q hq
      simp [upcalls, Obs.upcallOf, Ne.symm hq]
    · intro v hv hp
      rw [← h.base.eq_wsi hc hv hp, hcw, Function.update_self]
      exact .inl rfl
    · intro v q hq hv
      have hne : v ≠ wsi := by
        rintro rfl
        exact hq (Option.some.inj (hv.symm.trans hreg))
      rw [Function.update_of_ne hne]
    · intro h0
      exact absurd (hcw.symm.trans h0) hw
    · rw [hcalls]
      exact ⟨[], by simp [upcalls, Obs.upcallOf, openingCalls]⟩
  · refine .modify hc rfl rfl ?_
    rw [hstate]
    exact Nat.zero_le _

theorem CycleInv.closed (h : CycleInv up s) (hw : wsi ≠ 0) (hreg : s.WSClientSet wsi = some p)
    (hc : s.heap.cell p = some c) {code : Bytes} {obs : List Obs}
    (hobs : obs = [.OnClose p code] ∨ obs = [.OnError p code, .OnClose p code]) :
    CycleInv (Function.update up wsi false) (s.closedBy wsi p c obs) ∧
      Upward s (s.closedBy wsi p c obs) := by
  have hcw : c.wsi = wsi := h.base.eq_wsi hc hw hreg
  have hheap := h.base.closedBy_heap hc wsi obs
  have hleft : ∀ v q, (s.closedBy wsi p c obs).WSClientSet v = some q →
      v ≠ wsi ∧ s.WSClientSet v = some q := by
    intro v q hq
    by_cases hv : v = wsi
    · rw [hv] at hq
      simp [Server.closedBy] at hq
    · exact ⟨hv, by simpa [Server.closedBy, Function.update_of_ne hv] using hq⟩
  constructor
  · refine h.touch obs hc hheap rfl rfl (fun v q hq => (hleft v q hq).2) rfl ?_ ?_ ?_ ?_ ?_
    · intro q hq
      refine upcalls_eq_nil fun o ho => ?_
      have hself : o.upcallOf = some p := by
        rcases hobs with rfl | rfl
        · obtain rfl := List.mem_singleton.mp ho
          rfl
        · rcases List.mem_cons.mp ho with rfl | ho
          · rfl
          · obtain rfl := List.mem_singleton.mp ho
            rfl
      rw [hself]
      exact fun h' => hq (Option.some.inj h').symm
    · intro v hv hp
      obtain ⟨hne, hp⟩ := hleft v p hp
      exact absurd ((h.base.eq_wsi hc hv hp).symm.trans hcw) hne
    · intro v q _ hq
      rw [Function.update_of_ne (hleft v q hq).1]
    · intro h0
      exact absurd (hcw.symm.trans h0) hw
    · have hopen := (h.fits wsi p c hw hreg hc).ne_closed
      obtain ⟨messages, hcalls⟩ := (h.stage p c hc).opening hopen
      rw [hcalls]
      rcases hobs with rfl | rfl
      · exact ⟨messages, none, code, by simp [upcalls, Obs.upcallOf, lifeCycle, errorCalls]⟩
      · exact ⟨messages, some code, code, by simp [upcalls, Obs.upcallOf, lifeCycle, errorCalls]⟩
  · exact .modify hc hheap rfl (Status.rank_le_closed _)

theorem CycleInv.received (h : CycleInv up s) (hw : wsi ≠ 0) (hreg : s.WSClientSet wsi = some p)
    (hc : s.heap.cell p = some c) (hup : up wsi = true) (message : Bytes) :
    CycleInv up (s.observed [.OnMessage p message]) := by
  refine h.touch (f := id) [.OnMessage p message] hc Heap.modify_id.symm rfl rfl
    (fun v q hq => hq) rfl ?_ (fun v hv hp => h.fits v p c hv hp hc) (fun _ _ _ _ => rfl)
    (h.idle p c hc) ?_
  · intro q hq
    simp [upcalls, Obs.upcallOf, Ne.symm hq]
  · have hmore : ∀ messages, openingCalls p (some messages) ++ upcalls p [.OnMessage p message] =
        openingCalls p (some (messages ++ [message])) := by
      intro messages
      simp [upcalls, Obs.upcallOf, openingCalls]
    have hstage := h.stage p c hc
    have hfits := h.fits wsi p c hw hreg hc
    rw [hup] at hfits
    rcases hfits with hs | hs
    · rw [hs] at hstage
      obtain ⟨messages, hcalls⟩ := hstage
      rw [id, hs, hcalls, hmore]
      exact ⟨_, rfl⟩
    · rw [hs] at hstage
      obtain ⟨messages, hcalls⟩ := hstage
      rw [id, hs, hcalls, hmore]
      exact ⟨_, rfl⟩

/-- Everything a `WRITEABLE` callback shows is no upcall. -/
theorem upcallOf_of_write {obs : List Obs} (hobs : ∀ o ∈ obs, o.dataOf = some p) :
    ∀ o ∈ Obs.OnSend p :: obs, o.upcallOf = none := by
  intro o ho
  rcases List.mem_cons.mp ho with rfl | ho
  · rfl
  · exact Obs.upcallOf_of_dataOf (hobs o ho)

/-- **A callback keeps the invariant and moves states upward.** -/
theorem CycleInv.callback (h : CycleInv up s) (hw : wsi ≠ 0)
    (he : CallbackEffect s wsi reason r s') (hest : reason.establishes = true → up wsi = false)
    (hrec : reason.receives = true → up wsi = true) :
    CycleInv (Function.update up wsi (reason.raises (up wsi))) s' ∧ Upward s s' := by
  have hsame : ¬ reason.establishes = true → ¬ reason.closes = true →
      Function.update up wsi (reason.raises (up wsi)) = up := by
    intro he hc
    rw [Reason.raises, if_neg he, if_neg hc]
    exact Function.update_eq_self wsi up
  cases he with
  | unregistered hreg =>
      refine ⟨h.up_congr fun v q hq => ?_, .refl s⟩
      have hne : v ≠ wsi := by
        rintro rfl
        rw [hreg] at hq
        cases hq
      rw [Function.update_of_ne hne]
  | opened hest' hreg hc =>
      rw [Reason.raises, if_pos hest']
      exact h.opened hw hreg hc (hest hest')
  | closed hcl hreg hc hobs =>
      have hnot : ¬ reason.establishes = true := by
        intro hest'
        exact Reason.not_closes_of_establishes hest' hcl
      rw [Reason.raises, if_neg hnot, if_pos hcl]
      exact h.closed hw hreg hc hobs
  | erased hcl hreg hc hs => exact absurd hs (h.fits wsi _ _ hw hreg hc).ne_closed
  | received hr hreg hc =>
      rw [hsame (Reason.not_establishes_of_receives hr) (Reason.not_closes_of_receives hr)]
      exact ⟨h.received hw hreg hc (hrec hr) _, .modify hc Heap.modify_id.symm rfl (Nat.le_refl _)⟩
  | closing hr hreg hc hs =>
      rw [hsame (Reason.not_establishes_of_result hr) (Reason.not_closes_of_result hr)]
      exact ⟨h, .refl s⟩
  | refused hr hreg hc hobs hq =>
      rw [hsame (Reason.not_establishes_of_result hr) (Reason.not_closes_of_result hr)]
      have hquiet := upcallOf_of_write hobs
      exact ⟨h.quiet (f := id) _ hc Heap.modify_id.symm rfl rfl rfl rfl rfl hquiet,
        .modify hc Heap.modify_id.symm rfl (Nat.le_refl _)⟩
  | wrote hr hreg hc hs hobs hq =>
      rw [hsame (Reason.not_establishes_of_result hr) (Reason.not_closes_of_result hr)]
      exact ⟨h.quiet _ hc rfl rfl rfl rfl rfl rfl (upcallOf_of_write hobs),
        .modify hc rfl rfl (Nat.le_refl _)⟩
  | ignored hest' hcl hr =>
      rw [hsame (by simp [hest']) (by simp [hcl])]
      exact ⟨h, .refl s⟩

/-- The callbacks of an attempt to connect find the connection down and leave it down; and
they keep what each of them keeps. -/
theorem CycleInv.called {I : Server → Prop} (h : CycleInv up s) (hw : wsi ≠ 0)
    (hup : up wsi = false) {reasons : List Reason}
    (hreasons : ∀ reason ∈ reasons, reason.duringConnect = true)
    (hI : ∀ reason ∈ reasons, ∀ t t' r, Base t → I t → CallbackEffect t wsi reason r t' → I t')
    (hs : I s) (hcalled : called wsi reasons s = .ok () s') :
    CycleInv up s' ∧ Upward s s' ∧ I s' := by
  refine called_invariant (I := fun t => CycleInv up t ∧ Upward s t ∧ I t) ?_ ⟨h, .refl s, hs⟩
    hcalled
  rintro reason hr t t' r ⟨ht, hst, hIt⟩ hcall
  have hduring := hreasons reason hr
  have hest := Reason.not_establishes_of_duringConnect hduring
  have hrec := Reason.not_receives_of_duringConnect hduring
  have heffect := Plugin.callback_lws_effect ht.base hw
    (Reason.ne_create_of_duringConnect hduring) hcall
  obtain ⟨ht', htt'⟩ := ht.callback hw heffect (fun h' => absurd h' hest) fun h' => absurd h' hrec
  have hdown : Function.update up wsi (reason.raises (up wsi)) = up := by
    have hraises : reason.raises (up wsi) = up wsi := by
      rw [Reason.raises, if_neg hest, hup, ite_self]
    rw [hraises]
    exact Function.update_eq_self wsi up
  rw [hdown] at ht'
  exact ⟨ht', hst.trans htt', hI reason hr t t' r ht.base hIt heffect⟩

end Callbacks

/-! ### Calls of the control -/

section Calls

variable {up : Wsi → Bool} {s : Server} {c : Client}

theorem CycleInv.sent (h : CycleInv up s) (hc : s.heap.cell p = some c) (data : Bytes) :
    CycleInv up (s.sent p c data) :=
  h.quiet [.Send p data] hc rfl rfl rfl rfl rfl rfl (by simp [Obs.upcallOf])

theorem CycleInv.closing (h : CycleInv up s) (hc : s.heap.cell p = some c) :
    CycleInv up (s.closing p c) ∧ Upward s (s.closing p c) := by
  by_cases hcan : s.canWrite c = true
  · have hstate := Server.open_of_canWrite hcan
    have hheap := Server.closing_heap hcan p
    constructor
    · refine h.touch [] hc hheap rfl rfl (fun v q hq => hq) (List.append_nil _).symm
        (fun _ _ => rfl) ?_ (fun _ _ _ _ => rfl) ?_ ?_
      · intro v hv hp
        have hfits := h.fits v p c hv hp hc
        cases hup : up v with
        | true => exact .inr rfl
        | false =>
            rw [hup, hstate] at hfits
            cases hfits
      · intro h0
        have hidle := h.idle p c hc h0
        rw [hstate] at hidle
        cases hidle
      · have hstage := h.stage p c hc
        rw [hstate] at hstage
        show Stage p (upcalls p s.trace ++ []) .CLOSING
        rw [List.append_nil]
        exact hstage
    · refine .modify hc hheap rfl ?_
      rw [hstate]
      exact (by decide : Status.OPEN.rank ≤ Status.CLOSING.rank)
  · rw [Server.closing_eq_self hcan]
    exact ⟨h, .refl s⟩

/-- The client is gone; its upcalls so far remain. -/
theorem CycleInv.deleted (h : CycleInv up s) (hc : s.heap.cell p = some c) :
    CycleInv up (s.deleted p c) := by
  have hcell : ∀ q d, (s.deleted p c).heap.cell q = some d → s.heap.cell q = some d := by
    intro q d hd
    rw [Server.deleted, Heap.cell_free] at hd
    split_ifs at hd
    exact hd
  have hleft : ∀ v q, (s.deleted p c).WSClientSet v = some q →
      v ≠ c.wsi ∧ s.WSClientSet v = some q := by
    intro v q hq
    simp only [Server.deleted, Function.update_apply] at hq
    split_ifs at hq with hv
    exact ⟨hv, hq⟩
  refine ⟨⟨fun q d hd => h.base.cls q d (hcell q d hd), ?_⟩, ?_, ?_, ?_, h.unborn, h.cycle⟩
  · intro v q hv hq
    obtain ⟨hne, hold⟩ := hleft v q hq
    obtain ⟨d, hd, hdw⟩ := h.base.registered v q hv hold
    have hqp : q ≠ p := by
      rintro rfl
      exact hne (h.base.eq_wsi hc hv hold).symm
    refine ⟨d, ?_, hdw⟩
    rw [Server.deleted, Heap.cell_free, if_neg hqp, hd]
  · intro v q d hv hq hd
    exact h.fits v q d hv (hleft v q hq).2 (hcell q d hd)
  · intro q d hd
    exact h.idle q d (hcell q d hd)
  · intro q d hd
    exact h.stage q d (hcell q d hd)

theorem CycleInv.constructed (h : CycleInv up s) :
    CycleInv up { s with heap := s.heap.alloc { cls := .ATLWSclient, wsi := 0 } } := by
  refine ⟨⟨?_, ?_⟩, ?_, ?_, ?_, ?_, h.cycle⟩
  · intro q d hd
    rcases Heap.cases_of_alloc hd with ⟨-, rfl⟩ | hd
    · rfl
    · exact h.base.cls q d hd
  · intro v q hv hq
    obtain ⟨d, hd, hdw⟩ := h.base.registered v q hv hq
    exact ⟨d, Heap.cell_alloc_of_cell hd, hdw⟩
  · intro v q d hv hq hd
    obtain ⟨d', hd', -⟩ := h.base.registered v q hv hq
    obtain rfl : d' = d := Option.some.inj ((Heap.cell_alloc_of_cell hd').symm.trans hd)
    exact h.fits v q d' hv hq hd'
  · intro q d hd h0
    rcases Heap.cases_of_alloc hd with ⟨-, rfl⟩ | hd
    · rfl
    · exact h.idle q d hd h0
  · intro q d hd
    rcases Heap.cases_of_alloc hd with ⟨rfl, rfl⟩ | hd
    · exact h.unborn _ (Nat.le_refl _)
    · exact h.stage q d hd
  · intro q hq
    exact h.unborn q (Nat.le_of_succ_le hq)

/-- A client without a connection is entered for one that is down. -/
theorem CycleInv.connected (h : CycleInv up s) (hc : s.heap.cell p = some c) (hw : c.wsi = 0)
    {wsi : Wsi} (hup : wsi ≠ 0 → up wsi = false) : CycleInv up (s.connected p wsi) := by
  have hstate : c.m_state = .CONNECTING := h.idle p c hc hw
  have hcell : ∀ q d, (s.connected p wsi).heap.cell q = some d →
      (q = p ∧ d.cls = c.cls ∧ d.wsi = wsi ∧ d.m_state = .CONNECTING) ∨
        (q ≠ p ∧ s.heap.cell q = some d) := by
    intro q d hd
    rcases Heap.cases_of_modify hc hd with ⟨hq, rfl⟩ | hother
    · exact .inl ⟨hq, rfl, rfl, rfl⟩
    · exact .inr hother
  -- the client itself was not registered before, except possibly under NULL
  have hentry : ∀ v q, v ≠ 0 → (s.connected p wsi).WSClientSet v = some q →
      (q = p ∧ v = wsi) ∨ (q ≠ p ∧ s.WSClientSet v = some q) := by
    intro v q hv hq
    have hne : s.WSClientSet v = some q → q ≠ p := by
      rintro hold rfl
      exact hv ((h.base.eq_wsi hc hv hold).symm.trans hw)
    by_cases hvw : v = wsi
    · subst hvw
      simp only [Server.connected, Function.update_self] at hq
      cases hold : s.WSClientSet v with
      | none =>
          rw [hold] at hq
          exact .inl ⟨(Option.some.inj hq).symm, rfl⟩
      | some q' =>
          rw [hold] at hq
          obtain rfl : q' = q := Option.some.inj hq
          exact .inr ⟨hne hold, rfl⟩
    · simp only [Server.connected, Function.update_of_ne hvw] at hq
      exact .inr ⟨hne hq, hq⟩
  have hother : ∀ q d, q ≠ p → s.heap.cell q = some d →
      (s.connected p wsi).heap.cell q = some d := by
    intro q d hq hd
    rw [Server.connected, Heap.cell_modify, if_neg hq, hd]
  refine ⟨⟨?_, ?_⟩, ?_, ?_, ?_, h.unborn, h.cycle⟩
  · intro q d hd
    rcases hcell q d hd with ⟨-, hcls, -⟩ | ⟨-, hd⟩
    · rw [hcls]
      exact h.base.cls p c hc
    · exact h.base.cls q d hd
  · intro v q hv hq
    rcases hentry v q hv hq with ⟨rfl, rfl⟩ | ⟨hne, hq⟩
    · exact ⟨_, by rw [Server.connected, Heap.cell_modify, if_pos rfl, hc]; rfl, rfl⟩
    · obtain ⟨d, hd, hdw⟩ := h.base.registered v q hv hq
      exact ⟨d, hother q d hne hd, hdw⟩
  · intro v q d hv hq hd
    rcases hentry v q hv hq with ⟨rfl, rfl⟩ | ⟨hne, hq⟩
    · rcases hcell _ d hd with ⟨-, -, -, hs⟩ | ⟨hne, -⟩
      · rw [hup hv, hs]
        exact rfl
      · exact absurd rfl hne
    · rcases hcell q d hd with ⟨hqp, -⟩ | ⟨-, hd⟩
      · exact absurd hqp hne
      · exact h.fits v q d hv hq hd
  · intro q d hd h0
    rcases hcell q d hd with ⟨-, -, -, hs⟩ | ⟨-, hd⟩
    · exact hs
    · exact h.idle q d hd h0
  · intro q d hd
    rcases hcell q d hd with ⟨rfl, -, -, hs⟩ | ⟨-, hd⟩
    · have hstage := h.stage q c hc
      rw [hstate] at hstage
      rw [hs]
      exact hstage
    · exact h.stage q d hd

end Calls

/-! ### Runs -/

/-- What holds in every state of a run. -/
structure CycleWorld (w : World) : Prop where
  inv : CycleInv (fun wsi => (w.life wsi).up) w.server
  dead : ∀ wsi, (w.life wsi).alive = false → (w.life wsi).up = false

/-- lws requests do not matter. -/
theorem CycleInv.writable {up : Wsi → Bool} {s : Server} (h : CycleInv up s)
    (writable : Wsi → Bool) : CycleInv up { s with writable := writable } :=
  ⟨⟨h.base.cls, h.base.registered⟩, h.fits, h.idle, h.stage, h.unborn, h.cycle⟩

/-- A callback moves the life of its connection as it says. -/
theorem Life.up_next {l : Life} {reason : Reason} (h : l.admitsClient reason) (p : ℕ) :
    (l.next p reason).up = reason.raises l.up := by
  cases reason with
  | WSI_DESTROY =>
      show false = l.up
      rw [Life.up, h.2]
      cases l.established <;> rfl
  | CLIENT_ESTABLISHED => rfl
  | CLOSED | CLOSED_CLIENT_HTTP | CLIENT_CONNECTION_ERROR =>
      show (l.established && false) = false
      exact Bool.and_false _
  | CLIENT_RECEIVE | CLIENT_WRITEABLE | other => rfl
  | WSI_CREATE | ESTABLISHED | CLOSED_HTTP | RECEIVE | SERVER_WRITEABLE => exact h.elim

/-- A connection that is up is alive after the callback as it was before. -/
theorem Life.dead_next {l : Life} {reason : Reason} (h : l.admitsClient reason) (p : ℕ)
    (hdead : (l.next p reason).alive = false) : (l.next p reason).up = false := by
  cases reason with
  | WSI_DESTROY => rfl
  | CLIENT_ESTABLISHED | CLIENT_RECEIVE =>
      have halive : l.alive = false := hdead
      rw [h.1] at halive
      cases halive
  | CLOSED | CLOSED_CLIENT_HTTP | CLIENT_CONNECTION_ERROR | CLIENT_WRITEABLE | other =>
      have halive : l.alive = false := hdead
      rw [show l.alive = true from h] at halive
      cases halive
  | WSI_CREATE | ESTABLISHED | CLOSED_HTTP | RECEIVE | SERVER_WRITEABLE => exact h.elim

/-- A connection that was just made is not up. -/
theorem Connect.up_life (conn : Connect) (p : ℕ) : (conn.life p).up = false := by
  rw [Connect.life]
  split_ifs <;> rfl

/-- The clients that exist before and after do not move downward. -/
def NotDownward (s s' : Server) : Prop :=
  ∀ p c c', s.heap.cell p = some c → s'.heap.cell p = some c' →
    c.m_state.rank ≤ c'.m_state.rank

theorem Upward.notDownward {s s' : Server} (h : Upward s s') : NotDownward s s' := by
  intro p c c' hc hc'
  obtain ⟨d, hd, -, hle⟩ := h p c hc
  obtain rfl : c' = d := Option.some.inj (hc'.symm.trans hd)
  exact hle

theorem Life.up_of_establishes {l : Life} {reason : Reason} (h : l.admitsClient reason)
    (he : reason.establishes = true) : l.up = false := by
  cases reason with
  | CLIENT_ESTABLISHED => rw [Life.up, h.2.1, Bool.false_and]
  | ESTABLISHED => exact h.elim
  | CLIENT_CONNECTION_ERROR | CLOSED | CLOSED_CLIENT_HTTP | CLOSED_HTTP | RECEIVE | CLIENT_RECEIVE
  | SERVER_WRITEABLE | CLIENT_WRITEABLE | WSI_CREATE | WSI_DESTROY | other => cases he

theorem Life.up_of_receives {l : Life} {reason : Reason} (h : l.admitsClient reason)
    (hr : reason.receives = true) : l.up = true := by
  cases reason with
  | CLIENT_RECEIVE => rw [Life.up, h.2.1, h.2.2]; rfl
  | RECEIVE => exact h.elim
  | CLIENT_CONNECTION_ERROR | CLOSED | CLOSED_CLIENT_HTTP | CLOSED_HTTP | ESTABLISHED
  | CLIENT_ESTABLISHED | SERVER_WRITEABLE | CLIENT_WRITEABLE | WSI_CREATE | WSI_DESTROY
  | other => cases hr

/-- Whether the connections are up after the life of one of them has changed. -/
theorem up_update (life : Wsi → Life) (wsi : Wsi) (l : Life) :
    (fun v => (Function.update life wsi l v).up) =
      Function.update (fun v => (life v).up) wsi l.up := by
  funext v
  by_cases hv : v = wsi
  · subst hv
    rw [Function.update_self, Function.update_self]
  · rw [Function.update_of_ne hv, Function.update_of_ne hv]

theorem CycleWorld.lws {w : World} {wsi : Wsi} {reason : Reason} {r : ℤ} {s' : Server}
    (h : CycleWorld w) (hw : wsi ≠ 0) (hadm : (w.life wsi).admitsClient reason)
    (he : CallbackEffect (w.before (.lws wsi reason)).server wsi reason r s') :
    CycleWorld ((w.before (.lws wsi reason)).after s' r (.lws wsi reason)) ∧
      NotDownward w.server s' := by
  obtain ⟨writable, hbefore⟩ := w.before_server (.lws wsi reason)
  have hlife : (w.before (.lws wsi reason)).life = w.life := by
    cases reason <;> rfl
  rw [hbefore] at he
  obtain ⟨hinv, hup⟩ := (h.inv.writable writable).callback hw he (Life.up_of_establishes hadm)
    (Life.up_of_receives hadm)
  refine ⟨⟨?_, ?_⟩, hup.notDownward⟩
  · show CycleInv (fun v => (Function.update (w.before (.lws wsi reason)).life wsi _ v).up) s'
    rw [hlife, up_update, Life.up_next hadm]
    exact hinv
  · intro v
    show (Function.update (w.before (.lws wsi reason)).life wsi _ v).alive = false →
      (Function.update (w.before (.lws wsi reason)).life wsi _ v).up = false
    rw [hlife]
    by_cases hv : v = wsi
    · subst hv
      rw [Function.update_self]
      exact Life.dead_next hadm _
    · rw [Function.update_of_ne hv]
      exact h.dead v

theorem CycleWorld.attempted {w : World} {conn : Connect} {c d : Client} {t : Server}
    (h : CycleWorld w) (hwsi : conn.wsi ≠ 0) (halive : (w.life conn.wsi).alive = false)
    (hatt : conn.attempts) (hc : w.server.heap.cell p = some c) (hw : c.wsi = 0)
    (ht : called conn.wsi conn.callbacks (w.fresh conn.wsi).server = .ok () t)
    (hd : t.heap.cell p = some d) :
    CycleWorld
        { server := t.connected p (if conn.returned then conn.wsi else 0)
          life := Function.update w.life conn.wsi (conn.life p)
          failing := Function.update w.failing conn.wsi false } ∧
      NotDownward w.server (t.connected p (if conn.returned then conn.wsi else 0)) := by
  have hdown : (w.life conn.wsi).up = false := h.dead conn.wsi halive
  obtain ⟨hinv, hup, -⟩ := (h.inv.writable _).called (I := fun _ => True) hwsi hdown
    (fun r hr => (hatt r hr).1) (fun _ _ _ _ _ _ _ _ => trivial) trivial ht
  obtain ⟨d', hd', hdw, -⟩ := hup p c hc
  obtain rfl : d = d' := Option.some.inj (hd.symm.trans hd')
  have hd0 : d.wsi = 0 := hdw.trans hw
  have hsame : (fun v => (Function.update w.life conn.wsi (conn.life p) v).up) =
      fun v => (w.life v).up := by
    rw [up_update, Connect.up_life, ← hdown]
    exact Function.update_eq_self conn.wsi fun v => (w.life v).up
  refine ⟨⟨?_, ?_⟩, ?_⟩
  · show CycleInv (fun v => (Function.update w.life conn.wsi (conn.life p) v).up) _
    rw [hsame]
    refine hinv.connected hd hd0 fun hne => ?_
    split_ifs at hne ⊢ with hret
    · exact hdown
    · exact absurd rfl hne
  · intro v
    show (Function.update w.life conn.wsi (conn.life p) v).alive = false →
      (Function.update w.life conn.wsi (conn.life p) v).up = false
    by_cases hv : v = conn.wsi
    · subst hv
      rw [Function.update_self]
      exact fun _ => conn.up_life p
    · rw [Function.update_of_ne hv]
      exact h.dead v
  · intro q e e' he he'
    rw [Server.connected, Heap.cell_modify] at he'
    by_cases hq : q = p
    · subst hq
      obtain rfl : c = e := Option.some.inj (hc.symm.trans he)
      rw [h.inv.idle q c hc hw]
      exact Nat.zero_le _
    · rw [if_neg hq] at he'
      exact hup.notDownward q e e' he he'

/-- **One step keeps the invariant and moves no client downward.** -/
theorem CycleWorld.step {w : PluginWorld} {w' : World} {a : PluginAction}
    (h : CycleWorld w.toWorld) (hal : contract w a) (he : StepEffect w.toWorld a w') :
    CycleWorld w' ∧ NotDownward w.server w'.server := by
  have hframe : ∀ {s' : Server}, CycleInv (fun wsi => (w.life wsi).up) s' →
      CycleWorld { w.toWorld with server := s' } := fun hinv => ⟨hinv, h.dead⟩
  cases he with
  | lws he => exact h.lws hal.1 hal.2 he
  | constructed =>
      refine ⟨hframe h.inv.constructed, ?_⟩
      intro p c c' hc hc'
      obtain rfl : c = c' := Option.some.inj ((Heap.cell_alloc_of_cell hc).symm.trans hc')
      exact Nat.le_refl _
  | kept hc hw => exact ⟨h, (Upward.refl _).notDownward⟩
  | attempted hc hw ht hd => exact h.attempted hal.2.1 hal.2.2.1 hal.2.2.2 hc hw ht hd
  | sent hc =>
      exact ⟨hframe (h.inv.sent hc _), (Upward.modify hc rfl rfl (Nat.le_refl _)).notDownward⟩
  | closing hc =>
      obtain ⟨hinv, hup⟩ := h.inv.closing hc
      exact ⟨hframe hinv, hup.notDownward⟩
  | @deleted p c hc =>
      refine ⟨hframe (h.inv.deleted hc), ?_⟩
      intro q d d' hd hd'
      rw [Server.deleted, Heap.cell_free] at hd'
      split_ifs at hd'
      obtain rfl : d = d' := Option.some.inj (hd.symm.trans hd')
      exact Nat.le_refl _

theorem cycleWorld_reachable {w : PluginWorld} (h : system.Reachable w) : CycleWorld w.toWorld := by
  refine h.invariant (I := fun w => CycleWorld w.toWorld) ?_ fun w a w' _ hinv hal hst =>
    (hinv.step hal (step_effect hinv.inv.base hal hst)).1
  have hempty : CycleInv (fun _ => false) {} := by
    refine ⟨⟨fun p c h => ?_, fun v p _ h => ?_⟩, fun v p c _ h => ?_, fun p c h => ?_,
      fun p c h => ?_, fun _ _ => rfl, fun p => ⟨none, none, [], List.nil_prefix⟩⟩
    all_goals cases h
  exact ⟨hempty, fun _ _ => rfl⟩

/-- **Upcalls follow the life cycle of a WebSocket.** In every run of any number of clients,
the upcalls of each client begin as `(OnOpen, OnMessage*)?, OnError?, OnClose`; nothing
follows an `OnClose`, and a client that got it is closed; and no step moves the state of a
client downward. -/
theorem upcalls_follow_lifeCycle {as : List PluginAction} {w : PluginWorld}
    (h : system.Run as w) (p : ℕ) :
    (∃ messages error code, upcalls p w.server.trace <+: lifeCycle p messages error code) ∧
    (∀ before code rest, upcalls p w.server.trace = before ++ .OnClose p code :: rest →
      rest = []) ∧
    (∀ code c, .OnClose p code ∈ w.server.trace → w.server.heap.cell p = some c →
      c.m_state = .CLOSED) ∧
    ∀ a w' c c', system.allowed w a → system.step w a = .ok w' →
      w.server.heap.cell p = some c → w'.server.heap.cell p = some c' →
      c.m_state.rank ≤ c'.m_state.rank := by
  have hinv := cycleWorld_reachable ⟨as, h⟩
  refine ⟨hinv.inv.cycle p, ?_, ?_, ?_⟩
  · intro before code rest hcalls
    obtain ⟨messages, error, code', hprefix⟩ := hinv.inv.cycle p
    rw [hcalls] at hprefix
    exact lifeCycle_onClose hprefix
  · intro code c hmem hc
    have hcall : .OnClose p code ∈ upcalls p w.server.trace := by
      rw [upcalls, List.mem_filter]
      exact ⟨hmem, by simp [Obs.upcallOf]⟩
    by_contra hopen
    obtain ⟨messages, hcalls⟩ := (hinv.inv.stage p c hc).opening hopen
    rw [hcalls] at hcall
    exact onClose_not_mem messages none code (List.mem_append_left _ hcall)
  · intro a w' c c' hal hst hc hc'
    exact (hinv.step hal (step_effect hinv.inv.base hal hst)).2 p c c' hc hc'

/-- A connection is made, established, gets a message, and is closed by the peer. -/
theorem upcalls_follow_lifeCycle_closed :
    ∃ w, system.Run [.construct, .setwsurl 0 (bytes "ws://a/") { wsi := 1 },
        .lws 1 .CLIENT_ESTABLISHED, .lws 1 (.CLIENT_RECEIVE (some [1])), .lws 1 (.CLOSED none),
        .lws 1 (.CLOSED none), .lws 1 .WSI_DESTROY] w ∧
      upcalls 0 w.server.trace = [.OnOpen 0, .OnMessage 0 [1], .OnClose 0 []] ∧
      ∃ messages error code, upcalls 0 w.server.trace <+: lifeCycle 0 messages error code := by
  obtain ⟨w, hrun, hcalls⟩ := StepSystem.run_of_check_map (S := system)
    (f := fun w => upcalls 0 w.server.trace) (b := [.OnOpen 0, .OnMessage 0 [1], .OnClose 0 []])
    [.construct, .setwsurl 0 (bytes "ws://a/") { wsi := 1 },
      .lws 1 .CLIENT_ESTABLISHED, .lws 1 (.CLIENT_RECEIVE (some [1])), .lws 1 (.CLOSED none),
      .lws 1 (.CLOSED none), .lws 1 .WSI_DESTROY] (by decide +kernel)
  exact ⟨w, hrun, hcalls, (upcalls_follow_lifeCycle hrun 0).1⟩

end UCClient
