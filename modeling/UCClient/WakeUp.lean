import UCClient.Effects

/-!
# No Stalled Queue

A client with something to do — a queue to write, or a connection to close — waits for a
`WRITEABLE` callback. lws makes one for each request of `lws_callback_on_writable`, and
uses the request up. The requests are made in `ESTABLISHED`, in `Send`, after a write that
left data, and in `Close`; if one were missing the client would wait for ever.

The runs of this module have any number of clients: accepted by a server of either class,
or constructed and connected by the plugin, reconnected and deleted. Of the environment
three things are assumed (`ownEntries`): callbacks are made for connections that are
alive, and an established connection is closed before it is destroyed; a connection is
only created at an address that is not in use; a client is deleted only while no other
client is registered under its connection. The last one is the condition that entries
are erased by their owners.

## Main results

* `no_stalled_queue`: in every reachable state every open client with a queue and every
  closing client is registered, and has a request pending or a connection that lws is
  closing because a `WRITEABLE` callback returned -1.
-/

namespace UCClient

open ServerM WebSocketClient

/-- The client has been established and not closed. -/
def Client.IsUp (c : Client) : Prop := c.m_state = .OPEN ∨ c.m_state = .CLOSING

/-- The client has something to do in the next `WRITEABLE` callback. -/
def Client.Waiting (c : Client) : Prop :=
  c.m_state = .OPEN ∧ c.m_sendBuf ≠ [] ∨ c.m_state = .CLOSING

theorem Client.Waiting.isUp {c : Client} (h : c.Waiting) : c.IsUp :=
  h.imp And.left id

theorem Client.not_isUp_of_connecting {c : Client} (h : c.m_state = .CONNECTING) :
    ¬ c.IsUp := by
  rintro (hup | hup) <;> rw [h] at hup <;> cases hup

/-- The connection is established and not closed. -/
def Life.IsUp (l : Life) : Prop := l.alive = true ∧ l.established = true ∧ l.closed = false

/-- A request is pending for the connection, or lws is closing it. -/
def World.Flagged (w : World) (wsi : Wsi) : Prop :=
  w.server.writable wsi = true ∨ w.failing wsi = true

/-- The callbacks lws makes for a connection. -/
def Life.serves (l : Life) : Reason → Prop
  | .WSI_CREATE _ => l.alive = false
  | .WSI_DESTROY => l.alive = true ∧ (l.established = true → l.closed = true)
  | .ESTABLISHED | .CLIENT_ESTABLISHED | .CLIENT_CONNECTION_ERROR _ | .CLOSED _
  | .CLOSED_CLIENT_HTTP _ | .CLOSED_HTTP _ | .RECEIVE _ | .CLIENT_RECEIVE _
  | .SERVER_WRITEABLE _ | .CLIENT_WRITEABLE _ | .other => l.alive = true

instance (l : Life) : ∀ reason, Decidable (l.serves reason)
  | .WSI_CREATE _ => inferInstanceAs (Decidable (l.alive = false))
  | .WSI_DESTROY => inferInstanceAs (Decidable (_ ∧ (_ → _)))
  | .ESTABLISHED | .CLIENT_ESTABLISHED | .CLIENT_CONNECTION_ERROR _ | .CLOSED _
  | .CLOSED_CLIENT_HTTP _ | .CLOSED_HTTP _ | .RECEIVE _ | .CLIENT_RECEIVE _
  | .SERVER_WRITEABLE _ | .CLIENT_WRITEABLE _ | .other =>
      inferInstanceAs (Decidable (l.alive = true))

/-- The contract of the environment. -/
def ownEntries (w : World) : Action → Prop
  | .lws wsi reason => wsi ≠ 0 ∧ (w.life wsi).serves reason
  | .sdk _ _ | .construct => True
  | .send p _ | .close p | .connect p none => w.server.heap.Live p
  | .connect p (some wsi) => w.server.heap.Live p ∧ (∀ c ∈ w.server.heap.cell p, c.wsi = 0) ∧
      (wsi ≠ 0 → (w.life wsi).alive = false)
  | .delete p => w.server.heap.Live p ∧
      ∀ c ∈ w.server.heap.cell p, ∀ q ∈ w.server.WSClientSet c.wsi, q = p

instance (w : World) : ∀ a, Decidable (ownEntries w a)
  | .lws wsi reason => inferInstanceAs (Decidable (wsi ≠ 0 ∧ (w.life wsi).serves reason))
  | .sdk _ _ | .construct => inferInstanceAs (Decidable True)
  | .send p _ | .close p | .connect p none => inferInstanceAs (Decidable (w.server.heap.Live p))
  | .connect _ (some _) => inferInstanceAs (Decidable (_ ∧ _ ∧ (_ → _)))
  | .delete _ => inferInstanceAs (Decidable (_ ∧ ∀ c ∈ _, ∀ q ∈ _, _))

/-- What holds in every state of a run: a client is registered under its own connection;
an established one is registered, and its connection is up; a waiting one is flagged. In
the middle of a step the connection whose request has just been used up is `due`. -/
structure WakeInv (w : World) (due : Wsi → Prop) : Prop where
  keyed : ∀ wsi p, wsi ≠ 0 → w.server.WSClientSet wsi = some p →
    ∃ c, w.server.heap.cell p = some c ∧ c.wsi = wsi
  connected : ∀ p c, w.server.heap.cell p = some c → c.IsUp →
    c.wsi ≠ 0 ∧ w.server.WSClientSet c.wsi = some p ∧ (w.life c.wsi).IsUp
  awake : ∀ p c, w.server.heap.cell p = some c → c.Waiting → w.Flagged c.wsi ∨ due c.wsi

/-- The connection whose request an action answers. -/
def Action.Answers : Action → Wsi → Prop
  | .lws wsi reason, wsi' => wsi' = wsi ∧ reason.result ≠ none
  | _, _ => False

namespace WakeInv

variable {w w' : World} {due : Wsi → Prop} {a : Action} {p : ℕ} {c : Client} {wsi : Wsi}
  {reason : Reason}

theorem mono {due' : Wsi → Prop} (h : WakeInv w due) (hdue : ∀ wsi, due wsi → due' wsi) :
    WakeInv w due' :=
  ⟨h.keyed, h.connected, fun p c hc hwait => (h.awake p c hc hwait).imp_right (hdue _)⟩

/-! ### Before the callback -/

/-- Clients registered under one connection are one client. -/
theorem eq_of_isUp (h : WakeInv w due) (hreg : w.server.WSClientSet wsi = some p) {q : ℕ}
    {d : Client} (hd : w.server.heap.cell q = some d) (hup : d.IsUp) (hw : d.wsi = wsi) :
    q = p := by
  obtain ⟨-, hreg', -⟩ := h.connected q d hd hup
  rw [hw, hreg] at hreg'
  exact (Option.some.inj hreg').symm

/-- A connection that starts has no established client. -/
theorem fresh (h : WakeInv w fun _ => False) (hnew : wsi ≠ 0 → (w.life wsi).alive = false) :
    WakeInv (w.fresh wsi) due := by
  refine ⟨h.keyed, h.connected, fun p c hc hwait => ?_⟩
  obtain ⟨h0, -, halive, -, -⟩ := h.connected p c hc hwait.isUp
  have hne : c.wsi ≠ wsi := by
    rintro rfl
    rw [hnew h0] at halive
    cases halive
  rcases h.awake p c hc hwait with hflag | hdue
  · left
    simpa only [World.Flagged, World.fresh, Function.update_of_ne hne] using hflag
  · exact hdue.elim

theorem before (h : WakeInv w fun _ => False) (ha : ownEntries w a) :
    WakeInv (w.before a) a.Answers := by
  have hsame : ∀ {due}, WakeInv w due := h.mono fun _ => False.elim
  cases a with
  | lws wsi reason =>
      cases reason with
      | WSI_CREATE hasUser => exact h.fresh fun _ => ha.2
      | SERVER_WRITEABLE res | CLIENT_WRITEABLE res =>
          refine ⟨h.keyed, h.connected, fun p c hc hwait => ?_⟩
          by_cases hw : c.wsi = wsi
          · exact .inr ⟨hw, nofun⟩
          · rcases h.awake p c hc hwait with hflag | hdue
            · left
              simpa only [World.Flagged, World.before, Function.update_of_ne hw] using hflag
            · exact hdue.elim
      | _ => exact hsame
  | connect p connected =>
      cases connected with
      | none => exact hsame
      | some wsi => exact h.fresh ha.2.2
  | sdk | send | close | construct | delete => exact hsame

/-! ### Clients that stay -/

/-- The clients stay, with their connections, none is established that was not, and the
waiting ones are flagged. -/
theorem same (h : WakeInv w due) (hset : w'.server.WSClientSet = w.server.WSClientSet)
    (hlife : ∀ wsi, (w.life wsi).IsUp → (w'.life wsi).IsUp)
    (hstay : ∀ p c, w.server.heap.cell p = some c →
      ∃ c', w'.server.heap.cell p = some c' ∧ c'.wsi = c.wsi)
    (hcell : ∀ p c', w'.server.heap.cell p = some c' → ∃ c, w.server.heap.cell p = some c ∧
      c'.wsi = c.wsi ∧ (c'.IsUp → c.IsUp) ∧ (c'.Waiting → w'.Flagged c.wsi)) :
    WakeInv w' fun _ => False := by
  refine ⟨fun wsi p h0 hp => ?_, fun p c' hc' hup' => ?_, fun p c' hc' hwait => .inl ?_⟩
  · rw [hset] at hp
    obtain ⟨c, hc, hw⟩ := h.keyed wsi p h0 hp
    obtain ⟨c', hc', hw'⟩ := hstay p c hc
    exact ⟨c', hc', hw'.trans hw⟩
  · obtain ⟨c, hc, hw, hup, -⟩ := hcell p c' hc'
    obtain ⟨h0, hreg, hlife'⟩ := h.connected p c hc (hup hup')
    rw [hw, hset]
    exact ⟨h0, hreg, hlife _ hlife'⟩
  · obtain ⟨c, -, hw, -, hflag⟩ := hcell p c' hc'
    rw [hw]
    exact hflag hwait

/-- No client is touched. -/
theorem keep (h : WakeInv w due) (hheap : w'.server.heap = w.server.heap)
    (hset : w'.server.WSClientSet = w.server.WSClientSet)
    (hlife : ∀ wsi, (w.life wsi).IsUp → (w'.life wsi).IsUp)
    (hflag : ∀ wsi, w.Flagged wsi ∨ due wsi → w'.Flagged wsi) : WakeInv w' fun _ => False := by
  refine h.same hset hlife (fun p c hc => ⟨c, by rw [hheap, hc], rfl⟩) fun p c hc => ?_
  rw [hheap] at hc
  exact ⟨c, hc, rfl, id, fun hwait => hflag _ (h.awake p c hc hwait)⟩

/-- One client is touched. -/
theorem modify (h : WakeInv w due) (hc : w.server.heap.cell p = some c) {f : Client → Client}
    (hheap : w'.server.heap = w.server.heap.modify p f)
    (hset : w'.server.WSClientSet = w.server.WSClientSet)
    (hlife : ∀ wsi, (w.life wsi).IsUp → (w'.life wsi).IsUp)
    (hwsi : (f c).wsi = c.wsi) (hup : (f c).IsUp → c.IsUp)
    (hthis : c.IsUp → (f c).Waiting → w'.Flagged c.wsi)
    (hothers : ∀ q d, q ≠ p → w.server.heap.cell q = some d → d.Waiting →
      w'.Flagged d.wsi) : WakeInv w' fun _ => False := by
  refine h.same hset hlife (fun q d hd => ?_) fun q d' hd' => ?_
  · rw [hheap]
    refine Heap.exists_cell_modify hd rfl ?_
    rintro rfl
    obtain rfl : c = d := Option.some.inj (hc.symm.trans hd)
    exact hwsi
  · rw [hheap] at hd'
    rcases Heap.cases_of_modify hc hd' with ⟨rfl, rfl⟩ | ⟨hq, hd'⟩
    · exact ⟨c, hc, hwsi, hup, fun hwait => hthis (hup hwait.isUp) hwait⟩
    · exact ⟨d', hd', rfl, id, hothers q d' hq hd'⟩

/-! ### Clients that come and go -/

/-- The entry of a connection is erased, and its clients are gone or not established. -/
theorem remove (h : WakeInv w due)
    (hset : w'.server.WSClientSet = Function.update w.server.WSClientSet wsi none)
    (hlife : ∀ wsi', wsi' ≠ wsi → w'.life wsi' = w.life wsi')
    (hflag : ∀ wsi', wsi' ≠ wsi → w.Flagged wsi' ∨ due wsi' → w'.Flagged wsi')
    (hstay : ∀ p c, w.server.heap.cell p = some c → c.wsi ≠ wsi →
      w'.server.heap.cell p = some c)
    (hcell : ∀ p c', w'.server.heap.cell p = some c' → ∃ c, w.server.heap.cell p = some c ∧
      c'.wsi = c.wsi ∧ (c.wsi = wsi → ¬ c'.IsUp)) : WakeInv w' fun _ => False := by
  have hup : ∀ p c', w'.server.heap.cell p = some c' → c'.IsUp →
      c'.wsi ≠ wsi ∧ w.server.heap.cell p = some c' := by
    intro p c' hc' hup'
    obtain ⟨c, hc, hw, hdown⟩ := hcell p c' hc'
    have hne : c.wsi ≠ wsi := fun heq => hdown heq hup'
    obtain rfl : c = c' := Option.some.inj ((hstay p c hc hne).symm.trans hc')
    exact ⟨hne, hc⟩
  refine ⟨fun wsi' p h0 hp => ?_, fun p c' hc' hup' => ?_, fun p c' hc' hwait => .inl ?_⟩
  · rw [hset, Function.update_apply] at hp
    split at hp
    · cases hp
    · next hne =>
      obtain ⟨c, hc, hw⟩ := h.keyed wsi' p h0 hp
      exact ⟨c, hstay p c hc (by rwa [hw]), hw⟩
  · obtain ⟨hne, hc⟩ := hup p c' hc' hup'
    rw [hset, Function.update_of_ne hne, hlife _ hne]
    exact h.connected p c' hc hup'
  · obtain ⟨hne, hc⟩ := hup p c' hc' hwait.isUp
    exact hflag _ hne (h.awake p c' hc hwait)

/-- A client that is not established gets a connection that starts. -/
theorem add (h : WakeInv w fun _ => False) (hnew : wsi ≠ 0 → (w.life wsi).alive = false)
    (hold : ∀ c, w.server.heap.cell p = some c → c.wsi = 0) {n : Client}
    (hn : w'.server.heap.cell p = some n) (hw : n.wsi = wsi) (hdown : ¬ n.IsUp)
    (hothers : ∀ q, q ≠ p → w'.server.heap.cell q = w.server.heap.cell q)
    (hset : ∀ wsi', wsi' ≠ wsi → w'.server.WSClientSet wsi' = w.server.WSClientSet wsi')
    (hentry : wsi ≠ 0 → w'.server.WSClientSet wsi = (w.server.WSClientSet wsi).or (some p))
    (hlife : ∀ wsi', wsi' ≠ wsi → w'.life wsi' = w.life wsi')
    (hflag : ∀ wsi', w.Flagged wsi' → w'.Flagged wsi') : WakeInv w' fun _ => False := by
  have hup : ∀ q d, w'.server.heap.cell q = some d → d.IsUp →
      d.wsi ≠ wsi ∧ w.server.heap.cell q = some d := by
    intro q d hd hup'
    by_cases hq : q = p
    · subst hq
      obtain rfl : n = d := Option.some.inj (hn.symm.trans hd)
      exact absurd hup' hdown
    · rw [hothers q hq] at hd
      obtain ⟨h0, -, halive, -⟩ := h.connected q d hd hup'
      refine ⟨?_, hd⟩
      rintro rfl
      rw [hnew h0] at halive
      cases halive
  have hkeyed : ∀ wsi' q, wsi' ≠ 0 → w.server.WSClientSet wsi' = some q →
      ∃ d, w'.server.heap.cell q = some d ∧ d.wsi = wsi' := by
    intro wsi' q h0 hq
    obtain ⟨d, hd, hdw⟩ := h.keyed wsi' q h0 hq
    refine ⟨d, ?_, hdw⟩
    rw [hothers q, hd]
    rintro rfl
    exact h0 (hdw.symm.trans (hold d hd))
  refine ⟨fun wsi' q h0 hq => ?_, fun q d hd hup' => ?_, fun q d hd hwait => .inl ?_⟩
  · by_cases heq : wsi' = wsi
    · subst heq
      rw [hentry h0] at hq
      cases hreg : w.server.WSClientSet wsi' with
      | none =>
          rw [hreg] at hq
          cases hq
          exact ⟨n, hn, hw⟩
      | some q' =>
          rw [hreg] at hq
          cases hq
          exact hkeyed wsi' q h0 hreg
    · rw [hset wsi' heq] at hq
      exact hkeyed wsi' q h0 hq
  · obtain ⟨hne, hd'⟩ := hup q d hd hup'
    rw [hset _ hne, hlife _ hne]
    exact h.connected q d hd' hup'
  · obtain ⟨-, hd'⟩ := hup q d hd hwait.isUp
    exact hflag _ ((h.awake q d hd' hwait).resolve_right id)

/-- A client is deleted that no other established client shares its connection with. -/
theorem free (h : WakeInv w due) (hc : w.server.heap.cell p = some c)
    (honly : ∀ q d, w.server.heap.cell q = some d → d.IsUp → d.wsi = c.wsi → q = p)
    (hheap : w'.server.heap = w.server.heap.free p)
    (hset : w'.server.WSClientSet = Function.update w.server.WSClientSet c.wsi none)
    (hlife : ∀ wsi, wsi ≠ c.wsi → w'.life wsi = w.life wsi)
    (hflag : ∀ wsi, wsi ≠ c.wsi → w.Flagged wsi ∨ due wsi → w'.Flagged wsi) :
    WakeInv w' fun _ => False := by
  refine h.remove hset hlife hflag (fun q d hd hne => ?_) fun q d hd => ?_
  · rw [hheap, Heap.cell_free, if_neg, hd]
    rintro rfl
    exact hne (congrArg Client.wsi (Option.some.inj (hd.symm.trans hc)))
  · rw [hheap, Heap.cell_free] at hd
    split at hd
    · cases hd
    · next hq => exact ⟨d, hd, rfl, fun hw hup => hq (honly q d hd hup hw)⟩

end WakeInv

/-! ### After the callback -/

namespace World

variable {w : World} {s : Server} {r : ℤ} {wsi wsi' : Wsi} {reason : Reason} {a : Action}

theorem after_life_of_ne (hne : wsi' ≠ wsi) :
    (w.after s r (.lws wsi reason)).life wsi' = w.life wsi' :=
  Function.update_of_ne hne ..

theorem flagged_after (hwr : w.server.writable wsi = true → s.writable wsi = true)
    (h : w.Flagged wsi) : (w.after s r a).Flagged wsi := by
  rcases h with h | h
  · left
    rw [World.after_server]
    exact hwr h
  · right
    cases a with
    | lws wsi' reason =>
        simp only [after]
        split
        · by_cases hw : wsi = wsi'
          · rw [hw, Function.update_self]
          · rw [Function.update_of_ne hw, h]
        · exact h
    | connect p connected => cases connected <;> exact h
    | sdk | send | close | construct | delete => exact h

theorem flagged_after_failed : (w.after s (-1) (.lws wsi reason)).Flagged wsi := by
  right
  simp [after]

end World

theorem Life.IsUp.next {l : Life} {reason : Reason} (h : l.IsUp) (hcl : ¬ reason.closes = true)
    (hd : reason = .WSI_DESTROY → l.established = true → l.closed = true) (p : ℕ) :
    (l.next p reason).IsUp := by
  obtain ⟨halive, hest, hopen⟩ := h
  cases reason with
  | ESTABLISHED | CLIENT_ESTABLISHED => exact ⟨halive, rfl, rfl⟩
  | CLIENT_CONNECTION_ERROR | CLOSED | CLOSED_CLIENT_HTTP | CLOSED_HTTP => exact absurd rfl hcl
  | WSI_CREATE => exact ⟨rfl, hest, hopen⟩
  | WSI_DESTROY =>
      rw [hd rfl hest] at hopen
      cases hopen
  | RECEIVE | CLIENT_RECEIVE | SERVER_WRITEABLE | CLIENT_WRITEABLE | other =>
      exact ⟨halive, hest, hopen⟩

theorem life_after {w : World} {s : Server} {r : ℤ} {wsi : Wsi} {reason : Reason}
    (ha : ownEntries w (.lws wsi reason)) (hcl : ¬ reason.closes = true) (wsi' : Wsi)
    (h : (w.life wsi').IsUp) : ((w.after s r (.lws wsi reason)).life wsi').IsUp := by
  by_cases hw : wsi' = wsi
  · subst hw
    have hnext := h.next hcl (fun hd => by subst hd; exact ha.2.2) w.server.heap.next
    simpa only [World.after, Function.update_self] using hnext
  · rwa [World.after_life_of_ne hw]

namespace WakeInv

variable {w : World} {s' : Server} {a : Action} {p : ℕ} {c : Client} {wsi : Wsi}
  {reason : Reason} {r : ℤ}

/-- The client registered for the connection of a callback. -/
theorem wsi_of_registered {due : Wsi → Prop} (h : WakeInv w due) (h0 : wsi ≠ 0)
    (hreg : w.server.WSClientSet wsi = some p) (hc : w.server.heap.cell p = some c) :
    c.wsi = wsi := by
  obtain ⟨c', hc', hw⟩ := h.keyed wsi p h0 hreg
  cases hc.symm.trans hc'
  exact hw

/-- An established client asks to be called back when it is sent to. -/
theorem canWrite {due : Wsi → Prop} (h : WakeInv w due) (hc : w.server.heap.cell p = some c)
    (hopen : c.m_state = .OPEN) : w.server.canWrite c = true := by
  obtain ⟨h0, hreg, -⟩ := h.connected p c hc (.inl hopen)
  simp [Server.canWrite, hreg, h0, hopen]

theorem not_answers (hr : reason.result = none) {wsi' : Wsi} :
    ¬ (Action.lws wsi reason).Answers wsi' := fun h => h.2 hr

/-- `ESTABLISHED` asks for its connection. -/
theorem opened (h : WakeInv w (Action.lws wsi reason).Answers)
    (ha : ownEntries w (.lws wsi reason)) (hest : reason.establishes = true)
    (hreg : w.server.WSClientSet wsi = some p) (hc : w.server.heap.cell p = some c) :
    WakeInv (w.after (w.server.opened wsi p c) 0 (.lws wsi reason)) fun _ => False := by
  have hw := h.wsi_of_registered ha.1 hreg hc
  have hcell : ∀ q d', (w.server.opened wsi p c).heap.cell q = some d' →
      q = p ∧ d' = { c with m_state := .OPEN } ∨ q ≠ p ∧ w.server.heap.cell q = some d' :=
    fun q d' => Heap.cases_of_modify hc
  have hup : ((w.life wsi).next w.server.heap.next reason).IsUp := by
    obtain ⟨-, halive⟩ := ha
    cases reason with
    | ESTABLISHED | CLIENT_ESTABLISHED => exact ⟨halive, rfl, rfl⟩
    | _ => cases hest
  refine ⟨fun wsi' q h0 hq => ?_, fun q d' hd' hup' => ?_, fun q d' hd' hwait => .inl ?_⟩
  · obtain ⟨d, hd, hdw⟩ := h.keyed wsi' q h0 hq
    exact Heap.exists_cell_modify hd hdw fun _ => hdw
  · rcases hcell q d' hd' with ⟨rfl, rfl⟩ | ⟨-, hd⟩
    · refine ⟨by rw [hw]; exact ha.1, by rw [hw]; exact hreg, ?_⟩
      simpa only [World.after, hw, Function.update_self] using hup
    · obtain ⟨h0, hreg', hlife⟩ := h.connected q d' hd hup'
      exact ⟨h0, hreg', life_after ha (Reason.not_closes_of_establishes hest) _ hlife⟩
  · by_cases hdw : d'.wsi = wsi
    · left
      simp [World.after, Server.opened, hdw]
    · rcases hcell q d' hd' with ⟨rfl, rfl⟩ | ⟨-, hd⟩
      · exact absurd hw hdw
      · rcases h.awake q d' hd hwait with hflag | hdue
        · refine World.flagged_after (fun hwr => ?_) hflag
          simpa only [Server.opened, Function.update_of_ne hdw] using hwr
        · exact absurd hdue.1 hdw

/-- A closing callback takes the client of its connection away. -/
theorem closed (h : WakeInv w (Action.lws wsi reason).Answers)
    (ha : ownEntries w (.lws wsi reason)) (hreg : w.server.WSClientSet wsi = some p)
    (hc : w.server.heap.cell p = some c) (obs : List Obs) :
    WakeInv (w.after (w.server.closedBy wsi p c obs) 0 (.lws wsi reason)) fun _ => False := by
  have hw := h.wsi_of_registered ha.1 hreg hc
  subst hw
  have hflag : ∀ wsi', wsi' ≠ c.wsi →
      w.Flagged wsi' ∨ (Action.lws c.wsi reason).Answers wsi' →
      (w.after (w.server.closedBy c.wsi p c obs) 0 (.lws c.wsi reason)).Flagged wsi' := by
    intro wsi' hne hf
    rcases hf with hf | hf
    · exact World.flagged_after id hf
    · exact absurd hf.1 hne
  have honly : ∀ q d, w.server.heap.cell q = some d → d.IsUp → d.wsi = c.wsi → q = p :=
    fun q d hd hup hdw => h.eq_of_isUp hreg hd hup hdw
  by_cases hcls : c.cls = .UCClientWSclient
  · refine h.free hc honly ?_ rfl (fun _ => World.after_life_of_ne) hflag
    simp only [World.after, Server.closedBy, hcls, if_true]
  · have hheap : (w.after (w.server.closedBy c.wsi p c obs) 0 (.lws c.wsi reason)).server.heap =
        w.server.heap.modify p fun c => { c with m_state := .CLOSED } := by
      simp only [World.after, Server.closedBy, hcls, if_false]
    refine h.remove rfl (fun _ => World.after_life_of_ne) hflag (fun q d hd hne => ?_)
      fun q d' hd' => ?_
    · rw [hheap, Heap.cell_modify, if_neg, hd]
      rintro rfl
      exact hne (congrArg Client.wsi (Option.some.inj (hd.symm.trans hc)))
    · rw [hheap] at hd'
      rcases Heap.cases_of_modify hc hd' with ⟨rfl, rfl⟩ | ⟨hq, hd'⟩
      · exact ⟨c, hc, rfl, fun _ hup => by rcases hup with hup | hup <;> cases hup⟩
      · exact ⟨d', hd', rfl, fun hdw hup => hq (honly q d' hd' hup hdw)⟩

/-- A closing callback for a connection without an established client. -/
theorem erased (h : WakeInv w (Action.lws wsi reason).Answers)
    (hold : ∀ p c, w.server.WSClientSet wsi = some p → w.server.heap.cell p = some c →
      c.m_state = .CLOSED) :
    WakeInv (w.after (w.server.erased wsi) 0 (.lws wsi reason)) fun _ => False := by
  refine h.remove rfl (fun _ => World.after_life_of_ne) (fun wsi' hne hf => ?_)
    (fun q d hd _ => hd) fun q d hd => ⟨d, hd, rfl, fun hdw hup => ?_⟩
  · rcases hf with hf | hdue
    · exact World.flagged_after id hf
    · exact absurd hdue.1 hne
  · obtain ⟨-, hreg, -⟩ := h.connected q d hd hup
    rw [hdw] at hreg
    rcases hup with hup | hup <;> rw [hold q d hreg hd] at hup <;> cases hup

/-- `Close` asks for the connection of an open client. -/
theorem closing {due : Wsi → Prop} (h : WakeInv w due) (hdue : ∀ wsi, ¬ due wsi)
    (hc : w.server.heap.cell p = some c) :
    WakeInv (w.after (w.server.closing p c) 0 (.close p)) fun _ => False := by
  have hflag : ∀ wsi, w.Flagged wsi ∨ due wsi →
      (w.after (w.server.closing p c) 0 (.close p)).Flagged wsi := by
    intro wsi hf
    exact World.flagged_after (w.server.writable_wake c wsi) (hf.resolve_right (hdue wsi))
  by_cases hw : w.server.canWrite c = true
  · exact h.modify hc (Server.closing_heap hw p) rfl (fun _ => id) rfl
      (fun _ => .inl (Server.open_of_canWrite hw)) (fun _ _ => .inl (Server.wake_self hw))
      fun q d _ hd hwait => hflag _ (h.awake q d hd hwait)
  · refine h.keep ?_ rfl (fun _ => id) hflag
    exact congrArg Server.heap (Server.closing_eq_self hw p)

/-- `Send` asks for the connection of an open client; a closing one is flagged already. -/
theorem sent {due : Wsi → Prop} {w' : World} (h : WakeInv w due)
    (hdue : ∀ wsi, ¬ due wsi) (hc : w.server.heap.cell p = some c) (buf : Bytes)
    (hheap : w'.server.heap = w.server.heap.modify p
      fun c => { c with m_sendBuf := c.m_sendBuf ++ [entry buf] })
    (hset : w'.server.WSClientSet = w.server.WSClientSet)
    (hwr : w'.server.writable = w.server.wake c) (hfail : w'.failing = w.failing)
    (hlife : ∀ wsi, (w.life wsi).IsUp → (w'.life wsi).IsUp) : WakeInv w' fun _ => False := by
  have hflag : ∀ wsi, w.Flagged wsi → w'.Flagged wsi := by
    intro wsi hf
    rw [World.Flagged, hwr, hfail]
    exact hf.imp_left (w.server.writable_wake c wsi)
  refine h.modify hc hheap hset hlife rfl id (fun hup _ => ?_) fun q d _ hd hwait => ?_
  · rcases hup with hopen | hclosing
    · left
      rw [hwr]
      exact Server.wake_self (h.canWrite hc hopen)
    · exact hflag _ ((h.awake p c hc (.inr hclosing)).resolve_right (hdue _))
  · exact hflag _ ((h.awake q d hd hwait).resolve_right (hdue _))

/-- What is left to write is asked for. -/
theorem wrote (h : WakeInv w (Action.lws wsi reason).Answers)
    (ha : ownEntries w (.lws wsi reason)) (hcl : ¬ reason.closes = true)
    (hreg : w.server.WSClientSet wsi = some p) (hc : w.server.heap.cell p = some c)
    (hs : c.m_state ≠ .CLOSING) (queue : List Bytes) (obs : List Obs) :
    WakeInv (w.after (w.server.wrote wsi p queue obs) 0 (.lws wsi reason)) fun _ => False := by
  have hw := h.wsi_of_registered ha.1 hreg hc
  refine h.modify hc rfl rfl (life_after ha hcl) rfl id (fun _ hwait => ?_)
    fun q d hq hd hwait => ?_
  · rcases hwait with ⟨-, hne⟩ | hclosing
    · left
      have hne : queue ≠ [] := hne
      simp [World.after, Server.wrote, hne, hw]
    · exact absurd hclosing hs
  · rcases h.awake q d hd hwait with hflag | hdue
    · refine World.flagged_after (fun hwr => ?_) hflag
      simp only [Server.wrote]
      split
      · by_cases hdw : d.wsi = wsi
        · rw [hdw, Function.update_self]
        · rw [Function.update_of_ne hdw, hwr]
      · exact hwr
    · exact absurd (h.eq_of_isUp hreg hd hwait.isUp hdue.1) hq

/-- A broadcast asks for the connection of every open client it sends to. -/
theorem broadcast {due : Wsi → Prop} {w' : World} (h : WakeInv w due) (hdue : ∀ wsi, ¬ due wsi)
    {ps : List ℕ} {buf : Bytes} (hall : SentAll ps buf w.server w'.server)
    (hlife : w'.life = w.life) (hfail : w'.failing = w.failing) : WakeInv w' fun _ => False := by
  have hflag : ∀ wsi, w.Flagged wsi → w'.Flagged wsi := by
    intro wsi hf
    rw [World.Flagged, hfail]
    exact hf.imp_left (hall.writable wsi)
  refine h.same hall.WSClientSet (fun wsi hup => by rwa [hlife]) (fun p c hc => ?_)
    fun p c' hc' => ?_
  · rw [hall.cell, hc]
    exact ⟨_, rfl, rfl⟩
  · rw [hall.cell] at hc'
    obtain ⟨c, hc, rfl⟩ := Option.map_eq_some_iff.mp hc'
    refine ⟨c, hc, rfl, id, fun hwait => ?_⟩
    by_cases hp : p ∈ ps
    · rcases hwait.isUp with hopen | hclosing
      · exact .inl (hall.wake p hp c hc (h.canWrite hc hopen))
      · exact hflag _ ((h.awake p c hc (.inr hclosing)).resolve_right (hdue _))
    · rw [List.count_eq_zero_of_not_mem hp, List.replicate_zero, List.append_nil] at hwait
      exact hflag _ ((h.awake p c hc hwait).resolve_right (hdue _))

/-- **Every effect keeps the waiting clients flagged.** -/
theorem effect (h : WakeInv w a.Answers) (ha : ownEntries w a) (he : Effect w.server a r s') :
    WakeInv (w.after s' r a) fun _ => False := by
  cases he with
  | @nothing wsi reason r hest hcl hw =>
      refine h.keep rfl rfl (life_after ha hcl) fun wsi' hf => ?_
      rcases hf with hf | ⟨rfl, hres⟩
      · exact World.flagged_after id hf
      · rw [hw hres]
        exact World.flagged_after_failed
  | opened hest hreg hc => exact h.opened ha hest hreg hc
  | erased _ hold => exact h.erased hold
  | closed _ hreg hc => exact h.closed ha hreg hc _
  | @received wsi reason _ _ _ _ _ hr =>
      refine h.keep rfl rfl (life_after ha (Reason.not_closes_of_receives hr)) fun wsi' hf => ?_
      exact hf.elim (World.flagged_after id) fun hdue =>
        absurd hdue (not_answers (Reason.result_of_receives hr))
  | @replied wsi reason p c _ _ _ result hr hreg hc =>
      exact h.sent (fun _ => not_answers (Reason.result_of_receives hr)) hc result rfl rfl rfl rfl
        (life_after ha (Reason.not_closes_of_receives hr))
  | @refused wsi reason _ _ _ _ hr =>
      refine h.keep rfl rfl (life_after ha (Reason.not_closes_of_result hr)) fun wsi' hf => ?_
      rcases hf with hf | ⟨rfl, -⟩
      · exact World.flagged_after id hf
      · exact World.flagged_after_failed
  | wrote hr hreg hc hs =>
      exact h.wrote ha (Reason.not_closes_of_result hr) hreg hc hs _ _
  | @accepted wsi cls inst =>
      refine add (n := { cls := cls, wsi := wsi }) (h.mono fun _ => not_answers rfl)
        (fun _ => ha.2) (p := w.server.heap.next) (fun c hc => by simp at hc) ?_ rfl
        (Client.not_isUp_of_connecting rfl) (fun q hq => ?_) (fun wsi' hne => ?_) (fun _ => ?_)
        (fun _ => World.after_life_of_ne) fun _ => World.flagged_after id
      · exact Heap.cell_alloc.trans (if_pos rfl)
      · exact Heap.cell_alloc.trans (if_neg hq)
      · exact Function.update_of_ne hne ..
      · exact Function.update_self ..
  | @destroyed wsi p c hreg hc =>
      have hw := h.wsi_of_registered ha.1 hreg hc
      subst hw
      refine h.free hc (fun q d hd hup hdw => h.eq_of_isUp hreg hd hup hdw) rfl rfl
        (fun _ => World.after_life_of_ne) fun wsi' _ hf => ?_
      exact hf.elim (World.flagged_after (w.server.writable_wake c wsi'))
        fun hdue => absurd hdue (not_answers rfl)
  | event => exact h.keep rfl rfl (fun _ => id) fun _ hf => hf.resolve_right id
  | @broadcast _ _ obs _ _ _ hall =>
      have hobs : WakeInv { w with server := w.server.observed obs } fun _ => False :=
        h.keep rfl rfl (fun _ => id) fun _ hf => hf.resolve_right id
      exact hobs.broadcast (fun _ => id) hall rfl rfl
  | sent hc => exact h.sent (fun _ => id) hc _ rfl rfl rfl rfl fun _ => id
  | closing hc => exact h.closing (fun _ => id) hc
  | constructed =>
      refine add (n := { cls := .ATLWSclient, wsi := 0 }) h (fun h0 => absurd rfl h0)
        (p := w.server.heap.next) (fun c hc => by simp at hc) ?_ rfl
        (Client.not_isUp_of_connecting rfl) (fun q hq => ?_) (fun _ _ => rfl)
        (fun h0 => absurd rfl h0) (fun _ _ => rfl) fun _ => id
      · exact Heap.cell_alloc.trans (if_pos rfl)
      · exact Heap.cell_alloc.trans (if_neg hq)
  | @unconnected p connected c hc hno =>
      cases connected with
      | none => exact h.keep rfl rfl (fun _ => id) fun _ hf => hf.resolve_right id
      | some wsi => exact absurd (ha.2.1 c hc) (hno (Option.some_ne_none wsi))
  | @connected p wsi c hc hw =>
      refine add (n := { c with wsi := wsi, m_state := .CONNECTING }) h ha.2.2 (p := p)
        ha.2.1 ?_ rfl (Client.not_isUp_of_connecting rfl) (fun q hq => ?_) (fun wsi' hne => ?_)
        (fun _ => ?_) (fun wsi' hne => ?_) fun _ => World.flagged_after id
      · exact Heap.cell_modify.trans (by rw [if_pos rfl, hc]; rfl)
      · exact Heap.cell_modify.trans (if_neg hq)
      · exact Function.update_of_ne hne ..
      · exact Function.update_self ..
      · exact Function.update_of_ne hne ..
  | @deleted p c hc =>
      refine h.free hc (fun q d hd hup hdw => ?_) rfl rfl (fun _ _ => rfl) fun wsi' _ hf => ?_
      · obtain ⟨-, hreg, -⟩ := h.connected q d hd hup
        rw [hdw] at hreg
        exact ha.2 c hc q hreg
      · exact hf.elim (World.flagged_after (w.server.writable_wake c wsi')) False.elim

end WakeInv

/-! ### Runs -/

variable {This : ServerClass} {sdk : Sdk} {w w' : World} {a : Action}

theorem WakeInv.empty {due : Wsi → Prop} : WakeInv {} due := ⟨nofun, nofun, nofun⟩

theorem WakeInv.step (h : WakeInv w fun _ => False) (ha : ownEntries w a)
    (hst : World.step This sdk w a = .ok w') : WakeInv w' fun _ => False := by
  obtain ⟨r, s', hrun, rfl⟩ := World.step_ok hst
  have hbefore := h.before ha
  have ha' : ownEntries (w.before a) a := by
    cases a with
    | lws wsi reason => cases reason <;> exact ha
    | connect p connected => cases connected <;> exact ha
    | sdk | send | close | construct | delete => exact ha
  refine hbefore.effect ha' (program_effect ?_ hrun)
  rintro wsi reason rfl p c hreg hc
  exact hbefore.wsi_of_registered ha.1 hreg hc

theorem wakeInv_reachable (h : (World.system This sdk ownEntries).Reachable w) :
    WakeInv w fun _ => False :=
  h.invariant (I := fun w => WakeInv w fun _ => False) .empty
    fun _ _ _ _ hinv hal hst => hinv.step hal hst

/-- **No stalled queue.** With any number of clients, accepted or connected, in every
reachable state: a client that is open with a non-empty queue, or closing, is registered
under its connection, and a request is pending for the connection or lws is closing it
because a `WRITEABLE` callback returned -1. -/
theorem no_stalled_queue (This : ServerClass) (sdk : Sdk) {w : World}
    (h : (World.system This sdk ownEntries).Reachable w) {p : ℕ} {c : Client}
    (hc : w.server.heap.cell p = some c)
    (hwait : c.m_state = .OPEN ∧ c.m_sendBuf ≠ [] ∨ c.m_state = .CLOSING) :
    w.server.WSClientSet c.wsi = some p ∧
      (w.server.writable c.wsi = true ∨ w.failing c.wsi = true) := by
  have hinv := wakeInv_reachable h
  have hwait : c.Waiting := hwait
  exact ⟨(hinv.connected p c hc hwait.isUp).2.1, (hinv.awake p c hc hwait).resolve_right id⟩

/-- The plugin connects, sends before it is connected, and closes right after: its client
is closing and has a request pending. -/
theorem no_stalled_queue_closing :
    ∃ w c, (World.system .WebSocketServer silentSdk ownEntries).Reachable w ∧
      w.server.heap.cell 0 = some c ∧ c.m_state = .CLOSING ∧ c.m_sendBuf ≠ [] ∧
      w.server.WSClientSet c.wsi = some 0 ∧
      (w.server.writable c.wsi = true ∨ w.failing c.wsi = true) := by
  obtain ⟨w, hrun, hc⟩ := StepSystem.run_of_check_map
    (S := World.system .WebSocketServer silentSdk ownEntries)
    (f := fun w => w.server.heap.cell 0)
    (b := some ⟨.ATLWSclient, 5, .CLOSING, [entry [97]]⟩)
    [.construct, .connect 0 (some 5), .send 0 [97], .lws 5 .CLIENT_ESTABLISHED, .close 0]
    (by decide)
  exact ⟨w, _, ⟨_, hrun⟩, hc, rfl, nofun, no_stalled_queue _ silentSdk ⟨_, hrun⟩ hc (.inr rfl)⟩

end UCClient
