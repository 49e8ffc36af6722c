import UCClient.Callback

/-!
# Messages That Arrive in Pieces

lws hands a text message to the protocol callback piece by piece: one `RECEIVE` for every
fragment of the peer and for every filled receive buffer, and leaves it to the user to put
them together. A command should not depend on where the message was cut (`WholeMessage`).

`callback_lws` does not put them together: it enters `OnMessage` with every piece. The
first piece of several is entered as a message of its own, so a message is delivered whole
exactly when it comes in one piece.

## Main results

* `deliver_whole_iff`: a message is delivered whole exactly when it comes in one piece.
* `deliver_split_not_whole`: a command cut in two is never executed.
-/

namespace UCClient

open ServerM

/-- The messages `OnMessage` was entered with, and on which client. -/
def onMessageCalls (trace : List Obs) : List (ℕ × Bytes) :=
  trace.filterMap fun
    | .OnMessage p message => some (p, message)
    | _ => none

/-- A message arrives on a connection in the pieces `chunks`. -/
def deliver (This : ServerClass) (sdk : Sdk) (wsi : Wsi) (reason : Option Bytes → Reason)
    (chunks : List Bytes) : ServerM Unit :=
  chunks.forM fun chunk => do
    let _ ← callback_lws This sdk wsi (reason (some chunk))

/-- The pieces lead to one call of `OnMessage`, with the message they make up, and all in
all to what the message would have led to in one piece. -/
def WholeMessage (This : ServerClass) (sdk : Sdk) (wsi : Wsi) (reason : Option Bytes → Reason)
    (chunks : List Bytes) (p : ℕ) (s : Server) : Prop :=
  onMessageCalls (deliver This sdk wsi reason chunks s).state.trace =
      onMessageCalls s.trace ++ [(p, chunks.flatten)] ∧
    deliver This sdk wsi reason chunks s = deliver This sdk wsi reason [chunks.flatten] s

/-! ### What a received piece does -/

variable (This : ServerClass) (sdk : Sdk) {wsi : Wsi} {p : ℕ} {c : Client} {s : Server}
  {reason : Option Bytes → Reason}

theorem onMessageCalls_append (trace trace' : List Obs) :
    onMessageCalls (trace ++ trace') = onMessageCalls trace ++ onMessageCalls trace' :=
  List.filterMap_append

/-- A command enters no `OnMessage`. -/
theorem onMessageCalls_command {obs : List Obs} (h : ∀ o ∈ obs, o.isCommand = true) :
    onMessageCalls obs = [] := by
  refine List.filterMap_eq_nil_iff.mpr fun o ho => ?_
  have ho' := h o ho
  cases o <;> first | rfl | cases ho'

/-- Both reasons for receiving enter `OnMessage` of the registered client. -/
theorem callback_receive (hr : reason = .RECEIVE ∨ reason = .CLIENT_RECEIVE)
    (hp : s.WSClientSet wsi = some p) (chunk : Bytes) :
    callback_lws This sdk wsi (reason (some chunk)) s =
      (do virtualOnMessage sdk p chunk; pure 0 : ServerM ℤ) s := by
  rcases hr with rfl | rfl <;>
  · rw [callback_lws, EStateM.get_bind]
    simp only [receive, hp]
    rfl

/-- A received piece is entered once into `OnMessage`, and if that ends the client is
registered as before. -/
theorem receive_spec (hr : reason = .RECEIVE ∨ reason = .CLIENT_RECEIVE)
    (hp : s.WSClientSet wsi = some p) (hc : s.heap.cell p = some c) (chunk : Bytes) :
    ∃ s', onMessageCalls s'.trace = onMessageCalls s.trace ++ [(p, chunk)] ∧
      ((callback_lws This sdk wsi (reason (some chunk)) s = .ok 0 s' ∧
        s'.WSClientSet wsi = some p ∧ ∃ c', s'.heap.cell p = some c') ∨
      ∃ f, callback_lws This sdk wsi (reason (some chunk)) s = .error f s') := by
  obtain ⟨obs, version, hobs, hrun⟩ := virtualOnMessage_cases hc sdk chunk
  have hcalls : onMessageCalls (s.ranCommand p chunk obs version).trace =
      onMessageCalls s.trace ++ [(p, chunk)] := by
    rw [Server.ranCommand, onMessageCalls_append]
    exact congrArg _ (congrArg _ (onMessageCalls_command hobs))
  rw [callback_receive This sdk hr hp]
  rcases hrun with hrun | ⟨result, hrun⟩ | hrun
  · refine ⟨_, hcalls, .inl ⟨?_, hp, c, hc⟩⟩
    rw [EStateM.bind_ok hrun]
    rfl
  · refine ⟨(s.ranCommand p chunk obs version).sent p c result, ?_, .inl ⟨?_, hp, ?_⟩⟩
    · rw [← hcalls, Server.sent, onMessageCalls_append]
      exact List.append_nil _
    · rw [EStateM.bind_ok hrun]
      rfl
    · exact Heap.live_iff.mp (Heap.live_modify.mpr (Heap.live_of_cell hc))
  · refine ⟨_, hcalls, .inr ⟨.jsonAssert, ?_⟩⟩
    rw [EStateM.bind_error hrun]

/-- The pieces are entered into `OnMessage` one by one, up to the first that trips an
assertion there. -/
theorem deliver_calls (hr : reason = .RECEIVE ∨ reason = .CLIENT_RECEIVE)
    (hp : s.WSClientSet wsi = some p) (hc : s.heap.cell p = some c) (chunks : List Bytes) :
    ∃ k, onMessageCalls (deliver This sdk wsi reason chunks s).state.trace =
        onMessageCalls s.trace ++ (chunks.take k).map (fun x => (p, x)) ∧
      (chunks ≠ [] → 0 < k) := by
  induction chunks generalizing s c with
  | nil => exact ⟨0, (List.append_nil _).symm, fun h => absurd rfl h⟩
  | cons chunk chunks ih =>
      have hstep : deliver This sdk wsi reason (chunk :: chunks) s =
          ((do let _ ← callback_lws This sdk wsi (reason (some chunk)) : ServerM Unit) >>=
            fun _ => deliver This sdk wsi reason chunks) s := rfl
      obtain ⟨s', hcalls, ⟨hrun, hp', c', hc'⟩ | ⟨f, hrun⟩⟩ :=
        receive_spec This sdk hr hp hc chunk
      · have hfirst : (do let _ ← callback_lws This sdk wsi (reason (some chunk)) : ServerM Unit)
            s = .ok () s' := EStateM.bind_ok hrun
        obtain ⟨k, hk, -⟩ := ih hp' hc'
        refine ⟨k + 1, ?_, fun _ => Nat.succ_pos k⟩
        rw [hstep, EStateM.bind_ok hfirst, hk, hcalls, List.append_assoc]
        rfl
      · refine ⟨1, ?_, fun _ => Nat.one_pos⟩
        rw [hstep, EStateM.bind_error (EStateM.bind_error hrun)]
        exact hcalls

/-- **A message is delivered whole exactly when it comes in one piece.** -/
theorem deliver_whole_iff (wsi : Wsi) (reason : Option Bytes → Reason)
    (hr : reason = .RECEIVE ∨ reason = .CLIENT_RECEIVE) (s : Server) (p : ℕ) (c : Client)
    (hp : s.WSClientSet wsi = some p) (hc : s.heap.cell p = some c) (chunks : List Bytes)
    (hne : chunks ≠ []) (hchunks : ∀ x ∈ chunks, x ≠ []) :
    WholeMessage This sdk wsi reason chunks p s ↔ chunks.length = 1 := by
  obtain ⟨k, hcalls, hk⟩ := deliver_calls This sdk hr hp hc chunks
  cases chunks with
  | nil => exact absurd rfl hne
  | cons x rest =>
      obtain ⟨n, rfl⟩ : ∃ n, k = n + 1 := ⟨k - 1, by have := hk hne; omega⟩
      rw [WholeMessage, hcalls]
      cases rest with
      | nil => simp
      | cons y rest =>
          -- the first piece alone is already a call with something else than the message
          have hy : y ≠ [] := hchunks y (by simp)
          simp only [List.take_succ_cons, List.map_cons, List.flatten_cons, List.length_cons]
          constructor
          · rintro ⟨h, -⟩
            have hx : x = x ++ (y ++ rest.flatten) := by
              simpa using (List.cons.inj (List.append_cancel_left h)).1
            exact absurd hx (by simpa using fun h' => absurd h' hy)
          · omega

/-- A connected page sends a command in one piece. -/
theorem deliver_whole_onePage :
    WholeMessage .UCClientWSServer silentSdk 1 .RECEIVE
      [bytes "\x7b\"type\":\"cmd\",\"cmd\":\"getVersion\"\x7d"] 0 onePage :=
  (deliver_whole_iff .UCClientWSServer silentSdk 1 .RECEIVE (.inl rfl) onePage 0 _ rfl rfl _
    (by decide) (by decide)).mpr rfl

/-- The same command cut in two: `OnMessage` is entered with both halves, and neither is a
message. -/
theorem deliver_split_not_whole :
    onMessageCalls (deliver .UCClientWSServer silentSdk 1 .RECEIVE
        [bytes "\x7b\"type\":\"cmd\",", bytes "\"cmd\":\"getVersion\"\x7d"] onePage).state.trace =
        [(0, bytes "\x7b\"type\":\"cmd\","), (0, bytes "\"cmd\":\"getVersion\"\x7d")] ∧
      ¬ WholeMessage .UCClientWSServer silentSdk 1 .RECEIVE
        [bytes "\x7b\"type\":\"cmd\",", bytes "\"cmd\":\"getVersion\"\x7d"] 0 onePage := by
  have hcalls : onMessageCalls (deliver .UCClientWSServer silentSdk 1 .RECEIVE
      [bytes "\x7b\"type\":\"cmd\",", bytes "\"cmd\":\"getVersion\"\x7d"] onePage).state.trace =
      [(0, bytes "\x7b\"type\":\"cmd\","), (0, bytes "\"cmd\":\"getVersion\"\x7d")] := by
    decide +kernel
  refine ⟨hcalls, ?_⟩
  rintro ⟨h, -⟩
  rw [hcalls] at h
  exact absurd h (by decide)

end UCClient
