import Mathlib.Data.List.Nodup
import UCClient.ServerTable

/-!
# No Stale Client Pointer

Page connections delete themselves in `OnClose`, and three globals refer to them. This
module follows the server through runs in which lws calls back in any order, with two
restrictions only: a connection is established at most once, and an established one gets
a closing callback before `WSI_DESTROY` (`anyOrder`). SDK events and calls on existing
clients come in between.

The table of such a run stays well formed, whatever the order (`Table.WellFormed.step`).
That no client is listed twice needs the restrictions: the connection of a listed client
is established and not closed, so it cannot be established once more, and it cannot be
destroyed so as to be established again (`Listed`).

## Main results

* `no_stale_pointer`: in every reachable state all stored pointers refer to clients that
  exist, no client is listed twice, and no call made in it uses or deletes a client that
  does not exist.
-/

namespace UCClient

/-- The contract of the environment: callbacks in any order, except that a connection is
established at most once and is not destroyed between establishing and closing. -/
def anyOrder (w : World) (wsi : Wsi) (reason : Reason) : Prop :=
  (reason.establishes = true → (w.life wsi).established = false) ∧
    (reason = .WSI_DESTROY → (w.life wsi).established = true → (w.life wsi).closed = true)

instance (w : World) (wsi : Wsi) (reason : Reason) : Decidable (anyOrder w wsi reason) :=
  inferInstanceAs (Decidable (_ ∧ _))

/-- No client is listed twice, and the connection of a listed client is established and
not closed. -/
structure Listed (t : Table) (life : Wsi → Life) : Prop where
  nodup : t.g_WSClientSet.Nodup
  connected : ∀ p ∈ t.g_WSClientSet, ∀ wsi, t.objects.cell p = some wsi →
    (life wsi).established = true ∧ (life wsi).closed = false

namespace Listed

variable {t : Table} {life : Wsi → Life} {wsi : Wsi} {l : Life}

/-- The life of a connection may change as long as a listed client of it stays open. -/
theorem update (h : Listed t life)
    (hl : ∀ p ∈ t.g_WSClientSet, t.objects.cell p = some wsi →
      l.established = true ∧ l.closed = false) :
    Listed t (Function.update life wsi l) := by
  refine ⟨h.nodup, fun p hp wsi' hcell => ?_⟩
  by_cases hw : wsi' = wsi
  · subst hw
    rw [Function.update_self]
    exact hl p hp hcell
  · rw [Function.update_of_ne hw]
    exact h.connected p hp wsi' hcell

/-- An unlisted client of an established connection joins the list. -/
theorem establish (h : Listed t life) (ht : t.WellFormed)
    (hfirst : (life wsi).established = false) (hl : l.established = true ∧ l.closed = false) :
    Listed (t.establish wsi) (Function.update life wsi l) := by
  have hupd : Listed t (Function.update life wsi l) := h.update fun _ _ _ => hl
  cases hreg : t.WSClientSet wsi with
  | none => simpa only [Table.establish, hreg] using hupd
  | some p =>
      have hcell := ht.registered wsi p hreg
      have hnew : p ∉ t.g_WSClientSet := by
        intro hp
        rw [(h.connected p hp wsi hcell).1] at hfirst
        cases hfirst
      simp only [Table.establish, hreg]
      refine ⟨?_, fun q hq wsi' hq' => ?_⟩
      · rw [List.nodup_append]
        refine ⟨h.nodup, List.nodup_singleton p, fun q hq q' hq' => ?_⟩
        obtain rfl := List.mem_singleton.mp hq'
        rintro rfl
        exact hnew hq
      · rcases List.mem_append.mp hq with hq | hq
        · exact hupd.connected q hq wsi' hq'
        · obtain rfl := List.mem_singleton.mp hq
          obtain rfl : wsi = wsi' := Option.some.inj (hcell.symm.trans hq')
          rw [Function.update_self]
          exact hl

/-- The client of a closed connection is listed no more. -/
theorem close (h : Listed t life) (ht : t.WellFormed) :
    Listed (t.close wsi) (Function.update life wsi l) := by
  cases hreg : t.WSClientSet wsi with
  | none =>
      simp only [Table.close, hreg]
      refine h.update fun p hp hcell => ?_
      rw [ht.registered_of_listed hp hcell] at hreg
      cases hreg
  | some p =>
      have hcell := ht.registered wsi p hreg
      simp only [Table.close, hreg]
      refine ⟨h.nodup.filter _, fun q hq wsi' hq' => ?_⟩
      obtain ⟨hmem, hne⟩ : q ∈ t.g_WSClientSet ∧ q ≠ p := by simpa using hq
      rw [Heap.cell_free, if_neg hne] at hq'
      have hw : wsi' ≠ wsi := by
        rintro rfl
        have hq'' := ht.registered_of_listed hmem hq'
        exact hne (Option.some.inj (hq''.symm.trans hreg))
      rw [Function.update_of_ne hw]
      exact h.connected q hmem wsi' hq'

/-- A client that was just made is not listed yet. -/
theorem create (h : Listed t life) (ht : t.WellFormed)
    (hl : l.established = (life wsi).established ∧ l.closed = (life wsi).closed) :
    Listed (t.create wsi) (Function.update life wsi l) := by
  have hupd : Listed t (Function.update life wsi l) := by
    refine h.update fun p hp hcell => ?_
    rw [hl.1, hl.2]
    exact h.connected p hp wsi hcell
  refine ⟨h.nodup, fun p hp wsi' hcell => ?_⟩
  simp only [Table.create, Heap.cell_alloc] at hcell
  rw [if_neg (ht.live_listed hp).ne_next] at hcell
  exact hupd.connected p hp wsi' hcell

/-- **Every callback the contract allows keeps the list.** -/
theorem lws (h : Listed t life) (ht : t.WellFormed) {reason : Reason} (q : ℕ)
    (hfirst : reason.establishes = true → (life wsi).established = false)
    (hclosed : reason = .WSI_DESTROY → (life wsi).established = true →
      (life wsi).closed = true) :
    Listed (t.step (.lws wsi reason))
      (Function.update life wsi ((life wsi).next q reason)) := by
  by_cases hest : reason.establishes = true
  · rw [t.step_establishes hest]
    simp only [Life.next, hest, if_true]
    exact h.establish ht (hfirst hest) ⟨rfl, rfl⟩
  by_cases hcl : reason.closes = true
  · rw [t.step_closes hcl]
    exact h.close ht
  simp only [Table.step, hest, hcl, Life.next]
  cases reason with
  | WSI_CREATE hasUser =>
      cases hasUser with
      | false => exact h.create ht ⟨rfl, rfl⟩
      | true => exact h.update fun p hp hcell => h.connected p hp wsi hcell
  | WSI_DESTROY =>
      refine h.update fun p hp hcell => ?_
      obtain ⟨hopen, hnot⟩ := h.connected p hp wsi hcell
      rw [hclosed rfl hopen] at hnot
      cases hnot
  | _ => exact h.update fun p hp hcell => h.connected p hp wsi hcell

end Listed

/-- What holds in every state of a run. -/
structure PointerInv (w : World) : Prop where
  good : Good w.server
  listed : Listed w.server.table w.life

variable {sdk : Sdk} {w w' : World} {a : Action}

theorem PointerInv.step (h : PointerInv w) (ha : contract anyOrder w a)
    (hst : World.step .UCClientWSServer sdk w a = .ok w') : PointerInv w' := by
  obtain ⟨htable, hgood⟩ := step_table h.good ha.ofServer hst
  refine ⟨hgood, ?_⟩
  rw [htable, step_life hst ha.ofServer]
  cases a with
  | lws wsi reason => exact h.listed.lws h.good.table _ ha.1 ha.2
  | sdk | send | close | construct | connect | delete => exact h.listed

theorem pointerInv_reachable
    (h : (World.system .UCClientWSServer sdk (contract anyOrder)).Reachable w) : PointerInv w :=
  h.invariant ⟨.empty, List.nodup_nil, nofun⟩
    fun _ _ _ _ hinv hal hst => hinv.step hal hst

/-- **No stale client pointer.** However lws orders its callbacks, in every reachable
state the registry, the broadcast list and the instance refer to clients that exist, no
client is listed twice, and no call made in it uses a deleted client or deletes one
twice. -/
theorem no_stale_pointer (sdk : Sdk) {w : World}
    (h : (World.system .UCClientWSServer sdk (contract anyOrder)).Reachable w) :
    (∀ wsi p, w.server.WSClientSet wsi = some p → w.server.heap.Live p) ∧
      (∀ p ∈ w.server.g_WSClientSet, w.server.heap.Live p) ∧
      (∀ p, w.server.g_Instance = some p → w.server.heap.Live p) ∧
      w.server.g_WSClientSet.Nodup ∧
      ∀ a f, contract anyOrder w a → World.step .UCClientWSServer sdk w a = .error f →
        ∀ p, f ≠ .dangling p ∧ f ≠ .doubleDelete p := by
  have hinv := pointerInv_reachable h
  have htable := hinv.good.table
  refine ⟨fun wsi p hp => Heap.live_map.mp (htable.live_registered hp),
    fun p hp => Heap.live_map.mp (htable.live_listed hp),
    fun p hp => Heap.live_map.mp (htable.instanced p hp), hinv.listed.nodup, ?_⟩
  intro a f ha hst p
  have hf := step_not_isPointer hinv.good ha.ofServer hst
  constructor
  · rintro rfl
    cases hf
  · rintro rfl
    cases hf

/-- Two pages connect and the first one closes: the other is still listed, and exists. -/
theorem no_stale_pointer_twoPages :
    ∃ w, (World.system .UCClientWSServer silentSdk (contract anyOrder)).Reachable w ∧
      w.server.g_WSClientSet = [1] ∧ ∀ p ∈ w.server.g_WSClientSet, w.server.heap.Live p := by
  obtain ⟨w, hrun, hlist⟩ := StepSystem.run_of_check_map
    (S := World.system .UCClientWSServer silentSdk (contract anyOrder))
    (f := fun w => w.server.g_WSClientSet) (b := [1])
    [.lws 1 (.WSI_CREATE false), .lws 1 .ESTABLISHED, .lws 2 (.WSI_CREATE false),
      .lws 2 .ESTABLISHED, .lws 1 (.CLOSED none)] (by decide)
  exact ⟨w, ⟨_, hrun⟩, hlist, (no_stale_pointer silentSdk ⟨_, hrun⟩).2.1⟩

end UCClient
