import Mathlib.Data.List.Basic
import Mathlib.Data.List.Nodup
import UCClient.Heap

/-!
# Mailboxes

Letters are put into mailboxes and taken out in the order they came. A letter has a kind and
may carry a parameter, an object on a heap that was made for it: whoever takes the letter
reads the parameter and destroys it. A parameter can get lost, when its letter is not taken or
when a mailbox is thrown away with letters in it.

Ownership is what makes this safe: each object on the heap is the parameter of one letter, or
it is lost (`OwnedBy`, with the owner of each pointer). Then what is read is what was posted
(`contents_post_self`, `contents_take_self`), and taking a letter out of one mailbox changes
nothing in the others (`contents_take_other`).
-/

/-- A letter: its kind, and the pointer to its parameter if it has one. -/
structure Letter (κ : Type) where
  kind : κ
  param : Option ℕ := none
  deriving DecidableEq, Repr

/-- Mailboxes with letters of kinds `κ`, and the heap of their parameters. -/
structure Mail (ι κ α : Type) where
  heap : Heap α := .empty
  box : ι → List (Letter κ) := fun _ => []

namespace Mail

variable {ι κ α : Type}

/-- The pointers in some letters. -/
def params (letters : List (Letter κ)) : List ℕ := letters.filterMap Letter.param

/-- What a letter says, if its parameter can be read. -/
def read (h : Heap α) (l : Letter κ) : Option (κ × Option α) :=
  match l.param with
  | none => some (l.kind, none)
  | some q => (h.cell q).map fun a => (l.kind, some a)

/-- What the letters of a mailbox say. -/
def contents (m : Mail ι κ α) (i : ι) : List (Option (κ × Option α)) :=
  (m.box i).map (read m.heap)

/-- A parameter is made, and nobody gets it. -/
def leak (m : Mail ι κ α) (a : α) : Mail ι κ α := { m with heap := m.heap.alloc a }

/-- A pointer is owned by the mailbox its letter is in, or by nobody when it is lost; the
pointers without an owner are those to no object. -/
structure OwnedBy (m : Mail ι κ α) (lost : List ℕ) (owner : ℕ → Option (Option ι)) : Prop where
  box : ∀ i q, q ∈ params (m.box i) ↔ owner q = some (some i)
  nodup : ∀ i, (params (m.box i)).Nodup
  lost : ∀ q, q ∈ lost ↔ owner q = some none
  live : ∀ q, m.heap.Live q ↔ (owner q).isSome = true

/-- Every object on the heap is the parameter of one letter, or it is lost. -/
def Owned (m : Mail ι κ α) (lost : List ℕ) : Prop := ∃ owner, OwnedBy m lost owner

/-! ### Reading -/

section Reading

variable {h h' : Heap α} {l : Letter κ} {letters : List (Letter κ)}

/-- A letter reads the same on a heap with the same object in the place of its parameter. -/
theorem read_congr (hq : ∀ q ∈ l.param, h'.cell q = h.cell q) : read h' l = read h l := by
  rw [read, read]
  cases hl : l.param with
  | none => rfl
  | some q =>
      dsimp only
      rw [hq q hl]

theorem map_read_congr (hq : ∀ q ∈ params letters, h'.cell q = h.cell q) :
    letters.map (read h') = letters.map (read h) := by
  refine List.map_congr_left fun l hl => read_congr fun q hlq => hq q ?_
  exact List.mem_filterMap.mpr ⟨l, hl, hlq⟩

theorem params_cons (l : Letter κ) (rest : List (Letter κ)) :
    params (l :: rest) = l.param.toList ++ params rest := by
  cases hl : l.param with
  | none => exact List.filterMap_cons_none hl
  | some q => exact List.filterMap_cons_some hl

end Reading

section Owned

variable {m : Mail ι κ α} {lost : List ℕ} {owner : ℕ → Option (Option ι)} {i j : ι} {q : ℕ}

theorem OwnedBy.live_of_mem (h : OwnedBy m lost owner) (hq : q ∈ params (m.box i)) :
    m.heap.Live q := by
  rw [h.live, (h.box i q).mp hq]
  rfl

theorem Owned.empty : Owned ({} : Mail ι κ α) [] := by
  refine ⟨fun _ => none, fun i q => ?_, fun _ => List.nodup_nil, fun q => ?_, fun q => ?_⟩
  · exact iff_of_false List.not_mem_nil (by simp)
  · exact iff_of_false List.not_mem_nil (by simp)
  · exact iff_of_false Bool.false_ne_true Bool.false_ne_true

/-- The frontier of the heap has no owner. -/
theorem OwnedBy.owner_next (h : OwnedBy m lost owner) : owner m.heap.next = none := by
  have hnot : ¬ m.heap.Live m.heap.next := fun hlive => hlive.ne_next rfl
  rwa [h.live, Option.not_isSome_iff_eq_none] at hnot

/-- What is made beside the letters changes none of them. -/
theorem OwnedBy.map_read_alloc (h : OwnedBy m lost owner) (a : α) (j : ι) :
    (m.box j).map (Mail.read (m.heap.alloc a)) = m.contents j :=
  map_read_congr fun q hq => by
    rw [Heap.cell_alloc, if_neg (h.live_of_mem hq).ne_next]

theorem contents_leak (h : Owned m lost) (a : α) (j : ι) :
    (m.leak a).contents j = m.contents j := by
  obtain ⟨owner, h⟩ := h
  exact h.map_read_alloc a j

/-- A parameter nobody gets is lost from the start. -/
theorem Owned.leak (h : Owned m lost) (a : α) : Owned (m.leak a) (lost ++ [m.heap.next]) := by
  obtain ⟨owner, h⟩ := h
  have hnext := h.owner_next
  refine ⟨Function.update owner m.heap.next (some none), fun i q => ?_, h.nodup, fun q => ?_,
    fun q => ?_⟩
  all_goals by_cases hq : q = m.heap.next
  · subst hq
    rw [Function.update_self]
    exact iff_of_false (fun hmem => (h.live_of_mem hmem).ne_next rfl) (by simp)
  · rw [Function.update_of_ne hq]
    exact h.box i q
  · simp [hq]
  · simp [hq, h.lost]
  · subst hq
    rw [Function.update_self, Heap.Live, Mail.leak, Heap.cell_alloc, if_pos rfl]
    rfl
  · rw [Function.update_of_ne hq, ← h.live, Heap.Live, Mail.leak, Heap.cell_alloc, if_neg hq]
    rfl

end Owned

variable [DecidableEq ι]

/-- A letter is posted, with a parameter made for it. -/
def post (m : Mail ι κ α) (i : ι) (kind : κ) : Option α → Mail ι κ α
  | none => { m with box := Function.update m.box i (m.box i ++ [⟨kind, none⟩]) }
  | some a =>
      { heap := m.heap.alloc a
        box := Function.update m.box i (m.box i ++ [⟨kind, some m.heap.next⟩]) }

/-- The first letter is taken out, and its parameter destroyed. -/
def take (m : Mail ι κ α) (i : ι) : Mail ι κ α :=
  match m.box i with
  | [] => m
  | l :: rest =>
      { heap := l.param.elim m.heap m.heap.free, box := Function.update m.box i rest }

/-- A mailbox is thrown away. -/
def discard (m : Mail ι κ α) (i : ι) : Mail ι κ α :=
  { m with box := Function.update m.box i [] }

section Change

variable {m : Mail ι κ α} {lost : List ℕ} {i j : ι} {kind : κ} {l : Letter κ}
  {rest : List (Letter κ)}

/-! ### Posting -/

/-- A posted letter is at the end of its mailbox. -/
theorem contents_post_self (h : Owned m lost) (x : Option α) :
    (m.post i kind x).contents i = m.contents i ++ [some (kind, x)] := by
  obtain ⟨owner, h⟩ := h
  cases x with
  | none => simp [post, contents, read]
  | some a =>
      have hold := h.map_read_alloc a i
      have hnew : read (m.heap.alloc a) ⟨kind, some m.heap.next⟩ = some (kind, some a) := by
        simp [read, Heap.cell_alloc]
      simp only [post, contents, Function.update_self, List.map_append, List.map_cons,
        List.map_nil, hnew, hold]

theorem contents_post_other (h : Owned m lost) (x : Option α) (hj : j ≠ i) :
    (m.post i kind x).contents j = m.contents j := by
  obtain ⟨owner, h⟩ := h
  cases x with
  | none => simp only [post, contents, Function.update_of_ne hj]
  | some a =>
      simp only [post, contents, Function.update_of_ne hj]
      exact h.map_read_alloc a j

theorem Owned.post (h : Owned m lost) (i : ι) (kind : κ) (x : Option α) :
    Owned (m.post i kind x) lost := by
  obtain ⟨owner, h⟩ := h
  cases x with
  | none =>
      have hparams : ∀ j, params ((m.post i kind none).box j) = params (m.box j) := by
        intro j
        by_cases hj : j = i
        · subst hj
          simp [Mail.post, params]
        · simp [Mail.post, hj]
      refine ⟨owner, fun j q => ?_, fun j => ?_, h.lost, h.live⟩
      · rw [hparams]
        exact h.box j q
      · rw [hparams]
        exact h.nodup j
  | some a =>
      have hnext := h.owner_next
      have hfresh : ∀ j, m.heap.next ∉ params (m.box j) := fun j hmem =>
        (h.live_of_mem hmem).ne_next rfl
      have hparams : ∀ j, params ((m.post i kind (some a)).box j) =
          if j = i then params (m.box i) ++ [m.heap.next] else params (m.box j) := by
        intro j
        by_cases hj : j = i
        · subst hj
          simp [Mail.post, params]
        · simp [Mail.post, hj]
      refine ⟨Function.update owner m.heap.next (some (some i)), fun j q => ?_, fun j => ?_,
        fun q => ?_, fun q => ?_⟩
      · rw [hparams]
        by_cases hq : q = m.heap.next
        · subst hq
          rw [Function.update_self, Option.some_inj, Option.some_inj]
          by_cases hj : j = i
          · simp [hj]
          · rw [if_neg hj]
            exact iff_of_false (hfresh j) (Ne.symm hj)
        · rw [Function.update_of_ne hq, ← h.box]
          by_cases hj : j = i
          · simp [hj, hq]
          · rw [if_neg hj]
      · rw [hparams]
        split_ifs with hj
        · refine List.nodup_append.mpr ⟨h.nodup i, List.nodup_singleton _, ?_⟩
          rintro q hq q' hq' rfl
          rw [List.mem_singleton.mp hq'] at hq
          exact hfresh i hq
        · exact h.nodup j
      · rw [h.lost]
        by_cases hq : q = m.heap.next
        · subst hq
          rw [Function.update_self, hnext]
          simp
        · rw [Function.update_of_ne hq]
      · by_cases hq : q = m.heap.next
        · subst hq
          rw [Function.update_self, Heap.Live, Mail.post, Heap.cell_alloc, if_pos rfl]
          rfl
        · rw [Function.update_of_ne hq, ← h.live, Heap.Live, Mail.post, Heap.cell_alloc,
            if_neg hq]
          rfl

/-! ### Taking -/

theorem take_cons (hbox : m.box i = l :: rest) : m.take i =
    { heap := l.param.elim m.heap m.heap.free, box := Function.update m.box i rest } := by
  rw [Mail.take, hbox]

/-- Taking a letter destroys its parameter and nothing else. -/
theorem cell_take (hbox : m.box i = l :: rest) {q : ℕ} :
    (m.take i).heap.cell q = if l.param = some q then none else m.heap.cell q := by
  rw [take_cons hbox]
  cases l.param with
  | none => rfl
  | some q' =>
      dsimp only [Option.elim_some]
      rw [Heap.cell_free]
      simp only [Option.some_inj, eq_comm]

theorem Owned.take (h : Owned m lost) (hbox : m.box i = l :: rest) : Owned (m.take i) lost := by
  obtain ⟨owner, h⟩ := h
  have hparams : params (m.box i) = l.param.toList ++ params rest := by rw [hbox, params_cons]
  have hnodup := h.nodup i
  rw [hparams] at hnodup
  have hbox' : ∀ j, (m.take i).box j = if j = i then rest else m.box j := by
    intro j
    rw [take_cons hbox]
    exact Function.update_apply ..
  -- the parameter of the letter belonged to this mailbox, and is in no other letter of it
  have howner : ∀ q, l.param = some q → owner q = some (some i) ∧ q ∉ params rest := by
    intro q hq
    have hl : q ∈ l.param.toList := Option.mem_toList.mpr hq
    refine ⟨(h.box i q).mp (hparams ▸ List.mem_append_left _ hl), fun hrest => ?_⟩
    exact (List.nodup_append.mp hnodup).2.2 q hl q hrest rfl
  refine ⟨fun q => if l.param = some q then none else owner q, fun j q => ?_, fun j => ?_,
    fun q => ?_, fun q => ?_⟩
  · rw [hbox']
    by_cases hq : l.param = some q
    · obtain ⟨hown, hrest⟩ := howner q hq
      rw [if_pos hq]
      refine iff_of_false ?_ (by simp)
      split_ifs with hj
      · exact hrest
      · rw [h.box, hown, Option.some_inj, Option.some_inj]
        exact Ne.symm hj
    · rw [if_neg hq, ← h.box]
      split_ifs with hj
      · rw [hj, hparams, List.mem_append, Option.mem_toList]
        exact (or_iff_right hq).symm
      · rfl
  · rw [hbox']
    split_ifs
    · exact hnodup.of_append_right
    · exact h.nodup j
  · rw [h.lost]
    by_cases hq : l.param = some q
    · rw [if_pos hq, (howner q hq).1]
      simp
    · rw [if_neg hq]
  · rw [Heap.Live, cell_take hbox]
    by_cases hq : l.param = some q
    · simp [hq]
    · rw [if_neg hq, if_neg hq]
      exact h.live q

/-- What is left in a mailbox says what it said. -/
theorem contents_take_self (h : Owned m lost) (hbox : m.box i = l :: rest) :
    m.contents i = read m.heap l :: (m.take i).contents i := by
  obtain ⟨owner, h⟩ := h
  have hnodup := h.nodup i
  rw [hbox, params_cons] at hnodup
  have hrest : rest.map (read (m.take i).heap) = rest.map (read m.heap) := by
    refine map_read_congr fun q hq => ?_
    rw [cell_take hbox, if_neg]
    intro hl
    exact (List.nodup_append.mp hnodup).2.2 q (Option.mem_toList.mpr hl) q hq rfl
  have hbox' : (m.take i).box i = rest := by
    rw [take_cons hbox]
    exact Function.update_self ..
  rw [contents, contents, hbox, hbox', List.map_cons, hrest]

/-- The letters of other mailboxes say what they said. -/
theorem contents_take_other (h : Owned m lost) (hj : j ≠ i) :
    (m.take i).contents j = m.contents j := by
  cases hbox : m.box i with
  | nil => rw [Mail.take, hbox]
  | cons l rest =>
      obtain ⟨owner, h⟩ := h
      have hbox' : (m.take i).box j = m.box j := by
        rw [take_cons hbox]
        exact Function.update_of_ne hj ..
      rw [contents, contents, hbox']
      refine map_read_congr fun q hq => ?_
      rw [cell_take hbox, if_neg]
      intro hl
      have hmem : q ∈ params (m.box i) := by
        rw [hbox, params_cons]
        exact List.mem_append_left _ (Option.mem_toList.mpr hl)
      have howner := ((h.box i q).mp hmem).symm.trans ((h.box j q).mp hq)
      rw [Option.some_inj, Option.some_inj] at howner
      exact hj howner.symm

/-! ### Throwing away -/

theorem Owned.discard (h : Owned m lost) (i : ι) :
    Owned (m.discard i) (lost ++ params (m.box i)) := by
  obtain ⟨owner, h⟩ := h
  refine ⟨fun q => if owner q = some (some i) then some none else owner q, fun j q => ?_,
    fun j => ?_, fun q => ?_, fun q => ?_⟩
  · have hbox : (m.discard i).box j = if j = i then [] else m.box j := Function.update_apply ..
    rw [hbox]
    by_cases hq : owner q = some (some i)
    · rw [if_pos hq]
      refine iff_of_false ?_ (by simp)
      split_ifs with hj
      · exact List.not_mem_nil
      · rw [h.box, hq, Option.some_inj, Option.some_inj]
        exact Ne.symm hj
    · rw [if_neg hq]
      split_ifs with hj
      · subst hj
        exact iff_of_false List.not_mem_nil hq
      · exact h.box j q
  · have hbox : (m.discard i).box j = if j = i then [] else m.box j := Function.update_apply ..
    rw [hbox]
    split_ifs
    · exact List.nodup_nil
    · exact h.nodup j
  · rw [List.mem_append, h.lost, h.box]
    by_cases hq : owner q = some (some i)
    · simp [hq]
    · simp [hq]
  · rw [Mail.discard, h.live]
    by_cases hq : owner q = some (some i)
    · simp [hq]
    · rw [if_neg hq]

theorem contents_discard_other (hj : j ≠ i) : (m.discard i).contents j = m.contents j := by
  have hbox : (m.discard i).box j = m.box j := Function.update_of_ne hj ..
  rw [contents, contents, hbox]
  rfl

end Change

end Mail
