import Mathlib.Data.Finset.Card
import Mathlib.Data.Finset.Range
import UCClient.Runs

/-!
# Histories

Properties of a history — a list, the latest element last — with the rule by which each
grows with the history.

* `Since p q l`: an element with `p` occurred, and none with `q` after it. This is the
  past-time operator "since"; `since_snoc` unfolds it by one element. In `SinceAt p q l`
  both properties may also look at what came before the element.
* `AtEach C l`: each element meets the condition `C` on it and on what came before it.
  `allSteps_iff_atEach` turns a condition on the steps of a run into one on its actions.
* `Matched gives takes l`: some elements give a token and some take one; each that takes
  can be assigned an earlier one that gave the same token, and no two the same. Whether a
  further element can still take its token is a matter of counting (`Matched.snoc`).
-/

variable {α κ : Type}

/-! ### Since -/

/-- An element with `p` occurred, and since then none with `q`. -/
def Since (p q : α → Prop) (l : List α) : Prop :=
  ∃ pre a post, l = pre ++ a :: post ∧ p a ∧ ∀ b ∈ post, ¬ q b

/-- The same for properties of an element and what came before it. -/
def SinceAt (p q : List α → α → Prop) (l : List α) : Prop :=
  ∃ pre a post, l = pre ++ a :: post ∧ p pre a ∧
    ∀ mid b rest, post = mid ++ b :: rest → ¬ q (pre ++ a :: mid) b

section SinceAt

variable {p q p' q' : List α → α → Prop} {l : List α} {a : α}

theorem not_sinceAt_nil : ¬ SinceAt p q [] := by
  rintro ⟨pre, a, post, h, -⟩
  simp at h

/-- **One more element**: it counts itself, or it does not end what was there. -/
theorem sinceAt_snoc : SinceAt p q (l ++ [a]) ↔ p l a ∨ SinceAt p q l ∧ ¬ q l a := by
  constructor
  · rintro ⟨pre, b, post, heq, hp, hq⟩
    rcases List.eq_nil_or_concat post with rfl | ⟨post', c, rfl⟩
    · obtain ⟨rfl, hab⟩ := List.append_inj' heq rfl
      cases hab
      exact .inl hp
    · rw [List.concat_eq_append] at heq hq
      have heq' : l ++ [a] = (pre ++ b :: post') ++ [c] := by simpa using heq
      obtain ⟨rfl, hac⟩ := List.append_inj' heq' rfl
      cases hac
      refine .inr ⟨⟨pre, b, post', rfl, hp, fun mid x rest hx => ?_⟩, hq post' a [] rfl⟩
      exact hq mid x (rest ++ [a]) (by simp [hx])
  · rintro (hp | ⟨⟨pre, b, post, rfl, hp, hq⟩, hqa⟩)
    · exact ⟨l, a, [], rfl, hp, fun mid x rest hx => by simp at hx⟩
    · refine ⟨pre, b, post ++ [a], by simp, hp, fun mid x rest hx => ?_⟩
      rcases List.eq_nil_or_concat rest with rfl | ⟨rest', c, rfl⟩
      · obtain ⟨rfl, hax⟩ := List.append_inj' hx rfl
        cases hax
        exact hqa
      · rw [List.concat_eq_append] at hx
        have hx' : post ++ [a] = (mid ++ x :: rest') ++ [c] := by simpa using hx
        exact hq mid x rest' (List.append_inj' hx' rfl).1

theorem SinceAt.mono (h : SinceAt p q l) (hp : ∀ past a, p past a → p' past a)
    (hq : ∀ past a, q' past a → q past a) : SinceAt p' q' l := by
  obtain ⟨pre, a, post, hl, ha, hpost⟩ := h
  exact ⟨pre, a, post, hl, hp pre a ha, fun mid b rest hb hb' => hpost mid b rest hb (hq _ b hb')⟩

theorem sinceAt_exists {β : Type} {p : β → List α → α → Prop} :
    SinceAt (fun past a => ∃ x, p x past a) q l ↔ ∃ x, SinceAt (p x) q l := by
  constructor
  · rintro ⟨pre, a, post, hl, ⟨x, hx⟩, hpost⟩
    exact ⟨x, pre, a, post, hl, hx, hpost⟩
  · rintro ⟨x, h⟩
    exact h.mono (fun _ _ hx => ⟨x, hx⟩) fun _ _ => id

end SinceAt

theorem since_iff_sinceAt {p q : α → Prop} {l : List α} :
    Since p q l ↔ SinceAt (fun _ => p) (fun _ => q) l := by
  constructor
  · rintro ⟨pre, a, post, hl, hp, hq⟩
    exact ⟨pre, a, post, hl, hp, fun mid b rest hb => hq b (by simp [hb])⟩
  · rintro ⟨pre, a, post, hl, hp, hq⟩
    refine ⟨pre, a, post, hl, hp, fun b hb => ?_⟩
    obtain ⟨mid, rest, hsplit⟩ := List.append_of_mem hb
    exact hq mid b rest hsplit

theorem not_since_nil {p q : α → Prop} : ¬ Since p q [] :=
  fun h => not_sinceAt_nil (since_iff_sinceAt.mp h)

theorem since_snoc {p q : α → Prop} {l : List α} {a : α} :
    Since p q (l ++ [a]) ↔ p a ∨ Since p q l ∧ ¬ q a := by
  rw [since_iff_sinceAt, sinceAt_snoc, since_iff_sinceAt]

/-- What was since depends on what is looked at of the elements. -/
theorem since_map {β : Type} {f : α → β} {p q : β → Prop} {l : List α} :
    Since p q (l.map f) ↔ Since (fun a => p (f a)) (fun a => q (f a)) l := by
  induction l using List.reverseRecOn with
  | nil => exact iff_of_false not_since_nil not_since_nil
  | append_singleton l a ih =>
      rw [List.map_append, List.map_singleton, since_snoc, since_snoc, ih]

/-! ### Conditions on each element -/

/-- Each element, with what came before it, meets the condition. -/
def AtEach (C : List α → α → Prop) (l : List α) : Prop := ∀ past a, past ++ [a] <+: l → C past a

theorem atEach_nil {C : List α → α → Prop} : AtEach C [] := by
  intro past a h
  simp at h

theorem atEach_snoc {C : List α → α → Prop} {l : List α} {a : α} :
    AtEach C (l ++ [a]) ↔ AtEach C l ∧ C l a := by
  constructor
  · intro h
    exact ⟨fun past b hp => h past b (hp.trans (List.prefix_append l [a])),
      h l a List.prefix_rfl⟩
  · rintro ⟨hall, hlast⟩ past b hp
    rcases List.prefix_concat_iff.mp hp with heq | hp'
    · obtain ⟨rfl, hab⟩ := List.append_inj' heq rfl
      cases hab
      exact hlast
    · exact hall past b hp'

theorem AtEach.of_prefix {C : List α → α → Prop} {l l' : List α} (h : AtEach C l)
    (hp : l' <+: l) : AtEach C l' :=
  fun past a ha => h past a (ha.trans hp)

/-- **A condition on the steps of a run as one on its actions.** -/
theorem StepSystem.allSteps_iff_atEach {σ ε : Type} {S : StepSystem σ α ε} {D : σ → α → Prop}
    {C : List α → α → Prop} (hiff : ∀ as s a, S.Run as s → (D s a ↔ C as a)) {as : List α} {s : σ}
    (h : S.Run as s) : S.AllSteps as D ↔ AtEach C as := by
  induction h with
  | nil => exact iff_of_true (fun bs a t hp => by simp at hp) atEach_nil
  | @snoc as s s' a hrun _ _ ih => rw [allSteps_snoc hrun, atEach_snoc, ih, hiff as s a hrun]

/-! ### Deciding them -/

section Decide

/-- One pass over a history that keeps what came before. -/
def foldPast {β : Type} (f : List α → α → β → β) (init : β) (l : List α) : β :=
  (l.foldl (fun s a => (s.1 ++ [a], f s.1 a s.2)) ([], init)).2

theorem foldPast_snoc {β : Type} (f : List α → α → β → β) (init : β) (l : List α) (a : α) :
    foldPast f init (l ++ [a]) = f l a (foldPast f init l) := by
  have hpast : ∀ l : List α,
      (l.foldl (fun (s : List α × β) a => (s.1 ++ [a], f s.1 a s.2)) ([], init)).1 = l := by
    intro l
    induction l using List.reverseRecOn with
    | nil => rfl
    | append_singleton l a ih => rw [List.foldl_append, List.foldl_cons, List.foldl_nil, ih]
  rw [foldPast, List.foldl_append, List.foldl_cons, List.foldl_nil, hpast]
  rfl

variable {p q C : List α → α → Prop}

theorem sinceAt_iff_foldPast [∀ l a, Decidable (p l a)] [∀ l a, Decidable (q l a)] {l : List α} :
    foldPast (fun past a r => decide (p past a) || r && !decide (q past a)) false l = true ↔
      SinceAt p q l := by
  induction l using List.reverseRecOn with
  | nil => exact iff_of_false Bool.false_ne_true not_sinceAt_nil
  | append_singleton l a ih =>
      rw [foldPast_snoc, sinceAt_snoc, ← ih]
      simp

instance [∀ l a, Decidable (p l a)] [∀ l a, Decidable (q l a)] (l : List α) :
    Decidable (SinceAt p q l) :=
  decidable_of_iff _ sinceAt_iff_foldPast

instance (p q : α → Prop) [DecidablePred p] [DecidablePred q] (l : List α) :
    Decidable (Since p q l) :=
  decidable_of_iff _ since_iff_sinceAt.symm

theorem atEach_iff_foldPast [∀ l a, Decidable (C l a)] {l : List α} :
    foldPast (fun past a r => r && decide (C past a)) true l = true ↔ AtEach C l := by
  induction l using List.reverseRecOn with
  | nil => exact iff_of_true rfl atEach_nil
  | append_singleton l a ih =>
      rw [foldPast_snoc, atEach_snoc, ← ih]
      simp

instance [∀ l a, Decidable (C l a)] (l : List α) : Decidable (AtEach C l) :=
  decidable_of_iff _ atEach_iff_foldPast

end Decide

/-! ### Places in a history -/

/-- The places of a list at which `p` holds. -/
def places (l : List α) (p : α → Bool) : Finset ℕ :=
  (Finset.range l.length).filter fun i => ∃ a ∈ l[i]?, p a = true

theorem mem_places {l : List α} {p : α → Bool} {i : ℕ} :
    i ∈ places l p ↔ ∃ a, l[i]? = some a ∧ p a = true := by
  simp only [places, Finset.mem_filter, Finset.mem_range, Option.mem_def, and_iff_right_iff_imp]
  rintro ⟨a, ha, -⟩
  exact (List.getElem?_eq_some_iff.mp ha).1

theorem places_snoc (l : List α) (a : α) (p : α → Bool) :
    places (l ++ [a]) p = if p a then insert l.length (places l p) else places l p := by
  ext i
  have hsplit : i ∈ places (l ++ [a]) p ↔ i ∈ places l p ∨ i = l.length ∧ p a = true := by
    simp only [mem_places]
    rcases Nat.lt_trichotomy i l.length with hi | rfl | hi
    · rw [List.getElem?_append_left hi]
      simp [Nat.ne_of_lt hi]
    · simp
    · rw [List.getElem?_eq_none (by simp; omega), List.getElem?_eq_none (by omega)]
      simp [Nat.ne_of_gt hi]
  rw [hsplit]
  by_cases ha : p a = true
  · simp [ha, or_comm]
  · simp [ha]

/-- There are as many places as elements. -/
theorem card_places (l : List α) (p : α → Bool) : (places l p).card = l.countP p := by
  induction l using List.reverseRecOn with
  | nil => rfl
  | append_singleton l a ih =>
      have hnew : l.length ∉ places l p := by
        rw [mem_places]
        rintro ⟨b, hb, -⟩
        simp at hb
      rw [places_snoc, List.countP_append]
      by_cases ha : p a = true
      · rw [if_pos ha, Finset.card_insert_of_notMem hnew, ih]
        simp [ha]
      · rw [if_neg ha, ih]
        simp [ha]

/-! ### Matchings -/

/-- Each element that takes a token is assigned an earlier one that gave it, and different
ones different ones. -/
def Matched (gives takes : α → Option κ) (l : List α) : Prop :=
  ∃ f : ℕ → ℕ,
    (∀ i a k, l[i]? = some a → takes a = some k →
      f i < i ∧ ∃ b, l[f i]? = some b ∧ gives b = some k) ∧
    ∀ i j a b, l[i]? = some a → l[j]? = some b → takes a ≠ none → takes b ≠ none →
      f i = f j → i = j

namespace Matched

variable {gives takes : α → Option κ} {l : List α} {a : α} {k : κ}

theorem nil : Matched gives takes ([] : List α) := by
  refine ⟨id, ?_, ?_⟩ <;> intros <;> simp_all

/-- What stands at a place stays there when the list grows. -/
theorem getElem?_append {i : ℕ} {b : α} (h : l[i]? = some b) (l' : List α) :
    (l ++ l')[i]? = some b := by
  rw [List.getElem?_append_left (List.getElem?_eq_some_iff.mp h).1, h]

theorem of_append {l' : List α} (h : Matched gives takes (l ++ l')) : Matched gives takes l := by
  obtain ⟨f, hf, hinj⟩ := h
  refine ⟨f, fun i b k hb hk => ?_, fun i j b c hb hc =>
    hinj i j b c (getElem?_append hb l') (getElem?_append hc l')⟩
  obtain ⟨hlt, d, hd, hg⟩ := hf i b k (getElem?_append hb l') hk
  have hi := (List.getElem?_eq_some_iff.mp hb).1
  rw [List.getElem?_append_left (by omega)] at hd
  exact ⟨hlt, d, hd, hg⟩

/-- What stands at a place of a longer list. -/
theorem getElem?_snoc {i : ℕ} {b : α} (h : (l ++ [a])[i]? = some b) :
    l[i]? = some b ∧ i ≠ l.length ∨ i = l.length ∧ b = a := by
  rcases Nat.lt_or_ge i l.length with hi | hi
  · rw [List.getElem?_append_left hi] at h
    exact .inl ⟨h, by omega⟩
  · have hi' := (List.getElem?_eq_some_iff.mp h).1
    obtain rfl : i = l.length := by simp at hi'; omega
    exact .inr ⟨rfl, by simpa using h.symm⟩

/-- An element that takes nothing. -/
theorem snoc_of_none (ha : takes a = none) :
    Matched gives takes (l ++ [a]) ↔ Matched gives takes l := by
  refine ⟨of_append, ?_⟩
  rintro ⟨f, hf, hinj⟩
  have hold : ∀ (i : ℕ) b, (l ++ [a])[i]? = some b → takes b ≠ none → l[i]? = some b := by
    intro i b hb hne
    rcases getElem?_snoc hb with ⟨hb', -⟩ | ⟨-, rfl⟩
    · exact hb'
    · exact absurd ha hne
  refine ⟨f, fun i b k hb hk => ?_, fun i j b c hb hc hbn hcn => ?_⟩
  · obtain ⟨hlt, d, hd, hg⟩ := hf i b k (hold i b hb (by simp [hk])) hk
    exact ⟨hlt, d, getElem?_append hd [a], hg⟩
  · exact hinj i j b c (hold i b hb hbn) (hold j c hc hcn) hbn hcn

section Counting

variable [DecidableEq κ]

/-- There are no more elements that take a token than elements that give it. -/
theorem countP_le (h : Matched gives takes l) :
    l.countP (fun b => takes b = some k) ≤ l.countP (fun b => gives b = some k) := by
  obtain ⟨f, hf, hinj⟩ := h
  rw [← card_places, ← card_places]
  refine Finset.card_le_card_of_injOn f (fun i hi => ?_) fun i hi j hj hij => ?_
  · obtain ⟨b, hb, hk⟩ := mem_places.mp hi
    obtain ⟨-, c, hc, hg⟩ := hf i b k hb (of_decide_eq_true hk)
    exact mem_places.mpr ⟨c, hc, decide_eq_true hg⟩
  · obtain ⟨b, hb, hbk⟩ := mem_places.mp hi
    obtain ⟨c, hc, hck⟩ := mem_places.mp hj
    refine hinj i j b c hb hc ?_ ?_ hij
    · simp [of_decide_eq_true hbk]
    · simp [of_decide_eq_true hck]

/-- While more elements gave a token than took it, one of those is not assigned. -/
theorem exists_unassigned {f : ℕ → ℕ}
    (hlt : l.countP (fun b => takes b = some k) < l.countP (fun b => gives b = some k)) :
    ∃ (m : ℕ) (d : α), l[m]? = some d ∧ gives d = some k ∧
      ∀ (i : ℕ) b, l[i]? = some b → takes b = some k → f i ≠ m := by
  rw [← card_places, ← card_places] at hlt
  have himage : ((places l fun b => takes b = some k).image f).card <
      (places l fun b => gives b = some k).card :=
    Nat.lt_of_le_of_lt Finset.card_image_le hlt
  obtain ⟨m, hm, hfree⟩ := Finset.exists_mem_notMem_of_card_lt_card himage
  obtain ⟨d, hd, hdk⟩ := mem_places.mp hm
  refine ⟨m, d, hd, of_decide_eq_true hdk, fun i b hb hk hfi => hfree ?_⟩
  exact Finset.mem_image.mpr ⟨i, mem_places.mpr ⟨b, hb, decide_eq_true hk⟩, hfi⟩

/-- A new element that takes a token is assigned a free one. -/
theorem snoc_of_countP_lt (h : Matched gives takes l) (ha : takes a = some k)
    (hlt : l.countP (fun b => takes b = some k) < l.countP (fun b => gives b = some k)) :
    Matched gives takes (l ++ [a]) := by
  obtain ⟨f, hf, hinj⟩ := h
  obtain ⟨m, d, hd, hdk, hfree⟩ := exists_unassigned (f := f) hlt
  have hnew : ∀ (i : ℕ) b, l[i]? = some b → takes b ≠ none → f i ≠ m := by
    intro i b hb hne hfi
    obtain ⟨k', hk'⟩ := Option.ne_none_iff_exists'.mp hne
    obtain ⟨-, e, he, hek⟩ := hf i b k' hb hk'
    rw [hfi, hd] at he
    cases he
    obtain rfl : k = k' := Option.some.inj (hdk.symm.trans hek)
    exact hfree i b hb hk' hfi
  refine ⟨Function.update f l.length m, fun i b k' hb hk' => ?_,
    fun i j b c hb hc hbn hcn hij => ?_⟩
  · rcases getElem?_snoc hb with ⟨hb', hne⟩ | ⟨rfl, rfl⟩
    · rw [Function.update_of_ne hne]
      obtain ⟨hlt', e, he, hek⟩ := hf i b k' hb' hk'
      exact ⟨hlt', e, getElem?_append he [_], hek⟩
    · rw [Function.update_self]
      obtain rfl : k = k' := Option.some.inj (ha.symm.trans hk')
      exact ⟨(List.getElem?_eq_some_iff.mp hd).1, d, getElem?_append hd [_], hdk⟩
  · rcases getElem?_snoc hb with ⟨hb', hi⟩ | ⟨rfl, -⟩ <;>
      rcases getElem?_snoc hc with ⟨hc', hj⟩ | ⟨rfl, -⟩
    · rw [Function.update_of_ne hi, Function.update_of_ne hj] at hij
      exact hinj i j b c hb' hc' hbn hcn hij
    · rw [Function.update_of_ne hi, Function.update_self] at hij
      exact absurd hij (hnew i b hb' hbn)
    · rw [Function.update_of_ne hj, Function.update_self] at hij
      exact absurd hij.symm (hnew j c hc' hcn)
    · rfl

/-- **An element that takes a token** can be matched exactly when more gave the token than
have taken it. -/
theorem snoc (ha : takes a = some k) (hg : gives a = none) :
    Matched gives takes (l ++ [a]) ↔ Matched gives takes l ∧
      l.countP (fun b => takes b = some k) < l.countP (fun b => gives b = some k) := by
  refine ⟨fun h => ⟨h.of_append, ?_⟩, fun ⟨h, hlt⟩ => h.snoc_of_countP_lt ha hlt⟩
  have hle := h.countP_le (k := k)
  rw [List.countP_append, List.countP_append] at hle
  simp [ha, hg] at hle
  omega

end Counting

end Matched
