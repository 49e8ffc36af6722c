import Mathlib.Data.List.Basic
import Mathlib.Data.Nat.Notation

/-!
# Valid UTF-8

A text is valid UTF-8 if it is the encoding of a sequence of characters. What is needed of it
here is how it is put together of parts: a byte below 128 is a character of its own and no
part of another, so a text is valid exactly if what stands before and behind such a byte is
(`valid_append_cons`). Escaping characters of that kind by others of that kind changes nothing
(`valid_flatMap`).
-/

namespace Utf8

variable {a b s : List UInt8} {c : UInt8}

/-- The text is the encoding of a sequence of characters. -/
def Valid (b : List UInt8) : Prop := ∃ cs : List Char, cs.flatMap String.utf8EncodeChar = b

instance (b : List UInt8) : Decidable (Valid b) :=
  decidable_of_iff b.toByteArray.IsValidUTF8 <| by
    constructor
    · rintro ⟨cs, hcs⟩
      exact ⟨cs, (List.toByteArray_inj.mp hcs).symm⟩
    · rintro ⟨cs, rfl⟩
      exact ⟨cs, rfl⟩

/-- The encoding of a character is one byte below 128, or it has none. -/
theorem encode_cases (x : Char) :
    (∃ c, c.toNat < 128 ∧ String.utf8EncodeChar x = [c]) ∨
      ∀ c ∈ String.utf8EncodeChar x, 128 ≤ c.toNat := by
  by_cases hx : x.val.toNat ≤ 127
  · refine .inl ⟨UInt8.ofNat x.val.toNat, ?_, by simp only [String.utf8EncodeChar, hx, if_true]⟩
    rw [UInt8.toNat_ofNat']
    omega
  · refine .inr fun c hc => ?_
    simp only [String.utf8EncodeChar, hx, if_false] at hc
    split at hc
    · simp only [List.mem_cons, List.not_mem_nil, or_false] at hc
      rcases hc with rfl | rfl <;> rw [UInt8.toNat_ofNat'] <;> omega
    · split at hc
      · simp only [List.mem_cons, List.not_mem_nil, or_false] at hc
        rcases hc with rfl | rfl | rfl <;> rw [UInt8.toNat_ofNat'] <;> omega
      · simp only [List.mem_cons, List.not_mem_nil, or_false] at hc
        rcases hc with rfl | rfl | rfl | rfl <;> rw [UInt8.toNat_ofNat'] <;> omega

/-- A byte below 128 is the encoding of a character. -/
theorem exists_encode (hc : c.toNat < 128) : ∃ x, String.utf8EncodeChar x = [c] := by
  have hval : (Char.ofUInt8 c).val.toNat = c.toNat := UInt8.toNat_toUInt32 c
  have hle : c.toNat ≤ 127 := Nat.le_of_lt_succ hc
  refine ⟨Char.ofUInt8 c, ?_⟩
  simp only [String.utf8EncodeChar, hval, hle, if_true, UInt8.ofNat_toNat]

theorem valid_nil : Valid [] := ⟨[], rfl⟩

theorem Valid.append (ha : Valid a) (hb : Valid b) : Valid (a ++ b) := by
  obtain ⟨cs, rfl⟩ := ha
  obtain ⟨ds, rfl⟩ := hb
  exact ⟨cs ++ ds, List.flatMap_append⟩

theorem valid_encode (x : Char) : Valid (String.utf8EncodeChar x) :=
  ⟨[x], List.flatMap_singleton ..⟩

/-- **A byte below 128 divides a text.** -/
theorem valid_append_cons (hc : c.toNat < 128) : Valid (a ++ c :: b) ↔ Valid a ∧ Valid b := by
  constructor
  · rintro ⟨cs, hcs⟩
    induction cs generalizing a with
    | nil => simp at hcs
    | cons x cs ih =>
        rw [List.flatMap_cons] at hcs
        rcases List.append_eq_append_iff.mp hcs with ⟨a', rfl, hrest⟩ | ⟨d, hx, hrest⟩
        · -- the first character lies before the byte
          obtain ⟨ha', hb⟩ := ih hrest
          exact ⟨(valid_encode x).append ha', hb⟩
        · cases d with
          | nil =>
              obtain ⟨-, hb⟩ := ih (a := []) hrest.symm
              rw [List.append_nil] at hx
              exact ⟨hx ▸ valid_encode x, hb⟩
          | cons e d =>
              -- the byte is in the first character, so it is that character
              obtain ⟨rfl, rfl⟩ := List.cons_eq_cons.mp hrest
              rcases encode_cases x with ⟨c', -, hone⟩ | hhigh
              · obtain ⟨rfl, hd⟩ : a = [] ∧ d = [] := by
                  have hlen := congrArg List.length (hone.symm.trans hx)
                  simp only [List.length_append, List.length_cons, List.length_nil] at hlen
                  exact ⟨List.length_eq_zero_iff.mp (by omega),
                    List.length_eq_zero_iff.mp (by omega)⟩
                exact ⟨valid_nil, cs, by rw [hd]; rfl⟩
              · have hge := hhigh c (hx ▸ by simp)
                omega
  · rintro ⟨ha, hb⟩
    obtain ⟨x, hx⟩ := exists_encode hc
    have hone : Valid [c] := hx ▸ valid_encode x
    exact ha.append (hone.append hb)

theorem valid_cons (hc : c.toNat < 128) : Valid (c :: b) ↔ Valid b := by
  rw [← List.nil_append (c :: b), valid_append_cons hc]
  exact and_iff_right valid_nil

theorem valid_append_of_ascii (ha : ∀ c ∈ a, c.toNat < 128) : Valid (a ++ b) ↔ Valid b := by
  induction a with
  | nil => rfl
  | cons c a ih =>
      obtain ⟨hc, ha⟩ := List.forall_mem_cons.mp ha
      rw [List.cons_append, valid_cons hc, ih ha]

theorem valid_of_ascii (ha : ∀ c ∈ a, c.toNat < 128) : Valid a := by
  have h := (valid_append_of_ascii (b := []) ha).mpr valid_nil
  rwa [List.append_nil] at h

/-- **Escaping.** Where each byte below 128 is replaced by some bytes below 128, and each other
byte stays, a text stays valid or invalid. -/
theorem valid_flatMap {f : UInt8 → List UInt8}
    (hlow : ∀ c, c.toNat < 128 → f c ≠ [] ∧ ∀ d ∈ f c, d.toNat < 128)
    (hhigh : ∀ c, 128 ≤ c.toNat → f c = [c]) : Valid (s.flatMap f) ↔ Valid s := by
  -- the bytes since the last one below 128 are kept aside
  have haux : ∀ a, Valid (a ++ s.flatMap f) ↔ Valid (a ++ s) := by
    induction s with
    | nil => simp
    | cons c s ih =>
        intro a
        rw [List.flatMap_cons]
        rcases Nat.lt_or_ge c.toNat 128 with hc | hc
        · obtain ⟨hne, hall⟩ := hlow c hc
          obtain ⟨d, ds, hd⟩ := List.exists_cons_of_ne_nil hne
          rw [hd] at hall ⊢
          obtain ⟨hd, hds⟩ := List.forall_mem_cons.mp hall
          rw [List.cons_append, valid_append_cons hd, valid_append_of_ascii hds,
            valid_append_cons hc]
          exact and_congr_right fun _ => ih []
        · rw [hhigh c hc, ← List.append_assoc, ih, List.append_assoc]
          rfl
  exact haux []

end Utf8
