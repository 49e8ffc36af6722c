import UCClient.JsonReading
import UCClient.JsonWriting

/-!
# Reading Back What Was Written

`FastWriter` and `Reader` are the two ends of one format. Not every value survives the way
through it: the writer cuts strings and names at their first NUL, an unsigned number of 31
bits is read as a signed one, and the reader gives up on an integer one digit before the end
of its range, so that the last few become real numbers. The values that do survive are the
canonical ones, and they are exactly the values the reader makes.

The reader keeps the members of an object in `strcmp` order, the order of their `std::map`;
a member whose name is behind all others is put at the end (`insertMember_append`), so the
members of a canonical object are found in place again.

## Main results

* `Reader.parse_canonical`: the reader makes canonical values.
* `reads_back_iff`: a value without a real number is read back as it was written exactly if
  it is canonical.
* `read_write_read`: what was once read can be written and read any number of times.
-/

namespace UCClient

open Json JsonText

namespace Value

/-! ### The order of members -/

theorem strcmpLt_irrefl (a : Bytes) : strcmpLt a a = false := by
  induction a with
  | nil => rfl
  | cons c a ih => rw [strcmpLt, if_pos rfl, ih]

theorem strcmpLt_trans : ∀ {a b c : Bytes}, strcmpLt a b = true → strcmpLt b c = true →
    strcmpLt a c = true
  | [], [], _, h, _ => by cases h
  | [], _ :: _, [], _, h => by cases h
  | [], _ :: _, _ :: _, _, _ => rfl
  | _ :: _, [], _, h, _ => by cases h
  | _ :: _, _ :: _, [], _, h => by cases h
  | x :: a, y :: b, z :: c, hab, hbc => by
      rw [strcmpLt] at hab hbc ⊢
      by_cases hxy : x = y
      · subst hxy
        rw [if_pos rfl] at hab
        by_cases hxz : x = z
        · rw [if_pos hxz] at hbc ⊢
          exact strcmpLt_trans hab hbc
        · rwa [if_neg hxz] at hbc ⊢
      · rw [if_neg hxy, decide_eq_true_eq] at hab
        by_cases hyz : y = z
        · subst hyz
          rw [if_neg hxy]
          exact decide_eq_true hab
        · rw [if_neg hyz, decide_eq_true_eq] at hbc
          have hlt := UInt8.lt_trans hab hbc
          rw [if_neg (UInt8.ne_of_lt hlt)]
          exact decide_eq_true hlt

/-- Of two different names one is before the other. -/
theorem strcmpLt_of_not : ∀ {a b : Bytes}, a ≠ b → ¬ strcmpLt b a = true → strcmpLt a b = true
  | [], [], hne, _ => absurd rfl hne
  | [], _ :: _, _, _ => rfl
  | _ :: _, [], _, h => absurd rfl h
  | x :: a, y :: b, hne, h => by
      rw [strcmpLt] at h ⊢
      by_cases hxy : x = y
      · subst hxy
        rw [if_pos rfl] at h ⊢
        exact strcmpLt_of_not (fun hab => hne (hab ▸ rfl)) h
      · rw [if_neg (Ne.symm hxy), decide_eq_true_eq] at h
        rw [if_neg hxy, decide_eq_true_eq]
        exact UInt8.lt_of_le_of_ne (UInt8.not_lt.mp h) hxy

/-- The members stand in `strcmp` order, and no name comes twice. -/
def ordered : List (Bytes × Value) → Bool
  | [] => true
  | (name, _) :: ms => (ms.all fun m => strcmpLt name m.1) && ordered ms

theorem ordered_cons {name : Bytes} {x : Value} {ms : List (Bytes × Value)} :
    ordered ((name, x) :: ms) = true ↔
      (∀ m ∈ ms, strcmpLt name m.1 = true) ∧ ordered ms = true := by
  rw [ordered, Bool.and_eq_true, List.all_eq_true]

theorem lt_of_ordered_append {ms rest : List (Bytes × Value)} {name : Bytes} {x : Value}
    (h : ordered (ms ++ (name, x) :: rest) = true) : ∀ m ∈ ms, strcmpLt m.1 name = true := by
  induction ms with
  | nil => simp
  | cons m ms ih =>
      obtain ⟨k, v⟩ := m
      obtain ⟨hk, hms⟩ := ordered_cons.mp h
      exact List.forall_mem_cons.mpr ⟨hk (name, x) (by simp), ih hms⟩

/-- A member whose name is behind all others is put at the end. -/
theorem insertMember_append {ms : List (Bytes × Value)} {key : Bytes} (x : Value)
    (h : ∀ m ∈ ms, strcmpLt m.1 key = true) : insertMember ms key x = ms ++ [(key, x)] := by
  induction ms with
  | nil => rfl
  | cons m ms ih =>
      obtain ⟨k, v⟩ := m
      obtain ⟨hk, hms⟩ := List.forall_mem_cons.mp h
      have hne : k ≠ key := by
        rintro rfl
        rw [strcmpLt_irrefl] at hk
        cases hk
      have hnot : ¬ strcmpLt key k = true := by
        intro hlt
        have hself := strcmpLt_trans hk hlt
        rw [strcmpLt_irrefl] at hself
        cases hself
      rw [insertMember, if_neg hne, if_neg hnot, ih hms]
      rfl

/-- Storing a member keeps the order. -/
theorem ordered_insertMember {ms : List (Bytes × Value)} (h : ordered ms = true) (key : Bytes)
    (x : Value) : ordered (insertMember ms key x) = true := by
  induction ms with
  | nil => rfl
  | cons m ms ih =>
      obtain ⟨k, v⟩ := m
      obtain ⟨hk, hms⟩ := ordered_cons.mp h
      rw [insertMember]
      split_ifs with heq hlt
      · exact ordered_cons.mpr ⟨heq ▸ hk, hms⟩
      · refine ordered_cons.mpr ⟨List.forall_mem_cons.mpr ⟨hlt, fun m hm => ?_⟩, h⟩
        exact strcmpLt_trans hlt (hk m hm)
      · refine ordered_cons.mpr ⟨fun m hm => ?_, ih hms⟩
        rcases of_mem_insertMember hm with rfl | hm
        · exact strcmpLt_of_not heq hlt
        · exact hk m hm

/-! ### Canonical values -/

mutual

/-- A value as the reader makes it. A signed number is more than nine above the least one, an
unsigned number has 32 bits and is more than five below the greatest one; strings and names
have no NUL, and the members of an object stand in their order. -/
def canonical : Value → Bool
  | .null | .bool _ | .real _ => true
  | .int i => -2147483640 < i.toInt
  | .uint u => 2147483648 ≤ u.toNat && u.toNat < 4294967290
  | .string s => !s.contains 0
  | .array xs => canonicals xs
  | .object ms => ordered ms && canonicalMembers ms

def canonicals : List Value → Bool
  | [] => true
  | x :: xs => canonical x && canonicals xs

def canonicalMembers : List (Bytes × Value) → Bool
  | [] => true
  | (name, x) :: ms => !name.contains 0 && canonical x && canonicalMembers ms

end

theorem canonicals_iff {xs : List Value} :
    canonicals xs = true ↔ ∀ x ∈ xs, canonical x = true := by
  induction xs with
  | nil => simp [canonicals]
  | cons x xs ih => rw [canonicals, Bool.and_eq_true, ih, List.forall_mem_cons]

theorem canonicalMembers_iff {ms : List (Bytes × Value)} :
    canonicalMembers ms = true ↔ ∀ m ∈ ms, (!m.1.contains 0 && canonical m.2) = true := by
  induction ms with
  | nil => simp [canonicalMembers]
  | cons m ms ih => rw [canonicalMembers, Bool.and_eq_true, ih, List.forall_mem_cons]

theorem contains_cstr (s : Bytes) : (cstr s).contains 0 = false := by
  rw [Bool.eq_false_iff, ne_eq, List.contains_iff_mem]
  intro hmem
  simpa using List.mem_takeWhile_imp hmem

theorem cstr_eq_self {s : Bytes} (h : s.contains 0 = false) : cstr s = s := by
  rw [cstr, List.takeWhile_eq_self_iff]
  intro c hc
  rw [bne_iff_ne]
  rintro rfl
  rw [List.contains_iff_mem.mpr hc] at h
  cases h

end Value

namespace Reader

open Value

/-! ### What the reader makes is canonical -/

/-- The token found behind comments is one that was read somewhere. -/
theorem skipCommentTokens_readToken (fuel : ℕ) (doc : Bytes) :
    ∃ doc', skipCommentTokens fuel doc = readToken doc' := by
  induction fuel generalizing doc with
  | zero => exact ⟨doc, rfl⟩
  | succ fuel ih =>
      rw [skipCommentTokens]
      split_ifs with h
      · exact ih _
      · exact ⟨doc, rfl⟩

theorem type_token_ne {type : TokenType} {start : Bytes} {scan : Bool × Bytes}
    (h : type ≠ .number) : (token type start scan).type ≠ .number := by
  rw [token]
  cases scan.1
  · exact TokenType.noConfusion
  · exact h

theorem type_ite_ne {p : Prop} [Decidable p] {a b : Token} (ha : a.type ≠ .number)
    (hb : b.type ≠ .number) : (if p then a else b).type ≠ .number := by
  split
  · exact ha
  · exact hb

/-- The text of a number: its first character and all characters of numbers behind it. -/
theorem token_number (c : UInt8) (rest : Bytes) :
    (token .number (c :: rest) (true, rest.dropWhile isNumberCharacter)).text =
      c :: rest.takeWhile isNumberCharacter := by
  have happ := @token_append (rest.dropWhile isNumberCharacter) .number
    (c :: rest.takeWhile isNumberCharacter)
  rw [List.cons_append, List.takeWhile_append_dropWhile] at happ
  rw [happ]

/-- A number consists of characters of numbers. -/
theorem text_number {doc : Bytes} (h : (readToken doc).type = .number) :
    ∀ c ∈ (readToken doc).text, isNumberCharacter c = true := by
  cases hdoc : skipSpaces doc with
  | nil =>
      simp only [readToken, hdoc] at h
      cases h
  | cons c rest =>
      by_cases hnum : ((48 ≤ c && c ≤ 57) || c = 45) = true
      · have hne : ∀ d : UInt8, ((48 ≤ d && d ≤ 57) || d = 45) = false → c ≠ d := by
          rintro d hd rfl
          rw [hd] at hnum
          cases hnum
        simp only [readToken, hdoc, hne 123 rfl, hne 125 rfl, hne 91 rfl, hne 93 rfl, hne 34 rfl,
          hne 47 rfl, if_false, hnum, if_true, token_number]
        refine List.forall_mem_cons.mpr ⟨?_, fun d hd => List.mem_takeWhile_imp hd⟩
        rcases Bool.or_eq_true_iff.mp hnum with hdigit | hminus
        · exact Consumes.isNumberCharacter_digit hdigit
        · rw [of_decide_eq_true hminus]
          rfl
      · -- every other branch makes a token of another type
        simp only [readToken, hdoc, hnum, Bool.false_eq_true, if_false] at h
        refine absurd h ?_
        repeat' refine type_ite_ne ?_ ?_
        all_goals exact type_token_ne TokenType.noConfusion

theorem le_foldl_digits (ds : Bytes) (value : ℕ) :
    value ≤ ds.foldl (fun n c => n * 10 + (c.toNat - 48)) value := by
  induction ds generalizing value with
  | nil => exact Nat.le_refl _
  | cons c ds ih => exact Nat.le_trans (by omega) (ih (value * 10 + (c.toNat - 48)))

theorem toNat_digit {c : UInt8} (h : isDigit c = true) : c.toNat - 48 ≤ 9 := by
  rw [isDigit, Bool.and_eq_true, decide_eq_true_eq, decide_eq_true_eq,
    UInt8.le_iff_toNat_le, UInt8.le_iff_toNat_le] at h
  have hle : c.toNat ≤ 57 := h.2
  omega

/-- The digit loop looks at what was read before the last digit. -/
theorem decodeDigits_eq {threshold : ℕ} : ∀ {ds : Bytes} {value : ℕ}, ds ≠ [] →
    (∀ c ∈ ds, isDigit c = true) →
    decodeDigits threshold ds value =
      if ds.foldl (fun n c => n * 10 + (c.toNat - 48)) value / 10 < threshold then
        some (ds.foldl (fun n c => n * 10 + (c.toNat - 48)) value)
      else none
  | [], _, hne, _ => absurd rfl hne
  | [c], value, _, hds => by
      have hc := toNat_digit (hds c List.mem_cons_self)
      have hdiv : (value * 10 + (c.toNat - 48)) / 10 = value := by omega
      simp only [decodeDigits, List.foldl_cons, List.foldl_nil, hdiv]
      split_ifs with hle hlt hlt
      · omega
      · rfl
      · rfl
      · omega
  | c :: d :: ds, value, _, hds => by
      rw [List.forall_mem_cons] at hds
      have hle := le_foldl_digits (d :: ds) (value * 10 + (c.toNat - 48))
      rw [decodeDigits, decodeDigits_eq (by simp) hds.2]
      by_cases hval : threshold ≤ value
      · -- the value only grows from here on
        have hnot : ¬ (c :: d :: ds).foldl (fun n c => n * 10 + (c.toNat - 48)) value / 10 <
            threshold := by
          rw [List.foldl_cons]
          omega
        rw [if_pos hval, if_neg hnot]
      · rw [if_neg hval]
        rfl

/-- A number of the digit loop is less than ten times its threshold. -/
theorem decodeDigits_lt {threshold value : ℕ} {ds : Bytes} (hpos : 0 < threshold)
    (hds : ∀ c ∈ ds, isDigit c = true) (h : decodeDigits threshold ds 0 = some value) :
    value < 10 * threshold := by
  by_cases hne : ds = []
  · subst hne
    cases h
    omega
  · rw [decodeDigits_eq hne hds] at h
    split_ifs at h with hlt
    cases h
    omega

/-- The digits of a number that is no real number. -/
theorem isDigit_of_not_double {text : Bytes} (hall : ∀ c ∈ text, isNumberCharacter c = true)
    (hdouble : ¬ (text.any (fun c => c = 46 || c = 101 || c = 69 || c = 43) ||
      text.tail.any (· = 45)) = true) :
    ∀ c ∈ if text.head? = some 45 then text.tail else text, isDigit c = true := by
  rw [Bool.or_eq_true, not_or, List.any_eq_true, List.any_eq_true] at hdouble
  obtain ⟨hmark, hminus⟩ := hdouble
  have hcases : ∀ c ∈ text, isDigit c = true ∨ c = 45 := by
    intro c hc
    have hnum := hall c hc
    have hnot : ¬ (c = 46 || c = 101 || c = 69 || c = 43) = true := fun h => hmark ⟨c, hc, h⟩
    simp only [isNumberCharacter, isDigit, Bool.or_eq_true, decide_eq_true_eq] at hnum hnot ⊢
    tauto
  cases text with
  | nil => simp
  | cons c text =>
      have htail : ∀ d ∈ text, isDigit d = true := by
        intro d hd
        rcases hcases d (List.mem_cons_of_mem _ hd) with h | rfl
        · exact h
        · exact absurd ⟨45, hd, by simp⟩ hminus
      by_cases hc : c = 45
      · rw [if_pos (by rw [hc]; rfl)]
        exact htail
      · rw [if_neg (by simpa using hc)]
        refine List.forall_mem_cons.mpr ⟨?_, htail⟩
        exact (hcases c List.mem_cons_self).resolve_right hc

theorem decodeDouble_canonical {text : Bytes} {v : Value} (h : decodeDouble text = some v) :
    canonical v = true := by
  rw [decodeDouble] at h
  split_ifs at h
  cases h
  rfl

theorem decodeNumber_canonical {text : Bytes} {v : Value}
    (hall : ∀ c ∈ text, isNumberCharacter c = true) (h : decodeNumber text = some v) :
    canonical v = true := by
  simp only [decodeNumber] at h
  by_cases hdouble : (text.any (fun c => c = 46 || c = 101 || c = 69 || c = 43) ||
      text.tail.any (· = 45)) = true
  · rw [if_pos hdouble] at h
    exact decodeDouble_canonical h
  · have hdigits := isDigit_of_not_double hall hdouble
    rw [if_neg hdouble] at h
    split at h
    · exact decodeDouble_canonical h
    · next value hvalue =>
      by_cases hneg : text.head? = some 45
      · simp only [hneg, if_true] at h hvalue hdigits
        have hlt : value < 10 * (2 ^ 31 / 10) := decodeDigits_lt (by decide) hdigits hvalue
        cases h
        rw [canonical, Int32.toInt_ofInt_of_le (by omega) (by omega), decide_eq_true_eq]
        omega
      · simp only [hneg, if_false] at h hvalue hdigits
        have hlt : value < 10 * ((2 ^ 32 - 1) / 10) :=
          decodeDigits_lt (by decide) hdigits hvalue
        split_ifs at h with hle
        · cases h
          rw [canonical, Int32.toInt_ofNat_of_lt (by omega), decide_eq_true_eq]
          omega
        · cases h
          rw [canonical, UInt32.toNat_ofNat_of_lt' (Nat.lt_trans hlt (by decide)), Bool.and_eq_true,
            decide_eq_true_eq, decide_eq_true_eq]
          omega

/-- What the loops of the reader hold: canonical elements and members. -/
theorem canonicalMembers_insertMember {ms : List (Bytes × Value)} {name : Bytes} {x : Value}
    (hms : canonicalMembers ms = true) (hname : name.contains 0 = false)
    (hx : canonical x = true) : canonicalMembers (insertMember ms name x) = true := by
  rw [canonicalMembers_iff] at hms ⊢
  intro m hm
  rcases of_mem_insertMember hm with rfl | hm
  · rw [hname, hx]
    rfl
  · exact hms m hm

theorem canonical_object {ms : List (Bytes × Value)} :
    canonical (.object ms) = true ↔ ordered ms = true ∧ canonicalMembers ms = true := by
  rw [canonical, Bool.and_eq_true]

/-- The three recursive functions of the reader make canonical values. -/
theorem read_canonical (fuel : ℕ) :
    (∀ doc v rest, readValue fuel doc = some (v, rest) → canonical v = true) ∧
    (∀ name members doc v rest, canonical (.object members) = true →
      readObject fuel name members doc = some (v, rest) → canonical v = true) ∧
    ∀ elements doc v rest, canonicals elements = true →
      readArray fuel elements doc = some (v, rest) → canonical v = true := by
  induction fuel with
  | zero =>
      refine ⟨fun _ _ _ h => ?_, fun _ _ _ _ _ _ h => ?_, fun _ _ _ _ _ h => ?_⟩ <;> cases h
  | succ fuel ih =>
      obtain ⟨ihValue, ihObject, ihArray⟩ := ih
      refine ⟨?_, ?_, ?_⟩
      · intro doc v rest h
        rw [readValue] at h
        obtain ⟨doc', htok⟩ := skipCommentTokens_readToken doc.length doc
        split at h
        · exact ihObject _ _ _ _ _ rfl h
        · split_ifs at h
          · cases h
            rfl
          · exact ihArray _ _ _ _ rfl h
        · next hnumber =>
          obtain ⟨x, hx, heq⟩ := Option.map_eq_some_iff.mp h
          cases heq
          rw [htok] at hnumber hx
          exact decodeNumber_canonical (text_number hnumber) hx
        · obtain ⟨s, hs, heq⟩ := Option.map_eq_some_iff.mp h
          cases heq
          rw [canonical, contains_cstr]
          rfl
        · cases h
          rfl
        · cases h
          rfl
        · cases h
          rfl
        · cases h
      · intro name members doc v rest hms h
        rw [readObject] at h
        split_ifs at h with hend hname
        · cases h
          exact hms
        · obtain ⟨name', hname', h⟩ := Option.bind_eq_some_iff.mp h
          dsimp only at h
          split_ifs at h with hcolon
          obtain ⟨⟨x, rest'⟩, hx, h⟩ := Option.bind_eq_some_iff.mp h
          have hms' : canonical (.object (insertMember members (cstr name') x)) = true := by
            obtain ⟨hord, hmem⟩ := canonical_object.mp hms
            exact canonical_object.mpr ⟨ordered_insertMember hord _ _,
              canonicalMembers_insertMember hmem (contains_cstr _) (ihValue _ _ _ hx)⟩
          dsimp only at h
          split_ifs at h
          · cases h
            exact hms'
          · exact ihObject _ _ _ _ _ hms' h
      · intro elements doc v rest hxs h
        rw [readArray] at h
        obtain ⟨⟨x, rest'⟩, hx, h⟩ := Option.bind_eq_some_iff.mp h
        have hxs' : canonicals (elements ++ [x]) = true := by
          rw [canonicals_iff] at hxs ⊢
          rw [List.forall_mem_append, List.forall_mem_singleton]
          exact ⟨hxs, ihValue _ _ _ hx⟩
        dsimp only at h
        split_ifs at h
        · cases h
          exact hxs'
        · exact ihArray _ _ _ _ hxs' h

/-- **The reader makes canonical values.** -/
theorem parse_canonical {document : Bytes} {v : Value} (h : parse document = some v) :
    canonical v = true := by
  obtain ⟨⟨x, rest⟩, hx, rfl⟩ := Option.map_eq_some_iff.mp h
  exact (read_canonical _).1 _ _ _ hx

/-! ### Canonical values are read back -/

/-- A written string is read as it was up to its first NUL. -/
theorem ofPieces_pieces (s : Bytes) : ofPieces (pieces s) = some (cstr s) := by
  rw [ofPieces, pieces]
  induction cstr s with
  | nil => rfl
  | cons c s ih =>
      rw [List.map_cons, List.map_cons]
      rcases symbol_piece c with hbyte | ⟨hlt, hcode⟩
      · rw [hbyte, decodeSymbols, ih]
        rfl
      · have hutf8 : codePointToUTF8 c.toNat = [c] := by
          rw [codePointToUTF8, if_pos (by omega), UInt8.ofNat_toNat]
        rw [hcode, decodeSymbols_code (isHigh_control hlt), ih, hutf8]
        rfl

/-- Digits are no mark of a real number. -/
theorem not_double_of_isDigit {ds : Bytes} (h : ∀ c ∈ ds, isDigit c = true) :
    ds.any (fun c => c = 46 || c = 101 || c = 69 || c = 43) = false ∧
      ds.any (· = 45) = false := by
  have hne : ∀ c ∈ ds, ∀ d : UInt8, isDigit d = false → c ≠ d := by
    rintro c hc d hd rfl
    rw [h c hc] at hd
    cases hd
  simp only [List.any_eq_false, Bool.or_eq_true, decide_eq_true_eq, not_or]
  refine ⟨fun c hc => ⟨⟨⟨?_, ?_⟩, ?_⟩, ?_⟩, fun c hc => ?_⟩ <;> exact hne c hc _ rfl

/-- The digit loop on the digits of a number. -/
theorem decodeDigits_decimal {value : ℕ} {c : UInt8} {ds : Bytes} (h : Decimal value c ds)
    (threshold : ℕ) (hlt : value / 10 < threshold) :
    decodeDigits threshold (c :: ds) 0 = some value := by
  have hvalue := h.value
  rw [natOf] at hvalue
  rw [decodeDigits_eq (by simp) (List.forall_mem_cons.mpr ⟨h.head, h.tail⟩), hvalue, if_pos hlt]

theorem decodeNumber_decimal {value : ℕ} {c : UInt8} {ds : Bytes} (h : Decimal value c ds)
    (hlt : value < 4294967290) :
    decodeNumber (c :: ds) = some (if value ≤ 2 ^ 31 - 1 then .int (Int32.ofNat value)
      else .uint (UInt32.ofNat value)) := by
  obtain ⟨hmark, -⟩ := not_double_of_isDigit (List.forall_mem_cons.mpr ⟨h.head, h.tail⟩)
  obtain ⟨-, hminus⟩ := not_double_of_isDigit h.tail
  have hc : c ≠ 45 := by
    rintro rfl
    cases h.head
  have hdigits := decodeDigits_decimal h ((2 ^ 32 - 1) / 10) (by omega)
  simp only [decodeNumber, hmark, List.tail_cons, hminus, Bool.or_self, Bool.false_eq_true,
    if_false, List.head?_cons, Option.some.injEq, hc, hdigits]
  split_ifs <;> rfl

theorem decodeNumber_negative {value : ℕ} {c : UInt8} {ds : Bytes} (h : Decimal value c ds)
    (hlt : value < 2147483640) :
    decodeNumber (45 :: c :: ds) = some (.int (Int32.ofInt (-value))) := by
  obtain ⟨hmark, hminus⟩ := not_double_of_isDigit (List.forall_mem_cons.mpr ⟨h.head, h.tail⟩)
  have hmark' : (45 :: c :: ds).any (fun c => c = 46 || c = 101 || c = 69 || c = 43) = false := by
    rw [List.any_cons, hmark]
    rfl
  have hdigits := decodeDigits_decimal h (2 ^ 31 / 10) (by omega)
  simp only [decodeNumber, hmark', List.tail_cons, hminus, Bool.or_self, Bool.false_eq_true,
    if_false, List.head?_cons, if_true, hdigits]

theorem decodeNumber_int {i : Int32} (h : canonical (.int i) = true) :
    decodeNumber (valueToStringInt i) = some (.int i) := by
  rw [canonical, decide_eq_true_eq] at h
  have hhigh := i.toInt_lt
  obtain ⟨c, ds, heq, hdec⟩ := valueToStringInt_decimal i
  rw [heq]
  by_cases hneg : i.toInt < 0
  · have habs : -(i.toInt.natAbs : ℤ) = i.toInt := by omega
    rw [if_pos hneg, decodeNumber_negative hdec (by omega), habs, Int32.ofInt_toInt]
  · have habs : (i.toInt.natAbs : ℤ) = i.toInt := by omega
    rw [if_neg hneg, decodeNumber_decimal hdec (by omega), if_pos (by omega),
      ← Int32.ofInt_eq_ofNat, habs, Int32.ofInt_toInt]

theorem decodeNumber_uint {u : UInt32} (h : canonical (.uint u) = true) :
    decodeNumber (valueToStringUInt u) = some (.uint u) := by
  rw [canonical, Bool.and_eq_true, decide_eq_true_eq, decide_eq_true_eq] at h
  obtain ⟨c, ds, heq, hdec⟩ := valueToStringUInt_decimal u
  rw [heq, decodeNumber_decimal hdec h.2, if_neg (by omega), UInt32.ofNat_toNat]

mutual

theorem ofText_text : ∀ {v : Value}, noReal v = true → canonical v = true →
    ofText v.text = some v
  | .null, _, _ => rfl
  | .bool _, _, _ => rfl
  | .int _, _, h => decodeNumber_int h
  | .uint _, _, h => decodeNumber_uint h
  | .real _, h, _ => by cases h
  | .string s, _, h => by
      rw [canonical, Bool.not_eq_true'] at h
      rw [text, ofText, ofPieces_pieces, Option.map_some, cstr_cstr, cstr_eq_self h]
  | .array xs, hr, h => by
      rw [noReal] at hr
      rw [canonical] at h
      rw [text, ofText, ofElements_texts hr h]
      rfl
  | .object ms, hr, h => by
      rw [noReal] at hr
      obtain ⟨hord, hms⟩ := canonical_object.mp h
      rw [text, ofText, ofMembers_textMembers hr hms (by rwa [List.nil_append])]
      rfl

theorem ofElements_texts : ∀ {xs elements : List Value}, noReals xs = true →
    canonicals xs = true → ofElements (texts xs) elements = some (elements ++ xs)
  | [], elements, _, _ => by rw [texts, ofElements, List.append_nil]
  | x :: xs, elements, hr, h => by
      rw [noReals, Bool.and_eq_true] at hr
      rw [canonicals, Bool.and_eq_true] at h
      rw [texts, ofElements, ofText_text hr.1 h.1, Option.bind_eq_bind, Option.bind_some,
        ofElements_texts hr.2 h.2, List.append_assoc, List.singleton_append]

/-- The members are put one behind the other, as they stood. -/
theorem ofMembers_textMembers : ∀ {ms members : List (Bytes × Value)},
    noRealMembers ms = true → canonicalMembers ms = true → ordered (members ++ ms) = true →
    ofMembers (textMembers ms) members = some (members ++ ms)
  | [], members, _, _, _ => by rw [textMembers, ofMembers, List.append_nil]
  | (name, x) :: ms, members, hr, h, hord => by
      rw [noRealMembers, Bool.and_eq_true] at hr
      rw [canonicalMembers, Bool.and_eq_true, Bool.and_eq_true, Bool.not_eq_true'] at h
      have hcut : cstr name = name := cstr_eq_self h.1.1
      have hins := insertMember_append x (lt_of_ordered_append hord)
      rw [textMembers, ofMembers, ofPieces_pieces, ofText_text hr.1 h.1.2]
      simp only [Option.bind_eq_bind, Option.bind_some]
      rw [cstr_cstr, hcut, hins, ofMembers_textMembers hr.2 h.2 (by simpa using hord)]
      simp

end

/-- A canonical value is read back. -/
theorem parse_writeValue {v : Value} (hr : v.noReal = true) (h : v.canonical = true) :
    parse v.writeValue = some v := by
  rw [writeValue_render hr, parse_render, ofText_text hr h]

end Reader

/-! ### Main results -/

/-- **The values that survive.** A value without a real number is read back as it was written
exactly if it is canonical. -/
theorem reads_back_iff {v : Value} (hr : v.noReal = true) :
    Reader.parse v.writeValue = some v ↔ v.canonical = true :=
  ⟨Reader.parse_canonical, Reader.parse_writeValue hr⟩

theorem reads_back_reply :
    let reply : Value := .object [(bytes "param", .object [(bytes "return", .int (-1))]),
      (bytes "type", .string (bytes "cmdresult"))]
    reply.noReal = true ∧ reply.canonical = true ∧ Reader.parse reply.writeValue = some reply :=
  ⟨rfl, by decide +kernel, (reads_back_iff rfl).mpr (by decide +kernel)⟩

/-- **What was once read can be written and read again.** Whatever text a value was read from,
with its comments, spaces, escapes and repeated names, the text it is written as is read as the
same value, provided there is no real number in it. -/
theorem read_write_read {document : Bytes} {v : Value} (h : Reader.parse document = some v)
    (hr : v.noReal = true) : Reader.parse v.writeValue = some v :=
  Reader.parse_writeValue hr (Reader.parse_canonical h)

/-- A document with spaces, a comment, an escape and a repeated name. -/
def spaced : Bytes :=
  bytes "\x7b \"b\": [1, -2], // last\n \"a\": \"\\u0009\", \"b\": null \x7d"

theorem read_write_read_spaced : ∃ v, Reader.parse spaced = some v ∧ v.noReal = true ∧
    Reader.parse v.writeValue = some v := by
  have hread : (Reader.parse spaced).any Value.noReal = true := by decide +kernel
  obtain ⟨v, hv, hr⟩ := (Option.any_eq_true _ _).mp hread
  exact ⟨v, hv, hr, read_write_read hv hr⟩

end UCClient
