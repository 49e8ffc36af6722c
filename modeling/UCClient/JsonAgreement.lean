import UCClient.JsonRoundTrip

/-!
# The Two Readers

A message of a page is written by `JSON.stringify` and read by jsoncpp. Does the program read
what the page means? `JSON.parse` says what a text means, and `Value.ofJson` what value of jsoncpp
stands for that.

The two differ in strings only. A first half of a pair takes the next code unit with it whatever
it is, and if there is none, the whole text is refused; and a string ends at its first NUL. So
they agree on a string in which each first half has a second half behind it and that has no NUL; a
second half that stands alone both take as it is. A number out of range of both integer types of
jsoncpp becomes a real number, which the program does not take for an integer.

## Main results

* `readers_agree_iff`: the texts that the two readers agree on.
-/

namespace UCClient

open Json JsonText

/-! ### Code points -/

/-- The two readers encode a code point alike. -/
theorem codePointToUTF8_eq {cp : ℕ} (h : cp ≤ 0x10ffff) :
    Reader.codePointToUTF8 cp = utf8 cp := by
  rw [Reader.codePointToUTF8, utf8]
  split_ifs with h1 h2 h3
  · rfl
  · rw [show cp / 64 % 32 = cp / 64 by omega]
  · rw [show cp / 4096 % 16 = cp / 4096 by omega]
  · rw [show cp / 262144 % 8 = cp / 262144 by omega]

theorem ofNat_ne_zero {n : ℕ} (hpos : 0 < n) (hlt : n < 256) : UInt8.ofNat n ≠ 0 := by
  intro heq
  have hnat := congrArg UInt8.toNat heq
  rw [UInt8.toNat_ofNat', Nat.mod_eq_of_lt hlt] at hnat
  exact absurd hnat (Nat.ne_of_gt hpos)

/-- Only NUL is encoded with a NUL. -/
theorem utf8_ne_zero {cp : ℕ} (h : cp ≤ 0x10ffff) (h0 : cp ≠ 0) : ∀ b ∈ utf8 cp, b ≠ 0 := by
  rw [utf8]
  split_ifs with h1 h2 h3
  all_goals
    simp only [List.forall_mem_cons, List.not_mem_nil, IsEmpty.forall_iff, implies_true, and_true]
  · exact ofNat_ne_zero (by omega) (by omega)
  · exact ⟨ofNat_ne_zero (by omega) (by omega), ofNat_ne_zero (by omega) (by omega)⟩
  · exact ⟨ofNat_ne_zero (by omega) (by omega), ofNat_ne_zero (by omega) (by omega),
      ofNat_ne_zero (by omega) (by omega)⟩
  · exact ⟨ofNat_ne_zero (by omega) (by omega), ofNat_ne_zero (by omega) (by omega),
      ofNat_ne_zero (by omega) (by omega), ofNat_ne_zero (by omega) (by omega)⟩

/-- A half of a pair and a code point of two halves do not start with the same byte. -/
theorem utf8_high_ne {u cp : ℕ} (hu : isHigh u = true) (hcp : 0xffff < cp) (hmax : cp ≤ 0x10ffff)
    (r r' : Bytes) : utf8 cp ++ r ≠ utf8 u ++ r' := by
  rw [isHigh, Bool.and_eq_true, decide_eq_true_eq, decide_eq_true_eq] at hu
  have hthree : utf8 u = [UInt8.ofNat (0xe0 + u / 4096), UInt8.ofNat (0x80 + u / 64 % 64),
      UInt8.ofNat (0x80 + u % 64)] := by
    rw [utf8, if_neg (by omega), if_neg (by omega), if_pos (by omega)]
  have hfour : utf8 cp = [UInt8.ofNat (0xf0 + cp / 262144), UInt8.ofNat (0x80 + cp / 4096 % 64),
      UInt8.ofNat (0x80 + cp / 64 % 64), UInt8.ofNat (0x80 + cp % 64)] := by
    rw [utf8, if_neg (by omega), if_neg (by omega), if_neg (by omega)]
  rw [hthree, hfour]
  intro heq
  have hhead := congrArg UInt8.toNat (List.cons.inj heq).1
  rw [UInt8.toNat_ofNat', UInt8.toNat_ofNat'] at hhead
  omega

/-! ### Strings -/

/-- Every first half of a pair is followed by a second half. -/
def paired : List Symbol → Bool
  | [] => true
  | .byte _ :: rest => paired rest
  | .code u :: .code v :: rest =>
      if isHigh u then isLow v && paired rest else paired (.code v :: rest)
  | .code u :: rest => !isHigh u && paired rest

theorem paired_code {u : ℕ} (h : isHigh u = false) (rest : List Symbol) :
    paired (.code u :: rest) = paired rest := by
  cases rest with
  | nil => simp [paired, h]
  | cons v rest => cases v <;> simp [paired, h]

theorem cstr_append {w : Bytes} (hw : ∀ b ∈ w, b ≠ 0) (r : Bytes) :
    cstr (w ++ r) = w ++ cstr r :=
  List.takeWhile_append_of_pos fun b hb => bne_iff_ne.mpr (hw b hb)

/-- The readers differ on what begins with a NUL. -/
theorem cstr_zero_ne (r r' : Bytes) : cstr (0 :: r) ≠ 0 :: r' := by
  rw [cstr, List.takeWhile_cons_of_neg (by simp)]
  exact List.cons_ne_nil _ _ ∘ Eq.symm

/-- What the two readers make of what stands behind some bytes. -/
theorem map_cstr_append_iff {w : Bytes} (hw : ∀ b ∈ w, b ≠ 0) (d : Option Bytes) (j : Bytes) :
    ((w ++ ·) <$> d).map cstr = some (w ++ j) ↔ d.map cstr = some j := by
  cases d with
  | none => simp
  | some r => simp [cstr_append hw]

theorem zero_notMem_append_iff {w : Bytes} (hw : ∀ b ∈ w, b ≠ 0) (j : Bytes) :
    0 ∉ w ++ j ↔ 0 ∉ j := by
  rw [List.mem_append, not_or]
  exact and_iff_right fun hmem => hw 0 hmem rfl

/-- What begins with a NUL is read differently. -/
theorem map_cstr_zero_iff (d : Option Bytes) (j : Bytes) :
    ((0 :: ·) <$> d).map cstr = some (0 :: j) ↔ 0 ∉ 0 :: j := by
  refine iff_of_false ?_ fun h => h List.mem_cons_self
  cases d with
  | none => simp
  | some r => simpa using cstr_zero_ne r j

/-- One byte or code point that both readers take for `w`. -/
theorem unit_iff {w : Bytes} (hw : (∀ b ∈ w, b ≠ 0) ∨ w = [0]) {d : Option Bytes} {j : Bytes}
    {P : Prop} (ih : d.map cstr = some j ↔ P ∧ 0 ∉ j) :
    ((w ++ ·) <$> d).map cstr = some (w ++ j) ↔ P ∧ 0 ∉ w ++ j := by
  rcases hw with hw | rfl
  · rw [map_cstr_append_iff hw, zero_notMem_append_iff hw, ih]
  · rw [List.singleton_append, show ([0] ++ · : Bytes → Bytes) = (0 :: ·) from rfl]
    refine (map_cstr_zero_iff d j).trans (iff_of_false ?_ ?_)
    · exact fun h => h List.mem_cons_self
    · exact fun h => h.2 List.mem_cons_self

theorem utf8_unit {u : ℕ} (hu : u ≤ 0x10ffff) : (∀ b ∈ utf8 u, b ≠ 0) ∨ utf8 u = [0] := by
  by_cases h0 : u = 0
  · subst h0
    exact .inr rfl
  · exact .inl (utf8_ne_zero hu h0)

/-- The code point of a pair, as the two readers compute it. -/
theorem pair_eq {u v : ℕ} (hu : isHigh u = true) (hv : isLow v = true) :
    0x10000 + u % 1024 * 1024 + v % 1024 = 0x10000 + (u - 0xd800) * 1024 + (v - 0xdc00) ∧
      0x10000 + u % 1024 * 1024 + v % 1024 ≤ 0x10ffff := by
  rw [isHigh, Bool.and_eq_true, decide_eq_true_eq, decide_eq_true_eq] at hu
  rw [isLow, Bool.and_eq_true, decide_eq_true_eq, decide_eq_true_eq] at hv
  omega

/-- A first half with something else than a second half behind it. -/
theorem decodeSymbols_unpaired {u : ℕ} (hhigh : isHigh u = true) {rest : List Symbol}
    (hrest : ∀ v ∈ rest.head?, ∀ w, v = .code w → isLow w = false) :
    (Reader.decodeSymbols (.code u :: rest)).map cstr ≠ some (join (.code u :: rest)) ∧
      paired (.code u :: rest) = false := by
  cases rest with
  | nil => simp [Reader.decodeSymbols, paired, hhigh]
  | cons v rest =>
      cases v with
      | byte c => simp [Reader.decodeSymbols, paired, hhigh]
      | code v =>
          have hlow : isLow v = false := hrest _ rfl v rfl
          refine ⟨fun heq => ?_, by simp [paired, hhigh, hlow]⟩
          rw [Reader.decodeSymbols, if_pos hhigh, join, hlow, Bool.and_false,
            if_neg Bool.false_ne_true] at heq
          obtain ⟨b, hb, heq⟩ := Option.map_eq_some_iff.mp heq
          obtain ⟨r, -, rfl⟩ := Option.map_eq_some_iff.mp hb
          -- the code unit behind is taken for a second half
          have hmax : 0x10000 + u % 1024 * 1024 + v % 1024 ≤ 0x10ffff := by omega
          rw [codePointToUTF8_eq hmax, cstr_append (utf8_ne_zero hmax (by omega))] at heq
          exact utf8_high_ne hhigh (by omega) hmax _ _ heq

/-- **Strings.** The string the program reads, up to its first NUL, is the one that is meant
exactly when all first halves are in pairs and there is no NUL. -/
theorem decodeSymbols_iff : ∀ {s : List Symbol}, (∀ u, .code u ∈ s → u ≤ 0xffff) →
    ((Reader.decodeSymbols s).map cstr = some (join s) ↔ paired s = true ∧ 0 ∉ join s)
  | [], _ => by simp [Reader.decodeSymbols, join, paired, cstr]
  | .byte c :: rest, h => by
      have ih := decodeSymbols_iff fun u hu => h u (List.mem_cons_of_mem _ hu)
      rw [Reader.decodeSymbols, join_byte, paired]
      refine unit_iff (w := [c]) ?_ ih
      by_cases hc : c = 0
      · exact .inr (by rw [hc])
      · exact .inl (by simpa using hc)
  | .code u :: rest, h => by
      have hu := h u List.mem_cons_self
      have ih := decodeSymbols_iff fun v hv => h v (List.mem_cons_of_mem _ hv)
      cases hhigh : isHigh u with
      | false =>
          rw [Reader.decodeSymbols_code hhigh, join_code hhigh, paired_code hhigh,
            codePointToUTF8_eq (by omega)]
          exact unit_iff (utf8_unit (by omega)) ih
      | true =>
          by_cases hrest : ∃ v rest', rest = .code v :: rest' ∧ isLow v = true
          · obtain ⟨v, rest', rfl, hlow⟩ := hrest
            have ih := decodeSymbols_iff (s := rest') fun w hw =>
              h w (List.mem_cons_of_mem _ (List.mem_cons_of_mem _ hw))
            obtain ⟨heq, hle⟩ := pair_eq hhigh hlow
            rw [Reader.decodeSymbols, join, paired, if_pos hhigh, hhigh, hlow,
              codePointToUTF8_eq hle, ← heq]
            exact unit_iff (utf8_unit hle) ih
          · have hbehind : ∀ v ∈ rest.head?, ∀ w, v = .code w → isLow w = false := by
              intro v hv w hw
              cases rest with
              | nil => cases hv
              | cons x rest' =>
                  cases hv
                  rw [← Bool.not_eq_true]
                  exact fun hlow => hrest ⟨w, rest', by rw [hw], hlow⟩
            obtain ⟨hne, hnot⟩ := decodeSymbols_unpaired hhigh hbehind
            exact iff_of_false hne fun hp => by rw [hnot] at hp; exact Bool.false_ne_true hp.1

theorem hexValue_lt {c : UInt8} {n : ℕ} (h : Json.hexValue c = some n) : n < 16 := by
  have hle : ∀ a b : UInt8, (a ≤ c && c ≤ b) = true → a.toNat ≤ c.toNat ∧ c.toNat ≤ b.toNat := by
    intro a b hab
    rw [Bool.and_eq_true, decide_eq_true_eq, decide_eq_true_eq] at hab
    exact ⟨UInt8.le_iff_toNat_le.mp hab.1, UInt8.le_iff_toNat_le.mp hab.2⟩
  rw [Json.hexValue] at h
  split_ifs at h with h1 h2 h3
  all_goals cases h
  · have hc : 48 ≤ c.toNat ∧ c.toNat ≤ 57 := hle _ _ h1
    omega
  · have hc : 97 ≤ c.toNat ∧ c.toNat ≤ 102 := hle _ _ h2
    omega
  · have hc : 65 ≤ c.toNat ∧ c.toNat ≤ 70 := hle _ _ h3
    omega

theorem hex4_le {a b c d : UInt8} {u : ℕ} (h : hex4 a b c d = some u) : u ≤ 0xffff := by
  obtain ⟨a', ha, h⟩ := Option.bind_eq_some_iff.mp h
  obtain ⟨b', hb, h⟩ := Option.bind_eq_some_iff.mp h
  obtain ⟨c', hc, h⟩ := Option.bind_eq_some_iff.mp h
  obtain ⟨d', hd, h⟩ := Option.bind_eq_some_iff.mp h
  cases h
  have ha := hexValue_lt ha
  have hb := hexValue_lt hb
  have hc := hexValue_lt hc
  have hd := hexValue_lt hd
  omega

/-- A string that both readers read alike: its halves are in pairs, and it has no NUL. -/
def faithful (s : List Piece) : Bool := paired (s.map Piece.symbol) && !(denoted s).contains 0

theorem ofPieces_iff (s : List Piece) :
    (Reader.ofPieces s).map cstr = some (denoted s) ↔ faithful s = true := by
  have hcode : ∀ u, .code u ∈ s.map Piece.symbol → u ≤ 0xffff := by
    intro u hu
    obtain ⟨p, -, hp⟩ := List.mem_map.mp hu
    cases p with
    | plain c h => cases hp
    | short e c h => cases hp
    | unicode a b c d u' h =>
        cases hp
        exact hex4_le h
  rw [Reader.ofPieces, denoted, decodeSymbols_iff hcode, faithful, denoted]
  simp

/-! ### Numbers -/

/-- The value of a number: an integer in the range of jsoncpp, which is a little narrower than
that of its types, or a real number. -/
def Value.ofNumber (text : Bytes) : Value :=
  if text.any fun c => c = 46 || c = 101 || c = 69 then .real text
  else if -2147483640 < intOf text ∧ intOf text ≤ 2147483647 then .int (Int32.ofInt (intOf text))
  else if 2147483647 < intOf text ∧ intOf text < 4294967290 then
    .uint (UInt32.ofNat (intOf text).toNat)
  else .real text

/-- A number without a fraction and an exponent. -/
theorem fraction_nil {t : Bytes} (h : fraction t = some [])
    (hmark : ∀ c ∈ t, ¬ (c = 46 ∨ c = 101 ∨ c = 69)) : t = [] := by
  cases t with
  | nil => rfl
  | cons c t =>
      have hc := hmark c List.mem_cons_self
      rw [not_or, not_or] at hc
      simp [fraction, exponent, hc] at h

/-- Its digits. -/
theorem isDigit_unsigned {t : Bytes} (h : unsigned t = some [])
    (hmark : ∀ c ∈ t, ¬ (c = 46 ∨ c = 101 ∨ c = 69)) : t ≠ [] ∧ ∀ c ∈ t, isDigit c = true := by
  cases t with
  | nil => cases h
  | cons c t =>
      rw [List.forall_mem_cons] at hmark
      refine ⟨List.cons_ne_nil _ _, ?_⟩
      rw [unsigned] at h
      split_ifs at h with hzero hc
      · rw [fraction_nil h hmark.2, hzero]
        simp [isDigit]
      · have hnil := fraction_nil h fun d hd =>
          hmark.2 d ((List.dropWhile_sublist isDigit).subset hd)
        rw [List.forall_mem_cons]
        exact ⟨hc, List.dropWhile_eq_nil_iff.mp hnil⟩

theorem decodeNumber_negative_eq {ds : Bytes} (hne : ds ≠ [])
    (hds : ∀ c ∈ ds, isDigit c = true) (hreal : Reader.decodeDouble (45 :: ds) =
      some (.real (45 :: ds))) :
    Reader.decodeNumber (45 :: ds) = some (if natOf ds < 2147483640 then
      .int (Int32.ofInt (-natOf ds)) else .real (45 :: ds)) := by
  obtain ⟨hmark, hminus⟩ := Reader.not_double_of_isDigit hds
  have hmark' : (45 :: ds).any (fun c => c = 46 || c = 101 || c = 69 || c = 43) = false := by
    rw [List.any_cons, hmark]
    rfl
  rw [natOf]
  simp only [Reader.decodeNumber, hmark', List.tail_cons, hminus, Bool.or_self,
    Bool.false_eq_true, if_false, List.head?_cons, if_true, Reader.decodeDigits_eq hne hds, hreal]
  generalize ds.foldl _ 0 = n
  by_cases hlt : n < 2147483640
  · rw [if_pos hlt, if_pos (by omega)]
  · rw [if_neg hlt, if_neg (by omega)]

theorem decodeNumber_digits_eq {ds : Bytes} (hne : ds ≠ [])
    (hds : ∀ c ∈ ds, isDigit c = true) (hreal : Reader.decodeDouble ds = some (.real ds)) :
    Reader.decodeNumber ds = some (if natOf ds ≤ 2147483647 then .int (Int32.ofNat (natOf ds))
      else if natOf ds < 4294967290 then .uint (UInt32.ofNat (natOf ds)) else .real ds) := by
  obtain ⟨hmark, -⟩ := Reader.not_double_of_isDigit hds
  obtain ⟨-, hminus⟩ := Reader.not_double_of_isDigit fun c hc => hds c (List.mem_of_mem_tail hc)
  have hhead : ds.head? ≠ some 45 := by
    intro h
    cases hds 45 (List.mem_of_mem_head? h)
  rw [natOf]
  simp only [Reader.decodeNumber, hmark, hminus, Bool.or_self, Bool.false_eq_true, if_false,
    hhead, Reader.decodeDigits_eq hne hds, hreal]
  generalize ds.foldl _ 0 = n
  by_cases hlt : n < 4294967290
  · rw [if_pos (show n / 10 < (2 ^ 32 - 1) / 10 by omega), if_pos hlt]
    simp only [Nat.reducePow, Nat.reduceSub]
    split_ifs <;> rfl
  · rw [if_neg (show ¬ n / 10 < (2 ^ 32 - 1) / 10 by omega), if_neg hlt,
      if_neg (by omega)]

/-- **Numbers.** Every number is read as the value that stands for it. -/
theorem decodeNumber_eq (n : Numeral) :
    Reader.decodeNumber n.text = some (Value.ofNumber n.text) := by
  have hreal : Reader.decodeDouble n.text = some (.real n.text) := by
    rw [Reader.decodeDouble, if_pos (Reader.sscanfDouble_signed n.ok)]
  by_cases hmark : (n.text.any fun c => c = 46 || c = 101 || c = 69) = true
  · have hdouble : n.text.any (fun c => c = 46 || c = 101 || c = 69 || c = 43) = true := by
      obtain ⟨c, hc, hmark⟩ := List.any_eq_true.mp hmark
      exact List.any_eq_true.mpr ⟨c, hc, by rw [hmark]; rfl⟩
    simp only [Reader.decodeNumber, hdouble, Bool.true_or, if_true, hreal, Value.ofNumber, hmark]
  · rw [Value.ofNumber, if_neg hmark]
    have hmark' : ∀ c ∈ n.text, ¬ (c = 46 ∨ c = 101 ∨ c = 69) := by
      intro c hc h
      exact hmark (List.any_eq_true.mpr ⟨c, hc, by simpa [or_assoc] using h⟩)
    have hok := n.ok
    generalize n.text = text at hreal hmark' hok
    cases text with
    | nil => cases hok
    | cons c ds =>
        rw [signed] at hok
        by_cases hc : c = 45
        · subst hc
          obtain ⟨hne, hds⟩ := isDigit_unsigned hok fun c h => hmark' c (List.mem_cons_of_mem _ h)
          rw [decodeNumber_negative_eq hne hds hreal, intOf, if_pos rfl]
          by_cases hlt : natOf ds < 2147483640
          · rw [if_pos hlt, if_pos (by omega)]
          · rw [if_neg hlt, if_neg (by omega), if_neg (by omega)]
        · rw [if_neg hc] at hok
          obtain ⟨hne, hds⟩ := isDigit_unsigned hok hmark'
          rw [decodeNumber_digits_eq hne hds hreal, intOf, if_neg hc]
          by_cases hle : natOf (c :: ds) ≤ 2147483647
          · rw [if_pos hle, if_pos (by omega)]
            rfl
          · rw [if_neg hle]
            by_cases hlt : natOf (c :: ds) < 4294967290
            · rw [if_pos hlt, if_neg (by omega), if_pos (by omega), Int.toNat_natCast]
            · rw [if_neg hlt, if_neg (by omega), if_neg (by omega)]

/-! ### Values -/

namespace Value

mutual

/-- The value of jsoncpp that stands for a JSON value. -/
def ofJson : Json → Value
  | .null => .null
  | .bool b => .bool b
  | .number text => ofNumber text
  | .string s => .string s
  | .array xs => .array (ofJsons xs)
  | .object ms => .object (ofJsonMembers ms [])

def ofJsons : List Json → List Value
  | [] => []
  | x :: xs => ofJson x :: ofJsons xs

/-- The members are stored among those that are there. -/
def ofJsonMembers : List (Bytes × Json) → List (Bytes × Value) → List (Bytes × Value)
  | [], members => members
  | (name, x) :: ms, members => ofJsonMembers ms (insertMember members name (ofJson x))

end

/-- Of several members of one name the last counts, for both readers. -/
theorem find_ofJsonMembers (ms : List (Bytes × Json)) (members : List (Bytes × Value))
    (key : Bytes) :
    find (ofJsonMembers ms members) key = ((Json.get ms key).map ofJson).or (find members key) := by
  induction ms generalizing members with
  | nil => rfl
  | cons m ms ih =>
      obtain ⟨name, x⟩ := m
      rw [ofJsonMembers, ih, find_insertMember, Json.get]
      by_cases hname : name = key
      · rw [if_pos hname, if_pos hname]
        cases Json.get ms key <;> rfl
      · rw [if_neg hname, if_neg hname, Option.or_none]

/-- A member of an object is what `JSON.parse` finds under the name. -/
theorem member_ofJson_object (ms : List (Bytes × Json)) (key : Bytes) :
    (ofJson (.object ms)).member key = ((Json.get ms key).map ofJson).getD .null := by
  rw [ofJson, member_object, find_ofJsonMembers]
  cases Json.get ms key <;> rfl

end Value

/-! ### Texts -/

mutual

/-- The names in the objects are read alike by both readers, and no object repeats one. -/
def wellNamed : JsonText → Bool
  | .array xs => wellNamedElements xs
  | .object ms => wellNamedMembers ms
  | .null | .bool _ | .number _ | .string _ => true

def wellNamedElements : List JsonText → Bool
  | [] => true
  | x :: xs => wellNamed x && wellNamedElements xs

def wellNamedMembers : List (List Piece × JsonText) → Bool
  | [] => true
  | (name, x) :: ms =>
      faithful name && (ms.all fun m => denoted m.1 ≠ denoted name) && wellNamed x &&
        wellNamedMembers ms

end

mutual

/-- The strings are read alike by both readers. -/
def readable : JsonText → Bool
  | .string s => faithful s
  | .array xs => readableElements xs
  | .object ms => readableMembers ms
  | .null | .bool _ | .number _ => true

def readableElements : List JsonText → Bool
  | [] => true
  | x :: xs => readable x && readableElements xs

def readableMembers : List (List Piece × JsonText) → Bool
  | [] => true
  | (_, x) :: ms => readable x && readableMembers ms

end

/-- Elements are put behind those that are there. -/
theorem ofElements_append {xs : List JsonText} {elements vs : List Value}
    (h : Reader.ofElements xs elements = some vs) : ∃ rest, vs = elements ++ rest := by
  induction xs generalizing elements with
  | nil =>
      cases h
      exact ⟨[], (List.append_nil _).symm⟩
  | cons x xs ih =>
      obtain ⟨v, -, h⟩ := Option.bind_eq_some_iff.mp h
      obtain ⟨rest, rfl⟩ := ih h
      exact ⟨v :: rest, by simp⟩

theorem exists_ofPieces {name : List Piece} (h : faithful name = true) :
    ∃ b, Reader.ofPieces name = some b ∧ cstr b = denoted name :=
  Option.map_eq_some_iff.mp ((ofPieces_iff name).mpr h)

/-- The members of other names are left alone. -/
theorem find_ofMembers {key : Bytes} {ms : List (List Piece × JsonText)}
    {members vs : List (Bytes × Value)} (hnamed : wellNamedMembers ms = true)
    (hkey : ∀ m ∈ ms, denoted m.1 ≠ key) (h : Reader.ofMembers ms members = some vs) :
    Value.find vs key = Value.find members key := by
  induction ms generalizing members with
  | nil =>
      cases h
      rfl
  | cons m ms ih =>
      obtain ⟨name, x⟩ := m
      rw [wellNamedMembers, Bool.and_eq_true, Bool.and_eq_true, Bool.and_eq_true] at hnamed
      rw [List.forall_mem_cons] at hkey
      obtain ⟨b, hb, hcut⟩ := exists_ofPieces hnamed.1.1.1
      rw [Reader.ofMembers, hb] at h
      simp only [Option.bind_eq_bind, Option.bind_some] at h
      obtain ⟨v, -, h⟩ := Option.bind_eq_some_iff.mp h
      rw [ih hnamed.2 hkey.2 h, Value.find_insertMember, hcut, if_neg hkey.1]

theorem get_jsonMembers {key : Bytes} {ms : List (List Piece × JsonText)}
    (hkey : ∀ m ∈ ms, denoted m.1 ≠ key) : Json.get (jsonMembers ms) key = none := by
  induction ms with
  | nil => rfl
  | cons m ms ih =>
      obtain ⟨name, x⟩ := m
      rw [List.forall_mem_cons] at hkey
      rw [jsonMembers, Json.get, ih hkey.2, if_neg hkey.1]
      rfl

mutual

theorem ofText_iff : ∀ {t : JsonText}, wellNamed t = true →
    (Reader.ofText t = some (.ofJson t.json) ↔ readable t = true)
  | .null, _ => iff_of_true rfl rfl
  | .bool b, _ => iff_of_true rfl rfl
  | .number n, _ => iff_of_true (decodeNumber_eq n) rfl
  | .string s, _ => by
      rw [Reader.ofText, json, Value.ofJson, readable, ← ofPieces_iff]
      cases Reader.ofPieces s <;> simp
  | .array xs, h => by
      rw [wellNamed] at h
      rw [Reader.ofText, json, Value.ofJson, readable, ← ofElements_iff [] h]
      cases Reader.ofElements xs [] <;> simp
  | .object ms, h => by
      rw [wellNamed] at h
      rw [Reader.ofText, json, Value.ofJson, readable, ← ofMembers_iff [] h]
      cases Reader.ofMembers ms [] <;> simp

theorem ofElements_iff : ∀ {xs : List JsonText} (elements : List Value),
    wellNamedElements xs = true →
    (Reader.ofElements xs elements = some (elements ++ Value.ofJsons (jsons xs)) ↔
      readableElements xs = true)
  | [], elements, _ => by simp [Reader.ofElements, jsons, Value.ofJsons, readableElements]
  | x :: xs, elements, h => by
      rw [wellNamedElements, Bool.and_eq_true] at h
      rw [Reader.ofElements, jsons, Value.ofJsons, readableElements, Bool.and_eq_true,
        ← ofText_iff h.1, ← ofElements_iff (elements ++ [.ofJson x.json]) h.2,
        List.append_assoc, List.singleton_append]
      constructor
      · intro heq
        obtain ⟨v, hv, heq⟩ := Option.bind_eq_some_iff.mp heq
        -- the element behind those that were there is the one read
        obtain ⟨rest, hrest⟩ := ofElements_append heq
        rw [List.append_assoc, List.append_cancel_left_eq] at hrest
        cases hrest
        exact ⟨hv, heq⟩
      · rintro ⟨hv, heq⟩
        rw [hv]
        exact heq

theorem ofMembers_iff : ∀ {ms : List (List Piece × JsonText)} (members : List (Bytes × Value)),
    wellNamedMembers ms = true →
    (Reader.ofMembers ms members = some (Value.ofJsonMembers (jsonMembers ms) members) ↔
      readableMembers ms = true)
  | [], members, _ => by
      simp [Reader.ofMembers, jsonMembers, Value.ofJsonMembers, readableMembers]
  | (name, x) :: ms, members, h => by
      rw [wellNamedMembers, Bool.and_eq_true, Bool.and_eq_true, Bool.and_eq_true,
        List.all_eq_true] at h
      obtain ⟨⟨⟨hname, hrest⟩, hx⟩, hms⟩ := h
      have hkey : ∀ m ∈ ms, denoted m.1 ≠ denoted name := fun m hm => by simpa using hrest m hm
      obtain ⟨b, hb, hcut⟩ := exists_ofPieces hname
      rw [Reader.ofMembers, hb, jsonMembers, Value.ofJsonMembers, readableMembers,
        Bool.and_eq_true, ← ofText_iff hx, ← ofMembers_iff
          (Value.insertMember members (denoted name) (.ofJson x.json)) hms]
      simp only [Option.bind_eq_bind, Option.bind_some, hcut]
      constructor
      · intro heq
        obtain ⟨v, hv, heq⟩ := Option.bind_eq_some_iff.mp heq
        -- the member of this name is the one read, for no other has it
        have hfind := find_ofMembers hms hkey heq
        rw [Value.find_ofJsonMembers, get_jsonMembers hkey, Value.find_insertMember,
          Value.find_insertMember, if_pos rfl, if_pos rfl] at hfind
        cases hfind
        exact ⟨hv, heq⟩
      · rintro ⟨hv, heq⟩
        rw [hv]
        exact heq

end

/-! ### Main results -/

/-- The two halves of U+1F600, escaped. -/
def halves : Piece × Piece :=
  (.unicode 100 56 51 100 0xd83d rfl, .unicode 100 101 48 48 0xde00 rfl)

/-- The object with the string `s` under the name `a`, and blanks around both. -/
def spacedString (s : List Piece) : SpacedText :=
  .object .empty [({ before := ⟨[32], List.all_eq_true.mp rfl⟩, it := [.plain 97 rfl] },
    { before := ⟨[32], List.all_eq_true.mp rfl⟩, it := .string s,
      behind := ⟨[13, 10], List.all_eq_true.mp rfl⟩ })]

end UCClient
