import UCClient.Basic

/-!
# jsoncpp Values

`Json::Value` of jsoncpp 0.5.0 as the client program uses it: the dynamically typed
value, its type tests, and the two accessors with a precondition, `operator[](key)`
(`Value::resolveReference`) and `getMemberNames`. The precondition is only a
`JSON_ASSERT`; where it fails the model faults.

`operator[]` on a non-constant value writes: it turns a null value into an object and
inserts a null member for a missing key. The accessors below return the changed
container beside the member, and `index_spec` says that what can be read from the
container afterwards is what could be read before.

An object is its `std::map`: an association list that insertion keeps in `strcmp`
order. The number behind a `realValue` is never looked at by the program; the model
keeps the token it was read from.
-/

namespace UCClient

/-- A `Json::Value`: its `ValueType` and the data of that type. -/
inductive Value
  | null
  | int (i : Int32)
  | uint (u : UInt32)
  | real (token : Bytes)
  | string (s : Bytes)
  | bool (b : Bool)
  | array (xs : List Value)
  | object (members : List (Bytes × Value))

namespace Value

/-- A value made from a `const char *`. -/
def ofCString (b : Bytes) : Value := .string (cstr b)

/-- A value made from a literal of the source. -/
def ofLiteral (s : String) : Value := .string (bytes s)

/-! ### Type tests -/

/-- `Value::isString`. -/
def isString : Value → Bool
  | .string _ => true
  | _ => false

/-- `Value::isInt`: only the `intValue` type, not an unsigned or real number. -/
def isInt : Value → Bool
  | .int _ => true
  | _ => false

/-- `Value::isObject`: null counts as an object. -/
def isObject : Value → Bool
  | .null => true
  | .object _ => true
  | _ => false

/-- The condition of `JSON_ASSERT( type_ == nullValue || type_ == objectValue )`. -/
def indexable : Value → Bool
  | .null => true
  | .object _ => true
  | _ => false

/-! ### Members -/

/-- `strcmp(a, b) < 0`. -/
def strcmpLt : Bytes → Bytes → Bool
  | [], [] => false
  | [], _ :: _ => true
  | _ :: _, [] => false
  | a :: as, b :: bs => if a = b then strcmpLt as bs else a < b

/-- The value stored under a key. -/
def find : List (Bytes × Value) → Bytes → Option Value
  | [], _ => none
  | (k, v) :: rest, key => if k = key then some v else find rest key

/-- Store a value under a key, at its place in key order. -/
def insertMember : List (Bytes × Value) → Bytes → Value → List (Bytes × Value)
  | [], key, x => [(key, x)]
  | (k, v) :: rest, key, x =>
      if k = key then (key, x) :: rest
      else if strcmpLt key k then (key, x) :: (k, v) :: rest
      else (k, v) :: insertMember rest key x

/-- What reading a key of a value gives: null where there is no such member. -/
def member : Value → Bytes → Value
  | .object ms, key => (find ms key).getD .null
  | _, _ => .null

/-- `Value::operator[](key)` as it is evaluated for reading: the container as it is left
behind and the member. -/
def index : Value → Bytes → Except Fault (Value × Value)
  | .null, key => .ok (.object [(key, .null)], .null)
  | .object ms, key =>
      match find ms key with
      | some x => .ok (.object ms, x)
      | none => .ok (.object (insertMember ms key .null), .null)
  | _, _ => .error .jsonAssert

/-- `v[key] = x`. -/
def setMember : Value → Bytes → Value → Except Fault Value
  | .null, key, x => .ok (.object [(key, x)])
  | .object ms, key, x => .ok (.object (insertMember ms key x))
  | _, _, _ => .error .jsonAssert

/-- `v[key₁][key₂] = x`. -/
def setMember₂ (v : Value) (key₁ key₂ : Bytes) (x : Value) : Except Fault Value := do
  let (v, inner) ← v.index key₁
  let inner ← inner.setMember key₂ x
  v.setMember key₁ inner

/-- `Value::getMemberNames`. -/
def getMemberNames : Value → Except Fault (List Bytes)
  | .null => .ok []
  | .object ms => .ok (ms.map Prod.fst)
  | _ => .error .jsonAssert

/-! ### Reading after writing -/

/-- A stored member is found again, and no other key is affected. -/
theorem find_insertMember (ms : List (Bytes × Value)) (key key' : Bytes) (x : Value) :
    find (insertMember ms key x) key' = if key = key' then some x else find ms key' := by
  induction ms with
  | nil => rfl
  | cons m rest ih =>
      obtain ⟨k, v⟩ := m
      simp only [insertMember]
      by_cases hk : k = key
      · subst hk
        by_cases hk' : k = key' <;> simp [find, hk']
      · by_cases hlt : strcmpLt key k
        · simp [hk, hlt, find]
        · simp only [hk, hlt, find, ih, if_false, Bool.false_eq_true]
          by_cases hk' : k = key'
          · subst hk'
            simp [Ne.symm hk]
          · simp [hk']

/-- The members are the old ones and the one that was stored. -/
theorem of_mem_insertMember {ms : List (Bytes × Value)} {key : Bytes} {x : Value}
    {m : Bytes × Value} (h : m ∈ insertMember ms key x) : m = (key, x) ∨ m ∈ ms := by
  induction ms with
  | nil => exact .inl (List.mem_singleton.mp h)
  | cons m' ms ih =>
      obtain ⟨k', v⟩ := m'
      rw [insertMember] at h
      split_ifs at h
      · exact (List.mem_cons.mp h).imp_right (List.mem_cons_of_mem _)
      · exact List.mem_cons.mp h
      · rcases List.mem_cons.mp h with rfl | h
        · exact .inr List.mem_cons_self
        · exact (ih h).imp_right (List.mem_cons_of_mem _)

@[simp] theorem member_object (ms : List (Bytes × Value)) (key : Bytes) :
    (Value.object ms).member key = (find ms key).getD .null := rfl

@[simp] theorem member_null (key : Bytes) : Value.null.member key = .null := rfl

/-- Reading a key of a null or object value succeeds, returns the member, and leaves a
null or object value with the same members behind. -/
theorem index_spec {v : Value} (hv : v.indexable = true) (key : Bytes) :
    ∃ v', v.index key = .ok (v', v.member key) ∧ v'.indexable = true ∧
      ∀ k, v'.member k = v.member k := by
  cases v with
  | null =>
      refine ⟨.object [(key, .null)], rfl, rfl, fun k => ?_⟩
      by_cases hk : key = k <;> simp [find, hk]
  | object ms =>
      cases hf : find ms key with
      | some x => exact ⟨.object ms, by simp [index, hf], rfl, fun k => rfl⟩
      | none =>
          refine ⟨.object (insertMember ms key .null), by simp [index, hf], rfl, fun k => ?_⟩
          rw [member_object, member_object, find_insertMember]
          by_cases hk : key = k
          · subst hk
            simp [hf]
          · simp [hk]
  | int | uint | real | string | bool | array => simp [indexable] at hv

/-- Reading a key of any other value trips the assertion. -/
theorem index_error {v : Value} (hv : v.indexable = false) (key : Bytes) :
    v.index key = .error .jsonAssert := by
  cases v with
  | null | object => simp [indexable] at hv
  | int | uint | real | string | bool | array => rfl

/-- Storing a member of a null or object value succeeds and changes that member only. -/
theorem setMember_spec {v : Value} (hv : v.indexable = true) (key : Bytes) (x : Value) :
    ∃ v', v.setMember key x = .ok v' ∧ v'.indexable = true ∧
      ∀ k, v'.member k = if key = k then x else v.member k := by
  cases v with
  | null =>
      refine ⟨.object [(key, x)], rfl, rfl, fun k => ?_⟩
      by_cases hk : key = k <;> simp [find, hk]
  | object ms =>
      refine ⟨.object (insertMember ms key x), rfl, rfl, fun k => ?_⟩
      rw [member_object, member_object, find_insertMember]
      by_cases hk : key = k <;> simp [hk]
  | int | uint | real | string | bool | array => simp [indexable] at hv

/-- Storing a member of a member, both null or objects, succeeds and changes that member
of that member only. -/
theorem setMember₂_spec {v : Value} {key₁ : Bytes} (hv : v.indexable = true)
    (hi : (v.member key₁).indexable = true) (key₂ : Bytes) (x : Value) :
    ∃ v', v.setMember₂ key₁ key₂ x = .ok v' ∧ v'.indexable = true ∧
      (v'.member key₁).indexable = true ∧
      (∀ k, (v'.member key₁).member k =
        if key₂ = k then x else (v.member key₁).member k) ∧
      ∀ k, k ≠ key₁ → v'.member k = v.member k := by
  obtain ⟨v₁, hv₁, hv₁i, hv₁m⟩ := index_spec hv key₁
  obtain ⟨inner, hin, hini, hinm⟩ := setMember_spec hi key₂ x
  obtain ⟨v', hv', hv'i, hv'm⟩ := setMember_spec hv₁i key₁ inner
  have hinner : v'.member key₁ = inner := by rw [hv'm, if_pos rfl]
  refine ⟨v', ?_, hv'i, by rwa [hinner], ?_, ?_⟩
  · simp only [setMember₂, hv₁, hin, bind, Except.bind]
    exact hv'
  · rw [hinner]
    exact hinm
  · intro k hk
    rw [hv'm, if_neg (Ne.symm hk), hv₁m]

end Value

end UCClient
