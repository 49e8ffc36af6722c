import Mathlib.Data.List.Nodup
import UCClient.Sdk
import UCClient.Stores

/-!
# The Settings of the Client in the Registry

The client keeps its settings under one registry key of the current user. They are written by
the two overloads of `SetRegKey`, one for strings and one for numbers, and read by
`ReadRegKeyString` and `ReadRegKeyDWORD`, which look under the same key of the default user
when the current user has no such value, and else leave the default.

A value has the type it was written with, and only a query for that type succeeds. A query for
another one fails, but the class of ATL the readers use asks for the data first and tests the
type afterwards, so that it may have written to the variable by then; the readers return the
variable all the same. What is left there is up to ATL and to Windows (`Leftovers`), and the
results are for all of it. The name of a value is found whatever the case of its letters. The
keys can be opened and created.

## Main results

* `Registry.after_currentUser`: the key of the current user holds the last value each name was
  written with.
* `Setting.read_eq_iff`: a setting is read back exactly when its value was written with the
  type its readers ask for.
-/

namespace UCClient

/-- A value of the registry: `REG_SZ` or `REG_DWORD`. -/
inductive RegValue
  | sz (s : Bytes)
  | dword (v : UInt32)
  deriving DecidableEq, Repr

/-- Whether a value is a text. -/
def RegValue.isText : RegValue → Bool
  | .sz _ => true
  | .dword _ => false

/-- The letter of an ASCII byte in upper case. -/
def toupper (c : UInt8) : UInt8 := if 97 ≤ c && c ≤ 122 then c - 32 else c

/-- The name a value is found under. -/
def regName (name : Bytes) : Bytes := (cstr name).map toupper

/-- The values of a key. -/
abbrev RegKey := Bytes → Option RegValue

/-- The key `SoftWare\ytx\UCClient` of the current user and of `.DEFAULT`. -/
structure Registry where
  HKEY_CURRENT_USER : RegKey
  HKEY_USERS : RegKey

/-- The registry before anything is stored. -/
def Registry.empty : Registry := { HKEY_CURRENT_USER := fun _ => none, HKEY_USERS := fun _ => none }

def MAX_PATH : ℕ := 260

/-- What a query leaves in its variable when there is a value and the query fails: of another
type, or too long for the buffer. -/
structure Leftovers where
  string : RegValue → Bytes → Bytes
  dword : RegValue → UInt32 → UInt32

/-- A query that fails leaves its variable as it was. -/
def Leftovers.untouched : Leftovers := { string := fun _ b => b, dword := fun _ v => v }

namespace RegKey

/-- `CRegKey::QueryStringValue` into a buffer of `MAX_PATH` characters, the last one for the
NUL: whether it succeeds, and the buffer. Without a value the buffer stays as it is. -/
def QueryStringValue (left : Leftovers) (key : RegKey) (name strValue : Bytes) : Bool × Bytes :=
  match key (regName name) with
  | none => (false, strValue)
  | some (.sz s) =>
      if s.length < MAX_PATH then (true, cstr s) else (false, left.string (.sz s) strValue)
  | some (.dword v) => (false, left.string (.dword v) strValue)

/-- `CRegKey::QueryDWORDValue`, likewise. -/
def QueryDWORDValue (left : Leftovers) (key : RegKey) (name : Bytes) (dwValue : UInt32) :
    Bool × UInt32 :=
  match key (regName name) with
  | none => (false, dwValue)
  | some (.sz s) => (false, left.dword (.sz s) dwValue)
  | some (.dword v) => (true, v)

end RegKey

/-- `ReadRegKeyString`: the second query is given the buffer as the first one left it. -/
def ReadRegKeyString (left : Leftovers) (r : Registry) (name default : Bytes) : Bytes :=
  let (found, strValue) := r.HKEY_CURRENT_USER.QueryStringValue left name default
  cstr (if found then strValue else (r.HKEY_USERS.QueryStringValue left name strValue).2)

/-- `ReadRegKeyDWORD`. -/
def ReadRegKeyDWORD (left : Leftovers) (r : Registry) (name : Bytes) (default : UInt32) : UInt32 :=
  let (found, dwValue) := r.HKEY_CURRENT_USER.QueryDWORDValue left name default
  if found then dwValue else (r.HKEY_USERS.QueryDWORDValue left name dwValue).2

/-! ### Writes -/

/-- What a call of `SetRegKey` writes, and under which name. -/
def Obs.regWrite : Obs → Option (Bytes × RegValue)
  | .SetRegKeyString name value => some (regName name, .sz (cstr value))
  | .SetRegKeyDWORD name value => some (regName name, .dword value)
  | _ => none

/-- What the calls of `SetRegKey` among some observations write. -/
def regWrites (obs : List Obs) : List (Bytes × RegValue) := obs.filterMap Obs.regWrite

theorem regWrites_append (obs obs' : List Obs) :
    regWrites (obs ++ obs') = regWrites obs ++ regWrites obs' := List.filterMap_append

namespace Registry

/-- The registry after a call of `SetRegKey`; other calls leave it alone. -/
def SetRegKey (r : Registry) (o : Obs) : Registry :=
  match o.regWrite with
  | some w => { r with HKEY_CURRENT_USER := Store.write r.HKEY_CURRENT_USER w }
  | none => r

/-- The registry after some calls. -/
def after (r : Registry) (obs : List Obs) : Registry := obs.foldl SetRegKey r

theorem after_append (r : Registry) (obs obs' : List Obs) :
    r.after (obs ++ obs') = (r.after obs).after obs' := List.foldl_append

theorem after_writes (r : Registry) (obs : List Obs) :
    (r.after obs).HKEY_CURRENT_USER = Store.writes r.HKEY_CURRENT_USER (regWrites obs) ∧
      (r.after obs).HKEY_USERS = r.HKEY_USERS := by
  induction obs generalizing r with
  | nil => exact ⟨rfl, rfl⟩
  | cons o obs ih =>
      obtain ⟨huser, hdefault⟩ := ih (r.SetRegKey o)
      cases ho : o.regWrite with
      | none =>
          have hset : r.SetRegKey o = r := by rw [SetRegKey, ho]
          have hwrites : regWrites (o :: obs) = regWrites obs := List.filterMap_cons_none ho
          rw [after, List.foldl_cons, ← after, huser, hdefault, hset, hwrites]
          exact ⟨rfl, rfl⟩
      | some w =>
          have hset : r.SetRegKey o =
              { r with HKEY_CURRENT_USER := Store.write r.HKEY_CURRENT_USER w } := by
            rw [SetRegKey, ho]
          have hwrites : regWrites (o :: obs) = w :: regWrites obs := List.filterMap_cons_some ho
          rw [after, List.foldl_cons, ← after, huser, hdefault, hset, hwrites]
          exact ⟨rfl, rfl⟩

/-- **The key of the current user holds the last writes.** -/
theorem after_currentUser (r : Registry) (obs : List Obs) (name : Bytes) :
    (r.after obs).HKEY_CURRENT_USER name =
      (Store.last (regWrites obs) name).or (r.HKEY_CURRENT_USER name) := by
  rw [(r.after_writes obs).1, Store.writes_apply]

/-- The key of the default user is not written to. -/
theorem after_users (r : Registry) (obs : List Obs) : (r.after obs).HKEY_USERS = r.HKEY_USERS :=
  (r.after_writes obs).2

end Registry

/-- Where no text is written, the last number is read, and else what was read before. -/
theorem ReadRegKeyDWORD_after {left : Leftovers} {r : Registry} {obs : List Obs} {name : Bytes}
    (last : Option UInt32)
    (h : Store.last (regWrites obs) (regName name) = last.map .dword) (default : UInt32) :
    ReadRegKeyDWORD left (r.after obs) name default =
      last.getD (ReadRegKeyDWORD left r name default) := by
  have huser := r.after_currentUser obs (regName name)
  rw [h] at huser
  cases last with
  | none =>
      rw [Option.map_none, Option.none_or] at huser
      simp only [ReadRegKeyDWORD, RegKey.QueryDWORDValue, huser, Registry.after_users]
      rfl
  | some v =>
      rw [Option.map_some, Option.some_or] at huser
      simp only [ReadRegKeyDWORD, RegKey.QueryDWORDValue, huser, if_true, Option.getD_some]

/-! ### The settings -/

/-- The settings the program reads. -/
inductive Setting
  | WebSocketPort | Speaker | MicroPhone | SpeakerVolume | MicroVolume | LogLevel | LogPath
  deriving DecidableEq, Repr

namespace Setting

def name : Setting → Bytes
  | WebSocketPort => bytes "WebSocketPort"
  | Speaker => bytes "Speaker"
  | MicroPhone => bytes "MicroPhone"
  | SpeakerVolume => bytes "SpeakerVolume"
  | MicroVolume => bytes "MicroVolume"
  | LogLevel => bytes "LogLevel"
  | LogPath => bytes "LogPath"

/-- Whether the setting is read by `ReadRegKeyString`, or else by `ReadRegKeyDWORD`. -/
def isText : Setting → Bool
  | Speaker | MicroPhone | LogPath => true
  | WebSocketPort | SpeakerVolume | MicroVolume | LogLevel => false

def all : List Setting :=
  [WebSocketPort, Speaker, MicroPhone, SpeakerVolume, MicroVolume, LogLevel, LogPath]

theorem mem_all (x : Setting) : x ∈ all := by
  cases x <;> decide

instance (p : Setting → Prop) [DecidablePred p] : Decidable (∀ x, p x) :=
  decidable_of_iff (∀ x ∈ all, p x) ⟨fun h x => h x (mem_all x), fun h x _ => h x⟩

/-- No two settings are found under one name. -/
theorem regName_name {x y : Setting} : regName x.name = regName y.name ↔ x = y := by
  have hnames : (all.map fun x => regName x.name).Nodup := by decide +kernel
  exact ⟨List.inj_on_of_nodup_map hnames (mem_all x) (mem_all y), fun h => by rw [h]⟩

/-- The value of a setting as the program reads it, over the default of its type. -/
def read (x : Setting) (left : Leftovers) (r : Registry) (text : Bytes) (number : UInt32) :
    RegValue :=
  if x.isText then .sz (ReadRegKeyString left r x.name text)
  else .dword (ReadRegKeyDWORD left r x.name number)

/-- What the current user has is read exactly when it has the type the readers ask for. -/
theorem read_eq_iff {x : Setting} {left : Leftovers} {r : Registry} {v : RegValue}
    (hv : r.HKEY_CURRENT_USER (regName x.name) = some v)
    (hs : ∀ s, v = .sz s → cstr s = s ∧ s.length < MAX_PATH) :
    (∀ text number, x.read left r text number = v) ↔ v.isText = x.isText := by
  cases v with
  | sz s =>
      obtain ⟨hcstr, hlen⟩ := hs s rfl
      cases hx : x.isText with
      | true =>
          simp [read, hx, ReadRegKeyString, RegKey.QueryStringValue, hv, hlen, hcstr,
            RegValue.isText]
      | false => simp [read, hx, RegValue.isText]
  | dword w =>
      cases hx : x.isText with
      | true => simp [read, hx, RegValue.isText]
      | false => simp [read, hx, ReadRegKeyDWORD, RegKey.QueryDWORDValue, hv, RegValue.isText]

end Setting

end UCClient
