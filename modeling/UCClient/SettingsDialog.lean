import UCClient.JsonWriting
import UCClient.Settings

/-!
# The Settings Dialog

The dialog fills its controls when it is opened: the devices of the SDK into two combo boxes,
and the settings it reads from the registry into edits, sliders and the choice of the combos.
It remembers what it read. When it is left, whatever a control then shows other than what is
remembered is written to the registry.

So nothing is written for a setting only if its control can show it. An edit shows every port
and every log level, since `strtol` reads back what `%d` writes. A combo shows the devices
that are plugged in, and a slider the volumes up to 255.

The numbers a user types are read by `strtol`, which takes the digits in front and ignores the
rest, and a port is then cut to 16 bits.

The controls are those of DuiLib, as far as their texts, selections and values go; the texts
have no NUL in them. The conversion of a name from UTF-8 to the code page of the system is a
parameter.

## Main results

* `settings_unchanged_iff`: opening the dialog and leaving it writes nothing **exactly when the
  stored devices are in the lists and the stored volumes fit the sliders**.
* `port_used_iff`: the port is the one typed, or the one before, exactly when the text is the
  numeral of a port, or what `strtol` makes of it is the port shown before.
-/

namespace UCClient

open Json (isDigit natOf)

/-! ### Numbers in texts -/

/-- The white space of the C locale. -/
def isspace (c : UInt8) : Bool := c = 32 || (9 ≤ c && c ≤ 13)

/-- The value of a `long`, of 32 bits, that is closest. -/
def toLong (z : ℤ) : ℤ :=
  if z < -2 ^ 31 then -2 ^ 31 else if z ≥ 2 ^ 31 then 2 ^ 31 - 1 else z

/-- `strtol` to the base 10: a sign and digits behind white space, 0 if there are no digits. -/
def strtol (text : Bytes) : ℤ :=
  match text.dropWhile isspace with
  | [] => 0
  | c :: s =>
      if c = 45 then toLong (-natOf (s.takeWhile isDigit))
      else if c = 43 then toLong (natOf (s.takeWhile isDigit))
      else toLong (natOf ((c :: s).takeWhile isDigit))

/-- A digit is neither white space nor a sign. -/
theorem isDigit_spec {c : UInt8} (hc : isDigit c = true) :
    isspace c = false ∧ c ≠ 45 ∧ c ≠ 43 := by
  have hlow : 48 ≤ c.toNat := by
    simp only [isDigit, Bool.and_eq_true, decide_eq_true_eq, UInt8.le_iff_toNat_le] at hc
    exact hc.1
  have hne : ∀ d : UInt8, d.toNat < 48 → c ≠ d := by
    rintro d hd rfl
    omega
  have hhigh : ¬ c ≤ 13 := by
    rw [UInt8.le_iff_toNat_le]
    exact Nat.not_le_of_lt (Nat.lt_of_lt_of_le (by decide) hlow)
  refine ⟨?_, hne 45 (by decide), hne 43 (by decide)⟩
  simp [isspace, hne 32 (by decide), hhigh]

theorem toLong_of_mem {z : ℤ} (hlow : -2 ^ 31 ≤ z) (hhigh : z < 2 ^ 31) : toLong z = z := by
  rw [toLong, if_neg (by omega), if_neg (by omega)]

/-- A numeral: one digit or more, and nothing else. -/
def IsNumeral (text : Bytes) : Prop := text ≠ [] ∧ ∀ c ∈ text, isDigit c = true

instance (text : Bytes) : Decidable (IsNumeral text) := inferInstanceAs (Decidable (_ ∧ _))

theorem strtol_numeral {text : Bytes} (h : IsNumeral text) : strtol text = toLong (natOf text) := by
  obtain ⟨hne, hdigits⟩ := h
  obtain ⟨c, ds, rfl⟩ := List.exists_cons_of_ne_nil hne
  obtain ⟨hspace, hminus, hplus⟩ := isDigit_spec (hdigits c List.mem_cons_self)
  rw [strtol, List.dropWhile_cons_of_neg (by simp [hspace])]
  simp only [if_neg hminus, if_neg hplus]
  rw [List.takeWhile_eq_self_iff.mpr hdigits]

/-- `strtol` reads back what `%d` writes. -/
theorem strtol_valueToStringInt (i : Int32) : strtol (Value.valueToStringInt i) = i.toInt := by
  obtain ⟨c, ds, heq, hdec⟩ := Value.valueToStringInt_decimal i
  have hlow := i.le_toInt
  have hhigh := i.toInt_lt
  have hdigits : ∀ d ∈ c :: ds, isDigit d = true :=
    List.forall_mem_cons.mpr ⟨hdec.head, hdec.tail⟩
  rw [heq]
  by_cases hneg : i.toInt < 0
  · rw [if_pos hneg, strtol, List.dropWhile_cons_of_neg (by decide)]
    simp only [if_true]
    rw [List.takeWhile_eq_self_iff.mpr hdigits, hdec.value, toLong_of_mem (by omega) (by omega)]
    omega
  · rw [if_neg hneg, strtol_numeral ⟨List.cons_ne_nil _ _, hdigits⟩, hdec.value,
      toLong_of_mem (by omega) (by omega)]
    omega

/-! ### Controls -/

/-- `CComboUI`: the texts of its items and the selected one, or -1. -/
structure CComboUI where
  m_items : List Bytes := []
  m_iCurSel : ℤ := -1

namespace CComboUI

def Add (c : CComboUI) (text : Bytes) : CComboUI := { c with m_items := c.m_items ++ [text] }

def SelectItem (c : CComboUI) (iIndex : ℤ) : CComboUI :=
  if iIndex = c.m_iCurSel then c
  else if iIndex < 0 then { c with m_iCurSel := -1 }
  else if c.m_items.length = 0 then { c with m_iCurSel := -1 }
  else if iIndex ≥ c.m_items.length then { c with m_iCurSel := c.m_items.length - 1 }
  else { c with m_iCurSel := iIndex }

def GetText (c : CComboUI) : Bytes :=
  if c.m_iCurSel < 0 then [] else c.m_items[c.m_iCurSel.toNat]?.getD []

/-- The loop of `OnPrepare` that selects each item with the text. -/
def selectText (c : CComboUI) (text : Bytes) : CComboUI :=
  (List.range c.m_items.length).foldl
    (fun c (i : ℕ) => if c.m_items[i]? = some text then c.SelectItem i else c) c

end CComboUI

/-- `CSliderUI`: its range and its value. -/
structure CSliderUI where
  m_nMin : ℤ := 0
  m_nMax : ℤ := 100
  m_nValue : ℤ := 0

def CSliderUI.SetValue (s : CSliderUI) (nValue : ℤ) : CSliderUI :=
  let value := if nValue > s.m_nMax then s.m_nMax else nValue
  { s with m_nValue := if value < s.m_nMin then s.m_nMin else value }

/-- The controls of the dialog a user can change: the edits by their texts. -/
structure Controls where
  m_pPort : Bytes := []
  m_pLogLevel : Bytes := []
  m_pLogPath : Bytes := []
  m_pMicrophoneCombo : CComboUI := {}
  m_pMicrophoneVolume : CSliderUI := {}
  m_pSpeakerCombo : CComboUI := {}
  m_pSpeakerVolume : CSliderUI := {}

/-- The dialog: its controls, and the settings as they were read. -/
structure CSettingsWnd extends Controls where
  m_LogPath : Bytes := []
  m_wsPort : UInt16 := 0
  m_SpeakerVolume : UInt32 := 0
  m_MicroVolume : UInt32 := 0
  m_SpeakerName : Bytes := []
  m_MicroName : Bytes := []
  m_LogLevel : UInt32 := 0

namespace CSettingsWnd

/-- `InitWindow`, with the devices the SDK lists. -/
def InitWindow (UTF_82ASCII : Bytes → Bytes) (micro speaker : List Device) (w : CSettingsWnd) :
    CSettingsWnd :=
  let add (c : CComboUI) (d : Device) := c.Add (cstr (UTF_82ASCII d.name))
  { w with
    m_pSpeakerVolume := { w.m_pSpeakerVolume with m_nMin := 0, m_nMax := 255 }
    m_pMicrophoneVolume := { w.m_pMicrophoneVolume with m_nMin := 0, m_nMax := 255 }
    m_pMicrophoneCombo := (micro.foldl add w.m_pMicrophoneCombo).SelectItem 0
    m_pSpeakerCombo := (speaker.foldl add w.m_pSpeakerCombo).SelectItem 0 }

/-- `OnPrepare`. A number is shown as `%d` shows an `int`, and a slider is given an `int`. -/
def OnPrepare (left : Leftovers) (r : Registry) (w : CSettingsWnd) : CSettingsWnd :=
  let m_wsPort := (ReadRegKeyDWORD left r Setting.WebSocketPort.name 19998).toUInt16
  let m_SpeakerName := ReadRegKeyString left r Setting.Speaker.name []
  let m_MicroName := ReadRegKeyString left r Setting.MicroPhone.name []
  let m_SpeakerVolume := ReadRegKeyDWORD left r Setting.SpeakerVolume.name 128
  let m_MicroVolume := ReadRegKeyDWORD left r Setting.MicroVolume.name 128
  let m_LogLevel := ReadRegKeyDWORD left r Setting.LogLevel.name 23
  let m_LogPath := ReadRegKeyString left r Setting.LogPath.name []
  { m_wsPort, m_SpeakerName, m_MicroName, m_SpeakerVolume, m_MicroVolume, m_LogLevel, m_LogPath
    m_pPort := Value.valueToStringInt m_wsPort.toUInt32.toInt32
    m_pLogPath := m_LogPath
    m_pMicrophoneCombo := w.m_pMicrophoneCombo.selectText m_MicroName
    m_pMicrophoneVolume := w.m_pMicrophoneVolume.SetValue m_MicroVolume.toInt32.toInt
    m_pSpeakerCombo := w.m_pSpeakerCombo.selectText m_SpeakerName
    m_pSpeakerVolume := w.m_pSpeakerVolume.SetValue m_SpeakerVolume.toInt32.toInt
    m_pLogLevel := Value.valueToStringInt m_LogLevel.toInt32 }

/-- The write of a setting that is shown with another value than it was read with. -/
def writeIf {α : Type} [DecidableEq α] (shown read : α) (SetRegKey : α → Obs) : List Obs :=
  if shown ≠ read then [SetRegKey shown] else []

/-- `OnExit`: the calls of `SetRegKey` it makes. Two `uint16_t` are compared as wider
integers. -/
def OnExit (w : CSettingsWnd) : List Obs :=
  writeIf (UInt16.ofInt (strtol w.m_pPort)).toUInt32 w.m_wsPort.toUInt32
      (.SetRegKeyDWORD Setting.WebSocketPort.name) ++
    writeIf w.m_pSpeakerCombo.GetText w.m_SpeakerName (.SetRegKeyString Setting.Speaker.name) ++
    writeIf w.m_pMicrophoneCombo.GetText w.m_MicroName (.SetRegKeyString Setting.MicroPhone.name) ++
    writeIf (UInt32.ofInt w.m_pSpeakerVolume.m_nValue) w.m_SpeakerVolume
      (.SetRegKeyDWORD Setting.SpeakerVolume.name) ++
    writeIf (UInt32.ofInt w.m_pMicrophoneVolume.m_nValue) w.m_MicroVolume
      (.SetRegKeyDWORD Setting.MicroVolume.name) ++
    writeIf (UInt32.ofInt (strtol w.m_pLogLevel)) w.m_LogLevel
      (.SetRegKeyDWORD Setting.LogLevel.name) ++
    writeIf w.m_pLogPath w.m_LogPath (.SetRegKeyString Setting.LogPath.name)

/-- The dialog as it is opened. -/
def opened (UTF_82ASCII : Bytes → Bytes) (micro speaker : List Device) (left : Leftovers)
    (r : Registry) : CSettingsWnd :=
  OnPrepare left r (InitWindow UTF_82ASCII micro speaker {})

end CSettingsWnd

/-! ### What the controls show -/

namespace CComboUI

variable {c : CComboUI} {text : Bytes}

theorem SelectItem_items (c : CComboUI) (i : ℤ) : (c.SelectItem i).m_items = c.m_items := by
  unfold SelectItem
  split_ifs <;> rfl

theorem GetText_SelectItem {i : ℕ} (h : c.m_items[i]? = some text) :
    (c.SelectItem i).GetText = text := by
  have hlt : i < c.m_items.length := (List.getElem?_eq_some_iff.mp h).1
  have hsel : (c.SelectItem i).m_iCurSel = i := by
    unfold SelectItem
    split_ifs <;> simp_all <;> omega
  rw [GetText, SelectItem_items, hsel, if_neg (by omega), Int.toNat_natCast, h, Option.getD_some]

/-- The loop over the first items: it keeps the items, and shows the text once it was there. -/
theorem foldl_selectText (c : CComboUI) (text : Bytes) (n : ℕ) :
    let c' := (List.range n).foldl
      (fun c (i : ℕ) => if c.m_items[i]? = some text then c.SelectItem i else c) c
    c'.m_items = c.m_items ∧
      if ∃ i < n, c.m_items[i]? = some text then c'.GetText = text else c' = c := by
  induction n with
  | zero => simp
  | succ n ih =>
      obtain ⟨hitems, hshown⟩ := ih
      have hsplit : (∃ i < n + 1, c.m_items[i]? = some text) ↔
          (∃ i < n, c.m_items[i]? = some text) ∨ c.m_items[n]? = some text := by
        constructor
        · rintro ⟨i, hi, htext⟩
          rcases Nat.lt_succ_iff_lt_or_eq.mp hi with hi | rfl
          · exact .inl ⟨i, hi, htext⟩
          · exact .inr htext
        · rintro (⟨i, hi, htext⟩ | htext)
          · exact ⟨i, by omega, htext⟩
          · exact ⟨n, by omega, htext⟩
      simp only [List.range_succ, List.foldl_append, List.foldl_cons, List.foldl_nil, hitems,
        hsplit]
      by_cases hn : c.m_items[n]? = some text
      · rw [if_pos hn, if_pos (.inr hn), SelectItem_items, hitems]
        exact ⟨rfl, GetText_SelectItem (by rw [hitems, hn])⟩
      · rw [if_neg hn]
        simp only [hn, or_false]
        exact ⟨hitems, hshown⟩

theorem selectText_spec (c : CComboUI) (text : Bytes) :
    if text ∈ c.m_items then (c.selectText text).GetText = text else c.selectText text = c := by
  have hmem : text ∈ c.m_items ↔ ∃ i < c.m_items.length, c.m_items[i]? = some text := by
    rw [List.mem_iff_getElem?]
    exact ⟨fun ⟨i, hi⟩ => ⟨i, (List.getElem?_eq_some_iff.mp hi).1, hi⟩, fun ⟨i, _, hi⟩ => ⟨i, hi⟩⟩
  simp only [hmem]
  exact (foldl_selectText c text _).2

/-- A text is shown by a combo with the first item selected exactly when it is one of the
items, or there are none and the text is empty. -/
theorem GetText_selectText_iff (items : List Bytes) (text : Bytes) :
    ((({ m_items := items } : CComboUI).SelectItem 0).selectText text).GetText = text ↔
      text ∈ items ∨ items = [] ∧ text = [] := by
  have hspec := selectText_spec (({ m_items := items } : CComboUI).SelectItem 0) text
  rw [SelectItem_items] at hspec
  by_cases hmem : text ∈ items
  · rw [if_pos hmem] at hspec
    exact iff_of_true hspec (.inl hmem)
  · rw [if_neg hmem] at hspec
    rw [hspec]
    cases items with
    | nil =>
        have hnone : (({ m_items := [] } : CComboUI).SelectItem 0).GetText = [] := rfl
        rw [hnone]
        simp [eq_comm]
    | cons first rest =>
        have hfirst : (({ m_items := first :: rest } : CComboUI).SelectItem 0).GetText = first :=
          GetText_SelectItem (i := 0) rfl
        rw [hfirst]
        have hne : first ≠ text := fun h => hmem (h ▸ List.mem_cons_self)
        simp [hne, hmem]

theorem foldl_Add {α : Type} (label : α → Bytes) (ds : List α) (c : CComboUI) :
    ds.foldl (fun c d => c.Add (label d)) c = { c with m_items := c.m_items ++ ds.map label } := by
  induction ds generalizing c with
  | nil => simp
  | cons d ds ih =>
      rw [List.foldl_cons, ih]
      simp [Add]

end CComboUI

/-! ### Conversions -/

theorem toInt_toInt32 (v : UInt32) :
    v.toInt32.toInt = if v.toNat < 2 ^ 31 then (v.toNat : ℤ) else v.toNat - 2 ^ 32 := by
  have hv : v.toInt32.toInt = v.toBitVec.toInt := rfl
  have hnat : v.toBitVec.toNat = v.toNat := rfl
  rw [hv, BitVec.toInt_eq_toNat_cond, hnat]
  split_ifs <;> omega

theorem uint32_ofInt_eq_iff (z : ℤ) (v : UInt32) :
    UInt32.ofInt z = v ↔ z % 2 ^ 32 = v.toNat := by
  have hlt := v.toNat_lt
  rw [UInt32.ofInt, ← UInt32.toNat_inj, UInt32.toNat_ofNat']
  omega

theorem uint16_ofInt_eq_iff (z : ℤ) (v : UInt16) :
    UInt16.ofInt z = v ↔ z % 2 ^ 16 = v.toNat := by
  have hlt := v.toNat_lt
  rw [UInt16.ofInt, ← UInt16.toNat_inj, UInt16.toNat_ofNat']
  omega

/-- An edit shows every log level. -/
theorem strtol_level (v : UInt32) :
    UInt32.ofInt (strtol (Value.valueToStringInt v.toInt32)) = v := by
  have hlt := v.toNat_lt
  rw [strtol_valueToStringInt, uint32_ofInt_eq_iff, toInt_toInt32]
  split_ifs <;> omega

/-- An edit shows every port. -/
theorem strtol_port (v : UInt16) :
    UInt16.ofInt (strtol (Value.valueToStringInt v.toUInt32.toInt32)) = v := by
  have hlt := v.toNat_lt
  rw [strtol_valueToStringInt, uint16_ofInt_eq_iff, toInt_toInt32, UInt16.toNat_toUInt32,
    if_pos (by omega)]
  omega

/-- A slider shows the volumes up to 255. -/
theorem CSliderUI.SetValue_iff (value : ℤ) (v : UInt32) :
    UInt32.ofInt (({ m_nMin := 0, m_nMax := 255, m_nValue := value } : CSliderUI).SetValue
      v.toInt32.toInt).m_nValue = v ↔ v ≤ 255 := by
  have hlt := v.toNat_lt
  have hle : v ≤ 255 ↔ v.toNat ≤ 255 := UInt32.le_iff_toNat_le
  simp only [SetValue, uint32_ofInt_eq_iff, toInt_toInt32, hle]
  split_ifs <;> omega

/-! ### What is written -/

namespace CSettingsWnd

theorem writeIf_eq_nil {α : Type} [DecidableEq α] {shown read : α} {SetRegKey : α → Obs} :
    writeIf shown read SetRegKey = [] ↔ shown = read := by
  by_cases h : shown = read <;> simp [writeIf, h]

theorem last_writeIf_string (shown read name key : Bytes) :
    Store.last (regWrites (writeIf shown read (.SetRegKeyString name))) key =
      if regName name = key ∧ shown ≠ read then some (.sz (cstr shown)) else none := by
  by_cases h : shown = read
  · simp [writeIf, h, regWrites, Store.last_nil]
  · simp [writeIf, h, regWrites, Obs.regWrite, Store.last_singleton]

theorem last_writeIf_dword (shown read : UInt32) (name key : Bytes) :
    Store.last (regWrites (writeIf shown read (.SetRegKeyDWORD name))) key =
      if regName name = key ∧ shown ≠ read then some (.dword shown) else none := by
  by_cases h : shown = read
  · simp [writeIf, h, regWrites, Store.last_nil]
  · simp [writeIf, h, regWrites, Obs.regWrite, Store.last_singleton]

/-- What leaving the dialog writes for a setting. -/
def exitValue (w : CSettingsWnd) : Setting → Option RegValue
  | .WebSocketPort =>
      if (UInt16.ofInt (strtol w.m_pPort)).toUInt32 ≠ w.m_wsPort.toUInt32 then
        some (.dword (UInt16.ofInt (strtol w.m_pPort)).toUInt32)
      else none
  | .Speaker =>
      if w.m_pSpeakerCombo.GetText ≠ w.m_SpeakerName then
        some (.sz (cstr w.m_pSpeakerCombo.GetText))
      else none
  | .MicroPhone =>
      if w.m_pMicrophoneCombo.GetText ≠ w.m_MicroName then
        some (.sz (cstr w.m_pMicrophoneCombo.GetText))
      else none
  | .SpeakerVolume =>
      if UInt32.ofInt w.m_pSpeakerVolume.m_nValue ≠ w.m_SpeakerVolume then
        some (.dword (UInt32.ofInt w.m_pSpeakerVolume.m_nValue))
      else none
  | .MicroVolume =>
      if UInt32.ofInt w.m_pMicrophoneVolume.m_nValue ≠ w.m_MicroVolume then
        some (.dword (UInt32.ofInt w.m_pMicrophoneVolume.m_nValue))
      else none
  | .LogLevel =>
      if UInt32.ofInt (strtol w.m_pLogLevel) ≠ w.m_LogLevel then
        some (.dword (UInt32.ofInt (strtol w.m_pLogLevel)))
      else none
  | .LogPath =>
      if w.m_pLogPath ≠ w.m_LogPath then some (.sz (cstr w.m_pLogPath)) else none

theorem last_OnExit (w : CSettingsWnd) (x : Setting) :
    Store.last (regWrites w.OnExit) (regName x.name) = w.exitValue x := by
  rw [OnExit]
  simp only [regWrites_append, Store.last_append, last_writeIf_string, last_writeIf_dword,
    Setting.regName_name]
  cases x <;> simp [exitValue]

end CSettingsWnd

/-! ### Looking at the settings -/

/-- A combo that is filled with these items can show the text. -/
def Shown (items : List Bytes) (text : Bytes) : Prop := text ∈ items ∨ items = [] ∧ text = []

/-- The texts of the items for some devices. -/
def labels (UTF_82ASCII : Bytes → Bytes) (devices : List Device) : List Bytes :=
  devices.map fun d => cstr (UTF_82ASCII d.name)

/-- The combos of the dialog are filled with the devices and look for the stored one. -/
theorem InitWindow_combos (UTF_82ASCII : Bytes → Bytes) (micro speaker : List Device) :
    (CSettingsWnd.InitWindow UTF_82ASCII micro speaker {}).m_pMicrophoneCombo =
        ({ m_items := labels UTF_82ASCII micro } : CComboUI).SelectItem 0 ∧
      (CSettingsWnd.InitWindow UTF_82ASCII micro speaker {}).m_pSpeakerCombo =
        ({ m_items := labels UTF_82ASCII speaker } : CComboUI).SelectItem 0 := by
  simp only [CSettingsWnd.InitWindow, CComboUI.foldl_Add, List.nil_append]
  exact ⟨rfl, rfl⟩

/-- **Looking at the settings** — opening the dialog and leaving it without any input — writes
nothing to the registry exactly when the stored devices are among those the SDK lists, and the
stored volumes are in the range of the sliders. A device that is not stored counts as one
without a name, which only an empty list shows; one that is stored as a number has the name the
reader finds in its buffer. -/
theorem settings_unchanged_iff (UTF_82ASCII : Bytes → Bytes) (micro speaker : List Device)
    (left : Leftovers) (r : Registry) :
    (CSettingsWnd.opened UTF_82ASCII micro speaker left r).OnExit = [] ↔
      Shown (labels UTF_82ASCII speaker) (ReadRegKeyString left r Setting.Speaker.name []) ∧
      Shown (labels UTF_82ASCII micro) (ReadRegKeyString left r Setting.MicroPhone.name []) ∧
      ReadRegKeyDWORD left r Setting.SpeakerVolume.name 128 ≤ 255 ∧
      ReadRegKeyDWORD left r Setting.MicroVolume.name 128 ≤ 255 := by
  obtain ⟨hmicro, hspeaker⟩ := InitWindow_combos UTF_82ASCII micro speaker
  simp only [CSettingsWnd.OnExit, List.append_eq_nil_iff, CSettingsWnd.writeIf_eq_nil,
    CSettingsWnd.opened, CSettingsWnd.OnPrepare, hmicro, hspeaker, strtol_level, strtol_port,
    CComboUI.GetText_selectText_iff, and_true, true_and, and_assoc]
  have hslider := CSliderUI.SetValue_iff 0
  exact and_congr_right fun _ => and_congr_right fun _ => and_congr (hslider _) (hslider _)

/-- A microphone that is not plugged in is forgotten for the one that is, and a volume is
cut. -/
theorem settings_changed :
    (CSettingsWnd.opened id [⟨0, bytes "mic", []⟩] [] .untouched
        (Registry.empty.after [.SetRegKeyString (bytes "MicroPhone") (bytes "headset"),
          .SetRegKeyDWORD (bytes "SpeakerVolume") 300])).OnExit =
      [.SetRegKeyString (bytes "MicroPhone") (bytes "mic"),
        .SetRegKeyDWORD (bytes "SpeakerVolume") 255] := by
  decide +kernel

/-! ### The port -/

/-- The port the main window reads when it is constructed. It keeps it in `m_wsPort`, a
`uint16_t`, so that of a number with more bits the lower 16 are used. -/
def wsPort (left : Leftovers) (r : Registry) : UInt32 :=
  ReadRegKeyDWORD left r Setting.WebSocketPort.name 19998

/-- The port is the one before, or the number typed, and that is the number of a port. -/
def PortUsed (text : Bytes) (before after : UInt32) : Prop :=
  after = before ∨
    IsNumeral text ∧ 1 ≤ natOf text ∧ natOf text ≤ 65535 ∧ after.toNat = natOf text

theorem wsPort_OnExit (w : CSettingsWnd) (left : Leftovers) (r : Registry) :
    wsPort left (r.after w.OnExit) =
      if UInt16.ofInt (strtol w.m_pPort) = w.m_wsPort then wsPort left r
      else (UInt16.ofInt (strtol w.m_pPort)).toUInt32 := by
  have hlast := w.last_OnExit .WebSocketPort
  simp only [CSettingsWnd.exitValue, ne_eq, UInt16.toUInt32_inj] at hlast
  by_cases hport : UInt16.ofInt (strtol w.m_pPort) = w.m_wsPort
  · rw [if_neg (not_not.mpr hport)] at hlast
    rw [if_pos hport]
    exact ReadRegKeyDWORD_after none hlast _
  · rw [if_pos hport] at hlast
    rw [if_neg hport]
    exact ReadRegKeyDWORD_after (some _) hlast _

/-- The numeral of a port is read as that port. -/
theorem strtol_of_port {text : Bytes} (h : IsNumeral text) (hle : natOf text ≤ 65535) :
    (UInt16.ofInt (strtol text)).toUInt32.toNat = natOf text := by
  have hvalue : UInt16.ofInt (strtol text) = UInt16.ofNat (natOf text) := by
    rw [strtol_numeral h, toLong_of_mem (by omega) (by omega), uint16_ofInt_eq_iff,
      UInt16.toNat_ofNat']
    omega
  rw [hvalue, UInt16.toNat_toUInt32, UInt16.toNat_ofNat']
  omega

/-- **The port typed is the port used** — or the port stays as it was — exactly when the text
is the numeral of a port, or what `strtol` and the cut to 16 bits make of it is the port that
was shown. The other controls can be left as the user likes. -/
theorem port_used_iff (UTF_82ASCII : Bytes → Bytes) (micro speaker : List Device)
    (left : Leftovers) (r : Registry) (input : Controls) :
    PortUsed input.m_pPort (wsPort left r) (wsPort left (r.after
        { CSettingsWnd.opened UTF_82ASCII micro speaker left r with
          toControls := input }.OnExit)) ↔
      UInt16.ofInt (strtol input.m_pPort) = (wsPort left r).toUInt16 ∨
        IsNumeral input.m_pPort ∧ 1 ≤ natOf input.m_pPort ∧ natOf input.m_pPort ≤ 65535 := by
  rw [wsPort_OnExit]
  show PortUsed input.m_pPort _
    (if UInt16.ofInt (strtol input.m_pPort) = (wsPort left r).toUInt16 then _ else _) ↔ _
  by_cases hsame : UInt16.ofInt (strtol input.m_pPort) = (wsPort left r).toUInt16
  · rw [if_pos hsame]
    exact iff_of_true (.inl rfl) (.inl hsame)
  · rw [if_neg hsame]
    have hnew : (UInt16.ofInt (strtol input.m_pPort)).toUInt32 ≠ wsPort left r := by
      intro h
      rw [← h, UInt16.toUInt16_toUInt32] at hsame
      exact hsame rfl
    constructor
    · rintro (h | ⟨hnum, hlow, hhigh, -⟩)
      · exact absurd h hnew
      · exact .inr ⟨hnum, hlow, hhigh⟩
    · rintro (h | ⟨hnum, hlow, hhigh⟩)
      · exact absurd h hsame
      · exact .inr ⟨hnum, hlow, hhigh, strtol_of_port hnum hhigh⟩

/-- Port 70000 is typed and 4464 is used, and a text that is no number is port 0. -/
theorem port_cut :
    let typed (text : Bytes) : CSettingsWnd :=
      { CSettingsWnd.opened id [] [] .untouched Registry.empty with m_pPort := text }
    wsPort .untouched Registry.empty = 19998 ∧
      wsPort .untouched (Registry.empty.after (typed (bytes "70000")).OnExit) = 4464 ∧
      wsPort .untouched (Registry.empty.after (typed (bytes "abc")).OnExit) = 0 := by
  decide +kernel

end UCClient
