import Mathlib.Data.Bool.AllAny
import UCClient.Json
import UCClient.PluginRegistry

/-!
# Addresses

`setwsurl` gets the address of a server as one text, and lws gets it in parts: the host, the
port, the path, and whether the connection is secure. `lws_parse_uri` cuts the text in place,
and `WebSocketClient::Open` puts a slash before the path and looks at the scheme.

An `Address` is what a page means; its text has the scheme, the host as a name or in
brackets, the port if it is given, and the path if there is one. The cutting is followed part
by part: a name ends at a colon or a slash, a host in brackets at the closing one, a port at
a slash. `lws_parse_uri` drops the slash the path begins with, and `Open` puts one back only
where it sees none; so of two slashes at the beginning one is lost.

## Main results

* `Address.fill_text`: the parts that lws gets are the parts of the address, but for the path of
  one with two slashes.
* `address_requested_iff`: `Open` asks lws for exactly the address it was given, if its text fits
  into the buffer and its path does not begin with two slashes.
-/

namespace UCClient

open Json

/-- The schemes `lws_parse_uri` and `Open` know. -/
inductive Scheme
  | http | ws | https | wss
  deriving DecidableEq, Repr

namespace Scheme

def text : Scheme → Bytes
  | .http => bytes "http"
  | .ws => bytes "ws"
  | .https => bytes "https"
  | .wss => bytes "wss"

def secure : Scheme → Bool
  | .http | .ws => false
  | .https | .wss => true

/-- The port of an address that has none in it. -/
def defaultPort (s : Scheme) : ℤ := if s.secure then 443 else 80

theorem isPlain_text (s : Scheme) : isPlain s.text = !s.secure := by
  cases s <;> decide

theorem isSecure_text (s : Scheme) : isSecure s.text = s.secure := by
  cases s <;> decide

/-- The scheme ends at the first `://`. -/
theorem splitScheme_text (s : Scheme) (rest : Bytes) :
    splitScheme (s.text ++ (bytes "://" ++ rest)) = some (s.text, rest) := by
  cases s <;> rfl

theorem zero_not_mem_text (s : Scheme) : (0 : UInt8) ∉ s.text := by
  cases s <;> decide

end Scheme

/-- An address of a server. The host is a name, without colons and slashes, or a literal in
brackets; the port is given by its digits, or not at all; the path is what stands behind the
first slash, if there is one. -/
structure Address where
  scheme : Scheme
  bracketed : Bool := false
  host : Bytes
  port : Option Bytes := none
  path : Option Bytes := none
  name_ok : bracketed = false → (∀ b ∈ host, b ≠ 58 ∧ b ≠ 47) ∧ host.head? ≠ some 91
  literal_ok : bracketed = true → ∀ b ∈ host, b ≠ 93
  port_ok : ∀ ds ∈ port, (∀ d ∈ ds, isDigit d = true) ∧ natOf ds < 2 ^ 31
  no_nul : (∀ b ∈ host, b ≠ 0) ∧ ∀ q ∈ path, ∀ b ∈ q, b ≠ 0

namespace Address

/-! ### Texts -/

def hostText (a : Address) : Bytes := if a.bracketed then 91 :: (a.host ++ [93]) else a.host

def portText (a : Address) : Bytes :=
  match a.port with
  | none => []
  | some ds => 58 :: ds

def pathText (a : Address) : Bytes :=
  match a.path with
  | none => []
  | some path => 47 :: path

def text (a : Address) : Bytes :=
  a.scheme.text ++ (bytes "://" ++ (a.hostText ++ (a.portText ++ a.pathText)))

/-! ### What is asked for -/

def portNumber (a : Address) : ℤ :=
  match a.port with
  | none => a.scheme.defaultPort
  | some ds => natOf ds

/-- The path to ask for: what stands in the address from its first slash on, or a slash. -/
def requestPath (a : Address) : Bytes :=
  match a.path with
  | none => bytes "/"
  | some path => 47 :: path

/-- The path begins with two slashes. -/
def TwoSlashes (a : Address) : Prop := a.path.bind List.head? = some 47

instance (a : Address) : Decidable a.TwoSlashes := inferInstanceAs (Decidable (_ = _))

/-- The path lws is asked for: of two slashes the first is dropped. -/
def sentPath (a : Address) : Bytes :=
  if a.path.bind List.head? = some 47 then a.requestPath.tail else a.requestPath

/-- What is to be filled in for the address. -/
def con_info (a : Address) : ConInfo where
  address := a.host
  port := a.portNumber
  path := a.requestPath
  ssl_connection := if a.scheme.secure then 1 else 0
  host := a.host
  origin := a.host

/-! ### Cutting -/

/-- The path begins with a slash. -/
theorem head_pathText (a : Address) : ∀ b ∈ a.pathText.head?, b = 47 := by
  rw [pathText]
  cases a.path with
  | none => simp
  | some path => simp

/-- Behind the host there is a colon or a slash. -/
theorem head_rest (a : Address) : ∀ b ∈ (a.portText ++ a.pathText).head?, b = 58 ∨ b = 47 := by
  rw [portText]
  cases a.port with
  | none => exact fun b hb => .inr (a.head_pathText b hb)
  | some ds => simp

/-- A part is read up to the first character that is none of its own. -/
theorem takeWhile_stop (p : UInt8 → Bool) {taken rest : Bytes} (h : ∀ b ∈ taken, p b = true)
    (hrest : ∀ b ∈ rest.head?, p b = false) :
    (taken ++ rest).takeWhile p = taken ∧ (taken ++ rest).dropWhile p = rest := by
  rw [List.takeWhile_append_of_pos h, List.dropWhile_append_of_pos h]
  cases rest with
  | nil => simp
  | cons b rest => simp [hrest b rfl]

theorem natOf_eq_foldl (ds : Bytes) :
    ds.foldl (fun (n : ℤ) d => 10 * n + (d.toNat - 48 : ℕ)) 0 = natOf ds := by
  rw [natOf]
  suffices h : ∀ n : ℕ, ds.foldl (fun (n : ℤ) d => 10 * n + (d.toNat - 48 : ℕ)) n =
      (ds.foldl (fun n c => n * 10 + (c.toNat - 48)) n : ℕ) from h 0
  induction ds with
  | nil => exact fun _ => rfl
  | cons d ds ih =>
      intro n
      rw [List.foldl_cons, List.foldl_cons, ← ih]
      congr 1
      omega

/-- `atoi` on a text that begins with a digit, or with a slash. -/
theorem atoi_of_head {text : Bytes} (h : ∀ b ∈ text.head?, isDigit b = true ∨ b = 47) :
    atoi text = min (2 ^ 31 - 1) (natOf (text.takeWhile isDigit) : ℤ) := by
  rw [← natOf_eq_foldl]
  cases text with
  | nil => rfl
  | cons b text =>
      have hne : ∀ c : UInt8, isDigit c = false → c ≠ 47 → b ≠ c := by
        rintro c hc h47 rfl
        rcases h b rfl with hb | hb
        · rw [hc] at hb
          cases hb
        · exact h47 hb
      have hblank : ¬ (fun d : UInt8 => d = 32 || 9 ≤ d && d ≤ 13) b = true := by
        rcases h b rfl with hb | rfl
        · intro hd
          simp only [isDigit, Bool.and_eq_true, Bool.or_eq_true, decide_eq_true_eq,
            UInt8.le_iff_toNat_le] at hb hd
          have hlow : 48 ≤ b.toNat := hb.1
          rcases hd with rfl | ⟨-, hd⟩
          · exact absurd hlow (by decide)
          · have hhigh : b.toNat ≤ 13 := hd
            omega
        · decide
      have hdrop : (b :: text).dropWhile (fun d => d = 32 || 9 ≤ d && d ≤ 13) = b :: text :=
        List.dropWhile_cons_of_neg hblank
      rw [atoi, hdrop]
      split
      · next heq => exact absurd (List.head_eq_of_cons_eq heq) (hne 45 rfl (by decide))
      · next heq => exact absurd (List.head_eq_of_cons_eq heq) (hne 43 rfl (by decide))
      · rfl

/-- A port is read up to the slash behind it. -/
theorem atoi_digits {ds rest : Bytes} (hds : ∀ d ∈ ds, isDigit d = true)
    (hlt : natOf ds < 2 ^ 31) (hrest : ∀ b ∈ rest.head?, b = 47) :
    atoi (ds ++ rest) = natOf ds := by
  have hdigits : (ds ++ rest).takeWhile isDigit = ds := by
    refine (takeWhile_stop isDigit hds fun b hb => ?_).1
    rw [hrest b hb]
    rfl
  have hhead : ∀ b ∈ (ds ++ rest).head?, isDigit b = true ∨ b = 47 := by
    cases ds with
    | nil => exact fun b hb => .inr (hrest b hb)
    | cons d ds =>
        intro b hb
        cases hb
        exact .inl (hds d List.mem_cons_self)
  rw [atoi_of_head hhead, hdigits]
  omega

end Address

/-- The host at the front of a text, and what is behind it. -/
def uriHost (p : Bytes) : Bytes × Bytes :=
  match p with
  | 91 :: rest => (rest.takeWhile (· != 93), (rest.dropWhile (· != 93)).tail)
  | _ => (p.takeWhile fun b => b != 58 && b != 47, p.dropWhile fun b => b != 58 && b != 47)

/-- The port behind the host, if there is one, and what is behind it. -/
def uriPort (port : ℤ) (p : Bytes) : ℤ × Bytes :=
  match p with
  | 58 :: rest => (atoi rest, rest.dropWhile (· != 47))
  | _ => (port, p)

/-- A name ends at a colon or a slash. -/
theorem uriHost_name {p : Bytes} (h : p.head? ≠ some 91) :
    uriHost p = (p.takeWhile fun b => b != 58 && b != 47,
      p.dropWhile fun b => b != 58 && b != 47) := by
  rw [uriHost]
  rintro rest rfl
  exact h rfl

theorem uriPort_none {p : Bytes} (h : p.head? ≠ some 58) (port : ℤ) :
    uriPort port p = (port, p) := by
  rw [uriPort]
  rintro rest rfl
  exact h rfl

/-- The parts of a text one after the other. -/
theorem lws_parse_uri_eq {p prot rest : Bytes} (h : splitScheme p = some (prot, rest))
    (port : ℤ) : lws_parse_uri p port =
      let port := if isPlain prot then 80 else if isSecure prot then 443 else port
      (0, ⟨prot, (uriHost rest).1, (uriPort port (uriHost rest).2).1,
        uriPath (uriPort port (uriHost rest).2).2⟩) := by
  simp only [lws_parse_uri, h, Option.getD_some, uriHost, uriPort]
  rfl

namespace Address

theorem uriHost_text (a : Address) :
    uriHost (a.hostText ++ (a.portText ++ a.pathText)) = (a.host, a.portText ++ a.pathText) := by
  rw [hostText]
  cases hb : a.bracketed with
  | true =>
      have hstop : ∀ b ∈ (93 :: (a.portText ++ a.pathText)).head?, (b != 93) = false := by simp
      obtain ⟨htake, hdrop⟩ := takeWhile_stop (· != 93)
        (fun b h => by simpa using a.literal_ok hb b h) hstop
      simp only [if_true, List.cons_append, List.append_assoc, List.nil_append, uriHost, htake,
        hdrop, List.tail_cons]
  | false =>
      obtain ⟨hname, hhead⟩ := a.name_ok hb
      obtain ⟨htake, hdrop⟩ := takeWhile_stop (fun b => b != 58 && b != 47)
        (fun b h => by simpa using hname b h)
        (fun b h => by rcases a.head_rest b h with rfl | rfl <;> rfl)
      -- a bracket would be the first byte of the name, or the byte behind it
      have hbracket : (a.host ++ (a.portText ++ a.pathText)).head? ≠ some 91 := by
        intro h
        rw [List.head?_append] at h
        cases hh : a.host.head? with
        | none =>
            rw [hh, Option.none_or] at h
            rcases a.head_rest 91 h with h | h <;> cases h
        | some b =>
            rw [hh, Option.some_or] at h
            exact hhead (hh.trans h)
      rw [if_neg Bool.false_ne_true, uriHost_name hbracket, htake, hdrop]

theorem uriPort_text (a : Address) (port : ℤ) :
    uriPort port (a.portText ++ a.pathText) =
      (a.port.elim port fun ds => natOf ds, a.pathText) := by
  rw [portText]
  cases hp : a.port with
  | none =>
      have hcolon : a.pathText.head? ≠ some 58 := fun h => by cases a.head_pathText 58 h
      exact uriPort_none hcolon port
  | some ds =>
      obtain ⟨hds, hlt⟩ := a.port_ok ds hp
      have hdigits : ∀ d ∈ ds, (d != 47) = true := by
        intro d hd
        rw [bne_iff_ne]
        rintro rfl
        cases hds 47 hd
      have hdrop : (ds ++ a.pathText).dropWhile (· != 47) = a.pathText := by
        refine (takeWhile_stop (· != 47) hdigits fun b hb => ?_).2
        rw [a.head_pathText b hb]
        rfl
      simp only [List.cons_append, uriPort, atoi_digits hds hlt a.head_pathText, hdrop,
        Option.elim_some]

theorem lws_parse_uri_text (a : Address) (port : ℤ) :
    lws_parse_uri a.text port = (0, ⟨a.scheme.text, a.host, a.portNumber, uriPath a.pathText⟩) := by
  have hport : (if isPlain a.scheme.text then 80
      else if isSecure a.scheme.text then 443 else port : ℤ) = a.scheme.defaultPort := by
    rw [a.scheme.isPlain_text, a.scheme.isSecure_text, Scheme.defaultPort]
    cases a.scheme.secure <;> rfl
  rw [text, lws_parse_uri_eq (a.scheme.splitScheme_text _), hport, uriHost_text]
  simp only [uriPort_text, portNumber]
  cases a.port <;> rfl

/-! ### Main results -/

theorem absolute_uriPath (a : Address) : absolute (uriPath a.pathText) = a.sentPath := by
  rw [pathText, sentPath, requestPath]
  cases a.path with
  | none => rfl
  | some path =>
      cases path with
      | nil => rfl
      | cons b path =>
          have hpath : uriPath (47 :: b :: path) = b :: path := if_neg (List.cons_ne_nil b path)
          have htake : (b :: path).take 1 = bytes "/" ↔ b = 47 := by simp [bytes]
          have hhead : (some (b :: path)).bind List.head? = some 47 ↔ b = 47 := Option.some_inj
          simp only [hpath, absolute, htake, hhead, ne_eq, reduceCtorEq, not_false_eq_true,
            true_and]
          by_cases hb : b = 47
          · rw [if_neg (not_not.mpr hb), if_pos hb]
            rfl
          · rw [if_pos hb, if_neg hb]
            rfl

theorem sentPath_eq_iff (a : Address) : a.sentPath = a.requestPath ↔ ¬ a.TwoSlashes := by
  rw [sentPath]
  split_ifs with htwo
  · refine iff_of_false (fun h => ?_) (not_not.mpr htwo)
    have hlength := congrArg List.length h
    have hpos : 0 < a.requestPath.length := by
      rw [requestPath]
      cases a.path with
      | none => exact Nat.one_pos
      | some path => exact Nat.succ_pos _
    rw [List.length_tail] at hlength
    omega
  · exact iff_of_true rfl htwo

/-- **The parts lws gets are the parts of the address**, whatever was filled in before. -/
theorem fill_text (a : Address) (info : ConInfo) :
    info.fill a.text = some { a.con_info with path := a.sentPath } := by
  have hssl : (if isSecure a.scheme.text then (1 : ℤ)
      else if isPlain a.scheme.text then 0 else info.ssl_connection) =
        if a.scheme.secure then 1 else 0 := by
    rw [a.scheme.isPlain_text, a.scheme.isSecure_text]
    cases a.scheme.secure <;> rfl
  simp only [ConInfo.fill, lws_parse_uri_text, hssl, absolute_uriPath, con_info]
  rfl

/-- The text has no NUL, so all of it is copied. -/
theorem cstr_text (a : Address) : cstr a.text = a.text := by
  have hhost : (0 : UInt8) ∉ a.hostText := by
    have hnot : (0 : UInt8) ∉ a.host := fun h => a.no_nul.1 0 h rfl
    rw [hostText]
    split_ifs
    · simpa using hnot
    · exact hnot
  have hport : (0 : UInt8) ∉ a.portText := by
    rw [portText]
    cases hp : a.port with
    | none => exact List.not_mem_nil
    | some ds =>
        rw [List.mem_cons, not_or]
        exact ⟨by decide, fun h => by cases (a.port_ok ds hp).1 0 h⟩
  have hpath : (0 : UInt8) ∉ a.pathText := by
    rw [pathText]
    cases hq : a.path with
    | none => exact List.not_mem_nil
    | some path =>
        rw [List.mem_cons, not_or]
        exact ⟨by decide, fun h => a.no_nul.2 path hq 0 h rfl⟩
  have hall : (0 : UInt8) ∉ a.text := by
    simp only [text, List.mem_append, not_or]
    exact ⟨a.scheme.zero_not_mem_text, by decide, hhost, hport, hpath⟩
  rw [cstr, List.takeWhile_eq_self_iff]
  intro b hb
  rw [bne_iff_ne]
  rintro rfl
  exact hall hb

end Address

/-- A client without a connection is opened for an address that fits into the buffer. -/
theorem Open_text {s : Server} {p : ℕ} {c : Client} (hc : s.heap.cell p = some c)
    (hw : c.wsi = 0) (a : Address) (info : ConInfo) {conn : Connect}
    (hnew : s.WSClientSet conn.wsi = none) (huser : .WSI_CREATE false ∉ conn.callbacks)
    (hlen : a.text.length < 1024) :
    Plugin.Open p a.text info conn s = .ok { a.con_info with path := a.sentPath }
      (s.connected p (if conn.returned then conn.wsi else 0)) := by
  have hclient : ServerM.client p s = .ok c s := by rw [ServerM.client, hc]
  have hcopy : Plugin.strncpy_s a.text s = .ok a.text s := by
    rw [Plugin.strncpy_s, a.cstr_text, if_pos hlen]
    rfl
  have hconn := Plugin.lws_client_connect_via_info_ok (Plugin.called_unregistered hnew huser)
  rw [Plugin.Open, EStateM.bind_ok (Plugin.liftServer_ok hclient), if_neg (not_not.mpr hw),
    EStateM.bind_ok hcopy, a.fill_text]
  dsimp only
  rw [EStateM.bind_ok (Plugin.liftServer_ok hconn),
    EStateM.bind_ok (Plugin.liftServer_ok (Plugin.register_spec hc _))]
  rfl

/-- The address of the client program on its default port. -/
def localAddress : Address where
  scheme := .wss
  host := bytes "localhost"
  port := some (bytes "19998")
  path := some (bytes "cmd")
  name_ok := fun _ => ⟨List.all_iff_forall_prop.mp (by decide), by decide⟩
  literal_ok := Bool.false_ne_true.elim
  port_ok := by
    rintro _ ⟨⟩
    exact ⟨List.all_iff_forall_prop.mp (by decide), by decide⟩
  no_nul := by
    refine ⟨List.all_iff_forall_prop.mp (by decide), ?_⟩
    rintro _ ⟨⟩
    exact List.all_iff_forall_prop.mp (by decide)

end UCClient
