import WebIm.Njs.ClientId

/-!
# mqtt-1.js: who opens a session, and whether it may

nginx calls `getClientId` on the bytes of a session until the answer is no
longer `s.AGAIN`.  The script reads the first CONNECT packet into the global
`client_properties` and compares it with the table of devices.  As in
`JsString`, a number is a natural number or `NaN`.
-/

namespace WebIm.Njs.Mqtt1

open WebIm.Foundation

inductive Property where
  | clientId
  | username
  | password
  deriving DecidableEq, Repr

structure ClientProperties where
  clientId : ByteString
  username : ByteString
  password : ByteString
  deriving DecidableEq, Repr

def ClientProperties.set (properties : ClientProperties) :
    Property → ByteString → ClientProperties
  | .clientId, value => { properties with clientId := value }
  | .username, value => { properties with username := value }
  | .password, value => { properties with password := value }

structure Script where
  firstMessage : Bool
  clientProperties : ClientProperties
  deriving DecidableEq, Repr

def Script.new : Script := ⟨true, ⟨[45], [], []⟩⟩

def Script.store (script : Script) (name : Property) (value : ByteString) :
    Script :=
  { script with clientProperties := script.clientProperties.set name value }

structure Stream where
  fromUpstream : Bool
  buffer : ByteString
  deriving DecidableEq, Repr

inductive Answer where
  | ok
  | again
  | error
  deriving DecidableEq, Repr

/-- A plain finite map, without the names that a JavaScript object inherits. -/
abbrev Devices := List (ByteString × ByteString)

/-- `device1` with `token1` and `device2` with `token2`. -/
def devices : Devices :=
  [([100, 101, 118, 105, 99, 101, 49], [116, 111, 107, 101, 110, 49]),
    ([100, 101, 118, 105, 99, 101, 50], [116, 111, 107, 101, 110, 50])]

/-! ## The parser -/

/-- The two texts carry no sign. -/
def parseLengthOfField (s : Stream) (offset : Option Nat) : Option Nat :=
  let lenMsb :=
    JsString.toHex (JsString.charCodeAt s.buffer (JsString.position offset))
  let lenLsb :=
    JsString.toHex
      (JsString.charCodeAt s.buffer
        (JsString.position (JsString.plus offset (some 1))))
  (JsString.parseHex (lenMsb ++ JsString.padHex lenLsb)).map Int.toNat

def parseField (script : Script) (s : Stream) (offset : Option Nat)
    (name : Property) : Script × Option Nat :=
  let lenInt := parseLengthOfField s offset
  let value :=
    JsString.substr s.buffer
      (JsString.position (JsString.plus offset (some 2)))
      (lenInt.map Int.ofNat)
  (script.store name value, JsString.plus (some 2) lenInt)

def isMQTTConnectPackage (s : Stream) : Bool :=
  match JsString.charCodeAt s.buffer 0 with
  | none => false
  | some packageType => decide (packageType ≥ 16 ∧ packageType < 32)

/-- A name that the table does not hold gives `undefined`. -/
def isAuthenticated (devices : Devices) (script : Script) : Bool :=
  devices.lookup script.clientProperties.username =
    some script.clientProperties.password

def getClientId (devices : Devices) (script : Script) (s : Stream) :
    Script × Answer :=
  if s.fromUpstream then (script, .ok)
  else if s.buffer.length = 0 then (script, .again)
  else if script.firstMessage && isMQTTConnectPackage s then
    let script := { script with firstMessage := false }
    -- the loop is the one of `parseClientId`
    let payloadOffset := some ((remainingLength s.buffer 4 1 1 0).1 + 12)
    let (script, read) := parseField script s payloadOffset .clientId
    let payloadOffset := JsString.plus payloadOffset read
    let (script, read) := parseField script s payloadOffset .username
    let payloadOffset := JsString.plus payloadOffset read
    let (script, _) := parseField script s payloadOffset .password
    if isAuthenticated devices script then (script, .ok) else (script, .error)
  else (script, .ok)

def setClientId (script : Script) : ByteString :=
  script.clientProperties.clientId

def calls (devices : Devices) : Script → List Stream → Script × List Answer
  | script, [] => (script, [])
  | script, s :: rest =>
      let (script, answer) := getClientId devices script s
      let (script, answers) := calls devices script rest
      (script, answer :: answers)

theorem Script.store_all (script : Script)
    (clientId username password : ByteString) :
    ((script.store .clientId clientId).store .username username).store
        .password password =
      ⟨script.firstMessage, ⟨clientId, username, password⟩⟩ :=
  rfl

theorem isAuthenticated_iff (devices : Devices) (script : Script) :
    isAuthenticated devices script = true ↔
      devices.lookup script.clientProperties.username =
        some script.clientProperties.password := by
  rw [isAuthenticated, decide_eq_true_eq]

/-! ## One field -/

section Field

variable {s : Stream} {offset : Nat} {field : Mqtt.Field} {tail : ByteString}

theorem parseLengthOfField_field
    (hbuffer : s.buffer.drop offset = field.encode ++ tail) :
    parseLengthOfField s (some offset) = some field.bytes.length := by
  obtain ⟨a, b, hbytes, hvalue⟩ := Mqtt.twoBytes_value field.short
  rw [Mqtt.Field.encode, hbytes] at hbuffer
  have hnext := JsString.drop_succ_of_drop hbuffer
  unfold parseLengthOfField
  simp only [JsString.plus, JsString.position, Option.bind_some, Option.map_some,
    Option.getD_some]
  rw [JsString.charCodeAt_of_drop hbuffer, JsString.charCodeAt_of_drop hnext,
    JsString.parseHex_pair, hvalue]
  rfl

theorem drop_field (hbuffer : s.buffer.drop offset = field.encode ++ tail) :
    s.buffer.drop (offset + (2 + field.bytes.length)) = tail := by
  have hlength : 2 + field.bytes.length = field.encode.length := by
    rw [field.length_encode]
    omega
  rw [← List.drop_drop, hbuffer, hlength, List.drop_left]

theorem substr_field (hbuffer : s.buffer.drop offset = field.encode ++ tail) :
    JsString.substr s.buffer (offset + 2) (some (field.bytes.length : Int)) =
      field.bytes := by
  have hdrop : s.buffer.drop (offset + 2) = field.bytes ++ tail := by
    rw [← List.drop_drop, hbuffer, Mqtt.Field.encode, List.append_assoc]
    rfl
  rw [JsString.substr, hdrop]
  simp

theorem parseField_field (script : Script) (name : Property)
    (hbuffer : s.buffer.drop offset = field.encode ++ tail) :
    parseField script s (some offset) name =
      (script.store name field.bytes, some (2 + field.bytes.length)) := by
  unfold parseField
  rw [parseLengthOfField_field hbuffer]
  simp only [JsString.plus, JsString.position, Option.bind_some, Option.map_some,
    Option.getD_some, Int.ofNat_eq_natCast]
  rw [substr_field hbuffer]

end Field

/-! ## The first packet -/

theorem getClientId_fields (devices : Devices) {script : Script} {s : Stream}
    {clientId username password : Mqtt.Field} {rest : ByteString}
    (hfirst : script.firstMessage = true) (hdown : s.fromUpstream = false)
    (hconnect : isMQTTConnectPackage s = true)
    (hbuffer : s.buffer.drop ((remainingLength s.buffer 4 1 1 0).1 + 12) =
      clientId.encode ++ (username.encode ++ (password.encode ++ rest))) :
    getClientId devices script s =
      (⟨false, ⟨clientId.bytes, username.bytes, password.bytes⟩⟩,
        if devices.lookup username.bytes = some password.bytes then .ok
        else .error) := by
  have hne : s.buffer.length ≠ 0 := by
    intro hzero
    rw [List.length_eq_zero_iff.mp hzero, List.drop_nil] at hbuffer
    have hlength := congrArg List.length hbuffer
    rw [List.length_append, clientId.length_encode, List.length_nil] at hlength
    omega
  have husername := drop_field hbuffer
  have hpassword := drop_field husername
  unfold getClientId
  rw [if_neg (by simp [hdown]), if_neg hne, if_pos (by simp [hfirst, hconnect])]
  simp only [parseField_field _ _ hbuffer, parseField_field _ _ husername,
    parseField_field _ _ hpassword, JsString.plus, Option.bind_some,
    Option.map_some]
  rw [Script.store_all]
  by_cases hlookup : devices.lookup username.bytes = some password.bytes
  · rw [if_pos ((isAuthenticated_iff _ _).mpr hlookup), if_pos hlookup]
  · rw [if_neg (mt (isAuthenticated_iff _ _).mp hlookup), if_neg hlookup]

theorem variableHeader_mqisdp {packet : Mqtt.Connect}
    (hprotocol : packet.protocol = .mqisdp) :
    packet.variableHeader =
      0 :: ([6, 77, 81, 73, 115, 100, 112, 3] ++
        packet.flags :: Mqtt.twoBytes packet.keepAlive.val) := by
  unfold Mqtt.Connect.variableHeader
  rw [hprotocol]
  rfl

theorem drop_payloadOffset {packet : Mqtt.Connect}
    (hprotocol : packet.protocol = .mqisdp) (rest : ByteString) :
    (packet.encode ++ rest).drop
        ((remainingLength (packet.encode ++ rest) 4 1 1 0).1 + 12) =
      packet.payload ++ rest := by
  let tail := [6, 77, 81, 73, 115, 100, 112, 3] ++
    packet.flags :: Mqtt.twoBytes packet.keepAlive.val
  have hlength : tail.length = 11 := rfl
  have hdata : (packet.encode ++ rest).drop 1 =
      packet.remainingLength ++ 0 :: (tail ++ (packet.payload ++ rest)) := by
    rw [Mqtt.Connect.encode, variableHeader_mqisdp hprotocol]
    simp [tail]
  have hpos := remainingLength_pos hdata packet.remainingLength_length_le
    packet.remainingLength_ne_zero 1 0
  have hsplit : 1 + packet.remainingLength.length + 12 =
      1 + (packet.remainingLength.length + (1 + tail.length)) := by
    omega
  rw [hpos, hsplit, ← List.drop_drop, hdata, ← List.drop_drop,
    List.drop_left, ← List.drop_drop, List.drop_one, List.tail_cons,
    List.drop_left]

theorem isMQTTConnectPackage_encode (packet : Mqtt.Connect)
    (rest : ByteString) :
    isMQTTConnectPackage ⟨false, packet.encode ++ rest⟩ = true := by
  have hfirst : JsString.charCodeAt (packet.encode ++ rest) 0 = some 16 := rfl
  rw [isMQTTConnectPackage, hfirst]
  rfl

/-- A call before the packet: another direction, or no bytes yet. -/
def Stream.Waiting (s : Stream) : Prop := s.fromUpstream = true ∨ s.buffer = []

theorem getClientId_waiting (devices : Devices) (script : Script) {s : Stream}
    (hs : s.Waiting) : (getClientId devices script s).1 = script := by
  unfold getClientId
  cases hs with
  | inl hup => rw [if_pos hup]
  | inr hempty =>
      split
      · rfl
      · rw [if_pos (by simp [hempty])]

theorem calls_cons (devices : Devices) (script : Script) (s : Stream)
    (rest : List Stream) :
    calls devices script (s :: rest) =
      ((calls devices (getClientId devices script s).1 rest).1,
        (getClientId devices script s).2 ::
          (calls devices (getClientId devices script s).1 rest).2) :=
  rfl

theorem calls_append (devices : Devices) (script : Script)
    (before after : List Stream) :
    calls devices script (before ++ after) =
      ((calls devices (calls devices script before).1 after).1,
        (calls devices script before).2 ++
          (calls devices (calls devices script before).1 after).2) := by
  induction before generalizing script with
  | nil => rfl
  | cons s before ih =>
      rw [List.cons_append, calls_cons, calls_cons, ih]
      rfl

theorem calls_waiting (devices : Devices) (script : Script)
    {before : List Stream} (hbefore : ∀ s ∈ before, s.Waiting) :
    (calls devices script before).1 = script := by
  induction before generalizing script with
  | nil => rfl
  | cons s before ih =>
      have hs := getClientId_waiting devices script (hbefore s List.mem_cons_self)
      rw [calls_cons, hs]
      exact ih script fun t ht => hbefore t (List.mem_cons_of_mem _ ht)

/--
The first bytes of a session hold a whole packet of version 3.1 without a
will: its client identifier, username and password are stored, and the answer
is whether the table holds that password for that username.
-/
theorem calls_connect (devices : Devices) {before : List Stream}
    {packet : Mqtt.Connect} {username password : Mqtt.Field}
    (hbefore : ∀ s ∈ before, s.Waiting)
    (hprotocol : packet.protocol = .mqisdp) (hwill : packet.will = none)
    (husername : packet.username = some username)
    (hpassword : packet.password = some password) (rest : ByteString) :
    (calls devices .new
          (before ++ [⟨false, packet.encode ++ rest⟩])).1.clientProperties =
        ⟨packet.clientId.bytes, username.bytes, password.bytes⟩ ∧
      (calls devices .new
          (before ++ [⟨false, packet.encode ++ rest⟩])).2.getLast? =
        some (if devices.lookup username.bytes = some password.bytes then .ok
          else .error) := by
  have hpayload : packet.payload ++ rest =
      packet.clientId.encode ++
        (username.encode ++ (password.encode ++ rest)) := by
    simp [Mqtt.Connect.payload, Mqtt.Connect.optionalFields, hwill,
      husername, hpassword]
  have hfirst : Script.new.firstMessage = true := rfl
  have hconnect := getClientId_fields devices hfirst rfl
    (isMQTTConnectPackage_encode packet rest)
    ((drop_payloadOffset hprotocol rest).trans hpayload)
  rw [calls_append, calls_waiting devices .new hbefore]
  simp [calls, hconnect]

def deviceWithToken : Mqtt.Connect :=
  { deviceOne with
    protocol := .mqisdp
    username := some ⟨[100, 101, 118, 105, 99, 101, 49], by decide⟩
    password := some ⟨[116, 111, 107, 101, 110, 49], by decide⟩ }

/-- `device1` comes with `token1`, after a call without bytes. -/
theorem token_is_accepted :
    (calls devices .new
          [⟨false, []⟩, ⟨false, deviceWithToken.encode⟩]).1.clientProperties =
        ⟨[100, 101, 118, 49], [100, 101, 118, 105, 99, 101, 49],
          [116, 111, 107, 101, 110, 49]⟩ ∧
      (calls devices .new
          [⟨false, []⟩, ⟨false, deviceWithToken.encode⟩]).2.getLast? =
        some .ok := by
  have hbefore : ∀ s ∈ [Stream.mk false []], s.Waiting := by
    intro s hs
    exact .inr (List.mem_singleton.mp hs ▸ rfl)
  have hcalls := calls_connect devices hbefore
    (show deviceWithToken.protocol = .mqisdp from rfl) rfl rfl rfl []
  rw [List.append_nil] at hcalls
  exact hcalls

end WebIm.Njs.Mqtt1
