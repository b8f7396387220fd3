import WebIm.Njs.Authentication
import WebIm.Njs.Segments

/-!
# mqtt.js, mqtt-1.js, mqtt-new.js: the key of a whole session

The three scripts parse the same bytes in the same way and differ in when they
do: mqtt.js at the first bytes of the client, mqtt-1.js at its first CONNECT
packet, and mqtt-new.js at the first bytes, with another key to start from.
-/

namespace WebIm.Njs.MqttJs

open WebIm.Foundation
open Mqtt1 (Stream Answer)

structure Script where
  clientMessages : Nat
  clientIdStr : ByteString
  deriving DecidableEq, Repr

def Script.new : Script := ⟨1, [45]⟩

def getClientId (script : Script) (s : Stream) : Script × Answer :=
  if s.fromUpstream then (script, .ok)
  else if s.buffer.length = 0 then (script, .again)
  else
    let script :=
      if script.clientMessages = 1 then
        match JsString.charCodeAt s.buffer 0 with
        | none => script
        | some packetTypeFlagsByte =>
            if packetTypeFlagsByte ≥ 16 ∧ packetTypeFlagsByte < 32 then
              -- the loop is the one of `parseClientId`
              let payloadOffset := (remainingLength s.buffer 4 1 1 0).1 + 12
              let clientIdLenMsb :=
                JsString.toHex (JsString.charCodeAt s.buffer payloadOffset)
              let clientIdLenLsb :=
                JsString.padHex (JsString.toHex
                  (JsString.charCodeAt s.buffer (payloadOffset + 1)))
              { script with
                clientIdStr := JsString.substr s.buffer (payloadOffset + 2)
                  (JsString.parseHex (clientIdLenMsb ++ clientIdLenLsb)) }
            else script
      else script
    ({ script with clientMessages := script.clientMessages + 1 }, .ok)

def setClientId (script : Script) : ByteString := script.clientIdStr

end WebIm.Njs.MqttJs

namespace WebIm.Njs

open WebIm.Foundation
open Mqtt1 (Stream Answer isMQTTConnectPackage)

def callsMqttJs (ss : List Stream) : MqttJs.Script :=
  ss.foldl (fun script s => (MqttJs.getClientId script s).1) .new

/-- What mqtt-new.js is handed of a session: each upload of the client. -/
def uploads (ss : List Stream) : Session :=
  ss.foldl
    (fun session s => if s.fromUpstream then session else upload session s.buffer)
    (getClientId .new)

def hasData (s : Stream) : Bool := !s.fromUpstream && !s.buffer.isEmpty

def opens (s : Stream) : Bool := hasData s && isMQTTConnectPackage s

def keyOf (data : ByteString) : ByteString :=
  lengthPrefixed (data.drop ((remainingLength data 4 1 1 0).1 + 12))

theorem hasData_eq_false {s : Stream} (h : hasData s = false) :
    s.fromUpstream = true ∨ s.buffer = [] := by
  cases s with
  | mk fromUpstream buffer =>
      cases fromUpstream with
      | true => exact .inl rfl
      | false =>
          right
          simpa [hasData] using h

theorem hasData_eq_true {s : Stream} (h : hasData s = true) :
    s.fromUpstream = false ∧ s.buffer ≠ [] := by
  simpa [hasData] using h

theorem charCodeAt_zero {s : Stream} (h : hasData s = true) :
    ∃ byte, JsString.charCodeAt s.buffer 0 = some byte ∧
      (isMQTTConnectPackage s = true ↔ byte ≥ 16 ∧ byte < 32) := by
  obtain ⟨-, hdata⟩ := hasData_eq_true h
  cases s with
  | mk fromUpstream buffer =>
      cases buffer with
      | nil => exact absurd rfl hdata
      | cons first rest =>
          exact ⟨first.toNat, rfl, decide_eq_true_iff⟩

/-! ## mqtt.js -/

theorem mqttJs_waiting (script : MqttJs.Script) {s : Stream}
    (h : hasData s = false) : (MqttJs.getClientId script s).1 = script := by
  unfold MqttJs.getClientId
  cases hasData_eq_false h with
  | inl hup => rw [if_pos hup]
  | inr hempty =>
      split
      · rfl
      · rw [if_pos (by simp [hempty])]

theorem mqttJs_data (script : MqttJs.Script) {s : Stream}
    (h : hasData s = true) :
    (MqttJs.getClientId script s).1 =
      ⟨script.clientMessages + 1,
        if script.clientMessages = 1 ∧ isMQTTConnectPackage s = true then
          keyOf s.buffer
        else script.clientIdStr⟩ := by
  obtain ⟨hdown, hdata⟩ := hasData_eq_true h
  obtain ⟨byte, hbyte, hconnect⟩ := charCodeAt_zero h
  unfold MqttJs.getClientId
  rw [if_neg (by simp [hdown]), if_neg (by simpa using hdata), hbyte]
  by_cases hfirst : script.clientMessages = 1
  · rw [if_pos hfirst]
    by_cases htype : byte ≥ 16 ∧ byte < 32
    · rw [if_pos ⟨hfirst, hconnect.mpr htype⟩]
      simp only [if_pos htype, substr_eq_lengthPrefixed]
      rfl
    · rw [if_neg fun hboth => htype (hconnect.mp hboth.2)]
      simp only [if_neg htype]
  · rw [if_neg hfirst, if_neg fun hboth => hfirst hboth.1]

def firstKey (unread : ByteString) (s : Stream) : ByteString :=
  if isMQTTConnectPackage s then keyOf s.buffer else unread

theorem mqttJs_calls (ss : List Stream) :
    MqttJs.setClientId (callsMqttJs ss) =
      (ss.find? hasData).elim [45] (firstKey [45]) := by
  refine (out_foldl_find? MqttJs.Script.clientIdStr
    (fun script => 1 < script.clientMessages) hasData ?_ ?_ ?_ ss).trans ?_
  · intro script s hlater
    cases hdata : hasData s with
    | false =>
        rw [mqttJs_waiting script hdata]
        exact ⟨hlater, rfl⟩
    | true =>
        rw [mqttJs_data script hdata, if_neg (by omega)]
        exact ⟨by simp only; omega, rfl⟩
  · intro s hdata
    exact mqttJs_waiting .new hdata
  · intro s hdata
    rw [mqttJs_data .new hdata]
    exact Nat.lt_succ_self 1
  · cases hfind : ss.find? hasData with
    | none => rfl
    | some s =>
        rw [Option.elim_some, Option.elim_some,
          mqttJs_data .new (List.find?_some hfind)]
        simp [firstKey, MqttJs.Script.new]

/-! ## mqtt-new.js -/

theorem upload_data {session : Session} {s : Stream} (h : hasData s = true)
    (hon : session.onUpload = true) (hkey : session.clientKey = [])
    (hfirst : session.clientMessages = 1) :
    (upload session s.buffer).onUpload = false ∧
      (upload session s.buffer).clientKey = firstKey [] s := by
  obtain ⟨hdown, hdata⟩ := hasData_eq_true h
  obtain ⟨byte, hbyte, hconnect⟩ := charCodeAt_zero h
  unfold upload firstKey
  rw [if_neg (by simp [hon]), if_neg hdata, hbyte]
  simp only
  by_cases htype : byte ≥ 16 ∧ byte < 32
  · rw [if_neg (by omega), if_pos (hconnect.mpr htype), if_pos hkey]
    simp [parseClientId, hfirst, hbyte, htype, substr_eq_lengthPrefixed]
    rfl
  · rw [if_pos (by omega), if_neg (mt hconnect.mp htype)]
    exact ⟨rfl, hkey⟩

theorem uploads_key (ss : List Stream) :
    setClientId (uploads ss) = (ss.find? hasData).elim [] (firstKey []) := by
  refine (out_foldl_find? Session.clientKey
    (fun session => session.onUpload = false) hasData ?_ ?_ ?_ ss).trans ?_
  · intro session s hoff
    rw [upload_of_off hoff, ite_self]
    exact ⟨hoff, rfl⟩
  · intro s hdata
    cases hasData_eq_false hdata with
    | inl hup => rw [if_pos hup]
    | inr hempty => rw [hempty, upload_nil, ite_self]
  · intro s hdata
    rw [if_neg (by simp [(hasData_eq_true hdata).1])]
    exact (upload_data hdata rfl rfl rfl).1
  · cases hfind : ss.find? hasData with
    | none => rfl
    | some s =>
        have hdata := List.find?_some hfind
        rw [Option.elim_some, Option.elim_some,
          if_neg (by simp [(hasData_eq_true hdata).1])]
        exact (upload_data hdata rfl rfl rfl).2

/-! ## mqtt-1.js -/

section Mqtt1

variable (devices : Mqtt1.Devices)

/-- The answer to a call that opens nothing. -/
def passed (s : Stream) : Answer :=
  if s.fromUpstream then .ok else if s.buffer.length = 0 then .again else .ok

theorem mqtt1_passed (script : Mqtt1.Script) {s : Stream}
    (h : script.firstMessage = false ∨ opens s = false) :
    Mqtt1.getClientId devices script s = (script, passed s) := by
  unfold Mqtt1.getClientId passed
  by_cases hup : s.fromUpstream = true
  · rw [if_pos hup, if_pos hup]
  · rw [if_neg hup, if_neg hup]
    by_cases hempty : s.buffer.length = 0
    · rw [if_pos hempty, if_pos hempty]
    · rw [if_neg hempty, if_neg hempty, if_neg ?_]
      rw [Bool.and_eq_true]
      rintro ⟨hfirst, hconnect⟩
      cases h with
      | inl hlater => simp [hlater] at hfirst
      | inr hother =>
          have hdata : s.buffer ≠ [] := by simpa using hempty
          simp [opens, hasData, hup, hdata, hconnect] at hother

theorem parseField_clientId (script : Mqtt1.Script) (s : Stream) (offset : Nat) :
    (Mqtt1.parseField script s (some offset) .clientId).1 =
      script.store .clientId (lengthPrefixed (s.buffer.drop offset)) := by
  rw [← substr_eq_lengthPrefixed]
  unfold Mqtt1.parseField Mqtt1.parseLengthOfField
  simp only [JsString.plus, JsString.position, Option.bind_some, Option.map_some,
    Option.getD_some, JsString.substr]
  cases JsString.parseHex
    (JsString.toHex (JsString.charCodeAt s.buffer offset) ++
      JsString.padHex (JsString.toHex (JsString.charCodeAt s.buffer (offset + 1))))
    with
  | none => rfl
  | some n =>
      simp only [Option.map_some, Option.getD_some, Int.ofNat_eq_natCast,
        Int.toNat_natCast]

theorem mqtt1_opens (script : Mqtt1.Script) {s : Stream}
    (hfirst : script.firstMessage = true) (h : opens s = true) :
    ∃ next : Mqtt1.Script, next.firstMessage = false ∧
      Mqtt1.setClientId next = keyOf s.buffer ∧
      Mqtt1.getClientId devices script s =
        (next, if Mqtt1.isAuthenticated devices next then .ok else .error) := by
  obtain ⟨hdata, hconnect⟩ : hasData s = true ∧ isMQTTConnectPackage s = true := by
    simpa [opens] using h
  obtain ⟨hdown, hne⟩ := hasData_eq_true hdata
  have hclientId := parseField_clientId
    { script with firstMessage := false } s
    ((remainingLength s.buffer 4 1 1 0).1 + 12)
  unfold Mqtt1.getClientId
  rw [if_neg (by simp [hdown]), if_neg (by simpa using hne),
    if_pos (by simp [hfirst, hconnect])]
  refine ⟨_, ?_, ?_, (apply_ite (Prod.mk _) _ _ _).symm⟩
  · rfl
  · exact congrArg (fun script => script.clientProperties.clientId) hclientId

theorem mqtt1_later {script : Mqtt1.Script} (hlater : script.firstMessage = false)
    (ss : List Stream) :
    Mqtt1.calls devices script ss = (script, ss.map passed) := by
  induction ss with
  | nil => rfl
  | cons s ss ih =>
      rw [Mqtt1.calls_cons, mqtt1_passed devices script (.inl hlater), ih]
      rfl

theorem mqtt1_calls {script : Mqtt1.Script} (hfirst : script.firstMessage = true)
    (ss : List Stream) :
    Mqtt1.setClientId (Mqtt1.calls devices script ss).1 =
        (ss.find? opens).elim (Mqtt1.setClientId script)
          (fun s => keyOf s.buffer) ∧
      (Mqtt1.calls devices script ss).2 =
        (ss.findIdx? opens).elim (ss.map passed) fun i =>
          (ss.map passed).set i
            (if Mqtt1.isAuthenticated devices (Mqtt1.calls devices script ss).1
              then .ok else .error) := by
  induction ss with
  | nil => exact ⟨rfl, rfl⟩
  | cons s ss ih =>
      rw [Mqtt1.calls_cons, List.findIdx?_cons]
      cases hopens : opens s with
      | true =>
          obtain ⟨next, hnext, hkey, hcall⟩ :=
            mqtt1_opens devices script hfirst hopens
          rw [hcall, mqtt1_later devices hnext, List.find?_cons_of_pos hopens]
          exact ⟨hkey, rfl⟩
      | false =>
          rw [mqtt1_passed devices script (.inr hopens),
            List.find?_cons_of_neg (by simp [hopens])]
          refine ⟨ih.1, ?_⟩
          simp only [ih.2]
          cases ss.findIdx? opens with
          | none => rfl
          | some i => rfl

theorem mqtt1_fields {before after : List Stream} {s : Stream}
    {clientId username password : Mqtt.Field} {rest : ByteString}
    (hbefore : ∀ s ∈ before, opens s = false) (hopens : opens s = true)
    (hbuffer : s.buffer.drop ((remainingLength s.buffer 4 1 1 0).1 + 12) =
      clientId.encode ++ (username.encode ++ (password.encode ++ rest))) :
    Mqtt1.calls devices .new (before ++ s :: after) =
      (⟨false, ⟨clientId.bytes, username.bytes, password.bytes⟩⟩,
        before.map passed ++
          (if devices.lookup username.bytes = some password.bytes then .ok
            else .error) :: after.map passed) := by
  induction before with
  | nil =>
      obtain ⟨hdata, hconnect⟩ :
          hasData s = true ∧ isMQTTConnectPackage s = true := by
        simpa [opens] using hopens
      have hfirst : Mqtt1.Script.new.firstMessage = true := rfl
      rw [List.nil_append, Mqtt1.calls_cons,
        Mqtt1.getClientId_fields devices hfirst (hasData_eq_true hdata).1
          hconnect hbuffer, mqtt1_later devices rfl]
      rfl
  | cons other before ih =>
      have hother := hbefore other List.mem_cons_self
      rw [List.cons_append, Mqtt1.calls_cons,
        mqtt1_passed devices .new (.inr hother),
        ih fun s hs => hbefore s (List.mem_cons_of_mem _ hs)]
      rfl

end Mqtt1

/-! ## The three scripts on one session -/

/--
The keys of a session, for any calls in any order: mqtt.js and mqtt-new.js look
at the first bytes of the client and nowhere else, mqtt-1.js goes on to the
first bytes that are a CONNECT packet.
-/
theorem keys_of_session (devices : Mqtt1.Devices) (ss : List Stream) :
    MqttJs.setClientId (callsMqttJs ss) =
        (ss.find? hasData).elim [45] (firstKey [45]) ∧
      setClientId (uploads ss) = (ss.find? hasData).elim [] (firstKey []) ∧
      Mqtt1.setClientId (Mqtt1.calls devices .new ss).1 =
        (ss.find? opens).elim [45] (fun s => keyOf s.buffer) :=
  ⟨mqttJs_calls ss, uploads_key ss, (mqtt1_calls devices rfl ss).1⟩

/--
mqtt-1.js refuses a session once at most, at its first CONNECT packet and when
the table does not hold what it says; all other bytes of the client are passed.
-/
theorem answers_of_session (devices : Mqtt1.Devices) (ss : List Stream) :
    (Mqtt1.calls devices .new ss).2 =
      (ss.findIdx? opens).elim (ss.map passed) fun i =>
        (ss.map passed).set i
          (if Mqtt1.isAuthenticated devices (Mqtt1.calls devices .new ss).1
            then .ok else .error) :=
  (mqtt1_calls devices rfl ss).2

/--
mqtt-1.js takes the will of a client of version 3.1 for its username and its
password, so a session with a will is refused unless the table holds the topic
with that message, whatever the client gives as its credentials.
-/
theorem will_is_checked (devices : Mqtt1.Devices) {before : List Stream}
    {packet : Mqtt.Connect} {will : Mqtt.Will}
    (hbefore : ∀ s ∈ before, opens s = false)
    (hprotocol : packet.protocol = .mqisdp) (hwill : packet.will = some will)
    (rest : ByteString) (after : List Stream) :
    Mqtt1.calls devices .new
        (before ++ ⟨false, packet.encode ++ rest⟩ :: after) =
      (⟨false, ⟨packet.clientId.bytes, will.topic.bytes, will.message.bytes⟩⟩,
        before.map passed ++
          (if devices.lookup will.topic.bytes = some will.message.bytes then .ok
            else .error) :: after.map passed) := by
  have hopens : opens ⟨false, packet.encode ++ rest⟩ = true := by
    rw [opens, Mqtt1.isMQTTConnectPackage_encode, Bool.and_true]
    rfl
  have hpayload : packet.payload ++ rest =
      packet.clientId.encode ++ (will.topic.encode ++ (will.message.encode ++
        (packet.username.elim [] Mqtt.Field.encode ++
          (packet.password.elim [] Mqtt.Field.encode ++ rest)))) := by
    simp [Mqtt.Connect.payload, Mqtt.Connect.optionalFields, hwill]
  exact mqtt1_fields devices hbefore hopens
    ((Mqtt1.drop_payloadOffset hprotocol rest).trans hpayload)

def deviceWithWill : Mqtt.Connect :=
  { Mqtt1.deviceWithToken with
    will := some ⟨⟨[108, 119], by decide⟩, ⟨[120, 121], by decide⟩,
      Fin.last 2, false⟩ }

/-- A call without data comes first, a ping behind. -/
theorem will_is_checked_device :
    (Mqtt1.calls Mqtt1.devices .new
      ([⟨false, []⟩] ++ ⟨false, deviceWithWill.encode ++ []⟩ ::
        [⟨false, [192, 0]⟩])).2 = [.again, .error, .ok] := by
  have hbefore : ∀ s ∈ [(⟨false, []⟩ : Stream)], opens s = false := by decide
  have hcalls : Mqtt1.calls Mqtt1.devices .new
      ([⟨false, []⟩] ++ ⟨false, deviceWithWill.encode ++ []⟩ ::
        [⟨false, [192, 0]⟩]) = _ :=
    will_is_checked Mqtt1.devices hbefore
      (show deviceWithWill.protocol = .mqisdp from rfl) rfl [] _
  rw [hcalls]
  decide

end WebIm.Njs
