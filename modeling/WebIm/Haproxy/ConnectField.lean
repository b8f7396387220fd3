import WebIm.Haproxy.Packets
import WebIm.Njs.ClientId

/-!
# haproxy_mqtt.lua: the key a connection is stuck to

A converter says whether all that has arrived is a CONNECT packet, and a fetch
returns one field of it.  The proxy calls both each time more bytes arrive.
-/

namespace WebIm.Haproxy

open WebIm.Foundation
open LuaString (hex column)

/-- A value of Lua; `message` is a string that reports an error. -/
inductive Value where
  | boolean (b : Bool)
  | number (n : Int)
  | string (s : ByteString)
  | message (s : String)
  | flags (flag : Flag)
  deriving DecidableEq, Repr

/-- `mqttpkt[field]`, `none` for `nil`. -/
def Pkt.get (pkt : Pkt) (field : String) : Option Value :=
  if field = "error" then some (.boolean pkt.error)
  else if field = "errormessage" then some (.message pkt.errormessage)
  else if field = "type" then pkt.type.map .number
  else if field = "protocolname" then pkt.protocolname.map .string
  else if field = "protocollevel" then pkt.protocollevel.map .number
  else if field = "flag" then pkt.flag.map .flags
  else if field = "keepalive" then pkt.keepalive.map .number
  else if field = "clientid" then pkt.clientid.map .string
  else if field = "username" then pkt.username.map .string
  else if field = "password" then pkt.password.map .string
  else none

def isMqttConnect (buffer : ByteString) : Except LuaError Bool :=
  if buffer.length < 8 then .ok false
  else do
    let mqttpkt ← parse buffer
    if mqttpkt.error then return false
    return true

def getMqttConnectField (buffer : ByteString) (field : String) :
    Except LuaError Value :=
  if field = "" then .ok (.string [45])
  else if buffer.length < 8 then .ok (.boolean false)
  else do
    let mqttpkt ← parse buffer
    if mqttpkt.error then return .string []
    match mqttpkt.get field with
    | some value => return value
    | none => return .string [45]

/-! ## Acceptance while bytes arrive -/

theorem readPacket_of_parse {buffer : ByteString} {pkt : Pkt}
    (hparse : parse buffer = .ok pkt) (herror : pkt.error = false) :
    ∃ cur, readPacket buffer = .ok ⟨pkt, cur⟩ := by
  have hends := ends_readPacket buffer
  unfold parse at hparse
  cases hread : readPacket buffer with
  | ok r =>
      rw [hread] at hparse
      cases hparse
      exact ⟨r.cur, rfl⟩
  | error exit =>
      rw [hread] at hparse hends
      cases exit with
      | returned refusal =>
          cases hparse
          rw [hends.1] at herror
          cases herror
      | failed e => cases hparse

theorem isMqttConnect_eq_true {buffer : ByteString} :
    isMqttConnect buffer = .ok true ↔
      8 ≤ buffer.length ∧ ∃ r, readPacket buffer = .ok r := by
  unfold isMqttConnect
  by_cases hshort : buffer.length < 8
  · rw [if_pos hshort]
    constructor
    · intro h
      cases h
    · rintro ⟨hlength, -⟩
      omega
  · rw [if_neg hshort]
    constructor
    · intro h
      obtain ⟨pkt, hparse, hpkt⟩ := bind_eq_ok.mp h
      cases herror : pkt.error with
      | true =>
          rw [herror] at hpkt
          cases hpkt
      | false =>
          obtain ⟨cur, hread⟩ := readPacket_of_parse hparse herror
          exact ⟨by omega, _, hread⟩
    · rintro ⟨-, r, hread⟩
      have hcomplete := (ends_readPacket buffer).of_ok hread
      have hparse : parse buffer = .ok r.pkt := by
        unfold parse
        rw [hread]
      refine bind_eq_ok.mpr ⟨r.pkt, hparse, ?_⟩
      rw [hcomplete.accepted.1]
      rfl

/--
Of all that may arrive on a connection at most one beginning is accepted as a
CONNECT packet: nothing longer is once something was.
-/
theorem isMqttConnect_once (arrived more : ByteString)
    (h : isMqttConnect (hex arrived) = .ok true)
    (hmore : isMqttConnect (hex (arrived ++ more)) = .ok true) :
    more = [] := by
  obtain ⟨-, r, hread⟩ := isMqttConnect_eq_true.mp h
  obtain ⟨-, next, hnext⟩ := isMqttConnect_eq_true.mp hmore
  obtain ⟨_, hnamed, -⟩ := bind_eq_ok.mp hread
  obtain ⟨_, hnamed', -⟩ := bind_eq_ok.mp hnext
  obtain ⟨_, hheader, -⟩ := bind_eq_ok.mp hnamed
  obtain ⟨_, hheader', -⟩ := bind_eq_ok.mp hnamed'
  exact fixedHeader_append hheader hheader'

theorem isMqttConnect_once_deviceOne :
    isMqttConnect (hex Njs.deviceOne.encode) = .ok true ∧ ([] : ByteString) = [] := by
  have h : isMqttConnect (hex Njs.deviceOne.encode) = .ok true := by
    decide +kernel
  refine ⟨h, isMqttConnect_once Njs.deviceOne.encode [] h ?_⟩
  rwa [List.append_nil]

/-! ## The key while bytes arrive -/

section Arrival

variable {packet : Mqtt.Connect} {arrived later : ByteString}

theorem fixedHeader_arrived (harrived : arrived <+: packet.encode ++ later)
    {r : Reading} (h : fixedHeader (hex arrived) = .ok r) :
    r = ⟨connectPkt, column (headerEnd packet)⟩ ∧
      arrived.length = headerEnd packet + announcedLength packet := by
  obtain ⟨-, m, hannounced, hsize⟩ := fixedHeader_eq_ok h
  obtain ⟨more, hmore⟩ := harrived
  have hall := announced_append more hannounced
  rw [hmore, announced_encode] at hall
  cases hall
  refine ⟨rfl, ?_⟩
  simp only [column] at hsize
  omega

theorem drop_arrived (harrived : arrived <+: packet.encode ++ later)
    (hlength : arrived.length = headerEnd packet + announcedLength packet) :
    arrived.drop (headerEnd packet) =
      ((packet.encode ++ later).drop (headerEnd packet)).take
        (announcedLength packet) := by
  rw [List.prefix_iff_eq_take.mp harrived, hlength, List.drop_take,
    Nat.add_sub_cancel_left]

theorem length_variableHeader_le (packet : Mqtt.Connect) :
    packet.variableHeader.length + 2 ≤ bodyLength packet ∧
      packet.variableHeader.length ≤ 12 := by
  constructor
  · rw [bodyLength, Mqtt.Connect.payload, List.length_append,
      packet.clientId.length_encode]
    omega
  · unfold Mqtt.Connect.variableHeader
    cases packet.protocol <;> simp [Mqtt.Protocol.encode, Mqtt.twoBytes]

theorem field_take (store : Pkt → ByteString → Pkt) (pkt : Pkt)
    {bytes rest : ByteString} {k n : Nat} {text : Mqtt.Field}
    (hdrop : bytes.drop k = (text.encode ++ rest).take (n + 2)) :
    ∃ str cur, field (hex bytes) store ⟨pkt, column k⟩ =
        .ok ⟨store pkt str, cur⟩ ∧ (str = text.bytes ∨ str = []) := by
  obtain ⟨a, b, htwo, hvalue⟩ := Mqtt.twoBytes_value text.short
  have hcons : bytes.drop k = a :: b :: (text.bytes ++ rest).take n := by
    rw [hdrop, Mqtt.Field.encode, htwo]
    rfl
  rw [field_column store pkt hcons, hvalue]
  split
  · rename_i hfits
    refine ⟨_, _, rfl, .inl ?_⟩
    rw [List.length_take] at hfits
    rw [List.take_take, Nat.min_eq_left (by omega), List.take_left]
  · exact ⟨_, _, rfl, .inr rfl⟩

theorem clientid_arrived_short (harrived : arrived <+: packet.encode ++ later)
    (hbody : bodyLength packet < 128 ^ 2) {r : Reading}
    (h : upToClientIdentifier (hex arrived) = .ok r) :
    r.pkt.clientid = some packet.clientId.bytes ∨ r.pkt.clientid = some [] := by
  obtain ⟨fixed, hfixed, h⟩ := bind_eq_ok.mp h
  obtain ⟨header, hvariable, hclientId⟩ := bind_eq_ok.mp h
  obtain ⟨rfl, hlength⟩ := fixedHeader_arrived harrived hfixed
  have hdrop := drop_arrived harrived hlength
  have hle := length_variableHeader_le packet
  obtain ⟨n, hn⟩ : ∃ n,
      announcedLength packet = packet.variableHeader.length + (n + 2) := by
    refine ⟨announcedLength packet - packet.variableHeader.length - 2, ?_⟩
    unfold announcedLength
    split <;> omega
  rw [drop_headerEnd packet hbody, hn, List.take_length_add_append] at hdrop
  rw [variableHeader_of_drop packet connectPkt hdrop] at hvariable
  cases hvariable
  have hpayload := drop_of_drop hdrop
  rw [Mqtt.Connect.payload, List.append_assoc] at hpayload
  obtain ⟨str, cur, hread, hstr⟩ := field_take
    (fun pkt str => { pkt with clientid := some str })
    (headed packet connectPkt) hpayload
  rw [clientIdentifier, hread] at hclientId
  cases hclientId
  exact hstr.imp (congrArg some) (congrArg some)

theorem field_past_end (store : Pkt → ByteString → Pkt) (pkt : Pkt)
    {bytes rest : ByteString} {k : Nat} {a b : UInt8}
    (hdrop : bytes.drop k = a :: b :: rest) (ha : a ≠ 0)
    (hrest : rest.length < 256) :
    field (hex bytes) store ⟨pkt, column k⟩ = .ok ⟨store pkt [], column k⟩ := by
  have hpos : 0 < a.toNat := by
    apply Nat.pos_of_ne_zero
    intro hzero
    exact ha (UInt8.toNat_inj.mp hzero)
  rw [field_column store pkt hdrop, if_neg (by omega)]

theorem drop_three (packet : Mqtt.Connect) (hbody : 128 ^ 2 ≤ bodyLength packet)
    (later : ByteString) :
    ∃ third size b rest, third ≠ 0 ∧
      (packet.encode ++ later).drop 3 =
        third :: 0 :: size :: 77 :: 81 :: b :: rest := by
  have hle : bodyLength packet ≤ 12 + 65537 * 5 := packet.length_le
  have hlength : packet.remainingLength =
      [UInt8.ofNat (bodyLength packet % 128 + 128),
        UInt8.ofNat (bodyLength packet / 128 % 128 + 128),
        UInt8.ofNat (bodyLength packet / 128 / 128)] := by
    rw [Mqtt.Connect.remainingLength, ← bodyLength, Mqtt.encodeLength,
      if_neg (by omega), Mqtt.encodeLength, if_neg (by omega),
      Mqtt.encodeLength, if_pos (by omega)]
  have hthird : UInt8.ofNat (bodyLength packet / 128 / 128) ≠ 0 := by
    intro hzero
    have hnat := congrArg UInt8.toNat hzero
    rw [UInt8.toNat_ofNat', UInt8.toNat_zero] at hnat
    omega
  rw [Mqtt.Connect.encode, hlength, Mqtt.Connect.variableHeader]
  cases packet.protocol with
  | mqisdp => exact ⟨_, 6, 73, _, hthird, rfl⟩
  | mqtt => exact ⟨_, 4, 84, _, hthird, rfl⟩

/-- With three length bytes the parser starts inside them and reads no field. -/
theorem clientid_arrived_long (harrived : arrived <+: packet.encode ++ later)
    (hbody : 128 ^ 2 ≤ bodyLength packet) {r : Reading}
    (h : upToClientIdentifier (hex arrived) = .ok r) :
    r.pkt.clientid = some [] := by
  obtain ⟨fixed, hfixed, h⟩ := bind_eq_ok.mp h
  obtain ⟨header, hvariable, hclientId⟩ := bind_eq_ok.mp h
  obtain ⟨rfl, hlength⟩ := fixedHeader_arrived harrived hfixed
  have hdrop := drop_arrived harrived hlength
  obtain ⟨third, size, b, rest, hthird, hfront⟩ := drop_three packet hbody later
  have hend : headerEnd packet = 3 := if_neg (by omega)
  obtain ⟨n, hn, hsmall⟩ : ∃ n, announcedLength packet = n + 6 ∧ n < 250 := by
    refine ⟨announcedLength packet - 6, ?_⟩
    rw [announcedLength, if_neg (by omega)]
    omega
  rw [hend, hfront, hn] at hdrop
  simp only [List.take_succ_cons] at hdrop
  have hrest : (rest.take n).length < 250 := by
    rw [List.length_take]
    omega
  -- the third length byte is taken for the length of the protocol name
  obtain ⟨named, hnamed, hvariable⟩ := bind_eq_ok.mp hvariable
  rw [hend, protocolName, field_past_end _ _ hdrop hthird
    (by simp only [List.length_cons]; omega)] at hnamed
  cases hnamed
  obtain ⟨levelled, hlevelled, hvariable⟩ := bind_eq_ok.mp hvariable
  rw [protocolLevel_of_drop _ hdrop] at hlevelled
  cases hlevelled
  have hflags := JsString.drop_succ_of_drop hdrop
  obtain ⟨flagged, hflagged, hvariable⟩ := bind_eq_ok.mp hvariable
  rw [flags_of_drop _ hflags rfl] at hflagged
  cases hflagged
  have hkeepalive := JsString.drop_succ_of_drop hflags
  rw [keepalive_of_drop _ hkeepalive] at hvariable
  cases hvariable
  have hname := JsString.drop_succ_of_drop
    (JsString.drop_succ_of_drop hkeepalive)
  rw [clientIdentifier, field_past_end _ _ hname (by decide) (by omega)]
    at hclientId
  cases hclientId
  rfl

theorem clientid_arrived (harrived : arrived <+: packet.encode ++ later)
    {r : Reading} (h : readPacket (hex arrived) = .ok r) :
    r.pkt.clientid = some packet.clientId.bytes ∨ r.pkt.clientid = some [] := by
  obtain ⟨named, hread, hoptional⟩ := bind_eq_ok.mp h
  have hkept : r.pkt.clientid = named.pkt.clientid :=
    congrArg (fun header => header.2.2.2.2.2)
      ((ends_upToClientIdentifier_optional hread).of_ok hoptional).2
  rw [hkept]
  by_cases hbody : bodyLength packet < 128 ^ 2
  · exact clientid_arrived_short harrived hbody hread
  · exact .inr (clientid_arrived_long harrived (by omega) hread)

theorem eq_encode_of_length (harrived : arrived <+: packet.encode ++ later)
    (hbody : bodyLength packet < 256)
    (hlength : arrived.length = headerEnd packet + announcedLength packet) :
    arrived = packet.encode := by
  have hsize : arrived.length = packet.encode.length := by
    rw [hlength, length_encode, (length_remainingLength packet).2 (by omega),
      announcedLength]
    split <;> omega
  rw [List.prefix_iff_eq_take.mp harrived, hsize, List.take_left]

theorem arrived_eq_encode (harrived : arrived <+: packet.encode ++ later)
    (hbody : bodyLength packet < 256) {r : Reading}
    (h : readPacket (hex arrived) = .ok r) : arrived = packet.encode := by
  obtain ⟨named, hread, -⟩ := bind_eq_ok.mp h
  obtain ⟨fixed, hfixed, -⟩ := bind_eq_ok.mp hread
  exact eq_encode_of_length harrived hbody (fixedHeader_arrived harrived hfixed).2

theorem announced_arrived (harrived : arrived <+: packet.encode ++ later)
    (hlength : 4 ≤ arrived.length) (pkt : Pkt) :
    announced (hex arrived) ⟨pkt, column 1⟩ =
      .ok ((announcedLength packet : Int),
        ⟨pkt, column (headerEnd packet)⟩) := by
  obtain ⟨b, c, d, rest, hdrop, hd, hannounced, hend⟩ :=
    lengthBytes_encode packet later
  have hfirst : arrived.drop 1 = b :: c :: d :: rest.take (arrived.length - 4) := by
    have htake := congrArg (List.drop 1) (List.prefix_iff_eq_take.mp harrived)
    rw [htake, List.drop_take, hdrop,
      show arrived.length - 1 = arrived.length - 4 + 3 by omega]
    rfl
  rw [announced_of_lengthBytes pkt hfirst hd, hannounced, hend, hannounced]

theorem fixedHeader_of_length_ne (harrived : arrived <+: packet.encode ++ later)
    (hlength : 4 ≤ arrived.length)
    (hne : arrived.length ≠ headerEnd packet + announcedLength packet) :
    fixedHeader (hex arrived) =
      .error (.returned (connectPkt.refuse wrongSize)) := by
  cases harrived' : arrived with
  | nil =>
      rw [harrived'] at hlength
      exact absurd hlength (by simp)
  | cons first rest =>
      have hfirst : first = 16 := by
        rw [harrived', Mqtt.Connect.encode, List.cons_append,
          List.cons_prefix_cons] at harrived
        exact harrived.1
      have hannounced := announced_arrived harrived hlength connectPkt
      rw [harrived'] at hannounced
      unfold fixedHeader
      rw [packetType_cons, if_pos (by rw [hfirst]; rfl)]
      simp only [bind, Except.bind]
      rw [hannounced]
      simp only [sized, ne_eq, ite_not, LuaString.length_hex]
      rw [if_neg]
      · rfl
      · rw [harrived'] at hne
        unfold column
        omega

end Arrival

theorem get_clientid (pkt : Pkt) :
    pkt.get "clientid" = pkt.clientid.map .string := rfl

theorem getMqttConnectField_of_parse {buffer : ByteString} {pkt : Pkt}
    {field : String} (hfield : field ≠ "") (hlength : ¬ buffer.length < 8)
    (hparse : parse buffer = .ok pkt) (herror : pkt.error = false) :
    getMqttConnectField buffer field =
      .ok ((pkt.get field).getD (.string [45])) := by
  unfold getMqttConnectField
  rw [if_neg hfield, if_neg hlength]
  refine bind_eq_ok.mpr ⟨pkt, hparse, ?_⟩
  rw [herror]
  cases pkt.get field with
  | none => rfl
  | some value => rfl

theorem answers_of_refusal {buffer : ByteString} {pkt : Pkt}
    (hlength : ¬ buffer.length < 8) (hparse : parse buffer = .ok pkt)
    (herror : pkt.error = true) :
    isMqttConnect buffer = .ok false ∧
      ∀ field, field ≠ "" →
        getMqttConnectField buffer field = .ok (.string []) := by
  constructor
  · rw [isMqttConnect, if_neg hlength, hparse]
    simp only [bind, Except.bind, herror]
    rfl
  · intro field hfield
    rw [getMqttConnectField, if_neg hfield, if_neg hlength, hparse]
    simp only [bind, Except.bind, herror]
    rfl

theorem getMqttConnectField_clientid {buffer str : ByteString} {r : Reading}
    (hlength : 8 ≤ buffer.length) (hread : readPacket buffer = .ok r)
    (hclientId : r.pkt.clientid = some str) :
    getMqttConnectField buffer "clientid" = .ok (.string str) := by
  have hcomplete := (ends_readPacket buffer).of_ok hread
  have hparse : parse buffer = .ok r.pkt := by
    unfold parse
    rw [hread]
  rw [getMqttConnectField_of_parse (by decide) (by omega) hparse
    hcomplete.accepted.1, get_clientid, hclientId]
  rfl

/--
Whatever of a client's bytes has arrived, in whichever pieces: once it is
accepted, the key is the client identifier that was sent or empty, and never a
part of one or another client's.  Below 256 it is the client identifier, and
what was accepted is the whole packet and nothing behind it.
-/
theorem stickKey_accepted (packet : Mqtt.Connect) (arrived later : ByteString)
    (harrived : arrived <+: packet.encode ++ later)
    (h : isMqttConnect (hex arrived) = .ok true) :
    (getMqttConnectField (hex arrived) "clientid" =
        .ok (.string packet.clientId.bytes) ∨
      getMqttConnectField (hex arrived) "clientid" = .ok (.string [])) ∧
    (bodyLength packet < 256 →
      arrived = packet.encode ∧
        getMqttConnectField (hex arrived) "clientid" =
          .ok (.string packet.clientId.bytes)) := by
  obtain ⟨hlength, r, hread⟩ := isMqttConnect_eq_true.mp h
  constructor
  · cases clientid_arrived harrived hread with
    | inl hsome =>
        exact .inl (getMqttConnectField_clientid hlength hread hsome)
    | inr hnone =>
        exact .inr (getMqttConnectField_clientid hlength hread hnone)
  · intro hbody
    have hwhole := arrived_eq_encode harrived hbody hread
    refine ⟨hwhole, getMqttConnectField_clientid hlength hread ?_⟩
    rw [hwhole] at hread
    exact congrArg (fun header => header.2.2.2.2.2)
      ((ends_readPacket_encode packet hbody).of_ok hread)

theorem stickKey_accepted_deviceOne :
    getMqttConnectField (hex Njs.deviceOne.encode) "clientid" =
      .ok (.string Njs.deviceOne.clientId.bytes) :=
  ((stickKey_accepted Njs.deviceOne Njs.deviceOne.encode [1, 2]
    (List.prefix_append _ _) (by decide +kernel)).2 (by decide)).2

theorem length_hex_encode (packet : Mqtt.Connect) :
    ¬ (hex packet.encode).length < 8 := by
  obtain ⟨header, hheader⟩ := variableHeader_cons packet
  have hlength := length_encode packet
  have hbody := (length_variableHeader_le packet).1
  have hend := (length_remainingLength packet).1
  rw [hheader, List.length_cons] at hbody
  rw [LuaString.length_hex]
  unfold headerEnd at hend
  split at hend <;> omega

/--
The converter and the fetch on a whole packet without a will, or with an empty
one: accepted below 256, with the field of any name; nothing at all from there.
-/
theorem proxy_encode (packet : Mqtt.Connect) (hwill : WillEmpty packet) :
    isMqttConnect (hex packet.encode) = .ok (decide (bodyLength packet < 256)) ∧
      ∀ field, getMqttConnectField (hex packet.encode) field =
        .ok (if field = "" then .string [45]
          else if bodyLength packet < 256 then
            ((pktOf packet).get field).getD (.string [45])
          else .string []) := by
  have hparse := parse_encode packet hwill
  have hlength := length_hex_encode packet
  by_cases hbody : bodyLength packet < 256
  · rw [if_pos hbody] at hparse
    constructor
    · rw [isMqttConnect, if_neg hlength, hparse, decide_eq_true hbody]
      rfl
    · intro field
      by_cases hfield : field = ""
      · rw [getMqttConnectField, if_pos hfield, if_pos hfield]
      · rw [if_neg hfield, if_pos hbody,
          getMqttConnectField_of_parse hfield hlength hparse rfl]
  · rw [if_neg hbody] at hparse
    obtain ⟨haccepted, hfields⟩ := answers_of_refusal hlength hparse rfl
    rw [decide_eq_false hbody]
    refine ⟨haccepted, fun field => ?_⟩
    by_cases hfield : field = ""
    · rw [getMqttConnectField, if_pos hfield, if_pos hfield]
    · rw [if_neg hfield, if_neg hbody, hfields field hfield]

theorem proxy_encode_deviceOne :
    isMqttConnect (hex Njs.deviceOne.encode) = .ok true ∧
      getMqttConnectField (hex Njs.deviceOne.encode) "username" =
        .ok (.string [45]) := by
  obtain ⟨haccepted, hfield⟩ := proxy_encode Njs.deviceOne
    (by simp [WillEmpty, Njs.deviceOne])
  exact ⟨haccepted, hfield "username"⟩

/--
Both balancers give a connection the same key, for a packet below 256 with the
protocol name that the scripts of nginx expect; the will has to be empty.
-/
theorem keys_agree (packet : Mqtt.Connect) (hwill : WillEmpty packet)
    (hbody : bodyLength packet < 256) (hprotocol : packet.protocol = .mqisdp) :
    getMqttConnectField (hex packet.encode) "clientid" =
      .ok (.string (Njs.setClientId
        (Njs.upload (Njs.getClientId .new) packet.encode))) := by
  have hparse := parse_encode packet hwill
  rw [if_pos hbody] at hparse
  rw [getMqttConnectField_of_parse (by decide) (length_hex_encode packet) hparse
    rfl, get_clientid, Njs.setClientId_connect, hprotocol]
  rfl

def meterSeven : Mqtt.Connect :=
  { Njs.deviceOne with
    protocol := .mqisdp, clientId := ⟨[109, 55], by decide⟩ }

theorem keys_agree_meterSeven :
    getMqttConnectField (hex meterSeven.encode) "clientid" =
      .ok (.string (Njs.setClientId
        (Njs.upload (Njs.getClientId .new) meterSeven.encode))) :=
  keys_agree meterSeven (by simp [WillEmpty, meterSeven, Njs.deviceOne])
    (by decide) rfl

end WebIm.Haproxy
