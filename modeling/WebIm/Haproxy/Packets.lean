import Mathlib.Algebra.Group.Nat.Defs
import WebIm.Haproxy.Acceptance

/-!
# CONNECT packets as clients send them

A packet is read back field by field as long as its remaining length is below
256 and its will, if there is one, is empty: the loop over the length counts the
continuation bit, and a field of the will is skipped by half of its length.
-/

namespace WebIm.Haproxy

open WebIm.Foundation
open LuaString (hex column)

/-! ## The header -/

def protocolBytes : Mqtt.Protocol → ByteString
  | .mqisdp => [77, 81, 73, 115, 100, 112]
  | .mqtt => [77, 81, 84, 84]

def protocolField (protocol : Mqtt.Protocol) : Mqtt.Field :=
  ⟨protocolBytes protocol, by cases protocol <;> decide⟩

def protocolLevelOf : Mqtt.Protocol → UInt8
  | .mqisdp => 3
  | .mqtt => 4

theorem protocol_encode (protocol : Mqtt.Protocol) :
    protocol.encode = (protocolField protocol).encode ++
      [protocolLevelOf protocol] := by
  cases protocol <;> rfl

/-- The quality of service is one bit, and its second bit counts as `clean`. -/
def flagOf (packet : Mqtt.Connect) : Flag where
  username := packet.username.isSome
  password := packet.password.isSome
  willretain := packet.will.any Mqtt.Will.retain
  willqos := packet.will.any fun will => 0 < will.qos.val
  will := packet.will.isSome
  clean := packet.cleanSession || packet.will.any fun will => will.qos.val = 2

theorem parseflags_bits (username password retain clean : Bool) (qos : Fin 3)
    (will : Bool) :
    parseflags (some ((UInt8.ofNat (128 * username.toNat + 64 * password.toNat +
      (if will then 32 * retain.toNat + 8 * qos.val + 4 else 0) +
        2 * clean.toNat)).toNat : Int)) =
      .ok {
        username, password
        willretain := will && retain
        willqos := will && decide (0 < qos.val)
        will
        clean := clean || will && decide (qos.val = 2) } := by
  revert username password retain clean qos will
  decide +kernel

theorem parseflags_flags (packet : Mqtt.Connect) :
    parseflags (some (packet.flags.toNat : Int)) = .ok (flagOf packet) := by
  unfold Mqtt.Connect.flags flagOf
  cases packet.will with
  | none =>
      have hbits := parseflags_bits packet.username.isSome
        packet.password.isSome false packet.cleanSession 0 false
      simpa using hbits
  | some will =>
      have hbits := parseflags_bits packet.username.isSome
        packet.password.isSome will.retain packet.cleanSession will.qos true
      simpa using hbits

def pktOf (packet : Mqtt.Connect) : Pkt where
  error := false
  errormessage := ""
  type := some 1
  protocolname := some (protocolBytes packet.protocol)
  protocollevel := some (protocolLevelOf packet.protocol).toNat
  flag := some (flagOf packet)
  keepalive := some packet.keepAlive.val
  clientid := some packet.clientId.bytes
  username := packet.username.map Mqtt.Field.bytes
  password := packet.password.map Mqtt.Field.bytes

section Header

variable {bytes rest : ByteString} {k : Nat}

theorem protocolLevel_of_drop (pkt : Pkt) {b : UInt8}
    (hdrop : bytes.drop k = b :: rest) :
    protocolLevel (hex bytes) ⟨pkt, column k⟩ =
      .ok ⟨{ pkt with protocollevel := some b.toNat }, column (k + 1)⟩ := by
  have hlength := length_of_drop hdrop
  unfold protocolLevel
  simp only [numberAt_of_drop hdrop]
  rw [advance_column _ 1 (by omega), if_pos (by omega)]

theorem flags_of_drop (pkt : Pkt) {b : UInt8} {flag : Flag}
    (hdrop : bytes.drop k = b :: rest)
    (hflag : parseflags (some (b.toNat : Int)) = .ok flag) :
    flags (hex bytes) ⟨pkt, column k⟩ =
      .ok ⟨{ pkt with flag := some flag }, column (k + 1)⟩ := by
  have hlength := length_of_drop hdrop
  unfold flags
  simp only [numberAt_of_drop hdrop, hflag, failing, bind, Except.bind]
  rw [advance_column _ 1 (by omega), if_pos (by omega)]

theorem keepalive_of_drop (pkt : Pkt) {a b : UInt8}
    (hdrop : bytes.drop k = a :: b :: rest) :
    keepalive (hex bytes) ⟨pkt, column k⟩ =
      .ok ⟨{ pkt with keepalive := some (a.toNat * 256 + b.toNat) },
        column (k + 2)⟩ := by
  have hlength := length_of_drop hdrop
  rw [List.length_cons] at hlength
  have hnext := JsString.drop_succ_of_drop hdrop
  unfold keepalive
  simp only [LuaString.column_add_two, numberAt_of_drop hdrop,
    numberAt_of_drop hnext, operand, failing, bind, Except.bind]
  rw [advance_column _ 2 (by omega), if_pos (by omega)]

theorem skip_of_drop (pkt : Pkt) (hdrop : bytes.drop k = 0 :: 0 :: rest) :
    skip (hex bytes) ⟨pkt, column k⟩ = .ok ⟨pkt, column (k + 2)⟩ := by
  have hlength := length_of_drop hdrop
  rw [List.length_cons] at hlength
  have hnext := JsString.drop_succ_of_drop hdrop
  unfold skip
  simp only [LuaString.column_add_two, numberAt_of_drop hdrop,
    numberAt_of_drop hnext, operand, failing, bind, Except.bind]
  rw [advance_column _ 2 (by simp), if_pos (by omega)]

theorem drop_of_drop {front : ByteString}
    (hdrop : bytes.drop k = front ++ rest) :
    bytes.drop (k + front.length) = rest := by
  rw [← List.drop_drop, hdrop, List.drop_left]

end Header

def headed (packet : Mqtt.Connect) (pkt : Pkt) : Pkt :=
  { pkt with
    protocolname := some (protocolBytes packet.protocol)
    protocollevel := some (protocolLevelOf packet.protocol).toNat
    flag := some (flagOf packet)
    keepalive := some packet.keepAlive.val }

theorem variableHeader_of_drop (packet : Mqtt.Connect) (pkt : Pkt)
    {bytes rest : ByteString} {k : Nat}
    (hdrop : bytes.drop k = packet.variableHeader ++ rest) :
    variableHeader (hex bytes) ⟨pkt, column k⟩ =
      .ok ⟨headed packet pkt, column (k + packet.variableHeader.length)⟩ := by
  obtain ⟨a, b, htwo, hvalue⟩ := Mqtt.twoBytes_value packet.keepAlive.isLt
  have hname : bytes.drop k = (protocolField packet.protocol).encode ++
      protocolLevelOf packet.protocol :: packet.flags :: a :: b :: rest := by
    rw [hdrop, Mqtt.Connect.variableHeader, protocol_encode, htwo]
    simp
  have hlevel := drop_of_drop hname
  have hflags := JsString.drop_succ_of_drop hlevel
  have hkeepalive := JsString.drop_succ_of_drop hflags
  have hlength : packet.variableHeader.length =
      (protocolField packet.protocol).encode.length + 4 := by
    rw [Mqtt.Connect.variableHeader, protocol_encode, htwo]
    simp
  unfold variableHeader protocolName
  rw [field_encode _ pkt hname]
  refine bind_eq_ok.mpr ⟨_, rfl, ?_⟩
  rw [protocolLevel_of_drop _ hlevel]
  refine bind_eq_ok.mpr ⟨_, rfl, ?_⟩
  rw [flags_of_drop _ hflags (parseflags_flags packet)]
  refine bind_eq_ok.mpr ⟨_, rfl, ?_⟩
  rw [keepalive_of_drop _ hkeepalive, hlength]
  have hvalue' : (a.toNat : Int) * 256 + b.toNat = packet.keepAlive.val := by
    omega
  rw [hvalue']
  rfl

/-! ## The remaining length -/

def bodyLength (packet : Mqtt.Connect) : Nat :=
  packet.variableHeader.length + packet.payload.length

/-- The length the parser takes from the first length byte alone. -/
def announcedLength (packet : Mqtt.Connect) : Nat :=
  if bodyLength packet < 128 then bodyLength packet
  else bodyLength packet % 128 + 128

def headerEnd (packet : Mqtt.Connect) : Nat :=
  if bodyLength packet < 128 then 2 else 3

theorem continuation_of_drop (pkt : Pkt) {bytes rest : ByteString} {k byte : Nat}
    {b c : UInt8} (hdrop : bytes.drop k = b :: c :: rest)
    (hbyte : 128 ≤ byte) (hc : c.toNat < 128) :
    continuation (hex bytes) pkt 0 1 (some (byte : Int)) (column k) =
      .ok ((byte : Int), column (k + 1)) := by
  have hlength := length_of_drop hdrop
  rw [List.length_cons] at hlength
  have hnext := JsString.drop_succ_of_drop hdrop
  have hinside : ¬ column k + 2 - 1 > (hex bytes).length := by
    rw [LuaString.length_hex]
    unfold column
    omega
  rw [continuation, if_pos (by omega), if_neg (by omega), if_neg hinside,
    LuaString.column_add_two, numberAt_of_drop hnext, continuation,
    if_neg (by omega), Int.mul_one, Int.zero_add]

theorem encodeLength_append {n : Nat} (hn : n < 128 ^ 2) (body : ByteString) :
    ∃ b c rest, Mqtt.encodeLength 3 n ++ 0 :: body = b :: c :: rest ∧
      c.toNat < 128 := by
  unfold Mqtt.encodeLength
  by_cases hsmall : n < 128
  · rw [if_pos hsmall]
    exact ⟨_, 0, body, rfl, by decide⟩
  · rw [if_neg hsmall, Mqtt.encodeLength, if_pos (by omega)]
    refine ⟨_, UInt8.ofNat (n / 128), 0 :: body, rfl, ?_⟩
    rw [UInt8.toNat_ofNat']
    omega

theorem variableHeader_cons (packet : Mqtt.Connect) :
    ∃ rest, packet.variableHeader = 0 :: rest := by
  unfold Mqtt.Connect.variableHeader
  cases packet.protocol with
  | mqisdp => exact ⟨_, rfl⟩
  | mqtt => exact ⟨_, rfl⟩

/-- The parser looks at the first length byte and, from 128 on, at the third. -/
theorem announced_of_lengthBytes (pkt : Pkt) {bytes rest : ByteString}
    {b c d : UInt8} (hdrop : bytes.drop 1 = b :: c :: d :: rest)
    (hd : 128 ≤ b.toNat → d.toNat < 128) :
    announced (hex bytes) ⟨pkt, column 1⟩ =
      .ok ((b.toNat : Int), ⟨pkt, column (if 128 ≤ b.toNat then 3 else 2)⟩) := by
  rw [announced_of_drop hdrop]
  split
  · rename_i hlarge
    rw [continuation_of_drop pkt (JsString.drop_succ_of_drop hdrop) hlarge
      (hd hlarge)]
    rfl
  · rfl

theorem lengthBytes_encode (packet : Mqtt.Connect) (later : ByteString) :
    ∃ b c d rest, (packet.encode ++ later).drop 1 = b :: c :: d :: rest ∧
      (128 ≤ b.toNat → d.toNat < 128) ∧ b.toNat = announcedLength packet ∧
      headerEnd packet = if 128 ≤ b.toNat then 3 else 2 := by
  obtain ⟨header, hheader⟩ := variableHeader_cons packet
  have hle : bodyLength packet ≤ 12 + 65537 * 5 := packet.length_le
  have hdrop : (packet.encode ++ later).drop 1 =
      Mqtt.encodeLength 4 (bodyLength packet) ++
        0 :: (header ++ (packet.payload ++ later)) := by
    rw [Mqtt.Connect.encode, Mqtt.Connect.remainingLength, bodyLength, hheader]
    simp
  obtain ⟨a, b, htwo, -⟩ := Mqtt.twoBytes_value packet.clientId.short
  have hpayload : packet.payload =
      a :: b :: (packet.clientId.bytes ++ packet.optionalFields) := by
    rw [Mqtt.Connect.payload, Mqtt.Field.encode, htwo]
    rfl
  rw [Mqtt.encodeLength] at hdrop
  unfold announcedLength headerEnd
  by_cases hsmall : bodyLength packet < 128
  · have hbyte : (UInt8.ofNat (bodyLength packet)).toNat = bodyLength packet := by
      rw [UInt8.toNat_ofNat']
      omega
    obtain ⟨d, rest, hrest⟩ : ∃ d rest,
        header ++ (packet.payload ++ later) = d :: rest := by
      apply List.exists_cons_of_ne_nil
      rw [hpayload]
      simp
    rw [if_pos hsmall, hrest] at hdrop
    refine ⟨_, _, _, _, hdrop, ?_, ?_, ?_⟩
    · omega
    · rw [if_pos hsmall, hbyte]
    · rw [if_pos hsmall, if_neg (by omega)]
  · have hbyte : (UInt8.ofNat (bodyLength packet % 128 + 128)).toNat =
        bodyLength packet % 128 + 128 := by
      rw [UInt8.toNat_ofNat']
      omega
    obtain ⟨c, d, rest, htail, hd⟩ :=
      encodeLength_append (n := bodyLength packet / 128) (by omega)
        (header ++ (packet.payload ++ later))
    rw [if_neg hsmall, List.cons_append, htail] at hdrop
    refine ⟨_, _, _, _, hdrop, fun _ => hd, ?_, ?_⟩
    · rw [if_neg hsmall, hbyte]
    · rw [if_neg hsmall, if_pos (by omega)]

theorem announced_encode (packet : Mqtt.Connect) (later : ByteString)
    (pkt : Pkt) :
    announced (hex (packet.encode ++ later)) ⟨pkt, column 1⟩ =
      .ok ((announcedLength packet : Int),
        ⟨pkt, column (headerEnd packet)⟩) := by
  obtain ⟨b, c, d, rest, hdrop, hd, hannounced, hend⟩ :=
    lengthBytes_encode packet later
  rw [announced_of_lengthBytes pkt hdrop hd, hannounced, hend, hannounced]

theorem length_remainingLength (packet : Mqtt.Connect) :
    headerEnd packet ≤ 1 + packet.remainingLength.length ∧
      (bodyLength packet < 128 ^ 2 →
        1 + packet.remainingLength.length = headerEnd packet) := by
  have hlength : packet.remainingLength = Mqtt.encodeLength 4 (bodyLength packet) :=
    rfl
  rw [hlength, headerEnd, Mqtt.encodeLength]
  by_cases hsmall : bodyLength packet < 128
  · rw [if_pos hsmall, if_pos hsmall]
    simp
  · rw [if_neg hsmall, if_neg hsmall, List.length_cons, Mqtt.encodeLength]
    split
    · simp
    · rw [List.length_cons]
      constructor
      · omega
      · intro hlt
        omega

theorem length_encode (packet : Mqtt.Connect) :
    packet.encode.length =
      1 + packet.remainingLength.length + bodyLength packet := by
  simp only [Mqtt.Connect.encode, bodyLength, List.length_cons,
    List.length_append]
  omega

theorem drop_headerEnd (packet : Mqtt.Connect)
    (hbody : bodyLength packet < 128 ^ 2) (later : ByteString) :
    (packet.encode ++ later).drop (headerEnd packet) =
      packet.variableHeader ++ (packet.payload ++ later) := by
  rw [← (length_remainingLength packet).2 hbody, Mqtt.Connect.encode,
    List.cons_append, Nat.add_comm, List.drop_succ_cons, List.append_assoc,
    List.drop_left, List.append_assoc]

theorem packetType_encode (packet : Mqtt.Connect) :
    packetType (hex packet.encode) = .ok ⟨connectPkt, column 1⟩ :=
  packetType_cons 16 _

def wrongSize : String :=
  "announced packet size sem to be wrong, can't parse it."

/-- The announced length is the true one exactly below 256. -/
theorem fixedHeader_encode (packet : Mqtt.Connect) :
    fixedHeader (hex packet.encode) =
      if bodyLength packet < 256 then
        .ok ⟨connectPkt, column (headerEnd packet)⟩
      else .error (.returned (connectPkt.refuse wrongSize)) := by
  have hannounced := announced_encode packet [] connectPkt
  rw [List.append_nil] at hannounced
  have hlength := length_encode packet
  have hheader := length_remainingLength packet
  unfold fixedHeader
  rw [packetType_encode]
  simp only [bind, Except.bind]
  rw [hannounced]
  simp only [sized, ne_eq, ite_not, LuaString.length_hex]
  by_cases hsmall : bodyLength packet < 256
  · have hend := hheader.2 (by omega)
    rw [if_pos hsmall, if_pos ?_]
    unfold announcedLength column
    split <;> omega
  · rw [if_neg hsmall, if_neg ?_]
    · rfl
    · have hlarge : ¬ bodyLength packet < 128 := by omega
      have hend := hheader.1
      unfold column announcedLength
      rw [headerEnd, if_neg hlarge] at hend
      rw [headerEnd, if_neg hlarge, if_neg hlarge]
      omega

/-! ## The payload -/

def WillEmpty (packet : Mqtt.Connect) : Prop :=
  ∀ will ∈ packet.will, will.topic.bytes = [] ∧ will.message.bytes = []

section Payload

variable {bytes rest : ByteString} {k : Nat}

theorem empty_encode {text : Mqtt.Field} (h : text.bytes = []) :
    text.encode = [0, 0] := by
  rw [Mqtt.Field.encode, h]
  rfl

theorem will_of_drop (packet : Mqtt.Connect) (hwill : WillEmpty packet)
    (pkt : Pkt) (hflag : pkt.flag = some (flagOf packet))
    (hdrop : bytes.drop k =
      (packet.will.elim [] fun will => will.topic.encode ++ will.message.encode) ++
        rest) :
    will (hex bytes) ⟨pkt, column k⟩ =
      .ok ⟨pkt, column (k + (packet.will.elim [] fun will =>
        will.topic.encode ++ will.message.encode).length)⟩ := by
  unfold will whenFlagged
  cases hsome : packet.will with
  | none =>
      have hflagged : (flagOf packet).will = false := by simp [flagOf, hsome]
      rw [hflag, Option.any_some, hflagged, if_neg (by simp)]
      rfl
  | some given =>
      have hflagged : (flagOf packet).will = true := by simp [flagOf, hsome]
      obtain ⟨htopic, hmessage⟩ := hwill given hsome
      rw [hsome, Option.elim_some, empty_encode htopic,
        empty_encode hmessage] at hdrop
      have hfirst : bytes.drop k = 0 :: 0 :: (0 :: 0 :: rest) := hdrop
      have hsecond := JsString.drop_succ_of_drop
        (JsString.drop_succ_of_drop hfirst)
      rw [hflag, Option.any_some, hflagged, if_pos rfl]
      refine bind_eq_ok.mpr ⟨_, skip_of_drop pkt hfirst, ?_⟩
      rw [Option.elim_some, empty_encode htopic, empty_encode hmessage]
      exact skip_of_drop pkt hsecond

theorem whenFlagged_of_drop (flagged : Flag → Bool)
    (set : Pkt → Option ByteString → Pkt) (pkt : Pkt) (text : Option Mqtt.Field)
    (hflag : pkt.flag.any flagged = text.isSome) (hfree : pkt = set pkt none)
    (hdrop : bytes.drop k = text.elim [] Mqtt.Field.encode ++ rest) :
    whenFlagged flagged (field (hex bytes) fun pkt str => set pkt (some str))
        ⟨pkt, column k⟩ =
      .ok ⟨set pkt (text.map Mqtt.Field.bytes),
        column (k + (text.elim [] Mqtt.Field.encode).length)⟩ := by
  unfold whenFlagged
  cases text with
  | none =>
      rw [hflag, if_neg (by simp), Option.map_none, ← hfree]
      rfl
  | some text =>
      rw [hflag, if_pos Option.isSome_some]
      exact field_encode _ pkt hdrop

theorem optionalFields_of_drop (packet : Mqtt.Connect)
    (hwill : WillEmpty packet) (pkt : Pkt)
    (hflag : pkt.flag = some (flagOf packet))
    (husername : pkt.username = none) (hpassword : pkt.password = none)
    (hdrop : bytes.drop k = packet.optionalFields ++ rest) :
    ∃ cur, optionalFields (hex bytes) ⟨pkt, column k⟩ =
      .ok ⟨{ pkt with
        username := packet.username.map Mqtt.Field.bytes
        password := packet.password.map Mqtt.Field.bytes }, cur⟩ := by
  rw [Mqtt.Connect.optionalFields, List.append_assoc, List.append_assoc] at hdrop
  have hnamed := drop_of_drop hdrop
  have hlast := drop_of_drop hnamed
  have hnamedOk := whenFlagged_of_drop Flag.username
    (fun pkt str => { pkt with username := str }) pkt packet.username
    (by rw [hflag]; rfl) (by rw [← husername]) hnamed
  have hlastOk := whenFlagged_of_drop Flag.password
    (fun pkt str => { pkt with password := str })
    { pkt with username := packet.username.map Mqtt.Field.bytes }
    packet.password (by simp only [hflag]; rfl) (by rw [← hpassword]) hlast
  exact ⟨_, bind_eq_ok.mpr ⟨_, will_of_drop packet hwill pkt hflag hdrop,
    bind_eq_ok.mpr ⟨_, hnamedOk, hlastOk⟩⟩⟩

end Payload

def identified (packet : Mqtt.Connect) (pkt : Pkt) : Pkt :=
  { headed packet pkt with clientid := some packet.clientId.bytes }

theorem upToClientIdentifier_encode (packet : Mqtt.Connect)
    (hbody : bodyLength packet < 256) :
    ∃ k, (packet.encode).drop k = packet.optionalFields ∧
      upToClientIdentifier (hex packet.encode) =
        .ok ⟨identified packet connectPkt, column k⟩ := by
  have hdrop := drop_headerEnd packet (by omega) []
  simp only [List.append_nil] at hdrop
  have hfixed := fixedHeader_encode packet
  rw [if_pos hbody] at hfixed
  have hpayload := drop_of_drop hdrop
  rw [Mqtt.Connect.payload] at hpayload
  have hheader := variableHeader_of_drop packet connectPkt hdrop
  have hclientId := field_encode
    (fun pkt str => { pkt with clientid := some str })
    (headed packet connectPkt) hpayload
  exact ⟨_, drop_of_drop hpayload, bind_eq_ok.mpr
    ⟨_, hfixed, bind_eq_ok.mpr ⟨_, hheader, hclientId⟩⟩⟩

theorem parse_encode_wrongSize (packet : Mqtt.Connect)
    (hbody : ¬ bodyLength packet < 256) :
    parse (hex packet.encode) = .ok (connectPkt.refuse wrongSize) := by
  have hfixed := fixedHeader_encode packet
  rw [if_neg hbody] at hfixed
  unfold parse readPacket upToClientIdentifier
  rw [hfixed]
  rfl

/--
A packet without a will, or with an empty one, is read back with all its fields
when its remaining length is below 256, and refused for its size otherwise.
-/
theorem parse_encode (packet : Mqtt.Connect) (hwill : WillEmpty packet) :
    parse (hex packet.encode) =
      if bodyLength packet < 256 then .ok (pktOf packet)
      else .ok (connectPkt.refuse wrongSize) := by
  split
  · rename_i hbody
    obtain ⟨k, hdrop, hread⟩ := upToClientIdentifier_encode packet hbody
    rw [← List.append_nil packet.optionalFields] at hdrop
    obtain ⟨cur, hoptional⟩ := optionalFields_of_drop packet hwill
      (identified packet connectPkt) rfl rfl rfl hdrop
    have hpacket : readPacket (hex packet.encode) = .ok ⟨pktOf packet, cur⟩ :=
      bind_eq_ok.mpr ⟨_, hread, hoptional⟩
    unfold parse
    rw [hpacket]
  · rename_i hbody
    exact parse_encode_wrongSize packet hbody

theorem ends_readPacket_encode (packet : Mqtt.Connect)
    (hbody : bodyLength packet < 256) :
    Ends (readPacket (hex packet.encode))
      (fun r => r.pkt.header = (pktOf packet).header)
      (Refused fun pkt => pkt.header = (pktOf packet).header) := by
  obtain ⟨k, -, hread⟩ := upToClientIdentifier_encode packet hbody
  have hends := (ends_upToClientIdentifier_optional hread).mono
    fun r hr => hr.2
  unfold readPacket
  rw [hread]
  exact hends

/--
A packet that is returned, whatever its will, has the protocol, the flags, the
keep-alive time and the client identifier the client sent, also where it is
refused behind them; from 256 on it is refused for its size.
-/
theorem parse_encode_header (packet : Mqtt.Connect) (pkt : Pkt)
    (h : parse (hex packet.encode) = .ok pkt) :
    if bodyLength packet < 256 then pkt.header = (pktOf packet).header
    else pkt = connectPkt.refuse wrongSize := by
  split
  · rename_i hbody
    have hends := ends_readPacket_encode packet hbody
    unfold parse at h
    cases hread : readPacket (hex packet.encode) with
    | ok r =>
        rw [hread] at h hends
        cases h
        exact hends
    | error exit =>
        rw [hread] at h hends
        cases exit with
        | returned refusal =>
            cases h
            exact hends.2.2
        | failed e => cases h
  · rename_i hbody
    rw [parse_encode_wrongSize packet hbody] at h
    exact (Except.ok.inj h).symm

/-- A client with a will of one byte and a password that is cut off. -/
def clientWithWill : Mqtt.Connect where
  protocol := .mqtt
  cleanSession := false
  keepAlive := Fin.last 65535
  clientId := ⟨[98, 111, 98], by decide⟩
  will := some ⟨⟨[116], by decide⟩, ⟨[109], by decide⟩, Fin.last 2, false⟩
  username := none
  password := some ⟨[112, 119], by decide⟩

theorem parse_encode_header_bob :
    ({ identified clientWithWill connectPkt with
      error := true
      errormessage := "Error when parsing the buffer" } : Pkt).header =
      (pktOf clientWithWill).header := by
  have h := parse_encode_header clientWithWill
    { identified clientWithWill connectPkt with
      error := true
      errormessage := "Error when parsing the buffer" } (by decide +kernel)
  rwa [if_pos (by decide)] at h

end WebIm.Haproxy
