import WebIm.Foundation.MqttConnect

/-!
# mqtt-new.js: the client identifier of a session

nginx calls `getClientId` before it picks an upstream; the script listens to
the upload, parses the first packet and leaves the key in a global variable
that `setClientId` returns.  Each session has its own globals.
-/

namespace WebIm.Njs

open WebIm.Foundation

structure Session where
  clientMessages : Nat
  clientKey : ByteString
  onUpload : Bool
  allowed : Bool
  deriving DecidableEq, Repr

def Session.new : Session := ⟨1, [], false, false⟩

def remainingLength (data : ByteString) :
    Nat → Nat → Nat → Nat → Nat × Nat
  | 0, pos, _, value => (pos, value)
  | fuel + 1, pos, multiplier, value =>
      match JsString.charCodeAt data pos with
      | some 0 => (pos, value)
      | byte =>
          -- `NaN & 127` is 0
          remainingLength data fuel (pos + 1) (multiplier * 128)
            (value + (byte.getD 0 &&& 127) * multiplier)

def parseClientId (session : Session) (data : ByteString) :
    Session × ByteString :=
  let session :=
    if session.clientMessages = 1 then
      match JsString.charCodeAt data 0 with
      | none => session
      | some packetTypeFlagsByte =>
          if packetTypeFlagsByte ≥ 16 ∧ packetTypeFlagsByte < 32 then
            let remainingLenPos := (remainingLength data 4 1 1 0).1
            let payloadOffset := remainingLenPos + 12
            let clientIdLenMsb :=
              JsString.toHex (JsString.charCodeAt data payloadOffset)
            let clientIdLenLsb :=
              JsString.padHex
                (JsString.toHex (JsString.charCodeAt data (payloadOffset + 1)))
            let clientIdLenInt :=
              JsString.parseHex (clientIdLenMsb ++ clientIdLenLsb)
            { session with
              clientKey :=
                JsString.substr data (payloadOffset + 2) clientIdLenInt }
          else session
    else session
  ({ session with clientMessages := session.clientMessages + 1 },
    session.clientKey)

/-- `s.on('upload', ...)`. -/
def getClientId (session : Session) : Session :=
  { session with onUpload := true }

def upload (session : Session) (data : ByteString) : Session :=
  if session.onUpload = false then session
  else if data = [] then session
  else
    match JsString.charCodeAt data 0 with
    | none => session
    | some packetTypeFlagsByte =>
        if packetTypeFlagsByte < 16 ∨ packetTypeFlagsByte ≥ 32 then
          { session with onUpload := false, allowed := true }
        else
          let session :=
            if session.clientKey = [] then
              let (session, clientKey) := parseClientId session data
              { session with clientKey := clientKey }
            else session
          { session with onUpload := false, allowed := true }

def setClientId (session : Session) : ByteString := session.clientKey

/-! ## What the parser reads -/

/-- The bytes that a two-byte length announces, read at the front. -/
def lengthPrefixed : ByteString → ByteString
  | a :: b :: rest => rest.take (a.toNat * 256 + b.toNat)
  | _ => []

theorem remainingLength_pos {data len rest : ByteString} {pos fuel : Nat}
    (hdata : data.drop pos = len ++ 0 :: rest) (hfuel : len.length ≤ fuel)
    (hlen : ∀ b ∈ len, b ≠ 0) (multiplier value : Nat) :
    (remainingLength data fuel pos multiplier value).1 = pos + len.length := by
  induction len generalizing pos fuel multiplier value with
  | nil =>
      cases fuel with
      | zero => rfl
      | succ fuel =>
          rw [List.nil_append] at hdata
          simp [remainingLength, JsString.charCodeAt_of_drop hdata]
  | cons b len ih =>
      cases fuel with
      | zero => simp at hfuel
      | succ fuel =>
          have hb : b.toNat ≠ 0 := by
            intro h
            exact hlen b List.mem_cons_self (UInt8.toNat_inj.mp h)
          rw [List.cons_append] at hdata
          have hnext := JsString.drop_succ_of_drop hdata
          have hrest := ih hnext (by simpa using hfuel)
            (fun c hc => hlen c (List.mem_cons_of_mem _ hc))
          unfold remainingLength
          rw [JsString.charCodeAt_of_drop hdata]
          split
          · rename_i heq
            exact absurd (Option.some.inj heq) hb
          · rw [hrest, List.length_cons]
            omega

theorem substr_eq_lengthPrefixed (data : ByteString) (offset : Nat) :
    JsString.substr data (offset + 2)
      (JsString.parseHex
        (JsString.toHex (JsString.charCodeAt data offset) ++
          JsString.padHex
            (JsString.toHex (JsString.charCodeAt data (offset + 1))))) =
      lengthPrefixed (data.drop offset) := by
  have htail : data.drop (offset + 2) = (data.drop offset).drop 2 := by
    rw [List.drop_drop]
  have hsecond : data.drop (offset + 1) = (data.drop offset).drop 1 := by
    rw [List.drop_drop]
  rw [JsString.substr, htail, JsString.charCodeAt_eq_head?,
    JsString.charCodeAt_eq_head?, hsecond]
  generalize data.drop offset = tail
  match tail with
  | [] => simp [lengthPrefixed]
  | [a] => simp [lengthPrefixed]
  | a :: b :: rest =>
      simp only [List.head?_cons, List.drop_succ_cons, List.drop_zero,
        Option.map_some, JsString.parseHex_pair, lengthPrefixed]
      rfl

theorem setClientId_upload {len rest : ByteString}
    (hfuel : len.length ≤ 4) (hlen : ∀ b ∈ len, b ≠ 0) :
    setClientId (upload (getClientId .new) (16 :: (len ++ 0 :: rest))) =
      lengthPrefixed (rest.drop 11) := by
  have hdata : (16 :: (len ++ 0 :: rest)).drop 1 = len ++ 0 :: rest := rfl
  have hpos : (remainingLength (16 :: (len ++ 0 :: rest)) 4 1 1 0).1 =
      1 + len.length :=
    remainingLength_pos hdata hfuel hlen 1 0
  have hdrop : (16 :: (len ++ 0 :: rest)).drop (1 + len.length + 12) =
      rest.drop 11 := by
    have hsplit : 1 + len.length + 12 = (len.length + 12) + 1 := by omega
    rw [hsplit, List.drop_succ_cons, ← List.drop_drop, List.drop_left,
      List.drop_succ_cons]
  have hparse := substr_eq_lengthPrefixed (16 :: (len ++ 0 :: rest))
    (1 + len.length + 12)
  rw [hdrop] at hparse
  have hfirst : JsString.charCodeAt (16 :: (len ++ 0 :: rest)) 0 = some 16 := rfl
  simp only [setClientId, upload, getClientId, Session.new, parseClientId,
    hfirst, hpos, hparse]
  simp

/-! ## Keys of whole packets -/

theorem lengthPrefixed_field (field : Mqtt.Field) (tail : ByteString) :
    lengthPrefixed (field.encode ++ tail) = field.bytes := by
  obtain ⟨a, b, hbytes, hvalue⟩ := Mqtt.twoBytes_value field.short
  simp [Mqtt.Field.encode, hbytes, lengthPrefixed, hvalue]

/--
The offset is that of a protocol name of six bytes.  With the shorter name the
parser starts two bytes late, inside the client identifier.
-/
theorem setClientId_connect (packet : Mqtt.Connect) :
    setClientId (upload (getClientId .new) packet.encode) =
      match packet.protocol with
      | .mqisdp => packet.clientId.bytes
      | .mqtt =>
          lengthPrefixed (packet.clientId.bytes ++ packet.optionalFields) := by
  have hfuel := packet.remainingLength_length_le
  have hlen := packet.remainingLength_ne_zero
  unfold Mqtt.Connect.encode Mqtt.Connect.variableHeader
  cases packet.protocol with
  | mqisdp =>
      refine (setClientId_upload hfuel hlen).trans ?_
      exact lengthPrefixed_field packet.clientId packet.optionalFields
  | mqtt =>
      refine (setClientId_upload hfuel hlen).trans ?_
      rfl

/-- The first two bytes happen to announce the bytes at the front of the rest. -/
def Coincides (clientId : ByteString) : ByteString → Prop
  | [] => True
  | [_] => False
  | a :: b :: rest =>
      clientId <+: rest ∧
        (a.toNat * 256 + b.toNat = clientId.length ∨
          rest.length = clientId.length ∧
            clientId.length ≤ a.toNat * 256 + b.toNat)

theorem take_eq_iff (list front : ByteString) (n : Nat) :
    list.take n = front ↔
      front <+: list ∧
        (n = front.length ∨ list.length = front.length ∧ front.length ≤ n) := by
  constructor
  · rintro rfl
    refine ⟨List.take_prefix n list, ?_⟩
    rw [List.length_take]
    omega
  · rintro ⟨hfront, hlen | ⟨hwhole, hlen⟩⟩
    · rw [hlen]
      exact (List.prefix_iff_eq_take.mp hfront).symm
    · rw [List.take_of_length_le (by omega)]
      exact (hfront.eq_of_length hwhole.symm).symm

/--
The key of a session is the client identifier of its CONNECT packet exactly
for the protocol name of six bytes, and otherwise by coincidence.
-/
theorem key_is_clientId_iff (packet : Mqtt.Connect) :
    setClientId (upload (getClientId .new) packet.encode) =
        packet.clientId.bytes ↔
      packet.protocol = .mqisdp ∨
        Coincides packet.clientId.bytes
          (packet.clientId.bytes ++ packet.optionalFields) := by
  rw [setClientId_connect]
  cases packet.protocol with
  | mqisdp => simp
  | mqtt =>
      have hone := packet.optionalFields_length_ne_one
      simp only [reduceCtorEq, false_or]
      generalize packet.clientId.bytes = clientId
      generalize packet.optionalFields = fields at hone
      cases clientId with
      | nil =>
          match fields with
          | [] => simp [lengthPrefixed, Coincides]
          | [a] => simp at hone
          | a :: b :: rest =>
              simp only [List.nil_append, lengthPrefixed, Coincides]
              exact take_eq_iff _ _ _
      | cons first clientId =>
          match clientId, fields with
          | [], [] => simp [lengthPrefixed, Coincides]
          | [], b :: rest => exact take_eq_iff _ _ _
          | b :: clientId, fields => exact take_eq_iff _ _ _

def deviceOne : Mqtt.Connect :=
  ⟨.mqtt, true, 60, ⟨[100, 101, 118, 49], by decide⟩, none, none, none⟩

/-- A 3.1.1 client named `dev1` is hashed under `v1`. -/
theorem key_drops_two_bytes :
    setClientId (upload (getClientId .new) deviceOne.encode) = [118, 49] ∧
      setClientId (upload (getClientId .new) deviceOne.encode) ≠
        deviceOne.clientId.bytes := by
  decide

end WebIm.Njs
