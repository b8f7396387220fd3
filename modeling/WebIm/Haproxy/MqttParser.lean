import WebIm.Foundation.LuaString
import WebIm.Foundation.MqttConnect

/-!
# mqtt.lua: the CONNECT packet a proxy reads

The parser gets the packet as hexadecimal text and walks over it with a cursor.
It ends with a packet, which may carry an error, or with an error of Lua where
the text ends before a number that is computed with.
-/

namespace WebIm.Haproxy

open WebIm.Foundation

structure Flag where
  username : Bool
  password : Bool
  willretain : Bool
  willqos : Bool
  will : Bool
  clean : Bool
  deriving DecidableEq, Repr

/-- A field that is not set is `nil`. -/
structure Pkt where
  error : Bool
  errormessage : String
  type : Option Int
  protocolname : Option ByteString
  protocollevel : Option Int
  flag : Option Flag
  keepalive : Option Int
  clientid : Option ByteString
  username : Option ByteString
  password : Option ByteString
  deriving DecidableEq, Repr

inductive LuaError where
  | arithmeticOnNil
  | comparisonWithNil
  | badArgument
  | raised (message : String)
  deriving DecidableEq, Repr

inductive Exit where
  | returned (pkt : Pkt)
  | failed (e : LuaError)
  deriving DecidableEq, Repr

def Pkt.refuse (pkt : Pkt) (message : String) : Pkt :=
  { pkt with error := true, errormessage := message }

/-! ## Numbers and fields of the text -/

def numberAt (buf : ByteString) (pos : Int) : Option Int :=
  LuaString.toNumber (LuaString.sub buf pos (pos + 1))

def operand : Option Int → Except LuaError Int
  | none => .error .arithmeticOnNil
  | some n => .ok n

/-- `string.char`. -/
def char : Option Int → Except LuaError UInt8
  | none => .error .badArgument
  | some n =>
      if 0 ≤ n ∧ n ≤ 255 then .ok (UInt8.ofNat n.toNat) else .error .badArgument

def readChars (buf : ByteString) :
    Nat → Int → ByteString → Except LuaError ByteString
  | 0, _, str => .ok str
  | count + 1, i, str =>
      match char (numberAt buf i) with
      | .error e => .error e
      | .ok c => readChars buf count (i + 2) (str ++ [c])

def getfield (buf : ByteString) (bufsize pos : Int) :
    Except LuaError (ByteString × Int) := do
  let msb ← operand (numberAt buf pos)
  let pos := pos + 2
  let lsb ← operand (numberAt buf pos)
  let pos := pos + 2
  let len := msb * 256 + lsb
  if pos + len * 2 - 1 > bufsize then
    return ([], 0)
  let str ← readChars buf len.toNat pos []
  return (str, len * 2 + 4)

def without (flags bit : Int) : Int := if flags ≥ bit then flags - bit else flags

def parseflags : Option Int → Except LuaError Flag
  | none => .error (.raised "expected argument of type number, got nil")
  | some flags =>
      let afterUsername := without flags 128
      let afterPassword := without afterUsername 64
      let afterRetain := without afterPassword 32
      -- the two bits of the quality of service count as one
      let afterQos := without afterRetain 8
      let afterWill := without afterQos 4
      .ok {
        username := flags ≥ 128
        password := afterUsername ≥ 64
        willretain := afterPassword ≥ 32
        willqos := afterRetain ≥ 8
        will := afterQos ≥ 4
        clean := afterWill ≥ 2 }

/-! ## The parser -/

structure Reading where
  pkt : Pkt
  cur : Int

def failing {α : Type} : Except LuaError α → Except Exit α
  | .error e => .error (.failed e)
  | .ok value => .ok value

/-- The check made wherever the cursor is to move. -/
def Reading.room (r : Reading) (len buffersize : Int) : Except Exit Unit :=
  if r.cur + len - 1 > buffersize then
    .error (.returned (r.pkt.refuse "Error when parsing the buffer"))
  else .ok ()

def Reading.advance (r : Reading) (len buffersize : Int) :
    Except Exit Reading := do
  r.room len buffersize
  return { r with cur := r.cur + len }

def emptyPkt : Pkt where
  error := false
  errormessage := ""
  type := none
  protocolname := none
  protocollevel := none
  flag := none
  keepalive := none
  clientid := none
  username := none
  password := none

def packetType (buffer : ByteString) : Except Exit Reading := do
  let number ← failing (operand (numberAt buffer 1))
  let pkt := { emptyPkt with type := some (number - 15) }
  if number - 15 ≠ 1 then
    .error (.returned
      (pkt.refuse ("Wrong packet type: " ++ toString (number - 15))))
  else Reading.advance ⟨pkt, 1⟩ 2 buffer.length

/-- The loop over the continuation bytes, which it counts without masking. -/
def continuation (buffer : ByteString) (pkt : Pkt)
    (remaininglength multiplier : Int) (encodedByte : Option Int) (cur : Int) :
    Except Exit (Int × Int) :=
  match encodedByte with
  | none => .error (.failed .comparisonWithNil)
  | some byte =>
      if byte ≥ 128 then
        if multiplier * 128 > 128 * 128 * 128 then
          .error (.returned (pkt.refuse "announced packet size too big"))
        else if cur + 2 - 1 > buffer.length then
          .error (.returned (pkt.refuse "Error when parsing the buffer"))
        else
          continuation buffer pkt (remaininglength + byte * multiplier)
            (multiplier * 128) (numberAt buffer (cur + 2)) (cur + 2)
      else .ok (remaininglength, cur)
termination_by (buffer.length + 2 - cur).toNat

def announced (buffer : ByteString) (r : Reading) :
    Except Exit (Int × Reading) := do
  let encodedByte := numberAt buffer r.cur
  let r ← r.advance 2 buffer.length
  match encodedByte with
  | none => .error (.failed .comparisonWithNil)
  | some byte =>
      if byte ≥ 128 then
        let (remaininglength, cur) ←
          continuation buffer r.pkt 0 1 encodedByte r.cur
        return (remaininglength, { r with cur := cur })
      else return (0 + byte * 1, r)

def sized (buffer : ByteString) (remaininglength : Int) (r : Reading) :
    Except Exit Reading :=
  if remaininglength * 2 + r.cur - 1 ≠ buffer.length then
    .error (.returned (r.pkt.refuse
      "announced packet size sem to be wrong, can't parse it."))
  else .ok r

def field (buffer : ByteString) (store : Pkt → ByteString → Pkt)
    (r : Reading) : Except Exit Reading := do
  let (str, len) ← failing (getfield buffer buffer.length r.cur)
  Reading.advance { r with pkt := store r.pkt str } len buffer.length

def protocolName (buffer : ByteString) : Reading → Except Exit Reading :=
  field buffer fun pkt str => { pkt with protocolname := some str }

def protocolLevel (buffer : ByteString) (r : Reading) : Except Exit Reading :=
  let pkt := { r.pkt with protocollevel := numberAt buffer r.cur }
  Reading.advance { r with pkt := pkt } 2 buffer.length

def flags (buffer : ByteString) (r : Reading) : Except Exit Reading := do
  let flag ← failing (parseflags (numberAt buffer r.cur))
  let pkt := { r.pkt with flag := some flag }
  Reading.advance { r with pkt := pkt } 2 buffer.length

def keepalive (buffer : ByteString) (r : Reading) : Except Exit Reading := do
  let msb ← failing (operand (numberAt buffer r.cur))
  let lsb ← failing (operand (numberAt buffer (r.cur + 2)))
  let pkt := { r.pkt with keepalive := some (msb * 256 + lsb) }
  Reading.advance { r with pkt := pkt } 4 buffer.length

def clientIdentifier (buffer : ByteString) : Reading → Except Exit Reading :=
  field buffer fun pkt str => { pkt with clientid := some str }

/-- Past one field of the will; its bytes are counted as digits. -/
def skip (buffer : ByteString) (r : Reading) : Except Exit Reading := do
  let msb ← failing (operand (numberAt buffer r.cur))
  let lsb ← failing (operand (numberAt buffer (r.cur + 2)))
  r.advance (4 + msb * 256 + lsb) buffer.length

def whenFlagged (flagged : Flag → Bool)
    (part : Reading → Except Exit Reading) (r : Reading) :
    Except Exit Reading :=
  if r.pkt.flag.any flagged then part r else .ok r

def will (buffer : ByteString) : Reading → Except Exit Reading :=
  whenFlagged Flag.will fun r => do skip buffer (← skip buffer r)

def username (buffer : ByteString) : Reading → Except Exit Reading :=
  whenFlagged Flag.username
    (field buffer fun pkt str => { pkt with username := some str })

def password (buffer : ByteString) : Reading → Except Exit Reading :=
  whenFlagged Flag.password
    (field buffer fun pkt str => { pkt with password := some str })

def optionalFields (buffer : ByteString) (r : Reading) :
    Except Exit Reading := do
  password buffer (← username buffer (← will buffer r))

def fixedHeader (buffer : ByteString) : Except Exit Reading := do
  let (remaininglength, r) ← announced buffer (← packetType buffer)
  sized buffer remaininglength r

def variableHeader (buffer : ByteString) (r : Reading) :
    Except Exit Reading := do
  keepalive buffer (← flags buffer
    (← protocolLevel buffer (← protocolName buffer r)))

def upToClientIdentifier (buffer : ByteString) : Except Exit Reading := do
  clientIdentifier buffer (← variableHeader buffer (← fixedHeader buffer))

def readPacket (buffer : ByteString) : Except Exit Reading := do
  optionalFields buffer (← upToClientIdentifier buffer)

def parse (buffer : ByteString) : Except LuaError Pkt :=
  match readPacket buffer with
  | .ok r => .ok r.pkt
  | .error (.returned pkt) => .ok pkt
  | .error (.failed e) => .error e

/-! ## Reading the text of a byte string -/

open LuaString (hex column)

theorem numberAt_column (bytes : ByteString) (k : Nat) :
    numberAt (hex bytes) (column k) = bytes[k]?.map fun b => (b.toNat : Int) :=
  LuaString.toNumber_column bytes k

theorem char_byte (b : UInt8) : char (some (b.toNat : Int)) = .ok b := by
  have hb := b.toNat_lt
  simp only [char]
  rw [if_pos (by omega), Int.toNat_natCast, UInt8.ofNat_toNat]

section Text

variable {bytes : ByteString} {k : Nat}

theorem length_of_drop {b : UInt8} {rest : ByteString}
    (hdrop : bytes.drop k = b :: rest) : bytes.length = k + rest.length + 1 := by
  have hlength := congrArg List.length hdrop
  rw [List.length_drop, List.length_cons] at hlength
  omega

theorem numberAt_of_drop {b : UInt8} {rest : ByteString}
    (hdrop : bytes.drop k = b :: rest) :
    numberAt (hex bytes) (column k) = some (b.toNat : Int) := by
  rw [numberAt_column, ← List.head?_drop, hdrop]
  rfl

theorem room_column (pkt : Pkt) (n : Nat) :
    Reading.room ⟨pkt, column k⟩ (2 * n) (hex bytes).length =
      if k + n ≤ bytes.length then .ok ()
      else .error (.returned (pkt.refuse "Error when parsing the buffer")) := by
  unfold Reading.room column
  simp only [LuaString.length_hex]
  split
  · rw [if_neg (by omega)]
  · rw [if_pos (by omega)]

theorem advance_column (pkt : Pkt) {len : Int} (n : Nat) (hlen : len = 2 * n) :
    Reading.advance ⟨pkt, column k⟩ len (hex bytes).length =
      if k + n ≤ bytes.length then .ok ⟨pkt, column (k + n)⟩
      else .error (.returned (pkt.refuse "Error when parsing the buffer")) := by
  unfold Reading.advance
  rw [hlen, room_column]
  split
  · have hcolumn : column k + 2 * n = column (k + n) := by
      unfold column
      omega
    simp only [bind, Except.bind, pure, Except.pure, hcolumn]
  · rfl

theorem readChars_column (count : Nat) (str : ByteString)
    (hcount : k + count ≤ bytes.length) :
    readChars (hex bytes) count (column k) str =
      .ok (str ++ (bytes.drop k).take count) := by
  induction count generalizing k str with
  | zero => simp [readChars]
  | succ count ih =>
      cases hdrop : bytes.drop k with
      | nil =>
          have hlength := List.drop_eq_nil_iff.mp hdrop
          omega
      | cons b rest =>
          have hnext := JsString.drop_succ_of_drop hdrop
          unfold readChars
          rw [numberAt_of_drop hdrop, char_byte]
          simp only [LuaString.column_add_two]
          rw [ih _ (by omega), hnext, List.take_succ_cons, List.append_assoc]
          rfl

theorem getfield_column {a b : UInt8} {rest : ByteString}
    (hdrop : bytes.drop k = a :: b :: rest) :
    getfield (hex bytes) (hex bytes).length (column k) =
      if a.toNat * 256 + b.toNat ≤ rest.length then
        .ok (rest.take (a.toNat * 256 + b.toNat),
          2 * (a.toNat * 256 + b.toNat + 2 : Nat))
      else .ok ([], 0) := by
  have hnext := JsString.drop_succ_of_drop hdrop
  have hrest := JsString.drop_succ_of_drop hnext
  have hlength := length_of_drop hdrop
  rw [List.length_cons] at hlength
  unfold getfield
  simp only [LuaString.column_add_two]
  rw [numberAt_of_drop hdrop, numberAt_of_drop hnext, LuaString.length_hex]
  simp only [operand, bind, Except.bind, pure, Except.pure]
  split
  · rename_i hover
    unfold column at hover
    rw [if_neg (by omega)]
  · rename_i hfits
    unfold column at hfits
    have hcount : ((a.toNat : Int) * 256 + b.toNat).toNat =
        a.toNat * 256 + b.toNat := by omega
    have hdigits : ((a.toNat : Int) * 256 + b.toNat) * 2 + 4 =
        2 * (a.toNat * 256 + b.toNat + 2 : Nat) := by omega
    rw [hcount, hdigits, if_pos (by omega), readChars_column _ _ (by omega),
      hrest, List.nil_append]

theorem field_column (store : Pkt → ByteString → Pkt) (pkt : Pkt)
    {a b : UInt8} {rest : ByteString} (hdrop : bytes.drop k = a :: b :: rest) :
    field (hex bytes) store ⟨pkt, column k⟩ =
      if a.toNat * 256 + b.toNat ≤ rest.length then
        .ok ⟨store pkt (rest.take (a.toNat * 256 + b.toNat)),
          column (k + (a.toNat * 256 + b.toNat + 2))⟩
      else .ok ⟨store pkt [], column k⟩ := by
  have hlength := length_of_drop hdrop
  rw [List.length_cons] at hlength
  unfold field
  rw [getfield_column hdrop]
  split
  · simp only [failing, bind, Except.bind]
    rw [advance_column _ _ rfl, if_pos (by omega)]
  · simp only [failing, bind, Except.bind]
    rw [advance_column _ 0 (by omega), if_pos (by omega)]
    rfl

theorem field_encode (store : Pkt → ByteString → Pkt) (pkt : Pkt)
    {text : Mqtt.Field} {rest : ByteString}
    (hdrop : bytes.drop k = text.encode ++ rest) :
    field (hex bytes) store ⟨pkt, column k⟩ =
      .ok ⟨store pkt text.bytes, column (k + text.encode.length)⟩ := by
  obtain ⟨a, b, htwo, hvalue⟩ := Mqtt.twoBytes_value text.short
  have hcons : bytes.drop k = a :: b :: (text.bytes ++ rest) := by
    rw [hdrop, Mqtt.Field.encode, htwo]
    rfl
  rw [field_column store pkt hcons, hvalue, if_pos (by simp),
    List.take_left, text.length_encode]

end Text

end WebIm.Haproxy
