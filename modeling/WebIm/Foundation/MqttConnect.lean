import WebIm.Foundation.JsString

/-!
# MQTT CONNECT packets

The packets of the protocol versions 3.1 and 3.1.1 as byte strings, with every
field that the flags announce.  A field carries the proof that its two length
bytes can hold its length.
-/

namespace WebIm.Foundation.Mqtt

structure Field where
  bytes : ByteString
  short : bytes.length < 65536

inductive Protocol where
  | mqisdp
  | mqtt
  deriving DecidableEq, Repr

structure Will where
  topic : Field
  message : Field
  qos : Fin 3
  retain : Bool

structure Connect where
  protocol : Protocol
  cleanSession : Bool
  keepAlive : Fin 65536
  clientId : Field
  will : Option Will
  username : Option Field
  password : Option Field

/-! ## Encoding -/

def twoBytes (n : Nat) : ByteString := [UInt8.ofNat (n / 256), UInt8.ofNat n]

def Field.encode (field : Field) : ByteString :=
  twoBytes field.bytes.length ++ field.bytes

def encodeLength : Nat → Nat → ByteString
  | 0, _ => []
  | fuel + 1, n =>
      if n < 128 then [UInt8.ofNat n]
      else UInt8.ofNat (n % 128 + 128) :: encodeLength fuel (n / 128)

/-- `MQIsdp` with level 3, `MQTT` with level 4. -/
def Protocol.encode : Protocol → ByteString
  | .mqisdp => twoBytes 6 ++ [77, 81, 73, 115, 100, 112] ++ [3]
  | .mqtt => twoBytes 4 ++ [77, 81, 84, 84] ++ [4]

namespace Connect

def flags (packet : Connect) : UInt8 :=
  UInt8.ofNat (128 * packet.username.isSome.toNat +
    64 * packet.password.isSome.toNat +
    (packet.will.elim 0 fun will =>
      32 * will.retain.toNat + 8 * will.qos.val + 4) +
    2 * packet.cleanSession.toNat)

def variableHeader (packet : Connect) : ByteString :=
  packet.protocol.encode ++ packet.flags :: twoBytes packet.keepAlive.val

def optionalFields (packet : Connect) : ByteString :=
  (packet.will.elim [] fun will => will.topic.encode ++ will.message.encode) ++
    packet.username.elim [] Field.encode ++ packet.password.elim [] Field.encode

def payload (packet : Connect) : ByteString :=
  packet.clientId.encode ++ packet.optionalFields

def remainingLength (packet : Connect) : ByteString :=
  encodeLength 4 (packet.variableHeader.length + packet.payload.length)

def encode (packet : Connect) : ByteString :=
  16 :: (packet.remainingLength ++ (packet.variableHeader ++ packet.payload))

end Connect

/-! ## Facts about the bytes -/

theorem encodeLength_ne_zero (fuel : Nat) {n : Nat} (hn : 0 < n) :
    ∀ b ∈ encodeLength fuel n, b ≠ 0 := by
  have hbyte : ∀ m, 0 < m → m < 256 → UInt8.ofNat m ≠ 0 := by
    intro m hpos hlt h
    have hnat := congrArg UInt8.toNat h
    rw [UInt8.toNat_ofNat', Nat.mod_eq_of_lt (by omega)] at hnat
    exact absurd hnat (by simp; omega)
  induction fuel generalizing n with
  | zero => simp [encodeLength]
  | succ fuel ih =>
      unfold encodeLength
      intro b hb
      split at hb
      · rename_i hlt
        rw [List.mem_singleton] at hb
        exact hb ▸ hbyte n hn (by omega)
      · rename_i hge
        rcases List.mem_cons.mp hb with rfl | hb
        · exact hbyte _ (by omega) (by omega)
        · exact ih (by omega) b hb

theorem encodeLength_length_le (fuel n : Nat) :
    (encodeLength fuel n).length ≤ fuel := by
  induction fuel generalizing n with
  | zero => simp [encodeLength]
  | succ fuel ih =>
      unfold encodeLength
      split
      · simp
      · simpa using ih (n / 128)

theorem encodeLength_eq_append (fuel : Nat) {n : Nat}
    (hn : n < 128 ^ (fuel + 1)) :
    ∃ front last, encodeLength (fuel + 1) n = front ++ [last] ∧
      (∀ b ∈ front, 128 ≤ b.toNat) ∧ last.toNat < 128 := by
  have hsmall : ∀ fuel m, m < 128 →
      ∃ front last, encodeLength (fuel + 1) m = front ++ [last] ∧
        (∀ b ∈ front, 128 ≤ b.toNat) ∧ last.toNat < 128 := by
    intro fuel m hm
    refine ⟨[], UInt8.ofNat m, ?_, by simp, ?_⟩
    · rw [encodeLength, if_pos hm]
      rfl
    · rw [UInt8.toNat_ofNat']
      omega
  induction fuel generalizing n with
  | zero => exact hsmall 0 n (by simpa using hn)
  | succ fuel ih =>
      by_cases hlt : n < 128
      · exact hsmall (fuel + 1) n hlt
      · rw [Nat.pow_succ, Nat.mul_comm] at hn
        obtain ⟨front, last, hrest, hfront, hlast⟩ :=
          ih (Nat.div_lt_of_lt_mul hn)
        refine ⟨UInt8.ofNat (n % 128 + 128) :: front, last, ?_, ?_, hlast⟩
        · rw [encodeLength, if_neg hlt, hrest]
          rfl
        · intro b hb
          cases List.mem_cons.mp hb with
          | inl heq =>
              rw [heq, UInt8.toNat_ofNat']
              omega
          | inr hmem => exact hfront b hmem

theorem twoBytes_value {n : Nat} (hn : n < 65536) :
    ∃ a b : UInt8, twoBytes n = [a, b] ∧ a.toNat * 256 + b.toNat = n := by
  refine ⟨_, _, rfl, ?_⟩
  rw [UInt8.toNat_ofNat', UInt8.toNat_ofNat']
  omega

theorem Field.length_encode (field : Field) :
    field.encode.length = field.bytes.length + 2 := by
  simp [Field.encode, twoBytes]

theorem flatMap_encode_length_le (fields : List Field) :
    (fields.flatMap Field.encode).length ≤ 65537 * fields.length := by
  induction fields with
  | nil => simp
  | cons field fields ih =>
      have hshort := field.short
      rw [List.flatMap_cons, List.length_append, field.length_encode,
        List.length_cons]
      omega

namespace Connect

theorem remainingLength_length_le (packet : Connect) :
    packet.remainingLength.length ≤ 4 :=
  encodeLength_length_le 4 _

theorem remainingLength_ne_zero (packet : Connect) :
    ∀ b ∈ packet.remainingLength, b ≠ 0 := by
  apply encodeLength_ne_zero
  have hheader : 0 < packet.variableHeader.length := by
    simp only [variableHeader, List.length_append, List.length_cons]
    omega
  omega

def fields (packet : Connect) : List Field :=
  packet.clientId ::
    ((packet.will.elim [] fun will => [will.topic, will.message]) ++
      packet.username.toList ++ packet.password.toList)

theorem payload_eq_flatMap (packet : Connect) :
    packet.payload = packet.fields.flatMap Field.encode := by
  unfold payload optionalFields fields
  cases packet.will <;> cases packet.username <;> cases packet.password <;>
    simp

theorem fields_length_le (packet : Connect) : packet.fields.length ≤ 5 := by
  unfold fields
  cases packet.will <;> cases packet.username <;> cases packet.password <;>
    simp

theorem length_le (packet : Connect) :
    packet.variableHeader.length + packet.payload.length ≤ 12 + 65537 * 5 := by
  have hpayload := flatMap_encode_length_le packet.fields
  have hfields := packet.fields_length_le
  have hheader : packet.variableHeader.length ≤ 12 := by
    unfold variableHeader
    cases packet.protocol <;> simp [Protocol.encode, twoBytes]
  rw [payload_eq_flatMap]
  omega

theorem length_lt (packet : Connect) :
    packet.variableHeader.length + packet.payload.length < 128 ^ 4 := by
  have hle := packet.length_le
  omega

theorem remainingLength_eq_append (packet : Connect) :
    ∃ front last, packet.remainingLength = front ++ [last] ∧
      (∀ b ∈ front, 128 ≤ b.toNat) ∧ last.toNat < 128 :=
  encodeLength_eq_append 3 packet.length_lt

theorem optionalFields_length_ne_one (packet : Connect) :
    packet.optionalFields.length ≠ 1 := by
  unfold optionalFields
  cases packet.will <;> cases packet.username <;> cases packet.password <;>
    simp [Field.length_encode] <;> omega

end Connect

end WebIm.Foundation.Mqtt
