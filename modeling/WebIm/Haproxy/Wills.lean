import WebIm.Haproxy.ConnectField

/-!
# Clients with a last will

The parser passes over a field of the will by as many digits as the field has
bytes, which is half of the way.  The length of the message is then read in the
middle of the topic, and its first digits already say more than the packet has.
-/

namespace WebIm.Haproxy

open WebIm.Foundation
open LuaString (hex column)

section Skipping

variable {bytes rest : ByteString} {k : Nat}

theorem numberAt_inside {d : Nat} (hinside : d + 2 ≤ 2 * bytes.length)
    {b : UInt8} (hb : bytes[(d + 1) / 2]? = some b) :
    ∃ n : Nat, numberAt (hex bytes) ((d + 1 : Nat) : Int) = some (n : Int) ∧
      b.toNat / 16 ≤ n :=
  LuaString.toNumber_inside bytes hinside hb

theorem skip_encode (pkt : Pkt) {text : Mqtt.Field}
    (hdrop : bytes.drop k = text.encode ++ rest) :
    skip (hex bytes) ⟨pkt, column k⟩ =
      .ok ⟨pkt, ((2 * k + 4 + text.bytes.length + 1 : Nat) : Int)⟩ := by
  obtain ⟨a, b, htwo, hvalue⟩ := Mqtt.twoBytes_value text.short
  have hcons : bytes.drop k = a :: b :: (text.bytes ++ rest) := by
    rw [hdrop, Mqtt.Field.encode, htwo]
    rfl
  have hnext := JsString.drop_succ_of_drop hcons
  have hlength := length_of_drop hcons
  rw [List.length_cons, List.length_append] at hlength
  have hcursor : column k + (4 + (a.toNat : Int) * 256 + b.toNat) =
      ((2 * k + 4 + text.bytes.length + 1 : Nat) : Int) := by
    unfold column
    omega
  have hroom : ¬ column k + (4 + (a.toNat : Int) * 256 + b.toNat) - 1 >
      (hex bytes).length := by
    rw [hcursor, LuaString.length_hex]
    omega
  unfold skip
  simp only [LuaString.column_add_two, numberAt_of_drop hcons,
    numberAt_of_drop hnext, operand, failing, bind, Except.bind,
    Reading.advance, Reading.room]
  rw [if_neg hroom, hcursor]
  rfl

/-- A first length byte that is no zero is too much for a short packet. -/
theorem skip_inside (pkt : Pkt) {d : Nat} (hpos : 0 < d)
    (hshort : bytes.length ≤ 258) (hinside : d + 4 ≤ 2 * bytes.length) {b : UInt8}
    (hb : bytes[(d + 1) / 2]? = some b) (hprintable : 32 ≤ b) :
    skip (hex bytes) ⟨pkt, ((d + 1 : Nat) : Int)⟩ =
      .error (.returned (pkt.refuse "Error when parsing the buffer")) := by
  obtain ⟨msb, hmsb, hle⟩ := numberAt_inside (by omega) hb
  have hbyte : (32 : UInt8).toNat ≤ b.toNat := UInt8.le_iff_toNat_le.mp hprintable
  obtain ⟨c, hc⟩ : ∃ c, bytes[(d + 2 + 1) / 2]? = some c :=
    ⟨_, List.getElem?_eq_getElem (by omega)⟩
  obtain ⟨lsb, hlsb, -⟩ := numberAt_inside (by omega) hc
  have hsecond : ((d + 1 : Nat) : Int) + 2 = ((d + 2 + 1 : Nat) : Int) := by
    omega
  have hroom : ((d + 1 : Nat) : Int) + (4 + (msb : Int) * 256 + lsb) - 1 >
      (hex bytes).length := by
    have htwo : 2 ≤ msb := by
      have hdigit : (32 : UInt8).toNat / 16 ≤ b.toNat / 16 :=
        Nat.div_le_div_right hbyte
      exact Nat.le_trans hdigit hle
    rw [LuaString.length_hex]
    omega
  unfold skip
  simp only [hsecond, hmsb, hlsb, operand, failing, bind, Except.bind,
    Reading.advance, Reading.room]
  rw [if_pos hroom]

end Skipping

/-! ## The packet -/

section Refusal

variable {packet : Mqtt.Connect} {given : Mqtt.Will}

theorem length_encode_le (hbody : bodyLength packet < 256) :
    packet.encode.length ≤ 258 := by
  have hlength := length_encode packet
  have hheader := (length_remainingLength packet).2 (by omega)
  unfold headerEnd at hheader
  split at hheader <;> omega

theorem readPacket_will (hwill : packet.will = some given)
    (htopic : 2 ≤ given.topic.bytes.length)
    (hprintable : ∀ b ∈ given.topic.bytes, 32 ≤ b)
    (hbody : bodyLength packet < 256) :
    readPacket (hex packet.encode) =
      .error (.returned ((identified packet connectPkt).refuse
        "Error when parsing the buffer")) := by
  obtain ⟨k, hdrop, hread⟩ := upToClientIdentifier_encode packet hbody
  have hfields : ∃ rest, packet.encode.drop k = given.topic.encode ++
      (given.message.encode ++ rest) := by
    rw [hdrop, Mqtt.Connect.optionalFields, hwill]
    simp only [Option.elim_some, List.append_assoc]
    exact ⟨_, rfl⟩
  obtain ⟨rest, hfields⟩ := hfields
  -- the length of the message is read at this byte of the topic
  have hmiddle : (given.topic.bytes.length + 1) / 2 < given.topic.bytes.length := by
    omega
  have hbyte : packet.encode[(2 * k + 4 + given.topic.bytes.length + 1) / 2]? =
      some (given.topic.bytes[(given.topic.bytes.length + 1) / 2]) := by
    have hindex : (2 * k + 4 + given.topic.bytes.length + 1) / 2 =
        k + (2 + (given.topic.bytes.length + 1) / 2) := by omega
    rw [hindex, ← List.getElem?_drop, hfields, Mqtt.Field.encode,
      List.append_assoc,
      List.getElem?_append_right (by simp [Mqtt.twoBytes]),
      List.getElem?_append_left (by simp [Mqtt.twoBytes]; omega)]
    simp [Mqtt.twoBytes]
  have hlength := congrArg List.length hfields
  simp only [List.length_drop, List.length_append, Mqtt.Field.length_encode]
    at hlength
  have hsecond := skip_inside (identified packet connectPkt)
    (d := 2 * k + 4 + given.topic.bytes.length) (by omega)
    (length_encode_le hbody) (by omega) hbyte
    (hprintable _ (List.getElem_mem _))
  have hflagged : (identified packet connectPkt).flag.any Flag.will = true := by
    simp [identified, headed, flagOf, hwill]
  have hwilled : will (hex packet.encode)
      ⟨identified packet connectPkt, column k⟩ =
        .error (.returned ((identified packet connectPkt).refuse
          "Error when parsing the buffer")) := by
    unfold will whenFlagged
    rw [if_pos hflagged]
    simp only [bind, Except.bind, skip_encode _ hfields]
    exact hsecond
  unfold readPacket optionalFields
  rw [hread]
  simp only [bind, Except.bind, hwilled]

end Refusal

theorem parse_will (packet : Mqtt.Connect) {given : Mqtt.Will}
    (hwill : packet.will = some given)
    (htopic : 2 ≤ given.topic.bytes.length)
    (hprintable : ∀ b ∈ given.topic.bytes, 32 ≤ b) :
    ∃ pkt, parse (hex packet.encode) = .ok pkt ∧ pkt.error = true := by
  by_cases hbody : bodyLength packet < 256
  · refine ⟨(identified packet connectPkt).refuse
      "Error when parsing the buffer", ?_, rfl⟩
    unfold parse
    rw [readPacket_will hwill htopic hprintable hbody]
  · exact ⟨connectPkt.refuse wrongSize, parse_encode_wrongSize packet hbody, rfl⟩

def bobsWill : Mqtt.Will :=
  ⟨⟨[99, 108, 105, 101, 110, 116, 47, 98, 111, 98], by decide⟩,
    ⟨[98, 121, 101], by decide⟩, Fin.last 2, false⟩

end WebIm.Haproxy
