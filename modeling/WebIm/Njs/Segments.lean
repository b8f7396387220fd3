import WebIm.Foundation.Segmentation
import WebIm.Njs.ClientId

/-!
# mqtt-new.js: CONNECT packets in segments

The callback is called again with a longer buffer only while it is
registered.  It takes itself off at the first buffer with anything in it, so
the key is what the parser makes of that buffer.
-/

namespace WebIm.Njs

open WebIm.Foundation

def segmentedKey {whole : ByteString} (segmentation : Segmentation whole) :
    ByteString :=
  setClientId (segmentation.buffers.foldl upload (getClientId .new))

/-! ## The first buffer decides -/

theorem upload_of_off {session : Session} (hoff : session.onUpload = false)
    (data : ByteString) : upload session data = session := by
  simp [upload, hoff]

theorem upload_nil (session : Session) : upload session [] = session := by
  unfold upload
  split <;> simp

theorem upload_onUpload (session : Session) {data : ByteString}
    (hdata : data ≠ []) : (upload session data).onUpload = false := by
  cases data with
  | nil => exact absurd rfl hdata
  | cons first rest =>
      unfold upload
      split
      · assumption
      · simp only [JsString.charCodeAt, List.getElem?_cons_zero,
          Option.map_some]
        split <;> rfl

theorem segmentedKey_eq_first {whole : ByteString} (hwhole : whole ≠ [])
    (segmentation : Segmentation whole) :
    segmentedKey segmentation =
      setClientId (upload (getClientId .new) segmentation.first) := by
  unfold segmentedKey
  rw [segmentation.foldl_eq_first (fun session => session.onUpload = false)
    (fun _ data hoff => upload_of_off hoff data) upload_nil
    (fun session _ hdata => upload_onUpload session hdata) hwhole]

/-! ## What the parser makes of a part of a packet -/

theorem remainingLength_pos_ge (data : ByteString)
    (fuel pos multiplier value : Nat) :
    pos ≤ (remainingLength data fuel pos multiplier value).1 := by
  induction fuel generalizing pos multiplier value with
  | zero => exact Nat.le_refl pos
  | succ fuel ih =>
      unfold remainingLength
      split
      · exact Nat.le_refl pos
      · apply Nat.le_trans (Nat.le_succ pos)
        apply ih

theorem setClientId_upload_front (rest : ByteString) :
    setClientId (upload (getClientId .new) (16 :: rest)) =
      lengthPrefixed ((16 :: rest).drop
        ((remainingLength (16 :: rest) 4 1 1 0).1 + 12)) := by
  have hparse := substr_eq_lengthPrefixed (16 :: rest)
    ((remainingLength (16 :: rest) 4 1 1 0).1 + 12)
  have hfirst : JsString.charCodeAt (16 :: rest) 0 = some 16 := rfl
  simp only [setClientId, upload, getClientId, Session.new, parseClientId,
    hfirst, hparse]
  simp

def keyOffset (packet : Mqtt.Connect) : Nat :=
  1 + packet.remainingLength.length + 12

def fieldLength : ByteString → Nat
  | a :: b :: rest => min (a.toNat * 256 + b.toNat) rest.length
  | _ => 0

theorem length_lengthPrefixed (text : ByteString) :
    (lengthPrefixed text).length = fieldLength text := by
  match text with
  | [] => rfl
  | [a] => rfl
  | a :: b :: rest => simp [lengthPrefixed, fieldLength]

theorem lengthPrefixed_take_initial (text : ByteString) (n : Nat) :
    lengthPrefixed (text.take n) <+: lengthPrefixed text := by
  match text, n with
  | [], n => simp [lengthPrefixed]
  | [a], 0 => simp [lengthPrefixed]
  | [a], n + 1 => simp [lengthPrefixed]
  | a :: b :: rest, 0 => simp [lengthPrefixed]
  | a :: b :: rest, 1 => simp [lengthPrefixed]
  | a :: b :: rest, n + 2 =>
      simp only [List.take_succ_cons, lengthPrefixed, List.take_take]
      apply List.take_prefix_take_left
      exact Nat.min_le_left _ _

theorem lengthPrefixed_take_iff (text : ByteString) {n : Nat}
    (hn : n ≤ text.length) :
    lengthPrefixed (text.take n) = lengthPrefixed text ↔
      fieldLength text = 0 ∨ 2 + fieldLength text ≤ n := by
  have hlength : lengthPrefixed (text.take n) = lengthPrefixed text ↔
      fieldLength (text.take n) = fieldLength text := by
    rw [← length_lengthPrefixed, ← length_lengthPrefixed]
    constructor
    · exact congrArg List.length
    · exact (lengthPrefixed_take_initial text n).eq_of_length
  rw [hlength]
  match text, n with
  | [], n => simp [fieldLength]
  | [a], 0 => simp [fieldLength]
  | [a], n + 1 => simp [fieldLength]
  | a :: b :: rest, 0 =>
      change 0 = fieldLength (a :: b :: rest) ↔ _
      omega
  | a :: b :: rest, 1 =>
      change 0 = fieldLength (a :: b :: rest) ↔ _
      omega
  | a :: b :: rest, n + 2 =>
      simp only [List.length_cons] at hn
      simp only [List.take_succ_cons, fieldLength, List.length_take]
      omega

/-! ## Parts of CONNECT packets -/

/--
The bytes behind that position: the client identifier field and what follows,
without the two length bytes when the protocol name is the short one.
-/
def keyField (packet : Mqtt.Connect) : ByteString :=
  match packet.protocol with
  | .mqisdp => packet.clientId.encode ++ packet.optionalFields
  | .mqtt => packet.clientId.bytes ++ packet.optionalFields

theorem drop_keyOffset (packet : Mqtt.Connect) :
    packet.encode.drop (keyOffset packet) = keyField packet := by
  have hsplit : keyOffset packet =
      (packet.remainingLength.length + 12) + 1 := by
    unfold keyOffset
    omega
  rw [hsplit, Mqtt.Connect.encode, List.drop_succ_cons, ← List.drop_drop,
    List.drop_left, Mqtt.Connect.variableHeader, keyField]
  cases packet.protocol <;> rfl

theorem encode_split (packet : Mqtt.Connect) :
    ∃ rest, packet.encode = 16 :: (packet.remainingLength ++ 0 :: rest) := by
  unfold Mqtt.Connect.encode Mqtt.Connect.variableHeader
  cases packet.protocol <;> exact ⟨_, rfl⟩

theorem setClientId_upload_take (packet : Mqtt.Connect) {n : Nat}
    (hn : 0 < n) :
    setClientId (upload (getClientId .new) (packet.encode.take n)) =
      lengthPrefixed ((keyField packet).take (n - keyOffset packet)) := by
  have hshort := packet.remainingLength_length_le
  obtain ⟨rest, hencode⟩ := encode_split packet
  cases n with
  | zero => exact absurd hn (Nat.lt_irrefl 0)
  | succ n =>
      have hfront : packet.encode.take (n + 1) =
          16 :: (packet.remainingLength ++ 0 :: rest).take n := by
        rw [hencode, List.take_succ_cons]
      rw [hfront, setClientId_upload_front, ← hfront,
        ← drop_keyOffset, ← List.drop_take]
      generalize hpos :
        (remainingLength (packet.encode.take (n + 1)) 4 1 1 0).1 = pos
      have hge : 1 ≤ pos := hpos ▸ remainingLength_pos_ge _ 4 1 1 0
      have hlength : (packet.encode.take (n + 1)).length ≤ n + 1 :=
        List.length_take_le _ _
      cases Nat.lt_or_ge n (packet.remainingLength.length + 1) with
      | inl hcut =>
          -- the zero byte that ends the loop is missing, and so is the field
          rw [List.drop_of_length_le (by omega),
            List.drop_of_length_le (by unfold keyOffset; omega)]
      | inr hlong =>
          obtain ⟨m, rfl⟩ := Nat.exists_eq_add_of_le hlong
          have htail : (packet.encode.take
              (packet.remainingLength.length + 1 + m + 1)).drop 1 =
              packet.remainingLength ++ 0 :: rest.take m := by
            rw [hfront, List.drop_succ_cons, List.drop_zero, Nat.add_assoc,
              List.take_length_add_append, Nat.add_comm 1 m,
              List.take_succ_cons]
          have hend := remainingLength_pos htail hshort
            packet.remainingLength_ne_zero 1 0
          rw [hpos] at hend
          rw [hend, keyOffset]

/-! ## When segments do not matter -/

/--
The key of a split packet is that of the whole packet exactly when the first
bytes to arrive reach the end of the field that the parser reads, or that
field is empty.
-/
theorem segmentedKey_eq_iff (packet : Mqtt.Connect)
    (segmentation : Segmentation packet.encode) :
    segmentedKey segmentation =
        segmentedKey (Segmentation.atOnce packet.encode) ↔
      fieldLength (keyField packet) = 0 ∨
        keyOffset packet + 2 + fieldLength (keyField packet) ≤
          segmentation.first.length := by
  have hwhole : packet.encode ≠ [] := List.cons_ne_nil _ _
  have hpos : 0 < packet.encode.length := List.length_pos_of_ne_nil hwhole
  have hfirst := segmentation.first_prefix hwhole
  have hnonempty : 0 < segmentation.first.length :=
    List.length_pos_of_ne_nil (segmentation.first_ne_nil hwhole)
  have hcut := setClientId_upload_take packet hnonempty
  rw [← List.prefix_iff_eq_take.mp hfirst] at hcut
  have hall := setClientId_upload_take packet hpos
  rw [List.take_length, ← drop_keyOffset, ← List.length_drop,
    List.take_length, drop_keyOffset] at hall
  have honce : (Segmentation.atOnce packet.encode).first = packet.encode := by
    simp [Segmentation.first, Segmentation.atOnce, hwhole]
  have hlength : segmentation.first.length - keyOffset packet ≤
      (keyField packet).length := by
    rw [← drop_keyOffset, List.length_drop]
    have := hfirst.length_le
    omega
  rw [segmentedKey_eq_first hwhole, segmentedKey_eq_first hwhole, honce, hcut,
    hall, lengthPrefixed_take_iff _ hlength]
  omega

def deviceTwo : Mqtt.Connect :=
  { deviceOne with
    protocol := .mqisdp
    clientId := ⟨[100, 101, 118, 50], by decide⟩ }

def headerFirst : Segmentation deviceTwo.encode where
  buffers := [[], deviceTwo.encode.take 2, deviceTwo.encode]
  prefixes := by decide
  growing := by decide
  complete := rfl

theorem split_packet_loses_key :
    segmentedKey headerFirst = [] ∧
      segmentedKey (Segmentation.atOnce deviceTwo.encode) =
        [100, 101, 118, 50] := by
  decide

end WebIm.Njs
