import WebIm.Njs.Authentication

/-!
# mqtt-1.js: the topic that is rewritten

`replaceTopic` looks for a text anywhere in the bytes of a PUBLISH packet and
replaces its first occurrence by a text of the same length.  So the lengths in
the packet stay true, and a packet becomes a packet.
-/

namespace WebIm.Foundation

namespace JsString

/-- `s.indexOf(text)`, with `none` for -1. -/
def indexOf (s text : ByteString) : Option Nat :=
  (List.range (s.length + 1)).find? fun i => text.isPrefixOf (s.drop i)

/-- `s.replace(old, new)` with a text to look for: its first occurrence. -/
def replace (s old new : ByteString) : ByteString :=
  match indexOf s old with
  | none => s
  | some i => s.take i ++ new ++ s.drop (i + old.length)

theorem indexOf_eq_some {s text : ByteString} {i : Nat}
    (h : indexOf s text = some i) :
    i ≤ s.length ∧ text <+: s.drop i ∧ ∀ j < i, ¬ text <+: s.drop j := by
  obtain ⟨hfound, hrange, hbefore⟩ := List.find?_range_eq_some.mp h
  refine ⟨by simpa [Nat.lt_succ_iff] using hrange,
    List.isPrefixOf_iff_prefix.mp hfound, ?_⟩
  intro j hj hoccurs
  have hnot := hbefore j hj
  rw [List.isPrefixOf_iff_prefix.mpr hoccurs] at hnot
  cases hnot

theorem indexOf_eq_none {s text : ByteString} :
    indexOf s text = none ↔ ¬ text <:+: s := by
  rw [indexOf, List.find?_range_eq_none]
  constructor
  · rintro h ⟨front, rest, hs⟩
    have hinside : front.length < s.length + 1 := by
      rw [← hs, List.length_append, List.length_append]
      omega
    have hat := h front.length hinside
    rw [← hs, List.append_assoc, List.drop_left,
      List.isPrefixOf_iff_prefix.mpr (List.prefix_append _ _)] at hat
    cases hat
  · intro h i hi
    cases hoccurs : text.isPrefixOf (s.drop i) with
    | false => rfl
    | true =>
        have hwithin := (List.isPrefixOf_iff_prefix.mp hoccurs).isInfix
        exact absurd (hwithin.trans (List.drop_suffix i s).isInfix) h

theorem replace_set {s old : ByteString} {i m : Nat} (hm : m < old.length)
    (c : UInt8) (hindex : indexOf s old = some i) :
    replace s old (old.set m c) = s.set (i + m) c := by
  obtain ⟨hi, ⟨rest, hrest⟩, -⟩ := indexOf_eq_some hindex
  have hs : s = s.take i ++ (old ++ rest) := by
    rw [hrest, List.take_append_drop]
  have hlength : (s.take i).length = i := by
    rw [List.length_take]
    omega
  have hbehind : s.drop (i + old.length) = rest := by
    rw [← List.drop_drop, ← hrest, List.drop_left]
  have hset : (s.take i ++ (old ++ rest)).set (i + m) c =
      s.take i ++ (old.set m c ++ rest) := by
    rw [List.set_append_right _ _ (by omega), hlength,
      Nat.add_sub_cancel_left, List.set_append_left _ _ hm]
  unfold replace
  rw [hindex]
  simp only
  rw [hbehind, List.append_assoc, ← hset, ← hs]

end JsString

namespace Mqtt

/-- `body` is the packet identifier, if there is one, and the message. -/
structure Publish where
  flags : Fin 16
  topic : Field
  body : ByteString
  short : topic.encode.length + body.length < 128 ^ 4

namespace Publish

def remainingLength (packet : Publish) : ByteString :=
  encodeLength 4 (packet.topic.encode.length + packet.body.length)

def header (packet : Publish) : ByteString :=
  UInt8.ofNat (48 + packet.flags.val) ::
    (packet.remainingLength ++ twoBytes packet.topic.bytes.length)

def encode (packet : Publish) : ByteString :=
  packet.header ++ (packet.topic.bytes ++ packet.body)

/-- One byte behind the header is another one. -/
def overwrite (packet : Publish) (n : Nat) (c : UInt8) : Publish where
  flags := packet.flags
  topic :=
    ⟨((packet.topic.bytes ++ packet.body).set n c).take
      packet.topic.bytes.length, by
        have hshort := packet.topic.short
        rw [List.length_take]
        omega⟩
  body :=
    ((packet.topic.bytes ++ packet.body).set n c).drop packet.topic.bytes.length
  short := by
    have hshort := packet.short
    rw [Field.length_encode] at hshort ⊢
    simp only [List.length_take, List.length_drop, List.length_set,
      List.length_append]
    omega

theorem length_overwrite (packet : Publish) (n : Nat) (c : UInt8) :
    (packet.overwrite n c).topic.bytes.length = packet.topic.bytes.length ∧
      (packet.overwrite n c).body.length = packet.body.length := by
  unfold overwrite
  simp only [List.length_take, List.length_drop, List.length_set,
    List.length_append]
  omega

theorem encode_overwrite (packet : Publish) (n : Nat) (c : UInt8) :
    (packet.overwrite n c).encode =
      packet.header ++ (packet.topic.bytes ++ packet.body).set n c := by
  obtain ⟨htopic, hbody⟩ := packet.length_overwrite n c
  have hheader : (packet.overwrite n c).header = packet.header := by
    unfold header remainingLength
    rw [Field.length_encode, Field.length_encode, htopic, hbody]
    rfl
  rw [encode, hheader]
  exact congrArg (packet.header ++ ·) (List.take_append_drop _ _)

/-- Before the topic only the last three bytes can be those of a letter. -/
theorem header_letter (packet : Publish) {i : Nat} {c : UInt8}
    (hc : 64 ≤ c.toNat ∧ c.toNat < 128)
    (h : packet.encode[i]? = some c) : packet.header.length ≤ i + 3 := by
  have hflags := packet.flags.isLt
  obtain ⟨front, last, hlength, hfront, -⟩ :=
    encodeLength_eq_append 3 packet.short
  have hheader : packet.header.length = front.length + 4 := by
    rw [header, remainingLength, hlength]
    simp [twoBytes]
  have hencode : packet.encode =
      UInt8.ofNat (48 + packet.flags.val) :: (front ++
        (last :: (twoBytes packet.topic.bytes.length ++
          (packet.topic.bytes ++ packet.body)))) := by
    rw [encode, header, remainingLength, hlength]
    simp
  rw [hencode] at h
  cases i with
  | zero =>
      rw [List.getElem?_cons_zero] at h
      rw [← Option.some.inj h, UInt8.toNat_ofNat'] at hc
      omega
  | succ j =>
      rw [List.getElem?_cons_succ] at h
      by_cases hj : j < front.length
      · rw [List.getElem?_append_left hj] at h
        have hlarge := hfront c (List.mem_of_getElem? h)
        omega
      · omega

end Publish

end Mqtt

end WebIm.Foundation

namespace WebIm.Njs.Mqtt1

open WebIm.Foundation

def isMQTTPublishPackage (s : Stream) : Bool :=
  match JsString.charCodeAt s.buffer 0 with
  | none => false
  | some packageType => decide (packageType ≥ 48 ∧ packageType < 64)

/-- `iot-2/type`. -/
def slashed : ByteString := [105, 111, 116, 45, 50, 47, 116, 121, 112, 101]

/-- `iot-2-type`. -/
def dashed : ByteString := [105, 111, 116, 45, 50, 45, 116, 121, 112, 101]

/-- The buffer afterwards. -/
def replaceTopic (s : Stream) : ByteString :=
  if s.fromUpstream then s.buffer
  else if isMQTTPublishPackage s then
    if (JsString.indexOf s.buffer slashed).isSome then
      JsString.replace s.buffer slashed dashed
    else s.buffer
  else s.buffer

theorem isMQTTPublishPackage_encode (packet : Mqtt.Publish) :
    isMQTTPublishPackage ⟨false, packet.encode⟩ = true := by
  have hflags := packet.flags.isLt
  have hfirst : JsString.charCodeAt packet.encode 0 =
      some (UInt8.ofNat (48 + packet.flags.val)).toNat := rfl
  rw [isMQTTPublishPackage, hfirst, UInt8.toNat_ofNat']
  simp only [decide_eq_true_eq]
  omega

/--
A PUBLISH packet stays one with the same lengths: nothing happens to it when
the text does not occur in its bytes, and else the slash of its first
occurrence becomes a dash, which is behind the header, and in the topic if the
text occurs there.
-/
theorem replaceTopic_publish (packet : Mqtt.Publish) :
    (¬ slashed <:+: packet.encode ∧
        replaceTopic ⟨false, packet.encode⟩ = packet.encode) ∨
      slashed <:+: packet.encode ∧
        ∃ i n, slashed <+: packet.encode.drop i ∧
          (∀ j < i, ¬ slashed <+: packet.encode.drop j) ∧
          i + 5 = packet.header.length + n ∧
          (packet.topic.bytes ++ packet.body)[n]? = some 47 ∧
          replaceTopic ⟨false, packet.encode⟩ =
            (packet.overwrite n 45).encode ∧
          (slashed <:+: packet.topic.bytes →
            n < packet.topic.bytes.length) := by
  unfold replaceTopic
  rw [if_neg (by simp), if_pos (isMQTTPublishPackage_encode packet)]
  cases hindex : JsString.indexOf packet.encode slashed with
  | none =>
      left
      exact ⟨JsString.indexOf_eq_none.mp hindex, rfl⟩
  | some i =>
      right
      obtain ⟨hi, hat, hfirst⟩ := JsString.indexOf_eq_some hindex
      have hinside : slashed <:+: packet.encode :=
        hat.isInfix.trans (List.drop_suffix i packet.encode).isInfix
      have ⟨rest, hrest⟩ := hat
      have hletter : packet.encode[i]? = some 105 := by
        rw [← List.head?_drop, ← hrest]
        rfl
      have hslash : packet.encode[i + 5]? = some 47 := by
        rw [← List.head?_drop, ← List.drop_drop, ← hrest]
        rfl
      have hheader := packet.header_letter (by decide) hletter
      refine ⟨hinside, i, i + 5 - packet.header.length, hat, hfirst, by omega,
        ?_, ?_, ?_⟩
      · rw [Mqtt.Publish.encode, List.getElem?_append_right (by omega)] at hslash
        exact hslash
      · have hreplace := JsString.replace_set (m := 5) (by decide) 45 hindex
        simp only [Option.isSome_some, if_true]
        refine hreplace.trans ?_
        rw [packet.encode_overwrite, Mqtt.Publish.encode,
          List.set_append_right _ _ (by omega)]
      · rintro ⟨front, behind, htopic⟩
        have hoccurs : slashed <+:
            packet.encode.drop (packet.header.length + front.length) := by
          rw [← List.drop_drop, Mqtt.Publish.encode, List.drop_left, ← htopic,
            List.append_assoc, List.append_assoc, List.drop_left]
          exact List.prefix_append _ _
        have hle : i ≤ packet.header.length + front.length := by
          apply Nat.le_of_not_lt
          intro hlt
          exact hfirst _ hlt hoccurs
        have hlength := congrArg List.length htopic
        have hten : slashed.length = 10 := rfl
        simp only [List.length_append, hten] at hlength
        omega

end WebIm.Njs.Mqtt1
