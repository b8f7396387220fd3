import WebIm.Njs.ClientId

/-!
# mqtt-new.js: the password of a packet

`parsePwd` skips the fields of a CONNECT packet by their lengths and returns
the last one.  `calcLen` pastes the two length bytes together as hexadecimal
texts and compares the second text with the number 2, so only the digits 0 and
1 get the zero back that `toString(16)` drops.  The loop in front takes a
continuation byte of 128 for the last byte of the remaining length.
-/

namespace WebIm.Njs

open WebIm.Foundation

inductive JsException where
  | typeError
  deriving DecidableEq, Repr

def calcLen (msb lsb : List Char) : Option Nat :=
  let lsb := if (JsString.toNumber lsb).any (· < 2) then '0' :: lsb else lsb
  (JsString.parseHex (msb ++ lsb)).map Int.toNat

/-- The loop over the remaining length; `undefined > 128` is false. -/
def lenSize (data : ByteString) : Nat → Nat → Nat → Nat
  | 0, _, size => size
  | fuel + 1, remainingLen, size =>
      if (JsString.codePointAt data remainingLen).any (· > 128) then
        lenSize data fuel (remainingLen + 1) (size + 1)
      else size

/-- `undefined` has no `toString`. -/
def readLen (data : ByteString) (shift : Option Nat) :
    Except JsException (Option Nat) :=
  match JsString.codePointAt data (JsString.position shift),
    JsString.codePointAt data
      (JsString.position (JsString.plus shift (some 1))) with
  | some msb, some lsb =>
      .ok (calcLen (JsString.toHex (some msb)) (JsString.toHex (some lsb)))
  | _, _ => .error .typeError

/-- The loop over the fields: the last one is not skipped. -/
def skipFields (data : ByteString) :
    Nat → Option Nat → Option Nat →
      Except JsException (Option Nat × Option Nat)
  | 0, shift, len => .ok (shift, len)
  | left + 1, shift, _ =>
      match readLen data shift with
      | .error e => .error e
      | .ok len =>
          let shift := JsString.plus shift (some 2)
          skipFields data left
            (if left ≠ 0 then JsString.plus shift len else shift) len

def parsePwd (data : ByteString) : Except JsException ByteString :=
  let flagsPos := 1 + lenSize data 4 1 1 + 2 + 4 + 1
  let flags := JsString.codePointAt data flagsPos
  -- a comparison with `undefined` is false
  if flags.any (· < 192) then .ok []
  else
    let shift := flagsPos + 1 + 2
    let shiftFlags := if flags.any (196 ≤ ·) then 5 else 3
    (skipFields data shiftFlags (some shift) none).map fun (shift, len) =>
      JsString.substring data shift (JsString.plus shift len)

/-! ## The lengths `calcLen` reads -/

/-- Behind a non-zero byte, one hexadecimal digit from 2 on loses its place. -/
def shortened (a b : UInt8) : Nat :=
  if 2 ≤ b.toNat ∧ b.toNat < 16 then a.toNat * 16 + b.toNat
  else a.toNat * 256 + b.toNat

theorem toNumber_lt_two :
    ∀ n < 256, (JsString.toNumber (Nat.toDigits 16 n)).any (· < 2) =
      decide (n < 2) := by
  decide +kernel

theorem calcLen_eq (msb lsb : List Char) :
    calcLen msb lsb =
      (JsString.parseHex (msb ++
        if (JsString.toNumber lsb).any (· < 2) then '0' :: lsb
        else lsb)).map Int.toNat :=
  rfl

theorem calcLen_toHex (a b : UInt8) :
    calcLen (JsString.toHex (some a.toNat)) (JsString.toHex (some b.toNat)) =
      some (shortened a b) := by
  have hb := b.toNat_lt
  have hlength := JsString.length_toDigits hb
  have htoHex : ∀ n, JsString.toHex (some n) = Nat.toDigits 16 n := fun _ => rfl
  rw [htoHex, htoHex, calcLen_eq, toNumber_lt_two b.toNat hb, shortened]
  by_cases htwo : b.toNat < 2
  · rw [if_pos (by omega)] at hlength
    rw [if_pos (decide_eq_true htwo), if_neg (by omega),
      JsString.parseHex_append Nat.toDigits_ne_nil
        (fun _ => JsString.hexDigit_of_mem_toDigits)
        (fun _ => JsString.hexDigit_of_mem_zero_cons),
      JsString.hexValue_zero_cons, JsString.hexValue_toDigits,
      JsString.hexValue_toDigits, List.length_cons, hlength]
    rfl
  · rw [if_neg (by simpa using htwo),
      JsString.parseHex_append Nat.toDigits_ne_nil
        (fun _ => JsString.hexDigit_of_mem_toDigits)
        (fun _ => JsString.hexDigit_of_mem_toDigits),
      JsString.hexValue_toDigits, JsString.hexValue_toDigits, hlength]
    by_cases hsixteen : b.toNat < 16
    · rw [if_pos hsixteen, if_pos (by omega)]
      rfl
    · rw [if_neg hsixteen, if_neg (by omega)]
      rfl

/-! ## The fields the loop skips -/

/-- The text behind `n` others, with the lengths as `calcLen` reads them. -/
def textBehind : Nat → ByteString → Option ByteString
  | 0, a :: b :: rest => some (rest.take (shortened a b))
  | n + 1, a :: b :: rest => textBehind n (rest.drop (shortened a b))
  | _, _ => none

section Loop

variable {data : ByteString} {shift : Nat}

theorem readLen_cons {a b : UInt8} {rest : ByteString}
    (hdata : data.drop shift = a :: b :: rest) :
    readLen data (some shift) = .ok (some (shortened a b)) := by
  have hnext := JsString.drop_succ_of_drop hdata
  unfold readLen
  simp only [JsString.plus, JsString.position, Option.bind_some,
    Option.map_some, Option.getD_some]
  rw [JsString.codePointAt_of_drop hdata, JsString.codePointAt_of_drop hnext]
  simp only [calcLen_toHex]

theorem readLen_short (hdata : (data.drop shift).length < 2) :
    readLen data (some shift) = .error .typeError := by
  have hsecond : JsString.codePointAt data (shift + 1) = none := by
    rw [List.length_drop] at hdata
    rw [JsString.codePointAt, JsString.charCodeAt,
      List.getElem?_eq_none (by omega)]
    rfl
  unfold readLen
  simp only [JsString.plus, JsString.position, Option.bind_some,
    Option.map_some, Option.getD_some]
  rw [hsecond]
  cases JsString.codePointAt data shift <;> rfl

theorem skipFields_succ (n : Nat) (len : Option Nat) :
    (skipFields data (n + 1) (some shift) len).map
        (fun read =>
          JsString.substring data read.1 (JsString.plus read.1 read.2)) =
      match textBehind n (data.drop shift) with
      | some text => .ok text
      | none => .error .typeError := by
  induction n generalizing shift len with
  | zero =>
      rw [skipFields]
      match hdata : data.drop shift with
      | [] => rw [readLen_short (by simp [hdata])]; rfl
      | [a] => rw [readLen_short (by simp [hdata])]; rfl
      | a :: b :: rest =>
          have hrest : data.drop (shift + 2) = rest := by
            rw [← List.drop_drop, hdata]
            rfl
          rw [readLen_cons hdata]
          simp [skipFields, textBehind, Except.map, JsString.substring,
            JsString.plus, JsString.position, hrest]
  | succ n ih =>
      rw [skipFields]
      match hdata : data.drop shift with
      | [] => rw [readLen_short (by simp [hdata])]; rfl
      | [a] => rw [readLen_short (by simp [hdata])]; rfl
      | a :: b :: rest =>
          have hrest : data.drop (shift + 2 + shortened a b) =
              rest.drop (shortened a b) := by
            rw [← List.drop_drop, ← List.drop_drop, hdata]
            rfl
          rw [readLen_cons hdata, textBehind, ← hrest]
          exact ih (some (shortened a b))

end Loop

/-! ## Lengths that come back shortened -/

/-- A non-zero high byte in front of a low byte of one digit from 2 on. -/
def Misread (n : Nat) : Prop := 256 ≤ n ∧ 2 ≤ n % 256 ∧ n % 256 < 16

instance : DecidablePred Misread := fun n =>
  inferInstanceAs (Decidable (256 ≤ n ∧ 2 ≤ n % 256 ∧ n % 256 < 16))

def shortLength (n : Nat) : Nat :=
  if Misread n then n / 256 * 16 + n % 256 else n

theorem shortLength_lt {n : Nat} (hn : Misread n) : shortLength n < n := by
  rw [shortLength, if_pos hn]
  unfold Misread at hn
  omega

theorem field_encode_eq (field : Mqtt.Field) :
    ∃ a b : UInt8, field.encode = a :: b :: field.bytes ∧
      shortened a b = shortLength field.bytes.length := by
  have hshort := field.short
  refine ⟨_, _, rfl, ?_⟩
  rw [shortened, shortLength, UInt8.toNat_ofNat', UInt8.toNat_ofNat']
  by_cases hmisread : Misread field.bytes.length
  · rw [if_pos hmisread]
    unfold Misread at hmisread
    rw [if_pos (by omega)]
    omega
  · rw [if_neg hmisread]
    unfold Misread at hmisread
    split <;> omega

/-- `text` is what stands behind `n` others in the shortened reading. -/
def Spells (text : ByteString) : Nat → ByteString → Prop
  | 0, a :: b :: rest =>
      text <+: rest ∧
        (shortened a b = text.length ∨
          rest.length = text.length ∧ text.length ≤ shortened a b)
  | n + 1, a :: b :: rest => Spells text n (rest.drop (shortened a b))
  | _, _ => False

theorem textBehind_eq_some_iff (text : ByteString) (n : Nat)
    (bytes : ByteString) :
    textBehind n bytes = some text ↔ Spells text n bytes := by
  induction n generalizing bytes with
  | zero =>
      match bytes with
      | [] => simp [textBehind, Spells]
      | [a] => simp [textBehind, Spells]
      | a :: b :: rest =>
          rw [textBehind, Spells, Option.some.injEq]
          exact take_eq_iff rest text (shortened a b)
  | succ n ih =>
      match bytes with
      | [] => simp [textBehind, Spells]
      | [a] => simp [textBehind, Spells]
      | a :: b :: rest =>
          rw [textBehind, Spells]
          exact ih (rest.drop (shortened a b))

/--
Behind the first misread field the loop reads lengths inside that field.
The bytes there can happen to spell the password once more.
-/
def SpelledAgain (password : Mqtt.Field) : List Mqtt.Field → Prop
  | [] => False
  | field :: front =>
      if Misread field.bytes.length then
        Spells password.bytes front.length
          (field.bytes.drop (shortLength field.bytes.length) ++
            (front ++ [password]).flatMap Mqtt.Field.encode)
      else SpelledAgain password front

theorem textBehind_fields (password : Mqtt.Field) (front : List Mqtt.Field) :
    textBehind front.length
        ((front ++ [password]).flatMap Mqtt.Field.encode) =
        some password.bytes ↔
      (∀ field ∈ front ++ [password], ¬ Misread field.bytes.length) ∨
        SpelledAgain password front := by
  induction front with
  | nil =>
      obtain ⟨a, b, hbytes, hlength⟩ := field_encode_eq password
      have htext : textBehind 0
          (([] ++ [password]).flatMap Mqtt.Field.encode) =
          some (password.bytes.take (shortLength password.bytes.length)) := by
        simp [hbytes, textBehind, hlength]
      rw [List.length_nil, htext]
      by_cases hmisread : Misread password.bytes.length
      · have hlt := shortLength_lt hmisread
        have hne : password.bytes.take (shortLength password.bytes.length) ≠
            password.bytes := by
          intro heq
          have hlen := congrArg List.length heq
          rw [List.length_take] at hlen
          omega
        simp [hne, hmisread, SpelledAgain]
      · simp [shortLength, hmisread, SpelledAgain]
  | cons field front ih =>
      obtain ⟨a, b, hbytes, hlength⟩ := field_encode_eq field
      have htext : textBehind (field :: front).length
          ((field :: front ++ [password]).flatMap Mqtt.Field.encode) =
          textBehind front.length
            ((field.bytes ++
              (front ++ [password]).flatMap Mqtt.Field.encode).drop
                (shortLength field.bytes.length)) := by
        simp only [List.cons_append, List.flatMap_cons, hbytes,
          List.length_cons, textBehind, hlength]
      rw [htext]
      by_cases hmisread : Misread field.bytes.length
      · have hle := Nat.le_of_lt (shortLength_lt hmisread)
        rw [List.drop_append_of_le_length hle, textBehind_eq_some_iff,
          SpelledAgain, if_pos hmisread]
        simp [hmisread]
      · rw [shortLength, if_neg hmisread, List.drop_left, ih, SpelledAgain,
          if_neg hmisread]
        simp [hmisread]

/-! ## Where the loop over the remaining length stops -/

theorem lenSize_eq {data len rest : ByteString} {pos fuel : Nat}
    (hdata : data.drop pos = len ++ rest) (hfuel : len.length ≤ fuel)
    (hstop : ∃ b ∈ len, b.toNat ≤ 128) (size : Nat) :
    lenSize data fuel pos size =
      size + (len.takeWhile fun b => decide (b.toNat > 128)).length := by
  induction len generalizing pos fuel size with
  | nil => simp at hstop
  | cons b len ih =>
      cases fuel with
      | zero => simp at hfuel
      | succ fuel =>
          rw [List.cons_append] at hdata
          rw [lenSize, JsString.codePointAt_of_drop hdata, List.takeWhile_cons]
          by_cases hb : b.toNat > 128
          · have hnext := JsString.drop_succ_of_drop hdata
            have hrest : ∃ c ∈ len, c.toNat ≤ 128 := by
              obtain ⟨c, hc, hle⟩ := hstop
              cases List.mem_cons.mp hc with
              | inl heq => rw [heq] at hle; omega
              | inr hmem => exact ⟨c, hmem, hle⟩
            rw [if_pos (by simpa using hb), if_pos (decide_eq_true hb),
              ih hnext (by simpa using hfuel) hrest, List.length_cons]
            omega
          · rw [if_neg (by simpa using hb), if_neg (by simpa using hb)]
            rfl

section Packet

variable {packet : Mqtt.Connect}

/-- The length bytes the loop counts as followed by another one. -/
def counted (packet : Mqtt.Connect) : Nat :=
  (packet.remainingLength.takeWhile fun b => decide (b.toNat > 128)).length

theorem lenSize_encode (packet : Mqtt.Connect) :
    lenSize packet.encode 4 1 1 = 1 + counted packet := by
  have hdata : packet.encode.drop 1 = packet.remainingLength ++
      (packet.variableHeader ++ packet.payload) := rfl
  obtain ⟨front, last, hbytes, -, hlast⟩ := packet.remainingLength_eq_append
  refine lenSize_eq hdata packet.remainingLength_length_le ⟨last, ?_, ?_⟩ 1
  · rw [hbytes]
    simp
  · omega

theorem counted_of_not_mem (hmem : (128 : UInt8) ∉ packet.remainingLength) :
    counted packet + 1 = packet.remainingLength.length := by
  obtain ⟨front, last, hbytes, hfront, hlast⟩ :=
    packet.remainingLength_eq_append
  rw [counted, hbytes]
  rw [hbytes] at hmem
  have hpos : ∀ b ∈ front, decide (b.toNat > 128) = true := by
    intro b hb
    have hge := hfront b hb
    have hne : b.toNat ≠ 128 := by
      intro heq
      apply hmem
      rw [← UInt8.toNat_inj.mp (show b.toNat = (128 : UInt8).toNat from heq)]
      exact List.mem_append_left _ hb
    exact decide_eq_true (by omega)
  rw [List.takeWhile_append_of_pos hpos, List.takeWhile_cons,
    if_neg (by simp; omega)]
  simp

theorem counted_of_mem (hmem : (128 : UInt8) ∈ packet.remainingLength) :
    counted packet + 2 ≤ packet.remainingLength.length := by
  obtain ⟨front, last, hbytes, hfront, hlast⟩ :=
    packet.remainingLength_eq_append
  rw [counted, hbytes]
  rw [hbytes] at hmem
  have hin : (128 : UInt8) ∈ front := by
    cases List.mem_append.mp hmem with
    | inl hin => exact hin
    | inr heq =>
        rw [← List.mem_singleton.mp heq] at hlast
        exact absurd hlast (by decide)
  have hne : (front.takeWhile fun b => decide (b.toNat > 128)).length ≠
      front.length := by
    intro hlen
    have hself := (List.takeWhile_prefix
      (fun b : UInt8 => decide (b.toNat > 128))).eq_of_length hlen
    exact absurd (List.takeWhile_eq_self_iff.mp hself 128 hin) (by decide)
  have hle := (List.takeWhile_prefix
    (fun b : UInt8 => decide (b.toNat > 128)) (l := front)).length_le
  rw [List.takeWhile_append, if_neg hne, List.length_append,
    List.length_singleton]
  omega

/-! ## The flags -/

theorem variableHeader_mqtt (hprotocol : packet.protocol = .mqtt) :
    packet.variableHeader =
      [0, 4, 77, 81, 84, 84, 4] ++
        packet.flags :: Mqtt.twoBytes packet.keepAlive.val := by
  unfold Mqtt.Connect.variableHeader
  rw [hprotocol]
  rfl

theorem drop_encode (packet : Mqtt.Connect) (m : Nat) :
    packet.encode.drop (1 + packet.remainingLength.length + m) =
      (packet.variableHeader ++ packet.payload).drop m := by
  rw [← List.drop_drop, Nat.add_comm 1, Mqtt.Connect.encode,
    List.drop_succ_cons, List.drop_left]

/-- Both flags are set; the will flag decides whether the byte reaches 196. -/
theorem flags_toNat {username password : Mqtt.Field}
    (husername : packet.username = some username)
    (hpassword : packet.password = some password) :
    192 ≤ packet.flags.toNat ∧
      (196 ≤ packet.flags.toNat ↔ packet.will.isSome = true) := by
  have hclean := packet.cleanSession.toNat_le
  rw [Mqtt.Connect.flags, husername, hpassword, UInt8.toNat_ofNat']
  cases packet.will with
  | none =>
      simp only [Option.isSome_some, Option.isSome_none, Option.elim_none,
        Bool.toNat_true, Bool.false_eq_true, iff_false]
      omega
  | some will =>
      have hqos := will.qos.isLt
      have hretain := will.retain.toNat_le
      simp only [Option.isSome_some, Option.elim_some, Bool.toNat_true,
        iff_true]
      omega

/-! ## Whole packets -/

theorem parsePwd_of_mem (hprotocol : packet.protocol = .mqtt)
    (hmem : (128 : UInt8) ∈ packet.remainingLength) :
    parsePwd packet.encode = .ok [] := by
  have hcounted := counted_of_mem hmem
  have hle := packet.remainingLength_length_le
  -- the byte read is the level or one of the letters in front of it
  have hearly : ∃ m, (m = 4 ∨ m = 5 ∨ m = 6) ∧
      1 + (1 + counted packet) + 2 + 4 + 1 =
        1 + packet.remainingLength.length + m :=
    ⟨counted packet + 8 - packet.remainingLength.length,
      by omega, by omega⟩
  have hflags : (JsString.codePointAt packet.encode
      (1 + lenSize packet.encode 4 1 1 + 2 + 4 + 1)).any (· < 192) = true := by
    obtain ⟨m, hm, hpos⟩ := hearly
    rw [lenSize_encode, hpos, JsString.codePointAt,
      JsString.charCodeAt_eq_head?, drop_encode, variableHeader_mqtt hprotocol]
    rcases hm with rfl | rfl | rfl <;> rfl
  unfold parsePwd
  exact if_pos hflags

theorem parsePwd_of_not_mem {username password : Mqtt.Field}
    (hprotocol : packet.protocol = .mqtt)
    (husername : packet.username = some username)
    (hpassword : packet.password = some password)
    (hmem : (128 : UInt8) ∉ packet.remainingLength) :
    parsePwd packet.encode =
      match textBehind packet.fields.dropLast.length packet.payload with
      | some text => .ok text
      | none => .error .typeError := by
  have hcounted := counted_of_not_mem hmem
  have hboth := flags_toNat husername hpassword
  have hpos : 1 + lenSize packet.encode 4 1 1 + 2 + 4 + 1 =
      1 + packet.remainingLength.length + 7 := by
    rw [lenSize_encode]
    omega
  have hflags : JsString.codePointAt packet.encode
      (1 + lenSize packet.encode 4 1 1 + 2 + 4 + 1) =
        some packet.flags.toNat := by
    rw [hpos, JsString.codePointAt, JsString.charCodeAt_eq_head?,
      drop_encode, variableHeader_mqtt hprotocol]
    rfl
  have hpayload : packet.encode.drop
      (1 + lenSize packet.encode 4 1 1 + 2 + 4 + 1 + 1 + 2) =
        packet.payload := by
    rw [hpos, Nat.add_assoc, Nat.add_assoc, drop_encode,
      variableHeader_mqtt hprotocol]
    rfl
  have hcount : (if (some packet.flags.toNat).any (196 ≤ ·) then 5 else 3) =
      packet.fields.dropLast.length + 1 := by
    unfold Mqtt.Connect.fields
    rw [husername, hpassword]
    cases hwill : packet.will with
    | none =>
        rw [if_neg (by simp [hboth.2, hwill])]
        rfl
    | some will =>
        rw [if_pos (by simp [hboth.2, hwill])]
        rfl
  unfold parsePwd
  simp only [hflags]
  rw [if_neg (by simpa using hboth.1), hcount, ← hpayload]
  exact skipFields_succ packet.fields.dropLast.length none

theorem fields_eq_append {password : Mqtt.Field}
    (hpassword : packet.password = some password) :
    packet.fields.dropLast ++ [password] = packet.fields := by
  rw [Mqtt.Connect.fields, hpassword, Option.toList_some, ← List.cons_append,
    List.dropLast_concat]

/--
`parsePwd` returns the password exactly if no byte of the remaining length is
128 and no field has a length that is misread, and otherwise by coincidence:
the password is empty, or the bytes spell it again.
-/
theorem parsePwd_eq_password_iff {username password : Mqtt.Field}
    (hprotocol : packet.protocol = .mqtt)
    (husername : packet.username = some username)
    (hpassword : packet.password = some password) :
    parsePwd packet.encode = .ok password.bytes ↔
      if (128 : UInt8) ∈ packet.remainingLength then password.bytes = []
      else
        (∀ field ∈ packet.fields, ¬ Misread field.bytes.length) ∨
          SpelledAgain password packet.fields.dropLast := by
  split
  · rename_i hmem
    rw [parsePwd_of_mem hprotocol hmem, Except.ok.injEq]
    exact eq_comm
  · rename_i hmem
    have hfields := fields_eq_append hpassword
    have hread := textBehind_fields password packet.fields.dropLast
    rw [hfields, ← packet.payload_eq_flatMap] at hread
    rw [parsePwd_of_not_mem hprotocol husername hpassword hmem, ← hread]
    cases textBehind packet.fields.dropLast.length packet.payload <;> simp

end Packet

def repeated (n : Nat) (hn : n < 65536) : Mqtt.Field :=
  ⟨List.replicate n 112, List.length_replicate.trans_lt hn⟩

/-- A client `dev1` with the username `u`. -/
def deviceUser (password : Mqtt.Field) : Mqtt.Connect :=
  { deviceOne with
    username := some ⟨[117], by decide⟩
    password := some password }

theorem short_password_is_returned :
    parsePwd (deviceUser ⟨[112, 119], by decide⟩).encode = .ok [112, 119] := by
  let password : Mqtt.Field := ⟨[112, 119], by decide⟩
  have hiff := parsePwd_eq_password_iff
    (show (deviceUser password).protocol = .mqtt from rfl) rfl rfl
  rw [if_neg (by decide)] at hiff
  exact hiff.mpr (.inl (by decide))

/-- The client identifier spells `pw` once more behind its shortened length. -/
example :
    parsePwd { deviceUser ⟨[112, 119], by decide⟩ with
      clientId :=
        ⟨List.replicate 18 100 ++ ([0, 0, 0, 2, 112, 119] ++
          List.replicate 234 100), by decide +kernel⟩ }.encode =
      .ok [112, 119] := by
  decide +kernel

/--
A password of 258 bytes comes back as its first 18, the hexadecimal digits of
its length being `1` and `2`; with a remaining length of 128 nothing comes back.
-/
theorem password_is_cut :
    parsePwd (deviceUser (repeated 258 (by decide))).encode =
        .ok (List.replicate 18 112) ∧
      parsePwd (deviceUser (repeated 258 (by decide))).encode ≠
        .ok (repeated 258 (by decide)).bytes ∧
      parsePwd (deviceUser (repeated 107 (by decide))).encode = .ok [] := by
  decide +kernel

end WebIm.Njs
