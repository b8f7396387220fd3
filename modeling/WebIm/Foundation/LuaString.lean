import WebIm.Foundation.JsString

/-!
# Strings and numbers of Lua

Strings are byte strings with positions from 1; a negative position counts from
the end.  `toNumber` is `tonumber(text, 16)`, with `none` for `nil`.  `hex`
writes every byte as two digits, and a byte is read back at its column.
-/

namespace WebIm.Foundation.LuaString

def startPosition (length : Nat) (i : Int) : Nat :=
  if 0 < i then i.toNat
  else if i = 0 ∨ i < -length then 1
  else (length + i + 1).toNat

def endPosition (length : Nat) (j : Int) : Nat :=
  if (length : Int) < j then length
  else if 0 ≤ j then j.toNat
  else (length + j + 1).toNat

/-- `string.sub(s, i, j)`, both ends included. -/
def sub (s : ByteString) (i j : Int) : ByteString :=
  let first := startPosition s.length i
  let last := endPosition s.length j
  (s.drop (first - 1)).take (last + 1 - first)

def isSpace (c : UInt8) : Bool := c = 32 ∨ 9 ≤ c ∧ c ≤ 13

def isDigit (c : UInt8) : Bool := 48 ≤ c ∧ c ≤ 57

def isAlnum (c : UInt8) : Bool :=
  isDigit c ∨ 65 ≤ c ∧ c ≤ 90 ∨ 97 ≤ c ∧ c ≤ 122

def digitValue (c : UInt8) : Nat :=
  if isDigit c then c.toNat - 48
  else if 97 ≤ c then c.toNat - 87
  else c.toNat - 55

def readSign : ByteString → Bool × ByteString
  | 45 :: text => (true, text)
  | 43 :: text => (false, text)
  | text => (false, text)

def digitsValue (digits : ByteString) : Nat :=
  digits.foldl (fun value c => value * 16 + digitValue c) 0

/--
Blanks around the number count for nothing, anything else behind it makes the
result `nil`.  Integers have no bound here; Lua wraps from 2^63 on.
-/
def toNumber (text : ByteString) : Option Int :=
  let (negative, text) := readSign (text.dropWhile isSpace)
  let digits := text.takeWhile isAlnum
  let behind := (text.dropWhile isAlnum).dropWhile isSpace
  if digits = [] ∨ digits.any (16 ≤ digitValue ·) ∨ behind ≠ [] then none
  else some (if negative then -(digitsValue digits : Int) else digitsValue digits)

/-! ## Hexadecimal text -/

def hexDigit (n : Nat) : UInt8 :=
  if n < 10 then UInt8.ofNat (48 + n) else UInt8.ofNat (55 + n)

def hex : ByteString → ByteString
  | [] => []
  | b :: bytes =>
      hexDigit (b.toNat / 16) :: hexDigit (b.toNat % 16) :: hex bytes

theorem length_hex (bytes : ByteString) :
    (hex bytes).length = 2 * bytes.length := by
  induction bytes with
  | nil => rfl
  | cons b bytes ih =>
      simp only [hex, List.length_cons, ih]
      omega

theorem drop_hex (bytes : ByteString) (k : Nat) :
    (hex bytes).drop (2 * k) = hex (bytes.drop k) := by
  induction k generalizing bytes with
  | zero => rfl
  | succ k ih =>
      cases bytes with
      | nil => simp [hex]
      | cons b bytes => exact ih bytes

theorem sub_of_pos (s : ByteString) {i j : Nat} (hi : 0 < i) :
    sub s i j = (s.drop (i - 1)).take (j + 1 - i) := by
  have hfirst : startPosition s.length i = i := by
    rw [startPosition, if_pos (by omega)]
    omega
  have hlast : endPosition s.length j = min s.length j := by
    unfold endPosition
    split
    · omega
    · rw [if_pos (by omega)]
      omega
  unfold sub
  rw [hfirst, hlast, List.take_eq_take_iff, List.length_drop]
  omega

theorem toNumber_hexDigits :
    ∀ a < 16, ∀ b < 16,
      toNumber [hexDigit a, hexDigit b] = some ((16 * a + b : Nat) : Int) := by
  decide +kernel

theorem toNumber_hex_byte (b : UInt8) :
    toNumber (hex [b]) = some (b.toNat : Int) := by
  have hb := b.toNat_lt
  rw [hex, hex, toNumber_hexDigits _ (by omega) _ (by omega),
    Nat.div_add_mod]

def column (k : Nat) : Int := 2 * k + 1

theorem column_add_two (k : Nat) : column k + 2 = column (k + 1) := by
  unfold column
  omega

theorem sub_column (bytes : ByteString) (k : Nat) :
    sub (hex bytes) (column k) (column k + 1) = hex ((bytes.drop k).take 1) := by
  have hcolumn : column k = ((2 * k + 1 : Nat) : Int) := by
    unfold column
    omega
  have hnext : column k + 1 = ((2 * k + 2 : Nat) : Int) := by
    unfold column
    omega
  rw [hnext, hcolumn, sub_of_pos _ (by omega), Nat.add_sub_cancel, drop_hex,
    show 2 * k + 2 + 1 - (2 * k + 1) = 2 by omega]
  cases bytes.drop k with
  | nil => rfl
  | cons b rest => rfl

theorem toNumber_column (bytes : ByteString) (k : Nat) :
    toNumber (sub (hex bytes) (column k) (column k + 1)) =
      bytes[k]?.map fun b => (b.toNat : Int) := by
  rw [sub_column]
  cases hdrop : bytes.drop k with
  | nil =>
      rw [List.getElem?_eq_none (List.drop_eq_nil_iff.mp hdrop)]
      rfl
  | cons b rest =>
      have hbyte : bytes[k]? = some b := by
        rw [← List.head?_drop, hdrop, List.head?_cons]
      rw [hbyte, List.take_succ_cons, List.take_zero, toNumber_hex_byte]
      rfl

/-! ## Digits at any position -/

theorem toNumber_between (bytes : ByteString) {k : Nat} {b c : UInt8}
    {rest : ByteString} (hdrop : bytes.drop k = b :: c :: rest) :
    toNumber (sub (hex bytes) ((2 * k + 2 : Nat) : Int) ((2 * k + 3 : Nat) : Int)) =
      some ((16 * (b.toNat % 16) + c.toNat / 16 : Nat) : Int) := by
  have hb := b.toNat_lt
  have hc := c.toNat_lt
  have hdigits : (hex bytes).drop (2 * k + 1) =
      hexDigit (b.toNat % 16) :: hexDigit (c.toNat / 16) ::
        hexDigit (c.toNat % 16) :: hex rest := by
    rw [← List.drop_drop, drop_hex, hdrop]
    rfl
  rw [sub_of_pos _ (by omega), show 2 * k + 2 - 1 = 2 * k + 1 by omega,
    show 2 * k + 3 + 1 - (2 * k + 2) = 2 by omega, hdigits]
  exact toNumber_hexDigits _ (by omega) _ (by omega)

/--
Two digits inside the text are a number, wherever they stand, and not less than
the first digit of the byte that the second one belongs to.
-/
theorem toNumber_inside (bytes : ByteString) {d : Nat}
    (hinside : d + 2 ≤ 2 * bytes.length) {b : UInt8}
    (hb : bytes[(d + 1) / 2]? = some b) :
    ∃ n : Nat, toNumber (sub (hex bytes) ((d + 1 : Nat) : Int)
        ((d + 2 : Nat) : Int)) = some (n : Int) ∧ b.toNat / 16 ≤ n := by
  obtain ⟨k, heven | hodd⟩ : ∃ k, d = 2 * k ∨ d = 2 * k + 1 :=
    ⟨d / 2, by omega⟩
  · rw [show (d + 1) / 2 = k by omega] at hb
    have hnumber := toNumber_column bytes k
    rw [hb] at hnumber
    refine ⟨b.toNat, ?_, Nat.div_le_self _ _⟩
    rw [heven]
    exact hnumber
  · rw [show (d + 1) / 2 = k + 1 by omega] at hb
    cases hdrop : bytes.drop k with
    | nil =>
        have hlength := List.drop_eq_nil_iff.mp hdrop
        omega
    | cons a rest =>
        have hnext : rest.head? = some b := by
          rw [← hb, ← List.head?_drop, ← List.tail_drop, hdrop, List.tail_cons]
        cases rest with
        | nil => cases hnext
        | cons c rest =>
            cases hnext
            refine ⟨16 * (a.toNat % 16) + b.toNat / 16, ?_, by omega⟩
            rw [hodd]
            exact toNumber_between bytes hdrop

end WebIm.Foundation.LuaString
