import Mathlib.Algebra.Group.Nat.Defs
import Mathlib.Data.List.Induction
import Mathlib.Data.List.TakeWhile

/-!
# Byte strings and numbers of JavaScript

Strings are byte strings.  A number is a natural number or `NaN`, written
`none`; `toHex` is `toString(16)` and `parseHex` is `parseInt(text, 16)`.
-/

namespace WebIm.Foundation

abbrev ByteString := List UInt8

namespace JsString

def charCodeAt (s : ByteString) (i : Nat) : Option Nat :=
  s[i]?.map UInt8.toNat

def codePointAt (s : ByteString) (i : Nat) : Option Nat := charCodeAt s i

def plus (a b : Option Nat) : Option Nat :=
  a.bind fun a => b.map (a + ·)

/-- A number as a position: `NaN` is 0. -/
def position (n : Option Nat) : Nat := n.getD 0

/-- `NaN` as a length is 0. -/
def substr (s : ByteString) (start : Nat) (len : Option Int) : ByteString :=
  (s.drop start).take (len.getD 0).toNat

def substring (s : ByteString) (start stop : Option Nat) : ByteString :=
  let first := min (position start) (position stop)
  let last := max (position start) (position stop)
  (s.drop first).take (last - first)

def toHex : Option Nat → List Char
  | none => "NaN".toList
  | some n => Nat.toDigits 16 n

def hexDigit (c : Char) : Option Nat :=
  if '0' ≤ c ∧ c ≤ '9' then some (c.toNat - 48)
  else if 'a' ≤ c ∧ c ≤ 'f' then some (c.toNat - 87)
  else if 'A' ≤ c ∧ c ≤ 'F' then some (c.toNat - 55)
  else none

def hexValue (digits : List Char) : Nat :=
  digits.foldl (fun value c => value * 16 + (hexDigit c).getD 0) 0

def readSign : List Char → Bool × List Char
  | '-' :: text => (true, text)
  | '+' :: text => (false, text)
  | text => (false, text)

def skipHexPrefix : List Char → List Char
  | '0' :: 'x' :: text => text
  | '0' :: 'X' :: text => text
  | text => text

/-- The longest run of hexadecimal digits counts, none gives `NaN`. -/
def parseHex (text : List Char) : Option Int :=
  let (negative, text) := readSign (text.dropWhile Char.isWhitespace)
  let digits := (skipHexPrefix text).takeWhile fun c => (hexDigit c).isSome
  if digits = [] then none
  else some (if negative then -(hexValue digits : Int) else hexValue digits)

/--
`Number(text)` for a text of at most two hexadecimal digits, which leaves no
room for a sign, a point or an exponent.
-/
def toNumber (text : List Char) : Option Nat :=
  if text.all Char.isDigit then
    some (text.foldl (fun value c => value * 10 + (c.toNat - 48)) 0)
  else none

/-! ## Reading back what `toString(16)` wrote -/

theorem hexDigit_digitChar : ∀ n < 16, hexDigit (Nat.digitChar n) = some n := by
  decide

theorem hexValue_append (first second : List Char) :
    hexValue (first ++ second) =
      hexValue first * 16 ^ second.length + hexValue second := by
  induction second using List.reverseRecOn with
  | nil => simp [hexValue]
  | append_singleton second c ih =>
      have hlast : ∀ digits : List Char, hexValue (digits ++ [c]) =
          hexValue digits * 16 + (hexDigit c).getD 0 := by
        simp [hexValue]
      rw [← List.append_assoc, hlast, hlast, ih, List.length_append,
        List.length_singleton, Nat.pow_succ, Nat.add_mul, Nat.mul_assoc,
        Nat.add_assoc]

theorem hexDigit_of_mem_toDigits {n : Nat} {c : Char}
    (hc : c ∈ Nat.toDigits 16 n) : (hexDigit c).isSome = true := by
  induction n using Nat.strong_induction_on with
  | _ n ih =>
      rw [Nat.toDigits_eq_if (by omega)] at hc
      split at hc
      · rename_i hlt
        rw [List.mem_singleton] at hc
        rw [hc, hexDigit_digitChar n hlt]
        rfl
      · rcases List.mem_append.mp hc with hc | hc
        · exact ih (n / 16) (by omega) hc
        · rw [List.mem_singleton] at hc
          rw [hc, hexDigit_digitChar _ (by omega)]
          rfl

theorem hexValue_toDigits (n : Nat) : hexValue (Nat.toDigits 16 n) = n := by
  have hone : ∀ m < 16, hexValue [Nat.digitChar m] = m := by
    intro m hm
    simp [hexValue, hexDigit_digitChar m hm]
  induction n using Nat.strong_induction_on with
  | _ n ih =>
      rw [Nat.toDigits_eq_if (by omega)]
      split
      · rename_i hlt
        exact hone n hlt
      · rw [hexValue_append, ih (n / 16) (by omega), hone _ (by omega),
          List.length_singleton]
        omega

theorem parseHex_digits {digits : List Char} (hne : digits ≠ [])
    (hdigits : ∀ c ∈ digits, (hexDigit c).isSome = true) :
    parseHex digits = some (hexValue digits : Int) := by
  have hnot : ∀ c ∈ digits, hexDigit c ≠ none := fun c hc =>
    Option.isSome_iff_ne_none.mp (hdigits c hc)
  have hspace : digits.dropWhile Char.isWhitespace = digits := by
    cases digits with
    | nil => rfl
    | cons c rest =>
        have hc : c.isWhitespace = false := by
          by_contra h
          rw [Bool.not_eq_false, Char.isWhitespace] at h
          simp only [Bool.or_eq_true, decide_eq_true_eq] at h
          apply hnot c List.mem_cons_self
          rcases h with ((rfl | rfl) | rfl) | rfl <;> decide
        simp [hc]
  have hsign : readSign digits = (false, digits) := by
    unfold readSign
    split
    · exact absurd (by decide) (hnot '-' List.mem_cons_self)
    · exact absurd (by decide) (hnot '+' List.mem_cons_self)
    · rfl
  have hfront : skipHexPrefix digits = digits := by
    unfold skipHexPrefix
    split
    · exact absurd (by decide) (hnot 'x' (by simp))
    · exact absurd (by decide) (hnot 'X' (by simp))
    · rfl
  have htake : digits.takeWhile (fun c => (hexDigit c).isSome) = digits :=
    List.takeWhile_eq_self_iff.mpr hdigits
  simp only [parseHex, hspace, hsign, hfront, htake, if_neg hne]
  rfl

/-! ## Two-byte lengths read through hexadecimal texts -/

/-- A missing digit of the low byte is put back as a zero. -/
def padHex (digits : List Char) : List Char :=
  if digits.length < 2 then '0' :: digits else digits

theorem length_toDigits {n : Nat} (hn : n < 256) :
    (Nat.toDigits 16 n).length = if n < 16 then 1 else 2 := by
  rw [Nat.toDigits_eq_if (by omega)]
  split
  · rfl
  · rw [Nat.toDigits_eq_if (by omega), if_pos (by omega)]
    rfl

theorem hexValue_zero_cons (digits : List Char) :
    hexValue ('0' :: digits) = hexValue digits := by
  rw [← List.singleton_append, hexValue_append]
  simp [hexValue, hexDigit]

theorem hexDigit_of_mem_zero_cons {n : Nat} {c : Char}
    (hc : c ∈ '0' :: Nat.toDigits 16 n) : (hexDigit c).isSome = true := by
  cases List.mem_cons.mp hc with
  | inl heq => exact heq ▸ rfl
  | inr hmem => exact hexDigit_of_mem_toDigits hmem

theorem parseHex_append {first second : List Char} (hne : first ≠ [])
    (hfirst : ∀ c ∈ first, (hexDigit c).isSome = true)
    (hsecond : ∀ c ∈ second, (hexDigit c).isSome = true) :
    parseHex (first ++ second) =
      some ((hexValue first * 16 ^ second.length + hexValue second : Nat) :
        Int) := by
  have hdigits : ∀ c ∈ first ++ second, (hexDigit c).isSome = true := by
    intro c hc
    cases List.mem_append.mp hc with
    | inl hc => exact hfirst c hc
    | inr hc => exact hsecond c hc
  rw [parseHex_digits (by simp [hne]) hdigits, hexValue_append]

theorem parseHex_pair (a b : UInt8) :
    parseHex (toHex (some a.toNat) ++ padHex (toHex (some b.toNat))) =
      some ((a.toNat * 256 + b.toNat : Nat) : Int) := by
  have hlength := length_toDigits b.toNat_lt
  change parseHex (Nat.toDigits 16 a.toNat ++
    padHex (Nat.toDigits 16 b.toNat)) = _
  unfold padHex
  by_cases hshort : b.toNat < 16
  · rw [if_pos hshort] at hlength
    rw [if_pos (by omega), parseHex_append Nat.toDigits_ne_nil
      (fun _ => hexDigit_of_mem_toDigits) (fun _ => hexDigit_of_mem_zero_cons),
      hexValue_zero_cons, hexValue_toDigits, hexValue_toDigits,
      List.length_cons, hlength]
    rfl
  · rw [if_neg hshort] at hlength
    rw [if_neg (by omega), parseHex_append Nat.toDigits_ne_nil
      (fun _ => hexDigit_of_mem_toDigits) (fun _ => hexDigit_of_mem_toDigits),
      hexValue_toDigits, hexValue_toDigits, hlength]
    rfl

/-! ## The bytes behind a position -/

section Position

variable {s rest : ByteString} {i : Nat} {b : UInt8}

theorem charCodeAt_of_drop (h : s.drop i = b :: rest) :
    charCodeAt s i = some b.toNat := by
  rw [charCodeAt, ← List.head?_drop, h]
  rfl

theorem codePointAt_of_drop (h : s.drop i = b :: rest) :
    codePointAt s i = some b.toNat :=
  charCodeAt_of_drop h

theorem drop_succ_of_drop (h : s.drop i = b :: rest) :
    s.drop (i + 1) = rest := by
  rw [← List.drop_drop, h, List.drop_one, List.tail_cons]

end Position

theorem charCodeAt_eq_head? (s : ByteString) (i : Nat) :
    charCodeAt s i = (s.drop i).head?.map UInt8.toNat := by
  rw [charCodeAt, List.head?_drop]

end JsString

end WebIm.Foundation
