import Mathlib.Data.List.TakeWhile

/-!
# Literals in the text of a MySQL statement

String literals in single quotes, with doubled quotes and backslash escapes,
and decimal integers.  A program that pastes a string between two quotes is
read back by `pasted`: the value of the literal when the quote it appended is
the one that closes it, `none` otherwise.
-/

namespace WebIm.Foundation.SqlText

def quote : Char := Char.ofNat 39

def backslash : Char := Char.ofNat 92

/-! ## String literals -/

/-- What a backslash and the character after it stand for. -/
def escaped (c : Char) : List Char :=
  match c with
  | '0' => [Char.ofNat 0]
  | 'b' => [Char.ofNat 8]
  | 't' => [Char.ofNat 9]
  | 'n' => [Char.ofNat 10]
  | 'r' => [Char.ofNat 13]
  | 'Z' => [Char.ofNat 26]
  | '%' => [backslash, '%']
  | '_' => [backslash, '_']
  | c => [c]

def readLiteral : List Char → Option (List Char × List Char)
  | [] => none
  | [c] => if c = quote then some ([], []) else none
  | c :: d :: rest =>
      if c = quote then
        if d = quote then
          (readLiteral rest).map fun (value, tail) => (quote :: value, tail)
        else some ([], d :: rest)
      else if c = backslash then
        (readLiteral rest).map fun (value, tail) => (escaped d ++ value, tail)
      else
        (readLiteral (d :: rest)).map fun (value, tail) => (c :: value, tail)

theorem readLiteral_unclosed {text : List Char} (h : quote ∉ text) :
    readLiteral text = none := by
  induction text using readLiteral.induct with
  | case1 => rfl
  | case2 => simp at h
  | case3 c hc => simp [readLiteral, hc]
  | case4 rest ih => simp at h
  | case5 d rest hd => simp at h
  | case6 d rest hne ih =>
      simp only [List.mem_cons, not_or] at h
      simp [readLiteral, hne, ih h.2.2]
  | case7 c d rest hquote hbackslash ih =>
      simp only [List.mem_cons, not_or] at h
      have htail : quote ∉ d :: rest := by simp [h.2.1, h.2.2]
      simp [readLiteral, hquote, hbackslash, ih htail]

/--
Pasting `text` before a quote and `tail`: the literal is read as it is with
nothing behind the quote, and the tail is left over.
-/
theorem readLiteral_pasted (text : List Char) {tail : List Char}
    (htail : quote ∉ tail) :
    readLiteral (text ++ quote :: tail) =
      (readLiteral (text ++ [quote])).map fun (value, rest) =>
        (value, rest ++ tail) := by
  have hclose : ∀ tail : List Char, quote ∉ tail →
      readLiteral (quote :: tail) = some ([], tail) := by
    intro tail htail
    cases tail with
    | nil => simp [readLiteral]
    | cons d rest =>
        have hd : d ≠ quote := by
          rintro rfl
          simp at htail
        simp [readLiteral, hd]
  induction text using readLiteral.induct with
  | case1 => simp [hclose tail htail, readLiteral]
  | case2 =>
      -- the quote in `text` and the one behind it make a quote in the value
      simp [readLiteral, readLiteral_unclosed htail]
  | case3 c hc =>
      by_cases hbackslash : c = backslash
      · simp [readLiteral, hbackslash, readLiteral_unclosed htail]
      · have := hclose tail htail
        simp [readLiteral, hc, hbackslash, this]
  | case4 rest ih => simp [readLiteral, ih, Function.comp_def]
  | case5 d rest hd => simp [readLiteral, hd]
  | case6 d rest hne ih => simp [readLiteral, hne, ih, Function.comp_def]
  | case7 c d rest hquote hbackslash ih =>
      simp only [List.cons_append] at ih
      simp [readLiteral, hquote, hbackslash, ih, Function.comp_def]

/-- How MySQL reads the text of a string pasted between two quotes. -/
def pasted (text : String) : Option String :=
  match readLiteral (text.toList ++ [quote]) with
  | some (value, []) => some (String.ofList value)
  | _ => none

theorem readLiteral_plain {text : List Char}
    (h : ∀ c ∈ text, c ≠ quote ∧ c ≠ backslash) :
    readLiteral (text ++ [quote]) = some (text, []) := by
  induction text with
  | nil => simp [readLiteral]
  | cons c text ih =>
      obtain ⟨hquote, hbackslash⟩ := h c List.mem_cons_self
      have htext := ih fun d hd => h d (List.mem_cons_of_mem _ hd)
      cases text with
      | nil => simp [readLiteral, hquote, hbackslash]
      | cons d rest =>
          simp only [List.cons_append] at htext ⊢
          simp [readLiteral, hquote, hbackslash, htext]

theorem pasted_plain {text : String}
    (h : ∀ c ∈ text.toList, c ≠ quote ∧ c ≠ backslash) :
    pasted text = some text := by
  simp [pasted, readLiteral_plain h]

theorem quote_mem_of_readLiteral {text value rest : List Char}
    (h : readLiteral (text ++ [quote]) = some (value, rest)) (hrest : rest ≠ []) :
    quote ∈ rest := by
  induction text using readLiteral.induct generalizing value with
  | case1 => simp_all [readLiteral]
  | case2 => simp [readLiteral] at h
  | case3 c hc =>
      by_cases hbackslash : c = backslash
      · simp [readLiteral, hbackslash] at h
      · simp [readLiteral, hc, hbackslash] at h
        exact absurd h.2 hrest
  | case4 text ih =>
      simp only [List.cons_append, readLiteral, if_true,
        Option.map_eq_some_iff] at h
      obtain ⟨⟨inner, tail⟩, hinner, heq⟩ := h
      cases heq
      exact ih hinner
  | case5 d text hd =>
      simp [readLiteral, hd] at h
      simp [← h.2]
  | case6 d text hne ih =>
      simp only [List.cons_append, readLiteral, hne, if_true, if_false,
        Option.map_eq_some_iff] at h
      obtain ⟨⟨inner, tail⟩, hinner, heq⟩ := h
      cases heq
      exact ih hinner
  | case7 c d text hquote hbackslash ih =>
      simp only [List.cons_append, readLiteral, hquote, hbackslash, if_false,
        Option.map_eq_some_iff] at h
      obtain ⟨⟨inner, tail⟩, hinner, heq⟩ := h
      cases heq
      exact ih hinner

/-! ## Texts that stand for themselves -/

/--
A text that a literal holds as it is: no quote, and a backslash only before a
wildcard, where MySQL keeps it.
-/
inductive Literal : List Char → Prop where
  | nil : Literal []
  | plain {c : Char} {text : List Char} (hquote : c ≠ quote)
      (hbackslash : c ≠ backslash) (htext : Literal text) : Literal (c :: text)
  | wildcard {c : Char} {text : List Char} (hc : c = '%' ∨ c = '_')
      (htext : Literal text) : Literal (backslash :: c :: text)

theorem Literal.append_iff {front text : List Char}
    (hfront : ∀ c ∈ front, c ≠ quote ∧ c ≠ backslash) :
    Literal (front ++ text) ↔ Literal text := by
  induction front with
  | nil => exact Iff.rfl
  | cons c front ih =>
      obtain ⟨hquote, hbackslash⟩ := hfront c List.mem_cons_self
      rw [List.cons_append, ← ih fun d hd => hfront d (List.mem_cons_of_mem _ hd)]
      generalize front ++ text = rest
      constructor
      · intro h
        cases h with
        | plain _ _ htext => exact htext
        | wildcard _ _ => exact absurd rfl hbackslash
      · exact Literal.plain hquote hbackslash

theorem literal_of_plain {text : List Char}
    (h : ∀ c ∈ text, c ≠ quote ∧ c ≠ backslash) : Literal text := by
  induction text with
  | nil => exact Literal.nil
  | cons c text ih =>
      obtain ⟨hquote, hbackslash⟩ := h c List.mem_cons_self
      apply Literal.plain hquote hbackslash
      exact ih fun d hd => h d (List.mem_cons_of_mem _ hd)

theorem readLiteral_cons {c : Char} (hquote : c ≠ quote)
    (hbackslash : c ≠ backslash) {text : List Char} (htext : text ≠ []) :
    readLiteral (c :: text) =
      (readLiteral text).map fun (value, tail) => (c :: value, tail) := by
  cases text with
  | nil => exact absurd rfl htext
  | cons d rest => simp [readLiteral, hquote, hbackslash]

theorem Literal.readLiteral {text : List Char} (h : Literal text) :
    readLiteral (text ++ [quote]) = some (text, []) := by
  induction h with
  | nil => simp [SqlText.readLiteral]
  | plain hquote hbackslash _ ih =>
      rw [List.cons_append, readLiteral_cons hquote hbackslash (by simp), ih]
      rfl
  | wildcard hc _ ih =>
      have hbackslash : backslash ≠ quote := by decide
      rcases hc with rfl | rfl <;>
        simp [SqlText.readLiteral, hbackslash, ih, escaped]

theorem length_escaped (d : Char) :
    (escaped d).length = 1 ∨
      (d = '%' ∨ d = '_') ∧ escaped d = [backslash, d] := by
  unfold escaped
  split
  case h_7 => exact Or.inr ⟨Or.inl rfl, rfl⟩
  case h_8 => exact Or.inr ⟨Or.inr rfl, rfl⟩
  all_goals exact Or.inl rfl

theorem length_readLiteral {text value rest : List Char}
    (h : readLiteral (text ++ [quote]) = some (value, rest)) :
    value.length ≤ text.length := by
  induction text using readLiteral.induct generalizing value with
  | case1 =>
      simp only [List.nil_append, readLiteral, if_true, Option.some.injEq,
        Prod.mk.injEq] at h
      simp [← h.1]
  | case2 => simp [readLiteral] at h
  | case3 c hc =>
      cases decEq c backslash with
      | isTrue hbackslash => simp [readLiteral, hbackslash] at h
      | isFalse hbackslash =>
          simp [readLiteral, hc, hbackslash] at h
          simp [← h.1]
  | case4 text ih =>
      simp only [List.cons_append, readLiteral, if_true,
        Option.map_eq_some_iff] at h
      obtain ⟨⟨inner, tail⟩, hinner, heq⟩ := h
      cases heq
      have hlength := ih hinner
      simp only [List.length_cons]
      omega
  | case5 d text hd =>
      simp only [List.cons_append, readLiteral, if_true, if_neg hd,
        Option.some.injEq, Prod.mk.injEq] at h
      simp [← h.1]
  | case6 d text hne ih =>
      simp only [List.cons_append, readLiteral, hne, if_true, if_false,
        Option.map_eq_some_iff] at h
      obtain ⟨⟨inner, tail⟩, hinner, heq⟩ := h
      cases heq
      have hlength := ih hinner
      have hescaped : (escaped d).length ≤ 2 := by
        rcases length_escaped d with hone | ⟨-, htwo⟩
        · omega
        · simp [htwo]
      simp only [List.length_append, List.length_cons]
      omega
  | case7 c d text hquote hbackslash ih =>
      rw [List.cons_append, readLiteral_cons hquote hbackslash (by simp),
        Option.map_eq_some_iff] at h
      obtain ⟨⟨inner, tail⟩, hinner, heq⟩ := h
      cases heq
      have hlength := ih hinner
      simp only [List.length_cons] at hlength ⊢
      omega

theorem literal_of_readLiteral {text rest : List Char}
    (h : readLiteral (text ++ [quote]) = some (text, rest)) : Literal text := by
  induction text using readLiteral.induct with
  | case1 => exact Literal.nil
  | case2 => simp [readLiteral] at h
  | case3 c hc =>
      cases decEq c backslash with
      | isTrue hbackslash => simp [readLiteral, hbackslash] at h
      | isFalse hbackslash => exact Literal.plain hc hbackslash Literal.nil
  | case4 text ih =>
      simp only [List.cons_append, readLiteral, if_true,
        Option.map_eq_some_iff, Prod.mk.injEq, List.cons.injEq] at h
      obtain ⟨⟨inner, tail⟩, hinner, ⟨-, rfl⟩, -⟩ := h
      have hlength := length_readLiteral hinner
      simp only [List.length_cons] at hlength
      omega
  | case5 d text hd =>
      simp [readLiteral, hd] at h
  | case6 d text hne ih =>
      simp only [List.cons_append, readLiteral, hne, if_true, if_false,
        Option.map_eq_some_iff, Prod.mk.injEq] at h
      obtain ⟨⟨inner, tail⟩, hinner, heq, rfl⟩ := h
      have hlength := length_readLiteral hinner
      rcases length_escaped d with hone | ⟨hd, htwo⟩
      · have htotal := congrArg List.length heq
        simp only [List.length_append, List.length_cons] at htotal
        omega
      · simp only [htwo, List.cons_append, List.nil_append, List.cons.injEq,
          true_and] at heq
        subst heq
        exact Literal.wildcard hd (ih hinner)
  | case7 c d text hquote hbackslash ih =>
      rw [List.cons_append, readLiteral_cons hquote hbackslash (by simp),
        Option.map_eq_some_iff] at h
      obtain ⟨⟨inner, tail⟩, hinner, heq⟩ := h
      simp only [Prod.mk.injEq, List.cons.injEq, true_and] at heq
      obtain ⟨rfl, rfl⟩ := heq
      exact Literal.plain hquote hbackslash (ih hinner)

theorem pasted_iff (text : String) :
    pasted text = some text ↔ Literal text.toList := by
  unfold pasted
  constructor
  · intro h
    split at h
    · rename_i value hread
      rw [Option.some.injEq] at h
      subst h
      rw [String.toList_ofList] at hread ⊢
      exact literal_of_readLiteral hread
    · cases h
  · intro h
    rw [h.readLiteral]
    simp

/-! ## Fixed words -/

def readWord (word text : List Char) : Option (List Char) :=
  if word <+: text then some (text.drop word.length) else none

theorem readWord_append (word text : List Char) :
    readWord word (word ++ text) = some text := by
  simp [readWord]

theorem eq_append_of_readWord {word text rest : List Char}
    (h : readWord word text = some rest) : text = word ++ rest := by
  simp only [readWord, Option.ite_none_right_eq_some, Option.some.injEq] at h
  obtain ⟨⟨tail, rfl⟩, rfl⟩ := h
  simp

/-! ## Integers -/

def readNat (text : List Char) : Option (Nat × List Char) :=
  let digits := text.takeWhile Char.isDigit
  if digits = [] then none
  else some (Nat.ofDigitChars 10 digits 0, text.dropWhile Char.isDigit)

def readInt : List Char → Option (Int × List Char)
  | '-' :: text => (readNat text).map fun (n, rest) => (-(n : Int), rest)
  | text => (readNat text).map fun (n, rest) => ((n : Int), rest)

theorem readNat_repr (n : Nat) {rest : List Char}
    (hrest : ∀ c, rest.head? = some c → c.isDigit = false) :
    readNat (n.repr.toList ++ rest) = some (n, rest) := by
  have hdigits : ∀ c ∈ Nat.toDigits 10 n, c.isDigit = true := fun c hc =>
    Nat.isDigit_of_mem_toDigits (by omega) (by omega) hc
  have htake : rest.takeWhile Char.isDigit = [] := by
    cases rest with
    | nil => rfl
    | cons c rest => simp [hrest c rfl]
  have hdrop : rest.dropWhile Char.isDigit = rest := by
    cases rest with
    | nil => rfl
    | cons c rest => simp [hrest c rfl]
  rw [Nat.toList_repr, readNat, List.takeWhile_append_of_pos hdigits,
    List.dropWhile_append_of_pos hdigits, htake, hdrop, List.append_nil,
    if_neg Nat.toDigits_ne_nil, Nat.ofDigitChars_toDigits (by omega) (by omega)]

theorem readInt_repr (n : Int) {rest : List Char}
    (hrest : ∀ c, rest.head? = some c → c.isDigit = false) :
    readInt (n.repr.toList ++ rest) = some (n, rest) := by
  cases n with
  | ofNat n =>
      have hread := readNat_repr n hrest
      have hhead : ∀ text, n.repr.toList ++ rest ≠ '-' :: text := by
        intro text heq
        have hne : Nat.toDigits 10 n ≠ [] := Nat.toDigits_ne_nil
        rw [Nat.toList_repr] at heq
        obtain ⟨c, digits, hdigits⟩ := List.exists_cons_of_ne_nil hne
        rw [hdigits, List.cons_append, List.cons.injEq] at heq
        have hdigit : c.isDigit = true :=
          Nat.isDigit_of_mem_toDigits (b := 10) (by omega) (by omega)
            (hdigits ▸ List.mem_cons_self)
        rw [heq.1] at hdigit
        exact absurd hdigit (by decide)
      change readInt (n.repr.toList ++ rest) = _
      unfold readInt
      split
      · rename_i text heq
        exact absurd heq (hhead text)
      · rw [hread]
        rfl
  | negSucc n =>
      have hread := readNat_repr (n + 1) hrest
      change readInt (("-" ++ (n + 1).repr).toList ++ rest) = _
      rw [String.toList_append, List.append_assoc]
      change (readNat ((n + 1).repr.toList ++ rest)).map _ = _
      rw [hread]
      rfl

theorem readInt_repr_whole (n : Int) :
    readInt n.repr.toList = some (n, []) := by
  have hnil : ∀ c, ([] : List Char).head? = some c → c.isDigit = false := by
    simp
  have hread := readInt_repr n hnil
  rwa [List.append_nil] at hread

theorem mem_of_readNat {text rest : List Char} {n : Nat} {c : Char}
    (h : readNat text = some (n, rest)) (hc : c ∈ text)
    (hdigit : c.isDigit = false) : c ∈ rest := by
  unfold readNat at h
  simp only [Option.ite_none_left_eq_some, Option.some.injEq,
    Prod.mk.injEq] at h
  obtain ⟨-, -, rfl⟩ := h
  rw [← List.takeWhile_append_dropWhile (p := Char.isDigit) (l := text),
    List.mem_append] at hc
  rcases hc with hc | hc
  · rw [List.mem_takeWhile_imp hc] at hdigit
    cases hdigit
  · exact hc

theorem quote_mem_of_readInt {text rest : List Char} {n : Int}
    (h : readInt text = some (n, rest)) (hquote : quote ∈ text) :
    quote ∈ rest := by
  unfold readInt at h
  split at h
  · rename_i text
    obtain ⟨⟨m, tail⟩, hread, heq⟩ := Option.map_eq_some_iff.mp h
    cases heq
    have hmem : quote ∈ text := by
      rcases List.mem_cons.mp hquote with hminus | hmem
      · exact absurd hminus (by decide)
      · exact hmem
    exact mem_of_readNat hread hmem (by decide)
  · obtain ⟨⟨m, tail⟩, hread, heq⟩ := Option.map_eq_some_iff.mp h
    cases heq
    exact mem_of_readNat hread hquote (by decide)

end WebIm.Foundation.SqlText
