import WebIm.Foundation.JsString

/-!
# Query strings

The parameters that a server reads from a query: split at `&` and at the first
`=`, `+` for a space, and escapes `%XX` whose bytes are read as UTF-8.  A
broken escape makes the server refuse the query.
-/

namespace WebIm.Foundation

/-! ## Bytes read as UTF-8 -/

namespace Utf8

/-- A character begun: the bytes still missing and the range of the next. -/
structure Pending where
  missing : Nat
  value : Nat
  low : Nat
  high : Nat
  deriving DecidableEq, Repr

def replacement : Char := Char.ofNat 0xFFFD

def start (byte : Nat) : List Char × Option Pending :=
  if byte < 0x80 then ([Char.ofNat byte], none)
  else if 0xC2 ≤ byte ∧ byte < 0xE0 then
    ([], some ⟨1, byte - 0xC0, 0x80, 0xBF⟩)
  else if 0xE0 ≤ byte ∧ byte < 0xF0 then
    ([], some ⟨2, byte - 0xE0, if byte = 0xE0 then 0xA0 else 0x80,
      if byte = 0xED then 0x9F else 0xBF⟩)
  else if 0xF0 ≤ byte ∧ byte < 0xF5 then
    ([], some ⟨3, byte - 0xF0, if byte = 0xF0 then 0x90 else 0x80,
      if byte = 0xF4 then 0x8F else 0xBF⟩)
  else ([replacement], none)

/-- A byte that does not continue the character begun starts the next one. -/
def step (pending : Option Pending) (byte : Nat) :
    List Char × Option Pending :=
  match pending with
  | none => start byte
  | some p =>
      if p.low ≤ byte ∧ byte ≤ p.high then
        let value := p.value * 64 + (byte - 0x80)
        if p.missing = 1 then ([Char.ofNat value], none)
        else ([], some ⟨p.missing - 1, value, 0x80, 0xBF⟩)
      else
        let (text, pending) := start byte
        (replacement :: text, pending)

def flush : Option Pending → List Char
  | none => []
  | some _ => [replacement]

theorem length_flush (pending : Option Pending) :
    (flush pending).length = pending.isSome.toNat := by
  cases pending <;> rfl

theorem length_start (byte : Nat) :
    (start byte).1.length + (start byte).2.isSome.toNat = 1 := by
  unfold start
  repeat' split
  all_goals rfl

theorem length_step (pending : Option Pending) (byte : Nat) :
    (step pending byte).1.length + (step pending byte).2.isSome.toNat ≤
      1 + pending.isSome.toNat := by
  have hstart := length_start byte
  cases pending with
  | none => exact Nat.le_of_eq hstart
  | some p =>
      simp only [step]
      split
      · split <;> simp
      · simp only [List.length_cons, Option.isSome_some, Bool.toNat_true]
        omega

end Utf8

/-! ## Decoding a name or a value -/

namespace FormText

def decodeFrom (pending : Option Utf8.Pending) :
    List Char → Option (List Char)
  | [] => some (Utf8.flush pending)
  | '%' :: a :: b :: text =>
      match JsString.hexDigit a, JsString.hexDigit b with
      | some high, some low =>
          let (front, pending) := Utf8.step pending (high * 16 + low)
          (decodeFrom pending text).map (front ++ ·)
      | _, _ => none
  | c :: text =>
      if c = '%' then none
      else
        (decodeFrom none text).map fun rest =>
          Utf8.flush pending ++ (if c = '+' then ' ' else c) :: rest

def decode (text : List Char) : Option (List Char) := decodeFrom none text

theorem decodeFrom_cons (pending : Option Utf8.Pending) {c : Char}
    (hc : c ≠ '%') (text : List Char) :
    decodeFrom pending (c :: text) =
      (decodeFrom none text).map fun rest =>
        Utf8.flush pending ++ (if c = '+' then ' ' else c) :: rest := by
  rw [decodeFrom.eq_3 _ _ _ fun _ _ _ h => absurd h hc, if_neg hc]

/-! ### What decoding leaves alone -/

theorem length_decodeFrom {pending : Option Utf8.Pending}
    {text out : List Char} (h : decodeFrom pending text = some out) :
    out.length + (if '%' ∈ text then 1 else 0) ≤
      text.length + pending.isSome.toNat := by
  induction pending, text using decodeFrom.induct generalizing out with
  | case1 pending =>
      obtain rfl := Option.some.inj h
      simp [Utf8.length_flush]
  | case2 pending a b text high low hhigh hlow front next hstep ih =>
      simp only [decodeFrom, hhigh, hlow, hstep, Option.map_eq_some_iff] at h
      obtain ⟨rest, hrest, rfl⟩ := h
      have hlength := Utf8.length_step pending (high * 16 + low)
      rw [hstep] at hlength
      have hih := ih hrest
      simp only [List.mem_cons, true_or, if_true, List.length_append,
        List.length_cons]
      simp only at hlength
      omega
  | case3 pending a b text hbroken =>
      simp only [decodeFrom] at h
      cases h
  | case4 pending text hshort =>
      simp only [decodeFrom, if_true] at h
      cases h
  | case5 pending c text hescape hc ih =>
      simp only [decodeFrom_cons _ hc, Option.map_eq_some_iff] at h
      obtain ⟨rest, hrest, rfl⟩ := h
      have hih := ih hrest
      have hmem : '%' ∈ c :: text ↔ '%' ∈ text := by
        simp [Ne.symm hc]
      simp only [hmem, List.length_append, List.length_cons,
        Utf8.length_flush]
      simp only [Option.isSome_none, Bool.toNat_false] at hih
      omega

theorem decodeFrom_of_not_mem {pending : Option Utf8.Pending}
    {text : List Char} (h : '%' ∉ text) :
    decodeFrom pending text =
      some (Utf8.flush pending ++
        text.map fun c => if c = '+' then ' ' else c) := by
  induction text generalizing pending with
  | nil => simp [decodeFrom]
  | cons c text ih =>
      rw [List.mem_cons, not_or] at h
      rw [decodeFrom_cons _ (Ne.symm h.1), ih h.2]
      simp [Utf8.flush]

def plain (c : Char) : Bool := c ≠ '%' && c ≠ '+'

theorem decode_of_plain {text : List Char} (h : text.all plain) :
    decode text = some text := by
  simp only [List.all_eq_true, plain, Bool.and_eq_true, decide_eq_true_eq] at h
  have hpercent : '%' ∉ text := fun hmem => (h '%' hmem).1 rfl
  rw [decode, decodeFrom_of_not_mem hpercent, Utf8.flush, List.nil_append]
  congr 1
  calc
    text.map (fun c => if c = '+' then ' ' else c) = text.map id := by
      apply List.map_congr_left
      intro c hc
      rw [if_neg (h c hc).2, id]
    _ = text := List.map_id text

theorem plain_of_decode {text : List Char} (h : decode text = some text) :
    text.all plain := by
  have hlength := length_decodeFrom h
  have hpercent : '%' ∉ text := by
    intro hmem
    rw [if_pos hmem] at hlength
    simp only [Option.isSome_none, Bool.toNat_false] at hlength
    omega
  rw [decode, decodeFrom_of_not_mem hpercent, Utf8.flush, List.nil_append,
    Option.some.injEq, List.map_eq_iff] at h
  simp only [List.all_eq_true, plain, Bool.and_eq_true, decide_eq_true_eq]
  intro c hc
  refine ⟨fun heq => hpercent (heq ▸ hc), ?_⟩
  rintro rfl
  obtain ⟨i, hi, hget⟩ := List.getElem_of_mem hc
  have hsame := h i
  simp [List.getElem?_eq_getElem hi, hget] at hsame

theorem eq_of_decode_prefix {front text : List Char} (hfront : front <+: text)
    (h : decode front = some text) : front = text := by
  have hlength := length_decodeFrom h
  apply hfront.eq_of_length
  have hle := hfront.length_le
  simp only [Option.isSome_none, Bool.toNat_false] at hlength
  omega

/-! ## Names and values -/

def parameter (piece : List Char) : Option (String × String) := do
  let name ← decode (piece.takeWhile (· ≠ '='))
  let value ← decode ((piece.dropWhile (· ≠ '=')).drop 1)
  some (String.ofList name, String.ofList value)

def parseQuery (query : List Char) : Option (List (String × String)) :=
  ((query.splitOn '&').filter (· ≠ [])).mapM parameter

theorem parameter_append {name : List Char} (hname : '=' ∉ name)
    (hplain : name.all plain) (value : List Char) :
    parameter (name ++ '=' :: value) =
      (decode value).map fun value =>
        (String.ofList name, String.ofList value) := by
  have hall : ∀ c ∈ name, decide (c ≠ '=') = true := by
    intro c hc
    exact decide_eq_true fun heq => hname (heq ▸ hc)
  unfold parameter
  rw [List.takeWhile_append_of_pos hall, List.dropWhile_append_of_pos hall]
  simp only [ne_eq, not_true, decide_false, Bool.false_eq_true,
    not_false_eq_true, List.takeWhile_cons_of_neg,
    List.dropWhile_cons_of_neg, List.append_nil, List.drop_succ_cons,
    List.drop_zero, decode_of_plain hplain]
  cases decode value <;> rfl

theorem parseQuery_append {piece : List Char} (hne : piece ≠ [])
    (hpiece : '&' ∉ piece) (tail : List Char) :
    parseQuery (piece ++ '&' :: tail) =
      (parameter piece).bind fun first =>
        (parseQuery tail).map (first :: ·) := by
  unfold parseQuery
  rw [List.splitOn_append_cons_self_of_not_mem hpiece]
  simp only [List.filter_cons, ne_eq, hne, not_false_eq_true, decide_true,
    if_true, List.mapM_cons, Option.map_eq_bind]
  rfl

theorem parseQuery_single {piece : List Char} (hne : piece ≠ [])
    (hpiece : '&' ∉ piece) :
    parseQuery piece = (parameter piece).map ([·]) := by
  unfold parseQuery
  rw [List.splitOn_eq_singleton hpiece]
  simp only [List.filter_cons, ne_eq, hne, not_false_eq_true, decide_true,
    if_true, List.mapM_cons, Option.map_eq_bind]
  rfl

theorem ne_of_not_mem {stop : Char} {text : List Char} (h : stop ∉ text) :
    ∀ c ∈ text, decide (c ≠ stop) = true := by
  intro c hc
  exact decide_eq_true fun heq => h (heq ▸ hc)

theorem takeWhile_ne_self {stop : Char} {text : List Char} (h : stop ∉ text) :
    text.takeWhile (· ≠ stop) = text :=
  List.takeWhile_eq_self_iff.mpr (ne_of_not_mem h)

theorem takeWhile_ne_append {stop : Char} {front : List Char}
    (h : stop ∉ front) (tail : List Char) :
    (front ++ tail).takeWhile (· ≠ stop) =
      front ++ tail.takeWhile (· ≠ stop) :=
  List.takeWhile_append_of_pos (ne_of_not_mem h)

theorem first_parameter {name text : List Char} (hname : '=' ∉ name)
    (hseparator : '&' ∉ name) (hplain : name.all plain)
    {params : List (String × String)}
    (h : parseQuery (name ++ '=' :: text) = some params) :
    ∃ value more, decode (text.takeWhile (· ≠ '&')) = some value ∧
      params = (String.ofList name, String.ofList value) :: more := by
  have hne : ∀ front, name ++ '=' :: front ≠ [] := by simp
  have hfree : ∀ front : List Char, '&' ∉ front →
      '&' ∉ name ++ '=' :: front := by
    intro front hfront
    simp [hseparator, hfront]
  cases Classical.em ('&' ∈ text) with
  | inl hmem =>
      obtain ⟨front, tail, rfl, hfront⟩ := List.eq_append_cons_of_mem hmem
      have hassoc : name ++ '=' :: (front ++ '&' :: tail) =
          (name ++ '=' :: front) ++ '&' :: tail := by simp
      rw [hassoc, parseQuery_append (hne front) (hfree front hfront),
        parameter_append hname hplain] at h
      simp only [Option.bind_eq_some_iff, Option.map_eq_some_iff] at h
      obtain ⟨_, ⟨value, hvalue, rfl⟩, more, -, rfl⟩ := h
      refine ⟨value, more, ?_, rfl⟩
      rw [takeWhile_ne_append hfront]
      simpa using hvalue
  | inr hmem =>
      rw [parseQuery_single (hne text) (hfree text hmem),
        parameter_append hname hplain] at h
      simp only [Option.map_eq_some_iff] at h
      obtain ⟨_, ⟨value, hvalue, rfl⟩, rfl⟩ := h
      rw [takeWhile_ne_self hmem]
      exact ⟨value, [], hvalue, rfl⟩

end FormText

end WebIm.Foundation
