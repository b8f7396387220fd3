import WebIm.Foundation.JsString

/-!
# URLs

The parts of a URL that a client connects to, cut out as `java.net.URI` cuts
them: the first `#` ends the query, the first `?` ends the path, and a
character that its part does not allow makes the whole text no URL.
-/

namespace WebIm.Foundation

structure Uri where
  scheme : List Char
  authority : List Char
  path : List Char
  query : Option (List Char)
  fragment : Option (List Char)
  deriving DecidableEq, Repr

namespace Uri

/-! ## Characters -/

def alphanumeric (c : Char) : Bool :=
  ('a' ≤ c && c ≤ 'z') || ('A' ≤ c && c ≤ 'Z') || ('0' ≤ c && c ≤ '9')

def unreserved (c : Char) : Bool :=
  alphanumeric c || "-_.!~*'()".toList.contains c

/-- `Character.isSpaceChar` outside US-ASCII. -/
def spaceChar (c : Char) : Bool :=
  [0xA0, 0x1680, 0x2028, 0x2029, 0x202F, 0x205F, 0x3000].contains c.toNat ||
    (0x2000 ≤ c.toNat && c.toNat ≤ 0x200A)

def other (c : Char) : Bool := 0xA0 ≤ c.toNat && !spaceChar c

def pathChar (c : Char) : Bool :=
  unreserved c || ":@&=+$,;/".toList.contains c || other c

def queryChar (c : Char) : Bool :=
  unreserved c || ";/?:@&=+$,[]".toList.contains c || other c

def legal (allowed : Char → Bool) : List Char → Bool
  | [] => true
  | '%' :: a :: b :: text =>
      (JsString.hexDigit a).isSome && (JsString.hexDigit b).isSome &&
        legal allowed text
  | c :: text => allowed c && legal allowed text

theorem legal_eq_all (allowed : Char → Bool) {text : List Char}
    (h : '%' ∉ text) : legal allowed text = text.all allowed := by
  induction text with
  | nil => rfl
  | cons c text ih =>
      rw [List.mem_cons, not_or] at h
      rw [legal.eq_3 _ _ _ fun _ _ _ heq => absurd heq (Ne.symm h.1),
        ih h.2, List.all_cons]

/-! ## Parts -/

def inPath (c : Char) : Bool := c ≠ '?' && c ≠ '#'

def inAuthority (c : Char) : Bool := c ≠ '/' && inPath c

def hierarchical (scheme authority text : List Char) : Option Uri :=
  let path := text.takeWhile inPath
  let (query, rest) :=
    match text.dropWhile inPath with
    | '?' :: rest =>
        (some (rest.takeWhile (· ≠ '#')), rest.dropWhile (· ≠ '#'))
    | rest => (none, rest)
  let fragment :=
    match rest with
    | '#' :: fragment => some fragment
    | _ => none
  if legal pathChar path && query.all (legal queryChar) &&
      fragment.all (legal queryChar) then
    some ⟨scheme, authority, path, query, fragment⟩
  else none

/-- The server to connect to is part of the text. -/
def parse (text : List Char) : Option Uri :=
  let scheme := text.takeWhile (· ≠ ':')
  match text.dropWhile (· ≠ ':') with
  | ':' :: '/' :: '/' :: text =>
      let authority := text.takeWhile inAuthority
      if authority = [] then none
      else hierarchical scheme authority (text.dropWhile inAuthority)
  | _ => none

/-! ## What the parts are -/

theorem takeWhile_append_stop {p : Char → Bool} {stop : Char}
    (hstop : p stop = false) (front tail : List Char) :
    (front ++ stop :: tail).takeWhile p = front.takeWhile p := by
  induction front with
  | nil => simp [hstop]
  | cons c front ih => simp only [List.cons_append, List.takeWhile_cons, ih]

theorem hierarchical_path {scheme authority text : List Char} {uri : Uri}
    (h : hierarchical scheme authority text = some uri) :
    uri.path = text.takeWhile inPath := by
  unfold hierarchical at h
  simp only [Option.ite_none_right_eq_some] at h
  rw [← Option.some.inj h.2]

theorem hierarchical_query (scheme authority : List Char) {path : List Char}
    (hpath : path.all inPath) (text : List Char) :
    hierarchical scheme authority (path ++ '?' :: text) =
      let query := text.takeWhile (· ≠ '#')
      let fragment :=
        match text.dropWhile (· ≠ '#') with
        | '#' :: fragment => some fragment
        | _ => none
      if legal pathChar path && legal queryChar query &&
          fragment.all (legal queryChar) then
        some ⟨scheme, authority, path, some query, fragment⟩
      else none := by
  have hall := List.all_eq_true.mp hpath
  unfold hierarchical
  rw [List.takeWhile_append_of_pos hall, List.dropWhile_append_of_pos hall]
  simp [inPath]

theorem of_hierarchical_query {scheme authority path text : List Char}
    (hpath : path.all inPath) {uri : Uri}
    (h : hierarchical scheme authority (path ++ '?' :: text) = some uri) :
    uri.query = some (text.takeWhile (· ≠ '#')) ∧ legal pathChar path ∧
      legal queryChar (text.takeWhile (· ≠ '#')) := by
  rw [hierarchical_query _ _ hpath] at h
  simp only [Option.ite_none_right_eq_some, Bool.and_eq_true,
    Option.some.injEq] at h
  exact ⟨by rw [← h.2], h.1.1⟩

/-! ## Base URLs -/

def front (uri : Uri) : List Char :=
  uri.scheme ++ ':' :: '/' :: '/' :: uri.authority

/-- A URL without query and fragment, cut into its parts. -/
structure Base (uri : Uri) (text : List Char) : Prop where
  scheme : ':' ∉ uri.scheme
  authority : uri.authority.all inAuthority
  server : uri.authority ≠ []
  path : uri.path.all inPath
  rooted : uri.path = [] ∨ uri.path.head? = some '/'
  whole : text = uri.front ++ uri.path

theorem head_dropWhile {p : Char → Bool} {text : List Char} {c : Char}
    {rest : List Char} (h : text.dropWhile p = c :: rest) : p c = false := by
  have hhead := List.head?_dropWhile_not p text
  rw [h] at hhead
  simpa using hhead

theorem takeWhile_of_dropWhile_nil {p : Char → Bool} {text : List Char}
    (h : text.dropWhile p = []) : text.takeWhile p = text := by
  have hsplit := List.takeWhile_append_dropWhile (p := p) (l := text)
  rwa [h, List.append_nil] at hsplit

theorem hierarchical_bare {scheme authority text : List Char} {uri : Uri}
    (h : hierarchical scheme authority text = some uri)
    (hquery : uri.query = none) (hfragment : uri.fragment = none) :
    uri = ⟨scheme, authority, text, none, none⟩ ∧ text.all inPath := by
  unfold hierarchical at h
  cases hrest : text.dropWhile inPath with
  | nil =>
      have hwhole := takeWhile_of_dropWhile_nil hrest
      rw [hrest, hwhole] at h
      simp only [Option.ite_none_right_eq_some, Option.some.injEq] at h
      refine ⟨h.2.symm, ?_⟩
      rw [← hwhole]
      exact List.all_takeWhile
  | cons c rest =>
      have hc : c = '?' ∨ c = '#' := by
        have hstop := head_dropWhile hrest
        simp only [inPath, Bool.and_eq_false_iff, decide_eq_false_iff_not,
          ne_eq, not_not] at hstop
        exact hstop
      rw [hrest] at h
      cases hc with
      | inl hc =>
          subst hc
          simp only [Option.ite_none_right_eq_some, Option.some.injEq] at h
          rw [← h.2] at hquery
          simp at hquery
      | inr hc =>
          subst hc
          simp only [Option.ite_none_right_eq_some, Option.some.injEq] at h
          rw [← h.2] at hfragment
          simp at hfragment

theorem base_of_parse {text : List Char} {uri : Uri}
    (h : parse text = some uri) (hquery : uri.query = none)
    (hfragment : uri.fragment = none) : Base uri text := by
  have hscheme := List.takeWhile_append_dropWhile
    (p := fun c => decide (c ≠ ':')) (l := text)
  unfold parse at h
  split at h
  · rename_i rest hrest
    simp only [Option.ite_none_left_eq_some] at h
    obtain ⟨hserver, h⟩ := h
    obtain ⟨rfl, hpath⟩ := hierarchical_bare h hquery hfragment
    have hsplit := List.takeWhile_append_dropWhile
      (p := inAuthority) (l := rest)
    constructor
    · intro hmem
      simpa using List.mem_takeWhile_imp hmem
    · exact List.all_takeWhile
    · exact hserver
    · exact hpath
    · simp only
      cases hrooted : rest.dropWhile inAuthority with
      | nil => exact Or.inl rfl
      | cons c tail =>
          -- neither `?` nor `#`, so the authority ends at a slash
          rw [hrooted, List.all_cons, Bool.and_eq_true] at hpath
          have hstop := head_dropWhile hrooted
          simp only [inAuthority, hpath.1, Bool.and_true,
            decide_eq_false_iff_not, ne_eq, not_not] at hstop
          exact Or.inr (congrArg some hstop)
    · rw [front, List.append_assoc, List.cons_append, List.cons_append,
        List.cons_append, hsplit, ← hrest, hscheme]
  · cases h

theorem parse_front {uri : Uri} {text : List Char} (base : Base uri text)
    (rest : List Char) :
    parse (uri.front ++ '/' :: rest) =
      hierarchical uri.scheme uri.authority ('/' :: rest) := by
  have hscheme : ∀ c ∈ uri.scheme, decide (c ≠ ':') = true := by
    intro c hc
    exact decide_eq_true fun heq => base.scheme (heq ▸ hc)
  have hauthority := List.all_eq_true.mp base.authority
  unfold parse front
  rw [List.append_assoc, List.takeWhile_append_of_pos hscheme,
    List.dropWhile_append_of_pos hscheme]
  simp only [List.cons_append, ne_eq, not_true, decide_false,
    Bool.false_eq_true, not_false_eq_true, List.takeWhile_cons_of_neg,
    List.dropWhile_cons_of_neg, List.append_nil]
  rw [List.takeWhile_append_of_pos hauthority,
    List.dropWhile_append_of_pos hauthority]
  simp [inAuthority, base.server]

end Uri

end WebIm.Foundation
