import WebIm.Foundation.Outcome
import WebIm.Haproxy.MqttParser

/-!
# What the parser of mqtt.lua accepts

A refusal says why, and an accepted packet has every field its flags announce.
The announced length makes the accepted packets a code without prefixes: of all
that arrives on a connection, at most one beginning is accepted.
-/

namespace WebIm.Haproxy

open WebIm.Foundation
open LuaString (hex column)

/-! ## The parts of the parser, on any text -/

/-- An early exit with a packet carries an error and keeps `inv`. -/
def Refused (inv : Pkt → Prop) : Exit → Prop
  | .returned pkt => pkt.error = true ∧ pkt.errormessage ≠ "" ∧ inv pkt
  | .failed _ => True

theorem refused {inv : Pkt → Prop} {pkt : Pkt} {message : String}
    (hmessage : message ≠ "") (hinv : inv (pkt.refuse message)) :
    Refused inv (.returned (pkt.refuse message)) :=
  ⟨rfl, hmessage, hinv⟩

section Parts

variable {inv : Pkt → Prop} {r : Reading}

theorem ends_failing {α : Type} (program : Except LuaError α) :
    Ends (failing program) (fun value => program = .ok value) (Refused inv) := by
  cases program with
  | error e => exact trivial
  | ok value => exact rfl

theorem ends_room (len size : Int) (hinv : ∀ message, inv (r.pkt.refuse message)) :
    Ends (r.room len size) (fun _ => True) (Refused inv) := by
  apply Ends.ite
  · intro _
    exact refused (by decide) (hinv _)
  · intro _
    exact trivial

theorem ends_advance (len size : Int)
    (hinv : ∀ message, inv (r.pkt.refuse message)) :
    Ends (r.advance len size) (fun next => next.pkt = r.pkt) (Refused inv) :=
  (ends_room len size hinv).bind fun _ _ => Ends.ok rfl

theorem ends_field (buffer : ByteString) {store : Pkt → ByteString → Pkt}
    (hinv : ∀ str message, inv ((store r.pkt str).refuse message)) :
    Ends (field buffer store r) (fun next => ∃ str, next.pkt = store r.pkt str)
      (Refused inv) := by
  apply (ends_failing _).bind
  rintro ⟨str, len⟩ _
  apply (ends_advance len _ fun message => hinv str message).mono
  intro next hnext
  exact ⟨str, hnext⟩

theorem ends_skip (buffer : ByteString)
    (hinv : ∀ message, inv (r.pkt.refuse message)) :
    Ends (skip buffer r) (fun next => next.pkt = r.pkt) (Refused inv) := by
  apply (ends_failing _).bind
  intro msb _
  apply (ends_failing _).bind
  intro lsb _
  exact ends_advance _ _ hinv

end Parts

def Pkt.header (pkt : Pkt) :
    Option Int × Option ByteString × Option Int × Option Flag × Option Int ×
      Option ByteString :=
  (pkt.type, pkt.protocolname, pkt.protocollevel, pkt.flag, pkt.keepalive,
    pkt.clientid)

section Optional

variable (buffer : ByteString) (r : Reading)

theorem ends_will :
    Ends (will buffer r) (fun next => next.pkt = r.pkt)
      (Refused fun pkt => pkt.header = r.pkt.header) := by
  apply Ends.ite
  · intro _
    apply (ends_skip buffer fun _ => rfl).bind
    intro middle hmiddle
    rw [← hmiddle]
    exact ends_skip buffer fun _ => rfl
  · intro _
    exact Ends.ok rfl

theorem ends_whenFlagged (flagged : Flag → Bool) (get : Pkt → Option ByteString)
    (set : Pkt → Option ByteString → Pkt)
    (hget : ∀ pkt str, get (set pkt str) = str)
    (hfree : r.pkt = set r.pkt none)
    (hheader : ∀ pkt str, (set pkt str).header = pkt.header) :
    Ends (whenFlagged flagged (field buffer fun pkt str => set pkt (some str)) r)
      (fun next => next.pkt = set r.pkt (get next.pkt) ∧
        (get next.pkt).isSome = r.pkt.flag.any flagged)
      (Refused fun pkt => pkt.header = r.pkt.header) := by
  apply Ends.ite
  · intro hflagged
    apply (ends_field buffer fun str _ => hheader r.pkt (some str)).mono
    rintro next ⟨str, hnext⟩
    rw [hnext, hget, hflagged]
    exact ⟨rfl, rfl⟩
  · intro hflagged
    have hnone : get r.pkt = none := by rw [hfree, hget]
    apply Ends.ok
    rw [hnone]
    exact ⟨hfree, by simpa using hflagged⟩

theorem ends_optionalFields (husername : r.pkt.username = none)
    (hpassword : r.pkt.password = none) :
    Ends (optionalFields buffer r)
      (fun next => next.pkt =
          { r.pkt with
            username := next.pkt.username, password := next.pkt.password } ∧
        next.pkt.username.isSome = r.pkt.flag.any Flag.username ∧
        next.pkt.password.isSome = r.pkt.flag.any Flag.password)
      (Refused fun pkt => pkt.header = r.pkt.header) := by
  apply (ends_will buffer r).bind
  intro behind hbehind
  rw [← hbehind] at husername hpassword ⊢
  apply (ends_whenFlagged buffer behind Flag.username Pkt.username
    (fun pkt str => { pkt with username := str }) (fun _ _ => rfl)
    (by rw [← husername]) fun _ _ => rfl).bind
  rintro named ⟨hnamed, husername⟩
  have hheader : behind.pkt.header = named.pkt.header := by
    rw [hnamed]
    rfl
  have hfree : named.pkt.password = none := by
    rw [hnamed]
    exact hpassword
  rw [hheader]
  apply (ends_whenFlagged buffer named Flag.password Pkt.password
    (fun pkt str => { pkt with password := str }) (fun _ _ => rfl)
    (by rw [← hfree]) fun _ _ => rfl).mono
  rintro last ⟨hlast, hpassword⟩
  have hflag : named.pkt.flag = behind.pkt.flag := by rw [hnamed]
  have hkept : last.pkt.username = named.pkt.username := by rw [hlast]
  rw [hflag] at hpassword
  rw [hkept]
  refine ⟨?_, husername, hpassword⟩
  rw [hlast, hnamed]

end Optional

def connectPkt : Pkt := { emptyPkt with type := some 1 }

abbrev RefusedAny : Exit → Prop := Refused fun _ => True

theorem ends_packetType (buffer : ByteString) :
    Ends (packetType buffer) (fun r => r = ⟨connectPkt, 3⟩) RefusedAny := by
  apply (ends_failing _).bind
  intro number _
  apply Ends.ite
  · intro _
    refine Ends.error (refused ?_ trivial)
    intro hempty
    have hlength := congrArg String.length hempty
    simp at hlength
  · intro htype
    have hone : number - 15 = 1 := by simpa using htype
    rw [hone]
    exact (ends_room 2 _ fun _ => trivial).bind fun _ _ => Ends.ok rfl

theorem ends_continuation (buffer : ByteString) (pkt : Pkt)
    (remaininglength multiplier : Int) (encodedByte : Option Int) (cur : Int) :
    Ends (continuation buffer pkt remaininglength multiplier encodedByte cur)
      (fun _ => True) RefusedAny := by
  induction remaininglength, multiplier, encodedByte, cur
    using continuation.induct buffer with
  | case1 =>
      rw [continuation]
      exact trivial
  | case2 =>
      rename_i hbyte hbig
      rw [continuation, if_pos hbyte, if_pos hbig]
      exact Ends.error (refused (by decide) trivial)
  | case3 =>
      rename_i hbyte hbig hend
      rw [continuation, if_pos hbyte, if_neg hbig, if_pos hend]
      exact Ends.error (refused (by decide) trivial)
  | case4 =>
      rename_i hbyte hbig hend ih
      rw [continuation, if_pos hbyte, if_neg hbig, if_neg hend]
      exact ih
  | case5 =>
      rename_i hbyte
      rw [continuation, if_neg hbyte]
      exact trivial

theorem ends_announced (buffer : ByteString) (r : Reading) :
    Ends (announced buffer r) (fun result => result.2.pkt = r.pkt)
      RefusedAny := by
  apply (ends_advance 2 _ fun _ => trivial).bind
  intro next hnext
  cases numberAt buffer r.cur with
  | none => exact trivial
  | some byte =>
      apply Ends.ite
      · intro _
        exact (ends_continuation _ _ _ _ _ _).bind fun _ _ => Ends.ok hnext
      · intro _
        exact Ends.ok hnext

theorem ends_fixedHeader (buffer : ByteString) :
    Ends (fixedHeader buffer) (fun r => r.pkt = connectPkt) RefusedAny := by
  apply (ends_packetType buffer).bind
  rintro r rfl
  apply (ends_announced buffer _).bind
  rintro ⟨remaininglength, next⟩ hnext
  apply Ends.ite
  · intro _
    exact Ends.error (refused (by decide) trivial)
  · intro _
    exact Ends.ok hnext

theorem ends_variableHeader (buffer : ByteString) (r : Reading) :
    Ends (variableHeader buffer r)
      (fun next => ∃ name level flag number,
        next.pkt = { r.pkt with
          protocolname := some name, protocollevel := level, flag := some flag,
          keepalive := some number })
      RefusedAny := by
  apply (ends_field buffer fun _ _ => trivial).bind
  rintro named ⟨name, hname⟩
  apply (ends_advance 2 _ fun _ => trivial).bind
  intro levelled hlevel
  have hflags : Ends (flags buffer levelled)
      (fun next => ∃ flag, next.pkt = { levelled.pkt with flag := some flag })
      RefusedAny := by
    apply (ends_failing _).bind
    intro flag _
    apply (ends_advance 2 _ fun _ => trivial).mono
    intro next hnext
    exact ⟨flag, hnext⟩
  apply hflags.bind
  rintro flagged ⟨flag, hflag⟩
  apply (ends_failing _).bind
  intro msb _
  apply (ends_failing _).bind
  intro lsb _
  apply (ends_advance 4 _ fun _ => trivial).mono
  intro next hnext
  refine ⟨name, numberAt buffer named.cur, flag, msb * 256 + lsb, ?_⟩
  rw [hnext, hflag, hlevel, hname]

structure Pkt.Complete (pkt : Pkt) : Prop where
  accepted : pkt.error = false ∧ pkt.errormessage = ""
  type : pkt.type = some 1
  protocolname : pkt.protocolname.isSome
  keepalive : pkt.keepalive.isSome
  clientid : pkt.clientid.isSome
  flagged : ∃ flag, pkt.flag = some flag ∧
    pkt.username.isSome = flag.username ∧ pkt.password.isSome = flag.password

theorem ends_upToClientIdentifier (buffer : ByteString) :
    Ends (upToClientIdentifier buffer)
      (fun named => ∃ name level flag number clientId,
        named.pkt = { connectPkt with
          protocolname := some name, protocollevel := level, flag := some flag,
          keepalive := some number, clientid := some clientId })
      RefusedAny := by
  apply (ends_fixedHeader buffer).bind
  intro r hr
  apply (ends_variableHeader buffer r).bind
  rintro header ⟨name, level, flag, number, hheader⟩
  apply (ends_field buffer fun _ _ => trivial).mono
  rintro named ⟨clientId, hnamed⟩
  rw [hheader, hr] at hnamed
  exact ⟨name, level, flag, number, clientId, hnamed⟩

theorem ends_upToClientIdentifier_optional {buffer : ByteString} {named : Reading}
    (h : upToClientIdentifier buffer = .ok named) :
    Ends (optionalFields buffer named)
      (fun r => r.pkt.Complete ∧ r.pkt.header = named.pkt.header)
      (Refused fun pkt => pkt.header = named.pkt.header) := by
  obtain ⟨name, level, flag, number, clientId, hnamed⟩ :=
    (ends_upToClientIdentifier buffer).of_ok h
  have hfree : named.pkt.username = none ∧ named.pkt.password = none := by
    rw [hnamed]
    exact ⟨rfl, rfl⟩
  apply (ends_optionalFields buffer named hfree.1 hfree.2).mono
  rintro last ⟨hlast, husername, hpassword⟩
  have hflag : named.pkt.flag = some flag := by rw [hnamed]
  rw [hflag, Option.any_some] at husername hpassword
  rw [hlast]
  refine ⟨?_, rfl⟩
  rw [hnamed]
  exact ⟨⟨rfl, rfl⟩, rfl, rfl, rfl, rfl, flag, rfl, husername, hpassword⟩

theorem ends_readPacket (buffer : ByteString) :
    Ends (readPacket buffer) (fun r => r.pkt.Complete) RefusedAny := by
  have hends := ends_upToClientIdentifier buffer
  unfold readPacket
  cases hread : upToClientIdentifier buffer with
  | error exit =>
      rw [hread] at hends
      exact hends
  | ok named =>
      apply ((ends_upToClientIdentifier_optional hread).mono_exit ?_).mono
      · intro last hlast
        exact hlast.1
      · intro exit hexit
        cases exit with
        | returned pkt => exact ⟨hexit.1, hexit.2.1, trivial⟩
        | failed e => exact trivial

/--
Whatever text the parser is given, a packet it returns is either refused with
a message or a CONNECT packet with the fields that its flags announce.
-/
theorem parse_complete (buffer : ByteString) (pkt : Pkt)
    (h : parse buffer = .ok pkt) :
    pkt.error = true ∧ pkt.errormessage ≠ "" ∨ pkt.Complete := by
  have hends := ends_readPacket buffer
  unfold parse at h
  cases hread : readPacket buffer with
  | ok r =>
      rw [hread] at hends h
      rw [← Except.ok.inj h]
      exact .inr hends
  | error exit =>
      rw [hread] at hends h
      cases exit with
      | returned returned =>
          rw [← Except.ok.inj h]
          exact .inl ⟨hends.1, hends.2.1⟩
      | failed e => cases h

def namelessPkt : Pkt :=
  { connectPkt with
    protocolname := some [], protocollevel := some 4
    flag := some ⟨false, false, false, false, false, true⟩
    keepalive := some 60, clientid := some [] }

theorem parse_complete_nameless : namelessPkt.Complete := by
  have h := parse_complete (hex [16, 8, 0, 0, 4, 2, 0, 60, 0, 0]) namelessPkt
    (by decide +kernel)
  cases h with
  | inl hrefused => cases hrefused.1
  | inr hcomplete => exact hcomplete

/-! ## The announced length -/

section Length

variable {bytes : ByteString} {pkt : Pkt} {k : Nat}

theorem numberAt_append (more : ByteString) {n : Int}
    (h : numberAt (hex bytes) (column k) = some n) :
    numberAt (hex (bytes ++ more)) (column k) = some n := by
  rw [numberAt_column] at h ⊢
  cases hbyte : bytes[k]? with
  | none =>
      rw [hbyte] at h
      cases h
  | some b =>
      have hinside := (List.getElem?_eq_some_iff.mp hbyte).1
      rw [List.getElem?_append_left hinside, ← h]

theorem continuation_append (more : ByteString) {result : Int × Int}
    {remaininglength multiplier : Int} {encodedByte : Option Int} {cur : Int}
    (hcur : ∃ k, cur = column k)
    (h : continuation (hex bytes) pkt remaininglength multiplier encodedByte
      cur = .ok result) :
    continuation (hex (bytes ++ more)) pkt remaininglength multiplier
      encodedByte cur = .ok result := by
  induction remaininglength, multiplier, encodedByte, cur
    using continuation.induct (hex bytes) with
  | case1 =>
      rw [continuation] at h
      cases h
  | case2 =>
      rename_i hbyte hbig
      rw [continuation, if_pos hbyte, if_pos hbig] at h
      cases h
  | case3 =>
      rename_i hbyte hbig hend
      rw [continuation, if_pos hbyte, if_neg hbig, if_pos hend] at h
      cases h
  | case4 =>
      rename_i remaininglength multiplier cur byte hbyte hbig hend ih
      obtain ⟨k, rfl⟩ := hcur
      rw [continuation, if_pos hbyte, if_neg hbig, if_neg hend] at h
      rw [LuaString.column_add_two] at h ih
      cases hnext : numberAt (hex bytes) (column (k + 1)) with
      | none =>
          rw [hnext, continuation] at h
          cases h
      | some n =>
          rw [continuation, if_pos hbyte, if_neg hbig, if_neg ?_,
            LuaString.column_add_two, numberAt_append more hnext, ← hnext]
          · exact ih ⟨k + 1, rfl⟩ h
          · rw [LuaString.length_hex] at hend ⊢
            rw [List.length_append]
            omega
  | case5 =>
      rename_i hbyte
      rw [continuation, if_neg hbyte] at h ⊢
      exact h

theorem announced_of_drop {b : UInt8} {rest : ByteString}
    (hdrop : bytes.drop k = b :: rest) :
    announced (hex bytes) ⟨pkt, column k⟩ =
      if 128 ≤ b.toNat then
        (continuation (hex bytes) pkt 0 1 (some b.toNat) (column (k + 1))).map
          fun result => (result.1, ⟨pkt, result.2⟩)
      else .ok ((b.toNat : Int), ⟨pkt, column (k + 1)⟩) := by
  have hlength := length_of_drop hdrop
  unfold announced
  simp only [numberAt_of_drop hdrop]
  rw [advance_column pkt 1 (by omega), if_pos (by omega)]
  simp only [bind, Except.bind]
  split
  · rw [if_pos (by omega)]
    cases continuation (hex bytes) pkt 0 1 (some b.toNat) (column (k + 1)) with
    | error e => rfl
    | ok result => rfl
  · rw [if_neg (by omega)]
    simp only [pure, Except.pure, Int.mul_one, Int.zero_add]

theorem announced_end (hend : bytes.length ≤ k) :
    announced (hex bytes) ⟨pkt, column k⟩ =
      .error (.returned (pkt.refuse "Error when parsing the buffer")) := by
  unfold announced
  simp only
  rw [advance_column pkt 1 (by omega), if_neg (by omega)]
  rfl

theorem announced_append (more : ByteString) {result : Int × Reading}
    (h : announced (hex bytes) ⟨pkt, column k⟩ = .ok result) :
    announced (hex (bytes ++ more)) ⟨pkt, column k⟩ = .ok result := by
  cases hdrop : bytes.drop k with
  | nil =>
      rw [announced_end (List.drop_eq_nil_iff.mp hdrop)] at h
      cases h
  | cons b rest =>
      have hlength := length_of_drop hdrop
      have hmore : (bytes ++ more).drop k = b :: (rest ++ more) := by
        rw [List.drop_append_of_le_length (by omega), hdrop]
        rfl
      rw [announced_of_drop hdrop] at h
      rw [announced_of_drop hmore]
      split at h
      · rename_i hlarge
        rw [if_pos hlarge]
        cases hread : continuation (hex bytes) pkt 0 1 (some (b.toNat : Int))
          (column (k + 1)) with
        | error e =>
            rw [hread] at h
            cases h
        | ok value =>
            rw [hread] at h
            rw [continuation_append more ⟨k + 1, rfl⟩ hread]
            exact h
      · rename_i hsmall
        rw [if_neg hsmall]
        exact h

theorem packetType_cons (b : UInt8) (rest : ByteString) :
    packetType (hex (b :: rest)) =
      if b.toNat = 16 then .ok ⟨connectPkt, column 1⟩
      else .error (.returned
        ({ emptyPkt with type := some (b.toNat - 15) }.refuse
          ("Wrong packet type: " ++ toString ((b.toNat : Int) - 15)))) := by
  have hnumber : numberAt (hex (b :: rest)) 1 = some (b.toNat : Int) :=
    numberAt_of_drop (k := 0) rfl
  unfold packetType
  rw [hnumber]
  simp only [operand, failing, bind, Except.bind]
  by_cases htype : b.toNat = 16
  · have hone : (b.toNat : Int) - 15 = 1 := by omega
    rw [if_pos htype, hone, if_neg (by simp)]
    have hadvance : Reading.advance ⟨connectPkt, column 0⟩ 2
        (hex (b :: rest)).length = _ :=
      advance_column connectPkt 1 rfl
    rw [if_pos (by simp)] at hadvance
    exact hadvance
  · rw [if_neg htype, if_pos (by omega)]

theorem fixedHeader_eq_ok {r : Reading} (h : fixedHeader (hex bytes) = .ok r) :
    bytes[0]? = some 16 ∧ ∃ remaininglength,
      announced (hex bytes) ⟨connectPkt, column 1⟩ =
        .ok (remaininglength, r) ∧
      remaininglength * 2 + r.cur - 1 = 2 * bytes.length := by
  cases bytes with
  | nil => cases h
  | cons b rest =>
      unfold fixedHeader at h
      rw [packetType_cons] at h
      split at h
      · rename_i htype
        obtain ⟨start, hstart, h⟩ := bind_eq_ok.mp h
        cases hstart
        obtain ⟨⟨remaininglength, next⟩, hannounced, hsized⟩ := bind_eq_ok.mp h
        unfold sized at hsized
        simp only [ne_eq, ite_not] at hsized
        split at hsized
        · rename_i hsize
          rw [← Except.ok.inj hsized]
          refine ⟨?_, remaininglength, hannounced, ?_⟩
          · rw [List.getElem?_cons_zero, ← UInt8.ofNat_toNat (x := b), htype]
            rfl
          · rw [LuaString.length_hex] at hsize
            omega
        · cases hsized
      · cases h

theorem fixedHeader_append {more : ByteString} {r next : Reading}
    (h : fixedHeader (hex bytes) = .ok r)
    (hmore : fixedHeader (hex (bytes ++ more)) = .ok next) : more = [] := by
  obtain ⟨-, m, hannounced, hsize⟩ := fixedHeader_eq_ok h
  obtain ⟨-, n, hannounced', hsize'⟩ := fixedHeader_eq_ok hmore
  rw [announced_append more hannounced] at hannounced'
  cases hannounced'
  rw [List.length_append] at hsize'
  apply List.eq_nil_of_length_eq_zero
  omega

end Length

end WebIm.Haproxy
