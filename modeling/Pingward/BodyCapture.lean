import Pingward.LossyPieces
import Pingward.RowOperation

/-! The body that is stored with a ping: the first octets of what was sent, decoded with replacement characters. It can be
longer than what was kept, and a character at the cut can be lost. -/

open HexText (utf8)
open PrefixCode

namespace Pingward

/-! ### What a capture owes -/

/-- At most the bound is stored, and of a text only its beginning. -/
structure Captured (body : List UInt8) (stored : String) : Prop where
  bounded : (utf8 stored).length ≤ maxBody
  faithful (text : String) : body = utf8 text → stored.toList <+: text.toList

/-- The store keeps what the request hands on. -/
theorem body_of_insertPing {db : Db} {ping : PingRequest} {check : Check} {now : Instant} {row : Ping}
    (hrow : row ∈ (exec (.insertPing (ping.newPing check) now) db).2.pings.rows) :
    row ∈ db.pings.rows ∨ row.body = (ping.newPing check).body := by
  simp only [exec, Db.insertPing] at hrow
  split at hrow
  · exact .inl hrow
  · exact KeyedTable.AutoTable.forall_insert db.pings
      (P := fun row => row ∈ db.pings.rows ∨ row.body = (ping.newPing check).body) (fun _ => Or.inl) _ (fun _ => rfl)
      (.inr rfl) row hrow

/-- Room for some octets when each broken piece of them takes as much as a replacement character. -/
def Fits (octets : List UInt8) : Prop :=
  ∃ pieces, utf8Code.Reads octets pieces ∧
    octets.length + (pieces.map (utf8Code.growth replacementChar)).sum ≤ maxBody

/-- The cut is in front of an octet that continues a character. -/
def CutsCharacter (body : List UInt8) : Prop := ∃ octet ∈ body[maxBody]?, isContinuation octet = true

theorem utf8_ofList (text : List Char) : utf8 (String.ofList text) = utf8Code.encodeText text := by
  rw [utf8, String.toList_ofList]
  rfl

/-! ### The bound -/

theorem length_encode_le (s : Char) : (utf8Code.encode s).length ≤ (utf8Code.encode replacementChar).length + 1 := by
  have hmark : (utf8Code.encode replacementChar).length = 3 := by decide
  rw [hmark]
  have hform : OctetForm (utf8Code.encode s) s := octetForm_encode s
  generalize utf8Code.encode s = octets at hform
  cases hform <;> simp

theorem bounded_iff (body : List UInt8) : (utf8 (truncate body)).length ≤ maxBody ↔ Fits (body.take maxBody) := by
  obtain ⟨pieces, hreads, htext⟩ := readsAs_fromUtf8Lossy (body.take maxBody)
  have hlength : (utf8 (truncate body)).length =
      (body.take maxBody).length + (pieces.map (utf8Code.growth replacementChar)).sum := by
    rw [← hreads.length_encodeText length_encode_le, ← htext, truncate, utf8_ofList]
  rw [hlength]
  constructor
  · exact fun hle => ⟨pieces, hreads, hle⟩
  · rintro ⟨pieces', hreads', hle⟩
    rwa [hreads.unique hreads']

/-! ### The cut -/

theorem fromUtf8Lossy_part {s : Char} {part later : List UInt8} (hs : utf8Code.encode s = part ++ later) (hpart : part ≠ [])
    (hlater : later ≠ []) : fromUtf8Lossy part = [replacementChar] := by
  obtain ⟨pieces, hreads, htext⟩ := readsAs_fromUtf8Lossy part
  have hbroken : utf8Code.Reads (part ++ []) [.broken part] := .broken (broken_part hs hpart hlater) .nil
  rw [List.append_nil] at hbroken
  rw [htext, hreads.unique hbroken]
  rfl

/-- The octets of a character that continue it are those behind the first. -/
theorem isContinuation_encode {s : Char} {part later : List UInt8} {octet : UInt8}
    (hs : utf8Code.encode s = part ++ octet :: later) : isContinuation octet = true ↔ part ≠ [] := by
  have hform : OctetForm (part ++ octet :: later) s := encode_eq_iff.mp hs
  cases part with
  | nil =>
      refine iff_of_false ?_ (by simp)
      rw [isContinuation_iff]
      generalize hall : [] ++ octet :: later = octets at hform
      cases hform <;> obtain ⟨rfl, -⟩ := List.cons.inj hall <;> omega
  | cons a more =>
      refine iff_of_true ?_ (List.cons_ne_nil _ _)
      generalize hall : a :: more ++ octet :: later = octets at hform
      have hmem : octet ∈ octets.tail := by
        rw [← hall]
        simp
      have hsecond {a b : UInt8} (hb : isSecondByte a b = true) : isContinuation b = true :=
        isContinuation_iff.mpr (isSecondByte_iff.mp hb).1
      cases hform with
      | one _ => simp at hmem
      | two _ hb =>
          obtain rfl : octet = _ := by simpa using hmem
          exact hb
      | three _ hb hc =>
          rcases List.mem_cons.mp hmem with rfl | hmem
          · exact hsecond hb
          · obtain rfl : octet = _ := by simpa using hmem
            exact hc
      | four _ hb hc hd =>
          rcases List.mem_cons.mp hmem with rfl | hmem
          · exact hsecond hb
          · rcases List.mem_cons.mp hmem with rfl | hmem
            · exact hc
            · obtain rfl : octet = _ := by simpa using hmem
              exact hd

theorem truncate_short {text : List Char} (hshort : (utf8Code.encodeText text).length ≤ maxBody) :
    (truncate (utf8Code.encodeText text)).toList = text ∧ ¬ CutsCharacter (utf8Code.encodeText text) := by
  constructor
  · rw [truncate, String.toList_ofList, List.take_of_length_le hshort]
    exact fromUtf8Lossy_flatMap text
  · rintro ⟨octet, hoctet, -⟩
    rw [List.getElem?_eq_none hshort] at hoctet
    cases hoctet

section Cut

variable {before after : List Char} {s : Char} {part later : List UInt8}

theorem encodeText_cut (hs : utf8Code.encode s = part ++ later) : utf8Code.encodeText (before ++ s :: after) =
    (utf8Code.encodeText before ++ part) ++ (later ++ utf8Code.encodeText after) := by
  unfold encodeText
  rw [List.flatMap_append, List.flatMap_cons, hs, List.append_assoc, List.append_assoc]

/-- Of a cut text the characters in front of the cut are stored, and what is made of the part of the next. -/
theorem truncate_cut (hs : utf8Code.encode s = part ++ later)
    (hcut : (utf8Code.encodeText before ++ part).length = maxBody) :
    (truncate (utf8Code.encodeText (before ++ s :: after))).toList = before ++ fromUtf8Lossy part := by
  rw [truncate, String.toList_ofList, encodeText_cut hs, List.take_left' hcut]
  exact fromUtf8Lossy_flatMap_append before part

theorem cutsCharacter_iff (hs : utf8Code.encode s = part ++ later) (hlater : later ≠ [])
    (hcut : (utf8Code.encodeText before ++ part).length = maxBody) :
    CutsCharacter (utf8Code.encodeText (before ++ s :: after)) ↔ part ≠ [] := by
  cases later with
  | nil => exact absurd rfl hlater
  | cons octet later =>
      have hnext : (utf8Code.encodeText (before ++ s :: after))[maxBody]? = some octet := by
        rw [encodeText_cut hs, List.getElem?_append_right hcut.le, hcut, Nat.sub_self]
        rfl
      rw [← isContinuation_encode hs, CutsCharacter, hnext]
      simp

end Cut

/-- **The beginning of a text is stored** when no character is cut, and within the bound not otherwise. -/
theorem truncate_prefix_iff {text : List Char}
    (hbounded : (utf8 (truncate (utf8Code.encodeText text))).length ≤ maxBody) :
    (truncate (utf8Code.encodeText text)).toList <+: text ↔ ¬ CutsCharacter (utf8Code.encodeText text) := by
  rcases utf8Code.cut_encodeText text maxBody with hshort | ⟨before, s, after, part, later, rfl, hs, hlater, hcut⟩
  · obtain ⟨hall, hwhole⟩ := truncate_short hshort
    rw [hall]
    exact iff_of_true List.prefix_rfl hwhole
  · have hstored : (truncate (utf8Code.encodeText (before ++ s :: after))).toList = before ++ fromUtf8Lossy part :=
      truncate_cut hs hcut
    rw [cutsCharacter_iff hs hlater hcut, not_not]
    constructor
    · intro hstarts
      by_contra hpart
      have hmark := fromUtf8Lossy_part hs hpart hlater
      -- the cut character would be the mark, of which two octets at most are in front of the cut
      rw [hstored, hmark, List.prefix_append_right_inj, List.cons_prefix_cons] at hstarts
      obtain ⟨rfl, -⟩ := hstarts
      have hthree : (part ++ later).length = 3 := by
        rw [← hs]
        decide
      have hlength : (utf8 (truncate (utf8Code.encodeText (before ++ replacementChar :: after)))).length =
          (utf8Code.encodeText before).length + 3 := by
        rw [utf8, hstored, hmark, List.flatMap_append, List.length_append]
        rfl
      have hpos := List.length_pos_iff.mpr hlater
      rw [List.length_append] at hcut hthree
      omega
    · intro hpart
      rw [hstored, hpart]
      exact (List.append_nil before).symm ▸ List.prefix_append before _

/-- **A ping's body is captured** exactly when what is kept of it fits, with three octets for every broken piece, and the
cut is not in a character of a text. -/
theorem captured_iff (ping : PingRequest) (check : Check) :
    Captured ping.body (ping.newPing check).body ↔
      Fits (ping.body.take maxBody) ∧ ((∃ text, ping.body = utf8 text) → ¬ CutsCharacter ping.body) := by
  have hbody : (ping.newPing check).body = truncate ping.body := rfl
  rw [hbody, ← bounded_iff]
  constructor
  · intro hcaptured
    refine ⟨hcaptured.bounded, ?_⟩
    rintro ⟨text, htext⟩
    have hstarts := hcaptured.faithful text htext
    have hbounded := hcaptured.bounded
    rw [htext] at hstarts hbounded ⊢
    exact (truncate_prefix_iff hbounded).mp hstarts
  · rintro ⟨hbounded, hwhole⟩
    refine ⟨hbounded, fun text htext => ?_⟩
    have hcut := hwhole ⟨text, htext⟩
    rw [htext] at hbounded hcut ⊢
    exact (truncate_prefix_iff hbounded).mpr hcut

theorem fromUtf8Lossy_replicate (n : Nat) : fromUtf8Lossy (List.replicate n 0xFF) = List.replicate n replacementChar := by
  induction n with
  | zero => rfl
  | succ n ih =>
      have hbad : fromUtf8Lossy (0xFF :: List.replicate n 0xFF) =
          replacementChar :: fromUtf8Lossy (List.replicate n 0xFF) := by
        rw [fromUtf8Lossy.eq_def]
        rfl
      rw [List.replicate_succ, hbad, ih, List.replicate_succ]

theorem length_flatMap_replicate (n : Nat) (c : Char) :
    ((List.replicate n c).flatMap String.utf8EncodeChar).length = n * (String.utf8EncodeChar c).length := by
  rw [List.flatMap_replicate, List.length_flatten, List.map_replicate, List.sum_replicate_nat]

/-- What is stored of a body that is sent for a check of a minute. -/
def storedForBackup (body : List UInt8) : String :=
  ((PingRoute.success.request "u1" body none).newPing
    (NewCheck.row ⟨1, "backup", "", "u1", .period, some 60, 0, none, "UTC", none, none, none⟩ 0 1)).body

theorem storedForBackup_eq (body : List UInt8) : storedForBackup body = truncate body := rfl

/-- Octets that no text has are stored three times as long, and of a last character that goes over the bound by one octet
a mark is stored. -/
theorem captured_breaks :
    (utf8 (storedForBackup (List.replicate maxBody 0xFF))).length = 3 * maxBody ∧
      ¬ Captured (List.replicate maxBody 0xFF) (storedForBackup (List.replicate maxBody 0xFF)) ∧
      ¬ (storedForBackup (utf8 (String.ofList (List.replicate 10239 'a' ++ ['é'])))).toList <+:
        List.replicate 10239 'a' ++ ['é'] := by
  have hlength : (utf8 (storedForBackup (List.replicate maxBody 0xFF))).length = 3 * maxBody := by
    have hstored : (truncate (List.replicate maxBody 0xFF)).toList = List.replicate maxBody replacementChar := by
      rw [truncate, String.toList_ofList, List.take_replicate, Nat.min_self, fromUtf8Lossy_replicate]
    have hmark : (String.utf8EncodeChar replacementChar).length = 3 := by decide
    rw [storedForBackup_eq, utf8, hstored, length_flatMap_replicate, hmark, Nat.mul_comm]
  refine ⟨hlength, fun hcaptured => ?_, fun hstarts => ?_⟩
  · have hbounded := hcaptured.bounded
    rw [hlength] at hbounded
    exact absurd hbounded (by decide)
  · have hs : utf8Code.encode 'é' = [0xC3] ++ [0xA9] := by decide
    have hcut : (utf8Code.encodeText (List.replicate 10239 'a') ++ [0xC3]).length = maxBody := by
      have hascii : (String.utf8EncodeChar 'a').length = 1 := by decide
      rw [List.length_append, ← utf8_ofList, utf8, String.toList_ofList, length_flatMap_replicate, hascii]
      rfl
    have hmark : fromUtf8Lossy [0xC3] = [replacementChar] := fromUtf8Lossy_part hs (by simp) (by simp)
    rw [storedForBackup_eq, utf8_ofList, truncate_cut hs hcut, hmark, List.prefix_append_right_inj,
      List.cons_prefix_cons] at hstarts
    exact absurd hstarts.1 (by decide)

end Pingward
