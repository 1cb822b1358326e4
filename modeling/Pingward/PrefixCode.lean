import Mathlib.Algebra.Ring.Nat
import Mathlib.Data.List.Infix

/-! Reading a sequence of units in a prefix code when not all of it was written in the code. What cannot be read is cut into
pieces, each as long as it could still have become a code word; there is one way to do so. -/

/-- No code word begins with another one, and none is empty. -/
structure PrefixCode (σ α : Type*) where
  encode : σ → List α
  encode_ne_nil (s : σ) : encode s ≠ []
  eq_of_starts {s t : σ} : encode s <+: encode t → s = t

namespace PrefixCode

variable {σ α : Type*}

inductive Piece (σ α : Type*) where
  | whole (symbol : σ)
  | broken (units : List α)

/-- A mark stands for every broken piece. -/
def Piece.symbol (mark : σ) : Piece σ α → σ
  | .whole symbol => symbol
  | .broken _ => mark

variable (code : PrefixCode σ α)

def encodeText (text : List σ) : List α := text.flatMap code.encode

/-- A code word can begin so. -/
def Begins (units : List α) : Prop := ∃ s, units <+: code.encode s

/-- A piece in front of a rest that is not a code word: it is what a code word can begin with, up to where the next unit rules
every code word out, or a single unit. -/
structure Broken (units rest : List α) : Prop where
  nonempty : units ≠ []
  begins : units.length = 1 ∨ code.Begins units
  incomplete (s : σ) : ¬ code.encode s <+: units
  stuck : ∀ next ∈ rest.head?, ¬ code.Begins (units ++ [next])

inductive Reads : List α → List (Piece σ α) → Prop where
  | nil : Reads [] []
  | whole (s : σ) {rest : List α} {pieces : List (Piece σ α)} (hrest : Reads rest pieces) :
      Reads (code.encode s ++ rest) (.whole s :: pieces)
  | broken {units rest : List α} {pieces : List (Piece σ α)} (hbroken : code.Broken units rest) (hrest : Reads rest pieces) :
      Reads (units ++ rest) (.broken units :: pieces)

variable {code}

theorem Begins.of_shorter {units longer : List α} (hbegins : code.Begins longer) (hstarts : units <+: longer) :
    code.Begins units := by
  obtain ⟨s, hs⟩ := hbegins
  exact ⟨s, hstarts.trans hs⟩

/-! ### One reading -/

/-- Of two pieces in front of the same units, the first is the whole of the second or is followed by one more unit of it. -/
theorem eq_or_next {units units' rest rest' : List α} (heq : units ++ rest = units' ++ rest')
    (hle : units.length ≤ units'.length) : units = units' ∨ ∃ next ∈ rest.head?, units ++ [next] <+: units' := by
  obtain ⟨more, rfl⟩ : units <+: units' :=
    List.prefix_of_prefix_length_le (List.prefix_append units rest) (heq ▸ List.prefix_append units' rest') hle
  cases more with
  | nil => exact .inl (List.append_nil units).symm
  | cons next more =>
      rw [List.append_assoc, List.append_cancel_left_eq] at heq
      refine .inr ⟨next, by rw [heq]; rfl, more, ?_⟩
      rw [List.append_assoc]
      rfl

theorem Broken.ne_whole {units rest rest' : List α} (hbroken : code.Broken units rest) (s : σ) :
    units ++ rest ≠ code.encode s ++ rest' := by
  intro heq
  rcases le_total units.length (code.encode s).length with hle | hle
  · rcases eq_or_next heq hle with hsame | ⟨next, hnext, hstarts⟩
    · exact hbroken.incomplete s (hsame ▸ List.prefix_rfl)
    · exact hbroken.stuck next hnext ⟨s, hstarts⟩
  · apply hbroken.incomplete s
    exact List.prefix_of_prefix_length_le (List.prefix_append _ rest') (heq ▸ List.prefix_append units rest) hle

theorem Broken.le_of_eq {units units' rest rest' : List α} (hbroken : code.Broken units rest)
    (hbroken' : code.Broken units' rest') (heq : units ++ rest = units' ++ rest') : units'.length ≤ units.length := by
  by_contra hlonger
  rcases eq_or_next heq (by omega) with hsame | ⟨next, hnext, hstarts⟩
  · rw [hsame] at hlonger
    exact hlonger (le_refl _)
  · have hpos : 0 < units.length := List.length_pos_iff.mpr hbroken.nonempty
    rcases hbroken'.begins with hone | hbegins
    · omega
    · exact hbroken.stuck next hnext (hbegins.of_shorter hstarts)

/-- **There is one reading.** -/
theorem Reads.unique {units : List α} {pieces pieces' : List (Piece σ α)} (hreads : code.Reads units pieces)
    (hreads' : code.Reads units pieces') : pieces = pieces' := by
  induction hreads generalizing pieces' with
  | nil =>
      generalize hnil : ([] : List α) = units at hreads'
      cases hreads' with
      | nil => rfl
      | whole s _ => exact absurd (List.append_eq_nil_iff.mp hnil.symm).1 (code.encode_ne_nil s)
      | broken hbroken _ => exact absurd (List.append_eq_nil_iff.mp hnil.symm).1 hbroken.nonempty
  | @whole s rest pieces _ ih =>
      generalize heq : code.encode s ++ rest = units at hreads'
      cases hreads' with
      | nil => exact absurd (List.append_eq_nil_iff.mp heq).1 (code.encode_ne_nil s)
      | @whole t rest' pieces' hrest' =>
          have hst : s = t := by
            rcases List.prefix_or_prefix_of_prefix (List.prefix_append (code.encode s) rest)
              (heq ▸ List.prefix_append (code.encode t) rest') with hstarts | hstarts
            · exact code.eq_of_starts hstarts
            · exact (code.eq_of_starts hstarts).symm
          subst hst
          rw [ih (List.append_cancel_left heq ▸ hrest')]
      | broken hbroken _ => exact absurd heq.symm (hbroken.ne_whole s)
  | @broken units rest pieces hbroken _ ih =>
      generalize heq : units ++ rest = all at hreads'
      cases hreads' with
      | nil => exact absurd (List.append_eq_nil_iff.mp heq).1 hbroken.nonempty
      | whole t _ => exact absurd heq (hbroken.ne_whole t)
      | @broken units' rest' pieces' hbroken' hrest' =>
          obtain ⟨rfl, rfl⟩ := List.append_inj heq
            (le_antisymm (hbroken'.le_of_eq hbroken heq.symm) (hbroken.le_of_eq hbroken' heq))
          rw [ih hrest']

/-! ### What was cut off -/

/-- The beginning of a code word is one broken piece. -/
theorem broken_part {part later : List α} {s : σ} (hs : code.encode s = part ++ later) (hpart : part ≠ [])
    (hlater : later ≠ []) : code.Broken part [] where
  nonempty := hpart
  begins := .inr ⟨s, hs ▸ List.prefix_append part later⟩
  incomplete := by
    intro t hstarts
    have hts : t = s := code.eq_of_starts (hstarts.trans (hs ▸ List.prefix_append part later))
    rw [hts, hs] at hstarts
    have hlength := hstarts.length_le
    have hpos := List.length_pos_iff.mpr hlater
    rw [List.length_append] at hlength
    omega
  stuck := by simp

/-- A cut of a written text: behind all of it, or in a code word, of which a part may stand in front of the cut. -/
theorem cut_encodeText (text : List σ) (n : Nat) : (code.encodeText text).length ≤ n ∨
    ∃ before s after part later, text = before ++ s :: after ∧ code.encode s = part ++ later ∧ later ≠ [] ∧
      (code.encodeText before ++ part).length = n := by
  induction text generalizing n with
  | nil => exact .inl (Nat.zero_le n)
  | cons s text ih =>
      rcases Nat.lt_or_ge n (code.encode s).length with hin | hbehind
      · refine .inr ⟨[], s, text, (code.encode s).take n, (code.encode s).drop n, rfl,
          (List.take_append_drop n _).symm, ?_, ?_⟩
        · intro hnil
          have := List.drop_eq_nil_iff.mp hnil
          omega
        · rw [encodeText, List.flatMap_nil, List.nil_append, List.length_take]
          omega
      · rcases ih (n - (code.encode s).length) with hall | ⟨before, t, after, part, later, rfl, ht, hlater, hn⟩
        · left
          rw [encodeText, List.flatMap_cons, List.length_append]
          rw [encodeText] at hall
          omega
        · refine .inr ⟨s :: before, t, after, part, later, rfl, ht, hlater, ?_⟩
          rw [encodeText, List.flatMap_cons, List.append_assoc, List.length_append]
          rw [encodeText] at hn
          omega

/-! ### How long it gets -/

/-- What a mark in place of a broken piece adds. -/
def growth (code : PrefixCode σ α) (mark : σ) : Piece σ α → Nat
  | .whole _ => 0
  | .broken units => (code.encode mark).length - units.length

theorem Broken.length_le {units rest : List α} (hbroken : code.Broken units rest) {bound : Nat} (hbound : 1 ≤ bound)
    (hcode : ∀ s, (code.encode s).length ≤ bound + 1) : units.length ≤ bound := by
  rcases hbroken.begins with hone | ⟨s, later, hs⟩
  · omega
  · have hlater : later ≠ [] := by
      intro hnil
      rw [hnil, List.append_nil] at hs
      exact hbroken.incomplete s (hs ▸ List.prefix_rfl)
    have hlength := hcode s
    have hpos := List.length_pos_iff.mpr hlater
    rw [← hs, List.length_append] at hlength
    omega

/-- **The length with marks.** No code word is longer than the mark by more than one unit. -/
theorem Reads.length_encodeText {mark : σ} (hmark : ∀ s, (code.encode s).length ≤ (code.encode mark).length + 1)
    {units : List α} {pieces : List (Piece σ α)} (hreads : code.Reads units pieces) :
    (code.encodeText (pieces.map (Piece.symbol mark))).length = units.length + (pieces.map (code.growth mark)).sum := by
  have hpos : 1 ≤ (code.encode mark).length := List.length_pos_iff.mpr (code.encode_ne_nil mark)
  induction hreads with
  | nil => rfl
  | whole s _ ih =>
      rw [encodeText] at ih
      rw [encodeText, List.map_cons, List.flatMap_cons, List.length_append, ih, List.length_append, List.map_cons,
        List.sum_cons, growth, Piece.symbol]
      omega
  | @broken units _ _ hbroken _ ih =>
      have hle := hbroken.length_le hpos hmark
      rw [encodeText] at ih
      rw [encodeText, List.map_cons, List.flatMap_cons, List.length_append, ih, List.length_append, List.map_cons,
        List.sum_cons, growth, Piece.symbol]
      omega

end PrefixCode
