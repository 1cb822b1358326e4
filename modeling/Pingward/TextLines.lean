import Mathlib.Data.List.Infix

/-! Sequences cut at a separator and joined with it. What was joined is cut out again exactly when no part holds the
separator. -/

namespace TextLines

variable {α : Type} {sep : α}

theorem infix_intercalate {separator part : List α} {parts : List (List α)} (hpart : part ∈ parts) :
    part <:+: separator.intercalate parts := by
  induction parts with
  | nil => exact absurd hpart List.not_mem_nil
  | cons first parts ih =>
      cases parts with
      | nil =>
          have hpart := List.mem_singleton.mp hpart
          subst hpart
          simp only [List.intercalate_singleton, List.infix_rfl]
      | cons second parts =>
          rw [List.intercalate_cons_cons]
          rcases List.mem_cons.mp hpart with rfl | hpart
          · exact (List.prefix_append part _).isInfix.trans (List.prefix_append _ _).isInfix
          · exact (ih hpart).trans (List.suffix_append _ _).isInfix

/-- A longer separator is a padding in front of the parts it leads. -/
theorem intercalate_padded (pad first : List α) (parts : List (List α)) :
    (sep :: pad).intercalate (first :: parts) = [sep].intercalate (first :: parts.map (pad ++ ·)) := by
  induction parts generalizing first with
  | nil => rw [List.map_nil, List.intercalate_singleton, List.intercalate_singleton]
  | cons second parts ih =>
      rw [List.intercalate_cons_cons, ih, List.map_cons, List.intercalate_cons_cons]
      cases parts with
      | nil => simp
      | cons third parts => simp [List.intercalate_cons_cons]

variable [BEq α] [LawfulBEq α]

theorem infix_of_mem_splitOn {s part : List α} (hpart : part ∈ s.splitOn sep) : part <:+: s := by
  have hinfix : part <:+: [sep].intercalate (s.splitOn sep) := infix_intercalate hpart
  rwa [List.intercalate_splitOn] at hinfix

/-- What stands before the first separator is of the first part. -/
theorem splitOn_append_head {front : List α} (hfront : sep ∉ front) (s : List α) :
    (front ++ s).splitOn sep = (s.splitOn sep).modifyHead (front ++ ·) := by
  induction front with
  | nil =>
      obtain ⟨part, parts, hparts⟩ := List.exists_cons_of_ne_nil (List.splitOn_ne_nil sep s)
      rw [List.nil_append, hparts]
      rfl
  | cons c front ih =>
      rw [List.mem_cons, not_or] at hfront
      obtain ⟨part, parts, hparts⟩ := List.exists_cons_of_ne_nil (List.splitOn_ne_nil sep s)
      rw [List.cons_append, List.splitOn_cons_eq_if_modifyHead, ih hfront.2, hparts,
        if_neg (by simpa using Ne.symm hfront.1)]
      rfl

theorem notMem_of_mem_splitOn {s part : List α} (hpart : part ∈ s.splitOn sep) : sep ∉ part := by
  induction s generalizing part with
  | nil =>
      rw [List.splitOn_nil, List.mem_singleton] at hpart
      rw [hpart]
      exact List.not_mem_nil
  | cons c s ih =>
      rw [List.splitOn_cons_eq_if_modifyHead] at hpart
      split at hpart
      · rcases List.mem_cons.mp hpart with rfl | hpart
        · exact List.not_mem_nil
        · exact ih hpart
      · rename_i hc
        obtain ⟨first, parts, hparts⟩ := List.exists_cons_of_ne_nil (List.splitOn_ne_nil sep s)
        rw [hparts] at hpart
        rcases List.mem_cons.mp hpart with rfl | hpart
        · rw [List.mem_cons, not_or]
          exact ⟨fun heq => hc (by simp [heq]), ih (hparts ▸ List.mem_cons_self)⟩
        · exact ih (hparts ▸ List.mem_cons_of_mem _ hpart)

/-- **Joined parts are cut out again** exactly when none of them holds the separator. -/
theorem splitOn_intercalate_iff {parts : List (List α)} (hne : parts ≠ []) :
    ([sep].intercalate parts).splitOn sep = parts ↔ ∀ part ∈ parts, sep ∉ part := by
  refine ⟨fun hsplit part hpart => ?_, fun hplain => List.splitOn_intercalate sep hplain hne⟩
  rw [← hsplit] at hpart
  exact notMem_of_mem_splitOn hpart

theorem splitOn_intercalate_padded {pad first : List α} {parts : List (List α)} (hpad : sep ∉ pad)
    (hplain : ∀ part ∈ first :: parts, sep ∉ part) :
    ((sep :: pad).intercalate (first :: parts)).splitOn sep = first :: parts.map (pad ++ ·) := by
  rw [intercalate_padded]
  refine List.splitOn_intercalate sep ?_ (List.cons_ne_nil _ _)
  intro part hpart
  rcases List.mem_cons.mp hpart with rfl | hpart
  · exact hplain _ List.mem_cons_self
  · obtain ⟨rest, hrest, rfl⟩ := List.mem_map.mp hpart
    rw [List.mem_append, not_or]
    exact ⟨hpad, hplain rest (List.mem_cons_of_mem _ hrest)⟩

end TextLines
