import Mathlib.Data.Bool.AllAny
import Mathlib.Data.List.Basic

/-! Text with tags. A text is plain if none of its characters can open or close a tag or an attribute value;
deleting the tags from a text that is put together from plain pieces and tags leaves the plain pieces. -/

namespace MarkupText

/-- The characters that delimit tags and attribute values. -/
def isMarkup (c : Char) : Bool := c = '<' || c = '>' || c = '"' || c = '\''

def IsPlain (text : List Char) : Prop := ∀ c ∈ text, isMarkup c = false

instance (text : List Char) : Decidable (IsPlain text) := List.decidableBAll _ text

theorem IsPlain.mono {text part : List Char} (hplain : IsPlain text) (hpart : part ⊆ text) : IsPlain part :=
  fun c hc => hplain c (hpart hc)

theorem IsPlain.flatMap {α : Type} {items : List α} {f : α → List Char} (hplain : ∀ item ∈ items, IsPlain (f item)) :
    IsPlain (items.flatMap f) := by
  intro c hc
  obtain ⟨item, hitem, hc⟩ := List.mem_flatMap.mp hc
  exact hplain item hitem c hc

/-! ### Deleting the tags -/

/-- Delete from an opening bracket through the next closing one; the flag says that such a tag is open. -/
def stripFrom : Bool → List Char → List Char
  | _, [] => []
  | false, c :: rest => if c = '<' then stripFrom true rest else c :: stripFrom false rest
  | true, c :: rest => if c = '>' then stripFrom false rest else stripFrom true rest

def stripTags (html : List Char) : List Char := stripFrom false html

/-- Deleting the tags from the text leaves that text, whatever follows it. -/
def Strips (html text : List Char) : Prop := ∀ rest, stripTags (html ++ rest) = text ++ stripTags rest

namespace Strips

theorem stripTags_eq {html text : List Char} (hstrips : Strips html text) : stripTags html = text := by
  have hend := hstrips []
  rwa [List.append_nil, show stripTags [] = [] from rfl, List.append_nil] at hend

theorem nil : Strips [] [] := fun _ => rfl

theorem append {html html' text text' : List Char} (hfirst : Strips html text) (hsecond : Strips html' text') :
    Strips (html ++ html') (text ++ text') := by
  intro rest
  rw [List.append_assoc, hfirst, hsecond, List.append_assoc]

/-- A plain text has no tags. -/
theorem plain {text : List Char} (hplain : IsPlain text) : Strips text text := by
  induction text with
  | nil => exact nil
  | cons c text ih =>
      intro rest
      have hc : c ≠ '<' := by
        rintro rfl
        exact absurd (hplain '<' List.mem_cons_self) (by decide)
      have hrest := ih (hplain.mono (List.subset_cons_self c text)) rest
      calc stripTags (c :: text ++ rest) = c :: stripTags (text ++ rest) := if_neg hc
        _ = c :: text ++ stripTags rest := by rw [hrest, List.cons_append]

/-- A tag, in which nothing closes it early. -/
theorem tag (body : List Char) (hbody : '>' ∉ body) : Strips ('<' :: (body ++ ['>'])) [] := by
  intro rest
  show stripFrom true (body ++ ['>'] ++ rest) = stripTags rest
  induction body with
  | nil => rfl
  | cons c body ih =>
      rw [List.mem_cons, not_or] at hbody
      exact (if_neg (Ne.symm hbody.1)).trans (ih hbody.2)

theorem flatMap {α : Type} {items : List α} {html text : α → List Char}
    (hstrips : ∀ item ∈ items, Strips (html item) (text item)) : Strips (items.flatMap html) (items.flatMap text) := by
  induction items with
  | nil => exact nil
  | cons item items ih =>
      rw [List.forall_mem_cons] at hstrips
      rw [List.flatMap_cons, List.flatMap_cons]
      exact hstrips.1.append (ih hstrips.2)

/-- Tags between the items. -/
theorem intercalate {α : Type} {items : List α} {separator : List Char} {html text : α → List Char}
    (hseparator : Strips separator []) (hstrips : ∀ item ∈ items, Strips (html item) (text item)) :
    Strips (separator.intercalate (items.map html)) (items.flatMap text) := by
  induction items with
  | nil => exact nil
  | cons item items ih =>
      rw [List.forall_mem_cons] at hstrips
      have hrest := ih hstrips.2
      rw [List.flatMap_cons]
      cases items with
      | nil => simpa using hstrips.1
      | cons next items =>
          rw [List.map_cons, List.map_cons, List.intercalate_cons_cons, ← List.map_cons]
          have hitem := hstrips.1.append hseparator
          rw [List.append_nil] at hitem
          exact hitem.append hrest

end Strips

end MarkupText
