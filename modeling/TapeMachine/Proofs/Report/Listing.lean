import Mathlib
import TapeMachine.Text.Listing

/-!
What can be read back from a text that was put together of parts. A part without a sign ends at the
first place of that sign, and a part that comes last begins behind the last one. Numbers are written
with digits and a minus alone, so the brackets and commas of a listing are found again, whatever
text follows the listing.
-/

namespace TapeMachine.Text

variable {c : Char} {a b r s : List Char}

/-- Parts in front of the first place of a sign are the same in equal texts. -/
theorem eq_of_append_cons_eq (ha : c ∉ a) (hb : c ∉ b) (h : a ++ c :: r = b ++ c :: s) :
    a = b ∧ r = s := by
  rcases List.append_eq_append_iff.mp h with ⟨t, rfl, ht⟩ | ⟨t, rfl, ht⟩
  · cases t with
    | nil => simpa using ht
    | cons x t =>
        have hx : c = x := (List.cons.inj ht).1
        simp [hx] at hb
  · cases t with
    | nil => simpa [eq_comm] using ht
    | cons x t =>
        have hx : c = x := (List.cons.inj ht).1
        simp [hx] at ha

/-- Parts behind the last place of a sign are the same in equal texts. -/
theorem eq_of_append_cons_eq_last (hr : c ∉ r) (hs : c ∉ s) (h : a ++ c :: r = b ++ c :: s) :
    a = b ∧ r = s := by
  have hreverse : r.reverse ++ c :: a.reverse = s.reverse ++ c :: b.reverse := by
    simpa using congrArg List.reverse h
  have hr' : c ∉ r.reverse := by simpa using hr
  have hs' : c ∉ s.reverse := by simpa using hs
  obtain ⟨hback, hfront⟩ := eq_of_append_cons_eq hr' hs' hreverse
  exact ⟨List.reverse_injective hfront, List.reverse_injective hback⟩

/-- The signs that numbers are written with. -/
def IsNumeral (c : Char) : Prop :=
  c = '-' ∨ c.isDigit = true

instance (c : Char) : Decidable (IsNumeral c) :=
  inferInstanceAs (Decidable (_ ∨ _))

theorem isNumeral_of_mem_natRepr {n : Nat} (h : c ∈ n.repr.toList) : IsNumeral c := by
  rw [Nat.toList_repr] at h
  exact .inr (Nat.isDigit_of_mem_toDigits (by decide) (Nat.le_refl 10) h)

theorem isNumeral_of_mem_intRepr {n : Int} (h : c ∈ n.repr.toList) : IsNumeral c := by
  rw [Int.repr_eq_if] at h
  split at h
  · exact isNumeral_of_mem_natRepr h
  · rw [String.toList_append] at h
    rcases List.mem_append.mp h with hminus | hdigit
    · exact .inl (by simpa using hminus)
    · exact isNumeral_of_mem_natRepr hdigit

theorem mem_of_mem_intercalate {sep : List Char} {items : List (List Char)}
    (h : c ∈ sep.intercalate items) : c ∈ sep ∨ ∃ item ∈ items, c ∈ item := by
  induction items with
  | nil => simp at h
  | cons item rest ih =>
      cases rest with
      | nil => exact .inr ⟨item, by simp, by simpa using h⟩
      | cons next rest =>
          rw [List.intercalate_cons_cons] at h
          simp only [List.mem_append] at h
          rcases h with (hitem | hsep) | hrest
          · exact .inr ⟨item, List.mem_cons_self, hitem⟩
          · exact .inl hsep
          · rcases ih hrest with hsep | ⟨other, hmem, hother⟩
            · exact .inl hsep
            · exact .inr ⟨other, List.mem_cons_of_mem _ hmem, hother⟩

/-- With one more separator at its end, a text of separated items is each item with its own. -/
theorem intercalate_append_sep {sep : List Char} {items : List (List Char)} (h : items ≠ []) :
    sep.intercalate items ++ sep = items.flatMap (· ++ sep) := by
  induction items with
  | nil => exact absurd rfl h
  | cons item rest ih =>
      cases rest with
      | nil => simp
      | cons next rest =>
          rw [List.intercalate_cons_cons, List.append_assoc, ih (by simp)]
          simp

theorem flatMap_sep_injective {sep : List Char} {xs ys : List (List Char)}
    (hxs : ∀ x ∈ xs, c ∉ x) (hys : ∀ y ∈ ys, c ∉ y)
    (h : xs.flatMap (· ++ c :: sep) = ys.flatMap (· ++ c :: sep)) : xs = ys := by
  induction xs generalizing ys with
  | nil =>
      cases ys with
      | nil => rfl
      | cons y ys => simp at h
  | cons x xs ih =>
      cases ys with
      | nil => simp at h
      | cons y ys =>
          simp only [List.flatMap_cons, List.append_assoc, List.cons_append] at h
          obtain ⟨rfl, hrest⟩ :=
            eq_of_append_cons_eq (hxs x List.mem_cons_self) (hys y List.mem_cons_self) h
          have htail : xs = ys := by
            apply ih
            · exact fun x hx => hxs x (List.mem_cons_of_mem _ hx)
            · exact fun y hy => hys y (List.mem_cons_of_mem _ hy)
            · exact List.append_cancel_left hrest
          rw [htail]

/-- Items without commas, none of them empty, are read back from between the commas. -/
theorem intercalate_injective {xs ys : List (List Char)} (hxs : ∀ x ∈ xs, x ≠ [] ∧ ',' ∉ x)
    (hys : ∀ y ∈ ys, y ≠ [] ∧ ',' ∉ y)
    (h : [',', ' '].intercalate xs = [',', ' '].intercalate ys) : xs = ys := by
  have hnil : ∀ items : List (List Char), (∀ item ∈ items, item ≠ [] ∧ ',' ∉ item) →
      [',', ' '].intercalate items = [] → items = [] := by
    intro items hitems hempty
    cases items with
    | nil => rfl
    | cons item rest =>
        have hne := (hitems item List.mem_cons_self).1
        cases rest <;> simp_all
  by_cases hx : xs = []
  · subst xs
    exact (hnil ys hys (by simpa using h.symm)).symm
  · by_cases hy : ys = []
    · subst ys
      exact hnil xs hxs (by simpa using h)
    · apply @flatMap_sep_injective ',' [' ']
      · exact fun x hmem => (hxs x hmem).2
      · exact fun y hmem => (hys y hmem).2
      · rw [← intercalate_append_sep hx, ← intercalate_append_sep hy, h]

theorem toList_intListing (numbers : List Int) :
    (intListing numbers).toList =
      '[' :: ([',', ' '].intercalate (numbers.map (·.repr.toList)) ++ [']']) := by
  simp [intListing, listing, Function.comp_def]

theorem mem_intListing {numbers : List Int} (h : c ∈ (intListing numbers).toList) :
    c ∈ "[, ]".toList ∨ IsNumeral c := by
  rw [toList_intListing, List.mem_cons, List.mem_append] at h
  rcases h with rfl | hitems | hend
  · exact .inl (by decide)
  · rcases mem_of_mem_intercalate hitems with hsep | ⟨item, hmem, hitem⟩
    · have hsigns : [',', ' '] ⊆ "[, ]".toList := by decide
      exact .inl (hsigns hsep)
    · obtain ⟨n, -, rfl⟩ := List.mem_map.mp hmem
      exact .inr (isNumeral_of_mem_intRepr hitem)
  · exact .inl (by simp_all)

/-- A listing of numbers is read back, and so is what follows it. -/
theorem intListing_append_injective {xs ys : List Int}
    (h : (intListing xs).toList ++ r = (intListing ys).toList ++ s) : xs = ys ∧ r = s := by
  have hitem : ∀ (numbers : List Int), ∀ item ∈ numbers.map (·.repr.toList),
      item ≠ [] ∧ ',' ∉ item ∧ ']' ∉ item := by
    intro numbers item hmem
    obtain ⟨n, -, rfl⟩ := List.mem_map.mp hmem
    refine ⟨?_, fun h => ?_, fun h => ?_⟩
    · rw [Int.repr_eq_if]
      split <;> simp
    · exact absurd (isNumeral_of_mem_intRepr h) (by decide)
    · exact absurd (isNumeral_of_mem_intRepr h) (by decide)
  have hclose : ∀ numbers : List Int,
      ']' ∉ [',', ' '].intercalate (numbers.map (·.repr.toList)) := by
    intro numbers hmem
    rcases mem_of_mem_intercalate hmem with hsep | ⟨item, hitems, hin⟩
    · exact absurd hsep (by decide)
    · exact (hitem numbers item hitems).2.2 hin
  simp only [toList_intListing, List.cons_append, List.append_assoc, List.cons.injEq, true_and,
    List.nil_append] at h
  obtain ⟨hitems, hrest⟩ := eq_of_append_cons_eq (hclose xs) (hclose ys) h
  refine ⟨?_, hrest⟩
  have hmap := intercalate_injective
    (fun x hx => ⟨(hitem xs x hx).1, (hitem xs x hx).2.1⟩)
    (fun y hy => ⟨(hitem ys y hy).1, (hitem ys y hy).2.1⟩) hitems
  apply List.map_injective_iff.mpr _ hmap
  intro m n hmn
  exact Int.repr_injective (String.toList_inj.mp hmn)

end TapeMachine.Text
