import Mathlib
import RegionRules.Text.Blank

/-!
# Trimming

A text without the blanks around it is what stands between the blanks at its ends, and is determined
by that: it begins and ends with no blank, and there are only blanks before and after it
(`Text.trim_eq_iff`).  Blanks inside stay.
-/

set_option autoImplicit false

namespace RegionRules
namespace Text

variable {s t before : List Char}

lemma trimStart_append (hbefore : ∀ c ∈ before, isBlank c = true)
    (hhead : ∀ c ∈ t.head?, isBlank c = false) : trimStart (before ++ t) = t := by
  rw [trimStart, List.dropWhile_append_of_pos hbefore]
  cases t with
  | nil => rfl
  | cons c t => exact List.dropWhile_cons_of_neg (by simp [hhead c rfl])

lemma exists_eq_append_trimStart (s : List Char) :
    ∃ before, s = before ++ trimStart s ∧ (∀ c ∈ before, isBlank c = true) ∧
      ∀ c ∈ (trimStart s).head?, isBlank c = false := by
  refine ⟨s.takeWhile isBlank, List.takeWhile_append_dropWhile.symm,
    fun _ => List.mem_takeWhile_imp, fun c hc => ?_⟩
  have hstop := List.head?_dropWhile_not isBlank s
  rw [trimStart] at hc
  rwa [hc] at hstop

/-- **Trimming leaves what stands between the blanks at both ends.** -/
lemma trim_eq_iff : trim s = t ↔ ∃ before after, s = before ++ t ++ after ∧
    (∀ c ∈ before, isBlank c = true) ∧ (∀ c ∈ after, isBlank c = true) ∧
      (∀ c ∈ t.head?, isBlank c = false) ∧ ∀ c ∈ t.getLast?, isBlank c = false := by
  constructor
  · rintro rfl
    obtain ⟨before, hs, hbefore, hhead⟩ := exists_eq_append_trimStart s
    obtain ⟨after, hrest, hafter, hlast⟩ := exists_eq_append_trimStart (trimStart s).reverse
    have hsplit : trimStart s = trim s ++ after.reverse := by
      rw [trim, ← List.reverse_append, ← hrest, List.reverse_reverse]
    refine ⟨before, after.reverse, ?_, hbefore, fun c hc => hafter c (List.mem_reverse.1 hc),
      fun c hc => hhead c ?_, fun c hc => hlast c ?_⟩
    · rw [List.append_assoc, ← hsplit]
      exact hs
    · rw [hsplit, List.head?_append, Option.mem_def.1 hc]
      rfl
    · rwa [trim, List.getLast?_reverse] at hc
  · rintro ⟨before, after, rfl, hbefore, hafter, hhead, hlast⟩
    have hafter' : ∀ c ∈ after.reverse, isBlank c = true := fun c hc =>
      hafter c (List.mem_reverse.1 hc)
    cases t with
    | nil =>
      -- Everything is blank, and goes at once.
      have hall : ∀ c ∈ before ++ after, isBlank c = true := fun c hc =>
        (List.mem_append.1 hc).elim (hbefore c) (hafter c)
      have hnone : trimStart (before ++ [] ++ after) = [] := by
        rw [List.append_nil, ← List.append_nil (before ++ after)]
        exact trimStart_append hall hhead
      rw [trim, hnone]
      rfl
    | cons c t =>
      have hstart : trimStart (before ++ (c :: t ++ after)) = c :: t ++ after :=
        trimStart_append hbefore hhead
      rw [trim, List.append_assoc, hstart, List.reverse_append, trimStart_append hafter',
        List.reverse_reverse]
      rwa [List.head?_reverse]

end Text
end RegionRules
