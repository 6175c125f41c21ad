import Mathlib.Computability.Language

/-! # Languages read letter by letter

A machine that reads a word keeps it inside a product of languages by appending to the last factor.
`Viable` is what a reader may still hope for: the word read so far can be completed. -/

open scoped Computability

namespace Language

variable {α : Type} {A B S : Language α} {w : List α} {a : α}

/-- One letter out of a set. -/
def letters (p : α → Prop) : Language α := {w | ∃ a, p a ∧ w = [a]}

/-- A letter of the set is a word. -/
theorem singleton_mem_letters {p : α → Prop} (h : p a) : [a] ∈ letters p := ⟨a, h, rfl⟩

/-- A word read so far also stands before a factor that may be empty. -/
theorem mem_mul_of_nil_mem (hw : w ∈ A) (hnil : [] ∈ B) : w ∈ A * B := by
  have := append_mem_mul hw hnil
  rwa [List.append_nil] at this

theorem snoc_mem_mul_kstar (hw : w ∈ A * S∗) (ha : [a] ∈ S) : w ++ [a] ∈ A * S∗ := by
  have hle : A * S∗ * S ≤ A * S∗ := by
    rw [mul_assoc]
    exact mul_le_mul_right (kstar_mul_le_kstar) A
  exact hle (append_mem_mul hw ha)

/-- A word that can be completed. -/
def Viable (L : Language α) (w : List α) : Prop := ∃ rest, w ++ rest ∈ L

theorem viable_of_mem (h : w ∈ A) : A.Viable w := ⟨[], by rwa [List.append_nil]⟩

/-- A viable word of the front factor is viable, if the rest can be completed at all. -/
theorem Viable.mul (h : A.Viable w) (hB : B.Viable []) : (A * B).Viable w := by
  obtain ⟨rest, hrest⟩ := h
  obtain ⟨v, hv⟩ := hB
  exact ⟨rest ++ v, by rw [← List.append_assoc]; exact append_mem_mul hrest hv⟩

end Language
