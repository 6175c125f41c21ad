import Mathlib.Data.List.Basic

/-! # Texts made of units

A text is written one unit after another, and read by a function that takes the next unit off it.
If every unit is taken off as it was written, whatever comes behind it, then a whole text is read
back, up to where no unit begins. -/

namespace Units

variable {α β : Type} (next : List β → Option (α × List β))

/-- Takes units off a text, until there is none or the given number of them was read. -/
def readAll : Nat → List β → List α × List β
  | 0, text => ([], text)
  | fuel + 1, text =>
    match next text with
    | none => ([], text)
    | some (a, rest) => (a :: (readAll fuel rest).1, (readAll fuel rest).2)

variable {next} {write : α → List β}

/-- **Units are read back** up to a rest in which none begins. -/
theorem readAll_flatMap (as : List α)
    (hnext : ∀ a ∈ as, ∀ rest, next (write a ++ rest) = some (a, rest)) {rest : List β}
    (hrest : next rest = none) {fuel : Nat} (hfuel : as.length ≤ fuel) :
    readAll next fuel (as.flatMap write ++ rest) = (as, rest) := by
  induction as generalizing fuel with
  | nil =>
    cases fuel with
    | zero => rfl
    | succ => simp only [List.flatMap_nil, List.nil_append, readAll, hrest]
  | cons a _ ih =>
    obtain ⟨n, rfl⟩ := Nat.exists_eq_succ_of_ne_zero (Nat.ne_of_gt (Nat.zero_lt_of_lt hfuel))
    have htail := ih (fun b hb => hnext b (List.mem_cons_of_mem a hb))
      (Nat.le_of_succ_le_succ hfuel)
    rw [List.flatMap_cons, List.append_assoc, readAll, hnext a List.mem_cons_self]
    simp only [htail]

/-- Units that are not empty are no more than what is written for them. -/
theorem length_le_flatMap (hwrite : ∀ a, write a ≠ []) (as : List α) :
    as.length ≤ (as.flatMap write).length := by
  induction as with
  | nil => exact Nat.zero_le _
  | cons a =>
    have hpos := List.length_pos_iff.mpr (hwrite a)
    rw [List.flatMap_cons, List.length_append, List.length_cons]
    omega

end Units
