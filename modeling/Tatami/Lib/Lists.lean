import Mathlib.Data.List.Forall2
import Mathlib.Data.List.Induction
import Mathlib.Tactic.Ring

/-! # Lists that grow at the end

A history is a list that is only ever appended to. What is found at an index of it after one more
entry was there before, or is the new entry. A queue that forgets from the front keeps the last
entries of such a list. -/

/-- An entry of an extended list is an old entry or the new one. -/
theorem getElem?_snoc_cases {α : Type} {l : List α} {a b : α} {i : Nat}
    (h : (l ++ [a])[i]? = some b) : l[i]? = some b ∨ i = l.length ∧ b = a := by
  rcases Nat.lt_trichotomy i l.length with hlt | rfl | hgt
  · rw [List.getElem?_append_left hlt] at h
    exact .inl h
  · rw [List.getElem?_concat_length] at h
    exact .inr ⟨rfl, (Option.some.inj h).symm⟩
  · rw [List.getElem?_eq_none (by rw [List.length_append, List.length_singleton]; omega)] at h
    cases h

/-- An old entry of an extended list is still there. -/
theorem getElem?_snoc_of_some {α : Type} {l : List α} {a b : α} {i : Nat} (h : l[i]? = some b) :
    (l ++ [a])[i]? = some b := by
  rw [List.getElem?_append_left (List.getElem?_eq_some_iff.mp h).1]
  exact h

/-- A list is cut around an entry, and so it is when the entry is replaced. -/
theorem exists_set_eq {α : Type} {l : List α} {i : Nat} {a : α} (h : l[i]? = some a) :
    ∃ l₁ l₂, l = l₁ ++ a :: l₂ ∧ ∀ b, l.set i b = l₁ ++ b :: l₂ := by
  obtain ⟨hi, ha⟩ := List.getElem?_eq_some_iff.mp h
  refine ⟨l.take i, l.drop (i + 1), ?_, fun b => List.set_eq_take_append_cons_drop.trans
    (if_pos hi)⟩
  rw [← ha, List.getElem_cons_drop, List.take_append_drop]

/-- A list is cut before the entry at an index. -/
theorem exists_eq_append_cons {α : Type} {l : List α} {i : Nat} (h : i < l.length) :
    ∃ l₁ a l₂, l = l₁ ++ a :: l₂ ∧ l₁.length = i := by
  refine ⟨l.take i, l[i], l.drop (i + 1), ?_, by rw [List.length_take]; omega⟩
  rw [List.getElem_cons_drop, List.take_append_drop]

/-! ### The first place of an entry -/

section First

variable {α : Type} [BEq α] [LawfulBEq α] {a : α}

/-- An entry that is not there has no place. -/
theorem findIdx?_eq_none_of_not_mem {l : List α} (h : a ∉ l) : l.findIdx? (· == a) = none := by
  rw [List.findIdx?_eq_none_iff]
  intro b hb
  rw [beq_eq_false_iff_ne]
  rintro rfl
  exact h hb

/-- The first place of an entry, with what stands before it. -/
theorem findIdx?_append_cons {l₁ : List α} (h : a ∉ l₁) (l₂ : List α) :
    (l₁ ++ a :: l₂).findIdx? (· == a) = some l₁.length := by
  rw [List.findIdx?_append, findIdx?_eq_none_of_not_mem h, List.findIdx?_cons]
  simp

/-- A list is cut in one way before the first place of an entry. -/
theorem append_cons_inj_of_not_mem {l₁ l₂ r₁ r₂ : List α} (h₁ : a ∉ l₁) (h₂ : a ∉ l₂)
    (h : l₁ ++ a :: r₁ = l₂ ++ a :: r₂) : l₁ = l₂ ∧ r₁ = r₂ := by
  have hplace := findIdx?_append_cons h₁ r₁
  rw [h, findIdx?_append_cons h₂] at hplace
  obtain ⟨hl, hr⟩ := List.append_inj h (Option.some.inj hplace).symm
  exact ⟨hl, (List.cons.inj hr).2⟩

/-- A list is cut at the first place of an entry, if there is one. -/
theorem first_cases (a : α) (l : List α) :
    a ∉ l ∨ ∃ l₁ l₂, l = l₁ ++ a :: l₂ ∧ a ∉ l₁ := by
  by_cases h : a ∈ l
  · obtain ⟨l₁, l₂, hl, hnot⟩ := List.eq_append_cons_of_mem h
    exact .inr ⟨l₁, l₂, hl, hnot⟩
  · exact .inl h

end First

/-! ### Queues that forget from the front -/

/-- In a part of a list without duplicates, what stands behind an entry stood behind it before. -/
theorem exists_split_of_sublist {α : Type} {l before after : List α} {a : α}
    (hsub : l.Sublist (before ++ a :: after)) (hnodup : (before ++ a :: after).Nodup) (ha : a ∈ l) :
    ∃ l₁ l₂, l = l₁ ++ a :: l₂ ∧ l₂.Sublist after := by
  obtain ⟨l₁, l₂, rfl, hbefore, hrest⟩ := List.sublist_append_iff.mp hsub
  obtain ⟨-, hcons, hdisjoint⟩ := List.nodup_append.mp hnodup
  have hnot : a ∉ l₁ := fun hmem => hdisjoint a (hbefore.subset hmem) a List.mem_cons_self rfl
  rcases List.sublist_cons_iff.mp hrest with hafter | ⟨l₃, rfl, hafter⟩
  · rcases List.mem_append.mp ha with hmem | hmem
    · exact absurd hmem hnot
    · exact absurd (hafter.subset hmem) (List.nodup_cons.mp hcons).1
  · exact ⟨l₁, l₃, rfl, hafter⟩

/-- An entry with fewer than `k` entries behind it is among the last `k`. -/
theorem mem_last {α : Type} {l₁ l₂ : List α} {a : α} {k : Nat} (h : l₂.length < k) :
    a ∈ (l₁ ++ a :: l₂).drop ((l₁ ++ a :: l₂).length - k) := by
  have hle : (l₁ ++ a :: l₂).length - k ≤ l₁.length := by
    rw [List.length_append, List.length_cons]
    omega
  rw [List.drop_append_of_le_length hle]
  exact List.mem_append_right _ List.mem_cons_self

/-! ### Lists in step -/

/-- Every element has a counterpart exactly if the whole list has one. -/
theorem exists_forall₂_iff {α β : Type} {r : α → β → Prop} {xs : List α} :
    (∃ ys, List.Forall₂ r xs ys) ↔ ∀ x ∈ xs, ∃ y, r x y := by
  induction xs with
  | nil => exact ⟨fun _ => nofun, fun _ => ⟨[], .nil⟩⟩
  | cons _ _ ih =>
    rw [List.forall_mem_cons, ← ih]
    constructor
    · rintro ⟨_, _ | ⟨hx, hxs⟩⟩
      exact ⟨⟨_, hx⟩, _, hxs⟩
    · rintro ⟨⟨y, hy⟩, ys, hys⟩
      exact ⟨y :: ys, .cons hy hys⟩

/-- Every element of the second list has a counterpart in the first. -/
theorem exists_of_forall₂_right {α β : Type} {r : α → β → Prop} {xs : List α} {ys : List β}
    (h : List.Forall₂ r xs ys) {y : β} (hy : y ∈ ys) : ∃ x ∈ xs, r x y := by
  induction h with
  | nil => cases hy
  | @cons x y' xs ys hr _ ih =>
    rcases List.mem_cons.mp hy with rfl | hmem
    · exact ⟨x, List.mem_cons_self, hr⟩
    · obtain ⟨x', hx', hr'⟩ := ih hmem
      exact ⟨x', List.mem_cons_of_mem x hx', hr'⟩

/-! ### Lines -/

/-- Joined lines are as long as the lines and the separators between them. -/
theorem length_intercalate_singleton {α : Type} (sep : α) (line : List α) (lines : List (List α)) :
    ([sep].intercalate (line :: lines)).length + 1 =
      ((line :: lines).map List.length).sum + (line :: lines).length := by
  induction lines generalizing line with
  | nil => simp
  | cons next lines ih =>
    rw [List.intercalate_cons_cons, List.length_append, List.length_append, List.map_cons,
      List.sum_cons, List.length_singleton]
    have hcons : (line :: next :: lines).length = (next :: lines).length + 1 := rfl
    have := ih next
    omega

/-- The same lines in another order are as long. -/
theorem length_eq_of_splitOn_perm {α : Type} [BEq α] [LawfulBEq α] {sep : α} {xs ys : List α}
    (h : (xs.splitOn sep).Perm (ys.splitOn sep)) : xs.length = ys.length := by
  have hlength (zs : List α) :
      zs.length + 1 = ((zs.splitOn sep).map List.length).sum + (zs.splitOn sep).length := by
    have hjoin : [sep].intercalate (zs.splitOn sep) = zs := List.intercalate_splitOn sep
    obtain ⟨_, _, hlines⟩ := List.exists_cons_of_ne_nil (List.splitOn_ne_nil sep zs)
    rw [hlines] at hjoin ⊢
    rw [← length_intercalate_singleton sep, hjoin]
  have hsum := (h.map List.length).sum_nat
  have hlen := h.length_eq
  have hx := hlength xs
  have hy := hlength ys
  omega
