import Mathlib.Data.List.Basic

/-! # Wildcard patterns

Patterns made of letters, of places for one letter and of places for any run of letters, and the
words they match. `MatchesPlainly` are the matches in which a run that begins at one chosen letter
is that letter alone. Beside its equations there are the two facts that make greedy matching work: a
match that begins further on does not come out before one that passes letter by letter
(`MatchesPlainly.not_ahead`), and a run may take more letters than it did
(`MatchesPlainly.many_drop`). -/

namespace Tatami

/-- One place of a pattern. -/
inductive Wildcard (α : Type) where
  /-- This letter. -/
  | lit (a : α)
  /-- Any one letter. -/
  | one
  /-- Any run of letters, the empty one too. -/
  | many
  deriving DecidableEq

namespace Wildcard

variable {α : Type}

/-- The words of a pattern. -/
inductive Matches : List (Wildcard α) → List α → Prop
  | nil : Matches [] []
  | lit (a : α) {ps : List (Wildcard α)} {w : List α} :
      Matches ps w → Matches (.lit a :: ps) (a :: w)
  | one (a : α) {ps : List (Wildcard α)} {w : List α} :
      Matches ps w → Matches (.one :: ps) (a :: w)
  | many (u : List α) {ps : List (Wildcard α)} {w : List α} :
      Matches ps w → Matches (.many :: ps) (u ++ w)

/-- The words of a pattern that it matches with runs of a kind: a run that begins at the letter `a`,
or that is empty before it, is this letter alone. -/
inductive MatchesPlainly (a : α) : List (Wildcard α) → List α → Prop
  | nil : MatchesPlainly a [] []
  | lit (b : α) {ps : List (Wildcard α)} {w : List α} :
      MatchesPlainly a ps w → MatchesPlainly a (.lit b :: ps) (b :: w)
  | one (b : α) {ps : List (Wildcard α)} {w : List α} :
      MatchesPlainly a ps w → MatchesPlainly a (.one :: ps) (b :: w)
  | many (u : List α) {ps : List (Wildcard α)} {w : List α} :
      ((u ++ w).head? = some a → u = [a]) → MatchesPlainly a ps w →
      MatchesPlainly a (.many :: ps) (u ++ w)

variable {ps qs : List (Wildcard α)} {w : List α} {a : α}

theorem matches_letters_iff {u : List α} : Matches (u.map .lit) w ↔ w = u := by
  constructor
  · intro h
    induction u generalizing w with
    | nil =>
      cases h
      rfl
    | cons b u ih =>
      cases h with
      | lit _ h => rw [ih h]
  · rintro rfl
    induction w with
    | nil => exact .nil
    | cons b w ih => exact .lit b ih

/-- A plain match is a match. -/
theorem MatchesPlainly.matches (h : MatchesPlainly a ps w) : Matches ps w := by
  induction h with
  | nil => exact .nil
  | lit b _ ih => exact .lit b ih
  | one b _ ih => exact .one b ih
  | many u _ _ ih => exact .many u ih

/-- Without the letter every match is plain. -/
theorem Matches.plainly (h : Matches ps w) (ha : a ∉ w) : MatchesPlainly a ps w := by
  induction h with
  | nil => exact .nil
  | lit b _ ih => exact .lit b (ih fun hmem => ha (List.mem_cons_of_mem _ hmem))
  | one b _ ih => exact .one b (ih fun hmem => ha (List.mem_cons_of_mem _ hmem))
  | many u _ ih =>
    refine .many u (fun hhead => absurd (List.mem_of_head? hhead) ha) (ih fun hmem => ha ?_)
    exact List.mem_append_right _ hmem

/-- The empty pattern matches the empty word. -/
theorem plainly_nil_iff : MatchesPlainly a [] w ↔ w = [] := by
  constructor
  · intro h
    cases h
    rfl
  · rintro rfl
    exact .nil

theorem plainly_lit_iff {b : α} :
    MatchesPlainly a (.lit b :: ps) w ↔ ∃ v, w = b :: v ∧ MatchesPlainly a ps v := by
  constructor
  · intro h
    cases h with
    | lit _ h => exact ⟨_, rfl, h⟩
  · rintro ⟨v, rfl, h⟩
    exact .lit b h

/-- A place for one letter takes any. -/
theorem plainly_one_iff :
    MatchesPlainly a (.one :: ps) w ↔ ∃ b v, w = b :: v ∧ MatchesPlainly a ps v := by
  constructor
  · intro h
    cases h with
    | one b h => exact ⟨b, _, rfl, h⟩
  · rintro ⟨b, v, rfl, h⟩
    exact .one b h

/-- A run takes some number of letters. -/
theorem plainly_many_iff : MatchesPlainly a (.many :: ps) w ↔
    ∃ k ≤ w.length, (w.head? = some a → k = 1) ∧ MatchesPlainly a ps (w.drop k) := by
  constructor
  · intro h
    cases h with
    | many u hu h =>
      refine ⟨u.length, by simp, fun hhead => ?_, by simpa using h⟩
      rw [hu hhead]
      rfl
  · rintro ⟨k, -, hk, h⟩
    rw [← List.take_append_drop k w]
    refine .many _ (fun hhead => ?_) h
    rw [List.take_append_drop] at hhead
    obtain ⟨v, rfl⟩ := List.head?_eq_some_iff.mp hhead
    rw [hk rfl]
    rfl

/-- At the letter, a run takes it. -/
theorem plainly_many_cons_iff :
    MatchesPlainly a (.many :: ps) (a :: w) ↔ MatchesPlainly a ps w := by
  rw [plainly_many_iff]
  constructor
  · rintro ⟨k, -, hk, h⟩
    rwa [hk rfl] at h
  · exact fun h => ⟨1, by simp, fun _ => rfl, h⟩

/-- Only runs match the empty word. -/
theorem plainly_empty_iff : MatchesPlainly a ps [] ↔ ∀ p ∈ ps, p = .many := by
  induction ps with
  | nil => simp [plainly_nil_iff]
  | cons p _ ih =>
    cases p with
    | lit => simp [plainly_lit_iff]
    | one => simp [plainly_one_iff]
    | many => simp [plainly_many_iff, ih]

/-- Where places were passed letter by letter, the runs among them at the letter `a`, no match that
begins there or further on is ahead of that. -/
theorem MatchesPlainly.not_ahead {d : Nat}
    (hruns : ∀ i : Nat, qs[i]? = some Wildcard.many → w[i]? = some a) (hd : d ≤ w.length)
    (h : MatchesPlainly a (qs ++ ps) (w.drop d)) :
    ∃ j, qs.length ≤ j ∧ j ≤ w.length ∧ MatchesPlainly a ps (w.drop j) := by
  induction qs generalizing w d with
  | nil => exact ⟨d, Nat.zero_le _, hd, h⟩
  | cons q qs ih =>
    -- all that is needed is a match of the rest behind the first letter, or further on
    suffices hrest : ∃ b v d', w = b :: v ∧ d' ≤ v.length ∧
        MatchesPlainly a (qs ++ ps) (v.drop d') by
      obtain ⟨b, v, d', rfl, hd', hrest⟩ := hrest
      obtain ⟨j, hj, hle, hps⟩ := ih (fun i hi => by simpa using hruns (i + 1) (by simpa)) hd' hrest
      exact ⟨j + 1, Nat.succ_le_succ hj, Nat.succ_le_succ hle, hps⟩
    -- a place for one letter moves on by one
    have hone {b : α} {v : List α} (hw : w.drop d = b :: v)
        (hv : MatchesPlainly a (qs ++ ps) v) : ∃ b v d', w = b :: v ∧ d' ≤ v.length ∧
          MatchesPlainly a (qs ++ ps) (v.drop d') := by
      cases w with
      | nil => simp at hw
      | cons c w =>
        have hlt : d < (c :: w).length := by
          rw [← List.drop_eq_nil_iff.not.trans Nat.not_le, hw]
          exact List.cons_ne_nil _ _
        refine ⟨c, w, d, rfl, Nat.le_of_lt_succ hlt, ?_⟩
        have htail := congrArg List.tail hw
        rw [List.tail_drop, List.drop_succ_cons] at htail
        rwa [htail]
    cases q with
    | lit b =>
      obtain ⟨v, hw, hv⟩ := plainly_lit_iff.mp h
      exact hone hw hv
    | one =>
      obtain ⟨b, v, hw, hv⟩ := plainly_one_iff.mp h
      exact hone hw hv
    | many =>
      -- the letter stands here: a run that begins here takes it, one further on is past it
      obtain ⟨v, rfl⟩ : ∃ v, w = a :: v := by
        have hhead := hruns 0 rfl
        rw [← List.head?_eq_getElem?] at hhead
        exact List.head?_eq_some_iff.mp hhead
      cases d with
      | zero => exact ⟨a, v, 0, rfl, Nat.zero_le _, plainly_many_cons_iff.mp h⟩
      | succ d =>
        obtain ⟨k, hk, -, hv⟩ := plainly_many_iff.mp h
        rw [List.drop_succ_cons, List.drop_drop] at hv
        rw [List.drop_succ_cons, List.length_drop] at hk
        have hle := Nat.le_of_succ_le_succ hd
        exact ⟨a, v, d + k, rfl, by omega, hv⟩

/-- A run that starts earlier takes the letters in between as well, where it may. -/
theorem MatchesPlainly.many_drop {m n : Nat} (h : MatchesPlainly a (.many :: ps) (w.drop m))
    (hle : n ≤ m) (hm : m ≤ w.length) (hhead : (w.drop n).head? ≠ some a) :
    MatchesPlainly a (.many :: ps) (w.drop n) := by
  obtain ⟨k, hk, -, hps⟩ := plainly_many_iff.mp h
  rw [List.length_drop] at hk
  refine plainly_many_iff.mpr ⟨m - n + k, ?_, fun hsome => absurd hsome hhead, ?_⟩
  · rw [List.length_drop]
    omega
  · rw [List.drop_drop] at hps ⊢
    rwa [show n + (m - n + k) = m + k by omega]

end Wildcard

end Tatami
