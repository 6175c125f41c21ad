import Tatami.Lib.Utf8
import Tatami.Lib.Wildcard

/-! # Glob matching

`glob_match` of the `known_hosts` module: one pass over the name with a single point to go back to.

* `globLoop_returns`: the loop ends, after at most `(pattern + 1) * (name + 1)` iterations; a
  potential that every iteration raises gives the bound;
* `globLoop_iff`: a `*` of the pattern that meets a `*` of the name is taken for that byte, so the
  answer is that of `GlobPlainly`, where the run of a `*` at this byte is the byte alone;
* `glob_match_exact_iff`: the answer is wrong exactly on the names of the pattern's language that
  match it in no such way. -/

namespace Tatami.Keys

open Wildcard List

/-- `b'*'`. -/
def starByte : UInt8 := 42
/-- `b'?'`. -/
def questionByte : UInt8 := 63

/-- The variables of the loop. -/
structure GlobState where
  /-- Index into the pattern. -/
  p : Nat
  /-- Index into the name. -/
  n : Nat
  /-- Where to go back to: the last run, and how far into the name it reaches. -/
  star : Option (Nat × Nat)
  deriving DecidableEq, Repr

/-- The body of the loop; no next state is `return false`. -/
def globBody (pattern name : Bytes) (s : GlobState) : Option GlobState :=
  if pattern[s.p]?.any fun b => b == questionByte || some b == name[s.n]? then
    some { s with p := s.p + 1, n := s.n + 1 }
  else if pattern[s.p]? == some starByte then
    some { p := s.p + 1, n := s.n, star := some (s.p, s.n) }
  else
    s.star.map fun (sp, sn) => { p := sp + 1, n := sn + 1, star := some (sp, sn + 1) }

/-- The loop, with the number of iterations it may take. -/
def globLoop (pattern name : Bytes) : Nat → GlobState → Option Bool
  | fuel, s =>
    if s.n < name.length then
      match fuel with
      | 0 => none
      | fuel + 1 =>
        match globBody pattern name s with
        | none => some false
        | some s' => globLoop pattern name fuel s'
    else some ((pattern.drop s.p).all (· == starByte))

/-- Where the loop starts. -/
def globStart : GlobState := { p := 0, n := 0, star := none }

/-- The most iterations the loop takes. -/
def globBound (pattern name : Bytes) : Nat := (pattern.length + 1) * (name.length + 1)

/-- Glob match with `*` (any run, including empty) and `?` (one byte). The bound is never reached
(`globLoop_returns`). -/
def globMatch (pattern name : Bytes) : Bool :=
  (globLoop pattern name (globBound pattern name) globStart).getD false

/-! ### The language of a pattern -/

/-- What a byte of a pattern stands for. -/
def globToken (b : UInt8) : Wildcard UInt8 :=
  if b = starByte then .many else if b = questionByte then .one else .lit b

/-- The name belongs to the language of the pattern. -/
def GlobMatches (pattern name : Bytes) : Prop := Wildcard.Matches (pattern.map globToken) name

/-- The name belongs to the language of the pattern by runs of a kind: the run of a `*` of the
pattern at a `*` of the name is this byte alone. -/
def GlobPlainly (pattern name : Bytes) : Prop :=
  Wildcard.MatchesPlainly starByte (pattern.map globToken) name

/-- Only `*` stands for a run. -/
theorem globToken_eq_many_iff {b : UInt8} : globToken b = .many ↔ b = starByte := by
  unfold globToken
  split
  · simp_all
  · split <;> simp_all

/-! ### The loop ends -/

variable {pattern name : Bytes} {s s' : GlobState}

/-- The pattern takes the next byte of the name as it stands. -/
def Takes (pattern name : Bytes) (s : GlobState) : Prop :=
  ∃ b, pattern[s.p]? = some b ∧ (b = questionByte ∨ name[s.n]? = some b)

theorem any_iff_takes :
    (pattern[s.p]?.any fun b => b == questionByte || some b == name[s.n]?) = true ↔
      Takes pattern name s := by
  unfold Takes
  rw [Option.any_eq_true]
  refine exists_congr fun b => and_congr_right fun _ => ?_
  rw [Bool.or_eq_true, beq_iff_eq, beq_iff_eq, eq_comm (a := some b)]

/-- What a body does: it passes one byte, opens a run, goes back, or has nowhere to go. -/
theorem globBody_cases (pattern name : Bytes) (s : GlobState) :
    (Takes pattern name s ∧
      globBody pattern name s = some { s with p := s.p + 1, n := s.n + 1 }) ∨
    (¬ Takes pattern name s ∧ pattern[s.p]? = some starByte ∧
      globBody pattern name s = some { p := s.p + 1, n := s.n, star := some (s.p, s.n) }) ∨
    (¬ Takes pattern name s ∧ pattern[s.p]? ≠ some starByte ∧
      globBody pattern name s = s.star.map fun (sp, sn) =>
        { p := sp + 1, n := sn + 1, star := some (sp, sn + 1) }) := by
  unfold globBody
  split
  · next htakes => exact .inl ⟨any_iff_takes.mp htakes, rfl⟩
  · next htakes =>
    have htakes : ¬ Takes pattern name s := fun h => htakes (any_iff_takes.mpr h)
    split
    · next hstar => exact .inr (.inl ⟨htakes, beq_iff_eq.mp hstar, rfl⟩)
    · next hstar => exact .inr (.inr ⟨htakes, fun h => hstar (beq_iff_eq.mpr h), rfl⟩)

/-- What holds of the variables all along. -/
structure GlobState.Bounded (pattern name : Bytes) (s : GlobState) : Prop where
  p_le : s.p ≤ pattern.length
  n_le : s.n ≤ name.length
  star : ∀ sp sn, s.star = some (sp, sn) → sp < s.p ∧ sn ≤ s.n

/-- How far the loop got: every iteration raises it. -/
def GlobState.potential (pattern : Bytes) (s : GlobState) : Nat :=
  (s.star.elim 0 Prod.snd) * (pattern.length + 1) + s.p

/-- A run reaches no further than the name was read. -/
theorem GlobState.Bounded.reach_le (hs : s.Bounded pattern name) :
    s.star.elim 0 Prod.snd ≤ s.n := by
  cases hold : s.star with
  | none => exact Nat.zero_le _
  | some old => exact (hs.star old.1 old.2 hold).2

/-- Every iteration keeps the bounds and raises the potential. -/
theorem GlobState.Bounded.step (hs : s.Bounded pattern name) (hn : s.n < name.length)
    (h : globBody pattern name s = some s') :
    s'.Bounded pattern name ∧ s.potential pattern < s'.potential pattern := by
  have hlt {b : UInt8} (hb : pattern[s.p]? = some b) : s.p < pattern.length :=
    (List.getElem?_eq_some_iff.mp hb).1
  rcases globBody_cases pattern name s with ⟨⟨b, hb, -⟩, hbody⟩ | ⟨-, hb, hbody⟩ | ⟨-, -, hbody⟩
  · cases hbody.symm.trans h
    refine ⟨⟨hlt hb, hn, fun sp sn hstar => ?_⟩, Nat.lt_succ_self _⟩
    obtain ⟨hsp, hsn⟩ := hs.star sp sn hstar
    exact ⟨Nat.lt_succ_of_lt hsp, Nat.le_succ_of_le hsn⟩
  · cases hbody.symm.trans h
    refine ⟨⟨hlt hb, hs.n_le, fun sp sn hstar => ?_⟩, ?_⟩
    · cases hstar
      exact ⟨Nat.lt_succ_self _, Nat.le_refl _⟩
    · -- the new run reaches at least as far as the old one
      exact Nat.add_lt_add_of_le_of_lt (Nat.mul_le_mul_right _ hs.reach_le) (Nat.lt_succ_self _)
  · obtain ⟨⟨sp, sn⟩, hstar, rfl⟩ := Option.map_eq_some_iff.mp (hbody.symm.trans h)
    obtain ⟨hsp, hsn⟩ := hs.star sp sn hstar
    have hp := hs.p_le
    refine ⟨⟨by dsimp only; omega, by dsimp only; omega, fun sp' sn' hstar' => ?_⟩, ?_⟩
    · cases hstar'
      exact ⟨Nat.lt_succ_self _, Nat.le_refl _⟩
    · rw [GlobState.potential, GlobState.potential, hstar]
      show sn * (pattern.length + 1) + s.p < (sn + 1) * (pattern.length + 1) + (sp + 1)
      rw [Nat.succ_mul]
      omega

/-- The potential stays below the bound. -/
theorem GlobState.Bounded.potential_lt (hs : s.Bounded pattern name) :
    s.potential pattern < globBound pattern name := by
  calc s.potential pattern
      ≤ name.length * (pattern.length + 1) + s.p :=
        Nat.add_le_add_right (Nat.mul_le_mul_right _ (hs.reach_le.trans hs.n_le)) _
    _ < name.length * (pattern.length + 1) + (pattern.length + 1) :=
        Nat.add_lt_add_left (Nat.lt_succ_of_le hs.p_le) _
    _ = globBound pattern name := by rw [globBound, Nat.mul_comm, ← Nat.mul_succ]

/-- **The loop ends** when it may still take as many iterations as the potential can rise. -/
theorem globLoop_returns {fuel : Nat} (hs : s.Bounded pattern name)
    (hfuel : globBound pattern name ≤ fuel + s.potential pattern) :
    ∃ b, globLoop pattern name fuel s = some b := by
  fun_induction globLoop pattern name fuel s with
  | case1 =>
    have hlt := hs.potential_lt
    omega
  | case2 => exact ⟨false, rfl⟩
  | case3 _ hn _ _ hbody ih =>
    obtain ⟨hs', hrise⟩ := hs.step hn hbody
    exact ih hs' (by omega)
  | case4 => exact ⟨_, rfl⟩

/-- The start is within the bounds. -/
theorem globStart_bounded : globStart.Bounded pattern name :=
  ⟨Nat.zero_le _, Nat.zero_le _, nofun⟩

/-! ### The answer -/

/-- A list from an index on, when there is something at it. -/
theorem drop_eq_cons {α : Type} {xs : List α} {i : Nat} {x : α} (h : xs[i]? = some x) :
    xs.drop i = x :: xs.drop (i + 1) := by
  obtain ⟨hlt, rfl⟩ := List.getElem?_eq_some_iff.mp h
  exact drop_eq_getElem_cons hlt

/-- The language of a pattern that begins with a run. -/
theorem globPlainly_star_iff {rest : Bytes} : GlobPlainly (starByte :: rest) name ↔
    Wildcard.MatchesPlainly starByte (.many :: rest.map globToken) name := by
  rw [GlobPlainly, map_cons, globToken, if_pos rfl]

/-- A byte of the pattern that is taken is passed together with the byte it takes. -/
theorem Takes.globPlainly_iff (h : Takes pattern name s) (hn : s.n < name.length) :
    GlobPlainly (pattern.drop s.p) (name.drop s.n) ↔
      GlobPlainly (pattern.drop (s.p + 1)) (name.drop (s.n + 1)) := by
  obtain ⟨b, hb, htakes⟩ := h
  have hc : name[s.n]? = some name[s.n] := List.getElem?_eq_getElem hn
  rw [drop_eq_cons hb, drop_eq_cons hc]
  by_cases hstar : b = starByte
  · -- a run at its own byte
    subst hstar
    obtain hsame := Option.some.inj (hc.symm.trans (htakes.resolve_left (by decide)))
    rw [hsame, globPlainly_star_iff, plainly_many_cons_iff]
    rfl
  rw [GlobPlainly, map_cons, globToken, if_neg hstar]
  split
  · rw [plainly_one_iff]
    constructor
    · rintro ⟨a, v, hv, hmatch⟩
      cases hv
      exact hmatch
    · exact fun hmatch => ⟨_, _, rfl, hmatch⟩
  · next hquestion =>
    obtain rfl := Option.some.inj (hc.symm.trans (htakes.resolve_left hquestion))
    rw [plainly_lit_iff]
    constructor
    · rintro ⟨v, hv, hmatch⟩
      cases hv
      exact hmatch
    · exact fun hmatch => ⟨_, rfl, hmatch⟩

/-- Where nothing is taken and no run begins, nothing matches. -/
theorem not_globPlainly (htakes : ¬ Takes pattern name s) (hstar : pattern[s.p]? ≠ some starByte)
    (hn : s.n < name.length) : ¬ GlobPlainly (pattern.drop s.p) (name.drop s.n) := by
  have hc : name[s.n]? = some name[s.n] := List.getElem?_eq_getElem hn
  rw [drop_eq_cons hc, GlobPlainly]
  cases hb : pattern[s.p]? with
  | none =>
    rw [drop_eq_nil_of_le (List.getElem?_eq_none_iff.mp hb), map_nil,
      plainly_nil_iff]
    exact cons_ne_nil _ _
  | some b =>
    have hne : b ≠ starByte := fun heq => hstar (heq ▸ hb)
    have hquestion : b ≠ questionByte := fun heq => htakes ⟨b, hb, .inl heq⟩
    rw [drop_eq_cons hb, map_cons, globToken, if_neg hne, if_neg hquestion,
      plainly_lit_iff]
    rintro ⟨v, hv, -⟩
    exact htakes ⟨b, hb, .inr (hc.trans (congrArg some (List.cons.inj hv).1))⟩

/-- The state of a run of the loop: since the last run of the pattern, it passed bytes one for one,
a `*` of the pattern only with a `*` of the name; and the name matches exactly if what is left
matches, or if what follows that run matches further on. -/
structure GlobState.Tracks (pattern name : Bytes) (s : GlobState) : Prop where
  bounded : s.Bounded pattern name
  passed : ∀ sp sn, s.star = some (sp, sn) → s.n = sn + (s.p - (sp + 1)) ∧
    ∀ i < s.p - (sp + 1), pattern[sp + 1 + i]? = some starByte → name[sn + i]? = some starByte
  answer : GlobPlainly pattern name ↔ GlobPlainly (pattern.drop s.p) (name.drop s.n) ∨
    ∃ sp sn k, s.star = some (sp, sn) ∧ sn < k ∧ k ≤ name.length ∧
      GlobPlainly (pattern.drop (sp + 1)) (name.drop k)

/-- A match further on is not ahead of what was passed since the last run. -/
theorem GlobState.Tracks.not_ahead (hs : s.Tracks pattern name) {sp sn k : Nat}
    (hstar : s.star = some (sp, sn)) (hlt : sn < k) (hle : k ≤ name.length)
    (h : GlobPlainly (pattern.drop (sp + 1)) (name.drop k)) :
    ∃ j, s.n ≤ j ∧ j ≤ name.length ∧ GlobPlainly (pattern.drop s.p) (name.drop j) := by
  obtain ⟨hsp, -⟩ := hs.bounded.star sp sn hstar
  obtain ⟨hn, hruns⟩ := hs.passed sp sn hstar
  have hp := hs.bounded.p_le
  have hsplit : pattern.drop (sp + 1) =
      (pattern.drop (sp + 1)).take (s.p - (sp + 1)) ++ pattern.drop s.p := by
    conv_lhs => rw [← take_append_drop (s.p - (sp + 1)) (pattern.drop (sp + 1))]
    rw [drop_drop, Nat.add_sub_cancel' hsp]
  obtain ⟨d, rfl⟩ := Nat.exists_eq_add_of_lt hlt
  have hdrop : name.drop (sn + d + 1) = (name.drop sn).drop (d + 1) := by
    rw [drop_drop, Nat.add_assoc]
  rw [GlobPlainly, hsplit, map_append, hdrop] at h
  have hplaces (i : Nat)
      (hi : (((pattern.drop (sp + 1)).take (s.p - (sp + 1))).map globToken)[i]? = some .many) :
      (name.drop sn)[i]? = some starByte := by
    rw [List.getElem?_map, Option.map_eq_some_iff] at hi
    obtain ⟨b, hb, hmany⟩ := hi
    obtain rfl := globToken_eq_many_iff.mp hmany
    rw [List.getElem?_take, Option.ite_none_right_eq_some, List.getElem?_drop] at hb
    rw [List.getElem?_drop]
    exact hruns i hb.1 hb.2
  obtain ⟨j, hj, hjle, hrest⟩ :=
    Wildcard.MatchesPlainly.not_ahead hplaces (by rw [length_drop]; omega) h
  rw [length_map, length_take, length_drop] at hj
  rw [length_drop] at hjle
  rw [drop_drop] at hrest
  exact ⟨sn + j, by omega, by omega, hrest⟩

theorem GlobState.Tracks.step (hs : s.Tracks pattern name) (hn : s.n < name.length)
    (h : globBody pattern name s = some s') : s'.Tracks pattern name := by
  have hbounded := (hs.bounded.step hn h).1
  rcases globBody_cases pattern name s with ⟨htakes, hbody⟩ | ⟨htakes, hb, hbody⟩ |
    ⟨htakes, hb, hbody⟩
  · -- one byte is passed
    cases hbody.symm.trans h
    refine ⟨hbounded, fun sp sn hstar => ?_, hs.answer.trans (or_congr_left
      (htakes.globPlainly_iff hn))⟩
    obtain ⟨hsp, -⟩ := hs.bounded.star sp sn hstar
    obtain ⟨hlen, hruns⟩ := hs.passed sp sn hstar
    refine ⟨by dsimp only; omega, fun i hi hrun => ?_⟩
    rcases Nat.lt_or_ge i (s.p - (sp + 1)) with hold | hnew
    · exact hruns i hold hrun
    · -- the byte just passed
      obtain rfl : i = s.p - (sp + 1) := by dsimp only at hi; omega
      rw [Nat.add_sub_cancel' hsp] at hrun
      obtain ⟨b, hb, htaken⟩ := htakes
      cases hrun.symm.trans hb
      rw [← hlen]
      exact htaken.resolve_left (by decide)
  · -- a run opens: what the run before it can still reach, this one reaches too
    cases hbody.symm.trans h
    have hhead : (name.drop s.n).head? ≠ some starByte := by
      rw [List.head?_drop]
      exact fun heq => htakes ⟨starByte, hb, .inr heq⟩
    refine ⟨hbounded, fun sp sn hstar => ?_, hs.answer.trans ?_⟩
    · cases hstar
      simp
    · have hopen : GlobPlainly (pattern.drop s.p) (name.drop s.n) ↔
          ∃ k ≤ name.length - s.n, GlobPlainly (pattern.drop (s.p + 1)) (name.drop (s.n + k)) := by
        rw [drop_eq_cons hb, globPlainly_star_iff, plainly_many_iff]
        simp only [hhead, false_imp_iff, true_and, length_drop, drop_drop, GlobPlainly]
      constructor
      · intro hleft
        have hhere : GlobPlainly (pattern.drop s.p) (name.drop s.n) := by
          rcases hleft with hhere | ⟨sp, sn, k, hstar, hlt, hle, hfurther⟩
          · exact hhere
          · obtain ⟨j, hj, hjle, hreach⟩ := hs.not_ahead hstar hlt hle hfurther
            rw [drop_eq_cons hb, globPlainly_star_iff] at hreach ⊢
            exact hreach.many_drop hj hjle hhead
        obtain ⟨j, hj, hrest⟩ := hopen.mp hhere
        cases j with
        | zero => exact .inl hrest
        | succ j => exact .inr ⟨s.p, s.n, s.n + (j + 1), rfl, by omega, by omega, hrest⟩
      · rintro (hhere | ⟨sp, sn, k, hstar, hlt, hle, hfurther⟩)
        · exact .inl (hopen.mpr ⟨0, Nat.zero_le _, hhere⟩)
        · cases hstar
          refine .inl (hopen.mpr ⟨k - s.n, by omega, ?_⟩)
          rwa [Nat.add_sub_cancel' (Nat.le_of_lt hlt)]
  · -- back to the last run, which takes one byte more
    obtain ⟨⟨sp, sn⟩, hstar, rfl⟩ := Option.map_eq_some_iff.mp (hbody.symm.trans h)
    refine ⟨hbounded, fun sp' sn' hstar' => ?_, hs.answer.trans ?_⟩
    · cases hstar'
      simp
    · obtain ⟨-, hsn⟩ := hs.bounded.star sp sn hstar
      constructor
      · rintro (hhere | ⟨sp', sn', k, hstar', hlt, hle, hfurther⟩)
        · exact absurd hhere (not_globPlainly htakes hb hn)
        · cases hstar.symm.trans hstar'
          rcases Nat.eq_or_lt_of_le hlt with rfl | hlt
          · exact .inl hfurther
          · exact .inr ⟨sp, sn + 1, k, rfl, hlt, hle, hfurther⟩
      · rintro (hhere | ⟨sp', sn', k, hstar', hlt, hle, hfurther⟩)
        · exact .inr ⟨sp, sn, sn + 1, hstar, Nat.lt_succ_self _, by omega, hhere⟩
        · cases hstar'
          exact .inr ⟨sp, sn, k, hstar, by omega, hle, hfurther⟩

/-- A body that returns has no match left. -/
theorem GlobState.Tracks.not_plainly (hs : s.Tracks pattern name) (hn : s.n < name.length)
    (h : globBody pattern name s = none) : ¬ GlobPlainly pattern name := by
  rcases globBody_cases pattern name s with ⟨-, hbody⟩ | ⟨-, -, hbody⟩ | ⟨htakes, hb, hbody⟩
  · cases hbody.symm.trans h
  · cases hbody.symm.trans h
  · have hnone : s.star = none := Option.map_eq_none_iff.mp (hbody.symm.trans h)
    rw [hs.answer]
    rintro (hhere | ⟨sp, sn, k, hstar, -⟩)
    · exact not_globPlainly htakes hb hn hhere
    · cases hnone.symm.trans hstar

/-- At the end of the name, only runs may be left. -/
theorem GlobState.Tracks.plainly_end (hs : s.Tracks pattern name) (hn : ¬ s.n < name.length) :
    GlobPlainly pattern name ↔ (pattern.drop s.p).all (· == starByte) = true := by
  have hend : s.n = name.length := Nat.le_antisymm hs.bounded.n_le (Nat.not_lt.mp hn)
  have hhere : GlobPlainly (pattern.drop s.p) (name.drop s.n) ↔
      (pattern.drop s.p).all (· == starByte) = true := by
    rw [hend, drop_length, GlobPlainly, plainly_empty_iff, all_eq_true]
    simp only [mem_map, forall_exists_index, and_imp, forall_apply_eq_imp_iff₂,
      globToken_eq_many_iff, beq_iff_eq]
  rw [hs.answer, ← hhere, or_iff_left_iff_imp]
  -- a match further on is not ahead, so it has nothing of the name left either
  rintro ⟨sp, sn, k, hstar, hlt, hle, hfurther⟩
  obtain ⟨j, hj, hjle, hreach⟩ := hs.not_ahead hstar hlt hle hfurther
  rwa [Nat.le_antisymm hj (hend ▸ hjle)]

/-- **The answer of the loop**: whether the name matches the pattern plainly. -/
theorem globLoop_iff {fuel : Nat} {b : Bool} (hs : s.Tracks pattern name)
    (h : globLoop pattern name fuel s = some b) : b = true ↔ GlobPlainly pattern name := by
  -- the four ways out of the loop: no fuel, `return false`, another round, the end of the name
  fun_induction globLoop pattern name fuel s with
  | case1 => cases h
  | case2 _ hn _ hbody =>
    cases h
    exact ⟨nofun, fun hmatch => absurd hmatch (hs.not_plainly hn hbody)⟩
  | case3 _ hn _ _ hbody ih => exact ih (hs.step hn hbody) h
  | case4 _ _ hn =>
    cases h
    exact (hs.plainly_end hn).symm

theorem globStart_tracks : globStart.Tracks pattern name := by
  refine ⟨globStart_bounded, nofun, .inl, fun h => ?_⟩
  rcases h with h | ⟨_, _, _, hstar, _⟩
  · exact h
  · cases hstar

/-- The loop ends within its bound, with the answer of `globMatch`. -/
theorem globLoop_eq_globMatch (pattern name : Bytes) :
    globLoop pattern name (globBound pattern name) globStart = some (globMatch pattern name) := by
  have hstart : globStart.Bounded pattern name := globStart_bounded
  obtain ⟨b, hb⟩ := globLoop_returns hstart (Nat.le_add_right (globBound pattern name) _)
  rw [globMatch, hb]
  rfl

/-- **Glob matching is right on names without `*`.** -/
theorem globMatch_iff (hname : starByte ∉ name) :
    globMatch pattern name = true ↔ GlobMatches pattern name :=
  (globLoop_iff globStart_tracks (globLoop_eq_globMatch pattern name)).trans
    ⟨Wildcard.MatchesPlainly.matches, fun h => h.plainly hname⟩

/-! ### Where the answer is right -/

/-- What is asked of `glob_match`: within the bound it returns whether the name belongs to the
language of the pattern. -/
def GlobExact (pattern name : Bytes) : Prop :=
  ∃ fuel result, fuel ≤ (pattern.length + 1) * (name.length + 1) ∧
    globLoop pattern name fuel globStart = some result ∧
    (result = true ↔ GlobMatches pattern name)

/-- **Where `glob_match` is right.** It returns within the bound on every input. The answer is right
exactly if the name is not in the language of the pattern, or matches it in a way in which the run
of every `*` of the pattern at a `*` of the name is this byte alone. -/
theorem glob_match_exact_iff (pattern name : Bytes) :
    GlobExact pattern name ↔ (GlobMatches pattern name → GlobPlainly pattern name) := by
  constructor
  · rintro ⟨fuel, result, -, hloop, hiff⟩ hmatch
    exact (globLoop_iff globStart_tracks hloop).mp (hiff.mpr hmatch)
  · intro hplainly
    refine ⟨globBound pattern name, _, Nat.le_refl _, globLoop_eq_globMatch pattern name, ?_⟩
    rw [globLoop_iff globStart_tracks (globLoop_eq_globMatch pattern name)]
    exact ⟨Wildcard.MatchesPlainly.matches, hplainly⟩

/-- `*?` does not match `*`, although the run may be empty. -/
theorem glob_match_star_question : ¬ GlobExact (utf8 "*?") (utf8 "*") := by
  rintro ⟨fuel, result, -, hloop, hiff⟩
  have hmatch : GlobMatches (utf8 "*?") (utf8 "*") := .many [] (.one _ .nil)
  have hplainly : GlobPlainly (utf8 "*?") (utf8 "*") :=
    (globLoop_iff globStart_tracks hloop).mp (hiff.mpr hmatch)
  -- the run would take the only byte there is
  obtain ⟨_, _, hnil, -⟩ := plainly_one_iff.mp (plainly_many_cons_iff.mp hplainly)
  cases hnil

end Tatami.Keys
