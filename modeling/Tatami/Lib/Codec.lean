import Mathlib.Tactic.Common

/-! # Canonical codecs

A format has one encoding per value when its decoder accepts exactly the encodings of the valid
values. `Canonical` says so in one equivalence; that decoding inverts encoding, that no two inputs
stand for one value, and that two such formats for the same values convert into each other and back
all follow from it. -/

variable {α β γ ε ε' : Type}

/-- A sequence succeeds iff its first part succeeds and the continuation does. -/
theorem Except.bind_ok_iff {x : Except ε α} {f : α → Except ε β} {b : β} :
    (x >>= f) = .ok b ↔ ∃ a, x = .ok a ∧ f a = .ok b := by
  cases x with
  | error | ok => simp [bind, Except.bind]

theorem Except.map_ok_iff {f : α → β} {x : Except ε α} {b : β} :
    x.map f = .ok b ↔ ∃ a, x = .ok a ∧ f a = b := by
  cases x with
  | error => simp [Except.map]
  | ok => simp [Except.map]

/-- A result whose error is translated succeeds as before. -/
theorem Except.mapError_ok_iff {f : ε → ε'} {x : Except ε α} {a : α} :
    x.mapError f = .ok a ↔ x = .ok a := by
  cases x <;> simp [Except.mapError]

theorem Except.guard_ok_iff {c : Prop} [Decidable c] {e : ε} {x : Except ε α} {a : α} :
    (if c then .error e else x) = .ok a ↔ ¬c ∧ x = .ok a := by
  by_cases h : c <;> simp [h]

theorem Except.check_ok_iff {c : Prop} [Decidable c] {e : ε} {x : Except ε α} {a : α} :
    (if c then x else .error e) = .ok a ↔ c ∧ x = .ok a := by
  by_cases h : c <;> simp [h]

/-- The decoder accepts exactly the encodings of the valid values, each as its own value. -/
def Canonical (decode : β → Except ε α) (encode : α → β) (valid : α → Prop) : Prop :=
  ∀ b a, decode b = .ok a ↔ valid a ∧ b = encode a

namespace Canonical

variable {decode : β → Except ε α} {encode : α → β} {valid : α → Prop}

/-- What was decoded encodes to the input. -/
theorem encode_eq (h : Canonical decode encode valid) {b : β} {a : α} (hb : decode b = .ok a) :
    encode a = b :=
  ((h b a).mp hb).2.symm

theorem valid_of_decode (h : Canonical decode encode valid) {b : β} {a : α}
    (hb : decode b = .ok a) : valid a :=
  ((h b a).mp hb).1

/-- The encoding of a valid value is decoded to it. -/
theorem decode_encode (h : Canonical decode encode valid) {a : α} (ha : valid a) :
    decode (encode a) = .ok a :=
  (h _ a).mpr ⟨ha, rfl⟩

/-- Two inputs that are decoded alike are equal. -/
theorem unique (h : Canonical decode encode valid) {b b' : β} {a : α} (hb : decode b = .ok a)
    (hb' : decode b' = .ok a) : b = b' :=
  (h.encode_eq hb).symm.trans (h.encode_eq hb')

/-- **Conversion and back.** Converting from one format to another for the same values is undone by
converting back. -/
theorem convert {decode' : γ → Except ε' α} {encode' : α → γ} (h : Canonical decode encode valid)
    (h' : Canonical decode' encode' valid) {b : β} {c : γ}
    (hconvert : (decode b).map encode' = .ok c) : (decode' c).map encode = .ok b := by
  obtain ⟨a, hb, rfl⟩ := Except.map_ok_iff.mp hconvert
  rw [h'.decode_encode (h.valid_of_decode hb)]
  exact congrArg Except.ok (h.encode_eq hb)

end Canonical
