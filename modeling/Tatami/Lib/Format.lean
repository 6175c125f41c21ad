import Mathlib.Data.List.Basic

/-! # Formats

A format says which strings stand for which values. Formats are put one behind the other
(`Format.bind`), the second one depending on the value of the first. A format is prefix-free when no
string of it is the beginning of another one; a reader then knows where a string ends, and formats
put behind each other stay prefix-free. -/

namespace Tatami

/-- The strings that stand for each value. -/
def Format (α β : Type) := α → List β → Prop

namespace Format

variable {α β γ : Type}

/-- Nothing, which stands for one value. -/
def pure (a : α) : Format α β := fun a' w => a' = a ∧ w = []

/-- One format, and behind it another one that depends on the value of the first. -/
def bind (F : Format α β) (G : α → Format γ β) : Format γ β := fun c w =>
  ∃ a u v, w = u ++ v ∧ F a u ∧ G a c v

/-- No string is the beginning of another one, and no string stands for two values. -/
def PrefixFree (F : Format α β) : Prop :=
  ∀ {a b : α} {u v : List β}, F a u → F b v → u <+: v → a = b ∧ u = v

theorem PrefixFree.pure (a : α) : (pure a : Format α β).PrefixFree := by
  rintro a₁ a₂ u v ⟨rfl, rfl⟩ ⟨rfl, rfl⟩ -
  exact ⟨rfl, rfl⟩

/-- **Prefix-free formats behind each other are prefix-free.** -/
theorem PrefixFree.bind {F : Format α β} {G : α → Format γ β} (hF : F.PrefixFree)
    (hG : ∀ a, (G a).PrefixFree) : (F.bind G).PrefixFree := by
  rintro c₁ c₂ w₁ w₂ ⟨a₁, u₁, v₁, rfl, hu₁, hv₁⟩ ⟨a₂, u₂, v₂, rfl, hu₂, hv₂⟩ hle
  -- one of the two front parts is the beginning of the other
  have hfront : u₁ <+: u₂ ∨ u₂ <+: u₁ :=
    List.prefix_or_prefix_of_prefix ((List.prefix_append u₁ v₁).trans hle)
      (List.prefix_append u₂ v₂)
  have hsame : a₁ = a₂ ∧ u₁ = u₂ := by
    rcases hfront with hfront | hfront
    · exact hF hu₁ hu₂ hfront
    · obtain ⟨ha, hu⟩ := hF hu₂ hu₁ hfront
      exact ⟨ha.symm, hu.symm⟩
  obtain ⟨rfl, rfl⟩ := hsame
  obtain ⟨rfl, rfl⟩ := hG a₁ hv₁ hv₂ ((List.prefix_append_right_inj u₁).mp hle)
  exact ⟨rfl, rfl⟩

end Format

end Tatami
