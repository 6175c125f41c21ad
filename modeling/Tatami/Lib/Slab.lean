import Tatami.Lib.Checked
import Mathlib.Data.List.Nodup

/-! # Generational slot tables

A `Slab` is a vector of slots with a list of the free ones. A slot keeps its place for ever and is
reused; its 32-bit generation grows, and wraps, each time it is emptied. A `Handle` names a slot and
a generation, so that a handle to an emptied slot finds nothing until the generation comes back.

* `Slab.insert`, `Slab.set`, `Slab.remove`, `Slab.drain` — the operations, with every index checked.
* `Slab.Valid` — the free list is exactly the empty slots, and the counter is exact.
* `Slab.insert_ok`, `Slab.set_ok`, `Slab.remove_ok`, `Slab.drain_spec` — on a valid table the
  operations return, keep it valid, and change one slot (`Placed`, `Updated`, `Released`) or empty
  all of them (`Drained`). -/

namespace Tatami

open List Checked

/-- One place of a table. -/
structure Slot (α : Type) where
  generation : UInt32
  state : Option α
  deriving DecidableEq

/-- The name of an entry: its place, and the generation it was entered in. -/
structure Handle where
  index : UInt32
  generation : UInt32
  deriving DecidableEq, Repr

/-- A table of slots, with the free ones and the number of entries. -/
structure Slab (α : Type) where
  slots : List (Slot α)
  free : List UInt32
  live : Nat
  deriving DecidableEq

namespace Slab

variable {α : Type}

/-! ### Operations -/

/-- The table without slots. -/
def empty : Slab α := ⟨[], [], 0⟩

/-- The entry a handle names, if it is still there. -/
def get (b : Slab α) (h : Handle) : Option α :=
  match b.slots[h.index.toNat]? with
  | none => none
  | some slot => if slot.generation ≠ h.generation then none else slot.state

/-- Enters `a` in the slot freed last, or in a new one. -/
def insert (b : Slab α) (a : α) : Checked (Handle × Slab α) := do
  let live ← Checked.addUsize b.live 1
  match b.free.getLast? with
  | some index => do
    let slot ← Checked.index b.slots index.toNat
    pure (⟨index, slot.generation⟩,
      ⟨b.slots.set index.toNat { slot with state := some a }, b.free.dropLast, live⟩)
  | none => pure (⟨UInt32.ofNat b.slots.length, 0⟩, ⟨b.slots ++ [⟨0, some a⟩], b.free, live⟩)

/-- Overwrites the entry of a slot. -/
def set (b : Slab α) (h : Handle) (a : α) : Checked (Slab α) := do
  let slot ← Checked.index b.slots h.index.toNat
  pure { b with slots := b.slots.set h.index.toNat { slot with state := some a } }

/-- Empties a slot. -/
def remove (b : Slab α) (h : Handle) : Checked (Slab α) := do
  let slot ← Checked.index b.slots h.index.toNat
  let live ← Checked.sub b.live 1
  pure ⟨b.slots.set h.index.toNat ⟨slot.generation + 1, none⟩, b.free ++ [h.index], live⟩

/-- The loop of `drain`, from a slot on: the entries, the slots and the newly free places. -/
def drainLoop : Nat → List (Slot α) → List (Handle × α) × List (Slot α) × List UInt32
  | _, [] => ([], [], [])
  | i, slot :: rest =>
    let (entries, slots, free) := drainLoop (i + 1) rest
    match slot.state with
    | some a =>
      ((⟨UInt32.ofNat i, slot.generation⟩, a) :: entries, ⟨slot.generation + 1, none⟩ :: slots,
        UInt32.ofNat i :: free)
    | none => (entries, slot :: slots, free)

/-- Empties every slot, and returns the entries in the order of their slots. -/
def drain (b : Slab α) : List (Handle × α) × Slab α :=
  let (entries, slots, free) := drainLoop 0 b.slots
  (entries, ⟨slots, b.free ++ free, 0⟩)

/-! ### Valid tables -/

/-- The entry at a place. -/
def entry (b : Slab α) (i : Nat) : Option α := (b.slots[i]?).bind Slot.state

/-- The generation of a place; a place that was never used is in generation zero. -/
def generation (b : Slab α) (i : Nat) : UInt32 := (b.slots[i]?).elim 0 Slot.generation

/-- The table with one slot emptied. -/
def without (b : Slab α) (h : Handle) : Slab α :=
  ⟨b.slots.set h.index.toNat ⟨b.generation h.index.toNat + 1, none⟩, b.free ++ [h.index],
    b.live - 1⟩

/-- How many entries have a property. -/
def count (b : Slab α) (p : α → Bool) : Nat := b.slots.countP (·.state.any p)

/-- The free list is exactly the empty slots, each once, and the counter is exact. -/
structure Valid (b : Slab α) : Prop where
  small : b.slots.length ≤ 2 ^ 32
  free_nodup : b.free.Nodup
  mem_free : ∀ i, i ∈ b.free ↔ ∃ g, b.slots[i.toNat]? = some ⟨g, none⟩
  live_eq : b.live = b.count fun _ => true

theorem valid_empty : (empty : Slab α).Valid :=
  ⟨Nat.zero_le _, nodup_nil, fun i => by simp [empty], rfl⟩

variable {b b' : Slab α} {h : Handle} {a old : α}

/-- What a handle finds is in its slot, in its generation. -/
theorem get_eq_some_iff :
    b.get h = some a ↔ b.slots[h.index.toNat]? = some ⟨h.generation, some a⟩ := by
  unfold get
  cases hslot : b.slots[h.index.toNat]? with
  | none => simp
  | some slot =>
    obtain ⟨g, _⟩ := slot
    by_cases hg : g = h.generation
    · simp [hg]
    · simp [hg]

/-- What a handle finds is an entry. -/
theorem entry_of_get (hget : b.get h = some a) : b.entry h.index.toNat = some a := by
  rw [entry, get_eq_some_iff.mp hget]
  rfl

theorem slot_of_entry {i : Nat} (hentry : b.entry i = some a) :
    b.slots[i]? = some ⟨b.generation i, some a⟩ := by
  obtain ⟨⟨g, state⟩, hslot, hstate⟩ := Option.bind_eq_some_iff.mp hentry
  obtain rfl : state = some a := hstate
  rw [generation, hslot]
  rfl

/-- A property of some entry is counted. -/
theorem count_pos {p : α → Bool} {i : Nat} (hentry : b.entry i = some a) (hp : p a = true) :
    0 < b.count p := by
  rw [count, countP_pos_iff]
  exact ⟨_, mem_of_getElem? (slot_of_entry hentry), hp⟩

/-- No more entries have a property than there are entries. -/
theorem count_le_live (hb : b.Valid) (p : α → Bool) : b.count p ≤ b.live := by
  rw [hb.live_eq, count, count]
  refine countP_mono_left fun slot _ hp => ?_
  cases hstate : slot.state with
  | none => rw [hstate] at hp; cases hp
  | some => rfl

/-! ### What the operations do -/

/-- `a` was entered under `h`. -/
structure Placed (b : Slab α) (a : α) (h : Handle) (b' : Slab α) : Prop where
  valid : b'.Valid
  vacant : b.entry h.index.toNat = none
  generation_eq : h.generation = b.generation h.index.toNat
  entry_eq : ∀ j, b'.entry j = if j = h.index.toNat then some a else b.entry j
  generation_keep : ∀ j, b'.generation j = b.generation j
  count_eq : ∀ p, b'.count p = b.count p + if p a then 1 else 0
  live_eq : b'.live = b.live + 1
  length_le : b'.slots.length ≤ max b.slots.length b'.live

/-- The entry at a place was overwritten. -/
structure Updated (b : Slab α) (i : Nat) (old a : α) (b' : Slab α) : Prop where
  valid : b'.Valid
  entry_old : b.entry i = some old
  entry_eq : ∀ j, b'.entry j = if j = i then some a else b.entry j
  generation_keep : ∀ j, b'.generation j = b.generation j
  count_eq : ∀ p, b'.count p + (if p old then 1 else 0) = b.count p + if p a then 1 else 0
  live_eq : b'.live = b.live
  length_eq : b'.slots.length = b.slots.length

/-- The slot at a place was emptied. -/
structure Released (b : Slab α) (i : Nat) (old : α) (b' : Slab α) : Prop where
  valid : b'.Valid
  entry_old : b.entry i = some old
  entry_eq : ∀ j, b'.entry j = if j = i then none else b.entry j
  generation_eq : ∀ j, b'.generation j = if j = i then b.generation j + 1 else b.generation j
  count_eq : ∀ p, b'.count p + (if p old then 1 else 0) = b.count p
  live_eq : b'.live + 1 = b.live
  length_eq : b'.slots.length = b.slots.length

/-- One place was filled, overwritten or emptied. -/
structure Changed (b : Slab α) (i : Nat) (old new : Option α) (b' : Slab α) : Prop where
  valid : b'.Valid
  entry_old : b.entry i = old
  entry_eq : ∀ j, b'.entry j = if j = i then new else b.entry j
  count_eq : ∀ p, b'.count p + (if old.any p then 1 else 0) = b.count p + if new.any p then 1 else 0
  length_le : b'.slots.length ≤ max b.slots.length b'.live

/-- Every slot was emptied. -/
structure Drained (b : Slab α) (entries : List (Handle × α)) (b' : Slab α) : Prop where
  valid : b'.Valid
  mem_entries : ∀ h a, (h, a) ∈ entries ↔ b.get h = some a
  entry_eq : ∀ j, b'.entry j = none
  generation_eq : ∀ j,
    b'.generation j = if (b.entry j).isSome then b.generation j + 1 else b.generation j
  count_eq : ∀ p, b'.count p = 0
  live_eq : b'.live = 0
  length_eq : b'.slots.length = b.slots.length

theorem Placed.changed (hp : Placed b a h b') : Changed b h.index.toNat none (some a) b' :=
  ⟨hp.valid, hp.vacant, hp.entry_eq, hp.count_eq, hp.length_le⟩

theorem Updated.changed {i : Nat} (hu : Updated b i old a b') :
    Changed b i (some old) (some a) b' :=
  ⟨hu.valid, hu.entry_old, hu.entry_eq, hu.count_eq, hu.length_eq ▸ Nat.le_max_left _ _⟩

theorem Released.changed {i : Nat} (hr : Released b i old b') : Changed b i (some old) none b' :=
  ⟨hr.valid, hr.entry_old, hr.entry_eq, hr.count_eq, hr.length_eq ▸ Nat.le_max_left _ _⟩

/-- An entry is the new one, or an old one at another place. -/
theorem Changed.entry_cases {i j : Nat} {c : α} {o n : Option α} (hc : Changed b i o n b')
    (hentry : b'.entry j = some c) : j = i ∧ n = some c ∨ j ≠ i ∧ b.entry j = some c := by
  rw [hc.entry_eq] at hentry
  split at hentry
  · rename_i hj
    exact .inl ⟨hj, hentry⟩
  · rename_i hj
    exact .inr ⟨hj, hentry⟩

/-- An entry stays unless it is the one that changed. -/
theorem Changed.entry_keep {i j : Nat} {c : α} {o n : Option α} (hc : Changed b i o n b')
    (hentry : b.entry j = some c) : b'.entry j = some c ∨ j = i ∧ o = some c := by
  rw [hc.entry_eq]
  split
  · rename_i hj
    rw [hj, hc.entry_old] at hentry
    exact .inr ⟨hj, hentry⟩
  · exact .inl hentry

theorem get_eq_some_iff_entry : b.get h = some a ↔
    b.entry h.index.toNat = some a ∧ b.generation h.index.toNat = h.generation := by
  rw [get_eq_some_iff]
  constructor
  · intro hslot
    rw [entry, generation, hslot]
    exact ⟨rfl, rfl⟩
  · rintro ⟨hentry, hgeneration⟩
    rw [slot_of_entry hentry, hgeneration]

/-- Handles to one place in one generation are the same. -/
theorem handle_ext {x : Handle} (hindex : x.index.toNat = h.index.toNat)
    (hgeneration : x.generation = h.generation) : x = h := by
  obtain ⟨i, g⟩ := x
  obtain rfl : i = h.index := UInt32.toNat_inj.mp hindex
  obtain rfl : g = h.generation := hgeneration
  rfl

/-- What the handles find after an entry was made. -/
theorem Placed.get_iff {x : Handle} {c : α} (hp : Placed b a h b') :
    b'.get x = some c ↔ x = h ∧ c = a ∨ b.get x = some c := by
  rw [get_eq_some_iff_entry, get_eq_some_iff_entry, hp.generation_keep]
  constructor
  · rintro ⟨hentry, hgeneration⟩
    rcases hp.changed.entry_cases hentry with ⟨hi, ⟨⟩⟩ | ⟨-, hold⟩
    · exact .inl ⟨handle_ext hi (by rw [hp.generation_eq, ← hgeneration, hi]), rfl⟩
    · exact .inr ⟨hold, hgeneration⟩
  · rintro (⟨rfl, rfl⟩ | ⟨hold, hgeneration⟩)
    · exact ⟨by rw [hp.entry_eq, if_pos rfl], hp.generation_eq.symm⟩
    · exact ⟨(hp.changed.entry_keep hold).resolve_right nofun, hgeneration⟩

/-- What the handles find after an entry was overwritten. -/
theorem Updated.get_iff {x : Handle} {c : α} (hget : b.get h = some old)
    (hu : Updated b h.index.toNat old a b') :
    b'.get x = some c ↔ x = h ∧ c = a ∨ x ≠ h ∧ b.get x = some c := by
  have hgeneration := (get_eq_some_iff_entry.mp hget).2
  rw [get_eq_some_iff_entry, get_eq_some_iff_entry, hu.generation_keep, hu.entry_eq]
  by_cases hx : x = h
  · subst hx
    simp [hgeneration, eq_comm]
  · by_cases hi : x.index.toNat = h.index.toNat
    · -- the same place in another generation
      have hother : b.generation x.index.toNat ≠ x.generation := fun heq =>
        hx (handle_ext hi (by rw [← heq, hi, hgeneration]))
      simp [hx, hother]
    · simp [hx, hi]

/-- What the handles find after a slot was emptied. -/
theorem Released.get_iff {x : Handle} {c : α} (hget : b.get h = some old)
    (hr : Released b h.index.toNat old b') :
    b'.get x = some c ↔ x ≠ h ∧ b.get x = some c := by
  have hgeneration := (get_eq_some_iff_entry.mp hget).2
  rw [get_eq_some_iff_entry, get_eq_some_iff_entry, hr.generation_eq, hr.entry_eq]
  by_cases hi : x.index.toNat = h.index.toNat
  · rw [if_pos hi]
    constructor
    · rintro ⟨⟨⟩, -⟩
    · rintro ⟨hx, -, hsame⟩
      exact absurd (handle_ext hi (by rw [← hsame, hi, hgeneration])) hx
  · have hx : x ≠ h := fun heq => hi (congrArg (·.index.toNat) heq)
    simp [hi, hx]

section Replace

variable {i : Nat} {s s' : Slot α} {free : List UInt32} {live : Nat}

theorem slot_replace (hslot : b.slots[i]? = some s) (j : Nat) :
    (b.slots.set i s')[j]? = if j = i then some s' else b.slots[j]? := by
  have hlt := (List.getElem?_eq_some_iff.mp hslot).1
  by_cases hj : j = i
  · rw [hj, List.getElem?_set_self hlt, if_pos rfl]
  · rw [List.getElem?_set_ne (Ne.symm hj), if_neg hj]

theorem entry_replace (hslot : b.slots[i]? = some s) (j : Nat) :
    entry ⟨b.slots.set i s', free, live⟩ j = if j = i then s'.state else b.entry j := by
  rw [entry, slot_replace hslot]
  split <;> rfl

theorem generation_replace (hslot : b.slots[i]? = some s) (j : Nat) :
    generation ⟨b.slots.set i s', free, live⟩ j =
      if j = i then s'.generation else b.generation j := by
  rw [generation, slot_replace hslot]
  split <;> rfl

theorem count_replace (hslot : b.slots[i]? = some s) (p : α → Bool) :
    count ⟨b.slots.set i s', free, live⟩ p + (if s.state.any p then 1 else 0) =
      b.count p + if s'.state.any p then 1 else 0 := by
  obtain ⟨hlt, hget⟩ := List.getElem?_eq_some_iff.mp hslot
  rw [count, count, countP_set hlt, hget]
  by_cases hs : s.state.any p = true
  · have hpos : 0 < b.slots.countP (·.state.any p) :=
      countP_pos_iff.mpr ⟨s, mem_of_getElem? hslot, hs⟩
    rw [if_pos hs]
    omega
  · rw [if_neg hs]
    omega

/-- The empty slots after a slot is replaced. -/
theorem vacant_replace {index : UInt32} (hslot : b.slots[index.toNat]? = some s) (j : UInt32) :
    (∃ g, (b.slots.set index.toNat s')[j.toNat]? = some ⟨g, none⟩) ↔
      if j = index then s'.state = none else ∃ g, b.slots[j.toNat]? = some ⟨g, none⟩ := by
  simp only [slot_replace hslot, UInt32.toNat_inj]
  split
  · obtain ⟨g, _⟩ := s'
    simp
  · rfl

end Replace

/-- Without a free slot, every slot has an entry. -/
theorem length_eq_live (hb : b.Valid) (hfree : b.free = []) : b.slots.length = b.live := by
  rw [hb.live_eq, count, eq_comm, countP_eq_length]
  intro slot hmem
  obtain ⟨i, hi, rfl⟩ := getElem_of_mem hmem
  cases hstate : b.slots[i].state with
  | some => rfl
  | none =>
    have hto : (UInt32.ofNat i).toNat = i :=
      UInt32.toNat_ofNat_of_lt' (Nat.lt_of_lt_of_le hi hb.small)
    have hmem : UInt32.ofNat i ∈ b.free := by
      refine (hb.mem_free _).mpr ⟨b.slots[i].generation, ?_⟩
      rw [hto, List.getElem?_eq_getElem hi, ← hstate]
    rw [hfree] at hmem
    cases hmem

/-- A slot at the end of a longer table is an old one or the last one. -/
theorem getElem?_extend (slots : List (Slot α)) (s : Slot α) (j : Nat) :
    (slots ++ [s])[j]? = if j = slots.length then some s else slots[j]? := by
  by_cases hj : j = slots.length
  · rw [if_pos hj, hj, List.getElem?_concat_length]
  · rw [if_neg hj]
    rcases Nat.lt_or_gt_of_ne hj with hlt | hgt
    · rw [List.getElem?_append_left hlt]
    · rw [List.getElem?_eq_none (Nat.le_of_lt hgt),
        List.getElem?_eq_none (by rw [length_append, length_singleton]; omega)]

/-- Entering in a new slot, where none is free. -/
theorem placed_extend (hb : b.Valid) (hlive : b.live < 2 ^ 32) (hfree : b.free = []) (a : α) :
    Placed b a ⟨UInt32.ofNat b.slots.length, 0⟩ ⟨b.slots ++ [⟨0, some a⟩], b.free, b.live + 1⟩ := by
  have hlength := length_eq_live hb hfree
  have hto : (UInt32.ofNat b.slots.length).toNat = b.slots.length :=
    UInt32.toNat_ofNat_of_lt' (show b.slots.length < 2 ^ 32 by omega)
  have hnone : b.slots[b.slots.length]? = none := List.getElem?_eq_none (Nat.le_refl _)
  have hcount (p : α → Bool) : count ⟨b.slots ++ [⟨0, some a⟩], b.free, b.live + 1⟩ p =
      b.count p + if p a then 1 else 0 := by
    rw [count, count, countP_append, countP_singleton]
    rfl
  refine ⟨⟨?_, hb.free_nodup, fun j => ?_, ?_⟩, ?_, ?_, fun j => ?_, fun j => ?_, hcount, rfl, ?_⟩
  · rw [length_append, length_singleton]
    omega
  · rw [hb.mem_free, getElem?_extend]
    split
    · rename_i hj
      rw [hj, hnone]
      simp
    · rfl
  · rw [hcount, hb.live_eq]
    rfl
  · rw [hto, entry, hnone]
    rfl
  · rw [hto, generation, hnone]
    rfl
  · rw [hto, entry, entry, getElem?_extend]
    split <;> rfl
  · rw [generation, generation, getElem?_extend]
    split
    · rename_i hj
      rw [hj, hnone]
      rfl
    · rfl
  · rw [length_append, length_singleton]
    exact Nat.le_trans (Nat.succ_le_succ (Nat.le_of_eq hlength)) (Nat.le_max_right _ _)

theorem placed_reuse {free : List UInt32} {index : UInt32} {g : UInt32} (hb : b.Valid)
    (hfree : b.free = free ++ [index]) (hslot : b.slots[index.toNat]? = some ⟨g, none⟩) (a : α) :
    Placed b a ⟨index, g⟩ ⟨b.slots.set index.toNat ⟨g, some a⟩, free, b.live + 1⟩ := by
  have hnodup := hb.free_nodup
  rw [hfree, nodup_append] at hnodup
  have hcount (p : α → Bool) : count ⟨b.slots.set index.toNat ⟨g, some a⟩, free, b.live + 1⟩ p =
      b.count p + if p a then 1 else 0 := count_replace hslot p
  refine ⟨⟨?_, hnodup.1, fun j => ?_, ?_⟩, ?_, ?_, fun j => ?_, fun j => ?_, hcount, rfl, ?_⟩
  · rw [length_set]
    exact hb.small
  · rw [vacant_replace hslot]
    have hmem := hb.mem_free j
    rw [hfree, mem_append, mem_singleton] at hmem
    by_cases hj : j = index
    · subst hj
      rw [if_pos rfl]
      exact ⟨fun hin => absurd rfl (hnodup.2.2 j hin j mem_cons_self), nofun⟩
    · rw [if_neg hj, ← hmem]
      exact ⟨.inl, fun h => h.resolve_right hj⟩
  · rw [hcount, hb.live_eq]
    rfl
  · rw [entry, hslot]
    rfl
  · rw [generation, hslot]
    rfl
  · exact entry_replace hslot j
  · rw [generation_replace hslot]
    split
    · rename_i hj
      rw [hj, generation, hslot]
      rfl
    · rfl
  · rw [length_set]
    exact Nat.le_max_left _ _

/-- **Entering** in a table that is not full. -/
theorem insert_ok (hb : b.Valid) (hlive : b.live < 2 ^ 32) (a : α) :
    ∃ h b', b.insert a = .ok (h, b') ∧ Placed b a h b' := by
  unfold insert
  rw [addUsize_ok (by omega), ok_bind]
  rcases eq_nil_or_concat' b.free with hfree | ⟨free, index, hfree⟩
  · rw [hfree]
    refine ⟨_, _, rfl, ?_⟩
    rw [← hfree]
    exact placed_extend hb hlive hfree a
  · obtain ⟨g, hslot⟩ := (hb.mem_free index).mp (by rw [hfree]; simp)
    rw [hfree, List.getLast?_concat, dropLast_concat]
    simp only
    rw [index_ok_iff.mpr hslot, ok_bind]
    exact ⟨_, _, rfl, placed_reuse hb hfree hslot a⟩

/-- **Overwriting** an entry. -/
theorem set_ok (hb : b.Valid) (hentry : b.entry h.index.toNat = some old) (a : α) :
    ∃ b', b.set h a = .ok b' ∧ Updated b h.index.toNat old a b' := by
  have hslot := slot_of_entry hentry
  unfold set
  rw [index_ok_iff.mpr hslot, ok_bind]
  have hcount (p : α → Bool) :
      count ⟨b.slots.set h.index.toNat ⟨b.generation h.index.toNat, some a⟩, b.free, b.live⟩ p +
        (if p old then 1 else 0) = b.count p + if p a then 1 else 0 :=
    count_replace hslot p
  refine ⟨_, rfl, ⟨?_, hb.free_nodup, fun j => ?_, ?_⟩, hentry, entry_replace hslot, fun j => ?_,
    hcount, rfl, length_set⟩
  · rw [length_set]
    exact hb.small
  · rw [vacant_replace hslot, hb.mem_free]
    split
    · rename_i hj
      rw [hj, hslot]
      simp
    · rfl
  · have hall := hcount fun _ => true
    simp only [if_true] at hall
    rw [hb.live_eq]
    exact (Nat.add_right_cancel hall).symm
  · rw [generation_replace hslot]
    split
    · rename_i hj
      rw [hj]
    · rfl

/-- **Emptying** a slot. -/
theorem remove_ok (hb : b.Valid) (hentry : b.entry h.index.toNat = some old) :
    b.remove h = .ok (b.without h) ∧ Released b h.index.toNat old (b.without h) := by
  have hslot := slot_of_entry hentry
  have hpos : 0 < b.live := by
    rw [hb.live_eq]
    exact count_pos hentry rfl
  have hrun : b.remove h = .ok (b.without h) := by
    rw [remove, index_ok_iff.mpr hslot, ok_bind, sub_ok hpos]
    rfl
  refine ⟨hrun, ?_⟩
  rw [without]
  have hcount (p : α → Bool) :
      count ⟨b.slots.set h.index.toNat ⟨b.generation h.index.toNat + 1, none⟩,
        b.free ++ [h.index], b.live - 1⟩ p + (if p old then 1 else 0) = b.count p :=
    count_replace hslot p
  have hfresh : h.index ∉ b.free := by
    rw [hb.mem_free, hslot]
    simp
  refine ⟨⟨?_, ?_, fun j => ?_, ?_⟩, hentry, entry_replace hslot, fun j => ?_, hcount, ?_,
    length_set⟩
  · rw [length_set]
    exact hb.small
  · rw [nodup_append]
    refine ⟨hb.free_nodup, nodup_singleton _, fun x hx y hy => ?_⟩
    rw [mem_singleton.mp hy]
    exact fun heq => hfresh (heq ▸ hx)
  · rw [vacant_replace hslot, mem_append, mem_singleton, hb.mem_free]
    split
    · rename_i hj
      simp [hj]
    · rename_i hj
      simp [hj]
  · have hall := hcount fun _ => true
    simp only [if_true] at hall
    rw [← hb.live_eq] at hall
    exact Nat.sub_eq_of_eq_add hall.symm
  · rw [generation_replace hslot]
    split
    · rename_i hj
      rw [hj]
    · rfl
  · change b.live - 1 + 1 = b.live
    omega

/-! ### Emptying the whole table -/

/-- A slot once it was emptied, if it was not empty. -/
def released (slot : Slot α) : Slot α :=
  match slot.state with
  | some _ => ⟨slot.generation + 1, none⟩
  | none => slot

theorem drainLoop_slots (i : Nat) (slots : List (Slot α)) :
    (drainLoop i slots).2.1 = slots.map released := by
  induction slots generalizing i with
  | nil => rfl
  | cons slot _ ih =>
    obtain ⟨g, state⟩ := slot
    cases state with
    | none | some => rw [drainLoop, map_cons, ← ih (i + 1)]; rfl

/-- The loop returns the entries under their handles. -/
theorem mem_drainLoop_entries {i : Nat} {slots : List (Slot α)} {h : Handle} {a : α} :
    (h, a) ∈ (drainLoop i slots).1 ↔
      ∃ k, slots[k]? = some ⟨h.generation, some a⟩ ∧ h.index = UInt32.ofNat (i + k) := by
  induction slots generalizing i with
  | nil => simp [drainLoop]
  | cons slot rest ih =>
    obtain ⟨g, state⟩ := slot
    have hcases : (∃ k, (Slot.mk g state :: rest)[k]? = some ⟨h.generation, some a⟩ ∧
        h.index = UInt32.ofNat (i + k)) ↔
        (g = h.generation ∧ state = some a ∧ h.index = UInt32.ofNat i) ∨
          ∃ k, rest[k]? = some ⟨h.generation, some a⟩ ∧ h.index = UInt32.ofNat (i + 1 + k) := by
      constructor
      · rintro ⟨k, hk, hindex⟩
        cases k with
        | zero =>
          rw [List.getElem?_cons_zero, Option.some.injEq, Slot.mk.injEq] at hk
          exact .inl ⟨hk.1, hk.2, hindex⟩
        | succ k =>
          rw [List.getElem?_cons_succ] at hk
          exact .inr ⟨k, hk, by rw [hindex]; congr 1; omega⟩
      · rintro (⟨rfl, rfl, hindex⟩ | ⟨k, hk, hindex⟩)
        · exact ⟨0, rfl, hindex⟩
        · exact ⟨k + 1, hk, by rw [hindex]; congr 1; omega⟩
    rw [hcases, ← ih]
    obtain ⟨⟩ := h
    cases state with
    | none => simp [drainLoop]
    | some =>
      simp only [drainLoop, mem_cons, Prod.mk.injEq, Handle.mk.injEq, Option.some.injEq]
      tauto

/-- The loop frees the places of the entries. -/
theorem drainLoop_free (i : Nat) (slots : List (Slot α)) :
    (drainLoop i slots).2.2 = (drainLoop i slots).1.map (·.1.index) := by
  induction slots generalizing i with
  | nil => rfl
  | cons slot _ ih =>
    obtain ⟨g, state⟩ := slot
    cases state with
    | none => exact ih (i + 1)
    | some => exact congrArg (UInt32.ofNat i :: ·) (ih (i + 1))

theorem nodup_drainLoop_free {i : Nat} {slots : List (Slot α)} (h : i + slots.length ≤ 2 ^ 32) :
    (drainLoop i slots).2.2.Nodup := by
  induction slots generalizing i with
  | nil => exact nodup_nil
  | cons slot rest ih =>
    obtain ⟨g, state⟩ := slot
    rw [length_cons] at h
    have hrest : (drainLoop (i + 1) rest).2.2.Nodup := ih (by omega)
    cases state with
    | none => exact hrest
    | some =>
      refine nodup_cons.mpr ⟨fun hmem => ?_, hrest⟩
      rw [drainLoop_free, mem_map] at hmem
      obtain ⟨⟨handle, _⟩, hmem, hindex⟩ := hmem
      obtain ⟨k, hk, hplace⟩ := mem_drainLoop_entries.mp hmem
      have hlt := (List.getElem?_eq_some_iff.mp hk).1
      have hsame := congrArg UInt32.toNat (hindex.symm.trans hplace)
      rw [UInt32.toNat_ofNat_of_lt' (show i < 2 ^ 32 by omega),
        UInt32.toNat_ofNat_of_lt' (show i + 1 + k < 2 ^ 32 by omega)] at hsame
      omega

/-- The loop returns the entries in the order of the slots. -/
theorem drainLoop_entries (i : Nat) (slots : List (Slot α)) :
    (drainLoop i slots).1 = (slots.zipIdx i).filterMap fun (slot, k) =>
      slot.state.map fun a => (⟨UInt32.ofNat k, slot.generation⟩, a) := by
  induction slots generalizing i with
  | nil => rfl
  | cons slot _ ih =>
    obtain ⟨g, state⟩ := slot
    rw [zipIdx_cons]
    cases state with
    | none => exact ih (i + 1)
    | some a => exact congrArg ((⟨UInt32.ofNat i, g⟩, a) :: ·) (ih (i + 1))

theorem entry_drain (b : Slab α) (j : Nat) : b.drain.2.entry j = none := by
  change entry ⟨(drainLoop 0 b.slots).2.1, b.drain.2.free, 0⟩ j = none
  rw [entry, drainLoop_slots, List.getElem?_map]
  cases b.slots[j]? with
  | none => rfl
  | some slot =>
    obtain ⟨g, state⟩ := slot
    cases state <;> rfl

/-- **Emptying** the whole table. -/
theorem drain_spec (hb : b.Valid) : Drained b b.drain.1 b.drain.2 := by
  have hslots : b.drain.2.slots = b.slots.map released := drainLoop_slots 0 b.slots
  have hmem (h : Handle) (a : α) : (h, a) ∈ b.drain.1 ↔ b.get h = some a := by
    rw [get_eq_some_iff]
    refine mem_drainLoop_entries.trans ⟨?_, fun hslot => ⟨_, hslot, ?_⟩⟩
    · rintro ⟨k, hk, hindex⟩
      have hlt := (List.getElem?_eq_some_iff.mp hk).1
      rwa [hindex, Nat.zero_add,
        UInt32.toNat_ofNat_of_lt' (Nat.lt_of_lt_of_le hlt hb.small)]
    · rw [Nat.zero_add, UInt32.ofNat_toNat]
  have hentry := entry_drain b
  have hcount (p : α → Bool) : b.drain.2.count p = 0 := by
    rw [count, countP_eq_zero]
    intro slot hslot
    obtain ⟨j, hj, rfl⟩ := getElem_of_mem hslot
    have hnone := hentry j
    rw [entry, List.getElem?_eq_getElem hj] at hnone
    change b.drain.2.slots[j].state = none at hnone
    rw [hnone]
    exact Bool.false_ne_true
  have hlength : b.drain.2.slots.length = b.slots.length := by rw [hslots, length_map]
  have hfree : b.drain.2.free = b.free ++ b.drain.1.map (·.1.index) :=
    congrArg (b.free ++ ·) (drainLoop_free 0 b.slots)
  refine ⟨⟨by rw [hlength]; exact hb.small, ?_, fun j => ?_, (hcount _).symm⟩, hmem, hentry,
    fun j => ?_, hcount, rfl, hlength⟩
  · refine nodup_append.mpr ⟨hb.free_nodup, nodup_drainLoop_free ?_, ?_⟩
    · rw [Nat.zero_add]
      exact hb.small
    · -- a free place has no entry to return
      rintro x hx y hy rfl
      obtain ⟨g, hslot⟩ := (hb.mem_free x).mp hx
      change x ∈ (drainLoop 0 b.slots).2.2 at hy
      rw [drainLoop_free, mem_map] at hy
      obtain ⟨⟨handle, a⟩, hin, rfl⟩ := hy
      rw [get_eq_some_iff.mp ((hmem handle a).mp hin)] at hslot
      simp at hslot
  · rw [hfree, mem_append, hb.mem_free, hslots, List.getElem?_map, mem_map]
    constructor
    · rintro (⟨g, hslot⟩ | ⟨⟨handle, a⟩, hin, rfl⟩)
      · exact ⟨g, by rw [hslot]; rfl⟩
      · refine ⟨handle.generation + 1, ?_⟩
        rw [get_eq_some_iff.mp ((hmem handle a).mp hin)]
        rfl
    · rintro ⟨g, hslot⟩
      obtain ⟨⟨g', state⟩, hold, hreleased⟩ := Option.map_eq_some_iff.mp hslot
      cases state with
      | none => exact .inl ⟨g', hold⟩
      | some a =>
        exact .inr ⟨(⟨j, g'⟩, a), (hmem ⟨j, g'⟩ a).mpr (get_eq_some_iff.mpr hold), rfl⟩
  · rw [generation, generation, entry, hslots, List.getElem?_map]
    cases b.slots[j]? with
    | none => rfl
    | some slot =>
      obtain ⟨g, state⟩ := slot
      cases state <;> rfl

/-! ### Tables that need not be valid

With more than `2 ^ 32` slots the handles repeat and the table is no longer valid. What an operation
that returned did to the entries is the same. -/

theorem insert_returned (hins : b.insert a = .ok (h, b')) :
    ∃ i, ∀ j, b'.entry j = if j = i then some a else b.entry j := by
  rw [insert] at hins
  obtain ⟨_, -, hins⟩ := bind_ok_iff.mp hins
  cases hlast : b.free.getLast? with
  | some index =>
    simp only [hlast] at hins
    obtain ⟨_, hslot, hins⟩ := bind_ok_iff.mp hins
    cases hins
    exact ⟨index.toNat, entry_replace (index_ok_iff.mp hslot)⟩
  | none =>
    simp only [hlast] at hins
    cases hins
    refine ⟨b.slots.length, fun j => ?_⟩
    rw [entry, getElem?_extend]
    split <;> rfl

theorem set_returned (hset : b.set h a = .ok b') :
    ∀ j, b'.entry j = if j = h.index.toNat then some a else b.entry j := by
  obtain ⟨_, hslot, hset⟩ := bind_ok_iff.mp hset
  cases hset
  exact entry_replace (index_ok_iff.mp hslot)

theorem remove_returned (hremove : b.remove h = .ok b') :
    ∀ j, b'.entry j = if j = h.index.toNat then none else b.entry j := by
  obtain ⟨_, hslot, hremove⟩ := bind_ok_iff.mp hremove
  obtain ⟨_, -, hremove⟩ := bind_ok_iff.mp hremove
  cases hremove
  exact entry_replace (index_ok_iff.mp hslot)

end Slab

end Tatami
