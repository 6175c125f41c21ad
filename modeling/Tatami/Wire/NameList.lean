import Tatami.Lib.Utf8

/-! # Codec errors and name lists

The error types of the wire crate and the `name-list` of RFC 4251 §5: names of printable US-ASCII
without commas, separated by commas, none of them empty. A `NameList` carries the evidence that its
body passed the check, so a name taken out of one is known to be ASCII (`NameList.ascii_of_mem`). -/

namespace Tatami.Wire

/-! ### Errors -/

/-- Detail of a body that is present but malformed. -/
inductive InvalidEncoding where
  /-- A byte outside printable US-ASCII. -/
  | nameListNonAscii (offset : Nat)
  /-- A leading, trailing or doubled comma. -/
  | nameListEmptyName (offset : Nat)
  deriving DecidableEq, Repr

/-- Failure while decoding a value from a bounded input. -/
inductive DecodeError where
  | truncated (needed available : Nat)
  | lengthOverflow (claimed : UInt32) (available : Nat)
  | invalidEncoding (detail : InvalidEncoding)
  deriving DecidableEq, Repr

/-- Failure while encoding a value into a buffer of the caller. -/
inductive EncodeError where
  | insufficientCapacity (needed available : Nat)
  | lengthOverflow (len : Nat)
  | invalidName (index : Nat)
  deriving DecidableEq, Repr

/-- Failure while decoding a whole message. -/
inductive MessageError where
  | empty
  | unexpectedMessage (expected found : UInt8)
  | field (field : String) (offset : Nat) (error : DecodeError)
  | trailingBytes (count : Nat)
  deriving DecidableEq, Repr

/-- The text of an `InvalidEncoding`. -/
def InvalidEncoding.display : InvalidEncoding → String
  | .nameListNonAscii offset =>
    s!"name list has non-printable or non-ASCII byte at offset {offset}"
  | .nameListEmptyName offset => s!"name list has an empty name at offset {offset}"

/-- The text of a `DecodeError`. -/
def DecodeError.display : DecodeError → String
  | .truncated needed available =>
    s!"truncated input: needed {needed} bytes, {available} available"
  | .lengthOverflow claimed available =>
    "length prefix " ++ toString claimed ++ s!" exceeds {available} available bytes"
  | .invalidEncoding e => "invalid encoding: " ++ e.display

/-! ### Names -/

/-- The separator between names. -/
def comma : UInt8 := 0x2c

/-- `is_name_byte`: printable US-ASCII other than the comma. -/
def isNameByte (b : UInt8) : Bool := 0x20 < b && b < 0x7f && b != comma

/-- `is_valid_name`: a non-empty string of name bytes. -/
def isValidName (name : Bytes) : Bool := !name.isEmpty && name.all isNameByte

/-- The loop of `NameList::parse`: `offset` is the position of the next byte and `nameStart` the
position where the current name began; the result is where the last name began. -/
def scanNames : Bytes → Nat → Nat → Except InvalidEncoding Nat
  | [], _, nameStart => .ok nameStart
  | b :: rest, offset, nameStart =>
    if b = comma then
      if offset = nameStart then .error (.nameListEmptyName offset)
      else scanNames rest (offset + 1) (offset + 1)
    else if !isNameByte b then .error (.nameListNonAscii offset)
    else scanNames rest (offset + 1) nameStart

/-- The checks of `NameList::parse`. -/
def checkNames (body : Bytes) : Except InvalidEncoding Unit :=
  if body.isEmpty then .ok ()
  else
    match scanNames body 0 0 with
    | .error e => .error e
    | .ok nameStart =>
      -- a trailing comma
      if nameStart = body.length then .error (.nameListEmptyName nameStart) else .ok ()

/-- A body that passed the checks. -/
structure NameList where
  body : Bytes
  valid : checkNames body = .ok ()
  deriving DecidableEq

variable {body : Bytes}

namespace NameList

/-- Name lists are equal when their bodies are. -/
@[ext] theorem ext {l m : NameList} (h : l.body = m.body) : l = m := by
  cases l
  cases m
  simp_all

/-- `NameList::parse`. -/
def parse (body : Bytes) : Except InvalidEncoding NameList :=
  match h : checkNames body with
  | .ok () => .ok ⟨body, h⟩
  | .error e => .error e

/-- `parse` keeps the body it accepts. -/
theorem parse_ok_iff {l : NameList} : parse body = .ok l ↔ l.body = body := by
  constructor
  · intro h
    unfold parse at h
    split at h
    · cases h
      rfl
    · cases h
  · rintro rfl
    unfold parse
    split
    · rfl
    · rename_i e he
      rw [l.valid] at he
      cases he

/-- `Names::next`: the name up to the next comma and what is left after it. -/
def next (rest : Bytes) : Bytes × Option Bytes :=
  match rest.findIdx? (· == comma) with
  | some i => (rest.take i, some (rest.drop (i + 1)))
  | none => (rest, none)

/-- The names still to come, with fuel for the commas among them. -/
def names : Nat → Bytes → List Bytes
  | 0, _ => []
  | fuel + 1, rest =>
    match next rest with
    | (name, some rest') => name :: names fuel rest'
    | (name, none) => [name]

/-- `NameList::iter` run to its end: the names in their order. -/
def iter (l : NameList) : List Bytes :=
  if l.body.isEmpty then [] else names (l.body.length + 1) l.body

/-- `NameList::contains`. -/
def contains (l : NameList) (name : Bytes) : Bool := l.iter.any (· == name)

/-- A list contains the names it iterates over. -/
theorem contains_iff {l : NameList} {name : Bytes} : l.contains name = true ↔ name ∈ l.iter := by
  simp [contains]

/-- `NameList::is_empty`. -/
def isEmpty (l : NameList) : Bool := l.body.isEmpty

/-! ### What the check guarantees -/

end NameList

/-- A scan that ends saw only commas and name bytes. -/
theorem scanNames_ok_bytes {offset nameStart e : Nat}
    (h : scanNames body offset nameStart = .ok e) :
    ∀ x ∈ body, x = comma ∨ isNameByte x = true := by
  induction body generalizing offset nameStart with
  | nil => simp
  | cons b rest ih =>
    rw [scanNames] at h
    split at h
    · rename_i hb
      split at h
      · cases h
      · exact List.forall_mem_cons.mpr ⟨.inl hb, ih h⟩
    · split at h
      · cases h
      · rename_i hb
        exact List.forall_mem_cons.mpr ⟨.inr (by simpa using hb), ih h⟩

/-- A body that passes the check is ASCII. -/
theorem checkNames_ok_ascii (h : checkNames body = .ok ()) : ∀ x ∈ body, x < 0x80 := by
  intro x hx
  have hmem : x = comma ∨ isNameByte x = true := by
    unfold checkNames at h
    split at h
    · rename_i hempty
      simp only [List.isEmpty_iff] at hempty
      simp [hempty] at hx
    · split at h
      · cases h
      · rename_i hscan
        exact scanNames_ok_bytes hscan x hx
  rcases hmem with rfl | hname
  · decide
  · simp only [isNameByte, Bool.and_eq_true, decide_eq_true_eq] at hname
    exact UInt8.lt_trans hname.1.2 (by decide)

namespace NameList

/-- What `next` returns is made of the bytes it was given. -/
theorem next_subset (rest : Bytes) :
    (∀ x ∈ (next rest).1, x ∈ rest) ∧ ∀ rest' ∈ (next rest).2, ∀ x ∈ rest', x ∈ rest := by
  unfold next
  split
  · refine ⟨fun x hx => List.mem_of_mem_take hx, ?_⟩
    rintro rest' hrest' x hx
    simp only [Option.mem_some_iff] at hrest'
    subst hrest'
    exact List.mem_of_mem_drop hx
  · exact ⟨fun x hx => hx, by simp⟩

/-- Every name is made of bytes of the body. -/
theorem names_subset (fuel : Nat) (rest : Bytes) :
    ∀ name ∈ names fuel rest, ∀ x ∈ name, x ∈ rest := by
  induction fuel generalizing rest with
  | zero => simp [names]
  | succ fuel ih =>
    obtain ⟨hfst, hsnd⟩ := next_subset rest
    intro name hname x hx
    rw [names] at hname
    split at hname
    · rename_i n rest' hnext
      rw [hnext] at hfst hsnd
      rcases List.mem_cons.mp hname with rfl | hname
      · exact hfst x hx
      · exact hsnd rest' (by simp) x (ih rest' name hname x hx)
    · rename_i n hnext
      rw [hnext] at hfst
      rcases List.mem_singleton.mp hname with rfl
      exact hfst x hx

/-- **Names are ASCII.** -/
theorem ascii_of_mem {l : NameList} {name : Bytes} (h : name ∈ l.iter) : ∀ x ∈ name, x < 0x80 := by
  intro x hx
  unfold iter at h
  split at h
  · simp at h
  · exact checkNames_ok_ascii l.valid x (names_subset _ _ name h x hx)

end NameList

/-! ### Joining names -/

/-- Names with a comma between each two, as `write_name_list` emits them. -/
def joinNames : List Bytes → Bytes
  | [] => []
  | [name] => name
  | name :: next :: rest => name ++ comma :: joinNames (next :: rest)

/-- Scanning over a name only moves the offset. -/
theorem scanNames_append {name : Bytes} (h : name.all isNameByte = true) (rest : Bytes)
    (offset nameStart : Nat) :
    scanNames (name ++ rest) offset nameStart =
      scanNames rest (offset + name.length) nameStart := by
  induction name generalizing offset with
  | nil => simp
  | cons b _ ih =>
    simp only [List.all_cons, Bool.and_eq_true] at h
    have hb : b ≠ comma := by
      rintro rfl
      simp [isNameByte] at h
    rw [List.cons_append, scanNames, if_neg hb, if_neg (by simp [h.1]), ih h.2]
    congr 1
    simp only [List.length_cons]
    omega

/-- Scanning joined names ends with the start of the last one, which is before the end. -/
theorem scanNames_joinNames {names : List Bytes} (hne : names ≠ [])
    (h : ∀ n ∈ names, isValidName n = true) (offset : Nat) :
    ∃ e, scanNames (joinNames names) offset offset = .ok e ∧
      e < offset + (joinNames names).length := by
  induction names generalizing offset with
  | nil => exact absurd rfl hne
  | cons name rest ih =>
    have hname := h name List.mem_cons_self
    simp only [isValidName, Bool.and_eq_true, Bool.not_eq_true'] at hname
    have hpos : 0 < name.length := by
      cases name with
      | nil => simp at hname
      | cons => simp
    cases rest with
    | nil =>
      refine ⟨offset, ?_, by simpa [joinNames] using hpos⟩
      have hscan := scanNames_append hname.2 [] offset offset
      simpa [joinNames, scanNames] using hscan
    | cons =>
      obtain ⟨e, he, hlt⟩ := ih (by simp) (fun n hn => h n (List.mem_cons_of_mem _ hn))
        (offset + name.length + 1)
      refine ⟨e, ?_, ?_⟩
      · rw [joinNames, scanNames_append hname.2, scanNames, if_pos rfl, if_neg (by omega), he]
      · simp only [joinNames, List.length_append, List.length_cons]
        omega

/-- Joined valid names pass the check. -/
theorem checkNames_joinNames {names : List Bytes} (h : ∀ n ∈ names, isValidName n = true) :
    checkNames (joinNames names) = .ok () := by
  by_cases hne : names = []
  · subst hne
    rfl
  · obtain ⟨e, he, hlt⟩ := scanNames_joinNames hne h 0
    unfold checkNames
    split
    · rfl
    · rw [he]
      simp only
      rw [if_neg (by omega)]

/-- The list made of joined valid names. -/
def NameList.ofNames (names : List Bytes) (h : ∀ n ∈ names, isValidName n = true) : NameList :=
  ⟨joinNames names, checkNames_joinNames h⟩

/-- A valid name holds no comma. -/
theorem findIdx?_comma_of_isValidName {name : Bytes} (h : isValidName name = true) :
    name.findIdx? (· == comma) = none := by
  rw [List.findIdx?_eq_none_iff]
  intro x hx
  simp only [isValidName, Bool.and_eq_true, List.all_eq_true] at h
  have hbyte := h.2 x hx
  simp only [isNameByte, Bool.and_eq_true, bne_iff_ne] at hbyte
  simpa using hbyte.2

/-- Splitting joined names gives the names back. -/
theorem NameList.names_joinNames {names : List Bytes} (hne : names ≠ [])
    (h : ∀ n ∈ names, isValidName n = true) {fuel : Nat} (hfuel : names.length ≤ fuel) :
    NameList.names fuel (joinNames names) = names := by
  induction names generalizing fuel with
  | nil => exact absurd rfl hne
  | cons name rest ih =>
    obtain ⟨fuel, rfl⟩ : ∃ k, fuel = k + 1 := ⟨fuel - 1, by simp at hfuel; omega⟩
    have hcomma := findIdx?_comma_of_isValidName (h name List.mem_cons_self)
    cases rest with
    | nil => simp [joinNames, NameList.names, NameList.next, hcomma]
    | cons next rest =>
      have hnext : NameList.next (name ++ comma :: joinNames (next :: rest)) =
          (name, some (joinNames (next :: rest))) := by
        unfold NameList.next
        rw [List.findIdx?_append, hcomma, List.findIdx?_cons]
        simp
      simp only [List.length_cons] at hfuel
      rw [joinNames, NameList.names, hnext]
      simp only
      rw [ih (by simp) (fun n hn => h n (List.mem_cons_of_mem _ hn)) (by simp; omega)]

/-- There are at least as many bytes and one as there are names. -/
theorem length_le_length_joinNames {names : List Bytes} (h : ∀ n ∈ names, isValidName n = true) :
    names.length ≤ (joinNames names).length := by
  induction names with
  | nil => simp
  | cons name rest ih =>
    have hname := h name List.mem_cons_self
    have hpos : 0 < name.length := by
      cases name with
      | nil => simp [isValidName] at hname
      | cons => simp
    have hrest := ih (fun n hn => h n (List.mem_cons_of_mem _ hn))
    cases rest with
    | nil => exact hpos
    | cons =>
      simp only [joinNames, List.length_append, List.length_cons] at hrest ⊢
      omega

/-- **The names of joined names are those names.** -/
theorem NameList.iter_ofNames {names : List Bytes} (h : ∀ n ∈ names, isValidName n = true) :
    (NameList.ofNames names h).iter = names := by
  have hlen := length_le_length_joinNames h
  unfold NameList.iter NameList.ofNames
  simp only
  cases names with
  | nil => rfl
  | cons name rest =>
    have hne : (joinNames (name :: rest)).isEmpty = false := by
      rw [List.isEmpty_eq_false_iff]
      rintro hnil
      simp [hnil] at hlen
    rw [hne]
    exact NameList.names_joinNames (by simp) h (by omega)

/-- A list of names is not empty. -/
theorem NameList.isEmpty_ofNames {names : List Bytes} (h : ∀ n ∈ names, isValidName n = true)
    (hne : names ≠ []) : (NameList.ofNames names h).isEmpty = false := by
  have hlen := length_le_length_joinNames h
  have hpos := List.length_pos_iff.mpr hne
  change (joinNames names).isEmpty = false
  rw [List.isEmpty_eq_false_iff]
  exact List.ne_nil_of_length_pos (by omega)

/-- A scan that does not end behind a comma has passed over joined valid names; `current` is the
part of the name it was in. -/
theorem exists_names_of_scanNames (current : Bytes) {offset nameStart e : Nat}
    (hstart : offset = nameStart + current.length) (hcurrent : current.all isNameByte = true)
    (h : scanNames body offset nameStart = .ok e) (hend : e ≠ offset + body.length) :
    ∃ names, names ≠ [] ∧ (∀ n ∈ names, isValidName n = true) ∧
      current ++ body = joinNames names := by
  induction body generalizing current offset nameStart with
  | nil =>
    cases h
    have hne : current ≠ [] := by
      rintro rfl
      exact hend hstart.symm
    refine ⟨[current], List.cons_ne_nil _ _, ?_, List.append_nil _⟩
    intro n hn
    rw [List.mem_singleton.mp hn, isValidName, hcurrent]
    simpa using hne
  | cons b rest ih =>
    rw [scanNames] at h
    by_cases hcomma : b = comma
    · rw [if_pos hcomma] at h
      split at h
      · cases h
      rename_i hnot
      have hne : current ≠ [] := by
        rintro rfl
        exact hnot hstart
      have hrest : e ≠ offset + 1 + rest.length := by
        rw [List.length_cons] at hend
        omega
      obtain ⟨names, hnames, hvalid, hjoin⟩ := ih [] rfl rfl h hrest
      obtain ⟨next, names, rfl⟩ := List.exists_cons_of_ne_nil hnames
      refine ⟨current :: next :: names, List.cons_ne_nil _ _, ?_, ?_⟩
      · refine List.forall_mem_cons.mpr ⟨?_, hvalid⟩
        rw [isValidName, hcurrent]
        simpa using hne
      · rw [joinNames, ← hjoin, hcomma, List.nil_append]
    · rw [if_neg hcomma] at h
      split at h
      · cases h
      rename_i hbyte
      have hall : (current ++ [b]).all isNameByte = true := by
        simpa [hcurrent] using hbyte
      have hstart' : offset + 1 = nameStart + (current ++ [b]).length := by
        rw [List.length_append, List.length_singleton]
        omega
      have hrest : e ≠ offset + 1 + rest.length := by
        rw [List.length_cons] at hend
        omega
      obtain ⟨names, hnames, hvalid, hjoin⟩ := ih (current ++ [b]) hstart' hall h hrest
      exact ⟨names, hnames, hvalid, by rw [← hjoin, List.append_assoc]; rfl⟩

/-- **A name list is its names, joined**, and they are valid. -/
theorem NameList.iter_valid (l : NameList) :
    (∀ n ∈ l.iter, isValidName n = true) ∧ joinNames l.iter = l.body := by
  have hnames : ∃ names, ∃ h : ∀ n ∈ names, isValidName n = true, l = ofNames names h := by
    have hvalid := l.valid
    rw [checkNames] at hvalid
    split at hvalid
    · rename_i hempty
      exact ⟨[], nofun, NameList.ext (List.isEmpty_iff.mp hempty)⟩
    · split at hvalid
      · cases hvalid
      rename_i e hscan
      split at hvalid
      · cases hvalid
      rename_i hend
      obtain ⟨names, -, hall, hjoin⟩ := exists_names_of_scanNames [] rfl rfl hscan
        (fun heq => hend (heq.trans (Nat.zero_add _)))
      exact ⟨names, hall, NameList.ext hjoin⟩
  obtain ⟨names, hall, rfl⟩ := hnames
  rw [iter_ofNames]
  exact ⟨hall, rfl⟩

end Tatami.Wire
