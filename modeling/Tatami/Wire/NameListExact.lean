import Tatami.Wire.Primitives

/-! # What `name-list` accepts, and where it stops

`NameList::parse` accepts the joined lists of names and no other bytes, and reports where a list
stops being the beginning of one: a scan goes on exactly as long as what it has passed over can
still be continued to a valid list (`begins_iff`). Lists that are written are read back. -/

namespace Tatami.Wire

open NameList

/-- A name: some printable US-ASCII bytes, none of them the space or the comma. -/
def IsName (name : Bytes) : Prop :=
  name ≠ [] ∧ ∀ x ∈ name, 0x21 ≤ x ∧ x ≤ 0x7e ∧ x ≠ 0x2c

theorem isValidName_iff {name : Bytes} : isValidName name = true ↔ IsName name := by
  have hbyte (x : UInt8) : isNameByte x = true ↔ 0x21 ≤ x ∧ x ≤ 0x7e ∧ x ≠ 0x2c := by
    simp only [isNameByte, comma, Bool.and_eq_true, decide_eq_true_eq, bne_iff_ne, and_assoc]
    rw [UInt8.lt_iff_toNat_lt, UInt8.lt_iff_toNat_lt, UInt8.le_iff_toNat_le, UInt8.le_iff_toNat_le]
    exact and_congr Iff.rfl (and_congr Nat.lt_succ_iff Iff.rfl)
  rw [isValidName, IsName, Bool.and_eq_true, List.all_eq_true]
  simp [hbyte]

/-- The bytes are the beginning of a list of names. -/
def Begins (body : Bytes) : Prop :=
  ∃ names, (∀ n ∈ names, IsName n) ∧ body <+: joinNames names

/-- The position that an error of `NameList::parse` reports. -/
def InvalidEncoding.offset : InvalidEncoding → Nat
  | .nameListNonAscii offset => offset
  | .nameListEmptyName offset => offset

/-! ### The scan -/

/-- A scan over two parts is a scan over each. -/
theorem scanNames_append_ok_iff {a b : Bytes} {offset nameStart e : Nat} :
    scanNames (a ++ b) offset nameStart = .ok e ↔
      ∃ middle, scanNames a offset nameStart = .ok middle ∧
        scanNames b (offset + a.length) middle = .ok e := by
  induction a generalizing offset nameStart with
  | nil => simp [scanNames]
  | cons x a ih =>
    rw [List.cons_append, scanNames, scanNames, List.length_cons]
    split
    · split
      · simp
      · rw [ih, Nat.add_assoc, Nat.add_comm 1]
    · split
      · simp
      · rw [ih, Nat.add_assoc, Nat.add_comm 1]

/-- A scan ends with the start of a name that is not behind the end. -/
theorem scanNames_le {body : Bytes} {offset nameStart e : Nat} (hstart : nameStart ≤ offset)
    (h : scanNames body offset nameStart = .ok e) : e ≤ offset + body.length := by
  induction body generalizing offset nameStart with
  | nil =>
    cases h
    exact hstart
  | cons x body ih =>
    rw [List.length_cons, Nat.add_comm body.length, ← Nat.add_assoc]
    rw [scanNames] at h
    split at h
    · split at h
      · cases h
      · exact ih (Nat.le_refl _) h
    · split at h
      · cases h
      · exact ih (by omega) h

/-- **A scan goes on as long as the list can be continued.** -/
theorem begins_iff {body : Bytes} : Begins body ↔ ∃ e, scanNames body 0 0 = .ok e := by
  constructor
  · rintro ⟨names, hnames, _, hrest⟩
    have hscan : ∃ e, scanNames (joinNames names) 0 0 = .ok e := by
      by_cases hne : names = []
      · exact ⟨0, by rw [hne]; rfl⟩
      · obtain ⟨e, he, -⟩ :=
          scanNames_joinNames hne (fun n hn => isValidName_iff.mpr (hnames n hn)) 0
        exact ⟨e, he⟩
    rw [← hrest] at hscan
    obtain ⟨e, he⟩ := hscan
    obtain ⟨middle, hbody, -⟩ := scanNames_append_ok_iff.mp he
    exact ⟨middle, hbody⟩
  · rintro ⟨e, he⟩
    -- one more letter makes a list of what ends behind a comma
    have hmore : scanNames (body ++ [0x61]) 0 0 = .ok e := scanNames_append_ok_iff.mpr ⟨e, he, rfl⟩
    have hend : e ≠ 0 + (body ++ [0x61]).length := by
      have hle := scanNames_le (Nat.le_refl 0) he
      rw [List.length_append, List.length_singleton]
      omega
    obtain ⟨names, -, hvalid, hjoin⟩ := exists_names_of_scanNames [] rfl rfl hmore hend
    refine ⟨names, fun n hn => isValidName_iff.mp (hvalid n hn), ?_⟩
    rw [← hjoin]
    exact List.prefix_append _ _

/-- A scan that fails does so at the byte it reports, and not before. -/
theorem scanNames_error {body : Bytes} {offset nameStart : Nat} {e : InvalidEncoding}
    (h : scanNames body offset nameStart = .error e) :
    ∃ i < body.length, e.offset = offset + i ∧
      (∃ middle, scanNames (body.take i) offset nameStart = .ok middle) ∧
      scanNames (body.take (i + 1)) offset nameStart = .error e := by
  induction body generalizing offset nameStart with
  | nil => cases h
  | cons b rest ih =>
    -- the scan goes on behind `b`
    have hgo {start : Nat} (hstep : ∀ l, scanNames (b :: l) offset nameStart =
        scanNames l (offset + 1) start) : ∃ i < (b :: rest).length, e.offset = offset + i ∧
          (∃ middle, scanNames ((b :: rest).take i) offset nameStart = .ok middle) ∧
          scanNames ((b :: rest).take (i + 1)) offset nameStart = .error e := by
      rw [hstep] at h
      obtain ⟨i, hi, hoffset, ⟨middle, hmiddle⟩, hfails⟩ := ih h
      exact ⟨i + 1, Nat.succ_lt_succ hi, by omega, ⟨middle, (hstep _).trans hmiddle⟩,
        (hstep _).trans hfails⟩
    rw [scanNames] at h
    split at h
    · rename_i hcomma
      split at h
      · rename_i hempty
        cases h
        exact ⟨0, Nat.succ_pos _, rfl, ⟨_, rfl⟩, by simp [scanNames, hcomma, hempty]⟩
      · rename_i hempty
        exact hgo fun l => by rw [scanNames, if_pos hcomma, if_neg hempty]
    · rename_i hcomma
      split at h
      · rename_i hbyte
        cases h
        exact ⟨0, Nat.succ_pos _, rfl, ⟨_, rfl⟩, by
          rw [List.take_succ_cons, scanNames, if_neg hcomma, if_pos hbyte]⟩
      · rename_i hbyte
        exact hgo fun l => by rw [scanNames, if_neg hcomma, if_neg hbyte]

/-- A list that ends where its last name would begin ends with a comma. -/
theorem ends_with_comma {body : Bytes} (hne : body ≠ [])
    (h : scanNames body 0 0 = .ok body.length) : ∃ before, body = before ++ [comma] := by
  obtain rfl | ⟨before, x, rfl⟩ := List.eq_nil_or_concat body
  · exact absurd rfl hne
  rw [List.concat_eq_append] at h ⊢
  obtain ⟨_, hbefore, hlast⟩ := scanNames_append_ok_iff.mp h
  have hle := scanNames_le (Nat.le_refl 0) hbefore
  rw [List.length_append, List.length_singleton, scanNames] at hlast
  split at hlast
  · rename_i hcomma
    exact ⟨before, by rw [hcomma]⟩
  · split at hlast
    · cases hlast
    · cases hlast
      omega

/-! ### The contract -/

/-- Where `NameList::parse` stops: at the first byte with which the bytes so far no longer begin a
list, or at the end, behind a comma. -/
def StopsAt (body : Bytes) (offset : Nat) : Prop :=
  (offset < body.length ∧ Begins (body.take offset) ∧ ¬Begins (body.take (offset + 1))) ∨
  (offset = body.length ∧ Begins body ∧ ∃ before, body = before ++ [comma])

/-- An error of `parse` is at the place where it stops. -/
theorem NameList.stopsAt_of_parse {body : Bytes} {e : InvalidEncoding}
    (h : parse body = .error e) : StopsAt body e.offset := by
  have hcheck : checkNames body = .error e := by
    rw [parse] at h
    split at h
    · cases h
    · rename_i e' he
      cases h
      exact he
  unfold checkNames at hcheck
  split at hcheck
  · cases hcheck
  rename_i hnonempty
  split at hcheck
  · rename_i e' hscan
    cases hcheck
    obtain ⟨i, hi, hoffset, hbefore, hfails⟩ := scanNames_error hscan
    rw [StopsAt, hoffset, Nat.zero_add]
    refine .inl ⟨hi, begins_iff.mpr hbefore, ?_⟩
    rw [begins_iff, hfails]
    rintro ⟨_, ⟨⟩⟩
  · rename_i nameStart hscan
    split at hcheck
    · rename_i hend
      cases hcheck
      refine .inr ⟨hend, begins_iff.mpr ⟨_, hscan⟩, ends_with_comma ?_ (by rw [hscan, hend])⟩
      rintro rfl
      exact hnonempty rfl
    · cases hcheck

/-- **Name lists.** `parse` accepts exactly the joined lists of names, and the names it gives are
those; it reports where a list stops being the beginning of one. What is written for a list of names
is read back as that list and tells it from every other; an invalid name is reported by its index
before anything is written. -/
theorem name_lists_exact :
    (∀ body, (∃ l, parse body = .ok l) ↔
      ∃ names, (∀ n ∈ names, IsName n) ∧ body = joinNames names) ∧
    (∀ {body l}, parse body = .ok l →
      (∀ n ∈ l.iter, IsName n) ∧ joinNames l.iter = body ∧
        ∀ names, (∀ n ∈ names, IsName n) → body = joinNames names → l.iter = names) ∧
    (∀ {body e}, parse body = .error e → StopsAt body e.offset) ∧
    (∀ names, (∀ n ∈ names, IsName n) → (joinNames names).length < 2 ^ 32 → ∀ out : Bytes,
      4 + (joinNames names).length ≤ out.length → ∃ len out' l r,
        Writer.run (Writer.writeNameList names) out = (.ok len, out') ∧
        out'.take len = lengthPrefixed (joinNames names) ∧
        Reader.readNameList (.new (out'.take len)) = (.ok l, r) ∧ l.iter = names ∧
        r.remaining = []) ∧
    (∀ names names', (∀ n ∈ names, IsName n) → (∀ n ∈ names', IsName n) →
      (joinNames names).length < 2 ^ 32 → (joinNames names').length < 2 ^ 32 →
      lengthPrefixed (joinNames names) = lengthPrefixed (joinNames names') → names = names') ∧
    ∀ before name after, (∀ n ∈ before, IsName n) → ¬IsName name → ∀ w : Writer,
      Writer.writeNameList (before ++ name :: after) w =
        (.error (.invalidName before.length), w) := by
  have hvalid {names : List Bytes} (h : ∀ n ∈ names, IsName n) :
      ∀ n ∈ names, isValidName n = true := fun n hn => isValidName_iff.mpr (h n hn)
  have hiter {names : List Bytes} (h : ∀ n ∈ names, IsName n) {l : NameList}
      (hl : l.body = joinNames names) : l.iter = names := by
    rw [show l = .ofNames names (hvalid h) from ext hl]
    exact iter_ofNames _
  refine ⟨fun body => ⟨?_, ?_⟩, ?_, stopsAt_of_parse, ?_, ?_, ?_⟩
  · rintro ⟨l, hl⟩
    obtain ⟨hnames, hjoin⟩ := l.iter_valid
    exact ⟨l.iter, fun n hn => isValidName_iff.mp (hnames n hn),
      (parse_ok_iff.mp hl).symm.trans hjoin.symm⟩
  · rintro ⟨names, hnames, rfl⟩
    exact ⟨.ofNames names (hvalid hnames), parse_ok_iff.mpr rfl⟩
  · intro body l hl
    obtain rfl := parse_ok_iff.mp hl
    obtain ⟨hnames, hjoin⟩ := l.iter_valid
    exact ⟨fun n hn => isValidName_iff.mp (hnames n hn), hjoin, fun names h heq => hiter h heq⟩
  · intro names hnames hlt out hroom
    have hproduces := Writer.produces_writeNameList (hvalid hnames) hlt
    have hfits : (lengthPrefixed (joinNames names)).length ≤ out.length := by simpa using hroom
    obtain ⟨out', hrun, hout⟩ := hproduces.run_eq hfits
    obtain ⟨r, hadvances, hleft⟩ := Reader.exists_advances_all (lengthPrefixed (joinNames names))
    refine ⟨_, out', .ofNames names (hvalid hnames), r, hrun, hout, ?_, iter_ofNames _,
      hleft⟩
    rw [hout]
    exact Reader.readNameList_ok_iff.mpr ⟨hlt, hadvances⟩
  · intro names names' hnames hnames' hlt hlt' heq
    obtain ⟨hbody, -⟩ := lengthPrefixed_append_inj hlt hlt' (congrArg (· ++ []) heq)
    rw [← iter_ofNames (hvalid hnames), ← hiter hnames' (l := .ofNames names _) hbody]
  · intro before name after hbefore hname w
    have hindex : (before ++ name :: after).findIdx? (fun n => !isValidName n) =
        some before.length := by
      have hnone : before.findIdx? (fun n => !isValidName n) = none := by
        rw [List.findIdx?_eq_none_iff]
        intro n hn
        simp [hvalid hbefore n hn]
      have hfalse : isValidName name = false :=
        Bool.eq_false_iff.mpr fun htrue => hname (isValidName_iff.mp htrue)
      rw [List.findIdx?_append, hnone, List.findIdx?_cons, hfalse]
      simp
    rw [Writer.writeNameList, hindex]

end Tatami.Wire
