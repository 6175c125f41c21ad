import Tatami.Wire.ExtInfo
import Tatami.Wire.Formats

/-! # `EXT_INFO` is accepted exactly when it was encoded

The count of an `EXT_INFO` is the peer's, and the pairs behind it are read lazily:

* `ExtInfo.payload_of_accepted`, `ExtInfo.accepted_of_payload`: the header decodes and the walk over
  the pairs succeeds exactly on the encodings of pairs;
* `Extensions.item_eq`: what the calls of the iterator return, one after the other;
* `extInfo_acceptance_exact`: both, with the encoder's side. -/

namespace Tatami.Wire

open Reader Cursor

/-! ### Pairs -/

/-- The bytes of one pair. -/
def pairBytes (pair : Bytes × Bytes) : Bytes := lengthPrefixed pair.1 ++ lengthPrefixed pair.2

/-- The bytes of pairs, one behind the other. -/
def pairsBytes (pairs : List (Bytes × Bytes)) : Bytes := pairs.flatMap pairBytes

/-- The strings of a pair fit their length fields. -/
def ShortPair (pair : Bytes × Bytes) : Prop := pair.1.length < 2 ^ 32 ∧ pair.2.length < 2 ^ 32

/-- The bytes of an `EXT_INFO`. -/
def extInfoPayload (pairs : List (Bytes × Bytes)) : Bytes :=
  [Msg.extInfo] ++ (beBytes 4 pairs.length ++ pairsBytes pairs)

/-- The count and the strings fit their fields. -/
def ShortPairs (pairs : List (Bytes × Bytes)) : Prop :=
  pairs.length < 2 ^ 32 ∧ ∀ pair ∈ pairs, ShortPair pair

/-- A pair takes eight bytes at least. -/
theorem minPairLen_le_length (pair : Bytes × Bytes) : minPairLen ≤ (pairBytes pair).length := by
  rw [pairBytes, List.length_append, length_lengthPrefixed, length_lengthPrefixed, minPairLen]
  omega

/-- Pairs take eight bytes each at least. -/
theorem mul_minPairLen_le_length (pairs : List (Bytes × Bytes)) :
    pairs.length * minPairLen ≤ (pairsBytes pairs).length := by
  induction pairs with
  | nil => simp
  | cons pair rest =>
    have hpair := minPairLen_le_length pair
    have hsplit : pairsBytes (pair :: rest) = pairBytes pair ++ pairsBytes rest :=
      List.flatMap_cons
    rw [hsplit, List.length_append, List.length_cons, Nat.succ_mul]
    omega

variable {p : Bytes} {ps : List (Bytes × Bytes)}

/-! ### The walks over the pairs -/

namespace ExtInfo

variable {r r' : Reader}

/-- One pair is read exactly from its bytes. -/
theorem readPair_ok_iff {pair : Bytes × Bytes} :
    readPair r = (.ok pair, r') ↔ ShortPair pair ∧ r.Advances (pairBytes pair) r' := by
  unfold readPair
  simp only [bind_ok_iff, field_ok_iff, readString_ok_iff, pure_ok_iff]
  constructor
  · rintro ⟨_, r₁, ⟨hname, h₁⟩, _, _, ⟨hvalue, h₂⟩, rfl, rfl⟩
    exact ⟨⟨hname, hvalue⟩, h₁.trans h₂⟩
  · rintro ⟨⟨hname, hvalue⟩, hadv⟩
    obtain ⟨r₁, h₁, h₂⟩ := hadv.split
    exact ⟨pair.1, r₁, ⟨hname, h₁⟩, pair.2, r', ⟨hvalue, h₂⟩, rfl, rfl⟩

/-- The validating walk succeeds exactly over the bytes of so many pairs. That it stops at the end
of the payload first makes no difference: no pair is empty. -/
theorem validatePairs_ok_iff {claimed : UInt32} {left found : Nat} :
    validatePairs claimed left found r = .ok r' ↔
      ∃ pairs, pairs.length = left ∧ (∀ pair ∈ pairs, ShortPair pair) ∧
        r.Advances (pairsBytes pairs) r' := by
  induction left generalizing found r with
  | zero =>
    simp only [validatePairs, Except.ok.injEq, List.length_eq_zero_iff]
    constructor
    · rintro rfl
      exact ⟨[], rfl, by simp, rfl, rfl⟩
    · rintro ⟨_, rfl, -, hi, hremaining⟩
      exact (eq_of_remaining_eq hi hremaining.symm).symm
  | succ left ih =>
    unfold validatePairs
    constructor
    · intro h
      split at h
      · cases h
      · split at h
        · cases h
        · next pair r₁ hread =>
          obtain ⟨hpair, hadv⟩ := readPair_ok_iff.mp hread
          obtain ⟨pairs, hlen, hshort, hrest⟩ := ih.mp h
          refine ⟨pair :: pairs, by rw [List.length_cons, hlen], ?_, hadv.trans hrest⟩
          exact List.forall_mem_cons.mpr ⟨hpair, hshort⟩
    · rintro ⟨_ | ⟨pair, pairs⟩, hlen, hshort, hadv⟩
      · cases hlen
      · obtain ⟨hpair, hshort⟩ := List.forall_mem_cons.mp hshort
        obtain ⟨r₁, hfirst, hrest⟩ := Reader.Advances.split (a := pairBytes pair) hadv
        have hmore : r.isEmpty = false := by
          have hlong := minPairLen_le_length pair
          have hlength := congrArg List.length hfirst.2
          rw [length_remaining, List.length_append, remainingLen] at hlength
          rw [isEmpty, beq_eq_false_iff_ne]
          unfold minPairLen at hlong
          omega
        rw [hmore, readPair_ok_iff.mpr ⟨hpair, hfirst⟩]
        exact ih.mpr ⟨pairs, Nat.succ.inj hlen, hshort, hrest⟩

/-- The lazy walk lists the pairs it passes over. -/
theorem pairs_eq (hshort : ∀ pair ∈ ps, ShortPair pair) (h : r.Advances (pairsBytes ps) r') :
    pairs ps.length r = ps.map .ok := by
  induction ps generalizing r with
  | nil => rfl
  | cons pair _ ih =>
    obtain ⟨hpair, hshort⟩ := List.forall_mem_cons.mp hshort
    obtain ⟨_, hfirst, hrest⟩ := Reader.Advances.split (a := pairBytes pair) h
    rw [List.length_cons, pairs, readPair_ok_iff.mpr ⟨hpair, hfirst⟩, List.map_cons]
    exact congrArg (Except.ok pair :: ·) (ih hshort hrest)

/-- The lazy walk never lists more than it was asked for. -/
theorem length_pairs_le (n : Nat) (r : Reader) : (pairs n r).length ≤ n := by
  induction n generalizing r with
  | zero => exact Nat.le_refl 0
  | succ n ih =>
    unfold pairs
    split
    · exact Nat.succ_le_succ (ih _)
    · simp

theorem pairs_error_last {n k : Nat} {e : MessageError}
    (h : (pairs n r)[k]? = some (.error e)) : k + 1 = (pairs n r).length := by
  induction n generalizing r k with
  | zero => cases h
  | succ n ih =>
    unfold pairs at h ⊢
    split at h
    · cases k with
      | zero => cases h
      | succ => exact congrArg (· + 1) (ih h)
    · cases k with
      | zero => rfl
      | succ => cases h

/-! ### The iterator -/

/-- The iterator after so many calls. -/
def Extensions.after : Nat → Extensions → Extensions
  | 0, it => it
  | k + 1, it => after k it.next.2

/-- What a call of the iterator returns after so many others. -/
def Extensions.item (it : Extensions) (k : Nat) : Option (Except MessageError (Bytes × Bytes)) :=
  (it.after k).next.1

/-- An iterator that failed or is used up returns nothing, ever. -/
theorem Extensions.item_of_done {it : Extensions} (h : it.failed = true ∨ it.remaining = 0)
    (k : Nat) : it.item k = none := by
  have hnext : it.next = (none, it) := by
    unfold Extensions.next
    rcases h with h | h <;> simp [h]
  have hafter : it.after k = it := by
    induction k with
    | zero => rfl
    | succ k ih => rw [Extensions.after, hnext, ih]
  rw [Extensions.item, hafter, hnext]

/-- **The calls of the iterator return the listed items, and nothing behind them.** -/
theorem Extensions.item_eq (n : Nat) (r : Reader) (k : Nat) :
    Extensions.item ⟨r, n, false⟩ k = (pairs n r)[k]? := by
  induction n generalizing r k with
  | zero => exact Extensions.item_of_done (.inr rfl) k
  | succ n ih =>
    unfold pairs
    cases hread : readPair r with
    | mk result r₁ =>
      cases result with
      | ok pair =>
        have hnext : Extensions.next ⟨r, n + 1, false⟩ = (some (.ok pair), ⟨r₁, n, false⟩) := by
          simp [Extensions.next, hread]
        cases k with
        | zero => simp [Extensions.item, Extensions.after, hnext]
        | succ k =>
          rw [Extensions.item, Extensions.after, hnext]
          exact ih r₁ k
      | error e =>
        have hnext : Extensions.next ⟨r, n + 1, false⟩ = (some (.error e), ⟨r₁, n + 1, true⟩) := by
          simp [Extensions.next, hread]
        cases k with
        | zero => simp [Extensions.item, Extensions.after, hnext]
        | succ k =>
          rw [Extensions.item, Extensions.after, hnext]
          exact Extensions.item_of_done (.inl rfl) k

/-! ### Accepted payloads -/

/-- The header is accepted when the count fits what follows it. -/
theorem decode_ok_iff {e : ExtInfo} :
    decode p = .ok e ↔ (new p).Advances ([Msg.extInfo] ++ beBytes 4 e.claimed.toNat) e.body ∧
      e.count = e.claimed.toNat ∧ e.claimed.toNat ≤ e.body.remainingLen / minPairLen := by
  rw [decode, decodeWith_ok_iff]
  simp only [bind_ok_iff, expectMessage_ok_iff, field_ok_iff, readU32_ok_iff,
    here_apply, Prod.mk.injEq, Except.ok.injEq]
  constructor
  · rintro ⟨_, -, r₁, hnumber, _, _, ⟨rfl, rfl⟩, _, _, hcount, _, _, ⟨rfl, rfl⟩, h⟩
    split at h
    · next hfits =>
      obtain ⟨rfl, rfl⟩ := pure_ok_iff.mp h
      exact ⟨hnumber.trans hcount, rfl, hfits⟩
    · exact absurd h fail_ne_ok
  · rintro ⟨hadv, hcount, hfits⟩
    obtain ⟨r₁, hnumber, hclaimed⟩ := hadv.split
    refine ⟨e.body, (), r₁, hnumber, r₁, r₁, ⟨rfl, rfl⟩, e.claimed, e.body, hclaimed, e.body,
      e.body, ⟨rfl, rfl⟩, ?_⟩
    rw [if_pos hfits]
    exact pure_ok_iff.mpr ⟨by rw [← hcount], rfl⟩

/-- The walk over all pairs succeeds when they are as many as allowed and nothing follows them. -/
theorem validate_ok_iff {e : ExtInfo} {max n : Nat} :
    e.validate max = .ok n ↔ n = e.count ∧ n ≤ max ∧
      ∃ pairs, pairs.length = n ∧ (∀ pair ∈ pairs, ShortPair pair) ∧
        e.body.remaining = pairsBytes pairs := by
  unfold validate
  constructor
  · intro h
    split at h
    · cases h
    · next hmax =>
      split at h
      · cases h
      · next r' hwalk =>
        split at h
        · cases h
        · next hfinish =>
          cases h
          obtain ⟨pairs, hlen, hshort, -, hadv⟩ := validatePairs_ok_iff.mp hwalk
          obtain ⟨_, hend⟩ := fst_ok_iff.mp hfinish
          rw [(finish_ok_iff.mp hend).2, List.append_nil] at hadv
          exact ⟨rfl, Nat.not_lt.mp hmax, pairs, hlen, hshort, hadv⟩
  · rintro ⟨rfl, hmax, pairs, hlen, hshort, hbody⟩
    obtain ⟨r', hadv, hend⟩ := exists_advances (hbody.trans (List.append_nil _).symm)
    have hfinish : (finish r').1 = .ok () :=
      fst_ok_iff.mpr ⟨r', finish_ok_iff.mpr ⟨rfl, hend⟩⟩
    rw [if_neg (Nat.not_lt.mpr hmax), validatePairs_ok_iff.mpr ⟨pairs, hlen, hshort, hadv⟩]
    simp only [hfinish]

/-- An accepted payload is the encoding of its pairs. -/
theorem payload_of_accepted {e : ExtInfo} {max n : Nat} (hdecode : decode p = .ok e)
    (hvalid : e.validate max = .ok n) :
    ∃ ps, ShortPairs ps ∧ p = extInfoPayload ps ∧ ps.length = n ∧ n ≤ max ∧
      e.extensions = ps.map .ok := by
  obtain ⟨⟨-, hp⟩, hcount, -⟩ := decode_ok_iff.mp hdecode
  obtain ⟨rfl, hmax, ps, hlen, hshort, hbody⟩ := validate_ok_iff.mp hvalid
  have hsmall : ps.length = e.claimed.toNat := hlen.trans hcount
  obtain ⟨_, hadv, -⟩ := exists_advances (hbody.trans (List.append_nil _).symm)
  refine ⟨ps, ⟨hsmall ▸ e.claimed.toNat_lt, hshort⟩, ?_, hlen, hmax, ?_⟩
  · rw [extInfoPayload, hsmall, ← hbody, ← List.append_assoc]
    exact hp
  · rw [extensions, ← hlen]
    exact pairs_eq hshort hadv

/-- The encoding of pairs is accepted: its count passes the check of the header. -/
theorem accepted_of_payload (hshort : ShortPairs ps) :
    ∃ e, decode (extInfoPayload ps) = .ok e ∧ e.extensions = ps.map .ok ∧
      ∀ max, ps.length ≤ max → e.validate max = .ok ps.length := by
  obtain ⟨r₁, hadv, hrest⟩ := exists_advances (r := new (extInfoPayload ps))
    (b := [Msg.extInfo] ++ beBytes 4 ps.length) (v := pairsBytes ps)
    (by rw [remaining_new, extInfoPayload, List.append_assoc])
  have hclaimed : (UInt32.ofNat ps.length).toNat = ps.length := UInt32.toNat_ofNat_of_lt' hshort.1
  obtain ⟨_, hpairs, -⟩ := exists_advances (hrest.trans (List.append_nil _).symm)
  refine ⟨⟨UInt32.ofNat ps.length, ps.length, r₁⟩, decode_ok_iff.mpr ⟨?_, ?_, ?_⟩,
    pairs_eq hshort.2 hpairs, ?_⟩
  · rw [hclaimed]
    exact hadv
  · exact hclaimed.symm
  · have hlong := mul_minPairLen_le_length ps
    rw [hclaimed, ← length_remaining, hrest]
    exact (Nat.le_div_iff_mul_le (by decide)).mpr hlong
  · intro max hmax
    exact validate_ok_iff.mpr ⟨rfl, hmax, ps, rfl, hshort.2, hrest⟩

/-- The search for the named pair, when every pair could be read. -/
theorem findServerSigAlgs_eq (ps : List (Bytes × Bytes)) :
    findServerSigAlgs (ps.map .ok) =
      (ps.find? fun pair => pair.1 == utf8 "server-sig-algs").map fun pair =>
        (NameList.parse pair.2).mapError .invalidServerSigAlgs := by
  induction ps with
  | nil => rfl
  | cons pair _ ih =>
    obtain ⟨name, value⟩ := pair
    rw [List.map_cons, findServerSigAlgs]
    by_cases hname : name = utf8 "server-sig-algs"
    · rw [if_pos hname, List.find?_cons_of_pos (by simpa using hname), Option.map_some]
      cases NameList.parse value <;> rfl
    · rw [if_neg hname, List.find?_cons_of_neg (by simpa using hname), ih]

end ExtInfo

/-! ### What the encoder can produce -/

/-- An encoder fills some buffer with the bytes. -/
def Outputs (encode : Bytes → Except EncodeError Nat × Bytes) (bytes : Bytes) : Prop :=
  ∃ out out', encode out = (.ok bytes.length, out') ∧ out'.take bytes.length = bytes

namespace Writer

/-- Where the encoder succeeds, the condition holds and it wrote the bytes. -/
def Yields (x : Encoder Unit) (condition : Prop) (bytes : Bytes) : Prop :=
  ∀ w w', x w = (.ok (), w') → condition ∧ w'.written = w.written ++ bytes ∧
    w'.pos = w.pos + bytes.length

/-- An encoder that writes where there is room, and succeeds nowhere else. -/
theorem Writes.yields {x : Encoder Unit} {bytes : Bytes} (h : Writes x bytes) :
    Yields x True bytes := by
  intro w w' hrun
  by_cases hfits : bytes.length ≤ w.capacityRemaining
  · obtain ⟨w₁, hok, hwritten, hpos, -⟩ := h.produces w hfits
    cases hok.symm.trans hrun
    exact ⟨trivial, hwritten, hpos⟩
  · obtain ⟨_, _, w₁, hfail⟩ := h.overflows w (Nat.not_le.mp hfits)
    cases hfail.symm.trans hrun

/-- A body behind its length is written only if the length fits. -/
theorem yields_writePrefixed (body : Bytes) :
    Yields (writePrefixed body) (body.length < 2 ^ 32) (lengthPrefixed body) := by
  intro w w' hrun
  by_cases hlt : body.length < 2 ^ 32
  · exact ⟨hlt, ((writes_writePrefixed hlt).yields w w' hrun).2⟩
  · rw [writePrefixed, if_neg hlt] at hrun
    cases hrun

theorem Yields.seq {x y : Encoder Unit} {c d : Prop} {a b : Bytes} (hx : Yields x c a)
    (hy : Yields y d b) : Yields (x >>= fun _ => y) (c ∧ d) (a ++ b) := by
  intro w w' hrun
  obtain ⟨_, w₁, hfirst, hsecond⟩ := bind_ok_iff.mp hrun
  obtain ⟨hc, hwritten₁, hpos₁⟩ := hx w w₁ hfirst
  obtain ⟨hd, hwritten₂, hpos₂⟩ := hy w₁ w' hsecond
  refine ⟨⟨hc, hd⟩, ?_, ?_⟩
  · rw [hwritten₂, hwritten₁, List.append_assoc]
  · rw [hpos₂, hpos₁, List.length_append, Nat.add_assoc]

/-- What fills a buffer is what the encoder yields. -/
theorem Yields.outputs {x : Encoder Unit} {c : Prop} {bytes : Bytes} (h : Yields x c bytes)
    (hp : Outputs (run x) p) : c ∧ p = bytes := by
  obtain ⟨_, _, hrun, htake⟩ := hp
  unfold run at hrun
  split at hrun
  · next w hw =>
    obtain ⟨hc, hwritten, hpos⟩ := h _ _ hw
    simp only [Prod.mk.injEq, Except.ok.injEq] at hrun
    obtain ⟨hlen, rfl⟩ := hrun
    refine ⟨hc, ?_⟩
    rw [← htake, ← hlen]
    simpa [written, new] using hwritten
  · cases hrun

end Writer

/-- Pairs are written only if their strings are short. -/
theorem yields_writePairs (ps : List (Bytes × Bytes)) :
    Writer.Yields (writePairs ps) (∀ pair ∈ ps, ShortPair pair) (pairsBytes ps) := by
  induction ps with
  | nil =>
    intro w w' hrun
    exact ⟨by simp, (Writer.writes_pure.yields w w' hrun).2⟩
  | cons pair _ ih =>
    intro w w' hrun
    have hall := (Writer.yields_writePrefixed pair.1).seq
      ((Writer.yields_writePrefixed pair.2).seq ih)
    obtain ⟨⟨hname, hvalue, hrest⟩, hwritten⟩ := hall w w' hrun
    refine ⟨List.forall_mem_cons.mpr ⟨⟨hname, hvalue⟩, hrest⟩, ?_⟩
    rw [pairsBytes, List.flatMap_cons, pairBytes, List.append_assoc]
    exact hwritten

theorem writes_writePairs (hshort : ∀ pair ∈ ps, ShortPair pair) :
    Writer.Writes (writePairs ps) (pairsBytes ps) := by
  induction ps with
  | nil => exact Writer.writes_pure
  | cons _ _ ih =>
    obtain ⟨⟨hname, hvalue⟩, hrest⟩ := List.forall_mem_cons.mp hshort
    rw [pairsBytes, List.flatMap_cons, pairBytes, List.append_assoc]
    exact (Writer.writes_writePrefixed hname).seq
      ((Writer.writes_writePrefixed hvalue).seq (ih hrest))

/-- **The encoder produces exactly the payloads of short pairs.** -/
theorem outputs_encodeExtInfo_iff :
    Outputs (encodeExtInfo ps) p ↔ ShortPairs ps ∧ p = extInfoPayload ps := by
  have hcount (hlt : ps.length < 2 ^ 32) :
      Writer.Writes (Writer.writeU32 (UInt32.ofNat ps.length)) (beBytes 4 ps.length) := by
    have hwrites : Writer.Writes (Writer.writeU32 (UInt32.ofNat ps.length))
        (beBytes 4 (UInt32.ofNat ps.length).toNat) := Writer.writes_writeBytes _
    rwa [UInt32.toNat_ofNat_of_lt' hlt] at hwrites
  have hrun (hlt : ps.length < 2 ^ 32) (out : Bytes) : encodeExtInfo ps out = _ := if_pos hlt
  constructor
  · rintro ⟨out, out', hok, htake⟩
    by_cases hlt : ps.length < 2 ^ 32
    · rw [hrun hlt] at hok
      obtain ⟨⟨-, -, hshort⟩, hp⟩ := ((Writer.writes_writeBytes [Msg.extInfo]).yields.seq
        ((hcount hlt).yields.seq (yields_writePairs ps))).outputs ⟨out, out', hok, htake⟩
      exact ⟨⟨hlt, hshort⟩, hp⟩
    · rw [encodeExtInfo, if_neg hlt] at hok
      cases hok
  · rintro ⟨⟨hlt, hshort⟩, rfl⟩
    have hwrites := (Writer.writes_writeBytes [Msg.extInfo]).seq
      ((hcount hlt).seq (writes_writePairs hshort))
    obtain ⟨out', hok, htake⟩ := hwrites.encodesTo.large (extInfoPayload ps) (Nat.le_refl _)
    exact ⟨extInfoPayload ps, out', (hrun hlt _).trans hok, htake⟩

/-- **`EXT_INFO` acceptance is exact.** The header decodes and the walk returns `n` exactly on what
the encoder produces from `n` pairs within the limit. Those pairs are then determined, and are what
the iterator lists and what `server_sig_algs` searches. Whenever the header decodes, the calls of
the iterator return the items of a finite list and then nothing, at most as many as the count and
an error only as the last one. The count check rejects nothing the encoder produces. -/
theorem extInfo_acceptance_exact (p : Bytes) :
    (∀ max n, (∃ e, ExtInfo.decode p = .ok e ∧ e.validate max = .ok n) ↔
      ∃ ps : List (Bytes × Bytes), ps.length = n ∧ n ≤ max ∧ Outputs (encodeExtInfo ps) p) ∧
    (∀ e max n, ExtInfo.decode p = .ok e → e.validate max = .ok n →
      ∃ ps, Outputs (encodeExtInfo ps) p ∧ (∀ ps', Outputs (encodeExtInfo ps') p → ps' = ps) ∧
        e.extensions = ps.map .ok ∧
        e.serverSigAlgs = (ps.find? fun pair => pair.1 == utf8 "server-sig-algs").map fun pair =>
          (NameList.parse pair.2).mapError .invalidServerSigAlgs) ∧
    (∀ e, ExtInfo.decode p = .ok e →
      (∀ k, e.iterator.item k = e.extensions[k]?) ∧ e.extensions.length ≤ e.claimed.toNat ∧
        ∀ k err, e.extensions[k]? = some (.error err) → k + 1 = e.extensions.length) ∧
    (∀ ps, Outputs (encodeExtInfo ps) p → ∃ e, ExtInfo.decode p = .ok e) := by
  refine ⟨fun max n => ⟨?_, ?_⟩, ?_, ?_, ?_⟩
  · rintro ⟨e, hdecode, hvalid⟩
    obtain ⟨ps, hshort, hp, hlen, hmax, -⟩ := ExtInfo.payload_of_accepted hdecode hvalid
    exact ⟨ps, hlen, hmax, outputs_encodeExtInfo_iff.mpr ⟨hshort, hp⟩⟩
  · rintro ⟨ps, rfl, hmax, houtputs⟩
    obtain ⟨hshort, rfl⟩ := outputs_encodeExtInfo_iff.mp houtputs
    obtain ⟨e, hdecode, -, hvalid⟩ := ExtInfo.accepted_of_payload hshort
    exact ⟨e, hdecode, hvalid max hmax⟩
  · intro e max n hdecode hvalid
    obtain ⟨ps, hshort, hp, -, -, hext⟩ := ExtInfo.payload_of_accepted hdecode hvalid
    refine ⟨ps, outputs_encodeExtInfo_iff.mpr ⟨hshort, hp⟩, fun ps' houtputs => ?_, hext, ?_⟩
    · -- the payload of the other list is accepted as well, and lists that one
      obtain ⟨hshort', rfl⟩ := outputs_encodeExtInfo_iff.mp houtputs
      obtain ⟨_, hdecode', hext', -⟩ := ExtInfo.accepted_of_payload hshort'
      cases hdecode.symm.trans hdecode'
      exact List.map_injective_iff.mpr (fun _ _ => Except.ok.inj) (hext'.symm.trans hext)
    · rw [ExtInfo.serverSigAlgs, hext]
      exact ExtInfo.findServerSigAlgs_eq ps
  · intro e hdecode
    obtain ⟨-, hcount, -⟩ := ExtInfo.decode_ok_iff.mp hdecode
    refine ⟨ExtInfo.Extensions.item_eq e.count e.body, ?_, fun k err => ExtInfo.pairs_error_last⟩
    rw [← hcount]
    exact ExtInfo.length_pairs_le e.count e.body
  · intro ps houtputs
    obtain ⟨hshort, rfl⟩ := outputs_encodeExtInfo_iff.mp houtputs
    obtain ⟨e, hdecode, -⟩ := ExtInfo.accepted_of_payload hshort
    exact ⟨e, hdecode⟩

end Tatami.Wire
