import Tatami.Lib.Format
import Tatami.Wire.Channel
import Tatami.Wire.KexInit

/-! # What decoders read and encoders write

The fields of the wire format in both directions, and how they are put together:

* `Decodes` and `DecodesAll` say which strings a decoder reads, field by field; what a decoder reads
  without looking behind it is prefix-free, since a decoder is a function;
* `Writer.Writes` says what an encoder writes, and that it fails when that does not fit;
* `ExactCodec` puts the two together, `SelfDelimiting` says that no accepted payload is the
  beginning of another one. -/

namespace Tatami.Wire

open Reader Cursor

variable {α β ε : Type}

/-! ### What a decoder reads -/

/-- A reader can be moved over what is next. -/
theorem Reader.exists_advances {r : Reader} {b v : Bytes} (h : r.remaining = b ++ v) :
    ∃ r', r.Advances b r' ∧ r'.remaining = v := by
  have hle : b.length ≤ r.remainingLen := by
    rw [← r.length_remaining, h, List.length_append]
    omega
  have hsplit := r.remaining_eq_peek_append b.length hle
  obtain ⟨-, hrest⟩ :=
    List.append_inj (h.symm.trans hsplit) (r.peek b.length hle).length_toBytes.symm
  exact ⟨r.skip b.length hle, ⟨rfl, by rw [h, hrest]⟩, hrest.symm⟩

/-- The decoder moves over exactly the strings of the format. -/
def Decodes (x : Decoder ε α) (F : Format α UInt8) : Prop :=
  ∀ {r r' : Reader} {a : α}, x r = (.ok a, r') ↔ ∃ b, F a b ∧ r.Advances b r'

/-- The decoder accepts what remains exactly when it is a string of the format. -/
def DecodesAll (x : Decoder ε α) (F : Format α UInt8) : Prop :=
  ∀ {r : Reader} {a : α}, (∃ r', x r = (.ok a, r')) ↔ F a r.remaining

namespace Decodes

variable {x : Decoder ε α} {F : Format α UInt8}

theorem field {x : Decoder DecodeError α} (h : Decodes x F) (name : String) :
    Decodes (Wire.field name x) F := by
  intro r r' a
  rw [field_ok_iff]
  exact h

/-- Other errors change nothing about what is read. -/
theorem mapError {δ : Type} (h : Decodes x F) (f : ε → δ) : Decodes (x.mapError f) F := by
  intro r r' a
  rw [mapError_ok_iff]
  exact h

/-- **What a decoder reads is prefix-free**: on the longer string it can do only one thing. -/
theorem prefixFree (h : Decodes x F) : F.PrefixFree := by
  intro a b u v hu hv hle
  obtain ⟨t, rfl⟩ := hle
  obtain ⟨r, hall, hrest⟩ := exists_advances_all (u ++ t)
  obtain ⟨_, hfirst, -⟩ := hall.split
  have hshort := h.mpr ⟨u, hu, hfirst⟩
  have hlong := h.mpr ⟨u ++ t, hv, hall⟩
  cases hshort.symm.trans hlong
  have hremaining := hfirst.2
  rw [hrest, List.append_nil, remaining_new] at hremaining
  exact ⟨rfl, hremaining.symm⟩

theorem bindAll {f : α → Decoder ε β} {G : α → Format β UInt8} (h : Decodes x F)
    (hf : ∀ a, DecodesAll (f a) (G a)) : DecodesAll (x >>= f) (F.bind G) := by
  intro r c
  constructor
  · rintro ⟨r', hrun⟩
    obtain ⟨a, r₁, hx, hrest⟩ := bind_ok_iff.mp hrun
    obtain ⟨b, hb, -, hadv⟩ := h.mp hx
    exact ⟨a, b, r₁.remaining, hadv, hb, (hf a).mp ⟨r', hrest⟩⟩
  · rintro ⟨a, b, v, hremaining, hb, hv⟩
    obtain ⟨r₁, hadv, hrest⟩ := exists_advances hremaining
    obtain ⟨r', hrun⟩ := (hf a).mpr (hrest.symm ▸ hv)
    exact ⟨r', bind_ok_iff.mpr ⟨a, r₁, h.mpr ⟨b, hb, hadv⟩, hrun⟩⟩

end Decodes

/-- The end of the input, with a value. -/
theorem decodesAll_end {x : Decoder ε Unit} (a : α)
    (hx : ∀ {r r' : Reader} {u : Unit}, x r = (.ok u, r') ↔ r' = r ∧ r.remaining = []) :
    DecodesAll (do x; pure a : Decoder ε α) (Format.pure a) := by
  intro r c
  simp only [bind_ok_iff, hx, pure_ok_iff, Format.pure]
  constructor
  · rintro ⟨r', -, _, ⟨rfl, hend⟩, rfl, rfl⟩
    exact ⟨rfl, hend⟩
  · rintro ⟨rfl, hend⟩
    exact ⟨r, (), r, ⟨rfl, hend⟩, rfl, rfl⟩

theorem decodesAll_here (g : Bytes → α) :
    DecodesAll (do let r ← here; pure (g r.remaining) : Decoder ε α)
      (fun a w => a = g w) := by
  intro r c
  simp only [bind_ok_iff, here_apply, pure_ok_iff, Prod.mk.injEq,
    Except.ok.injEq]
  constructor
  · rintro ⟨_, _, _, ⟨rfl, rfl⟩, rfl, rfl⟩
    rfl
  · rintro rfl
    exact ⟨r, r, r, ⟨rfl, rfl⟩, rfl, rfl⟩

/-! ### The fields -/

/-- The message number. -/
def numberFormat (number : UInt8) : Format Unit UInt8 := fun _ w => w = [number]

/-- So many bytes. -/
def bytesFormat (n : Nat) : Format (ByteVec n) UInt8 := fun v w => w = v.toBytes

/-- A `boolean`, any byte but zero being true. -/
def boolFormat : Format Bool UInt8 := fun v w => ∃ b : UInt8, v = (b != 0) ∧ w = [b]

/-- A `uint32`. -/
def u32Format : Format UInt32 UInt8 := fun n w => w = beBytes 4 n.toNat

/-- A `string`. -/
def stringFormat : Format Bytes UInt8 := fun s w => s.length < 2 ^ 32 ∧ w = lengthPrefixed s

/-- A `name-list`. -/
def nameListFormat : Format NameList UInt8 := fun l w =>
  l.body.length < 2 ^ 32 ∧ w = lengthPrefixed l.body

theorem decodes_expectMessage (number : UInt8) :
    Decodes (expectMessage number) (numberFormat number) := by
  intro r r' u
  simp [expectMessage_ok_iff, numberFormat]

theorem decodes_readBytes (n : Nat) : Decodes (readBytes n) (bytesFormat n) := by
  intro r r' v
  simp [readBytes_ok_iff, bytesFormat]

theorem decodes_readBool : Decodes readBool boolFormat := by
  intro r r' v
  rw [readBool_ok_iff]
  constructor
  · rintro ⟨b, hadv, hv⟩
    exact ⟨[b], ⟨b, hv, rfl⟩, hadv⟩
  · rintro ⟨w, ⟨b, hv, rfl⟩, hadv⟩
    exact ⟨b, hadv, hv⟩

theorem decodes_readU32 : Decodes readU32 u32Format := by
  intro r r' n
  simp [readU32_ok_iff, u32Format]

theorem decodes_readString : Decodes readString stringFormat := by
  intro r r' s
  rw [readString_ok_iff]
  constructor
  · rintro ⟨hlen, hadv⟩
    exact ⟨_, ⟨hlen, rfl⟩, hadv⟩
  · rintro ⟨w, ⟨hlen, rfl⟩, hadv⟩
    exact ⟨hlen, hadv⟩

theorem decodes_readNameList : Decodes readNameList nameListFormat := by
  intro r r' l
  rw [readNameList_ok_iff]
  constructor
  · rintro ⟨hlen, hadv⟩
    exact ⟨_, ⟨hlen, rfl⟩, hadv⟩
  · rintro ⟨w, ⟨hlen, rfl⟩, hadv⟩
    exact ⟨hlen, hadv⟩

/-! ### Whole messages -/

/-- The decoder accepts exactly the strings of a format, and no string of it is the beginning of
another one. -/
structure Delimits (x : Decoder MessageError α) (F : Format α UInt8) : Prop where
  decodesAll : DecodesAll x F
  prefixFree : F.PrefixFree

theorem delimits_finish (a : α) :
    Delimits (do finish; pure a : Decoder MessageError α) (Format.pure a) :=
  ⟨decodesAll_end a finish_ok_iff, Format.PrefixFree.pure a⟩

theorem Decodes.delimits {x : Decoder MessageError α} {F : Format α UInt8}
    {f : α → Decoder MessageError β} {G : α → Format β UInt8} (h : Decodes x F)
    (hf : ∀ a, Delimits (f a) (G a)) : Delimits (x >>= f) (F.bind G) :=
  ⟨Decodes.bindAll h fun a => (hf a).decodesAll,
    Format.PrefixFree.bind (Decodes.prefixFree h) fun a => (hf a).prefixFree⟩

theorem number_delimits {number : UInt8} {f : Unit → Decoder MessageError β}
    {G : Unit → Format β UInt8} (hf : ∀ a, Delimits (f a) (G a)) :
    Delimits (expectMessage number >>= f) ((numberFormat number).bind G) :=
  Decodes.delimits (decodes_expectMessage number) hf

theorem field_delimits {x : Decoder DecodeError α} {F : Format α UInt8} {name : String}
    {f : α → Decoder MessageError β} {G : α → Format β UInt8} (h : Decodes x F)
    (hf : ∀ a, Delimits (f a) (G a)) : Delimits (field name x >>= f) (F.bind G) :=
  Decodes.delimits (Decodes.field h name) hf

/-- A payload is accepted as a message exactly when it is a string of the format for it. -/
def Accepts (decode : Bytes → Except MessageError α) (F : Format α UInt8) : Prop :=
  ∀ payload m, decode payload = .ok m ↔ F m payload

/-- No accepted payload is a proper beginning of another one. -/
def SelfDelimiting (decode : Bytes → Except MessageError α) : Prop :=
  ∀ p q m m', decode p = .ok m → decode q = .ok m' → p <+: q → p = q

/-- A decoder accepts exactly the strings of a prefix-free format. -/
structure Delimited (decode : Bytes → Except MessageError α) (F : Format α UInt8) : Prop where
  accepts : Accepts decode F
  prefixFree : F.PrefixFree

/-- A whole-message decoder accepts what its body does. -/
theorem DecodesAll.accepts {x : Decoder MessageError α} {F : Format α UInt8}
    (h : DecodesAll x F) : Accepts (decodeWith x) F := by
  intro payload m
  rw [decodeWith_ok_iff]
  exact h

/-- A whole-message decoder is delimited when its body is. -/
theorem Delimits.delimited {x : Decoder MessageError α} {F : Format α UInt8} (h : Delimits x F) :
    Delimited (decodeWith x) F :=
  ⟨DecodesAll.accepts h.decodesAll, h.prefixFree⟩

theorem Delimited.selfDelimiting {decode : Bytes → Except MessageError α} {F : Format α UInt8}
    (h : Delimited decode F) : SelfDelimiting decode := by
  intro p q m m' hp hq hle
  exact (h.prefixFree ((h.accepts p m).mp hp) ((h.accepts q m').mp hq) hle).2

/-! ### What an encoder writes -/

namespace Writer

/-- The encoder writes the bytes where they fit, and fails for want of room where they do not. -/
structure Writes (x : Encoder Unit) (bytes : Bytes) : Prop where
  produces : Produces x bytes
  overflows : ∀ w : Writer, w.capacityRemaining < bytes.length →
    ∃ needed available w', x w = (.error (.insufficientCapacity needed available), w')

theorem writes_writeBytes (bytes : Bytes) : Writes (writeBytes bytes) bytes where
  produces := produces_writeBytes bytes
  overflows w h := ⟨bytes.length, w.capacityRemaining, w, dif_neg (Nat.not_le.mpr h)⟩

theorem writes_pure : Writes (pure ()) [] where
  produces w _ := ⟨w, rfl, (List.append_nil _).symm, rfl, rfl⟩
  overflows _ h := absurd h (Nat.not_lt_zero _)

/-- Two encoders one after the other: the second one is out of room when both do not fit. -/
theorem Writes.seq {x y : Encoder Unit} {a b : Bytes} (hx : Writes x a) (hy : Writes y b) :
    Writes (x >>= fun _ => y) (a ++ b) where
  produces := hx.produces.seq hy.produces
  overflows := by
    intro w h
    rw [List.length_append] at h
    by_cases hfits : a.length ≤ w.capacityRemaining
    · obtain ⟨w₁, hrun, -, hpos, hout⟩ := hx.produces w hfits
      have hroom : w₁.capacityRemaining < b.length := by
        unfold capacityRemaining at h hfits ⊢
        omega
      obtain ⟨needed, available, w', hfail⟩ := hy.overflows w₁ hroom
      exact ⟨needed, available, w', (bind_apply_ok hrun).trans hfail⟩
    · obtain ⟨needed, available, w', hfail⟩ := hx.overflows w (Nat.not_le.mp hfits)
      exact ⟨needed, available, w', bind_apply_error hfail⟩

theorem writes_writePrefixed {body : Bytes} (hlt : body.length < 2 ^ 32) :
    Writes (writePrefixed body) (lengthPrefixed body) where
  produces := produces_writePrefixed hlt
  overflows := by
    intro w h
    rw [length_lengthPrefixed] at h
    refine ⟨4 + body.length, w.capacityRemaining, w, ?_⟩
    unfold writePrefixed reserve
    rw [if_pos hlt, if_pos h]

theorem writes_writeNameList (l : NameList) (hlt : l.body.length < 2 ^ 32) :
    Writes (writeNameList l.iter) (lengthPrefixed l.body) := by
  obtain ⟨hvalid, hjoin⟩ := l.iter_valid
  rw [writeNameList_eq hvalid, hjoin]
  exact writes_writePrefixed hlt

theorem writes_writeNameLists (lists : List NameList) (h : ∀ l ∈ lists, l.body.length < 2 ^ 32) :
    Writes (KexInit.writeNameLists lists) (lists.flatMap fun l => lengthPrefixed l.body) := by
  induction lists with
  | nil => exact writes_pure
  | cons l _ ih =>
    rw [List.flatMap_cons]
    exact (writes_writeNameList l (h l List.mem_cons_self)).seq
      (ih fun l' hl' => h l' (List.mem_cons_of_mem l hl'))

end Writer

/-- An encoder fills buffers that are large enough with the bytes, and fails for want of room on the
shorter ones. -/
structure EncodesTo (encode : Bytes → Except EncodeError Nat × Bytes) (bytes : Bytes) : Prop where
  large : ∀ out : Bytes, bytes.length ≤ out.length →
    ∃ out', encode out = (.ok bytes.length, out') ∧ out'.take bytes.length = bytes
  short : ∀ out : Bytes, out.length < bytes.length →
    ∃ needed available out', encode out = (.error (.insufficientCapacity needed available), out')

/-- What a body writes is what its encoder fills a buffer with. -/
theorem Writer.Writes.encodesTo {x : Encoder Unit} {bytes : Bytes} (h : Writes x bytes) :
    EncodesTo (run x) bytes where
  large _ hout := h.produces.run_eq hout
  short out hout := by
    obtain ⟨needed, available, w', hfail⟩ := h.overflows (new out) hout
    refine ⟨needed, available, w'.out, ?_⟩
    rw [run, hfail]

/-! ### Exact codecs -/

/-- A codec is exact on the values that are `short` enough for their length fields: every one of
them is decoded from what it is encoded to, and what was decoded encodes to the payload in its
normal form. -/
structure ExactCodec (decode : Bytes → Except MessageError α)
    (encode : α → Bytes → Except EncodeError Nat × Bytes) (short : α → Prop)
    (normalize : Bytes → Bytes) : Prop where
  decode_encode : ∀ m, short m → ∃ bytes, EncodesTo (encode m) bytes ∧ decode bytes = .ok m
  encode_decode : ∀ payload m, decode payload = .ok m → EncodesTo (encode m) (normalize payload)

/-- A codec is exact when its encoder writes one string of the format for every short value, the
normal form of them all. -/
theorem ExactCodec.of_accepts {decode : Bytes → Except MessageError α}
    {encode : α → Bytes → Except EncodeError Nat × Bytes} {short : α → Prop}
    {normalize : Bytes → Bytes} {F : Format α UInt8} {payload : α → Bytes}
    (haccepts : Accepts decode F) (hencodes : ∀ m, short m → EncodesTo (encode m) (payload m))
    (hpayload : ∀ m, short m → F m (payload m))
    (hnormal : ∀ m p, F m p → short m ∧ payload m = normalize p) :
    ExactCodec decode encode short normalize where
  decode_encode m hm := ⟨payload m, hencodes m hm, (haccepts _ m).mpr (hpayload m hm)⟩
  encode_decode p m hp := by
    obtain ⟨hm, heq⟩ := hnormal m p ((haccepts p m).mp hp)
    rw [← heq]
    exact hencodes m hm

/-- A format with one string for every value: nothing has to be normalised. -/
theorem ExactCodec.of_unique {decode : Bytes → Except MessageError α}
    {encode : α → Bytes → Except EncodeError Nat × Bytes} {short : α → Prop}
    {F : Format α UInt8} {payload : α → Bytes} (haccepts : Accepts decode F)
    (hencodes : ∀ m, short m → EncodesTo (encode m) (payload m))
    (hunique : ∀ m p, F m p ↔ short m ∧ p = payload m) : ExactCodec decode encode short id :=
  .of_accepts haccepts hencodes (fun m hm => (hunique m _).mpr ⟨hm, rfl⟩) fun m p hp =>
    ⟨((hunique m p).mp hp).1, ((hunique m p).mp hp).2.symm⟩

/-- A delimited format with one string for every value. -/
theorem Delimited.exact {decode : Bytes → Except MessageError α}
    {encode : α → Bytes → Except EncodeError Nat × Bytes} {short : α → Prop}
    {F : Format α UInt8} {payload : α → Bytes} (h : Delimited decode F)
    (hencodes : ∀ m, short m → EncodesTo (encode m) (payload m))
    (hunique : ∀ m p, F m p ↔ short m ∧ p = payload m) :
    ExactCodec decode encode short id ∧ SelfDelimiting decode :=
  ⟨.of_unique h.accepts hencodes hunique, h.selfDelimiting⟩

/-- A payload with the boolean byte at an index as it is encoded: what is not zero becomes one. -/
def normalizeBool (i : Nat) (payload : Bytes) : Bytes :=
  payload.modify i fun b => if b = 0 then 0 else 1

/-- The byte at the end of a front part is normalised. -/
theorem normalizeBool_append (front : Bytes) (b : UInt8) (rest : Bytes) :
    normalizeBool front.length (front ++ b :: rest) =
      front ++ (if b != 0 then 1 else 0) :: rest := by
  induction front with
  | nil => by_cases hb : b = 0 <;> simp [normalizeBool, hb]
  | cons a _ ih => exact congrArg (a :: ·) ih

end Tatami.Wire
