import P2PRadio.Support.Utf8

/-!
# The gossip codec

Messages travel over gossipsub as one tag byte followed by the content
(`src/p2p/codec.rs`): tag `0` is an audio packet, tag `1` is metadata, whose content is the
UTF-8 text of the title.

A byte list stands for a `Vec<u8>` or a `&[u8]`, and a Lean `String` for a Rust one: both are
finite sequences of Unicode scalar values.  Reading a slice out of range panics, so slicing
is an `Option` whose `none` is that panic, and so is every function that slices.

The main result is `Message.codec_exact`: `encode` and `decode` are inverse bijections
between the messages and the wire language, and `decode` never reads out of range.
-/

namespace P2PRadio

/-- A `Vec<u8>` or a `&[u8]`. -/
abbrev Bytes := List UInt8

/-! ## Slices and text -/

/-- `xs[i..]`; `none` is the panic of an index past the end. -/
def sliceFrom (xs : Bytes) (i : ℕ) : Option Bytes :=
  if i ≤ xs.length then some (xs.drop i) else none

@[simp] lemma sliceFrom_one_cons (b : UInt8) (rest : Bytes) :
    sliceFrom (b :: rest) 1 = some rest := by
  simp [sliceFrom]

/-- `str::as_bytes` -/
def asBytes (s : String) : Bytes := Utf8.encode s.toList

/-- `str::from_utf8`, with `none` for its `Utf8Error`. -/
def fromUtf8 (bytes : Bytes) : Option String := (Utf8.decode bytes).map String.ofList

lemma fromUtf8_eq_some_iff {bytes : Bytes} {s : String} :
    fromUtf8 bytes = some s ↔ asBytes s = bytes := by
  simp only [fromUtf8, asBytes, Option.map_eq_some_iff, Utf8.decode_eq_some_iff]
  constructor
  · rintro ⟨cs, h, rfl⟩
    rwa [String.toList_ofList]
  · intro h
    exact ⟨s.toList, h, String.ofList_toList⟩

@[simp] lemma fromUtf8_asBytes (s : String) : fromUtf8 (asBytes s) = some s :=
  fromUtf8_eq_some_iff.mpr rfl

lemma isSome_fromUtf8_iff {bytes : Bytes} :
    (fromUtf8 bytes).isSome ↔ Utf8.WellFormed bytes := by
  rw [fromUtf8, Option.isSome_map, Utf8.isSome_decode_iff]

/-! ## Messages -/

/-- Stream metadata; `title` is the stream label. -/
structure Metadata where
  title : String
  deriving DecidableEq, Repr

/-- What a streamer sends: encoded audio, or new metadata. -/
inductive Message where
  | audioPacket (data : Bytes)
  | metadata (m : Metadata)
  deriving DecidableEq, Repr

inductive DecodeError where
  /-- "Invalid message type" -/
  | invalidMessageType
  deriving DecidableEq, Repr

def Metadata.encodeBin (m : Metadata) : Bytes := asBytes m.title

def Metadata.decodeBin (encoded : Bytes) : Except DecodeError Metadata :=
  match fromUtf8 encoded with
  | some title => .ok { title }
  | none => .error .invalidMessageType

def Message.encode : Message → Bytes
  | .audioPacket data => 0 :: data
  | .metadata m => 1 :: m.encodeBin

/-- The outer `none` is a panic of one of the two slices. -/
def Message.decode (encoded : Bytes) : Option (Except DecodeError Message) :=
  match encoded.head? with
  | some 0 => do
    let data ← sliceFrom encoded 1
    return .ok (.audioPacket data)
  | some 1 => do
    let content ← sliceFrom encoded 1
    return (Metadata.decodeBin content).map .metadata
  | _ => some (.error .invalidMessageType)

/-! ## The decoder, tag by tag -/

@[simp] lemma Message.decode_nil : decode [] = some (.error .invalidMessageType) := rfl

@[simp] lemma Message.decode_zero (data : Bytes) :
    decode (0 :: data) = some (.ok (.audioPacket data)) := by
  simp [decode]

@[simp] lemma Message.decode_one (content : Bytes) :
    decode (1 :: content) = some ((Metadata.decodeBin content).map .metadata) := by
  simp [decode]

lemma Message.decode_other {tag : UInt8} (h0 : tag ≠ 0) (h1 : tag ≠ 1) (content : Bytes) :
    decode (tag :: content) = some (.error .invalidMessageType) := by
  simp only [decode, List.head?_cons]
  split
  · next h => exact absurd (Option.some.inj h) h0
  · next h => exact absurd (Option.some.inj h) h1
  · rfl

lemma Metadata.decodeBin_eq_ok_iff {content : Bytes} {m : Metadata} :
    decodeBin content = .ok m ↔ m.encodeBin = content := by
  unfold decodeBin encodeBin
  rw [← fromUtf8_eq_some_iff]
  cases fromUtf8 content with
  | none => simp
  | some title =>
    obtain ⟨t⟩ := m
    simp

lemma Metadata.decodeBin_of_not_wellFormed {content : Bytes} (h : ¬ Utf8.WellFormed content) :
    decodeBin content = .error .invalidMessageType := by
  have hnone : fromUtf8 content = none := by
    rw [← isSome_fromUtf8_iff] at h
    simpa using h
  rw [decodeBin, hnone]

/-- `decode` inverts `encode`, and accepts nothing else. -/
lemma Message.decode_eq_ok_iff {encoded : Bytes} {m : Message} :
    decode encoded = some (.ok m) ↔ m.encode = encoded := by
  rcases encoded with _ | ⟨tag, content⟩
  · cases m <;> simp [encode]
  by_cases h0 : tag = 0
  · subst h0
    cases m <;> simp [encode, eq_comm]
  by_cases h1 : tag = 1
  · subst h1
    cases m with
    | audioPacket data =>
      simp only [decode_one, encode]
      cases Metadata.decodeBin content <;> simp [Except.map]
    | metadata m =>
      simp only [decode_one, encode, List.cons.injEq, true_and]
      rw [← Metadata.decodeBin_eq_ok_iff]
      cases Metadata.decodeBin content <;> simp [Except.map]
  · rw [decode_other h0 h1]
    cases m <;> simp [encode, Ne.symm h0, Ne.symm h1]

@[simp] lemma Message.decode_encode (m : Message) : decode m.encode = some (.ok m) :=
  decode_eq_ok_iff.mpr rfl

lemma Message.encode_injective : Function.Injective encode := by
  intro m m' h
  have := (decode_encode m).symm.trans (h ▸ decode_encode m')
  simpa using this

/-- The byte lists that are some message's encoding. -/
def Message.OnWire (encoded : Bytes) : Prop :=
  encoded ≠ [] ∧ (encoded[0]? = some 0 ∨
    (encoded[0]? = some 1 ∧ Utf8.WellFormed (encoded.drop 1)))

lemma Message.exists_decode_iff {encoded : Bytes} :
    (∃ m, decode encoded = some (.ok m)) ↔ OnWire encoded := by
  simp only [decode_eq_ok_iff]
  constructor
  · rintro ⟨m, rfl⟩
    cases m with
    | audioPacket data => simp [OnWire, encode]
    | metadata m =>
      simp [OnWire, encode, Metadata.encodeBin, asBytes, Utf8.wellFormed_encode]
  · rintro ⟨hne, h⟩
    obtain ⟨tag, content, rfl⟩ := List.exists_cons_of_ne_nil hne
    rcases h with h | ⟨h, hw⟩
    · obtain rfl : tag = 0 := by simpa using h
      exact ⟨.audioPacket content, rfl⟩
    · obtain rfl : tag = 1 := by simpa using h
      obtain ⟨cs, hcs⟩ := Utf8.exists_encode_of_wellFormed hw
      refine ⟨.metadata { title := String.ofList cs }, ?_⟩
      simpa [encode, Metadata.encodeBin, asBytes] using hcs

/-- Whatever is not on the wire is refused with the one error there is, and no slice panics. -/
lemma Message.decode_of_not_onWire {encoded : Bytes} (h : ¬ OnWire encoded) :
    decode encoded = some (.error .invalidMessageType) := by
  rcases encoded with _ | ⟨tag, content⟩
  · rfl
  by_cases h0 : tag = 0
  · exact absurd ⟨List.cons_ne_nil _ _, Or.inl (by simp [h0])⟩ h
  by_cases h1 : tag = 1
  · have hw : ¬ Utf8.WellFormed content := fun hw =>
      h ⟨List.cons_ne_nil _ _, Or.inr ⟨by simp [h1], hw⟩⟩
    rw [h1, decode_one, Metadata.decodeBin_of_not_wellFormed hw]
    rfl
  · exact decode_other h0 h1 content

/-- **The gossip codec is a bijection onto its wire language.**  Every message decodes to
itself; a byte list decodes exactly when it is non-empty and starts with tag `0`, or with tag
`1` followed by well-formed UTF-8; everything else is `InvalidMessageType` and nothing
panics; whatever decodes to `m` is the encoding of `m`.  So two byte lists never decode to
one message, and no audio packet shares its bytes with a title. -/
theorem Message.codec_exact :
    (∀ m : Message, decode m.encode = some (.ok m)) ∧
    (∀ encoded, (∃ m, decode encoded = some (.ok m)) ↔
      encoded ≠ [] ∧ (encoded[0]? = some 0 ∨
        (encoded[0]? = some 1 ∧ Utf8.WellFormed (encoded.drop 1)))) ∧
    (∀ encoded, decode encoded = some (.error .invalidMessageType) ↔
      ¬ ∃ m, decode encoded = some (.ok m)) ∧
    (∀ encoded, decode encoded ≠ none) ∧
    (∀ encoded m, decode encoded = some (.ok m) ↔ m.encode = encoded) ∧
    (∀ m, ∃! encoded, decode encoded = some (.ok m)) ∧
    (∀ data title, (audioPacket data).encode ≠ (metadata title).encode) := by
  refine ⟨decode_encode, fun _ => exists_decode_iff, ?_, ?_, fun _ _ => decode_eq_ok_iff, ?_, ?_⟩
  · intro encoded
    rw [exists_decode_iff]
    refine ⟨?_, decode_of_not_onWire⟩
    intro h hw
    obtain ⟨m, hm⟩ := exists_decode_iff.mpr hw
    rw [hm] at h
    cases h
  · intro encoded
    by_cases hw : OnWire encoded
    · obtain ⟨m, hm⟩ := exists_decode_iff.mpr hw
      rw [hm]
      exact Option.some_ne_none _
    · rw [decode_of_not_onWire hw]
      exact Option.some_ne_none _
  · intro m
    refine ⟨m.encode, decode_encode m, ?_⟩
    intro encoded h
    exact (decode_eq_ok_iff.mp h).symm
  · intro data title h
    exact Message.noConfusion (encode_injective h)

-- A truncated sequence and an encoded surrogate are refused, an empty packet is not.
example : Message.decode [1, 0xC3] = some (.error .invalidMessageType) ∧
    Message.decode [1, 0xED, 0xA0, 0x80] = some (.error .invalidMessageType) ∧
    Message.decode [0] = some (.ok (.audioPacket [])) := by
  decide

end P2PRadio
