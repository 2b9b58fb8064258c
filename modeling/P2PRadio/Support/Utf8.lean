import Mathlib.Data.List.Basic
import Mathlib.Data.Char

/-!
# UTF-8 over byte lists

The octet sequences of RFC 3629 and the decoder that reads them, over `List UInt8`.  The
encoder is Lean's own `String.utf8EncodeChar`, one scalar value at a time.

* `WellFormed` transcribes the grammar of RFC 3629 §4: `UTF8-octets = *( UTF8-char )`, one
  predicate for each of `UTF8-1` to `UTF8-4`.  Overlong forms, surrogates, values above
  `U+10FFFF` and truncated sequences are exactly what these four rules leave out.
* `decode` reads a byte list from the left and fails on the first ill-formed sequence.
* `decode_eq_some_iff` makes the two inverse to each other, `isSome_decode_iff` identifies
  the domain of `decode` with the grammar.
-/

namespace Utf8

/-! ## The grammar -/

/-- `UTF8-tail = %x80-BF` -/
def Tail (b : UInt8) : Prop := 0x80 ≤ b.toNat ∧ b.toNat ≤ 0xBF

/-- `UTF8-1 = %x00-7F` -/
def One (a : UInt8) : Prop := a.toNat ≤ 0x7F

/-- `UTF8-2 = %xC2-DF UTF8-tail` -/
def Two (a b : UInt8) : Prop := (0xC2 ≤ a.toNat ∧ a.toNat ≤ 0xDF) ∧ Tail b

/-- `UTF8-3 = %xE0 %xA0-BF UTF8-tail / %xE1-EC 2( UTF8-tail ) /
%xED %x80-9F UTF8-tail / %xEE-EF 2( UTF8-tail )` -/
def Three (a b c : UInt8) : Prop :=
  (a.toNat = 0xE0 ∧ (0xA0 ≤ b.toNat ∧ b.toNat ≤ 0xBF) ∧ Tail c) ∨
  ((0xE1 ≤ a.toNat ∧ a.toNat ≤ 0xEC) ∧ Tail b ∧ Tail c) ∨
  (a.toNat = 0xED ∧ (0x80 ≤ b.toNat ∧ b.toNat ≤ 0x9F) ∧ Tail c) ∨
  ((0xEE ≤ a.toNat ∧ a.toNat ≤ 0xEF) ∧ Tail b ∧ Tail c)

/-- `UTF8-4 = %xF0 %x90-BF 2( UTF8-tail ) / %xF1-F3 3( UTF8-tail ) /
%xF4 %x80-8F 2( UTF8-tail )` -/
def Four (a b c d : UInt8) : Prop :=
  (a.toNat = 0xF0 ∧ (0x90 ≤ b.toNat ∧ b.toNat ≤ 0xBF) ∧ Tail c ∧ Tail d) ∨
  ((0xF1 ≤ a.toNat ∧ a.toNat ≤ 0xF3) ∧ Tail b ∧ Tail c ∧ Tail d) ∨
  (a.toNat = 0xF4 ∧ (0x80 ≤ b.toNat ∧ b.toNat ≤ 0x8F) ∧ Tail c ∧ Tail d)

instance (b : UInt8) : Decidable (Tail b) := inferInstanceAs (Decidable (_ ∧ _))
instance (a : UInt8) : Decidable (One a) := inferInstanceAs (Decidable (_ ≤ _))
instance (a b : UInt8) : Decidable (Two a b) := inferInstanceAs (Decidable (_ ∧ _))
instance (a b c : UInt8) : Decidable (Three a b c) := inferInstanceAs (Decidable (_ ∨ _))
instance (a b c d : UInt8) : Decidable (Four a b c d) := inferInstanceAs (Decidable (_ ∨ _))

/-- `UTF8-octets = *( UTF8-char )`, with `UTF8-char = UTF8-1 / UTF8-2 / UTF8-3 / UTF8-4`. -/
inductive WellFormed : List UInt8 → Prop where
  | nil : WellFormed []
  | one {a : UInt8} {rest : List UInt8} :
      One a → WellFormed rest → WellFormed (a :: rest)
  | two {a b : UInt8} {rest : List UInt8} :
      Two a b → WellFormed rest → WellFormed (a :: b :: rest)
  | three {a b c : UInt8} {rest : List UInt8} :
      Three a b c → WellFormed rest → WellFormed (a :: b :: c :: rest)
  | four {a b c d : UInt8} {rest : List UInt8} :
      Four a b c d → WellFormed rest → WellFormed (a :: b :: c :: d :: rest)

/-! ## The codec -/

/-- The octets of a list of scalar values. -/
def encode (cs : List Char) : List UInt8 := cs.flatMap String.utf8EncodeChar

@[simp] lemma encode_cons (c : Char) (cs : List Char) :
    encode (c :: cs) = String.utf8EncodeChar c ++ encode cs := List.flatMap_cons

@[simp] lemma encode_append (cs ds : List Char) : encode (cs ++ ds) = encode cs ++ encode ds :=
  List.flatMap_append

/-- The scalar value of a `UTF8-2`. -/
def value₂ (a b : UInt8) : ℕ := (a.toNat - 0xC0) * 64 + (b.toNat - 0x80)

/-- The scalar value of a `UTF8-3`. -/
def value₃ (a b c : UInt8) : ℕ :=
  (a.toNat - 0xE0) * 4096 + (b.toNat - 0x80) * 64 + (c.toNat - 0x80)

/-- The scalar value of a `UTF8-4`. -/
def value₄ (a b c d : UInt8) : ℕ :=
  (a.toNat - 0xF0) * 262144 + (b.toNat - 0x80) * 4096 + (c.toNat - 0x80) * 64 + (d.toNat - 0x80)

/-- Read a byte list as UTF-8, failing on the first ill-formed sequence.  No two of the four
rules share a first octet, so the order in which they are tried does not matter. -/
def decode : List UInt8 → Option (List Char)
  | [] => some []
  | a :: rest =>
    if One a then (decode rest).map (Char.ofNat a.toNat :: ·)
    else match rest with
      | [] => none
      | b :: rest =>
        if Two a b then (decode rest).map (Char.ofNat (value₂ a b) :: ·)
        else match rest with
          | [] => none
          | c :: rest =>
            if Three a b c then (decode rest).map (Char.ofNat (value₃ a b c) :: ·)
            else match rest with
              | [] => none
              | d :: rest =>
                if Four a b c d then (decode rest).map (Char.ofNat (value₄ a b c d) :: ·)
                else none

/-! ## One scalar value at a time -/

lemma toNat_ofNat_of_valid {n : ℕ} (h : n < 0xD800 ∨ (0xDFFF < n ∧ n < 0x110000)) :
    (Char.ofNat n).val.toNat = n := by
  rw [Char.ofNat, dif_pos (show n.isValidChar from h)]
  rfl

lemma uInt8_ofNat_eq {n : ℕ} {a : UInt8} (h : n = a.toNat) : UInt8.ofNat n = a := by
  rw [h, UInt8.ofNat_toNat]

lemma encodeChar_one {a : UInt8} (h : One a) :
    String.utf8EncodeChar (Char.ofNat a.toNat) = [a] := by
  unfold One at h
  have hv := toNat_ofNat_of_valid (n := a.toNat) (by omega)
  unfold String.utf8EncodeChar
  simp only [hv]
  rw [if_pos (by omega), UInt8.ofNat_toNat]

lemma encodeChar_two {a b : UInt8} (h : Two a b) :
    String.utf8EncodeChar (Char.ofNat (value₂ a b)) = [a, b] := by
  unfold Two Tail at h
  have hv := toNat_ofNat_of_valid (n := value₂ a b) (by unfold value₂; omega)
  unfold String.utf8EncodeChar
  simp only [hv]
  unfold value₂
  rw [if_neg (by omega), if_pos (by omega)]
  rw [uInt8_ofNat_eq (a := a) (by omega), uInt8_ofNat_eq (a := b) (by omega)]

lemma encodeChar_three {a b c : UInt8} (h : Three a b c) :
    String.utf8EncodeChar (Char.ofNat (value₃ a b c)) = [a, b, c] := by
  unfold Three Tail at h
  have hv := toNat_ofNat_of_valid (n := value₃ a b c) (by unfold value₃; omega)
  unfold String.utf8EncodeChar
  simp only [hv]
  unfold value₃
  rw [if_neg (by omega), if_neg (by omega), if_pos (by omega)]
  rw [uInt8_ofNat_eq (a := a) (by omega), uInt8_ofNat_eq (a := b) (by omega),
    uInt8_ofNat_eq (a := c) (by omega)]

lemma encodeChar_four {a b c d : UInt8} (h : Four a b c d) :
    String.utf8EncodeChar (Char.ofNat (value₄ a b c d)) = [a, b, c, d] := by
  unfold Four Tail at h
  have hv := toNat_ofNat_of_valid (n := value₄ a b c d) (by unfold value₄; omega)
  unfold String.utf8EncodeChar
  simp only [hv]
  unfold value₄
  rw [if_neg (by omega), if_neg (by omega), if_neg (by omega)]
  rw [uInt8_ofNat_eq (a := a) (by omega), uInt8_ofNat_eq (a := b) (by omega),
    uInt8_ofNat_eq (a := c) (by omega), uInt8_ofNat_eq (a := d) (by omega)]

/-- Every scalar value is encoded by one of the four rules, and reads back as itself. -/
lemma encodeChar_cases (x : Char) :
    (∃ a, One a ∧ String.utf8EncodeChar x = [a] ∧ Char.ofNat a.toNat = x) ∨
    (∃ a b, Two a b ∧ String.utf8EncodeChar x = [a, b] ∧ Char.ofNat (value₂ a b) = x) ∨
    (∃ a b c, Three a b c ∧ String.utf8EncodeChar x = [a, b, c] ∧
      Char.ofNat (value₃ a b c) = x) ∨
    (∃ a b c d, Four a b c d ∧ String.utf8EncodeChar x = [a, b, c, d] ∧
      Char.ofNat (value₄ a b c d) = x) := by
  have hx : ∀ n : ℕ, n = x.val.toNat → Char.ofNat n = x := by
    rintro n rfl
    exact Char.ofNat_toNat x
  have hvalid : x.val.toNat < 0xD800 ∨ (0xDFFF < x.val.toNat ∧ x.val.toNat < 0x110000) :=
    x.valid
  obtain ⟨v, hv⟩ : ∃ v, v = x.val.toNat := ⟨_, rfl⟩
  simp only [← hv] at hvalid hx
  by_cases h1 : v ≤ 0x7F
  · refine Or.inl ⟨UInt8.ofNat v, ?_, ?_, hx _ ?_⟩
    · simp only [One, UInt8.toNat_ofNat']; omega
    · simp only [String.utf8EncodeChar, ← hv, if_pos h1]
    · simp only [UInt8.toNat_ofNat']; omega
  by_cases h2 : v ≤ 0x7FF
  · refine Or.inr (Or.inl ⟨UInt8.ofNat (v / 64 % 0x20 + 0xC0), UInt8.ofNat (v % 0x40 + 0x80),
      ?_, ?_, hx _ ?_⟩)
    · simp only [Two, Tail, UInt8.toNat_ofNat']; omega
    · simp only [String.utf8EncodeChar, ← hv, if_neg h1, if_pos h2]
    · unfold value₂
      simp only [UInt8.toNat_ofNat']
      omega
  by_cases h3 : v ≤ 0xFFFF
  · refine Or.inr (Or.inr (Or.inl ⟨UInt8.ofNat (v / 4096 % 0x10 + 0xE0),
      UInt8.ofNat (v / 64 % 0x40 + 0x80), UInt8.ofNat (v % 0x40 + 0x80), ?_, ?_, hx _ ?_⟩))
    · simp only [Three, Tail, UInt8.toNat_ofNat']; omega
    · simp only [String.utf8EncodeChar, ← hv, if_neg h1, if_neg h2, if_pos h3]
    · unfold value₃
      simp only [UInt8.toNat_ofNat']
      omega
  · refine Or.inr (Or.inr (Or.inr ⟨UInt8.ofNat (v / 262144 % 0x08 + 0xF0),
      UInt8.ofNat (v / 4096 % 0x40 + 0x80), UInt8.ofNat (v / 64 % 0x40 + 0x80),
      UInt8.ofNat (v % 0x40 + 0x80), ?_, ?_, hx _ ?_⟩))
    · simp only [Four, Tail, UInt8.toNat_ofNat']; omega
    · simp only [String.utf8EncodeChar, ← hv, if_neg h1, if_neg h2, if_neg h3]
    · unfold value₄
      simp only [UInt8.toNat_ofNat']
      omega

/-! ## Round trips -/

lemma not_one_of_two {a b : UInt8} (h : Two a b) : ¬ One a := by
  unfold One; unfold Two at h; omega

lemma not_one_of_three {a b c : UInt8} (h : Three a b c) : ¬ One a := by
  unfold One; unfold Three at h; omega

lemma not_two_of_three {a b c : UInt8} (h : Three a b c) : ¬ Two a b := by
  unfold Two; unfold Three at h; omega

lemma not_one_of_four {a b c d : UInt8} (h : Four a b c d) : ¬ One a := by
  unfold One; unfold Four at h; omega

lemma not_two_of_four {a b c d : UInt8} (h : Four a b c d) : ¬ Two a b := by
  unfold Two; unfold Four at h; omega

lemma not_three_of_four {a b c d : UInt8} (h : Four a b c d) : ¬ Three a b c := by
  unfold Three; unfold Four at h; omega

lemma decode_one {a : UInt8} (h : One a) (rest : List UInt8) :
    decode (a :: rest) = (decode rest).map (Char.ofNat a.toNat :: ·) := by
  rw [decode.eq_def]
  simp only [if_pos h]

lemma decode_two {a b : UInt8} (h : Two a b) (rest : List UInt8) :
    decode (a :: b :: rest) = (decode rest).map (Char.ofNat (value₂ a b) :: ·) := by
  rw [decode.eq_def]
  simp only [if_neg (not_one_of_two h), if_pos h]

lemma decode_three {a b c : UInt8} (h : Three a b c) (rest : List UInt8) :
    decode (a :: b :: c :: rest) = (decode rest).map (Char.ofNat (value₃ a b c) :: ·) := by
  rw [decode.eq_def]
  simp only [if_neg (not_one_of_three h), if_neg (not_two_of_three h), if_pos h]

lemma decode_four {a b c d : UInt8} (h : Four a b c d) (rest : List UInt8) :
    decode (a :: b :: c :: d :: rest) =
      (decode rest).map (Char.ofNat (value₄ a b c d) :: ·) := by
  rw [decode.eq_def]
  simp only [if_neg (not_one_of_four h), if_neg (not_two_of_four h),
    if_neg (not_three_of_four h), if_pos h]

lemma decode_encodeChar_append (x : Char) (rest : List UInt8) :
    decode (String.utf8EncodeChar x ++ rest) = (decode rest).map (x :: ·) := by
  rcases encodeChar_cases x with ⟨a, h, hb, rfl⟩ | ⟨a, b, h, hb, rfl⟩ | ⟨a, b, c, h, hb, rfl⟩ |
    ⟨a, b, c, d, h, hb, rfl⟩
  · rw [hb]; exact decode_one h rest
  · rw [hb]; exact decode_two h rest
  · rw [hb]; exact decode_three h rest
  · rw [hb]; exact decode_four h rest

lemma wellFormed_encodeChar_append (x : Char) {rest : List UInt8} (hr : WellFormed rest) :
    WellFormed (String.utf8EncodeChar x ++ rest) := by
  rcases encodeChar_cases x with ⟨a, h, hb, -⟩ | ⟨a, b, h, hb, -⟩ | ⟨a, b, c, h, hb, -⟩ |
    ⟨a, b, c, d, h, hb, -⟩
  · rw [hb]; exact .one h hr
  · rw [hb]; exact .two h hr
  · rw [hb]; exact .three h hr
  · rw [hb]; exact .four h hr

/-- Decoding undoes encoding, for every list of scalar values. -/
lemma decode_encode (cs : List Char) : decode (encode cs) = some cs := by
  induction cs with
  | nil => rfl
  | cons c cs ih => rw [encode_cons, decode_encodeChar_append, ih]; rfl

lemma wellFormed_encode (cs : List Char) : WellFormed (encode cs) := by
  induction cs with
  | nil => exact .nil
  | cons c cs ih => rw [encode_cons]; exact wellFormed_encodeChar_append c ih

/-- Every derivation of the grammar is the encoding of some scalar values. -/
lemma exists_encode_of_wellFormed {bs : List UInt8} (h : WellFormed bs) :
    ∃ cs, encode cs = bs := by
  induction h with
  | nil => exact ⟨[], rfl⟩
  | one h _ ih =>
    obtain ⟨cs, rfl⟩ := ih
    exact ⟨_ :: cs, by rw [encode_cons, encodeChar_one h]; rfl⟩
  | two h _ ih =>
    obtain ⟨cs, rfl⟩ := ih
    exact ⟨_ :: cs, by rw [encode_cons, encodeChar_two h]; rfl⟩
  | three h _ ih =>
    obtain ⟨cs, rfl⟩ := ih
    exact ⟨_ :: cs, by rw [encode_cons, encodeChar_three h]; rfl⟩
  | four h _ ih =>
    obtain ⟨cs, rfl⟩ := ih
    exact ⟨_ :: cs, by rw [encode_cons, encodeChar_four h]; rfl⟩

/-- The decoder accepts only derivations of the grammar. -/
lemma wellFormed_of_isSome_decode {bs : List UInt8} (h : (decode bs).isSome) :
    WellFormed bs := by
  induction bs using decode.induct with
  | case1 => exact .nil
  | case2 a rest h1 ih =>
    rw [decode_one h1, Option.isSome_map] at h
    exact .one h1 (ih h)
  | case3 a h1 => simp [decode, h1] at h
  | case4 a b rest h1 h2 ih =>
    rw [decode_two h2, Option.isSome_map] at h
    exact .two h2 (ih h)
  | case5 a h1 b h2 => simp [decode, h1, h2] at h
  | case6 a b c rest h1 h2 h3 ih =>
    rw [decode_three h3, Option.isSome_map] at h
    exact .three h3 (ih h)
  | case7 a h1 b h2 c h3 => simp [decode, h1, h2, h3] at h
  | case8 a b c d rest h1 h2 h3 h4 ih =>
    rw [decode_four h4, Option.isSome_map] at h
    exact .four h4 (ih h)
  | case9 a h1 b h2 c h3 d rest h4 => simp [decode, h1, h2, h3, h4] at h

/-- The domain of the decoder is the grammar of RFC 3629. -/
theorem isSome_decode_iff {bs : List UInt8} : (decode bs).isSome ↔ WellFormed bs := by
  refine ⟨wellFormed_of_isSome_decode, fun h => ?_⟩
  obtain ⟨cs, rfl⟩ := exists_encode_of_wellFormed h
  rw [decode_encode]
  rfl

/-- Decoding and encoding are exact inverses. -/
theorem decode_eq_some_iff {bs : List UInt8} {cs : List Char} :
    decode bs = some cs ↔ encode cs = bs := by
  constructor
  · intro h
    obtain ⟨ds, rfl⟩ := exists_encode_of_wellFormed
      (wellFormed_of_isSome_decode (by rw [h]; rfl))
    rw [decode_encode] at h
    rw [Option.some.inj h]
  · rintro rfl
    exact decode_encode cs

lemma encode_injective : Function.Injective encode := by
  intro cs ds h
  exact Option.some.inj ((decode_encode cs).symm.trans (h ▸ decode_encode ds))

/-- An octet below `0x80` is a character of its own: no longer sequence has one. -/
lemma ofNat_mem_of_mem_encode {a : UInt8} {cs : List Char} (ha : One a) (h : a ∈ encode cs) :
    Char.ofNat a.toNat ∈ cs := by
  obtain ⟨x, hx, hmem⟩ := List.mem_flatMap.mp h
  have key : Char.ofNat a.toNat = x := by
    rcases encodeChar_cases x with ⟨b, hb, he, hv⟩ | ⟨b, c, hb, he, -⟩ | ⟨b, c, d, hb, he, -⟩ |
      ⟨b, c, d, e, hb, he, -⟩
    · rw [he, List.mem_singleton] at hmem
      rw [hmem, hv]
    all_goals
      rw [he] at hmem
      simp only [List.mem_cons, List.not_mem_nil, or_false] at hmem
      simp only [One, Two, Three, Four, Tail] at ha hb
      rcases hmem with rfl | rfl | rfl | rfl <;> omega
  rwa [key]

end Utf8
