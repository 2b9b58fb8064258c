import Mathlib.Data.List.DropRight
import P2PRadio.P2p.Codec
import P2PRadio.Support.FittingPrefix

/-!
# ICY metadata blocks

`format_title` of `src/rpc/mod.rs` turns a title into the metadata block of the ICY protocol:
a length byte that counts 16-byte blocks, the text `StreamTitle='…';` and NUL padding.

The title is cut where its text would outgrow the 255 blocks a length byte can count.  The
loop counts bytes while it appends characters of one to four of them, so the cut is where a
greedy prefix of the character widths ends (`pushTitle_eq`), and that prefix is the longest
one there is.  `formatTitle_exact` collects what a client relies on.
-/

namespace P2PRadio

open FittingPrefix

/-! ## Text -/

/-- `str::len`: the length in bytes. -/
def len (s : String) : ℕ := (asBytes s).length

/-- `char::is_control`: the general category `Cc`. -/
def isControl (c : Char) : Bool := c.toNat < 0x20 || (0x7F ≤ c.toNat && c.toNat ≤ 0x9F)

/-- `usize::div_ceil` -/
def divCeil (n d : ℕ) : ℕ := (n + d - 1) / d

/-- `Vec::resize` -/
def resize (xs : Bytes) (n : ℕ) (value : UInt8) : Bytes :=
  xs.take n ++ List.replicate (n - xs.length) value

/-- `text.trim_end_matches('\0')` -/
def trimEndNul (text : String) : String := String.ofList (text.toList.rdropWhile (· = '\x00'))

@[simp] lemma asBytes_append (s t : String) : asBytes (s ++ t) = asBytes s ++ asBytes t := by
  simp [asBytes]

@[simp] lemma asBytes_ofList (cs : List Char) : asBytes (String.ofList cs) = Utf8.encode cs := by
  rw [asBytes, String.toList_ofList]

@[simp] lemma len_append (s t : String) : len (s ++ t) = len s + len t := by
  simp [len]

lemma length_encode (cs : List Char) : (Utf8.encode cs).length = weight Char.utf8Size cs := by
  induction cs with
  | nil => rfl
  | cons c cs ih => rw [Utf8.encode_cons, List.length_append, String.length_utf8EncodeChar, ih,
      weight_cons]

lemma len_ofList (cs : List Char) : len (String.ofList cs) = weight Char.utf8Size cs := by
  rw [len, asBytes_ofList, length_encode]

lemma push_eq_append (s : String) (c : Char) : s.push c = s ++ String.ofList [c] := by
  apply String.toList_inj.mp
  rw [String.toList_push, String.toList_append, String.toList_ofList]

/-! ## The block -/

def maxText : ℕ := 255 * 16

/-- The text every block starts with. -/
def titlePrefix : String := "StreamTitle='"

/-- The text every block ends with. -/
def titleSuffix : String := "';"

/-- What a character of the title is replaced by. -/
def titleChar (ch : Char) : Char := if ch = '\'' ∨ isControl ch then ' ' else ch

/-- The loop over `title.chars()`, with the `text` pushed so far. -/
def pushTitle (text : String) : List Char → String
  | [] => text
  | c :: chars =>
    let ch := titleChar c
    if len text + ch.utf8Size + 2 > maxText then text else pushTitle (text.push ch) chars

/-- `text` after the loop and the closing quote. -/
def titleText (title : String) : String := pushTitle titlePrefix title.toList ++ titleSuffix

def titleBlocks (title : String) : ℕ := divCeil (len (titleText title)) 16

def formatTitle (title : String) : Bytes :=
  resize (UInt8.ofNat (titleBlocks title) :: asBytes (titleText title))
    (1 + titleBlocks title * 16) 0

/-! ## The cut -/

lemma len_titlePrefix : len titlePrefix = 13 := by decide

lemma len_titleSuffix : len titleSuffix = 2 := by decide

/-- The bytes left for the title itself. -/
def titleBudget : ℕ := maxText - 2 - 13

/-- The title as the block carries it. -/
def titleBody (title : String) : String :=
  String.ofList (takeFitting Char.utf8Size titleBudget (title.toList.map titleChar))

/-- The loop takes characters for as long as they fit.  By induction on the characters, with
what is left of the budget. -/
lemma pushTitle_eq (text : String) (chars : List Char) (h : len text + 2 ≤ maxText) :
    pushTitle text chars = text ++ String.ofList
      (takeFitting Char.utf8Size (maxText - 2 - len text) (chars.map titleChar)) := by
  induction chars generalizing text with
  | nil => simp [pushTitle, takeFitting]
  | cons c chars ih =>
    rw [pushTitle, List.map_cons]
    by_cases hfit : len text + (titleChar c).utf8Size + 2 > maxText
    · rw [if_pos hfit, takeFitting_cons_of_lt (by omega)]
      simp
    · have hlen : len (text.push (titleChar c)) = len text + (titleChar c).utf8Size := by
        rw [push_eq_append, len_append, len_ofList, weight_cons, weight_nil, Nat.add_zero]
      rw [if_neg hfit, ih _ (by omega), takeFitting_cons_of_le (by omega), hlen, push_eq_append,
        Nat.sub_add_eq, String.append_assoc, ← String.ofList_append, List.singleton_append]

lemma titleText_eq (title : String) :
    titleText title = titlePrefix ++ titleBody title ++ titleSuffix := by
  have h : len titlePrefix + 2 ≤ maxText := by
    rw [len_titlePrefix]
    decide
  rw [titleText, pushTitle_eq titlePrefix title.toList h, len_titlePrefix]
  rfl

lemma len_titleText (title : String) : len (titleText title) = len (titleBody title) + 15 := by
  rw [titleText_eq, len_append, len_append, len_titlePrefix, len_titleSuffix]
  omega

lemma len_titleBody_le (title : String) : len (titleBody title) ≤ titleBudget := by
  rw [titleBody, len_ofList]
  exact weight_takeFitting_le _ _ _

/-! ## Length and padding -/

lemma titleBlocks_bounds (title : String) : 1 ≤ titleBlocks title ∧ titleBlocks title ≤ 255 := by
  have hbody := len_titleBody_le title
  have hlen := len_titleText title
  unfold titleBlocks divCeil
  simp only [titleBudget, maxText] at hbody
  omega

/-- The cast `blocks as u8` loses nothing. -/
lemma toNat_titleBlocks (title : String) :
    (UInt8.ofNat (titleBlocks title)).toNat = titleBlocks title := by
  have := titleBlocks_bounds title
  rw [UInt8.toNat_ofNat_of_lt']
  exact Nat.lt_of_le_of_lt this.2 (by decide)

/-- How many NUL bytes pad the text. -/
def titlePad (title : String) : ℕ := titleBlocks title * 16 - len (titleText title)

lemma titlePad_lt (title : String) : titlePad title < 16 := by
  unfold titlePad titleBlocks divCeil
  omega

lemma len_titleText_add_pad (title : String) :
    len (titleText title) + titlePad title = titleBlocks title * 16 := by
  unfold titlePad titleBlocks divCeil
  omega

lemma formatTitle_eq (title : String) :
    formatTitle title = UInt8.ofNat (titleBlocks title) ::
      (asBytes (titleText title) ++ List.replicate (titlePad title) 0) := by
  have hpad := len_titleText_add_pad title
  have hlen : (asBytes (titleText title)).length = len (titleText title) := rfl
  have hrest : 1 + titleBlocks title * 16 - (len (titleText title) + 1) = titlePad title := by
    omega
  rw [formatTitle, resize, List.take_of_length_le, List.length_cons, List.cons_append, hlen, hrest]
  rw [List.length_cons]
  omega

lemma length_formatTitle (title : String) :
    (formatTitle title).length = 1 + 16 * titleBlocks title := by
  have hpad := len_titleText_add_pad title
  have hlen : (asBytes (titleText title)).length = len (titleText title) := rfl
  rw [formatTitle_eq, List.length_cons, List.length_append, List.length_replicate]
  omega

/-! ## What a client reads -/

lemma asBytes_ofList_replicate_nul (n : ℕ) :
    asBytes (String.ofList (List.replicate n '\x00')) = List.replicate n 0 := by
  rw [asBytes_ofList]
  induction n with
  | zero => rfl
  | succ n ih =>
    rw [List.replicate_succ, Utf8.encode_cons, ih, List.replicate_succ]
    rfl

lemma rdropWhile_concat_replicate {α : Type*} {p : α → Bool} {x y : α} (hx : ¬ p x) (hy : p y)
    (xs : List α) (n : ℕ) : (xs ++ [x] ++ List.replicate n y).rdropWhile p = xs ++ [x] := by
  induction n with
  | zero => rw [List.replicate_zero, List.append_nil, List.rdropWhile_concat_neg _ _ _ hx]
  | succ n ih =>
    rw [List.replicate_succ', ← List.append_assoc, List.rdropWhile_concat_pos _ _ _ hy, ih]

lemma isPrefixOf?_append {α : Type*} [BEq α] [LawfulBEq α] (xs ys : List α) :
    xs.isPrefixOf? (xs ++ ys) = some ys := by
  induction xs with
  | nil => rfl
  | cons x xs ih =>
    rw [List.cons_append, List.isPrefixOf?, beq_self_eq_true, if_pos rfl, ih]

/-- The text ends in a semicolon, which is no padding. -/
lemma toList_titleText (title : String) : (titleText title).toList =
    titlePrefix.toList ++ (titleBody title).toList ++ ['\''] ++ [';'] := by
  rw [titleText_eq, String.toList_append, String.toList_append, List.append_assoc _ ['\'']]
  rfl

/-- The metadata bytes are text, and without their padding they are `text`. -/
lemma fromUtf8_metadata (title : String) :
    (fromUtf8 (asBytes (titleText title) ++ List.replicate (titlePad title) 0)).map trimEndNul =
      some (titleText title) := by
  rw [← asBytes_ofList_replicate_nul, ← asBytes_append, fromUtf8_asBytes, Option.map_some,
    trimEndNul, String.toList_append, String.toList_ofList, toList_titleText,
    rdropWhile_concat_replicate (by decide) (by decide), ← toList_titleText, String.ofList_toList]

/-- An ICY client's reading of the metadata bytes: drop the trailing NUL bytes, expect the
prefix and read up to the first quote. -/
def clientTitle (metadata : Bytes) : Option String := do
  let value ← (asBytes titlePrefix).isPrefixOf? (metadata.rdropWhile (· = 0))
  fromUtf8 (value.takeWhile (· ≠ 0x27))

lemma mem_titleBody {title : String} {c : Char} (h : c ∈ (titleBody title).toList) :
    c ≠ '\'' ∧ isControl c = false := by
  rw [titleBody, String.toList_ofList] at h
  obtain ⟨ch, -, rfl⟩ := List.mem_map.mp ((takeFitting_prefix_self _ _ _).subset h)
  unfold titleChar
  split
  · decide
  · next hch => simpa using hch

/-- No byte of the body is a quote, since no character of it is. -/
lemma quote_notMem_titleBody (title : String) : (0x27 : UInt8) ∉ asBytes (titleBody title) := by
  intro h
  have hmem := Utf8.ofNat_mem_of_mem_encode (by decide) h
  exact (mem_titleBody hmem).1 rfl

lemma clientTitle_metadata (title : String) :
    clientTitle (asBytes (titleText title) ++ List.replicate (titlePad title) 0) =
      some (titleBody title) := by
  have htext : asBytes (titleText title) =
      asBytes titlePrefix ++ (asBytes (titleBody title) ++ [0x27]) ++ [0x3B] := by
    rw [asBytes, toList_titleText]
    simp only [Utf8.encode_append, List.append_assoc]
    rfl
  have htake : (asBytes (titleBody title) ++ [0x27, 0x3B]).takeWhile (· ≠ 0x27) =
      asBytes (titleBody title) := by
    rw [List.takeWhile_append_of_pos]
    · simp
    · intro b hb
      have : b ≠ 0x27 := fun h => quote_notMem_titleBody title (h ▸ hb)
      simpa using this
  rw [clientTitle, htext, rdropWhile_concat_replicate (by decide) (by decide), List.append_assoc,
    isPrefixOf?_append, List.append_assoc, List.singleton_append, Option.bind_eq_bind,
    Option.bind_some, htake, fromUtf8_asBytes]

/-! ## Formatting twice -/

lemma titleChar_of_plain {c : Char} (hq : c ≠ '\'') (hc : isControl c = false) :
    titleChar c = c := by
  rw [titleChar, if_neg]
  simp [hq, hc]

lemma titleBody_titleBody (title : String) : titleBody (titleBody title) = titleBody title := by
  have hmap : (titleBody title).toList.map titleChar = (titleBody title).toList := by
    conv_rhs => rw [← List.map_id (titleBody title).toList]
    exact List.map_congr_left fun c hc =>
      titleChar_of_plain (mem_titleBody hc).1 (mem_titleBody hc).2
  rw [titleBody, hmap, titleBody, String.toList_ofList, takeFitting_takeFitting]

lemma formatTitle_titleBody (title : String) :
    formatTitle (titleBody title) = formatTitle title := by
  have htext : titleText (titleBody title) = titleText title := by
    rw [titleText_eq, titleBody_titleBody, ← titleText_eq]
  rw [formatTitle, formatTitle, titleBlocks, titleBlocks, htext]

/-! ## The whole block -/

lemma len_block_text (p : String) : len ("StreamTitle='" ++ p ++ "';") = len p + 15 := by
  rw [len_append, len_append, show len "StreamTitle='" = 13 from len_titlePrefix,
    show len "';" = 2 from len_titleSuffix]
  omega

/-- No longer prefix of the replaced title would fit. -/
lemma titleBody_greatest (title p : String) (hp : p.toList <+: title.toList.map titleChar)
    (hfit : len ("StreamTitle='" ++ p ++ "';") ≤ 255 * 16) :
    p.toList <+: (titleBody title).toList := by
  have hw : weight Char.utf8Size p.toList ≤ titleBudget := by
    rw [← len_ofList, String.ofList_toList]
    rw [len_block_text] at hfit
    unfold titleBudget maxText
    omega
  rw [titleBody, String.toList_ofList]
  exact (isGreatest_takeFitting _ _ _).2.2 _ hp hw

/-- **A metadata block is well formed, unambiguous and maximal**, for every title.  Its length
byte counts the blocks, between 1 and 255 of them, so the cast does not wrap; after it stand
the text of some `body` and fewer than 16 NUL bytes.  The body is UTF-8 without quotes or
control characters, a client recovers it from the block, it is the longest prefix that fits of
the title with a space for every quote and control character, and formatting it again gives the
same block. -/
theorem formatTitle_exact (title : String) : ∃ body : String,
    (1 ≤ titleBlocks title ∧ titleBlocks title ≤ 255 ∧
      (formatTitle title)[0]?.map UInt8.toNat = some (titleBlocks title) ∧
      (formatTitle title).length = 1 + 16 * titleBlocks title) ∧
    (∃ pad < 16, (formatTitle title).drop 1 =
      asBytes ("StreamTitle='" ++ body ++ "';") ++ List.replicate pad 0) ∧
    (Utf8.WellFormed (asBytes body) ∧
      ∀ c ∈ body.toList, c ≠ '\'' ∧ isControl c = false ∧ c ≠ '\x00') ∧
    clientTitle ((formatTitle title).drop 1) = some body ∧
    (body.toList <+: title.toList.map (fun c => if c = '\'' ∨ isControl c then ' ' else c) ∧
      len ("StreamTitle='" ++ body ++ "';") ≤ 255 * 16 ∧
      ∀ p : String,
        p.toList <+: title.toList.map (fun c => if c = '\'' ∨ isControl c then ' ' else c) →
        len ("StreamTitle='" ++ p ++ "';") ≤ 255 * 16 → p.toList <+: body.toList) ∧
    formatTitle body = formatTitle title := by
  have hbounds := titleBlocks_bounds title
  have hdrop : (formatTitle title).drop 1 =
      asBytes (titleText title) ++ List.replicate (titlePad title) 0 := by
    rw [formatTitle_eq, List.drop_succ_cons, List.drop_zero]
  refine ⟨titleBody title, ⟨hbounds.1, hbounds.2, ?_, length_formatTitle title⟩,
    ⟨titlePad title, titlePad_lt title, ?_⟩, ⟨Utf8.wellFormed_encode _, fun c hc => ?_⟩, ?_,
    ⟨?_, ?_, titleBody_greatest title⟩, formatTitle_titleBody title⟩
  · rw [formatTitle_eq, List.getElem?_cons_zero, Option.map_some, toNat_titleBlocks]
  · rw [hdrop, titleText_eq]
    rfl
  · obtain ⟨hquote, hcontrol⟩ := mem_titleBody hc
    refine ⟨hquote, hcontrol, ?_⟩
    rintro rfl
    exact absurd hcontrol (by decide)
  · rw [hdrop, clientTitle_metadata]
  · rw [titleBody, String.toList_ofList]
    exact (isGreatest_takeFitting _ _ _).1
  · have hlen := len_titleBody_le title
    unfold titleBudget maxText at hlen
    rw [len_block_text]
    omega

-- A quote and a line feed become spaces, and `é` takes two bytes.
example : formatTitle "L'é\n" = 2 :: (asBytes "StreamTitle='L é ';" ++ List.replicate 12 0) ∧
    clientTitle ((formatTitle "L'é\n").drop 1) = some "L é " := by
  decide +kernel

end P2PRadio
