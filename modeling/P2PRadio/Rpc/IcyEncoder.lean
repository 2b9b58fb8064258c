import P2PRadio.Rpc.FormatTitle
import P2PRadio.Support.Interleave

/-!
# The ICY encoder and its client

`IcyEncoder` of `src/rpc/mod.rs` inserts a metadata block after every `interval` audio bytes
of a connection, whatever the chunks in which the audio arrives.  `frames` is the closure that
`stream_handler` and `response_stream` map over the items of a body, and `stripIcy` is the
client of the tests.

The bytes of a connection, each labelled with the title its chunk was encoded with, determine
its wire: `encode` is `Interleave.weave` on the labelled bytes (`encode_eq`).  From that follows
`icy_round_trip`: the client gets back every audio byte and the title in force at every
interval.
-/

namespace P2PRadio

open Interleave

/-! ## The encoder -/

/-- `IcyEncoder`, between two calls: the interval under way is never complete. -/
@[ext]
structure IcyEncoder where
  interval : ℕ
  remaining : ℕ
  remaining_pos : 0 < remaining
  remaining_le : remaining ≤ interval

namespace IcyEncoder

/-- `none` is the failed assertion. -/
def new (interval : ℕ) : Option IcyEncoder :=
  if h : interval > 0 then
    some { interval, remaining := interval, remaining_pos := h, remaining_le := le_rfl }
  else none

/-- `self.remaining = self.interval` -/
def restart (icy : IcyEncoder) : IcyEncoder where
  interval := icy.interval
  remaining := icy.interval
  remaining_pos := Nat.lt_of_lt_of_le icy.remaining_pos icy.remaining_le
  remaining_le := le_rfl

/-- `self.remaining -= count`, where that leaves a part of the interval. -/
def consume (icy : IcyEncoder) (count : ℕ) (h : icy.remaining - count ≠ 0) : IcyEncoder where
  interval := icy.interval
  remaining := icy.remaining - count
  remaining_pos := Nat.pos_of_ne_zero h
  remaining_le := Nat.le_trans (Nat.sub_le _ _) icy.remaining_le

/-- The output, and the encoder after the call.  Each pass of the loop takes at least one byte
off the audio. -/
def encode (icy : IcyEncoder) (audio : Bytes) (title : String) : Bytes × IcyEncoder :=
  if audio = [] then ([], icy)
  else
    let count := min icy.remaining audio.length
    if h : icy.remaining - count = 0 then
      let rest := icy.restart.encode (audio.drop count) title
      (audio.take count ++ formatTitle title ++ rest.1, rest.2)
    else
      let rest := (icy.consume count h).encode (audio.drop count) title
      (audio.take count ++ rest.1, rest.2)
termination_by audio.length
decreasing_by
  all_goals
    have hpos := icy.remaining_pos
    have haudio : audio.length ≠ 0 := by simpa using ‹¬ audio = []›
    rw [List.length_drop]
    omega

end IcyEncoder

/-! ## The body -/

/-- The closure mapped over the items of a body, with the shared title it reads: the frame, and
the encoder it leaves. -/
def frame {ε : Type*} (icyRequested : Bool) (icy : IcyEncoder) (title : String) :
    Except ε Bytes → Except ε Bytes × IcyEncoder
  | .error err => (.error err, icy)
  | .ok bytes =>
    if icyRequested then
      let encoded := icy.encode bytes title
      (.ok encoded.1, encoded.2)
    else (.ok bytes, icy)

/-- The frames of a body.  Every item stands with the title in force when the closure runs on
it. -/
def frames {ε : Type*} (icyRequested : Bool) :
    IcyEncoder → List (String × Except ε Bytes) → List (Except ε Bytes) × IcyEncoder
  | icy, [] => ([], icy)
  | icy, (title, item) :: items =>
    let first := frame icyRequested icy title item
    let rest := frames icyRequested first.2 items
    (first.1 :: rest.1, rest.2)

/-- The data of the frames, concatenated. -/
def wire {ε : Type*} (body : List (Except ε Bytes)) : Bytes :=
  body.flatMap fun frame => frame.toOption.getD []

/-! ## The client -/

/-- The client of the tests; `none` is an index out of range, or text that is not UTF-8. -/
def stripIcy (rest : Bytes) (interval : ℕ) : Option (Bytes × List String) :=
  if interval ≤ rest.length then
    match _hdrop : rest.drop interval with
    | [] => none
    | length :: block =>
      let size := length.toNat * 16
      if size ≤ block.length then do
        let title ← fromUtf8 (block.take size)
        let (audio, titles) ← stripIcy (block.drop size) interval
        return (rest.take interval ++ audio, trimEndNul title :: titles)
      else none
  else some (rest, [])
termination_by rest.length
decreasing_by
  have hlen := congrArg List.length _hdrop
  rw [List.length_drop, List.length_cons] at hlen
  rw [List.length_drop]
  omega

/-! ## The wire of one call -/

namespace IcyEncoder

/-- Audio bytes, each labelled with the title of their chunk. -/
def label (title : String) (audio : Bytes) : List (UInt8 × String) := audio.map (·, title)

@[simp] lemma map_fst_label (title : String) (audio : Bytes) :
    (label title audio).map Prod.fst = audio := by
  rw [label, List.map_map]
  exact List.map_id audio

@[simp] lemma length_label (title : String) (audio : Bytes) :
    (label title audio).length = audio.length :=
  List.length_map _

lemma label_append (title : String) (a b : Bytes) :
    label title (a ++ b) = label title a ++ label title b :=
  List.map_append

/-- Bytes that end the running interval are followed by the block of the call's title. -/
lemma weave_label_of_length_eq {n r : ℕ} (hr : 0 < r) {audio : Bytes} (h : audio.length = r)
    (title : String) :
    weave formatTitle n r (label title audio) = audio ++ formatTitle title := by
  obtain ⟨y, hy, hweave, -⟩ := weave_of_length_eq formatTitle n hr
    ((length_label title audio).trans h)
  obtain ⟨b, -, rfl⟩ := List.mem_map.mp hy
  rw [hweave, map_fst_label]

/-! One pass of the loop, by whether it ends the interval or the audio. -/

lemma encode_of_lt (icy : IcyEncoder) {audio : Bytes} (h : audio.length < icy.remaining)
    (title : String) :
    icy.encode audio title = (audio, icy.consume audio.length (Nat.sub_ne_zero_of_lt h)) := by
  have hnil : ∀ icy' : IcyEncoder, icy'.encode [] title = ([], icy') := by
    intro icy'
    rw [encode, if_pos rfl]
  rcases audio with _ | ⟨b, audio⟩
  · exact hnil icy
  · have hcount : min icy.remaining (b :: audio).length = (b :: audio).length :=
      Nat.min_eq_right h.le
    rw [encode, if_neg (List.cons_ne_nil b audio)]
    simp only [hcount, dif_neg (Nat.sub_ne_zero_of_lt h), List.drop_length, List.take_length, hnil,
      List.append_nil]

lemma encode_of_le (icy : IcyEncoder) {audio : Bytes} (h : icy.remaining ≤ audio.length)
    (title : String) :
    icy.encode audio title =
      (audio.take icy.remaining ++ formatTitle title ++
        (icy.restart.encode (audio.drop icy.remaining) title).1,
        (icy.restart.encode (audio.drop icy.remaining) title).2) := by
  have hne : audio ≠ [] := by
    rintro rfl
    exact Nat.not_le.mpr icy.remaining_pos h
  have hcount : min icy.remaining audio.length = icy.remaining := Nat.min_eq_left h
  rw [encode, if_neg hne]
  simp only [hcount, Nat.sub_self, dif_pos]

/-- A call weaves the blocks into its bytes, and leaves missing what they leave missing.  By
induction on the length of the audio, which every pass shortens. -/
lemma encode_eq (icy : IcyEncoder) (audio : Bytes) (title : String) :
    (icy.encode audio title).1 =
      weave formatTitle icy.interval icy.remaining (label title audio) ∧
    (icy.encode audio title).2.interval = icy.interval ∧
    (icy.encode audio title).2.remaining =
      advance icy.interval icy.remaining audio.length := by
  induction hk : audio.length using Nat.strong_induction_on generalizing icy audio with
  | _ k ih =>
    subst hk
    rcases Nat.lt_or_ge audio.length icy.remaining with hlt | hle
    · rw [encode_of_lt icy hlt]
      refine ⟨?_, rfl, (advance_of_lt _ hlt).symm⟩
      rw [weave_of_length_lt _ _ (by rwa [length_label]), map_fst_label]
    · have hpos := icy.remaining_pos
      have htake : (audio.take icy.remaining).length = icy.remaining := List.length_take_of_le hle
      have hsplit : label title audio =
          label title (audio.take icy.remaining) ++ label title (audio.drop icy.remaining) := by
        rw [← label_append, List.take_append_drop]
      have hadv : advance icy.interval icy.remaining icy.remaining = icy.interval :=
        advance_self icy.interval hpos
      obtain ⟨hout, hint, hrem⟩ := ih (audio.drop icy.remaining).length
        (by rw [List.length_drop]; omega) icy.restart (audio.drop icy.remaining) rfl
      rw [encode_of_le icy hle]
      refine ⟨?_, hint, ?_⟩
      · rw [hout, hsplit, weave_append, weave_label_of_length_eq hpos htake, length_label, htake,
          hadv]
        rfl
      · have hsum : audio.length = icy.remaining + (audio.drop icy.remaining).length := by
          rw [List.length_drop]
          omega
        rw [hrem, hsum, advance_add, hadv]
        rfl

end IcyEncoder

/-! ## The wire of a connection -/

/-- The audio bytes of the items, each labelled with the title its chunk is encoded with. -/
def labelled {ε : Type*} (items : List (String × Except ε Bytes)) : List (UInt8 × String) :=
  items.flatMap fun (title, item) => IcyEncoder.label title (item.toOption.getD [])

/-- The `Ok` chunks, concatenated. -/
def audioOf {ε : Type*} (items : List (String × Except ε Bytes)) : Bytes :=
  items.flatMap fun (_, item) => item.toOption.getD []

/-- For every audio byte of the items, the title in force when its chunk is encoded. -/
def titlesInForce {ε : Type*} (items : List (String × Except ε Bytes)) : List String :=
  items.flatMap fun (title, item) => List.replicate (item.toOption.getD []).length title

/-- The encoder carries its counter over from chunk to chunk. -/
lemma wire_frames {ε : Type*} (icy : IcyEncoder) (items : List (String × Except ε Bytes)) :
    wire (frames true icy items).1 =
      weave formatTitle icy.interval icy.remaining (labelled items) := by
  induction items generalizing icy with
  | nil => rfl
  | cons item items ih =>
    obtain ⟨title, err | bytes⟩ := item
    · exact ih icy
    · obtain ⟨hout, hint, hrem⟩ := icy.encode_eq bytes title
      have hih := ih (icy.encode bytes title).2
      rw [hint, hrem] at hih
      have hwire : wire (frames true icy ((title, .ok bytes) :: items)).1 =
          (icy.encode bytes title).1 ++ wire (frames true (icy.encode bytes title).2 items).1 := rfl
      have hlabel : labelled ((title, (.ok bytes : Except ε Bytes)) :: items) =
          IcyEncoder.label title bytes ++ labelled items := rfl
      rw [hwire, hout, hih, hlabel, weave_append, IcyEncoder.length_label]

lemma map_fst_labelled {ε : Type*} (items : List (String × Except ε Bytes)) :
    (labelled items).map Prod.fst = audioOf items := by
  rw [labelled, audioOf, List.map_flatMap]
  simp

lemma map_snd_labelled {ε : Type*} (items : List (String × Except ε Bytes)) :
    (labelled items).map Prod.snd = titlesInForce items := by
  rw [labelled, titlesInForce, List.map_flatMap]
  simp [IcyEncoder.label, Function.comp_def]

/-! ## What the client recovers -/

/-- The client takes one block off the wire: its length byte counts the bytes up to the audio
that follows. -/
lemma stripIcy_block {interval : ℕ} {audio : Bytes} (h : audio.length = interval)
    (title : String) (rest : Bytes) :
    stripIcy (audio ++ (formatTitle title ++ rest)) interval =
      (stripIcy rest interval).map fun (a, titles) => (audio ++ a, titleText title :: titles) := by
  have hle : interval ≤ (audio ++ (formatTitle title ++ rest)).length := by
    rw [List.length_append]
    omega
  have hdrop : (audio ++ (formatTitle title ++ rest)).drop interval = formatTitle title ++ rest :=
    List.drop_left' h
  have htake : (audio ++ (formatTitle title ++ rest)).take interval = audio := List.take_left' h
  have hmeta : (asBytes (titleText title) ++ List.replicate (titlePad title) 0).length =
      (UInt8.ofNat (titleBlocks title)).toNat * 16 := by
    rw [toNat_titleBlocks, ← len_titleText_add_pad, List.length_append, List.length_replicate]
    rfl
  obtain ⟨text, htext, htrim⟩ := Option.map_eq_some_iff.mp (fromUtf8_metadata title)
  rw [stripIcy, if_pos hle, htake]
  rw [formatTitle_eq, List.cons_append] at hdrop ⊢
  split
  · next hnil => exact absurd (hnil.symm.trans hdrop) (List.cons_ne_nil _ _).symm
  · next length block hcons =>
    obtain ⟨rfl, rfl⟩ := List.cons.inj (hcons.symm.trans hdrop)
    rw [if_pos (by rw [List.length_append]; omega), List.take_left' hmeta, List.drop_left' hmeta,
      htext, ← htrim]
    rcases stripIcy rest interval with _ | ⟨a, titles⟩ <;> rfl

/-- The client undoes the weaving, with every title it meets in the order of the blocks.  By
induction on the number of labelled bytes, one interval at a time. -/
lemma stripIcy_weave {interval : ℕ} (h : 0 < interval) (bytes : List (UInt8 × String)) :
    stripIcy (weave formatTitle interval interval bytes) interval =
      some (bytes.map Prod.fst, (marks interval interval bytes).map titleText) := by
  induction hk : bytes.length using Nat.strong_induction_on generalizing bytes with
  | _ k ih =>
    subst hk
    rcases Nat.lt_or_ge bytes.length interval with hlt | hle
    · rw [weave_of_length_lt _ _ hlt, marks_of_length_lt _ hlt, stripIcy,
        if_neg (by rw [List.length_map]; omega), List.map_nil]
    · have htake : (bytes.take interval).length = interval := List.length_take_of_le hle
      have hadv : advance interval interval interval = interval := advance_self interval h
      obtain ⟨y, -, hweave, hmarks⟩ := weave_of_length_eq formatTitle interval h htake
      have hrest := ih (bytes.drop interval).length (by rw [List.length_drop]; omega) _ rfl
      rw [← List.take_append_drop interval bytes, weave_append, marks_append, htake, hadv, hweave,
        hmarks, List.append_assoc, stripIcy_block (by rw [List.length_map, htake]), hrest,
        Option.map_some, List.map_append, List.map_append, List.map_singleton,
        List.singleton_append]

/-- **ICY round trip over a whole connection.**  Whatever the items of the body, their titles
and the interval, the client reads the wire without running past its end.  It gets back the
audio of the `Ok` chunks, and one title for every complete interval: the text of the title in
force when the chunk with the interval's last byte was encoded. -/
theorem icy_round_trip {ε : Type*} (interval : ℕ) (h : 1 ≤ interval)
    (items : List (String × Except ε Bytes)) :
    ∃ icy titles, IcyEncoder.new interval = some icy ∧
      stripIcy (wire (frames true icy items).1) interval = some (audioOf items, titles) ∧
      titles.length = (audioOf items).length / interval ∧
      ∀ k, 1 ≤ k → k ≤ (audioOf items).length / interval →
        ∃ title, (titlesInForce items)[k * interval - 1]? = some title ∧
          titles[k - 1]? = some (titleText title) := by
  have hlabelled : (labelled items).length = (audioOf items).length := by
    rw [← map_fst_labelled, List.length_map]
  have hcount : (marks interval interval (labelled items)).length =
      (audioOf items).length / interval := by
    rw [length_marks interval h le_rfl, Nat.sub_self, Nat.zero_add, hlabelled]
  refine ⟨_, (marks interval interval (labelled items)).map titleText, dif_pos h, ?_, ?_,
    fun k hk hkn => ?_⟩
  · rw [wire_frames, stripIcy_weave h, map_fst_labelled]
  · rw [List.length_map, hcount]
  · have hlt : k - 1 < (marks interval interval (labelled items)).length := by omega
    have hidx : interval - 1 + (k - 1) * interval = k * interval - 1 := by
      obtain ⟨j, rfl⟩ : ∃ j, k = j + 1 := ⟨k - 1, by omega⟩
      rw [Nat.add_mul, Nat.add_sub_cancel]
      omega
    have hmark := getElem?_marks interval h le_rfl (labelled items) (k - 1)
    rw [List.getElem?_eq_getElem hlt, hidx, ← List.getElem?_map, map_snd_labelled] at hmark
    refine ⟨(marks interval interval (labelled items))[k - 1], hmark.symm, ?_⟩
    rw [List.getElem?_map, List.getElem?_eq_getElem hlt, Option.map_some]

/-- The interval's last byte decides: the titles of a chunk that ends no interval, of an empty
chunk and of an error never reach the client. -/
theorem icy_round_trip_of_two : ∃ icy titles, IcyEncoder.new 2 = some icy ∧
    stripIcy (wire (frames true icy
      [("First", .ok [1]), ("First", .error "lagged"), ("Second", .ok [2, 3]), ("Third", .ok []),
        ("Fourth", .ok [4, 5])]).1) 2 = some ([1, 2, 3, 4, 5], titles) ∧
    titles.length = 2 ∧
    ∀ k, 1 ≤ k → k ≤ 2 →
      ∃ title, ["First", "Second", "Second", "Fourth", "Fourth"][k * 2 - 1]? = some title ∧
        titles[k - 1]? = some (titleText title) :=
  icy_round_trip 2 (by decide) _

end P2PRadio
