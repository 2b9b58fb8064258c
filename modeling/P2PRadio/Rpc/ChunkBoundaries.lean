import P2PRadio.Rpc.IcyEncoder

/-!
# Chunk boundaries are invisible

Two runs of calls of `IcyEncoder::encode` over the same audio, cut into chunks in two ways.
A call's title matters only where its chunk completes an interval, so two cuts that agree there
have one wire and leave one encoder (`encodeAll_congr`).
`chunk_boundaries_invisible` says so of every encoder that calls of `encode` can reach.
-/

namespace P2PRadio

open Interleave

/-- Calls of `encode`, each with its chunk and the title it is given: the outputs, concatenated,
and the encoder they leave. -/
def IcyEncoder.encodeAll (icy : IcyEncoder) : List (String × Bytes) → Bytes × IcyEncoder
  | [] => ([], icy)
  | (title, audio) :: chunks =>
    let first := icy.encode audio title
    let rest := first.2.encodeAll chunks
    (first.1 ++ rest.1, rest.2)

def chunkBytes (chunks : List (String × Bytes)) : Bytes := chunks.flatMap fun (_, audio) => audio

/-- For every byte, the title its chunk is encoded with. -/
def chunkTitles (chunks : List (String × Bytes)) : List String :=
  chunks.flatMap fun (title, audio) => List.replicate audio.length title

lemma chunkBytes_append (chunks more : List (String × Bytes)) :
    chunkBytes (chunks ++ more) = chunkBytes chunks ++ chunkBytes more := List.flatMap_append

/-! ## The calls as the items of a body -/

/-- The items of a body without errors. -/
def okItems (chunks : List (String × Bytes)) : List (String × Except Empty Bytes) :=
  chunks.map fun (title, audio) => (title, .ok audio)

lemma audioOf_okItems (chunks : List (String × Bytes)) :
    audioOf (okItems chunks) = chunkBytes chunks := by
  rw [audioOf, okItems, List.flatMap_map]
  rfl

lemma titlesInForce_okItems (chunks : List (String × Bytes)) :
    titlesInForce (okItems chunks) = chunkTitles chunks := by
  rw [titlesInForce, okItems, List.flatMap_map]
  rfl

lemma wire_cons_ok (bytes : Bytes) (body : List (Except Empty Bytes)) :
    wire (.ok bytes :: body) = bytes ++ wire body := rfl

namespace IcyEncoder

/-- The closure makes these calls. -/
lemma frames_okItems (icy : IcyEncoder) (chunks : List (String × Bytes)) :
    (wire (frames true icy (okItems chunks)).1, (frames true icy (okItems chunks)).2) =
      icy.encodeAll chunks := by
  induction chunks generalizing icy with
  | nil => rfl
  | cons chunk chunks ih =>
    obtain ⟨title, audio⟩ := chunk
    rw [encodeAll, ← ih (icy.encode audio title).2, ← wire_cons_ok]
    rfl

/-- The counter runs on from call to call. -/
lemma encodeAll_snd (icy : IcyEncoder) (chunks : List (String × Bytes)) :
    (icy.encodeAll chunks).2.interval = icy.interval ∧
    (icy.encodeAll chunks).2.remaining =
      advance icy.interval icy.remaining (chunkBytes chunks).length := by
  induction chunks generalizing icy with
  | nil => exact ⟨rfl, rfl⟩
  | cons chunk chunks ih =>
    obtain ⟨title, audio⟩ := chunk
    obtain ⟨-, hint, hrem⟩ := icy.encode_eq audio title
    obtain ⟨hint', hrem'⟩ := ih (icy.encode audio title).2
    have hbytes : chunkBytes ((title, audio) :: chunks) = audio ++ chunkBytes chunks := rfl
    rw [hint] at hint'
    rw [hint, hrem, ← advance_add, ← List.length_append, ← hbytes] at hrem'
    exact ⟨hint', hrem'⟩

/-- **Two cuts of the same bytes whose titles agree wherever a byte completes an interval** have
the same output and leave the same encoder. -/
lemma encodeAll_congr (icy : IcyEncoder) {cut₁ cut₂ : List (String × Bytes)}
    (hbytes : chunkBytes cut₁ = chunkBytes cut₂)
    (htitles : ∀ k, (chunkTitles cut₁)[icy.remaining - 1 + k * icy.interval]? =
      (chunkTitles cut₂)[icy.remaining - 1 + k * icy.interval]?) :
    icy.encodeAll cut₁ = icy.encodeAll cut₂ := by
  have hmarks : marks icy.interval icy.remaining (labelled (okItems cut₁)) =
      marks icy.interval icy.remaining (labelled (okItems cut₂)) := by
    apply marks_congr _ icy.remaining_pos icy.remaining_le
    intro k
    rw [map_snd_labelled, map_snd_labelled, titlesInForce_okItems, titlesInForce_okItems]
    exact htitles k
  have hsymbols : (labelled (okItems cut₁)).map Prod.fst =
      (labelled (okItems cut₂)).map Prod.fst := by
    rw [map_fst_labelled, map_fst_labelled, audioOf_okItems, audioOf_okItems]
    exact hbytes
  apply Prod.ext
  · rw [← frames_okItems, ← frames_okItems]
    show wire _ = wire _
    rw [wire_frames, wire_frames]
    exact weave_congr _ _ hsymbols hmarks
  · obtain ⟨hint₁, hrem₁⟩ := icy.encodeAll_snd cut₁
    obtain ⟨hint₂, hrem₂⟩ := icy.encodeAll_snd cut₂
    rw [← hbytes] at hrem₂
    exact IcyEncoder.ext (hint₁.trans hint₂.symm) (hrem₁.trans hrem₂.symm)

/-- In particular one chunk may be cut in two. -/
lemma encode_append (icy : IcyEncoder) (a b : Bytes) (title : String) :
    icy.encode (a ++ b) title =
      ((icy.encode a title).1 ++ ((icy.encode a title).2.encode b title).1,
        ((icy.encode a title).2.encode b title).2) := by
  have hcut : icy.encodeAll [(title, a ++ b)] = icy.encodeAll [(title, a), (title, b)] := by
    apply icy.encodeAll_congr
    · simp [chunkBytes]
    · intro k
      simp [chunkTitles, List.replicate_append_replicate]
  simpa [encodeAll] using hcut

lemma encodeAll_append (icy : IcyEncoder) (chunks more : List (String × Bytes)) :
    icy.encodeAll (chunks ++ more) =
      ((icy.encodeAll chunks).1 ++ ((icy.encodeAll chunks).2.encodeAll more).1,
        ((icy.encodeAll chunks).2.encodeAll more).2) := by
  induction chunks generalizing icy with
  | nil => rfl
  | cons chunk chunks ih =>
    obtain ⟨title, audio⟩ := chunk
    rw [List.cons_append, encodeAll, encodeAll, ih, ← List.append_assoc]

/-- What calls from `new` leave missing. -/
lemma encodeAll_new {interval : ℕ} {icy : IcyEncoder} (h : IcyEncoder.new interval = some icy)
    (chunks : List (String × Bytes)) :
    (icy.encodeAll chunks).2.interval = interval ∧
    (icy.encodeAll chunks).2.remaining = interval - (chunkBytes chunks).length % interval := by
  unfold IcyEncoder.new at h
  split at h
  · next hpos =>
    obtain rfl := Option.some.inj h
    obtain ⟨hint, hrem⟩ := IcyEncoder.encodeAll_snd _ chunks
    refine ⟨hint, hrem.trans ?_⟩
    rw [advance_eq interval hpos le_rfl, Nat.sub_self, Nat.zero_add]
  · cases h

end IcyEncoder

/-- **Chunk boundaries are invisible on the wire.**  From every encoder that calls of `encode`
reach, two ways of cutting the same bytes into chunks have the same output and leave the same
encoder, if the byte that completes an interval is encoded with the same title in both, for
every interval completed.  What is then missing depends on the number of bytes since `new`.
Cutting one chunk in two changes nothing. -/
theorem chunk_boundaries_invisible (interval : ℕ) (h : 1 ≤ interval)
    (before cut₁ cut₂ : List (String × Bytes)) (hbytes : chunkBytes cut₁ = chunkBytes cut₂)
    (htitles : ∀ i, ((chunkBytes before).length + i + 1) % interval = 0 →
      (chunkTitles cut₁)[i]? = (chunkTitles cut₂)[i]?) :
    ∃ icy reached last output, IcyEncoder.new interval = some icy ∧
      (icy.encodeAll before).2 = reached ∧
      reached.encodeAll cut₁ = (output, last) ∧ reached.encodeAll cut₂ = (output, last) ∧
      last.interval = interval ∧
      last.remaining = interval - (chunkBytes before ++ chunkBytes cut₁).length % interval ∧
      1 ≤ last.remaining ∧ last.remaining ≤ interval ∧
      ∀ a b title, reached.encode (a ++ b) title =
        ((reached.encode a title).1 ++ ((reached.encode a title).2.encode b title).1,
          ((reached.encode a title).2.encode b title).2) := by
  obtain ⟨icy, hnew⟩ : ∃ icy, IcyEncoder.new interval = some icy := ⟨_, dif_pos h⟩
  obtain ⟨hint, hrem⟩ := IcyEncoder.encodeAll_new hnew before
  have hcut : (icy.encodeAll before).2.encodeAll cut₁ =
      (icy.encodeAll before).2.encodeAll cut₂ := by
    apply IcyEncoder.encodeAll_congr _ hbytes
    intro k
    apply htitles
    rw [hint, hrem]
    exact place_mod_eq_zero h (chunkBytes before).length k
  have happend : icy.encodeAll (before ++ cut₁) =
      ((icy.encodeAll before).1 ++ ((icy.encodeAll before).2.encodeAll cut₁).1,
        ((icy.encodeAll before).2.encodeAll cut₁).2) := icy.encodeAll_append before cut₁
  obtain ⟨hint', hrem'⟩ := IcyEncoder.encodeAll_new hnew (before ++ cut₁)
  rw [happend] at hint' hrem'
  rw [chunkBytes_append] at hrem'
  refine ⟨icy, _, _, _, hnew, rfl, rfl, hcut.symm, hint', hrem', ?_, ?_, ?_⟩
  · exact IcyEncoder.remaining_pos _
  · exact (IcyEncoder.remaining_le _).trans_eq hint'
  · exact IcyEncoder.encode_append _

/-- Two cuts of five bytes after a first one: they agree where the third and the sixth byte are
encoded, and nowhere else. -/
theorem chunk_boundaries_invisible_of_three : ∃ icy reached last output,
    IcyEncoder.new 3 = some icy ∧ (icy.encodeAll [("Intro", [1])]).2 = reached ∧
      reached.encodeAll [("Old", [2]), ("New", [3, 4, 5]), ("Late", [6])] = (output, last) ∧
      reached.encodeAll [("New", [2, 3]), ("Lost", []), ("Lost", [4]), ("Late", [5, 6])] =
        (output, last) ∧
      output = [2, 3] ++ formatTitle "New" ++ [4, 5, 6] ++ formatTitle "Late" ∧
      last.remaining = 3 := by
  have hbytes : chunkBytes [("Old", [2]), ("New", [3, 4, 5]), ("Late", [6])] =
      chunkBytes [("New", [2, 3]), ("Lost", []), ("Lost", [4]), ("Late", [5, 6])] := rfl
  have htitles : ∀ i, ((chunkBytes [("Intro", [1])]).length + i + 1) % 3 = 0 →
      (chunkTitles [("Old", [2]), ("New", [3, 4, 5]), ("Late", [6])])[i]? =
        (chunkTitles [("New", [2, 3]), ("Lost", []), ("Lost", [4]), ("Late", [5, 6])])[i]? := by
    intro i hi
    match i with
    | 0 | 2 | 3 => exact absurd hi (by decide)
    | 1 | 4 => rfl
    | _ + 5 => rfl
  obtain ⟨icy, reached, last, output, hnew, hreached, h₁, h₂, -, hrem, -⟩ :=
    chunk_boundaries_invisible 3 (by decide) _ _ _ hbytes htitles
  refine ⟨icy, reached, last, output, hnew, hreached, h₁, h₂, ?_, hrem⟩
  obtain rfl := Option.some.inj hnew
  have houtput : _ = output := congrArg Prod.fst h₁
  rw [← houtput, ← hreached]
  decide +kernel

end P2PRadio
