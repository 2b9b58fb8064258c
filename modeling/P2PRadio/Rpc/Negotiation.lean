import P2PRadio.Rpc.JoiningListeners
import P2PRadio.Support.HeaderMap

/-!
# Negotiating ICY

A client that wants titles sends `Icy-MetaData: 1`, and learns from `icy-metaint` in the response
how many audio bytes stand between two blocks.  `stream_handler` and `response_stream`
(`src/rpc/mod.rs`) read the request and write the head of the response each in its own way.

`readBody` is a client that knows the protocol and nothing else: it takes the wire as audio
unless the head tells it the interval.  `negotiation_is_faithful` says that such a client gets
the audio back whatever it has asked for, from either function.
-/

namespace P2PRadio

open Http Interleave

structure Request where
  headers : HeaderMap

/-- The request of these header lines. -/
def Request.ofLines (lines : List (Bytes × Bytes)) : Request where
  headers := .ofLines lines

/-- The head of a response, and the frames of its body for the items it is made of. -/
structure Response where
  status : ℕ
  headers : HeaderMap
  body : List (String × Except StreamError Bytes) → List (Except StreamError Bytes)

/-- What `stream_handler` answers. -/
def streamHandler (req : Request) : Response :=
  let icyRequested := (req.headers.get (asBytes "Icy-MetaData")).any (· = asBytes "1")
  let headers := HeaderMap.insert {} (asBytes "content-type") (asBytes "audio/ogg")
  let headers :=
    if icyRequested then
      headers.insert (asBytes "icy-metaint") (asBytes (toString icyMetaint))
    else headers
  { status := 200, headers, body := fun items => (frames icyRequested handlerEncoder items).1 }

/-- What `response_stream` answers.  Its builder appends each header. -/
def responseStream (req : Request) : Response :=
  let icyRequested := (req.headers.get (asBytes "icy-metadata")).any (· = asBytes "1")
  let headers := HeaderMap.append {} (asBytes "content-type") (asBytes "audio/ogg")
  let headers :=
    if icyRequested then
      headers.append (asBytes "icy-metaint") (asBytes (toString icyMetaint))
    else headers
  { status := 200, headers, body := fun items => (frames icyRequested handlerEncoder items).1 }

/-! ## The client -/

/-- A number in decimal digits. -/
def parseDecimal (value : Bytes) : Option ℕ := do
  let text ← fromUtf8 value
  if text.toList ≠ [] ∧ text.toList.all Char.isDigit then
    return Nat.ofDigitChars 10 text.toList 0
  else none

/-- The client: the audio, and the titles it has met. -/
def readBody (headers : HeaderMap) (wire : Bytes) : Option (Bytes × List String) :=
  match headers.get (asBytes "icy-metaint") with
  | none => some (wire, [])
  | some value => do
    let interval ← parseDecimal value
    stripIcy wire interval

lemma parseDecimal_toString (n : ℕ) : parseDecimal (asBytes (toString n)) = some n := by
  have htext : (toString n).toList = Nat.toDigits 10 n := Nat.toList_repr
  have hdigits : (Nat.toDigits 10 n).all Char.isDigit = true := by
    rw [List.all_eq_true]
    intro c hc
    exact Nat.isDigit_of_mem_toDigits (by decide) (by decide) hc
  simp only [parseDecimal, fromUtf8_asBytes, Option.bind_eq_bind, Option.bind_some, htext]
  rw [if_pos ⟨Nat.toDigits_ne_nil, hdigits⟩, Nat.ofDigitChars_ten_toDigits]
  rfl

/-! ## The head of the response -/

/-- The request asks for titles. -/
def Request.icyRequested (req : Request) : Bool :=
  (req.headers.get (asBytes "icy-metadata")).any (· = asBytes "1")

/-- The two functions spell the name of the header differently, and give the same answer. -/
lemma responseStream_eq (req : Request) : responseStream req = streamHandler req := by
  have hname : HeaderName.fromBytes (asBytes "Icy-MetaData") =
      .fromBytes (asBytes "icy-metadata") := by decide +kernel
  have hplain : HeaderMap.append {} (asBytes "content-type") (asBytes "audio/ogg") =
      HeaderMap.insert {} (asBytes "content-type") (asBytes "audio/ogg") := by decide +kernel
  have hicy : ((HeaderMap.insert {} (asBytes "content-type") (asBytes "audio/ogg")).append
        (asBytes "icy-metaint") (asBytes (toString icyMetaint))) =
      ((HeaderMap.insert {} (asBytes "content-type") (asBytes "audio/ogg")).insert
        (asBytes "icy-metaint") (asBytes (toString icyMetaint))) := by decide +kernel
  rw [responseStream, streamHandler, req.headers.get_congr hname, hplain]
  simp only [hicy]

lemma body_streamHandler (req : Request) (items : List (String × Except StreamError Bytes)) :
    (streamHandler req).body items = (frames req.icyRequested handlerEncoder items).1 := by
  have hname : HeaderName.fromBytes (asBytes "Icy-MetaData") =
      .fromBytes (asBytes "icy-metadata") := by decide +kernel
  rw [streamHandler, Request.icyRequested, req.headers.get_congr hname]

/-- The head names the interval exactly when titles were asked for. -/
lemma metaint_streamHandler (req : Request) :
    (streamHandler req).headers.get (asBytes "icy-metaint") =
      if req.icyRequested then some (asBytes (toString icyMetaint)) else none := by
  rw [← responseStream_eq, responseStream, ← Request.icyRequested]
  cases req.icyRequested with
  | true => decide +kernel
  | false => decide +kernel

/-- Titles are asked for by the first line that spells the header's name. -/
lemma icyRequested_ofLines {lines : List (Bytes × Bytes)} :
    (Request.ofLines lines).icyRequested ↔
      ∃ before spelling after, lines = before ++ (spelling, asBytes "1") :: after ∧
        HeaderName.fromBytes spelling = .fromBytes (asBytes "icy-metadata") ∧
        ∀ line ∈ before, HeaderName.fromBytes line.1 ≠ .fromBytes (asBytes "icy-metadata") := by
  rw [← HeaderMap.get_ofLines, Request.icyRequested, Option.any_eq_true]
  simp only [Request.ofLines, decide_eq_true_eq]
  constructor
  · rintro ⟨value, hvalue, rfl⟩
    exact hvalue
  · intro hvalue
    exact ⟨_, hvalue, rfl⟩

/-! ## The body -/

/-- Without errors and blocks the wire is the audio. -/
lemma wire_frames_false {ε : Type*} (icy : IcyEncoder) (items : List (String × Except ε Bytes)) :
    wire (frames false icy items).1 = audioOf items := by
  rw [frames_false, wire, audioOf, List.flatMap_map]

/-- The titles a client meets in a body of these items, if it has asked for them. -/
def titlesMet {ε : Type*} (icyRequested : Bool) (items : List (String × Except ε Bytes)) :
    List String :=
  if icyRequested then marks icyMetaint icyMetaint (labelled items) else []

lemma length_titlesMet {ε : Type*} (icyRequested : Bool)
    (items : List (String × Except ε Bytes)) :
    (titlesMet icyRequested items).length =
      if icyRequested then (audioOf items).length / icyMetaint else 0 := by
  have hpos : 0 < icyMetaint := by decide
  cases icyRequested with
  | false => rfl
  | true =>
    show (marks icyMetaint icyMetaint (labelled items)).length = _
    rw [length_marks icyMetaint hpos le_rfl, Nat.sub_self, Nat.zero_add, ← map_fst_labelled,
      List.length_map]
    rfl

/-- A client that goes by the head recovers the audio of the body it belongs to. -/
lemma readBody_streamHandler {ε : Type*} (req : Request)
    (items : List (String × Except ε Bytes)) :
    readBody (streamHandler req).headers (wire (frames req.icyRequested handlerEncoder items).1) =
      some (audioOf items, (titlesMet req.icyRequested items).map titleText) := by
  rw [readBody, metaint_streamHandler]
  cases req.icyRequested with
  | false =>
    show some (wire (frames false handlerEncoder items).1, []) = _
    rw [wire_frames_false]
    rfl
  | true =>
    have hpos : 0 < icyMetaint := by decide
    have hwire : wire (frames true handlerEncoder items).1 =
        weave formatTitle icyMetaint icyMetaint (labelled items) := wire_frames _ items
    show (parseDecimal (asBytes (toString icyMetaint))).bind (stripIcy _) = _
    rw [parseDecimal_toString, Option.bind_some, hwire, stripIcy_weave hpos, map_fst_labelled]
    rfl

/-- **Negotiation is faithful.**  Whatever the header lines of a request, both functions give
the same response, whose head names the interval exactly when the first line that spells
`Icy-MetaData`, in any case, has the value `1`.  And whatever items the body is then made of, a
client that goes by the head alone gets back their audio, with one title for every interval if
it has asked for them: the title in force at the interval's last byte. -/
theorem negotiation_is_faithful (lines : List (Bytes × Bytes)) :
    responseStream (.ofLines lines) = streamHandler (.ofLines lines) ∧
    ((streamHandler (.ofLines lines)).headers.get (asBytes "icy-metaint") ≠ none ↔
      ∃ before spelling after, lines = before ++ (spelling, asBytes "1") :: after ∧
        HeaderName.fromBytes spelling = .fromBytes (asBytes "icy-metadata") ∧
        ∀ line ∈ before, HeaderName.fromBytes line.1 ≠ .fromBytes (asBytes "icy-metadata")) ∧
    ∀ items, ∃ titles,
      readBody (streamHandler (.ofLines lines)).headers
          (wire ((streamHandler (.ofLines lines)).body items)) = some (audioOf items, titles) ∧
      (titles.length =
        if (streamHandler (.ofLines lines)).headers.get (asBytes "icy-metaint") = none then 0
        else (audioOf items).length / icyMetaint) ∧
      ∀ k < titles.length,
        titles[k]? = (titlesInForce items)[icyMetaint - 1 + k * icyMetaint]?.map titleText := by
  have hmetaint := metaint_streamHandler (.ofLines lines)
  refine ⟨responseStream_eq _, ?_, fun items => ?_⟩
  · rw [← icyRequested_ofLines, hmetaint]
    simp
  · refine ⟨(titlesMet (Request.ofLines lines).icyRequested items).map titleText, ?_, ?_, ?_⟩
    · rw [body_streamHandler]
      exact readBody_streamHandler _ items
    · rw [List.length_map, length_titlesMet, hmetaint]
      cases (Request.ofLines lines).icyRequested with
      | false => rfl
      | true => rfl
    · intro k hk
      rw [List.length_map] at hk
      rw [List.getElem?_map]
      unfold titlesMet at hk ⊢
      split
      · have hpos : 0 < icyMetaint := by decide
        rw [getElem?_marks icyMetaint hpos le_rfl, ← List.getElem?_map, map_snd_labelled]
      · next hplain =>
        rw [if_neg hplain] at hk
        exact absurd hk (Nat.not_lt_zero k)

-- The name may be spelled in any case; only the first line counts, and only the value `1`.
example :
    (Request.ofLines [(asBytes "ICY-metadata", asBytes "1")]).icyRequested = true ∧
    (Request.ofLines [(asBytes "Icy-MetaData", asBytes "01")]).icyRequested = false ∧
    (Request.ofLines [(asBytes "icy-metadata", asBytes "0"),
      (asBytes "icy-metadata", asBytes "1")]).icyRequested = false := by
  decide +kernel

end P2PRadio
