import Mathlib.Data.List.Basic

/-!
# Header maps

A header map as HTTP libraries keep it.  A name is kept in lower case, whatever its case in a
message or in a lookup, so two spellings of one name are one name.  A name may occur more than
once: `get` returns its first value, `insert` replaces all of them and `append` adds one.
-/

namespace Http

/-- An upper-case ASCII letter as a lower-case one. -/
def lowerByte (b : UInt8) : UInt8 := if 65 ≤ b ∧ b ≤ 90 then b + 32 else b

lemma lowerByte_lowerByte (b : UInt8) : lowerByte (lowerByte b) = lowerByte b := by
  unfold lowerByte
  by_cases h : 65 ≤ b ∧ b ≤ 90
  · rw [if_pos h, if_neg]
    rintro ⟨-, hle⟩
    simp only [UInt8.le_iff_toNat_le, UInt8.toNat_add, UInt8.reduceToNat] at h hle
    omega
  · rw [if_neg h, if_neg h]

/-- A name, whose letters are in lower case. -/
structure HeaderName where
  bytes : List UInt8
  lower : bytes.map lowerByte = bytes
  deriving DecidableEq

/-- The name spelled in these bytes. -/
def HeaderName.fromBytes (name : List UInt8) : HeaderName where
  bytes := name.map lowerByte
  lower := by
    rw [List.map_map]
    exact List.map_congr_left fun b _ => lowerByte_lowerByte b

/-- Names with their values, the oldest entry first. -/
structure HeaderMap where
  entries : List (HeaderName × List UInt8) := []
  deriving DecidableEq

namespace HeaderMap

/-- The headers of a message, from its lines. -/
def ofLines (lines : List (List UInt8 × List UInt8)) : HeaderMap where
  entries := lines.map fun line => (.fromBytes line.1, line.2)

def get (headers : HeaderMap) (name : List UInt8) : Option (List UInt8) :=
  (headers.entries.find? fun entry => entry.1 = .fromBytes name).map Prod.snd

def insert (headers : HeaderMap) (name value : List UInt8) : HeaderMap where
  entries :=
    headers.entries.filter (fun entry => entry.1 ≠ .fromBytes name) ++ [(.fromBytes name, value)]

def append (headers : HeaderMap) (name value : List UInt8) : HeaderMap where
  entries := headers.entries ++ [(.fromBytes name, value)]

/-- Only the name looked up matters, not how it is spelled. -/
lemma get_congr (headers : HeaderMap) {name name' : List UInt8}
    (h : HeaderName.fromBytes name = .fromBytes name') : headers.get name = headers.get name' := by
  rw [get, get, h]

/-- The value of a name is that of the first line that spells it, in any case. -/
lemma get_ofLines {lines : List (List UInt8 × List UInt8)} {name value : List UInt8} :
    (ofLines lines).get name = some value ↔
      ∃ before spelling after, lines = before ++ (spelling, value) :: after ∧
        HeaderName.fromBytes spelling = .fromBytes name ∧
        ∀ line ∈ before, HeaderName.fromBytes line.1 ≠ .fromBytes name := by
  rw [get, ofLines, List.find?_map, Option.map_map, Option.map_eq_some_iff]
  constructor
  · rintro ⟨⟨spelling, value⟩, hfind, rfl⟩
    obtain ⟨hspelling, before, after, rfl, hbefore⟩ := List.find?_eq_some_iff_append.mp hfind
    refine ⟨before, spelling, after, rfl, by simpa using hspelling, fun line hline => ?_⟩
    simpa using hbefore line hline
  · rintro ⟨before, spelling, after, rfl, hspelling, hbefore⟩
    refine ⟨(spelling, value), ?_, rfl⟩
    rw [List.find?_eq_some_iff_append]
    refine ⟨by simpa using hspelling, before, after, rfl, fun line hline => ?_⟩
    simpa using hbefore line hline

end HeaderMap

end Http
