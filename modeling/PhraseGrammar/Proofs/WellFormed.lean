/-
PhraseGrammar/Proofs/WellFormed.lean

Well-formed bytes, told by ranges.

The reader computes with numbers: every byte brings six bits more, and in the
end the number has to need as many bytes and to belong to a character.  The same
can be said without numbers, by a table that has the ranges of the bytes of one
sequence in each row (`sequenceRanges`).  What no row has is what the reader
refuses: overlong forms (no 0xC0 and no 0xC1, and a narrower second byte after
0xE0 and 0xF0), surrogates (after 0xED) and numbers past the last character
(after 0xF4, and nothing above it).

    IsSequence s ↔ ∃ c, s = encodeChar c        (`isSequence_iff`)
    WellFormed b ↔ ∃ t, b = encode t            (`wellFormed_iff_exists_encode`)

So decoding accepts the well-formed bytes and no others, and what reading takes
off the front is the longest well-formed beginning (`longest_read`).
-/
import Mathlib.Data.List.Forall2
import PhraseGrammar.Proofs.Encoding

namespace PhraseGrammar

namespace Utf8

/-- The well-formed sequences of one character, as the ranges of their bytes. -/
def sequenceRanges : List (List (Nat × Nat)) := [
  [(0x00, 0x7F)],
  [(0xC2, 0xDF), (0x80, 0xBF)],
  [(0xE0, 0xE0), (0xA0, 0xBF), (0x80, 0xBF)],
  [(0xE1, 0xEC), (0x80, 0xBF), (0x80, 0xBF)],
  [(0xED, 0xED), (0x80, 0x9F), (0x80, 0xBF)],
  [(0xEE, 0xEF), (0x80, 0xBF), (0x80, 0xBF)],
  [(0xF0, 0xF0), (0x90, 0xBF), (0x80, 0xBF), (0x80, 0xBF)],
  [(0xF1, 0xF3), (0x80, 0xBF), (0x80, 0xBF), (0x80, 0xBF)],
  [(0xF4, 0xF4), (0x80, 0x8F), (0x80, 0xBF), (0x80, 0xBF)]]

/-- A byte in a range. -/
def Within (r : Nat × Nat) (b : UInt8) : Prop :=
  r.1 ≤ b.toNat ∧ b.toNat ≤ r.2

/-- The bytes of one character. -/
def IsSequence (s : Bytes) : Prop :=
  ∃ row ∈ sequenceRanges, List.Forall₂ Within row s

/-- Bytes that are sequences one after the other. -/
def WellFormed (b : Bytes) : Prop :=
  ∃ parts : List Bytes, (∀ s ∈ parts, IsSequence s) ∧ b = parts.flatten

/-! ### Every sequence is a character -/

section Sequence

variable {a b c d : UInt8}

theorem within_continuation : Within (0x80, 0xBF) b ↔ IsContinuation b := by
  rw [Within, IsContinuation, Nat.lt_succ_iff]

theorem exists_encodeChar_one (ha : Within (0x00, 0x7F) a) : ∃ ch, [a] = encodeChar ch := by
  simp only [Within] at ha
  have hv : a.toNat.isValidChar := by
    simp only [Nat.isValidChar]
    omega
  refine ⟨Char.ofNat a.toNat, ?_⟩
  rw [encodeChar, toNat_ofNat hv, if_pos (by omega), UInt8.ofNat_toNat]

theorem exists_encodeChar_two (ha : Within (0xC2, 0xDF) a) (hb : Within (0x80, 0xBF) b) :
    ∃ ch, [a, b] = encodeChar ch := by
  simp only [Within] at ha hb
  obtain ⟨n, hn⟩ : ∃ n, n = (a.toNat - 0xC0) * 64 + (b.toNat - 0x80) := ⟨_, rfl⟩
  have hv : n.isValidChar := by
    simp only [Nat.isValidChar]
    omega
  refine ⟨Char.ofNat n, ?_⟩
  rw [encodeChar, toNat_ofNat hv, if_neg (by omega), if_pos (by omega),
    ← eq_byte (a := a) (by omega), ← eq_byte (a := b) (by omega)]

/-- Three bytes are a character unless it would be overlong or a surrogate. -/
theorem exists_encodeChar_three (ha : Within (0xE0, 0xEF) a) (hb : Within (0x80, 0xBF) b)
    (hc : Within (0x80, 0xBF) c) (hlong : a.toNat = 0xE0 → 0xA0 ≤ b.toNat)
    (hsurrogate : a.toNat = 0xED → b.toNat ≤ 0x9F) : ∃ ch, [a, b, c] = encodeChar ch := by
  simp only [Within] at ha hb hc
  obtain ⟨n, hn⟩ : ∃ n, n = (a.toNat - 0xE0) * 4096 + (b.toNat - 0x80) * 64 + (c.toNat - 0x80) :=
    ⟨_, rfl⟩
  have hv : n.isValidChar := by
    simp only [Nat.isValidChar]
    omega
  refine ⟨Char.ofNat n, ?_⟩
  rw [encodeChar, toNat_ofNat hv, if_neg (by omega), if_neg (by omega), if_pos (by omega),
    ← eq_byte (a := a) (by omega), ← eq_byte (a := b) (by omega), ← eq_byte (a := c) (by omega)]

/-- Four bytes are a character unless it would be overlong or past the last. -/
theorem exists_encodeChar_four (ha : Within (0xF0, 0xF4) a) (hb : Within (0x80, 0xBF) b)
    (hc : Within (0x80, 0xBF) c) (hd : Within (0x80, 0xBF) d)
    (hlong : a.toNat = 0xF0 → 0x90 ≤ b.toNat) (hlast : a.toNat = 0xF4 → b.toNat ≤ 0x8F) :
    ∃ ch, [a, b, c, d] = encodeChar ch := by
  simp only [Within] at ha hb hc hd
  obtain ⟨n, hn⟩ : ∃ n, n = (a.toNat - 0xF0) * 262144 + (b.toNat - 0x80) * 4096 +
      (c.toNat - 0x80) * 64 + (d.toNat - 0x80) := ⟨_, rfl⟩
  have hv : n.isValidChar := by
    simp only [Nat.isValidChar]
    omega
  refine ⟨Char.ofNat n, ?_⟩
  rw [encodeChar, toNat_ofNat hv, if_neg (by omega), if_neg (by omega), if_neg (by omega),
    ← eq_byte (a := a) (by omega), ← eq_byte (a := b) (by omega), ← eq_byte (a := c) (by omega),
    ← eq_byte (a := d) (by omega)]

end Sequence

/-! ### Every character is a sequence -/

theorem within_byte {r : Nat × Nat} {n : Nat} (h : n < 256) :
    Within r (.ofNat n) ↔ r.1 ≤ n ∧ n ≤ r.2 := by
  rw [Within, toNat_byte h]

theorem isSequence_three {x y z : Nat} (hx : x < 16) (hy : y < 64) (hz : z < 64)
    (hlong : x = 0 → 0x20 ≤ y) (hsurrogate : x = 13 → y < 0x20) :
    IsSequence [.ofNat (0xE0 + x), .ofNat (0x80 + y), .ofNat (0x80 + z)] := by
  have row : ∀ r₁ r₂, [r₁, r₂, (0x80, 0xBF)] ∈ sequenceRanges →
      r₁.1 ≤ 0xE0 + x ∧ 0xE0 + x ≤ r₁.2 → r₂.1 ≤ 0x80 + y ∧ 0x80 + y ≤ r₂.2 →
      IsSequence [.ofNat (0xE0 + x), .ofNat (0x80 + y), .ofNat (0x80 + z)] := by
    intro r₁ r₂ hrow h₁ h₂
    refine ⟨_, hrow, .cons ?_ (.cons ?_ (.cons ?_ .nil))⟩
    · exact (within_byte (by omega)).mpr h₁
    · exact (within_byte (by omega)).mpr h₂
    · exact within_continuation.mpr (isContinuation_byte hz)
  have hcases : x = 0 ∨ (1 ≤ x ∧ x ≤ 12) ∨ x = 13 ∨ 14 ≤ x := by omega
  obtain h | h | h | h := hcases
  · exact row (0xE0, 0xE0) (0xA0, 0xBF) (by decide) (by omega) (by omega)
  · exact row (0xE1, 0xEC) (0x80, 0xBF) (by decide) (by omega) (by omega)
  · exact row (0xED, 0xED) (0x80, 0x9F) (by decide) (by omega) (by omega)
  · exact row (0xEE, 0xEF) (0x80, 0xBF) (by decide) (by omega) (by omega)

theorem isSequence_four {w x y z : Nat} (hw : w < 5) (hx : x < 64) (hy : y < 64) (hz : z < 64)
    (hlong : w = 0 → 0x10 ≤ x) (hlast : w = 4 → x < 0x10) :
    IsSequence [.ofNat (0xF0 + w), .ofNat (0x80 + x), .ofNat (0x80 + y), .ofNat (0x80 + z)] := by
  have row : ∀ r₁ r₂, [r₁, r₂, (0x80, 0xBF), (0x80, 0xBF)] ∈ sequenceRanges →
      r₁.1 ≤ 0xF0 + w ∧ 0xF0 + w ≤ r₁.2 → r₂.1 ≤ 0x80 + x ∧ 0x80 + x ≤ r₂.2 →
      IsSequence [.ofNat (0xF0 + w), .ofNat (0x80 + x), .ofNat (0x80 + y), .ofNat (0x80 + z)] := by
    intro r₁ r₂ hrow h₁ h₂
    refine ⟨_, hrow, .cons ?_ (.cons ?_ (.cons ?_ (.cons ?_ .nil)))⟩
    · exact (within_byte (by omega)).mpr h₁
    · exact (within_byte (by omega)).mpr h₂
    · exact within_continuation.mpr (isContinuation_byte hy)
    · exact within_continuation.mpr (isContinuation_byte hz)
  have hcases : w = 0 ∨ (1 ≤ w ∧ w ≤ 3) ∨ w = 4 := by omega
  obtain h | h | h := hcases
  · exact row (0xF0, 0xF0) (0x90, 0xBF) (by decide) (by omega) (by omega)
  · exact row (0xF1, 0xF3) (0x80, 0xBF) (by decide) (by omega) (by omega)
  · exact row (0xF4, 0xF4) (0x80, 0x8F) (by decide) (by omega) (by omega)

theorem isSequence_encodeChar (c : Char) : IsSequence (encodeChar c) := by
  have hlast := toNat_lt c
  have hvalid := c.valid
  simp only [UInt32.isValidChar, Nat.isValidChar] at hvalid
  have hsurrogate : c.toNat < 0xD800 ∨ 0xDFFF < c.toNat := by
    show c.val.toNat < _ ∨ _ < c.val.toNat
    omega
  unfold encodeChar
  split
  · refine ⟨[(0x00, 0x7F)], by decide, .cons ?_ .nil⟩
    exact (within_byte (by omega)).mpr (by omega)
  split
  · refine ⟨[(0xC2, 0xDF), (0x80, 0xBF)], by decide, .cons ?_ (.cons ?_ .nil)⟩
    · exact (within_byte (by omega)).mpr (by omega)
    · exact within_continuation.mpr (isContinuation_byte (Nat.mod_lt _ (by omega)))
  split
  · exact isSequence_three (by omega) (by omega) (by omega) (by omega) (by omega)
  · exact isSequence_four (by omega) (by omega) (by omega) (by omega) (by omega) (by omega)

/-! ### Sequences and whole texts -/

/-- The sequences are the characters. -/
theorem isSequence_iff {s : Bytes} : IsSequence s ↔ ∃ c, s = encodeChar c := by
  constructor
  · rintro ⟨row, hrow, h⟩
    simp only [sequenceRanges, List.mem_cons, List.not_mem_nil, or_false] at hrow
    rcases hrow with rfl | rfl | rfl | rfl | rfl | rfl | rfl | rfl | rfl
    · obtain _ | ⟨ha, ⟨⟩⟩ := h
      exact exists_encodeChar_one ha
    · obtain _ | ⟨ha, _ | ⟨hb, ⟨⟩⟩⟩ := h
      exact exists_encodeChar_two ha hb
    -- four rows of three bytes, then three rows of four
    iterate 4
      · obtain _ | ⟨ha, _ | ⟨hb, _ | ⟨hc, ⟨⟩⟩⟩⟩ := h
        simp only [Within] at ha hb
        exact exists_encodeChar_three ⟨by omega, by omega⟩ ⟨by omega, by omega⟩ hc
          (by omega) (by omega)
    iterate 3
      · obtain _ | ⟨ha, _ | ⟨hb, _ | ⟨hc, _ | ⟨hd, ⟨⟩⟩⟩⟩⟩ := h
        simp only [Within] at ha hb
        exact exists_encodeChar_four ⟨by omega, by omega⟩ ⟨by omega, by omega⟩ hc hd
          (by omega) (by omega)
  · rintro ⟨c, rfl⟩
    exact isSequence_encodeChar c

/-- The well-formed bytes are those of texts. -/
theorem wellFormed_iff_exists_encode {b : Bytes} : WellFormed b ↔ ∃ t, b = encode t := by
  constructor
  · rintro ⟨parts, hparts, rfl⟩
    induction parts with
    | nil => exact ⟨[], rfl⟩
    | cons s parts ih =>
      obtain ⟨c, hc⟩ := isSequence_iff.mp (hparts s List.mem_cons_self)
      obtain ⟨t, ht⟩ := ih fun s hs => hparts s (List.mem_cons_of_mem _ hs)
      exact ⟨c :: t, by rw [List.flatten_cons, hc, ht, encode_cons]⟩
  · rintro ⟨t, rfl⟩
    refine ⟨t.map encodeChar, ?_, List.flatMap_def⟩
    intro s hs
    obtain ⟨c, -, rfl⟩ := List.mem_map.mp hs
    exact isSequence_encodeChar c

theorem wellFormed_encode (t : Text) : WellFormed (encode t) :=
  wellFormed_iff_exists_encode.mpr ⟨t, rfl⟩

/-- Decoding accepts the well-formed bytes and no others. -/
theorem decode?_eq_none_iff {b : Bytes} : decode? b = none ↔ ¬ WellFormed b := by
  rw [wellFormed_iff_exists_encode, Option.eq_none_iff_forall_ne_some, not_exists]
  exact forall_congr' fun t => not_congr decode?_eq_some_iff

instance (b : Bytes) : Decidable (WellFormed b) :=
  decidable_of_iff (¬ decode? b = none) (by rw [decode?_eq_none_iff, not_not])

/-- A well-formed beginning that every other is a beginning of. -/
structure IsLongest (p b : Bytes) : Prop where
  isPrefix : p <+: b
  wellFormed : WellFormed p
  longest : ∀ q, q <+: b → WellFormed q → q <+: p

/-- What reading takes off the front is the longest well-formed beginning. -/
theorem longest_read (b : Bytes) : IsLongest (encode (read b).1) b where
  isPrefix := ⟨(read b).2, encode_read b⟩
  wellFormed := wellFormed_encode _
  longest := by
    rintro q ⟨rest, rfl⟩ hq
    obtain ⟨t, rfl⟩ := wellFormed_iff_exists_encode.mp hq
    rw [read_encode_append, encode_append]
    exact List.prefix_append _ _

end Utf8

end PhraseGrammar
