/-
PhraseGrammar/Proofs/Encoding.lean

Texts compared by their bytes.

Whether one text starts or ends with another can be read off the bytes as well
as off the characters:

    encode s <+: encode t ↔ s <+: t,        encode s <:+ encode t ↔ s <:+ t

The first is reading from the front.  The second needs that a character cannot
begin in the middle of another (`encodeChar_eq_cons`): every byte of a
character but the first is a continuation byte, and the first is none.
-/
import PhraseGrammar.Text.Utf8

namespace PhraseGrammar

namespace Utf8

/-- A byte that only goes on with a character. -/
def IsContinuation (b : UInt8) : Prop :=
  0x80 ≤ b.toNat ∧ b.toNat < 0xC0

theorem isContinuation_byte {n : Nat} (h : n < 64) : IsContinuation (.ofNat (0x80 + n)) := by
  rw [IsContinuation, toNat_byte (by omega)]
  omega

theorem not_isContinuation_byte {n : Nat} (h : n < 256) (hn : n < 0x80 ∨ 0xC0 ≤ n) :
    ¬ IsContinuation (.ofNat n) := by
  rw [IsContinuation, toNat_byte h]
  omega

/-- A character is one byte that begins it and bytes that go on with it. -/
theorem encodeChar_eq_cons (c : Char) :
    ∃ a rest, encodeChar c = a :: rest ∧ ¬ IsContinuation a ∧ ∀ b ∈ rest, IsContinuation b := by
  have hc := toNat_lt c
  have hmod : ∀ n, IsContinuation (.ofNat (0x80 + n % 64)) :=
    fun n => isContinuation_byte (Nat.mod_lt n (by omega))
  unfold encodeChar
  split
  · exact ⟨_, _, rfl, not_isContinuation_byte (by omega) (by omega), List.forall_mem_nil _⟩
  split
  · exact ⟨_, _, rfl, not_isContinuation_byte (by omega) (by omega),
      List.forall_mem_singleton.mpr (hmod _)⟩
  split
  · exact ⟨_, _, rfl, not_isContinuation_byte (by omega) (by omega),
      List.forall_mem_cons.mpr ⟨hmod _, List.forall_mem_singleton.mpr (hmod _)⟩⟩
  · exact ⟨_, _, rfl, not_isContinuation_byte (by omega) (by omega),
      List.forall_mem_cons.mpr ⟨hmod _, List.forall_mem_cons.mpr ⟨hmod _,
        List.forall_mem_singleton.mpr (hmod _)⟩⟩⟩

theorem encode_cons (c : Char) (s : Text) : encode (c :: s) = encodeChar c ++ encode s :=
  List.flatMap_cons

theorem encode_injective {s t : Text} (h : encode s = encode t) : s = t := by
  have hs := decode?_encode s
  rw [h, decode?_encode] at hs
  exact (Option.some.inj hs).symm

/-- The bytes of a text begin with the beginning of a character. -/
theorem not_isContinuation_of_encode_eq_cons {s : Text} {a : UInt8} {rest : Bytes}
    (h : encode s = a :: rest) : ¬ IsContinuation a := by
  cases s with
  | nil => cases h
  | cons c s =>
    obtain ⟨b, more, hb, hstart, -⟩ := encodeChar_eq_cons c
    rw [encode_cons, hb, List.cons_append] at h
    rw [← (List.cons.inj h).1]
    exact hstart

/-- A text starts with another exactly if its bytes start with those of the other. -/
theorem encode_isPrefix_iff {s t : Text} : encode s <+: encode t ↔ s <+: t := by
  constructor
  · rintro ⟨rest, hrest⟩
    -- reading the bytes of `t` gives `s` and then the text of the rest
    have hread := read_encode_append s rest
    have hall := read_encode_append t []
    rw [List.append_nil, read_of_next?_none (s := []) rfl, List.append_nil] at hall
    rw [hrest, hall] at hread
    exact ⟨(read rest).1, (Prod.mk.inj hread).1.symm⟩
  · rintro ⟨rest, rfl⟩
    rw [encode_append]
    exact List.prefix_append _ _

/-- A text ends with another exactly if its bytes end with those of the other. -/
theorem encode_isSuffix_iff {s t : Text} : encode s <:+ encode t ↔ s <:+ t := by
  constructor
  · intro h
    induction t with
    | nil =>
      obtain rfl : s = [] := encode_injective (List.suffix_nil.mp h)
      exact List.suffix_rfl
    | cons c t ih =>
      rw [encode_cons] at h
      obtain hst | ⟨z, hz⟩ := List.suffix_or_suffix_of_suffix h (List.suffix_append _ _)
      · exact (ih hst).trans (List.suffix_cons c t)
      · -- `s` also takes the last bytes `z` of the first character
        rw [← hz, List.suffix_append_self_iff] at h
        cases z with
        | nil =>
          obtain rfl : t = s := encode_injective hz
          exact List.suffix_cons c t
        | cons b z =>
          have hstart := not_isContinuation_of_encode_eq_cons hz.symm
          obtain ⟨a, rest, ha, -, hcont⟩ := encodeChar_eq_cons c
          rw [ha, List.suffix_cons_iff] at h
          obtain hall | hpart := h
          · -- all of them
            rw [hall, ← ha, ← encode_cons] at hz
            obtain rfl : c :: t = s := encode_injective hz
            exact List.suffix_rfl
          · -- only later ones, and none of these begins a character
            exact absurd (hcont b (hpart.subset List.mem_cons_self)) hstart
  · rintro ⟨front, rfl⟩
    rw [encode_append]
    exact List.suffix_append _ _

end Utf8

end PhraseGrammar
