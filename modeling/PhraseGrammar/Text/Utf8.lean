/-
PhraseGrammar/Text/Utf8.lean

The UTF-8 encoding form, over lists of bytes.  A character takes one to four
bytes: a leading byte that tells how many, then continuation bytes of six
bits each.  A sequence is well-formed when it is the shortest one for its
number and the number is a Unicode scalar value, so overlong forms and
surrogates are refused.

`next?` reads one character off the front, `read` the longest well-formed
beginning together with the bytes that are left after it, and `decode?`
succeeds when nothing is left:

    next? (encodeChar c ++ rest) = some (c, rest)         (`next?_encodeChar`)
    next? s = some (c, rest) → s = encodeChar c ++ rest   (`eq_of_next?`)
-/
import PhraseGrammar.Text.Basic

namespace PhraseGrammar

/-- What a file holds. -/
abbrev Bytes := List UInt8

namespace Utf8

/-! ### Encoding -/

/-- The bytes of one character. -/
def encodeChar (c : Char) : Bytes :=
  if c.toNat < 0x80 then [.ofNat c.toNat]
  else if c.toNat < 0x800 then [.ofNat (0xC0 + c.toNat / 64), .ofNat (0x80 + c.toNat % 64)]
  else if c.toNat < 0x10000 then
    [.ofNat (0xE0 + c.toNat / 4096), .ofNat (0x80 + c.toNat / 64 % 64),
      .ofNat (0x80 + c.toNat % 64)]
  else
    [.ofNat (0xF0 + c.toNat / 262144), .ofNat (0x80 + c.toNat / 4096 % 64),
      .ofNat (0x80 + c.toNat / 64 % 64), .ofNat (0x80 + c.toNat % 64)]

/-- The bytes of a text. -/
def encode (s : Text) : Bytes :=
  s.flatMap encodeChar

/-! ### Decoding -/

/-- Extends a number by the six bits of each of the next `k` bytes. -/
def continue? : Nat → Nat → Bytes → Option (Nat × Bytes)
  | 0, n, s => some (n, s)
  | _ + 1, _, [] => none
  | k + 1, n, b :: s =>
    if 0x80 ≤ b.toNat ∧ b.toNat < 0xC0 then continue? k (n * 64 + (b.toNat - 0x80)) s else none

/-- The character with a number, if it needs as many bytes as were used for it. -/
def scalar? (least n : Nat) : Option Char :=
  if least ≤ n ∧ n.isValidChar then some (Char.ofNat n) else none

/-- The character that `k` continuation bytes complete. -/
def complete? (k least n : Nat) (s : Bytes) : Option (Char × Bytes) :=
  (continue? k n s).bind fun r => (scalar? least r.1).map (·, r.2)

/-- Reads one character; `none` where no well-formed sequence starts. -/
def next? : Bytes → Option (Char × Bytes)
  | [] => none
  | a :: s =>
    if a.toNat < 0x80 then some (Char.ofNat a.toNat, s)
    else if a.toNat < 0xC0 then none
    else if a.toNat < 0xE0 then complete? 1 0x80 (a.toNat - 0xC0) s
    else if a.toNat < 0xF0 then complete? 2 0x800 (a.toNat - 0xE0) s
    else complete? 3 0x10000 (a.toNat - 0xF0) s

/-! ### Each undoes the other -/

theorem toNat_lt (c : Char) : c.toNat < 0x110000 := by
  have h := c.valid
  simp only [UInt32.isValidChar, Nat.isValidChar] at h
  show c.val.toNat < _
  omega

theorem toNat_ofNat {n : Nat} (h : n.isValidChar) : (Char.ofNat n).toNat = n := by
  rw [Char.ofNat, dif_pos h]
  rfl

theorem toNat_byte {n : Nat} (h : n < 256) : (UInt8.ofNat n).toNat = n := by
  rw [UInt8.toNat_ofNat', Nat.mod_eq_of_lt h]

theorem eq_byte {a : UInt8} {n : Nat} (h : a.toNat = n) : a = .ofNat n := by
  rw [← h, UInt8.ofNat_toNat]

theorem continue?_succ {x : Nat} (k n : Nat) (h : x < 64) (s : Bytes) :
    continue? (k + 1) n (.ofNat (0x80 + x) :: s) = continue? k (n * 64 + x) s := by
  rw [continue?, toNat_byte (by omega), if_pos (by omega), Nat.add_sub_cancel_left]

theorem continue?_zero {n m : Nat} {s rest : Bytes} (h : continue? 0 n s = some (m, rest)) :
    n = m ∧ s = rest := by
  simpa [continue?] using h

theorem eq_of_continue?_succ {k n m : Nat} {s rest : Bytes}
    (h : continue? (k + 1) n s = some (m, rest)) :
    ∃ x s', x < 64 ∧ s = .ofNat (0x80 + x) :: s' ∧
      continue? k (n * 64 + x) s' = some (m, rest) := by
  cases s with
  | nil => simp [continue?] at h
  | cons b s =>
    rw [continue?, Option.ite_none_right_eq_some] at h
    exact ⟨b.toNat - 0x80, s, by omega, by rw [← eq_byte (a := b) (by omega)], h.2⟩

theorem scalar?_toNat {least n : Nat} {c : Char} (hn : n = c.toNat) (h : least ≤ n) :
    scalar? least n = some c := by
  subst hn
  rw [scalar?, if_pos ⟨h, c.valid⟩, Char.ofNat_toNat]

theorem eq_of_scalar? {least n : Nat} {c : Char} (h : scalar? least n = some c) :
    least ≤ n ∧ c.toNat = n := by
  rw [scalar?, Option.ite_none_right_eq_some, Option.some.injEq] at h
  obtain ⟨hn, rfl⟩ := h
  exact ⟨hn.1, toNat_ofNat hn.2⟩

theorem complete?_eq_some {k least n : Nat} {s rest : Bytes} {c : Char} :
    complete? k least n s = some (c, rest) ↔
      ∃ m, continue? k n s = some (m, rest) ∧ scalar? least m = some c := by
  simp only [complete?, Option.bind_eq_some_iff, Option.map_eq_some_iff, Prod.mk.injEq]
  constructor
  · rintro ⟨⟨m, rest'⟩, hm, c', hc, rfl, rfl⟩
    exact ⟨m, hm, hc⟩
  · rintro ⟨m, hm, hc⟩
    exact ⟨(m, rest), hm, c, hc, rfl, rfl⟩

/-- What was encoded is read back, whatever follows it. -/
theorem next?_encodeChar (c : Char) (rest : Bytes) :
    next? (encodeChar c ++ rest) = some (c, rest) := by
  have hc := toNat_lt c
  unfold encodeChar
  split
  · next h =>
    rw [List.singleton_append, next?, toNat_byte (by omega), if_pos h, Char.ofNat_toNat]
  split
  · rw [List.cons_append, next?, toNat_byte (by omega), if_neg (by omega), if_neg (by omega),
      if_pos (by omega), complete?_eq_some]
    exact ⟨_, continue?_succ 0 _ (by omega) _, scalar?_toNat (by omega) (by omega)⟩
  split
  · rw [List.cons_append, next?, toNat_byte (by omega), if_neg (by omega), if_neg (by omega),
      if_neg (by omega), if_pos (by omega), complete?_eq_some]
    exact ⟨_, (continue?_succ 1 _ (by omega) _).trans (continue?_succ 0 _ (by omega) _),
      scalar?_toNat (by omega) (by omega)⟩
  · rw [List.cons_append, next?, toNat_byte (by omega), if_neg (by omega), if_neg (by omega),
      if_neg (by omega), if_neg (by omega), complete?_eq_some]
    exact ⟨_, (continue?_succ 2 _ (by omega) _).trans
      ((continue?_succ 1 _ (by omega) _).trans (continue?_succ 0 _ (by omega) _)),
      scalar?_toNat (by omega) (by omega)⟩

/-- What is read was encoded. -/
theorem eq_of_next? {s rest : Bytes} {c : Char} (h : next? s = some (c, rest)) :
    s = encodeChar c ++ rest := by
  cases s with
  | nil => simp [next?] at h
  | cons a s =>
    have ha := UInt8.toNat_lt a
    have hc := toNat_lt c
    rw [next?] at h
    split at h
    · next h1 =>
      simp only [Option.some.injEq, Prod.mk.injEq] at h
      obtain ⟨rfl, rfl⟩ := h
      have hv : a.toNat.isValidChar := by simp [Nat.isValidChar]; omega
      rw [encodeChar, toNat_ofNat hv, if_pos h1, UInt8.ofNat_toNat, List.singleton_append]
    split at h
    · cases h
    split at h
    · obtain ⟨m, hm, hs⟩ := complete?_eq_some.mp h
      clear h
      obtain ⟨x, t1, hx, ht1, hm1⟩ := eq_of_continue?_succ hm
      obtain ⟨hm2, rfl⟩ := continue?_zero hm1
      subst ht1 hm2
      obtain ⟨hl, hn⟩ := eq_of_scalar? hs
      rw [encodeChar, if_neg (by omega), if_pos (by omega),
        eq_byte (a := a) (n := 0xC0 + c.toNat / 64) (by omega),
        show c.toNat % 64 = x by omega]
      rfl
    split at h
    · obtain ⟨m, hm, hs⟩ := complete?_eq_some.mp h
      clear h
      obtain ⟨x, t1, hx, ht1, hm1⟩ := eq_of_continue?_succ hm
      obtain ⟨y, t2, hy, ht2, hm2⟩ := eq_of_continue?_succ hm1
      obtain ⟨hm3, rfl⟩ := continue?_zero hm2
      subst ht1 ht2 hm3
      obtain ⟨hl, hn⟩ := eq_of_scalar? hs
      rw [encodeChar, if_neg (by omega), if_neg (by omega), if_pos (by omega),
        eq_byte (a := a) (n := 0xE0 + c.toNat / 4096) (by omega),
        show c.toNat / 64 % 64 = x by omega, show c.toNat % 64 = y by omega]
      rfl
    · obtain ⟨m, hm, hs⟩ := complete?_eq_some.mp h
      clear h
      obtain ⟨x, t1, hx, ht1, hm1⟩ := eq_of_continue?_succ hm
      obtain ⟨y, t2, hy, ht2, hm2⟩ := eq_of_continue?_succ hm1
      obtain ⟨z, t3, hz, ht3, hm3⟩ := eq_of_continue?_succ hm2
      obtain ⟨hm4, rfl⟩ := continue?_zero hm3
      subst ht1 ht2 ht3 hm4
      obtain ⟨hl, hn⟩ := eq_of_scalar? hs
      rw [encodeChar, if_neg (by omega), if_neg (by omega), if_neg (by omega),
        eq_byte (a := a) (n := 0xF0 + c.toNat / 262144) (by omega),
        show c.toNat / 4096 % 64 = x by omega, show c.toNat / 64 % 64 = y by omega,
        show c.toNat % 64 = z by omega]
      rfl

theorem encodeChar_ne_nil (c : Char) : encodeChar c ≠ [] := by
  unfold encodeChar
  split
  · simp
  split
  · simp
  split <;> simp

theorem length_lt_of_next? {s rest : Bytes} {c : Char} (h : next? s = some (c, rest)) :
    rest.length < s.length := by
  have := List.length_pos_iff.mpr (encodeChar_ne_nil c)
  rw [eq_of_next? h, List.length_append]
  omega

/-! ### Whole texts -/

/-- The longest well-formed beginning as a text, and the bytes after it. -/
def read (s : Bytes) : Text × Bytes :=
  match h : next? s with
  | none => ([], s)
  | some (c, rest) =>
    have := length_lt_of_next? h
    let r := read rest
    (c :: r.1, r.2)
termination_by s.length

/-- The text of well-formed bytes. -/
def decode? (s : Bytes) : Option Text :=
  if (read s).2 = [] then some (read s).1 else none

theorem read_of_next? {s rest : Bytes} {c : Char} (h : next? s = some (c, rest)) :
    read s = (c :: (read rest).1, (read rest).2) := by
  rw [read]
  split
  · next h' => rw [h] at h'; cases h'
  · next c' rest' h' =>
    rw [h] at h'
    cases h'
    rfl

theorem read_of_next?_none {s : Bytes} (h : next? s = none) : read s = ([], s) := by
  rw [read]
  split
  · rfl
  · next h' => rw [h] at h'; cases h'

/-- Reading loses nothing. -/
theorem encode_read (s : Bytes) : encode (read s).1 ++ (read s).2 = s := by
  fun_induction read s with
  | case1 s h => simp [encode]
  | case2 s c rest h hlt r ih =>
    simp only [encode, List.flatMap_cons, List.append_assoc] at ih ⊢
    rw [ih, ← eq_of_next? h]

theorem read_encode_append (t : Text) (rest : Bytes) :
    read (encode t ++ rest) = (t ++ (read rest).1, (read rest).2) := by
  induction t with
  | nil => rfl
  | cons c t ih =>
    have h : next? (encode (c :: t) ++ rest) = some (c, encode t ++ rest) := by
      rw [encode, List.flatMap_cons, List.append_assoc]
      exact next?_encodeChar c _
    rw [read_of_next? h, ih]
    rfl

@[simp] theorem decode?_encode (t : Text) : decode? (encode t) = some t := by
  have h := read_encode_append t []
  rw [read_of_next?_none (s := []) rfl, List.append_nil, List.append_nil] at h
  simp [decode?, h]

theorem eq_encode_of_decode? {s : Bytes} {t : Text} (h : decode? s = some t) : s = encode t := by
  unfold decode? at h
  split at h
  · next hr =>
    cases h
    have := encode_read s
    rwa [hr, List.append_nil, eq_comm] at this
  · cases h

/-- Decoding accepts exactly what encoding produces. -/
theorem decode?_eq_some_iff {s : Bytes} {t : Text} : decode? s = some t ↔ s = encode t :=
  ⟨eq_encode_of_decode?, fun h => h ▸ decode?_encode t⟩

/-! ### Parts of texts -/

theorem encode_append (s t : Text) : encode (s ++ t) = encode s ++ encode t :=
  List.flatMap_append

/-- The number of bytes of a text. -/
def size (s : Text) : Nat :=
  (encode s).length

/-- The part of a text from one number of bytes to another, unless a character
lies across one of its ends. -/
def slice? (s : Text) (start stop : Nat) : Option Text :=
  decode? (((encode s).take stop).drop start)

end Utf8

end PhraseGrammar
