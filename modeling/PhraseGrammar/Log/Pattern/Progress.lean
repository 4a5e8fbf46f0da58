/-
PhraseGrammar/Log/Pattern/Progress.lean

The readers of patterns only go forward.  What each of them leaves is no longer
than what it was given, and every step of the two loops takes a character, so
the loops end by themselves before their fuel does:

    s.length < n → s.length < k → setFrom? m n o outer s = setFrom? m k o outer s
    s.length < n → s.length < k → run? n r s = run? k r s

(`setFrom?_eq_of_length_lt`, `run?_eq_of_length_lt`), and so the fuel that `set?`
and `read?` start with never decides anything.
-/
import PhraseGrammar.Log.Pattern.Reader

namespace PhraseGrammar

namespace Pattern

/-! ### What is skipped and what is escaped -/

theorem length_dropBlanks_le (inComment : Bool) (s : Text) :
    (dropBlanks inComment s).length ≤ s.length := by
  induction s generalizing inComment with
  | nil => exact Nat.le_refl _
  | cons c s ih =>
    rw [dropBlanks, List.length_cons]
    split
    · exact Nat.le_succ_of_le (ih _)
    split
    · exact Nat.le_succ_of_le (ih _)
    split
    · exact Nat.le_succ_of_le (ih _)
    · exact Nat.le_refl _

theorem Mode.length_skip_le (m : Mode) (s : Text) : (m.skip s).length ≤ s.length := by
  rw [Mode.skip]
  split
  · exact length_dropBlanks_le false s
  · exact Nat.le_refl _

theorem length_lt_of_skip {m : Mode} {s t : Text} {c : Char} (h : m.skip s = c :: t) :
    t.length < s.length := by
  have := m.length_skip_le s
  rw [h, List.length_cons] at this
  omega

theorem length_le_of_code? {m : Mode} {k n v : Nat} {s rest : Text}
    (h : code? m k n s = some (v, rest)) : rest.length ≤ s.length := by
  induction k generalizing n s with
  | zero =>
    obtain ⟨-, rfl⟩ : n = v ∧ s = rest := by simpa [code?] using h
    exact Nat.le_refl _
  | succ k ih =>
    cases s with
    | nil => simp [code?] at h
    | cons c s =>
      rw [code?, Option.bind_eq_some_iff] at h
      obtain ⟨d, -, hd⟩ := h
      have := m.length_skip_le s
      have := ih hd
      rw [List.length_cons]
      omega

theorem length_le_of_escape? {m : Mode} {s rest : Text} {a : Atom}
    (h : escape? m s = some (a, rest)) : rest.length ≤ s.length := by
  cases s with
  | nil => simp [escape?] at h
  | cons c s =>
    rw [escape?] at h
    rw [List.length_cons]
    split at h
    · obtain ⟨b, -, hb⟩ := Option.map_eq_some_iff.mp h
      obtain ⟨-, rfl⟩ := Prod.mk.inj hb
      exact Nat.le_succ _
    · obtain ⟨r, hr, hb⟩ := Option.bind_eq_some_iff.mp h
      obtain ⟨-, hb⟩ := Option.ite_none_right_eq_some.mp hb
      obtain ⟨-, rfl⟩ := Prod.mk.inj (Option.some.inj hb)
      have : r.2.length ≤ (m.skip s).length := length_le_of_code? hr
      have := m.length_skip_le s
      omega

/-! ### Sets -/

theorem length_lt_of_dropWhile {p : Char → Bool} {s t : Text} {c : Char}
    (h : s.dropWhile p = c :: t) : t.length < s.length := by
  have := (List.dropWhile_suffix p (l := s)).length_le
  rw [h, List.length_cons] at this
  omega

theorem length_lt_of_setName? {s rest : Text} (h : setName? s = some rest) :
    rest.length < s.length := by
  unfold setName? at h
  split at h
  · next t hd =>
    obtain ⟨-, h⟩ := Option.ite_none_right_eq_some.mp h
    cases h
    have := length_lt_of_dropWhile hd
    rw [List.length_cons] at this
    omega
  · cases h

theorem length_le_of_namedSet? {s rest : Text} {negated : Bool}
    (h : namedSet? s = some (negated, rest)) : rest.length ≤ s.length := by
  unfold namedSet? at h
  split at h
  · obtain ⟨t, ht, h⟩ := Option.map_eq_some_iff.mp h
    obtain ⟨-, rfl⟩ := Prod.mk.inj h
    have := length_lt_of_setName? ht
    simp only [List.length_cons]
    omega
  · obtain ⟨t, ht, h⟩ := Option.map_eq_some_iff.mp h
    obtain ⟨-, rfl⟩ := Prod.mk.inj h
    have := length_lt_of_setName? ht
    rw [List.length_cons]
    omega
  · cases h

theorem length_le_of_start (m : Mode) (s : Text) : (OpenSet.start m s).2.length ≤ s.length := by
  unfold OpenSet.start
  split
  · next t h => exact Nat.le_of_lt (length_lt_of_skip h)
  · exact m.length_skip_le s

theorem length_le_of_rangeEnd? {m : Mode} {c : Char} {s rest : Text} {a : Atom}
    (h : rangeEnd? m c s = some (a, rest)) : rest.length ≤ s.length := by
  unfold rangeEnd? at h
  split at h
  · exact length_le_of_escape? h
  · obtain ⟨-, rfl⟩ := Prod.mk.inj (Option.some.inj h)
    exact Nat.le_refl _

theorem length_le_of_member? {m : Mode} {c : Char} {s rest : Text} {x : CharSet}
    (h : member? m c s = some (x, rest)) : rest.length ≤ s.length := by
  unfold member? at h
  obtain ⟨⟨low, t⟩, hl, h⟩ := Option.bind_eq_some_iff.mp h
  have hl := length_le_of_rangeEnd? hl
  have hs := m.length_skip_le t
  simp only at h
  split at h
  · cases h
  · next u hu =>
    rw [hu] at hs
    split at h
    · obtain ⟨y, -, h⟩ := Option.bind_eq_some_iff.mp h
      obtain ⟨-, rfl⟩ := Prod.mk.inj (Option.some.inj h)
      omega
    · have hu' := m.length_skip_le u
      rw [List.length_cons] at hs
      split at h
      · cases h
      · next d v hv =>
        obtain ⟨⟨high, w⟩, hh, h⟩ := Option.bind_eq_some_iff.mp h
        obtain ⟨y, -, h⟩ := Option.bind_eq_some_iff.mp h
        obtain ⟨-, rfl⟩ := Prod.mk.inj (Option.some.inj h)
        have : w.length ≤ v.length := length_le_of_rangeEnd? hh
        rw [hv, List.length_cons] at hu'
        show w.length ≤ s.length
        omega
  · obtain ⟨y, -, h⟩ := Option.bind_eq_some_iff.mp h
    obtain ⟨-, rfl⟩ := Prod.mk.inj (Option.some.inj h)
    omega

theorem length_le_of_setFrom? {m : Mode} {fuel : Nat} {o : OpenSet} {outer : List OpenSet}
    {s rest : Text} {x : CharSet} (h : setFrom? m fuel o outer s = some (x, rest)) :
    rest.length ≤ s.length := by
  induction fuel generalizing o outer s with
  | zero => simp [setFrom?] at h
  | succ fuel ih =>
    rw [setFrom?] at h
    split at h
    · cases h
    · next c t ht =>
      have hlt := length_lt_of_skip ht
      split at h
      · have := ih h
        omega
      split at h
      · split at h
        · next hn =>
          have := ih h
          have := length_le_of_namedSet? hn
          omega
        · have := ih h
          have := length_le_of_start m t
          omega
      split at h
      · split at h
        · obtain ⟨-, rfl⟩ := Prod.mk.inj (Option.some.inj h)
          omega
        · have := ih h
          omega
      split at h
      · have := ih h
        rw [List.length_tail] at this
        omega
      · obtain ⟨r, hr, h⟩ := Option.bind_eq_some_iff.mp h
        have := ih h
        have : r.2.length ≤ t.length := length_le_of_member? hr
        omega

/-- Fuel beyond the length of the text changes nothing. -/
theorem setFrom?_eq_of_length_lt {m : Mode} {n k : Nat} {o : OpenSet} {outer : List OpenSet}
    {s : Text} (hn : s.length < n) (hk : s.length < k) :
    setFrom? m n o outer s = setFrom? m k o outer s := by
  induction n generalizing k o outer s with
  | zero => omega
  | succ n ih =>
    cases k with
    | zero => omega
    | succ k =>
      rw [setFrom?, setFrom?]
      split
      · rfl
      · next c t ht =>
        have hlt := length_lt_of_skip ht
        have step : ∀ {p : OpenSet} {ps : List OpenSet} {u : Text}, u.length ≤ t.length →
            setFrom? m n p ps u = setFrom? m k p ps u :=
          fun hu => ih (by omega) (by omega)
        split
        · exact step (Nat.le_refl _)
        split
        · split
          · next hd => exact step (length_le_of_namedSet? hd)
          · exact step (length_le_of_start m t)
        split
        · split
          · rfl
          · exact step (Nat.le_refl _)
        split
        · exact step (by rw [List.length_tail]; omega)
        · cases hr : member? m c t with
          | none => rfl
          | some r => exact step (show r.2.length ≤ t.length from length_le_of_member? hr)

theorem length_le_of_set? {m : Mode} {s rest : Text} {x : CharSet}
    (h : set? m s = some (x, rest)) : rest.length ≤ s.length :=
  Nat.le_trans (length_le_of_setFrom? h) (length_le_of_start m s)

/-! ### Groups and whole patterns -/

namespace Reading

theorem length_le_of_enterNamed? {r r' : Reading} {s rest : Text}
    (h : r.enterNamed? s = some (r', rest)) : rest.length ≤ s.length := by
  unfold enterNamed? at h
  simp only at h
  split at h
  · cases h
  · next hd =>
    obtain ⟨-, h⟩ := Option.ite_none_right_eq_some.mp h
    obtain ⟨-, rfl⟩ := Prod.mk.inj (Option.some.inj h)
    exact Nat.le_of_lt (length_lt_of_dropWhile hd)

theorem length_le_of_settings? {r r' : Reading} {s rest : Text}
    (h : r.settings? s = some (r', rest)) : rest.length ≤ s.length := by
  unfold settings? at h
  simp only at h
  split at h
  · cases h
  · next hd =>
    have hlt := length_lt_of_dropWhile hd
    split at h
    · obtain ⟨m, -, h⟩ := Option.map_eq_some_iff.mp h
      obtain ⟨-, rfl⟩ := Prod.mk.inj h
      exact Nat.le_of_lt hlt
    split at h
    · cases h
    · obtain ⟨m, -, h⟩ := Option.map_eq_some_iff.mp h
      obtain ⟨-, rfl⟩ := Prod.mk.inj h
      exact Nat.le_of_lt hlt

theorem length_le_of_open? {r r' : Reading} {s rest : Text}
    (h : r.open? s = some (r', rest)) : rest.length ≤ s.length := by
  have hs := r.mode.length_skip_le s
  unfold open? at h
  split at h
  · next t ht =>
    have := length_le_of_enterNamed? h
    rw [ht] at hs
    simp only [List.length_cons] at hs
    omega
  · next t ht =>
    have := length_le_of_enterNamed? h
    rw [ht] at hs
    simp only [List.length_cons] at hs
    omega
  · next t _ _ ht =>
    have := length_le_of_settings? h
    rw [ht] at hs
    simp only [List.length_cons] at hs
    omega
  · obtain ⟨-, rfl⟩ := Prod.mk.inj (Option.some.inj h)
    exact hs

theorem length_le_of_step? {r r' : Reading} {c : Char} {s rest : Text}
    (h : r.step? c s = some (r', rest)) : rest.length ≤ s.length := by
  have same : ∀ {x : Option Reading}, x.map (·, s) = some (r', rest) → rest.length ≤ s.length := by
    intro x hx
    obtain ⟨y, -, hy⟩ := Option.map_eq_some_iff.mp hx
    obtain ⟨-, rfl⟩ := Prod.mk.inj hy
    exact Nat.le_refl _
  have once : ∀ {x : Option Parts},
      x.map (fun parts => ({ r with here := parts }, if s.head? = some '?' then s.tail else s)) =
        some (r', rest) → rest.length ≤ s.length := by
    intro x hx
    obtain ⟨y, -, hy⟩ := Option.map_eq_some_iff.mp hx
    obtain ⟨-, rfl⟩ := Prod.mk.inj hy
    split
    · rw [List.length_tail]
      omega
    · exact Nat.le_refl _
  unfold step? at h
  split at h
  · exact length_le_of_open? h
  · exact same h
  · obtain ⟨-, rfl⟩ := Prod.mk.inj (Option.some.inj h)
    exact Nat.le_refl _
  · obtain ⟨p, hp, h⟩ := Option.bind_eq_some_iff.mp h
    obtain ⟨-, h⟩ := Option.ite_none_right_eq_some.mp h
    obtain ⟨-, rfl⟩ := Prod.mk.inj (Option.some.inj h)
    show p.2.length ≤ s.length
    exact length_le_of_set? hp
  · exact once h
  · exact once h
  · exact once h
  · cases h
  · obtain ⟨p, hp, h⟩ := Option.bind_eq_some_iff.mp h
    obtain ⟨y, -, hy⟩ := Option.map_eq_some_iff.mp h
    obtain ⟨-, rfl⟩ := Prod.mk.inj hy
    show p.2.length ≤ s.length
    exact length_le_of_escape? hp
  · exact same h
  · exact same h
  · exact same h
  · exact same h

/-- Fuel beyond the length of the text changes nothing. -/
theorem run?_eq_of_length_lt {n k : Nat} {r : Reading} {s : Text} (hn : s.length < n)
    (hk : s.length < k) : run? n r s = run? k r s := by
  induction n generalizing k r s with
  | zero => omega
  | succ n ih =>
    cases k with
    | zero => omega
    | succ k =>
      rw [run?, run?]
      split
      · rfl
      · next c t ht =>
        have hlt := length_lt_of_skip ht
        cases hp : r.step? c t with
        | none => rfl
        | some p =>
          have : p.2.length ≤ t.length := length_le_of_step? hp
          exact ih (by omega) (by omega)

end Reading

end Pattern

end PhraseGrammar
