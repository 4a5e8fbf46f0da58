/-
PhraseGrammar/Proofs/Lookup.lean

Registers as maps that keep an order.

Looked up by keys, a register is a finite map, and each operation changes it at
one key and nowhere else:

    (r.push x).get? k        = if k = r.nextKey then some x else r.get? k
    (r.removeAt i).get? k    = if r.keys[i]? = some k then none else r.get? k
    (r.replaceAt i x).get? k = if r.keys[i]? = some k then some x else r.get? k

Listed, its keys increase and lie below the next one, so the last of them is
the largest and dropping a place is dropping a key (`keys_removeAt_eq_filter`).
The entries can be listed from the two (`entries_eq_filterMap`), so what an
operation does at the place of a key it does to the entry of the key
(`entries_removeAt`, `entries_replaceAt`).
-/
import Mathlib.Data.List.Nodup
import PhraseGrammar.Register

namespace PhraseGrammar

instance {α : Type} : Std.Asymm fun a b : Key α => a < b :=
  ⟨fun _ _ => Nat.lt_asymm⟩

namespace Register

variable {α : Type}

/-! ### The order of the keys -/

theorem keys_increasing (r : Register α) : r.keys.Pairwise (· < ·) := by
  have h : (r.keys.map Key.number).Pairwise (· < ·) := by
    simpa [keys, Function.comp_def] using r.increasing
  have hkeys := List.pairwise_map.mp h
  exact hkeys

theorem lt_nextKey_of_mem_keys {r : Register α} {k : Key α} (h : k ∈ r.keys) : k < r.nextKey := by
  obtain ⟨e, he, rfl⟩ := List.mem_map.mp h
  exact r.below_next _ (List.mem_map.mpr ⟨e, he, rfl⟩)

/-- The largest key is the last. -/
theorem largestKey?_eq_getLast? (r : Register α) : r.largestKey? = r.keys.getLast? := by
  have hkeys : r.entries.map (·.1.number) = r.keys.map Key.number := by
    simp [keys, Function.comp_def]
  rw [largestKey?, hkeys]
  rcases List.eq_nil_or_concat r.keys with h | ⟨ks, k, h⟩
  · rw [h]
    rfl
  · -- nothing before the last key is larger
    have hinc := r.keys_increasing
    rw [h, List.concat_eq_append, List.pairwise_append] at hinc
    have hmax : ((ks ++ [k]).map Key.number).max? = some k.number := by
      rw [List.max?_eq_some_iff]
      refine ⟨by simp, fun n hn => ?_⟩
      obtain ⟨j, hj, rfl⟩ := List.mem_map.mp hn
      rcases List.mem_append.mp hj with hj | hj
      · exact Nat.le_of_lt (hinc.2.2 j hj k List.mem_cons_self)
      · exact Nat.le_of_eq (congrArg Key.number (List.mem_singleton.mp hj))
    rw [h, List.concat_eq_append, hmax, List.getLast?_concat]
    rfl

/-- Without the entry at a place, all keys are left but the one there. -/
theorem keys_removeAt_eq_filter {r : Register α} {k : Key α} {i : Nat}
    (h : r.keys[i]? = some k) : (r.removeAt i).keys = r.keys.filter (· ≠ k) := by
  obtain ⟨hi, rfl⟩ := List.getElem?_eq_some_iff.mp h
  rw [keys_removeAt, ← r.keys_nodup.erase_getElem i hi, r.keys_nodup.erase_eq_filter]
  exact List.filter_congr fun j _ => by rw [Bool.eq_iff_iff]; simp

/-! ### Looking up after an operation -/

theorem get?_eq_some_iff {r : Register α} {k : Key α} {x : α} :
    r.get? k = some x ↔ ∃ i : Nat, r.keys[i]? = some k ∧ r.values[i]? = some x := by
  simp only [get?_eq_bind, Option.bind_eq_some_iff, position?_eq_some_iff, valueAt?, values,
    List.getElem?_map]

theorem mem_entries_iff {r : Register α} {k : Key α} {x : α} :
    (k, x) ∈ r.entries ↔ r.get? k = some x := by
  rw [get?_eq_some_iff, List.mem_iff_getElem?]
  refine exists_congr fun i => ?_
  simp only [keys, values, List.getElem?_map, Option.map_eq_some_iff]
  constructor
  · intro h
    exact ⟨⟨_, h, rfl⟩, ⟨_, h, rfl⟩⟩
  · rintro ⟨⟨e, he, rfl⟩, ⟨e', he', rfl⟩⟩
    rw [he] at he'
    cases he'
    exact he

/-- There is something under the keys that are present and under no other. -/
theorem get?_eq_none_iff {r : Register α} {k : Key α} : r.get? k = none ↔ k ∉ r.keys := by
  simp only [get?, Option.map_eq_none_iff, List.find?_eq_none, keys, List.mem_map,
    decide_eq_true_eq, not_exists, not_and]

theorem get?_push (r : Register α) (x : α) (k : Key α) :
    (r.push x).get? k = if k = r.nextKey then some x else r.get? k := by
  rw [get?, push, List.find?_append]
  split
  · next h =>
    subst h
    have hnone := get?_eq_none_iff.mpr r.nextKey_not_mem_keys
    rw [get?, Option.map_eq_none_iff] at hnone
    rw [hnone]
    simp
  · next h => simp [get?, Ne.symm h]

theorem get?_removeAt (r : Register α) (i : Nat) (k : Key α) :
    (r.removeAt i).get? k = if r.keys[i]? = some k then none else r.get? k := by
  split
  · next h =>
    rw [get?_eq_none_iff, keys_removeAt_eq_filter h]
    simp
  · next h =>
    ext x
    simp only [get?_eq_some_iff, keys_removeAt, values_removeAt, List.getElem?_eraseIdx]
    -- the places before `i` stay, the places after it move up by one
    constructor
    · rintro ⟨j, hj⟩
      split at hj
      · exact ⟨j, hj⟩
      · exact ⟨j + 1, hj⟩
    · rintro ⟨j, hk, hx⟩
      rcases Nat.lt_trichotomy j i with hji | rfl | hji
      · exact ⟨j, by rwa [if_pos hji], by rwa [if_pos hji]⟩
      · exact absurd hk h
      · have hsucc : j - 1 + 1 = j := by omega
        have hge : ¬ j - 1 < i := by omega
        exact ⟨j - 1, by rwa [if_neg hge, hsucc], by rwa [if_neg hge, hsucc]⟩

theorem get?_replaceAt (r : Register α) (i : Nat) (x : α) (k : Key α) :
    (r.replaceAt i x).get? k = if r.keys[i]? = some k then some x else r.get? k := by
  split
  · next h =>
    rw [get?_eq_some_iff]
    obtain ⟨hi, -⟩ := List.getElem?_eq_some_iff.mp h
    have hlen : i < r.values.length := by simpa [keys, values] using hi
    exact ⟨i, by rwa [keys_replaceAt], by rw [values_replaceAt, List.getElem?_set_self hlen]⟩
  · next h =>
    ext y
    simp only [get?_eq_some_iff, keys_replaceAt, values_replaceAt]
    -- the key looked up stands at another place
    refine exists_congr fun j => and_congr_right fun hj => ?_
    have hij : i ≠ j := by
      rintro rfl
      exact h hj
    rw [List.getElem?_set_ne hij]

/-! ### The entries as what is under the keys -/

/-- The entries are the keys, each with what is found under it. -/
theorem entries_eq_filterMap (r : Register α) :
    r.entries = r.keys.filterMap fun k => (r.get? k).map (k, ·) := by
  have hfound : ∀ e ∈ r.entries, (r.get? e.1).map (e.1, ·) = some e := by
    intro e he
    rw [mem_entries_iff.mp he]
    rfl
  rw [keys, List.filterMap_map]
  calc r.entries
      = r.entries.filterMap some := List.filterMap_some.symm
    _ = _ := List.filterMap_congr fun e he => (hfound e he).symm

/-- Replacing at the place of a key is replacing what is under the key. -/
theorem entries_replaceAt {r : Register α} {i : Nat} {k : Key α} (h : r.keys[i]? = some k)
    (x : α) : (r.replaceAt i x).entries = r.entries.map fun e => if e.1 = k then (k, x) else e := by
  apply List.ext_getElem?
  intro j
  simp only [replaceAt, List.getElem?_modify, List.getElem?_map]
  cases hj : r.entries[j]? with
  | none => rfl
  | some e =>
    have hkey : r.keys[j]? = some e.1 := by rw [keys, List.getElem?_map, hj]; rfl
    -- no key stands at two places
    have hij : i = j ↔ e.1 = k := by
      constructor
      · rintro rfl
        rw [h] at hkey
        exact (Option.some.inj hkey).symm
      · rintro rfl
        have hi := position?_eq_some_iff.mpr h
        exact Option.some.inj (hi.symm.trans (position?_eq_some_iff.mpr hkey))
    by_cases he : e.1 = k
    · simp [hij, he]
    · simp [hij, he]

/-- Dropping the place of a key is dropping what is under the key. -/
theorem entries_removeAt {r : Register α} {i : Nat} {k : Key α} (h : r.keys[i]? = some k) :
    (r.removeAt i).entries = r.entries.filter (·.1 ≠ k) := by
  have hkeys : (r.removeAt i).keys = r.keys.filter (· ≠ k) := keys_removeAt_eq_filter h
  have hget : ∀ j ∈ r.keys.filter (· ≠ k), (r.removeAt i).get? j = r.get? j := by
    intro j hj
    have hne : ¬ r.keys[i]? = some j := by
      rw [h]
      rintro ⟨⟩
      simp at hj
    rw [get?_removeAt, if_neg hne]
  rw [entries_eq_filterMap, hkeys, List.filterMap_congr fun j hj => by rw [hget j hj],
    entries_eq_filterMap r, List.filterMap_filter, List.filter_filterMap]
  refine List.filterMap_congr fun j _ => ?_
  by_cases hj : j = k
  · cases r.get? j <;> simp [hj, Option.filter]
  · cases r.get? j <;> simp [hj, Option.filter]

end Register

end PhraseGrammar
