/-
PhraseGrammar/Register.lean

Registers: lists whose entries keep the key they were given.

A register hands out the keys 0, 1, 2, … in the order of arrival and never
hands one out twice, so a key names the same entry for as long as the entry
stays, whatever happens to the entries around it.  Both facts are part of the
type: the keys increase along the list, and all of them lie below the next
one to be handed out.

The two views are `values`, the entries as a plain list, and `keys`.  Every
operation is one list operation on each of them:

    (r.push x).values        = r.values ++ [x]
    (r.removeAt i).values    = r.values.eraseIdx i
    (r.replaceAt i x).values = r.values.set i x,    (r.replaceAt i x).keys = r.keys

and looking up a key is finding its place among `keys`
(`position?_eq_some_iff`, `get?_eq_bind`).
-/

namespace PhraseGrammar

/-- The key of an entry of a register of `α`. -/
@[ext] structure Key (α : Type) where
  number : Nat

namespace Key

variable {α : Type}

instance : DecidableEq (Key α) := fun a b =>
  decidable_of_iff (a.number = b.number) (by rw [Key.ext_iff])

instance : LT (Key α) := ⟨fun a b => a.number < b.number⟩

end Key

/-- A list of values under increasing keys, with the next key to hand out. -/
@[ext] structure Register (α : Type) where
  entries : List (Key α × α)
  next : Nat
  increasing : (entries.map (·.1.number)).Pairwise (· < ·)
  below_next : ∀ n ∈ entries.map (·.1.number), n < next

namespace Register

variable {α : Type}

/-- The values in order. -/
def values (r : Register α) : List α :=
  r.entries.map (·.2)

/-- The keys in order. -/
def keys (r : Register α) : List (Key α) :=
  r.entries.map (·.1)

/-- How many entries there are. -/
def size (r : Register α) : Nat :=
  r.entries.length

/-- The place of a key in the order. -/
def position? (r : Register α) (k : Key α) : Option Nat :=
  r.entries.findIdx? (·.1 = k)

/-- The value under a key. -/
def get? (r : Register α) (k : Key α) : Option α :=
  (r.entries.find? (·.1 = k)).map (·.2)

/-- The value at a position. -/
def valueAt? (r : Register α) (i : Nat) : Option α :=
  r.entries[i]?.map (·.2)

/-- The largest key present. -/
def largestKey? (r : Register α) : Option (Key α) :=
  (r.entries.map (·.1.number)).max?.map (⟨·⟩)

/-! ### Building and editing -/

/-- The register nothing was ever entered into. -/
def empty : Register α where
  entries := []
  next := 0
  increasing := .nil
  below_next := by simp

/-- The key the next entry gets. -/
def nextKey (r : Register α) : Key α :=
  ⟨r.next⟩

theorem map_modify_value {β : Type} (f : Key α → β) (es : List (Key α × α)) (i : Nat) (x : α) :
    (es.modify i fun e => (e.1, x)).map (f ·.1) = es.map (f ·.1) := by
  induction es generalizing i with
  | nil => cases i <;> rfl
  | cons e es ih =>
    cases i with
    | zero => rfl
    | succ i => simp [ih]

/-- Enters a value at the end, under the next key. -/
def push (r : Register α) (x : α) : Register α where
  entries := r.entries ++ [(r.nextKey, x)]
  next := r.next + 1
  increasing := by
    rw [List.map_append, List.pairwise_append]
    refine ⟨r.increasing, by simp, fun n hn m hm => ?_⟩
    obtain rfl : m = r.next := by simpa [nextKey] using hm
    exact r.below_next n hn
  below_next := fun n hn => by
    rw [List.map_append, List.mem_append] at hn
    rcases hn with hn | hn
    · exact Nat.lt_succ_of_lt (r.below_next n hn)
    · obtain rfl : n = r.next := by simpa [nextKey] using hn
      exact Nat.lt_succ_self r.next

/-- Enters the values of a list in order. -/
def ofList (xs : List α) : Register α :=
  xs.foldl push empty

/-- Drops the entry at a position; its key is not handed out again. -/
def removeAt (r : Register α) (i : Nat) : Register α where
  entries := r.entries.eraseIdx i
  next := r.next
  increasing := r.increasing.sublist ((List.eraseIdx_sublist r.entries i).map _)
  below_next := fun n hn =>
    r.below_next n (((List.eraseIdx_sublist r.entries i).map _).subset hn)

/-- Puts a new value under the key at a position. -/
def replaceAt (r : Register α) (i : Nat) (x : α) : Register α where
  entries := r.entries.modify i fun e => (e.1, x)
  next := r.next
  increasing := map_modify_value Key.number r.entries i x ▸ r.increasing
  below_next := map_modify_value Key.number r.entries i x ▸ r.below_next

/-! ### Each operation in the two views -/

theorem map_eraseIdx {β γ : Type} (f : β → γ) (l : List β) (i : Nat) :
    (l.eraseIdx i).map f = (l.map f).eraseIdx i := by
  induction l generalizing i with
  | nil => rfl
  | cons b l ih => cases i <;> simp [ih]

@[simp] theorem values_empty : (empty : Register α).values = [] := rfl

@[simp] theorem values_push (r : Register α) (x : α) : (r.push x).values = r.values ++ [x] := by
  simp [values, push]

@[simp] theorem keys_push (r : Register α) (x : α) :
    (r.push x).keys = r.keys ++ [r.nextKey] := by
  simp [keys, push]

@[simp] theorem values_removeAt (r : Register α) (i : Nat) :
    (r.removeAt i).values = r.values.eraseIdx i :=
  map_eraseIdx _ r.entries i

@[simp] theorem keys_removeAt (r : Register α) (i : Nat) :
    (r.removeAt i).keys = r.keys.eraseIdx i :=
  map_eraseIdx _ r.entries i

@[simp] theorem values_replaceAt (r : Register α) (i : Nat) (x : α) :
    (r.replaceAt i x).values = r.values.set i x := by
  apply List.ext_getElem?
  intro j
  simp only [values, replaceAt, List.getElem?_map, List.getElem?_modify, List.getElem?_set]
  by_cases h : i = j
  · subst h
    cases hi : r.entries[i]? with
    | none =>
      have := List.getElem?_eq_none_iff.mp hi
      simp
      omega
    | some e =>
      obtain ⟨hlt, -⟩ := List.getElem?_eq_some_iff.mp hi
      simp [hlt]
  · simp only [h, if_false]
    cases r.entries[j]? <;> rfl

@[simp] theorem keys_replaceAt (r : Register α) (i : Nat) (x : α) :
    (r.replaceAt i x).keys = r.keys :=
  map_modify_value id r.entries i x

theorem values_foldl_push (xs : List α) (r : Register α) :
    (xs.foldl push r).values = r.values ++ xs := by
  induction xs generalizing r with
  | nil => simp
  | cons x xs ih => rw [List.foldl_cons, ih, values_push, List.append_assoc]; rfl

@[simp] theorem values_ofList (xs : List α) : (ofList xs).values = xs :=
  values_foldl_push xs empty

theorem next_foldl_push (xs : List α) (r : Register α) :
    (xs.foldl push r).next = r.next + xs.length := by
  induction xs generalizing r with
  | nil => rfl
  | cons x xs ih =>
    rw [List.foldl_cons, ih, List.length_cons]
    show r.next + 1 + xs.length = r.next + (xs.length + 1)
    omega

theorem keys_foldl_push (xs : List α) (r : Register α) :
    (xs.foldl push r).keys = r.keys ++ (List.range' r.next xs.length).map Key.mk := by
  induction xs generalizing r with
  | nil => simp
  | cons x xs ih =>
    rw [List.foldl_cons, ih, keys_push, List.append_assoc, List.length_cons, List.range'_succ]
    rfl

/-- The keys of a list are its positions. -/
@[simp] theorem keys_ofList (xs : List α) :
    (ofList xs).keys = (List.range xs.length).map Key.mk := by
  rw [ofList, keys_foldl_push, List.range_eq_range']
  rfl

@[simp] theorem next_ofList (xs : List α) : (ofList xs).next = xs.length := by
  rw [ofList, next_foldl_push]
  exact Nat.zero_add xs.length

/-! ### Looking up a key -/

/-- No key stands twice. -/
theorem keys_nodup (r : Register α) : r.keys.Nodup := by
  have h : (r.keys.map Key.number).Pairwise (· < ·) := by
    simpa [keys, Function.comp_def] using r.increasing
  refine (List.pairwise_map.mp h).imp fun hab => ?_
  rintro rfl
  exact Nat.lt_irrefl _ hab

/-- A key is at the one place where it stands in the order. -/
theorem position?_eq_some_iff {r : Register α} {k : Key α} {i : Nat} :
    r.position? k = some i ↔ r.keys[i]? = some k := by
  have hk : r.position? k = r.keys.findIdx? (· = k) := by
    simp [position?, keys, List.findIdx?_map, Function.comp_def]
  rw [hk, List.findIdx?_eq_some_iff_getElem]
  constructor
  · rintro ⟨hi, he, -⟩
    exact List.getElem?_eq_some_iff.mpr ⟨hi, by simpa using he⟩
  · intro h
    obtain ⟨hi, he⟩ := List.getElem?_eq_some_iff.mp h
    refine ⟨hi, by simpa using he, fun j hj => ?_⟩
    have hne := List.pairwise_iff_getElem.mp r.keys_nodup j i (Nat.lt_trans hj hi) hi hj
    simpa [he] using hne

theorem position?_eq_none_iff {r : Register α} {k : Key α} :
    r.position? k = none ↔ k ∉ r.keys := by
  simp only [position?, keys, List.findIdx?_eq_none_iff, List.mem_map, decide_eq_false_iff_not]
  exact ⟨fun h ⟨e, he, hk⟩ => h e he hk, fun h e he hk => h ⟨e, he, hk⟩⟩

/-- The value under a key is the one at its place. -/
theorem get?_eq_bind (r : Register α) (k : Key α) :
    r.get? k = (r.position? k).bind r.valueAt? := by
  rw [get?, position?, List.find?_eq_bind_findIdx?_getElem?]
  cases r.entries.findIdx? _ <;> rfl

/-- The next key is not in the register. -/
theorem nextKey_not_mem_keys (r : Register α) : r.nextKey ∉ r.keys := by
  intro h
  obtain ⟨e, he, hk⟩ := List.mem_map.mp h
  have hlt := r.below_next e.1.number (List.mem_map.mpr ⟨e, he, rfl⟩)
  rw [hk] at hlt
  exact Nat.lt_irrefl _ hlt

end Register

end PhraseGrammar
