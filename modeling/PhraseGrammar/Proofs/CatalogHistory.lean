/-
PhraseGrammar/Proofs/CatalogHistory.lean

Catalogs as maps that remember the order of creation.

A catalog is used by requests, of which some are refused (`Catalog.perform`).
The requests with their answers are its log, and what a catalog holds can be
read off the log alone:

    under a key, what was created or put there last, unless it was taken out
      since                                                       (`latest?`)
    in order, the keys in the order in which they were created, each as long as
      there is something under it

Everything a request can do is said once (`Catalog.did_perform`): it is one
operation on registers, or it is refused because of its key and changes
nothing.  The views of a register after each operation then give those of a
catalog after each request, and by induction those after any number of them.

Main result: a catalog that was empty once is what its log says, and so is what
comes of the next request (`catalog_accounts`).
-/
import Mathlib.Data.List.Sort
import PhraseGrammar.Catalog
import PhraseGrammar.Proofs.Lookup

namespace PhraseGrammar

namespace Catalog

/-! ### Requests and their log -/

/-- What can be asked of a catalog. -/
inductive Request
  | create (g : Grammar)
  | update (key : Key Grammar) (g : Grammar)
  | remove (key : Key Grammar)

/-- What is answered. -/
inductive Answer
  | created (key : Key Grammar)
  | updated
  | removed (g : Grammar)
  | refused (why : CatalogError)

/-- Carries out a request; one that is refused leaves the catalog as it is. -/
def perform (c : Catalog) : Request → Answer × Catalog
  | .create g => (.created (c.create g).1, (c.create g).2)
  | .update key g =>
    match c.update key g with
    | .ok c' => (.updated, c')
    | .error why => (.refused why, c)
  | .remove key =>
    match c.remove key with
    | .ok (g, c') => (.removed g, c')
    | .error why => (.refused why, c)

/-- Requests with their answers, the oldest first. -/
abbrev Log := List (Request × Answer)

/-- The log of requests that are made one after the other. -/
def log (c : Catalog) : List Request → Log
  | [] => []
  | q :: qs => (q, (c.perform q).1) :: log (c.perform q).2 qs

/-- The catalog that requests leave. -/
def after (c : Catalog) (qs : List Request) : Catalog :=
  qs.foldl (fun c q => (c.perform q).2) c

/-- The key that an answer hands out. -/
def Answer.createdKey? : Answer → Option (Key Grammar)
  | .created key => some key
  | .updated | .removed _ | .refused _ => none

/-- The keys that were handed out, the oldest first. -/
def createdKeys (l : Log) : List (Key Grammar) :=
  l.filterMap fun s => s.2.createdKey?

/-- What a request that was not refused leaves under a key, if it is about that
key: a grammar, or nothing. -/
def leaves? (k : Key Grammar) : Request × Answer → Option (Option Grammar)
  | (.create g, .created key) => if key = k then some (some g) else none
  | (.update key g, .updated) => if key = k then some (some g) else none
  | (.remove key, .removed _) => if key = k then some none else none
  | _ => none

/-- What the last of the requests about a key that were not refused left there. -/
def latest? (k : Key Grammar) (l : Log) : Option Grammar :=
  (l.filterMap (leaves? k)).getLast?.join

/-! ### What a request can do -/

/-- What came of a request, as an operation on registers. -/
inductive Did (c c' : Catalog) : Request → Answer → Prop
  | created {g : Grammar} : c' = c.push g → Did c c' (.create g) (.created c.nextKey)
  | updated {i : Nat} {key : Key Grammar} {g : Grammar} :
      c.keys[i]? = some key → c' = c.replaceAt i g → Did c c' (.update key g) .updated
  | removed {i : Nat} {key : Key Grammar} {g : Grammar} :
      c.keys[i]? = some key → c.get? key = some g → c' = c.removeAt i →
      Did c c' (.remove key) (.removed g)
  | unknownUpdate {key : Key Grammar} {g : Grammar} :
      key ∉ c.keys → c' = c → Did c c' (.update key g) (.refused (.unknownGrammar key))
  | unknownRemove {key : Key Grammar} :
      key ∉ c.keys → c' = c → Did c c' (.remove key) (.refused (.unknownGrammar key))

/-- A change that addresses a grammar finds the place of its key, or nothing. -/
theorem locate_cases (c : Catalog) (k : Key Grammar) :
    (∃ i : Nat, c.keys[i]? = some k ∧ c.locate k = .ok i) ∨
      k ∉ c.keys ∧ c.locate k = .error (.unknownGrammar k) := by
  unfold locate
  cases hp : c.position? k with
  | some i => exact Or.inl ⟨i, Register.position?_eq_some_iff.mp hp, rfl⟩
  | none => exact Or.inr ⟨Register.position?_eq_none_iff.mp hp, rfl⟩

/-- **What a request can do.** -/
theorem did_perform (c : Catalog) (q : Request) : Did c (c.perform q).2 q (c.perform q).1 := by
  cases q with
  | create g => exact .created rfl
  | update key g =>
    obtain ⟨i, hi, hl⟩ | ⟨hk, hl⟩ := c.locate_cases key
    · have hu : c.update key g = .ok (c.replaceAt i g) := by rw [update, hl]; rfl
      rw [perform, hu]
      exact .updated hi rfl
    · have hu : c.update key g = .error (.unknownGrammar key) := by rw [update, hl]; rfl
      rw [perform, hu]
      exact .unknownUpdate hk rfl
  | remove key =>
    obtain ⟨i, hi, hl⟩ | ⟨hk, hl⟩ := c.locate_cases key
    · -- at the place of a key there is a value
      obtain ⟨e, he, rfl⟩ : ∃ e, c.entries[i]? = some e ∧ e.1 = key := by
        simpa [Register.keys] using hi
      have hv : c.valueAt? i = some e.2 := by rw [Register.valueAt?, he]; rfl
      have hr : c.remove e.1 = .ok (e.2, c.removeAt i) := by
        simp only [remove, hl, bind, Except.bind, hv]
        rfl
      rw [perform, hr]
      exact .removed hi (Register.mem_entries_iff.mp (List.mem_of_getElem? he)) rfl
    · have hr : c.remove key = .error (.unknownGrammar key) := by rw [remove, hl]; rfl
      rw [perform, hr]
      exact .unknownRemove hk rfl

namespace Did

variable {c c' : Catalog} {q : Request} {a : Answer}

/-- A key is handed out by counting on. -/
theorem next (h : Did c c' q a) : c'.next = c.next + a.createdKey?.toList.length := by
  cases h with
  | created hc => rw [hc]; rfl
  | updated _ hc => rw [hc]; rfl
  | removed _ _ hc => rw [hc]; rfl
  | unknownUpdate _ hc | unknownRemove _ hc => rw [hc]; rfl

/-- The key that is handed out is the next one. -/
theorem eq_nextKey (h : Did c c' q a) {k : Key Grammar} (hk : a.createdKey? = some k) :
    k = c.nextKey := by
  cases h with
  | created => exact (Option.some.inj hk).symm
  | updated | removed | unknownUpdate | unknownRemove => cases hk

/-- A key that is present was present before, or was handed out. -/
theorem mem_keys (h : Did c c' q a) {k : Key Grammar} (hk : k ∈ c'.keys) :
    k ∈ c.keys ∨ a.createdKey? = some k := by
  cases h with
  | created hc =>
    rw [hc, Register.keys_push, List.mem_append, List.mem_singleton] at hk
    exact hk.imp id fun h => by rw [h]; rfl
  | updated _ hc => rw [hc, Register.keys_replaceAt] at hk; exact Or.inl hk
  | removed _ _ hc =>
    rw [hc, Register.keys_removeAt] at hk
    exact Or.inl (List.mem_of_mem_eraseIdx hk)
  | unknownUpdate _ hc | unknownRemove _ hc => rw [hc] at hk; exact Or.inl hk

/-- Under a key there is what the request left there, or what was there. -/
theorem get? (h : Did c c' q a) (k : Key Grammar) :
    c'.get? k = (leaves? k (q, a)).getD (c.get? k) := by
  cases h with
  | created hc =>
    rw [hc, Register.get?_push, leaves?]
    by_cases hk : k = c.nextKey
    · rw [if_pos hk, if_pos hk.symm]; rfl
    · rw [if_neg hk, if_neg (Ne.symm hk)]; rfl
  | updated hi hc =>
    rw [hc, Register.get?_replaceAt, hi, leaves?]
    simp only [Option.some.injEq]
    split <;> rfl
  | removed hi _ hc =>
    rw [hc, Register.get?_removeAt, hi, leaves?]
    simp only [Option.some.injEq]
    split <;> rfl
  | unknownUpdate _ hc | unknownRemove _ hc => rw [hc]; rfl

end Did

section Answers

variable {c : Catalog} {k : Key Grammar}

/-- Under a key that is present, another grammar is put in the same place. -/
theorem perform_update (hk : k ∈ c.keys) (g : Grammar) :
    ∃ c', c.perform (.update k g) = (.updated, c') ∧
      c'.entries = (c.entries.map fun e => if e.1 = k then (k, g) else e) ∧ c'.next = c.next := by
  have hdid := c.did_perform (.update k g)
  generalize c.perform (.update k g) = p at hdid
  obtain ⟨a, c'⟩ := p
  cases hdid with
  | updated hi hc =>
    obtain rfl : c' = _ := hc
    exact ⟨_, rfl, Register.entries_replaceAt hi g, rfl⟩
  | unknownUpdate hn => exact absurd hk hn

/-- What is under a key is given back, and its entry is dropped. -/
theorem perform_remove {g : Grammar} (hk : c.get? k = some g) :
    ∃ c', c.perform (.remove k) = (.removed g, c') ∧
      c'.entries = c.entries.filter (·.1 ≠ k) ∧ c'.next = c.next := by
  have hdid := c.did_perform (.remove k)
  generalize c.perform (.remove k) = p at hdid
  obtain ⟨a, c'⟩ := p
  cases hdid with
  | removed hi hg hc =>
    obtain rfl : c' = _ := hc
    cases hk.symm.trans hg
    exact ⟨_, rfl, Register.entries_removeAt hi, rfl⟩
  | unknownRemove hn =>
    rw [Register.get?_eq_none_iff.mpr hn] at hk
    cases hk

/-- A request for a key that is not present is refused, and nothing changes. -/
theorem perform_of_not_mem (hk : k ∉ c.keys) :
    (∀ g, c.perform (.update k g) = (.refused (.unknownGrammar k), c)) ∧
      c.perform (.remove k) = (.refused (.unknownGrammar k), c) := by
  constructor
  · intro g
    have hdid := c.did_perform (.update k g)
    generalize c.perform (.update k g) = p at hdid
    obtain ⟨a, c'⟩ := p
    cases hdid with
    | updated hi => exact absurd (List.mem_of_getElem? hi) hk
    | unknownUpdate _ hc => exact congrArg _ hc
  · have hdid := c.did_perform (.remove k)
    generalize c.perform (.remove k) = p at hdid
    obtain ⟨a, c'⟩ := p
    cases hdid with
    | removed hi => exact absurd (List.mem_of_getElem? hi) hk
    | unknownRemove _ hc => exact congrArg _ hc

end Answers

/-! ### Runs of requests -/

theorem createdKeys_cons (s : Request × Answer) (l : Log) :
    createdKeys (s :: l) = s.2.createdKey?.toList ++ createdKeys l := by
  rw [createdKeys, List.filterMap_cons]
  cases s.2.createdKey? <;> rfl

/-- Keys are handed out one after the other, from the next one on. -/
theorem createdKeys_log (c : Catalog) (qs : List Request) :
    createdKeys (c.log qs) =
      (List.range' c.next (createdKeys (c.log qs)).length).map Key.mk := by
  induction qs generalizing c with
  | nil => rfl
  | cons q qs ih =>
    have hdid := c.did_perform q
    have ih := ih (c.perform q).2
    rw [hdid.next] at ih
    rw [log, createdKeys_cons]
    cases hk : (c.perform q).1.createdKey? with
    | none =>
      rw [hk] at ih
      exact ih
    | some k =>
      rw [hk] at ih
      rw [hdid.eq_nextKey hk]
      simpa [List.range'_succ, Register.nextKey] using ih

theorem pairwise_createdKeys (c : Catalog) (qs : List Request) :
    (createdKeys (c.log qs)).Pairwise (· < ·) := by
  rw [createdKeys_log, List.pairwise_map]
  exact List.pairwise_lt_range'

/-- As many keys are used up as are handed out. -/
theorem next_after (c : Catalog) (qs : List Request) :
    (c.after qs).next = c.next + (createdKeys (c.log qs)).length := by
  induction qs generalizing c with
  | nil => rfl
  | cons q qs ih =>
    have hrun : (c.after (q :: qs)).next = ((c.perform q).2.after qs).next := rfl
    rw [hrun, ih, (c.did_perform q).next, log, createdKeys_cons, List.length_append, Nat.add_assoc]

/-- The next key is larger than all that were handed out. -/
theorem lt_nextKey_of_mem_createdKeys {c : Catalog} {qs : List Request} {k : Key Grammar}
    (hk : k ∈ createdKeys (c.log qs)) : k < (c.after qs).nextKey := by
  have hnext := c.next_after qs
  rw [createdKeys_log] at hk
  obtain ⟨n, hn, rfl⟩ := List.mem_map.mp hk
  have hlt := (List.mem_range'_1.mp hn).2
  show n < (c.after qs).next
  omega

/-- The keys that are present were there at the start, or were handed out. -/
theorem mem_keys_after {c : Catalog} {qs : List Request} {k : Key Grammar}
    (hk : k ∈ (c.after qs).keys) : k ∈ c.keys ++ createdKeys (c.log qs) := by
  induction qs generalizing c with
  | nil => exact List.mem_append_left _ hk
  | cons q qs ih =>
    rw [log, createdKeys_cons, ← List.append_assoc]
    rcases List.mem_append.mp (ih hk) with hk | hk
    · refine List.mem_append_left _ (List.mem_append.mpr ?_)
      exact ((c.did_perform q).mem_keys hk).imp id Option.mem_toList.mpr
    · exact List.mem_append_right _ hk

/-- Under a key there is what was left there last, or what was there at the
start. -/
theorem get?_after (c : Catalog) (qs : List Request) (k : Key Grammar) :
    (c.after qs).get? k = (((c.log qs).filterMap (leaves? k)).getLast?).getD (c.get? k) := by
  induction qs generalizing c with
  | nil => rfl
  | cons q qs ih =>
    have hstep := (c.did_perform q).get? k
    have hrun : (c.after (q :: qs)).get? k = ((c.perform q).2.after qs).get? k := rfl
    rw [hrun, ih, log, List.filterMap_cons, hstep]
    -- what the first request left counts unless a later one left something
    cases leaves? k (q, (c.perform q).1) with
    | none => rfl
    | some left =>
      rw [List.getLast?_cons]
      cases ((c.perform q).2.log qs |>.filterMap (leaves? k)).getLast? <;> rfl

/-! ### Catalogs that were empty once -/

/-- A catalog is what its log says.  Keys that are present increase in order and
lie below the next one, and every key that was handed out is larger than those
before it.  Under a key there is what the log left there last, and the entries
are those of the keys in the order of their creation; so are the keys of a name.
A request for a key under which there is something is carried out on that entry
alone, in its place, and gives what is there; one for any other key is refused,
and nothing is changed. -/
structure Accounts (c : Catalog) (l : Log) : Prop where
  increasing : c.keys.Pairwise (· < ·)
  below_next : ∀ k ∈ c.keys, k < c.nextKey
  fresh : (createdKeys l).Pairwise (· < ·)
  get : ∀ k, c.get? k = latest? k l
  entries : c.entries = (createdKeys l).filterMap fun k => (latest? k l).map (k, ·)
  withName : ∀ name, c.withName name =
    (createdKeys l).filter fun k => (latest? k l).any (·.name = name)
  create : ∀ g, ∃ c', c.perform (.create g) = (.created c.nextKey, c') ∧
    (∀ k ∈ createdKeys l, k < c.nextKey) ∧ c'.entries = c.entries ++ [(c.nextKey, g)]
  update : ∀ k old g, latest? k l = some old → ∃ c', c.perform (.update k g) = (.updated, c') ∧
    c'.entries = (c.entries.map fun e => if e.1 = k then (k, g) else e) ∧ c'.next = c.next
  remove : ∀ k g, latest? k l = some g → ∃ c', c.perform (.remove k) = (.removed g, c') ∧
    c'.entries = c.entries.filter (·.1 ≠ k) ∧ c'.next = c.next
  refused : ∀ k, latest? k l = none →
    (∀ g, c.perform (.update k g) = (.refused (.unknownGrammar k), c)) ∧
      c.perform (.remove k) = (.refused (.unknownGrammar k), c)

/-- Under a key there is what the log left there last. -/
theorem get?_eq_latest? (qs : List Request) (k : Key Grammar) :
    (after .empty qs).get? k = latest? k (log .empty qs) := by
  rw [get?_after, latest?]
  cases ((log .empty qs).filterMap (leaves? k)).getLast? <;> rfl

/-- The keys that are present are those that were handed out and have something
under them, in the same order. -/
theorem keys_eq_filter (qs : List Request) :
    (after .empty qs).keys =
      (createdKeys (log .empty qs)).filter fun k => (latest? k (log .empty qs)).isSome := by
  have hfresh := pairwise_createdKeys .empty qs
  refine (Register.keys_increasing _).eq_of_mem_iff (hfresh.filter _) fun k => ?_
  have hlive : k ∈ (after .empty qs).keys ↔ (latest? k (log .empty qs)).isSome := by
    rw [← get?_eq_latest?, Option.isSome_iff_ne_none, Ne, Register.get?_eq_none_iff, not_not]
  rw [List.mem_filter, ← hlive]
  have hmem : k ∈ (after .empty qs).keys → k ∈ createdKeys (log .empty qs) := by
    intro hk
    simpa [Register.keys, Register.empty] using mem_keys_after hk
  exact ⟨fun hk => ⟨hmem hk, hk⟩, And.right⟩

/-- The entries are those of the keys that were handed out, each with what the
log left under it last. -/
theorem entries_eq_latest? (qs : List Request) :
    (after .empty qs).entries =
      (createdKeys (log .empty qs)).filterMap fun k => (latest? k (log .empty qs)).map (k, ·) := by
  rw [Register.entries_eq_filterMap, keys_eq_filter, List.filterMap_filter]
  refine List.filterMap_congr fun k _ => ?_
  rw [get?_eq_latest?]
  cases latest? k (log .empty qs) <;> rfl

/-- The keys of a name are those under which a grammar of that name was left last. -/
theorem withName_eq_filter (qs : List Request) (name : Text) :
    (after .empty qs).withName name = (createdKeys (log .empty qs)).filter fun k =>
      (latest? k (log .empty qs)).any (·.name = name) := by
  rw [withName, entries_eq_latest?, List.filter_filterMap, List.map_filterMap,
    ← List.filterMap_eq_filter]
  refine List.filterMap_congr fun k _ => ?_
  cases hk : latest? k (log .empty qs) with
  | none => simp [Option.filter, Option.guard, hk]
  | some g => by_cases hg : g.name = name <;> simp [Option.filter, Option.guard, hk, hg]

/-- **A catalog is an ordered map that never hands out a key twice.**  Whatever
is asked of a catalog that was empty at first, and whatever is refused, it is at
any time what its log says. -/
theorem catalog_accounts (qs : List Request) : Accounts (after .empty qs) (log .empty qs) where
  increasing := Register.keys_increasing _
  below_next _ hk := Register.lt_nextKey_of_mem_keys hk
  fresh := pairwise_createdKeys _ qs
  get := get?_eq_latest? qs
  entries := entries_eq_latest? qs
  withName := withName_eq_filter qs
  create _ := ⟨_, rfl, fun _ hk => lt_nextKey_of_mem_createdKeys hk, rfl⟩
  update k old g hk := by
    rw [← get?_eq_latest?] at hk
    refine perform_update ?_ g
    by_contra hn
    rw [Register.get?_eq_none_iff.mpr hn] at hk
    cases hk
  remove k g hk := perform_remove ((get?_eq_latest? qs k).trans hk)
  refused k hk := by
    rw [← get?_eq_latest?, Register.get?_eq_none_iff] at hk
    exact perform_of_not_mem hk

end Catalog

end PhraseGrammar
