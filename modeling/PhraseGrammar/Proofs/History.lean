/-
PhraseGrammar/Proofs/History.lean

What keys are good for along an editing history.

A history is any sequence of edits that succeed, told as the changes they make
(`History`).  Two laws say what becomes of the keys, and neither looks at the
order in which things happen:

    the keys that are added are the next one, the one after it, and so on
                                                    (`History.addedKeys_eq`)
    g'.keys = the keys of g and the added ones, without the removed ones
                                                          (`History.keys`)

So a key is there if and only if it was there in the beginning or was added, and
was not removed (`History.mem_keys_iff`).  A key that is gone stays gone, a key
that is new is larger than all before it, and keys that stay keep their order.
What stands under a key that stays is what was put there last (`History.get?`).

Main result: keys are stable handles over whole histories
(`keys_are_handles`).  Grammars that were made from rules or read from a text
need no place of their own in it, since it starts from any grammar.
-/
import Mathlib.Data.List.Sort
import PhraseGrammar.Proofs.Changes

namespace PhraseGrammar

/-- Edits that succeed one after the other, from one grammar to another, told
as what they change. -/
inductive History : Grammar → List Change → Grammar → Prop
  | refl (g : Grammar) : History g [] g
  | step {g h g' : Grammar} {e : Edit} {cs : List Change} :
      e.apply g = .ok h → History h cs g' → History g (e.change g :: cs) g'

/-- The keys that are handed out, oldest first. -/
def addedKeys (cs : List Change) : List (Key Rule) :=
  cs.filterMap Change.addedKey?

/-- The rule that was put under a key last, in place of another. -/
def latestReplacement? (k : Key Rule) (cs : List Change) : Option Rule :=
  (cs.filterMap (Change.replacement? k)).getLast?

/-- Rules have heads, and their keys stand in increasing order below the next
one.  The largest is the last, and each is found at its place. -/
structure Grammar.KeysInOrder (g : Grammar) : Prop where
  headed : ∀ r ∈ g.rules, r.head ≠ []
  increasing : g.keys.Pairwise (· < ·)
  below_next : ∀ k ∈ g.keys, k < g.register.nextKey
  largest : g.largestKey? = g.keys.getLast?
  largest_none : g.largestKey? = none ↔ g.rules = []
  position : ∀ i k, g.keys[i]? = some k → g.position? k = some i

theorem Grammar.keysInOrder (g : Grammar) : g.KeysInOrder where
  headed := g.headed
  increasing := g.register.keys_increasing
  below_next _ hk := Register.lt_nextKey_of_mem_keys hk
  largest := g.register.largestKey?_eq_getLast?
  largest_none := by
    rw [largestKey?, Register.largestKey?_eq_getLast?, List.getLast?_eq_none_iff]
    simp [Register.keys, rules, Register.values]
  position _ _ hk := Register.position?_eq_some_iff.mpr hk

/-! ### Lists of changes -/

theorem addedKeys_cons (c : Change) (cs : List Change) :
    addedKeys (c :: cs) = c.addedKey?.toList ++ addedKeys cs := by
  rw [addedKeys, List.filterMap_cons]
  cases c.addedKey? <;> rfl

/-- A key is handed out with a rule to stand under it. -/
theorem mem_addedKeys_iff {k : Key Rule} {cs : List Change} :
    k ∈ addedKeys cs ↔ ∃ r, .added k r ∈ cs := by
  rw [addedKeys, List.mem_filterMap]
  constructor
  · rintro ⟨c, hc, hk⟩
    cases c with
    | added key rule =>
      cases hk
      exact ⟨rule, hc⟩
    | nothing | removed | replaced => cases hk
  · rintro ⟨r, hr⟩
    exact ⟨_, hr, rfl⟩

/-- A replacement counts unless there is a later one. -/
theorem latestReplacement?_cons (k : Key Rule) (c : Change) (cs : List Change) :
    latestReplacement? k (c :: cs) = (latestReplacement? k cs).or (c.replacement? k) := by
  rw [latestReplacement?, latestReplacement?, List.filterMap_cons]
  cases c.replacement? k with
  | none => rw [Option.or_none]
  | some r =>
    rw [List.getLast?_cons]
    cases (cs.filterMap (Change.replacement? k)).getLast? <;> rfl

namespace History

variable {g g' : Grammar} {cs : List Change}

/-- One history after another is a history. -/
theorem trans {h : Grammar} {ds : List Change} (hist : History g cs h) (hist' : History h ds g') :
    History g (cs ++ ds) g' := by
  induction hist with
  | refl => exact hist'
  | step he _ ih => exact .step he (ih hist')

/-! ### The keys that are added -/

/-- As many keys are used up as are handed out. -/
theorem next (hist : History g cs g') :
    g'.register.next = g.register.next + (addedKeys cs).length := by
  induction hist with
  | refl => rfl
  | step he _ ih =>
    rw [ih, (Edit.changed_apply he).next, addedKeys_cons, List.length_append]
    omega

/-- Keys are handed out one after the other, from the next one on. -/
theorem addedKeys_eq (hist : History g cs g') :
    addedKeys cs = (List.range' g.register.next (addedKeys cs).length).map Key.mk := by
  induction hist with
  | refl => rfl
  | @step g h g' e cs he _ ih =>
    have hchanged := Edit.changed_apply he
    have hnext := hchanged.next
    rw [addedKeys_cons]
    cases hk : (e.change g).addedKey? with
    | none =>
      rw [hk] at hnext
      rw [hnext] at ih
      exact ih
    | some k =>
      rw [hk] at hnext
      rw [hnext] at ih
      rw [hchanged.eq_nextKey hk]
      simpa [List.range'_succ, Register.nextKey] using ih

/-- What is handed out was not used up before, and is afterwards. -/
theorem number_of_mem_addedKeys (hist : History g cs g') {k : Key Rule} (hk : k ∈ addedKeys cs) :
    g.register.next ≤ k.number ∧ k.number < g'.register.next := by
  rw [hist.addedKeys_eq] at hk
  obtain ⟨n, hn, rfl⟩ := List.mem_map.mp hk
  rw [hist.next]
  exact List.mem_range'_1.mp hn

/-! ### The keys that are left -/

/-- The keys after a history are those before it and those it added, in order,
without those it removed. -/
theorem keys (hist : History g cs g') :
    g'.keys = (g.keys ++ addedKeys cs).filter (.removed · ∉ cs) := by
  induction hist with
  | refl => simp [addedKeys]
  | @step g h g' e cs he hist ih =>
    have hchanged := Edit.changed_apply he
    -- what the first change removes was there before, so it is none of the later keys
    have hlater : (addedKeys cs).filter (.removed · ≠ e.change g) = addedKeys cs := by
      rw [List.filter_eq_self]
      intro k hk
      rw [decide_eq_true_eq]
      intro hremoved
      rw [← hremoved] at hchanged
      have hlt : k.number < g.register.next :=
        Register.lt_nextKey_of_mem_keys hchanged.mem_keys_of_removed
      have hle := (hist.number_of_mem_addedKeys hk).1
      have hnext := hchanged.next
      omega
    have hmid : h.keys ++ addedKeys cs =
        ((g.keys ++ (e.change g).addedKey?.toList) ++ addedKeys cs).filter
          (.removed · ≠ e.change g) := by
      rw [List.filter_append, hlater, ← hchanged.keys]
    calc g'.keys
        = (h.keys ++ addedKeys cs).filter (.removed · ∉ cs) := ih
      _ = (((g.keys ++ (e.change g).addedKey?.toList) ++ addedKeys cs).filter
            (.removed · ≠ e.change g)).filter (.removed · ∉ cs) := by
          rw [hmid]
      _ = (g.keys ++ addedKeys (e.change g :: cs)).filter (.removed · ∉ e.change g :: cs) := by
          rw [List.filter_filter, addedKeys_cons, List.append_assoc]
          refine List.filter_congr fun k _ => ?_
          simp [List.mem_cons, and_comm]

/-- A key is there if it was there before or was added, and was not removed. -/
theorem mem_keys_iff (hist : History g cs g') {k : Key Rule} :
    k ∈ g'.keys ↔ (k ∈ g.keys ∨ ∃ r, .added k r ∈ cs) ∧ .removed k ∉ cs := by
  rw [hist.keys, List.mem_filter, List.mem_append, mem_addedKeys_iff, decide_eq_true_eq]

/-- A key that is gone stays gone. -/
theorem mem_keys_of_lt (hist : History g cs g') {k : Key Rule} (hlt : k < g.register.nextKey)
    (hk : k ∈ g'.keys) : k ∈ g.keys := by
  obtain hold | hnew := (hist.mem_keys_iff.mp hk).1
  · exact hold
  · have hle := (hist.number_of_mem_addedKeys (mem_addedKeys_iff.mpr hnew)).1
    exact absurd hle (Nat.not_le.mpr hlt)

/-- No key is taken back. -/
theorem lt_nextKey (hist : History g cs g') {k : Key Rule} (hk : k ∈ g.keys) :
    k < g'.register.nextKey := by
  have hlt : k.number < g.register.next := Register.lt_nextKey_of_mem_keys hk
  have hnext := hist.next
  show k.number < g'.register.next
  omega

/-! ### The rules under the keys that are left -/

/-- The rule under a key that stays is the one that was put there last. -/
theorem get? (hist : History g cs g') {k : Key Rule} (hk : k ∈ g.keys) (hk' : k ∈ g'.keys) :
    g'.register.get? k = (latestReplacement? k cs).or (g.register.get? k) := by
  induction hist with
  | refl => rfl
  | @step g h g' e cs he hist ih =>
    have hchanged := Edit.changed_apply he
    -- it is there in between as well, or it could not have come back
    have hmid : k ∈ h.keys := by
      refine hist.mem_keys_of_lt ?_ hk'
      exact (History.step he (.refl h)).lt_nextKey hk
    rw [ih hmid hk', hchanged.get? hk hmid, latestReplacement?_cons, Option.or_assoc]

end History

/-- What becomes of keys in the course of a history from a first grammar through a
second to a third, told by what changed up to the second and since. -/
structure KeepsHandles (first : Grammar) (past : List Change) (g : Grammar)
    (since : List Change) (g' : Grammar) : Prop where
  in_order : g'.KeysInOrder
  present_iff : ∀ k, k ∈ g'.keys ↔
    (k ∈ first.keys ∨ ∃ r, .added k r ∈ past ++ since) ∧ .removed k ∉ past ++ since
  removed : ∀ k, .removed k ∈ past → k ∉ g.keys ∧ k ∉ g'.keys
  gone : ∀ k ∈ first.keys, k ∉ g.keys → k ∉ g'.keys
  larger : ∀ k r, .added k r ∈ since → ∀ j, (j ∈ first.keys ∨ ∃ s, .added j s ∈ past) → j < k
  same_order : g.keys.filter (· ∈ g'.keys) = g'.keys.filter (· ∈ g.keys)
  latest : ∀ k r, (k, r) ∈ g.entries → k ∈ g'.keys →
    (k, (latestReplacement? k since).getD r) ∈ g'.entries

/-- **Keys are stable handles.**  Take any three grammars in the course of a
history.  In the last, as in every grammar, rules have heads and their keys are
in order.  Its keys are those of the first and those that were added on the way,
without those that were removed.  A key that was removed on the way to the second
is in neither the second nor the third, and a key of the first that is gone in the
second does not come back in the third.  A key that is added after the second is
larger than every key that stood in the first or was added before.  Keys of the
second that are left in the third stand in the same order, each with the rule that
was put under it last, or the one it had. -/
theorem keys_are_handles {first g g' : Grammar} {past since : List Change}
    (hpast : History first past g) (hsince : History g since g') :
    KeepsHandles first past g since g' := by
  have hwhole := hpast.trans hsince
  constructor
  case in_order => exact g'.keysInOrder
  case present_iff => exact fun _ => hwhole.mem_keys_iff
  case removed =>
    intro k hremoved
    rw [hpast.mem_keys_iff, hwhole.mem_keys_iff]
    have hlater : .removed k ∈ past ++ since := List.mem_append_left since hremoved
    exact ⟨fun h => h.2 hremoved, fun h => h.2 hlater⟩
  case gone =>
    intro k hk hgone hk'
    exact hgone (hsince.mem_keys_of_lt (hpast.lt_nextKey hk) hk')
  case larger =>
    intro k r hadded j hj
    have hle := (hsince.number_of_mem_addedKeys (mem_addedKeys_iff.mpr ⟨r, hadded⟩)).1
    have hlt : j < g.register.nextKey := by
      obtain hfirst | hnew := hj
      · exact hpast.lt_nextKey hfirst
      · exact (hpast.number_of_mem_addedKeys (mem_addedKeys_iff.mpr hnew)).2
    exact Nat.lt_of_lt_of_le hlt hle
  case same_order =>
    -- both lists increase and have the same members
    refine (g.keysInOrder.increasing.filter _).eq_of_mem_iff
      (g'.keysInOrder.increasing.filter _) fun k => ?_
    simp [and_comm]
  case latest =>
    intro k r hentry hk'
    have hget : g.register.get? k = some r := Register.mem_entries_iff.mp hentry
    have hk : k ∈ g.keys := List.mem_map.mpr ⟨_, hentry, rfl⟩
    refine Register.mem_entries_iff.mpr ?_
    rw [hsince.get? hk hk', hget]
    cases latestReplacement? k since <;> rfl

/-- Of three rules the last is removed, another is added, and the first is
replaced: the key 2 does not come back, the key 3 is there, and the key 0 has the
new rule. -/
theorem keys_are_handles_after_removal :
    ∃ first g g' past since, History first past g ∧ History g since g' ∧
      (⟨2⟩ : Key Rule) ∈ first.keys ∧ .removed ⟨2⟩ ∈ past ∧ ⟨2⟩ ∉ g.keys ∧ ⟨2⟩ ∉ g'.keys ∧
      .added ⟨3⟩ ⟨['T'], []⟩ ∈ since ∧ (⟨2⟩ : Key Rule) < ⟨3⟩ ∧ ⟨3⟩ ∈ g'.keys ∧
      (⟨0⟩, ⟨['S'], ['x']⟩) ∈ g'.entries := by
  obtain ⟨first, hfirst⟩ : ∃ first, (Grammar.new ['G']).addAll
      [⟨['S'], ['a']⟩, ⟨['S'], ['b']⟩, ⟨['S'], ['c']⟩] = .ok first := ⟨_, rfl⟩
  obtain ⟨g, hg⟩ : ∃ g, (Edit.remove ⟨2⟩).apply first = .ok g := by
    cases hfirst
    exact ⟨_, rfl⟩
  obtain ⟨h, hh⟩ : ∃ h, (Edit.add ⟨['T'], []⟩).apply g = .ok h := by
    cases hfirst
    cases hg
    exact ⟨_, rfl⟩
  obtain ⟨g', hg'⟩ : ∃ g', (Edit.replaceAt 0 ⟨['S'], ['x']⟩).apply h = .ok g' := by
    cases hfirst
    cases hg
    cases hh
    exact ⟨_, rfl⟩
  have hpast := History.step hg (.refl g)
  have hsince := History.step hh (.step hg' (.refl g'))
  have hkept := keys_are_handles hpast hsince
  cases hfirst
  cases hg
  cases hh
  cases hg'
  refine ⟨_, _, _, _, _, hpast, hsince, by decide, List.mem_cons_self, by decide,
    hkept.gone _ (by decide) (by decide), List.mem_cons_self,
    hkept.larger _ _ List.mem_cons_self _ (.inl (by decide)), ?_, ?_⟩
  · refine (hkept.present_iff ⟨3⟩).mpr ⟨.inr ⟨⟨['T'], []⟩, ?_⟩, by decide⟩
    exact List.mem_cons_of_mem _ List.mem_cons_self
  · exact hkept.latest ⟨0⟩ ⟨['S'], ['a']⟩ (by decide) (by decide)

end PhraseGrammar
