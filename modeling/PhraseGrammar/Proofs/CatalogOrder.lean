/-
PhraseGrammar/Proofs/CatalogOrder.lean

Actions on different grammars of a catalog do not depend on their order.

An action is addressed to a key, under which there may be a grammar or nothing.
Everything it does is local to that key (`Catalog.local_act`):

    what is answered is a function of what is under the key,
    the entries are those from before, with the one of the key replaced, or
      dropped, or as it was,
    no key is handed out.

So two actions on different keys work on different entries, wherever these
stand, and each is answered as if the other had not been made
(`Local.get?_of_ne`).  Entering a grammar adds an entry at the end, under a key
of its own, and is just as far from an action on any other key.

Adding a rule to a grammar of a catalog reads the grammar, adds the rule and
puts the result back under the key.  By induction, rules that are added one
after the other end up behind those of the grammar, in the order given
(`local_actAll_addRule`).

Main result: `acts_apart`.  It asks nothing of the catalog, since the keys of a
register increase by its type.
-/
import PhraseGrammar.Proofs.CatalogHistory

namespace PhraseGrammar

namespace Catalog

/-! ### Actions -/

/-- What can be done to the grammar under a key. -/
inductive Action
  | update (g : Grammar)
  | remove
  | addRule (r : Rule)

/-- Carries out an action on a key; one that is refused leaves the catalog as it
is. -/
def act (c : Catalog) (k : Key Grammar) : Action → Answer × Catalog
  | .update g => c.perform (.update k g)
  | .remove => c.perform (.remove k)
  | .addRule r =>
    match c.addRule k r with
    | .ok c' => (.updated, c')
    | .error why => (.refused why, c)

/-- Carries out actions on a key one after the other. -/
def actAll (c : Catalog) (k : Key Grammar) : List Action → List Answer × Catalog
  | [] => ([], c)
  | a :: as => ((c.act k a).1 :: ((c.act k a).2.actAll k as).1, ((c.act k a).2.actAll k as).2)

namespace Action

/-- What is answered, by what is under the key. -/
def answer (k : Key Grammar) : Action → Option Grammar → Answer
  | _, none => .refused (.unknownGrammar k)
  | .update _, some _ => .updated
  | .remove, some g => .removed g
  | .addRule r, some g =>
    match g.add r with
    | .ok _ => .updated
    | .error why => .refused (.refused why)

/-- What is left of the grammar under the key. -/
def leaves (g : Grammar) : Action → Option Grammar
  | .update h => some h
  | .remove => none
  | .addRule r => some ((g.add r).toOption.getD g)

/-- What is left of an entry by an action on a key. -/
def onEntry (k : Key Grammar) (a : Action) (e : Key Grammar × Grammar) :
    Option (Key Grammar × Grammar) :=
  if e.1 = k then (a.leaves e.2).map (k, ·) else some e

variable {k l : Key Grammar} {a b : Action} {e : Key Grammar × Grammar}

theorem onEntry_of_ne (h : e.1 ≠ k) : a.onEntry k e = some e :=
  if_neg h

theorem onEntry_of_eq (h : e.1 = k) : a.onEntry k e = (a.leaves e.2).map (k, ·) :=
  if_pos h

/-- What is left of an entry keeps its key. -/
theorem key_of_onEntry {e' : Key Grammar × Grammar} (h : a.onEntry k e = some e') : e'.1 = e.1 := by
  by_cases hk : e.1 = k
  · rw [onEntry_of_eq hk, Option.map_eq_some_iff] at h
    obtain ⟨g, -, rfl⟩ := h
    exact hk.symm
  · rw [onEntry_of_ne hk] at h
    exact congrArg Prod.fst (Option.some.inj h).symm

/-- Actions on different keys leave the same of an entry, in either order. -/
theorem onEntry_comm (h : k ≠ l) (e : Key Grammar × Grammar) :
    (a.onEntry k e).bind (b.onEntry l) = (b.onEntry l e).bind (a.onEntry k) := by
  -- at most one of the keys is that of the entry
  by_cases hk : e.1 = k
  · have hl : e.1 ≠ l := fun hl => h (hk.symm.trans hl)
    rw [onEntry_of_ne hl, Option.bind_some]
    cases ha : a.onEntry k e with
    | none => rfl
    | some e' => rw [Option.bind_some, onEntry_of_ne fun hl' => hl ((key_of_onEntry ha).symm.trans hl')]
  · rw [onEntry_of_ne hk, Option.bind_some]
    cases hb : b.onEntry l e with
    | none => rfl
    | some e' => rw [Option.bind_some, onEntry_of_ne fun hk' => hk ((key_of_onEntry hb).symm.trans hk')]

end Action

/-! ### What an action can do -/

/-- An action on a key did what it does at the entry of the key, and nothing
else. -/
structure Local (c : Catalog) (k : Key Grammar) (a : Action) (answer : Answer) (c' : Catalog) :
    Prop where
  answer : answer = a.answer k (c.get? k)
  entries : c'.entries = c.entries.filterMap (a.onEntry k)
  next : c'.next = c.next

section

variable {c c' : Catalog} {k l : Key Grammar} {a : Action}

/-- Nothing is left otherwise than it was if there is nothing under the key. -/
theorem filterMap_onEntry_of_not_mem (h : k ∉ c.keys) (a : Action) :
    c.entries.filterMap (a.onEntry k) = c.entries := by
  have hkept : ∀ e ∈ c.entries, a.onEntry k e = some e := by
    intro e he
    refine Action.onEntry_of_ne ?_
    rintro rfl
    exact h (List.mem_map.mpr ⟨e, he, rfl⟩)
  rw [List.filterMap_congr hkept, List.filterMap_some]

/-- The one entry of a key has what is found under it. -/
theorem entry_of_get? {g : Grammar} (hg : c.get? k = some g) {e : Key Grammar × Grammar}
    (he : e ∈ c.entries) (hk : e.1 = k) : e.2 = g := by
  obtain ⟨j, h⟩ := e
  obtain rfl : j = k := hk
  have hfound := Register.mem_entries_iff.mp he
  rw [hg] at hfound
  exact (Option.some.inj hfound).symm

/-- What is put under a key that is present is what is left of its entry. -/
theorem filterMap_onEntry_of_leaves {g h : Grammar} (hg : c.get? k = some g)
    (ha : a.leaves g = some h) :
    c.entries.filterMap (a.onEntry k) = c.entries.map fun e => if e.1 = k then (k, h) else e := by
  rw [← List.filterMap_eq_map']
  refine List.filterMap_congr fun e he => ?_
  by_cases hk : e.1 = k
  · rw [Action.onEntry_of_eq hk, entry_of_get? hg he hk, ha, if_pos hk]
    rfl
  · rw [Action.onEntry_of_ne hk, if_neg hk]

/-- Adding a rule to a grammar is putting what it becomes under its key. -/
theorem act_addRule_of_ok {g h : Grammar} {r : Rule} (hg : c.get? k = some g)
    (hr : g.add r = .ok h) : c.act k (.addRule r) = c.act k (.update h) := by
  have hadd : c.addRule k r = c.update k h := by simp only [addRule, hg, hr]
  simp only [act, hadd]
  rfl

/-- A rule that the grammar refuses is refused. -/
theorem act_addRule_of_error {g : Grammar} {r : Rule} {why : EditError} (hg : c.get? k = some g)
    (hr : g.add r = .error why) : c.act k (.addRule r) = (.refused (.refused why), c) := by
  have hadd : c.addRule k r = .error (.refused why) := by simp only [addRule, hg, hr]
  rw [act, hadd]

/-- What is left of a grammar to which a rule was added, or which refused it. -/
theorem leaves_addRule {g : Grammar} {r : Rule} {result : Except EditError Grammar}
    (hr : g.add r = result) : (Action.addRule r).leaves g = some (result.toOption.getD g) := by
  rw [Action.leaves, hr]

/-- **What an action can do.** -/
theorem local_act (c : Catalog) (k : Key Grammar) (a : Action) :
    Local c k a (c.act k a).1 (c.act k a).2 := by
  cases hg : c.get? k with
  | none =>
    have hk : k ∉ c.keys := Register.get?_eq_none_iff.mp hg
    obtain ⟨hupdate, hremove⟩ := perform_of_not_mem hk
    have hact : c.act k a = (.refused (.unknownGrammar k), c) := by
      cases a with
      | update g => exact hupdate g
      | remove => exact hremove
      | addRule r =>
        have hadd : c.addRule k r = .error (.unknownGrammar k) := by rw [addRule, hg]
        rw [act, hadd]
    rw [hact]
    refine ⟨?_, (filterMap_onEntry_of_not_mem hk a).symm, rfl⟩
    rw [hg]
    cases a <;> rfl
  | some g =>
    have hk : k ∈ c.keys := by
      by_contra hk
      rw [Register.get?_eq_none_iff.mpr hk] at hg
      cases hg
    cases a with
    | update h =>
      obtain ⟨c', hc', hentries, hnext⟩ := perform_update hk h
      rw [act, hc']
      refine ⟨by rw [hg]; rfl, ?_, hnext⟩
      rw [filterMap_onEntry_of_leaves hg rfl]
      exact hentries
    | remove =>
      obtain ⟨c', hc', hentries, hnext⟩ := perform_remove hg
      rw [act, hc']
      refine ⟨by rw [hg]; rfl, ?_, hnext⟩
      show c'.entries = _
      rw [hentries, ← List.filterMap_eq_filter]
      refine List.filterMap_congr fun e _ => ?_
      by_cases he : e.1 = k <;> simp [Action.onEntry, Action.leaves, Option.guard, he]
    | addRule r =>
      cases hr : g.add r with
      | error why =>
        rw [act_addRule_of_error hg hr]
        refine ⟨by rw [hg]; simp only [Action.answer, hr], ?_, rfl⟩
        -- the grammar that is left is the one that is there
        rw [filterMap_onEntry_of_leaves hg (leaves_addRule hr)]
        refine (List.map_id _).symm.trans (List.map_congr_left fun e he => ?_)
        split
        · next hek => exact Prod.ext hek (entry_of_get? hg he hek)
        · rfl
      | ok h =>
        obtain ⟨c', hc', hentries, hnext⟩ := perform_update hk h
        rw [act_addRule_of_ok hg hr, act, hc']
        refine ⟨by rw [hg]; simp only [Action.answer, hr], ?_, hnext⟩
        rw [filterMap_onEntry_of_leaves hg (leaves_addRule hr)]
        exact hentries

namespace Local

variable {answer : Answer}

/-- Under every other key there is what was there. -/
theorem get?_of_ne (h : Local c k a answer c') (hl : l ≠ k) : c'.get? l = c.get? l := by
  ext g
  rw [← Register.mem_entries_iff, ← Register.mem_entries_iff, h.entries, List.mem_filterMap]
  constructor
  · rintro ⟨e, he, hle⟩
    have hek : e.1 ≠ k := fun hek => hl ((Action.key_of_onEntry hle).trans hek)
    rw [Action.onEntry_of_ne hek] at hle
    rwa [← Option.some.inj hle]
  · exact fun hle => ⟨_, hle, Action.onEntry_of_ne hl⟩

/-- Under the key there is what is left of what was there. -/
theorem get?_self (h : Local c k a answer c') : c'.get? k = (c.get? k).bind a.leaves := by
  ext g
  rw [← Register.mem_entries_iff, h.entries, List.mem_filterMap, Option.bind_eq_some_iff]
  constructor
  · rintro ⟨e, he, hle⟩
    have hek : e.1 = k := (Action.key_of_onEntry hle).symm
    rw [Action.onEntry_of_eq hek, Option.map_eq_some_iff] at hle
    obtain ⟨g', hg', heq⟩ := hle
    obtain rfl : g' = g := congrArg Prod.snd heq
    exact ⟨e.2, Register.mem_entries_iff.mp (hek ▸ he), hg'⟩
  · rintro ⟨g', hg', hleft⟩
    exact ⟨(k, g'), Register.mem_entries_iff.mpr hg', (Action.onEntry_of_eq rfl).trans (by rw [hleft]; rfl)⟩

/-- The keys stay as they are, if something is left. -/
theorem keys (h : Local c k a answer c') (ha : ∀ g, (a.leaves g).isSome) : c'.keys = c.keys := by
  rw [Register.keys, Register.keys, h.entries, List.map_filterMap, ← List.filterMap_eq_map']
  refine List.filterMap_congr fun e _ => ?_
  by_cases hk : e.1 = k
  · obtain ⟨g, hg⟩ := Option.isSome_iff_exists.mp (ha e.2)
    rw [Action.onEntry_of_eq hk, hg, hk]
    rfl
  · rw [Action.onEntry_of_ne hk]
    rfl

end Local

end

/-! ### Two actions -/

/-- Two actions on two keys are answered the same in either order, and leave the
same catalog. -/
structure Commute (c : Catalog) (k l : Key Grammar) (a b : Action) : Prop where
  first : ((c.act l b).2.act k a).1 = (c.act k a).1
  second : ((c.act k a).2.act l b).1 = (c.act l b).1
  catalog : ((c.act k a).2.act l b).2 = ((c.act l b).2.act k a).2

/-- An action and the entry of a grammar are answered the same in either order,
with the same key, and leave the same catalog. -/
structure CommuteCreate (c : Catalog) (k : Key Grammar) (a : Action) (g : Grammar) : Prop where
  action : ((c.create g).2.act k a).1 = (c.act k a).1
  created : ((c.act k a).2.create g).1 = (c.create g).1
  catalog : ((c.act k a).2.create g).2 = ((c.create g).2.act k a).2

theorem commute {k l : Key Grammar} (h : k ≠ l) (c : Catalog) (a b : Action) :
    Commute c k l a b := by
  have ha := c.local_act k a
  have hb := c.local_act l b
  have hab := (c.act k a).2.local_act l b
  have hba := (c.act l b).2.local_act k a
  refine ⟨?_, ?_, Register.ext ?_ ?_⟩
  · rw [hba.answer, ha.answer, hb.get?_of_ne h]
  · rw [hab.answer, hb.answer, ha.get?_of_ne h.symm]
  · rw [hab.entries, hba.entries, ha.entries, hb.entries, List.filterMap_filterMap,
      List.filterMap_filterMap]
    exact List.filterMap_congr fun e _ => Action.onEntry_comm h e
  · rw [hab.next, hba.next, ha.next, hb.next]

theorem commuteCreate {c : Catalog} {k : Key Grammar} (h : k ≠ c.nextKey) (a : Action)
    (g : Grammar) : CommuteCreate c k a g := by
  have ha := c.local_act k a
  have hga := (c.create g).2.local_act k a
  have hkey : (c.act k a).2.nextKey = c.nextKey := congrArg Key.mk ha.next
  have hpush : (c.create g).2 = c.push g := rfl
  refine ⟨?_, hkey, Register.ext ?_ ?_⟩
  · rw [hga.answer, ha.answer, hpush, Register.get?_push, if_neg h]
  · -- the entry at the end is not the one of the key
    have hlast : a.onEntry k (c.nextKey, g) = some (c.nextKey, g) := Action.onEntry_of_ne h.symm
    rw [hga.entries]
    show (c.act k a).2.entries ++ [((c.act k a).2.nextKey, g)] =
      (c.entries ++ [(c.nextKey, g)]).filterMap (a.onEntry k)
    rw [hkey, ha.entries, List.filterMap_append, List.filterMap_cons, hlast]
    rfl
  · rw [hga.next]
    show (c.act k a).2.next + 1 = c.next + 1
    rw [ha.next]

/-! ### Rules added one after the other -/

/-- What is answered when a rule is added to a grammar. -/
def ruleAnswer (r : Rule) : Answer :=
  if r.head = [] then .refused (.refused .emptyHead) else .updated

/-- Rules were added to the grammar under a key.  Those with a head are behind
the ones that were there, in their order; the others were refused; and nothing
else in the catalog has changed. -/
structure RulesAdded (c : Catalog) (k : Key Grammar) (g : Grammar) (rules : List Rule)
    (answers : List Answer) (c' : Catalog) : Prop where
  answers : answers = rules.map ruleAnswer
  grammar : ∃ h, c'.get? k = some h ∧ h.name = g.name ∧
    h.rules = g.rules ++ rules.filter (·.head ≠ [])
  others : ∀ l, l ≠ k → c'.get? l = c.get? l
  keys : c'.keys = c.keys
  next : c'.next = c.next

/-- A rule is added at the end, or refused for its empty head. -/
theorem add_cases (g : Grammar) (r : Rule) :
    (r.head = [] ∧ g.add r = .error .emptyHead) ∨
      r.head ≠ [] ∧ ∃ h, g.add r = .ok h ∧ h.name = g.name ∧ h.rules = g.rules ++ [r] := by
  by_cases hr : r.head = []
  · exact Or.inl ⟨hr, dif_pos hr⟩
  · obtain ⟨h, hh, hname, hreg⟩ := g.add_of_headed hr
    refine Or.inr ⟨hr, h, hh, hname, ?_⟩
    rw [Grammar.rules, hreg, Register.values_push]
    rfl

/-- Rules that are added to a grammar one after the other are all in it. -/
theorem local_actAll_addRule {c : Catalog} {k : Key Grammar} {g : Grammar} (hg : c.get? k = some g)
    (rules : List Rule) :
    RulesAdded c k g rules (c.actAll k (rules.map .addRule)).1
      (c.actAll k (rules.map .addRule)).2 := by
  induction rules generalizing c g with
  | nil => exact ⟨rfl, ⟨g, hg, rfl, (List.append_nil _).symm⟩, fun _ _ => rfl, rfl, rfl⟩
  | cons r rules ih =>
    have hlocal := c.local_act k (.addRule r)
    have hself := hlocal.get?_self
    have hkeys := hlocal.keys fun _ => rfl
    have hanswer := hlocal.answer
    rw [hg, Option.bind_some, Action.leaves] at hself
    rw [hg] at hanswer
    have hrest := ih hself
    have hothers : ∀ l, l ≠ k →
        ((c.act k (.addRule r)).2.actAll k (rules.map .addRule)).2.get? l = c.get? l :=
      fun l hl => (hrest.others l hl).trans (hlocal.get?_of_ne hl)
    obtain ⟨h, hh, hname, hrules⟩ := hrest.grammar
    -- the rest is added to what this rule has made of the grammar
    obtain ⟨hr, hadd⟩ | ⟨hr, g', hadd, hname', hrules'⟩ := add_cases g r
    · simp only [hadd, Except.toOption, Option.getD_none] at hname hrules
      refine ⟨?_, ⟨h, hh, hname, ?_⟩, hothers, hrest.keys.trans hkeys, hrest.next.trans hlocal.next⟩
      · show (c.act k (.addRule r)).1 :: _ = ruleAnswer r :: _
        rw [hrest.answers, hanswer, ruleAnswer, if_pos hr]
        simp only [Action.answer, hadd]
      · rw [hrules, List.filter_cons_of_neg (by simpa using hr)]
    · simp only [hadd, Except.toOption, Option.getD_some] at hname hrules
      refine ⟨?_, ⟨h, hh, hname.trans hname', ?_⟩, hothers, hrest.keys.trans hkeys,
        hrest.next.trans hlocal.next⟩
      · show (c.act k (.addRule r)).1 :: _ = ruleAnswer r :: _
        rw [hrest.answers, hanswer, ruleAnswer, if_neg hr]
        simp only [Action.answer, hadd]
      · rw [hrules, hrules', List.filter_cons_of_pos (by simpa using hr), List.append_assoc]
        rfl

/-! ### Actions apart -/

/-- Actions on different grammars do not get into each other's way, and no rule
that is added is lost. -/
structure ActsApart (c : Catalog) : Prop where
  commute : ∀ (k l : Key Grammar) (a b : Action), k ≠ l → Commute c k l a b
  create : ∀ (k : Key Grammar) (a : Action) (g : Grammar), k ≠ (c.create g).1 →
    CommuteCreate c k a g
  addRules : ∀ (k : Key Grammar) (g : Grammar), c.get? k = some g → ∀ rules : List Rule,
    RulesAdded c k g rules (c.actAll k (rules.map .addRule)).1
      (c.actAll k (rules.map .addRule)).2
  noneLost : ∀ (k : Key Grammar) (g : Grammar), c.get? k = some g → ∀ rules : List Rule,
    (∀ r ∈ rules, r.head ≠ []) →
      ∃ h, (c.actAll k (rules.map .addRule)).2.get? k = some h ∧ h.rules = g.rules ++ rules

/-- **Actions on different grammars are independent.**  In every catalog, two
actions on different keys, under which there may be grammars or nothing, are
answered the same in either order and leave the same catalog, with the same
entries in the same order and the same next key.  So are an action and the entry
of a grammar under another key.  Rules that are added one after the other to a
grammar of the catalog are behind its own in the end, none of them lost. -/
theorem acts_apart (c : Catalog) : ActsApart c where
  commute _ _ a b h := commute h c a b
  create _ a g h := commuteCreate h a g
  addRules _ _ hg rules := local_actAll_addRule hg rules
  noneLost k g hg rules headed := by
    obtain ⟨h, hh, -, hrules⟩ := (local_actAll_addRule hg rules).grammar
    refine ⟨h, hh, ?_⟩
    rw [hrules, List.filter_eq_self.mpr fun r hr => by simpa using headed r hr]

/-- One grammar is taken out and a rule is added to the one behind it. -/
theorem acts_apart_moving_up :
    ∃ c : Catalog, c.get? ⟨0⟩ = some (.new ['G']) ∧ c.get? ⟨1⟩ = some (.new ['H']) ∧
      Commute c ⟨0⟩ ⟨1⟩ .remove (.addRule ⟨['S'], ['a']⟩) :=
  ⟨(Register.empty.push (.new ['G'])).push (.new ['H']), rfl, rfl,
    (acts_apart _).commute _ _ _ _ (by decide)⟩

end Catalog

end PhraseGrammar
