/-
PhraseGrammar/Proofs/Entries.lean

The entries of the working directory, listed and looked up.

A listing and a look-up are two views of one list of nodes.  They agree as long
as no name is listed twice (`node?_of_mem_entries`, `mem_entries_of_node?`), and
no write makes a name stand twice (`NamedOnce.put`).

A write can only succeed under a name that a file can have.  Such a name is
usable: as a path it points at the entry of that name, so where that entry is a
file it is read (`read_of_isUsableName`) and can be overwritten
(`overwrite_of_isUsableName`).
-/
import Mathlib.Data.List.Nodup
import PhraseGrammar.Proofs.Frame

namespace PhraseGrammar

/-- A name that a file in the working directory can have. -/
structure IsUsableName (name : Text) : Prop extends IsPlainName name where
  noNul : '\x00' ∉ name
  short : isTooLongName name = false

/-- The name of an entry of the working directory, by its location. -/
def workingName? : FileLocation → Option Text
  | ⟨.above 0, [name]⟩ => some name
  | _ => none

theorem workingName?_eq_some_iff {l : FileLocation} {name : Text} :
    workingName? l = some name ↔ l = FileLocation.working.child name := by
  constructor
  · intro h
    unfold workingName? at h
    split at h
    · cases h
      rfl
    · cases h
  · rintro rfl
    rfl

/-- The directory and the name of a location are its own. -/
theorem child_eq_child_iff {l l' : FileLocation} {name name' : Text} :
    l.child name = l'.child name' ↔ l = l' ∧ name = name' := by
  obtain ⟨base, names⟩ := l
  obtain ⟨base', names'⟩ := l'
  simp only [FileLocation.child, FileLocation.mk.injEq, List.append_singleton_inj, and_assoc]

namespace FileTree

/-- No name is listed twice in the working directory. -/
def NamedOnce (t : FileTree) : Prop :=
  (t.entries.map (·.1)).Nodup

/-! ### Listing and looking up -/

theorem mem_entries_iff_mem_nodes {t : FileTree} {name : Text} {n : Node} :
    (name, n) ∈ t.entries ↔ (FileLocation.working.child name, n) ∈ t.nodes := by
  rw [entries, List.mem_filterMap]
  constructor
  · rintro ⟨⟨l, m⟩, hmem, he⟩
    split at he
    · cases he
      rename_i hl
      obtain rfl : l = FileLocation.working.child name := hl
      exact hmem
    · cases he
  · intro h
    exact ⟨_, h, rfl⟩

/-- The names that are listed are those of the locations of the nodes. -/
theorem map_fst_entries (t : FileTree) :
    t.entries.map (·.1) = (t.nodes.map (·.1)).filterMap workingName? := by
  rw [entries, List.map_filterMap, List.filterMap_map]
  refine List.filterMap_congr fun e _ => ?_
  rw [Function.comp_apply]
  split
  · next name hl =>
    have hw : workingName? e.1 = some name := workingName?_eq_some_iff.mpr hl
    rw [hw, Option.map_some]
  · next hl =>
    cases hw : workingName? e.1 with
    | none => rfl
    | some name => exact (hl name (workingName?_eq_some_iff.mp hw)).elim

theorem map_fst_putNode (l : FileLocation) (n : Node) (es : List (FileLocation × Node)) :
    (putNode l n es).map (·.1) =
      if l ∈ es.map (·.1) then es.map (·.1) else es.map (·.1) ++ [l] := by
  induction es with
  | nil => rfl
  | cons e es ih =>
    by_cases he : e.1 = l
    · simp [putNode, he]
    · rw [putNode, if_neg he, List.map_cons, List.map_cons, ih]
      by_cases hl : l ∈ es.map (·.1)
      · rw [if_pos hl, if_pos (List.mem_cons_of_mem _ hl)]
      · rw [if_neg hl, if_neg (by simpa [Ne.symm he] using hl), List.cons_append]

/-- A name that was there keeps its place, and a new one comes last. -/
theorem NamedOnce.put {t : FileTree} (h : t.NamedOnce) (l : FileLocation) (bytes : Bytes) :
    (t.put l bytes).NamedOnce := by
  unfold NamedOnce at h ⊢
  rw [map_fst_entries] at h
  rw [map_fst_entries, FileTree.put, map_fst_putNode]
  split
  · exact h
  · next hl =>
    rw [List.filterMap_append, List.nodup_append]
    refine ⟨h, ?_, ?_⟩
    · cases hw : workingName? l <;> simp [hw]
    · rintro name hname _ hlast rfl
      obtain ⟨k, hk, hkname⟩ := List.mem_filterMap.mp hname
      have hlname : workingName? l = some name := by simpa [eq_comm] using hlast
      rw [workingName?_eq_some_iff] at hkname hlname
      exact hl (hlname ▸ hkname ▸ hk)

/-- What is looked up is listed. -/
theorem mem_entries_of_node? {t : FileTree} {name : Text} {n : Node}
    (h : t.node? (FileLocation.working.child name) = some n) : (name, n) ∈ t.entries := by
  rw [node?, if_neg (names_child_ne_nil _ _), Option.map_eq_some_iff] at h
  obtain ⟨e, he, rfl⟩ := h
  have hl := List.find?_some he
  rw [decide_eq_true_eq] at hl
  rw [mem_entries_iff_mem_nodes, ← hl]
  exact List.mem_of_find?_eq_some he

/-- What is listed is looked up, where no name is listed twice. -/
theorem node?_of_mem_entries {t : FileTree} (ht : t.NamedOnce) {name : Text} {n : Node}
    (h : (name, n) ∈ t.entries) : t.node? (FileLocation.working.child name) = some n := by
  have hsome : (t.node? (FileLocation.working.child name)).isSome := by
    rw [node?, if_neg (names_child_ne_nil _ _), Option.isSome_map, List.find?_isSome]
    exact ⟨_, mem_entries_iff_mem_nodes.mp h, by simp⟩
  obtain ⟨m, hm⟩ := Option.isSome_iff_exists.mp hsome
  have hsame := List.inj_on_of_nodup_map ht h (mem_entries_of_node? hm) rfl
  rw [hm, (Prod.mk.inj hsame).2]

/-! ### Names that files can have -/

theorem mem_of_mem_pieces {α : Type} [DecidableEq α] {sep a : α} {s p : List α}
    (hp : p ∈ pieces sep s) (ha : a ∈ p) : a ∈ s := by
  induction s generalizing p with
  | nil =>
    obtain rfl : p = [] := by simpa [pieces] using hp
    exact ha
  | cons c s ih =>
    rw [pieces] at hp
    split at hp
    · rcases List.mem_cons.mp hp with rfl | hp
      · cases ha
      · exact List.mem_cons_of_mem _ (ih hp ha)
    · cases hs : pieces sep s with
      | nil => exact absurd hs (pieces_ne_nil s)
      | cons q qs =>
        rw [hs] at hp ih
        rcases List.mem_cons.mp hp with rfl | hp
        · rcases List.mem_cons.mp ha with rfl | ha
          · exact List.mem_cons_self
          · exact List.mem_cons_of_mem _ (ih List.mem_cons_self ha)
        · exact List.mem_cons_of_mem _ (ih (List.mem_cons_of_mem _ hp) ha)

/-- A path that points at a name ends in it. -/
theorem isUsableName_of_target {t : FileTree} {path name : Text} {directory : FileLocation}
    {slash : Bool} (h : t.target path = .ok (.named directory name slash))
    (hshort : isTooLongName name = false) : IsUsableName name := by
  unfold target at h
  split at h
  · cases h
  next hnul =>
  split at h
  · cases h
  split at h
  · cases h
  cases hlast : (pathNames path).getLast? with
  | none => rw [hlast] at h; cases h
  | some last =>
    rw [hlast] at h
    have hmem : last ∈ pathNames path := List.mem_of_getLast? hlast
    rw [pathNames, List.mem_filter] at hmem
    cases hd : (pathNames path).dropLast.foldlM t.enter (pathStart path) with
    | error e => simp only [hd] at h; cases h
    | ok d =>
      simp only [hd, bind, Except.bind, pure, Except.pure] at h
      split at h
      · cases h
      · next hdots =>
        cases h
        exact {
          ne_nil := by simpa using hmem.2
          slash := sep_not_mem_of_mem_pieces hmem.1
          ne_here := fun hh => hdots (Or.inl hh)
          ne_above := fun hh => hdots (Or.inr hh)
          noNul := fun hh => hnul (mem_of_mem_pieces hmem.1 hh)
          short := hshort }

/-- What was written has a name that a file can have. -/
theorem isUsableName_of_write {t t' : FileTree} {w : Write} (h : t.write w = .ok t')
    {directory : FileLocation} {name : Text} {slash : Bool}
    (ht : t.target w.file = .ok (.named directory name slash)) : IsUsableName name := by
  refine isUsableName_of_target ht ?_
  obtain ⟨d, n, ht', hshort⟩ : ∃ d n, t.target w.file = .ok (.named d n false) ∧
      isTooLongName n = false := by
    obtain ⟨file, bytes, mode⟩ := w
    cases mode with
    | create =>
      obtain ⟨d, n, hd, hs, -⟩ := create_cases h
      exact ⟨d, n, hd, hs⟩
    | replace =>
      obtain ⟨d, n, hd, hs, -⟩ := overwrite_cases h
      exact ⟨d, n, hd, hs⟩
  rw [ht] at ht'
  cases ht'
  exact hshort

/-- A usable name points at its entry in every tree. -/
theorem target_of_isUsableName {name : Text} (h : IsUsableName name) (t : FileTree) :
    t.target name = .ok (.named .working name false) := by
  have hshort : ¬ pathBytesLimit ≤ (Utf8.encode name).length := by
    have hname : ¬ maxNameBytes < (Utf8.encode name).length := of_decide_eq_false h.short
    simp only [maxNameBytes] at hname
    simp only [pathBytesLimit]
    omega
  rw [target_of_isPlainName h.toIsPlainName, if_neg h.noNul, if_neg hshort]

theorem read_of_isUsableName {t : FileTree} {name : Text} {bytes : Bytes} (h : IsUsableName name)
    (hn : t.node? (FileLocation.working.child name) = some (.file bytes)) :
    t.read name = .ok bytes := by
  rw [read, target_of_isUsableName h]
  simp only [bind, Except.bind, h.short]
  rw [hn]
  rfl

theorem overwrite_of_isUsableName {t : FileTree} {name : Text} {old : Bytes}
    (h : IsUsableName name)
    (hn : t.node? (FileLocation.working.child name) = some (.file old)) (bytes : Bytes) :
    t.overwrite name bytes = .ok (t.put (FileLocation.working.child name) bytes) := by
  rw [overwrite, target_of_isUsableName h]
  simp only [bind, Except.bind, h.short]
  rw [hn]
  rfl

/-- What is read is the file that the path points at. -/
theorem node?_of_read {t : FileTree} {path name : Text} {directory : FileLocation} {slash : Bool}
    {bytes : Bytes} (ht : t.target path = .ok (.named directory name slash))
    (hr : t.read path = .ok bytes) : t.node? (directory.child name) = some (.file bytes) := by
  obtain ⟨directory', name', ht', -, hx⟩ := read_cases hr
  rw [ht] at ht'
  cases ht'
  exact hx

/-- What is read under a usable name is listed. -/
theorem mem_entries_of_read {t : FileTree} {name : Text} {bytes : Bytes} (h : IsUsableName name)
    (hr : (t.read name).toOption = some bytes) : (name, .file bytes) ∈ t.entries := by
  cases hb : t.read name with
  | error why => rw [hb] at hr; cases hr
  | ok b =>
    rw [hb] at hr
    cases hr
    exact mem_entries_of_node? (node?_of_read (target_of_isUsableName h t) hb)

end FileTree

end PhraseGrammar
