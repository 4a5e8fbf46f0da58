/-
PhraseGrammar/Files.lean

Paths and a tree of files to follow them in.

The tree is a list of nodes under their locations.  A location is a sequence
of names that starts at the working directory, at one of the directories above
it, or at the root; the starting points themselves are always directories.

A path is followed name by name.  Every name but the last has to lead to a
directory; the last one is where the path points, and reading and writing
decide what may be there.  Both fail with a `FileFault`, and a failed write
changes nothing.  Where several faults apply, the one that is met first on the
way along the path is reported.

A write never touches a directory, so every path that led somewhere still
leads there, and what was written is what is read:

    t.overwrite p b = .ok t' → t'.read p = .ok b        (`read_overwrite`)
    t.create p b = .ok t' → t'.read p = .ok b           (`read_create`)

Three things that a file system has are left out of the tree.  There are no
permissions: a file that can be read can be written, and every directory takes
new names.  There are no links, so no two locations share a file.  And a
location is known by its names as they are written: a path that leaves the
working directory and comes back into it by its own name is not seen to come
back, and names that differ only in case are different names.
-/
import PhraseGrammar.Text.Lines
import PhraseGrammar.Text.Utf8

namespace PhraseGrammar

/-- What a location holds. -/
inductive Node
  | file (bytes : Bytes)
  | directory

/-- Where the names of a location start. -/
inductive Base
  | above (levels : Nat)
  | root
  deriving DecidableEq

/-- A place in the tree; `above 0` is the working directory. -/
structure FileLocation where
  base : Base
  names : List Text
  deriving DecidableEq

/-- Why a file could not be read or written. -/
inductive FileFault
  | notFound
  | alreadyExists
  | notADirectory
  | isADirectory
  | nameTooLong
  | hasNul
  | other (description : String)
  deriving DecidableEq

/-- What the user is told. -/
def FileFault.message : FileFault → String
  | .notFound => "No such file or directory (os error 2)"
  | .alreadyExists => "File exists (os error 17)"
  | .notADirectory => "Not a directory (os error 20)"
  | .isADirectory => "Is a directory (os error 21)"
  | .nameTooLong => "File name too long (os error 36)"
  | .hasNul => "file name contained an unexpected NUL byte"
  | .other description => description

namespace FileLocation

/-- The directory that commands run in. -/
def working : FileLocation :=
  ⟨.above 0, []⟩

/-- What a name leads to. -/
def child (l : FileLocation) (name : Text) : FileLocation :=
  { l with names := l.names ++ [name] }

/-- The directory one level up; above the root is the root. -/
def parent (l : FileLocation) : FileLocation :=
  match l.names, l.base with
  | [], .above levels => ⟨.above (levels + 1), []⟩
  | [], .root => l
  | _ :: _, _ => { l with names := l.names.dropLast }

end FileLocation

/-- The most bytes a name can have. -/
def maxNameBytes : Nat := 255

/-- The first number of bytes that is too many for a path. -/
def pathBytesLimit : Nat := 4096

/-- Whether a name has too many bytes. -/
def isTooLongName (name : Text) : Bool :=
  maxNameBytes < (Utf8.encode name).length

/-- Nodes under their locations. -/
structure FileTree where
  nodes : List (FileLocation × Node)

/-- Where a path points: at a directory it can only lead through, or at a
name in a directory, which may be followed by a slash. -/
inductive Target
  | through
  | named (directory : FileLocation) (name : Text) (slash : Bool)

namespace FileTree

/-- What a location holds, if anything. -/
def node? (t : FileTree) (l : FileLocation) : Option Node :=
  if l.names = [] then some .directory
  else (t.nodes.find? (·.1 = l)).map (·.2)

/-- Nodes with one of them put in place, or at the end if its location is new. -/
def putNode (l : FileLocation) (n : Node) : List (FileLocation × Node) → List (FileLocation × Node)
  | [] => [(l, n)]
  | e :: es => if e.1 = l then (l, n) :: es else e :: putNode l n es

/-- The tree with a file at a location. -/
def put (t : FileTree) (l : FileLocation) (bytes : Bytes) : FileTree :=
  ⟨putNode l (.file bytes) t.nodes⟩

/-! ### Following a path -/

/-- The directory that a name leads to. -/
def enter (t : FileTree) (l : FileLocation) (name : Text) : Except FileFault FileLocation :=
  if name = ['.'] then .ok l
  else if name = ['.', '.'] then .ok l.parent
  else if isTooLongName name then .error .nameTooLong
  else
    match t.node? (l.child name) with
    | none => .error .notFound
    | some (.file _) => .error .notADirectory
    | some .directory => .ok (l.child name)

/-- The names of a path. -/
def pathNames (path : Text) : List Text :=
  (pieces '/' path).filter (· ≠ [])

/-- Where the names of a path start. -/
def pathStart (path : Text) : FileLocation :=
  if path.head? = some '/' then ⟨.root, []⟩ else .working

/-- Where a path points. -/
def target (t : FileTree) (path : Text) : Except FileFault Target :=
  if '\x00' ∈ path then .error .hasNul
  else if pathBytesLimit ≤ (Utf8.encode path).length then .error .nameTooLong
  else if path = [] then .error .notFound
  else
    match (pathNames path).getLast? with
    | none => .ok .through
    | some name => do
      let directory ← (pathNames path).dropLast.foldlM t.enter (pathStart path)
      if name = ['.'] ∨ name = ['.', '.'] then return .through
      else return .named directory name (path.getLast? = some '/')

/-! ### Reading and writing -/

/-- The bytes of the file a path points at. -/
def read (t : FileTree) (path : Text) : Except FileFault Bytes := do
  match ← t.target path with
  | .through => throw .isADirectory
  | .named directory name slash =>
    if isTooLongName name then throw .nameTooLong
    match t.node? (directory.child name) with
    | none => throw .notFound
    | some .directory => throw .isADirectory
    | some (.file bytes) => if slash then throw .notADirectory else return bytes

/-- Writes a file where there was none; whatever is there already stays. -/
def create (t : FileTree) (path : Text) (bytes : Bytes) : Except FileFault FileTree := do
  match ← t.target path with
  | .through => throw .alreadyExists
  | .named directory name slash =>
    if slash then throw .isADirectory
    if isTooLongName name then throw .nameTooLong
    match t.node? (directory.child name) with
    | some _ => throw .alreadyExists
    | none => return t.put (directory.child name) bytes

/-- Writes a file in place of what it held before. -/
def overwrite (t : FileTree) (path : Text) (bytes : Bytes) : Except FileFault FileTree := do
  match ← t.target path with
  | .through => throw .isADirectory
  | .named directory name slash =>
    if slash then throw .isADirectory
    if isTooLongName name then throw .nameTooLong
    match t.node? (directory.child name) with
    | some .directory => throw .isADirectory
    | _ => return t.put (directory.child name) bytes

/-! ### What a write leaves -/

theorem find?_putNode_self (l : FileLocation) (n : Node) (es : List (FileLocation × Node)) :
    (putNode l n es).find? (·.1 = l) = some (l, n) := by
  induction es with
  | nil => simp [putNode]
  | cons e es ih =>
    by_cases h : e.1 = l
    · simp [putNode, h]
    · simp [putNode, h, ih]

theorem find?_putNode_of_ne {l m : FileLocation} (h : m ≠ l) (n : Node)
    (es : List (FileLocation × Node)) :
    (putNode l n es).find? (·.1 = m) = es.find? (·.1 = m) := by
  induction es with
  | nil => simp [putNode, Ne.symm h]
  | cons e es ih =>
    by_cases he : e.1 = l
    · simp [putNode, he, Ne.symm h]
    · by_cases hm : e.1 = m
      · rw [putNode, if_neg he, List.find?_cons_of_pos (by simpa using hm),
          List.find?_cons_of_pos (by simpa using hm)]
      · simp [putNode, he, hm, ih]

/-- What was put at a location is there. -/
theorem node?_put_self (t : FileTree) {l : FileLocation} (h : l.names ≠ []) (bytes : Bytes) :
    (t.put l bytes).node? l = some (.file bytes) := by
  rw [node?, if_neg h, put, find?_putNode_self]
  rfl

/-- Everywhere else nothing has changed. -/
theorem node?_put_of_ne (t : FileTree) {l m : FileLocation} (h : m ≠ l) (bytes : Bytes) :
    (t.put l bytes).node? m = t.node? m := by
  rw [node?, put, find?_putNode_of_ne h]
  rfl

theorem enter_put {t : FileTree} {l m x : FileLocation} {name : Text} {bytes : Bytes}
    (hx : t.node? x ≠ some .directory) (h : t.enter l name = .ok m) :
    (t.put x bytes).enter l name = .ok m := by
  unfold enter at h ⊢
  split
  · next hn => rwa [if_pos hn] at h
  · next hn =>
    rw [if_neg hn] at h
    split
    · next hp => rwa [if_pos hp] at h
    · next hp =>
      rw [if_neg hp] at h
      split
      · next hl => rw [if_pos hl] at h; cases h
      · next hl =>
        rw [if_neg hl] at h
        by_cases hc : l.child name = x
        · rw [hc] at h
          cases hn : t.node? x with
          | none => rw [hn] at h; cases h
          | some n =>
            cases n with
            | file b => rw [hn] at h; cases h
            | directory => exact absurd hn hx
        · rwa [node?_put_of_ne t hc]

theorem foldlM_enter_put {t : FileTree} {x : FileLocation} {bytes : Bytes}
    (hx : t.node? x ≠ some .directory) {names : List Text} {l m : FileLocation}
    (h : names.foldlM t.enter l = .ok m) :
    names.foldlM (t.put x bytes).enter l = .ok m := by
  induction names generalizing l with
  | nil => exact h
  | cons name names ih =>
    rw [List.foldlM_cons] at h ⊢
    cases he : t.enter l name with
    | error e => rw [he] at h; cases h
    | ok k =>
      rw [he] at h
      rw [enter_put hx he]
      exact ih h

/-- A path that led somewhere still leads there after a write. -/
theorem target_put {t : FileTree} {x : FileLocation} {bytes : Bytes} {path : Text} {g : Target}
    (hx : t.node? x ≠ some .directory) (h : t.target path = .ok g) :
    (t.put x bytes).target path = .ok g := by
  unfold target at h ⊢
  split
  · next hn => rw [if_pos hn] at h; cases h
  · next hn =>
    rw [if_neg hn] at h
    split
    · next hl => rw [if_pos hl] at h; cases h
    · next hl =>
      rw [if_neg hl] at h
      split
      · next he => rw [if_pos he] at h; cases h
      · next he =>
        rw [if_neg he] at h
        cases hp : (pathNames path).getLast? with
        | none => rwa [hp] at h
        | some name =>
          rw [hp] at h
          cases hd : (pathNames path).dropLast.foldlM t.enter (pathStart path) with
          | error e => simp only [hd] at h; cases h
          | ok d =>
            simp only [hd] at h
            simp only [foldlM_enter_put hx hd]
            exact h

theorem names_child_ne_nil (l : FileLocation) (name : Text) : (l.child name).names ≠ [] := by
  simp [FileLocation.child]

theorem read_put {t : FileTree} {path name : Text} {directory : FileLocation} (bytes : Bytes)
    (ht : t.target path = .ok (.named directory name false)) (hn : isTooLongName name = false)
    (hx : t.node? (directory.child name) ≠ some .directory) :
    (t.put (directory.child name) bytes).read path = .ok bytes := by
  rw [read, target_put hx ht]
  simp only [bind, Except.bind, hn]
  rw [node?_put_self t (names_child_ne_nil directory name)]
  rfl

/-- A write that succeeds has met a name at the end of its path, without a
slash and not too long; what is decided there is left open. -/
theorem named_of_ok {t t' : FileTree} {path : Text} {why : FileFault}
    {k : FileLocation → Text → Except FileFault FileTree}
    (h : (do
      match ← t.target path with
      | .through => throw why
      | .named directory name slash =>
        if slash then throw .isADirectory
        if isTooLongName name then throw .nameTooLong
        k directory name) = Except.ok t') :
    ∃ directory name, t.target path = .ok (.named directory name false) ∧
      isTooLongName name = false ∧ k directory name = .ok t' := by
  cases ht : t.target path with
  | error e => rw [ht] at h; cases h
  | ok g =>
    rw [ht] at h
    cases g with
    | through => cases h
    | named directory name slash =>
      cases slash with
      | true => cases h
      | false =>
        cases hn : isTooLongName name with
        | true => simp [bind, Except.bind, hn, throw, throwThe, MonadExceptOf.throw] at h
        | false =>
          simp only [bind, Except.bind, hn] at h
          exact ⟨directory, name, rfl, hn, h⟩

/-- What overwriting does when it succeeds: the path ends in a name, at which
there is no directory, and the bytes are put there. -/
theorem overwrite_cases {t t' : FileTree} {path : Text} {bytes : Bytes}
    (h : t.overwrite path bytes = .ok t') :
    ∃ directory name, t.target path = .ok (.named directory name false) ∧
      isTooLongName name = false ∧ t.node? (directory.child name) ≠ some .directory ∧
      t' = t.put (directory.child name) bytes := by
  obtain ⟨directory, name, ht, hn, hk⟩ := named_of_ok h
  refine ⟨directory, name, ht, hn, ?_⟩
  cases hx : t.node? (directory.child name) with
  | none =>
    rw [hx] at hk
    cases hk
    exact ⟨by simp, rfl⟩
  | some n =>
    rw [hx] at hk
    cases n with
    | directory => cases hk
    | file b =>
      cases hk
      exact ⟨by simp, rfl⟩

/-- What creating does when it succeeds: the path ends in a name, at which
there is nothing, and the bytes are put there. -/
theorem create_cases {t t' : FileTree} {path : Text} {bytes : Bytes}
    (h : t.create path bytes = .ok t') :
    ∃ directory name, t.target path = .ok (.named directory name false) ∧
      isTooLongName name = false ∧ t.node? (directory.child name) = none ∧
      t' = t.put (directory.child name) bytes := by
  obtain ⟨directory, name, ht, hn, hk⟩ := named_of_ok h
  refine ⟨directory, name, ht, hn, ?_⟩
  cases hx : t.node? (directory.child name) with
  | none =>
    rw [hx] at hk
    cases hk
    exact ⟨rfl, rfl⟩
  | some n => rw [hx] at hk; cases hk

/-- Reading succeeds where the path ends in the name of a file. -/
theorem read_cases {t : FileTree} {path : Text} {bytes : Bytes} (h : t.read path = .ok bytes) :
    ∃ directory name, t.target path = .ok (.named directory name false) ∧
      isTooLongName name = false ∧ t.node? (directory.child name) = some (.file bytes) := by
  rw [read] at h
  cases ht : t.target path with
  | error why => rw [ht] at h; cases h
  | ok g =>
    rw [ht] at h
    cases g with
    | through => cases h
    | named directory name slash =>
      cases hn : isTooLongName name with
      | true => simp [bind, Except.bind, hn, throw, throwThe, MonadExceptOf.throw] at h
      | false =>
        simp only [bind, Except.bind, hn] at h
        cases hx : t.node? (directory.child name) with
        | none => rw [hx] at h; cases h
        | some n =>
          rw [hx] at h
          cases n with
          | directory => cases h
          | file b =>
            cases slash with
            | true => cases h
            | false =>
              cases h
              exact ⟨directory, name, rfl, hn, hx⟩

/-- What can be read can be written over. -/
theorem exists_overwrite {t : FileTree} {path : Text} {bytes : Bytes}
    (h : t.read path = .ok bytes) (new : Bytes) : ∃ t', t.overwrite path new = .ok t' := by
  obtain ⟨directory, name, ht, hn, hx⟩ := read_cases h
  refine ⟨t.put (directory.child name) new, ?_⟩
  rw [overwrite, ht]
  simp only [bind, Except.bind, hn]
  rw [hx]
  rfl

/-- What was written over a file is what is read. -/
theorem read_overwrite {t t' : FileTree} {path : Text} {bytes : Bytes}
    (h : t.overwrite path bytes = .ok t') : t'.read path = .ok bytes := by
  obtain ⟨directory, name, ht, hn, hx, rfl⟩ := overwrite_cases h
  exact read_put bytes ht hn hx

/-- What was written into a new file is what is read. -/
theorem read_create {t t' : FileTree} {path : Text} {bytes : Bytes}
    (h : t.create path bytes = .ok t') : t'.read path = .ok bytes := by
  obtain ⟨directory, name, ht, hn, hx, rfl⟩ := create_cases h
  exact read_put bytes ht hn (by simp [hx])

/-! ### The working directory -/

/-- The tree with the given entries in its working directory and nothing else. -/
def ofEntries (entries : List (Text × Node)) : FileTree :=
  ⟨entries.map fun e => (FileLocation.working.child e.1, e.2)⟩

/-- What is directly in the working directory. -/
def entries (t : FileTree) : List (Text × Node) :=
  t.nodes.filterMap fun n =>
    match n.1 with
    | ⟨.above 0, [name]⟩ => some (name, n.2)
    | _ => none

end FileTree

end PhraseGrammar
