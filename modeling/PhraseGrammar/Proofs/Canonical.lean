/-
PhraseGrammar/Proofs/Canonical.lean

One text for each grammar.

The format can be written in many ways, and what is written is one of them:
the canonical form of a file is what is read from it, written out again.

    canonical bytes >>= decodeBytes = decodeBytes bytes
    canonical bytes >>= canonical   = canonical bytes

So taking the canonical form loses nothing, not even the numbers of the rules
(`decodeBytes_encodeBytes_of_decodeBytes`): a grammar that was read has its
rules numbered from 0, and that is how the rules of its text are numbered.  It
is a normal form: two files have the same one exactly when they are read alike
(`canonical_eq_iff`), and the files that are their own are those of the
grammars without hazards (`canonical_form`).
-/
import PhraseGrammar.Proofs.RoundTrip

namespace PhraseGrammar

/-- The canonical form of the bytes of a file: what is read, written out. -/
def canonical (bytes : Bytes) : Except (List (Located FormatFault)) Bytes :=
  (decodeBytes bytes).map Grammar.encodeBytes

/-! ### Reading again what was read -/

/-- A text without bad lines stands for a grammar whose rules are numbered
from 0. -/
theorem StandsFor.ofRules_eq {text : Text} {g : Grammar} (h : StandsFor text g) :
    Grammar.ofRules g.name g.rules g.headed = g := by
  have hadded := Grammar.addAll_new g.name g.headed
  exact Except.ok.inj (hadded.symm.trans h.added)

/-- What was read from bytes is read again from its own, with the same numbers. -/
theorem decodeBytes_encodeBytes_of_decodeBytes {bytes : Bytes} {g : Grammar}
    (h : decodeBytes bytes = .ok g) : decodeBytes g.encodeBytes = .ok g := by
  obtain ⟨text, -, ht⟩ := exists_text_of_decodeBytes h
  obtain ⟨-, hg⟩ := standsFor_of_decode ht
  rw [decodeBytes_encodeBytes (encodable_of_decode ht), hg.ofRules_eq]

/-! ### The canonical form -/

theorem canonical_of_decodeBytes {bytes : Bytes} {g : Grammar} (h : decodeBytes bytes = .ok g) :
    canonical bytes = .ok g.encodeBytes := by
  rw [canonical, h]
  rfl

/-- Files that cannot be read have no canonical form. -/
theorem canonical_of_error {bytes : Bytes} {faults : List (Located FormatFault)}
    (h : decodeBytes bytes = .error faults) : canonical bytes = .error faults := by
  rw [canonical, h]
  rfl

/-- The canonical form of a file is read as the file is. -/
theorem canonical_bind_decodeBytes (bytes : Bytes) :
    (canonical bytes >>= decodeBytes) = decodeBytes bytes := by
  cases h : decodeBytes bytes with
  | error faults =>
    rw [canonical_of_error h]
    rfl
  | ok g =>
    rw [canonical_of_decodeBytes h]
    exact decodeBytes_encodeBytes_of_decodeBytes h

/-- The canonical form is its own. -/
theorem canonical_bind_canonical (bytes : Bytes) :
    (canonical bytes >>= canonical) = canonical bytes := by
  cases h : decodeBytes bytes with
  | error faults =>
    rw [canonical_of_error h]
    rfl
  | ok g =>
    rw [canonical_of_decodeBytes h]
    exact canonical_of_decodeBytes (decodeBytes_encodeBytes_of_decodeBytes h)

/-- Files have the same canonical form exactly when they are read alike. -/
theorem canonical_eq_iff {a b : Bytes} : canonical a = canonical b ↔ decodeBytes a = decodeBytes b := by
  constructor
  · intro h
    rw [← canonical_bind_decodeBytes a, h, canonical_bind_decodeBytes b]
  · intro h
    rw [canonical, canonical, h]

/-- The bytes of a grammar without hazards are their own canonical form. -/
theorem canonical_encodeBytes {g : Grammar} (h : g.Encodable) :
    canonical g.encodeBytes = .ok g.encodeBytes := by
  rw [canonical_of_decodeBytes (decodeBytes_encodeBytes h)]
  -- numbering the rules anew does not change what is written
  have hsame := Grammar.equiv_iff.mp g.ofRules_equiv
  rw [Grammar.encodeBytes, Grammar.encode, hsame.1, hsame.2]
  rfl

/-- What is read from the bytes of a grammar without hazards is written as them. -/
theorem encodeBytes_of_decodeBytes {g h : Grammar} (hh : h.Encodable)
    (hg : decodeBytes h.encodeBytes = .ok g) : g.encodeBytes = h.encodeBytes := by
  have hcanonical := canonical_encodeBytes hh
  rw [canonical_of_decodeBytes hg] at hcanonical
  exact Except.ok.inj hcanonical

/-- **The canonical form is a normal form.**  Whatever is read from any bytes
has no hazard and is read again, name, rules and numbers, from the bytes that
are written of it.  So the canonical form of a file is read as the file is and
is its own canonical form; and the files that are their own canonical form are
the ones that are written of grammars without hazards. -/
theorem canonical_form (bytes : Bytes) :
    (∀ g, decodeBytes bytes = .ok g → g.Encodable ∧ decodeBytes g.encodeBytes = .ok g) ∧
    (canonical bytes >>= decodeBytes) = decodeBytes bytes ∧
    (canonical bytes >>= canonical) = canonical bytes ∧
    (canonical bytes = .ok bytes ↔ ∃ h : Grammar, h.Encodable ∧ bytes = h.encodeBytes) := by
  refine ⟨fun g hg => ?_, canonical_bind_decodeBytes bytes, canonical_bind_canonical bytes, ?_⟩
  · exact ⟨encodable_of_decodeBytes hg, decodeBytes_encodeBytes_of_decodeBytes hg⟩
  · constructor
    · intro hcanon
      cases hg : decodeBytes bytes with
      | error faults =>
        rw [canonical_of_error hg] at hcanon
        cases hcanon
      | ok g =>
        rw [canonical_of_decodeBytes hg] at hcanon
        exact ⟨g, encodable_of_decodeBytes hg, (Except.ok.inj hcanon).symm⟩
    · rintro ⟨h, hh, rfl⟩
      exact canonical_encodeBytes hh

/-- A text without an empty line, with no blanks around its arrow, is read; it
is not its own canonical form. -/
theorem canonical_form_by_hand :
    ∃ g, decodeBytes (Utf8.encode "G\nS->a".toList) = .ok g ∧
      (g.Encodable ∧ decodeBytes g.encodeBytes = .ok g) ∧
      g.encodeBytes = Utf8.encode "G\n\nS -> a".toList := by
  have hread : decodeBytes (Utf8.encode "G\nS->a".toList) =
      .ok (.ofRules ['G'] [⟨['S'], ['a']⟩] (by decide)) := by
    rw [decodeBytes_encode]
    rfl
  exact ⟨_, hread, (canonical_form _).1 _ hread, rfl⟩

end PhraseGrammar
