/-
PhraseGrammar/Proofs/ListingLines.lean

The lines of a listing.

A listing is one string with line feeds in it; a user reads it line by line.
Where the grammar has no hazard, no name, head or body breaks a line, so the
lines are those that were put together (`lines_listing`), and the rule at a
position is on the line of its number (`getElem?_lines_listing`).

An empty body is shown as `λ`, and so is the body that is the letter `λ`
(`Rule.listed_eq_lambda_iff`).
-/
import PhraseGrammar.Listing
import PhraseGrammar.Proofs.RoundTrip

namespace PhraseGrammar

/-! ### Strings of lines -/

section Glue

variable {α : Type} {sep : α}

theorem intercalate_eq_glue (ps : List (List α)) : [sep].intercalate ps = glue sep ps := by
  match ps with
  | [] => rfl
  | [p] => exact List.intercalate_singleton
  | p :: q :: ps =>
    rw [List.intercalate_cons_cons, intercalate_eq_glue (q :: ps), glue, List.append_assoc,
      List.singleton_append]

/-- A separator at the end is an empty piece more. -/
theorem glue_append_sep {ps : List (List α)} (h : ps ≠ []) :
    glue sep ps ++ [sep] = glue sep (ps ++ [[]]) := by
  match ps with
  | [] => exact absurd rfl h
  | [p] => rfl
  | p :: q :: ps =>
    rw [glue, List.append_assoc, List.cons_append, glue_append_sep (List.cons_ne_nil q ps)]
    rfl

end Glue

/-- Lines that are printed one after the other are the lines that are seen, and
nothing is on the line after the last. -/
theorem lines_intercalate {ls : List String} (hne : ls ≠ []) (h : ∀ l ∈ ls, '\n' ∉ l.toList) :
    lines ("\n".intercalate ls ++ "\n").toList = ls.map String.toList ++ [[]] := by
  have hglue : ("\n".intercalate ls ++ "\n").toList = glue '\n' (ls.map String.toList ++ [[]]) := by
    rw [String.toList_append, String.toList_intercalate,
      show "\n".toList = ['\n'] from rfl, intercalate_eq_glue,
      glue_append_sep (by simpa using hne)]
  rw [hglue]
  refine pieces_glue (by simp) fun l hl => ?_
  rcases List.mem_append.mp hl with hl | hl
  · obtain ⟨l, hmem, rfl⟩ := List.mem_map.mp hl
    exact h l hmem
  · obtain rfl := List.mem_singleton.mp hl
    exact List.not_mem_nil

/-! ### The lines of rules -/

theorem getElem?_listedFrom (number : Nat) (rs : List Rule) (i : Nat) :
    (listedFrom number rs)[i]? = rs[i]?.map (Rule.listed (number + i)) := by
  induction rs generalizing number i with
  | nil => rfl
  | cons r rs ih =>
    cases i with
    | zero => rfl
    | succ i => rw [listedFrom, List.getElem?_cons_succ, ih, List.getElem?_cons_succ,
        Nat.add_right_comm, Nat.add_assoc]

theorem newline_not_mem_toDigits (n : Nat) : '\n' ∉ Nat.toDigits 10 n := by
  intro h
  exact absurd (Nat.isDigit_of_mem_toDigits (by decide) (by decide) h) (by decide)

namespace Rule

/-- The body is shown as `λ` when it is empty or is that letter. -/
theorem shownBody_eq_lambdaSign_iff {r : Rule} :
    r.shownBody = lambdaSign ↔ r.body = [] ∨ r.body = lambdaSign := by
  rw [shownBody]
  split
  · next h => simp [List.isEmpty_iff.mp h]
  · next h =>
    have hne : r.body ≠ [] := fun hb => h (List.isEmpty_iff.mpr hb)
    simp [hne]

/-- A rule is listed with `λ` as its whole body when the body is empty or is
that letter. -/
theorem listed_eq_lambda_iff {r : Rule} {n : Nat} :
    r.listed n = s!"{n}. " ++ String.ofList r.head ++ " → λ" ↔
      r.body = [] ∨ r.body = lambdaSign := by
  rw [← shownBody_eq_lambdaSign_iff, listed, show " → λ" = " → " ++ String.ofList lambdaSign from rfl,
    ← String.append_assoc, String.append_right_inj, String.ofList_inj]

theorem newline_not_mem_listed {r : Rule} (h : r.IsTidy) (n : Nat) :
    '\n' ∉ (r.listed n).toList := by
  have hbody : '\n' ∉ r.shownBody := by
    rw [shownBody]
    split
    · decide
    · exact h.body.oneLine
  have hstop : '\n' ∉ (toString ". ").toList := by decide
  simp [listed, newline_not_mem_toDigits, hstop, h.head.oneLine, hbody]

end Rule

theorem newline_not_mem_of_mem_listedFrom {rs : List Rule} (h : ∀ r ∈ rs, r.IsTidy) {number : Nat}
    {l : String} (hl : l ∈ listedFrom number rs) : '\n' ∉ l.toList := by
  obtain ⟨i, hi⟩ := List.mem_iff_getElem?.mp hl
  rw [getElem?_listedFrom, Option.map_eq_some_iff] at hi
  obtain ⟨r, hr, rfl⟩ := hi
  exact Rule.newline_not_mem_listed (h r (List.mem_of_getElem? hr)) _

/-! ### The lines of a listing -/

namespace Grammar

/-- A listing has the name, the line under it, and then the rules, each on a
line of its own. -/
theorem lines_listing {g : Grammar} (h : g.Encodable) :
    lines (g.listing ++ "\n").toList =
      g.name :: (underline g.name).toList :: ((listedFrom 1 g.rules).map String.toList ++ [[]]) := by
  obtain ⟨⟨hname, -⟩, hrules⟩ := encodable_iff_tidy.mp h
  have hlines : ∀ l ∈ String.ofList g.name :: underline g.name :: listedFrom 1 g.rules,
      '\n' ∉ l.toList := by
    intro l hl
    rcases List.mem_cons.mp hl with rfl | hl
    · simpa using hname.oneLine
    rcases List.mem_cons.mp hl with rfl | hl
    · simp [underline]
    · exact newline_not_mem_of_mem_listedFrom hrules hl
  rw [listing, lines_intercalate (List.cons_ne_nil _ _) hlines]
  simp

/-- The rule at a position is on the line of its number. -/
theorem getElem?_lines_listing {g : Grammar} (h : g.Encodable) {i : Nat} {r : Rule}
    (hr : g.rules[i]? = some r) :
    (lines (g.listing ++ "\n").toList)[i + 2]? = some (r.listed (i + 1)).toList := by
  have hi : ((listedFrom 1 g.rules).map String.toList)[i]? = some (r.listed (i + 1)).toList := by
    rw [List.getElem?_map, getElem?_listedFrom, hr, Nat.add_comm 1 i]
    rfl
  rw [lines_listing h, List.getElem?_cons_succ, List.getElem?_cons_succ,
    List.getElem?_append_left (List.getElem?_eq_some_iff.mp hi).1, hi]

/-- The line of a rule shows `λ` as its whole body when the body is empty or is
that letter. -/
theorem line_eq_lambda_iff {g : Grammar} (h : g.Encodable) {i : Nat} {r : Rule}
    (hr : g.rules[i]? = some r) :
    (lines (g.listing ++ "\n").toList)[i + 2]? =
        some (s!"{i + 1}. " ++ String.ofList r.head ++ " → λ").toList ↔
      r.body = [] ∨ r.body = lambdaSign := by
  rw [getElem?_lines_listing h hr, Option.some_inj, String.toList_inj, Rule.listed_eq_lambda_iff]

end Grammar

end PhraseGrammar
