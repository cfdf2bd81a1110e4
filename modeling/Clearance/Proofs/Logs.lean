import Mathlib.Data.List.Basic

/-!
# Entries of a log

A log grows at its end. An entry of a log is named by a split of it: what stands before the entry,
the entry itself, and what came later.

* `Log.concat_eq_split_iff`: the entries of a log with one entry more.
-/

namespace Clearance.Log

variable {ε : Type}

/-- An entry of a log with one entry more is the new one, with nothing later, or it is one of the
    others, and the new one is the last of the later ones. -/
theorem concat_eq_split_iff {log before later : List ε} {last entry : ε} :
    log ++ [last] = before ++ entry :: later ↔
      (before = log ∧ entry = last ∧ later = []) ∨
        ∃ between, later = between ++ [last] ∧ log = before ++ entry :: between := by
  constructor
  · intro h
    rcases List.eq_nil_or_concat later with rfl | ⟨between, final, rfl⟩
    · obtain ⟨rfl, heq⟩ := List.append_inj' h rfl
      cases heq
      exact .inl ⟨rfl, rfl, rfl⟩
    · have h' : log ++ [last] = (before ++ entry :: between) ++ [final] := by simpa using h
      obtain ⟨rfl, heq⟩ := List.append_inj' h' rfl
      cases heq
      exact .inr ⟨between, List.concat_eq_append, rfl⟩
  · rintro (⟨rfl, rfl, rfl⟩ | ⟨between, rfl, rfl⟩)
    · rfl
    · rw [List.append_assoc, List.cons_append]

end Clearance.Log
