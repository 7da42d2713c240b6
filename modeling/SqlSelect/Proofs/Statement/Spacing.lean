import SqlSelect.Statement

/-!
# Spacing

Every fragment of a statement but the first one stands after a blank. The older
spacing keeps the blank of an empty fragment, the newer one drops it.

## Main definitions

* `spaced`: a fragment after its blank.

## Main statements

* `joinFragments_cons`: joined fragments are the first one and spaced ones;
* `joinFragments_fragments`: the same for the fragments of a statement.
-/

namespace SqlSelect

/-- A fragment after its blank. Unless the older spacing is asked for, an empty
    fragment has no blank. -/
def spaced (legacySpacing : Bool) (fragment : String) : String :=
  if fragment = "" ∧ legacySpacing = false then "" else " " ++ fragment

theorem spaced_of_ne_empty {f : String} (legacySpacing : Bool) (h : f ≠ "") :
    spaced legacySpacing f = " " ++ f :=
  if_neg fun hf => h hf.1

@[simp] theorem spaced_true (f : String) : spaced true f = " " ++ f := by simp [spaced]

/-- A blank takes no part in what a fragment says. -/
theorem spaced_inj {legacySpacing : Bool} {f g : String} :
    spaced legacySpacing f = spaced legacySpacing g ↔ f = g := by
  refine ⟨fun h => ?_, fun h => h ▸ rfl⟩
  have hblank : ∀ f : String, " " ++ f ≠ "" := fun f => by simp
  rw [spaced, spaced] at h
  split at h
  · rename_i hf
    split at h
    · rename_i hg
      rw [hf.1, hg.1]
    · exact absurd h.symm (hblank g)
  · split at h
    · exact absurd h (hblank f)
    · exact (String.append_right_inj " ").1 h

theorem intercalate_blank (f : String) (parts : List String) :
    String.intercalate " " (f :: parts) = f ++ String.join (parts.map (" " ++ ·)) := by
  induction parts generalizing f with
  | nil => simp
  | cons g parts ih =>
    rw [String.intercalate_cons_cons, ih, List.map_cons, String.join_cons, String.append_assoc,
      String.append_assoc]

/-- The fragments without text are those without a blank. -/
theorem join_filter_ne_empty (parts : List String) :
    String.join ((parts.filter (· ≠ "")).map (" " ++ ·)) =
      String.join (parts.map (spaced false)) := by
  induction parts with
  | nil => rfl
  | cons g parts ih =>
    by_cases hg : g = ""
    · simpa [hg, spaced] using ih
    · simpa [hg, spaced] using ih

/-- Joined fragments are the first one and all others after their blanks. -/
theorem joinFragments_cons {f : String} (legacySpacing : Bool) (hf : f ≠ "")
    (parts : List String) :
    joinFragments legacySpacing (f :: parts) =
      f ++ String.join (parts.map (spaced legacySpacing)) := by
  cases legacySpacing with
  | true =>
    have hmap : parts.map (spaced true) = parts.map (" " ++ ·) :=
      List.map_congr_left fun g _ => spaced_true g
    rw [joinFragments, if_pos rfl, intercalate_blank, hmap]
  | false =>
    have hkeep : (f :: parts).filter (· ≠ "") = f :: parts.filter (· ≠ "") := by simp [hf]
    rw [joinFragments, if_neg Bool.false_ne_true, hkeep, intercalate_blank, join_filter_ne_empty]

theorem selectFragment_ne_empty (e : Entity) (c : Clauses) : selectFragment e c ≠ "" := by
  simp [selectFragment]

theorem fromFragment_ne_empty (e : Entity) : fromFragment e ≠ "" := by simp [fromFragment]

theorem offsetFragment_ne_empty (c : Clauses) : offsetFragment c ≠ "" := by simp [offsetFragment]

theorem limitFragment_ne_empty (c : Clauses) : limitFragment c ≠ "" := by simp [limitFragment]

/-- A statement is its SELECT list, its table and its page around the three fragments
    that can be empty. -/
theorem joinFragments_fragments (legacySpacing : Bool) (e : Entity) (c : Clauses)
    (condition : String) :
    joinFragments legacySpacing (fragments e c condition) =
      selectFragment e c ++ (" " ++ fromFragment e ++ (spaced legacySpacing condition ++
        (spaced legacySpacing (groupByFragment c) ++ (spaced legacySpacing (orderByFragment c) ++
          (" " ++ offsetFragment c ++ (" " ++ limitFragment c)))))) := by
  rw [fragments, joinFragments_cons legacySpacing (selectFragment_ne_empty e c)]
  simp [spaced_of_ne_empty legacySpacing (fromFragment_ne_empty e),
    spaced_of_ne_empty legacySpacing (offsetFragment_ne_empty c),
    spaced_of_ne_empty legacySpacing (limitFragment_ne_empty c)]

end SqlSelect
