import DialectBench.Text.Blank
import Mathlib.Data.List.DropRight

/-! Trimming takes blanks away at the two ends and nothing else. -/

namespace DialectBench.Text

variable {c : Char} {front back cs : List Char}

/-- A blank at the end is taken away. -/
theorem trimEnd_concat (blank : isBlank c = true) (cs : List Char) : trimEnd (cs ++ [c]) = trimEnd cs :=
  List.rdropWhile_concat_pos isBlank cs c blank

/-- In front of a character that is not blank everything stays. -/
theorem trimEnd_append_cons (solid : isBlank c = false) (front back : List Char) :
    trimEnd (front ++ c :: back) = front ++ c :: trimEnd back := by
  induction back using List.reverseRecOn with
  | nil => exact List.rdropWhile_concat_neg isBlank front c (by simp [solid])
  | append_singleton back last ih =>
    by_cases blank : isBlank last = true
    · rw [trimEnd_concat blank, ← List.cons_append, ← List.append_assoc, trimEnd_concat blank, ih]
    · have kept (cs : List Char) : trimEnd (cs ++ [last]) = cs ++ [last] :=
        List.rdropWhile_concat_neg isBlank cs last blank
      rw [kept, ← List.cons_append, ← List.append_assoc, kept]

/-- A text that begins and goes on with what is not blank is trimmed behind that. -/
theorem trim_cons_append_cons {first : Char} (solid : isBlank first = false) (last : isBlank c = false)
    (front back : List Char) :
    trim (first :: front ++ c :: back) = first :: front ++ c :: trimEnd back := by
  rw [trim, List.cons_append, List.dropWhile_cons_of_neg (by simp [solid]), ← List.cons_append,
    trimEnd_append_cons last]

/-- Blanks at the end may be taken away first. -/
theorem trim_trimEnd (cs : List Char) : trim (trimEnd cs) = trim cs := by
  have blanks : ∀ c ∈ cs.takeWhile isBlank, isBlank c = true := fun c inside =>
    List.mem_takeWhile_imp inside
  cases rest : cs.dropWhile isBlank with
  | nil =>
    -- There are only blanks, and nothing is left of them.
    have all : ∀ c ∈ cs, isBlank c = true := List.dropWhile_eq_nil_iff.mp rest
    have none : trimEnd cs = [] := List.rdropWhile_eq_nil_iff.mpr all
    rw [none, trim, trim, rest]
    rfl
  | cons c back =>
    have whole : cs.takeWhile isBlank ++ c :: back = cs := rest ▸ List.takeWhile_append_dropWhile
    have solid : isBlank c = false := by
      have first := List.head?_dropWhile_not isBlank cs
      rw [rest, List.head?_cons] at first
      simpa using first
    have single (cs : List Char) : trimEnd (c :: cs) = c :: trimEnd cs := trimEnd_append_cons solid [] cs
    have twice : trimEnd (trimEnd back) = trimEnd back := List.rdropWhile_idempotent isBlank back
    rw [trim, trim, rest, ← whole, trimEnd_append_cons solid, List.dropWhile_append_of_pos blanks,
      List.dropWhile_cons_of_neg (by simp [solid]), single, single, twice]

/-- A blank at the end makes no difference. -/
theorem trim_concat (blank : isBlank c = true) (cs : List Char) : trim (cs ++ [c]) = trim cs := by
  rw [← trim_trimEnd, trimEnd_concat blank, trim_trimEnd]

/-- Trimming twice is trimming once. -/
theorem trim_trim (cs : List Char) : trim (trim cs) = trim cs := by
  -- Dropping from the end leaves a front of what has no blank in front.
  have front : (trim cs).dropWhile isBlank = trim cs := by
    cases trimmed : trim cs with
    | nil => rfl
    | cons c rest =>
      have within : trim cs <+: cs.dropWhile isBlank := List.rdropWhile_prefix isBlank _
      obtain ⟨rest', whole⟩ := trimmed ▸ within
      have solid := List.head?_dropWhile_not isBlank cs
      simp only [← whole, List.cons_append, List.head?_cons] at solid
      simp [solid]
  unfold trim
  rw [show (trimEnd (cs.dropWhile isBlank)).dropWhile isBlank = _ from front]
  exact List.rdropWhile_idempotent isBlank (cs.dropWhile isBlank)

end DialectBench.Text
