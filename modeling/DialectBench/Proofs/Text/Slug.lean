import DialectBench.Text.Slug
import DialectBench.Text.Utf8
import Mathlib.Algebra.Ring.Nat
import Mathlib.Data.List.SplitBy

/-! A text becomes part of a file name run by run: what a name admits is kept, and each maximal run of other
characters is one dash. -/

namespace DialectBench.Text

/-- The characters of a file name: the letters and digits of ASCII, the underscore, the point and the dash. -/
def InFileName (c : Char) : Prop :=
  ('A' ≤ c ∧ c ≤ 'Z') ∨ ('a' ≤ c ∧ c ≤ 'z') ∨ ('0' ≤ c ∧ c ≤ '9') ∨ c = '_' ∨ c = '.' ∨ c = '-'

instance : DecidablePred InFileName := fun _ => inferInstanceAs (Decidable (_ ∨ _))

/-- The maximal runs of a text: a run ends where a character of a file name meets another one. -/
def runs (text : List Char) : List (List Char) :=
  text.splitBy fun a b => decide (InFileName a ↔ InFileName b)

/-- What a file name has for a run: the run if it is of its characters, and a dash if it is of others. -/
def standIn (run : List Char) : List Char :=
  if run.all fun c => decide (InFileName c) then run else ['-']

/-- A way of turning any text into a part of a file name. -/
structure Sanitizes (write : String → String) : Prop where
  /-- Only characters of a file name are written. -/
  admits : ∀ s : String, ∀ c ∈ (write s).toList, InFileName c
  /-- A text of such characters alone is left as it is. -/
  keeps : ∀ s : String, (∀ c ∈ s.toList, InFileName c) → write s = s
  /-- What is written is left as it is. -/
  settles : ∀ s : String, write (write s) = write s
  /-- Nothing grows longer, neither in characters nor in bytes. -/
  shortens : ∀ s : String, (write s).length ≤ s.length ∧ (encode (write s)).length ≤ (encode s).length
  /-- Each maximal run of other characters becomes one dash, and nothing else changes. -/
  replaces : ∀ s : String, (write s).toList = (runs s.toList).flatMap standIn

/-- The characters that are kept are those of a file name. -/
theorem isNameChar_eq_true (c : Char) : isNameChar c = true ↔ InFileName c := by
  have upper : c.isUpper = decide ('A' ≤ c ∧ c ≤ 'Z') := rfl
  have lower : c.isLower = (decide ('a' ≤ c) && decide (c ≤ 'z')) := rfl
  have digit : c.isDigit = (decide ('0' ≤ c) && decide (c ≤ '9')) := rfl
  have kinds : c.isAlphanum = ((c.isUpper || c.isLower) || c.isDigit) := rfl
  simp only [isNameChar, InFileName, kinds, upper, lower, digit, Bool.or_eq_true, Bool.and_eq_true,
    decide_eq_true_eq, beq_iff_eq, or_assoc]

/-- Other characters are not kept. -/
theorem isNameChar_eq_false {c : Char} (foreign : ¬ InFileName c) : isNameChar c = false := by
  rw [← Bool.not_eq_true, isNameChar_eq_true]
  exact foreign

section Runs

variable {run rest : List Char} {parts : List (List Char)}

/-- Characters of a file name stand for themselves. -/
theorem standIn_kept (kept : ∀ c ∈ run, InFileName c) : standIn run = run :=
  if_pos (by simpa using kept)

/-- A dash stands for a run of other characters. -/
theorem standIn_replaced (some : run ≠ []) (foreign : ∀ c ∈ run, ¬ InFileName c) :
    standIn run = ['-'] := by
  obtain ⟨c, member⟩ := List.exists_mem_of_ne_nil run some
  refine if_neg ?_
  rw [List.all_eq_true]
  intro kept
  exact foreign c member (of_decide_eq_true (kept c member))

/-- Characters of a file name are kept. -/
theorem slugFrom_kept (kept : ∀ c ∈ run, InFileName c) (rest : List Char) :
    slugFrom false (run ++ rest) = run ++ slugFrom false rest := by
  induction run with
  | nil => rfl
  | cons c run ih =>
    obtain ⟨own, others⟩ := List.forall_mem_cons.mp kept
    rw [List.cons_append, slugFrom, if_pos ((isNameChar_eq_true c).mpr own), ih others,
      List.cons_append]

/-- Within a run of other characters nothing more is written. -/
theorem slugFrom_within (foreign : ∀ c ∈ run, ¬ InFileName c) (rest : List Char) :
    slugFrom true (run ++ rest) = slugFrom true rest := by
  induction run with
  | nil => rfl
  | cons c run ih =>
    obtain ⟨own, others⟩ := List.forall_mem_cons.mp foreign
    rw [List.cons_append, slugFrom, isNameChar_eq_false own, if_neg Bool.false_ne_true, if_pos rfl,
      ih others]

/-- A run is over where a character of a file name comes, or nothing more. -/
theorem slugFrom_ended (ended : ∀ c ∈ rest.head?, InFileName c) :
    slugFrom true rest = slugFrom false rest := by
  cases rest with
  | nil => rfl
  | cons c rest =>
    have kept : isNameChar c = true := (isNameChar_eq_true c).mpr (ended c rfl)
    rw [slugFrom, slugFrom, if_pos kept, if_pos kept]

/-- A whole run of other characters is one dash. -/
theorem slugFrom_replaced (some : run ≠ []) (foreign : ∀ c ∈ run, ¬ InFileName c)
    (ended : ∀ c ∈ rest.head?, InFileName c) :
    slugFrom false (run ++ rest) = '-' :: slugFrom false rest := by
  obtain ⟨c, run, rfl⟩ := List.exists_cons_of_ne_nil some
  obtain ⟨own, others⟩ := List.forall_mem_cons.mp foreign
  -- The first character writes the dash, and the others are passed over.
  rw [List.cons_append, slugFrom, isNameChar_eq_false own, if_neg Bool.false_ne_true,
    if_neg Bool.false_ne_true, slugFrom_within others, slugFrom_ended ended]

/-- In a run either all characters are of a file name, or none is. -/
theorem alike_of_isChain (alike : run.IsChain fun a b => (InFileName a ↔ InFileName b)) :
    (∀ c ∈ run, InFileName c) ∨ ∀ c ∈ run, ¬ InFileName c := by
  induction run with
  | nil => exact Or.inl (by simp)
  | cons c run ih =>
    cases run with
    | nil =>
      rw [List.forall_mem_singleton, List.forall_mem_singleton]
      exact em _
    | cons next run =>
      -- The first character is as the second one, and that is as all others.
      obtain ⟨same, rest⟩ := List.isChain_cons_cons.mp alike
      rcases ih rest with all | none
      · exact Or.inl (List.forall_mem_cons.mpr ⟨same.mpr (all next List.mem_cons_self), all⟩)
      · exact Or.inr (List.forall_mem_cons.mpr
          ⟨fun own => none next List.mem_cons_self (same.mp own), none⟩)

/-- A text of runs is written run by run. -/
theorem slugFrom_flatten (some : [] ∉ parts)
    (alike : ∀ run ∈ parts, run.IsChain fun a b => (InFileName a ↔ InFileName b))
    (apart : parts.IsChain fun a b => ∃ ha hb,
      decide (InFileName (a.getLast ha) ↔ InFileName (b.head hb)) = false) :
    slugFrom false parts.flatten = parts.flatMap standIn := by
  induction parts with
  | nil => rfl
  | cons run parts ih =>
    rw [List.mem_cons, not_or] at some
    obtain ⟨own, others⟩ := List.forall_mem_cons.mp alike
    rw [List.flatten_cons, List.flatMap_cons, ← ih some.2 others apart.tail]
    rcases alike_of_isChain own with kept | foreign
    · rw [standIn_kept kept, slugFrom_kept kept]
    · have filled : run ≠ [] := fun none => some.1 none.symm
      rw [standIn_replaced filled foreign]
      refine slugFrom_replaced filled foreign ?_
      -- The next run begins with a character of the other kind.
      intro c first
      cases parts with
      | nil => cases first
      | cons next parts =>
        obtain ⟨⟨ended, begun, differ⟩, -⟩ := List.isChain_cons_cons.mp apart
        obtain ⟨d, next, rfl⟩ := List.exists_cons_of_ne_nil begun
        obtain rfl : d = c := Option.some.inj first
        have last := foreign _ (List.getLast_mem filled)
        simpa [last] using differ

end Runs

/-- A text is written run by run. -/
theorem toList_slug (s : String) : (slug s).toList = (runs s.toList).flatMap standIn := by
  have whole : (runs s.toList).flatten = s.toList := List.flatten_splitBy _ _
  rw [slug, String.toList_ofList]
  conv_lhs => rw [← whole]
  refine slugFrom_flatten (List.nil_notMem_splitBy _ _) ?_ ?_
  · intro run member
    simpa using List.isChain_of_mem_splitBy member
  · exact List.isChain_getLast_head_splitBy
      (fun a b => decide (InFileName a ↔ InFileName b)) s.toList

/-- Only characters of a file name are written. -/
theorem inFileName_of_mem_slug {s : String} {c : Char} (member : c ∈ (slug s).toList) :
    InFileName c := by
  rw [slug, String.toList_ofList] at member
  exact (isNameChar_eq_true c).mp (isNameChar_of_mem_slugFrom member)

/-- A text of characters of a file name is left as it is. -/
theorem slug_eq_self {s : String} (kept : ∀ c ∈ s.toList, InFileName c) : slug s = s := by
  have whole := slugFrom_kept kept []
  rw [List.append_nil, slugFrom, List.append_nil] at whole
  rw [slug, whole, String.ofList_toList]

/-- However much a character counts, as long as none counts less than a dash what is written counts no more than
the text. -/
theorem sum_slugFrom_le {weight : Char → Nat} (light : ∀ c, weight '-' ≤ weight c) (within : Bool)
    (text : List Char) : ((slugFrom within text).map weight).sum ≤ (text.map weight).sum := by
  induction text generalizing within with
  | nil => exact Nat.le_refl 0
  | cons c text ih =>
    have dash := light c
    have kept := ih false
    have passed := ih true
    rw [slugFrom]
    -- The character is written itself, or passed over, or a dash stands for it.
    split
    · simp only [List.map_cons, List.sum_cons]
      omega
    · split
      · simp only [List.map_cons, List.sum_cons]
        omega
      · simp only [List.map_cons, List.sum_cons]
        omega

/-- What is written is not longer than the text, in characters and in bytes. -/
theorem slug_shortens (s : String) :
    (slug s).length ≤ s.length ∧ (encode (slug s)).length ≤ (encode s).length := by
  have counted (weight : Char → Nat) (light : ∀ c, weight '-' ≤ weight c) :
      ((slug s).toList.map weight).sum ≤ (s.toList.map weight).sum := by
    rw [slug, String.toList_ofList]
    exact sum_slugFrom_le light false s.toList
  constructor
  · -- Every character counts one.
    have characters := counted (fun _ => 1) fun _ => Nat.le_refl 1
    simpa [← String.length_toList] using characters
  · -- A character counts as many bytes as it has, and the dash has one.
    have bytes := counted (fun c => (String.utf8EncodeChar c).length) fun c => by
      rw [String.length_utf8EncodeChar, String.length_utf8EncodeChar]
      exact c.utf8Size_pos
    rw [encode, encode, List.length_flatMap, List.length_flatMap]
    exact bytes

/-- A text becomes a part of a file name. -/
theorem sanitizes_slug : Sanitizes slug where
  admits _ _ member := inFileName_of_mem_slug member
  keeps _ kept := slug_eq_self kept
  settles _ := slug_eq_self fun _ member => inFileName_of_mem_slug member
  shortens := slug_shortens
  replaces := toList_slug

end DialectBench.Text
