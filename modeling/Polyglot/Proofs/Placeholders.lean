import Mathlib.Data.List.Infix
import Polyglot.Text.Affix

/-!
# Filling in a placeholder

A placeholder is replaced from left to right, and what has been written is not read again. What comes
of this is said by three laws (`Text.Fills`). A text without the placeholder is kept. Wherever the
placeholder stands, the replacement comes in its place, and the texts on its two sides are filled in
each on its own. The placeholder is gone from the result.

The laws need a placeholder whose occurrences do not overlap and a replacement out of which, with the
text around it, no placeholder can arise (`Text.Clear`). Then substitution obeys them
(`Text.fills_substitute`), and nothing else does (`Text.Fills.unique`).
-/

set_option autoImplicit false

namespace Polyglot.Text

/-! ## Characters -/

section Characters

variable {placeholder replacement : List Char} {first c : Char} {others : List Char}
variable {before behind chars rest : List Char}

/-- More steps than there are characters make no difference. -/
theorem substituteWithin_of_le {count other : Nat} (enough : chars.length ≤ count)
    (enoughToo : chars.length ≤ other) :
    substituteWithin placeholder replacement count chars =
      substituteWithin placeholder replacement other chars := by
  induction count generalizing chars other with
  | zero =>
      obtain rfl := List.eq_nil_of_length_eq_zero (Nat.le_zero.mp enough)
      cases other <;> rfl
  | succ count ih =>
      cases chars with
      | nil => cases other <;> rfl
      | cons c chars =>
          cases other with
          | zero => cases enoughToo
          | succ other =>
              rw [List.length_cons, Nat.add_le_add_iff_right] at enough enoughToo
              simp only [substituteWithin]
              split
              · rename_i rest found
                have whole := congrArg List.length (behind?_eq_some_iff.mp found)
                simp only [List.length_cons, List.length_append] at whole
                have short : rest.length ≤ count := by omega
                have shortToo : rest.length ≤ other := by omega
                rw [ih short shortToo]
              · rw [ih enough enoughToo]

/-- The characters with a placeholder replaced, by as many steps as there are characters. -/
def substituted (placeholder replacement chars : List Char) : List Char :=
  substituteWithin placeholder replacement chars.length chars

/-- A placeholder at the beginning is replaced. -/
theorem substituted_append :
    substituted (first :: others) replacement (first :: others ++ rest) =
      replacement ++ substituted (first :: others) replacement rest := by
  have found : behind? (first :: others) (first :: others ++ rest) = some rest :=
    behind?_eq_some_iff.mpr rfl
  rw [List.cons_append] at found ⊢
  simp only [substituted, List.length_cons, substituteWithin, found]
  rw [substituteWithin_of_le (by simp) (Nat.le_refl rest.length)]

/-- A character that does not begin a placeholder is kept. -/
theorem substituted_cons (elsewhere : ¬ placeholder <+: c :: chars) :
    substituted placeholder replacement (c :: chars) =
      c :: substituted placeholder replacement chars := by
  have missed : behind? placeholder (c :: chars) = none := by
    refine Option.eq_none_iff_forall_ne_some.mpr fun rest found => elsewhere ?_
    exact ⟨rest, (behind?_eq_some_iff.mp found).symm⟩
  simp only [substituted, List.length_cons, substituteWithin, missed]

theorem substituted_of_absent (absent : ¬ placeholder <:+: chars) :
    substituted placeholder replacement chars = chars := by
  induction chars with
  | nil => rfl
  | cons c chars ih =>
      rw [List.infix_cons_iff, not_or] at absent
      rw [substituted_cons absent.1, ih absent.2]

/-- A beginning without a character ends before that character. -/
theorem prefix_of_append_cons (fresh : c ∉ chars) (begins : chars <+: before ++ c :: behind) :
    chars <+: before := by
  rcases List.prefix_or_prefix_of_prefix begins (List.prefix_append before _) with short | long
  · exact short
  · obtain ⟨more, rfl⟩ := long
    rw [List.prefix_append_right_inj, List.prefix_cons_iff] at begins
    rcases begins with rfl | ⟨_, rfl, _⟩
    · simp
    · exact absurd (by simp) fresh

/-- Occurrences of a placeholder do not overlap: what stands before one begins with the placeholder
if the whole does. -/
theorem prefix_of_occurrence (fresh : first ∉ others)
    (begins : first :: others <+: c :: before ++ (first :: others) ++ behind) :
    first :: others <+: c :: before := by
  rw [List.append_assoc, List.cons_append, List.cons_prefix_cons] at begins
  obtain ⟨rfl, begins⟩ := begins
  rw [List.cons_prefix_cons]
  exact ⟨rfl, prefix_of_append_cons fresh begins⟩

/-- Every occurrence of a placeholder is replaced, and both sides are treated on their own. -/
theorem substituted_around (fresh : first ∉ others) (before behind : List Char) :
    substituted (first :: others) replacement (before ++ (first :: others) ++ behind) =
      substituted (first :: others) replacement before ++ replacement ++
        substituted (first :: others) replacement behind := by
  -- The induction is on the length, since a placeholder in front is taken away as a whole.
  induction size : before.length using Nat.strongRecOn generalizing before with
  | ind total ih =>
      cases before with
      | nil => exact substituted_append
      | cons c before =>
          by_cases begins : first :: others <+: c :: before
          · obtain ⟨rest, whole⟩ := begins
            have shorter : rest.length < total := by
              rw [← whole, List.length_append, List.length_cons] at size
              omega
            rw [← whole, List.append_assoc, List.append_assoc, substituted_append,
              substituted_append, ← List.append_assoc rest, ih _ shorter rest rfl]
            simp
          · have elsewhere : ¬ first :: others <+: c :: before ++ (first :: others) ++ behind :=
              mt (prefix_of_occurrence fresh) begins
            rw [List.cons_append, List.cons_append] at elsewhere ⊢
            rw [substituted_cons elsewhere, substituted_cons begins,
              ih _ (by simp [← size]) before rfl]
            simp

/-- A word stands behind a beginning that shares no character with it. -/
theorem infix_of_append (apart : ∀ c ∈ before, c ∉ chars) (inside : chars <:+: before ++ behind) :
    chars <:+: behind := by
  induction before with
  | nil => exact inside
  | cons c before ih =>
      rw [List.cons_append, List.infix_cons_iff, List.prefix_cons_iff] at inside
      rcases inside with (rfl | ⟨_, rfl, _⟩) | inside
      · exact List.nil_infix
      · exact absurd List.mem_cons_self (apart c List.mem_cons_self)
      · exact ih (fun other member => apart other (List.mem_cons_of_mem c member)) inside

/-- A word does not reach across a character that it does not have. -/
theorem infix_of_append_cons (fresh : c ∉ chars) (inside : chars <:+: before ++ c :: behind) :
    chars <:+: before ∨ chars <:+: c :: behind := by
  rcases List.infix_append_iff.mp inside with left | right | ⟨front, back, rfl, ends, begins⟩
  · exact .inl left
  · exact .inr right
  · rcases List.prefix_cons_iff.mp begins with rfl | ⟨_, rfl, _⟩
    · rw [List.append_nil]
      exact .inl ends.isInfix
    · exact absurd (by simp) fresh

/-- A word does not reach across another one that shares no character with it. -/
theorem infix_across (nonempty : replacement ≠ []) (apart : ∀ c ∈ replacement, c ∉ chars)
    (inside : chars <:+: before ++ replacement ++ behind) :
    chars <:+: before ∨ chars <:+: behind := by
  obtain ⟨c, more, rfl⟩ := List.exists_cons_of_ne_nil nonempty
  rw [List.append_assoc, List.cons_append] at inside
  rcases infix_of_append_cons (apart c List.mem_cons_self) inside with left | right
  · exact .inl left
  · exact .inr (infix_of_append apart right)

/-- No placeholder is left, and none arises. -/
theorem not_infix_substituted (fresh : first ∉ others) (nonempty : replacement ≠ [])
    (apart : ∀ c ∈ replacement, c ∉ first :: others) (chars : List Char) :
    ¬ first :: others <:+: substituted (first :: others) replacement chars := by
  induction size : chars.length using Nat.strongRecOn generalizing chars with
  | ind total ih =>
      by_cases occurs : first :: others <:+: chars
      · obtain ⟨before, behind, rfl⟩ := occurs
        intro remains
        rw [substituted_around fresh] at remains
        simp only [List.length_append, List.length_cons] at size
        rcases infix_across nonempty apart remains with left | right
        · exact ih before.length (by omega) before rfl left
        · exact ih behind.length (by omega) behind rfl right
      · rwa [substituted_of_absent occurs]

end Characters

/-! ## Texts -/

/-- A text stands somewhere in another. -/
def Occurs (part text : String) : Prop :=
  ∃ before behind, text = before ++ part ++ behind

theorem occurs_iff {part text : String} : Occurs part text ↔ part.toList <:+: text.toList := by
  constructor
  · rintro ⟨before, behind, rfl⟩
    exact ⟨before.toList, behind.toList, by simp only [String.toList_append]⟩
  · rintro ⟨before, behind, whole⟩
    refine ⟨String.ofList before, String.ofList behind, String.toList_inj.mp ?_⟩
    simp only [String.toList_append, String.toList_ofList, whole]

instance (part text : String) : Decidable (Occurs part text) :=
  decidable_of_iff _ occurs_iff.symm

/-- A function fills a replacement in for a placeholder. -/
structure Fills (placeholder replacement : String) (fill : String → String) : Prop where
  /-- A text without the placeholder is kept. -/
  kept : ∀ text, ¬ Occurs placeholder text → fill text = text
  /-- Every occurrence is replaced, and the texts around it are filled in on their own. -/
  replaced : ∀ before behind,
    fill (before ++ placeholder ++ behind) = fill before ++ replacement ++ fill behind
  /-- No occurrence is left. -/
  gone : ∀ text, ¬ Occurs placeholder (fill text)

/-- A placeholder and a replacement that cannot be confused: the first character of the placeholder
does not come again in it, and the replacement has characters and none of them is in the
placeholder. -/
structure Clear (placeholder replacement : String) : Prop where
  begins : ∃ first others, placeholder.toList = first :: others ∧ first ∉ others
  nonempty : replacement ≠ ""
  apart : ∀ c ∈ replacement.toList, c ∉ placeholder.toList

variable {placeholder replacement : String}

theorem toList_substitute (text : String) :
    (substitute placeholder replacement text).toList =
      substituted placeholder.toList replacement.toList text.toList :=
  String.toList_ofList

/-- Substitution fills a placeholder in. -/
theorem fills_substitute (clear : Clear placeholder replacement) :
    Fills placeholder replacement (substitute placeholder replacement) := by
  obtain ⟨first, others, shape, fresh⟩ := clear.begins
  have apart := clear.apart
  have nonempty : replacement.toList ≠ [] := mt String.toList_eq_nil_iff.mp clear.nonempty
  constructor
  · intro text absent
    rw [occurs_iff] at absent
    rw [← String.toList_inj, toList_substitute, substituted_of_absent absent]
  · intro before behind
    rw [← String.toList_inj]
    simp only [String.toList_append, toList_substitute, shape]
    exact substituted_around fresh _ _
  · intro text
    rw [shape] at apart
    rw [occurs_iff, toList_substitute, shape]
    exact not_infix_substituted fresh nonempty apart _

namespace Fills

variable {fill other : String → String}

theorem placeholder_ne (fills : Fills placeholder replacement fill) : placeholder ≠ "" := by
  rintro rfl
  exact fills.gone "" ⟨"", fill "", rfl⟩

/-- The laws leave no choice: what stands around an occurrence is shorter than the whole. -/
theorem unique (fills : Fills placeholder replacement fill)
    (fillsToo : Fills placeholder replacement other) : fill = other := by
  funext text
  induction size : text.length using Nat.strongRecOn generalizing text with
  | ind total ih =>
      by_cases occurs : Occurs placeholder text
      · obtain ⟨before, behind, rfl⟩ := occurs
        have positive : 0 < placeholder.length := by
          have nonempty := fills.placeholder_ne
          rwa [Nat.pos_iff_ne_zero, ne_eq, String.length_eq_zero_iff]
        simp only [String.length_append] at size
        rw [fills.replaced, fillsToo.replaced, ih _ (by omega) before rfl,
          ih _ (by omega) behind rfl]
      · rw [fills.kept text occurs, fillsToo.kept text occurs]

end Fills

end Polyglot.Text
