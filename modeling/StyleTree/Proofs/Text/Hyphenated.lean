import Mathlib.Data.List.Basic
import StyleTree.Text.Hyphenation

/-!
# Hyphenated texts

Hyphenation takes every capital away and puts a hyphen where it stood. So it changes nothing any
more in its own result, and where a text has no hyphens of its own, each hyphen of the result says
that a capital stood there: the text can be told from the result.

## Main results

* `isUpper_of_mem_hyphenate` — no capital is left
* `hyphenate_hyphenate` — hyphenation is idempotent
* `hyphenate_inj` — on texts without hyphens it is injective
-/

namespace StyleTree.Text

variable {c d : Char} {s t : String}

theorem isUpper_eq_false_of_isLower (h : c.isLower) : c.isUpper = false := by
  obtain ⟨ha, -⟩ := Bool.and_eq_true_iff.mp h
  have hlow : 97 ≤ c.toNat := UInt32.le_iff_toNat_le.mp (of_decide_eq_true ha)
  refine Bool.eq_false_iff.mpr fun hupper => ?_
  have hrange := toNat_of_isUpper hupper
  omega

/-- Two capitals with one small letter are the same. -/
theorem eq_of_toLower_eq (hc : c.isUpper) (hd : d.isUpper) (h : c.toLower = d.toLower) :
    c = d := by
  have hlower := congrArg Char.toNat h
  rw [toNat_toLower hc, toNat_toLower hd] at hlower
  exact Char.toNat_inj.mp (Nat.add_right_cancel hlower)

theorem isUpper_of_mem_hyphenateChar (h : d ∈ hyphenateChar c) : d.isUpper = false := by
  unfold hyphenateChar at h
  split at h
  · next hc =>
    rcases List.mem_cons.mp h with rfl | h
    · rfl
    · obtain rfl := List.mem_singleton.mp h
      exact isUpper_eq_false_of_isLower (isLower_toLower hc)
  · next hc =>
    obtain rfl := List.mem_singleton.mp h
    exact Bool.eq_false_iff.mpr hc

/-- No capital is left in a hyphenated text. -/
theorem isUpper_of_mem_hyphenate (h : c ∈ (hyphenate s).toList) : c.isUpper = false := by
  rw [toList_hyphenate] at h
  obtain ⟨a, -, hc⟩ := List.mem_flatMap.mp h
  exact isUpper_of_mem_hyphenateChar hc

/-- A text without capitals stays as it is. -/
theorem hyphenate_eq_self (h : ∀ c ∈ s.toList, c.isUpper = false) : hyphenate s = s := by
  rw [← String.toList_inj, toList_hyphenate]
  have hchar : ∀ c ∈ s.toList, hyphenateChar c = [c] := by
    intro c hc
    rw [hyphenateChar, if_neg (Bool.eq_false_iff.mp (h c hc))]
  rw [List.flatMap_congr hchar, List.flatMap_singleton']

theorem hyphenate_hyphenate (s : String) : hyphenate (hyphenate s) = hyphenate s :=
  hyphenate_eq_self fun _ hc => isUpper_of_mem_hyphenate hc

/-- Where the original has no hyphens, the first character and the rest can be told apart. -/
theorem hyphenateChar_append_inj {cs ds : List Char} (hc : c ≠ '-') (hd : d ≠ '-')
    (h : hyphenateChar c ++ cs = hyphenateChar d ++ ds) : c = d ∧ cs = ds := by
  unfold hyphenateChar at h
  split at h <;> split at h
  · next hupperc hupperd =>
    obtain ⟨hlower, hrest⟩ := List.cons_eq_cons.mp (List.cons_eq_cons.mp h).2
    exact ⟨eq_of_toLower_eq hupperc hupperd hlower, hrest⟩
  · exact absurd (List.cons_eq_cons.mp h).1.symm hd
  · exact absurd (List.cons_eq_cons.mp h).1 hc
  · exact List.cons_eq_cons.mp h

theorem flatMap_hyphenateChar_inj {cs ds : List Char} (hcs : '-' ∉ cs) (hds : '-' ∉ ds)
    (h : cs.flatMap hyphenateChar = ds.flatMap hyphenateChar) : cs = ds := by
  have hne (c : Char) (cs : List Char) : hyphenateChar c ++ cs ≠ [] := by
    unfold hyphenateChar
    split <;> exact List.cons_ne_nil _ _
  induction cs generalizing ds with
  | nil =>
    cases ds with
    | nil => rfl
    | cons d ds => exact absurd h.symm (hne d _)
  | cons c cs ih =>
    cases ds with
    | nil => exact absurd h (hne c _)
    | cons d ds =>
      rw [List.mem_cons, not_or] at hcs hds
      obtain ⟨hhead, hrest⟩ := hyphenateChar_append_inj (Ne.symm hcs.1) (Ne.symm hds.1) h
      rw [hhead, ih hcs.2 hds.2 hrest]

/-- Texts without hyphens are told apart by their hyphenated forms. -/
theorem hyphenate_inj (hs : '-' ∉ s.toList) (ht : '-' ∉ t.toList)
    (h : hyphenate s = hyphenate t) : s = t := by
  rw [← String.toList_inj, toList_hyphenate, toList_hyphenate] at h
  exact String.toList_inj.mp (flatMap_hyphenateChar_inj hs ht h)

end StyleTree.Text
