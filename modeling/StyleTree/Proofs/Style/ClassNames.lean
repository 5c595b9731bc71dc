import StyleTree.Proofs.Text.Fingerprints
import StyleTree.Style.ClassName
import StyleTree.Text.Pieces

/-!
# Class names taken apart

The parts of a class name are joined by hyphens, and the first two may hold hyphens themselves. But
the fingerprint is never empty and holds none, so it is what stands behind the last hyphen; the part
for the component is what is left in front of it when the first part is known. So under one first
part different components never share a class name, and two trees do only if they have one
fingerprint.

## Main definitions

* `namePart` — a part with the hyphen that follows it

## Main results

* `Sheet.className_eq` — a class name as its parts one after another
* `Sheet.getLast?_pieces_className` — the fingerprint stands behind the last hyphen
* `Sheet.className_eq_className_iff` — when two class names are equal
-/

namespace StyleTree

variable {p q : String}

/-! ### Parts with their hyphens -/

/-- A part of a class name in front of others, with its hyphen. An empty part is left out. -/
def namePart (p : String) : String :=
  if p = "" then "" else p ++ "-"

theorem namePart_empty : namePart "" = "" := rfl

theorem namePart_of_ne (h : p ≠ "") : namePart p = p ++ "-" :=
  if_neg h

theorem namePart_inj (h : namePart p = namePart q) : p = q := by
  have hne {r : String} : r ++ "-" ≠ "" := by simp
  by_cases hp : p = ""
  · by_cases hq : q = ""
    · rw [hp, hq]
    · rw [hp, namePart_empty, namePart_of_ne hq] at h
      exact absurd h.symm hne
  · by_cases hq : q = ""
    · rw [hq, namePart_empty, namePart_of_ne hp] at h
      exact absurd h hne
    · rw [namePart_of_ne hp, namePart_of_ne hq] at h
      exact (String.append_left_inj _).mp h

/-- In front of the last part stand the others, each with its hyphen. -/
theorem joinNameParts_eq (p q : String) {last : String} (hlast : last ≠ "") :
    joinNameParts [p, q, last] = namePart p ++ namePart q ++ last := by
  by_cases hp : p = "" <;> by_cases hq : q = "" <;>
    simp [joinNameParts, namePart, hp, hq, hlast, String.append_assoc]

/-- What stands in front of the last part is nothing or ends in a hyphen. -/
theorem namePart_append_cases (p q : String) :
    namePart p ++ namePart q = "" ∨ ∃ front, namePart p ++ namePart q = front ++ "-" := by
  by_cases hq : q = ""
  · by_cases hp : p = ""
    · exact .inl (by rw [hp, hq, namePart_empty, String.append_empty])
    · exact .inr ⟨p, by rw [hq, namePart_empty, String.append_empty, namePart_of_ne hp]⟩
  · exact .inr ⟨namePart p ++ q, by rw [namePart_of_ne hq, String.append_assoc]⟩

theorem hyphen_not_mem_fingerprint (s : String) : '-' ∉ (Text.fingerprint s).toList := by
  intro hmem
  have hdigit := Text.isDigit_of_mem_fingerprint hmem
  revert hdigit
  decide

namespace Sheet

/-- A class name as its parts one after another. -/
theorem className_eq (es : Sheet) (family : String) (component : Option String) :
    es.className family component =
      namePart family ++ namePart (component.getD "") ++ Text.fingerprint es.canonical :=
  joinNameParts_eq family (component.getD "") (Text.fingerprint_ne_empty es.canonical)

/-- The fingerprint stands behind the last hyphen. -/
theorem getLast?_pieces_className (es : Sheet) (family : String) (component : Option String) :
    (Text.pieces '-' (es.className family component).toList).getLast? =
      some (Text.fingerprint es.canonical).toList := by
  have hpiece := Text.pieces_of_not_mem (hyphen_not_mem_fingerprint es.canonical)
  rw [className_eq]
  rcases namePart_append_cases family (component.getD "") with hempty | ⟨front, hfront⟩
  · rw [hempty, String.empty_append, hpiece, List.getLast?_singleton]
  · have hcut : (front ++ "-" ++ Text.fingerprint es.canonical).toList =
        front.toList ++ '-' :: (Text.fingerprint es.canonical).toList := by
      simp
    rw [hfront, hcut, Text.pieces_append_separator, hpiece, List.getLast?_concat]

/-- Under one first part, two class names are equal exactly if their parts for the component are the
same, an absent one being the same as an empty one, and the trees have one fingerprint. -/
theorem className_eq_className_iff (es fs : Sheet) (family : String)
    (component component' : Option String) :
    es.className family component = fs.className family component' ↔
      component.getD "" = component'.getD "" ∧
        Text.fingerprint es.canonical = Text.fingerprint fs.canonical := by
  constructor
  · intro h
    have hlast : some (Text.fingerprint es.canonical).toList =
        some (Text.fingerprint fs.canonical).toList := by
      rw [← getLast?_pieces_className es family component, h, getLast?_pieces_className]
    have hfingerprint : Text.fingerprint es.canonical = Text.fingerprint fs.canonical :=
      String.toList_inj.mp (Option.some.inj hlast)
    -- What stands in front of the fingerprint starts with the first part in both names.
    rw [className_eq, className_eq, hfingerprint, String.append_left_inj,
      String.append_right_inj] at h
    exact ⟨namePart_inj h, hfingerprint⟩
  · rintro ⟨hcomponent, hfingerprint⟩
    rw [className_eq, className_eq, hcomponent, hfingerprint]

end Sheet

end StyleTree
