import StyleTree.Number.Layout

/-!
# The characters of written numbers

A finite number is written with digits, a point, signs and the letter of an exponent. None of these
characters has a meaning in the structure of a document, so a number ends where the first other
character stands.

## Main definitions

* `Interval.attempt` — the decimals among which the shortest one is found
* `Number.isPart` — the characters of written finite numbers

## Main results

* `Decimal.isDigit_of_mem_ofNat` — the digits of a decimal are digits
* `Number.isPart_of_mem_styleText` — a style value that is a finite number has no other characters
-/

namespace StyleTree

variable {c : Char} {n : Nat} {k : Int} {negative : Bool} {e : Fin 2047} {f : Fin fractionCount}

/-! ### Digits -/

/-- A positive number has no zero in front. -/
theorem head?_toDigits_ne (hn : 0 < n) : (Nat.toDigits 10 n).head? ≠ some '0' := by
  induction n using Nat.strongRecOn with
  | ind n ih =>
    rcases Nat.lt_or_ge n 10 with hlt | hge
    · rw [Nat.toDigits_of_lt_base hlt]
      have hdigit : ∀ d < 10, 0 < d → [Nat.digitChar d].head? ≠ some '0' := by decide
      exact hdigit n hlt hn
    · -- The last digit is taken off, which leaves a positive number.
      rw [Nat.toDigits_of_base_le (by decide) hge, List.head?_append]
      have hfront := ih (n / 10) (by omega) (by omega)
      cases hdigits : Nat.toDigits 10 (n / 10) with
      | nil => exact absurd hdigits Nat.toDigits_ne_nil
      | cons c cs => simpa [hdigits] using hfront

theorem Decimal.isDigit_of_mem_ofNat (h : c ∈ (Decimal.ofNat n k).digits) : c.isDigit := by
  have hmem : c ∈ (Nat.toDigits 10 n).reverse :=
    (List.dropWhile_sublist _).mem (List.mem_reverse.mp h)
  exact Nat.isDigit_of_mem_toDigits (by decide) (by decide) (List.mem_reverse.mp hmem)

namespace Interval

/-- The decimal that is tried with `places` digits after the first one. -/
def attempt (tie : Tie) (i : Interval) (places : Nat) : Option Decimal :=
  (i.nearestMultiple? tie (i.point - (places + 1 : Nat))).map
    (Decimal.ofNat · (i.point - (places + 1 : Nat)))

theorem shortest_eq_attempt (tie : Tie) (i : Interval) :
    i.shortest tie =
      ((List.range 17).findSome? (i.attempt tie)).getD (Decimal.ofNat i.value 0) := rfl

theorem exists_shortest_eq (tie : Tie) (i : Interval) :
    ∃ n k, i.shortest tie = Decimal.ofNat n k := by
  rw [shortest_eq_attempt]
  cases hfound : (List.range 17).findSome? (i.attempt tie) with
  | none => exact ⟨i.value, 0, rfl⟩
  | some d =>
    obtain ⟨p, -, hp⟩ := List.exists_of_findSome?_eq_some hfound
    obtain ⟨n, -, hn⟩ := Option.map_eq_some_iff.mp hp
    exact ⟨n, _, hn.symm⟩

end Interval

/-! ### Layouts -/

/-- The characters that a finite number is written with. -/
def Number.isPart (c : Char) : Bool :=
  c.isDigit || c = '.' || c = 'e' || c = '+' || c = '-'

open Number (isPart)

theorem Number.isPart_of_isDigit (h : c.isDigit) : isPart c := by
  simp [isPart, h]

theorem Number.isPart_of_all {s : String} (h : s.toList.all isPart) : ∀ c ∈ s.toList, isPart c :=
  List.all_eq_true.mp h

namespace Layout

variable {l : Layout} {d : Decimal}

theorem isPart_of_mem_positional (hd : ∀ c ∈ d.digits, isPart c) :
    ∀ c ∈ (l.positional d).toList, isPart c := by
  have hzeros (m : Nat) : ∀ c ∈ List.replicate m '0', isPart c := fun c hc =>
    List.eq_of_mem_replicate hc ▸ rfl
  unfold positional
  dsimp only
  split
  · simp only [String.toList_append, String.toList_ofList, List.forall_mem_append]
    exact ⟨Number.isPart_of_all (by decide), hzeros _, hd⟩
  split
  · have hfraction : ∀ c ∈ (if l.fraction then ".0" else "").toList, isPart c := by
      split <;> exact Number.isPart_of_all (by decide)
    simp only [String.toList_append, String.toList_ofList, List.forall_mem_append]
    exact ⟨⟨hd, hzeros _⟩, hfraction⟩
  · simp only [String.toList_append, String.toList_ofList, List.forall_mem_append]
    exact ⟨⟨fun c hc => hd c (List.mem_of_mem_take hc), Number.isPart_of_all (by decide)⟩,
      fun c hc => hd c (List.mem_of_mem_drop hc)⟩

theorem isPart_of_mem_exponential (hd : ∀ c ∈ d.digits, isPart c) :
    ∀ c ∈ (exponential d).toList, isPart c := by
  have hsign : ∀ c ∈ (if 0 ≤ d.point - 1 then "e+" else "e-").toList, isPart c := by
    split <;> exact Number.isPart_of_all (by decide)
  have hexponent : ∀ c ∈ (toString (d.point - 1).natAbs).toList, isPart c := fun c hc => by
    rw [Nat.toString_eq_ofList_toDigits, String.toList_ofList] at hc
    exact Number.isPart_of_isDigit (Nat.isDigit_of_mem_toDigits (by decide) (by decide) hc)
  unfold exponential
  simp only [String.toList_append, List.forall_mem_append]
  refine ⟨⟨?_, hsign⟩, hexponent⟩
  split
  · next first second rest hdigits =>
    rw [hdigits] at hd
    obtain ⟨hfirst, hrest⟩ := List.forall_mem_cons.mp hd
    rw [String.toList_ofList]
    exact List.forall_mem_cons.mpr ⟨hfirst, List.forall_mem_cons.mpr ⟨rfl, hrest⟩⟩
  · rw [String.toList_ofList]
    exact hd

theorem isPart_of_mem_writeFields :
    ∀ c ∈ (l.writeFields negative e f).toList, isPart c := by
  obtain ⟨n, k, hshortest⟩ := (Interval.ofFields e f).exists_shortest_eq l.tie
  have hd : ∀ c ∈ (Decimal.ofNat n k).digits, isPart c := fun c hc =>
    Number.isPart_of_isDigit (Decimal.isDigit_of_mem_ofNat hc)
  have hsign : ∀ c ∈ (if negative then "-" else "").toList, isPart c := by
    split <;> exact Number.isPart_of_all (by decide)
  rw [writeFields, hshortest, write, String.toList_append, List.forall_mem_append]
  refine ⟨hsign, ?_⟩
  split
  · exact isPart_of_mem_positional hd
  · exact isPart_of_mem_exponential hd

end Layout

/-- A finite number as a style value has no other characters. -/
theorem Number.isPart_of_mem_styleText {x : Number} (hx : x.isFinite) :
    ∀ c ∈ x.styleText.toList, isPart c := by
  cases x with
  | nan => simp [isFinite] at hx
  | infinite negative => simp [isFinite] at hx
  | finite negative e f =>
    rw [styleText]
    split
    · exact isPart_of_all (by decide)
    · exact Layout.isPart_of_mem_writeFields

end StyleTree
