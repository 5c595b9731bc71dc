import StyleTree.Proofs.Number.Digits

/-!
# Reading a decimal off its text

A written decimal says which decimal it is, whichever layout it is written in. Before the point of a
positional text stand the digits up to the point, behind it the others; of an exponential text the
letter shows where the digits end. Neither zero digits at the ends nor a fraction `.0` can be
mistaken for digits of the decimal, because the first and the last digit of a decimal are not zero.

## Main definitions

* `Decimal.IsNormal` — a decimal whose first and last digits are not zero
* `Decimal.whole`, `Decimal.fraction` — the digits before and behind the point
* `Decimal.mantissa` — the digits before the exponent

## Main results

* `Interval.isNormal_shortest` — the shortest decimal of a number is normal
* `Layout.write_eq_write_iff` — when two decimals have one text, in whatever layouts
* `Layout.write_style_eq_write_json_iff` — when the two layouts in use write one text
-/

namespace StyleTree

variable {c : Char} {a b u v ds ds' : List Char} {n k m : Nat}

/-! ### Texts and where they part -/

/-- What stands before the first place of a character is told apart from what follows. -/
theorem append_inj_of_not_mem (ha : c ∉ a) (hb : c ∉ b) (hu : ∀ d ∈ u.head?, d = c)
    (hv : ∀ d ∈ v.head?, d = c) (h : a ++ u = b ++ v) : a = b ∧ u = v := by
  have hstop {w : List Char} (hw : ∀ d ∈ w.head?, d = c) : w.takeWhile (· ≠ c) = [] := by
    cases w with
    | nil => rfl
    | cons d w => simp [hw d rfl]
  have hpos {w : List Char} (hw : c ∉ w) : ∀ d ∈ w, decide (d ≠ c) = true := fun d hd =>
    decide_eq_true fun heq => hw (heq ▸ hd)
  have htake := congrArg (List.takeWhile (· ≠ c)) h
  rw [List.takeWhile_append_of_pos (hpos ha), List.takeWhile_append_of_pos (hpos hb), hstop hu,
    hstop hv, List.append_nil, List.append_nil] at htake
  subst htake
  exact ⟨rfl, List.append_cancel_left h⟩

/-- Zeros in front are told apart from the digits behind them. -/
theorem replicate_append_inj (hds : ds.head? ≠ some '0') (hds' : ds'.head? ≠ some '0')
    (h : List.replicate n '0' ++ ds = List.replicate m '0' ++ ds') : n = m ∧ ds = ds' := by
  have hstop {w : List Char} (hw : w.head? ≠ some '0') : w.dropWhile (· = '0') = w := by
    cases w with
    | nil => rfl
    | cons d w =>
      have hd : d ≠ '0' := fun heq => hw (heq ▸ rfl)
      exact List.dropWhile_cons_of_neg (by simpa using hd)
  have hzeros (i : Nat) : ∀ d ∈ List.replicate i '0', decide (d = '0') = true := fun d hd =>
    decide_eq_true (List.eq_of_mem_replicate hd)
  have hdrop := congrArg (List.dropWhile (· = '0')) h
  rw [List.dropWhile_append_of_pos (hzeros n), List.dropWhile_append_of_pos (hzeros m), hstop hds,
    hstop hds'] at hdrop
  subst hdrop
  have hlength := congrArg List.length (List.append_cancel_right h)
  exact ⟨by simpa using hlength, rfl⟩

/-- Zeros at the end are told apart from the digits before them. -/
theorem append_replicate_inj (hds : ds.getLast? ≠ some '0') (hds' : ds'.getLast? ≠ some '0')
    (h : ds ++ List.replicate n '0' = ds' ++ List.replicate m '0') : ds = ds' := by
  have hreverse := congrArg List.reverse h
  rw [List.reverse_append, List.reverse_append, List.reverse_replicate,
    List.reverse_replicate] at hreverse
  have hinj := replicate_append_inj (by rwa [List.head?_reverse]) (by rwa [List.head?_reverse])
    hreverse
  exact List.reverse_inj.mp hinj.2

/-! ### Normal decimals -/

namespace Decimal

/-- A decimal whose first and last digits are not zero. -/
structure IsNormal (d : Decimal) : Prop where
  isDigit : ∀ c ∈ d.digits, c.isDigit
  ne_nil : d.digits ≠ []
  head_ne : d.digits.head? ≠ some '0'
  last_ne : d.digits.getLast? ≠ some '0'

theorem isNormal_ofNat (hn : 0 < n) (exponent : Int) : (Decimal.ofNat n exponent).IsNormal := by
  have hzeros := dropZeros_append_replicate (Nat.toDigits 10 n)
  have hfront := head?_toDigits_ne hn
  have hne : (Decimal.ofNat n exponent).digits ≠ [] := by
    intro hnil
    have hnil : ((Nat.toDigits 10 n).reverse.dropWhile (· = '0')).reverse = [] := hnil
    rw [hnil, List.nil_append, List.length_nil, Nat.sub_zero] at hzeros
    -- Then all digits are zeros, and there is one at least.
    rw [← hzeros] at hfront
    have hpos : 0 < (Nat.toDigits 10 n).length := Nat.length_toDigits_pos
    cases hlength : (Nat.toDigits 10 n).length with
    | zero => omega
    | succ l => simp [hlength, List.replicate_succ] at hfront
  refine ⟨fun c hc => isDigit_of_mem_ofNat hc, hne, ?_, ?_⟩
  · intro hhead
    rw [← hzeros, List.head?_append] at hfront
    exact hfront (Option.or_eq_some_iff.mpr (.inl hhead))
  · have hlast : (Decimal.ofNat n exponent).digits.getLast? =
        ((Nat.toDigits 10 n).reverse.dropWhile (· = '0')).head? := List.getLast?_reverse
    have hdrop := List.head?_dropWhile_not (· = '0') (Nat.toDigits 10 n).reverse
    rw [hlast]
    intro heq
    rw [heq] at hdrop
    simp at hdrop

/-! ### The digits around the point -/

/-- The digits before the point of a positional decimal. -/
def whole (d : Decimal) : List Char :=
  if d.point ≤ 0 then ['0']
  else d.digits.take d.point.toNat ++ List.replicate (d.point.toNat - d.digits.length) '0'

/-- The digits behind the point of a positional decimal. -/
def fraction (d : Decimal) : List Char :=
  if d.point ≤ 0 then List.replicate (-d.point).toNat '0' ++ d.digits
  else d.digits.drop d.point.toNat

/-- The digits before the exponent, with the point behind the first one. -/
def mantissa (d : Decimal) : List Char :=
  match d.digits with
  | first :: second :: rest => first :: '.' :: second :: rest
  | digits => digits

variable {d d' : Decimal}

theorem fraction_eq_nil_iff (hd : d.digits ≠ []) :
    d.fraction = [] ↔ (d.digits.length : Int) ≤ d.point := by
  have hlength := List.length_pos_iff.mpr hd
  rw [fraction]
  by_cases hpoint : d.point ≤ 0
  · rw [if_pos hpoint]
    simp only [List.append_eq_nil_iff, hd, and_false, false_iff]
    omega
  · rw [if_neg hpoint, List.drop_eq_nil_iff]
    omega

/-- No zero stands at the end of a fraction. -/
theorem IsNormal.fraction_last_ne (hd : d.IsNormal) : d.fraction.getLast? ≠ some '0' := by
  rw [fraction]
  split
  · cases hlast : d.digits.getLast? with
    | none => exact absurd (List.getLast?_eq_none_iff.mp hlast) hd.ne_nil
    | some c =>
      rw [List.getLast?_append, hlast, Option.some_or, ← hlast]
      exact hd.last_ne
  · rw [List.getLast?_drop]
    split
    · exact nofun
    · exact hd.last_ne

theorem IsNormal.whole_eq_zero_iff (hd : d.IsNormal) : d.whole = ['0'] ↔ d.point ≤ 0 := by
  rw [whole]
  by_cases hpoint : d.point ≤ 0
  · simp [hpoint]
  · rw [if_neg hpoint]
    refine ⟨fun h => ?_, fun h => absurd h hpoint⟩
    -- The first digit is not zero, so it is not the zero before a point.
    obtain ⟨k, hk⟩ : ∃ k, d.point.toNat = k + 1 := ⟨d.point.toNat - 1, by omega⟩
    have hhead := hd.head_ne
    cases hdigits : d.digits with
    | nil => exact absurd hdigits hd.ne_nil
    | cons first rest =>
      rw [hdigits, hk, List.take_succ_cons, List.cons_append] at h
      rw [hdigits, (List.cons.inj h).1] at hhead
      exact absurd rfl hhead

theorem whole_append_fraction (hpoint : 0 < d.point) :
    d.whole.length = d.point.toNat ∧ d.whole ++ d.fraction =
      d.digits ++ List.replicate (d.point.toNat - d.digits.length) '0' := by
  have hnot : ¬ d.point ≤ 0 := Int.not_le.mpr hpoint
  rw [whole, fraction, if_neg hnot, if_neg hnot]
  refine ⟨?_, ?_⟩
  · rw [List.length_append, List.length_take, List.length_replicate]
    omega
  · -- Either there are no digits behind the point, or no zeros before it.
    rcases Nat.le_total d.digits.length d.point.toNat with hle | hge
    · rw [List.take_of_length_le hle, List.drop_of_length_le hle, List.append_nil]
    · rw [Nat.sub_eq_zero_of_le hge, List.replicate_zero, List.append_nil, List.append_nil,
        List.take_append_drop]

/-- The digits before and behind the point make up the decimal. -/
theorem IsNormal.eq_of_parts (hd : d.IsNormal) (hd' : d'.IsNormal) (hwhole : d.whole = d'.whole)
    (hfraction : d.fraction = d'.fraction) : d = d' := by
  have hpoints : d.point ≤ 0 ↔ d'.point ≤ 0 := by
    rw [← hd.whole_eq_zero_iff, hwhole, hd'.whole_eq_zero_iff]
  by_cases hpoint : d.point ≤ 0
  · rw [fraction, fraction, if_pos hpoint, if_pos (hpoints.mp hpoint)] at hfraction
    obtain ⟨hzeros, hdigits⟩ := replicate_append_inj hd.head_ne hd'.head_ne hfraction
    have hpoint' := hpoints.mp hpoint
    have heq : d.point = d'.point := by omega
    cases d
    cases d'
    exact congr (congrArg Decimal.mk hdigits) heq
  · have hpos : 0 < d.point := Int.not_le.mp hpoint
    have hpos' : 0 < d'.point := Int.not_le.mp (mt hpoints.mpr hpoint)
    obtain ⟨hlength, hdigits⟩ := whole_append_fraction hpos
    obtain ⟨hlength', hdigits'⟩ := whole_append_fraction hpos'
    rw [hwhole, hfraction, hdigits'] at hdigits
    have hdigits := append_replicate_inj hd'.last_ne hd.last_ne hdigits
    have heq : d.point = d'.point := by
      rw [hwhole, hlength'] at hlength
      omega
    cases d
    cases d'
    exact congr (congrArg Decimal.mk hdigits.symm) heq

theorem mantissa_inj (hd : d.IsNormal) (hd' : d'.IsNormal) (h : d.mantissa = d'.mantissa) :
    d.digits = d'.digits := by
  have hpoint {e : Decimal} (he : e.IsNormal) : '.' ∉ e.digits := fun hmem =>
    absurd (he.isDigit _ hmem) (by decide)
  have hnot := hpoint hd
  have hnot' := hpoint hd'
  unfold mantissa at h
  -- A point stands in a mantissa exactly if there are two digits at least.
  split at h <;> split at h
  · next hdigits _ _ _ _ hdigits' =>
    rw [hdigits, hdigits']
    simpa using h
  · rw [← h] at hnot'
    exact absurd (List.mem_cons_of_mem _ List.mem_cons_self) hnot'
  · rw [h] at hnot
    exact absurd (List.mem_cons_of_mem _ List.mem_cons_self) hnot
  · exact h

end Decimal

/-! ### Written decimals -/

namespace Layout

variable {d d' : Decimal} {l l' : Layout}

/-- What stands behind the digits before the point. -/
def rest (l : Layout) (d : Decimal) : List Char :=
  if d.fraction = [] then if l.fraction then ['.', '0'] else [] else '.' :: d.fraction

theorem head?_rest (l : Layout) (d : Decimal) : ∀ c ∈ (l.rest d).head?, c = '.' := by
  unfold rest
  split
  · cases l.fraction <;> simp
  · simp

theorem rest_inj (hd : d.IsNormal) (hd' : d'.IsNormal) (h : l.rest d = l'.rest d') :
    d.fraction = d'.fraction ∧ (d.fraction = [] → l.fraction = l'.fraction) := by
  -- A fraction `.0` is none of a decimal, because the last digit of a fraction is not zero.
  have hzero {e : Decimal} (he : e.IsNormal) {flag : Bool} (hne : e.fraction ≠ []) :
      (if flag then ['.', '0'] else []) ≠ '.' :: e.fraction := by
    have hlast := he.fraction_last_ne
    cases flag with
    | false => simp
    | true =>
      intro heq
      rw [← (List.cons.inj heq).2] at hlast
      exact hlast rfl
  unfold rest at h
  by_cases hnil : d.fraction = [] <;> by_cases hnil' : d'.fraction = []
  · rw [if_pos hnil, if_pos hnil'] at h
    refine ⟨hnil.trans hnil'.symm, fun _ => ?_⟩
    cases hl : l.fraction <;> cases hl' : l'.fraction <;> simp [hl, hl'] at h ⊢
  · rw [if_pos hnil, if_neg hnil'] at h
    exact absurd h (hzero hd' hnil')
  · rw [if_neg hnil, if_pos hnil'] at h
    exact absurd h.symm (hzero hd hnil)
  · rw [if_neg hnil, if_neg hnil'] at h
    exact ⟨(List.cons.inj h).2, fun heq => absurd heq hnil⟩

theorem toList_positional (l : Layout) (hd : d.digits ≠ []) :
    (l.positional d).toList = d.whole ++ l.rest d := by
  have hnil := Decimal.fraction_eq_nil_iff hd
  have hlength := List.length_pos_iff.mpr hd
  unfold positional Decimal.whole rest
  dsimp only
  by_cases hpoint : d.point ≤ 0
  · have hne : d.fraction ≠ [] := by
      rw [ne_eq, hnil]
      omega
    rw [if_pos hpoint, if_pos hpoint, if_neg hne, Decimal.fraction, if_pos hpoint]
    simp
  · rw [if_neg hpoint, if_neg hpoint]
    by_cases hwhole : d.digits.length ≤ d.point.toNat
    · have heq : d.fraction = [] := hnil.mpr (by omega)
      rw [if_pos hwhole, if_pos heq, List.take_of_length_le hwhole, String.toList_append,
        String.toList_ofList]
      cases l.fraction <;> rfl
    · have hne : d.fraction ≠ [] := by
        rw [ne_eq, hnil]
        omega
      have hzero : d.point.toNat - d.digits.length = 0 := by omega
      rw [if_neg hwhole, if_neg hne, Decimal.fraction, if_neg hpoint, hzero]
      simp

theorem toList_exponential (d : Decimal) :
    (exponential d).toList = d.mantissa ++ 'e' :: (if 0 ≤ d.point - 1 then '+' else '-') ::
      Nat.toDigits 10 (d.point - 1).natAbs := by
  have hsign : (if 0 ≤ d.point - 1 then "e+" else "e-").toList =
      ['e', if 0 ≤ d.point - 1 then '+' else '-'] := by
    split <;> rfl
  unfold exponential Decimal.mantissa
  dsimp only
  rw [String.toList_append, String.toList_append, hsign, Nat.toString_eq_ofList_toDigits,
    String.toList_ofList, List.append_assoc, List.cons_append, List.cons_append, List.nil_append]
  congr 1
  rcases d.digits with _ | ⟨first, _ | ⟨second, rest⟩⟩ <;> exact String.toList_ofList

theorem point_not_mem_whole (hd : d.IsNormal) : '.' ∉ d.whole := by
  have hpoint : '.' ∉ d.digits := fun h => absurd (hd.isDigit _ h) (by decide)
  rw [Decimal.whole]
  split
  · decide
  · rw [List.mem_append, not_or]
    exact ⟨fun h => hpoint (List.mem_of_mem_take h),
      fun h => absurd (List.eq_of_mem_replicate h) (by decide)⟩

theorem letter_not_mem_mantissa (hd : d.IsNormal) : 'e' ∉ d.mantissa := by
  have hletter : 'e' ∉ d.digits := fun h => absurd (hd.isDigit _ h) (by decide)
  unfold Decimal.mantissa
  split
  · next first second rest hdigits =>
    rw [hdigits] at hletter
    simpa using hletter
  · exact hletter

theorem letter_not_mem_positional (hd : d.IsNormal) (l : Layout) :
    'e' ∉ (l.positional d).toList := by
  have hletter : 'e' ∉ d.digits := fun h => absurd (hd.isDigit _ h) (by decide)
  have htake (n : Nat) : 'e' ∉ d.digits.take n := fun h => hletter (List.mem_of_mem_take h)
  have hdrop (n : Nat) : 'e' ∉ d.digits.drop n := fun h => hletter (List.mem_of_mem_drop h)
  have hzeros (n : Nat) : 'e' ∉ List.replicate n '0' := fun h =>
    absurd (List.eq_of_mem_replicate h) (by decide)
  unfold positional
  dsimp only
  split
  · simp [hletter, hzeros]
  split
  · cases l.fraction <;> simp [hletter, hzeros]
  · simp [htake, hdrop]

/-- A positional text says which decimal it is. -/
theorem positional_inj (hd : d.IsNormal) (hd' : d'.IsNormal)
    (h : l.positional d = l'.positional d') :
    d = d' ∧ (d.fraction = [] → l.fraction = l'.fraction) := by
  rw [← String.toList_inj, toList_positional l hd.ne_nil, toList_positional l' hd'.ne_nil] at h
  obtain ⟨hwhole, hrest⟩ := append_inj_of_not_mem (point_not_mem_whole hd)
    (point_not_mem_whole hd') (head?_rest l d) (head?_rest l' d') h
  obtain ⟨hfraction, hlayouts⟩ := rest_inj hd hd' hrest
  exact ⟨hd.eq_of_parts hd' hwhole hfraction, hlayouts⟩

/-- An exponential text says which decimal it is. -/
theorem exponential_inj (hd : d.IsNormal) (hd' : d'.IsNormal)
    (h : exponential d = exponential d') : d = d' := by
  rw [← String.toList_inj, toList_exponential, toList_exponential] at h
  obtain ⟨hmantissa, hexponent⟩ := append_inj_of_not_mem (letter_not_mem_mantissa hd)
    (letter_not_mem_mantissa hd') (by simp) (by simp) h
  obtain ⟨hsign, hdigits⟩ := List.cons.inj (List.cons.inj hexponent).2
  have habs : (d.point - 1).natAbs = (d'.point - 1).natAbs := by
    have hvalue := congrArg (Nat.ofDigitChars 10 · 0) hdigits
    simpa using hvalue
  have hsigns : 0 ≤ d.point - 1 ↔ 0 ≤ d'.point - 1 := by
    by_cases hpos : 0 ≤ d.point - 1 <;> by_cases hpos' : 0 ≤ d'.point - 1 <;>
      simp only [hpos, hpos', ↓reduceIte, Char.reduceEq] at hsign ⊢
  have hpoint : d.point = d'.point := by omega
  have hdecimal := Decimal.mantissa_inj hd hd' hmantissa
  cases d
  cases d'
  exact congr (congrArg Decimal.mk hdecimal) hpoint

/-- Whether a layout writes the decimal positionally. -/
def IsPositional (l : Layout) (d : Decimal) : Prop :=
  l.leastPoint ≤ d.point ∧ d.point ≤ l.greatestPoint

theorem write_of_isPositional (h : l.IsPositional d) : l.write d = l.positional d :=
  if_pos h

theorem write_of_not_isPositional (h : ¬ l.IsPositional d) : l.write d = exponential d :=
  if_neg h

/-- A written decimal says which decimal it is, in whatever layouts. One that is written in the same
way by two layouts is positional in both of them or in neither, and if no digits stand behind its
point, both layouts write a fraction for it or neither. -/
theorem write_eq_write_iff (hd : d.IsNormal) (hd' : d'.IsNormal) :
    l.write d = l'.write d' ↔ d = d' ∧ (l.IsPositional d ↔ l'.IsPositional d) ∧
      (l.IsPositional d → d.fraction = [] → l.fraction = l'.fraction) := by
  have hletter {e : Decimal} : 'e' ∈ (exponential e).toList := by
    rw [toList_exponential]
    exact List.mem_append_right _ List.mem_cons_self
  by_cases hp : l.IsPositional d <;> by_cases hp' : l'.IsPositional d'
  · rw [write_of_isPositional hp, write_of_isPositional hp']
    constructor
    · intro h
      obtain ⟨rfl, hlayouts⟩ := positional_inj hd hd' h
      exact ⟨rfl, iff_of_true hp hp', fun _ => hlayouts⟩
    · rintro ⟨rfl, -, hlayouts⟩
      rw [← String.toList_inj, toList_positional l hd.ne_nil, toList_positional l' hd.ne_nil, rest,
        rest]
      by_cases hnil : d.fraction = []
      · rw [hlayouts hp hnil]
      · rw [if_neg hnil, if_neg hnil]
  -- The letter of the exponent stands in one of the two texts only.
  · rw [write_of_isPositional hp, write_of_not_isPositional hp']
    constructor
    · exact fun h => absurd (h ▸ hletter) (letter_not_mem_positional hd l)
    · rintro ⟨rfl, hboth, -⟩
      exact absurd (hboth.mp hp) hp'
  · rw [write_of_not_isPositional hp, write_of_isPositional hp']
    constructor
    · exact fun h => absurd (h ▸ hletter) (letter_not_mem_positional hd' l')
    · rintro ⟨rfl, hboth, -⟩
      exact absurd (hboth.mpr hp') hp
  · rw [write_of_not_isPositional hp, write_of_not_isPositional hp']
    constructor
    · intro h
      obtain rfl := exponential_inj hd hd' h
      exact ⟨rfl, iff_of_false hp hp', fun h => absurd h hp⟩
    · rintro ⟨rfl, -, -⟩
      rfl

/-- Two decimals with one text in a layout are one. -/
theorem write_inj (hd : d.IsNormal) (hd' : d'.IsNormal) :
    l.write d = l.write d' ↔ d = d' := by
  rw [write_eq_write_iff hd hd']
  exact ⟨fun h => h.1, fun h => ⟨h, Iff.rfl, fun _ _ => rfl⟩⟩

/-- A decimal is written as in a style value and as in a JSON document alike, except if its point
lies where only one of them is positional, or if no digits stand behind the point of a decimal that
is positional in JSON. -/
theorem write_style_eq_write_json_iff (hd : d.IsNormal) (hd' : d'.IsNormal) :
    Layout.style.write d = Layout.json.write d' ↔ d = d' ∧
      (d.point < -5 ∨ -4 ≤ d.point ∧ d.point ≤ 16 ∧ d.point < d.digits.length ∨
        21 < d.point) := by
  have hfraction := Decimal.fraction_eq_nil_iff hd.ne_nil
  have hflags : Layout.style.fraction ≠ Layout.json.fraction := by decide
  rw [write_eq_write_iff hd hd', hfraction]
  simp only [IsPositional, hflags, imp_false]
  refine and_congr_right fun _ => ?_
  have hstyle : Layout.style.leastPoint = -5 ∧ Layout.style.greatestPoint = 21 := ⟨rfl, rfl⟩
  have hjson : Layout.json.leastPoint = -4 ∧ Layout.json.greatestPoint = 16 := ⟨rfl, rfl⟩
  rw [hstyle.1, hstyle.2, hjson.1, hjson.2]
  omega

end Layout

/-! ### The shortest decimal of a number -/

namespace Interval

variable {i : Interval} {tie : Tie}

/-- A positive interval does not hold zero. -/
theorem pos_of_holds {k : Int} {q : Nat} (hlow : 0 < i.low) (h : i.holds k q = true) : 0 < q := by
  apply Nat.pos_of_ne_zero
  rintro rfl
  have hpow : 0 < i.low * 10 ^ (-k).toNat := Nat.mul_pos hlow (Nat.pow_pos (by decide))
  unfold holds at h
  cases hclosed : i.closed with
  | true =>
    simp [hclosed] at h
    omega
  | false => simp [hclosed] at h

theorem isNormal_shortest (hlow : 0 < i.low) (hvalue : 0 < i.value) (tie : Tie) :
    (i.shortest tie).IsNormal := by
  rw [shortest_eq_attempt]
  cases hfound : (List.range 17).findSome? (i.attempt tie) with
  | none => exact Decimal.isNormal_ofNat hvalue 0
  | some d =>
    obtain ⟨places, -, hd⟩ := List.exists_of_findSome?_eq_some hfound
    obtain ⟨q, hq, rfl⟩ := Option.map_eq_some_iff.mp hd
    exact Decimal.isNormal_ofNat (pos_of_holds hlow (holds_of_nearestMultiple? hq)) _

/-- The interval of a number that is not zero is positive. -/
theorem ofFields_pos {e : Fin 2047} {f : Fin fractionCount} (h : 0 < Number.significand e f) :
    0 < (ofFields e f).low ∧ 0 < (ofFields e f).value := by
  have hunit : 0 < 2 ^ (Number.scale e - 2).toNat := Nat.pow_pos (by decide)
  simp only [ofFields, Nat.pow_eq]
  refine ⟨Nat.mul_pos ?_ hunit, Nat.mul_pos (by omega) hunit⟩
  split <;> omega

end Interval

end StyleTree
