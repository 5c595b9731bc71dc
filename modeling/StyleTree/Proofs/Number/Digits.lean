import StyleTree.Proofs.Number.Integer
import StyleTree.Proofs.Number.Text

/-!
# Written integers

An integer of magnitude at most `2 ^ 53` is written with its own decimal digits. The numbers that
read back as such a number hold no other integer, so every decimal that is tried before the integer
itself and holds a power of ten is the integer without the zeros at its end; the layout puts these
zeros back.

## Main definitions

* `Interval.IsInteger` — an interval around an integer that holds no other one

## Main results

* `Interval.IsInteger.shortest_eq` — the shortest decimal is that of the integer
* `Number.styleText_of_toInt?_eq_some` — the text of an integer as a style value
-/

namespace StyleTree

variable {n q k : Nat}

/-! ### Lengths of numerals -/

theorem lt_pow_length_toDigits (n : Nat) : n < 10 ^ (Nat.toDigits 10 n).length :=
  (Nat.length_toDigits_le_iff (by decide) Nat.length_toDigits_pos).mp (Nat.le_refl _)

theorem pow_length_toDigits_le (hn : 0 < n) : 10 ^ ((Nat.toDigits 10 n).length - 1) ≤ n := by
  rcases Nat.eq_zero_or_pos ((Nat.toDigits 10 n).length - 1) with hzero | hpos
  · rw [hzero]
    exact hn
  · apply Nat.not_lt.mp
    intro hlt
    have hle := (Nat.length_toDigits_le_iff (by decide) hpos).mpr hlt
    omega

/-- A product has as many digits as its factors have together, or one digit less. -/
theorem length_toDigits_mul (hn : 0 < n) (hq : 0 < q) :
    (Nat.toDigits 10 (n * q)).length ≤
        (Nat.toDigits 10 n).length + (Nat.toDigits 10 q).length ∧
      (Nat.toDigits 10 n).length + (Nat.toDigits 10 q).length ≤
        (Nat.toDigits 10 (n * q)).length + 1 := by
  constructor
  · have hlt := Nat.mul_lt_mul'' (lt_pow_length_toDigits n) (lt_pow_length_toDigits q)
    rw [← Nat.pow_add] at hlt
    exact (Nat.length_toDigits_le_iff (by decide)
      (Nat.add_pos_left Nat.length_toDigits_pos _)).mpr hlt
  · have hle := Nat.mul_le_mul (pow_length_toDigits_le hn) (pow_length_toDigits_le hq)
    rw [← Nat.pow_add] at hle
    have hlt := Nat.lt_of_le_of_lt hle (lt_pow_length_toDigits (n * q))
    have hexponents := (Nat.pow_lt_pow_iff_right (by decide)).mp hlt
    omega

/-! ### Zeros at the end -/

theorem toDigits_mul_pow (hq : 0 < q) (k : Nat) :
    Nat.toDigits 10 (q * 10 ^ k) = Nat.toDigits 10 q ++ List.replicate k '0' := by
  induction k with
  | zero => simp
  | succ k ih =>
    have hpos : 0 < q * 10 ^ k := Nat.mul_pos hq (Nat.pow_pos (by decide))
    have hstep : q * 10 ^ (k + 1) = 10 * (q * 10 ^ k) + 0 := by
      rw [Nat.pow_succ, ← Nat.mul_assoc, Nat.mul_comm, Nat.add_zero]
    have hzero : Nat.toDigits 10 0 = ['0'] := by decide
    rw [hstep, ← Nat.toDigits_append_toDigits (by decide) hpos (by decide), ih, hzero,
      List.replicate_succ', List.append_assoc]

/-- Zeros at the end of an integer are no part of its decimal. -/
theorem Decimal.ofNat_mul_pow (hq : 0 < q) (k : Nat) :
    Decimal.ofNat (q * 10 ^ k) 0 = Decimal.ofNat q k := by
  rw [Decimal.ofNat, Decimal.ofNat, toDigits_mul_pow hq, List.reverse_append,
    List.reverse_replicate, List.dropWhile_append_of_pos]
  · simp
  · intro c hc
    simp [List.eq_of_mem_replicate hc]

/-- A text without the zeros at its end, with as many zeros after it. -/
theorem dropZeros_append_replicate (cs : List Char) :
    (cs.reverse.dropWhile (· = '0')).reverse ++
      List.replicate (cs.length - (cs.reverse.dropWhile (· = '0')).reverse.length) '0' = cs := by
  have hsplit := List.takeWhile_append_dropWhile (p := (· = '0')) (l := cs.reverse)
  have hall := List.all_takeWhile (p := (· = '0')) (l := cs.reverse)
  generalize cs.reverse.takeWhile (· = '0') = zeros at hsplit hall
  generalize cs.reverse.dropWhile (· = '0') = core at hsplit ⊢
  have hzeros : zeros = List.replicate zeros.length '0' :=
    List.eq_replicate_of_mem fun c hc => by simpa using List.all_eq_true.mp hall c hc
  have hcs : cs = core.reverse ++ zeros.reverse := by
    rw [← List.reverse_append, hsplit, List.reverse_reverse]
  have hlength : cs.length - core.reverse.length = zeros.length := by
    rw [hcs, List.length_append, Nat.add_sub_cancel_left, List.length_reverse]
  rw [hlength, ← List.reverse_replicate, ← hzeros, ← hcs]

/-! ### The interval of an integer -/

namespace Interval

variable {i : Interval} {tie : Tie}

/-- The interval around an integer, that holds no other integer. -/
structure IsInteger (i : Interval) (n : Nat) : Prop where
  pos : 0 < n
  den_pos : 0 < i.den
  value_eq : i.value = n * i.den
  low_lt : i.low < i.value
  lt_high : i.value < i.high
  unique : ∀ m, i.low ≤ m * i.den → m * i.den ≤ i.high → m = n

theorem holds_natCast : i.holds k q = true → i.low ≤ q * 10 ^ k * i.den ∧
    q * 10 ^ k * i.den ≤ i.high := by
  have hcomm : q * i.den * 10 ^ k = q * 10 ^ k * i.den := Nat.mul_right_comm _ _ _
  intro h
  unfold holds at h
  cases hclosed : i.closed
  · simp [hclosed, hcomm] at h
    omega
  · simpa [hclosed, hcomm] using h

theorem IsInteger.mul_pow_eq (h : i.IsInteger n) (hq : i.holds k q = true) : q * 10 ^ k = n :=
  h.unique _ (holds_natCast hq).1 (holds_natCast hq).2

theorem IsInteger.holds_zero (h : i.IsInteger n) : i.holds 0 n = true := by
  have hlow := h.low_lt
  have hhigh := h.lt_high
  rw [h.value_eq] at hlow hhigh
  cases hclosed : i.closed
  · simpa [holds, hclosed] using ⟨hlow, hhigh⟩
  · simpa [holds, hclosed] using ⟨Nat.le_of_lt hlow, Nat.le_of_lt hhigh⟩

theorem holds_of_nearestMultiple? {k : Int} (h : i.nearestMultiple? tie k = some q) :
    i.holds k q = true := by
  -- Each result stands in a case of the match that has tested it.
  unfold nearestMultiple? at h
  grind

theorem IsInteger.nearestMultiple?_zero (h : i.IsInteger n) :
    i.nearestMultiple? tie 0 = some n := by
  have hfloor : i.value / i.den = n := by
    rw [h.value_eq, Nat.mul_div_cancel _ h.den_pos]
  have hnext : i.holds 0 (n + 1) = false := by
    rw [← Bool.not_eq_true]
    intro hholds
    have heq := h.mul_pow_eq (k := 0) hholds
    omega
  simp [nearestMultiple?, hfloor, h.holds_zero, hnext]

/-- What is found at a power of ten that is an integer is the integer without zeros at its end. -/
theorem IsInteger.ofNat_of_nearestMultiple? (h : i.IsInteger n)
    (hq : i.nearestMultiple? tie k = some q) : Decimal.ofNat q k = Decimal.ofNat n 0 := by
  have hn := h.mul_pow_eq (holds_of_nearestMultiple? hq)
  have hpos : 0 < q := by
    apply Nat.pos_of_ne_zero
    rintro rfl
    exact absurd h.pos (by omega)
  rw [← hn, Decimal.ofNat_mul_pow hpos]

/-- The place of the point of an integer is behind its last digit. -/
theorem IsInteger.point_eq (h : i.IsInteger n) : i.point = (Nat.toDigits 10 n).length := by
  have hlengths := length_toDigits_mul h.pos h.den_pos
  have hdigit : 0 < (Nat.toDigits 10 n).length := Nat.length_toDigits_pos
  rw [← h.value_eq] at hlengths
  -- The guess `g` is the number of digits, or one less; the comparison tells which.
  obtain ⟨g, hg⟩ : ∃ g, (Nat.toDigits 10 i.value).length = g + (Nat.toDigits 10 i.den).length :=
    ⟨_, (Nat.sub_add_cancel (by omega)).symm⟩
  have hguess : ((Nat.toDigits 10 i.value).length - (Nat.toDigits 10 i.den).length : Int) = g := by
    omega
  have hcompare : i.den * 10 ^ g ≤ i.value ↔ 10 ^ g ≤ n := by
    rw [h.value_eq, Nat.mul_comm n]
    exact Nat.mul_le_mul_left_iff h.den_pos
  have hlow : g + 1 = (Nat.toDigits 10 n).length → 10 ^ g ≤ n := by
    intro heq
    have hle := pow_length_toDigits_le h.pos
    rwa [← heq] at hle
  have hhigh : g = (Nat.toDigits 10 n).length → n < 10 ^ g := by
    rintro rfl
    exact lt_pow_length_toDigits n
  simp only [point, hguess, Int.toNat_natCast, Int.toNat_neg_natCast, Nat.pow_eq, Nat.pow_zero,
    Nat.mul_one, hcompare]
  split <;> omega

/-- All digits of the integer are found when as many are tried as it has. -/
theorem IsInteger.attempt_last (h : i.IsInteger n) :
    i.attempt tie ((Nat.toDigits 10 n).length - 1) = some (Decimal.ofNat n 0) := by
  have hdigit : 0 < (Nat.toDigits 10 n).length := Nat.length_toDigits_pos
  have hunits : i.point - ((Nat.toDigits 10 n).length - 1 + 1 : Nat) = 0 := by
    rw [h.point_eq]
    omega
  rw [attempt, hunits, h.nearestMultiple?_zero, Option.map_some]

/-- What is found with as many digits or fewer is the integer. -/
theorem IsInteger.eq_of_attempt {places : Nat} {d : Decimal} (h : i.IsInteger n)
    (hplaces : places < (Nat.toDigits 10 n).length) (hd : i.attempt tie places = some d) :
    d = Decimal.ofNat n 0 := by
  have hpower : i.point - (places + 1 : Nat) =
      ((Nat.toDigits 10 n).length - (places + 1) : Nat) := by
    rw [h.point_eq]
    omega
  rw [attempt, hpower] at hd
  obtain ⟨q, hq, hqd⟩ := Option.map_eq_some_iff.mp hd
  rw [← hqd, h.ofNat_of_nearestMultiple? hq]

/-- The shortest decimal is that of the integer. -/
theorem IsInteger.shortest_eq (h : i.IsInteger n) (hlength : (Nat.toDigits 10 n).length ≤ 17) :
    i.shortest tie = Decimal.ofNat n 0 := by
  have hdigit : 0 < (Nat.toDigits 10 n).length := Nat.length_toDigits_pos
  have hfound : (List.range (Nat.toDigits 10 n).length).findSome? (i.attempt tie) =
      some (Decimal.ofNat n 0) := by
    cases hfirst : (List.range (Nat.toDigits 10 n).length).findSome? (i.attempt tie) with
    | none =>
      have hlast := List.findSome?_eq_none_iff.mp hfirst _
        (List.mem_range.mpr (Nat.sub_one_lt_of_lt hdigit))
      rw [h.attempt_last] at hlast
      exact absurd hlast nofun
    | some d =>
      obtain ⟨places, hplaces, hd⟩ := List.exists_of_findSome?_eq_some hfirst
      rw [h.eq_of_attempt (List.mem_range.mp hplaces) hd]
  -- The tries behind that of all digits of the integer are not reached.
  have hrange : List.range 17 = List.range ((Nat.toDigits 10 n).length +
      (17 - (Nat.toDigits 10 n).length)) := by
    rw [Nat.add_sub_cancel' hlength]
  rw [shortest_eq_attempt, hrange, List.range_add, List.findSome?_append, hfound, Option.some_or,
    Option.getD_some]

/-- Two multiples of a denominator that are less than it apart are one. -/
theorem eq_of_mul_near {m d : Nat} (hd : 4 ≤ d) (hlow : n * d ≤ m * d + 2)
    (hhigh : m * d ≤ n * d + 2) : m = n := by
  rcases Nat.lt_trichotomy m n with hlt | heq | hgt
  · have hstep := Nat.mul_le_mul_right d (Nat.succ_le_of_lt hlt)
    rw [Nat.succ_mul] at hstep
    omega
  · exact heq
  · have hstep := Nat.mul_le_mul_right d (Nat.succ_le_of_lt hgt)
    rw [Nat.succ_mul] at hstep
    omega

/-- A number that is an integer below `2 ^ 53` is at least four quarters of a unit away from the
next integer, and its interval reaches two quarters at most. -/
theorem isInteger_ofFields {e : Fin 2047} {f : Fin fractionCount} {t : Nat} (hn : 0 < n)
    (ht : t ≤ 52) (he : e.val + t = 1075) (hf : f.val + 2 ^ 52 = n * 2 ^ t) :
    (ofFields e f).IsInteger n := by
  have hexponent : e.val ≠ 0 := by omega
  have hsig : Number.significand e f = n * 2 ^ t := by
    rw [Number.significand, if_neg hexponent]
    exact hf
  -- A quarter of a unit is still below one, so only the denominator has a power of two.
  have hup : (Number.scale e - 2).toNat = 0 := by
    rw [Number.scale]
    omega
  have hdown : (-(Number.scale e - 2)).toNat = t + 2 := by
    rw [Number.scale]
    omega
  have hden : n * 2 ^ (t + 2) = 4 * (n * 2 ^ t) := by
    rw [Nat.pow_add, ← Nat.mul_assoc]
    exact Nat.mul_comm _ 4
  have hpos : 0 < n * 2 ^ t := Nat.mul_pos hn (Nat.two_pow_pos t)
  have hfour : 4 ≤ 2 ^ (t + 2) := by
    have hone := Nat.two_pow_pos t
    rw [Nat.pow_add]
    omega
  constructor
  case pos => exact hn
  case den_pos =>
    simp only [ofFields, hdown, Nat.pow_eq]
    exact Nat.two_pow_pos _
  case value_eq =>
    simp only [ofFields, hsig, hup, hdown, hden, Nat.pow_eq, Nat.pow_zero, Nat.mul_one]
  case low_lt =>
    simp only [ofFields, hsig, hup, Nat.pow_eq, Nat.pow_zero, Nat.mul_one]
    split <;> omega
  case lt_high =>
    simp only [ofFields, hsig, hup, Nat.pow_eq, Nat.pow_zero, Nat.mul_one]
    omega
  case unique =>
    intro m hlow hhigh
    simp only [ofFields, hsig, hup, hdown, Nat.pow_eq, Nat.pow_zero, Nat.mul_one] at hlow hhigh
    refine eq_of_mul_near hfour ?_ (by omega)
    split at hlow <;> omega

end Interval

/-! ### The layout of an integer -/

/-- The positional decimal of an integer is its numeral. -/
theorem Layout.write_style_ofNat (hlength : (Nat.toDigits 10 n).length ≤ 21) :
    Layout.style.write (Decimal.ofNat n 0) = toString n := by
  have hdigit : 0 < (Nat.toDigits 10 n).length := Nat.length_toDigits_pos
  have hzeros := dropZeros_append_replicate (Nat.toDigits 10 n)
  have hdrop : ((Nat.toDigits 10 n).reverse.dropWhile (· = '0')).reverse.length ≤
      (Nat.toDigits 10 n).length := by
    have hsum := congrArg List.length hzeros
    rw [List.length_append] at hsum
    omega
  have hpoint : (Decimal.ofNat n 0).point = (Nat.toDigits 10 n).length := Int.add_zero _
  have hpositional : Layout.style.leastPoint ≤ ((Nat.toDigits 10 n).length : Int) ∧
      ((Nat.toDigits 10 n).length : Int) ≤ Layout.style.greatestPoint := by
    constructor <;> simp only [Layout.style] <;> omega
  have hwhole : ¬ ((Nat.toDigits 10 n).length : Int) ≤ 0 := by omega
  rw [write, hpoint, if_pos hpositional, positional, hpoint, if_neg hwhole, Int.toNat_natCast,
    Decimal.ofNat]
  simp only [hdrop, ↓reduceIte, hzeros, style, Bool.false_eq_true, String.append_empty,
    Nat.toString_eq_ofList_toDigits]

/-- The sign of an integer and its numeral. -/
theorem toString_eq_sign_append {i : Int} {negative : Bool} (hi : i ≠ 0)
    (hsign : i = if negative then -(i.natAbs : Int) else i.natAbs) :
    (if negative then "-" else "") ++ toString i.natAbs = toString i := by
  cases negative with
  | false =>
    have hpos : 0 ≤ i := hsign ▸ Int.natCast_nonneg i.natAbs
    obtain ⟨n, rfl⟩ := Int.eq_ofNat_of_zero_le hpos
    exact String.empty_append
  | true =>
    have hneg : i < 0 := by
      rw [if_pos rfl] at hsign
      omega
    obtain ⟨n, rfl⟩ := Int.eq_negSucc_of_lt_zero hneg
    rfl

/-- An integer as a style value is its numeral. -/
theorem Number.styleText_of_toInt?_eq_some {x : Number} {i : Int} (h : x.toInt? = some i)
    (hi : i.natAbs ≤ 2 ^ 53) : x.styleText = toString i := by
  cases x with
  | nan => exact absurd h nofun
  | infinite negative => exact absurd h nofun
  | finite negative e f =>
    rw [styleText]
    by_cases hzero : i = 0
    · subst hzero
      rw [if_pos ((isZero_iff_of_toInt? h).mpr rfl)]
      rfl
    rw [if_neg (mt (isZero_iff_of_toInt? h).mp hzero)]
    obtain ⟨hsign, hmag⟩ := toInt?_eq_some h
    have hpos : 0 < i.natAbs := Int.natAbs_pos.mpr hzero
    rcases Nat.lt_or_eq_of_le hi with hlt | heq
    · obtain ⟨t, ht, he, hf⟩ := fields_of_lt hpos hlt hmag
      have hlength : (Nat.toDigits 10 i.natAbs).length ≤ 16 :=
        (Nat.length_toDigits_le_iff (by decide) (by decide)).mpr (by omega)
      have hinteger := Interval.isInteger_ofFields hpos ht he hf
      rw [Layout.writeFields, hinteger.shortest_eq (by omega),
        Layout.write_style_ofNat (by omega), toString_eq_sign_append hzero hsign]
    · -- Below a power of two the interval is narrower than above it; here it ends at an integer.
      rw [heq] at hmag
      obtain ⟨he, hf⟩ := fields_of_eq hmag
      obtain rfl : e = 1076 := Fin.ext he
      obtain rfl : f = 0 := Fin.ext hf
      rw [← toString_eq_sign_append hzero hsign, heq]
      cases negative <;> decide +kernel

end StyleTree
