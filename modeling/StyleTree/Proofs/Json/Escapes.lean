import StyleTree.Json.Text
import StyleTree.Proofs.Json.Parts

/-!
# The grammar of texts

A text is a sequence of characters before a quotation mark. A character stands for itself unless it
is a quotation mark, a backslash or a control character; otherwise it is escaped. Surrogates occur
in pairs only.

## Main definitions

* `CharSpelt`, `TextSpelt` — a character, or a text with its closing mark, at the start of a
  document, with what stands behind it

## Main results

* `Reader.text_eq` — a text of the grammar is read as the text that it stands for
* `Reader.text_cases` — a document begins with a text, or it is broken
-/

namespace StyleTree.Json

open Reader (hexUnit? isLeading isTrailing ofSurrogates shortEscape?)

/-- The character `c` at the start of a text, with `u` behind it. -/
inductive CharSpelt : List Char → Char → List Char → Prop where
  | plain {c : Char} {u : List Char} (hquote : c ≠ '"') (hslash : c ≠ '\\')
    (hcontrol : 0x20 ≤ c.toNat) : CharSpelt (c :: u) c u
  | short {e c : Char} {u : List Char} (hescape : shortEscape? e = some c) :
    CharSpelt ('\\' :: e :: u) c u
  | unit {h₁ h₂ h₃ h₄ : Char} {n : Nat} {u : List Char} (hunit : hexUnit? h₁ h₂ h₃ h₄ = some n)
    (hleading : isLeading n = false) (htrailing : isTrailing n = false) :
    CharSpelt ('\\' :: 'u' :: h₁ :: h₂ :: h₃ :: h₄ :: u) (Char.ofNat n) u
  | pair {h₁ h₂ h₃ h₄ k₁ k₂ k₃ k₄ : Char} {m n : Nat} {u : List Char}
    (hfirst : hexUnit? h₁ h₂ h₃ h₄ = some m) (hleading : isLeading m)
    (hsecond : hexUnit? k₁ k₂ k₃ k₄ = some n) (htrailing : isTrailing n) :
    CharSpelt ('\\' :: 'u' :: h₁ :: h₂ :: h₃ :: h₄ :: '\\' :: 'u' :: k₁ :: k₂ :: k₃ :: k₄ :: u)
      (ofSurrogates m n) u

/-- The characters `cs` and a quotation mark, with `u` behind them. -/
inductive TextSpelt : List Char → List Char → List Char → Prop where
  | close {u : List Char} : TextSpelt ('"' :: u) [] u
  | char {t t' u cs : List Char} {c : Char} (hchar : CharSpelt t c t') (hrest : TextSpelt t' cs u) :
    TextSpelt t (c :: cs) u

namespace Reader

variable {c e h₁ h₂ h₃ h₄ : Char} {m n : Nat} {acc cs rest t u : List Char}

/-! ### Reading a text of the grammar -/

theorem textFrom_plain (hquote : c ≠ '"') (hslash : c ≠ '\\') (hcontrol : 0x20 ≤ c.toNat) :
    textFrom none acc (c :: rest) = textFrom none (c :: acc) rest := by
  rw [textFrom.eq_def]
  simp [hquote, hslash, Nat.not_lt.mpr hcontrol]

theorem textFrom_short (hescape : shortEscape? e = some c) :
    textFrom none acc ('\\' :: e :: rest) = textFrom none (c :: acc) rest := by
  have hu : e ≠ 'u' := by
    rintro rfl
    exact absurd hescape nofun
  rw [textFrom.eq_def]
  simp [hu, hescape]

theorem textFrom_unit (hunit : hexUnit? h₁ h₂ h₃ h₄ = some n) (hleading : isLeading n = false)
    (htrailing : isTrailing n = false) :
    textFrom none acc ('\\' :: 'u' :: h₁ :: h₂ :: h₃ :: h₄ :: rest) =
      textFrom none (Char.ofNat n :: acc) rest := by
  rw [textFrom.eq_def]
  simp [hunit, hleading, htrailing]

theorem textFrom_leading (hunit : hexUnit? h₁ h₂ h₃ h₄ = some m) (hleading : isLeading m) :
    textFrom none acc ('\\' :: 'u' :: h₁ :: h₂ :: h₃ :: h₄ :: rest) =
      textFrom (some m) acc rest := by
  have htrailing : isTrailing m = false := by
    simp only [isLeading, isTrailing, Bool.and_eq_true, decide_eq_true_eq, Bool.and_eq_false_iff,
      decide_eq_false_iff_not] at hleading ⊢
    omega
  rw [textFrom.eq_def]
  simp [hunit, hleading, htrailing]

theorem textFrom_trailing (hunit : hexUnit? h₁ h₂ h₃ h₄ = some n) (htrailing : isTrailing n) :
    textFrom (some m) acc ('\\' :: 'u' :: h₁ :: h₂ :: h₃ :: h₄ :: rest) =
      textFrom none (ofSurrogates m n :: acc) rest := by
  rw [textFrom.eq_def]
  simp [hunit, htrailing]

theorem textFrom_charSpelt (h : CharSpelt t c u) :
    textFrom none acc t = textFrom none (c :: acc) u := by
  cases h with
  | plain hquote hslash hcontrol => exact textFrom_plain hquote hslash hcontrol
  | short hescape => exact textFrom_short hescape
  | unit hunit hleading htrailing => exact textFrom_unit hunit hleading htrailing
  | pair hfirst hleading hsecond htrailing =>
    rw [textFrom_leading hfirst hleading, textFrom_trailing hsecond htrailing]

theorem textFrom_textSpelt (h : TextSpelt t cs u) :
    textFrom none acc t = .ok (String.ofList (acc.reverse ++ cs), u) := by
  induction h generalizing acc with
  | close =>
    rw [textFrom.eq_def]
    simp
  | char hchar hrest ih =>
    rw [textFrom_charSpelt hchar, ih, List.reverse_cons, List.append_assoc, List.singleton_append]

/-- A text of the grammar is read, and what stands behind it is left. -/
theorem text_eq {s : String} (h : TextSpelt t s.toList u) : text t = .ok (s, u) := by
  rw [text, textFrom_textSpelt h, List.reverse_nil, List.nil_append, String.ofList_toList]

/-! ### Broken texts -/

theorem isShape_hexFault (cs : List Char) : (hexFault cs).cause.isShape = false := by
  unfold hexFault
  split <;> rfl

/-- The escape of a leading surrogate that waits for its partner; nothing if none waits. -/
inductive Waiting : Option Nat → List Char → Prop where
  | none : Waiting none []
  | some {h₁ h₂ h₃ h₄ : Char} {m : Nat} (hunit : hexUnit? h₁ h₂ h₃ h₄ = some m)
    (hleading : isLeading m) : Waiting (some m) ['\\', 'u', h₁, h₂, h₃, h₄]

/-- A character in front of a text makes a longer one. -/
theorem cons_of_charSpelt {α : Type} {r : Except Fault α} (hchar : CharSpelt t c u)
    (h : (∃ cs v, TextSpelt ([] ++ u) cs v) ∨ Broken r) : (∃ cs v, TextSpelt t cs v) ∨ Broken r :=
  h.imp_left fun ⟨cs, v, hcs⟩ => ⟨c :: cs, v, .char hchar hcs⟩

/-- With the escape that waits in front of it, the document begins with a text, or it is broken. -/
theorem textFrom_cases (leading : Option Nat) (acc t : List Char) :
    ∀ {front : List Char}, Waiting leading front →
      (∃ cs u, TextSpelt (front ++ t) cs u) ∨ Broken (textFrom leading acc t) := by
  fun_induction textFrom leading acc t with
  -- The reader stops at a fault, which is one of syntax.
  | case1 | case2 | case4 | case8 | case10 | case12 | case13 | case15 =>
    exact fun _ => .inr ⟨_, rfl, rfl⟩
  | case3 | case9 => exact fun _ => .inr ⟨_, rfl, isShape_hexFault _⟩
  | case5 acc h₁ h₂ h₃ h₄ rest m hunit _ hleading ih =>
    -- The escape now waits in front of the rest.
    intro front hfront
    cases hfront
    exact ih (.some hunit hleading)
  | case6 acc h₁ h₂ h₃ h₄ rest n hunit htrailing hleading ih =>
    intro front hfront
    cases hfront
    exact cons_of_charSpelt (.unit hunit (Bool.eq_false_iff.mpr hleading)
      (Bool.eq_false_iff.mpr htrailing)) (ih .none)
  | case7 acc k₁ k₂ k₃ k₄ rest n m hsecond htrailing ih =>
    -- Here the pair is complete: it and what waited make one character.
    intro front hfront
    cases hfront with
    | some hfirst hleading =>
      exact cons_of_charSpelt (.pair hfirst hleading hsecond htrailing) (ih .none)
  | case11 leading acc e rest _ hnone c hescape ih =>
    intro front hfront
    cases hfront with
    | none => exact cons_of_charSpelt (.short hescape) (ih .none)
    | some => exact absurd rfl hnone
  | case14 leading acc rest hnone _ =>
    intro front hfront
    cases hfront with
    | none => exact .inl ⟨[], rest, .close⟩
    | some => exact absurd rfl hnone
  | case16 leading acc c rest hslash hnone hquote hcontrol ih =>
    intro front hfront
    cases hfront with
    | none => exact cons_of_charSpelt (.plain hquote hslash (Nat.not_lt.mp hcontrol)) (ih .none)
    | some => exact absurd rfl hnone

theorem text_cases (t : List Char) : (∃ s u, TextSpelt t (String.toList s) u) ∨ Broken (text t) :=
  (textFrom_cases none [] t .none).imp_left fun ⟨cs, u, h⟩ =>
    ⟨String.ofList cs, u, by rwa [String.toList_ofList]⟩

end Reader

end StyleTree.Json
