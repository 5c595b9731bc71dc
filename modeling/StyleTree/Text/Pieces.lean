/-!
# Pieces of a text

A text cut at every occurrence of a separating character: one piece more than there are separators,
and pieces may be empty.

## Main definitions

* `Text.pieces` — the pieces, in order

## Main results

* `pieces_append_separator` — a separator parts what stands before it from what follows
* `pieces_of_not_mem` — a text without separators is one piece
* `not_mem_of_mem_pieces` — no piece holds a separator
* `pieces_intercalate`, `intercalate_pieces` — putting pieces together and cutting the text again
-/

namespace StyleTree.Text

/-- The pieces of a text between its separators; at least one. -/
def pieces (separator : Char) : List Char → List (List Char)
  | [] => [[]]
  | c :: cs =>
    if c = separator then [] :: pieces separator cs
    else match pieces separator cs with
      | [] => [[c]]
      | piece :: rest => (c :: piece) :: rest

variable {separator : Char}

theorem pieces_ne_nil (cs : List Char) : pieces separator cs ≠ [] := by
  cases cs with
  | nil => simp [pieces]
  | cons c cs =>
    simp only [pieces]
    split
    · simp
    · split <;> simp

/-- A separator parts what stands before it from what follows. -/
theorem pieces_append_separator (cs ds : List Char) :
    pieces separator (cs ++ separator :: ds) = pieces separator cs ++ pieces separator ds := by
  induction cs with
  | nil => simp [pieces]
  | cons c cs ih =>
    simp only [List.cons_append, pieces, ih]
    split
    · rfl
    · cases h : pieces separator cs with
      | nil => exact absurd h (pieces_ne_nil cs)
      | cons piece rest => rfl

/-- A text without separators is one piece. -/
theorem pieces_of_not_mem {cs : List Char} (h : separator ∉ cs) : pieces separator cs = [cs] := by
  induction cs with
  | nil => rfl
  | cons c cs ih =>
    simp only [List.mem_cons, not_or] at h
    simp [pieces, Ne.symm h.1, ih h.2]

/-- No piece holds a separator. -/
theorem not_mem_of_mem_pieces {cs piece : List Char} (h : piece ∈ pieces separator cs) :
    separator ∉ piece := by
  induction cs generalizing piece with
  | nil =>
    obtain rfl := List.mem_singleton.mp h
    exact List.not_mem_nil
  | cons c cs ih => grind [pieces]

/-- Texts without separators are the pieces of what they are put together to. -/
theorem pieces_intercalate {ps : List (List Char)} (hne : ps ≠ []) (h : ∀ p ∈ ps, separator ∉ p) :
    pieces separator ([separator].intercalate ps) = ps := by
  induction ps with
  | nil => exact absurd rfl hne
  | cons p rest ih =>
    have hp := pieces_of_not_mem (h p List.mem_cons_self)
    cases rest with
    | nil => rw [List.intercalate_singleton, hp]
    | cons q rest =>
      have hrest := ih (List.cons_ne_nil q rest) fun x hx => h x (List.mem_cons_of_mem p hx)
      rw [List.intercalate_cons_cons, List.append_assoc, List.singleton_append,
        pieces_append_separator, hp, hrest, List.singleton_append]

/-- The pieces of texts that are put together, as texts. -/
theorem map_ofList_pieces_intercalate {joint : String} (hjoint : joint.toList = [separator])
    {ss : List String} (hne : ss ≠ []) (h : ∀ s ∈ ss, separator ∉ s.toList) :
    (pieces separator (joint.intercalate ss).toList).map String.ofList = ss := by
  have hpieces : ∀ p ∈ ss.map String.toList, separator ∉ p := by simpa using h
  rw [String.toList_intercalate, hjoint, pieces_intercalate (by simpa using hne) hpieces]
  simp

end StyleTree.Text
