import StyleTree.Text.Pieces

/-!
# Dotted paths

A token is named by a path of segments, written with dots between them. Every text is a path: it has
one segment more than it has dots, and a segment may be empty.

## Main definitions

* `Token.segments` — the segments of a path
* `Token.joinDots` — the path of some segments

## Main results

* `segments_append_dot` — a dot parts what stands before it from what follows
* `segments_joinDots` — segments without dots are read back
-/

namespace StyleTree.Token

/-- The segments of a path; at least one. -/
def segments (path : String) : List String :=
  (Text.pieces '.' path.toList).map String.ofList

/-- The path of some segments. -/
def joinDots (segments : List String) : String :=
  ".".intercalate segments

theorem segments_ne_nil (path : String) : segments path ≠ [] := by
  simp [segments, Text.pieces_ne_nil]

/-- A dot parts what stands before it from what follows. -/
theorem segments_append_dot (p q : String) :
    segments (p ++ "." ++ q) = segments p ++ segments q := by
  have : (p ++ "." ++ q).toList = p.toList ++ '.' :: q.toList := by simp
  rw [segments, this, Text.pieces_append_separator]
  simp [segments]

theorem segments_of_not_mem {s : String} (h : '.' ∉ s.toList) : segments s = [s] := by
  simp [segments, Text.pieces_of_not_mem h]

/-- Segments without dots are read back from their path. -/
theorem segments_joinDots {ss : List String} (hne : ss ≠ []) (h : ∀ s ∈ ss, '.' ∉ s.toList) :
    segments (joinDots ss) = ss :=
  Text.map_ofList_pieces_intercalate rfl hne h

end StyleTree.Token
