import StyleTree.Json.Reader
import StyleTree.Style.Written

/-!
# The characters of a written tree

The compact and the indented text of a tree differ only in the blanks between the parts. A `Spacing`
says which blanks those are, and one recursion over the tree spells it out with any of them: the
members of an object one after another, each but the first one after a comma.

## Main definitions

* `Spacing` — the blanks between the parts of a written tree
* `Style.spell`, `Sheet.spell` — the characters of a value, and of a tree after its opening brace

## Main results

* `Style.toList_compact`, `Style.toList_pretty` — the two texts as spelt trees
-/

namespace StyleTree

open Text (quote quoteChars)

/-- The blanks between the parts of a written tree, by the level of an object. -/
structure Spacing where
  /-- Before a member of an object of the given level. -/
  member : Nat → List Char
  /-- Between the colon and the value of a member. -/
  value : List Char
  /-- Before the closing brace of an object of the given level with a member. -/
  close : Nat → List Char
  member_blank : ∀ level, ∀ c ∈ member level, Json.isSpace c
  value_blank : ∀ c ∈ value, Json.isSpace c
  close_blank : ∀ level, ∀ c ∈ close level, Json.isSpace c

namespace Spacing

/-- No blanks. -/
def none : Spacing where
  member := fun _ => []
  value := []
  close := fun _ => []
  member_blank := by simp
  value_blank := by simp
  close_blank := by simp

/-- A new line, indented by two blanks for each level. -/
def newLine (level : Nat) : List Char :=
  '\n' :: List.replicate (2 * level) ' '

theorem newLine_blank (level : Nat) : ∀ c ∈ newLine level, Json.isSpace c := by
  intro c hc
  rcases List.mem_cons.mp hc with rfl | hc
  · rfl
  · obtain rfl := List.eq_of_mem_replicate hc
    rfl

/-- A member to a line, one level further in than the braces around it. -/
def lines : Spacing where
  member := fun level => newLine (level + 1)
  value := [' ']
  close := newLine
  member_blank := fun level => newLine_blank (level + 1)
  value_blank := by simp [Json.isSpace]
  close_blank := newLine_blank

end Spacing

mutual

/-- The characters of a value that stands in an object of the given level. -/
def Style.spell (sp : Spacing) (number : Number → String) (level : Nat) : Style → List Char
  | .scalar v => (v.written number).toList
  | .scope es => '\x7b' :: Sheet.spell sp number level true es

/-- The characters of an object of the given level after its opening brace, or after a member if
`first` says that there is one already. -/
def Sheet.spell (sp : Spacing) (number : Number → String) (level : Nat) (first : Bool) :
    Sheet → List Char
  | [] => (if first then [] else sp.close level) ++ ['\x7d']
  | (k, s) :: rest =>
    (if first then [] else [',']) ++ (sp.member level ++ (quoteChars k.toList ++
      ':' :: (sp.value ++ (s.spell sp number (level + 1) ++
        Sheet.spell sp number level false rest))))

end

variable {number : Number → String} {level : Nat}

theorem Text.toList_quote (s : String) : (quote s).toList = quoteChars s.toList :=
  String.toList_ofList

namespace Sheet

/-- A further member stands behind a comma. -/
theorem spell_false_cons (sp : Spacing) (e : String × Style) (rest : Sheet) :
    spell sp number level false (e :: rest) = ',' :: spell sp number level true (e :: rest) := by
  obtain ⟨k, s⟩ := e
  rfl

/-! ### Without blanks -/

theorem spell_none_cons {k : String} {s : Style} {rest : Sheet}
    (hs : (s.compact number).toList = s.spell .none number (level + 1))
    (hrest : (",".intercalate (compactMembers number rest)).toList ++ ['\x7d'] =
      rest.spell .none number level true) :
    (",".intercalate (compactMembers number ((k, s) :: rest))).toList ++ ['\x7d'] =
      spell .none number level true ((k, s) :: rest) := by
  have hmember : (quote k ++ ":" ++ s.compact number).toList =
      quoteChars k.toList ++ ':' :: s.spell .none number (level + 1) := by
    simp [String.toList_append, Text.toList_quote, hs]
  cases rest with
  | nil =>
    rw [compactMembers, compactMembers, String.intercalate_singleton, hmember]
    simp [spell, Spacing.none]
  | cons e rest =>
    -- The separator between the members is the comma that the next one is spelt with.
    rw [compactMembers, compactMembers, String.intercalate_cons_cons, String.toList_append,
      String.toList_append, hmember, spell, spell_false_cons, ← hrest]
    simp [compactMembers, Spacing.none]

theorem toList_compactMembers (es : Sheet) :
    ∀ level, (",".intercalate (compactMembers number es)).toList ++ ['\x7d'] =
      es.spell .none number level true := by
  induction es using Sheet.induction with
  | nil => intro level; rfl
  | scalar k v rest ih => exact fun level => spell_none_cons rfl (ih level)
  | scope k inner rest ihinner ihrest =>
    intro level
    refine spell_none_cons ?_ (ihrest level)
    rw [Style.compact, Style.spell, ← ihinner]
    simp

/-! ### Over several lines -/

theorem spell_lines_cons {k : String} {s : Style} {rest : Sheet}
    (hs : (s.pretty number (level + 1)).toList = s.spell .lines number (level + 1))
    (hrest : rest ≠ [] →
      '\n' :: (",\n".intercalate (prettyMembers number (level + 1) rest)).toList ++
        (Spacing.newLine level ++ ['\x7d']) = rest.spell .lines number level true) :
    '\n' :: (",\n".intercalate (prettyMembers number (level + 1) ((k, s) :: rest))).toList ++
        (Spacing.newLine level ++ ['\x7d']) =
      spell .lines number level true ((k, s) :: rest) := by
  have hmember : '\n' :: (String.ofList (List.replicate (2 * (level + 1)) ' ') ++ quote k ++ ": " ++
        s.pretty number (level + 1)).toList =
      Spacing.newLine (level + 1) ++ (quoteChars k.toList ++
        ':' :: ' ' :: s.spell .lines number (level + 1)) := by
    simp [String.toList_append, Text.toList_quote, hs, Spacing.newLine]
  cases rest with
  | nil =>
    rw [prettyMembers, prettyMembers, String.intercalate_singleton, hmember]
    simp [spell, Spacing.lines]
  | cons e rest =>
    -- The line break of the separator is spelt with the member that follows it.
    rw [prettyMembers, prettyMembers, String.intercalate_cons_cons, String.toList_append,
      String.toList_append, ← List.cons_append, ← List.cons_append, hmember, spell,
      spell_false_cons, ← hrest (List.cons_ne_nil _ _)]
    simp [prettyMembers, Spacing.lines]

theorem toList_pretty_of {es : Sheet}
    (h : es ≠ [] →
      '\n' :: (",\n".intercalate (prettyMembers number (level + 1) es)).toList ++
        (Spacing.newLine level ++ ['\x7d']) = es.spell .lines number level true) :
    ((Style.scope es).pretty number level).toList = (Style.scope es).spell .lines number level := by
  cases es with
  | nil =>
    -- The braces of a tree without members stay together.
    rw [Style.pretty, Style.spell, Sheet.spell]
    rfl
  | cons e rest =>
    have hne : e :: rest ≠ [] := List.cons_ne_nil _ _
    rw [Style.pretty.eq_3 number level _ hne, Style.spell, ← h hne]
    simp [Spacing.newLine]

theorem toList_prettyMembers (es : Sheet) :
    es ≠ [] → ∀ level,
      '\n' :: (",\n".intercalate (prettyMembers number (level + 1) es)).toList ++
        (Spacing.newLine level ++ ['\x7d']) = es.spell .lines number level true := by
  induction es using Sheet.induction with
  | nil => exact fun h => absurd rfl h
  | scalar k v rest ih => exact fun _ level => spell_lines_cons rfl fun h => ih h level
  | scope k inner rest ihinner ihrest =>
    intro _ level
    exact spell_lines_cons (toList_pretty_of fun h => ihinner h (level + 1)) fun h => ihrest h level

end Sheet

namespace Style

/-- The compact text is the tree spelt without blanks. -/
theorem toList_compact (es : Sheet) (level : Nat) :
    ((Style.scope es).compact number).toList = (Style.scope es).spell .none number level := by
  rw [compact, spell, ← Sheet.toList_compactMembers]
  simp

/-- The indented text is the tree spelt over several lines. -/
theorem toList_pretty (es : Sheet) (level : Nat) :
    ((Style.scope es).pretty number level).toList = (Style.scope es).spell .lines number level :=
  Sheet.toList_pretty_of fun h => Sheet.toList_prettyMembers es h level

end Style

end StyleTree
