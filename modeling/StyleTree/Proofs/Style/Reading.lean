import StyleTree.Proofs.Json.Quoted
import StyleTree.Proofs.Style.Layering
import StyleTree.Proofs.Style.Leaves
import StyleTree.Proofs.Style.Spelling
import StyleTree.Proofs.Style.Values

/-!
# Reading a written tree

A written tree is read back, whatever blanks stand between its parts: each member is read over those
before it, and since no key is repeated, nothing is overwritten. What the reader gives for a number
depends on the text of the number only. A tree with more levels than the reader allows is refused at
the first object that is too deep.

## Main definitions

* `Style.levels`, `Sheet.levels` — the number of objects inside each other
* `Style.mapNumbers`, `Sheet.mapNumbers` — a tree with other numbers
* `ReadsBack` — the text of a number stands for another number
* `Sheet.Readable` — a tree that can be read back

## Main results

* `Sheet.members_spell` — the members of a tree that is not too deep
* `Sheet.members_spell_tooDeep` — the fault of a tree that is too deep
* `Sheet.ofJson_spell`, `Sheet.ofJson_spell_tooDeep` — whole documents
-/

namespace StyleTree

open Json (Reader isSpace skipSpace_cons)
open Text (escape quoteChars)

mutual

/-- The number of objects inside each other in a value. -/
def Style.levels : Style → Nat
  | .scalar _ => 0
  | .scope es => Sheet.levels es

/-- The number of objects inside each other in a tree, itself included. -/
def Sheet.levels : Sheet → Nat
  | [] => 1
  | (_, s) :: rest => max (s.levels + 1) (Sheet.levels rest)

end

mutual

/-- The value with each number replaced. -/
def Style.mapNumbers (g : Number → Number) : Style → Style
  | .scalar (.text s) => .scalar (.text s)
  | .scalar (.number x) => .scalar (.number (g x))
  | .scope es => .scope (Sheet.mapNumbers g es)

/-- The tree with each number replaced. -/
def Sheet.mapNumbers (g : Number → Number) : Sheet → Sheet
  | [] => []
  | (k, s) :: rest => (k, s.mapNumbers g) :: Sheet.mapNumbers g rest

end

/-- The text that `number` gives `x` is read as `g x` where a number can end. -/
structure ReadsBack (number : Number → String) (g : Number → Number) (x : Number) : Prop where
  start : ∃ c cs, (number x).toList = c :: cs ∧ (c = '-' ∨ c.isDigit)
  read : ∀ rest, Json.Numeral.Ends rest →
    ∃ m, Json.Numeral.read ((number x).toList ++ rest) = .ok (m, rest) ∧ m.toNumber = g x

/-- A tree that can be read back: no key is repeated, and each number is read back. -/
structure Sheet.Readable (number : Number → String) (g : Number → Number) (es : Sheet) : Prop where
  distinct : Sheet.DistinctKeys es
  numbers : ∀ k x, (k, Scalar.number x) ∈ es.leaves → ReadsBack number g x

variable {number : Number → String} {g : Number → Number} {sp : Spacing} {depth level : Nat}
  {first : Bool} {blanks cs rest : List Char}

/-! ### Numbers of a tree -/

namespace Sheet

theorem keys_mapNumbers (es : Sheet) : Entries.keys (es.mapNumbers g) = Entries.keys es := by
  induction es with
  | nil => rfl
  | cons e rest ih => exact congrArg (e.1 :: ·) ih

/-- If no number is replaced by another one, the tree is not changed. -/
theorem mapNumbers_eq_self (es : Sheet)
    (h : ∀ k x, (k, Scalar.number x) ∈ es.leaves → g x = x) : es.mapNumbers g = es := by
  induction es using Sheet.induction with
  | nil => rfl
  | scalar k v rest ih =>
    have hrest := ih fun l x hx => h l x (List.mem_append_right _ hx)
    cases v with
    | text s => rw [mapNumbers, Style.mapNumbers, hrest]
    | number x =>
      have hx := h k x (List.mem_append_left _ (List.mem_singleton.mpr rfl))
      rw [mapNumbers, Style.mapNumbers, hrest, hx]
  | scope k inner rest ihinner ihrest =>
    have hinner := ihinner fun l x hx => h l x (List.mem_append_left _ hx)
    have hrest := ihrest fun l x hx => h l x (List.mem_append_right _ hx)
    rw [mapNumbers, Style.mapNumbers, hinner, hrest]

theorem distinctKeys_iff {es : Sheet} :
    DistinctKeys es ↔ (Entries.keys es).Nodup ∧ ∀ e ∈ es, e.2.DistinctKeys := by
  induction es with
  | nil => simp [DistinctKeys, Entries.keys]
  | cons e rest ih =>
    have hkeys : Entries.keys (e :: rest) = e.1 :: Entries.keys rest := rfl
    rw [DistinctKeys, ih, hkeys, List.nodup_cons, List.forall_mem_cons]
    tauto

theorem DistinctKeys.nodup {es : Sheet} (h : DistinctKeys es) : (Entries.keys es).Nodup :=
  (distinctKeys_iff.mp h).1

namespace Readable

variable {k : String} {es inner : Sheet} {s : Style}

theorem tail (h : Readable number g ((k, s) :: es)) : es.Readable number g :=
  ⟨h.distinct.2.2, fun l x hx => h.numbers l x (List.mem_append_right _ hx)⟩

theorem of_inner (h : Readable number g ((k, .scope inner) :: es)) : inner.Readable number g :=
  ⟨h.distinct.2.1, fun l x hx => h.numbers l x (List.mem_append_left _ hx)⟩

theorem head_number {x : Number} (h : Readable number g ((k, .scalar (.number x)) :: es)) :
    ReadsBack number g x :=
  h.numbers k x (List.mem_append_left _ (List.mem_singleton.mpr rfl))

end Readable

end Sheet

/-! ### Blanks -/

theorem separator_spell (h : ∀ c ∈ blanks, isSpace c) :
    Json.Separator first ((if first then [] else [',']) ++ (blanks ++ cs)) cs := by
  cases first with
  | true => exact .first ⟨blanks, h, rfl⟩
  | false => exact .next (.refl _) ⟨blanks, h, rfl⟩

/-- A number before the rest of a tree is complete. -/
theorem Sheet.ends_spell (es : Sheet) :
    Json.Numeral.Ends (es.spell sp number level false ++ rest) := by
  cases es with
  | nil =>
    rw [spell, if_neg (by decide), List.append_assoc]
    exact Json.Blanks.ends ⟨_, sp.close_blank level, rfl⟩ Json.ends_brace
  | cons e es =>
    rw [spell_false_cons]
    intro c hc
    obtain rfl : ',' = c := by simpa using hc
    decide

/-! ### Values -/

theorem Style.read_text (s : String) :
    Style.read depth (quoteChars s.toList ++ rest) = .ok (.scalar (.text s), rest) := by
  have hquote : quoteChars s.toList ++ rest = '"' :: (s.toList.flatMap escape ++ '"' :: rest) := by
    rw [quoteChars, List.cons_append, List.append_assoc, List.singleton_append]
  rw [hquote, Style.read_quote, Reader.text_escape]
  rfl

theorem Style.read_number {x : Number} (h : ReadsBack number g x) (hrest : Json.Numeral.Ends rest) :
    Style.read depth ((number x).toList ++ rest) = .ok (.scalar (.number (g x)), rest) := by
  obtain ⟨c, cs, hcs, hc⟩ := h.start
  obtain ⟨m, hread, hm⟩ := h.read rest hrest
  rw [hcs, List.cons_append] at hread ⊢
  rw [Style.read_numeral hc, hread]
  simp only [Except.map, hm]

/-! ### Members -/

namespace Sheet

/-- The value of the first member is read behind its key, before the members behind it. -/
theorem read_spell_cons {k : String} {s : Style} {es : Sheet} :
    ∃ t, Json.KeySpelt first k (spell sp number level first ((k, s) :: es) ++ rest) t ∧
      Style.read depth t = Style.read depth (s.spell sp number (level + 1) ++
        (es.spell sp number level false ++ rest)) := by
  have hspell : spell sp number level first ((k, s) :: es) ++ rest =
      (if first then [] else [',']) ++ (sp.member level ++ '"' :: (k.toList.flatMap escape ++
        '"' :: ':' :: (sp.value ++ (s.spell sp number (level + 1) ++
          (es.spell sp number level false ++ rest))))) := by
    simp only [spell, quoteChars, List.append_assoc, List.cons_append, List.nil_append]
  rw [hspell]
  exact ⟨_, ⟨separator_spell (sp.member_blank level),
    Reader.textSpelt_flatMap_escape k.toList, .refl _⟩,
    Style.read_of_blanks ⟨_, sp.value_blank, rfl⟩⟩

/-- A member is read before those behind it, and written over those in front of it. -/
theorem members_spell_cons {k : String} {s s' : Style} {es : Sheet} {fuel : Nat} {acc : Sheet}
    (h : Style.read depth (s.spell sp number (level + 1) ++
      (es.spell sp number level false ++ rest)) = .ok (s', cs)) :
    Reader.members Reader.text (member (Style.read depth)) (fuel + 1) first acc
        (spell sp number level first ((k, s) :: es) ++ rest) =
      Reader.members Reader.text (member (Style.read depth)) fuel false (Entries.insert k s' acc)
        cs := by
  obtain ⟨t, hkey, hvalue⟩ := read_spell_cons (k := k)
  exact members_of_key hkey (hvalue.trans h)

/-- The fault of a member is the fault of the object. -/
theorem members_spell_cons_error {k : String} {s : Style} {es : Sheet} {fuel : Nat} {acc : Sheet}
    {fault : Json.Fault}
    (h : Style.read depth (s.spell sp number (level + 1) ++
      (es.spell sp number level false ++ rest)) = .error fault) :
    Reader.members Reader.text (member (Style.read depth)) (fuel + 1) first acc
        (spell sp number level first ((k, s) :: es) ++ rest) = .error fault := by
  obtain ⟨t, hkey, hvalue⟩ := read_spell_cons (k := k)
  exact members_of_key_error hkey (hvalue.trans h)

theorem members_spell_nil {fuel : Nat} {acc : Sheet} :
    Reader.members Reader.text (member (Style.read depth)) (fuel + 1) first acc
        (spell sp number level first [] ++ rest) = .ok (acc, '\x7d' :: rest) := by
  have hblank : ∀ c ∈ if first then [] else sp.close level, Json.isSpace c := by
    split
    · exact fun c hc => absurd hc List.not_mem_nil
    · exact sp.close_blank level
  rw [spell, List.append_assoc, List.singleton_append]
  exact members_of_close ⟨_, hblank, rfl⟩

/-- Each member takes a character at least. -/
theorem length_le_length_spell (es : Sheet) :
    ∀ first, es.length ≤ (es.spell sp number level first).length := by
  induction es with
  | nil => exact fun _ => Nat.zero_le _
  | cons e es ih =>
    intro first
    have hrest := ih false
    simp only [spell, List.length_append, List.length_cons]
    omega

theorem lt_length_spell_append (es : Sheet) :
    es.length < (es.spell sp number level first ++ rest).length + 1 := by
  rw [List.length_append]
  exact Nat.lt_succ_of_le (Nat.le_trans (length_le_length_spell es first) (Nat.le_add_right _ _))

theorem object_of_members_error {cs : List Char} {cause : Json.Cause} {remaining : Nat}
    (h : Reader.members Reader.text (member (Style.read depth)) (cs.length + 1) true [] cs =
      .error (.placed cause remaining)) :
    Reader.object Reader.text (member (Style.read depth)) [] cs =
      .error (.placed cause remaining) := by
  rw [Reader.object, h]
  rfl

theorem levels_pos (es : Sheet) : 0 < es.levels := by
  cases es with
  | nil => exact Nat.one_pos
  | cons e es => exact Nat.lt_of_lt_of_le (Nat.succ_pos _) (Nat.le_max_left _ _)

/-- Nothing is overwritten in a tree without repeated keys. -/
theorem merge_nil_mapNumbers {es : Sheet} (h : DistinctKeys es) :
    Entries.merge [] (es.mapNumbers g) = es.mapNumbers g :=
  Entries.ofList_eq_self (keys_mapNumbers es ▸ h.nodup)

theorem read_scalar {k : String} {v : Scalar} {es : Sheet}
    (hes : Readable number g ((k, .scalar v) :: es)) :
    Style.read depth ((Style.scalar v).spell sp number (level + 1) ++
        (es.spell sp number level false ++ rest)) =
      .ok ((Style.scalar v).mapNumbers g, es.spell sp number level false ++ rest) := by
  cases v with
  | text s =>
    rw [Style.spell, Scalar.written, Text.toList_quote]
    exact Style.read_text s
  | number x => exact Style.read_number hes.head_number (ends_spell es)

theorem read_scope {inner es : Sheet} {u : List Char}
    (h : Reader.object Reader.text (member (Style.read depth)) []
      (inner.spell sp number (level + 1) true ++ u) = .ok (es, cs)) :
    Style.read (depth + 1) ((Style.scope inner).spell sp number (level + 1) ++ u) =
      .ok (.scope es, cs) := by
  rw [Style.spell, List.cons_append, Style.read_brace, h]
  rfl

/-- The members of a tree that is not too deep are read over those before them. -/
theorem members_spell (es : Sheet) :
    ∀ {depth level fuel : Nat} {first : Bool} {acc : Sheet} {rest : List Char},
      es.Readable number g → es.levels ≤ depth + 1 → es.length < fuel →
        Reader.members Reader.text (member (Style.read depth)) fuel first acc
            (es.spell sp number level first ++ rest) =
          .ok (Entries.merge acc (es.mapNumbers g), '\x7d' :: rest) := by
  -- A scope is read with less depth, at a further level and over no members: all three vary.
  induction es using Sheet.induction with
  | nil =>
    intro depth level fuel first acc rest hes hlevels hfuel
    obtain ⟨fuel, rfl⟩ := Nat.exists_eq_succ_of_ne_zero (Nat.ne_zero_of_lt hfuel)
    exact members_spell_nil
  | scalar k v es ih =>
    intro depth level fuel first acc rest hes hlevels hfuel
    obtain ⟨fuel, rfl⟩ := Nat.exists_eq_succ_of_ne_zero (Nat.ne_zero_of_lt hfuel)
    rw [members_spell_cons (read_scalar hes)]
    exact ih hes.tail (Nat.le_trans (Nat.le_max_right _ _) hlevels) (Nat.lt_of_succ_lt_succ hfuel)
  | scope k inner es ihinner ihes =>
    intro depth level fuel first acc rest hes hlevels hfuel
    obtain ⟨fuel, rfl⟩ := Nat.exists_eq_succ_of_ne_zero (Nat.ne_zero_of_lt hfuel)
    obtain ⟨hinner, htail⟩ := Nat.max_le.mp hlevels
    -- The object of the scope takes one of the levels that are left.
    obtain ⟨depth, rfl⟩ : ∃ d, depth = d + 1 :=
      Nat.exists_eq_succ_of_ne_zero (Nat.ne_of_gt (Nat.lt_of_lt_of_le (levels_pos inner)
        (Nat.le_of_succ_le_succ hinner)))
    have hobject : Reader.object Reader.text (member (Style.read depth)) []
        (inner.spell sp number (level + 1) true ++ (es.spell sp number level false ++ rest)) =
          .ok (inner.mapNumbers g, es.spell sp number level false ++ rest) := by
      rw [← merge_nil_mapNumbers hes.of_inner.distinct]
      exact object_of_members (ihinner hes.of_inner (Nat.le_of_succ_le_succ hinner)
        (lt_length_spell_append inner))
    rw [members_spell_cons (read_scope hobject)]
    exact ihes hes.tail htail (Nat.lt_of_succ_lt_succ hfuel)

theorem object_spell {es : Sheet} (hes : es.Readable number g) (hlevels : es.levels ≤ depth + 1) :
    Reader.object Reader.text (member (Style.read depth)) []
      (es.spell sp number level true ++ rest) = .ok (es.mapNumbers g, rest) := by
  rw [← merge_nil_mapNumbers hes.distinct]
  exact object_of_members (members_spell es hes hlevels (lt_length_spell_append es))

/-- A tree that is too deep is refused. -/
theorem members_spell_tooDeep (es : Sheet) :
    ∀ {depth level fuel : Nat} {first : Bool} {acc : Sheet} {rest : List Char},
      es.Readable number g → depth + 1 < es.levels → es.length < fuel →
        ∃ remaining, Reader.members Reader.text (member (Style.read depth)) fuel first acc
            (es.spell sp number level first ++ rest) = .error (.placed .tooDeep remaining) := by
  induction es using Sheet.induction with
  | nil => exact fun _ hlevels => absurd hlevels (by simp [levels])
  | scalar k v es ih =>
    intro depth level fuel first acc rest hes hlevels hfuel
    obtain ⟨fuel, rfl⟩ := Nat.exists_eq_succ_of_ne_zero (Nat.ne_zero_of_lt hfuel)
    rw [members_spell_cons (read_scalar hes)]
    refine ih hes.tail ?_ (Nat.lt_of_succ_lt_succ hfuel)
    rw [levels, Style.levels] at hlevels
    omega
  | scope k inner es ihinner ihes =>
    intro depth level fuel first acc rest hes hlevels hfuel
    obtain ⟨fuel, rfl⟩ := Nat.exists_eq_succ_of_ne_zero (Nat.ne_zero_of_lt hfuel)
    rw [levels, Style.levels] at hlevels
    -- Either there is no level left for the scope, or the scope or what follows it is too deep.
    cases depth with
    | zero => exact ⟨_, members_spell_cons_error Style.read_brace_zero⟩
    | succ depth =>
      by_cases hinner : inner.levels ≤ depth + 1
      · rw [members_spell_cons (read_scope (object_spell hes.of_inner hinner))]
        exact ihes hes.tail (by omega) (Nat.lt_of_succ_lt_succ hfuel)
      · obtain ⟨remaining, hmembers⟩ := ihinner hes.of_inner (Nat.lt_of_not_le hinner)
          (lt_length_spell_append inner)
        have hread : Style.read (depth + 1) ((Style.scope inner).spell sp number (level + 1) ++
            (es.spell sp number level false ++ rest)) = .error (.placed .tooDeep remaining) := by
          rw [Style.spell, List.cons_append, Style.read_brace, object_of_members_error hmembers]
          rfl
        exact ⟨remaining, members_spell_cons_error hread⟩

theorem object_spell_tooDeep {es : Sheet} (hes : es.Readable number g)
    (hlevels : depth + 1 < es.levels) :
    ∃ remaining, Reader.object Reader.text (member (Style.read depth)) []
      (es.spell sp number level true ++ rest) = .error (.placed .tooDeep remaining) := by
  obtain ⟨remaining, hmembers⟩ := members_spell_tooDeep es hes hlevels (lt_length_spell_append es)
  exact ⟨remaining, object_of_members_error hmembers⟩

/-! ### Documents -/

/-- A spelt tree is a document of which nothing is left, if it is not too deep. -/
theorem ofJson_spell {es : Sheet} {source : String} (hes : es.Readable number g)
    (hlevels : es.levels ≤ Reader.depthLimit)
    (hsource : source.toList = (Style.scope es).spell sp number level) :
    Sheet.ofJson source = .ok (es.mapNumbers g) := by
  have hread : Sheet.read source.toList = .ok (es.mapNumbers g, []) := by
    rw [hsource, Style.spell, read_brace, ← List.append_nil (es.spell sp number level true)]
    exact object_spell hes hlevels
  rw [ofJson, Reader.document]
  simp only [hread]
  rfl

theorem ofJson_spell_tooDeep {es : Sheet} {source : String} (hes : es.Readable number g)
    (hlevels : Reader.depthLimit < es.levels)
    (hsource : source.toList = (Style.scope es).spell sp number level) :
    ∃ complaint, Sheet.ofJson source = .error complaint ∧ complaint.cause = .tooDeep := by
  obtain ⟨remaining, hread⟩ : ∃ remaining,
      Sheet.read source.toList = .error (.placed .tooDeep remaining) := by
    rw [hsource, Style.spell, read_brace, ← List.append_nil (es.spell sp number level true)]
    exact object_spell_tooDeep hes hlevels
  refine ⟨.of source.toList (.placed .tooDeep remaining), ?_, rfl⟩
  rw [ofJson, Reader.document]
  simp only [hread]

end Sheet

end StyleTree
