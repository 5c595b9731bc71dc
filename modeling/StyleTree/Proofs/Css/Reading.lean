import StyleTree.Css.Block
import StyleTree.Text.Pieces

/-!
# Reading a style sheet back

The text of a style sheet is made of lines: a rule takes one line, and the blocks of an at-rule
stand between a line that opens it and a line that closes it. A reader that goes from line to line,
with the at-rules that are still open on a stack, finds every block again, as long as no text in the
style sheet contains one of the marks by which the reader tells its parts apart.

## Main definitions

* `Css.readLine` — what a line says
* `Css.Reading`, `Css.Reading.step` — the blocks read so far, and what a line does to them
* `Css.readLines`, `Css.read` — the blocks of some lines and of a whole text
* `Css.Legible` — no text in the style sheet contains a mark

## Main results

* `readLine_ruleLine`, `readLine_openingLine` — a written line says what was written
* `read_text` — a legible style sheet is read back
* `text_eq_iff` — legible style sheets with one text are the same
-/

namespace StyleTree

namespace Text

variable {separator : Char} {cs ds : List Char}

/-- The parts of a text before and after the first occurrence of a character. -/
def cut (separator : Char) : List Char → Option (List Char × List Char)
  | [] => none
  | c :: cs =>
    if c = separator then some ([], cs)
    else (cut separator cs).map fun (before, after) => (c :: before, after)

theorem cut_append (h : separator ∉ cs) :
    cut separator (cs ++ separator :: ds) = some (cs, ds) := by
  induction cs with
  | nil => simp [cut]
  | cons c cs ih =>
    simp only [List.mem_cons, not_or] at h
    simp [cut, Ne.symm h.1, ih h.2]

/-- A separator ends the first piece. -/
theorem pieces_append_cons (h : separator ∉ cs) :
    pieces separator (cs ++ separator :: ds) = cs :: pieces separator ds := by
  rw [pieces_append_separator, pieces_of_not_mem h, List.singleton_append]

/-- Trimming takes off the one blank at the end of a text that neither starts nor ends in one
otherwise. -/
theorem trimChars_append_blank {c : Char} (hne : cs ≠ []) (hc : isBlank c)
    (hhead : ∀ a ∈ cs.head?, isBlank a = false) (hlast : ∀ a ∈ cs.getLast?, isBlank a = false) :
    trimChars (cs ++ [c]) = cs := by
  have hfront : (cs ++ [c]).dropWhile isBlank = cs ++ [c] := by
    cases cs with
    | nil => exact absurd rfl hne
    | cons a cs => simp [hhead a (by simp)]
  have hback : (c :: cs.reverse).dropWhile isBlank = cs.reverse := by
    rw [List.dropWhile_cons_of_pos hc]
    cases hr : cs.reverse with
    | nil => rfl
    | cons a rest =>
      have ha : a ∈ cs.getLast? := by simp [← List.head?_reverse, hr]
      simp [hlast a ha]
  simp [trimChars, hfront, hback]

/-- None of the marks occurs in the text. -/
def Lacks (marks : List Char) (s : String) : Prop :=
  ∀ c ∈ marks, c ∉ s.toList

/-- The text does not start with a blank. -/
def StartsClear (s : String) : Prop :=
  ∀ c ∈ s.toList.head?, isBlank c = false

-- The instances are written out, so that deciding goes through the few characters in question.
instance (marks : List Char) (s : String) : Decidable (Lacks marks s) :=
  List.decidableBAll (fun c => c ∉ s.toList) marks

instance (s : String) : Decidable (StartsClear s) :=
  Option.decidableForallMem s.toList.head?

end Text

namespace Css

open Text (Lacks StartsClear)

/-! ### The reader -/

/-- What a line of a style sheet says. -/
inductive Line where
  /-- A whole rule. -/
  | rule (selector : String) (declarations : List Declaration)
  /-- The blocks of an at-rule follow. -/
  | opening (header : String)
  /-- The blocks of an at-rule end. -/
  | closing

/-- A declaration with the blank before it. -/
def readDeclaration : List Char → Option Declaration
  | ' ' :: cs =>
    match Text.cut ':' cs with
    | some (property, ' ' :: value) => some ⟨String.ofList property, String.ofList value⟩
    | _ => none
  | _ => none

/-- The declarations of a rule, from behind its opening brace on. -/
def readDeclarations (cs : List Char) : Option (List Declaration) :=
  let parts := Text.pieces ';' cs
  if parts.getLast? = some [' ', '\x7d'] then parts.dropLast.mapM readDeclaration else none

/-- What a line says. The blank before its opening brace belongs to no selector. -/
def readLine (cs : List Char) : Option Line :=
  if cs = ['\x7d'] then some .closing
  else
    match Text.cut '\x7b' cs with
    | none => none
    | some (name, []) => some (.opening (String.ofList name.dropLast))
    | some (name, c :: cs) =>
      (readDeclarations (c :: cs)).map (.rule (String.ofList name.dropLast))

/-- The blocks read so far. -/
structure Reading where
  /-- The blocks of the innermost at-rule that is open, or of the style sheet if none is. -/
  done : List Block
  /-- The at-rules that are open, the innermost first, each with its header and the blocks before
  it. -/
  stack : List (String × List Block)

/-- Does what a line says; nothing can be closed unless something is open. -/
def Reading.step (r : Reading) : Line → Option Reading
  | .rule selector ds => some ⟨r.done ++ [.rule selector ds], r.stack⟩
  | .opening header => some ⟨[], (header, r.done) :: r.stack⟩
  | .closing =>
    match r.stack with
    | [] => none
    | (header, outer) :: stack => some ⟨outer ++ [.atRule header r.done], stack⟩

/-- The blocks of some lines, of which the last one is empty. -/
def readLines (r : Reading) : List (List Char) → Option (List Block)
  | [] => none
  | [line] => if line = [] ∧ r.stack = [] then some r.done else none
  | line :: next :: rest =>
    ((readLine line).bind r.step).bind fun r => readLines r (next :: rest)

/-- The blocks of a style sheet. -/
def read (s : String) : Option (List Block) :=
  readLines ⟨[], []⟩ (Text.pieces '\n' s.toList)

/-! ### Legible style sheets -/

/-- The marks that no selector and no header may contain. -/
def selectorMarks : List Char := ['\x7b', '\x7d', '\n']

/-- The marks that no property may contain. -/
def propertyMarks : List Char := ['\x7b', '\x7d', ':', ';', '\n']

/-- The marks that no value may contain. -/
def valueMarks : List Char := ['\x7b', '\x7d', ';', '\n']

/-- A property without marks that does not start with a blank, and a value without marks. -/
structure Declaration.Legible (d : Declaration) : Prop where
  property : Lacks propertyMarks d.property
  start : StartsClear d.property
  value : Lacks valueMarks d.value

mutual

/-- No text in the block contains a mark, and no rule is empty. -/
def Block.Legible : Block → Prop
  | .rule selector ds => Lacks selectorMarks selector ∧ ds ≠ [] ∧ ∀ d ∈ ds, d.Legible
  | .atRule header blocks => Lacks selectorMarks header ∧ Legible blocks

/-- No text in the style sheet contains a mark, and no rule is empty. -/
def Legible : List Block → Prop
  | [] => True
  | b :: rest => b.Legible ∧ Legible rest

end

theorem legible_append {bs cs : List Block} : Legible (bs ++ cs) ↔ Legible bs ∧ Legible cs := by
  induction bs with
  | nil => simp [Legible]
  | cons b bs ih => simp [Legible, ih, and_assoc]

/-! ### A line of declarations -/

/-- A declaration without its semicolon. -/
def Declaration.chars (d : Declaration) : List Char :=
  d.property.toList ++ ':' :: ' ' :: d.value.toList

theorem Declaration.toList_text (d : Declaration) : d.text.toList = d.chars ++ [';', ' '] := by
  simp [Declaration.text, Declaration.chars]

theorem Declaration.Legible.semicolon_not_mem {d : Declaration} (h : d.Legible) :
    ';' ∉ ' ' :: d.chars := by
  have hproperty := h.property ';' (by decide)
  have hvalue := h.value ';' (by decide)
  simp [Declaration.chars, hproperty, hvalue]

/-- A declaration starts with its property, or with the colon behind an empty one. -/
theorem Declaration.isBlank_head {d : Declaration} (h : StartsClear d.property)
    (rest : List Char) : ∀ a ∈ (d.chars ++ rest).head?, Text.isBlank a = false := by
  intro a ha
  cases hproperty : d.property.toList with
  | nil =>
    obtain rfl : ':' = a := by simpa [Declaration.chars, hproperty] using ha
    decide
  | cons c cs =>
    obtain rfl : c = a := by simpa [Declaration.chars, hproperty] using ha
    exact h c (by simp [hproperty])

/-- The blank behind each declaration can as well be read as standing before the next one. -/
theorem cons_toList_join (ds : List Declaration) :
    ' ' :: (String.join (ds.map Declaration.text)).toList =
      (ds.flatMap fun d => ' ' :: d.chars ++ [';']) ++ [' '] := by
  induction ds with
  | nil => simp
  | cons d ds ih =>
    rw [String.toList_join] at ih ⊢
    simp only [List.map_cons, List.flatMap_cons, Declaration.toList_text]
    calc ' ' :: (d.chars ++ [';', ' '] ++ (ds.map Declaration.text).flatMap String.toList)
        = ' ' :: d.chars ++ [';'] ++ ' ' :: (ds.map Declaration.text).flatMap String.toList := by
          simp
      _ = ' ' :: d.chars ++ [';'] ++ (ds.flatMap fun d => ' ' :: d.chars ++ [';']) ++ [' '] := by
          rw [ih]; simp

theorem getLast?_flatMap_chars {ds : List Declaration} (hne : ds ≠ []) :
    (ds.flatMap fun d => ' ' :: d.chars ++ [';']).getLast? = some ';' := by
  rcases List.eq_nil_or_concat ds with rfl | ⟨front, d, rfl⟩
  · exact absurd rfl hne
  · simp [List.getLast?_cons]

/-- If no property starts with a blank, the blank at the end of the line is all that trimming takes
off. -/
theorem cons_toList_declarationsText {ds : List Declaration} (hne : ds ≠ [])
    (h : ∀ d ∈ ds, StartsClear d.property) :
    ' ' :: (declarationsText ds).toList = ds.flatMap fun d => ' ' :: d.chars ++ [';'] := by
  obtain ⟨d, rest, rfl⟩ := List.exists_cons_of_ne_nil hne
  -- What is left of the line behind the blank with which the list on the right starts.
  let body := d.chars ++ ([';'] ++ rest.flatMap fun d => ' ' :: d.chars ++ [';'])
  have hbody : ((d :: rest).flatMap fun d => ' ' :: d.chars ++ [';']) = ' ' :: body := by
    simp [body]
  have hline : (String.join ((d :: rest).map Declaration.text)).toList = body ++ [' '] := by
    have := cons_toList_join (d :: rest)
    rw [hbody] at this
    exact (List.cons.inj this).2
  have hhead : ∀ a ∈ body.head?, Text.isBlank a = false :=
    Declaration.isBlank_head (h d (by simp)) _
  have hlast : ∀ a ∈ body.getLast?, Text.isBlank a = false := by
    -- The line ends in the semicolon of its last declaration.
    intro a ha
    have hsemicolon := getLast?_flatMap_chars hne
    rw [hbody, List.getLast?_cons, ha, Option.getD_some] at hsemicolon
    obtain rfl := Option.some.inj hsemicolon
    decide
  rw [hbody, declarationsText, Text.trim, hline, String.toList_ofList,
    Text.trimChars_append_blank (by simp [body]) (by decide) hhead hlast]

/-! ### Lines -/

theorem readDeclaration_chars {d : Declaration} (h : d.Legible) :
    readDeclaration (' ' :: d.chars) = some d := by
  have hcolon : ':' ∉ d.property.toList := h.property ':' (by decide)
  simp [readDeclaration, Declaration.chars, Text.cut_append hcolon]

/-- The pieces of a line of declarations are the declarations and what closes the rule. -/
theorem pieces_flatMap_chars {ds : List Declaration} (h : ∀ d ∈ ds, d.Legible) :
    Text.pieces ';' ((ds.flatMap fun d => ' ' :: d.chars ++ [';']) ++ [' ', '\x7d']) =
      (ds.map fun d => ' ' :: d.chars) ++ [[' ', '\x7d']] := by
  induction ds with
  | nil => rfl
  | cons d ds ih =>
    have hd := (h d (by simp)).semicolon_not_mem
    rw [List.flatMap_cons, List.append_assoc, List.append_assoc, List.singleton_append,
      Text.pieces_append_cons hd, ih fun e he => h e (by simp [he])]
    simp

theorem mapM_readDeclaration {ds : List Declaration} (h : ∀ d ∈ ds, d.Legible) :
    (ds.map fun d => ' ' :: d.chars).mapM readDeclaration = some ds := by
  induction ds with
  | nil => rfl
  | cons d ds ih =>
    rw [List.map_cons, List.mapM_cons, readDeclaration_chars (h d (by simp)),
      ih fun e he => h e (by simp [he])]
    rfl

theorem readDeclarations_eq {ds : List Declaration} (h : ∀ d ∈ ds, d.Legible) :
    readDeclarations ((ds.flatMap fun d => ' ' :: d.chars ++ [';']) ++ [' ', '\x7d']) =
      some ds := by
  simp only [readDeclarations, pieces_flatMap_chars h]
  rw [List.getLast?_concat, if_pos rfl, List.dropLast_concat, mapM_readDeclaration h]

/-- A line with an opening brace says what stands before the brace and what stands behind it. -/
theorem readLine_brace {name rest : List Char} (h : '\x7b' ∉ name) :
    readLine (name ++ ' ' :: '\x7b' :: rest) =
      match rest with
      | [] => some (.opening (String.ofList name))
      | c :: cs => (readDeclarations (c :: cs)).map (.rule (String.ofList name)) := by
  have hname : '\x7b' ∉ name ++ [' '] := by simp [h]
  have hcut : Text.cut '\x7b' (name ++ ' ' :: '\x7b' :: rest) = some (name ++ [' '], rest) := by
    rw [List.append_cons, Text.cut_append hname]
  -- The line holds a brace and a blank, so it is not the line that closes an at-rule.
  have hne : name ++ ' ' :: '\x7b' :: rest ≠ ['\x7d'] := by
    intro heq
    have hlength := congrArg List.length heq
    simp only [List.length_append, List.length_cons, List.length_nil] at hlength
    omega
  rw [readLine, if_neg hne, hcut]
  cases rest <;> simp

/-- The line of a rule says the rule. -/
theorem readLine_ruleLine {selector : String} {ds : List Declaration}
    (hselector : Lacks selectorMarks selector) (hne : ds ≠ []) (hds : ∀ d ∈ ds, d.Legible) :
    readLine (selector.toList ++ [' ', '\x7b', ' '] ++ (declarationsText ds).toList ++
      [' ', '\x7d']) = some (.rule selector ds) := by
  have hbrace : '\x7b' ∉ selector.toList := hselector '\x7b' (by decide)
  have hdeclarations := readDeclarations_eq hds
  rw [← cons_toList_declarationsText hne fun d hd => (hds d hd).start,
    List.cons_append] at hdeclarations
  have hline := @readLine_brace selector.toList
    (' ' :: ((declarationsText ds).toList ++ [' ', '\x7d'])) hbrace
  simp only [hdeclarations, Option.map_some, String.ofList_toList] at hline
  simpa using hline

/-- The line before the blocks of an at-rule says its header. -/
theorem readLine_openingLine {header : String} (h : Lacks selectorMarks header) :
    readLine (header.toList ++ [' ', '\x7b']) = some (.opening header) := by
  have hbrace : '\x7b' ∉ header.toList := h '\x7b' (by decide)
  rw [readLine_brace hbrace, String.ofList_toList]

theorem readLine_closing : readLine ['\x7d'] = some .closing := rfl

theorem newline_not_mem_declarationsText {ds : List Declaration} (hne : ds ≠ [])
    (h : ∀ d ∈ ds, d.Legible) : '\n' ∉ (declarationsText ds).toList := by
  intro hmem
  have hline := List.mem_cons_of_mem ' ' hmem
  rw [cons_toList_declarationsText hne fun d hd => (h d hd).start] at hline
  obtain ⟨d, hd, hchar⟩ := List.mem_flatMap.mp hline
  have hproperty := (h d hd).property '\n' (by decide)
  have hvalue := (h d hd).value '\n' (by decide)
  simp [Declaration.chars, hproperty, hvalue] at hchar

/-! ### Whole style sheets -/

/-- A line that the reader understands is one step. -/
theorem readLines_line {line : List Char} {said : Line} {r r' : Reading} (hline : '\n' ∉ line)
    (hsaid : readLine line = some said) (hstep : r.step said = some r') (rest : List Char) :
    readLines r (Text.pieces '\n' (line ++ '\n' :: rest)) =
      readLines r' (Text.pieces '\n' rest) := by
  rw [Text.pieces_append_cons hline]
  -- A line is only read if another one follows, be it empty.
  obtain ⟨next, lines, hlines⟩ := List.exists_cons_of_ne_nil (@Text.pieces_ne_nil '\n' rest)
  simp [hlines, readLines, hsaid, hstep]

/-- The reader finds the blocks of a legible style sheet and goes on with the lines behind it. -/
theorem readLines_text (bs : List Block) (h : Legible bs) (rest : List Char) (done : List Block)
    (stack : List (String × List Block)) :
    readLines ⟨done, stack⟩ (Text.pieces '\n' ((text bs).toList ++ rest)) =
      readLines ⟨done ++ bs, stack⟩ (Text.pieces '\n' rest) := by
  -- The induction is for every stack, since the blocks inside an at-rule are read over a higher
  -- one.
  induction bs using Block.induction generalizing rest done stack with
  | nil => simp [text]
  | rule selector ds bs ih =>
    obtain ⟨⟨hselector, hne, hds⟩, hbs⟩ := h
    have hnewline : '\n' ∉ selector.toList ++ [' ', '\x7b', ' '] ++ (declarationsText ds).toList ++
        [' ', '\x7d'] := by
      have hs := hselector '\n' (by decide)
      have hd := newline_not_mem_declarationsText hne hds
      simp [hs, hd]
    have hrule : readLines ⟨done, stack⟩ _ = _ :=
      readLines_line hnewline (readLine_ruleLine hselector hne hds) rfl ((text bs).toList ++ rest)
    rw [ih hbs, List.append_assoc done] at hrule
    simpa [text, Block.text] using hrule
  | atRule header blocks bs ihblocks ih =>
    obtain ⟨⟨hheader, hblocks⟩, hbs⟩ := h
    have hnewline : '\n' ∉ header.toList ++ [' ', '\x7b'] := by
      have hh := hheader '\n' (by decide)
      simp [hh]
    -- While the blocks inside are read, the header waits on the stack.
    have hopening : readLines ⟨done, stack⟩ _ = _ :=
      readLines_line hnewline (readLine_openingLine hheader) rfl
        ((text blocks).toList ++ '\x7d' :: '\n' :: ((text bs).toList ++ rest))
    have hclosing : readLines ⟨blocks, (header, done) :: stack⟩ _ = _ :=
      readLines_line (by decide) readLine_closing rfl ((text bs).toList ++ rest)
    rw [ihblocks hblocks, List.nil_append] at hopening
    rw [ih hbs, List.append_assoc done] at hclosing
    simpa [text, Block.text] using hopening.trans hclosing

/-- A legible style sheet is read back. -/
theorem read_text {bs : List Block} (h : Legible bs) : read (text bs) = some bs := by
  have hread := readLines_text bs h [] [] []
  rw [List.append_nil, List.nil_append] at hread
  rw [read, hread]
  rfl

/-- Legible style sheets with one text are the same. -/
theorem text_eq_iff {bs cs : List Block} (hbs : Legible bs) (hcs : Legible cs) :
    text bs = text cs ↔ bs = cs := by
  refine ⟨fun h => ?_, fun h => h ▸ rfl⟩
  -- The reader does not know the blocks, so from one text it gets one style sheet.
  have hread := read_text hbs
  rw [h, read_text hcs] at hread
  exact (Option.some.inj hread).symm

end Css

end StyleTree
