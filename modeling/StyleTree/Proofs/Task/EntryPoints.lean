import StyleTree.Proofs.Css.Strict
import StyleTree.Proofs.Json.Parts

/-!
# All ways to compile agree

A style document can be compiled as a text, as a tree that is read already, or as a file, and it can
be checked, expanded and named. Each of these reads, expands, names and writes by itself, and they
agree: a text compiles exactly if it is read as a tree and the tree compiles, with the same style
sheet and class name or the same error; a file that compiles has the name that naming it gives; and
a file that cannot be read, or is no style document, is refused by every command alike, before
anything is changed.

## Main definitions

* `Compiled.Describes` — what a compilation says about the style sheet of a class
* `Task.Refused` — every command refuses a file with one error and leaves everything as it was

## Main results

* `exists_compiled_describes` — a style document compiles as its tree does
* `refused_of_unreadable`, `refused_of_unparsable` — the files that no command accepts
* `entryPoints_agree` — all ways to compile agree
-/

namespace StyleTree

open Script (Desk)

/-- The compilation is about the style sheet of a class: the text is the same, and the statistics
give the name, the selector and the size of the text. -/
structure Compiled.Describes (compiled : Compiled) (compiledClass : CompiledClass) : Prop where
  css : compiled.css = compiledClass.css
  className : compiled.stats.className = some compiledClass.className
  selector : compiled.stats.selector = "." ++ compiledClass.className
  outputSize : compiled.stats.outputSize = compiledClass.css.utf8ByteSize

/-- Every command refuses the file with the error, and leaves everything as it was. -/
structure Task.Refused (desk : Desk) (path : String) (ctx : Context) (e : StyleError) : Prop where
  compileFile : ∀ output options,
    (Task.compileFile path output ctx options).perform desk = (.error e, desk)
  checkFile : (Task.checkFile path ctx).perform desk = (.error e, desk)
  expandFile : (Task.expandFile path ctx).perform desk = (.error e, desk)
  nameFile : ∀ options, (Task.nameFile path ctx options).perform desk = (.error e, desk)

variable {ctx : Context} {options : Options} {desk : Desk} {es : Sheet}
  {source filename path output : String} {compiled : Compiled} {stats : Stats} {e : StyleError}

/-! ### Texts and trees -/

theorem compileSource_of_error (h : Sheet.ofDocument source filename = .error e) :
    compileSource source filename ctx options = .error e := by
  rw [compileSource, draftSource, h]
  rfl

/-- A style document compiles as its tree does, if its references are not refused. -/
theorem compileSource_of_ok (h : Sheet.ofDocument source filename = .ok es) :
    compileSource source filename ctx options =
      (checkResolved options.strict
        (compileSheet es source.utf8ByteSize ctx options).unresolved).map
          fun _ => compileSheet es source.utf8ByteSize ctx options := by
  rw [compileSource, draftSource, h]
  rfl

/-- A text that compiles is a style document, and the result is about its tree. -/
theorem exists_of_compileSource_eq_ok
    (h : compileSource source filename ctx options = .ok compiled) :
    ∃ es, Sheet.ofDocument source filename = .ok es ∧
      compiled = compileSheet es source.utf8ByteSize ctx options := by
  cases hes : Sheet.ofDocument source filename with
  | error e =>
    rw [compileSource_of_error hes] at h
    cases h
  | ok es =>
    rw [compileSource_of_ok hes] at h
    obtain ⟨_, -, heq⟩ := exists_of_map_eq_ok h
    exact ⟨es, rfl, heq.symm⟩

/-- Without a selector, a style document compiles as its tree does under its own class name, and
both are refused for the same reference. -/
theorem exists_compiled_describes (ctx : Context) (hselector : options.selector = none)
    (hes : Sheet.ofDocument source filename = .ok es) :
    ∃ (check : Except StyleError Unit) (compiled : Compiled) (compiledClass : CompiledClass),
      compileSource source filename ctx options = check.map (fun _ => compiled) ∧
      compileClass es ctx options = check.map (fun _ => compiledClass) ∧
      compiled.Describes compiledClass ∧
      compiledClass.css = compileRule compiledClass.className es ctx := by
  obtain ⟨family, component, selector, strict⟩ := options
  obtain rfl : selector = none := hselector
  exact ⟨_, _, _, compileSource_of_ok hes, rfl, ⟨rfl, rfl, rfl, rfl⟩, rfl⟩

/-! ### Files -/

theorem perform_readSource_of_error {failure : FileError}
    (h : desk.files.read path = .error failure) :
    (Task.readSource path).perform desk = (.error (.unreadable path failure), desk) := by
  rw [Task.readSource, Action.perform_read, h]
  rfl

/-- A readable file is loaded as what its text is read as. -/
theorem perform_loadSheet (h : desk.files.read path = .ok source) :
    (Task.loadSheet path).perform desk = (Sheet.ofDocument source path, desk) := by
  rw [Task.loadSheet, Action.perform_bind_of_ok (perform_readSource_of_ok h)]
  rfl

/-- A text that is no style document is refused without a warning. -/
theorem perform_compileText_of_error (h : Sheet.ofDocument source filename = .error e) :
    (Task.compileText source filename ctx options).perform desk = (.error e, desk) := by
  rw [Task.compileText, draftSource, h]
  rfl

/-- A file that compiles has been read, and its text compiles to the same statistics. -/
theorem exists_of_perform_compileFile_ok
    (h : ((Task.compileFile path output ctx options).perform desk).1 = .ok stats) :
    ∃ source compiled, desk.files.read path = .ok source ∧
      compileSource source path ctx options = .ok compiled ∧ compiled.stats = stats := by
  -- Each of the actions has succeeded on what the one before it has left.
  obtain ⟨source, left, hsource, hrest⟩ := Action.exists_of_perform_bind_ok h
  obtain ⟨compiled, left', hcompiled, hwrite⟩ := Action.exists_of_perform_bind_ok hrest
  obtain ⟨_, left'', -, hstats⟩ := Action.exists_of_perform_bind_ok hwrite
  refine ⟨source, compiled, ?_, ?_, Except.ok.inj hstats⟩
  · cases hread : desk.files.read path with
    | error failure => cases (perform_readSource_of_error hread).symm.trans hsource
    | ok text =>
      cases (perform_readSource_of_ok hread).symm.trans hsource
      rfl
  · rw [← perform_compileText left, hcompiled]

/-- Naming a readable style document gives the class name of its tree. -/
theorem perform_nameFile (hread : desk.files.read path = .ok source)
    (hes : Sheet.ofDocument source path = .ok es) :
    (Task.nameFile path ctx options).perform desk =
      (.ok ((ctx.expand es).className options.family options.component), desk) := by
  have hload : (Task.loadSheet path).perform desk = (.ok es, desk) := by
    rw [perform_loadSheet hread, hes]
  exact Action.perform_bind_of_ok hload _

/-- A file that cannot be read is refused by every command. -/
theorem refused_of_unreadable {failure : FileError} (h : desk.files.read path = .error failure) :
    Task.Refused desk path ctx (.unreadable path failure) := by
  have hsource := perform_readSource_of_error h
  have hload : (Task.loadSheet path).perform desk = (.error (.unreadable path failure), desk) :=
    Action.perform_bind_of_error hsource _
  exact {
    compileFile := fun _ _ => Action.perform_bind_of_error hsource _
    checkFile := Action.perform_bind_of_error hsource _
    expandFile := Action.perform_bind_of_error hload _
    nameFile := fun _ => Action.perform_bind_of_error hload _ }

/-- A file that is no style document is refused by every command. -/
theorem refused_of_unparsable (hread : desk.files.read path = .ok source)
    (he : Sheet.ofDocument source path = .error e) : Task.Refused desk path ctx e := by
  have hsource := perform_readSource_of_ok hread
  have hload : (Task.loadSheet path).perform desk = (.error e, desk) := by
    rw [perform_loadSheet hread, he]
  constructor
  case compileFile =>
    intro output options
    rw [Task.compileFile, Action.perform_bind_of_ok hsource]
    exact Action.perform_bind_of_error (perform_compileText_of_error he) _
  case checkFile =>
    rw [Task.checkFile, Action.perform_bind_of_ok hsource]
    exact Action.perform_bind_of_error (perform_compileText_of_error he) _
  case expandFile => exact Action.perform_bind_of_error hload _
  case nameFile => exact fun _ => Action.perform_bind_of_error hload _

/-! ### Main result -/

/-- All ways to compile agree. Without a selector a text compiles exactly if it is read as a tree
that compiles under its own class name; the style sheet, the class name, the selector and the size
are then the same, the style sheet is that of the named class, and every other outcome is the same
error. A file that compiles is given the same name by itself. A file that cannot be read, or is no
style document, is refused by every command with one error. -/
theorem entryPoints_agree (ctx : Context) (options : Options)
    (hselector : options.selector = none) :
    (∀ source filename : String,
      ((∃ compiled, compileSource source filename ctx options = .ok compiled) ↔
        ∃ es compiledClass, Sheet.ofDocument source filename = .ok es ∧
          compileClass es ctx options = .ok compiledClass) ∧
      (∀ es compiled compiledClass, Sheet.ofDocument source filename = .ok es →
        compileSource source filename ctx options = .ok compiled →
        compileClass es ctx options = .ok compiledClass →
        compiled.Describes compiledClass ∧
          compiledClass.css = compileRule compiledClass.className es ctx) ∧
      ∀ e, compileSource source filename ctx options = .error e ↔
        Sheet.ofDocument source filename = .error e ∨
          ∃ es, Sheet.ofDocument source filename = .ok es ∧
            compileClass es ctx options = .error e) ∧
    ∀ (desk : Desk) (path : String),
      (∀ output stats, ((Task.compileFile path output ctx options).perform desk).1 = .ok stats →
        ∃ name, stats.className = some name ∧
          (Task.nameFile path ctx options).perform desk = (.ok name, desk)) ∧
      (∀ failure, desk.files.read path = .error failure →
        Task.Refused desk path ctx (.unreadable path failure)) ∧
      ∀ source e, desk.files.read path = .ok source → Sheet.ofDocument source path = .error e →
        Task.Refused desk path ctx e := by
  refine ⟨fun source filename => ?_, fun desk path => ⟨?_, ?_, ?_⟩⟩
  · cases hes : Sheet.ofDocument source filename with
    | error e => simp [compileSource_of_error hes]
    | ok es =>
      obtain ⟨check, compiled, compiledClass, hsource, hclass, hdescribes, hcss⟩ :=
        exists_compiled_describes ctx hselector hes
      -- One check decides both compilations, so they are told apart by its outcome alone.
      rw [hsource]
      cases check with
      | error e => simp [hclass, Except.map]
      | ok _ =>
        refine ⟨⟨fun _ => ⟨es, compiledClass, rfl, hclass⟩, fun _ => ⟨compiled, rfl⟩⟩, ?_, ?_⟩
        · rintro _ _ compiledClass' ⟨rfl⟩ ⟨rfl⟩ h
          obtain rfl : compiledClass = compiledClass' := Except.ok.inj (hclass.symm.trans h)
          exact ⟨hdescribes, hcss⟩
        · intro e
          simp [hclass, Except.map]
  · intro output stats h
    obtain ⟨source, compiled, hread, hcompiled, rfl⟩ := exists_of_perform_compileFile_ok h
    obtain ⟨es, hes, rfl⟩ := exists_of_compileSource_eq_ok hcompiled
    refine ⟨_, ?_, perform_nameFile hread hes⟩
    rw [compileSheet, hselector]
    rfl
  · exact fun _ => refused_of_unreadable
  · exact fun _ _ => refused_of_unparsable

/-- A style document, a document that is cut off, and a name that no file has. -/
theorem entryPoints_agree_card :
    let options : Options := { family := "app", component := some "card", strict := true }
    let source := "\x7b\"px\": \"1px\", \"&:hover\": \x7b\"color\": \"red\"\x7d\x7d"
    let desk : Desk :=
      ⟨[("card.json", .file (.text source)), ("cut.json", .file (.text "\x7b"))], "", []⟩
    let complaint : Json.Complaint := ⟨.endInObject, ⟨1, 1⟩⟩
    options.selector = none ∧
      (∃ es compiledClass, Sheet.ofDocument source "card.json" = .ok es ∧
        compileClass es .standard options = .ok compiledClass) ∧
      (Task.nameFile "card.json" .standard options).perform desk =
        (.ok "app-card-62zzl3", desk) ∧
      Task.Refused desk "gone.json" .standard (.unreadable "gone.json" .notFound) ∧
      Task.Refused desk "cut.json" .standard (.malformed "cut.json" complaint) := by
  intro options source desk complaint
  have hstats : ((Task.compileFile "card.json" "card.css" .standard options).perform desk).1 =
      .ok ⟨42, 99, some "app-card-62zzl3", ".app-card-62zzl3", 2, 3, 0⟩ := by decide +kernel
  obtain ⟨_, compiled, hread, hcompiled, -⟩ := exists_of_perform_compileFile_ok hstats
  obtain rfl : source = _ := Except.ok.inj hread
  obtain ⟨htexts, hfiles⟩ := entryPoints_agree .standard options rfl
  obtain ⟨hname, -, -⟩ := hfiles desk "card.json"
  obtain ⟨-, hgone, -⟩ := hfiles desk "gone.json"
  obtain ⟨-, -, hcut⟩ := hfiles desk "cut.json"
  refine ⟨rfl, (htexts source "card.json").1.mp ⟨compiled, hcompiled⟩, ?_, ?_, ?_⟩
  · obtain ⟨name, ⟨rfl⟩, hperform⟩ := hname _ _ hstats
    exact hperform
  · exact hgone .notFound (by decide +kernel)
  · exact hcut "\x7b" _ (by decide +kernel) rfl

end StyleTree
