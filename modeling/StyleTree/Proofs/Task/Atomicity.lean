import StyleTree.Proofs.Storage.Writing
import StyleTree.Proofs.Task.EntryPoints
import StyleTree.Task.Command

/-!
# Compiling a file is atomic

Compiling a file reads the whole document, compiles it, and writes once, as its last step. So a
failure of any kind leaves every file as it was, and a success changes the output alone. The other
commands do not write at all. Nothing here depends on how files are kept: it holds in every file
system in which a single access succeeds completely or fails without effect, and the working
directory is one of them.

## Main definitions

* `Task.Atomic` — what compiling a file does in a file system

## Main results

* `Task.atomic_compileFile` — compiling a file is atomic
* `Task.readsOnly_ofRequest` — no other command writes
* `Task.compileFile_atomic` — both, in every file system and in the working directory
-/

namespace StyleTree

open StyleTree.Action (ReadsOnly readsOnly_bind readsOnly_line readsOnly_ofExcept readsOnly_pure)
open CommandLine (Request)

variable {σ φ : Type} {fs : FileSystem σ φ} {s : σ} {ctx : Context} {options : Options}
  {input output source filename : String}

namespace Task

/-- Compiling a file from one state of the files to another. Without success nothing has changed.
After a success the output holds the style sheet that the text of the input compiles to, no other
file has changed, and the statistics give the size of the style sheet. There is a success exactly if
the input can be read, its text compiles, and the output can be written. -/
structure Atomic (fs : FileSystem σ φ) (input output : String) (ctx : Context) (options : Options)
    (before after : σ) (outcome : Except StyleError Stats) : Prop where
  unchanged : ∀ e, outcome = .error e → after = before
  written : ∀ stats, outcome = .ok stats → ∃ source compiled document file,
    fs.file? before input = some document ∧ fs.contents? before document = some (.text source) ∧
    compileSource source input ctx options = .ok compiled ∧ compiled.stats = stats ∧
    stats.outputSize = compiled.css.utf8ByteSize ∧
    fs.file? after output = some file ∧ fs.contents? after file = some (.text compiled.css) ∧
    ∀ other, other ≠ file → fs.contents? after other = fs.contents? before other
  ok_iff : (∃ stats, outcome = .ok stats) ↔ ∃ source compiled left,
    fs.read before input = .ok source ∧ compileSource source input ctx options = .ok compiled ∧
    fs.write before output compiled.css = .ok left

/-! ### What only reads -/

theorem readsOnly_readSource (path : String) : (readSource path).ReadsOnly :=
  Action.readsOnly_read path _

theorem readsOnly_loadSheet (path : String) : (loadSheet path).ReadsOnly :=
  readsOnly_bind (readsOnly_readSource path) fun _ => readsOnly_ofExcept _

theorem readsOnly_compileText (source filename : String) (ctx : Context) (options : Options) :
    (compileText source filename ctx options).ReadsOnly := by
  refine readsOnly_bind (readsOnly_ofExcept _) fun compiled => ?_
  refine readsOnly_bind (Action.readsOnly_warn _) fun _ => ?_
  exact readsOnly_bind (readsOnly_ofExcept _) fun _ => readsOnly_pure _

theorem readsOnly_checkFile (path : String) (ctx : Context) : (checkFile path ctx).ReadsOnly := by
  refine readsOnly_bind (readsOnly_readSource path) fun source => ?_
  exact readsOnly_bind (readsOnly_compileText _ _ _ _) fun _ => readsOnly_pure _

theorem readsOnly_reportCheck (path : String) (ctx : Context) :
    (reportCheck path ctx).ReadsOnly := by
  refine readsOnly_bind (readsOnly_line _) fun _ => ?_
  refine readsOnly_bind (Action.readsOnly_lift_run (readsOnly_checkFile path ctx)) fun r => ?_
  cases r with
  | ok stats => exact readsOnly_line _
  | error e => exact readsOnly_bind (readsOnly_line _) fun _ => Action.readsOnly_throw e

theorem readsOnly_checkFiles (ctx : Context) (paths : List String) :
    (checkFiles ctx paths).ReadsOnly := by
  induction paths with
  | nil => exact readsOnly_pure 0
  | cons path rest ih =>
    have hreport := Action.readsOnly_lift_run (readsOnly_reportCheck path ctx)
    refine readsOnly_bind hreport fun failed => ?_
    exact readsOnly_bind ih fun others => readsOnly_pure _

theorem readsOnly_checkDirectory (path : String) (ctx : Context) :
    (checkDirectory path ctx).ReadsOnly := by
  refine readsOnly_bind (Action.readsOnly_walk path) fun paths => ?_
  refine readsOnly_bind (readsOnly_checkFiles ctx _) fun failed => ?_
  refine readsOnly_bind (readsOnly_line _) fun _ => ?_
  refine readsOnly_bind (readsOnly_line _) fun _ => ?_
  refine readsOnly_bind (readsOnly_line _) fun _ => ?_
  refine readsOnly_bind (readsOnly_line _) fun _ => ?_
  have hend : ReadsOnly (if failed > 0 then throw (.failedFiles failed) else pure ()) := by
    split
    · exact Action.readsOnly_throw _
    · exact readsOnly_pure ()
  dsimp only
  split
  · exact readsOnly_bind (readsOnly_line _) fun _ => hend
  · exact hend

theorem readsOnly_check (path : String) (recursive : Bool) (ctx : Context) :
    (check path recursive ctx).ReadsOnly := by
  have hend (directory : Bool) :
      ReadsOnly (if directory then checkDirectory path ctx else reportCheck path ctx) := by
    cases directory with
    | true => exact readsOnly_checkDirectory path ctx
    | false => exact readsOnly_reportCheck path ctx
  cases recursive with
  | true => exact readsOnly_bind (Action.readsOnly_isDirectory path) hend
  | false => exact readsOnly_bind (readsOnly_pure false) hend

/-- No command but compiling writes a file. -/
theorem readsOnly_ofRequest (config : Config) {request : Request}
    (h : ∀ r, request ≠ .compile r) : (ofRequest config request).ReadsOnly := by
  have hline (text : String) : ReadsOnly (do Action.line text; return (none : Option Job)) :=
    readsOnly_bind (readsOnly_line text) fun _ => readsOnly_pure _
  cases request with
  | compile r => exact absurd rfl (h r)
  | check path recursive =>
    exact readsOnly_bind (readsOnly_check path recursive config.context) fun _ => readsOnly_pure _
  | expand path =>
    refine readsOnly_bind ?_ hline
    exact readsOnly_bind (readsOnly_loadSheet path) fun _ => readsOnly_pure _
  | name path component =>
    refine readsOnly_bind ?_ hline
    exact readsOnly_bind (readsOnly_loadSheet path) fun _ => readsOnly_pure _
  | resolve property reference => exact readsOnly_bind (readsOnly_ofExcept _) hline

/-! ### Compiling a file -/

/-- Compiling a text gives what the text compiles to, and changes nothing. -/
theorem performOn_compileText (fs : FileSystem σ φ) (s : σ) (source filename : String)
    (ctx : Context) (options : Options) :
    (compileText source filename ctx options).performOn fs s =
      (compileSource source filename ctx options, s) := by
  refine Prod.ext ?_ (readsOnly_compileText source filename ctx options).performOn_snd
  rw [compileText, compileSource]
  cases hdraft : draftSource source filename ctx options with
  | error e => rfl
  | ok compiled =>
    rw [Action.performOn_bind_of_ok rfl, Action.performOn_bind_of_ok (Action.performOn_warn _),
      Except.bind]
    cases hcheck : checkResolved options.strict compiled.unresolved with
    | error e =>
      rw [Action.performOn_bind_of_error rfl]
      rfl
    | ok _ =>
      rw [Action.performOn_bind_of_ok rfl]
      rfl

theorem performOn_compileFile_of_unreadable {failure : FileError}
    (hread : fs.read s input = .error failure) :
    (compileFile input output ctx options).performOn fs s =
      (.error (.unreadable input failure), s) := by
  have hsource : (readSource input).performOn fs s = (.error (.unreadable input failure), s) := by
    rw [readSource, Action.performOn_read, hread]
    rfl
  exact Action.performOn_bind_of_error hsource _

section Readable

variable {compiled : Compiled} (hread : fs.read s input = .ok source)
include hread

theorem performOn_readSource : (readSource input).performOn fs s = (.ok source, s) := by
  rw [readSource, Action.performOn_read, hread]
  rfl

theorem performOn_compileFile_of_error {e : StyleError}
    (he : compileSource source input ctx options = .error e) :
    (compileFile input output ctx options).performOn fs s = (.error e, s) := by
  have htext := performOn_compileText fs s source input ctx options
  rw [he] at htext
  rw [compileFile, Action.performOn_bind_of_ok (performOn_readSource hread)]
  exact Action.performOn_bind_of_error htext _

/-- Up to the write nothing has changed, and nothing follows it. -/
theorem performOn_compileFile_of_compiled
    (hcompiled : compileSource source input ctx options = .ok compiled) :
    (compileFile input output ctx options).performOn fs s =
      (Action.write output compiled.css >>= fun _ => pure compiled.stats).performOn fs s := by
  have htext := performOn_compileText fs s source input ctx options
  rw [hcompiled] at htext
  rw [compileFile, Action.performOn_bind_of_ok (performOn_readSource hread)]
  exact Action.performOn_bind_of_ok htext _

end Readable

theorem outputSize_of_compileSource {compiled : Compiled}
    (h : compileSource source filename ctx options = .ok compiled) :
    compiled.stats.outputSize = compiled.css.utf8ByteSize := by
  obtain ⟨es, -, rfl⟩ := exists_of_compileSource_eq_ok h
  rfl

/-- Compiling a file is atomic, in whatever file system. -/
theorem atomic_compileFile (fs : FileSystem σ φ) (s : σ) (input output : String) (ctx : Context)
    (options : Options) :
    Atomic fs input output ctx options s ((compileFile input output ctx options).performOn fs s).2
      ((compileFile input output ctx options).performOn fs s).1 := by
  -- One case for each way to fail, and one for the success.
  cases hread : fs.read s input with
  | error failure =>
    rw [performOn_compileFile_of_unreadable hread]
    refine ⟨fun _ _ => rfl, fun _ => nofun, ?_⟩
    simp [hread]
  | ok source =>
    cases hcompiled : compileSource source input ctx options with
    | error e =>
      rw [performOn_compileFile_of_error hread hcompiled]
      refine ⟨fun _ _ => rfl, fun _ => nofun, ?_⟩
      simp [hread, hcompiled]
    | ok compiled =>
      rw [performOn_compileFile_of_compiled hread hcompiled]
      cases hwrite : fs.write s output compiled.css with
      | error failure =>
        rw [Action.performOn_bind_of_error (Action.performOn_write_of_error hwrite)]
        refine ⟨fun _ _ => rfl, fun _ => nofun, ?_⟩
        simp [hread, hcompiled, hwrite]
      | ok left =>
        rw [Action.performOn_bind_of_ok (Action.performOn_write_of_ok hwrite)]
        obtain ⟨document, hdocument, hsource⟩ := fs.exists_of_read_eq_ok hread
        obtain ⟨file, hfile, hcss, hothers⟩ := fs.exists_of_write_eq_ok hwrite
        refine ⟨fun _ => nofun, ?_, fun _ => ⟨source, compiled, left, hread, hcompiled, hwrite⟩,
          fun _ => ⟨compiled.stats, rfl⟩⟩
        rintro stats ⟨rfl⟩
        exact ⟨source, compiled, document, file, hdocument, hsource, hcompiled, rfl,
          outputSize_of_compileSource hcompiled, hfile, hcss, hothers⟩

/-- What is not the output afterwards has not changed. -/
theorem Atomic.contents?_eq {before after : σ} {outcome : Except StyleError Stats}
    (h : Atomic fs input output ctx options before after outcome) {file : φ}
    (hother : fs.file? after output ≠ some file) :
    fs.contents? after file = fs.contents? before file := by
  cases outcome with
  | error e => rw [h.unchanged e rfl]
  | ok stats =>
    obtain ⟨_, _, _, written, -, -, -, -, -, hwritten, -, hkept⟩ := h.written stats rfl
    refine hkept file fun heq => ?_
    exact hother (heq ▸ hwritten)

/-- What is done on a desk is done in the file system of the working directory. -/
theorem perform_eq_performOn {α : Type} (desk : Script.Desk) (x : Action α) :
    (x.perform desk).1 = (x.performOn Directory.fileSystem desk.files).1 ∧
      (x.perform desk).2.files = (x.performOn Directory.fileSystem desk.files).2 :=
  Script.run_eq_runOn x.run

/-- Compiling a file is atomic and touches only its output. Whatever fails, no file has changed;
after a success the output alone has changed, and it holds the style sheet that the former text of
the input compiles to, with its size in the statistics. The commands that check, expand, name and
resolve never change a file. This holds in every file system in which a single access succeeds
completely or fails without effect, and on a desk with a working directory. -/
theorem compileFile_atomic :
    (∀ {σ φ : Type} (fs : FileSystem σ φ) (s : σ),
      (∀ (input output : String) (ctx : Context) (options : Options),
        Atomic fs input output ctx options s
          ((compileFile input output ctx options).performOn fs s).2
          ((compileFile input output ctx options).performOn fs s).1) ∧
      ∀ (config : Config) (request : Request), (∀ r, request ≠ .compile r) →
        ((ofRequest config request).performOn fs s).2 = s) ∧
    ∀ desk : Script.Desk,
      (∀ (input output : String) (ctx : Context) (options : Options),
        Atomic Directory.fileSystem input output ctx options desk.files
          ((compileFile input output ctx options).perform desk).2.files
          ((compileFile input output ctx options).perform desk).1) ∧
      ∀ (config : Config) (request : Request), (∀ r, request ≠ .compile r) →
        ((ofRequest config request).perform desk).2.files = desk.files := by
  have hevery {σ φ : Type} (fs : FileSystem σ φ) (s : σ) (config : Config) (request : Request)
      (h : ∀ r, request ≠ .compile r) : ((ofRequest config request).performOn fs s).2 = s :=
    (readsOnly_ofRequest config h).performOn_snd
  refine ⟨fun fs s => ⟨atomic_compileFile fs s, hevery fs s⟩, fun desk => ⟨?_, ?_⟩⟩
  · intro input output ctx options
    obtain ⟨houtcome, hfiles⟩ := perform_eq_performOn desk (compileFile input output ctx options)
    rw [houtcome, hfiles]
    exact atomic_compileFile Directory.fileSystem desk.files input output ctx options
  · intro config request h
    rw [(perform_eq_performOn desk _).2]
    exact hevery Directory.fileSystem desk.files config request h

/-- A document whose reference does not resolve, beside a style sheet from an earlier run: compiling
it in strict mode fails, and like checking it leaves the style sheet as it was. -/
theorem compileFile_atomic_card :
    let source := "\x7b\"color\": \"$red\"\x7d"
    let desk : Script.Desk :=
      ⟨[("card.css", .file (.text ".card \x7b color: red; \x7d\n")),
        ("card.json", .file (.text source))], "", []⟩
    let request := Request.check "card.json" false
    let strict := compileFile "card.json" "card.css" .standard { strict := true }
    let error := StyleError.unresolved ⟨"color", "$red"⟩
    (strict.perform desk).1 = .error error ∧ (strict.perform desk).2.files = desk.files ∧
      (∀ r, request ≠ .compile r) ∧
      ((ofRequest {} request).perform desk).2.files = desk.files := by
  intro source desk request strict error
  have hread : desk.files.read "card.json" = .ok source := by decide +kernel
  have hsource : compileSource source "card.json" .standard { strict := true } = .error error := by
    decide +kernel
  have herror : (strict.perform desk).1 = .error error := by
    rw [(perform_eq_performOn desk strict).1, performOn_compileFile_of_error hread hsource]
  have hrequest (r : CommandLine.CompileRequest) : request ≠ .compile r := nofun
  obtain ⟨hatomic, hkept⟩ := compileFile_atomic.2 desk
  refine ⟨herror, ?_, hrequest, hkept {} request hrequest⟩
  exact (hatomic "card.json" "card.css" .standard { strict := true }).unchanged error herror

end Task

end StyleTree
