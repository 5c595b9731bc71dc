import StyleTree.Proofs.Storage.FileSystems

/-!
# What a write changes in a directory

A write leads through directories that are there already, puts one file at the end of the path, and
leaves everything else where it was. So the working directory is a file system: the file is found at
the same path afterwards, and every other file holds what it held.

## Main definitions

* `Directory.file?`, `Directory.contents?` — the file at a path, and what a file holds
* `Directory.Written` — all that a successful write does
* `Directory.Within` — every directory is still there, with everything in it
* `Directory.fileSystem` — the working directory as a file system

## Main results

* `Directory.exists_written` — what a successful write has done
* `Directory.Written.file?_eq` — the path leads to the file that was written
* `Directory.Written.contents?_eq` — no other file has changed
* `Script.run_eq_runOn` — what a script does on a desk
-/

namespace StyleTree

/-- What a file holds; a directory holds no text. -/
def Item.contents? : Item → Option Contents
  | .file contents => some contents
  | .directory _ => none

namespace Directory

/-- The place of the file at a path, if the path leads to one inside. -/
def file? (d : Directory) (path : String) : Option (List String) :=
  match d.place path with
  | .ok (.inside names) => some names
  | _ => none

/-- What the file at a path of names holds. -/
def contents? (d : Directory) (names : List String) : Option Contents :=
  ((Item.directory d).at? names).bind Item.contents?

/-- All that a successful write of a text does: the path leads to a directory and goes on with a
name, and the file of that name is put there, unless a directory has the name. -/
structure Written (d : Directory) (path text : String) (parent : List String) (name : String)
    (d' : Directory) : Prop where
  follow : ∃ origin before, start path = .ok origin ∧ Path.parts path = before ++ [name] ∧
    d.follow origin before = .ok (.inside parent)
  inside : ∃ es, (Item.directory d).at? parent = some (.directory es)
  ordinary : ¬ Path.isHere name ∧ name ≠ ".." ∧ name.utf8ByteSize ≤ greatestName
  free : ∀ es, (Item.directory d).at? (parent ++ [name]) ≠ some (.directory es)
  eq : d' = (Item.put (.file (.text text)) (parent ++ [name]) (.directory d)).entries

/-- Every directory of the first working directory is still there in the second one, with everything
in it. -/
def Within (d d' : Directory) : Prop :=
  ∀ names es, (Item.directory d).at? names = some (.directory es) →
    ∃ es', (Item.directory d').at? names = some (.directory es') ∧
      ∀ name, (Entries.get? name es).isSome → (Entries.get? name es').isSome

end Directory

variable {d d' : Directory} {path text name : String} {names parent target other : List String}
  {item new : Item} {place place' : Place}

/-! ### Items put at a path of names -/

namespace Item

theorem put_cons :
    put new (name :: names) item =
      .directory (Entries.insert name
        (put new names ((Entries.get? name item.entries).getD (.directory []))) item.entries) := rfl

theorem at?_append : item.at? (names ++ other) = (item.at? names).bind (at? other) := by
  induction names generalizing item with
  | nil => rfl
  | cons name names ih =>
    rw [List.cons_append, at?, at?]
    cases Entries.get? name item.entries with
    | none => rfl
    | some child => exact ih

/-- Above the end of a path of names an item is put at the rest of the path, into what is there or
into a new directory. -/
theorem at?_put_append :
    (put new (names ++ other) item).at? names =
      some (put new other ((item.at? names).getD (.directory []))) := by
  induction names generalizing item with
  | nil => rfl
  | cons name names ih =>
    rw [List.cons_append, put_cons, at?, entries, Entries.get?_insert, if_pos rfl,
      Option.bind_some, ih, at?]
    cases Entries.get? name item.entries with
    | some child => rfl
    | none =>
      -- The new directory is empty, so below it there is a new directory as well.
      cases names <;> rfl

/-- Where neither path leads through the other, nothing changes. -/
theorem at?_put_beside (hbelow : ¬ target <+: other) (habove : ¬ other <+: target) :
    (put new target item).at? other = item.at? other := by
  induction target generalizing item other with
  | nil => exact absurd List.nil_prefix hbelow
  | cons name target ih =>
    cases other with
    | nil => exact absurd List.nil_prefix habove
    | cons name' other =>
      rw [put_cons, at?, entries, Entries.get?_insert, at?]
      by_cases heq : name = name'
      · subst heq
        rw [List.prefix_cons_inj] at hbelow habove
        rw [if_pos rfl, Option.bind_some, ih hbelow habove]
        cases Entries.get? name item.entries with
        | some child => rfl
        | none =>
          cases other with
          | nil => exact absurd List.nil_prefix habove
          | cons _ _ => rfl
      · rw [if_neg heq]

/-- Below what is no directory there is nothing. -/
theorem at?_eq_none_of_not_directory (hbelow : target <+: other) (hne : target ≠ other)
    (h : ∀ es, item.at? target ≠ some (.directory es)) : item.at? other = none := by
  obtain ⟨rest, rfl⟩ := hbelow
  cases rest with
  | nil => exact absurd (List.append_nil target).symm hne
  | cons name rest =>
    rw [at?_append]
    cases hitem : item.at? target with
    | none => rfl
    | some child =>
      cases child with
      | file contents => rfl
      | directory es => exact absurd hitem (h es)

/-- Above a directory there are directories. -/
theorem exists_directory_of_above (habove : names <+: target) {es : List (String × Item)}
    (h : item.at? target = some (.directory es)) :
    ∃ es', item.at? names = some (.directory es') := by
  obtain ⟨rest, rfl⟩ := habove
  rw [at?_append] at h
  obtain ⟨child, hchild, hrest⟩ := Option.bind_eq_some_iff.mp h
  cases child with
  | directory es' => exact ⟨es', hchild⟩
  | file contents => cases rest <;> cases hrest

end Item

/-- A sequence of computations succeeds only if each of them does. -/
theorem exists_of_except_bind_eq_ok {ε α β : Type} {x : Except ε α} {f : α → Except ε β} {b : β}
    (h : x.bind f = .ok b) : ∃ a, x = .ok a ∧ f a = .ok b := by
  cases x with
  | error e => cases h
  | ok a => exact ⟨a, rfl, h⟩

namespace Directory

/-! ### Paths in a growing directory -/

/-- One step of a path inside a directory. -/
theorem step_inside {es : List (String × Item)} {part : String}
    (h : (Item.directory d).at? names = some (.directory es)) :
    d.step (.inside names) part =
      if Path.isHere part then .ok (.inside names)
      else if part = ".." then .ok (if names = [] then .outside else .inside names.dropLast)
      else if greatestName < part.utf8ByteSize then .error .nameTooLong
      else if (Entries.get? part es).isSome then .ok (.inside (names ++ [part]))
      else .error .notFound := by
  rw [step, h]
  dsimp only
  by_cases hsize : greatestName < part.utf8ByteSize
  · rw [if_pos hsize, if_pos hsize]
    rfl
  · rw [if_neg hsize, if_neg hsize]
    rfl

theorem exists_of_step_inside_eq_ok {part : String} (h : d.step (.inside names) part = .ok place) :
    ∃ es, (Item.directory d).at? names = some (.directory es) := by
  rw [step] at h
  split at h
  · cases h
  · cases h
  · next es hes => exact ⟨es, hes⟩

theorem Within.step (h : Within d d') {part : String} (hstep : d.step place part = .ok place') :
    d'.step place part = .ok place' := by
  cases place with
  | outside => exact hstep
  | inside names =>
    obtain ⟨es, hes⟩ := exists_of_step_inside_eq_ok hstep
    obtain ⟨es', hes', hnames⟩ := h names es hes
    rw [step_inside hes] at hstep
    rw [step_inside hes']
    by_cases hfound : (Entries.get? part es).isSome
    · rw [if_pos hfound] at hstep
      rwa [if_pos (hnames part hfound)]
    · -- Without an entry of the name the step succeeds only if it does not look for one.
      rw [if_neg hfound] at hstep
      split at hstep
      · next hhere => rwa [if_pos hhere]
      · next hhere =>
        rw [if_neg hhere]
        split at hstep
        · next hup => rwa [if_pos hup]
        · split at hstep <;> cases hstep

/-- A path leads to the same place as long as no directory on the way is taken away. -/
theorem Within.follow (h : Within d d') {parts : List String}
    (hfollow : d.follow place parts = .ok place') : d'.follow place parts = .ok place' := by
  induction parts generalizing place with
  | nil => exact hfollow
  | cons part parts ih =>
    obtain ⟨next, hstep, hrest⟩ := exists_of_except_bind_eq_ok hfollow
    rw [Directory.follow, h.step hstep]
    exact ih hrest

theorem follow_append {parts : List String} :
    d.follow place (other ++ parts) = (d.follow place other).bind fun place =>
      d.follow place parts := by
  induction other generalizing place with
  | nil => rfl
  | cons part other ih =>
    rw [List.cons_append, follow, follow]
    cases d.step place part with
    | error e => rfl
    | ok place => exact ih

/-- A path that ends in a step to where it is leads to a directory, if it leads inside. -/
theorem follow_of_follow_here (h : d.follow place (other ++ ["."]) = .ok (.inside names)) :
    d.follow place other = .ok (.inside names) ∧
      ∃ es, (Item.directory d).at? names = some (.directory es) := by
  rw [follow_append] at h
  obtain ⟨middle, hmiddle, h⟩ := exists_of_except_bind_eq_ok h
  obtain ⟨last, hstep, hlast⟩ := exists_of_except_bind_eq_ok h
  obtain rfl : last = .inside names := Except.ok.inj hlast
  cases middle with
  | outside => cases hstep
  | inside names' =>
    obtain ⟨es, hes⟩ := exists_of_step_inside_eq_ok hstep
    rw [step_inside hes, if_pos (by decide)] at hstep
    obtain rfl : names' = names := Place.inside.inj (Except.ok.inj hstep)
    exact ⟨hmiddle, es, hes⟩

/-! ### A successful write -/

theorem eq_of_not_length_lt {parts : List String}
    (h : ¬ ((parts.reverse.dropWhile (· = "")).reverse).length < parts.length) :
    (parts.reverse.dropWhile (· = "")).reverse = parts := by
  have hsublist : (parts.reverse.dropWhile (· = "")).Sublist parts.reverse :=
    List.dropWhile_sublist _
  have hlength : parts.reverse.length ≤ (parts.reverse.dropWhile (· = "")).length := by
    simpa using Nat.not_lt.mp h
  rw [hsublist.eq_of_length_le hlength, List.reverse_reverse]

/-- What a successful write has done. -/
theorem exists_written (h : d.write path text = .ok d') :
    ∃ parent name, Written d path text parent name d' := by
  rw [write] at h
  -- Every check that fails ends in an error, so each split leaves one case.
  split at h
  · obtain ⟨_, -, herror⟩ := exists_of_except_bind_eq_ok h
    cases herror
  · next name hname =>
    obtain ⟨origin, horigin, h⟩ := exists_of_except_bind_eq_ok h
    obtain ⟨place, hplace, h⟩ := exists_of_except_bind_eq_ok h
    split at h
    · obtain ⟨_, -, herror⟩ := exists_of_except_bind_eq_ok h
      cases herror
    · next hordinary =>
      split at h
      · cases h
      · next hlength =>
        split at h
        · cases h
        · next hsize =>
          -- No separator follows the name, so the name is the last part of the path.
          rw [eq_of_not_length_lt hlength] at hname hplace
          obtain ⟨before, hparts⟩ := List.getLast?_eq_some_iff.mp hname
          rw [hparts, List.dropLast_concat] at hplace
          cases place with
          | outside => cases h
          | inside parent =>
            obtain ⟨hfollow, hinside⟩ := follow_of_follow_here hplace
            rw [not_or] at hordinary
            dsimp only at h
            split at h
            · cases h
            · next hfree =>
              exact ⟨parent, name, ⟨origin, before, horigin, hparts, hfollow⟩, hinside,
                ⟨hordinary.1, hordinary.2, Nat.not_lt.mp hsize⟩, hfree, (Except.ok.inj h).symm⟩

namespace Written

theorem directory_eq (h : Written d path text parent name d') :
    Item.directory d' = Item.put (.file (.text text)) (parent ++ [name]) (.directory d) := by
  rw [h.eq]
  cases parent <;> rfl

theorem at?_self (h : Written d path text parent name d') :
    (Item.directory d').at? (parent ++ [name]) = some (.file (.text text)) := by
  rw [h.directory_eq, Item.at?_put]

/-- Only a file is put in place of something, so every directory is still there. -/
theorem within (h : Written d path text parent name d') : Within d d' := by
  intro names es hes
  rw [h.directory_eq]
  have hne : parent ++ [name] ≠ names := by
    rintro rfl
    exact h.free es hes
  by_cases hbelow : parent ++ [name] <+: names
  · cases (Item.at?_eq_none_of_not_directory hbelow hne h.free).symm.trans hes
  · by_cases habove : names <+: parent ++ [name]
    · -- A directory on the way gets an entry, or another entry in place of one.
      obtain ⟨rest, hrest⟩ := habove
      rw [← hrest, Item.at?_put_append, hes, Option.getD_some]
      cases rest with
      | nil => exact absurd ((List.append_nil names).symm.trans hrest).symm hne
      | cons next rest =>
        refine ⟨_, rfl, fun other hother => ?_⟩
        rw [Entries.get?_insert]
        split
        · rfl
        · exact hother
    · exact ⟨es, (Item.at?_put_beside hbelow habove).trans hes, fun _ => id⟩

/-- Afterwards the path leads to the file that was written. -/
theorem file?_eq (h : Written d path text parent name d') :
    d'.file? path = some (parent ++ [name]) := by
  obtain ⟨origin, before, horigin, hparts, hfollow⟩ := h.follow
  obtain ⟨es, hes⟩ := h.inside
  obtain ⟨es', hes', -⟩ := h.within parent es hes
  obtain ⟨hhere, hup, hsize⟩ := h.ordinary
  -- The way to the directory is still open, and one step further there is the file.
  have hfound : (Entries.get? name es').isSome := by
    have hself := h.at?_self
    rw [Item.at?_append, hes', Option.bind_some] at hself
    obtain ⟨child, hchild, -⟩ := Option.bind_eq_some_iff.mp hself
    exact Option.isSome_of_eq_some hchild
  have hplace : d'.place path = .ok (.inside (parent ++ [name])) := by
    rw [place, horigin]
    simp only [Except.bind, hparts, follow_append, h.within.follow hfollow]
    rw [Directory.follow, step_inside hes', if_neg hhere, if_neg hup, if_neg (Nat.not_lt.mpr hsize),
      if_pos hfound]
    rfl
  rw [file?, hplace]

theorem contents?_self (h : Written d path text parent name d') :
    d'.contents? (parent ++ [name]) = some (.text text) := by
  rw [contents?, h.at?_self]
  rfl

/-- No other file has changed. -/
theorem contents?_eq (h : Written d path text parent name d') (hother : other ≠ parent ++ [name]) :
    d'.contents? other = d.contents? other := by
  by_cases hbelow : parent ++ [name] <+: other
  · -- Below the file there is nothing, and there was nothing before.
    have hfile : ∀ es, (Item.directory d').at? (parent ++ [name]) ≠ some (.directory es) := by
      rw [h.at?_self]
      exact fun _ => nofun
    rw [contents?, contents?, Item.at?_eq_none_of_not_directory hbelow hother.symm hfile,
      Item.at?_eq_none_of_not_directory hbelow hother.symm h.free]
  · by_cases habove : other <+: parent ++ [name]
    · -- Above it there are directories, as before.
      obtain ⟨es, hes⟩ := h.inside
      have hparent : other <+: parent := (List.prefix_concat_iff.mp habove).resolve_left hother
      obtain ⟨es', hes'⟩ := Item.exists_directory_of_above hparent hes
      obtain ⟨es'', hes'', -⟩ := h.within other es' hes'
      rw [contents?, contents?, hes', hes'']
      rfl
    · rw [contents?, contents?, h.directory_eq, Item.at?_put_beside hbelow habove]

end Written

/-- The working directory as a file system. Files are told apart by their paths of names, and time
stands still. -/
def fileSystem : FileSystem Directory (List String) where
  read := read
  write := write
  isDirectory := isDirectory
  walk := walk
  watch := watch
  clock _ := 0
  file? := file?
  contents? := contents?
  exists_of_read_eq_ok {d path text} h := by
    obtain ⟨place, hplace, h⟩ := exists_of_except_bind_eq_ok h
    cases place with
    | outside => cases h
    | inside names =>
      refine ⟨names, by rw [file?, hplace], ?_⟩
      dsimp only at h
      split at h
      · next s hs =>
        obtain rfl := Except.ok.inj h
        rw [contents?, hs]
        rfl
      · cases h
      · cases h
      · cases h
  exists_of_write_eq_ok h := by
    obtain ⟨parent, name, hwritten⟩ := exists_written h
    exact ⟨parent ++ [name], hwritten.file?_eq, hwritten.contents?_self,
      fun _ => hwritten.contents?_eq⟩

end Directory

/-- A script does on a desk what it does in the file system of the working directory. -/
theorem Script.run_eq_runOn {α : Type} {desk : Desk} (x : Script α) :
    (x.run desk).1 = (x.runOn Directory.fileSystem desk.files).1 ∧
      (x.run desk).2.files = (x.runOn Directory.fileSystem desk.files).2 := by
  induction x generalizing desk with
  | done a => exact ⟨rfl, rfl⟩
  | read path next ih => exact ih _
  | write path text next ih =>
    have hanswer :
        Directory.fileSystem.write desk.files path text = desk.files.write path text := rfl
    rw [run, runOn, hanswer]
    cases desk.files.write path text with
    | ok files => exact ih _
    | error e => exact ih _
  | isDirectory path next ih => exact ih _
  | walk path next ih => exact ih _
  | watch path next ih => exact ih _
  | print text next ih => exact ih
  | warn token next ih => exact ih
  | complain text next ih => exact ih
  | clock next ih => exact ih _

end StyleTree
