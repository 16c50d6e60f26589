import Microcomputer.Proofs.CommandLine.Assembled
import Microcomputer.Proofs.Text.Replacement

/-!
# What assembling does to files

**Frame.**  A failure leaves every file alone.  Otherwise the file that the standard output path
leads to holds the image, and every other file is as before (`directory_of_assemble`).

**Paths.**  The standard output path has `.bin` for `.asm` in each of its steps
(`steps_standardOutput`), and its last step tells files apart (`last_of_place`).

**Results.**  `source_kept_unless_target`, and `unnamed_source_overwritten`.
-/

namespace Microcomputer

namespace Directory

section Steps

variable {dir : Directory} {path name : String}

/-- A piece between two separators holds none. -/
theorem not_mem_of_mem_splitOn
    {separator : Char}
    {text piece : List Char}
    (h : piece ∈ text.splitOn separator) :
    separator ∉ piece := by
  induction text generalizing piece with
  | nil =>
      obtain rfl : piece = [] := by simpa using h
      exact List.not_mem_nil
  | cons c text ih =>
      obtain ⟨first, others, hpieces⟩ :=
        List.exists_cons_of_ne_nil (List.splitOn_ne_nil separator text)
      rw [hpieces] at ih
      rw [List.splitOn_cons_eq_if_modifyHead, hpieces] at h
      split at h
      · rcases List.mem_cons.1 h with rfl | hlater
        · exact List.not_mem_nil
        · exact ih hlater
      · next hc =>
          rcases List.mem_cons.1 h with rfl | hlater
          · rw [List.mem_cons, not_or]
            exact ⟨fun hsame => hc (beq_iff_eq.2 hsame.symm), ih List.mem_cons_self⟩
          · exact ih (List.mem_cons_of_mem first hlater)

/-- No step of a path holds a slash. -/
theorem flat_of_mem_steps
    {step : String}
    (h : step ∈ steps path) :
    '/' ∉ step.toList := by
  obtain ⟨piece, hpiece, rfl⟩ := List.mem_map.1 (List.mem_of_mem_filter h)
  rw [String.toList_ofList]
  exact not_mem_of_mem_splitOn hpiece

/-- The last step of the name of a file. -/
def lastStep? (name : String) : Option (List Char) :=
  (name.toList.splitOn '/').getLast?

theorem lastStep?_joined
    (here : List String)
    {last : String}
    (hflat : '/' ∉ last.toList) :
    lastStep? (joined (here ++ [last])) = some last.toList := by
  have hlast : last.toList.splitOn '/' = [last.toList] := List.splitOn_eq_singleton hflat
  cases here with
  | nil => simp [lastStep?, joined, hlast]
  | cons step here =>
      have htext : (joined (step :: here ++ [last])).toList =
          (joined (step :: here)).toList ++ '/' :: last.toList := by
        rw [joined, String.intercalate_append_of_ne_nil (by simp) (by simp)]
        simp [joined]
      rw [lastStep?, htext, List.splitOn_append_cons_self, hlast, List.getLast?_concat]

theorem last_of_place
    {slash : Bool}
    (h : dir.place path = .ok (.entry name slash)) :
    ∃ last : String, (steps path).getLast? = some last ∧ lastStep? name = some last.toList := by
  unfold place at h
  split at h
  · cases h
  split at h
  · cases h
  split at h
  · cases h
  split at h
  · cases h
  next last hlast =>
    split at h
    · cases hwalk : (moves path).foldlM dir.enter (start path) with
      | error e => simp [hwalk, Except.map] at h
      | ok here => simp [hwalk, Except.map] at h
    split at h
    · cases h
    next here hhere =>
      split at h
      · simp at h
      split at h
      · simp at h
      · simp only [Except.ok.injEq, Place.entry.injEq] at h
        rw [← h.1]
        exact ⟨last, hlast, lastStep?_joined here (flat_of_mem_steps (List.mem_of_getLast? hlast))⟩

end Steps

end Directory

namespace CommandLine

open Directory

section Paths

variable {source : String}

/-- A text, and the one that comes of it when `.asm` becomes `.bin`. -/
def Renamed (text other : String) : Prop :=
  Text.Replaced ".asm".toList ".bin".toList text.toList other.toList

theorem renamed_standardOutput (source : String) : Renamed source (standardOutput source) :=
  Text.replaced_toList (by decide) source

theorem Renamed.eq_empty_iff
    {text other : String}
    (h : Renamed text other) :
    text = "" ↔ other = "" := by
  simp only [← String.toList_inj, String.toList_empty]
  generalize hletters : text.toList = letters, hafter : other.toList = after
  rw [Renamed, hletters, hafter] at h
  cases h with
  | nil => exact Iff.rfl
  | found => simp
  | kept => simp

theorem Renamed.ne_of_occurs
    {text other : String}
    (h : Renamed text other)
    (hoccurs : ".asm".toList <:+: text.toList) :
    other.toList ≠ text.toList := by
  have hlength : ".asm".toList.length = ".bin".toList.length := by decide
  have hother : ".asm".toList ≠ ".bin".toList := by decide
  intro hsame
  exact Text.Replaced.not_occurs_of_eq hlength hother h hsame hoccurs

theorem steps_standardOutput (source : String) :
    List.Forall₂ Renamed (steps source) (steps (standardOutput source)) := by
  have hpieces : List.Forall₂ (Text.Replaced ".asm".toList ".bin".toList)
      (source.toList.splitOn '/') ((standardOutput source).toList.splitOn '/') :=
    (renamed_standardOutput source).splitOn (by decide) (by decide)
  have hnames : List.Forall₂ Renamed
      ((source.toList.splitOn '/').map String.ofList)
      (((standardOutput source).toList.splitOn '/').map String.ofList) := by
    rw [List.forall₂_map_left_iff, List.forall₂_map_right_iff]
    simpa only [Renamed, String.toList_ofList] using hpieces
  refine List.rel_filter (fun text other h => ?_) hnames
  simp [h.eq_empty_iff]

theorem getLast?_of_forall₂
    {R : String → String → Prop}
    {xs ys : List String}
    {x : String}
    (h : List.Forall₂ R xs ys)
    (hx : xs.getLast? = some x) :
    ∃ y : String, ys.getLast? = some y ∧ R x y := by
  rw [← List.forall₂_reverse_iff] at h
  rw [List.getLast?_eq_head?_reverse] at hx ⊢
  generalize xs.reverse = us, ys.reverse = vs at h hx
  cases h with
  | nil => cases hx
  | cons hfirst _ =>
      cases hx
      exact ⟨_, rfl, hfirst⟩

theorem standardOutput_of_not_occurs
    (h : ¬ ".asm".toList <:+: source.toList) :
    standardOutput source = source :=
  String.toList_inj.1 ((renamed_standardOutput source).eq_of_not_occurs h)

/-- A path with `.asm` in its last step and the standard output path lead to different files. -/
theorem place_standardOutput_ne
    {dir : Directory}
    {name last : String}
    {slash : Bool}
    (hplace : dir.place source = .ok (.entry name slash))
    (hlast : (steps source).getLast? = some last)
    (hextension : ".asm".toList <:+: last.toList) :
    dir.place (standardOutput source) ≠ .ok (.entry name false) := by
  intro htarget
  obtain ⟨last', hlast', hrenamed⟩ := getLast?_of_forall₂ (steps_standardOutput source) hlast
  obtain ⟨step, hstep, hname⟩ := last_of_place hplace
  obtain ⟨step', hstep', hname'⟩ := last_of_place htarget
  obtain rfl : step = last := by simpa [hlast] using hstep.symm
  obtain rfl : step' = last' := by simpa [hlast'] using hstep'.symm
  have hsame : step'.toList = step.toList := by simpa [hname] using hname'.symm
  exact hrenamed.ne_of_occurs hextension hsame

end Paths

section Sources

variable {dir : Directory} {source : String}

theorem directory_of_assemble
    (dir : Directory)
    (filter : Filter)
    (source : String)
    (output : Option String) :
    let target := output.getD (standardOutput source)
    let left := (Command.assemble source output).outcome filter dir
    (left.code = 1 ∧
      left.directory = dir ∧
      ∀ image after, assembleFile dir source = .ok image → dir.saveImage target image ≠ .ok after) ∨
    ∃ (image : Image) (name : String),
      left.code = 0 ∧
      assembleFile dir source = .ok image ∧
      dir.place target = .ok (.entry name false) ∧
      left.directory = dir.withFile name image := by
  intro target left
  have hleft : left = (assembleProgram dir source output).outcome filter dir := rfl
  cases hassemble : assembleFile dir source with
  | error failure =>
      rw [hleft, assembleProgram, hassemble]
      exact Or.inl ⟨rfl, rfl, by simp⟩
  | ok image =>
      cases hsave : dir.saveImage target image with
      | error e =>
          simp only [target] at hsave
          rw [hleft, assembleProgram, hassemble]
          simp only [hsave]
          refine Or.inl ⟨rfl, rfl, ?_⟩
          rintro image' after ⟨⟩
          simp [target, hsave]
      | ok after =>
          obtain ⟨hcode, hdirectory⟩ := outcome_assemble_of_saved filter hassemble hsave
          obtain ⟨name, hplace, rfl⟩ := write_eq_ok (saveImage_eq_ok_iff.1 hsave).2
          exact Or.inr ⟨image, name, hcode, rfl, hplace, hdirectory⟩

theorem exists_file_of_assembleFile
    {image : Image}
    (h : assembleFile dir source = .ok image) :
    ∃ (name : String) (bytes : Image),
      dir.place source = .ok (.entry name false) ∧ dir.files.lookup name = some (.ok bytes) := by
  unfold assembleFile at h
  split at h
  · cases h
  next text htext =>
    unfold Directory.readText at htext
    split at htext
    · cases htext
    next bytes hread =>
      unfold Directory.read at hread
      split at hread
      · cases hread
      · cases hread
      · cases hread
      next name slash hplace =>
        split at hread
        · cases hread
        next contents hlookup =>
          cases slash with
          | true => cases hread
          | false =>
              rw [if_neg Bool.false_ne_true] at hread
              exact ⟨name, bytes, hplace, by rw [hlookup, hread]⟩

theorem saveImage_of_assembleFile
    {name path : String}
    {image : Image}
    (h : assembleFile dir source = .ok image)
    (hsource : dir.place source = .ok (.entry name false))
    (hpath : dir.place path = .ok (.entry name false)) :
    dir.saveImage path image = .ok (dir.withFile name image) := by
  obtain ⟨name', bytes, hplace, hlookup⟩ := exists_file_of_assembleFile h
  obtain rfl : name' = name := by simpa [hsource] using hplace.symm
  have hwrite : dir.write path image = .ok (dir.withFile name' image) := by
    simp only [Directory.write, hpath, hlookup]
    rfl
  exact saveImage_eq_ok_iff.2 ⟨size_le_of_assembleFile h, hwrite⟩

theorem lookup_of_assemble
    {name : String}
    {image : Image}
    (filter : Filter)
    (h : assembleFile dir source = .ok image)
    (hsource : dir.place source = .ok (.entry name false))
    (htarget : dir.place (standardOutput source) = .ok (.entry name false)) :
    ((Command.assemble source none).outcome filter dir).directory.files.lookup name =
      some (.ok image) := by
  rcases directory_of_assemble dir filter source none with
    ⟨-, -, hrefused⟩ | ⟨image', written, -, himage, hplace, hleft⟩
  · exact absurd (saveImage_of_assembleFile h hsource htarget) (hrefused image _ h)
  · obtain rfl : image' = image := by simpa [h] using himage.symm
    obtain rfl : written = name := by
      rw [Option.getD_none, htarget] at hplace
      cases hplace
      rfl
    rw [hleft, withFile_files, lookup_put_self]

/-- **Assembling into the standard file.** No file changes but the one at the standard output path,
and that can be the source itself. -/
theorem source_kept_unless_target
    (dir : Directory)
    (filter : Filter)
    (source : String) :
    let target := standardOutput source
    let left := (Command.assemble source none).outcome filter dir
    (left.code ≠ 0 → left.directory = dir) ∧
    (∀ failure, assembleFile dir source = .error failure → left.code = 1) ∧
    (∀ name : String,
      dir.place target ≠ .ok (.entry name false) →
      left.directory.files.lookup name = dir.files.lookup name) ∧
    (∀ (name last : String) (slash : Bool),
      dir.place source = .ok (.entry name slash) →
      (steps source).getLast? = some last →
      ".asm".toList <:+: last.toList →
      left.directory.files.lookup name = dir.files.lookup name) ∧
    (∀ (name : String) (image : Image),
      dir.place source = .ok (.entry name false) →
      dir.place target = .ok (.entry name false) →
      assembleFile dir source = .ok image →
      left.directory.files.lookup name = some (.ok image)) ∧
    (¬ ".asm".toList <:+: source.toList → target = source) := by
  intro target left
  have hframe : ∀ name : String,
      dir.place target ≠ .ok (.entry name false) →
      left.directory.files.lookup name = dir.files.lookup name := by
    intro name hname
    rcases directory_of_assemble dir filter source none with
      ⟨-, hsame, -⟩ | ⟨image, written, -, -, hplace, hleft⟩
    · rw [hsame]
    · rw [hleft, withFile_files]
      refine lookup_put_of_ne ?_
      rintro rfl
      exact hname hplace
  refine ⟨?_, ?_, hframe, ?_, ?_, standardOutput_of_not_occurs⟩
  · intro hcode
    rcases directory_of_assemble dir filter source none with
      ⟨-, hsame, -⟩ | ⟨image, written, hzero, -⟩
    · exact hsame
    · exact absurd hzero hcode
  · intro failure hfailure
    rcases directory_of_assemble dir filter source none with
      ⟨hone, -, -⟩ | ⟨image, written, -, himage, -⟩
    · exact hone
    · rw [hfailure] at himage
      cases himage
  · intro name last slash hplace hlast hextension
    exact hframe name (place_standardOutput_ne hplace hlast hextension)
  · intro name image hplace htarget himage
    exact lookup_of_assemble filter himage hplace htarget

/-- A directory with one source, under a name of its own. -/
def holding (name : String) : Directory where
  files := [(name, .ok ".org 0\ndb 1\n".toUTF8.data)]

/-- A source with the usual ending is kept, and its image is written beside it. -/
theorem named_source_kept :
    let left := (Command.assemble "p.asm" none).outcome .everything (holding "p.asm")
    (holding "p.asm").place "p.asm" = .ok (.entry "p.asm" false) ∧
    (steps "p.asm").getLast? = some "p.asm" ∧
    ".asm".toList <:+: "p.asm".toList ∧
    left.directory.files.lookup "p.asm" = some (.ok ".org 0\ndb 1\n".toUTF8.data) := by
  intro left
  have hplain : Plain "p.asm" := by constructor <;> decide
  have hplace : (holding "p.asm").place "p.asm" = .ok (.entry "p.asm" false) :=
    hplain.place (by decide +kernel)
  have hsteps : (steps "p.asm").getLast? = some "p.asm" := by
    rw [steps_of_flat hplain.ne_empty hplain.flat]
    rfl
  have hoccurs : ".asm".toList <:+: "p.asm".toList := by decide
  have hkept := (source_kept_unless_target (holding "p.asm") .everything "p.asm").2.2.2.1
    "p.asm" "p.asm" false hplace hsteps hoccurs
  exact ⟨hplace, hsteps, hoccurs, hkept.trans rfl⟩

/-- A source with another ending is overwritten with its image. -/
theorem unnamed_source_overwritten :
    ¬ ∀ (dir : Directory) (filter : Filter) (source name : String),
      dir.place source = .ok (.entry name false) →
      ((Command.assemble source none).outcome filter dir).directory.files.lookup name =
        dir.files.lookup name := by
  intro hall
  have hplain : Plain "prog.s" := by constructor <;> decide
  have hplace : (holding "prog.s").place "prog.s" = .ok (.entry "prog.s" false) :=
    hplain.place (by decide +kernel)
  have htarget : standardOutput "prog.s" = "prog.s" := standardOutput_of_not_occurs (by decide)
  have himage : assembleFile (holding "prog.s") "prog.s" = .ok #[1] := by
    have hsome : (assembleFile (holding "prog.s") "prog.s").toOption = some #[1] := by
      decide +kernel
    cases hresult : assembleFile (holding "prog.s") "prog.s" with
    | error failure => simp [hresult, Except.toOption] at hsome
    | ok image => simpa [hresult, Except.toOption] using hsome
  have hkept := hall (holding "prog.s") .everything "prog.s" "prog.s" hplace
  rw [lookup_of_assemble .everything himage hplace (by rw [htarget, hplace])] at hkept
  revert hkept
  decide +kernel

end Sources

end CommandLine

end Microcomputer
