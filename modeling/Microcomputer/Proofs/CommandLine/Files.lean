import Microcomputer.Directory

/-!
# Files that have been written

What a directory looks like after a file has been written into it.

**Names.**  The file is written under a name without a slash, as `Plain` names are, so the write
makes no folder.

**Frame.**  Every path leads where it led before the write.  A path that leads nowhere may do so for
another reason, since a file now stands in its way (`place_withFile`).

**Results.**  The file that was written is read back (`read_withFile_self`), and every other one is
read as before (`readText_withFile`).
-/

namespace Microcomputer
namespace Directory

section Results

theorem eq_or_errors_of_toOption_eq
    {ε α : Type}
    {x y : Except ε α}
    (h : x.toOption = y.toOption) :
    x = y ∨ ∃ e e', x = .error e ∧ y = .error e' := by
  cases x with
  | error e =>
      cases y with
      | error e' => exact Or.inr ⟨e, e', rfl, rfl⟩
      | ok b => cases h
  | ok a =>
      cases y with
      | error e' => cases h
      | ok b =>
          cases h
          exact Or.inl rfl

theorem eq_ok_of_toOption_eq_some
    {ε α : Type}
    {x : Except ε α}
    {a : α}
    (h : x.toOption = some a) :
    x = .ok a := by
  cases x with
  | error e => cases h
  | ok b =>
      cases h
      rfl

theorem toOption_foldlM
    (walk : List String → String → Except FileError (List String))
    (here : List String)
    (steps : List String) :
    (steps.foldlM walk here).toOption =
      steps.foldlM (fun here step => (walk here step).toOption) here := by
  induction steps generalizing here with
  | nil => rfl
  | cons step others ih =>
      rw [List.foldlM_cons, List.foldlM_cons]
      cases walk here step with
      | error e => rfl
      | ok next => exact ih next

end Results

section Lists

variable {name : String} {bytes : Image} {files : List (String × Except FileError Image)}

theorem lookup_put_self : (put name bytes files).lookup name = some (.ok bytes) := by
  induction files with
  | nil => simp [put]
  | cons file rest ih =>
      rcases file with ⟨key, contents⟩
      by_cases hkey : key = name
      · simp [put, hkey]
      · have hother : (name == key) = false := by simpa using Ne.symm hkey
        simp [put, hkey, List.lookup_cons, hother, ih]

theorem lookup_put_of_ne
    {other : String}
    (h : other ≠ name) :
    (put name bytes files).lookup other = files.lookup other := by
  have hother : (other == name) = false := by simpa using h
  induction files with
  | nil => simp [put, List.lookup_cons, hother]
  | cons file rest ih =>
      rcases file with ⟨key, contents⟩
      by_cases hkey : key = name
      · simp [put, hkey, List.lookup_cons, hother]
      · simp [put, hkey, List.lookup_cons, ih]

theorem any_put (p : String → Bool) :
    ((put name bytes files).any fun file => p file.1) =
      ((files.any fun file => p file.1) || p name) := by
  induction files with
  | nil => simp only [put, List.any_cons, List.any_nil, Bool.or_false, Bool.false_or]
  | cons file rest ih =>
      rcases file with ⟨key, contents⟩
      by_cases hkey : key = name
      · subst hkey
        simp only [put, if_true, List.any_cons]
        cases p key <;> simp
      · simp only [put, hkey, if_false, List.any_cons, ih, Bool.or_assoc]

end Lists

/-- The directory after a file has been written. -/
def withFile
    (dir : Directory)
    (name : String)
    (bytes : Image) :
    Directory :=
  { dir with files := put name bytes dir.files }

theorem withFile_files
    (dir : Directory)
    (name : String)
    (bytes : Image) :
    (dir.withFile name bytes).files = put name bytes dir.files :=
  rfl

/-- A path stands for a file that can be written, or a new one, in the directory itself. -/
structure Accepts
    (dir : Directory)
    (path name : String) :
    Prop where
  place : dir.place path = .ok (.entry name false)
  flat : '/' ∉ name.toList
  usable : ∀ e, dir.files.lookup name ≠ some (.error e)

section Names

variable {dir : Directory} {name : String}

theorem startsWith_of_flat
    (hflat : '/' ∉ name.toList)
    (folder : String) :
    name.startsWith (folder ++ "/") = false := by
  refine Bool.eq_false_iff.2 fun h => hflat ?_
  have hprefix : (folder ++ "/").toList <+: name.toList := String.startsWith_string_iff.1 h
  exact hprefix.subset (by simp)

theorem endsWith_of_flat (hflat : '/' ∉ name.toList) : name.endsWith "/" = false := by
  refine Bool.eq_false_iff.2 fun h => hflat ?_
  rw [String.endsWith_eq_endsWith_toSlice, String.Slice.endsWith_string_iff] at h
  have hsuffix : "/".toList <:+ name.toList := by simpa using h
  exact hsuffix.subset (by decide)

theorem steps_of_flat
    (hne : name ≠ "")
    (hflat : '/' ∉ name.toList) :
    steps name = [name] := by
  have hone : name.toList.splitOn '/' = [name.toList] := by
    refine List.splitOnP_eq_singleton fun c hc => ?_
    rw [beq_eq_false_iff_ne]
    rintro rfl
    exact hflat hc
  simp [steps, hone, hne]

/-- A name that can stand alone as a path to a file. -/
structure Plain (name : String) : Prop where
  ne_empty : name ≠ ""
  ne_dot : name ≠ "."
  ne_dots : name ≠ ".."
  flat : '/' ∉ name.toList
  noNul : '\x00' ∉ name.toList
  length_le : name.utf8ByteSize ≤ maxNameBytes

theorem Plain.place
    (h : Plain name)
    (hfolder : dir.hasFolder [name] = false) :
    dir.place name = .ok (.entry name false) := by
  have hempty : name.isEmpty = false := by simpa using h.ne_empty
  have hnul : name.toList.contains '\x00' = false := by simpa using h.noNul
  have hlength := h.length_le
  have hpath : ¬maxPathBytes < name.utf8ByteSize := by
    simp only [maxPathBytes, maxNameBytes] at *
    omega
  have hstart : start name = [] := by
    have hslash : name.startsWith "/" = false := by simpa using startsWith_of_flat h.flat ""
    rw [start, hslash]
    rfl
  have hmoves : moves name = [name] := by
    simp [moves, steps_of_flat h.ne_empty h.flat, h.ne_dot]
  have hwalk : [name].dropLast.foldlM dir.enter [] = .ok [] := rfl
  have hjoined : joined [name] = name := by simp [joined]
  rw [Directory.place, hempty, hnul, if_neg hpath, steps_of_flat h.ne_empty h.flat, hmoves, hstart]
  simp only [List.getLast?_singleton, h.ne_dot, h.ne_dots, hwalk, Nat.not_lt.2 hlength,
    List.nil_append, hfolder, hjoined, endsWith_of_flat h.flat, or_self, if_false,
    Bool.false_eq_true]

theorem Plain.accepts
    (h : Plain name)
    (hfolder : dir.hasFolder [name] = false)
    (husable : ∀ e, dir.files.lookup name ≠ some (.error e)) :
    dir.Accepts name name :=
  ⟨h.place hfolder, h.flat, husable⟩

end Names

section Writes

variable {dir : Directory} {name : String}

theorem write_of_accepts
    {path : String}
    (h : dir.Accepts path name)
    (bytes : Image) :
    dir.write path bytes = .ok (dir.withFile name bytes) := by
  simp only [write, h.place]
  split
  · next e hlookup => exact absurd hlookup (h.usable e)
  · rfl

theorem write_eq_ok
    {after : Directory}
    {path : String}
    {bytes : Image}
    (h : dir.write path bytes = .ok after) :
    ∃ name : String,
      dir.place path = .ok (.entry name false) ∧ after = dir.withFile name bytes := by
  unfold write at h
  split at h
  · cases h
  · cases h
  · cases h
  · cases h
  · next name hplace =>
      split at h
      · cases h
      · cases h
        exact ⟨name, hplace, rfl⟩

theorem saveImage_eq_ok_iff
    {after : Directory}
    {path : String}
    {image : Image} :
    dir.saveImage path image = .ok after ↔
      image.size ≤ maxImageSize ∧ dir.write path image = .ok after := by
  unfold saveImage
  constructor
  · intro h
    split at h
    · next hsize =>
        cases hwrite : dir.write path image with
        | error e =>
            rw [hwrite] at h
            cases h
        | ok written =>
            rw [hwrite] at h
            cases h
            exact ⟨hsize, rfl⟩
    · cases h
  · rintro ⟨hsize, hwrite⟩
    rw [if_pos hsize, hwrite]
    rfl

variable (hflat : '/' ∉ name.toList) (bytes : Image)
include hflat

theorem hasFolder_withFile (steps : List String) :
    (dir.withFile name bytes).hasFolder steps = dir.hasFolder steps := by
  simp only [hasFolder, withFile]
  rw [any_put fun file => file.startsWith (joined steps ++ "/"), startsWith_of_flat hflat,
    Bool.or_false]

/-- A step leads where it led before; where it leads nowhere, the reason may have changed. -/
theorem enter_withFile
    (here : List String)
    (step : String) :
    ((dir.withFile name bytes).enter here step).toOption = (dir.enter here step).toOption := by
  have herror (other : Directory) :
      (if other.hasFile (here ++ [step]) then Except.error FileError.notFolder
        else .error .notFound : Except FileError (List String)).toOption = none := by
    split <;> rfl
  simp only [enter, hasFolder_withFile hflat]
  split
  · rfl
  · split
    · rfl
    · split
      · rfl
      · rw [herror, herror]

theorem foldlM_enter_withFile
    (here : List String)
    (steps : List String) :
    (steps.foldlM (dir.withFile name bytes).enter here).toOption =
      (steps.foldlM dir.enter here).toOption := by
  simp only [toOption_foldlM, enter_withFile hflat]

/-- A path leads where it led before; where it leads nowhere, the reason may have changed. -/
theorem place_withFile (path : String) :
    ((dir.withFile name bytes).place path).toOption = (dir.place path).toOption := by
  have hwalk (steps : List String) := eq_or_errors_of_toOption_eq
    (@foldlM_enter_withFile dir name hflat bytes (start path) steps)
  unfold place
  split
  · rfl
  split
  · rfl
  split
  · rfl
  split
  · rfl
  split
  · rcases hwalk (moves path) with hsame | ⟨e, e', hafter, hbefore⟩
    · rw [hsame]
    · rw [hafter, hbefore]
      rfl
  · rcases hwalk (moves path).dropLast with hsame | ⟨e, e', hafter, hbefore⟩
    · simp only [hsame, hasFolder_withFile hflat]
    · rw [hafter, hbefore]
      rfl

theorem read_withFile_self
    {path : String}
    (h : dir.place path = .ok (.entry name false)) :
    (dir.withFile name bytes).read path = .ok bytes := by
  have hplace : (dir.withFile name bytes).place path = .ok (.entry name false) := by
    rcases eq_or_errors_of_toOption_eq (@place_withFile dir name hflat bytes path) with
      hsame | ⟨e, e', hafter, hbefore⟩
    · rw [hsame, h]
    · rw [h] at hbefore
      cases hbefore
  simp only [read, hplace, withFile_files, lookup_put_self, Bool.false_eq_true, if_false]

theorem read_withFile
    {path : String}
    (h : dir.place path ≠ .ok (.entry name false)) :
    ((dir.withFile name bytes).read path).toOption = (dir.read path).toOption := by
  rcases eq_or_errors_of_toOption_eq (@place_withFile dir name hflat bytes path) with
    hsame | ⟨e, e', hafter, hbefore⟩
  · unfold read
    rw [hsame]
    split
    · rfl
    · rfl
    · rfl
    · next other slash hplace =>
        by_cases hother : other = name
        · -- The path goes on behind the file with a slash, which no file allows.
          subst hother
          have hslash : slash = true := by
            cases slash with
            | false => exact absurd hplace h
            | true => rfl
          rw [withFile_files, lookup_put_self]
          cases dir.files.lookup other with
          | none => simp only [hslash, if_true]; rfl
          | some contents => simp only [hslash, if_true]
        · rw [withFile_files, lookup_put_of_ne hother]
  · simp only [read, hafter, hbefore]
    rfl

theorem readText_withFile
    {path : String}
    (h : dir.place path ≠ .ok (.entry name false)) :
    ((dir.withFile name bytes).readText path).toOption = (dir.readText path).toOption := by
  rcases eq_or_errors_of_toOption_eq (read_withFile hflat bytes h) with
    hsame | ⟨e, e', hafter, hbefore⟩
  · rw [readText, readText, hsame]
  · simp only [readText, hafter, hbefore]
    rfl

end Writes

end Directory
end Microcomputer
