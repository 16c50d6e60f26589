import Microcomputer.Assembly.Image
import Mathlib.Data.Set.Function

/-!
# Renaming the labels of a program

What comes of a program whose labels are given other names.

**Renaming.**  `renamed` gives other names to the labels of an operand, an item, a statement, a
section, and to the label that an error tells.  `Section.names` are the names to which that happens.

**Correspondence.**  `Corresponds rename names labels renamedLabels`: the tables agree on each of
the names, the second one under its new name.  The layout keeps this as long as different names stay
different (`alike_define` up to `alike_layOutSections`), and the writing needs no more than this
(`resolve_renamed` up to `writeSections_renamed`).

**Result.**  `ofSections_renamed`.
-/

namespace Microcomputer

namespace Source

variable (rename : String → String)

/-- An operand under the new name of its label. -/
def Operand.renamed : Operand → Operand
  | .address value => .address value
  | .label name => .label (rename name)

def Item.renamed : Item → Item
  | .label name => .label (rename name)
  | .instruction i operand => .instruction i (operand.renamed rename)
  | .byte value => .byte value

def Statement.renamed (s : Statement) : Statement :=
  { s with item := s.item.renamed rename }

def Section.renamed (s : Section) : Section :=
  { s with statements := s.statements.map (Statement.renamed rename) }

def Operand.names : Operand → List String
  | .address _ => []
  | .label name => [name]

/-- The names of labels in an item, defined there or used. -/
def Item.names : Item → List String
  | .label name => [name]
  | .instruction _ operand => operand.names
  | .byte _ => []

def Section.names (s : Section) : List String :=
  s.statements.flatMap fun statement => statement.item.names

theorem Section.statement_names
    {names : Set String}
    {s : Section}
    (h : ∀ name ∈ s.names, name ∈ names) :
    ∀ statement ∈ s.statements, ∀ name ∈ statement.item.names, name ∈ names :=
  fun statement hstatement name hname => h name (List.mem_flatMap.2 ⟨statement, hstatement, hname⟩)

section Sizes

variable {rename}

@[simp]
theorem Item.size_renamed (item : Item) : (item.renamed rename).size = item.size := by
  cases item <;> rfl

@[simp]
theorem totalSize_renamed (statements : List Statement) :
    totalSize (statements.map (Statement.renamed rename)) = totalSize statements := by
  induction statements with
  | nil => rfl
  | cons s rest ih => simp [ih, Statement.renamed]

@[simp]
theorem Section.stop_renamed (s : Section) : (s.renamed rename).stop = s.stop := by
  simp [Section.stop, Section.size, Section.renamed]

end Sizes

end Source

/-- An error under the new name of its label. -/
def AssemblyError.renamed (rename : String → String) : AssemblyError → AssemblyError
  | .unresolvedLabel location label => .unresolvedLabel location (rename label)
  | .duplicateLabel location label => .duplicateLabel location (rename label)
  | .malformed location fault => .malformed location fault
  | .outOfRange location value => .outOfRange location value
  | .overlappingSections first second => .overlappingSections first second
  | .empty => .empty

namespace Assembly

open Source (Item Location Operand Section Statement)

/-- Two tables agree on names, the second one under their new names. -/
def Corresponds
    (rename : String → String)
    (names : Set String)
    (labels renamedLabels : Labels) :
    Prop :=
  ∀ name ∈ names, renamedLabels[rename name]? = labels[name]?

/-- Two layouts come to corresponding tables, or to the same error under the new names. -/
inductive Alike
    (rename : String → String)
    (names : Set String) :
    Except AssemblyError Labels → Except AssemblyError Labels → Prop
  | ok
      {labels renamedLabels : Labels}
      (h : Corresponds rename names labels renamedLabels) :
      Alike rename names (.ok labels) (.ok renamedLabels)
  | error (e : AssemblyError) : Alike rename names (.error e) (.error (e.renamed rename))

variable {rename : String → String} {names : Set String} {labels renamedLabels : Labels}

section Layout

theorem corresponds_nil : Corresponds rename names {} {} := by
  intro name _
  simp

theorem Corresponds.contains_eq
    (h : Corresponds rename names labels renamedLabels)
    {name : String}
    (hname : name ∈ names) :
    renamedLabels.contains (rename name) = labels.contains name := by
  rw [Std.HashMap.contains_eq_isSome_getElem?, Std.HashMap.contains_eq_isSome_getElem?,
    h name hname]

/-- A label that is defined in both tables. -/
theorem Corresponds.insert
    (h : Corresponds rename names labels renamedLabels)
    (hinj : Set.InjOn rename names)
    {name : String}
    (hname : name ∈ names)
    (address : UInt16) :
    Corresponds rename names (labels.insert name address)
      (renamedLabels.insert (rename name) address) := by
  intro other hother
  rw [Std.HashMap.getElem?_insert, Std.HashMap.getElem?_insert, h other hother]
  -- Only here two names must not become one: the other label would be overwritten.
  have hsame : rename name = rename other ↔ name = other := hinj.eq_iff hname hother
  simp only [beq_iff_eq, hsame]

theorem alike_define
    (h : Corresponds rename names labels renamedLabels)
    (hinj : Set.InjOn rename names)
    {name : String}
    (hname : name ∈ names)
    (address : Nat)
    (location : Location) :
    Alike rename names (define labels address location name)
      (define renamedLabels address location (rename name)) := by
  unfold define
  rw [h.contains_eq hname]
  split
  · exact .error (.duplicateLabel location name)
  · split
    · exact .ok (h.insert hinj hname _)
    · exact .error (.outOfRange location address)

theorem alike_record
    (h : Corresponds rename names labels renamedLabels)
    (hinj : Set.InjOn rename names)
    {s : Statement}
    (hs : ∀ name ∈ s.item.names, name ∈ names)
    (address : Nat) :
    Alike rename names (record labels address s)
      (record renamedLabels address (s.renamed rename)) := by
  unfold record Statement.renamed
  cases hitem : s.item with
  | label name =>
      have hname : name ∈ names := hs name (by simp [hitem, Item.names])
      exact alike_define h hinj hname address s.location
  | instruction i operand => exact .ok h
  | byte value => exact .ok h

theorem alike_layOutStatements
    (h : Corresponds rename names labels renamedLabels)
    (hinj : Set.InjOn rename names)
    {statements : List Statement}
    (hstatements : ∀ s ∈ statements, ∀ name ∈ s.item.names, name ∈ names)
    (address : Nat) :
    Alike rename names (layOutStatements labels address statements)
      (layOutStatements renamedLabels address (statements.map (Statement.renamed rename))) := by
  induction statements generalizing labels renamedLabels address with
  | nil => exact .ok h
  | cons s rest ih =>
      obtain ⟨hs, hrest⟩ := List.forall_mem_cons.1 hstatements
      have hrecord := alike_record h hinj hs address
      simp only [List.map_cons, layOutStatements]
      generalize record labels address s = outcome at hrecord ⊢
      generalize record renamedLabels address (s.renamed rename) = renamedOutcome at hrecord ⊢
      cases hrecord with
      | error e => exact .error e
      | ok hnext =>
          have hsize : (s.renamed rename).item.size = s.item.size := Item.size_renamed s.item
          simp only [hsize]
          split
          · exact ih hnext hrest _
          · exact .error (.outOfRange s.location _)

theorem overlapped?_renamed
    (previous : Option Section)
    (s : Section) :
    overlapped? (previous.map (Section.renamed rename)) (s.renamed rename) =
      (overlapped? previous s).map (Section.renamed rename) := by
  cases previous with
  | none => rfl
  | some p =>
      simp only [overlapped?, Option.map_some, Option.filter_some, Source.Section.stop_renamed]
      have horigin : (s.renamed rename).origin = s.origin := rfl
      rw [horigin]
      split <;> rfl

theorem alike_layOutSections
    (h : Corresponds rename names labels renamedLabels)
    (hinj : Set.InjOn rename names)
    {sections : List Section}
    (hsections : ∀ s ∈ sections, ∀ name ∈ s.names, name ∈ names)
    (previous : Option Section) :
    Alike rename names (layOutSections labels previous sections)
      (layOutSections renamedLabels (previous.map (Section.renamed rename))
        (sections.map (Section.renamed rename))) := by
  induction sections generalizing labels renamedLabels previous with
  | nil => exact .ok h
  | cons s rest ih =>
      obtain ⟨hs, hrest⟩ := List.forall_mem_cons.1 hsections
      simp only [List.map_cons, layOutSections, overlapped?_renamed]
      cases overlapped? previous s with
      | some p => exact .error (.overlappingSections p.origin s.origin)
      | none =>
          have hstatements :=
            alike_layOutStatements h hinj (Section.statement_names hs) s.origin.toNat
          simp only [Option.map_none, Section.renamed]
          generalize layOutStatements labels s.origin.toNat s.statements = outcome
            at hstatements ⊢
          generalize layOutStatements renamedLabels s.origin.toNat
            (s.statements.map (Statement.renamed rename)) = renamedOutcome at hstatements ⊢
          cases hstatements with
          | error e => exact .error e
          | ok hnext => exact ih hnext hrest (some s)

end Layout

section Writing

theorem resolve_renamed
    (h : Corresponds rename names labels renamedLabels)
    {operand : Operand}
    (hoperand : ∀ name ∈ operand.names, name ∈ names)
    (location : Location) :
    resolve renamedLabels location (operand.renamed rename) =
      (resolve labels location operand).mapError (AssemblyError.renamed rename) := by
  cases operand with
  | address value => rfl
  | label name =>
      have hname : name ∈ names := hoperand name (by simp [Operand.names])
      simp only [resolve, Operand.renamed, h name hname]
      cases labels[name]? <;> rfl

theorem bytesOf_renamed
    (h : Corresponds rename names labels renamedLabels)
    {s : Statement}
    (hs : ∀ name ∈ s.item.names, name ∈ names) :
    bytesOf renamedLabels (s.renamed rename) =
      (bytesOf labels s).mapError (AssemblyError.renamed rename) := by
  unfold bytesOf Statement.renamed
  cases hitem : s.item with
  | label name => rfl
  | byte value => rfl
  | instruction i operand =>
      rw [hitem] at hs
      simp only [Item.renamed, resolve_renamed h hs s.location]
      cases resolve labels s.location operand <;> rfl

theorem writeStatements_renamed
    (h : Corresponds rename names labels renamedLabels)
    {statements : List Statement}
    (hstatements : ∀ s ∈ statements, ∀ name ∈ s.item.names, name ∈ names)
    (image : Image) :
    writeStatements renamedLabels image (statements.map (Statement.renamed rename)) =
      (writeStatements labels image statements).mapError (AssemblyError.renamed rename) := by
  induction statements generalizing image with
  | nil => rfl
  | cons s rest ih =>
      obtain ⟨hs, hrest⟩ := List.forall_mem_cons.1 hstatements
      simp only [List.map_cons, writeStatements, bytesOf_renamed h hs]
      cases bytesOf labels s with
      | error e => rfl
      | ok bytes => exact ih hrest _

theorem writeSections_renamed
    (h : Corresponds rename names labels renamedLabels)
    {sections : List Section}
    (hsections : ∀ s ∈ sections, ∀ name ∈ s.names, name ∈ names)
    (image : Image) :
    writeSections renamedLabels image (sections.map (Section.renamed rename)) =
      (writeSections labels image sections).mapError (AssemblyError.renamed rename) := by
  induction sections generalizing image with
  | nil => rfl
  | cons s rest ih =>
      obtain ⟨hs, hrest⟩ := List.forall_mem_cons.1 hsections
      have hwritten := writeStatements_renamed h (Section.statement_names hs)
        (fillTo image s.origin.toNat)
      simp only [List.map_cons, writeSections, Section.renamed, hwritten]
      cases writeStatements labels (fillTo image s.origin.toNat) s.statements with
      | error e => rfl
      | ok image => exact ih hrest image

end Writing

section Programs

/-- New names change nothing in the layout order. -/
theorem inOrder_renamed (sections : List Section) :
    inOrder (sections.map (Section.renamed rename)) =
      (inOrder sections).map (Section.renamed rename) := by
  unfold inOrder
  exact (List.map_mergeSort (f := Section.renamed rename) fun _ _ _ _ => rfl).symm

/-- **Labels are only names.** Other names for the labels, different ones for different labels,
change nothing but the label that an error tells. -/
theorem ofSections_renamed
    {sections : List Section}
    (hinj : Set.InjOn rename {name | name ∈ sections.flatMap Section.names}) :
    ofSections (sections.map (Section.renamed rename)) =
      (ofSections sections).mapError (AssemblyError.renamed rename) := by
  have hsections : ∀ s ∈ inOrder sections, ∀ name ∈ s.names,
      name ∈ {name | name ∈ sections.flatMap Section.names} :=
    fun s hs name hname => List.mem_flatMap.2 ⟨s, List.mem_mergeSort.1 hs, hname⟩
  have hlayOut := alike_layOutSections corresponds_nil hinj hsections none
  simp only [ofSections, inOrder_renamed, layOut]
  rw [Option.map_none] at hlayOut
  generalize layOutSections {} none (inOrder sections) = outcome at hlayOut ⊢
  generalize layOutSections {} none ((inOrder sections).map (Section.renamed rename)) =
    renamedOutcome at hlayOut ⊢
  cases hlayOut with
  | error e => rfl
  | ok hlabels => exact writeSections_renamed hlabels hsections #[]

/-- A section that defines one of its two labels twice. -/
def twiceDefined : Section :=
  ⟨0, ⟨1, 1⟩,
    [⟨.label "a", ⟨2, 1⟩⟩, ⟨.instruction .load (.label "b"), ⟨3, 1⟩⟩, ⟨.label "b", ⟨4, 1⟩⟩,
      ⟨.label "a", ⟨5, 1⟩⟩]⟩

/-- The names `a` and `b` exchanged; no other name is kept apart from these. -/
def exchanged (name : String) : String :=
  if name = "b" then "a" else "b"

theorem twiceDefined_renamed :
    Set.InjOn exchanged {name | name ∈ [twiceDefined].flatMap Section.names} ∧
      ofSections [twiceDefined] = .error (.duplicateLabel ⟨5, 1⟩ "a") ∧
      ofSections [twiceDefined.renamed exchanged] = .error (.duplicateLabel ⟨5, 1⟩ "b") := by
  have hinj : Set.InjOn exchanged {name | name ∈ [twiceDefined].flatMap Section.names} := by
    have hall : ∀ name ∈ [twiceDefined].flatMap Section.names,
        ∀ other ∈ [twiceDefined].flatMap Section.names,
          exchanged name = exchanged other → name = other := by
      decide
    intro name hname other hother
    exact hall name hname other hother
  have herror : ofSections [twiceDefined] = .error (.duplicateLabel ⟨5, 1⟩ "a") := by
    have horder : inOrder [twiceDefined] = [twiceDefined] := List.mergeSort_singleton _
    rw [ofSections, horder]
    simp [layOut, layOutSections, layOutStatements, record, define, overlapped?, addressSpace,
      twiceDefined, Item.size, Instruction.size]
  refine ⟨hinj, herror, ?_⟩
  have hrenamed := ofSections_renamed hinj
  rw [herror] at hrenamed
  exact hrenamed

end Programs

end Assembly
end Microcomputer
