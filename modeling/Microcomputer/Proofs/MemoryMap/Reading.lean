import Microcomputer.Proofs.Bus.Routing
import Microcomputer.Proofs.Json.Members
import Microcomputer.Proofs.Processor.Wiring

/-!
# Memory maps read from objects

What a memory map that is written as an object depends on, and which maps make a machine.

**Bases.**  `Gives members name standard base`: by the members of an object a device has this base.
Either no member has the name, and the base is the standard one, or exactly one has, with a plain
number of sixteen bits.  `ofJson?_object_eq_some_iff`: nothing else of the object matters, but that
the names are texts.

**Machines.**  `carries_wired`: the two devices of a map are on the bus in descending order of their
bases.

**Result.**  `object_decides_map`.
-/

namespace Microcomputer
namespace MemoryMap

open Json (Spells unescape? valuesOf)

/-- The base that the members of an object give a device. -/
inductive Gives
    (members : List (String × Json))
    (name : String)
    (standard : UInt16) :
    UInt16 → Prop
  /-- No member has the name. -/
  | standard
      (h : valuesOf members name = []) :
      Gives members name standard standard
  /-- One member has the name, and a plain number as its value. -/
  | plain
      {base : UInt16}
      (h : valuesOf members name = [.ofNat base.toNat]) :
      Gives members name standard base

section Reading

variable {members : List (String × Json)} {name : String} {standard base : UInt16}

theorem baseOr_eq_some_iff
    {v : Json}
    (h : v.WellFormed) :
    baseOr standard (some v) = some base ↔ v = .ofNat base.toNat := by
  simp only [baseOr, Option.map_eq_some_iff, Json.naturalBelow?_eq_some_iff h]
  constructor
  · rintro ⟨n, ⟨hlt, rfl⟩, rfl⟩
    rw [UInt16.toNat_ofNat_of_lt' hlt]
  · rintro rfl
    exact ⟨base.toNat, ⟨base.toNat_lt, rfl⟩, UInt16.ofNat_toNat⟩

/-- A base is given exactly if it is found in the only field with the name. -/
theorem gives_iff
    (h : (Json.object members).WellFormed) :
    Gives members name standard base ↔
      ∃ field, valuesOf members name = field.toList ∧ baseOr standard field = some base := by
  constructor
  · intro hgives
    cases hgives with
    | standard hnone => exact ⟨none, hnone, rfl⟩
    | plain hone => exact ⟨some _, hone, (baseOr_eq_some_iff (Json.wellFormed_ofNat _)).2 rfl⟩
  · rintro ⟨field, hvalues, hbase⟩
    cases field with
    | none =>
        cases hbase
        exact .standard hvalues
    | some v =>
        have hmem : v ∈ valuesOf members name := by simp [hvalues]
        obtain ⟨written, hmember, -⟩ := Json.mem_valuesOf_iff.1 hmem
        have hformed : v.WellFormed := h.member hmember
        rw [(baseOr_eq_some_iff hformed).1 hbase] at hvalues
        exact .plain hvalues

theorem ofJson?_eq_some_iff
    {value : Json}
    {map : MemoryMap} :
    ofJson? value = some map ↔
      ∃ ramBase charOutBase,
        value.fields? fieldNames = some [ramBase, charOutBase] ∧
        baseOr 0x0000 ramBase = some map.ramBase ∧
        baseOr 0xF000 charOutBase = some map.charOutBase := by
  constructor
  · intro h
    unfold ofJson? at h
    split at h
    · next ramBase charOutBase hfields =>
        split at h
        · next hram hout =>
            cases h
            exact ⟨ramBase, charOutBase, hfields, hram, hout⟩
        · cases h
    · cases h
  · rintro ⟨ramBase, charOutBase, hfields, hram, hout⟩
    simp [ofJson?, hfields, hram, hout]

theorem ofJson?_object_eq_some_iff
    {map : MemoryMap}
    (h : (Json.object members).WellFormed) :
    ofJson? (.object members) = some map ↔
      (∀ m ∈ members, (unescape? m.1).isSome = true) ∧
        Gives members "ram_base" 0x0000 map.ramBase ∧
        Gives members "char_out_base" 0xF000 map.charOutBase := by
  simp only [ofJson?_eq_some_iff, Json.fields?_object_eq_some_iff, gives_iff h, fieldNames,
    List.map_cons, List.map_nil, List.cons.injEq, and_true]
  constructor
  · rintro ⟨ramBase, charOutBase, ⟨hnames, hram, hout⟩, hram', hout'⟩
    exact ⟨hnames, ⟨ramBase, hram, hram'⟩, charOutBase, hout, hout'⟩
  · rintro ⟨hnames, ⟨ramBase, hram, hram'⟩, charOutBase, hout, hout'⟩
    exact ⟨ramBase, charOutBase, ⟨hnames, hram, hout⟩, hram', hout'⟩

theorem not_gives
    (h : 2 ≤ (valuesOf members name).length ∨
      ∃ v ∈ valuesOf members name, ∀ n < 65536, v ≠ .ofNat n) :
    ¬ Gives members name standard base := by
  intro hgives
  cases hgives with
  | standard hnone => simp [hnone] at h
  | plain hone =>
      rw [hone] at h
      rcases h with htwice | ⟨v, hv, hother⟩
      · exact absurd htwice (Nat.not_succ_le_self 1)
      · exact hother base.toNat base.toNat_lt (List.mem_singleton.1 hv)

end Reading

section Machines

variable {map : MemoryMap}

theorem overlap?_eq_none_iff : map.overlap? = none ↔ map.ramBase ≠ map.charOutBase := by
  simp [overlap?]

theorem carries_wired
    (hne : map.ramBase ≠ map.charOutBase)
    (memory : Image)
    (output : Array UInt8) :
    Bus.Carries (map.wired memory output)
      [.ram { base := map.ramBase, contents := memory },
        .charOut { base := map.charOutBase, buffer := output }] := by
  by_cases hbase : map.ramBase < map.charOutBase
  · constructor
    · simp [wired, hbase, Device.base]
    · simp [wired, hbase, List.Perm.swap]
  · have hlower : map.charOutBase < map.ramBase :=
      UInt16.lt_of_le_of_ne (UInt16.not_lt.1 hbase) hne.symm
    constructor
    · simpa [wired, hbase, Device.base] using hlower
    · simp [wired, hbase]

/-- **Building.** A map makes a machine, which is empty, exactly if its bases differ. -/
theorem ofMap_spec (map : MemoryMap) :
    ((∃ m, Machine.ofMap map = .ok m) ↔ map.ramBase ≠ map.charOutBase) ∧
      (∀ e, Machine.ofMap map = .error e → e = .overlap map.ramBase) ∧
      ∀ m, Machine.ofMap map = .ok m →
        m.map = map ∧
        m.memory = #[] ∧
        m.output = #[] ∧
        Bus.Carries m.bus [.ram { base := map.ramBase }, .charOut { base := map.charOutBase }] := by
  by_cases hsame : map.ramBase = map.charOutBase
  · have hmachine : Machine.ofMap map = .error (.overlap map.ramBase) := by
      simp [Machine.ofMap, overlap?, hsame]
    simp [hmachine, hsame]
  · have hmachine := ofMap_of_valid (overlap?_eq_none_iff.2 hsame)
    refine ⟨⟨fun _ => hsame, fun _ => ⟨_, hmachine⟩⟩, ?_, ?_⟩
    · intro e he
      rw [hmachine] at he
      cases he
    · intro m hm
      rw [hmachine] at hm
      cases hm
      exact ⟨rfl, memory_wired map #[] #[], output_wired map #[] #[], carries_wired hsame #[] #[]⟩

end Machines

section Texts

variable {text : String} {members : List (String × Json)}

theorem ofText_of_spells
    {v : Json}
    (h : Spells text.toList v.tokens) :
    ofText text =
      match ofJson? v with
      | none => .error .malformed
      | some map =>
          match map.overlap? with
          | some base => .error (.overlap base)
          | none => .ok map := by
  rw [ofText, Json.ofText?_of_spells h]
  rfl

theorem ofText_of_gives
    {ramBase charOutBase : UInt16}
    (h : Spells text.toList (Json.object members).tokens)
    (hnames : ∀ m ∈ members, (unescape? m.1).isSome = true)
    (hram : Gives members "ram_base" 0x0000 ramBase)
    (hout : Gives members "char_out_base" 0xF000 charOutBase) :
    ofText text =
      if ramBase = charOutBase then .error (.overlap ramBase) else .ok ⟨ramBase, charOutBase⟩ := by
  have hmap : ofJson? (.object members) = some ⟨ramBase, charOutBase⟩ :=
    (ofJson?_object_eq_some_iff h.wellFormed).2 ⟨hnames, hram, hout⟩
  rw [ofText_of_spells h, hmap]
  by_cases hsame : ramBase = charOutBase
  · simp [overlap?, hsame]
  · simp [overlap?, hsame]

/-- Where a base is not given, the text is malformed, whatever else is in it. -/
theorem ofText_of_not_gives
    (h : Spells text.toList (Json.object members).tokens)
    (hno : (∀ base, ¬ Gives members "ram_base" 0x0000 base) ∨
      ∀ base, ¬ Gives members "char_out_base" 0xF000 base) :
    ofText text = .error .malformed := by
  have hnone : ofJson? (.object members) = none := by
    refine Option.eq_none_iff_forall_ne_some.2 fun map hmap => ?_
    obtain ⟨-, hram, hout⟩ := (ofJson?_object_eq_some_iff h.wellFormed).1 hmap
    rcases hno with hno | hno
    · exact hno _ hram
    · exact hno _ hout
  rw [ofText_of_spells h, hnone]

/-- **Maps from objects.** The map of an object depends on its two fields alone, and makes a machine
exactly if the bases differ. -/
theorem object_decides_map :
    (∀ (text : String) (members : List (String × Json)),
      Spells text.toList (Json.object members).tokens →
        (∀ ramBase charOutBase : UInt16,
          (∀ m ∈ members, (unescape? m.1).isSome = true) →
          Gives members "ram_base" 0x0000 ramBase →
          Gives members "char_out_base" 0xF000 charOutBase →
            ofText text =
              if ramBase = charOutBase then .error (.overlap ramBase)
              else .ok ⟨ramBase, charOutBase⟩) ∧
        ∀ name ∈ fieldNames,
          (2 ≤ (valuesOf members name).length ∨
            ∃ v ∈ valuesOf members name, ∀ n < 65536, v ≠ .ofNat n) →
          ofText text = .error .malformed) ∧
    ∀ map : MemoryMap,
      ((∃ m, Machine.ofMap map = .ok m) ↔ map.ramBase ≠ map.charOutBase) ∧
      (∀ e, Machine.ofMap map = .error e → e = .overlap map.ramBase) ∧
      ∀ m, Machine.ofMap map = .ok m →
        m.map = map ∧
        m.memory = #[] ∧
        m.output = #[] ∧
        (∀ (address : UInt16) (d : Device),
          m.bus.route? address = some d ↔
            Bus.OwnerOf [.ram { base := map.ramBase }, .charOut { base := map.charOutBase }]
              address d) ∧
        ∀ address : UInt16,
          m.bus.route? address = none ↔ address < map.ramBase ∧ address < map.charOutBase := by
  constructor
  · intro text members h
    refine ⟨fun _ _ => ofText_of_gives h, ?_⟩
    intro name hname hbad
    have hno : ∀ standard base, ¬ Gives members name standard base := fun _ _ => not_gives hbad
    rcases List.mem_cons.1 hname with rfl | hname
    · exact ofText_of_not_gives h (Or.inl (hno _))
    · rcases List.mem_cons.1 hname with rfl | hname
      · exact ofText_of_not_gives h (Or.inr (hno _))
      · cases hname
  · intro map
    obtain ⟨hbuilt, herror, hfresh⟩ := ofMap_spec map
    refine ⟨hbuilt, herror, ?_⟩
    intro m hm
    obtain ⟨hmap, hmemory, houtput, hcarries⟩ := hfresh m hm
    refine ⟨hmap, hmemory, houtput, fun _ _ => hcarries.route?_eq_some_iff, fun address => ?_⟩
    rw [hcarries.route?_eq_none_iff]
    simp [Device.base]

/-- The base of the RAM is the standard one of the output, behind a member with another name. -/
theorem object_overlaps_standard :
    let text := "\x7b\"x\":[null],\"ram_base\":61440\x7d"
    let members : List (String × Json) := [("x", .array [.null]), ("ram_base", .ofNat 61440)]
    Spells text.toList (Json.object members).tokens ∧
      (∀ m ∈ members, (unescape? m.1).isSome = true) ∧
      Gives members "ram_base" 0x0000 61440 ∧
      Gives members "char_out_base" 0xF000 61440 ∧
      ofText text = .error (.overlap 61440) := by
  intro text members
  have hplain : ∀ m ∈ members, Json.IsPlain m.1 := by decide
  have hx : unescape? "x" = some "x" := Json.unescape?_of_isPlain (hplain _ List.mem_cons_self)
  have hbase : unescape? "ram_base" = some "ram_base" :=
    Json.unescape?_of_isPlain (hplain _ (List.mem_cons_of_mem _ List.mem_cons_self))
  have hspells : Spells text.toList (Json.object members).tokens := by
    have hvalues : ∀ m ∈ members, m.2.WellFormed := by
      simp [members, Json.wellFormed_ofNat, Json.wellFormed_array, Json.wellFormed_null]
    have htext : (Json.object members).compact = text := rfl
    rw [← htext]
    exact Json.spells_compact (Json.wellFormed_object fun m hm => ⟨hplain m hm, hvalues m hm⟩)
  have hnames : ∀ m ∈ members, (unescape? m.1).isSome = true := by simp [members, hx, hbase]
  have hram : Gives members "ram_base" 0x0000 61440 :=
    .plain (by simp [valuesOf, members, hx, hbase])
  have hout : Gives members "char_out_base" 0xF000 61440 :=
    .standard (by simp [valuesOf, members, hx, hbase])
  exact ⟨hspells, hnames, hram, hout,
    (object_decides_map.1 text members hspells).1 61440 61440 hnames hram hout⟩

end Texts

end MemoryMap
end Microcomputer
