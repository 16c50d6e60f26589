import Microcomputer.Proofs.Bus.Routing
import Microcomputer.Proofs.Processor.InPlace

/-!
# The bus as a memory

**Reads.**  `read_replay`: after the stores of a log, a read gives the byte that was stored there
last, or what it gave before.

**Hidden bytes.**  `Hides bus r k`: no address leads to the byte at offset `k` of the RAM `r`.  By
`keepsByte_useAll` it never changes.

**Uses.**  `Bus.Use` lists what is done to a bus, and `usedBy` is the bus that is made of an empty
one; `descending_usedBy` is the invariant.

**Result.**  `write_reads_back_and_frames`.
-/

namespace Microcomputer

namespace Ram

/-- The byte that a RAM has at an address. -/
def byteAt?
    (r : Ram)
    (address : UInt16) :
    Option UInt8 :=
  if r.base ≤ address then r.contents[address.toNat - r.base.toNat]? else none

variable {r : Ram} {address : UInt16}

theorem byteAt?_isSome_iff :
    (r.byteAt? address).isSome = true ↔
      r.base ≤ address ∧ address.toNat - r.base.toNat < r.contents.size := by
  unfold byteAt?
  split
  · next hbase => simp [hbase]
  · next hbase => simp [hbase]

theorem read_eq
    (r : Ram)
    (address : UInt16) :
    r.read address =
      match r.byteAt? address with
      | some value => .ok value
      | none => .error (.outOfBounds address) := by
  unfold read offset? byteAt?
  by_cases hbase : r.base ≤ address
  · by_cases hsize : address.toNat - r.base.toNat < r.contents.size
    · simp [hbase, hsize]
    · simp [hbase, hsize]
  · simp [hbase]

theorem write_eq
    (r : Ram)
    (address : UInt16)
    (value : UInt8) :
    r.write address value =
      match r.byteAt? address with
      | some _ =>
          .ok
            { r with
              contents :=
                r.contents.setIfInBounds (address.toNat - r.base.toNat) value }
      | none => .error (.outOfBounds address) := by
  unfold write offset? byteAt?
  by_cases hbase : r.base ≤ address
  · by_cases hsize : address.toNat - r.base.toNat < r.contents.size
    · simp [hbase, hsize, Array.setIfInBounds]
    · simp [hbase, hsize]
  · simp [hbase]

theorem byteAt?_replay
    (r : Ram)
    (stores : List Store)
    (address : UInt16) :
    (r.replay stores).byteAt? address =
      (r.byteAt? address).map fun old => (lastAt? stores address.toNat).getD old := by
  unfold byteAt?
  by_cases hbase : r.base ≤ address
  · have hplace : r.base.toNat + (address.toNat - r.base.toNat) = address.toNat := by
      have hle : r.base.toNat ≤ address.toNat := UInt16.le_iff_toNat_le.1 hbase
      omega
    simp [replay, hbase, hplace]
  · simp [replay, hbase]

end Ram

namespace Device

/-- What a device is, where it lies and how many bytes it has, if it is a RAM. -/
def extent (d : Device) : String × UInt16 × Option Nat :=
  (d.name, d.base, d.ram?.map fun r => r.contents.size)

theorem extent_replay
    (stores : List Store)
    (d : Device) :
    (d.replay stores).extent = d.extent := by
  cases d with
  | ram r => simp [extent, replay, name, base, ram?, Ram.replay]
  | charOut out => rfl

/-- **Reads after a log.** A read gives what was stored last at its address, or what it gave
before. -/
theorem read_replay
    (stores : List Store)
    (d : Device)
    (address : UInt16) :
    (d.replay stores).read address =
      (d.read address).map fun old => (lastAt? stores address.toNat).getD old := by
  cases d with
  | charOut out => rfl
  | ram r =>
      rw [replay, read, read, Ram.read_eq, Ram.read_eq, Ram.byteAt?_replay]
      cases r.byteAt? address with
      | none => rfl
      | some old => rfl

end Device

namespace Bus

section Reads

variable {bus written : Bus} {address : UInt16} {value : UInt8} {slot : Nat} {d : Device}

theorem read_of_slot
    (hslot : bus.slot? address = some slot)
    (hd : bus.devices[slot]? = some d) :
    bus.route? address = some d ∧ bus.read address = d.read address := by
  obtain ⟨owner, howner, hroute⟩ := route?_eq_of_slot hslot
  obtain rfl : d = owner := Option.some.inj (hd.symm.trans howner)
  exact ⟨hroute, by rw [read, hroute]⟩

theorem slot?_eq_none_iff : bus.slot? address = none ↔ bus.route? address = none := by
  rw [slot?, route?, List.findIdx?_eq_none_iff, List.find?_eq_none]
  simp

/-- The stores at an address all go to the device that the address belongs to. -/
theorem lastAt?_storesAt
    (hslot : bus.slot? address = some slot)
    (log : List Store) :
    lastAt? (bus.storesAt slot log) address.toNat = lastAt? log address.toNat := by
  unfold lastAt? storesAt
  rw [List.filter_filter]
  congr 2
  refine List.filter_congr fun s _ => ?_
  by_cases hs : s.address.toNat = address.toNat
  · rw [UInt16.toNat_inj.1 hs]
    simp [hslot]
  · simp [hs]

/-- **Reads after a log.** A read gives what was stored last at its address, or what it gave
before. -/
theorem read_replay
    (bus : Bus)
    (log : List Store)
    (address : UInt16) :
    (bus.replay log).read address =
      (bus.read address).map fun old => (lastAt? log address.toNat).getD old := by
  cases hslot : bus.slot? address with
  | none =>
      have hslot' : (bus.replay log).slot? address = none := by rw [slot?_replay, hslot]
      rw [read, read, slot?_eq_none_iff.1 hslot, slot?_eq_none_iff.1 hslot']
      rfl
  | some slot =>
      have hslot' : (bus.replay log).slot? address = some slot := by rw [slot?_replay, hslot]
      obtain ⟨d, hd, -⟩ := route?_eq_of_slot hslot
      have hd' : (bus.replay log).devices[slot]? = some (d.replay (bus.storesAt slot log)) := by
        simp [replay, hd]
      rw [(read_of_slot hslot hd).2, (read_of_slot hslot' hd').2, Device.read_replay,
        lastAt?_storesAt hslot]

theorem eq_replay_of_write
    (h : bus.write address value = .ok written) :
    written = bus.replay [⟨address, value⟩] := by
  have hnone : (bus.replay []).write address value = .ok written := by rwa [replay_nil]
  exact write_replay (s := ⟨address, value⟩) hnone

theorem read_of_write
    (h : bus.write address value = .ok written)
    (other : UInt16) :
    written.read other =
      if other = address then (bus.read address).map fun _ => value else bus.read other := by
  rw [eq_replay_of_write h, read_replay]
  by_cases hother : other = address
  · rw [if_pos hother, hother]
    simp [lastAt?]
  · have hne : address.toNat ≠ other.toNat := fun hsame => hother (UInt16.toNat_inj.1 hsame).symm
    rw [if_neg hother]
    cases hread : bus.read other with
    | ok old => simp [lastAt?, hne, Except.map]
    | error e => rfl

end Reads

section Writes

variable {bus written : Bus} {address : UInt16} {value : UInt8}

theorem exists_write_iff :
    (∃ written, bus.write address value = .ok written) ↔
      (∃ out, bus.route? address = some (.charOut out)) ∨
      ∃ r, bus.route? address = some (.ram r) ∧
        address.toNat - r.base.toNat < r.contents.size := by
  cases hslot : bus.slot? address with
  | none => simp [write_of_not_mapped hslot, slot?_eq_none_iff.1 hslot]
  | some slot =>
      obtain ⟨d, hd, hroute⟩ := route?_eq_of_slot hslot
      rw [write_of_slot hslot hd, hroute]
      cases d with
      | charOut out => simp [Device.write, Except.map]
      | ram r =>
          have hfound := List.find?_some hroute
          have hbase : r.base ≤ address := of_decide_eq_true hfound
          rw [Device.write, Ram.write_eq]
          cases hbyte : r.byteAt? address with
          | some old =>
              have hsome := Ram.byteAt?_isSome_iff.1 (Option.isSome_of_eq_some hbyte)
              simp [Except.map, hsome.2]
          | none =>
              have hnone : ¬ address.toNat - r.base.toNat < r.contents.size := by
                intro hsize
                have hsome := Ram.byteAt?_isSome_iff.2 ⟨hbase, hsize⟩
                simp [hbyte] at hsome
              simp [Except.map, hnone]

theorem frame_of_write_ram
    {r : Ram}
    (hroute : bus.route? address = some (.ram r))
    (h : bus.write address value = .ok written) :
    written.read address = .ok value ∧
    (∀ other, other ≠ address → written.read other = bus.read other) ∧
    written.devices.map Device.charOut? = bus.devices.map Device.charOut? := by
  obtain ⟨slot, d, d', hslot, hd, hwrite, hwritten⟩ := exists_slot_of_write h
  obtain ⟨hroute', hread⟩ := read_of_slot hslot hd
  rw [hroute] at hroute'
  cases hroute'
  have hold : ∃ old, r.byteAt? address = some old ∧ ∃ r', d' = .ram r' := by
    rw [Device.write, Ram.write_eq] at hwrite
    cases hbyte : r.byteAt? address with
    | none => simp [hbyte, Except.map] at hwrite
    | some old =>
        simp only [hbyte, Except.map, Except.ok.injEq] at hwrite
        exact ⟨old, rfl, _, hwrite.symm⟩
  obtain ⟨old, hbyte, r', rfl⟩ := hold
  refine ⟨?_, ?_, ?_⟩
  · rw [read_of_write h, if_pos rfl, hread, Device.read, Ram.read_eq, hbyte]
    rfl
  · intro other hother
    rw [read_of_write h, if_neg hother]
  · have hplace :
        (bus.devices.map Device.charOut?)[slot]? = some (Device.ram r').charOut? := by
      simp [hd, Device.charOut?]
    obtain ⟨hlt, hget⟩ := List.getElem?_eq_some_iff.1 hplace
    rw [hwritten, List.map_set, ← hget, List.set_getElem_self]

theorem frame_of_write_charOut
    {out : CharOut}
    (hroute : bus.route? address = some (.charOut out))
    (h : bus.write address value = .ok written) :
    (∃ slot,
      bus.devices[slot]? = some (.charOut out) ∧
      written.devices = bus.devices.set slot (.charOut (out.push value))) ∧
    ∀ other, written.read other = bus.read other := by
  obtain ⟨slot, d, d', hslot, hd, hwrite, hwritten⟩ := exists_slot_of_write h
  obtain ⟨hroute', hread⟩ := read_of_slot hslot hd
  rw [hroute] at hroute'
  cases hroute'
  cases hwrite
  refine ⟨⟨slot, hd, by rw [hwritten]⟩, ?_⟩
  intro other
  rw [read_of_write h]
  split
  · next hother =>
      rw [hother, hread]
      rfl
  · rfl

end Writes

section Hidden

/-- The devices of a bus stand by descending base, and no two have one base. -/
def Descending (bus : Bus) : Prop :=
  bus.devices.Pairwise fun d e => e.base < d.base

/-- No address leads to the byte at an offset of a RAM. -/
def Hides
    (bus : Bus)
    (r : Ram)
    (k : Nat) :
    Prop :=
  65536 ≤ r.base.toNat + k ∨
    ∃ d ∈ bus.devices, r.base < d.base ∧ d.base.toNat ≤ r.base.toNat + k

variable {bus : Bus} {r : Ram} {k : Nat}

theorem not_routed_of_hides
    (hbus : bus.Descending)
    (h : bus.Hides r k)
    {address : UInt16}
    (haddress : address.toNat = r.base.toNat + k) :
    bus.route? address ≠ some (.ram r) := by
  intro hroute
  rcases h with hbeyond | ⟨d, hd, hhigher, hbefore⟩
  · have hlt := address.toNat_lt
    omega
  · have howner := (ByBase.find?_eq_some_iff_owner hbus).1 hroute
    have hbase : d.base ≤ address := UInt16.le_iff_toNat_le.2 (by omega)
    exact absurd hhigher (UInt16.not_lt.2 (howner.greatest d hd hbase))

/-- A hidden byte has never been stored to. -/
theorem lastAt?_eq_none_of_hides
    (hbus : bus.Descending)
    (h : bus.Hides r k)
    {slot : Nat}
    (hslot : bus.devices[slot]? = some (.ram r))
    (log : List Store) :
    lastAt? (bus.storesAt slot log) (r.base.toNat + k) = none := by
  have hnone :
      (bus.storesAt slot log).filter (fun s => s.address.toNat = r.base.toNat + k) = [] := by
    rw [List.filter_eq_nil_iff]
    intro s hs haddress
    have hplace : bus.slot? s.address = some slot := by
      simpa using (List.mem_filter.1 hs).2
    exact not_routed_of_hides hbus h (by simpa using haddress) (read_of_slot hplace hslot).1
  rw [lastAt?, hnone]
  rfl

end Hidden

section Uses

/-- What is done to a bus. -/
inductive Use
  | attach (device : Device)
  | write (address : UInt16) (value : UInt8)

/-- Use a bus in place.  A use that fails leaves behind what it has changed until then. -/
def use (bus : Bus) : Use → Bus
  | .attach device => (bus.attachInPlace device).2
  | .write address value => ((Change.writeByte address value).on { bus }).2.bus

/-- The bus that several uses make of another one. -/
def useAll
    (bus : Bus)
    (uses : List Use) :
    Bus :=
  uses.foldl use bus

/-- The bus that several uses make of an empty one. -/
def usedBy (uses : List Use) : Bus :=
  useAll {} uses

variable {bus : Bus}

/-- An attachment that is refused changes nothing. -/
theorem use_attach
    (bus : Bus)
    (device : Device) :
    bus.use (.attach device) =
      match bus.attach device with
      | .ok next => next
      | .error _ => bus := by
  rw [use, attachInPlace_eq]
  cases bus.attach device with
  | ok next => rfl
  | error e => rfl

/-- A write that fails changes nothing. -/
theorem use_write
    (bus : Bus)
    (address : UInt16)
    (value : UInt8) :
    bus.use (.write address value) =
      match bus.write address value with
      | .ok written => written
      | .error _ => bus := by
  rw [use, Change.on_writeByte]
  cases bus.write address value with
  | ok written => rfl
  | error e => rfl

theorem extent_use_write
    (bus : Bus)
    (address : UInt16)
    (value : UInt8) :
    (bus.use (.write address value)).devices.map Device.extent =
      bus.devices.map Device.extent := by
  rw [use_write]
  cases hwrite : bus.write address value with
  | error e => rfl
  | ok written =>
      rw [eq_replay_of_write hwrite]
      exact map_replay Device.extent_replay bus _

theorem descending_use
    (h : bus.Descending)
    (u : Use) :
    (bus.use u).Descending := by
  cases u with
  | attach device =>
      have hcarries : Carries bus bus.devices := ⟨h, .refl _⟩
      rw [use_attach]
      by_cases htaken : ∃ d ∈ bus.devices, d.base = device.base
      · rw [attach_eq_error hcarries htaken]
        exact h
      · have hnew : ∀ d ∈ bus.devices, d.base ≠ device.base :=
          fun d hd hbase => htaken ⟨d, hd, hbase⟩
        rw [attach_eq_ok hcarries hnew]
        exact (hcarries.insert hnew).descending
  | write address value =>
      have hbases : (bus.use (.write address value)).devices.map Device.base =
          bus.devices.map Device.base := by
        simpa [Function.comp_def, Device.extent] using
          congrArg (List.map fun e => e.2.1) (extent_use_write bus address value)
      rw [Descending, ← List.pairwise_map (f := Device.base) (R := fun x y => y < x)] at h ⊢
      rwa [hbases]

theorem descending_useAll
    (h : bus.Descending)
    (uses : List Use) :
    (bus.useAll uses).Descending := by
  induction uses generalizing bus with
  | nil => exact h
  | cons u uses ih => exact ih (descending_use h u)

theorem descending_usedBy (uses : List Use) : (usedBy uses).Descending :=
  descending_useAll .nil uses

/-- A RAM with the same place, the same size and the same byte at an offset. -/
structure KeepsByte
    (k : Nat)
    (r after : Ram) :
    Prop where
  base : after.base = r.base
  size : after.contents.size = r.contents.size
  byte : after.contents[k]? = r.contents[k]?

variable {r : Ram} {k : Nat}

theorem keepsByte_use
    (hbus : bus.Descending)
    (hr : .ram r ∈ bus.devices)
    (h : bus.Hides r k)
    (u : Use) :
    ∃ after : Ram,
      .ram after ∈ (bus.use u).devices ∧
      KeepsByte k r after ∧
      (bus.use u).Hides after k := by
  cases u with
  | attach device =>
      rw [use_attach]
      cases hattach : bus.attach device with
      | error e => exact ⟨r, hr, ⟨rfl, rfl, rfl⟩, h⟩
      | ok next =>
          obtain rfl : { devices := ByBase.insert Device.base device bus.devices } = next := by
            unfold attach at hattach
            split at hattach
            · cases hattach
            · exact Except.ok.inj hattach
          refine ⟨r, ByBase.mem_insert.2 (Or.inr hr), ⟨rfl, rfl, rfl⟩, ?_⟩
          exact h.imp_right fun ⟨d, hd, hover⟩ => ⟨d, ByBase.mem_insert.2 (Or.inr hd), hover⟩
  | write address value =>
      rw [use_write]
      cases hwrite : bus.write address value with
      | error e => exact ⟨r, hr, ⟨rfl, rfl, rfl⟩, h⟩
      | ok written =>
          rw [eq_replay_of_write hwrite]
          obtain ⟨slot, hslot⟩ := List.mem_iff_getElem?.1 hr
          have hlast := lastAt?_eq_none_of_hides hbus h hslot [⟨address, value⟩]
          refine ⟨r.replay (bus.storesAt slot [⟨address, value⟩]), ?_, ⟨rfl, ?_, ?_⟩, ?_⟩
          · exact List.mem_iff_getElem?.2 ⟨slot, by simp [replay, hslot, Device.replay]⟩
          · simp [Ram.replay]
          · simp [Ram.replay, hlast]
          · rcases h with hbeyond | ⟨d, hd, hover⟩
            · exact Or.inl hbeyond
            · obtain ⟨place, hplace⟩ := List.mem_iff_getElem?.1 hd
              refine Or.inr ⟨d.replay (bus.storesAt place [⟨address, value⟩]), ?_, ?_⟩
              · exact List.mem_iff_getElem?.2 ⟨place, by simp [replay, hplace]⟩
              · rw [Device.base_replay]
                exact hover

theorem keepsByte_useAll
    (hbus : bus.Descending)
    (hr : .ram r ∈ bus.devices)
    (h : bus.Hides r k)
    (uses : List Use) :
    ∃ after : Ram, .ram after ∈ (bus.useAll uses).devices ∧ KeepsByte k r after := by
  induction uses generalizing bus r with
  | nil => exact ⟨r, hr, rfl, rfl, rfl⟩
  | cons u uses ih =>
      obtain ⟨mid, hmid, hkept, hhidden⟩ := keepsByte_use hbus hr h u
      obtain ⟨last, hlast, hkept'⟩ := ih (descending_use hbus u) hmid hhidden
      exact ⟨last, hlast, hkept'.base.trans hkept.base, hkept'.size.trans hkept.size,
        hkept'.byte.trans hkept.byte⟩

end Uses

/-- **The bus is a memory.** A write that succeeds is read back, or appended to an output, and
changes nothing else; hidden bytes never change. -/
theorem write_reads_back_and_frames
    (uses : List Use)
    (address : UInt16)
    (value : UInt8) :
    let bus := usedBy uses
    let after := bus.use (.write address value)
    ((∃ written, bus.write address value = .ok written) ↔
      (∃ out, bus.route? address = some (.charOut out)) ∨
      ∃ r, bus.route? address = some (.ram r) ∧
        address.toNat - r.base.toNat < r.contents.size) ∧
    (∀ written, bus.write address value = .ok written →
      after = written ∧
      ((∃ r, bus.route? address = some (.ram r)) →
        after.read address = .ok value ∧
        (∀ other, other ≠ address → after.read other = bus.read other) ∧
        after.devices.map Device.charOut? = bus.devices.map Device.charOut?) ∧
      (∀ out, bus.route? address = some (.charOut out) →
        (∃ slot,
          bus.devices[slot]? = some (.charOut out) ∧
          after.devices = bus.devices.set slot (.charOut (out.push value))) ∧
        ∀ other, after.read other = bus.read other)) ∧
    (∀ e, bus.write address value = .error e → after = bus) ∧
    after.devices.map Device.extent = bus.devices.map Device.extent ∧
    (∀ (r : Ram) (k : Nat),
      .ram r ∈ bus.devices → bus.Hides r k →
        ∀ more : List Use,
          ∃ later : Ram, .ram later ∈ (bus.useAll more).devices ∧ KeepsByte k r later) := by
  intro bus after
  have hafter : after = _ := use_write bus address value
  refine ⟨exists_write_iff, ?_, ?_, extent_use_write bus address value, ?_⟩
  · intro written hwrite
    rw [hwrite] at hafter
    subst hafter
    exact ⟨rfl, fun ⟨r, hroute⟩ => frame_of_write_ram hroute hwrite,
      fun out hroute => frame_of_write_charOut hroute hwrite⟩
  · intro e hwrite
    rw [hafter, hwrite]
  · intro r k hr hhidden more
    exact keepsByte_useAll (descending_usedBy uses) hr hhidden more

/-- An output that begins in the middle of a RAM takes what is written to the bytes under it. -/
example :
    let bus := usedBy
      [ .attach (.ram { base := 0, contents := #[1, 2, 3, 4] }),
        .attach (.charOut { base := 2 }),
        .write 1 9,
        .write 3 7 ]
    bus.memory = #[1, 9, 3, 4] ∧ bus.output = #[7] := by
  decide

end Bus
end Microcomputer
