import Microcomputer.Bus

/-!
# A bus after a list of stores

**Places.**  `slot? bus address` is the place of the device that an address belongs to.  A write
changes the device at that place and no other (`write_of_slot`).

**Replay.**  `Device.replay stores` is a device after the stores that were handed to it, and
`Bus.replay log` hands every store of a log to the device at its place.

**Results.**  `write_replay`: one more store that succeeds is one more entry of the log.
`findSome?_replay`: the first device of a kind has taken the stores that go to it, and no others.
-/

namespace Microcomputer

/-- A byte that is stored at an address. -/
structure Store where
  address : UInt16
  value : UInt8
  deriving DecidableEq

/-- The byte that was stored last at an address. -/
def lastAt?
    (stores : List Store)
    (address : Nat) :
    Option UInt8 :=
  (stores.filter fun s => s.address.toNat = address).getLast?.map Store.value

theorem lastAt?_nil (address : Nat) : lastAt? [] address = none :=
  rfl

theorem lastAt?_concat
    (stores : List Store)
    (s : Store)
    (address : Nat) :
    lastAt? (stores ++ [s]) address =
      if s.address.toNat = address then some s.value else lastAt? stores address := by
  unfold lastAt?
  rw [List.filter_append]
  split
  · next h => simp [h]
  · next h => simp [h]

/-- A RAM after some stores: each byte is the last one stored at its address. -/
def Ram.replay
    (r : Ram)
    (stores : List Store) :
    Ram :=
  { r with
    contents := r.contents.mapIdx fun k old => (lastAt? stores (r.base.toNat + k)).getD old }

/-- An output after the stores that it was handed: their bytes follow the old ones. -/
def CharOut.replay
    (out : CharOut)
    (stores : List Store) :
    CharOut :=
  { out with buffer := out.buffer ++ (stores.map Store.value).toArray }

namespace Device

/-- The RAM that a device is, if it is one. -/
def ram? : Device → Option Ram
  | ram r => some r
  | charOut _ => none

/-- The character output that a device is, if it is one. -/
def charOut? : Device → Option CharOut
  | ram _ => none
  | charOut out => some out

/-- A device after the stores that it was handed, in order. -/
def replay (stores : List Store) : Device → Device
  | ram r => ram (r.replay stores)
  | charOut out => charOut (out.replay stores)

@[simp]
theorem base_replay
    (stores : List Store)
    (d : Device) :
    (d.replay stores).base = d.base := by
  cases d <;> rfl

@[simp]
theorem name_replay
    (stores : List Store)
    (d : Device) :
    (d.replay stores).name = d.name := by
  cases d <;> rfl

theorem ram?_replay
    (stores : List Store)
    (d : Device) :
    (d.replay stores).ram? = d.ram?.map (Ram.replay · stores) := by
  cases d <;> rfl

theorem charOut?_replay
    (stores : List Store)
    (d : Device) :
    (d.replay stores).charOut? = d.charOut?.map (CharOut.replay · stores) := by
  cases d <;> rfl

@[simp]
theorem replay_nil (d : Device) : d.replay [] = d := by
  cases d with
  | ram r =>
      have hcontents : (r.contents.mapIdx fun _ old => old) = r.contents := by
        apply Array.ext_getElem?
        simp
      simp [replay, Ram.replay, lastAt?_nil, hcontents]
  | charOut out => simp [replay, CharOut.replay]

/-- One more store that a device takes. -/
theorem write_replay
    {d written : Device}
    {stores : List Store}
    {s : Store}
    (h : (d.replay stores).write s.address s.value = .ok written) :
    written = d.replay (stores ++ [s]) := by
  cases d with
  | charOut out =>
      cases h
      simp [replay, CharOut.replay, CharOut.push]
  | ram r =>
      simp only [replay, Ram.replay, write, Ram.write] at h
      split at h
      · next k hk =>
          obtain ⟨hbase, hoffset⟩ := Ram.offset?_eq_some_iff.1 hk
          cases h
          have haddress : s.address.toNat = r.base.toNat + k.val := by
            have hle : r.base.toNat ≤ s.address.toNat := UInt16.le_iff_toNat_le.1 hbase
            simp only at hoffset
            omega
          simp only [replay, Ram.replay, ram.injEq, Ram.mk.injEq, true_and]
          apply Array.ext_getElem?
          intro x
          rw [Array.getElem?_set, Array.getElem?_mapIdx, Array.getElem?_mapIdx]
          have hsize := k.isLt
          simp only [Array.size_mapIdx] at hsize
          rcases Nat.lt_or_ge x r.contents.size with hx | hx
          · rw [Array.getElem?_eq_getElem hx]
            simp only [Option.map_some, lastAt?_concat, haddress]
            by_cases hxk : k.val = x
            · simp [hxk]
            · simp [hxk]
          · have hxk : k.val ≠ x := by omega
            rw [Array.getElem?_eq_none hx]
            simp [hxk]
      · cases h

end Device

namespace Bus

section Places

/-- The place, in routing order, of the device that an address belongs to. -/
def slot?
    (bus : Bus)
    (address : UInt16) :
    Option Nat :=
  bus.devices.findIdx? fun d => d.base ≤ address

variable {bus written : Bus} {address : UInt16} {value : UInt8} {slot : Nat} {d : Device}

theorem route?_eq_of_slot
    (hslot : bus.slot? address = some slot) :
    ∃ d, bus.devices[slot]? = some d ∧ bus.route? address = some d := by
  obtain ⟨hlt, hbase, hbefore⟩ := List.findIdx?_eq_some_iff_getElem.1 hslot
  refine ⟨bus.devices[slot], List.getElem?_eq_getElem hlt, ?_⟩
  rw [route?, List.find?_eq_some_iff_getElem]
  exact ⟨hbase, slot, hlt, rfl, fun j hj => by simpa using hbefore j hj⟩

theorem writeFirst_of_slot
    {devices : List Device}
    (hslot : devices.findIdx? (fun d => decide (d.base ≤ address)) = some slot)
    (hd : devices[slot]? = some d) :
    writeFirst address value devices = (d.write address value).map (devices.set slot) := by
  induction devices generalizing slot with
  | nil => cases hslot
  | cons e rest ih =>
      unfold writeFirst
      by_cases hle : e.base ≤ address
      · rw [List.findIdx?_cons, decide_eq_true hle] at hslot
        cases hslot
        cases hd
        rw [if_pos hle]
        rfl
      · rw [List.findIdx?_cons, decide_eq_false hle] at hslot
        obtain ⟨k, hk, rfl⟩ := Option.map_eq_some_iff.1 hslot
        rw [if_neg hle, ih hk (by simpa using hd)]
        cases d.write address value <;> rfl

theorem writeFirst_of_not_mapped
    {devices : List Device}
    (hslot : devices.findIdx? (fun d => decide (d.base ≤ address)) = none) :
    writeFirst address value devices = .error (.unmapped address) := by
  induction devices with
  | nil => rfl
  | cons e rest ih =>
      rw [List.findIdx?_eq_none_iff] at hslot
      have hnot : ¬ e.base ≤ address := by simpa using hslot e List.mem_cons_self
      have hrest : rest.findIdx? (fun d => decide (d.base ≤ address)) = none :=
        List.findIdx?_eq_none_iff.2 fun d hd => hslot d (List.mem_cons_of_mem _ hd)
      rw [writeFirst, if_neg hnot, ih hrest]
      rfl

theorem write_of_slot
    (hslot : bus.slot? address = some slot)
    (hd : bus.devices[slot]? = some d) :
    bus.write address value =
      (d.write address value).map fun d' => { devices := bus.devices.set slot d' } := by
  rw [write, writeFirst_of_slot hslot hd]
  cases d.write address value <;> rfl

theorem write_of_not_mapped
    (hslot : bus.slot? address = none) :
    bus.write address value = .error (.unmapped address) := by
  rw [write, writeFirst_of_not_mapped hslot]
  rfl

/-- What a write that succeeds has done. -/
theorem exists_slot_of_write
    (h : bus.write address value = .ok written) :
    ∃ (slot : Nat) (d d' : Device),
      bus.slot? address = some slot ∧
      bus.devices[slot]? = some d ∧
      d.write address value = .ok d' ∧
      written = { devices := bus.devices.set slot d' } := by
  cases hslot : bus.slot? address with
  | none => simp [write_of_not_mapped hslot] at h
  | some slot =>
      obtain ⟨d, hd, -⟩ := route?_eq_of_slot hslot
      rw [write_of_slot hslot hd] at h
      cases hwrite : d.write address value with
      | error e => simp [hwrite, Except.map] at h
      | ok d' =>
          simp only [hwrite, Except.map, Except.ok.injEq] at h
          exact ⟨slot, d, d', rfl, hd, hwrite, h.symm⟩

end Places

section Replay

/-- The stores of a log that belong to the device at a place. -/
def storesAt
    (bus : Bus)
    (slot : Nat)
    (log : List Store) :
    List Store :=
  log.filter fun s => bus.slot? s.address = some slot

/-- The bus after the stores of a log, each of them handed to the device at its place. -/
def replay
    (bus : Bus)
    (log : List Store) :
    Bus :=
  { devices := bus.devices.mapIdx fun slot d => d.replay (bus.storesAt slot log) }

variable {bus written : Bus} {log : List Store}

@[simp]
theorem replay_nil (bus : Bus) : bus.replay [] = bus := by
  have hdevices : (bus.replay []).devices = bus.devices := by
    apply List.ext_getElem?
    intro slot
    simp [replay, storesAt]
  cases bus
  exact congrArg Bus.mk hdevices

/-- What the stores do not change of a device, they do not change of the devices. -/
theorem map_replay
    {α : Type}
    {view : Device → α}
    (hview : ∀ stores d, view (Device.replay stores d) = view d)
    (bus : Bus)
    (log : List Store) :
    (bus.replay log).devices.map view = bus.devices.map view := by
  apply List.ext_getElem?
  intro slot
  simp [replay, Function.comp_def, hview]

theorem findIdx?_replay
    {isWanted : Device → Bool}
    (hwanted : ∀ stores d, isWanted (Device.replay stores d) = isWanted d)
    (bus : Bus)
    (log : List Store) :
    (bus.replay log).devices.findIdx? isWanted = bus.devices.findIdx? isWanted := by
  have hmap : ∀ devices : List Device,
      devices.findIdx? isWanted = (devices.map isWanted).findIdx? id := by
    intro devices
    rw [List.findIdx?_map]
    rfl
  rw [hmap, hmap, map_replay hwanted]

@[simp]
theorem slot?_replay
    (bus : Bus)
    (log : List Store)
    (address : UInt16) :
    (bus.replay log).slot? address = bus.slot? address :=
  findIdx?_replay (by simp) bus log

theorem storesAt_concat
    (bus : Bus)
    (slot : Nat)
    (log : List Store)
    (s : Store) :
    bus.storesAt slot (log ++ [s]) =
      bus.storesAt slot log ++ if bus.slot? s.address = some slot then [s] else [] := by
  rw [storesAt, List.filter_append, ← storesAt]
  split
  · next h => simp [h]
  · next h => simp [h]

theorem write_replay
    {s : Store}
    (h : (bus.replay log).write s.address s.value = .ok written) :
    written = bus.replay (log ++ [s]) := by
  obtain ⟨slot, e, e', hslot, he, hwrite, rfl⟩ := exists_slot_of_write h
  rw [slot?_replay] at hslot
  refine congrArg Bus.mk (List.ext_getElem? fun x => ?_)
  simp only [replay, List.getElem?_mapIdx, storesAt_concat, hslot, Option.some.injEq] at he ⊢
  obtain ⟨d, hd, rfl⟩ := Option.map_eq_some_iff.1 he
  rw [List.getElem?_set]
  by_cases hx : slot = x
  · obtain ⟨hlt, hget⟩ := List.getElem?_eq_some_iff.1 hd
    subst hx
    simp [hlt, hget, Device.write_replay hwrite]
  · simp [hx]

end Replay

section Views

/-- The place of the first device that shows a view. -/
def firstSlot?
    {β : Type}
    (view : Device → Option β)
    (bus : Bus) :
    Option Nat :=
  bus.devices.findIdx? fun d => (view d).isSome

/-- The address belongs to the first device that shows a view. -/
def routesToFirst
    {β : Type}
    (view : Device → Option β)
    (bus : Bus)
    (address : UInt16) :
    Bool :=
  (bus.slot? address).any fun slot => bus.firstSlot? view = some slot

/-- The address belongs to the first character output. -/
def routesToOutput : Bus → UInt16 → Bool :=
  routesToFirst Device.charOut?

/-- The address belongs to the first RAM. -/
def routesToMemory : Bus → UInt16 → Bool :=
  routesToFirst Device.ram?

variable {β : Type} {view : Device → Option β}

theorem findSome?_eq_bind (bus : Bus) :
    bus.devices.findSome? view =
      (bus.firstSlot? view).bind fun slot => bus.devices[slot]?.bind view := by
  unfold firstSlot?
  induction bus.devices with
  | nil => rfl
  | cons d rest ih =>
      rw [List.findSome?_cons, List.findIdx?_cons]
      cases hview : view d with
      | some seen => simp [hview]
      | none =>
          simp only [ih, Option.isSome_none, Bool.false_eq_true, if_false, Option.bind_map]
          rfl

theorem routesToFirst_of_none
    {bus : Bus}
    (h : bus.devices.findSome? view = none)
    (address : UInt16) :
    bus.routesToFirst view address = false := by
  have hslot : bus.firstSlot? view = none :=
    List.findIdx?_eq_none_iff.2 fun d hd => by simp [List.findSome?_eq_none_iff.1 h d hd]
  simp [routesToFirst, hslot]

theorem filter_routesToFirst
    {bus : Bus}
    {slot : Nat}
    (hslot : bus.firstSlot? view = some slot)
    (log : List Store) :
    log.filter (fun s => bus.routesToFirst view s.address) = bus.storesAt slot log := by
  refine List.filter_congr fun s _ => ?_
  simp only [routesToFirst, hslot, Option.some.injEq]
  cases bus.slot? s.address <;> simp [eq_comm]

theorem findSome?_replay
    {after : List Store → β → β}
    (hview : ∀ stores d, view (Device.replay stores d) = (view d).map (after stores))
    (bus : Bus)
    (log : List Store) :
    (bus.replay log).devices.findSome? view =
      (bus.devices.findSome? view).map
        (after (log.filter fun s => bus.routesToFirst view s.address)) := by
  have hplace : (bus.replay log).firstSlot? view = bus.firstSlot? view :=
    findIdx?_replay (by simp [hview]) bus log
  rw [findSome?_eq_bind, findSome?_eq_bind, hplace]
  cases hslot : bus.firstSlot? view with
  | none => rfl
  | some slot =>
      rw [filter_routesToFirst hslot]
      simp only [Option.bind_some, replay, List.getElem?_mapIdx]
      cases bus.devices[slot]? with
      | none => rfl
      | some d => exact hview _ d

theorem charOut?_replay
    (bus : Bus)
    (log : List Store) :
    (bus.replay log).charOut? =
      bus.charOut?.map fun out =>
        out.replay (log.filter fun s => bus.routesToOutput s.address) :=
  findSome?_replay Device.charOut?_replay bus log

theorem ram?_replay
    (bus : Bus)
    (log : List Store) :
    (bus.replay log).ram? =
      bus.ram?.map fun r => r.replay (log.filter fun s => bus.routesToMemory s.address) :=
  findSome?_replay Device.ram?_replay bus log

theorem output_replay
    (bus : Bus)
    (log : List Store) :
    (bus.replay log).output =
      bus.output ++
        ((log.filter fun s => bus.routesToOutput s.address).map Store.value).toArray := by
  rw [output, output, charOut?_replay]
  cases hout : bus.charOut? with
  | some out => rfl
  | none =>
      have hnone : ∀ address, bus.routesToOutput address = false := routesToFirst_of_none hout
      simp [hnone]

end Views

end Bus
end Microcomputer
