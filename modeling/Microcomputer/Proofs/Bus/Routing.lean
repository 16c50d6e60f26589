import Microcomputer.Bus

/-!
# Routing by the greatest base

**Bases.**  `ByBase` is about items of any type that have a base: where one more of them goes
(`insertIdx_slotFor`), and which is the first one not above an address (`find?_eq_some_iff_owner`).

**Attaching.**  `attaching` changes the bus in place; `attachInPlace_eq` says that this is
`Bus.attach`.  `attachEach` attaches devices in order, whether they are refused or not.

**Invariant.**  `Carries bus accepted`: the bus holds exactly the accepted devices, by strictly
descending base.  `Carries.attachOne` keeps it.

**Result.**  `attached_route_by_greatest_base`.
-/

namespace Microcomputer

namespace ByBase

variable {α : Type} {base : α → UInt16} {item : α} {items : List α} {address : UInt16}

section Insertion

theorem insert_perm
    (base : α → UInt16)
    (item : α)
    (items : List α) :
    (insert base item items).Perm (item :: items) := by
  induction items with
  | nil => exact .refl _
  | cons first rest ih =>
      unfold insert
      split
      · exact .refl _
      · exact (ih.cons first).trans (.swap item first rest)

theorem pairwise_insert
    (h : items.Pairwise fun d e => base e < base d)
    (hnew : ∀ d ∈ items, base d ≠ base item) :
    (insert base item items).Pairwise fun d e => base e < base d := by
  induction items with
  | nil => exact List.pairwise_singleton _ _
  | cons first rest ih =>
      obtain ⟨hfirst, hrest⟩ := List.pairwise_cons.1 h
      unfold insert
      split
      · next hlower =>
          refine List.pairwise_cons.2 ⟨?_, h⟩
          intro e he
          rcases List.mem_cons.1 he with rfl | he
          · exact hlower
          · exact UInt16.lt_trans (hfirst e he) hlower
      · next hnot =>
          have hne : base first ≠ base item := hnew first List.mem_cons_self
          have hhigher : base item < base first :=
            UInt16.lt_of_le_of_ne (UInt16.not_lt.1 hnot) hne.symm
          refine List.pairwise_cons.2 ⟨?_, ih hrest fun e he => hnew e (List.mem_cons_of_mem _ he)⟩
          intro e he
          rcases mem_insert.1 he with rfl | he
          · exact hhigher
          · exact hfirst e he

/-- The place where an item goes: that of the first one with a lower base, or the end. -/
def slotFor
    (base : α → UInt16)
    (item : α)
    (items : List α) :
    Nat :=
  (items.findIdx? fun d => base d < base item).getD items.length

theorem insertIdx_slotFor
    (base : α → UInt16)
    (item : α)
    (items : List α) :
    items.insertIdx (slotFor base item items) item = insert base item items := by
  induction items with
  | nil => rfl
  | cons first rest ih =>
      unfold insert
      by_cases hlower : base first < base item
      · have hslot : slotFor base item (first :: rest) = 0 := by
          simp [slotFor, List.findIdx?_cons, hlower]
        rw [if_pos hlower, hslot, List.insertIdx_zero]
      · have hslot : slotFor base item (first :: rest) = slotFor base item rest + 1 := by
          unfold slotFor
          cases h : rest.findIdx? fun d => base d < base item <;>
            simp [List.findIdx?_cons, hlower, h]
        rw [if_neg hlower, hslot, List.insertIdx_succ_cons, ih]

theorem eq_of_perm
    {other : List α}
    (h : items.Pairwise fun d e => base e < base d)
    (h' : other.Pairwise fun d e => base e < base d)
    (hperm : other.Perm items) :
    other = items :=
  hperm.eq_of_pairwise (fun _ _ _ _ hde hed => absurd hde (UInt16.lt_asymm hed)) h' h

end Insertion

section Owners

/-- The item has the greatest base of those that are not above the address. -/
structure Owner
    (base : α → UInt16)
    (items : List α)
    (address : UInt16)
    (item : α) :
    Prop where
  mem : item ∈ items
  base_le : base item ≤ address
  greatest : ∀ other ∈ items, base other ≤ address → base other ≤ base item

theorem Owner.of_perm
    {other : List α}
    (h : Owner base items address item)
    (hperm : items.Perm other) :
    Owner base other address item where
  mem := hperm.mem_iff.1 h.mem
  base_le := h.base_le
  greatest := fun e he => h.greatest e (hperm.mem_iff.2 he)

/-- In descending order the first item not above the address is the one with the greatest such
base. -/
theorem find?_eq_some_iff_owner
    (h : items.Pairwise fun d e => base e < base d) :
    items.find? (fun d => decide (base d ≤ address)) = some item ↔
      Owner base items address item := by
  induction items with
  | nil =>
      constructor
      · intro hnone
        cases hnone
      · intro howner
        cases howner.mem
  | cons e rest ih =>
      obtain ⟨he, hrest⟩ := List.pairwise_cons.1 h
      by_cases hle : base e ≤ address
      · rw [List.find?_cons_of_pos (by simpa using hle)]
        constructor
        · intro hd
          cases hd
          refine ⟨List.mem_cons_self, hle, ?_⟩
          intro f hf _
          rcases List.mem_cons.1 hf with rfl | hf
          · exact UInt16.le_refl _
          · exact UInt16.le_of_lt (he f hf)
        · intro howner
          rcases List.mem_cons.1 howner.mem with rfl | hd
          · rfl
          · -- A later item lies lower than `e`, which is not above the address either.
            have hge := howner.greatest e List.mem_cons_self hle
            exact absurd (he item hd) (UInt16.not_lt.2 hge)
      · rw [List.find?_cons_of_neg (by simpa using hle), ih hrest]
        constructor
        · intro howner
          refine ⟨List.mem_cons_of_mem _ howner.mem, howner.base_le, ?_⟩
          intro f hf hf'
          rcases List.mem_cons.1 hf with rfl | hf
          · exact absurd hf' hle
          · exact howner.greatest f hf hf'
        · intro howner
          refine ⟨?_, howner.base_le, fun f hf => howner.greatest f (List.mem_cons_of_mem _ hf)⟩
          rcases List.mem_cons.1 howner.mem with rfl | hd
          · exact absurd howner.base_le hle
          · exact hd

theorem find?_eq_none_iff :
    items.find? (fun d => decide (base d ≤ address)) = none ↔ ∀ d ∈ items, address < base d := by
  rw [List.find?_eq_none]
  refine forall₂_congr fun d _ => ?_
  rw [decide_eq_true_eq, UInt16.not_le]

end Owners

end ByBase

namespace Bus

section Attachments

/-- Attach a device to a bus in place.  What is done before an error stays done. -/
def attaching (device : Device) : ExceptT BusError (StateM Bus) Unit := do
  let devices := (← get).devices
  if devices.any fun d => d.base == device.base then
    throw (.duplicateBase device.base)
  else
    set { devices := devices.insertIdx (ByBase.slotFor Device.base device devices) device : Bus }

/-- What attaching a device gives, and the bus that it leaves behind. -/
def attachInPlace
    (bus : Bus)
    (device : Device) :
    Except BusError Unit × Bus :=
  (attaching device).run.run bus

/-- A device that is refused leaves the bus as it is. -/
theorem attachInPlace_eq
    (bus : Bus)
    (device : Device) :
    bus.attachInPlace device =
      match bus.attach device with
      | .ok next => (.ok (), next)
      | .error e => (.error e, bus) := by
  have hread : bus.attachInPlace device =
      ((if bus.devices.any fun d => d.base == device.base then
          throw (.duplicateBase device.base)
        else
          set { devices :=
            bus.devices.insertIdx (ByBase.slotFor Device.base device bus.devices) device : Bus } :
        ExceptT BusError (StateM Bus) Unit).run.run bus) :=
    rfl
  rw [hread, ByBase.insertIdx_slotFor, attach]
  split
  · rfl
  · rfl

/-- The devices that a bus has accepted, in the order of their attachment, and the bus. -/
structure Attachments where
  accepted : List Device := []
  bus : Bus := {}

/-- Attach one more device, and note it if it is accepted. -/
def attachOne
    (reached : Attachments)
    (device : Device) :
    Attachments :=
  match reached.bus.attachInPlace device with
  | (.ok _, next) => ⟨reached.accepted ++ [device], next⟩
  | (.error _, left) => ⟨reached.accepted, left⟩

theorem attachOne_of_ok
    {reached : Attachments}
    {device : Device}
    {next : Bus}
    (h : reached.bus.attach device = .ok next) :
    attachOne reached device = ⟨reached.accepted ++ [device], next⟩ := by
  rw [attachOne, attachInPlace_eq, h]

theorem attachOne_of_error
    {reached : Attachments}
    {device : Device}
    {e : BusError}
    (h : reached.bus.attach device = .error e) :
    attachOne reached device = reached := by
  rw [attachOne, attachInPlace_eq, h]

/-- Attach devices to an empty bus, one after the other, whether they are refused or not. -/
def attachEach (devices : List Device) : Attachments :=
  devices.foldl attachOne {}

theorem attachEach_concat
    (devices : List Device)
    (device : Device) :
    attachEach (devices ++ [device]) = attachOne (attachEach devices) device := by
  rw [attachEach, List.foldl_append]
  rfl

/-- The bus holds exactly the accepted devices, by strictly descending base. -/
structure Carries (bus : Bus) (accepted : List Device) : Prop where
  descending : bus.devices.Pairwise fun d e => e.base < d.base
  perm : bus.devices.Perm accepted

theorem carries_nil : Carries {} [] where
  descending := .nil
  perm := .refl _

variable {bus : Bus} {accepted : List Device} {device : Device}

theorem attach_eq_error
    (h : Carries bus accepted)
    (htaken : ∃ d ∈ accepted, d.base = device.base) :
    bus.attach device = .error (.duplicateBase device.base) := by
  obtain ⟨d, hd, hbase⟩ := htaken
  have htaken : (bus.devices.any fun e => e.base == device.base) = true :=
    List.any_eq_true.2 ⟨d, h.perm.mem_iff.2 hd, by simpa using hbase⟩
  rw [attach, if_pos htaken]

theorem attach_eq_ok
    (h : Carries bus accepted)
    (hnew : ∀ d ∈ accepted, d.base ≠ device.base) :
    bus.attach device = .ok { devices := ByBase.insert Device.base device bus.devices } := by
  have hfree : ¬ (bus.devices.any fun e => e.base == device.base) = true := by
    intro htaken
    obtain ⟨d, hd, hbase⟩ := List.any_eq_true.1 htaken
    exact hnew d (h.perm.mem_iff.1 hd) (by simpa using hbase)
  rw [attach, if_neg hfree]

theorem Carries.insert
    (h : Carries bus accepted)
    (hnew : ∀ d ∈ accepted, d.base ≠ device.base) :
    Carries { devices := ByBase.insert Device.base device bus.devices }
      (accepted ++ [device]) where
  descending := ByBase.pairwise_insert h.descending fun d hd => hnew d (h.perm.mem_iff.1 hd)
  perm := by
    have hfront : (ByBase.insert Device.base device bus.devices).Perm (device :: accepted) :=
      (ByBase.insert_perm _ device bus.devices).trans (h.perm.cons device)
    exact hfront.trans (List.perm_append_singleton device accepted).symm

theorem Carries.attachOne
    {reached : Attachments}
    (h : Carries reached.bus reached.accepted)
    (device : Device) :
    Carries (attachOne reached device).bus (attachOne reached device).accepted := by
  by_cases htaken : ∃ d ∈ reached.accepted, d.base = device.base
  · rw [attachOne_of_error (attach_eq_error h htaken)]
    exact h
  · have hnew : ∀ d ∈ reached.accepted, d.base ≠ device.base :=
      fun d hd hbase => htaken ⟨d, hd, hbase⟩
    rw [attachOne_of_ok (attach_eq_ok h hnew)]
    exact h.insert hnew

theorem carries_foldl
    {reached : Attachments}
    (h : Carries reached.bus reached.accepted)
    (devices : List Device) :
    Carries (devices.foldl Bus.attachOne reached).bus
      (devices.foldl Bus.attachOne reached).accepted := by
  induction devices generalizing reached with
  | nil => exact h
  | cons device rest ih => exact ih (h.attachOne device)

theorem carries_attachEach (devices : List Device) :
    Carries (attachEach devices).bus (attachEach devices).accepted :=
  carries_foldl carries_nil devices

end Attachments

section Routes

/-- The device has the greatest base of those that are not above the address. -/
abbrev OwnerOf :=
  ByBase.Owner Device.base

variable {accepted : List Device} {bus : Bus} {address : UInt16} {d : Device}

theorem Carries.route?_eq_some_iff
    (h : Carries bus accepted) :
    bus.route? address = some d ↔ OwnerOf accepted address d := by
  rw [route?, ByBase.find?_eq_some_iff_owner h.descending]
  exact ⟨fun howner => howner.of_perm h.perm, fun howner => howner.of_perm h.perm.symm⟩

theorem Carries.route?_eq_none_iff
    (h : Carries bus accepted) :
    bus.route? address = none ↔ ∀ d ∈ accepted, address < d.base := by
  rw [route?, ByBase.find?_eq_none_iff]
  exact forall_congr' fun d => imp_congr_left h.perm.mem_iff

end Routes

section Orders

variable {devices : List Device}

/-- Devices with distinct bases are all accepted. -/
theorem foldl_attachOne_of_nodup
    {reached : Attachments}
    (h : Carries reached.bus reached.accepted)
    (hnodup : ((reached.accepted ++ devices).map Device.base).Nodup) :
    ∃ bus : Bus,
      devices.foldl attachOne reached = ⟨reached.accepted ++ devices, bus⟩ ∧
      reached.bus.attachAll devices = .ok bus := by
  induction devices generalizing reached with
  | nil => exact ⟨reached.bus, by simp, rfl⟩
  | cons device rest ih =>
      have hnew : ∀ d ∈ reached.accepted, d.base ≠ device.base := by
        intro d hd
        rw [List.map_append, List.nodup_append] at hnodup
        exact hnodup.2.2 _ (List.mem_map_of_mem hd) _ (by simp)
      have hone := attach_eq_ok h hnew
      have hnext := attachOne_of_ok hone
      have hcarries := h.attachOne device
      obtain ⟨bus, hfold, hall⟩ := ih hcarries (by rw [hnext]; simpa using hnodup)
      refine ⟨bus, ?_, ?_⟩
      · rw [List.foldl_cons, hfold, hnext]
        simp
      · rw [attachAll, hone]
        rwa [hnext] at hall

theorem attachEach_of_nodup
    (hnodup : (devices.map Device.base).Nodup) :
    ∃ bus : Bus,
      attachEach devices = ⟨devices, bus⟩ ∧ ({} : Bus).attachAll devices = .ok bus :=
  foldl_attachOne_of_nodup carries_nil hnodup

theorem Carries.unique
    {bus other : Bus}
    {accepted order : List Device}
    (h : Carries bus accepted)
    (h' : Carries other order)
    (hperm : order.Perm accepted) :
    other = bus := by
  have hsame : other.devices.Perm bus.devices :=
    (h'.perm.trans hperm).trans h.perm.symm
  have heq := ByBase.eq_of_perm h.descending h'.descending hsame
  cases other
  cases bus
  exact congrArg Bus.mk heq

end Orders

/-- **Routing.** A device is refused exactly if its base is taken, and an address belongs to the
accepted device with the greatest base not above it. -/
theorem attached_route_by_greatest_base (devices : List Device) :
    let reached := attachEach devices
    (∀ device : Device,
      reached.bus.attachInPlace device =
        match reached.bus.attach device with
        | .ok next => (.ok (), next)
        | .error e => (.error e, reached.bus)) ∧
    Carries reached.bus reached.accepted ∧
    (∀ device : Device, (∃ d ∈ reached.accepted, d.base = device.base) →
      reached.bus.attach device = .error (.duplicateBase device.base) ∧
      attachEach (devices ++ [device]) = reached) ∧
    (∀ device : Device, (∀ d ∈ reached.accepted, d.base ≠ device.base) →
      ∃ next : Bus,
        reached.bus.attach device = .ok next ∧
        attachEach (devices ++ [device]) = ⟨reached.accepted ++ [device], next⟩) ∧
    (∀ (address : UInt16) (d : Device),
      reached.bus.route? address = some d ↔ OwnerOf reached.accepted address d) ∧
    (∀ address : UInt16,
      reached.bus.route? address = none ↔ ∀ d ∈ reached.accepted, address < d.base) ∧
    ((devices.map Device.base).Nodup →
      ∃ bus : Bus, ∀ order : List Device, order.Perm devices →
        ({} : Bus).attachAll order = .ok bus ∧ attachEach order = ⟨order, bus⟩) := by
  intro reached
  have hcarries : Carries reached.bus reached.accepted := carries_attachEach devices
  refine ⟨attachInPlace_eq reached.bus, hcarries, ?_, ?_, fun _ _ => hcarries.route?_eq_some_iff,
    fun _ => hcarries.route?_eq_none_iff, ?_⟩
  · intro device htaken
    have hrefused := attach_eq_error hcarries htaken
    exact ⟨hrefused, by rw [attachEach_concat, attachOne_of_error hrefused]⟩
  · intro device hnew
    have hone := attach_eq_ok hcarries hnew
    exact ⟨_, hone, by rw [attachEach_concat, attachOne_of_ok hone]⟩
  · intro hnodup
    obtain ⟨bus, heach, -⟩ := attachEach_of_nodup hnodup
    refine ⟨bus, ?_⟩
    intro order hperm
    obtain ⟨other, horder, hall⟩ :=
      attachEach_of_nodup ((hperm.map Device.base).nodup_iff.2 hnodup)
    have hbus := carries_attachEach devices
    have hother := carries_attachEach order
    rw [heach] at hbus
    rw [horder] at hother
    obtain rfl : other = bus := hbus.unique hother hperm
    exact ⟨hall, horder⟩

end Bus
end Microcomputer
