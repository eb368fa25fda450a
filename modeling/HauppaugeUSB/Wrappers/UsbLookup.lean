/-
# Looking a device up and opening it

`FindDev` tells the user where a device is, by comparing whole serial numbers, and `Open`
opens one by comparing as much of a serial number as it is given. On a bus where nothing
fails and serial numbers are distinct, both find the same device unless one is listed
earlier whose serial number only begins with the requested one.
-/

import HauppaugeUSB.Concurrency.System
import HauppaugeUSB.Wrappers.UsbEntries

namespace HauppaugeUSB.Wrappers

open HauppaugeUSB.Commands HauppaugeUSB.Concurrency HauppaugeUSB.Streams

variable {Device : Type*}

/-- A bus that stays as it is. The serial numbers of its devices can be read where `DevName`
accepts them and they can be opened; they have no NUL and are distinct. -/
structure StableBus (Device : Type*) where
  usb : Libusb Device
  devices : List Device
  serial : Device → DeviceString
  init : 0 ≤ usb.init
  listed : usb.deviceList = .ok devices
  strings : ∀ device ∈ devices, ∀ desc name, candidate usb device = some (desc, name) →
    usb.stringDescriptor device desc.iSerialNumber = some (serial device)
  nulFree : ∀ device ∈ devices, (candidate usb device).isSome = true →
    '\x00' ∉ (serial device).text
  distinct : ∀ device ∈ devices, ∀ other ∈ devices, (candidate usb device).isSome = true →
    (candidate usb other).isSome = true → (serial device).text = (serial other).text →
      device = other

/-- A call to a wrapper. -/
inductive UsbCall
  | openUsb (serial : Text)
  | closeUsb
  | deviceList (devs : List DeviceEntry)

/-- A wrapper and the calls to it. -/
@[reducible]
def usbWrapper (usb : Libusb Device) : System (USBWrapper Device) UsbCall where
  IsStart wrapper := ∃ opened, wrapper = .new usb opened
  step wrapper
    | .openUsb serial => some (openUsb usb serial wrapper).2
    | .closeUsb => some (closeUsb wrapper)
    | .deviceList devs => some (deviceList usb devs wrapper).2.2

/-- What `FindDev` reports is where `Open` finds its device. -/
structure LookupAgrees (usb : Libusb Device) (serial : Text) (wrapper : USBWrapper Device) :
    Prop where
  found : ∀ opened bus port, findDev usb serial opened = some (bus, port) →
    ∃ device, Selected usb device wrapper (openUsb usb serial wrapper).2 ∧
      usb.busNumber device = bus ∧ usb.portNumber device = port
  missing : ∀ opened, findDev usb serial opened = none →
    ∀ device, ¬ Selected usb device wrapper (openUsb usb serial wrapper).2

/-- The first device that passes the comparison of `Open` has the serial number, or is where
the device is that has it. -/
def FirstIsRight (bus : StableBus Device) (serial : Text) : Prop :=
  ∀ prior device, FirstAccepted (PassesCompare bus.usb serial) bus.devices prior device →
    ∃ other ∈ bus.devices, HasSerial bus.usb serial other ∧
      bus.usb.busNumber device = bus.usb.busNumber other ∧
      bus.usb.portNumber device = bus.usb.portNumber other

section Wrapper

variable {bus : StableBus Device} {serial : Text} {wrapper : USBWrapper Device}

/-- What every wrapper on the bus knows. -/
structure OnBus (bus : StableBus Device) (wrapper : USBWrapper Device) : Prop where
  ctx : wrapper.ctx = true
  devList : wrapper.devList = none ∨ wrapper.devList = some bus.devices
  /-- A handle has been given out before. -/
  numbered : ∀ handle, wrapper.handle = some handle → handle.number < wrapper.opened

theorem OnBus.of_eq {later : USBWrapper Device} (hwrapper : OnBus bus wrapper)
    (hctx : later.ctx = wrapper.ctx) (hdevList : later.devList = wrapper.devList)
    (hhandle : later.handle = wrapper.handle) (hopened : wrapper.opened ≤ later.opened) :
    OnBus bus later := by
  refine ⟨hctx.trans hwrapper.ctx, by rw [hdevList]; exact hwrapper.devList, ?_⟩
  intro handle hhere
  exact Nat.lt_of_lt_of_le (hwrapper.numbered handle (hhandle ▸ hhere)) hopened

theorem OnBus.listDevices (hwrapper : OnBus bus wrapper) :
    (listDevices bus.usb wrapper).1 = some bus.devices ∧
      OnBus bus (listDevices bus.usb wrapper).2 := by
  have hctx : ¬ wrapper.ctx = false := by simp [hwrapper.ctx]
  unfold Wrappers.listDevices
  rw [if_neg hctx]
  rcases hwrapper.devList with hnone | hsome
  · rw [hnone, bus.listed]
    exact ⟨rfl, hwrapper.ctx, .inr rfl, hwrapper.numbered⟩
  · rw [hsome]
    exact ⟨rfl, hwrapper⟩

theorem OnBus.listedDevices (hwrapper : OnBus bus wrapper) :
    listedDevices bus.usb wrapper = bus.devices := by
  rw [Wrappers.listedDevices, hwrapper.listDevices.1, Option.getD_some]

/-- The loops keep a wrapper on the bus. -/
theorem OnBus.openLoop {devices : List Device} {buffer : ℕ → Char} (hwrapper : OnBus bus wrapper) :
    OnBus bus (openLoop bus.usb serial devices buffer wrapper) := by
  induction devices generalizing buffer wrapper with
  | nil => exact hwrapper
  | cons device rest ih =>
      rw [Wrappers.openLoop]
      split
      · exact ih (hwrapper.of_eq rfl rfl rfl (Nat.le_refl _))
      · split
        · exact ih hwrapper
        · split
          · exact ih (hwrapper.of_eq rfl rfl rfl (Nat.le_refl _))
          · dsimp only
            split
            · exact ih (hwrapper.of_eq rfl rfl rfl (Nat.le_succ _))
            · refine ⟨hwrapper.ctx, hwrapper.devList, fun handle hhandle => ?_⟩
              cases hhandle
              exact Nat.lt_succ_self _

theorem OnBus.deviceListLoop {devices : List Device} {devs : List DeviceEntry}
    (hwrapper : OnBus bus wrapper) :
    OnBus bus (deviceListLoop bus.usb devices devs wrapper).2 := by
  induction devices generalizing devs wrapper with
  | nil => exact hwrapper
  | cons device rest ih =>
      rw [Wrappers.deviceListLoop]
      split
      · exact ih hwrapper
      · split
        · exact ih hwrapper
        · split
          · exact ih hwrapper
          · split
            · exact ih (hwrapper.of_eq rfl rfl rfl (Nat.le_refl _))
            · exact ih (hwrapper.of_eq rfl rfl rfl (Nat.le_succ _))

theorem onBus_new {opened : ℕ} : OnBus bus (.new bus.usb opened) where
  ctx := by simp [USBWrapper.new, bus.init]
  devList := .inl rfl
  numbered _ hhandle := by cases hhandle

theorem onBus_step {call : UsbCall} {later : USBWrapper Device} (hwrapper : OnBus bus wrapper)
    (hstep : (usbWrapper bus.usb).step wrapper call = some later) : OnBus bus later := by
  obtain ⟨hlist, hlisting⟩ := hwrapper.listDevices
  cases call with
  | openUsb serial =>
      cases hstep
      unfold Wrappers.openUsb
      rw [← Prod.eta (Wrappers.listDevices bus.usb wrapper), hlist]
      dsimp only
      split
      · exact hlisting.openLoop.of_eq rfl rfl rfl (Nat.le_refl _)
      · exact hlisting.openLoop.of_eq rfl rfl rfl (Nat.le_refl _)
  | closeUsb =>
      cases hstep
      unfold Wrappers.closeUsb
      split
      · exact hwrapper
      · exact ⟨hwrapper.ctx, hwrapper.devList, fun _ hhandle => by cases hhandle⟩
  | deviceList devs =>
      cases hstep
      unfold Wrappers.deviceList
      rw [← Prod.eta (Wrappers.listDevices bus.usb wrapper), hlist]
      dsimp only
      split
      · exact hlisting.of_eq rfl rfl rfl (Nat.le_refl _)
      · exact hlisting.deviceListLoop

theorem onBus (hreach : (usbWrapper bus.usb).Reachable wrapper) : OnBus bus wrapper := by
  refine hreach.invariant ?_ fun _ _ _ _ hwrapper hstep => onBus_step hwrapper hstep
  rintro _ ⟨opened, rfl⟩
  exact onBus_new

end Wrapper

section FindDev

variable {bus : StableBus Device} {serial : Text} {device : Device}

/-- The entry that `DeviceList` makes of a device, if it makes one. -/
def entryOf (bus : StableBus Device) (device : Device) : Option DeviceEntry :=
  (candidate bus.usb device).map fun found =>
    { vendor := found.1.idVendor
      product := found.1.idProduct
      serial := (bus.serial device).text
      name := found.2
      bus := bus.usb.busNumber device
      port := bus.usb.portNumber device }

/-- A device whose serial number can be read has one. -/
theorem StableBus.iSerialNumber_ne (hdevice : device ∈ bus.devices) {desc : Descriptor}
    {name : Text} (hcandidate : candidate bus.usb device = some (desc, name)) :
    desc.iSerialNumber ≠ 0 := by
  intro hzero
  have hstring := bus.strings device hdevice desc name hcandidate
  simp [Libusb.stringDescriptor, hzero] at hstring

/-- It is what `DeviceList` appends. -/
theorem appended_eq_entryOf (hdevice : device ∈ bus.devices) :
    appended bus.usb device = entryOf bus device := by
  unfold appended entryOf
  cases hcandidate : candidate bus.usb device with
  | none => rfl
  | some found =>
      have hstring := bus.strings device hdevice found.1 found.2 hcandidate
      have hnul := bus.nulFree device hdevice (by simp [hcandidate])
      have hlength : (bus.serial device).text.length < 257 :=
        Nat.lt_of_le_of_lt (bus.serial device).length_le (by decide)
      rw [Option.bind_some, if_neg (bus.iSerialNumber_ne hdevice hcandidate), Option.map_some,
        Libusb.readString, hstring, contents_place_of_notMem hnul hlength]

/-- The entries are those of the devices, in order. -/
theorem deviceListLoop_entries {devs : List DeviceEntry} {wrapper : USBWrapper Device} :
    (deviceListLoop bus.usb bus.devices devs wrapper).1 =
      devs ++ bus.devices.filterMap (entryOf bus) := by
  rw [deviceListLoop_appended,
    List.filterMap_congr fun device hdevice => appended_eq_entryOf hdevice]

/-- `FindDev` looks through these entries. -/
theorem findDev_eq {opened : ℕ} :
    findDev bus.usb serial opened =
      ((bus.devices.filterMap (entryOf bus)).find? fun entry => entry.serial = serial).map
        fun entry => (entry.bus, entry.port) := by
  have hnew : OnBus bus (.new bus.usb opened) := onBus_new
  obtain ⟨hlist, -⟩ := hnew.listDevices
  have hentries (wrapper : USBWrapper Device) :
      (deviceListLoop bus.usb bus.devices [] wrapper).1 =
        bus.devices.filterMap (entryOf bus) := by
    rw [deviceListLoop_entries, List.nil_append]
  unfold findDev deviceList
  rw [← Prod.eta (listDevices bus.usb _), hlist]
  dsimp only
  by_cases hnil : bus.devices.length = 0
  · simp [List.length_eq_zero_iff.mp hnil]
  · rw [if_neg hnil, hentries]
    cases hfound : bus.devices.filterMap (entryOf bus) with
    | nil => simp
    | cons entry rest => simp

theorem entryOf_serial {entry : DeviceEntry} (hdevice : device ∈ bus.devices)
    (hentry : entryOf bus device = some entry) :
    HasSerial bus.usb entry.serial device ∧ entry.bus = bus.usb.busNumber device ∧
      entry.port = bus.usb.portNumber device := by
  obtain ⟨⟨desc, name⟩, hcandidate, rfl⟩ := Option.map_eq_some_iff.mp hentry
  have hstring := bus.strings device hdevice desc name hcandidate
  exact ⟨⟨desc, name, _, hcandidate, hstring, rfl⟩, rfl, rfl⟩

/-- A device that has a serial number has an entry with it. -/
theorem exists_entryOf (hdevice : device ∈ bus.devices)
    (hserial : HasSerial bus.usb serial device) :
    ∃ entry, entryOf bus device = some entry ∧ entry.serial = serial := by
  obtain ⟨desc, name, string, hcandidate, hstring, rfl⟩ := hserial
  have hsame := bus.strings device hdevice desc name hcandidate
  rw [hstring, Option.some.injEq] at hsame
  exact ⟨_, by rw [entryOf, hcandidate]; rfl, by rw [hsame]⟩

/-- It reports where a device with the serial number is. -/
theorem of_findDev_eq_some {opened busNumber portNumber : ℕ}
    (hfound : findDev bus.usb serial opened = some (busNumber, portNumber)) :
    ∃ device ∈ bus.devices, HasSerial bus.usb serial device ∧
      bus.usb.busNumber device = busNumber ∧ bus.usb.portNumber device = portNumber := by
  rw [findDev_eq] at hfound
  obtain ⟨entry, hentry, hplace⟩ := Option.map_eq_some_iff.mp hfound
  have hserial : entry.serial = serial := by simpa using List.find?_some hentry
  obtain ⟨device, hdevice, hof⟩ := List.mem_filterMap.mp (List.mem_of_find?_eq_some hentry)
  obtain ⟨hhas, hbus, hport⟩ := entryOf_serial hdevice hof
  obtain ⟨rfl, rfl⟩ := Prod.mk.inj hplace
  exact ⟨device, hdevice, hserial ▸ hhas, hbus.symm, hport.symm⟩

/-- It reports nothing only if no device has it. -/
theorem of_findDev_eq_none {opened : ℕ} (hnone : findDev bus.usb serial opened = none)
    (hdevice : device ∈ bus.devices) : ¬ HasSerial bus.usb serial device := by
  intro hserial
  rw [findDev_eq, Option.map_eq_none_iff, List.find?_eq_none] at hnone
  obtain ⟨entry, hentry, hsame⟩ := exists_entryOf hdevice hserial
  have hmem := List.mem_filterMap.mpr ⟨device, hdevice, hentry⟩
  exact hnone entry hmem (by simpa using hsame)

end FindDev

section Agreement

variable {bus : StableBus Device} {serial : Text} {wrapper : USBWrapper Device}
  {device other : Device}

/-- One device has the serial number. -/
theorem HasSerial.unique (hdevice : device ∈ bus.devices) (hother : other ∈ bus.devices)
    (hserial : HasSerial bus.usb serial device) (hsame : HasSerial bus.usb serial other) :
    device = other := by
  obtain ⟨desc, name, string, hcandidate, hstring, htext⟩ := hserial
  obtain ⟨desc', name', string', hcandidate', hstring', htext'⟩ := hsame
  rw [bus.strings device hdevice desc name hcandidate, Option.some.injEq] at hstring
  rw [bus.strings other hother desc' name' hcandidate', Option.some.injEq] at hstring'
  apply bus.distinct device hdevice other hother (by simp [hcandidate]) (by simp [hcandidate'])
  rw [hstring, hstring', htext, htext']

/-- The first device that passes is selected. -/
theorem OnBus.selected {prior : List Device} (hwrapper : OnBus bus wrapper)
    (hfirst : FirstAccepted (PassesCompare bus.usb serial) bus.devices prior device) :
    Selected bus.usb device wrapper (openUsb bus.usb serial wrapper).2 := by
  rcases openUsb_cases bus.usb serial wrapper with
    ⟨hnil, -, -⟩ | ⟨-, -, listing, hlisting, hopened⟩
  · rw [hwrapper.listedDevices] at hnil
    have hmem : device ∈ bus.devices := hfirst.here.subset (by simp)
    simp [hnil] at hmem
  · rw [hopened, hwrapper.listedDevices]
    exact .of_unselected hlisting (selected_of_first hfirst).claimDevice

/-- Nothing else is. -/
theorem OnBus.exists_first (hwrapper : OnBus bus wrapper)
    (hselected : Selected bus.usb device wrapper (openUsb bus.usb serial wrapper).2) :
    ∃ prior, FirstAccepted (PassesCompare bus.usb serial) bus.devices prior device := by
  obtain ⟨⟨number, hnew, -, hhandle⟩, hremembered, -⟩ := hselected
  have hold : (openUsb bus.usb serial wrapper).2.handle ≠ wrapper.handle := by
    intro hsame
    rw [hhandle] at hsame
    exact Nat.not_lt.mpr hnew (hwrapper.numbered _ hsame.symm)
  rcases openUsb_cases bus.usb serial wrapper with
    ⟨-, -, hkept⟩ | ⟨-, -, listing, hlisting, hopened⟩
  · exact absurd hkept hold
  · rcases noneAccepted_or_exists_first (PassesCompare bus.usb serial) bus.devices with
      hnone | ⟨prior, first, hfirst⟩
    · have hunselected : Unselected listing _ := unselected_of_noneAccepted hnone
      rw [hopened, hwrapper.listedDevices] at hold
      exact absurd (hunselected.handle.trans hlisting.handle) hold
    · have hsame := (hwrapper.selected hfirst).remembered.symm.trans hremembered
      obtain rfl := Option.some.inj hsame
      exact ⟨prior, hfirst⟩

/-- Where a device has the serial number, some device passes first. -/
theorem exists_first_of_hasSerial (hdevice : device ∈ bus.devices)
    (hserial : HasSerial bus.usb serial device) :
    ∃ prior first, FirstAccepted (PassesCompare bus.usb serial) bus.devices prior first := by
  rcases noneAccepted_or_exists_first (PassesCompare bus.usb serial) bus.devices with
    hnone | hexists
  · obtain ⟨prior, rest, hsplit⟩ := List.append_of_mem hdevice
    exact absurd hserial.passes (hnone prior device ⟨rest, by simp [hsplit]⟩)
  · exact hexists

/-- `FindDev` and `Open` find the same device exactly when the first one that `Open` takes is at the
place of the right one. -/
theorem lookupAgrees_iff (hreach : (usbWrapper bus.usb).Reachable wrapper) :
    LookupAgrees bus.usb serial wrapper ↔ FirstIsRight bus serial := by
  have hwrapper := onBus hreach
  constructor
  · intro hagrees prior device hfirst
    have hselected := hwrapper.selected hfirst
    cases hfind : findDev bus.usb serial 0 with
    | none => exact absurd hselected (hagrees.missing 0 hfind device)
    | some place =>
        obtain ⟨found, hfound, hbus, hport⟩ := hagrees.found 0 place.1 place.2 hfind
        have hsame := hfound.remembered.symm.trans hselected.remembered
        obtain rfl := Option.some.inj hsame
        obtain ⟨other, hother, hserial, hbus', hport'⟩ := of_findDev_eq_some hfind
        exact ⟨other, hother, hserial, hbus.trans hbus'.symm, hport.trans hport'.symm⟩
  · intro hright
    refine ⟨fun opened busNumber portNumber hfind => ?_, fun opened hfind device hselected => ?_⟩
    · obtain ⟨device, hdevice, hserial, hbus, hport⟩ := of_findDev_eq_some hfind
      obtain ⟨prior, first, hfirst⟩ := exists_first_of_hasSerial hdevice hserial
      obtain ⟨other, hother, hsame, hbus', hport'⟩ := hright prior first hfirst
      obtain rfl := hserial.unique hdevice hother hsame
      exact ⟨first, hwrapper.selected hfirst, hbus'.trans hbus, hport'.trans hport⟩
    · obtain ⟨prior, hfirst⟩ := hwrapper.exists_first hselected
      obtain ⟨other, hother, hserial, -⟩ := hright prior device hfirst
      exact of_findDev_eq_none hfind hother hserial

/-- For a serial number without NUL, the devices that pass are those whose own serial number
begins with it. -/
theorem passesCompare_iff_begins {prior : List Device} (hdevice : device ∈ bus.devices)
    (hnul : '\x00' ∉ serial) :
    PassesCompare bus.usb serial prior device ↔
      (candidate bus.usb device).isSome = true ∧ serial <+: (bus.serial device).text := by
  rw [PassesCompare, bufferAfter_append_singleton, bufferStep]
  cases hcandidate : candidate bus.usb device with
  | none => simp
  | some found =>
      have hstring := bus.strings device hdevice found.1 found.2 hcandidate
      simp only [Libusb.readString, hstring, shows_place_iff hnul]

/-- Two recorders on one bus, whose serial numbers are as given. -/
def twoRecorders (first second : DeviceString) (hfirst : '\x00' ∉ first.text)
    (hsecond : '\x00' ∉ second.text) (hdistinct : first.text ≠ second.text) :
    StableBus Bool where
  usb :=
    { init := 0
      deviceList := .ok [false, true]
      descriptor := fun _ => some ⟨0x2040, 0xe505, 3⟩
      opens := fun _ => true
      string := fun device => some (if device then second else first)
      busNumber := fun _ => 1
      portNumber := fun device => if device then 2 else 1
      strDesc := fun _ => '\x00'
      strDescFor := fun _ _ => '\x00'
      resetDevice := 0
      kernelDriverActive := 0
      detachKernelDriver := 0
      claimInterface := 0 }
  devices := [false, true]
  serial device := if device then second else first
  init := Int.le_refl 0
  listed := rfl
  strings device _ desc name hcandidate := by
    cases hcandidate
    rfl
  nulFree device _ _ := by cases device <;> assumption
  distinct device _ other _ _ _ hsame := by
    cases device <;> cases other <;> simp_all

/-- Serial numbers neither of which begins with the other. -/
def unlikeRecorders : StableBus Bool :=
  twoRecorders ⟨text "E505-00-00AF1111", by decide⟩ ⟨text "E505-00-00AF4321", by decide⟩
    (by decide) (by decide) (by decide)

theorem lookupAgrees_unlike :
    LookupAgrees unlikeRecorders.usb (text "E505-00-00AF4321") (.new unlikeRecorders.usb 0) := by
  refine (lookupAgrees_iff (.start ⟨0, rfl⟩)).mpr ?_
  intro prior device hfirst
  have hbegins : prior ++ [device] <+: [false, true] := hfirst.here
  have hmem : device ∈ [false, true] := hbegins.subset (by simp)
  have hpasses := (passesCompare_iff_begins hmem (by decide)).mp hfirst.accepted
  cases device with
  | false => exact absurd hpasses.2 (by decide)
  | true => exact ⟨true, hmem, ⟨_, _, _, rfl, rfl, rfl⟩, rfl, rfl⟩

/-- The first serial number begins with the second. -/
def nestedRecorders : StableBus Bool :=
  twoRecorders ⟨text "E505-00-00AF4321", by decide⟩ ⟨text "E505-00-00AF43", by decide⟩
    (by decide) (by decide) (by decide)

theorem not_lookupAgrees :
    ¬ LookupAgrees nestedRecorders.usb (text "E505-00-00AF43") (.new nestedRecorders.usb 0) := by
  intro hagrees
  obtain ⟨device, hselected, -, hport⟩ := hagrees.found 0 1 2 (by decide)
  have hremembered : some false = some device := hselected.remembered
  cases hremembered
  exact absurd hport (by decide)

end Agreement

end HauppaugeUSB.Wrappers
