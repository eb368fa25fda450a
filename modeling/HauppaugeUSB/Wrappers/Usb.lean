/-
# Finding a device

`USBWrapper_t` lists the devices on the bus, once, and looks through the list for those
that `DevName` accepts. `DeviceList` reports them, `Open` opens the one with a serial
number and keeps its handle, and `FindDev` looks for a serial number in what `DeviceList`
has reported.

Devices are of any type; libusb is a record of what it replies about each of them during
a call. A handle remembers the device it is for and how many had been given out before it.
-/

import HauppaugeUSB.Commands.Request
import HauppaugeUSB.Streams.Buffers

namespace HauppaugeUSB.Wrappers

open HauppaugeUSB.Commands HauppaugeUSB.Streams

/-- The fields of `libusb_device_descriptor` that are read. -/
structure Descriptor where
  idVendor : ℕ
  idProduct : ℕ
  iSerialNumber : ℕ
  deriving DecidableEq

/-- A string that a device has: a string descriptor has room for 126 characters. -/
structure DeviceString where
  text : Text
  length_le : text.length ≤ 126

/-- A `libusb_device_handle`. -/
structure Handle (Device : Type*) where
  device : Device
  number : ℕ
  deriving DecidableEq

/-- What libusb replies. -/
structure Libusb (Device : Type*) where
  /-- `libusb_init`. -/
  init : ℤ
  /-- `libusb_get_device_list`: the devices, or a negative number. -/
  deviceList : Except ℤ (List Device)
  /-- `libusb_get_device_descriptor`, which may fail. -/
  descriptor : Device → Option Descriptor
  /-- `libusb_open` succeeds. -/
  opens : Device → Bool
  /-- The string that the serial number index refers to can be read. -/
  string : Device → Option DeviceString
  busNumber : Device → ℕ
  portNumber : Device → ℕ
  /-- What is in the `strDesc` of `Open` before anything is read into it. -/
  strDesc : ℕ → Char
  /-- The same for `DeviceList`, which has a new one for each device. -/
  strDescFor : Device → ℕ → Char
  resetDevice : ℤ
  kernelDriverActive : ℤ
  detachKernelDriver : ℤ
  claimInterface : ℤ

/-- `LIBUSB_ERROR_NOT_FOUND`. -/
def libusbErrorNotFound : ℤ := -5

variable {Device : Type*}

/-- `libusb_get_string_descriptor_ascii`: there is no string with index zero. -/
def Libusb.stringDescriptor (usb : Libusb Device) (device : Device) (index : ℕ) :
    Option DeviceString :=
  if index = 0 then none else usb.string device

/-- The buffer after such a call. -/
def Libusb.readString (usb : Libusb Device) (device : Device) (index : ℕ) (buffer : ℕ → Char) :
    ℕ → Char :=
  match usb.stringDescriptor device index with
  | none => buffer
  | some string => place '\x00' string.text buffer

/-- A call to libusb about a handle. -/
inductive HandleCall (Device : Type*)
  | openDevice (handle : Handle Device)
  | close (handle : Handle Device)
  | resetDevice (handle : Option (Handle Device))
  | kernelDriverActive (handle : Option (Handle Device))
  | detachKernelDriver (handle : Option (Handle Device))
  | claimInterface (handle : Option (Handle Device))
  | releaseInterface (handle : Handle Device)
  deriving DecidableEq

/-- A `USBWrapper_t`, with the handles that have been given out and the calls about them. -/
structure USBWrapper (Device : Type*) where
  /-- `m_ctx` is not null. -/
  ctx : Bool
  /-- `m_dev_list` and `m_dev_cnt`. -/
  devList : Option (List Device)
  device : Option Device
  desc : Descriptor
  name : Text
  handle : Option (Handle Device)
  errmsg : Text
  opened : ℕ
  calls : List (HandleCall Device)

namespace USBWrapper

def say (wrapper : USBWrapper Device) (message : Text) : USBWrapper Device :=
  { wrapper with errmsg := wrapper.errmsg ++ message }

def call (wrapper : USBWrapper Device) (call : HandleCall Device) : USBWrapper Device :=
  { wrapper with calls := wrapper.calls ++ [call] }

/-- The handle of the next successful `libusb_open`. -/
def nextHandle (wrapper : USBWrapper Device) (device : Device) : Handle Device :=
  ⟨device, wrapper.opened⟩

/-- A successful `libusb_open`. -/
def opening (wrapper : USBWrapper Device) (device : Device) : USBWrapper Device :=
  { wrapper.call (.openDevice (wrapper.nextHandle device)) with opened := wrapper.opened + 1 }

end USBWrapper

/-- `USBWrapper_t::USBWrapper_t`, where `opened` handles have been given out. -/
def USBWrapper.new (usb : Libusb Device) (opened : ℕ) : USBWrapper Device where
  ctx := 0 ≤ usb.init
  devList := none
  device := none
  desc := ⟨0, 0, 0⟩
  name := []
  handle := none
  errmsg :=
    if usb.init < 0 then
      text "Failed to initialize libusb: " ++ (toString usb.init).toList ++ ['\n']
    else []
  opened := opened
  calls := []

/-- `USBWrapper_t::DevName`. -/
def devName (desc : Descriptor) : Option Text :=
  if desc.idVendor ≠ 0x2040 then none
  else if desc.idProduct = 0xe504 then
    some (text "HD PVR 2 Gaming Edition Plus w/SPDIF (Siena2-02)")
  else if desc.idProduct = 0xe505 then
    some (text "HD PVR 2 Gaming Edition Plus w/SPDIF w/MIC (Siena2-05a)")
  else if desc.idProduct = 0xe524 then some (text "HD PVR 2 Gaming Edition (Siena2-02)")
  else if desc.idProduct = 0xe514 then
    some (text "HD PVR 2 model 1512 w/SPDIF, Alt bling (Siena2-02)")
  else if desc.idProduct = 0xe515 then
    some (text "HD PVR 2 model 1512 w/SPDIF w/MIC Alt blink (Siena2-05a)")
  else if desc.idProduct = 0xe524 then some (text "HD PVR 2 (unknown version) (Siena2-02)")
  else if desc.idProduct = 0xe525 then some (text "HD PVR 2 Gaming Edition w/MIC (Siena2-05a)")
  else if desc.idProduct = 0xe52c then some (text "HD PVR 2 StreamEez (Siena2)")
  else if desc.idProduct = 0xe554 then
    some (text "HD PVR 2 Gaming Edition Plus w/SPDIF, Blue LEDs (Siena2-02)")
  else if desc.idProduct = 0xe585 then some (text "Colossus 2")
  else if 0xe500 ≤ desc.idProduct ∧ desc.idProduct < 0xeffff then
    some (text "Guessing it is a HD-PVR, but version unknown")
  else none

/-- The start of `Open` and of `DeviceList`: the devices, unless there is no list of them. -/
def listDevices (usb : Libusb Device) (wrapper : USBWrapper Device) :
    Option (List Device) × USBWrapper Device :=
  if wrapper.ctx = false then (none, wrapper.say (text "libusb not initialized.\n"))
  else
    match wrapper.devList with
    | some devices => (some devices, wrapper)
    | none =>
        match usb.deviceList with
        | .ok devices => (some devices, { wrapper with devList := some devices })
        | .error cnt =>
            (none, wrapper.say
              (text "Failed to find any usb devices: " ++ (toString cnt).toList ++ ['\n']))

/-- The loop of `Open`. -/
def openLoop (usb : Libusb Device) (serial : Text) :
    List Device → (ℕ → Char) → USBWrapper Device → USBWrapper Device
  | [], _, wrapper => wrapper
  | device :: rest, buffer, wrapper =>
      match usb.descriptor device with
      | none =>
          openLoop usb serial rest buffer
            (wrapper.say (text "Failed to get USB description for dev.\n"))
      | some desc =>
          match devName desc with
          | none => openLoop usb serial rest buffer wrapper
          | some name =>
              if usb.opens device = false then
                openLoop usb serial rest buffer (wrapper.say (text "Failed to open dev."))
              else
                let handle := wrapper.nextHandle device
                let read := usb.readString device desc.iSerialNumber buffer
                if ¬ Shows read serial then
                  openLoop usb serial rest read ((wrapper.opening device).call (.close handle))
                else
                  { wrapper.opening device with
                    handle := some handle
                    device := some device
                    desc := desc
                    name := name }

/-- The calls that `Open` makes about its handle after the loop. -/
def claimCalls (usb : Libusb Device) (handle : Option (Handle Device)) :
    List (HandleCall Device) :=
  [.resetDevice handle, .kernelDriverActive handle] ++
    (if usb.kernelDriverActive = 1 then [.detachKernelDriver handle] else []) ++
    [.claimInterface handle]

/-- What it says of those that fail. -/
def claimMessages (usb : Libusb Device) : Text :=
  (if usb.resetDevice = 0 then []
    else if usb.resetDevice = libusbErrorNotFound then text "Device needs re-opened!\n"
    else text "Reset failed.\n") ++
  (if usb.kernelDriverActive = 1 ∧ usb.detachKernelDriver < 0 then
    text "Failed to detach driver from kernel.\n"
  else []) ++
  (if usb.claimInterface < 0 then text "Failed to claim interface.\n" else [])

/-- What `Open` does after the loop. -/
def claimDevice (usb : Libusb Device) (wrapper : USBWrapper Device) : USBWrapper Device :=
  { wrapper with
    errmsg := wrapper.errmsg ++ claimMessages usb
    calls := wrapper.calls ++ claimCalls usb wrapper.handle }

/-- `USBWrapper_t::Open`. The loop has an index of its own, so that the one that is tested
after it is still zero. -/
def openUsb (usb : Libusb Device) (serial : Text) (wrapper : USBWrapper Device) :
    Bool × USBWrapper Device :=
  match listDevices usb wrapper with
  | (none, wrapper) => (false, wrapper)
  | (some devices, wrapper) =>
      let idx := 0
      let wrapper := openLoop usb serial devices usb.strDesc wrapper
      if idx = devices.length then
        (false, wrapper.say (text "Unable to find serial " ++ serial ++ text " in USB dev list.\n"))
      else (true, claimDevice usb wrapper)

/-- `USBWrapper_t::Close`. -/
def closeUsb (wrapper : USBWrapper Device) : USBWrapper Device :=
  match wrapper.handle with
  | none => wrapper
  | some handle =>
      { (wrapper.call (.releaseInterface handle)).call (.close handle) with handle := none }

/-- An entry of `DeviceIDVec`. -/
structure DeviceEntry where
  vendor : ℕ
  product : ℕ
  serial : Text
  name : Text
  bus : ℕ
  port : ℕ
  deriving DecidableEq

/-- The loop of `DeviceList`. -/
def deviceListLoop (usb : Libusb Device) :
    List Device → List DeviceEntry → USBWrapper Device → List DeviceEntry × USBWrapper Device
  | [], devs, wrapper => (devs, wrapper)
  | device :: rest, devs, wrapper =>
      match usb.descriptor device with
      | none => deviceListLoop usb rest devs wrapper
      | some desc =>
          match devName desc with
          | none => deviceListLoop usb rest devs wrapper
          | some name =>
              if desc.iSerialNumber = 0 then deviceListLoop usb rest devs wrapper
              else if usb.opens device = false then
                deviceListLoop usb rest devs (wrapper.say (text "Failed to open dev.\n"))
              else
                let read :=
                  usb.readString device desc.iSerialNumber (usb.strDescFor device)
                let entry : DeviceEntry :=
                  { vendor := desc.idVendor
                    product := desc.idProduct
                    serial := contents '\x00' 257 read
                    name := name
                    bus := usb.busNumber device
                    port := usb.portNumber device }
                deviceListLoop usb rest (devs ++ [entry])
                  ((wrapper.opening device).call (.close (wrapper.nextHandle device)))

/-- `USBWrapper_t::DeviceList`, which appends to a list of entries. -/
def deviceList (usb : Libusb Device) (devs : List DeviceEntry) (wrapper : USBWrapper Device) :
    Bool × List DeviceEntry × USBWrapper Device :=
  match listDevices usb wrapper with
  | (none, wrapper) => (false, devs, wrapper)
  | (some devices, wrapper) =>
      if devices.length = 0 then (false, devs, wrapper.say (text "No USB devices found.\n"))
      else
        let (devs, wrapper) := deviceListLoop usb devices devs wrapper
        (!devs.isEmpty, devs, wrapper)

/-- `FindDev`: the bus and the port that it reports. -/
def findDev (usb : Libusb Device) (serial : Text) (opened : ℕ) : Option (ℕ × ℕ) :=
  let found := deviceList usb [] (.new usb opened)
  if found.1 = false then none
  else (found.2.1.find? fun entry => entry.serial = serial).map fun entry => (entry.bus, entry.port)

end HauppaugeUSB.Wrappers
