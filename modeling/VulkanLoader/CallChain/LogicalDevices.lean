import VulkanLoader.Base
import VulkanLoader.Lib.Chains

/-!
# The lists of logical devices (`loader.c`)

A `vkCreateDevice` makes a `loader_device`, which `terminator_CreateDevice` links into the list of its driver and the end
of the call unlinks if the chain of layers failed.  Layers run in between, and what they call comes in any order.  The
devices that the application hands in later are looked up in the lists of all instances.

`none` is undefined behaviour or a walk that does not end.
-/

namespace VulkanLoader

open Lib (Heap)

/-- `struct loader_device`, as far as the lists need it. -/
structure LogicalDevice where
  chainDevice : Handle
  icdDevice : Handle
  next : ℕ
  deriving DecidableEq

/-- A call of `loader_layer_create_device` whose chain of layers runs: its device, its instance, and whether
`terminator_CreateDevice` succeeded. -/
structure DeviceCreation where
  dev : ℕ
  inst : ℕ
  terminated : Bool
  deriving DecidableEq

/-- The drivers of all instances, in the order in which they are searched, with the instance and the
`logical_device_list` of each; the devices, the calls that make one, those that destroy the one they found, the devices
that were made without a terminator, and the log of what was allocated. -/
structure LogicalDevices where
  icdTerms : List ℕ
  thisInstance : ℕ → ℕ
  logicalDeviceList : ℕ → ℕ
  devices : Heap LogicalDevice
  creations : List DeviceCreation
  destructions : List (ℕ × ℕ)
  unlisted : List ℕ
  allocated : List ℕ

namespace LogicalDevices

/-- No driver and no device. -/
def start : LogicalDevices := ⟨[], fun _ => 0, fun _ => 0, .empty, [], [], [], []⟩

/-! ### Looking a device up -/

/-- The device has this dispatch table, by its object of the driver or by that of the chain. -/
def hasTable (getDispatch : Handle → ℕ) (table : ℕ) (d : LogicalDevice) : Bool :=
  getDispatch d.icdDevice = table || (d.chainDevice ≠ nullHandle && getDispatch d.chainDevice = table)

/-- The walk of `loader_get_icd_and_device` through the devices of a driver. -/
def findDevice (p : LogicalDevice → Bool) (devices : Heap LogicalDevice) : ℕ → ℕ → Option (Option ℕ)
  | 0, _ => none
  | fuel + 1, dev =>
    if dev = 0 then some none
    else (devices.get dev).bind fun d => if p d then some (some dev) else findDevice p devices fuel d.next

/-- The walk of `loader_get_icd_and_device` through the drivers. -/
def findIcdAndDevice (p : LogicalDevice → Bool) (s : LogicalDevices) : List ℕ → Option (Option (ℕ × ℕ))
  | [] => some none
  | icdTerm :: icdTerms =>
    (findDevice p s.devices (s.devices.bound + 1) (s.logicalDeviceList icdTerm)).bind fun
    | some dev => some (some (icdTerm, dev))
    | none => findIcdAndDevice p s icdTerms

/-- `loader_get_icd_and_device`, of an object with this dispatch table; a table is named by its device. -/
def loaderGetIcdAndDevice (getDispatch : Handle → ℕ) (table : ℕ) (s : LogicalDevices) : Option (Option (ℕ × ℕ)) :=
  if table = 0 then some none else findIcdAndDevice (hasTable getDispatch table) s s.icdTerms

/-! ### Unlinking a device -/

/-- The walk to a device through a list: what is before it, and whether it is there. -/
def walkTo (devices : Heap LogicalDevice) (foundDev : ℕ) : ℕ → ℕ → ℕ → Option (ℕ × Bool)
  | 0, _, _ => none
  | fuel + 1, prevDev, dev =>
    if dev = 0 then some (prevDev, false)
    else if dev = foundDev then some (prevDev, true)
    else (devices.get dev).bind fun d => walkTo devices foundDev fuel dev d.next

/-- The device is unlinked and destroyed. -/
def unlink (icdTerm prevDev foundDev : ℕ) (s : LogicalDevices) : Option LogicalDevices := do
  let found ← s.devices.get foundDev
  let s ← if prevDev ≠ 0 then do
      let prev ← s.devices.get prevDev
      let devices ← s.devices.put prevDev { prev with next := found.next }
      some { s with devices }
    else some { s with logicalDeviceList := Function.update s.logicalDeviceList icdTerm found.next }
  let devices ← s.devices.free foundDev
  some { s with devices }

/-- `loader_remove_logical_device`. -/
def loaderRemoveLogicalDevice (icdTerm foundDev : ℕ) (s : LogicalDevices) : Option LogicalDevices :=
  (walkTo s.devices foundDev (s.devices.bound + 1) 0 (s.logicalDeviceList icdTerm)).bind fun r =>
    s.unlink icdTerm r.1 foundDev

/-- The failure path of `loader_layer_create_device`, over the drivers of its instance. -/
def removeFailedDevice (dev : ℕ) (s : LogicalDevices) : List ℕ → Option LogicalDevices
  | [] => (s.devices.free dev).map fun devices => { s with devices }
  | icdTerm :: icdTerms =>
    (walkTo s.devices dev (s.devices.bound + 1) 0 (s.logicalDeviceList icdTerm)).bind fun
    | (prevDev, true) => s.unlink icdTerm prevDev dev
    | (_, false) => removeFailedDevice dev s icdTerms

/-! ### The calls -/

/-- `loader_icd_add`, for a driver of an instance that is searched after `n` others. -/
def loaderIcdAdd (icdTerm inst n : ℕ) (s : LogicalDevices) : LogicalDevices :=
  { s with
    icdTerms := s.icdTerms.take n ++ icdTerm :: s.icdTerms.drop n
    thisInstance := Function.update s.thisInstance icdTerm inst
    logicalDeviceList := Function.update s.logicalDeviceList icdTerm 0 }

/-- `loader_layer_create_device` up to its chain; the allocator would put the device at `wish`. -/
def beginCreate (inst wish : ℕ) (s : LogicalDevices) : LogicalDevices :=
  { s with
    devices := s.devices.alloc wish ⟨nullHandle, nullHandle, 0⟩
    creations := ⟨s.devices.place wish, inst, false⟩ :: s.creations
    allocated := s.allocated ++ [s.devices.place wish] }

/-- `terminator_CreateDevice`, where the driver makes an object. -/
def terminate (icdTerm dev : ℕ) (icdDevice : Handle) (s : LogicalDevices) : Option LogicalDevices := do
  let d ← s.devices.get dev
  let devices ← s.devices.put dev { d with icdDevice, next := s.logicalDeviceList icdTerm }
  some { s with
    devices
    logicalDeviceList := Function.update s.logicalDeviceList icdTerm dev
    creations := s.creations.map fun c => if c.dev = dev then { c with terminated := true } else c }

/-- `loader_layer_create_device` from the end of its chain on: the object that the chain made, or none if it failed. -/
def endCreate (creation : DeviceCreation) (chainDevice : Option Handle) (s : LogicalDevices) : Option LogicalDevices :=
  let s := { s with creations := s.creations.erase creation }
  match chainDevice with
  | some chainDevice => do
    let d ← s.devices.get creation.dev
    let devices ← s.devices.put creation.dev { d with chainDevice }
    some { s with devices, unlisted := if creation.terminated then s.unlisted else creation.dev :: s.unlisted }
  | none => s.removeFailedDevice creation.dev (s.icdTerms.filter fun icdTerm => s.thisInstance icdTerm = creation.inst)

/-- `loader_layer_destroy_device` up to the call of the chain. -/
def beginDestroy (getDispatch : Handle → ℕ) (table : ℕ) (s : LogicalDevices) : Option LogicalDevices :=
  (s.loaderGetIcdAndDevice getDispatch table).map fun found =>
    { s with destructions := found.toList ++ s.destructions }

/-- `loader_layer_destroy_device` after the call of the chain, with what it found. -/
def endDestroy (found : ℕ × ℕ) (s : LogicalDevices) : Option LogicalDevices :=
  { s with destructions := s.destructions.erase found }.loaderRemoveLogicalDevice found.1 found.2

/-- The loop of `loader_icd_destroy` over the devices. -/
def destroyDevices : ℕ → ℕ → Heap LogicalDevice → Option (Heap LogicalDevice)
  | 0, _, _ => none
  | fuel + 1, dev, devices =>
    if dev = 0 then some devices
    else
      (devices.get dev).bind fun d => (devices.free dev).bind fun devices => destroyDevices fuel d.next devices

/-- `loader_icd_destroy`, of a driver that is taken out of the list of its instance. -/
def loaderIcdDestroy (icdTerm : ℕ) (s : LogicalDevices) : Option LogicalDevices :=
  (destroyDevices (s.devices.bound + 1) (s.logicalDeviceList icdTerm) s.devices).map fun devices =>
    { s with devices, icdTerms := s.icdTerms.erase icdTerm }

end LogicalDevices

/-- What happens to the lists.  A driver or a layer says what the dispatch tables of its objects are. -/
inductive DeviceStep where
  | addIcd (icdTerm inst n : ℕ)
  | beginCreate (inst wish : ℕ)
  | terminate (icdTerm dev : ℕ) (icdDevice : Handle)
  | endCreate (creation : DeviceCreation) (chainDevice : Option Handle)
  | beginDestroy (getDispatch : Handle → ℕ) (table : ℕ)
  | endDestroy (found : ℕ × ℕ)
  | destroyIcd (icdTerm : ℕ)

namespace LogicalDevices

/-- A step. -/
def step (s : LogicalDevices) : DeviceStep → Option LogicalDevices
  | .addIcd icdTerm inst n => some (s.loaderIcdAdd icdTerm inst n)
  | .beginCreate inst wish => some (s.beginCreate inst wish)
  | .terminate icdTerm dev icdDevice => s.terminate icdTerm dev icdDevice
  | .endCreate creation chainDevice => s.endCreate creation chainDevice
  | .beginDestroy getDispatch table => s.beginDestroy getDispatch table
  | .endDestroy found => s.endDestroy found
  | .destroyIcd icdTerm => s.loaderIcdDestroy icdTerm

/-- A run. -/
def runSteps : List DeviceStep → LogicalDevices → Option LogicalDevices
  | [], s => some s
  | call :: calls, s => (s.step call).bind (runSteps calls)

end LogicalDevices

end VulkanLoader
