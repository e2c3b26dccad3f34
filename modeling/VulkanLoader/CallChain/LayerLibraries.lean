import VulkanLoader.Base
import Mathlib.Logic.Function.Basic

/-!
# Layer libraries

What activating a layer knows of its library: the names that the manifest gives its functions, the pointers that were
found or negotiated, and what the platform and the library answer.
-/

namespace VulkanLoader

/-- A function pointer that is not `NULL`. -/
abbrev Pfn := ℕ

/-- `loader_gpa_instance_terminator`. -/
def loaderGpaInstanceTerminator : Pfn := 0

/-- `loader_gpa_device_terminator`. -/
def loaderGpaDeviceTerminator : Pfn := 1

/-- `loader_gpdpa_instance_terminator`. -/
def loaderGpdpaInstanceTerminator : Pfn := 2

/-- `enum loader_layer_library_status`. -/
inductive LayerLibraryStatus where
  | notLoaded
  | successLoaded
  | errorWrongBitType
  | errorFailedToLoad
  | errorOutOfMemory
  deriving DecidableEq

/-- `struct loader_layer_functions`. -/
structure LayerFunctions where
  strGipa : Option String
  strGdpa : Option String
  strNegotiateInterface : Option String
  negotiateLayerInterface : Option Pfn
  getInstanceProcAddr : Option Pfn
  getDeviceProcAddr : Option Pfn
  getPhysicalDeviceProcAddr : Option Pfn
  deriving DecidableEq

/-- The part of `struct loader_layer_properties` that the call chains read and write. -/
structure LayerRecord where
  layerName : String
  interfaceVersion : ℕ
  libName : String
  libStatus : LayerLibraryStatus
  libHandle : Option Handle
  functions : LayerFunctions
  deriving DecidableEq

/-- What a manifest says about the library of its layer. -/
structure LayerManifest where
  layerName : String
  libName : String
  strGipa : Option String
  strGdpa : Option String
  strNegotiateInterface : Option String

/-- The record that a manifest is read into: everything that the manifest does not say is zero. -/
def LayerManifest.record (m : LayerManifest) : LayerRecord where
  layerName := m.layerName
  interfaceVersion := 0
  libName := m.libName
  libStatus := .notLoaded
  libHandle := none
  functions := ⟨m.strGipa, m.strGdpa, m.strNegotiateInterface, none, none, none, none⟩

/-- The name of a function: the one that the manifest gives, unless that is absent or empty. -/
def functionName (str : Option String) (default : String) : String :=
  match str with
  | none => default
  | some s => if s.isEmpty then default else s

/-- The manifest does not name the function. -/
def isUnnamed (str : Option String) : Bool :=
  match str with
  | none => true
  | some s => s.isEmpty

/-- `VkNegotiateLayerInterface`, as the layer leaves it. -/
structure NegotiateLayerInterface where
  loaderLayerInterfaceVersion : ℕ
  pfnGetInstanceProcAddr : Option Pfn
  pfnGetDeviceProcAddr : Option Pfn
  pfnGetPhysicalDeviceProcAddr : Option Pfn

/-- The answers of the platform and of the libraries.  Opening a library can end differently each time, so it is told
apart by the number of entries of the layer list that come after the one the library is opened for; the handle is that
of the library.  `minSupportedVersion` is `MIN_SUPPORTED_LOADER_LAYER_INTERFACE_VERSION`. -/
structure LayerLibraries where
  openLibrary : ℕ → String → LayerLibraryStatus
  handle : String → Handle
  getProcAddress : Handle → String → Option Pfn
  negotiate : Pfn → VkResult × NegotiateLayerInterface
  minSupportedVersion : ℕ
  fixupLibraryBinaryPath : String → Option Pfn → VkResult × String

namespace LayerLibraries

/-- `loader_open_layer_file`. -/
def openLayerFile (lib : LayerLibraries) (attempt : ℕ) (prop : LayerRecord) : LayerRecord :=
  let status := lib.openLibrary attempt prop.libName
  { prop with
    libStatus := status
    libHandle := if status = .successLoaded then some (lib.handle prop.libName) else none }

/-- `loader_get_layer_interface_version`, with the structure that it fills. -/
def loaderGetLayerInterfaceVersion (lib : LayerLibraries) (fpNegotiate : Pfn) : Option NegotiateLayerInterface :=
  let (result, interface) := lib.negotiate fpNegotiate
  if result ≠ .success then none
  else if interface.loaderLayerInterfaceVersion < lib.minSupportedVersion then none
  else some interface

end LayerLibraries

end VulkanLoader
