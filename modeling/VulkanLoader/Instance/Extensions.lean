import VulkanLoader.Base
import Mathlib.Tactic.Common

/-!
# Instance extensions of a driver

`loader_add_instance_extensions` asks a driver for its extensions and adds them to a list without duplicates.  The
array is on the stack and the list grows by doubling; `grow` says for each capacity whether the request made there
succeeds, the first request being made at capacity `0`.
-/

namespace VulkanLoader

/-- `VK_MAX_EXTENSION_NAME_SIZE`. -/
def vkMaxExtensionNameSize : ℕ := 256

structure VkExtensionProperties where
  extensionName : String
  specVersion : ℕ
  deriving DecidableEq

instance : Zero VkExtensionProperties := ⟨⟨"", 0⟩⟩

/-- `struct loader_extension_list`, its capacity counted in entries. -/
structure ExtensionList where
  list : List VkExtensionProperties
  capacity : ℕ

/-- What the pointer to `vkEnumerateInstanceExtensionProperties` of a driver is: absent, the loader's own function, or
a function given by its two answers, to the call for the count and to the call that fills the array. -/
inductive EnumerateExtensions where
  | null
  | loader
  | driver (countRes : VkResult) (count : ℕ) (fillRes : VkResult) (fillCount : ℕ) (props : List VkExtensionProperties)

/-- `loader_init_generic_list` for an extension list. -/
def loaderInitExtensionList (grow : ℕ → Bool) : Option ExtensionList :=
  if grow 0 then some ⟨[], 32⟩ else none

def hasVkExtensionProperty (vkExtProp : VkExtensionProperties) (extList : ExtensionList) : Bool :=
  extList.list.any fun e => e.extensionName == vkExtProp.extensionName

theorem hasVkExtensionProperty_iff {ext : VkExtensionProperties} {list : ExtensionList} :
    hasVkExtensionProperty ext list = true ↔ ext.extensionName ∈ list.list.map (·.extensionName) := by
  simp [hasVkExtensionProperty, List.any_eq_true, List.mem_map]

def getExtensionProperty (name : String) (list : ExtensionList) : Option VkExtensionProperties :=
  list.list.find? fun e => name == e.extensionName

/-- The body of the loop of `loader_add_to_ext_list`. -/
def addExtension (grow : ℕ → Bool) (extList : ExtensionList) (curExt : VkExtensionProperties) : Option ExtensionList :=
  if hasVkExtensionProperty curExt extList then some extList
  else if extList.list.length ≥ extList.capacity then
    if grow extList.capacity then some ⟨extList.list ++ [curExt], extList.capacity * 2⟩ else none
  else some { extList with list := extList.list ++ [curExt] }

/-- `loader_add_to_ext_list`. -/
def loaderAddToExtList (grow : ℕ → Bool) (extList : ExtensionList) (props : List VkExtensionProperties) :
    VkResult × ExtensionList :=
  match if extList.capacity = 0 then loaderInitExtensionList grow else some extList with
  | none => (.errorOutOfHostMemory, extList)
  | some start => go start props
where
  go (l : ExtensionList) : List VkExtensionProperties → VkResult × ExtensionList
    | [] => (.success, l)
    | p :: ps =>
      match addExtension grow l p with
      | none => (.errorOutOfHostMemory, l)
      | some l' => go l' ps

/-- `wsi_unsupported_instance_extension`: none of these platforms is in the build. -/
def wsiUnsupportedInstanceExtension (extProp : VkExtensionProperties) : Bool :=
  ["VK_KHR_wayland_surface", "VK_KHR_xcb_surface", "VK_KHR_xlib_surface", "VK_EXT_directfb_surface",
    "VK_QNX_screen_surface"].contains extProp.extensionName

/-- The loop at the end of `loader_add_instance_extensions`. -/
def addSupportedExtensions (grow : ℕ → Bool) (extList : ExtensionList) :
    List VkExtensionProperties → VkResult × ExtensionList
  | [] => (.success, extList)
  | p :: ps =>
    if wsiUnsupportedInstanceExtension p then addSupportedExtensions grow extList ps
    else
      match loaderAddToExtList grow extList [p] with
      | (.success, extList') => addSupportedExtensions grow extList' ps
      | (res, extList') => (res, extList')

/-- `loader_add_instance_extensions`. -/
def loaderAddInstanceExtensions (grow : ℕ → Bool) (fpGetProps : EnumerateExtensions) (extList : ExtensionList) :
    VkResult × ExtensionList :=
  match fpGetProps with
  | .null => (.success, extList)
  | .loader => (.success, extList)
  | .driver countRes count fillRes fillCount props =>
    if countRes ≠ .success then (countRes, extList)
    else if count = 0 then (.success, extList)
    else if fillRes ≠ .success then (fillRes, extList)
    else
      -- never past what was allocated; entries the driver did not write are still zero
      let extProps := (List.range count).map fun i => props.getD i 0
      addSupportedExtensions grow extList (extProps.take fillCount)

/-- `struct loader_instance_extension_enable_list`. -/
structure InstanceExtensionEnableList where
  khrSurface : Bool := false
  khrDisplay : Bool := false
  khrGetSurfaceCapabilities2 : Bool := false
  khrGetDisplayProperties2 : Bool := false
  extDirectModeDisplay : Bool := false
  extDisplaySurfaceCounter : Bool := false
  extSwapchainColorspace : Bool := false
  extDebugUtils : Bool := false
  extValidationFeatures : Bool := false
  extHeadlessSurface : Bool := false
  extApplicationParameters : Bool := false
  extLayerSettings : Bool := false
  deriving DecidableEq

/-- `fill_out_enabled_instance_extensions`: flags are set and never cleared. -/
def fillOutEnabledInstanceExtensions (enables : InstanceExtensionEnableList) (extensionList : List String) :
    InstanceExtensionEnableList :=
  extensionList.foldl (fun e name =>
    if name = "VK_KHR_surface" then { e with khrSurface := true }
    else if name = "VK_KHR_display" then { e with khrDisplay := true }
    else if name = "VK_KHR_get_surface_capabilities2" then { e with khrGetSurfaceCapabilities2 := true }
    else if name = "VK_KHR_get_display_properties2" then { e with khrGetDisplayProperties2 := true }
    else if name = "VK_EXT_direct_mode_display" then { e with extDirectModeDisplay := true }
    else if name = "VK_EXT_display_surface_counter" then { e with extDisplaySurfaceCounter := true }
    else if name = "VK_EXT_swapchain_colorspace" then { e with extSwapchainColorspace := true }
    else if name = "VK_EXT_debug_utils" then { e with extDebugUtils := true }
    else if name = "VK_EXT_validation_features" then { e with extValidationFeatures := true }
    else if name = "VK_EXT_headless_surface" then { e with extHeadlessSurface := true }
    else if name = "VK_EXT_application_parameters" then { e with extApplicationParameters := true }
    else if name = "VK_EXT_layer_settings" then { e with extLayerSettings := true }
    else e) enables

/-- `loader_icd_init_entries` looks these up first, in this order, and fails at the first that is absent. -/
def requiredInstanceCommands : List String :=
  ["vkDestroyInstance", "vkEnumeratePhysicalDevices", "vkGetPhysicalDeviceFeatures",
    "vkGetPhysicalDeviceFormatProperties", "vkGetPhysicalDeviceImageFormatProperties",
    "vkGetPhysicalDeviceProperties", "vkGetPhysicalDeviceQueueFamilyProperties",
    "vkGetPhysicalDeviceMemoryProperties", "vkGetDeviceProcAddr", "vkCreateDevice",
    "vkEnumerateDeviceExtensionProperties", "vkEnumeratePhysicalDeviceGroups", "vkGetPhysicalDeviceFeatures2",
    "vkGetPhysicalDeviceProperties2", "vkGetPhysicalDeviceFormatProperties2",
    "vkGetPhysicalDeviceImageFormatProperties2", "vkGetPhysicalDeviceQueueFamilyProperties2",
    "vkGetPhysicalDeviceMemoryProperties2", "vkGetPhysicalDeviceExternalBufferProperties",
    "vkGetPhysicalDeviceExternalFenceProperties", "vkGetPhysicalDeviceExternalSemaphoreProperties"]

/-- `loader_icd_init_entries`: `getInstanceProcAddr` says which commands the driver has. -/
def loaderIcdInitEntries (getInstanceProcAddr : String → Bool) : Bool :=
  requiredInstanceCommands.all getInstanceProcAddr

end VulkanLoader
