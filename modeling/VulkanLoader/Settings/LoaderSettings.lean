import VulkanLoader.Layers.Properties
import Mathlib.Data.UInt

/-!
# The settings (`settings.h`)

The contents of the settings file as `get_loader_settings` leaves them.  The counts are the lengths of the lists; an
entry that was never filled in is one of zeros.
-/

namespace VulkanLoader

/-- `VK_UUID_SIZE` bytes. -/
abbrev Uuid := Vector UInt8 16

/-- `loader_settings_layer_configuration`, in which a pointer may be `NULL`. -/
@[ext]
structure SettingsLayerConfiguration where
  name : Option String
  path : Option String
  control : SettingsLayerControl
  treatAsImplicitManifest : Bool
  deriving DecidableEq

/-- `loader_settings_driver_configuration`. -/
@[ext]
structure SettingsDriverConfiguration where
  path : Option String
  deriving DecidableEq

/-- `loader_settings_device_configuration`. -/
@[ext]
structure DeviceConfiguration where
  deviceUUID : Uuid
  driverUUID : Uuid
  driverVersion : UInt32
  deviceName : String
  driverName : String
  deriving DecidableEq

/-- A configuration of zeros. -/
def DeviceConfiguration.zero : DeviceConfiguration := ⟨Vector.replicate 16 0, Vector.replicate 16 0, 0, "", ""⟩

/-- `loader_settings`. -/
@[ext]
structure LoaderSettings where
  settingsActive : Bool
  hasUnorderedLayerLocation : Bool
  debugLevel : ℕ
  layerConfigurationsActive : Bool
  layerConfigurations : List SettingsLayerConfiguration
  additionalDriversUseExclusively : Bool
  additionalDrivers : List SettingsDriverConfiguration
  deviceConfigurationsActive : Bool
  deviceConfigurations : List DeviceConfiguration
  settingsFilePath : Option String
  deriving DecidableEq

/-- Settings of zeros. -/
def LoaderSettings.zero : LoaderSettings := ⟨false, false, 0, false, [], false, [], false, [], none⟩

end VulkanLoader
