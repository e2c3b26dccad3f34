import VulkanLoader.Lib.Runs
import VulkanLoader.Memory.UsedObjects
import VulkanLoader.Instance.CreateInstance
import VulkanLoader.Instance.Isolation
import VulkanLoader.Handles.DebugMessenger
import VulkanLoader.Instance.Ownership
import VulkanLoader.Handles.MessengerSafety
import VulkanLoader.Handles.Surface
import VulkanLoader.Handles.SurfaceSafety
import VulkanLoader.Lib.Heap
import VulkanLoader.PhysDev.Trampoline
import VulkanLoader.PhysDev.Wrapping
import VulkanLoader.PhysDev.WrappingSafety
import VulkanLoader.PhysDev.Enumerate
import VulkanLoader.PhysDev.HandleLifetime
import VulkanLoader.Lib.HeapTable
import VulkanLoader.PhysDev.TermObjects
import VulkanLoader.PhysDev.TermStability
import VulkanLoader.PhysDev.Unload
import VulkanLoader.PhysDev.UnloadSafety
import VulkanLoader.Layers.Properties
import VulkanLoader.Lib.Walks
import VulkanLoader.Layers.Meta
import VulkanLoader.Layers.Verify
import VulkanLoader.Layers.Override
import VulkanLoader.Layers.Scan
import VulkanLoader.Layers.Termination
import VulkanLoader.PhysDev.Groups
import VulkanLoader.PhysDev.GroupsFilling
import VulkanLoader.PhysDev.GroupsSafety
import VulkanLoader.CallChain.InstanceChain
import VulkanLoader.Lib.Chains
import VulkanLoader.CallChain.InstanceChainSafety
import VulkanLoader.CallChain.DeviceChain
import VulkanLoader.CallChain.DeviceChainSafety
import VulkanLoader.Layers.Activate
import VulkanLoader.Layers.Expansion
import VulkanLoader.Layers.ActivationOrder
import VulkanLoader.Layers.SettingsActivation
import VulkanLoader.Layers.FilterRule
import VulkanLoader.Unknown.DeviceExt
import VulkanLoader.Unknown.PhysDevExt
import VulkanLoader.Handles.DebugCallbacks
import VulkanLoader.Handles.DebugCallbacksSafety
import VulkanLoader.Lib.Sweep
import VulkanLoader.Layers.Blacklist
import VulkanLoader.Layers.Duplicates
import VulkanLoader.Layers.ImplicitMeta
import VulkanLoader.Layers.OverrideSelection
import VulkanLoader.Lib.Trees
import VulkanLoader.Layers.MetaValidity
import VulkanLoader.Layers.ClosedList
import VulkanLoader.Layers.MissingComponents
import VulkanLoader.Layers.ExtensionMerge
import VulkanLoader.Layers.CombineOwnership
import VulkanLoader.Lib.Outstanding
import VulkanLoader.Handles.MessengerAllocation
import VulkanLoader.Handles.AllocationPairing
import VulkanLoader.Lib.Segments
import VulkanLoader.Settings.LoaderSettings
import VulkanLoader.PhysDev.DeviceSelection
import VulkanLoader.Settings.PathSearch
import VulkanLoader.Layers.FilterParsing
import VulkanLoader.Memory.StringList
import VulkanLoader.Manifests.Json
import VulkanLoader.Settings.ParseSettings
import VulkanLoader.Settings.DeviceConfigurations
import VulkanLoader.Settings.Equality
import VulkanLoader.Manifests.Fields
import VulkanLoader.Drivers.IcdScan
import VulkanLoader.Drivers.DriverAdmission
import VulkanLoader.Drivers.AdditionalDrivers
import VulkanLoader.Layers.SettingsLayers
import VulkanLoader.Lib.EarlyExit
import VulkanLoader.Manifests.ReadLayer
import VulkanLoader.Base
import VulkanLoader.CallChain.LayerLibraries
import VulkanLoader.Handles.HandleTable
import VulkanLoader.Instance.Extensions
import VulkanLoader.Layers.Settings
import VulkanLoader.Lib.HandleLedger
import VulkanLoader.Lib.Lists
import VulkanLoader.Lib.Reorderings
import VulkanLoader.Manifests.AddLayers
import VulkanLoader.Manifests.KeyOrder
import VulkanLoader.Manifests.LayerAdmission
import VulkanLoader.Manifests.LayerReading
import VulkanLoader.Memory.Allocation
import VulkanLoader.Memory.GenericList
import VulkanLoader.PhysDev.Terminator
import VulkanLoader.Handles.SurfaceCopy
import VulkanLoader.Instance.ExtensionValidation
import VulkanLoader.Instance.StringValidation
import VulkanLoader.Layers.ActivationTurns
import VulkanLoader.Lib.ByteMemory
import VulkanLoader.Lib.Comparators
import VulkanLoader.Lib.LexicalPaths
import VulkanLoader.Lib.Rationing
import VulkanLoader.Memory.IndexAllocator
import VulkanLoader.Memory.StringArray
import VulkanLoader.Memory.StringListRuns
import VulkanLoader.Memory.StringListRefinement
import VulkanLoader.Paths.DataFileInfo
import VulkanLoader.Paths.NormalizePath
import VulkanLoader.PhysDev.DeviceExtensions
import VulkanLoader.PhysDev.LinuxSort
import VulkanLoader.PhysDev.PreloadedDrivers
import VulkanLoader.Layers.MissingNames
import VulkanLoader.Manifests.VersionStrings
import VulkanLoader.Memory.ExtensionArray
import VulkanLoader.Manifests.JsonReading
import VulkanLoader.Manifests.JsonSpelling
import VulkanLoader.Manifests.JsonStrings
import VulkanLoader.Manifests.JsonText
import VulkanLoader.Drivers.DriverLibraries
import VulkanLoader.Drivers.DriverLists
import VulkanLoader.Drivers.ScannedList
import VulkanLoader.Handles.DebugMessages
import VulkanLoader.Handles.MessageDelivery
import VulkanLoader.Manifests.JsonPrintedTexts
import VulkanLoader.Manifests.JsonPrinter
import VulkanLoader.Manifests.JsonPrinting
import VulkanLoader.Paths.ManifestSearch
import VulkanLoader.Paths.ManifestSearchSafety
import VulkanLoader.Manifests.JsonLanguage
import VulkanLoader.CallChain.LogicalDeviceLists
import VulkanLoader.CallChain.LogicalDevices
import VulkanLoader.CallChain.LogicalDevicesSafety
