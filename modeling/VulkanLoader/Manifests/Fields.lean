import VulkanLoader.Lib.Segments
import VulkanLoader.Layers.Properties

/-!
# Versions and paths of manifests

What the manifests of drivers and of layers say alike: a version, a path of a library beside the manifest, and the
architecture that the library is for.
-/

namespace VulkanLoader

open VulkanLoader.Lib

/-! ### Versions -/

/-- The value of the digits that a string begins with. -/
def digitsValue (s : List Char) : ℕ :=
  (s.takeWhile Char.isDigit).foldl (fun value digit => 10 * value + (digit.toNat - 48)) 0

/-- `isspace`. -/
def isSpace (c : Char) : Bool := c ∈ [' ', '\t', '\n', '\x0b', '\x0c', '\r']

/-- `atoi`, as the value of `strtol`: what does not fit into a `long` is the nearest one that does.  The conversions that
follow keep the lowest bits only. -/
def atoi (s : List Char) : ℤ :=
  let value : ℤ :=
    match s.dropWhile isSpace with
    | '-' :: digits => -digitsValue digits
    | '+' :: digits => digitsValue digits
    | digits => digitsValue digits
  max (-9223372036854775808) (min 9223372036854775807 value)

/-- `VK_MAKE_API_VERSION`. -/
def vkMakeApiVersion (variant major minor patch : UInt32) : UInt32 :=
  variant <<< 29 ||| major <<< 22 ||| minor <<< 12 ||| patch

/-- `VK_API_VERSION_VARIANT`. -/
def vkApiVersionVariant (version : UInt32) : UInt32 := version >>> 29

/-- `VK_API_VERSION_MAJOR`, `VK_API_VERSION_MINOR` and `VK_API_VERSION_PATCH`, in `loader_make_full_version`. -/
def loaderMakeFullVersion (version : UInt32) : ApiVersion where
  major := (version >>> 22 &&& 0x7f).toNat
  minor := (version >>> 12 &&& 0x3ff).toNat
  patch := (version &&& 0xfff).toNat

/-- The tokens of a version. -/
def versionTokens (versStr : String) : List (List Char) :=
  segments '.' (versStr.toList.map fun c => if c ∈ ['"', '\n', '\r'] then '.' else c)

/-- `(uint16_t)atoi(vers_tok)`. -/
def versionPart (token : List Char) : UInt32 := (UInt16.ofInt (atoi token)).toUInt32

/-- `loader_parse_version_string`, for a string that is there. -/
def loaderParseVersionString (versStr : String) : UInt32 :=
  match (versionTokens versStr).map versionPart with
  | [] => 0
  | [major] => vkMakeApiVersion 0 major 0 0
  | [major, minor] => vkMakeApiVersion 0 major minor 0
  | [major, minor, patch] => vkMakeApiVersion 0 major minor patch
  | variant :: major :: minor :: patch :: _ => vkMakeApiVersion variant major minor patch

/-! ### Paths -/

/-- `DIRECTORY_SYMBOL`. -/
def directorySymbol : Char := '/'

/-- The part of a path up to its last directory symbol. -/
def directoryOf (path : List Char) : List Char := (path.reverse.dropWhile (· ≠ directorySymbol)).reverse

/-- `loader_platform_is_path_absolute`. -/
def loaderPlatformIsPathAbsolute (path : String) : Bool := path.toList.head? == some directorySymbol

/-- `combine_manifest_directory_and_library_path`, which takes the library path over. -/
def combineManifestDirectoryAndLibraryPath (granted : Bool) (libraryPath manifestFilePath : String) :
    VkResult × Option String :=
  if loaderPlatformIsPathAbsolute libraryPath then (.success, some libraryPath)
  else if !libraryPath.toList.contains directorySymbol then (.success, some libraryPath)
  else if granted then
    (.success, some (String.ofList (directoryOf manifestFilePath.toList ++ libraryPath.toList)))
  else (.errorOutOfHostMemory, none)

/-- There is a path, or there is no memory for it. -/
theorem combineManifestDirectoryAndLibraryPath_result (granted : Bool) (libraryPath manifestFilePath : String) :
    (∃ path, combineManifestDirectoryAndLibraryPath granted libraryPath manifestFilePath = (.success, some path)) ∨
      combineManifestDirectoryAndLibraryPath granted libraryPath manifestFilePath = (.errorOutOfHostMemory, none) := by
  unfold combineManifestDirectoryAndLibraryPath
  split_ifs
  · exact .inl ⟨_, rfl⟩
  · exact .inl ⟨_, rfl⟩
  · exact .inl ⟨_, rfl⟩
  · exact .inr rfl

theorem combineManifestDirectoryAndLibraryPath_granted (libraryPath manifestFilePath : String) :
    ∃ path, combineManifestDirectoryAndLibraryPath true libraryPath manifestFilePath = (.success, some path) := by
  unfold combineManifestDirectoryAndLibraryPath
  rw [if_pos rfl]
  split_ifs
  · exact ⟨_, rfl⟩
  · exact ⟨_, rfl⟩
  · exact ⟨_, rfl⟩

/-- The test of a `library_arch`, for pointers of so many bytes. -/
def libraryArchMatches (pointerSize : ℕ) (libraryArch : String) : Bool :=
  !(libraryArch.toList.take 2 == ['3', '2'] && pointerSize != 4) &&
    !(libraryArch.toList.take 2 == ['6', '4'] && pointerSize != 8)

example : loaderParseVersionString "1.0.1" = vkMakeApiVersion 0 1 0 1 := by decide

example : combineManifestDirectoryAndLibraryPath true "./libicd.so" "/usr/share/icd.json" =
    (.success, some "/usr/share/./libicd.so") := by decide

end VulkanLoader
