import Mathlib.Algebra.Ring.Nat
import Mathlib.Data.Int.Notation
import Mathlib.Data.List.Basic

/-!
# Result codes and handles

The repository is modelled as its CMake build configures it by default: `VULKANSC` on, no Windows, Android or Apple
platform code.  Where the loader's two Linux code paths differ (`LOADER_ENABLE_LINUX_SORT`), both are modelled.

A string of C is a `String` or a list of characters whose characters stand for its bytes, one for each, without the `NUL`
at its end; a byte of 128 or more is the character with that code, whatever it encodes.  Where the loader reads bytes
through a pointer they are `UInt8`.  The C library's functions are those of the C locale: no byte of 128 or more is a
letter, and the point of a number is `.`.

Logging is left out: `loader_log` never changes what a function returns or stores.  `loader_stack_alloc` is `alloca`,
which does not return `NULL`, so the checks of its result are not modelled.
-/

namespace VulkanLoader

/-- The result codes the modelled functions return or compare against; a driver may return any other code. -/
inductive VkResult where
  | success
  | incomplete
  | errorOutOfHostMemory
  | errorInitializationFailed
  | errorLayerNotPresent
  | errorExtensionNotPresent
  | errorIncompatibleDriver
  | other (code : ℤ)
  deriving DecidableEq, Repr

/-- A handle of a driver, a layer or the loader; `VK_NULL_HANDLE` is `0`. -/
abbrev Handle := ℕ

/-- `VK_NULL_HANDLE`. -/
abbrev nullHandle : Handle := 0

end VulkanLoader
