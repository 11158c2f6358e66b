import SpirvLegality.Capability.Table

/-!
# Targets

A target is the device and the client interface that a module is built for: how it addresses
memory, which versions of SPIR-V and of the interface it has, and the features that the user
switches on or off on top of its defaults.
-/

namespace SpirvLegality

/-- The client interface of a target, which decides its default capabilities. -/
inductive ClientApi where
  | vulkan | openCl | unspecified
deriving DecidableEq, Repr

namespace ClientApi

/-- The name of a client interface. -/
def name : ClientApi → String
  | .vulkan => "vulkan"
  | .openCl => "opencl"
  | .unspecified => "unspecified"

/-- The word that stands for the client interface in data records. -/
def tag : ClientApi → String
  | .vulkan => "Vulkan"
  | .openCl => "OpenCl"
  | .unspecified => "Unspecified"

end ClientApi

/-- How a target represents pointers. -/
inductive Addressing where
  | logical | physical32 | physical64
deriving DecidableEq, Repr

namespace Addressing

/-- The word that stands for the addressing in data records. -/
def tag : Addressing → String
  | .logical => "Logical"
  | .physical32 => "Physical32"
  | .physical64 => "Physical64"

/-- The width of a pointer in bits; logical pointers have none. -/
def pointerSize : Addressing → Option Nat
  | .logical => none
  | .physical32 => some 32
  | .physical64 => some 64

end Addressing

/-- A device and client interface that modules are built for. -/
structure Target where
  triple : String
  addressing : Addressing
  api : ClientApi
  spirv : Version
  openCl : Version
  vulkan : Version
  fullProfile : Bool := true
  imageSupport : Bool := true
  capabilityToggles : List (Capability × Bool) := []
  extensionToggles : List (Extension × Bool) := []
deriving DecidableEq, Repr

/-- Why a description of a target is refused. -/
inductive TargetError where
  | malformedTriple (triple : String)
  | unknownArchitecture (architecture : String)
  | conflictingApis (triple : String)
  | badVersion (component : String) (cause : VersionError)
  | malformedToggle (toggle : String)
  | unknownFeature (name : String)
deriving DecidableEq, Repr

/-- The wording of a target error. -/
def TargetError.message : TargetError → String
  | .malformedTriple triple =>
    "malformed target triple '" ++ triple ++ "' (expected arch-vendor-os[-env])"
  | .unknownArchitecture architecture =>
    "unknown architecture '" ++ architecture ++ "' (expected spirv, spirv32 or spirv64)"
  | .conflictingApis triple =>
    "triple '" ++ triple ++ "' names both a Vulkan and an OpenCL environment"
  | .badVersion component _ => "bad version in '" ++ component ++ "'"
  | .malformedToggle toggle => "feature toggle '" ++ toggle ++ "' must start with '+' or '-'"
  | .unknownFeature name =>
    "unknown feature '" ++ name ++ "' (expected a capability or SPV_* extension name)"

namespace Target

/-- The version of SPIR-V where none is given. -/
def defaultSpirv : Version := .of 1 4

/-- The version of OpenCL where none is given. -/
def defaultOpenCl : Version := .of 2 2

/-- The version of Vulkan where none is given. -/
def defaultVulkan : Version := .of 1 1

/-- A 64-bit target without a client interface. -/
def standard : Target where
  triple := "spirv64-unknown-unknown"
  addressing := .physical64
  api := .unspecified
  spirv := defaultSpirv
  openCl := defaultOpenCl
  vulkan := .unspecified

/-- The target with one more switch of a capability, which overrides the earlier ones. -/
def withCapability (t : Target) (cap : Capability) (on : Bool) : Target :=
  { t with capabilityToggles := t.capabilityToggles ++ [(cap, on)] }

/-- The target with one more switch of an extension, which overrides the earlier ones. -/
def withExtension (t : Target) (ext : Extension) (on : Bool) : Target :=
  { t with extensionToggles := t.extensionToggles ++ [(ext, on)] }

/-- Whether the client interface is Vulkan. -/
def isVulkan (t : Target) : Bool := t.api == .vulkan

/-- Whether the client interface is OpenCL. -/
def isOpenCl (t : Target) : Bool := t.api == .openCl

/-- Whether pointers are abstract. -/
def isLogical (t : Target) : Bool := t.addressing == .logical

/-- Whether the target runs compute kernels. -/
def isKernel (t : Target) : Bool := t.isOpenCl || !t.isLogical

/-- Whether the target runs shaders. -/
def isShader (t : Target) : Bool := t.isVulkan || t.isLogical

/-- The first SPIR-V version whose instructions compare pointers. -/
def pointerComparison : Version := .of 1 4

/-- Whether two pointers can be compared by one instruction. -/
def comparesPointers (t : Target) : Bool := t.spirv.atLeast pointerComparison

end Target

end SpirvLegality
