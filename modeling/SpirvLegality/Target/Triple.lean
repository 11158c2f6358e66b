import SpirvLegality.Target
import SpirvLegality.Text.Word

/-!
# Target triples

The text `arch-vendor-os` or `arch-vendor-os-env` that describes a target. The architecture is
`spirv`, `spirv32` or `spirv64`, and may end in `v` and a SPIR-V version. A later component that
begins with `vulkan` or `opencl` names the client interface and may end in its version; of several
versions the last one counts.
-/

namespace SpirvLegality.Target

/-- The version that ends a component; an empty text gives none. -/
def versionSuffix (component suffix : List Char) : Except TargetError (Option Version) :=
  if suffix.isEmpty then .ok none
  else
    match Version.parse (String.ofList suffix) with
    | .ok v => .ok (some v)
    | .error cause => .error (.badVersion (String.ofList component) cause)

/-- The addressing that begins an architecture, and the rest of it. The longer names come first,
because each begins with the shortest. -/
def addressingOf? (arch : List Char) : Option (Addressing × List Char) :=
  match Text.after? "spirv64".toList arch with
  | some rest => some (.physical64, rest)
  | none =>
    match Text.after? "spirv32".toList arch with
    | some rest => some (.physical32, rest)
    | none => (Text.after? "spirv".toList arch).map fun rest => (.logical, rest)

/-- The addressing and the SPIR-V version that an architecture gives. -/
def readArchitecture (arch : List Char) : Except TargetError (Addressing × Option Version) :=
  match addressingOf? arch with
  | none => .error (.unknownArchitecture (String.ofList arch))
  | some (addressing, []) => .ok (addressing, none)
  | some (addressing, 'v' :: suffix) => do
    let version ← versionSuffix arch suffix
    return (addressing, version)
  | some _ => .error (.unknownArchitecture (String.ofList arch))

/-- The client interface that a component names, and the rest of the component. -/
def apiOf? (component : List Char) : Option (ClientApi × List Char) :=
  match Text.after? "vulkan".toList component with
  | some suffix => some (.vulkan, suffix)
  | none => (Text.after? "opencl".toList component).map fun suffix => (.openCl, suffix)

/-- Reads the components after the architecture, given the client interface and its version that
the earlier ones named. -/
def readApi (triple : String) (api : ClientApi) (version : Option Version) :
    List (List Char) → Except TargetError (ClientApi × Option Version)
  | [] => .ok (api, version)
  | component :: rest =>
    match apiOf? component with
    | none => readApi triple api version rest
    | some (found, suffix) =>
      if api ≠ .unspecified ∧ api ≠ found then .error (.conflictingApis triple)
      else do
        let own ← versionSuffix component suffix
        readApi triple found (own.or version) rest

/-- The target that the components of a triple describe. -/
def ofComponents (triple : String) (arch : List Char) (rest : List (List Char)) :
    Except TargetError Target := do
  let (addressing, spirv) ← readArchitecture arch
  let (api, version) ← readApi triple .unspecified none rest
  return {
    triple, addressing, api
    spirv := spirv.getD defaultSpirv
    openCl := if api = .vulkan then .unspecified else version.getD defaultOpenCl
    vulkan := if api = .vulkan then version.getD defaultVulkan else .unspecified }

/-- The target that a triple describes. -/
def ofTriple (triple : String) : Except TargetError Target :=
  let components := triple.toList.splitOn '-'
  if components.length < 3 ∨ 4 < components.length ∨ [] ∈ components then
    .error (.malformedTriple triple)
  else
    match components with
    | [] => .error (.malformedTriple triple)
    | arch :: rest => ofComponents triple arch rest

end SpirvLegality.Target
