import SpirvLegality.Enumerant

/-!
# Operand families of storage

The operand values that say where variables live and how the texels of an image are stored. Where a
row lists several capabilities, any one of them is enough.
-/

namespace SpirvLegality.Family

/-- Where a variable lives. -/
def storageClassTable : EnumTable UInt32 where
  family := "StorageClass"
  rows := #[
    .plain 0 "UniformConstant" [],
    .plain 1 "Input" [],
    .plain 2 "Uniform" [.shader],
    .plain 3 "Output" [.shader],
    .plain 4 "Workgroup" [],
    .plain 5 "CrossWorkgroup" [],
    .plain 6 "Private" [.shader],
    .plain 7 "Function" [],
    .plain 8 "Generic" [.genericPointer],
    .plain 9 "PushConstant" [.shader],
    .plain 10 "AtomicCounter" [.atomicStorage],
    .plain 11 "Image" [],
    .plain 12 "StorageBuffer" [.shader],
    .plain 5328 "CallableDataNV" [.rayTracingNV],
    .plain 5329 "IncomingCallableDataNV" [.rayTracingNV],
    .plain 5338 "RayPayloadNV" [.rayTracingNV],
    .plain 5339 "HitAttributeNV" [.rayTracingNV],
    .plain 5342 "IncomingRayPayloadNV" [.rayTracingNV],
    .plain 5343 "ShaderRecordBufferNV" [.rayTracingNV],
    .plain 5349 "PhysicalStorageBuffer" [.physicalStorageBufferAddresses]]

/-- The format of the texels of an image. -/
def imageFormatTable : EnumTable UInt32 where
  family := "ImageFormat"
  rows := #[
    .plain 0 "Unknown" [],
    .plain 1 "Rgba32f" [.shader],
    .plain 2 "Rgba16f" [.shader],
    .plain 3 "R32f" [.shader],
    .plain 4 "Rgba8" [.shader],
    .plain 5 "Rgba8Snorm" [.shader],
    .plain 6 "Rg32f" [.storageImageExtendedFormats],
    .plain 7 "Rg16f" [.storageImageExtendedFormats],
    .plain 8 "R11fG11fB10f" [.storageImageExtendedFormats],
    .plain 9 "R16f" [.storageImageExtendedFormats],
    .plain 10 "Rgba16" [.storageImageExtendedFormats],
    .plain 11 "Rgb10A2" [.storageImageExtendedFormats],
    .plain 12 "Rg16" [.storageImageExtendedFormats],
    .plain 13 "Rg8" [.storageImageExtendedFormats],
    .plain 14 "R16" [.storageImageExtendedFormats],
    .plain 15 "R8" [.storageImageExtendedFormats],
    .plain 16 "Rgba16Snorm" [.storageImageExtendedFormats],
    .plain 17 "Rg16Snorm" [.storageImageExtendedFormats],
    .plain 18 "Rg8Snorm" [.storageImageExtendedFormats],
    .plain 19 "R16Snorm" [.storageImageExtendedFormats],
    .plain 20 "R8Snorm" [.storageImageExtendedFormats],
    .plain 21 "Rgba32i" [.shader],
    .plain 22 "Rgba16i" [.shader],
    .plain 23 "Rgba8i" [.shader],
    .plain 24 "R32i" [.shader],
    .plain 25 "Rg32i" [.storageImageExtendedFormats],
    .plain 26 "Rg16i" [.storageImageExtendedFormats],
    .plain 27 "Rg8i" [.storageImageExtendedFormats],
    .plain 28 "R16i" [.storageImageExtendedFormats],
    .plain 29 "R8i" [.storageImageExtendedFormats],
    .plain 30 "Rgba32ui" [.shader],
    .plain 31 "Rgba16ui" [.shader],
    .plain 32 "Rgba8ui" [.shader],
    .plain 33 "R32ui" [.shader],
    .plain 34 "Rgb10a2ui" [.storageImageExtendedFormats],
    .plain 35 "Rg32ui" [.storageImageExtendedFormats],
    .plain 36 "Rg16ui" [.storageImageExtendedFormats],
    .plain 37 "Rg8ui" [.storageImageExtendedFormats],
    .plain 38 "R16ui" [.storageImageExtendedFormats],
    .plain 39 "R8ui" [.storageImageExtendedFormats]]

end SpirvLegality.Family
