import SpirvLegality.Enumerant

/-!
# Operand families of entry points

The operand values that describe a module as a whole and its entry points. Where a row lists several
capabilities, any one of them is enough.
-/

namespace SpirvLegality.Family

/-- How pointers are represented. -/
def addressingModelTable : EnumTable UInt32 where
  family := "AddressingModel"
  rows := #[
    .plain 0 "Logical" [],
    .plain 1 "Physical32" [.addresses],
    .plain 2 "Physical64" [.addresses],
    .plain 5348 "PhysicalStorageBuffer64" [.physicalStorageBufferAddresses]]

/-- The memory model of a module. -/
def memoryModelTable : EnumTable UInt32 where
  family := "MemoryModel"
  rows := #[
    .plain 0 "Simple" [.shader],
    .plain 1 "GLSL450" [.shader],
    .plain 2 "OpenCL" [.kernel],
    .plain 3 "VulkanKHR" [.vulkanMemoryModelKHR]]

/-- The pipeline stage of an entry point. -/
def executionModelTable : EnumTable UInt32 where
  family := "ExecutionModel"
  rows := #[
    .plain 0 "Vertex" [.shader],
    .plain 1 "TessellationControl" [.tessellation],
    .plain 2 "TessellationEvaluation" [.tessellation],
    .plain 3 "Geometry" [.geometry],
    .plain 4 "Fragment" [.shader],
    .plain 5 "GLCompute" [.shader],
    .plain 6 "Kernel" [.kernel],
    .plain 5267 "TaskNV" [.meshShadingNV],
    .plain 5268 "MeshNV" [.meshShadingNV],
    .plain 5313 "RayGenerationNV" [.rayTracingNV],
    .plain 5314 "IntersectionNV" [.rayTracingNV],
    .plain 5315 "AnyHitNV" [.rayTracingNV],
    .plain 5316 "ClosestHitNV" [.rayTracingNV],
    .plain 5317 "MissNV" [.rayTracingNV],
    .plain 5318 "CallableNV" [.rayTracingNV]]

/-- How an entry point is executed. -/
def executionModeTable : EnumTable UInt32 where
  family := "ExecutionMode"
  rows := #[
    .plain 0 "Invocations" [.geometry],
    .plain 1 "SpacingEqual" [.tessellation],
    .plain 2 "SpacingFractionalEven" [.tessellation],
    .plain 3 "SpacingFractionalOdd" [.tessellation],
    .plain 4 "VertexOrderCw" [.tessellation],
    .plain 5 "VertexOrderCcw" [.tessellation],
    .plain 6 "PixelCenterInteger" [.shader],
    .plain 7 "OriginUpperLeft" [.shader],
    .plain 8 "OriginLowerLeft" [.shader],
    .plain 9 "EarlyFragmentTests" [.shader],
    .plain 10 "PointMode" [.tessellation],
    .plain 11 "Xfb" [.transformFeedback],
    .plain 12 "DepthReplacing" [.shader],
    .plain 14 "DepthGreater" [.shader],
    .plain 15 "DepthLess" [.shader],
    .plain 16 "DepthUnchanged" [.shader],
    .plain 17 "LocalSize" [],
    .plain 18 "LocalSizeHint" [.kernel],
    .plain 19 "InputPoints" [.geometry],
    .plain 20 "InputLines" [.geometry],
    .plain 21 "InputLinesAdjacency" [.geometry],
    .plain 22 "Triangles" [.geometry, .tessellation],
    .plain 23 "InputTrianglesAdjacency" [.geometry],
    .plain 24 "Quads" [.tessellation],
    .plain 25 "Isolines" [.tessellation],
    .plain 26 "OutputVertices" [.geometry, .tessellation, .meshShadingNV],
    .plain 27 "OutputPoints" [.geometry, .meshShadingNV],
    .plain 28 "OutputLineStrip" [.geometry],
    .plain 29 "OutputTriangleStrip" [.geometry],
    .plain 30 "VecTypeHint" [.kernel],
    .plain 31 "ContractionOff" [.kernel],
    .plain 33 "Initializer" [.kernel],
    .plain 34 "Finalizer" [.kernel],
    .plain 35 "SubgroupSize" [.subgroupDispatch],
    .plain 36 "SubgroupsPerWorkgroup" [.subgroupDispatch],
    .plain 37 "SubgroupsPerWorkgroupId" [.subgroupDispatch],
    .plain 38 "LocalSizeId" [],
    .plain 39 "LocalSizeHintId" [.kernel],
    .plain 4446 "PostDepthCoverage" [.sampleMaskPostDepthCoverage],
    .plain 4459 "DenormPreserve" [.denormPreserve],
    .plain 4460 "DenormFlushToZero" [.denormFlushToZero],
    .plain 4461 "SignedZeroInfNanPreserve" [.signedZeroInfNanPreserve],
    .plain 4462 "RoundingModeRTE" [.roundingModeRTE],
    .plain 4463 "RoundingModeRTZ" [.roundingModeRTZ],
    .plain 5027 "StencilRefReplacingEXT" [.stencilExportEXT],
    .plain 5269 "OutputLinesNV" [.meshShadingNV],
    .plain 5289 "DerivativeGroupQuadsNV" [.computeDerivativeGroupQuadsNV],
    .plain 5290 "DerivativeGroupLinearNV" [.computeDerivativeGroupLinearNV],
    .plain 5298 "OutputTrianglesNV" [.meshShadingNV]]

end SpirvLegality.Family
