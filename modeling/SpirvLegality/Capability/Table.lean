import SpirvLegality.Enumerant

/-!
# The capability table

What a capability presupposes, the extensions that make it legal on targets older than its first
version, and that first version. `Capability.table` holds one row for each capability, by number.
In this table a row's capabilities are *all* presupposed, whereas in an operand family any one of
them suffices.
-/

namespace SpirvLegality.Capability

/-- The capabilities that a capability directly presupposes. -/
def prerequisites : Capability → List Capability
  | .shader => [.matrix]
  | .geometry | .tessellation | .atomicStorage | .imageGatherExtended | .storageImageMultisample
  | .uniformBufferArrayDynamicIndexing | .sampledImageArrayDynamicIndexing | .clipDistance
  | .cullDistance | .sampleRateShading | .sampledRect | .inputAttachment | .sparseResidency
  | .minLod | .sampledCubeArray | .imageMSArray | .storageImageExtendedFormats | .imageQuery
  | .derivativeControl | .interpolationFunction | .transformFeedback
  | .storageImageReadWithoutFormat | .storageImageWriteWithoutFormat | .drawParameters
  | .multiView | .variablePointersStorageBuffer | .float16ImageAMD | .imageGatherBiasLodAMD
  | .fragmentMaskAMD | .stencilExportEXT | .imageReadWriteLodAMD | .fragmentFullyCoveredEXT
  | .meshShadingNV | .fragmentDensityEXT | .shaderNonUniformEXT | .runtimeDescriptorArrayEXT
  | .rayTracingNV | .physicalStorageBufferAddresses | .cooperativeMatrixNV => [.shader]
  | .vector16 | .float16Buffer | .imageBasic | .pipes | .literalSampler | .namedBarrier => [.kernel]
  | .int64Atomics => [.int64]
  | .imageReadWrite | .imageMipmap => [.imageBasic]
  | .tessellationPointSize => [.tessellation]
  | .geometryPointSize | .geometryStreams | .multiViewport | .geometryShaderPassthroughNV
    => [.geometry]
  | .imageCubeArray => [.sampledCubeArray]
  | .imageRect => [.sampledRect]
  | .genericPointer => [.addresses]
  | .image1D => [.sampled1D]
  | .imageBuffer | .uniformTexelBufferArrayDynamicIndexingEXT => [.sampledBuffer]
  | .subgroupDispatch => [.deviceEnqueue]
  | .pipeStorage => [.pipes]
  | .groupNonUniformVote | .groupNonUniformArithmetic | .groupNonUniformBallot
  | .groupNonUniformShuffle | .groupNonUniformShuffleRelative | .groupNonUniformClustered
  | .groupNonUniformQuad => [.groupNonUniform]
  | .storageUniform16 => [.storageBuffer16BitAccess]
  | .variablePointers => [.variablePointersStorageBuffer]
  | .uniformAndStorageBuffer8BitAccess => [.storageBuffer8BitAccess]
  | .sampleMaskOverrideCoverageNV => [.sampleRateShading]
  | .shaderViewportIndexLayerEXT => [.multiViewport]
  | .shaderViewportMaskNV => [.shaderViewportIndexLayerEXT]
  | .shaderStereoViewNV => [.shaderViewportMaskNV]
  | .perViewAttributesNV => [.multiView]
  | .inputAttachmentArrayDynamicIndexingEXT => [.inputAttachment]
  | .storageTexelBufferArrayDynamicIndexingEXT => [.imageBuffer]
  | .uniformBufferArrayNonUniformIndexingEXT | .sampledImageArrayNonUniformIndexingEXT
  | .storageBufferArrayNonUniformIndexingEXT | .storageImageArrayNonUniformIndexingEXT
    => [.shaderNonUniformEXT]
  | .inputAttachmentArrayNonUniformIndexingEXT => [.inputAttachment, .shaderNonUniformEXT]
  | .uniformTexelBufferArrayNonUniformIndexingEXT => [.sampledBuffer, .shaderNonUniformEXT]
  | .storageTexelBufferArrayNonUniformIndexingEXT => [.imageBuffer, .shaderNonUniformEXT]
  | _ => []

/-- The extensions each of which makes a capability legal before its first version. -/
def enablers : Capability → List Extension
  | .subgroupBallotKHR => [.khrShaderBallot]
  | .drawParameters => [.khrShaderDrawParameters]
  | .subgroupVoteKHR => [.khrSubgroupVote]
  | .storageBuffer16BitAccess | .storageUniform16 | .storagePushConstant16
  | .storageInputOutput16 => [.khr16bitStorage]
  | .deviceGroup => [.khrDeviceGroup]
  | .multiView => [.khrMultiview]
  | .variablePointersStorageBuffer | .variablePointers => [.khrVariablePointers]
  | .atomicStorageOps => [.khrShaderAtomicCounterOps]
  | .sampleMaskPostDepthCoverage => [.khrPostDepthCoverage]
  | .storageBuffer8BitAccess | .uniformAndStorageBuffer8BitAccess | .storagePushConstant8
    => [.khr8bitStorage]
  | .denormPreserve | .denormFlushToZero | .signedZeroInfNanPreserve | .roundingModeRTE
  | .roundingModeRTZ => [.khrFloatControls]
  | _ => []

/-- The first SPIR-V version that has a capability, or the unspecified version. -/
def firstVersion : Capability → Version
  | .subgroupDispatch | .namedBarrier | .pipeStorage => .of 1 1
  | .groupNonUniform | .groupNonUniformVote | .groupNonUniformArithmetic | .groupNonUniformBallot
  | .groupNonUniformShuffle | .groupNonUniformShuffleRelative | .groupNonUniformClustered
  | .groupNonUniformQuad | .drawParameters | .storageBuffer16BitAccess | .storageUniform16
  | .storagePushConstant16 | .storageInputOutput16 | .deviceGroup | .multiView
  | .variablePointersStorageBuffer | .variablePointers => .of 1 3
  | .denormPreserve | .denormFlushToZero | .signedZeroInfNanPreserve | .roundingModeRTE
  | .roundingModeRTZ => .of 1 4
  | _ => .unspecified

/-- The row of a capability in the table. -/
def row (c : Capability) : Enumerant Capability where
  value := c
  name := c.name
  capabilities := c.prerequisites
  extensions := c.enablers
  minVersion := c.firstVersion
  maxVersion := .unspecified

/-- Every capability with its row, by number. -/
def table : EnumTable Capability where
  family := "Capability"
  rows := (values.map row).toArray

/-- The capability with a given name. -/
def ofName? (name : String) : Option Capability :=
  (table.byName? name).map (·.value)

/-- The capability with a given number. -/
def ofNumber? (number : UInt32) : Option Capability :=
  (table.get? number).map (·.value)

end SpirvLegality.Capability
