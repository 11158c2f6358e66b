import SpirvLegality.Enumerated

/-!
# Capabilities

The capabilities of SPIR-V, each numbered by its `OpCapability` operand. The values are listed by
number, and the numbers increase along the list (`Capability.values_increasing`), so listing order
and numeric order are the same.
-/

namespace SpirvLegality

/-- A SPIR-V capability: a feature that a module declares before it uses it. -/
inductive Capability where
  | matrix | shader | geometry | tessellation | addresses | linkage | kernel | vector16
  | float16Buffer | float16 | float64 | int64 | int64Atomics | imageBasic | imageReadWrite
  | imageMipmap | pipes | groups | deviceEnqueue | literalSampler | atomicStorage | int16
  | tessellationPointSize | geometryPointSize | imageGatherExtended | storageImageMultisample
  | uniformBufferArrayDynamicIndexing | sampledImageArrayDynamicIndexing | clipDistance
  | cullDistance | imageCubeArray | sampleRateShading | imageRect | sampledRect | genericPointer
  | int8 | inputAttachment | sparseResidency | minLod | sampled1D | image1D | sampledCubeArray
  | sampledBuffer | imageBuffer | imageMSArray | storageImageExtendedFormats | imageQuery
  | derivativeControl | interpolationFunction | transformFeedback | geometryStreams
  | storageImageReadWithoutFormat | storageImageWriteWithoutFormat | multiViewport
  | subgroupDispatch | namedBarrier | pipeStorage | groupNonUniform | groupNonUniformVote
  | groupNonUniformArithmetic | groupNonUniformBallot | groupNonUniformShuffle
  | groupNonUniformShuffleRelative | groupNonUniformClustered | groupNonUniformQuad
  | subgroupBallotKHR | drawParameters | subgroupVoteKHR | storageBuffer16BitAccess
  | storageUniform16 | storagePushConstant16 | storageInputOutput16 | deviceGroup | multiView
  | variablePointersStorageBuffer | variablePointers | atomicStorageOps
  | sampleMaskPostDepthCoverage | storageBuffer8BitAccess | uniformAndStorageBuffer8BitAccess
  | storagePushConstant8 | denormPreserve | denormFlushToZero | signedZeroInfNanPreserve
  | roundingModeRTE | roundingModeRTZ | float16ImageAMD | imageGatherBiasLodAMD | fragmentMaskAMD
  | stencilExportEXT | imageReadWriteLodAMD | sampleMaskOverrideCoverageNV
  | geometryShaderPassthroughNV | shaderViewportIndexLayerEXT | shaderViewportMaskNV
  | shaderStereoViewNV | perViewAttributesNV | fragmentFullyCoveredEXT | meshShadingNV
  | imageFootprintNV | fragmentBarycentricNV | computeDerivativeGroupQuadsNV | fragmentDensityEXT
  | groupNonUniformPartitionedNV | shaderNonUniformEXT | runtimeDescriptorArrayEXT
  | inputAttachmentArrayDynamicIndexingEXT | uniformTexelBufferArrayDynamicIndexingEXT
  | storageTexelBufferArrayDynamicIndexingEXT | uniformBufferArrayNonUniformIndexingEXT
  | sampledImageArrayNonUniformIndexingEXT | storageBufferArrayNonUniformIndexingEXT
  | storageImageArrayNonUniformIndexingEXT | inputAttachmentArrayNonUniformIndexingEXT
  | uniformTexelBufferArrayNonUniformIndexingEXT | storageTexelBufferArrayNonUniformIndexingEXT
  | rayTracingNV | vulkanMemoryModelKHR | vulkanMemoryModelDeviceScopeKHR
  | physicalStorageBufferAddresses | computeDerivativeGroupLinearNV | cooperativeMatrixNV
  | subgroupShuffleINTEL | subgroupBufferBlockIOINTEL | subgroupImageBlockIOINTEL
  | subgroupImageMediaBlockIOINTEL | subgroupAvcMotionEstimationINTEL
  | subgroupAvcMotionEstimationIntraINTEL | subgroupAvcMotionEstimationChromaINTEL
deriving DecidableEq, Repr, Inhabited

namespace Capability

/-- The operand of `OpCapability` that declares the capability. -/
def number : Capability → UInt32
  | .matrix => 0
  | .shader => 1
  | .geometry => 2
  | .tessellation => 3
  | .addresses => 4
  | .linkage => 5
  | .kernel => 6
  | .vector16 => 7
  | .float16Buffer => 8
  | .float16 => 9
  | .float64 => 10
  | .int64 => 11
  | .int64Atomics => 12
  | .imageBasic => 13
  | .imageReadWrite => 14
  | .imageMipmap => 15
  | .pipes => 17
  | .groups => 18
  | .deviceEnqueue => 19
  | .literalSampler => 20
  | .atomicStorage => 21
  | .int16 => 22
  | .tessellationPointSize => 23
  | .geometryPointSize => 24
  | .imageGatherExtended => 25
  | .storageImageMultisample => 27
  | .uniformBufferArrayDynamicIndexing => 28
  | .sampledImageArrayDynamicIndexing => 29
  | .clipDistance => 32
  | .cullDistance => 33
  | .imageCubeArray => 34
  | .sampleRateShading => 35
  | .imageRect => 36
  | .sampledRect => 37
  | .genericPointer => 38
  | .int8 => 39
  | .inputAttachment => 40
  | .sparseResidency => 41
  | .minLod => 42
  | .sampled1D => 43
  | .image1D => 44
  | .sampledCubeArray => 45
  | .sampledBuffer => 46
  | .imageBuffer => 47
  | .imageMSArray => 48
  | .storageImageExtendedFormats => 49
  | .imageQuery => 50
  | .derivativeControl => 51
  | .interpolationFunction => 52
  | .transformFeedback => 53
  | .geometryStreams => 54
  | .storageImageReadWithoutFormat => 55
  | .storageImageWriteWithoutFormat => 56
  | .multiViewport => 57
  | .subgroupDispatch => 58
  | .namedBarrier => 59
  | .pipeStorage => 60
  | .groupNonUniform => 61
  | .groupNonUniformVote => 62
  | .groupNonUniformArithmetic => 63
  | .groupNonUniformBallot => 64
  | .groupNonUniformShuffle => 65
  | .groupNonUniformShuffleRelative => 66
  | .groupNonUniformClustered => 67
  | .groupNonUniformQuad => 68
  | .subgroupBallotKHR => 4423
  | .drawParameters => 4427
  | .subgroupVoteKHR => 4431
  | .storageBuffer16BitAccess => 4433
  | .storageUniform16 => 4434
  | .storagePushConstant16 => 4435
  | .storageInputOutput16 => 4436
  | .deviceGroup => 4437
  | .multiView => 4439
  | .variablePointersStorageBuffer => 4441
  | .variablePointers => 4442
  | .atomicStorageOps => 4445
  | .sampleMaskPostDepthCoverage => 4447
  | .storageBuffer8BitAccess => 4448
  | .uniformAndStorageBuffer8BitAccess => 4449
  | .storagePushConstant8 => 4450
  | .denormPreserve => 4464
  | .denormFlushToZero => 4465
  | .signedZeroInfNanPreserve => 4466
  | .roundingModeRTE => 4467
  | .roundingModeRTZ => 4468
  | .float16ImageAMD => 5008
  | .imageGatherBiasLodAMD => 5009
  | .fragmentMaskAMD => 5010
  | .stencilExportEXT => 5013
  | .imageReadWriteLodAMD => 5015
  | .sampleMaskOverrideCoverageNV => 5249
  | .geometryShaderPassthroughNV => 5251
  | .shaderViewportIndexLayerEXT => 5254
  | .shaderViewportMaskNV => 5255
  | .shaderStereoViewNV => 5259
  | .perViewAttributesNV => 5260
  | .fragmentFullyCoveredEXT => 5265
  | .meshShadingNV => 5266
  | .imageFootprintNV => 5282
  | .fragmentBarycentricNV => 5284
  | .computeDerivativeGroupQuadsNV => 5288
  | .fragmentDensityEXT => 5291
  | .groupNonUniformPartitionedNV => 5297
  | .shaderNonUniformEXT => 5301
  | .runtimeDescriptorArrayEXT => 5302
  | .inputAttachmentArrayDynamicIndexingEXT => 5303
  | .uniformTexelBufferArrayDynamicIndexingEXT => 5304
  | .storageTexelBufferArrayDynamicIndexingEXT => 5305
  | .uniformBufferArrayNonUniformIndexingEXT => 5306
  | .sampledImageArrayNonUniformIndexingEXT => 5307
  | .storageBufferArrayNonUniformIndexingEXT => 5308
  | .storageImageArrayNonUniformIndexingEXT => 5309
  | .inputAttachmentArrayNonUniformIndexingEXT => 5310
  | .uniformTexelBufferArrayNonUniformIndexingEXT => 5311
  | .storageTexelBufferArrayNonUniformIndexingEXT => 5312
  | .rayTracingNV => 5340
  | .vulkanMemoryModelKHR => 5345
  | .vulkanMemoryModelDeviceScopeKHR => 5346
  | .physicalStorageBufferAddresses => 5347
  | .computeDerivativeGroupLinearNV => 5350
  | .cooperativeMatrixNV => 5357
  | .subgroupShuffleINTEL => 5568
  | .subgroupBufferBlockIOINTEL => 5569
  | .subgroupImageBlockIOINTEL => 5570
  | .subgroupImageMediaBlockIOINTEL => 5579
  | .subgroupAvcMotionEstimationINTEL => 5696
  | .subgroupAvcMotionEstimationIntraINTEL => 5697
  | .subgroupAvcMotionEstimationChromaINTEL => 5698

/-- The name of a capability in assembly text. -/
def name : Capability → String
  | .matrix => "Matrix"
  | .shader => "Shader"
  | .geometry => "Geometry"
  | .tessellation => "Tessellation"
  | .addresses => "Addresses"
  | .linkage => "Linkage"
  | .kernel => "Kernel"
  | .vector16 => "Vector16"
  | .float16Buffer => "Float16Buffer"
  | .float16 => "Float16"
  | .float64 => "Float64"
  | .int64 => "Int64"
  | .int64Atomics => "Int64Atomics"
  | .imageBasic => "ImageBasic"
  | .imageReadWrite => "ImageReadWrite"
  | .imageMipmap => "ImageMipmap"
  | .pipes => "Pipes"
  | .groups => "Groups"
  | .deviceEnqueue => "DeviceEnqueue"
  | .literalSampler => "LiteralSampler"
  | .atomicStorage => "AtomicStorage"
  | .int16 => "Int16"
  | .tessellationPointSize => "TessellationPointSize"
  | .geometryPointSize => "GeometryPointSize"
  | .imageGatherExtended => "ImageGatherExtended"
  | .storageImageMultisample => "StorageImageMultisample"
  | .uniformBufferArrayDynamicIndexing => "UniformBufferArrayDynamicIndexing"
  | .sampledImageArrayDynamicIndexing => "SampledImageArrayDynamicIndexing"
  | .clipDistance => "ClipDistance"
  | .cullDistance => "CullDistance"
  | .imageCubeArray => "ImageCubeArray"
  | .sampleRateShading => "SampleRateShading"
  | .imageRect => "ImageRect"
  | .sampledRect => "SampledRect"
  | .genericPointer => "GenericPointer"
  | .int8 => "Int8"
  | .inputAttachment => "InputAttachment"
  | .sparseResidency => "SparseResidency"
  | .minLod => "MinLod"
  | .sampled1D => "Sampled1D"
  | .image1D => "Image1D"
  | .sampledCubeArray => "SampledCubeArray"
  | .sampledBuffer => "SampledBuffer"
  | .imageBuffer => "ImageBuffer"
  | .imageMSArray => "ImageMSArray"
  | .storageImageExtendedFormats => "StorageImageExtendedFormats"
  | .imageQuery => "ImageQuery"
  | .derivativeControl => "DerivativeControl"
  | .interpolationFunction => "InterpolationFunction"
  | .transformFeedback => "TransformFeedback"
  | .geometryStreams => "GeometryStreams"
  | .storageImageReadWithoutFormat => "StorageImageReadWithoutFormat"
  | .storageImageWriteWithoutFormat => "StorageImageWriteWithoutFormat"
  | .multiViewport => "MultiViewport"
  | .subgroupDispatch => "SubgroupDispatch"
  | .namedBarrier => "NamedBarrier"
  | .pipeStorage => "PipeStorage"
  | .groupNonUniform => "GroupNonUniform"
  | .groupNonUniformVote => "GroupNonUniformVote"
  | .groupNonUniformArithmetic => "GroupNonUniformArithmetic"
  | .groupNonUniformBallot => "GroupNonUniformBallot"
  | .groupNonUniformShuffle => "GroupNonUniformShuffle"
  | .groupNonUniformShuffleRelative => "GroupNonUniformShuffleRelative"
  | .groupNonUniformClustered => "GroupNonUniformClustered"
  | .groupNonUniformQuad => "GroupNonUniformQuad"
  | .subgroupBallotKHR => "SubgroupBallotKHR"
  | .drawParameters => "DrawParameters"
  | .subgroupVoteKHR => "SubgroupVoteKHR"
  | .storageBuffer16BitAccess => "StorageBuffer16BitAccess"
  | .storageUniform16 => "StorageUniform16"
  | .storagePushConstant16 => "StoragePushConstant16"
  | .storageInputOutput16 => "StorageInputOutput16"
  | .deviceGroup => "DeviceGroup"
  | .multiView => "MultiView"
  | .variablePointersStorageBuffer => "VariablePointersStorageBuffer"
  | .variablePointers => "VariablePointers"
  | .atomicStorageOps => "AtomicStorageOps"
  | .sampleMaskPostDepthCoverage => "SampleMaskPostDepthCoverage"
  | .storageBuffer8BitAccess => "StorageBuffer8BitAccess"
  | .uniformAndStorageBuffer8BitAccess => "UniformAndStorageBuffer8BitAccess"
  | .storagePushConstant8 => "StoragePushConstant8"
  | .denormPreserve => "DenormPreserve"
  | .denormFlushToZero => "DenormFlushToZero"
  | .signedZeroInfNanPreserve => "SignedZeroInfNanPreserve"
  | .roundingModeRTE => "RoundingModeRTE"
  | .roundingModeRTZ => "RoundingModeRTZ"
  | .float16ImageAMD => "Float16ImageAMD"
  | .imageGatherBiasLodAMD => "ImageGatherBiasLodAMD"
  | .fragmentMaskAMD => "FragmentMaskAMD"
  | .stencilExportEXT => "StencilExportEXT"
  | .imageReadWriteLodAMD => "ImageReadWriteLodAMD"
  | .sampleMaskOverrideCoverageNV => "SampleMaskOverrideCoverageNV"
  | .geometryShaderPassthroughNV => "GeometryShaderPassthroughNV"
  | .shaderViewportIndexLayerEXT => "ShaderViewportIndexLayerEXT"
  | .shaderViewportMaskNV => "ShaderViewportMaskNV"
  | .shaderStereoViewNV => "ShaderStereoViewNV"
  | .perViewAttributesNV => "PerViewAttributesNV"
  | .fragmentFullyCoveredEXT => "FragmentFullyCoveredEXT"
  | .meshShadingNV => "MeshShadingNV"
  | .imageFootprintNV => "ImageFootprintNV"
  | .fragmentBarycentricNV => "FragmentBarycentricNV"
  | .computeDerivativeGroupQuadsNV => "ComputeDerivativeGroupQuadsNV"
  | .fragmentDensityEXT => "FragmentDensityEXT"
  | .groupNonUniformPartitionedNV => "GroupNonUniformPartitionedNV"
  | .shaderNonUniformEXT => "ShaderNonUniformEXT"
  | .runtimeDescriptorArrayEXT => "RuntimeDescriptorArrayEXT"
  | .inputAttachmentArrayDynamicIndexingEXT => "InputAttachmentArrayDynamicIndexingEXT"
  | .uniformTexelBufferArrayDynamicIndexingEXT => "UniformTexelBufferArrayDynamicIndexingEXT"
  | .storageTexelBufferArrayDynamicIndexingEXT => "StorageTexelBufferArrayDynamicIndexingEXT"
  | .uniformBufferArrayNonUniformIndexingEXT => "UniformBufferArrayNonUniformIndexingEXT"
  | .sampledImageArrayNonUniformIndexingEXT => "SampledImageArrayNonUniformIndexingEXT"
  | .storageBufferArrayNonUniformIndexingEXT => "StorageBufferArrayNonUniformIndexingEXT"
  | .storageImageArrayNonUniformIndexingEXT => "StorageImageArrayNonUniformIndexingEXT"
  | .inputAttachmentArrayNonUniformIndexingEXT => "InputAttachmentArrayNonUniformIndexingEXT"
  | .uniformTexelBufferArrayNonUniformIndexingEXT => "UniformTexelBufferArrayNonUniformIndexingEXT"
  | .storageTexelBufferArrayNonUniformIndexingEXT => "StorageTexelBufferArrayNonUniformIndexingEXT"
  | .rayTracingNV => "RayTracingNV"
  | .vulkanMemoryModelKHR => "VulkanMemoryModelKHR"
  | .vulkanMemoryModelDeviceScopeKHR => "VulkanMemoryModelDeviceScopeKHR"
  | .physicalStorageBufferAddresses => "PhysicalStorageBufferAddresses"
  | .computeDerivativeGroupLinearNV => "ComputeDerivativeGroupLinearNV"
  | .cooperativeMatrixNV => "CooperativeMatrixNV"
  | .subgroupShuffleINTEL => "SubgroupShuffleINTEL"
  | .subgroupBufferBlockIOINTEL => "SubgroupBufferBlockIOINTEL"
  | .subgroupImageBlockIOINTEL => "SubgroupImageBlockIOINTEL"
  | .subgroupImageMediaBlockIOINTEL => "SubgroupImageMediaBlockIOINTEL"
  | .subgroupAvcMotionEstimationINTEL => "SubgroupAvcMotionEstimationINTEL"
  | .subgroupAvcMotionEstimationIntraINTEL => "SubgroupAvcMotionEstimationIntraINTEL"
  | .subgroupAvcMotionEstimationChromaINTEL => "SubgroupAvcMotionEstimationChromaINTEL"

/-- Every capability, by number. -/
def values : List Capability :=
  [.matrix, .shader, .geometry, .tessellation, .addresses, .linkage, .kernel, .vector16,
   .float16Buffer, .float16, .float64, .int64, .int64Atomics, .imageBasic, .imageReadWrite,
   .imageMipmap, .pipes, .groups, .deviceEnqueue, .literalSampler, .atomicStorage, .int16,
   .tessellationPointSize, .geometryPointSize, .imageGatherExtended, .storageImageMultisample,
   .uniformBufferArrayDynamicIndexing, .sampledImageArrayDynamicIndexing, .clipDistance,
   .cullDistance, .imageCubeArray, .sampleRateShading, .imageRect, .sampledRect, .genericPointer,
   .int8, .inputAttachment, .sparseResidency, .minLod, .sampled1D, .image1D, .sampledCubeArray,
   .sampledBuffer, .imageBuffer, .imageMSArray, .storageImageExtendedFormats, .imageQuery,
   .derivativeControl, .interpolationFunction, .transformFeedback, .geometryStreams,
   .storageImageReadWithoutFormat, .storageImageWriteWithoutFormat, .multiViewport,
   .subgroupDispatch, .namedBarrier, .pipeStorage, .groupNonUniform, .groupNonUniformVote,
   .groupNonUniformArithmetic, .groupNonUniformBallot, .groupNonUniformShuffle,
   .groupNonUniformShuffleRelative, .groupNonUniformClustered, .groupNonUniformQuad,
   .subgroupBallotKHR, .drawParameters, .subgroupVoteKHR, .storageBuffer16BitAccess,
   .storageUniform16, .storagePushConstant16, .storageInputOutput16, .deviceGroup, .multiView,
   .variablePointersStorageBuffer, .variablePointers, .atomicStorageOps,
   .sampleMaskPostDepthCoverage, .storageBuffer8BitAccess, .uniformAndStorageBuffer8BitAccess,
   .storagePushConstant8, .denormPreserve, .denormFlushToZero, .signedZeroInfNanPreserve,
   .roundingModeRTE, .roundingModeRTZ, .float16ImageAMD, .imageGatherBiasLodAMD, .fragmentMaskAMD,
   .stencilExportEXT, .imageReadWriteLodAMD, .sampleMaskOverrideCoverageNV,
   .geometryShaderPassthroughNV, .shaderViewportIndexLayerEXT, .shaderViewportMaskNV,
   .shaderStereoViewNV, .perViewAttributesNV, .fragmentFullyCoveredEXT, .meshShadingNV,
   .imageFootprintNV, .fragmentBarycentricNV, .computeDerivativeGroupQuadsNV, .fragmentDensityEXT,
   .groupNonUniformPartitionedNV, .shaderNonUniformEXT, .runtimeDescriptorArrayEXT,
   .inputAttachmentArrayDynamicIndexingEXT, .uniformTexelBufferArrayDynamicIndexingEXT,
   .storageTexelBufferArrayDynamicIndexingEXT, .uniformBufferArrayNonUniformIndexingEXT,
   .sampledImageArrayNonUniformIndexingEXT, .storageBufferArrayNonUniformIndexingEXT,
   .storageImageArrayNonUniformIndexingEXT, .inputAttachmentArrayNonUniformIndexingEXT,
   .uniformTexelBufferArrayNonUniformIndexingEXT, .storageTexelBufferArrayNonUniformIndexingEXT,
   .rayTracingNV, .vulkanMemoryModelKHR, .vulkanMemoryModelDeviceScopeKHR,
   .physicalStorageBufferAddresses, .computeDerivativeGroupLinearNV, .cooperativeMatrixNV,
   .subgroupShuffleINTEL, .subgroupBufferBlockIOINTEL, .subgroupImageBlockIOINTEL,
   .subgroupImageMediaBlockIOINTEL, .subgroupAvcMotionEstimationINTEL,
   .subgroupAvcMotionEstimationIntraINTEL, .subgroupAvcMotionEstimationChromaINTEL]

theorem mem_values (c : Capability) : c ∈ values := by
  cases c <;> decide

/-- The numbers increase along the list. -/
theorem values_increasing : values.Pairwise fun c d => c.number < d.number := by
  decide +kernel

theorem nodup_values : values.Nodup :=
  values_increasing.imp fun h heq => by simp [heq] at h

instance : Enumerated Capability where
  values := values
  mem_values := mem_values
  nodup_values := nodup_values

end Capability

end SpirvLegality
