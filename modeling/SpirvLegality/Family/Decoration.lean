import SpirvLegality.Enumerant

/-!
# Decorations

The operand values of the decoration instructions. Two of them exist since SPIR-V 1.4 and before
that through an extension. Where a row lists several capabilities, any one of them is enough.
-/

namespace SpirvLegality.Family

/-- Extra information on a value or a member. -/
def decorationTable : EnumTable UInt32 where
  family := "Decoration"
  rows := #[
    .plain 0 "RelaxedPrecision" [.shader],
    .plain 1 "SpecId" [.shader, .kernel],
    .plain 2 "Block" [.shader],
    .plain 3 "BufferBlock" [.shader],
    .plain 4 "RowMajor" [.matrix],
    .plain 5 "ColMajor" [.matrix],
    .plain 6 "ArrayStride" [.shader],
    .plain 7 "MatrixStride" [.matrix],
    .plain 8 "GLSLShared" [.shader],
    .plain 9 "GLSLPacked" [.shader],
    .plain 10 "CPacked" [.kernel],
    .plain 11 "BuiltIn" [],
    .plain 13 "NoPerspective" [.shader],
    .plain 14 "Flat" [.shader],
    .plain 15 "Patch" [.tessellation],
    .plain 16 "Centroid" [.shader],
    .plain 17 "Sample" [.sampleRateShading],
    .plain 18 "Invariant" [.shader],
    .plain 19 "Restrict" [],
    .plain 20 "Aliased" [],
    .plain 21 "Volatile" [],
    .plain 22 "Constant" [.kernel],
    .plain 23 "Coherent" [],
    .plain 24 "NonWritable" [],
    .plain 25 "NonReadable" [],
    .plain 26 "Uniform" [.shader],
    .plain 27 "UniformId" [.shader],
    .plain 28 "SaturatedConversion" [.kernel],
    .plain 29 "Stream" [.geometryStreams],
    .plain 30 "Location" [.shader],
    .plain 31 "Component" [.shader],
    .plain 32 "Index" [.shader],
    .plain 33 "Binding" [.shader],
    .plain 34 "DescriptorSet" [.shader],
    .plain 35 "Offset" [.shader],
    .plain 36 "XfbBuffer" [.transformFeedback],
    .plain 37 "XfbStride" [.transformFeedback],
    .plain 38 "FuncParamAttr" [.kernel],
    .plain 39 "FPRoundingMode" [],
    .plain 40 "FPFastMathMode" [.kernel],
    .plain 41 "LinkageAttributes" [.linkage],
    .plain 42 "NoContraction" [.shader],
    .plain 43 "InputAttachmentIndex" [.inputAttachment],
    .plain 44 "Alignment" [.kernel],
    .plain 45 "MaxByteOffset" [.addresses],
    .plain 46 "AlignmentId" [.kernel],
    .plain 47 "MaxByteOffsetId" [.addresses],
    { value := 4469, name := "NoSignedWrap", capabilities := [],
      extensions := [.khrNoIntegerWrapDecoration], minVersion := .of 1 4 },
    { value := 4470, name := "NoUnsignedWrap", capabilities := [],
      extensions := [.khrNoIntegerWrapDecoration], minVersion := .of 1 4 },
    .plain 4999 "ExplicitInterpAMD" [],
    .plain 5248 "OverrideCoverageNV" [.sampleMaskOverrideCoverageNV],
    .plain 5250 "PassthroughNV" [.geometryShaderPassthroughNV],
    .plain 5252 "ViewportRelativeNV" [.shaderViewportMaskNV],
    .plain 5256 "SecondaryViewportRelativeNV" [.shaderStereoViewNV],
    .plain 5271 "PerPrimitiveNV" [.meshShadingNV],
    .plain 5272 "PerViewNV" [.meshShadingNV],
    .plain 5273 "PerVertexNV" [.fragmentBarycentricNV],
    .plain 5300 "NonUniformEXT" [.shaderNonUniformEXT],
    .plain 5355 "RestrictPointer" [.physicalStorageBufferAddresses],
    .plain 5356 "AliasedPointer" [.physicalStorageBufferAddresses],
    .plain 5634 "CountBuffer" [],
    .plain 5635 "UserSemantic" []]

end SpirvLegality.Family
