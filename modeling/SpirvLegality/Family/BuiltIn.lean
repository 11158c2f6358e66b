import SpirvLegality.Enumerant

/-!
# Built-in variables

The operand values that follow the decoration which marks a variable as built in. Where a row lists
several capabilities, any one of them is enough.
-/

namespace SpirvLegality.Family

/-- The meaning that the environment gives to a variable. -/
def builtInTable : EnumTable UInt32 where
  family := "BuiltIn"
  rows := #[
    .plain 0 "Position" [.shader],
    .plain 1 "PointSize" [.shader],
    .plain 3 "ClipDistance" [.clipDistance],
    .plain 4 "CullDistance" [.cullDistance],
    .plain 5 "VertexId" [.shader],
    .plain 6 "InstanceId" [.shader],
    .plain 7 "PrimitiveId" [.geometry, .tessellation, .rayTracingNV],
    .plain 8 "InvocationId" [.geometry, .tessellation],
    .plain 9 "Layer" [.geometry],
    .plain 10 "ViewportIndex" [.multiViewport],
    .plain 11 "TessLevelOuter" [.tessellation],
    .plain 12 "TessLevelInner" [.tessellation],
    .plain 13 "TessCoord" [.tessellation],
    .plain 14 "PatchVertices" [.tessellation],
    .plain 15 "FragCoord" [.shader],
    .plain 16 "PointCoord" [.shader],
    .plain 17 "FrontFacing" [.shader],
    .plain 18 "SampleId" [.sampleRateShading],
    .plain 19 "SamplePosition" [.sampleRateShading],
    .plain 20 "SampleMask" [.shader],
    .plain 22 "FragDepth" [.shader],
    .plain 23 "HelperInvocation" [.shader],
    .plain 24 "NumWorkGroups" [],
    .plain 25 "WorkgroupSize" [],
    .plain 26 "WorkgroupId" [],
    .plain 27 "LocalInvocationId" [],
    .plain 28 "GlobalInvocationId" [],
    .plain 29 "LocalInvocationIndex" [],
    .plain 30 "WorkDim" [.kernel],
    .plain 31 "GlobalSize" [.kernel],
    .plain 32 "EnqueuedWorkgroupSize" [.kernel],
    .plain 33 "GlobalOffset" [.kernel],
    .plain 34 "GlobalLinearId" [.kernel],
    .plain 36 "SubgroupSize" [.kernel, .groupNonUniform, .subgroupBallotKHR],
    .plain 37 "SubgroupMaxSize" [.kernel],
    .plain 38 "NumSubgroups" [.kernel, .groupNonUniform],
    .plain 39 "NumEnqueuedSubgroups" [.kernel],
    .plain 40 "SubgroupId" [.kernel, .groupNonUniform],
    .plain 41 "SubgroupLocalInvocationId" [.kernel, .groupNonUniform, .subgroupBallotKHR],
    .plain 42 "VertexIndex" [.shader],
    .plain 43 "InstanceIndex" [.shader],
    .plain 4416 "SubgroupEqMask" [.subgroupBallotKHR, .groupNonUniformBallot],
    .plain 4417 "SubgroupGeMask" [.subgroupBallotKHR, .groupNonUniformBallot],
    .plain 4418 "SubgroupGtMask" [.subgroupBallotKHR, .groupNonUniformBallot],
    .plain 4419 "SubgroupLeMask" [.subgroupBallotKHR, .groupNonUniformBallot],
    .plain 4420 "SubgroupLtMask" [.subgroupBallotKHR, .groupNonUniformBallot],
    .plain 4424 "BaseVertex" [.drawParameters],
    .plain 4425 "BaseInstance" [.drawParameters],
    .plain 4426 "DrawIndex" [.drawParameters, .meshShadingNV],
    .plain 4438 "DeviceIndex" [.deviceGroup],
    .plain 4440 "ViewIndex" [.multiView],
    .plain 4492 "BaryCoordNoPerspAMD" [],
    .plain 4493 "BaryCoordNoPerspCentroidAMD" [],
    .plain 4494 "BaryCoordNoPerspSampleAMD" [],
    .plain 4495 "BaryCoordSmoothAMD" [],
    .plain 4496 "BaryCoordSmoothCentroid" [],
    .plain 4497 "BaryCoordSmoothSample" [],
    .plain 4498 "BaryCoordPullModel" [],
    .plain 5014 "FragStencilRefEXT" [.stencilExportEXT],
    .plain 5253 "ViewportMaskNV" [.shaderViewportMaskNV, .meshShadingNV],
    .plain 5257 "SecondaryPositionNV" [.shaderStereoViewNV],
    .plain 5258 "SecondaryViewportMaskNV" [.shaderStereoViewNV],
    .plain 5261 "PositionPerViewNV" [.perViewAttributesNV, .meshShadingNV],
    .plain 5262 "ViewportMaskPerViewNV" [.perViewAttributesNV, .meshShadingNV],
    .plain 5264 "FullyCoveredEXT" [.fragmentFullyCoveredEXT],
    .plain 5274 "TaskCountNV" [.meshShadingNV],
    .plain 5275 "PrimitiveCountNV" [.meshShadingNV],
    .plain 5276 "PrimitiveIndicesNV" [.meshShadingNV],
    .plain 5277 "ClipDistancePerViewNV" [.meshShadingNV],
    .plain 5278 "CullDistancePerViewNV" [.meshShadingNV],
    .plain 5279 "LayerPerViewNV" [.meshShadingNV],
    .plain 5280 "MeshViewCountNV" [.meshShadingNV],
    .plain 5281 "MeshViewIndices" [.meshShadingNV],
    .plain 5286 "BaryCoordNV" [.fragmentBarycentricNV],
    .plain 5287 "BaryCoordNoPerspNV" [.fragmentBarycentricNV],
    .plain 5292 "FragSizeEXT" [.fragmentDensityEXT],
    .plain 5293 "FragInvocationCountEXT" [.fragmentDensityEXT],
    .plain 5319 "LaunchIdNV" [.rayTracingNV],
    .plain 5320 "LaunchSizeNV" [.rayTracingNV],
    .plain 5321 "WorldRayOriginNV" [.rayTracingNV],
    .plain 5322 "WorldRayDirectionNV" [.rayTracingNV],
    .plain 5323 "ObjectRayOriginNV" [.rayTracingNV],
    .plain 5324 "ObjectRayDirectionNV" [.rayTracingNV],
    .plain 5325 "RayTminNV" [.rayTracingNV],
    .plain 5326 "RayTmaxNV" [.rayTracingNV],
    .plain 5327 "InstanceCustomIndexNV" [.rayTracingNV],
    .plain 5330 "ObjectToWorldNV" [.rayTracingNV],
    .plain 5331 "WorldToObjectNV" [.rayTracingNV],
    .plain 5332 "HitTNV" [.rayTracingNV],
    .plain 5333 "HitKindNV" [.rayTracingNV],
    .plain 5351 "IncomingRayFlagsNV" [.rayTracingNV]]

end SpirvLegality.Family
