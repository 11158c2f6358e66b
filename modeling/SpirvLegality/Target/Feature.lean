import SpirvLegality.Target
import SpirvLegality.Text.Blank

/-!
# Feature strings

A comma-separated list of switches such as `+Int64,-SPV_KHR_multiview`. Each switch names a
capability or an extension; blanks around a switch and blank switches are ignored, and the first
switch that is not understood decides the error.
-/

namespace SpirvLegality

/-- A capability or an extension, switched on or off. -/
inductive FeatureToggle where
  | capability (cap : Capability) (on : Bool)
  | extension (ext : Extension) (on : Bool)
deriving DecidableEq, Repr

namespace FeatureToggle

/-- The switch of the feature with a given name. -/
def named (on : Bool) (name : String) : Except TargetError FeatureToggle :=
  match Capability.ofName? name with
  | some cap => .ok (.capability cap on)
  | none =>
    match Extension.ofName? name with
    | some ext => .ok (.extension ext on)
    | none => .error (.unknownFeature name)

/-- Reads a sign and the name of a feature. -/
def parse (toggle : List Char) : Except TargetError FeatureToggle :=
  match toggle with
  | '+' :: name => named true (String.ofList name)
  | '-' :: name => named false (String.ofList name)
  | _ => .error (.malformedToggle (String.ofList toggle))

/-- Reads the items of a feature string, leaving out the blank ones. -/
def parseItems : List (List Char) → Except TargetError (List FeatureToggle)
  | [] => .ok []
  | item :: rest =>
    let toggle := Text.trim item
    if toggle.isEmpty then parseItems rest
    else do
      let first ← parse toggle
      let others ← parseItems rest
      return first :: others

/-- The switches of a feature string, in order. -/
def parseAll (features : String) : Except TargetError (List FeatureToggle) :=
  parseItems (features.toList.splitOn ',')

end FeatureToggle

namespace Target

/-- The target with one more switch. -/
def withToggle (t : Target) : FeatureToggle → Target
  | .capability cap on => t.withCapability cap on
  | .extension ext on => t.withExtension ext on

/-- The target with the switches of a feature string. -/
def withFeatures (t : Target) (features : String) : Except TargetError Target := do
  let toggles ← FeatureToggle.parseAll features
  return toggles.foldl withToggle t

end Target

end SpirvLegality
