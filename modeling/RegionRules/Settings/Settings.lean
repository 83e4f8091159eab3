import RegionRules.Settings.Version

/-!
# Dispatch settings

What a match sets about the evaluation of its rules.
-/

set_option autoImplicit false

namespace RegionRules

/-- Settings of a match. -/
structure Settings where
  /-- Version of the match's content. -/
  proto : Version := .legacy
  /-- Settles the regime whatever the version. -/
  priorityOverride : Option Bool := none
  maxBuildHeight : Option Int32 := none
  deriving DecidableEq

namespace Settings

/-- The settings of content of a version. -/
def ofVersion (proto : Version) : Settings := { proto }

/-- The rules are walked in one pass over all scopes. -/
def usesPriority (s : Settings) : Bool :=
  s.priorityOverride.getD (s.proto.atLeast .regionPriority)

/-- Block changes by explosions keep the player behind them. -/
def ownedExplosions (s : Settings) : Bool := s.proto.atLeast .ownedExplosions

end Settings

end RegionRules
