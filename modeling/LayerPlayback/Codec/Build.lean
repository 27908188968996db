import LayerPlayback.Build
import LayerPlayback.Json.Decode

namespace LayerPlayback

/-!
# JSON forms of build options and counts
-/

/-- Build options in JSON. -/
def BuildOptions.toJson (options : BuildOptions) : Json :=
  .object
    [ ("family_prefix", .ofChar options.familyPrefix),
      ("allow_xyz_reset", .bool options.allowXyzReset),
      ("path_width", .ofFloat options.pathWidth) ]

/-- Read build options. -/
def BuildOptions.ofJson? (json : Json) : Option BuildOptions :=
  match json.record? ["family_prefix", "allow_xyz_reset", "path_width"] with
  | some [familyPrefix, allowXyzReset, pathWidth] => do
      some
        { familyPrefix := ← Json.required? Json.char? familyPrefix
          allowXyzReset := ← Json.required? Json.bool? allowXyzReset
          pathWidth := ← Json.required? Json.float? pathWidth }
  | _ => none

/-- Build counts in JSON. -/
def BuildStats.toJson (stats : BuildStats) : Json :=
  .object
    [ ("lines", .ofNat stats.lines),
      ("commands", .ofNat stats.commands),
      ("linear_moves", .ofNat stats.linearMoves),
      ("deposit_segments", .ofNat stats.depositSegments),
      ("travel_segments", .ofNat stats.travelSegments),
      ("skipped", .ofNat stats.skipped) ]

/-- The names of the build counts. -/
def BuildStats.names : List String :=
  [ "lines", "commands", "linear_moves",
    "deposit_segments", "travel_segments", "skipped" ]

/-- Read build counts. -/
def BuildStats.ofJson? (json : Json) : Option BuildStats :=
  match json.record? names with
  | some [lines, commands, linearMoves, depositSegments, travelSegments, skipped] => do
      some
        { lines := ← Json.required? Json.natural? lines
          commands := ← Json.required? Json.natural? commands
          linearMoves := ← Json.required? Json.natural? linearMoves
          depositSegments := ← Json.required? Json.natural? depositSegments
          travelSegments := ← Json.required? Json.natural? travelSegments
          skipped := ← Json.required? Json.natural? skipped }
  | _ => none

end LayerPlayback
