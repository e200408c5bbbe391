import HttpSuite.Value

/-!
# Merging mappings

The fields of the second mapping win over those of the first; where both hold a mapping, the two are
merged in turn.
-/

namespace HttpSuite.Mapping

mutual

/-- A value over another one. -/
def overlayValue : Value → Option Value → Value
  | .object new, some (.object old) => .object (mergeInto new old)
  | v, _ => v

/-- The fields of the first mapping merged into the second. -/
def mergeInto : List (String × Value) → Mapping → Mapping
  | [], target => target
  | (key, v) :: rest, target =>
    mergeInto rest (Entries.insert key (overlayValue v (Entries.get? key target)) target)

end

/-- The second mapping merged into the first. -/
def merge (target source : Mapping) : Mapping := mergeInto source target

end HttpSuite.Mapping
