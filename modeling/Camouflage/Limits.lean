/-!
# Limits

The sizes that nothing may exceed.
-/

namespace Camouflage

/-- The most bytes that one call of a builtin may produce. -/
def maxBuiltinOutput : Nat := 4096

/-- The most bytes that any prefix may have. -/
def maxPrefixLength : Nat := 16384

end Camouflage
