import Camouflage.Address.Ipv6

/-!
# Endpoints

An endpoint is an IP address with a service number; an IPv6 address may carry a zone, the number of
an interface.
-/

namespace Camouflage

inductive IpAddress where
  | v4 (ip : Ipv4)
  | v6 (ip : Ipv6)
  deriving DecidableEq

/-- An IP address with a service number. -/
structure Endpoint where
  ip : IpAddress
  /-- The number of an interface, or zero for any. -/
  zone : UInt32 := 0
  number : UInt16
  deriving DecidableEq

end Camouflage
