import Camouflage.Outside.Lookup

/-!
# Networks

What a tunnel runs on: what becomes of listening on an address, and what connecting to one gives.
Dialing and listening take both as functions of the text of an address, so they run on any network;
the one here is that of a host that is cut off.
-/

namespace Camouflage

namespace Ipv6

def isUnspecified (ip : Ipv6) : Bool :=
  ip.groups.all (· == 0)

def isMulticast (ip : Ipv6) : Bool :=
  ip.groups.head?.any (· ≥ 0xFF00)

def isLinkLocal (ip : Ipv6) : Bool :=
  ip.groups.head?.any fun group => 0xFE80 ≤ group && group < 0xFEC0

end Ipv6

/-- A network as one host sees it; its connections are streams of type `σ`. -/
structure Network (σ : Type) where
  /-- Listens on an endpoint; gives the endpoint that it really is. -/
  bind : Endpoint → Except IoFault Endpoint
  connect : Endpoint → Except IoFault σ

namespace Network

variable {σ : Type}

/-- No address of this host can be used for the endpoint. -/
def notAvailable : IoFault := .ofSystem .addrNotAvailable "Cannot assign requested address" 99

/-- There is no way to the endpoint. -/
def unreachable : IoFault := .ofSystem .networkUnreachable "Network is unreachable" 101

/-- The endpoint makes no sense for what it is used for. -/
def invalid : IoFault := .ofSystem .invalidInput "Invalid argument" 22

/-- The zone is no interface of this host. -/
def noInterface : IoFault := .ofSystem .uncategorized "No such device" 19

/-- The network of a host without any route, whose only interface has the number 1 and is down. The
host can listen on every IPv4 address, also on one that is mapped to IPv6, and on the unspecified
IPv6 address. It reaches nobody, not even itself. A link-local address needs a zone. -/
def isolated : Network σ where
  bind endpoint :=
    match endpoint.ip with
    | .v4 _ => .ok endpoint
    | .v6 ip =>
      if ip.isUnspecified || ip.mapped?.isSome then .ok endpoint
      else if ip.isMulticast || (ip.isLinkLocal && endpoint.zone = 0) then .error invalid
      else if ip.isLinkLocal && endpoint.zone ≠ 1 then .error noInterface
      else .error notAvailable
  connect endpoint :=
    match endpoint.ip with
    | .v4 _ => .error unreachable
    | .v6 ip =>
      if ip.isMulticast || ip.mapped?.isSome then .error unreachable
      else if ip.isLinkLocal && endpoint.zone = 0 then .error invalid
      else .error notAvailable

def bindText (network : Network σ) (addr : String) : Except IoFault Endpoint := do
  network.bind (← Endpoint.resolve addr)

def connectText (network : Network σ) (addr : String) : Except IoFault σ := do
  network.connect (← Endpoint.resolve addr)

end Network

end Camouflage
