import HeatingPlant.Net.Endpoint

/-!
# Listening without a network

Which endpoints a program without special rights can listen at on a computer without a network.

## Main definitions

* `BindRefusal` — why an endpoint cannot be had
* `Endpoint.refusal?` — whether an endpoint can be had

## Design notes

The ports below 1024 are kept for the system; port 0 is none of them, as it asks for any free port.
A computer without a network has no addresses to tell from others: every IPv4 address can be had,
also in its IPv6 form.  Of the other IPv6 addresses only the unspecified one can.  One that is good
on its link only needs the number of a device as its scope, and there is one device, the first.
-/

namespace HeatingPlant

/-- Why an endpoint cannot be had. -/
inductive BindRefusal where
  /-- Its port is kept for the system. -/
  | keptPort
  /-- Its scope is no device. -/
  | noDevice
  /-- Its address is not one to listen at. -/
  | unfit
  /-- Its address belongs to another computer. -/
  | foreign
  deriving DecidableEq, Repr

/-- The wording of a refusal. -/
def BindRefusal.message : BindRefusal → String
  | keptPort => "Permission denied (os error 13)"
  | noDevice => "No such device (os error 19)"
  | unfit => "Invalid argument (os error 22)"
  | foreign => "Cannot assign requested address (os error 99)"

namespace Host

/-- Whether an address stands for a group of computers. -/
def isMulticast : Host → Bool
  | v4 .. => false
  | v6 groups _ => groups.get ⟨0, by decide⟩ >>> 8 = 0xff

/-- Whether an address is one of a computer without a network: an IPv4 address, also in its IPv6
form, or the unspecified IPv6 address. -/
def isOwn : Host → Bool
  | v4 .. => true
  | v6 groups _ =>
    groups.toList.take 6 = [0, 0, 0, 0, 0, 0xffff] || groups.toList = List.replicate 8 0

/-- Whether an address is good on its link only. -/
def isLinkLocal : Host → Bool
  | v4 .. => false
  | v6 groups _ => groups.get ⟨0, by decide⟩ &&& 0xffc0 = 0xfe80

/-- The scope of an address, zero if it has none. -/
def scope : Host → UInt32
  | v4 .. => 0
  | v6 _ scope => scope

/-- Why an address cannot be had, if it cannot. -/
def refusal? (host : Host) : Option BindRefusal :=
  if host.isOwn then none
  else if host.isLinkLocal then
    if host.scope = 0 then some .unfit
    else if host.scope = 1 then some .foreign
    else some .noDevice
  else some .foreign

end Host

namespace Endpoint

/-- Whether the port of an endpoint is kept for the system. -/
def hasKeptPort (endpoint : Endpoint) : Bool := 0 < endpoint.port && endpoint.port < 1024

/-- Why an endpoint cannot be had, if it cannot. -/
def refusal? (endpoint : Endpoint) : Option BindRefusal :=
  if endpoint.host.isMulticast then some .unfit
  else if endpoint.hasKeptPort then some .keptPort
  else endpoint.host.refusal?

end Endpoint

end HeatingPlant
