/-!
# Outbounds and endpoints of a core configuration

The parts of `option.Options` that the profile builder and the subscription
converter read and write. An options value is known by its Go type: some have
dialer options inside (`DialerOptionsWrapper`), some do not.
-/

namespace AiboosterEngine.Singbox

/-- The `Type` values the code tells apart; the registry has more. -/
inductive ProxyType where
  | block | dns | selector | urlTest | custom | psiphon | direct | vless | balancer
  | warp | wireGuard
  | other (name : String)
  deriving DecidableEq, Repr

def ProxyType.name : ProxyType → String
  | .block => "block"
  | .dns => "dns"
  | .selector => "selector"
  | .urlTest => "urltest"
  | .custom => "custom"
  | .psiphon => "psiphon"
  | .direct => "direct"
  | .vless => "vless"
  | .balancer => "balancer"
  | .warp => "warp"
  | .wireGuard => "wireguard"
  | .other name => name

structure TLSFragmentOptions where
  enabled : Bool := false
  size : String := ""
  sleep : String := ""
  method : String := ""
  range : String := ""
  deriving DecidableEq, Repr

structure DialerOptions where
  detour : String := ""
  tcpFastOpen : Bool := false
  tlsFragment : TLSFragmentOptions := {}
  deriving DecidableEq, Repr

/-- `Reality` is a pointer in the source; `none` is nil. -/
structure OutboundTLSOptions where
  enabled : Bool
  reality : Option Bool
  deriving DecidableEq, Repr

structure SelectorOutboundOptions where
  outbounds : List String
  default : String
  interruptExistConnections : Bool
  deriving DecidableEq, Repr

structure BalancerOutboundOptions where
  outbounds : List String
  strategy : String
  delayAcceptableRatio : Nat
  tolerance : Nat
  interruptExistConnections : Bool
  deriving DecidableEq, Repr

/-- `download` is the `Detour` of the download settings of an XHTTP transport, empty without
them. -/
inductive OutboundOptions where
  | selector (o : SelectorOutboundOptions)
  | balancer (o : BalancerOutboundOptions)
  | dialed (dialer : DialerOptions) (tls : Option OutboundTLSOptions) (download : String := "")
  | plain
  deriving DecidableEq, Repr

structure Outbound where
  type : ProxyType
  tag : String
  options : OutboundOptions
  deriving DecidableEq, Repr

/-- `TakeDialerOptions`, where the options have them. -/
def OutboundOptions.dialer? : OutboundOptions → Option DialerOptions
  | .dialed d _ _ => some d
  | _ => none

/-- `ReplaceDialerOptions`. -/
def OutboundOptions.replaceDialer (d : DialerOptions) : OutboundOptions → OutboundOptions
  | .dialed _ tls download => .dialed d tls download
  | o => o

structure WireGuardPeer where
  address : String
  port : Nat
  deriving DecidableEq, Repr

/-- `noise` says whether any noise is set; its fields are never looked at. -/
structure WireGuardEndpointOptions where
  dialer : DialerOptions := {}
  privateKey : String := ""
  peers : List WireGuardPeer := []
  mtu : Nat := 0
  noise : Bool := false
  deriving DecidableEq, Repr

structure WireGuardWARPEndpointOptions where
  dialer : DialerOptions := {}
  uniqueIdentifier : String := ""
  profileDetour : String := ""
  server : String := ""
  serverPort : Nat := 0
  mtu : Nat := 0
  deriving DecidableEq, Repr

inductive EndpointOptions where
  | warp (o : WireGuardWARPEndpointOptions)
  | wireGuard (o : WireGuardEndpointOptions)
  | dialed (dialer : DialerOptions)
  | tunnelClient (outbound : Outbound)
  | plain
  deriving DecidableEq, Repr

structure Endpoint where
  type : ProxyType
  tag : String
  options : EndpointOptions
  deriving DecidableEq, Repr

def EndpointOptions.dialer? : EndpointOptions → Option DialerOptions
  | .warp o => some o.dialer
  | .wireGuard o => some o.dialer
  | .dialed d => some d
  | .tunnelClient _ | .plain => none

def EndpointOptions.replaceDialer (d : DialerOptions) : EndpointOptions → EndpointOptions
  | .warp o => .warp { o with dialer := d }
  | .wireGuard o => .wireGuard { o with dialer := d }
  | .dialed _ => .dialed d
  | .tunnelClient outbound => .tunnelClient outbound
  | .plain => .plain

structure Options where
  outbounds : List Outbound
  endpoints : List Endpoint
  deriving DecidableEq, Repr

/-- Every tag of a configuration, outbounds first. -/
def Options.tags (o : Options) : List String :=
  o.outbounds.map (·.tag) ++ o.endpoints.map (·.tag)

/-- What a `Detour` names; an empty one nothing. -/
def detourTag (detour : String) : List String := if detour = "" then [] else [detour]

/-- The tag an outbound dials through. -/
def Outbound.dialerDetours (o : Outbound) : List String :=
  match o.options.dialer? with
  | some d => detourTag d.detour
  | none => []

/-- The tag it downloads through. -/
def Outbound.downloadDetours (o : Outbound) : List String :=
  match o.options with
  | .dialed _ _ download => detourTag download
  | _ => []

def Outbound.detours (o : Outbound) : List String := o.dialerDetours ++ o.downloadDetours

/-- A WARP endpoint also fetches its profile through a detour, and the client of a tunnel has an
outbound of its own. -/
def Endpoint.detours (e : Endpoint) : List String :=
  (match e.options.dialer? with
    | some d => detourTag d.detour
    | none => []) ++
  (match e.options with
    | .warp o => detourTag o.profileDetour
    | .tunnelClient outbound => outbound.detours
    | _ => [])

def Options.detours (o : Options) : List String :=
  o.outbounds.flatMap Outbound.detours ++ o.endpoints.flatMap Endpoint.detours

end AiboosterEngine.Singbox
