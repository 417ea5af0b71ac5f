import AiboosterEngine.GoSem.Outcome
import AiboosterEngine.GoSem.Text
import AiboosterEngine.Singbox.Outbound

/-!
# `setOutbounds`: from a parsed profile to the outbounds of the core

`v2/config/builder.go`, `outbound.go` and `warp.go`. What the resolver and the
`warp` package answer is the parameter `net`; nothing below depends on it.
-/

namespace AiboosterEngine.Config
open GoSem Singbox

def outboundDirectTag := "direct §hide§"
def outboundBypassTag := "bypass §hide§"
def outboundSelectTag := "select"
def outboundURLTestTag := "lowest"
def outboundRoundRobinTag := "balance"
def outboundDNSTag := "dns-out §hide§"
def outboundDirectFragmentTag := "direct-fragment §hide§"
def warpConfigTag := "🔒 WARP"

/-- `OutboundRoundRobinTag` is not in the list. -/
def predefinedOutboundTags : List String :=
  [outboundDirectTag, outboundBypassTag, outboundSelectTag, outboundURLTestTag, outboundDNSTag,
    outboundDirectFragmentTag, warpConfigTag]

inductive WarpMode where
  | warpOverProxy
  | proxyOverWarp
  | other (mode : String)
  deriving DecidableEq, Repr

structure WarpOptions where
  enableWarp : Bool
  mode : WarpMode
  privateKey : String
  deriving DecidableEq, Repr

structure TLSTricks where
  enableFragment : Bool
  fragmentSize : String
  fragmentSleep : String
  deriving DecidableEq, Repr

/-- The fields of `HiddifyOptions` that `setOutbounds` reads or writes. -/
structure HiddifyOptions where
  warp : WarpOptions
  tlsTricks : TLSTricks
  balancerStrategy : String
  connectionTestUrl : String
  connectionTestUrls : List String
  mtu : Nat
  deriving DecidableEq, Repr

/-- The resolver (`isBlockedDomain`, `isBlockedConnectionTestUrl`) and the random
choices of the `warp` package. -/
structure Net where
  isBlockedDomain : String → Bool
  isBlockedConnectionTestUrl : String → Bool
  randomWarpIPv4 : String
  randomWarpIPv6 : String
  randomWarpPort : Nat

variable (base : Outbound)

def isOutboundReality : Bool :=
  if base.type ≠ .vless then false
  else match base.options with
    | .dialed _ (some tls) _ => tls.enabled && tls.reality.getD false
    | _ => false

section
variable (opt : HiddifyOptions)

def patchOutboundFragment : Outbound :=
  if opt.tlsTricks.enableFragment then
    match base.options.dialer? with
    | some dialer =>
      let dialer := { dialer with
        tcpFastOpen := false
        tlsFragment := { enabled := opt.tlsTricks.enableFragment,
                         size := opt.tlsTricks.fragmentSize,
                         sleep := opt.tlsTricks.fragmentSleep } }
      { base with options := base.options.replaceDialer dialer }
    | none => base
  else base

/-- The transport is looked for with assertions to the value types
`VLESSOutboundOptions`, `TrojanOutboundOptions` and `VMessOutboundOptions`, while every
options value is stored as a pointer. It stays nil, so the code after the direct case
always returns `base`. -/
def patchOutboundTLSTricks : Outbound :=
  match base.type with
  | .selector | .urlTest | .block | .dns => base
  | _ =>
    if isOutboundReality base then base
    else if base.type = .direct then patchOutboundFragment base opt
    else base

/-- The error result is nil on every path. -/
def patchOutbound : Outbound :=
  patchOutboundTLSTricks base opt

end

def patchHiddifyWarpFromConfig (out : Outbound) (opt : HiddifyOptions) : Outbound :=
  if out.type = .psiphon then out
  else if opt.warp.enableWarp && opt.warp.mode = .proxyOverWarp then
    match out.options.dialer? with
    | some dialer =>
      { out with options := out.options.replaceDialer { dialer with detour := warpConfigTag } }
    | none => out
  else out

variable (net : Net)

/-- The first peer of a WireGuard endpoint with its address and port filled in. An
address `auto6` is first replaced by a random IPv6 one and then, being no longer
`auto6`, by an IPv4 one. -/
def patchPeer (peer : WireGuardPeer) : WireGuardPeer :=
  let host := if peer.address = "" then "auto" else peer.address
  let address :=
    if host = "default" || host = "random" || host = "auto" || host = "auto4" || host = "auto6"
        || net.isBlockedDomain host then
      let host := if host = "auto6" then net.randomWarpIPv6 else host
      if host = "auto6" then host else net.randomWarpIPv4
    else peer.address
  ⟨address, if peer.port = 0 then net.randomWarpPort else peer.port⟩

/-- `patchWarp` with `final = true`. The first branch returns before the code that would
register a key. -/
def patchWarp (base : Endpoint) : Endpoint :=
  match base.type, base.options with
  | .warp, .warp o =>
    { base with options := .warp { o with server := "", serverPort := 0,
                                          profileDetour := outboundDirectFragmentTag } }
  | .wireGuard, .wireGuard o =>
    let peers := match o.peers with
      | [] => [patchPeer net ⟨"auto", 0⟩]
      | p :: rest => patchPeer net p :: rest
    let o' := if o.dialer.detour = "" then { o with peers := peers }
      else { o with peers := peers, mtu := if o.mtu < 100 then 1280 else o.mtu, noise := false }
    { base with options := .wireGuard o' }
  | _, _ => base

def patchEndpoint (base : Endpoint) : Endpoint := patchWarp net base

def generateWarpSingboxNew (uniqueIdentifier : String) : Endpoint :=
  ⟨.warp, "WARP", .warp { uniqueIdentifier := uniqueIdentifier,
                          profileDetour := outboundSelectTag, mtu := 1280 }⟩

def hidden (tag : String) : Bool := containsText tag "§hide§"

/-- The cases of the switch on `out.Type` that go on to the next outbound. -/
def skippedType : ProxyType → Bool
  | .block | .dns | .selector | .urlTest | .custom => true
  | _ => false

/-- The loop over `input.Outbounds`: the visible tags, and the outbounds kept. -/
def outboundLoop (opt : HiddifyOptions) :
    (hasPsiphon : Bool) → List Outbound → List String × List Outbound
  | _, [] => ([], [])
  | hasPsiphon, out :: rest =>
    if predefinedOutboundTags.contains out.tag then outboundLoop opt hasPsiphon rest
    else
      let out := patchOutbound out opt
      if skippedType out.type then outboundLoop opt hasPsiphon rest
      else if ["direct", "bypass", "block"].contains out.tag then outboundLoop opt hasPsiphon rest
      else if out.type = .psiphon && hasPsiphon then outboundLoop opt hasPsiphon rest
      else
        let (tags, outbounds) := outboundLoop opt (hasPsiphon || out.type = .psiphon) rest
        (if hidden out.tag then tags else out.tag :: tags,
          patchHiddifyWarpFromConfig out opt :: outbounds)

/-- The generated WARP endpoint. In the other modes `opt.MTU` is raised instead of the
endpoint's own. -/
def warpEndpoint (opt : HiddifyOptions) : Endpoint × HiddifyOptions :=
  let out := { generateWarpSingboxNew "p1" with tag := warpConfigTag }
  match out.options with
  | .warp o =>
    if opt.warp.mode = .warpOverProxy then
      let o := { o with dialer := { o.dialer with detour := outboundSelectTag }, mtu := 1280 }
      (patchEndpoint net { out with options := .warp o }, opt)
    else
      let o := { o with dialer := { o.dialer with detour := outboundDirectTag } }
      (patchEndpoint net { out with options := .warp o }, { opt with mtu := max opt.mtu 1340 })
  | _ => (patchEndpoint net out, opt)

variable (opt : HiddifyOptions)

def duplicateWarp (e : Endpoint) : Bool :=
  opt.warp.enableWarp &&
    match e.type, e.options with
    | .warp, .warp o => o.uniqueIdentifier = "p1"
    | .wireGuard, .wireGuard o => o.privateKey = opt.warp.privateKey
    | _, _ => false

def raiseMTU (e : Endpoint) : HiddifyOptions :=
  match e.type, e.options with
  | .warp, .warp _ | .wireGuard, .wireGuard _ =>
    if opt.warp.enableWarp && opt.warp.mode = .warpOverProxy then
      { opt with mtu := max opt.mtu 1340 }
    else opt
  | _, _ => opt

/-- The loop over `input.Endpoints`. -/
def endpointLoop (net : Net) :
    HiddifyOptions → List Endpoint → HiddifyOptions × List String × List Endpoint
  | opt, [] => (opt, [], [])
  | opt, e :: rest =>
    if predefinedOutboundTags.contains e.tag then endpointLoop net opt rest
    else if duplicateWarp opt e then endpointLoop net opt rest
    else
      let out := patchEndpoint net e
      let (opt, tags, endpoints) := endpointLoop net (raiseMTU opt e) rest
      (opt, if hidden out.tag then tags else out.tag :: tags, out :: endpoints)

def balancerOutbound (tag strategy : String) (tags : List String) : Outbound :=
  ⟨.balancer, tag, .balancer ⟨tags, strategy, 2, 1, true⟩⟩

variable (tags : List String) (default : String)

def selectorOutbound : Outbound :=
  ⟨.selector, outboundSelectTag, .selector ⟨tags, default, true⟩⟩

def directOutbounds : List Outbound :=
  [⟨.direct, outboundDirectTag, .dialed {} none⟩,
    ⟨.direct, outboundDirectFragmentTag,
      .dialed { tlsFragment := { enabled := true, size := opt.tlsTricks.fragmentSize,
                                 sleep := opt.tlsTricks.fragmentSleep } } none⟩]

def defaultConnectionTestUrls (opt : HiddifyOptions) : HiddifyOptions :=
  if opt.connectionTestUrls = [] then
    { opt with connectionTestUrls :=
        if net.isBlockedConnectionTestUrl opt.connectionTestUrl then [opt.connectionTestUrl]
        else [opt.connectionTestUrl, "https://www.google.com/generate_204",
          "http://captive.apple.com/generate_204", "https://cp.cloudflare.com"] }
  else opt

/-- The groups put in front of the outbounds: none, the URL test alone when WARP is the
main detour, or both balancers. With them the tags they add to the selector, and the
selector's default. -/
def groups : List Outbound × List String × String :=
  let urlTest := balancerOutbound outboundURLTestTag "lowest-delay" tags
  let strategy := if opt.balancerStrategy = "" then "round-robin" else opt.balancerStrategy
  let balancer := balancerOutbound outboundRoundRobinTag strategy tags
  if tags.length > 1 then
    if opt.warp.enableWarp then ([urlTest], [urlTest.tag], urlTest.tag)
    else ([balancer, urlTest], [urlTest.tag, balancer.tag], balancer.tag)
  else ([], [], default)

/-- `tags[0]` is read before anything is known of the length of `tags`. A tag that
contains `§default§` does not become the default: the text `§default§` does. -/
def defaultSelect : List String → Outcome String String
  | [] => .panicked
  | t :: tags => .ok (if (t :: tags).any (containsText · "§default§") then "§default§" else t)

/-- The generated selector and, in front of the profile's outbounds, its groups. -/
def generatedOutbounds : List Outbound :=
  let (front, groupTags, default) := groups opt tags default
  selectorOutbound (groupTags ++ tags) default :: front

/-- Returns the new options and `opt` as the call leaves it. The result is never an error:
no patch of this version fails. -/
def setOutbounds (input : Options) (opt : HiddifyOptions) :
    Outcome String (Options × HiddifyOptions) := do
  let (outboundTags, outbounds) := outboundLoop opt false input.outbounds
  let (warp, opt) :=
    if opt.warp.enableWarp then
      let (out, opt) := warpEndpoint net opt
      ([out], opt)
    else ([], opt)
  let (opt, endpointTags, endpoints) := endpointLoop net opt input.endpoints
  let tags := outboundTags ++ endpointTags
  let opt := defaultConnectionTestUrls net opt
  let default ← defaultSelect tags
  let generated := generatedOutbounds opt tags default
  pure (⟨generated ++ outbounds ++ directOutbounds opt, warp ++ endpoints⟩, opt)

end AiboosterEngine.Config
