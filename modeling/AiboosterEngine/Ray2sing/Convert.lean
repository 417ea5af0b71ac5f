import AiboosterEngine.GoSem.Base64
import AiboosterEngine.GoSem.Outcome
import AiboosterEngine.Singbox.Outbound

/-!
# From a subscription text to outbounds

`ray2sing/convert.go`, `spliter.go` and `hb64.go`. The parsers of the single
link formats are parameters: which of them succeeds on a given link, and what
it gives, is open.
-/

namespace AiboosterEngine.Ray2sing
open GoSem Singbox

/-- The parser functions of the two tables, under their keys. A parser returns an entry or
nil, or an error, or panics. -/
structure Parsers where
  outbound : Bytes → Bytes → Outcome String (Option Outbound)
  endpoint : Bytes → Bytes → Outcome String (Option Endpoint)

/-- The keys of `configTypes`. -/
def configTypes : List Bytes :=
  ["vmess://", "vless://", "trojan://", "svmess://", "svless://", "strojan://", "ss://", "tuic://",
    "hysteria://", "hysteria2://", "hy2://", "ssh://", "naive://", "ssconf://", "direct://",
    "socks://", "phttp://", "phttps://", "http://", "https://", "xvmess://", "xvless://",
    "xtrojan://", "xdirect://", "mieru://", "mierus://", "psiphon://", "dnstt://"].map utf8

/-- The keys of `endpointParsers`. -/
def endpointParsers : List Bytes :=
  ["wg://", "wireguard://", "warp://", "awg://", "[Interface]"].map utf8

/-- On failure the caller keeps the text it had. -/
def decodeBase64FaultTolerant (raw : Bytes) : Option Bytes :=
  let raw := trimSpace raw
  let raw := if raw.length % 4 = 0 then raw
    else raw ++ List.replicate (4 - raw.length % 4) Base64.pad
  (Base64.decodeStd raw).or (Base64.decodeURL raw)

def decodeBase64IfNeeded (s : Bytes) : Bytes := (decodeBase64FaultTolerant s).getD s

/-- What may begin a new entry at the start of a line. The keys of `xrayConfigTypes` are
among those of `configTypes`. -/
def entryPrefixes : List Bytes := [utf8 "#", utf8 "//"] ++ configTypes ++ endpointParsers

def startsEntry (s : Bytes) : Bool := entryPrefixes.any (·.isPrefixOf s)

/-- The text before the first match of `splitPattern`, and the text from each match to the
next. `bol` says that the text stands at the beginning of a line. -/
def entries : (bol : Bool) → Bytes → Bytes × List Bytes
  | _, [] => ([], [])
  | bol, c :: s =>
    let (before, more) := entries (c == newline) s
    if bol && startsEntry (c :: s) then ([], (c :: before) :: more)
    else (c :: before, more)

def splitByPrefix (text : Bytes) : List Bytes :=
  match (entries true text).2 with
  | [] => [text]
  | found => found

def isComment : Bytes → Bool
  | c :: _ => c == 35 || c == 47
  | [] => false

def expandDecodedConfig (configs : Bytes) : List Bytes :=
  let lines := (split [newline] configs).flatMap fun config =>
    split [newline] ((decodeBase64IfNeeded config).map
      fun c => if c == carriageReturn then newline else c)
  let joined := (lines.intersperse [newline]).flatten
  ((splitByPrefix joined).map trimSpace).filter fun tc => !tc.isEmpty && !isComment tc

structure OutEnd where
  outbound : Option Outbound := none
  endpoint : Option Endpoint := none
  deriving DecidableEq, Repr

def Outbound.nameByType (o : Outbound) : Outbound :=
  if o.tag = "" then { o with tag := o.type.name } else o

def Endpoint.nameByType (e : Endpoint) : Endpoint :=
  if e.tag = "" then { e with tag := e.type.name } else e

/-- The parser under the key that begins `config`; without such a key nothing is parsed. -/
def lookup {α : Type} (keys : List Bytes) (parser : Bytes → Bytes → Outcome String (Option α))
    (config : Bytes) : Outcome String (Option α) :=
  match keys.find? (·.isPrefixOf config) with
  | some k => parser k config
  | none => .ok none

variable (p : Parsers)

/-- A panic of a parser is recovered and becomes an error. -/
def processSingleConfig (config : Bytes) : Except String OutEnd :=
  let run : Outcome String OutEnd := do
    let outbound ← lookup configTypes p.outbound config
    let endpoint ← lookup endpointParsers p.endpoint config
    if outbound.isNone && endpoint.isNone then .err "Not supported config type"
    else pure ⟨outbound.map Outbound.nameByType, endpoint.map Endpoint.nameByType⟩
  match run with
  | .ok outend => .ok outend
  | .err e => .error e
  | .panicked => .error "Error in Parsing:"

/-- What a hop leaves in the result. -/
inductive Emitted where
  | outbound (o : Outbound)
  | endpoint (e : Endpoint)
  deriving DecidableEq, Repr

def Emitted.tag : Emitted → String
  | .outbound o => o.tag
  | .endpoint e => e.tag

def Emitted.dialer? : Emitted → Option DialerOptions
  | .outbound o => o.options.dialer?
  | .endpoint e => e.options.dialer?

def Emitted.outbound? : Emitted → Option Outbound
  | .outbound o => some o
  | .endpoint _ => none

def Emitted.endpoint? : Emitted → Option Endpoint
  | .outbound _ => none
  | .endpoint e => some e

/-- The numbered tag. -/
def numbered (tag : String) (counter : Nat) : String := tag ++ " §" ++ " " ++ toString counter

/-- The tag is numbered, and the carried tag becomes the detour where the options have a
dialer. -/
def chainOutbound (o : Outbound) (detourTag : String) (counter : Nat) : Outbound :=
  { o with
    tag := numbered o.tag counter
    options := match o.options.dialer? with
      | some d => o.options.replaceDialer { d with detour := detourTag }
      | none => o.options }

def chainEndpoint (e : Endpoint) (detourTag : String) (counter : Nat) : Endpoint :=
  { e with
    tag := numbered e.tag counter
    options := match e.options.dialer? with
      | some d => e.options.replaceDialer { d with detour := detourTag }
      | none => e.options }

/-- An outbound goes before an endpoint. That there is neither cannot happen:
`processSingleConfig` has checked it. -/
def emit (outend : OutEnd) (detourTag : String) (counter : Nat) : Option Emitted :=
  match outend.outbound, outend.endpoint with
  | some o, _ => some (.outbound (chainOutbound o detourTag counter))
  | none, some e => some (.endpoint (chainEndpoint e detourTag counter))
  | none, none => none

/-- A hop of the line, decoded and parsed. -/
def parseHop (hop : Bytes) : Except String OutEnd :=
  processSingleConfig p (decodeBase64IfNeeded hop)

/-- The variables of the inner loop. `emits` has one entry for each hop done, `none` for a
hop that was skipped. -/
structure ChainState where
  emits : List (Option Emitted)
  detourTag : String
  counter : Nat
  deriving DecidableEq, Repr

/-- The body of the inner loop. A hop with an error is passed by; the tag carried to the
hop before it stays. -/
def chainStep (hop : Bytes) (s : ChainState) : ChainState :=
  match parseHop p hop with
  | .error _ => { s with emits := none :: s.emits }
  | .ok outend =>
    match emit outend s.detourTag s.counter with
    | some e => ⟨some e :: s.emits, e.tag, s.counter + 1⟩
    | none => ⟨none :: s.emits, s.detourTag, s.counter + 1⟩

def chainLoop (counter : Nat) (hops : List Bytes) : ChainState :=
  hops.foldr (chainStep p) ⟨[], "", counter⟩

/-- The hops of one entry. -/
def hopsOf (config : Bytes) : List Bytes := split (utf8 " -> ") config

/-- The outer loop: every line that is not skipped, with what its hops emit. -/
def lineLoop (p : Parsers) : (counter : Nat) → List Bytes →
    List (List Bytes × List (Option Emitted))
  | _, [] => []
  | counter, config :: rest =>
    if config.length < 5 || isComment config then lineLoop p counter rest
    else
      let hops := hopsOf config
      let done := chainLoop p counter hops
      (hops, done.emits) :: lineLoop p done.counter rest

def emissions (input : Bytes) : List (List Bytes × List (Option Emitted)) :=
  lineLoop p 0 (expandDecodedConfig input)

/-- Entries are appended in the order of the loops: line by line, each from its last hop. -/
def emittedInOrder (lines : List (List Bytes × List (Option Emitted))) : List Emitted :=
  lines.flatMap fun line => line.2.reverse.filterMap id

def fullConfig (emitted : List Emitted) : Except String Options :=
  let outbounds := emitted.filterMap Emitted.outbound?
  let endpoints := emitted.filterMap Emitted.endpoint?
  if outbounds.isEmpty && endpoints.isEmpty then .error "No outbounds found"
  else .ok ⟨outbounds, endpoints⟩

/-- The argument `useXrayWhenPossible` is behind `false &&` and reaches nothing. -/
def generateConfigLite (input : Bytes) : Except String Options :=
  fullConfig (emittedInOrder (emissions p input))

end AiboosterEngine.Ray2sing
