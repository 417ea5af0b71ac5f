import AiboosterEngine.Dns.Client
import AiboosterEngine.GoSem.Loop
import AiboosterEngine.Route.DnsRule

/-!
# The DNS router

`dns/router.go`: a query goes to the server of the first rule that applies, and
when the answer is rejected, or the server fails and the rule says so, to that of
the next. What the client returns in each turn is arbitrary. The loops keep a log
of their attempts.
-/

namespace AiboosterEngine.Dns
open GoSem Route

structure Transport where
  tag : Bytes
  isFakeIP : Bool := false
  /-- The strategy and the client subnet of a legacy transport. -/
  legacy : Option (DomainStrategy × Prefix) := none

/-- `RuleActionDNSRouteOptions` without `BypassIfFailed`, which only routes have. -/
structure RouteOptions where
  strategy : DomainStrategy := .asIS
  disableCache : Bool := false
  rewriteTTL : Option UInt32 := none
  clientSubnet : Prefix := .zero

inductive RejectMethod where
  | default
  | drop
  | reply
  deriving DecidableEq, Repr

inductive DNSRuleAction where
  | route (server : Bytes) (options : RouteOptions) (bypassIfFailed : Bool)
  | routeOptions (options : RouteOptions)
  | reject (method : RejectMethod)
  | predefined (rcode : Nat) (answer : List RR)

/-- A rule of the router; the action of a rule without one is nil. -/
structure Rule (Addr κ : Type) where
  conditions : DNSRule Addr κ
  action : Option DNSRuleAction

structure Router (Addr κ : Type) where
  rules : List (Rule Addr κ)
  transport : Bytes → Option Transport
  defaultTransport : Transport
  defaultDomainStrategy : DomainStrategy := .asIS

def RouteOptions.apply (action : RouteOptions) (isFakeIP : Bool) (options : DNSQueryOptions) :
    DNSQueryOptions :=
  { strategy := if action.strategy = .asIS then options.strategy else action.strategy
    disableCache := options.disableCache || isFakeIP || action.disableCache
    rewriteTTL := action.rewriteTTL.or options.rewriteTTL
    clientSubnet :=
      if action.clientSubnet.isValid then action.clientSubnet else options.clientSubnet }

/-- What a legacy transport fills in. -/
def Transport.legacyOptions (transport : Transport) (options : DNSQueryOptions) : DNSQueryOptions :=
  match transport.legacy with
  | none => options
  | some (strategy, clientSubnet) =>
    { options with
      strategy := if options.strategy = .asIS then strategy else options.strategy
      clientSubnet := if options.clientSubnet.isValid then options.clientSubnet else clientSubnet }

section
variable {Addr κ : Type}

def Rule.bypassIfFailed (rule : Rule Addr κ) : Bool :=
  match rule.action with
  | some (.route _ _ bypassIfFailed) => bypassIfFailed
  | _ => false

/-- What `matchDNS` returns; `none` for the index -1. -/
structure Selected (Addr κ : Type) where
  transport : Option Transport
  rule : Option (Rule Addr κ)
  index : Option Nat

namespace Router

/-- The loop of `matchDNS` over the rules from the one with this index on. -/
def select (r : Router Addr κ) (allowFakeIP isAddressQuery : Bool) :
    List (Rule Addr κ) → Nat → DNSQueryOptions → InboundContext Addr κ →
    Selected Addr κ × DNSQueryOptions × InboundContext Addr κ
  | [], _, options, m => (⟨some r.defaultTransport, none, none⟩, options, m)
  | rule :: rules, i, options, m =>
    if rule.conditions.withAddressLimit && !isAddressQuery then
      r.select allowFakeIP isAddressQuery rules (i + 1) options m
    else
      let (ok, m) := rule.conditions.matches m.resetRuleCache
      if !ok then r.select allowFakeIP isAddressQuery rules (i + 1) options m
      else
        match rule.action with
        | some (.route server action _) =>
          match r.transport server with
          | none => r.select allowFakeIP isAddressQuery rules (i + 1) options m
          | some transport =>
            if transport.isFakeIP && !allowFakeIP then
              r.select allowFakeIP isAddressQuery rules (i + 1) options m
            else
              (⟨some transport, some rule, some i⟩,
                transport.legacyOptions (action.apply transport.isFakeIP options), m)
        | some (.routeOptions action) =>
          r.select allowFakeIP isAddressQuery rules (i + 1) (action.apply false options) m
        | some (.reject _) => (⟨none, some rule, some i⟩, options, m)
        | some (.predefined _ _) => (⟨none, some rule, some i⟩, options, m)
        | none => r.select allowFakeIP isAddressQuery rules (i + 1) options m

/-- `currentRuleIndex` at the start. -/
def start : Option Nat → Nat
  | none => 0
  | some ruleIndex => ruleIndex + 1

def matchDNS (r : Router Addr κ) (allowFakeIP : Bool) (ruleIndex : Option Nat)
    (isAddressQuery : Bool) (options : DNSQueryOptions) (m : InboundContext Addr κ) :
    Selected Addr κ × DNSQueryOptions × InboundContext Addr κ :=
  r.select allowFakeIP isAddressQuery (r.rules.drop (start ruleIndex)) (start ruleIndex) options m

end Router

/-- One call of the client: the lists it submits to the response check, if there is one, what it
returns, and whether the context is done by then. -/
structure Turn (Addr ρ : Type) where
  submitted : List (List Addr) := []
  reply : ρ
  ctxDone : Bool := false

inductive Choice where
  | given
  | rule (index : Nat)
  | default
  deriving DecidableEq, Repr

structure Call where
  transport : Option Transport
  options : DNSQueryOptions

/-- A pass of the loop: what was selected, for which connection, and the call of the client. -/
structure Attempt (Addr κ : Type) where
  choice : Choice
  connection : Connection Addr κ
  asked : Option Call

structure RunState (Addr κ : Type) where
  index : Option Nat
  metadata : InboundContext Addr κ
  log : List (Attempt Addr κ)

def Selected.choice (selected : Selected Addr κ) : Choice :=
  match selected.index with
  | some i => .rule i
  | none => .default

/-- How a loop ends; it panics where the tag of a nil transport is asked for. -/
inductive Answer (α ρ : Type) where
  | settled (answer : α)
  | replied (reply : ρ)
  | panicked
  deriving DecidableEq, Repr

/-- Where `Exchange` and `Lookup` differ in their loops: the actions that end them, the replies that
are logged with the tag of the transport, and those after which they go on. -/
structure Retry (Addr κ ρ α : Type) where
  allowFakeIP : Bool
  isAddressQuery : Bool
  settle : DNSRuleAction → Option α
  logsTag : ρ → Bool
  again : Option (Rule Addr κ) → Turn Addr ρ → Bool

namespace Router
variable {ρ α : Type}

def pass (r : Router Addr κ) (retry : Retry Addr κ ρ α) (options : DNSQueryOptions)
    (outcomes : Nat → Turn Addr ρ) (s : RunState Addr κ) :
    Partial Unit (Pass (RunState Addr κ) (Answer α ρ × List (Attempt Addr κ))) :=
  let (selected, dnsOptions, m) :=
    r.matchDNS retry.allowFakeIP s.index retry.isAddressQuery options s.metadata
  match selected.rule.bind fun rule => rule.action.bind retry.settle with
  | some answer =>
    pure (.leave (.settled answer, s.log ++ [⟨selected.choice, s.metadata.connection, none⟩]))
  | none =>
    let dnsOptions := if dnsOptions.strategy = .asIS then
      { dnsOptions with strategy := r.defaultDomainStrategy } else dnsOptions
    let turn := outcomes s.log.length
    -- the check is there for a rule with an address limit only
    let m := match selected.rule.filter (·.conditions.withAddressLimit) with
      | some rule => rule.conditions.checkAll m turn.submitted
      | none => m
    let log :=
      s.log ++ [⟨selected.choice, s.metadata.connection, some ⟨selected.transport, dnsOptions⟩⟩]
    if retry.logsTag turn.reply && selected.transport.isNone then pure (.leave (.panicked, log))
    else if retry.again selected.rule turn then pure (.again ⟨selected.index, m, log⟩)
    else pure (.leave (.replied turn.reply, log))

def retry (r : Router Addr κ) (retry : Retry Addr κ ρ α) (options : DNSQueryOptions)
    (connection : Connection Addr κ) (outcomes : Nat → Turn Addr ρ) (fuel : Nat) :
    Partial Unit (Answer α ρ × List (Attempt Addr κ)) :=
  loop (r.pass retry options outcomes) fuel ⟨none, { connection := connection }, []⟩

end Router

def isAddressQuery (message : Msg) : Bool :=
  message.question.any fun question =>
    question.qtype == typeA || question.qtype == typeAAAA || question.qtype == typeHTTPS

def Exchanged.isError : Exchanged → Bool
  | .response _ => false
  | _ => true

def Exchanged.isRejected : Exchanged → Bool
  | .rejected _ => true
  | .rejectedCached => true
  | _ => false

/-- What `Exchange` answers without the client. -/
inductive Settled where
  | formatError
  | refused
  | drop
  | predefined (rcode : Nat) (answer : List RR)
  deriving DecidableEq, Repr

def exchangeRetry (message : Msg) : Retry Addr κ Exchanged Settled where
  allowFakeIP := true
  isAddressQuery := isAddressQuery message
  settle
    | .reject .default => some .refused
    | .reject .drop => some .drop
    | .predefined rcode answer => some (.predefined rcode answer)
    -- the inner switch has no case for the method `reply`
    | _ => none
  logsTag := Exchanged.isError
  again rule turn :=
    let responseCheck := rule.any (·.conditions.withAddressLimit)
    let bypass := turn.reply.isError && rule.any (·.bypassIfFailed) && !turn.ctxDone
    responseCheck && turn.reply.isRejected || bypass

/-- What `client.Lookup` returns. -/
structure LookedUp (Addr : Type) where
  responseAddrs : List Addr
  err : Bool

/-- What `Lookup` answers without the client. -/
inductive Resolved where
  | rejectedError (method : RejectMethod)
  | predefined (rcode : Nat) (answer : List RR)
  deriving DecidableEq, Repr

def lookupRetry : Retry Addr κ (LookedUp Addr) Resolved where
  allowFakeIP := false
  isAddressQuery := true
  settle
    | .reject method => some (.rejectedError method)
    | .predefined rcode answer => some (.predefined rcode answer)
    | _ => none
  logsTag _ := false
  again rule turn :=
    let responseCheck := rule.any (·.conditions.withAddressLimit)
    rule.isSome && turn.reply.responseAddrs.isEmpty && rule.any (·.bypassIfFailed) ||
      !(!responseCheck || !turn.reply.err)

namespace Router

/-- `Exchange`; a transport may be given with the options. -/
def exchange (r : Router Addr κ) (message : Msg) (given : Option Transport)
    (options : DNSQueryOptions)
    (connection : Connection Addr κ) (outcomes : Nat → Turn Addr Exchanged) (fuel : Nat) :
    Partial Unit (Answer Settled Exchanged × List (Attempt Addr κ)) :=
  if message.question.length ≠ 1 then pure (.settled .formatError, [])
  else
    match given with
    | some transport =>
      let options := transport.legacyOptions options
      let options := if options.strategy = .asIS then
        { options with strategy := r.defaultDomainStrategy } else options
      pure (.replied (outcomes 0).reply, [⟨.given, connection, some ⟨some transport, options⟩⟩])
    | none => r.retry (exchangeRetry message) options connection outcomes fuel

/-- `Lookup`; here a legacy transport does not fill in its strategy. -/
def lookup (r : Router Addr κ) (given : Option Transport) (options : DNSQueryOptions)
    (connection : Connection Addr κ) (outcomes : Nat → Turn Addr (LookedUp Addr)) (fuel : Nat) :
    Partial Unit (Answer Resolved (LookedUp Addr) × List (Attempt Addr κ)) :=
  match given with
  | some transport =>
    let options := if options.strategy = .asIS then
      { options with strategy := r.defaultDomainStrategy } else options
    let options := match transport.legacy with
      | none => options
      | some (_, clientSubnet) =>
        if options.clientSubnet.isValid then options else { options with clientSubnet }
    pure (.replied (outcomes 0).reply, [⟨.given, connection, some ⟨some transport, options⟩⟩])
  | none => r.retry lookupRetry options connection outcomes fuel

end Router

end

end AiboosterEngine.Dns
