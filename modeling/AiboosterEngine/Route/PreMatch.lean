import AiboosterEngine.Route.Sniffing

/-!
# Rejection before the connection

`PreMatch` of `route/route.go`, which a TUN inbound asks before it accepts a
connection, and `matchRule`, `routeConnection` and `routePacketConnection` with the
flags and the reject methods that `PreMatch` needs. The two runs of the rules differ
in what they do about sniffing: before the connection there is nothing to read, so
the sniffing of the inbound options is left out, and a sniff rule ends the match.
-/

namespace AiboosterEngine.Route.PreMatch
open GoSem Sniff.Peek Sniffing Option

inductive Network where
  | tcp | udp | icmp
  deriving DecidableEq, Repr

/-- What the router itself reads of the metadata. -/
structure Context (ν : Type) where
  network : Network
  inboundDetour : Bytes := []
  fqdn : Bytes := []
  rest : ν

inductive RejectMethod where
  | default | drop | reply
  deriving DecidableEq, Repr

/-- The cause of a `RejectedError`. -/
inductive Rejection where
  | reset | drop
  deriving DecidableEq, Repr

/-- `RuleActionReject.Error`, where `flooding` is that the rule has rejected more than fifty
connections in the last thirty seconds and may drop them for it. -/
def RejectMethod.error (flooding : Bool) : RejectMethod → Option Rejection
  | default => some (if flooding then .drop else .reset)
  | drop => some .drop
  | reply => none

section
variable {μ ν σ : Type}

/-- The loop of `matchRule` over the rules, of which the first has number `index`. Nothing in it
changes the network, so that `icmp` is given. -/
def selectRule (preMatch supportBypass icmp : Bool)
    (sniff : SniffAction μ → Metadata μ → σ → Option (Metadata μ × σ)) :
    Nat → List (Rule μ) → Metadata μ → σ → Option (Option (Nat × Action μ) × σ)
  | _, [], _, s => some (none, s)
  | index, rule :: rules, metadata, s =>
    let next := selectRule preMatch supportBypass icmp sniff (index + 1) rules
    let select := some (some (index, rule.action), s)
    if !rule.matches_ metadata then next metadata s
    else
      match rule.action with
      | .route _ _ => select
      | .routeOptions options => next (options metadata) s
      | .sniff action =>
        if !preMatch then (sniff action metadata s).bind fun (metadata, s) => next metadata s
        else if icmp then next metadata s
        else select
      | .resolve answer => (answer metadata).bind fun metadata => next metadata s
      | .reject => select
      | .hijackDNS => select
      | .bypass outbound => if !supportBypass && outbound.isEmpty then next metadata s else select
      | .other => next metadata s

/-- A router, with the method of the reject action of each rule, the outbounds that support ICMP,
and the names of the protocols that were once served for every inbound: multiplex and UDP over
TCP. -/
structure Router (ν : Type) extends Sniffing.Router (Context ν) where
  method : Nat → RejectMethod := fun _ => .default
  pings : Bytes → Bool := fun _ => false
  reserved : List Bytes := []

variable (r : Router ν)

def Router.matchRule (preMatch supportBypass icmp : Bool)
    (sniff : SniffAction (Context ν) → Metadata (Context ν) → σ → Option (Metadata (Context ν) × σ))
    (metadata : Metadata (Context ν)) (s : σ) : Option (Option (Nat × Action (Context ν)) × σ) :=
  (r.prepare metadata).bind fun metadata =>
    (if !preMatch then r.sniffInbound sniff metadata s else some (metadata, s)).bind
      fun (metadata, s) => (r.inboundResolve metadata).bind fun metadata =>
        selectRule preMatch supportBypass icmp sniff 0 r.rules metadata s

/-- `passed` is no error and no destination, `direct` the direct route through an outbound. -/
inductive PreMatched where
  | rejected (cause : Rejection)
  | bypassed
  | passed
  | direct (tag : Bytes)
  | failed
  deriving DecidableEq, Repr

/-- `common.Contains(outbound.Network(), network)`. -/
def Router.contains (tag : Bytes) (networks : Bool × Bool) : Network → Bool
  | .tcp => networks.1
  | .udp => networks.2
  | .icmp => r.pings tag

/-- The direct route, if the outbound is there and supports the network. -/
def Router.directRoute (network : Network) (tag : Bytes) : PreMatched :=
  match r.outbound tag with
  | none => .failed
  | some networks => if r.contains tag networks network then .direct tag else .failed

/-- The reject case of `PreMatch`. -/
def Router.preReject (flooding : Bool) (network : Network) (index : Nat) : PreMatched :=
  if r.method index = .reply ∧ network ≠ .icmp then .failed
  else
    match (r.method index).error flooding with
    | some cause => .rejected cause
    | none => .passed

/-- `PreMatch`, up to the direct route. No connection is there to read from. -/
def Router.preMatch (supportBypass routeContext flooding : Bool) (metadata : Metadata (Context ν)) :
    PreMatched :=
  let network := metadata.rest.network
  match r.matchRule true supportBypass (network == .icmp) (fun _ _ _ => none) metadata () with
  | none => .failed
  | some (none, _) => if network = .icmp then r.directRoute network r.defaultOutbound else .passed
  | some (some (index, action), _) =>
    match action with
    | .reject => r.preReject flooding network index
    | .bypass tag =>
      if supportBypass then .bypassed
      else if routeContext then r.directRoute network tag
      else .passed
    | .route _ tag => if routeContext then r.directRoute network tag else .passed
    | _ => .passed

/-- `detour` is the way to another inbound, `returned` an end without an error and without an
outbound. -/
inductive Ended (γ : Type) where
  | rejected (cause : Rejection)
  | returned
  | detour
  | routed (how : Routed γ)

/-- The action in the terms of `Route.Sniffing`. -/
def selected : Action μ → Option Selected
  | .route _ tag => some (.route tag)
  | .bypass tag => some (.bypass tag)
  | .reject => some .reject
  | .hijackDNS => some .hijackDNS
  | _ => none

/-- The switch over the selected rule. -/
def Router.finish {γ : Type} (r : Router ν) (flooding : Bool) (supports : Bool × Bool → Bool)
    (rule : Option (Nat × Action (Context ν))) (conn : γ) : Ended γ :=
  match rule with
  | some (index, .reject) =>
    if r.method index = .reply then .routed .failed
    else
      match (r.method index).error flooding with
      | some cause => .rejected cause
      | none => .returned
  | _ => .routed (r.deliver supports (rule.bind fun (_, action) => selected action) conn)

def withNetwork (network : Network) (metadata : Metadata (Context ν)) : Metadata (Context ν) :=
  { metadata with rest := { metadata.rest with network } }

/-- What follows the match, where `conn` puts back what the sniff actions have read. -/
def Router.route {γ : Type} (r : Router ν) (flooding : Bool) (supports : Bool × Bool → Bool)
    (sniff : SniffAction (Context ν) → Metadata (Context ν) → σ → Option (Metadata (Context ν) × σ))
    (conn : σ → γ) (metadata : Metadata (Context ν)) (s : σ) : Ended γ :=
  match r.matchRule false false false sniff metadata s with
  | none => .routed .failed
  | some (rule, s) => r.finish flooding supports rule (conn s)

def Router.routeConnection (flooding : Bool) (metadata : Metadata (Context ν)) (reads : List Read) :
    Ended Conn :=
  if metadata.rest.inboundDetour ≠ [] then .detour
  else if metadata.rest.fqdn ∈ r.reserved then .routed .failed
  else
    r.route flooding Prod.fst r.sniffStream (fun s => s.buffers.foldl Conn.cached (.plain s.reads))
      (withNetwork .tcp metadata) { reads }

def Router.routePacketConnection {δ : Type} (r : Router ν) (flooding : Bool)
    (pooled : Nat → Option (Packet δ))
    (metadata : Metadata (Context ν)) (reads : List (PacketRead δ)) : Ended (PacketConn δ) :=
  if metadata.rest.inboundDetour ≠ [] then .detour
  else
    r.route flooding Prod.snd r.sniffPackets
      (fun s => attach pooled s.buffers (fun i => s.taken[i]?) (.plain s.reads))
      (withNetwork .udp metadata) { reads }

/-- Without the flags the rules select what they select in `Route.Sniffing`. -/
theorem selectRule_matchRules {sniff : SniffAction μ → Metadata μ → σ → Option (Metadata μ × σ)}
    {icmp : Bool} (index : Nat) (rules : List (Rule μ)) (metadata : Metadata μ) (s : σ) :
    (selectRule false false icmp sniff index rules metadata s).map
        (fun (rule, s) => (rule.bind fun (_, action) => selected action, s)) =
      matchRules sniff rules metadata s := by
  induction rules generalizing index metadata s with
  | nil => rfl
  | cons rule rules ih =>
    simp only [selectRule, matchRules]
    split
    · exact ih _ _ _
    · cases is : rule.action with
      | route options outbound => rfl
      | routeOptions options => exact ih _ _ _
      | sniff action =>
        cases sniffed : sniff action metadata s with
        | none => simp [sniffed]
        | some next => simpa [sniffed] using ih _ _ _
      | resolve answer =>
        cases answered : answer metadata with
        | none => simp [answered]
        | some metadata => simpa [answered] using ih _ _ _
      | reject => rfl
      | hijackDNS => rfl
      | bypass outbound =>
        simp only [Bool.not_false, Bool.true_and]
        split
        · exact ih _ _ _
        · rfl
      | other => exact ih _ _ _

theorem matchRule_sniffing (r : Router ν) (icmp : Bool)
    (sniff : SniffAction (Context ν) → Metadata (Context ν) → σ → Option (Metadata (Context ν) × σ))
    (metadata : Metadata (Context ν)) (s : σ) :
    (r.matchRule false false icmp sniff metadata s).map
        (fun (rule, s) => (rule.bind fun (_, action) => selected action, s)) =
      r.toRouter.matchRule sniff metadata s := by
  simp only [Router.matchRule, Sniffing.Router.matchRule, Option.map_bind, Function.comp_def,
    Bool.not_false, if_true, selectRule_matchRules]

variable {γ : Type} {r : Router ν} {flooding : Bool}
  {sniff : SniffAction (Context ν) → Metadata (Context ν) → σ → Option (Metadata (Context ν) × σ)}
  {metadata : Metadata (Context ν)} {s : σ} {tag : Bytes} {supportBypass : Bool} {i : Nat}
  {supports : Bool × Bool → Bool}

theorem finish_routed {rule : Option (Nat × Action (Context ν))} {conn : γ}
    {how : Routed γ} (h : r.finish flooding supports rule conn = .routed how) :
    r.deliver supports (rule.bind fun (_, action) => selected action) conn = how := by
  unfold Router.finish at h
  split at h
  · split at h
    · cases h
      rfl
    · split at h <;> cases h
  · cases h
    rfl

/-- A connection that comes to an outbound comes to it as in `Route.Sniffing`. -/
theorem route_outbound {conn : σ → γ} {out : γ}
    (h : r.route flooding supports sniff conn metadata s = .routed (.outbound tag out)) :
    ∃ rule s', r.toRouter.matchRule sniff metadata s = some (rule, s') ∧
      r.deliver supports rule (conn s') = .outbound tag out := by
  unfold Router.route at h
  cases found : r.matchRule false false false sniff metadata s with
  | none => simp [found] at h
  | some selection =>
    rw [found] at h
    have sniffing := matchRule_sniffing r false sniff metadata s
    rw [found] at sniffing
    exact ⟨_, _, sniffing.symm, finish_routed h⟩

theorem routeConnection_outbound {reads : List Read} {conn : Conn}
    (h : r.routeConnection flooding metadata reads = .routed (.outbound tag conn)) :
    r.toRouter.routeConnection (withNetwork .tcp metadata) reads = .outbound tag conn := by
  unfold Router.routeConnection at h
  split at h
  · cases h
  · split at h
    · cases h
    · obtain ⟨rule, s, found, delivered⟩ := route_outbound h
      rw [Sniffing.Router.routeConnection, found]
      exact delivered

theorem routePacketConnection_outbound {δ : Type} {pooled : Nat → Option (Packet δ)}
    {reads : List (PacketRead δ)} {conn : PacketConn δ}
    (h : r.routePacketConnection flooding pooled metadata reads = .routed (.outbound tag conn)) :
    r.toRouter.routePacketConnection pooled (withNetwork .udp metadata) reads =
      .outbound tag conn := by
  unfold Router.routePacketConnection at h
  split at h
  · cases h
  · obtain ⟨rule, s, found, delivered⟩ := route_outbound h
    rw [Sniffing.Router.routePacketConnection, found]
    exact delivered

/-- A rule that rejects before the connection rejects it later: no sniff rule and no bypass has
matched before it. -/
theorem selectRule_reject {τ : Type}
    {sniff : SniffAction μ → Metadata μ → σ → Option (Metadata μ × σ)}
    {sniff' : SniffAction μ → Metadata μ → τ → Option (Metadata μ × τ)}
    {rules : List (Rule μ)} {index : Nat} {metadata : Metadata μ} {s' : σ}
    (h : selectRule true supportBypass false sniff index rules metadata s =
      some (some (i, .reject), s'))
    (t : τ) :
    selectRule false false false sniff' index rules metadata t = some (some (i, .reject), t) := by
  induction rules generalizing index metadata with
  | nil => cases h
  | cons rule rules ih =>
    simp only [selectRule] at h ⊢
    split at h
    · next unmatched =>
      rw [if_pos unmatched]
      exact ih h
    · next matched =>
      rw [if_neg matched]
      cases is : rule.action with
      | route options outbound => simp [is] at h
      | routeOptions options | other =>
        rw [is] at h
        exact ih h
      | sniff action => simp [is] at h
      | resolve answer =>
        simp only [is] at h
        obtain ⟨metadata', answered, h⟩ := bind_eq_some_iff.mp h
        simp only [answered]
        exact ih h
      | reject =>
        simp only [is, Option.some.injEq, Prod.mk.injEq, and_true] at h
        simp [h.1]
      | hijackDNS => simp [is] at h
      | bypass outbound => grind

/-- Without a connection the rules reject what the inbound options make of the metadata. -/
def Router.Rejects (r : Router ν) (metadata : Metadata (Context ν)) : Prop :=
  ∃ resolved i, r.inboundResolve metadata = some resolved ∧ r.method i ≠ .reply ∧
    selectRule true false false (fun _ _ _ => none) 0 r.rules resolved () =
      some (some (i, .reject), ())

/-- The rules reject a connection for which sniffing leaves the metadata as it was, or leaves
metadata that they reject. -/
theorem matchRule_reject {τ : Type}
    {sniff' : SniffAction (Context ν) → Metadata (Context ν) → τ →
      Option (Metadata (Context ν) × τ)} {s' : σ}
    {t : τ} (h : r.matchRule true supportBypass false sniff metadata s =
      some (some (i, .reject), s'))
    (method : r.method i ≠ .reply)
    (sniffed : ∀ prepared, r.prepare metadata = some prepared → ∃ sniffed t',
      r.sniffInbound sniff' prepared t = some (sniffed, t') ∧
        (sniffed = prepared ∨ r.Rejects sniffed)) :
    ∃ i t', r.matchRule false false false sniff' metadata t = some (some (i, .reject), t') ∧
      r.method i ≠ .reply := by
  obtain ⟨prepared, prepares, h⟩ := bind_eq_some_iff.mp h
  obtain ⟨⟨_, _⟩, same, h⟩ := bind_eq_some_iff.mp h
  cases same
  obtain ⟨resolved, resolves, selects⟩ := bind_eq_some_iff.mp h
  obtain ⟨sniffed, t', sniffs, rfl | ⟨resolved', j, resolves', method', h'⟩⟩ :=
    sniffed prepared prepares
  · refine ⟨i, t', ?_, method⟩
    simp only [Router.matchRule, prepares, Option.bind_some, Bool.not_false, if_true,
      sniffs, resolves]
    exact selectRule_reject selects t'
  · refine ⟨j, t', ?_, method'⟩
    simp only [Router.matchRule, prepares, Option.bind_some, Bool.not_false, if_true,
      sniffs, resolves']
    exact selectRule_reject h' t'

theorem directRoute_ne_rejected (r : Router ν) (network : Network) (tag : Bytes)
    (cause : Rejection) :
    r.directRoute network tag ≠ .rejected cause := by
  unfold Router.directRoute
  split
  · simp
  · split <;> simp

/-- A rejection comes from a reject rule, of a method that has an error. -/
theorem preMatch_rejected {routeContext : Bool} {cause : Rejection}
    (h : r.preMatch supportBypass routeContext flooding metadata = .rejected cause) :
    ∃ i, r.matchRule true supportBypass (metadata.rest.network == .icmp)
    (fun _ _ _ => none) metadata () =
        some (some (i, .reject), ()) ∧ r.method i ≠ .reply := by
  unfold Router.preMatch at h
  simp only at h
  split at h
  · cases h
  · split at h
    · exact absurd h (directRoute_ne_rejected _ _ _ _)
    · cases h
  · grind [RejectMethod.error, Router.preReject, directRoute_ne_rejected]

theorem RejectMethod.error_isSome {method : RejectMethod} (flooding : Bool) (h : method ≠ .reply) :
    ∃ cause, method.error flooding = some cause := by
  cases method with
  | default => exact ⟨_, rfl⟩
  | drop => exact ⟨_, rfl⟩
  | reply => exact absurd rfl h

theorem route_rejected {s' : σ}
    (found : r.matchRule false false false sniff metadata s = some (some (i, .reject), s'))
    (method : r.method i ≠ .reply) (flooding : Bool) (supports : Bool × Bool → Bool)
    (conn : σ → γ) :
    ∃ cause, r.route flooding supports sniff conn metadata s = .rejected cause := by
  obtain ⟨cause, error⟩ := RejectMethod.error_isSome flooding method
  refine ⟨cause, ?_⟩
  simp only [Router.route, found, Router.finish, if_neg method, error]

/-- Where no read fails, sniffing comes to an end. -/
theorem readPackets_ends {μ δ : Type} (r : Sniffing.Router μ) (action : SniffAction μ)
    {reads : List (PacketRead δ)}
    (plain : ∀ read ∈ reads, read ≠ .fail ∧ read ≠ .canceled) (metadata : Metadata μ)
    (buffers : List Nat)
    (taken : List (Packet δ)) :
      (r.readPackets action reads metadata buffers taken).isSome = true := by
  induction reads generalizing metadata buffers taken with
  | nil => rfl
  | cons read reads ih =>
    have first := plain read List.mem_cons_self
    cases read with
    | timeout => rfl
    | fail => exact absurd rfl first.1
    | canceled => exact absurd rfl first.2
    | packet p =>
      rw [Sniffing.Router.readPackets]
      split
      · exact ih (fun read mem => plain read (List.mem_cons_of_mem _ mem)) _ _ _
      · rfl

theorem sniffPackets_ends {μ δ : Type} (r : Sniffing.Router μ) (action : SniffAction μ)
    (metadata : Metadata μ)
    {s : Packets δ} (plain : ∀ read ∈ s.reads, read ≠ .fail ∧ read ≠ .canceled) :
    (r.sniffPackets action metadata s).isSome = true := by
  unfold Router.sniffPackets Router.actionSniffPackets
  split
  · rfl
  · split
    · rfl
    · rw [isSome_map]
      exact readPackets_ends r action plain _ _ _

/-- What the inbound options sniff does not save the connection: they sniff nothing of it (its port
is that of a protocol in which the server speaks first, its protocol is known, or the sniffers have
failed before), or the rules reject whatever sniffing may leave in the metadata. -/
def Router.Steady (metadata : Metadata (Context ν)) : Prop :=
  ∀ prepared action, r.prepare metadata = some prepared → r.inboundSniff prepared = some action →
    action.passes [] [] prepared = true ∨ ∀ sniffed, r.Rejects sniffed

theorem passes_of_unnamed {action : SniffAction μ} {metadata : Metadata μ}
    (h : action.passes [] [] metadata = true)
    (mine others : List (Sniffer μ)) : action.passes mine others metadata = true := by
  simp only [SniffAction.passes, List.isEmpty_nil, Bool.not_true, Bool.and_false, Bool.or_false,
    Bool.or_eq_true] at h ⊢
  rcases h with known | names
  · exact .inl (.inl known)
  · exact .inr names

variable {prepared : Metadata (Context ν)}

theorem Router.Steady.stream (steady : r.Steady metadata)
    (prepares : r.prepare metadata = some prepared)
    (s : Stream) : ∃ sniffed s', r.sniffInbound r.sniffStream prepared s = some (sniffed, s') ∧
      (sniffed = prepared ∨ r.Rejects sniffed) := by
  unfold Router.sniffInbound
  split
  · next action inbound =>
    obtain passes | rejects := steady prepared action prepares inbound
    · refine ⟨prepared, s, ?_, .inl rfl⟩
      simp [Router.sniffStream, Router.actionSniffStream, passes_of_unnamed passes]
    · exact ⟨_, _, rfl, .inr (rejects _)⟩
  · exact ⟨prepared, s, rfl, .inl rfl⟩

theorem Router.Steady.packets {δ : Type} (steady : r.Steady metadata)
    (prepares : r.prepare metadata = some prepared) {s : Packets δ}
    (plain : ∀ read ∈ s.reads, read ≠ .fail ∧ read ≠ .canceled) :
    ∃ sniffed s', r.sniffInbound r.sniffPackets prepared s = some (sniffed, s') ∧
      (sniffed = prepared ∨ r.Rejects sniffed) := by
  unfold Router.sniffInbound
  split
  · next action inbound =>
    obtain passes | rejects := steady prepared action prepares inbound
    · refine ⟨prepared, s, ?_, .inl rfl⟩
      simp [Router.sniffPackets, Router.actionSniffPackets, passes_of_unnamed passes]
    · obtain ⟨⟨sniffed, s'⟩, sniffs⟩ :=
        isSome_iff_exists.mp (sniffPackets_ends _ action prepared plain)
      exact ⟨sniffed, s', sniffs, .inr (rejects sniffed)⟩
  · exact ⟨prepared, s, rfl, .inl rfl⟩

/-- **Rejected before, rejected later.** A client whose connection is rejected before it is there,
and is not saved by what the inbound options sniff, is rejected by the routing whatever it sends:
exactly when the routing comes to the rules, which it does not for a detour and, on TCP, for the
names of the old protocols. -/
theorem rejected_later (r : Router ν) (supportBypass routeContext flooding : Bool)
    (metadata : Metadata (Context ν)) (cause : Rejection) (steady : r.Steady metadata)
    (rejected : r.preMatch supportBypass routeContext flooding metadata = .rejected cause) :
    (metadata.rest.network = .tcp →
      ((∀ flooding reads, ∃ cause, r.routeConnection flooding metadata reads = .rejected cause) ↔
        metadata.rest.inboundDetour = [] ∧ metadata.rest.fqdn ∉ r.reserved)) ∧
    (metadata.rest.network = .udp → ∀ {δ : Type},
      ((∀ flooding (pooled : Nat → Option (Packet δ)) reads,
        (∀ read ∈ reads, read ≠ .fail ∧ read ≠ .canceled) →
        ∃ cause, r.routePacketConnection flooding pooled metadata reads = .rejected cause) ↔
        metadata.rest.inboundDetour = [])) := by
  obtain ⟨i, found, method⟩ := preMatch_rejected rejected
  have same {network : Network} (is : metadata.rest.network = network) :
    withNetwork network metadata = metadata := by
    rw [← is]
    rfl
  constructor
  · intro tcp
    rw [tcp] at found
    constructor
    · intro all
      obtain ⟨cause, ends⟩ := all false []
      unfold Router.routeConnection at ends
      split at ends
      · cases ends
      · next none_ =>
        split at ends
        · cases ends
        · next free => exact ⟨Decidable.not_not.mp none_, free⟩
    · rintro ⟨detour, free⟩ flooding reads
      obtain ⟨j, s, found, method⟩ := matchRule_reject found method fun _ prepares =>
        steady.stream prepares { reads }
      unfold Router.routeConnection
      rw [if_neg (fun other => other detour), if_neg free, same tcp]
      exact route_rejected found method _ _ _
  · intro udp δ
    rw [udp] at found
    constructor
    · intro all
      obtain ⟨cause, ends⟩ := all false (fun _ => none) [] nofun
      unfold Router.routePacketConnection at ends
      split at ends
      · cases ends
      · next none_ => exact Decidable.not_not.mp none_
    · intro detour flooding pooled reads plain
      obtain ⟨j, s, found, method⟩ := matchRule_reject found method fun _ prepares =>
        steady.packets (s := { reads }) prepares plain
      unfold Router.routePacketConnection
      rw [if_neg (fun other => other detour), same udp]
      exact route_rejected found method _ _ _

end

/-- All is rejected but TLS, which an inbound that sniffs would recognise. -/
def tlsOnly : Router Unit where
  inboundSniff _ := some {}
  streamSniffers := [fun metadata buffer =>
    if buffer.head? = some 22 then (none, { metadata with protocol := utf8 "tls" })
      else (some .other, metadata)]
  rules := [⟨fun metadata => metadata.protocol == utf8 "tls", .route id (utf8 "proxy")⟩,
    ⟨fun _ => true, .reject⟩]
  outbound _ := some (true, true)
  defaultOutbound := utf8 "direct"
  quicClientHello := fun metadata _ => (some .other, metadata)
  capacity := 16384

def metadataTo (port : UInt16) (network : Network) : Metadata (Context Unit) :=
  ⟨port, [], [], none, { network, rest := () }⟩

/-- The port of SMTP is not sniffed; and where all is rejected, sniffing changes nothing. -/
theorem smtp_rejected_later :
    (tlsOnly.preMatch false false false (metadataTo 25 .tcp) = .rejected .reset ∧
      ∃ cause, tlsOnly.routeConnection false (metadataTo 25 .tcp) [.data [22]] = .rejected cause) ∧
    ∃ cause, { tlsOnly with rules := [⟨fun _ => true, .reject⟩] }.routeConnection false
      (metadataTo 443 .tcp) [.data [22]] = .rejected cause := by
  have rejected : tlsOnly.preMatch false false false (metadataTo 25 .tcp) = .rejected .reset := rfl
  refine ⟨⟨rejected, ((rejected_later tlsOnly false false false _ .reset ?_ rejected).1 rfl).mpr
    ⟨rfl, by simp [tlsOnly]⟩ false _⟩,
    ((rejected_later { tlsOnly with rules := [⟨fun _ => true, .reject⟩] } false false false
      (metadataTo 443 .tcp) .reset ?_ rfl).1 rfl).mpr ⟨rfl, by simp [tlsOnly]⟩ false _⟩
  · intro prepared action prepares inbound
    cases prepares
    cases inbound
    exact .inl rfl
  · exact fun _ _ _ _ => .inr fun sniffed => ⟨sniffed, 0, rfl, by decide, rfl⟩

/-- A client of port 443 is rejected before it can send its hello, with which it would be routed. -/
theorem sniffed_routed :
    tlsOnly.preMatch false false false (metadataTo 443 .tcp) = .rejected .reset ∧
    ∃ conn, tlsOnly.routeConnection false (metadataTo 443 .tcp) [.data [22]] =
      .routed (.outbound (utf8 "proxy") conn) :=
  ⟨rfl, _, rfl⟩

end AiboosterEngine.Route.PreMatch
