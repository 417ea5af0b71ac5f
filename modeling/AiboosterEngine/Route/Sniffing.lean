import AiboosterEngine.Sniff.Peek

/-!
# Sniffing and the traffic

`actionSniff`, `matchRule`, `routeConnection` and `routePacketConnection` of
`route/route.go`, as far as they read from the connection and put back what they
have read. A connection is the list of its reads. A cached connection yields its
buffer first and then reads from the connection it wraps.
-/

namespace AiboosterEngine.Route.Sniffing
open GoSem Sniff.Peek List Option

/-- `override` is the replacement of the destination by the sniffed domain, as far as the action
asks for it. -/
structure SniffAction (μ : Type) where
  streamSniffers : List (Sniffer μ) := []
  packetSniffers : List (Sniffer μ) := []
  snifferNames : List Bytes := []
  override : Metadata μ → Metadata μ := id

/-- What an action does to the metadata is given, `none` being an error. -/
inductive Action (μ : Type) where
  | route (options : Metadata μ → Metadata μ) (outbound : Bytes)
  | routeOptions (options : Metadata μ → Metadata μ)
  | sniff (action : SniffAction μ)
  | resolve (answer : Metadata μ → Option (Metadata μ))
  | reject
  | hijackDNS
  | bypass (outbound : Bytes)
  | other

structure Rule (μ : Type) where
  matches_ : Metadata μ → Bool
  action : Action μ

inductive Selected where
  | route (outbound : Bytes) | bypass (outbound : Bytes) | reject | hijackDNS
  deriving DecidableEq, Repr

section
variable {μ σ : Type}

/-- The loop of `matchRule` over the rules, where `sniff` runs a sniff action and puts what it has
read to the buffers. -/
def matchRules (sniff : SniffAction μ → Metadata μ → σ → Option (Metadata μ × σ)) :
    List (Rule μ) → Metadata μ → σ → Option (Option Selected × σ)
  | [], _, s => some (none, s)
  | rule :: rules, metadata, s =>
    if !rule.matches_ metadata then matchRules sniff rules metadata s
    else
      match rule.action with
      | .route _ outbound => some (some (.route outbound), s)
      | .routeOptions options => matchRules sniff rules (options metadata) s
      | .sniff action => (sniff action metadata s).bind fun (metadata, s) =>
          matchRules sniff rules metadata s
      | .resolve answer => (answer metadata).bind fun metadata => matchRules sniff rules metadata s
      | .reject => some (some .reject, s)
      | .hijackDNS => some (some .hijackDNS, s)
      | .bypass outbound =>
        if outbound.isEmpty then matchRules sniff rules metadata s
          else some (some (.bypass outbound), s)
      | .other => matchRules sniff rules metadata s

/-- `prepare` is what comes before the inbound options are looked at, `inboundSniff` the sniff
action of the inbound options and `inboundResolve` their domain strategy. An outbound supports TCP
and UDP, or not. -/
structure Router (μ : Type) where
  prepare : Metadata μ → Option (Metadata μ) := some
  inboundSniff : Metadata μ → Option (SniffAction μ) := fun _ => none
  inboundResolve : Metadata μ → Option (Metadata μ) := some
  rules : List (Rule μ)
  outbound : Bytes → Option (Bool × Bool)
  defaultOutbound : Bytes
  /-- The sniffers of an action that names none. -/
  streamSniffers : List (Sniffer μ) := []
  packetSniffers : List (Sniffer μ) := []
  quicClientHello : Sniffer μ
  /-- The size of `buf.NewPacket`. -/
  capacity : Nat

open Router

variable (r : Router μ)

/-- The sniff action of the inbound options. -/
def Router.sniffInbound (sniff : SniffAction μ → Metadata μ → σ → Option (Metadata μ × σ))
    (metadata : Metadata μ) (s : σ) : Option (Metadata μ × σ) :=
  match r.inboundSniff metadata with
  | some action => sniff action metadata s
  | none => some (metadata, s)

def Router.matchRule (sniff : SniffAction μ → Metadata μ → σ → Option (Metadata μ × σ))
    (metadata : Metadata μ) (s : σ) : Option (Option Selected × σ) :=
  (r.prepare metadata).bind fun metadata =>
    (r.sniffInbound sniff metadata s).bind fun (metadata, s) =>
      (r.inboundResolve metadata).bind fun metadata => matchRules sniff r.rules metadata s

/-- The action leaves the connection alone: `mine` are its sniffers for the kind of connection. -/
def SniffAction.passes (action : SniffAction μ) (mine others : List (Sniffer μ))
    (metadata : Metadata μ) : Bool :=
  skip metadata || !metadata.protocol.isEmpty || (mine.isEmpty && !others.isEmpty) ||
    (metadata.snifferNames == action.snifferNames && metadata.sniffError == some .other)

/-- The end of a sniff action that has found `err`. -/
def SniffAction.finish (action : SniffAction μ) (err : Option SniffError)
    (metadata : Metadata μ) : Metadata μ :=
  let metadata := { metadata with snifferNames := action.snifferNames, sniffError := err }
  if err.isNone then action.override metadata else metadata

structure Stream where
  buffers : List Bytes := []
  reads : List Read

/-- `if !sniffBuffer.IsEmpty()`. -/
def unlessEmpty (buffer : Bytes) : Option Bytes := if buffer.isEmpty then none else some buffer

/-- `actionSniff` for a stream, with its result. -/
def Router.actionSniffStream (action : SniffAction μ) (metadata : Metadata μ) (s : Stream) :
    Option Bytes × Metadata μ × List Read :=
  if action.passes action.streamSniffers action.packetSniffers metadata
    then (none, metadata, s.reads)
  else
    let sniffers :=
      if action.streamSniffers.isEmpty then r.streamSniffers else action.streamSniffers
    let peeked := peekStream sniffers r.capacity s.buffers.flatten s.reads none metadata []
    (unlessEmpty peeked.buffer, action.finish peeked.err peeked.metadata, peeked.rest)

/-- The sniff case of `matchRule` for a stream. -/
def Router.sniffStream (action : SniffAction μ) (metadata : Metadata μ) (s : Stream) :
    Option (Metadata μ × Stream) :=
  match r.actionSniffStream action metadata s with
  | (buffer, metadata, reads) => some (metadata, ⟨s.buffers ++ buffer.toList, reads⟩)

/-- A connection, and what `bufio.NewCachedConn` makes of it. -/
inductive Conn where
  | plain (reads : List Read)
  | cached (conn : Conn) (buffer : Bytes)

/-- The bytes that are read from a connection. -/
def Conn.bytes : Conn → Bytes
  | plain reads => streamBytes reads
  | cached conn buffer => buffer ++ conn.bytes

inductive Routed (γ : Type) where
  | outbound (tag : Bytes) (conn : γ)
  | hijackDNS
  | failed

def Router.through {γ : Type} (r : Router μ) (supports : Bool × Bool → Bool) (tag : Bytes)
    (conn : γ) : Routed γ :=
  match r.outbound tag with
  | some networks => if supports networks then .outbound tag conn else .failed
  | none => .failed

def Router.deliver {γ : Type} (r : Router μ) (supports : Bool × Bool → Bool)
    (selected : Option Selected) (conn : γ) :
    Routed γ :=
  match selected with
  | none => r.through supports r.defaultOutbound conn
  | some (.route tag) => r.through supports tag conn
  | some (.bypass tag) => r.through supports tag conn
  | some .reject => .failed
  | some .hijackDNS => .hijackDNS

def Router.routeConnection (metadata : Metadata μ) (reads : List Read) : Routed Conn :=
  match r.matchRule r.sniffStream metadata { reads } with
  | none => .failed
  | some (selected, s) => r.deliver Prod.fst selected (s.buffers.foldl Conn.cached (.plain s.reads))

structure Packet (δ : Type) where
  payload : Bytes
  destination : δ
  deriving DecidableEq, Repr

/-- How the next `ReadPacket` ends; a deadline that passes, another error, or the end of the
context. -/
inductive PacketRead (δ : Type) where
  | packet (p : Packet δ) | timeout | fail | canceled
  deriving DecidableEq, Repr

def PacketRead.packet? {δ : Type} : PacketRead δ → Option (Packet δ)
  | packet p => some p
  | _ => none

/-- All the packets that come from the connection. -/
def streamPackets {δ : Type} (reads : List (PacketRead δ)) : List (Packet δ) :=
  reads.filterMap PacketRead.packet?

/-- The packets that were read, each in a `PacketBuffer` of its own that is named by its number, and
the list of the buffers. -/
structure Packets (δ : Type) where
  buffers : List Nat := []
  taken : List (Packet δ) := []
  reads : List (PacketRead δ)

variable {δ : Type}

def SniffAction.quicMoreData (action : SniffAction μ) (metadata : Metadata μ) : Bool :=
  metadata.snifferNames == action.snifferNames && metadata.sniffError == some .needMoreData

/-- One packet is peeked at: whether more data is needed, and the metadata. -/
def Router.peek (action : SniffAction μ) (metadata : Metadata μ) (payload : Bytes) :
    Bool × Metadata μ :=
  let sniffers :=
    if action.quicMoreData metadata then [r.quicClientHello]
    else if action.packetSniffers.isEmpty then r.packetSniffers
    else action.packetSniffers
  let (err, metadata) := peekPacket sniffers metadata payload
  (err == some .needMoreData, action.finish err metadata)

/-- The loop over the packets that were read before: whether it has come to the end of sniffing. -/
def Router.peekTaken (r : Router μ) (action : SniffAction μ) :
    List Bytes → Metadata μ → Bool × Metadata μ
  | [], metadata => (false, metadata)
  | payload :: payloads, metadata =>
    match r.peek action metadata payload with
    | (true, metadata) => r.peekTaken action payloads metadata
    | (false, metadata) => (true, metadata)

/-- The loop that reads: `none` for an error that ends the connection. -/
def Router.readPackets (r : Router μ) (action : SniffAction μ) :
    List (PacketRead δ) → Metadata μ → List Nat → List (Packet δ) →
      Option (List Nat × Metadata μ × Packets δ)
  | [], metadata, buffers, taken => some (buffers, metadata, { taken, reads := [] })
  | .timeout :: reads, metadata, buffers, taken => some (buffers, metadata, { taken, reads })
  | .fail :: _, _, _, _ => none
  | .canceled :: _, _, _, _ => none
  | .packet p :: reads, metadata, buffers, taken =>
    match r.peek action metadata p.payload with
    | (true, metadata) =>
        r.readPackets action reads metadata (buffers ++ [taken.length]) (taken ++ [p])
    | (false, metadata) =>
        some (buffers ++ [taken.length], metadata, { taken := taken ++ [p], reads })

/-- The contents of the buffers. -/
def payloads (s : Packets δ) : List Bytes :=
  s.buffers.map fun i => (s.taken[i]?.map Packet.payload).getD []

/-- `actionSniff` for packets: the buffers it returns, which begin with those it was given if it has
come to the second loop. -/
def Router.actionSniffPackets (action : SniffAction μ) (metadata : Metadata μ) (s : Packets δ) :
    Option (List Nat × Metadata μ × Packets δ) :=
  if action.passes action.packetSniffers action.streamSniffers metadata then some ([], metadata, s)
  else
    match r.peekTaken action (payloads s) metadata with
    | (true, metadata) => some ([], metadata, s)
    | (false, metadata) => r.readPackets action s.reads metadata s.buffers s.taken

/-- The sniff case of `matchRule` for packets. -/
def Router.sniffPackets (action : SniffAction μ) (metadata : Metadata μ) (s : Packets δ) :
    Option (Metadata μ × Packets δ) :=
  (r.actionSniffPackets action metadata s).map fun (new, metadata, after) =>
    (metadata, { after with buffers := s.buffers ++ new })

/-- A packet connection, and what `bufio.NewCachedPacketConn` makes of it. Without a buffer it reads
from the connection it wraps. -/
inductive PacketConn (δ : Type) where
  | plain (reads : List (PacketRead δ))
  | cached (conn : PacketConn δ) (buffer : Option (Packet δ))

/-- The packets that are read from a connection. -/
def PacketConn.packets : PacketConn δ → List (Packet δ)
  | plain reads => streamPackets reads
  | cached conn buffer => buffer.toList ++ conn.packets

/-- The loop of `routePacketConnection` over the buffers. Each is given back to its pool, where
`pooled` is what is found in it when it comes again. -/
def attach (pooled : Nat → Option (Packet δ)) :
    List Nat → (Nat → Option (Packet δ)) → PacketConn δ → PacketConn δ
  | [], _, conn => conn
  | i :: buffers, cells, conn =>
    attach pooled buffers (fun j => if j = i then pooled i else cells j) (.cached conn (cells i))

def Router.routePacketConnection (pooled : Nat → Option (Packet δ)) (metadata : Metadata μ)
    (reads : List (PacketRead δ)) : Routed (PacketConn δ) :=
  match r.matchRule r.sniffPackets metadata { reads } with
  | none => .failed
  | some (selected, s) =>
    r.deliver Prod.snd selected (attach pooled s.buffers (fun i => s.taken[i]?) (.plain s.reads))

def Action.sniffs : Action μ → Bool
  | .sniff _ => true
  | _ => false

/-- The sniff actions among the rules. -/
def sniffCount (rules : List (Rule μ)) : Nat := rules.countP fun rule => rule.action.sniffs

/-- The sniff actions of a router. -/
def Router.Sniffs (action : SniffAction μ) : Prop :=
  (∃ metadata, r.inboundSniff metadata = some action) ∨ ∃ rule ∈ r.rules,
    rule.action = .sniff action

section
variable {sniff : SniffAction μ → Metadata μ → σ → Option (Metadata μ × σ)} {I : Nat → σ → Prop}
  {s s' : σ} {selected : Option Selected} {metadata : Metadata μ}

/-- What a sniff action keeps is kept by a list of rules. `I` may count the actions that were
run. -/
theorem matchRules_invariant {rules : List (Rule μ)} {n : Nat}
    (keep : ∀ action, (∃ rule ∈ rules, rule.action = .sniff action) →
      ∀ metadata s metadata' s' n, I n s →
      sniff action metadata s = some (metadata', s') → I (n + 1) s')
    (inv : I n s) (h : matchRules sniff rules metadata s = some (selected, s')) :
    ∃ m, m ≤ n + sniffCount rules ∧ I m s' := by
  induction rules generalizing metadata s n with
  | nil =>
    cases h
    exact ⟨n, .refl, inv⟩
  | cons rule rules ih =>
    have more : sniffCount (rule :: rules) = sniffCount rules + if rule.action.sniffs
      then 1 else 0 :=
      countP_cons
    have rest {metadata : Metadata μ} (h : matchRules sniff rules metadata s =
      some (selected, s')) :
        ∃ m, m ≤ n + sniffCount (rule :: rules) ∧ I m s' := by grind
    have ends : ∃ m, m ≤ n + sniffCount (rule :: rules) ∧ I m s := ⟨n, Nat.le_add_right _ _, inv⟩
    rw [matchRules] at h
    split at h
    · exact rest h
    · split at h
      · cases h
        exact ends
      · exact rest h
      · next action is =>
        obtain ⟨⟨metadata', s₁⟩, sniffed, h⟩ := bind_eq_some_iff.mp h
        have inv₁ := keep action ⟨rule, mem_cons_self, is⟩ _ _ _ _ _ inv sniffed
        obtain ⟨m, le, inv⟩ := ih (fun action ⟨other, member, same⟩ =>
          keep action ⟨other, mem_cons_of_mem _ member, same⟩) inv₁ h
        rw [is, Action.sniffs] at more
        exact ⟨m, by simp at more; omega, inv⟩
      · obtain ⟨metadata', _, h⟩ := bind_eq_some_iff.mp h
        exact rest h
      · cases h
        exact ends
      · cases h
        exact ends
      · split at h
        · exact rest h
        · cases h
          exact ends
      · exact rest h

theorem matchRule_invariant {r : Router μ}
    (keep : ∀ action, r.Sniffs action → ∀ metadata s metadata' s' n, I n s →
      sniff action metadata s = some (metadata', s') → I (n + 1) s')
    (inv : I 0 s) (h : r.matchRule sniff metadata s = some (selected, s')) :
    ∃ m, I m s' ∧ (m ≤ sniffCount r.rules ∨
      (∃ metadata, r.inboundSniff metadata ≠ none) ∧ m ≤ 1 + sniffCount r.rules) := by
  obtain ⟨metadata₁, _, h⟩ := bind_eq_some_iff.mp h
  obtain ⟨⟨metadata₂, s₁⟩, sniffed, h⟩ := bind_eq_some_iff.mp h
  obtain ⟨metadata₃, _, h⟩ := bind_eq_some_iff.mp h
  have rules {n : Nat} (inv₁ : I n s₁) : ∃ m, m ≤ n + sniffCount r.rules ∧ I m s' :=
    matchRules_invariant (fun action member => keep action (.inr member)) inv₁ h
  unfold sniffInbound at sniffed
  split at sniffed
  · next action found =>
    obtain ⟨m, le, inv⟩ := rules (keep action (.inl ⟨_, found⟩) _ _ _ _ _ inv sniffed)
    exact ⟨m, inv, .inr ⟨⟨metadata₁, by simp [found]⟩, le⟩⟩
  · cases sniffed
    obtain ⟨m, le, inv⟩ := rules inv
    exact ⟨m, inv, .inl (by omega)⟩

end

variable {tag : Bytes} {action : SniffAction μ} {metadata' : Metadata μ}
  {reads : List (PacketRead δ)} {s s' : Packets δ}

theorem deliver_outbound {γ : Type} {r : Router μ} {supports : Bool × Bool → Bool}
    {selected : Option Selected} {conn conn' : γ}
    (h : r.deliver supports selected conn = .outbound tag conn') :
    conn' = conn := by
  have through {tag' : Bytes} (h : r.through supports tag' conn = .outbound tag conn') :
    conn' = conn := by
    grind [through]
  unfold deliver at h
  split at h
  · exact through h
  · exact through h
  · exact through h
  · cases h
  · cases h

variable {r : Router μ} {metadata : Metadata μ}

theorem unlessEmpty_flatten (buffer : Bytes) : (unlessEmpty buffer).toList.flatten = buffer := by
  cases buffer with
  | nil => rfl
  | cons => simp [unlessEmpty]

/-- After at most `n` sniff actions: each has put at most one buffer to the others, and no byte of
the connection is lost. -/
structure Kept (reads : List Read) (n : Nat) (s : Stream) : Prop where
  count : s.buffers.length ≤ n
  bytes : s.buffers.flatten ++ streamBytes s.reads = streamBytes reads

/-- A sniff action moves bytes from the connection to the end of the buffers. -/
theorem Kept.sniff {reads : List Read} {n : Nat} {s s' : Stream} (kept : Kept reads n s)
    (h : r.sniffStream action metadata s = some (metadata', s')) : Kept reads (n + 1) s' := by
  constructor
  · have few (buffer : Option Bytes) : buffer.toList.length ≤ 1 := by cases buffer <;> simp
    have count := kept.count
    unfold sniffStream at h
    cases h
    rw [length_append]
    exact Nat.add_le_add count (few _)
  · rw [← kept.bytes]
    unfold sniffStream actionSniffStream at h
    split at h
    next buffer metadata'' reads sniffed =>
    cases h
    split at sniffed
    · cases sniffed
      simp
    · cases sniffed
      have same :=
        peekStream_bytes (if action.streamSniffers.isEmpty then r.streamSniffers
        else action.streamSniffers) r.capacity s.buffers.flatten s.reads none metadata []
      rw [nil_append] at same
      rw [← same, flatten_append, unlessEmpty_flatten, append_assoc]

theorem foldl_cached_bytes (buffers : List Bytes) (conn : Conn) :
    (buffers.foldl Conn.cached conn).bytes = buffers.reverse.flatten ++ conn.bytes := by
  induction buffers generalizing conn with
  | nil => rfl
  | cons buffer buffers ih => grind [Conn.bytes]

def Router.buffers (r : Router μ) (metadata : Metadata μ) (reads : List Read) : List Bytes :=
  match r.matchRule r.sniffStream metadata { reads } with
  | none => []
  | some (_, s) => s.buffers

theorem routeConnection_iff {reads : List Read} {conn : Conn}
    (h : r.routeConnection metadata reads = .outbound tag conn) :
    conn.bytes = streamBytes reads ↔
      (r.buffers metadata reads).reverse.flatten = (r.buffers metadata reads).flatten := by
  unfold routeConnection at h
  unfold buffers
  split at h
  · cases h
  · next selected s matched =>
    have start : Kept reads 0 { reads } := ⟨.refl, nil_append _⟩
    obtain ⟨m, kept, _⟩ := matchRule_invariant (fun _ _ _ _ _ _ _ => Kept.sniff) start matched
    rw [deliver_outbound h, foldl_cached_bytes, ← kept.bytes, Conn.bytes]
    exact append_left_inj _

/-- At most one sniff action is there, in the rules or in the inbound options. -/
structure Router.SniffsOnce (r : Router μ) : Prop where
  rules : sniffCount r.rules ≤ 1
  inbound : ∀ metadata, r.inboundSniff metadata ≠ none → sniffCount r.rules = 0

theorem Router.SniffsOnce.buffers (once : r.SniffsOnce) (metadata : Metadata μ)
    (reads : List Read) :
    (r.buffers metadata reads).length ≤ 1 := by
  unfold Router.buffers
  split
  · exact Nat.zero_le 1
  · next selected s matched =>
    have start : Kept reads 0 { reads } := ⟨.refl, nil_append _⟩
    obtain ⟨m, kept, few⟩ := matchRule_invariant (fun _ _ _ _ _ _ _ => Kept.sniff) start matched
    apply Nat.le_trans kept.count
    obtain le | ⟨⟨_, inbound⟩, le⟩ := few
    · exact Nat.le_trans le once.rules
    · have none_ := once.inbound _ inbound
      omega

theorem Router.SniffsOnce.reverse (once : r.SniffsOnce) (metadata : Metadata μ)
    (reads : List Read) :
    (r.buffers metadata reads).reverse = r.buffers metadata reads := by
  have few := once.buffers metadata reads
  cases eq : r.buffers metadata reads with
  | nil => rfl
  | cons buffer others =>
    rw [eq, length_cons] at few
    rw [eq_nil_of_length_eq_zero (by omega : others.length = 0)]
    rfl

/-- The packets that `attach` finds in the buffers. -/
def attached (pooled : Nat → Option (Packet δ)) :
    List Nat → (Nat → Option (Packet δ)) → List (Packet δ)
  | [], _ => []
  | i :: buffers, cells =>
    (cells i).toList ++ attached pooled buffers fun j => if j = i then pooled i else cells j

theorem attach_packets (pooled : Nat → Option (Packet δ)) (buffers : List Nat)
    (cells : Nat → Option (Packet δ)) (conn : PacketConn δ) :
    (attach pooled buffers cells conn).packets = (attached pooled buffers cells).reverse ++
      conn.packets := by
  induction buffers generalizing cells conn with
  | nil => rfl
  | cons i buffers ih =>
    rw [attach, ih, attached, PacketConn.packets, reverse_append, append_assoc]
    cases cells i <;> rfl

theorem readPackets_kept {metadata : Metadata μ} {buffers new : List Nat} {taken : List (Packet δ)}
    {after : Packets δ}
    (h : r.readPackets action reads metadata buffers taken = some (new, metadata', after)) :
    after.taken ++ streamPackets after.reads = taken ++ streamPackets reads := by
  induction reads generalizing metadata buffers taken with
  | nil =>
    cases h
    rfl
  | cons read reads ih =>
    cases read with
    | timeout =>
      cases h
      rfl
    | fail => cases h
    | canceled => cases h
    | packet p =>
      have all : taken ++ streamPackets (.packet p :: reads) = taken ++ [p] ++
        streamPackets reads := by
        simp [streamPackets, PacketRead.packet?]
      rw [readPackets] at h
      rw [all]
      split at h
      · exact ih h
      · cases h
        rfl

/-- No packet of the connection is lost. -/
def PacketsKept (reads : List (PacketRead δ)) (s : Packets δ) : Prop :=
  s.taken ++ streamPackets s.reads = streamPackets reads

/-- A sniff action moves packets from the connection to the buffers. -/
theorem PacketsKept.sniff (kept : PacketsKept reads s)
    (h : r.sniffPackets action metadata s = some (metadata', s')) : PacketsKept reads s' := by
  obtain ⟨⟨new, metadata'', after⟩, sniffed, same⟩ := map_eq_some_iff.mp h
  cases same
  unfold actionSniffPackets at sniffed
  split at sniffed
  · cases sniffed
    exact kept
  · split at sniffed
    · cases sniffed
      exact kept
    · exact (readPackets_kept sniffed).trans kept

def Router.packets (metadata : Metadata μ) (reads : List (PacketRead δ)) : Packets δ :=
  match r.matchRule r.sniffPackets metadata { reads } with
  | none => { reads }
  | some (_, s) => s

theorem routePacketConnection_iff {pooled : Nat → Option (Packet δ)} {conn : PacketConn δ}
    (h : r.routePacketConnection pooled metadata reads = .outbound tag conn) :
    conn.packets = streamPackets reads ↔
      (attached pooled (r.packets metadata reads).buffers
        (fun i => (r.packets metadata reads).taken[i]?)).reverse =
          (r.packets metadata reads).taken := by
  unfold routePacketConnection at h
  unfold packets
  split at h
  · cases h
  · next selected s matched =>
    have start : PacketsKept reads { reads } := nil_append _
    obtain ⟨_, kept, _⟩ := matchRule_invariant (I := fun _ => PacketsKept reads)
      (fun _ _ _ _ _ _ _ => PacketsKept.sniff) start matched
    have all : s.taken ++ streamPackets s.reads = streamPackets reads := kept
    rw [deliver_outbound h, attach_packets, ← all, PacketConn.packets]
    exact append_left_inj _

/-- No packet sniffer in use asks for more data. -/
structure Router.Settles (r : Router μ) : Prop where
  quic : r.quicClientHello.Settles
  defaults : ∀ sniffer ∈ r.packetSniffers, sniffer.Settles
  actions : ∀ action, r.Sniffs action → ∀ sniffer ∈ action.packetSniffers, sniffer.Settles

theorem Router.Settles.peek (settles : r.Settles) (mine : r.Sniffs action) (metadata : Metadata μ)
    (payload : Bytes) : (r.peek action metadata payload).1 = false := by
  unfold Router.peek
  have settle : ∀ sniffer ∈ (if action.quicMoreData metadata then [r.quicClientHello]
      else if action.packetSniffers.isEmpty then r.packetSniffers else action.packetSniffers),
        sniffer.Settles := by
    split
    · intro sniffer member
      rw [mem_singleton.mp member]
      exact settles.quic
    · split
      · exact settles.defaults
      · exact settles.actions action mine
  simpa using peekPacket_settles settle

/-- At most one packet was read, and its buffer is there once. -/
def Single (s : Packets δ) : Prop :=
  (s.buffers = [] ∧ s.taken = []) ∨ ∃ p, s.buffers = [0] ∧ s.taken = [p]

theorem Single.sniff (settles : r.Settles) (mine : r.Sniffs action) (single : Single s)
    (h : r.sniffPackets action metadata s = some (metadata', s')) : Single s' := by
  obtain ⟨⟨new, metadata'', after⟩, sniffed, same⟩ := map_eq_some_iff.mp h
  cases same
  unfold actionSniffPackets at sniffed
  split at sniffed
  · cases sniffed
    simpa [Single] using single
  · obtain ⟨none_, none_'⟩ | ⟨p, buffers, taken⟩ := single
    · -- Nothing was read before: the next packet ends the loop.
      have payloads : payloads s = [] := by simp [payloads, none_]
      rw [payloads, peekTaken, none_, none_'] at sniffed
      cases eq : s.reads with
      | nil =>
        rw [eq] at sniffed
        cases sniffed
        exact .inl ⟨by simp [none_], rfl⟩
      | cons read reads =>
        rw [eq] at sniffed
        cases read with
        | timeout =>
          cases sniffed
          exact .inl ⟨by simp [none_], rfl⟩
        | fail => cases sniffed
        | canceled => cases sniffed
        | packet p =>
          have peeked := settles.peek mine metadata p.payload
          simp only [readPackets] at sniffed
          split at sniffed
          · simp_all
          · cases sniffed
            exact .inr ⟨p, by simp [none_], rfl⟩
    · have payloads : payloads s = [p.payload] := by simp [payloads, buffers, taken]
      have peeked := settles.peek mine metadata p.payload
      rw [payloads, peekTaken] at sniffed
      split at sniffed
      · cases sniffed
        exact .inr ⟨p, by simp [buffers], taken⟩
      · next other =>
        split at other
        · simp_all
        · cases other

theorem Router.Settles.attached (settles : r.Settles) (pooled : Nat → Option (Packet δ))
    (metadata : Metadata μ) (reads : List (PacketRead δ)) :
    (attached pooled (r.packets metadata reads).buffers
      (fun i => (r.packets metadata reads).taken[i]?)).reverse =
        (r.packets metadata reads).taken := by
  have single : Single (r.packets metadata reads) := by
    unfold packets
    split
    · exact .inl ⟨rfl, rfl⟩
    · next matched =>
      obtain ⟨_, single, _⟩ := matchRule_invariant (I := fun _ => Single)
        (fun _ mine _ _ _ _ _ => Single.sniff settles mine) (.inl ⟨rfl, rfl⟩) matched
      exact single
  obtain ⟨buffers, taken⟩ | ⟨p, buffers, taken⟩ := single
  · rw [buffers, taken]
    rfl
  · rw [buffers, taken]
    rfl

end

def gives (e : SniffError) : Sniffer Unit := fun metadata _ => (some e, metadata)

/-- Two sniff actions, and the default outbound. -/
def twoSniffs : Router Unit where
  rules :=
    [⟨fun _ => true, .sniff { streamSniffers := [gives .other], snifferNames := [utf8 "tls"] }⟩,
    ⟨fun _ => true, .sniff { streamSniffers := [gives .other], snifferNames := [utf8 "http"] }⟩]
  outbound _ := some (true, true)
  defaultOutbound := utf8 "direct"
  quicClientHello := gives .needMoreData
  capacity := 16384

/-- One sniff action that finds a hello in pieces. -/
def quicSniff : Router Unit :=
  { twoSniffs with
    rules :=
      [⟨fun _ => true,
        .sniff { packetSniffers := [gives .needMoreData], snifferNames := [utf8 "quic"] }⟩] }

def oneSniff : Router Unit :=
  { twoSniffs with
    rules :=
      [⟨fun _ => true,
        .sniff { streamSniffers := [gives .other], packetSniffers := [gives .other] }⟩]
    quicClientHello := gives .other }

end AiboosterEngine.Route.Sniffing
