import AiboosterEngine.GoSem.Chain
import AiboosterEngine.GoSem.Loop

/-!
# Detours of inbounds

The detour of `routeConnection` in `route/route.go`, with `NewConnectionEx` of the inbounds
it injects the connection into: ShadowTLS (`protocol/shadowtls/inbound.go`) and
Shadowsocks with users (`protocol/shadowsocks/inbound_multi.go`, through
`adapter.NewUpstreamHandler`). Both start from metadata of their own and leave `LastInbound`
empty. The protocols succeed; what the client sends them is a parameter.
-/

namespace AiboosterEngine.Route.Detour
open GoSem

inductive InboundType where
  | shadowTLS | shadowsocksMulti
  deriving DecidableEq, Repr

structure Inbound where
  tag : String
  type : InboundType
  detour : String := ""
  users : List String := []
  deriving DecidableEq, Repr

/-- The inbounds of the router: those above, and the tags of inbounds that are no
`TCPInjectableInbound`. -/
structure Manager where
  inbounds : List Inbound
  others : List String := []
  deriving DecidableEq, Repr

/-- `none` is an address that is not valid. -/
structure InboundContext (Addr : Type) where
  inbound : String := ""
  inboundType : Option InboundType := none
  inboundDetour : String := ""
  lastInbound : String := ""
  source : Option Addr := none
  destination : Option Addr := none
  user : String := ""

/-- What an inbound's protocol finds in what the client sends. -/
structure Handshake (Addr : Type) where
  userName : String
  userIndex : Nat
  destination : Option Addr

section
variable {Addr : Type} (h : Inbound) (handshake : Handshake Addr) (metadata : InboundContext Addr)

/-- `inboundHandler.NewConnectionEx` of ShadowTLS, after its handshake. -/
def shadowTLSConnection : InboundContext Addr :=
  { inbound := h.tag, inboundType := some h.type, inboundDetour := h.detour
    source := metadata.source, destination := metadata.destination, user := handshake.userName }

/-- `newConnection` of `MultiInbound`, after its handshake. -/
def shadowsocksConnection : InboundContext Addr :=
  { inbound := h.tag, inboundType := some h.type, inboundDetour := h.detour
    source := metadata.source, destination := handshake.destination
    user := h.users.getD handshake.userIndex "" }

/-- The metadata with which `NewConnectionEx` of the inbound comes back to the router. -/
def Inbound.newConnectionEx : InboundContext Addr :=
  match h.type with
  | .shadowTLS => shadowTLSConnection h handshake metadata
  | .shadowsocksMulti => shadowsocksConnection h handshake metadata

variable (manager : Manager)

def Manager.get (tag : String) : Option Inbound := manager.inbounds.find? (·.tag = tag)

/-- The beginning of `routeConnection`, for a connection that has come through `count` inbounds;
with no detour it goes on to the rules. -/
def routePass (client : Nat → Handshake Addr) (state : Nat × InboundContext Addr) :
    Partial String (Pass (Nat × InboundContext Addr) (InboundContext Addr)) :=
  let count := state.1
  let metadata := state.2
  if metadata.inboundDetour ≠ "" then
    if metadata.lastInbound = metadata.inboundDetour then
      some (.err ("routing loop on detour: " ++ metadata.inboundDetour))
    else
      match manager.get metadata.inboundDetour with
      | some detour =>
        let injected := { metadata with
          lastInbound := metadata.inbound, inbound := metadata.inboundDetour, inboundDetour := "" }
        some (.ok (.again (count + 1, detour.newConnectionEx (client count) injected)))
      | none =>
        if metadata.inboundDetour ∈ manager.others then
          some (.err ("inbound detour is not TCP injectable: " ++ metadata.inboundDetour))
        else some (.err ("inbound detour not found: " ++ metadata.inboundDetour))
  else some (.ok (.leave metadata))

/-- A connection that a client makes to an inbound, with fuel for so many passes of
`routeConnection`. -/
def accept (entry : Inbound) (client : Nat → Handshake Addr) (metadata : InboundContext Addr)
    (fuel : Nat) : Partial String (InboundContext Addr) :=
  loop (routePass manager client) fuel (1, entry.newConnectionEx (client 0) metadata)

/-- The inbound a detour leads to. -/
def Manager.detour (manager : Manager) (inbound : Inbound) : Option Inbound :=
  if inbound.detour = "" then none else manager.get inbound.detour

theorem Manager.detour_mem {manager : Manager} {a b : Inbound} (h : manager.detour a = some b) :
    b ∈ manager.inbounds := by
  unfold Manager.detour at h
  split at h
  · cases h
  · exact List.mem_of_find?_eq_some h

/-- Metadata that an inbound has sent to the router. -/
structure Of (inbound : Inbound) (metadata : InboundContext Addr) : Prop where
  detour : metadata.inboundDetour = inbound.detour
  last : metadata.lastInbound = ""

theorem of_newConnectionEx : Of h (h.newConnectionEx handshake metadata) := by
  cases type : h.type <;> constructor <;>
    simp [Inbound.newConnectionEx, type, shadowTLSConnection, shadowsocksConnection]

variable {manager : Manager} {client : Nat → Handshake Addr} {inbound : Inbound}
  {metadata : InboundContext Addr} {count fuel : Nat}

/-- `LastInbound` is empty, so no detour is refused as a loop. -/
theorem routePass_detour {target : Inbound} (of : Of inbound metadata)
    (leads : manager.detour inbound = some target) :
    ∃ metadata', Of target metadata' ∧
      routePass manager client (count, metadata) = some (.ok (.again (count + 1, metadata'))) := by
  unfold Manager.detour at leads
  split at leads
  · cases leads
  · next nonempty =>
    rw [← of.detour] at leads nonempty
    have apart : ¬ metadata.lastInbound = metadata.inboundDetour := by
      rw [of.last]
      exact fun same => nonempty same.symm
    let injected : InboundContext Addr :=
      { metadata with
        lastInbound := metadata.inbound, inbound := metadata.inboundDetour, inboundDetour := "" }
    refine ⟨target.newConnectionEx (client count) injected, of_newConnectionEx _ _ _, ?_⟩
    simp only [routePass, ne_eq, nonempty, not_false_eq_true, if_true, if_neg apart,
      leads, injected]

theorem routePass_last (of : Of inbound metadata) (last : manager.detour inbound = none) :
    routePass manager client (count, metadata) = some (.ok (.leave metadata)) ∨
      ∃ e, routePass manager client (count, metadata) = some (.err e) := by
  unfold Manager.detour at last
  rw [← of.detour] at last
  split at last
  · next empty =>
    left
    simp [routePass, empty]
  · next nonempty =>
    right
    simp only [routePass, ne_eq, nonempty, not_false_eq_true, if_true, last]
    split
    · exact ⟨_, rfl⟩
    · split
      · exact ⟨_, rfl⟩
      · exact ⟨_, rfl⟩

/-- The connection comes to an end as the chain of detours does. -/
theorem returns_iff_follow (of : Of inbound metadata) :
    (loop (routePass manager client) fuel (count, metadata)).Returns ↔
      follow manager.detour fuel inbound = none := by
  induction fuel generalizing inbound metadata count with
  | zero => exact iff_of_false (fun ⟨_, ended, _⟩ => by cases ended) (Option.some_ne_none _)
  | succ fuel ih =>
    cases leads : manager.detour inbound with
    | none =>
      apply iff_of_true _ (follow_last leads)
      obtain leave | ⟨e, err⟩ := routePass_last of leads
      · exact ⟨_, loop_leave leave, trivial⟩
      · exact ⟨.err e, by rw [loop, err]; rfl, trivial⟩
    | some target =>
      obtain ⟨metadata', of', again⟩ := routePass_detour of leads
      rw [loop_again again, follow_next leads]
      exact ih of'

/-- Some number of passes is enough for every connection to every inbound. -/
def Bounded (Addr : Type) (manager : Manager) : Prop :=
  ∃ bound, ∀ entry ∈ manager.inbounds,
    ∀ (client : Nat → Handshake Addr) (metadata : InboundContext Addr),
    (accept manager entry client metadata bound).Returns

/-- The detours have a bound exactly when no inbound's detours lead back to it. -/
theorem bounded_iff (manager : Manager) :
    Bounded Addr manager ↔
      ∀ inbound ∈ manager.inbounds, ¬ Relation.TransGen (Leads manager.detour) inbound inbound := by
  constructor
  · rintro ⟨bound, returns⟩ inbound mem cycle
    have ends := returns inbound mem (fun _ => ⟨"", 0, none⟩) {}
    exact follow_of_cycle cycle ((returns_iff_follow (of_newConnectionEx _ _ _)).mp ends)
  · intro acyclic
    refine ⟨manager.inbounds.length, fun entry mem client metadata => ?_⟩
    apply (returns_iff_follow (of_newConnectionEx _ _ _)).mpr
    exact follow_ends (fun _ _ => Manager.detour_mem) acyclic mem

end

def tlsIn : Inbound := ⟨"tls-in", .shadowTLS, "ss-in", []⟩

def ssIn : Inbound := ⟨"ss-in", .shadowsocksMulti, "tls-in", ["user"]⟩

def backAndForth : Manager := { inbounds := [tlsIn, ssIn] }

/-- No number of passes is enough from either of them, and the loop is never noticed. -/
theorem backAndForth_never_returns :
    (∀ (client : Nat → Handshake Unit) (fuel : Nat),
      ¬ (accept backAndForth tlsIn client {} fuel).Returns) ∧
      ∀ (client : Nat → Handshake Unit) (fuel : Nat),
        ¬ (accept backAndForth ssIn client {} fuel).Returns := by
  have there : Leads backAndForth.detour tlsIn ssIn := by
    unfold Leads
    decide
  have back : Leads backAndForth.detour ssIn tlsIn := by
    unfold Leads
    decide
  have never {entry : Inbound} (cycle : Relation.TransGen (Leads backAndForth.detour) entry entry)
      (client : Nat → Handshake Unit) (fuel : Nat) :
        ¬ (accept backAndForth entry client {} fuel).Returns := by
    intro returns
    exact follow_of_cycle cycle ((returns_iff_follow (of_newConnectionEx _ _ _)).mp returns)
  exact ⟨never ((Relation.TransGen.single there).tail back),
    never ((Relation.TransGen.single back).tail there)⟩

end AiboosterEngine.Route.Detour
