import AiboosterEngine.Config.Closed
import AiboosterEngine.GoSem.Chain

/-!
# Proxy chains over WARP

With WARP in front of the proxies every chain should run as before and then into
WARP. `patchHiddifyWarpFromConfig` looks at one outbound at a time.
-/

namespace AiboosterEngine.Config
open GoSem Singbox List

/-- An entry on the way of a connection. -/
structure Hop where
  tag : String
  detour : String
  deriving DecidableEq, Repr

def detourOf (dialer : Option DialerOptions) : String := (dialer.map (·.detour)).getD ""

def outboundHop (o : Outbound) : Hop := ⟨o.tag, detourOf o.options.dialer?⟩

def endpointHop (e : Endpoint) : Hop := ⟨e.tag, detourOf e.options.dialer?⟩

def userHops (users : List String) (o : Options) : List Hop :=
  (o.outbounds.map outboundHop ++ o.endpoints.map endpointHop).filter (users.contains ·.tag)

def nextHop (hops : List Hop) (hop : Hop) : Option Hop :=
  if hop.detour = "" then none else hops.find? (·.tag = hop.detour)

/-- From `o'` in the result the detours pass the same entries of the profile as from `o` in the
input, and then come to the WARP endpoint. -/
def KeepsChain (users : List String) (input result : Options) (o o' : Outbound) : Prop :=
  (∀ n, (follow (nextHop (userHops users input)) n (outboundHop o)).map Hop.tag =
    (follow (nextHop (userHops users result)) n (outboundHop o')).map Hop.tag) ∧
  ∃ n last, follow (nextHop (userHops users result)) n (outboundHop o') = some last ∧
    last.detour = warpConfigTag ∧ ∃ e ∈ result.endpoints, e.tag = warpConfigTag

def patched (opt : HiddifyOptions) (o : Outbound) : Outbound :=
  patchHiddifyWarpFromConfig (patchOutbound o opt) opt

theorem patchOutbound_dialer (o : Outbound) (opt : HiddifyOptions) :
    (patchOutbound o opt).options.dialer?.isSome = o.options.dialer?.isSome := by
  obtain ⟨type, tag, options⟩ := o
  unfold patchOutbound patchOutboundTLSTricks patchOutboundFragment
  repeat' split
  all_goals cases options <;> rfl

section
variable {opt : HiddifyOptions} {users : List String} {o : Outbound}

theorem nextHop_none_iff (hops : List Hop) (hop : Hop) :
    nextHop hops hop = none ↔ hop.detour = "" ∨ hop.detour ∉ hops.map Hop.tag := by
  unfold nextHop
  split <;> simp [*]

theorem userHops_tags (c : Options) :
    (userHops users c).map Hop.tag = c.tags.filter users.contains := by
  simp only [userHops, Options.tags, filter_append, map_append, filter_map, map_map]
  rfl

variable (front : opt.warp.enableWarp = true ∧ opt.warp.mode = .proxyOverWarp)
  (proxy : o.type ≠ .psiphon)
include front proxy

theorem patched_detour :
    (outboundHop (patched opt o)).detour = if o.options.dialer?.isSome
      then warpConfigTag else "" := by
  have kept := patchOutbound_dialer o opt
  unfold patched patchHiddifyWarpFromConfig
  rw [patchOutbound_type, if_neg proxy, if_pos (by simp [front])]
  generalize patchOutbound o opt = p at kept ⊢
  obtain ⟨type, tag, options⟩ := p
  rw [← kept]
  cases options <;> rfl

theorem nextHop_patched (warp : warpConfigTag ∉ users) (result : Options) :
    nextHop (userHops users result) (outboundHop (patched opt o)) = none := by
  rw [nextHop_none_iff, patched_detour front proxy]
  split
  · right
    rw [userHops_tags]
    simp [warp]
  · exact .inl rfl

end

theorem setOutbounds_result {net : Net} {input result : Options} {opt opt' : HiddifyOptions}
    (h : setOutbounds net input opt = .ok (result, opt')) :
    (∀ o ∈ keepOutbounds false input.outbounds, patched opt o ∈ result.outbounds) ∧
      addedEndpoints net opt ⊆ result.endpoints := by
  obtain ⟨_, _, eq⟩ := setOutbounds_eq net input opt
  rw [eq] at h
  obtain ⟨default, _, h⟩ := Outcome.bind_eq_ok h
  cases h
  constructor
  · intro o kept
    have mem := mem_map_of_mem (f := patched opt) kept
    exact mem_append_left _ (mem_append_right _ mem)
  · exact subset_append_left _ _

/-- With WARP in front of the proxies, an outbound that is kept and is not Psiphon keeps its chain
exactly if it has dialer options and its detour named no entry of the profile that is kept. -/
theorem setOutbounds_keepsChain_iff {net : Net} {input result : Options} {opt opt' : HiddifyOptions}
    {o : Outbound} (h : setOutbounds net input opt = .ok (result, opt'))
    (front : opt.warp.enableWarp = true ∧ opt.warp.mode = .proxyOverWarp)
    (kept : o ∈ keepOutbounds false input.outbounds) (proxy : o.type ≠ .psiphon) :
    patched opt o ∈ result.outbounds ∧
      (KeepsChain (keptTags opt input) input result o (patched opt o) ↔
        o.options.dialer?.isSome ∧ ∀ d ∈ o.dialerDetours, d ∉ keptTags opt input) := by
  obtain ⟨outbounds, endpoints⟩ := setOutbounds_result h
  have warp : warpConfigTag ∉ keptTags opt input := fun mem =>
    keptTags_not_predefined mem (by decide)
  have last := nextHop_patched front proxy warp result
  have tag : (patched opt o).tag = o.tag := by rw [patched, patchHiddifyWarp_tag, patchOutbound_tag]
  have detours : (∀ d ∈ o.dialerDetours, d ∉ keptTags opt input) ↔
      nextHop (userHops (keptTags opt input) input) (outboundHop o) = none := by
    have user (tag : String) : tag ∉ (userHops (keptTags opt input) input).map Hop.tag ↔
        tag ∉ keptTags opt input := by
      have inside : tag ∈ keptTags opt input → tag ∈ input.tags := fun mem =>
        keptTags_sublist.subset mem
      rw [userHops_tags, mem_filter, contains_iff_mem, and_iff_right_of_imp inside]
    rw [nextHop_none_iff, user]
    unfold Outbound.dialerDetours outboundHop detourOf
    cases o.options.dialer? with
    | none => simp
    | some d => by_cases empty : d.detour = "" <;> simp [empty, detourTag]
  refine ⟨outbounds o kept, ?_⟩
  rw [detours]
  constructor
  · rintro ⟨same, n, hop, followed, detour, _⟩
    constructor
    · cases n with
      | zero =>
        cases followed
        rw [patched_detour front proxy] at detour
        split at detour
        · assumption
        · exact absurd detour (by decide)
      | succ n =>
        rw [follow_last last] at followed
        cases followed
    · have first := same 1
      rw [follow_last last] at first
      simpa [follow] using first
  · rintro ⟨dialer, ends⟩
    constructor
    · intro n
      cases n with
      | zero => exact congrArg some tag.symm
      | succ n => rw [follow_last last, follow_last ends]
    · refine ⟨0, _, rfl, ?_, _, endpoints (by simp [addedEndpoints, front.1]; rfl), ?_⟩
      · rw [patched_detour front proxy, if_pos dialer]
      · simp [warpEndpoint, generateWarpSingboxNew, front.2, patchEndpoint_tag]

/-- WARP in front of the proxies. -/
def overWarp : HiddifyOptions := { exampleOptions with warp := ⟨true, .proxyOverWarp, ""⟩ }

/-- Both proxies of the chain are kept, and the first hop, which had no detour, has its chain. -/
theorem setOutbounds_keepsChain_first :
    ∃ result opt', setOutbounds exampleNet chainedProfile overWarp = .ok (result, opt') ∧
      KeepsChain (keptTags overWarp chainedProfile) chainedProfile result ⟨.vless, "a",
        .dialed {} none⟩ (patched overWarp ⟨.vless, "a", .dialed {} none⟩) :=
  ⟨_, _, rfl, (setOutbounds_keepsChain_iff rfl ⟨rfl, rfl⟩ (by decide) (by decide)).2.mpr
    ⟨rfl, by decide⟩⟩

/-- The second hop went through the first; now it goes to WARP alone. -/
theorem setOutbounds_breaks_chain :
    ∃ result opt', setOutbounds exampleNet chainedProfile overWarp = .ok (result, opt') ∧
      ⟨.vless, "b", .dialed { detour := warpConfigTag } none⟩ ∈ result.outbounds ∧
      ¬ KeepsChain (keptTags overWarp chainedProfile) chainedProfile result
        ⟨.vless, "b", .dialed { detour := "a" } none⟩ ⟨.vless, "b",
          .dialed { detour := warpConfigTag } none⟩ := by
  refine ⟨_, _, rfl, by decide, fun keeps => ?_⟩
  exact absurd (keeps.1 1) (by decide)

end AiboosterEngine.Config
