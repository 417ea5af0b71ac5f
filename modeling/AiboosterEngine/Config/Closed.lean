import AiboosterEngine.Config.Outbounds

/-!
# When the generated configuration is closed

A configuration is closed when its tags are distinct and every reference in it
names one of them. The filters of `setOutbounds` are written here on the input
alone (`keepOutbounds`, `keepEndpoints`); `setOutbounds_eq` gives the result in
terms of what they keep, and `setOutbounds_closed_iff` says for which inputs
the result is closed.
-/

namespace AiboosterEngine.Config
open GoSem Singbox List Outbound

/-- A profile whose tags are distinct and whose detours name its own tags. -/
structure WellFormed (input : Options) : Prop where
  distinct : input.tags.Nodup
  detours : ∀ d ∈ input.detours, d ∈ input.tags

/-- The members of a group, its default included. -/
def groupMembers (o : Outbound) : List String :=
  match o.options with
  | .selector s => s.default :: s.outbounds
  | .balancer b => b.outbounds
  | _ => []

/-- The result `o` refers only to itself; `generated` are the selector and the balancers
that were added, at its front. -/
structure Closed (generated : List Outbound) (o : Options) : Prop where
  front : generated <+: o.outbounds
  distinct : o.tags.Nodup
  members : ∀ g ∈ generated, ∀ t ∈ groupMembers g, t ∈ o.tags
  detours : ∀ d ∈ o.detours, d ∈ o.tags

def droppedOutbound (o : Outbound) : Bool :=
  predefinedOutboundTags.contains o.tag || skippedType o.type ||
    ["direct", "bypass", "block"].contains o.tag

/-- Only the first Psiphon outbound stays. -/
def keepOutbounds : (hasPsiphon : Bool) → List Outbound → List Outbound
  | _, [] => []
  | hasPsiphon, o :: rest =>
    if droppedOutbound o || (o.type = .psiphon && hasPsiphon) then keepOutbounds hasPsiphon rest
    else o :: keepOutbounds (hasPsiphon || o.type = .psiphon) rest

variable (opt : HiddifyOptions)

def keepEndpoints (es : List Endpoint) : List Endpoint :=
  es.filter fun e => !predefinedOutboundTags.contains e.tag && !duplicateWarp opt e

section
variable (input : Options)

/-- The tags of the profile's entries that stay. -/
def keptTags : List String :=
  (keepOutbounds false input.outbounds).map (·.tag) ++
    (keepEndpoints opt input.endpoints).map (·.tag)

def visibleTags : List String :=
  (keptTags opt input).filter (!hidden ·)

/-- The tags that the builder adds itself. -/
def addedTags : List String :=
  [outboundSelectTag, outboundDirectTag, outboundDirectFragmentTag] ++
  (if opt.warp.enableWarp then [warpConfigTag] else []) ++
  (if (visibleTags opt input).length > 1 then
    if opt.warp.enableWarp then [outboundURLTestTag]
    else [outboundRoundRobinTag, outboundURLTestTag]
  else [])

/-- Over WARP, every kept outbound but Psiphon has the detour of its dialer replaced. -/
def overridden (o : Outbound) : Bool :=
  opt.warp.enableWarp && opt.warp.mode = .proxyOverWarp && o.type ≠ .psiphon

/-- The detours of the profile that reach the result. A WARP endpoint's profile detour
does not: it is replaced. -/
def keptDetours : List String :=
  ((keepOutbounds false input.outbounds).flatMap fun o => if overridden opt o then o.downloadDetours
    else o.detours) ++
  (keepEndpoints opt input.endpoints).flatMap fun e =>
    match e.type, e.options with
    | .warp, .warp o => detourTag o.dialer.detour
    | _, _ => e.detours

end

/-- The inputs on which the result is closed: something visible is left; no kept entry has
the tag of the generated balancer where that is generated; a single visible tag that
contains `§default§` is that text; and no kept detour names an entry that was dropped. -/
structure Clean (opt : HiddifyOptions) (input : Options) : Prop where
  visible : visibleTags opt input ≠ []
  balance : opt.warp.enableWarp = false → (visibleTags opt input).length > 1 →
    outboundRoundRobinTag ∉ keptTags opt input
  default : ∀ t, visibleTags opt input = [t] → containsText t "§default§" = true →
    t = "§default§"
  detours : ∀ d ∈ keptDetours opt input, d ∈ keptTags opt input ++ addedTags opt input

section
variable (o : Outbound)

section
variable (opt : HiddifyOptions)

theorem patchOutbound_type : (patchOutbound o opt).type = o.type := by
  unfold patchOutbound patchOutboundTLSTricks patchOutboundFragment
  repeat' split
  all_goals rfl

theorem patchOutbound_tag : (patchOutbound o opt).tag = o.tag := by
  unfold patchOutbound patchOutboundTLSTricks patchOutboundFragment
  repeat' split
  all_goals rfl

theorem replaceDialer_detours (d : DialerOptions) (h : o.options.dialer?.isSome) :
    ({ o with options := o.options.replaceDialer d } : Outbound).detours = detourTag d.detour ++
      o.downloadDetours := by
  obtain ⟨type, tag, options⟩ := o
  cases options with
  | dialed old tls download => rfl
  | selector s | balancer b | plain => simp [OutboundOptions.dialer?] at h

theorem patchOutboundFragment_detours : (patchOutboundFragment o opt).detours = o.detours := by
  unfold patchOutboundFragment
  split
  · cases found : o.options.dialer? with
    | none => rfl
    | some dialer =>
      rw [replaceDialer_detours o _ (by rw [found]; rfl)]
      simp only [detours, dialerDetours, found]
  · rfl

theorem patchOutbound_detours : (patchOutbound o opt).detours = o.detours := by
  unfold patchOutbound patchOutboundTLSTricks
  repeat' split
  all_goals first | rfl | exact patchOutboundFragment_detours o opt

theorem patchOutbound_download : (patchOutbound o opt).downloadDetours = o.downloadDetours := by
  have kept (d : DialerOptions) : downloadDetours { o with options := o.options.replaceDialer d } =
    o.downloadDetours := by
    obtain ⟨type, tag, options⟩ := o
    cases options <;> rfl
  unfold patchOutbound patchOutboundTLSTricks patchOutboundFragment
  repeat' split
  all_goals first | rfl | exact kept _

theorem patchHiddifyWarp_tag : (patchHiddifyWarpFromConfig o opt).tag = o.tag := by
  unfold patchHiddifyWarpFromConfig
  repeat' split
  all_goals rfl

/-- An outbound without dialer options has no detour to replace. -/
theorem patchHiddifyWarp_detours :
    (patchHiddifyWarpFromConfig o opt).detours =
      if overridden opt o then
        (if o.options.dialer?.isSome then [warpConfigTag] else []) ++ o.downloadDetours
      else o.detours := by
  unfold patchHiddifyWarpFromConfig overridden
  by_cases hp : o.type = .psiphon
  · simp [hp]
  · by_cases hw : opt.warp.enableWarp = true ∧ opt.warp.mode = .proxyOverWarp
    · simp only [hp, hw.1, hw.2, decide_true, Bool.and_self, ite_true, ne_eq, not_false_eq_true,
        ite_false]
      cases hd : o.options.dialer? with
      | none => simp [detours, dialerDetours, hd]
      | some d =>
        simp only [Option.isSome_some, ite_true]
        rw [replaceDialer_detours _ _ (by simp [hd])]
        rfl
    · grind

end

end

/-- The detours of an outbound of the profile in the result. -/
theorem patched_detours (opt : HiddifyOptions) (o : Outbound) :
    (patchHiddifyWarpFromConfig (patchOutbound o opt) opt).detours =
      if overridden opt o then
        (if (patchOutbound o opt).options.dialer?.isSome then [warpConfigTag] else []) ++
          o.downloadDetours
      else o.detours := by
  have type : overridden opt (patchOutbound o opt) = overridden opt o := by
    simp only [overridden, patchOutbound_type]
  rw [patchHiddifyWarp_detours, patchOutbound_detours, patchOutbound_download, type]

variable (net : Net)

theorem patchEndpoint_tag (e : Endpoint) : (patchEndpoint net e).tag = e.tag := by
  unfold patchEndpoint patchWarp
  split <;> rfl

theorem patchEndpoint_detours (e : Endpoint) :
    (patchEndpoint net e).detours =
      match e.type, e.options with
      | .warp, .warp o =>
        detourTag o.dialer.detour ++ [outboundDirectFragmentTag]
      | _, _ => e.detours := by
  unfold patchEndpoint patchWarp
  obtain ⟨type, tag, options⟩ := e
  split
  · rename_i ht ho
    cases ht; cases ho
    rfl
  · rename_i o ht ho
    cases ht; cases ho
    by_cases hd : o.dialer.detour = "" <;> simp [Endpoint.detours, EndpointOptions.dialer?, hd]
  · rename_i notWarp _
    split
    · rename_i ht ho
      exact absurd ho (notWarp _ ht)
    · rfl

variable (opt : HiddifyOptions)

theorem outboundLoop_cons (p : Bool) (o : Outbound) (rest : List Outbound) :
    outboundLoop opt p (o :: rest) =
      if droppedOutbound o || (o.type = .psiphon && p) then outboundLoop opt p rest
      else
        let (tags, outbounds) := outboundLoop opt (p || o.type = .psiphon) rest
        (if hidden o.tag then tags else o.tag :: tags,
          patchHiddifyWarpFromConfig (patchOutbound o opt) opt :: outbounds) := by
  simp only [outboundLoop, droppedOutbound, patchOutbound_type, patchOutbound_tag]
  simp only [Bool.or_eq_true]
  by_cases hp : predefinedOutboundTags.contains o.tag = true
  · simp only [hp, ite_true, true_or]
  · grind

theorem outboundLoop_eq (p : Bool) (outs : List Outbound) :
    outboundLoop opt p outs =
      (((keepOutbounds p outs).map (·.tag)).filter (!hidden ·),
        (keepOutbounds p outs).map
          fun o => patchHiddifyWarpFromConfig (patchOutbound o opt) opt) := by
  induction outs generalizing p with
  | nil => rfl
  | cons o rest ih => grind [outboundLoop_cons, keepOutbounds]

theorem raiseMTU_warp (e : Endpoint) : (raiseMTU opt e).warp = opt.warp := by
  unfold raiseMTU
  repeat' split
  all_goals rfl

theorem keepEndpoints_congr {opt opt' : HiddifyOptions} (h : opt'.warp = opt.warp) :
    keepEndpoints opt' = keepEndpoints opt := by
  funext es
  simp only [keepEndpoints, duplicateWarp, h]

theorem endpointLoop_eq (es : List Endpoint) :
    (endpointLoop net opt es).1.warp = opt.warp ∧
    (endpointLoop net opt es).2 =
      (((keepEndpoints opt es).map (·.tag)).filter (!hidden ·),
        (keepEndpoints opt es).map (patchEndpoint net)) := by
  induction es generalizing opt with
  | nil => exact ⟨rfl, rfl⟩
  | cons e rest ih =>
    simp only [endpointLoop, keepEndpoints, filter_cons]
    cases predefinedOutboundTags.contains e.tag with
    | true => exact ih opt
    | false =>
      cases hd : duplicateWarp opt e with
      | true => simpa [hd, keepEndpoints] using ih opt
      | false =>
        have hw := raiseMTU_warp opt e
        obtain ⟨ihw, iht⟩ := ih (raiseMTU opt e)
        rw [keepEndpoints_congr hw] at iht
        simp only [Bool.false_eq_true, ite_false, Bool.not_false, Bool.and_self, ite_true,
          map_cons, filter_cons, patchEndpoint_tag]
        refine ⟨ihw.trans hw, ?_⟩
        generalize endpointLoop net (raiseMTU opt e) rest = r at iht ⊢
        obtain ⟨_, r⟩ := r
        cases iht
        cases hh : hidden e.tag <;> simp [keepEndpoints]

/-- The WARP endpoint that the builder adds. -/
def addedEndpoints : List Endpoint :=
  if opt.warp.enableWarp then [(warpEndpoint net opt).1] else []

/-- The result for the default `default`. -/
def resultOptions (opt opt' : HiddifyOptions) (input : Options) (default : String) : Options :=
  ⟨generatedOutbounds opt' (visibleTags opt input) default ++
      ((keepOutbounds false input.outbounds).map
        fun o => patchHiddifyWarpFromConfig (patchOutbound o opt) opt) ++ directOutbounds opt',
    addedEndpoints net opt ++ (keepEndpoints opt input.endpoints).map (patchEndpoint net)⟩

theorem warpEndpoint_warp : (warpEndpoint net opt).2.warp = opt.warp := by
  simp only [warpEndpoint, generateWarpSingboxNew]
  split <;> rfl

theorem defaultConnectionTestUrls_warp : (defaultConnectionTestUrls net opt).warp = opt.warp := by
  unfold defaultConnectionTestUrls
  split <;> rfl

/-- `setOutbounds` on what the filters keep. The options it leaves behind have the same
WARP section. -/
theorem setOutbounds_eq (input : Options) (opt : HiddifyOptions) :
    ∃ opt', opt'.warp = opt.warp ∧
      setOutbounds net input opt = (do
        let default ← defaultSelect (visibleTags opt input)
        pure (resultOptions net opt opt' input default, opt')) := by
  obtain ⟨opt₁, h₁, added⟩ : ∃ opt₁, opt₁.warp = opt.warp ∧
      (if opt.warp.enableWarp then ([(warpEndpoint net opt).1], (warpEndpoint net opt).2)
        else ([], opt)) = (addedEndpoints net opt, opt₁) := by
    unfold addedEndpoints
    split
    · exact ⟨_, warpEndpoint_warp net opt, rfl⟩
    · exact ⟨_, rfl, rfl⟩
  obtain ⟨hw, he⟩ := endpointLoop_eq net opt₁ input.endpoints
  refine ⟨defaultConnectionTestUrls net (endpointLoop net opt₁ input.endpoints).1, ?_, ?_⟩
  · rw [defaultConnectionTestUrls_warp, hw, h₁]
  · simp only [setOutbounds, added, he, keepEndpoints_congr h₁, outboundLoop_eq,
      resultOptions, visibleTags, keptTags, filter_append]

section
variable {net : Net} {opt opt' : HiddifyOptions} {input : Options} {default : String}

theorem generated_tags (hw : opt'.warp = opt.warp) :
    (generatedOutbounds opt' (visibleTags opt input) default).map (·.tag) =
      outboundSelectTag :: (if (visibleTags opt input).length > 1 then
        if opt.warp.enableWarp then [outboundURLTestTag]
        else [outboundRoundRobinTag, outboundURLTestTag]
      else []) := by
  simp only [generatedOutbounds, groups, hw]
  split
  · split <;> rfl
  · rfl

theorem addedEndpoints_tags :
    (addedEndpoints net opt).map (·.tag) = if opt.warp.enableWarp then [warpConfigTag] else [] := by
  unfold addedEndpoints
  split
  · simp only [warpEndpoint, generateWarpSingboxNew, map_cons, map_nil]
    split <;> rfl
  · rfl

theorem keptOutbounds_tags (outs : List Outbound) :
    (outs.map fun o => patchHiddifyWarpFromConfig (patchOutbound o opt) opt).map (·.tag) =
      outs.map (·.tag) := by
  simp [Function.comp_def, patchHiddifyWarp_tag, patchOutbound_tag]

theorem keptEndpoints_tags (es : List Endpoint) :
    (es.map (patchEndpoint net)).map (·.tag) = es.map (·.tag) := by
  simp [Function.comp_def, patchEndpoint_tag]

theorem result_tags (hw : opt'.warp = opt.warp) :
    (resultOptions net opt opt' input default).tags.Perm
      (keptTags opt input ++ addedTags opt input) := by
  rw [perm_iff_count]
  intro t
  simp only [Options.tags, resultOptions, map_append, generated_tags hw, addedEndpoints_tags,
    keptOutbounds_tags, keptEndpoints_tags, keptTags, addedTags, directOutbounds, map_cons,
    map_nil, count_append, count_cons, count_nil]
  omega

theorem result_tags_mem (hw : opt'.warp = opt.warp) (t : String) :
    t ∈ (resultOptions net opt opt' input default).tags ↔
      t ∈ keptTags opt input ∨ t ∈ addedTags opt input := by
  rw [(result_tags hw).mem_iff, mem_append]

variable {t d : String}

theorem visible_mem (h : t ∈ visibleTags opt input) : t ∈ keptTags opt input :=
  (mem_filter.mp h).1

theorem keepOutbounds_sublist (p : Bool) (outs : List Outbound) :
    (keepOutbounds p outs).Sublist outs := by
  induction outs generalizing p with
  | nil => exact .slnil
  | cons o rest ih => grind [keepOutbounds]

theorem keptTags_sublist : (keptTags opt input).Sublist input.tags :=
  ((keepOutbounds_sublist _ _).map _).append ((filter_sublist).map _)

theorem keepOutbounds_not_predefined (p : Bool) (outs : List Outbound) (o : Outbound)
    (h : o ∈ keepOutbounds p outs) : o.tag ∉ predefinedOutboundTags := by
  induction outs generalizing p with
  | nil => cases h
  | cons a rest ih => grind [keepOutbounds, droppedOutbound]

/-- What stays has no predefined tag, so it can only meet the generated balancer's. -/
theorem keptTags_not_predefined (h : t ∈ keptTags opt input) : t ∉ predefinedOutboundTags := by
  rcases mem_append.mp h with h | h
  · obtain ⟨o, ho, rfl⟩ := mem_map.mp h
    exact keepOutbounds_not_predefined _ _ o ho
  · obtain ⟨e, he, rfl⟩ := mem_map.mp h
    have := (mem_filter.mp he).2
    intro hp
    simp [hp] at this

theorem addedTags_nodup : (addedTags opt input).Nodup := by
  unfold addedTags
  split <;> split <;> decide

theorem addedTags_predefined (h : t ∈ addedTags opt input) :
    t ∈ predefinedOutboundTags ∨ (t = outboundRoundRobinTag ∧ opt.warp.enableWarp = false ∧
      (visibleTags opt input).length > 1) := by
  have known {l : List String} (h : t ∈ l) (all : ∀ x ∈ l, x ∈ predefinedOutboundTags) := all t h
  unfold addedTags at h
  split at h
  · left
    split at h <;> exact known h (by decide)
  · rename_i hwarp
    split at h
    · rename_i hv
      rcases mem_append.mp h with h | h
      · exact .inl (known h (by decide))
      · rcases mem_cons.mp h with h | h
        · exact .inr ⟨h, by simpa using hwarp, hv⟩
        · exact .inl (known h (by decide))
    · exact .inl (known h (by decide))

theorem roundRobin_added (hwarp : opt.warp.enableWarp = false)
    (hv : (visibleTags opt input).length > 1) : outboundRoundRobinTag ∈ addedTags opt input := by
  simp [addedTags, hwarp, hv]

/-- The tags of the result are distinct exactly when the generated balancer meets no kept
entry of its name. -/
theorem result_tags_nodup (hw : opt'.warp = opt.warp) (hd : input.tags.Nodup) :
    (resultOptions net opt opt' input default).tags.Nodup ↔
      (opt.warp.enableWarp = false → (visibleTags opt input).length > 1 →
        outboundRoundRobinTag ∉ keptTags opt input) := by
  rw [(result_tags hw).nodup_iff, nodup_append]
  constructor
  · rintro ⟨_, _, disjoint⟩ hwarp hv hk
    exact disjoint _ hk _ (roundRobin_added hwarp hv) rfl
  · intro h
    refine ⟨hd.sublist keptTags_sublist, addedTags_nodup, ?_⟩
    rintro t hk _ ha rfl
    rcases addedTags_predefined ha with hp | ⟨rfl, hwarp, hv⟩
    · exact keptTags_not_predefined hk hp
    · exact h hwarp hv hk

theorem defaultText_not_added : "§default§" ∉ addedTags opt input := by
  intro h
  rcases addedTags_predefined h with h | ⟨h, _⟩
  · exact absurd h (by decide)
  · exact absurd h (by decide)

/-- The text `§default§` names something only when it is itself a kept tag. -/
theorem defaultText_mem (hv : visibleTags opt input = [t]) :
    "§default§" ∈ keptTags opt input ∨ "§default§" ∈ addedTags opt input ↔ t = "§default§" := by
  constructor
  · rintro (h | h)
    · have : "§default§" ∈ visibleTags opt input := mem_filter.mpr ⟨h, by decide⟩
      rw [hv] at this
      exact (mem_singleton.mp this).symm
    · exact absurd h defaultText_not_added
  · rintro rfl
    exact Or.inl (visible_mem (by rw [hv]; exact mem_singleton_self _))

/-- With two visible tags or more, the groups are there and the default is one of them. -/
theorem members_of_many (hw : opt'.warp = opt.warp) (hv : (visibleTags opt input).length > 1) :
    ∀ g ∈ generatedOutbounds opt' (visibleTags opt input) default, ∀ t ∈ groupMembers g,
      t ∈ keptTags opt input ∨ t ∈ addedTags opt input := by
  intro g hg t ht
  have visible {t : String} (h : t ∈ visibleTags opt input) :
      t ∈ keptTags opt input ∨ t ∈ addedTags opt input := Or.inl (visible_mem h)
  cases hwarp : opt.warp.enableWarp with
  | true =>
    grind [addedTags, generatedOutbounds, groups, groupMembers, selectorOutbound, balancerOutbound]
  | false =>
    have added : outboundURLTestTag ∈ addedTags opt input := by simp [addedTags, hwarp, hv]
    have balance := roundRobin_added hwarp hv
    simp only [generatedOutbounds, groups, hw, hv, hwarp, Bool.false_eq_true, ite_true, ite_false,
      mem_cons, not_mem_nil, or_false] at hg
    rcases hg with rfl | rfl | rfl
    · grind [groupMembers, selectorOutbound, balancerOutbound]
    · exact visible ht
    · exact visible ht

/-- The members of the generated groups name outbounds of the result exactly when a single
visible tag does not give the text `§default§` as the default. -/
theorem result_members (hw : opt'.warp = opt.warp)
    (hdef : defaultSelect (visibleTags opt input) = .ok default) :
    (∀ g ∈ generatedOutbounds opt' (visibleTags opt input) default, ∀ t ∈ groupMembers g,
      t ∈ (resultOptions net opt opt' input default).tags) ↔
    ∀ t, visibleTags opt input = [t] → containsText t "§default§" = true → t = "§default§" := by
  simp only [result_tags_mem hw]
  by_cases hv : (visibleTags opt input).length > 1
  · refine iff_of_true (members_of_many hw hv) ?_
    intro t h
    simp [h] at hv
  · cases h : visibleTags opt input with
    | nil => simp [h, defaultSelect] at hdef
    | cons t rest =>
      have hrest : rest = [] := by
        have : rest.length = 0 := by
          rw [h, length_cons] at hv
          omega
        simpa using this
      subst hrest
      have own : t ∈ keptTags opt input ∨ t ∈ addedTags opt input :=
        Or.inl (visible_mem (by rw [h]; exact mem_singleton_self t))
      have hd : (if containsText t "§default§" then "§default§" else t) = default := by
        simpa [h, defaultSelect] using hdef
      have single : generatedOutbounds opt' [t] default = [selectorOutbound [t] default] := by
        simp [generatedOutbounds, groups]
      have members : (∀ g ∈ generatedOutbounds opt' [t] default, ∀ x ∈ groupMembers g,
          x ∈ keptTags opt input ∨ x ∈ addedTags opt input) ↔
          default ∈ keptTags opt input ∨ default ∈ addedTags opt input := by
        simp [single, groupMembers, selectorOutbound, own]
      have only : (∀ x, [t] = [x] → containsText x "§default§" = true → x = "§default§") ↔
          (containsText t "§default§" = true → t = "§default§") := by simp
      rw [members, only, ← hd]
      cases containsText t "§default§" with
      | false => simpa using own
      | true => simpa using defaultText_mem h

theorem generated_detours (tags : List String) :
    (generatedOutbounds opt tags default).flatMap detours = [] := by
  simp only [generatedOutbounds, groups]
  split
  · split <;> rfl
  · rfl

theorem addedEndpoints_detours (h : d ∈ (addedEndpoints net opt).flatMap Endpoint.detours) :
    d ∈ addedTags opt input := by
  have known {l : List String} (h : d ∈ l)
      (all : ∀ x ∈ l, x ∈ [outboundSelectTag, outboundDirectTag, outboundDirectFragmentTag]) :=
        all d h
  refine mem_append_left _ (mem_append_left _ ?_)
  unfold addedEndpoints at h
  split at h
  · simp only [warpEndpoint, generateWarpSingboxNew, flatMap_cons, flatMap_nil,
      append_nil] at h
    split at h
    · exact @known [outboundSelectTag, outboundDirectFragmentTag] h (by decide)
    · exact @known [outboundDirectTag, outboundDirectFragmentTag] h (by decide)
  · cases h

/-- A detour of the result comes from the profile or names something that was added. -/
theorem result_detours_kept (h : d ∈ (resultOptions net opt opt' input default).detours) :
    d ∈ keptDetours opt input ∨ d ∈ addedTags opt input := by
  simp only [Options.detours, resultOptions, flatMap_append, generated_detours,
    nil_append, mem_append] at h
  rcases h with (h | h) | h | h
  · simp only [mem_flatMap, mem_map] at h
    obtain ⟨_, ⟨o, ho, rfl⟩, hd⟩ := h
    rw [patched_detours] at hd
    have put (hd : d ∈ if overridden opt o then o.downloadDetours else o.detours) :
      d ∈ keptDetours opt input :=
      mem_append_left _ (mem_flatMap.mpr ⟨o, ho, hd⟩)
    cases hov : overridden opt o with
    | true =>
      have hwarp : opt.warp.enableWarp = true := by
        simp only [overridden, Bool.and_eq_true] at hov
        exact hov.1.1
      simp only [hov, ite_true] at hd put
      rcases mem_append.mp hd with hd | hd
      · right
        split at hd
        · rw [mem_singleton.mp hd]
          simp [addedTags, hwarp]
        · cases hd
      · exact Or.inl (put hd)
    | false =>
      simp only [hov, Bool.false_eq_true, ite_false] at hd put
      exact Or.inl (put hd)
  · cases h
  · exact Or.inr (addedEndpoints_detours h)
  · simp only [mem_flatMap, mem_map] at h
    obtain ⟨_, ⟨e, he, rfl⟩, hd⟩ := h
    rw [patchEndpoint_detours] at hd
    have put {l : List String} (hl : d ∈ l) (eq : l = match e.type, e.options with
        | .warp, .warp o => detourTag o.dialer.detour
        | _, _ => e.detours) : d ∈ keptDetours opt input :=
      mem_append_right _ (mem_flatMap.mpr ⟨e, he, eq ▸ hl⟩)
    split at hd
    · rename_i o ht ho
      rcases mem_append.mp hd with hd | hd
      · exact Or.inl (put hd (by rw [ht, ho]))
      · right
        rw [mem_singleton.mp hd]
        exact mem_append_left _ (mem_append_left _ (by decide))
    · grind

theorem keptDetours_result (h : d ∈ keptDetours opt input) :
    d ∈ (resultOptions net opt opt' input default).detours := by
  simp only [Options.detours, resultOptions, flatMap_append, mem_append]
  rcases mem_append.mp h with h | h
  · obtain ⟨o, ho, hd⟩ := mem_flatMap.mp h
    refine .inl (.inl (.inr (mem_flatMap.mpr ⟨_, mem_map.mpr ⟨o, ho, rfl⟩, ?_⟩)))
    rw [patched_detours]
    split at hd
    · rename_i hov
      rw [if_pos hov]
      exact mem_append_right _ hd
    · rename_i hov
      rw [if_neg hov]
      exact hd
  · grind [patchEndpoint_detours]

theorem result_detours (hw : opt'.warp = opt.warp) :
    (∀ d ∈ (resultOptions net opt opt' input default).detours,
      d ∈ (resultOptions net opt opt' input default).tags) ↔
    ∀ d ∈ keptDetours opt input, d ∈ keptTags opt input ++ addedTags opt input := by
  simp only [result_tags_mem hw, mem_append]
  constructor
  · exact fun h d hd => h d (keptDetours_result hd)
  · intro h d hd
    rcases result_detours_kept hd with hd | hd
    · exact h d hd
    · exact Or.inr hd

end

/-- What is asked of one call: an error, or a closed configuration, and no panic. -/
def MeetsClosed (input : Options) (opt : HiddifyOptions) : Prop :=
  match setOutbounds net input opt with
  | .ok (o, opt') => ∃ default, defaultSelect (visibleTags opt input) = .ok default ∧
      Closed (generatedOutbounds opt' (visibleTags opt input) default) o
  | .err _ => True
  | .panicked => False

/-- **When the generated configuration is closed.** For a profile with distinct tags whose
detours stay inside it, exactly the clean inputs give a closed result. -/
theorem setOutbounds_closed_iff (net : Net) (input : Options) (opt : HiddifyOptions)
    (wf : WellFormed input) : MeetsClosed net input opt ↔ Clean opt input := by
  obtain ⟨opt', hw, eq⟩ := setOutbounds_eq net input opt
  simp only [MeetsClosed, eq]
  cases hv : visibleTags opt input with
  | nil =>
    simp only [defaultSelect, Outcome.panicked_bind, false_iff]
    exact fun clean => clean.visible hv
  | cons t rest =>
    obtain ⟨default, hdef⟩ : ∃ default, defaultSelect (visibleTags opt input) = .ok default :=
      ⟨_, by rw [hv]; rfl⟩
    rw [← hv]
    simp only [hdef, Outcome.ok_bind, Outcome.pure_eq, Outcome.ok.injEq, exists_eq_left']
    constructor
    · rintro ⟨_, distinct, members, detours⟩
      exact ⟨by simp [hv], (result_tags_nodup hw wf.distinct).mp distinct,
        (result_members hw hdef).mp members, (result_detours hw).mp detours⟩
    · rintro ⟨_, balance, default, detours⟩
      refine ⟨?_, (result_tags_nodup hw wf.distinct).mpr balance,
        (result_members hw hdef).mpr default, (result_detours hw).mpr detours⟩
      simp only [resultOptions, append_assoc]
      exact prefix_append _ _

def exampleNet : Net := ⟨fun _ => false, fun _ => false, "162.159.192.1", "2606:4700::1", 2408⟩

def exampleOptions : HiddifyOptions :=
  ⟨⟨false, .other "", ""⟩, ⟨false, "10-100", "50-200"⟩, "", "http://cp.cloudflare.com/", [], 9000⟩

def chainedProfile : Options :=
  ⟨[⟨.vless, "a", .dialed {} none⟩, ⟨.vless, "b", .dialed { detour := "a" } none⟩], []⟩

theorem chainedProfile_closed :
    WellFormed chainedProfile ∧ MeetsClosed exampleNet chainedProfile exampleOptions :=
  have wf : WellFormed chainedProfile := ⟨by decide, by decide⟩
  ⟨wf, (setOutbounds_closed_iff exampleNet chainedProfile exampleOptions wf).mpr
    { visible := by decide
      balance := by decide
      default := by
        intro t h
        have two : (visibleTags exampleOptions chainedProfile).length = 2 := by decide
        simp [h] at two
      detours := by decide }⟩

/-- A profile of two proxies and the blocking outbound that one of them dials through. The
blocking outbound is dropped, the reference to it stays. -/
def blockedProfile : Options :=
  ⟨[⟨.vless, "a", .dialed {} none⟩, ⟨.vless, "b", .dialed { detour := "stop" } none⟩,
    ⟨.block, "stop", .plain⟩], []⟩

/-- The three ways out of the property: no visible outbound is left and the call panics; a
detour to a dropped outbound; a profile that uses the balancer's own tag. -/
theorem setOutbounds_not_closed :
    (WellFormed ⟨[⟨.direct, "direct", .dialed {} none⟩], []⟩ ∧
      setOutbounds exampleNet ⟨[⟨.direct, "direct", .dialed {} none⟩], []⟩ exampleOptions =
        .panicked) ∧
    (WellFormed blockedProfile ∧ ¬ MeetsClosed exampleNet blockedProfile exampleOptions) ∧
    (WellFormed ⟨[⟨.vless, "a", .dialed {} none⟩, ⟨.vless, "balance", .dialed {} none⟩], []⟩ ∧
      ¬ MeetsClosed exampleNet
        ⟨[⟨.vless, "a", .dialed {} none⟩, ⟨.vless, "balance", .dialed {} none⟩], []⟩
        exampleOptions) := by
  refine ⟨⟨⟨by decide, by decide⟩, by decide⟩, ⟨⟨by decide, by decide⟩, ?_⟩,
    ⟨⟨by decide, by decide⟩, ?_⟩⟩
  · rintro ⟨_, _, _, _, _, detours⟩
    exact absurd (detours "stop" (by decide)) (by decide)
  · rintro ⟨_, _, _, distinct, _, _⟩
    exact absurd distinct (by decide)

end AiboosterEngine.Config
