import AiboosterEngine.Config.Outbounds
import AiboosterEngine.GoSem.Map

/-!
# Endpoints of a parsed profile

`patchConfigOptions` of `v2/config/parser.go` patches every endpoint in a batch and takes
the results by tag.
-/

namespace AiboosterEngine.Config

open GoSem Singbox

/-- `patchWarp` with `final = false`, where it has no error. -/
def patchWarpParsed (base : Endpoint) : Endpoint :=
  match base.type, base.options with
  | .warp, .warp o =>
    { base with
      options :=
        .warp { o with server := "", serverPort := 0, profileDetour := outboundDirectFragmentTag } }
  | _, _ => base

/-- What `WaitAndGetResult` may return: under a tag, the result for an endpoint that has it. -/
structure Batched (endpoints : List Endpoint) (res : Map String Endpoint) : Prop where
  all : ∀ base ∈ endpoints, (res.get base.tag).isSome
  result : ∀ tag out, res.get tag = some out → ∃ base ∈ endpoints, base.tag = tag ∧
    out = patchWarpParsed base

def placeResults (res : Map String Endpoint) (endpoints : List Endpoint) : List (Option Endpoint) :=
  endpoints.map fun base => res.get base.tag

/-- The results of the first endpoint of each tag. -/
def firstResults (endpoints : List Endpoint) : Map String Endpoint :=
  ⟨fun tag => (endpoints.find? fun base => base.tag = tag).map patchWarpParsed⟩

theorem batched_first (endpoints : List Endpoint) : Batched endpoints (firstResults endpoints) := by
  constructor
  · intro base there
    simp only [firstResults, Option.isSome_map, List.find?_isSome]
    exact ⟨base, there, by simp⟩
  · intro tag out found
    obtain ⟨base, first, rfl⟩ := Option.map_eq_some_iff.mp found
    exact ⟨base, List.mem_of_find?_eq_some first, by simpa using List.find?_some first, rfl⟩

theorem batched_set {endpoints : List Endpoint} {a : Endpoint} (member : a ∈ endpoints) :
    Batched endpoints ((firstResults endpoints).set a.tag (patchWarpParsed a)) := by
  obtain ⟨all, result⟩ := batched_first endpoints
  constructor
  · intro base there
    rw [Map.get_set]
    split
    · rfl
    · exact all base there
  · intro tag out found
    rw [Map.get_set] at found
    split at found
    · next same => exact ⟨a, member, same.symm, (Option.some.inj found).symm⟩
    · exact result tag out found

/-- Whatever the batch returns, every endpoint is patched in its place exactly if endpoints of one
tag are patched alike. -/
theorem placeResults_in_place_iff (endpoints : List Endpoint) :
    (∀ res, Batched endpoints res → placeResults res endpoints =
      endpoints.map (some ∘ patchWarpParsed)) ↔
      ∀ a ∈ endpoints, ∀ b ∈ endpoints, a.tag = b.tag → patchWarpParsed a = patchWarpParsed b := by
  simp only [placeResults, List.map_inj_left, Function.comp]
  constructor
  · intro placed a member b there same
    have kept := placed _ (batched_set member) b there
    rw [Map.get_set, if_pos same.symm] at kept
    exact Option.some.inj kept
  · intro alike res batched base there
    obtain ⟨out, found⟩ := Option.isSome_iff_exists.mp (batched.all base there)
    obtain ⟨other, member, same, rfl⟩ := batched.result base.tag out found
    rw [found, alike other member base there same]

/-- Two WARP endpoints without a tag. -/
def untagged : List Endpoint :=
  [⟨.warp, "", .warp { uniqueIdentifier := "p1" }⟩, ⟨.warp, "", .warp { uniqueIdentifier := "p2" }⟩]

/-- The second one takes the place of the first. -/
theorem untagged_replaced :
    ∃ res, Batched untagged res ∧ placeResults res untagged = List.replicate 2
      (some ⟨.warp, "",
        .warp { uniqueIdentifier := "p2", profileDetour := outboundDirectFragmentTag }⟩) :=
  ⟨_, batched_set (List.mem_cons_of_mem _ List.mem_cons_self), rfl⟩

end AiboosterEngine.Config
