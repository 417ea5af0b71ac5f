import AiboosterEngine.Balancer.ConsistentHashing

/-!
# Sticky sessions

`protocol/group/balancer/sticky_session.go`. The cache keeps, by the hash of source and
destination, an index into the outbounds. The hash does not tell TCP from UDP,
and the lists of the two may differ. Expiry and eviction are left out.
-/

namespace AiboosterEngine.Balancer

open GoSem List Net

structure StickySession where
  outbounds : Net → List Outbound
  maxRetry : Int
  table : Delays := {}
  delayAcceptableRatio : ℚ
  lruCache : Map UInt64 Nat := Map.empty

open StickySession

def newStickySession (outbounds : List Outbound) (maxRetry : Int) (ratio : ℚ) : StickySession where
  outbounds := convertOutbounds outbounds
  maxRetry := maxRetry
  delayAcceptableRatio := ratio

namespace StickySession

variable (s : StickySession)

def updateOutboundsInfo (history : History) : StickySession :=
  { s with table := Delays.update s.outbounds s.delayAcceptableRatio history }

def alive (s : StickySession) (proxy : Outbound) (net : Net) : Bool := s.table.alive proxy net

/-- `s.lruCache.Add(key, idx)`. -/
def add (key : UInt64) (idx : Nat) : StickySession :=
  { s with lruCache := s.lruCache.set key idx }

/-- The loop of `Select` with `left` attempts left, and what follows it. `pick` is the index that
`jumpHash` gives at the time of the call. -/
def attempts (s : StickySession) (key : UInt64) (net : Net) (has : Bool) (idx : Nat)
    (pick : Nat → Nat) :
    (left : Nat) → (nowIdx : Nat) → Outcome Unit (StickySession × Outbound)
  | 0, nowIdx => do
    let proxy ← indexAt (s.outbounds net) nowIdx
    return (s.add key nowIdx, proxy)
  | left + 1, nowIdx => do
    let proxy ← indexAt (s.outbounds net) nowIdx
    if s.alive proxy net then return (if !has || nowIdx != idx then s.add key nowIdx else s, proxy)
    else attempts s key net has idx pick left (pick left)

/-- The index `Select` begins with; `first` is that of a key that has none in range. -/
def begins (key : UInt64) (net : Net) (first : Nat) : Nat :=
  match s.lruCache.get key with
  | some idx => if (s.outbounds net).length ≤ idx then first else idx
  | none => first

/-- `Select` for the hash of a key. -/
def selectOn (key : UInt64) (net : Net) (first : Nat) (pick : Nat → Nat) :
    Outcome Unit (StickySession × Outbound) :=
  let idx := s.begins key net first
  s.attempts key net (s.lruCache.get key).isSome idx pick (s.maxRetry - 1).toNat idx

/-- What `Select` depends on besides the balancer. -/
structure Env where
  scaling : Scaling
  names : Names
  hash : String → UInt64

def Env.key (env : Env) (metadata : InboundContext) : UInt64 :=
  env.hash (getKeyWithSrcAndDst env.names metadata)

/-- `jumpHash(key+uint64(time.Now().UnixNano()), int32(length))`. -/
def Env.jump (env : Env) (s : StickySession) (key : UInt64) (net : Net) (now : UInt64) : Nat :=
  jumpHash env.scaling (key + now) (buckets (s.outbounds net))

/-- The readings of the clock in one `Select`: before the loop, and by the attempts left in it. -/
structure Clock where
  start : UInt64
  retry : Nat → UInt64

/-- The arguments of a `Select`, and the clock while it runs. -/
structure Call where
  metadata : InboundContext
  net : String
  clock : Clock

def select (env : Env) (s : StickySession) (call : Call) :
    Outcome Unit (StickySession × Outbound) :=
  let key := env.key call.metadata
  let net := ofName call.net
  s.selectOn key net (env.jump s key net call.clock.start) fun left =>
    env.jump s key net (call.clock.retry left)

/-- `Select`s one after another. -/
def run (env : Env) : StickySession → List Call → Outcome Unit StickySession
  | s, [] => .ok s
  | s, call :: calls => do
    let selected ← s.select env call
    run env selected.1 calls

def aliveAt (net : Net) (idx : Nat) : Prop :=
  ∃ proxy, (s.outbounds net)[idx]? = some proxy ∧ s.alive proxy net = true

section
variable {s s' : StickySession} {key : UInt64} {net : Net} {first idx nowIdx left : Nat}
  {pick : Nat → Nat} {proxy : Outbound} {has : Bool}

theorem attempts_alive (there : (s.outbounds net)[nowIdx]? = some proxy)
    (alive : s.alive proxy net = true) :
    s.attempts key net has idx pick (left + 1) nowIdx =
      .ok (if !has || nowIdx != idx then s.add key nowIdx else s, proxy) := by
  rw [attempts, indexAt_ok.mpr there, Outcome.ok_bind, if_pos alive]
  rfl

/-- Attempts from another index than the first, or from one that is not alive, store the index
they end with. -/
theorem attempts_stores (inside : ∀ left, pick left < (s.outbounds net).length)
    (below : nowIdx < (s.outbounds net).length) (dead : ¬ s.aliveAt net idx) :
    ∃ last proxy, last < (s.outbounds net).length ∧ (s.outbounds net)[last]? = some proxy ∧
      s.attempts key net has idx pick left nowIdx = .ok (s.add key last, proxy) := by
  have there := getElem?_eq_getElem below
  induction left generalizing nowIdx with
  | zero =>
    refine ⟨nowIdx, _, below, there, ?_⟩
    rw [attempts, indexAt_ok.mpr there]
    rfl
  | succ left ih =>
    cases alive : s.alive _ net with
    | true =>
      have other : nowIdx ≠ idx := by
        rintro rfl
        exact dead ⟨_, there, alive⟩
      refine ⟨nowIdx, _, below, there, ?_⟩
      rw [attempts_alive there alive]
      simp [other]
    | false =>
      have rest := ih (inside left) (getElem?_eq_getElem (inside left))
      rw [attempts, indexAt_ok.mpr there, Outcome.ok_bind, alive]
      exact rest

end

def InRange (key : UInt64) (net : Net) : Prop :=
  ∀ idx, s.lruCache.get key = some idx → idx < (s.outbounds net).length

/-- An index is stored for the key, and it is that of an alive outbound of the network. -/
structure Settled (s : StickySession) (key : UInt64) (net : Net) (proxy : Outbound)
    (idx : Nat) : Prop where
  stored : s.lruCache.get key = some idx
  there : (s.outbounds net)[idx]? = some proxy
  alive : s.alive proxy net = true

/-- No list is longer than that of the network. -/
def Longest (net : Net) : Prop :=
  ∀ other, (s.outbounds other).length ≤ (s.outbounds net).length

/-- Where the network has an alive outbound, the other one has one at the same index. -/
def Agrees (net : Net) : Prop := ∀ other idx, s.aliveAt net idx → s.aliveAt other idx

/-- The call is for another key, or for the network, or the condition is met. -/
def Harmless (env : Env) (key : UInt64) (net : Net) (condition : Prop) (call : Call) : Prop :=
  env.key call.metadata = key → ofName call.net = net ∨ condition

section
variable {env : Env} {s s' : StickySession} {key : UInt64} {net : Net}
  {proxy : Outbound} {idx : Nat}

/-- A balancer that can select: it has outbounds and tries at least once. -/
structure Usable (s : StickySession) : Prop where
  nonempty : ∀ net, s.outbounds net ≠ []
  retry : 2 ≤ s.maxRetry

theorem Usable.jump_lt (usable : s.Usable) (key : UInt64) (net : Net) (now : UInt64) :
    env.jump s key net now < (s.outbounds net).length :=
  jumpHash_inside env.scaling _ (usable.nonempty net)

theorem Usable.add (usable : s.Usable) (key : UInt64) (idx : Nat) : (s.add key idx).Usable :=
  ⟨usable.nonempty, usable.retry⟩

variable {call : Call} {calls : List Call}

/-- One `Select`, for the key and the network of a call: if the outbound it begins with is alive,
that is the one, and its index is stored only if the key had none; else some index is stored. -/
theorem Usable.select_cases (usable : s.Usable) (ofKey : env.key call.metadata = key)
    (ofNet : ofName call.net = net) :
    ∃ idx, idx = s.begins key net (env.jump s key net call.clock.start) ∧
      ((∃ proxy, (s.outbounds net)[idx]? = some proxy ∧ s.alive proxy net = true ∧
        s.select env call = .ok (if (s.lruCache.get key).isSome then s else s.add key idx, proxy)) ∨
      (¬ s.aliveAt net idx ∧ ∃ last proxy, last < (s.outbounds net).length ∧
        (s.outbounds net)[last]? = some proxy ∧
        s.select env call = .ok (s.add key last, proxy))) := by
  have retry := usable.retry
  obtain ⟨left, attempted⟩ : ∃ left, (s.maxRetry - 1).toNat = left + 1 :=
    ⟨(s.maxRetry - 2).toNat, by omega⟩
  have firstInside := @Usable.jump_lt env s usable key net call.clock.start
  generalize begun : s.begins key net (env.jump s key net call.clock.start) = idx
  refine ⟨idx, rfl, ?_⟩
  rw [select, ofKey, ofNet, selectOn, attempted, begun]
  by_cases alive : s.aliveAt net idx
  · obtain ⟨proxy, there, alive⟩ := alive
    refine .inl ⟨proxy, there, alive, ?_⟩
    rw [attempts_alive there alive]
    cases (s.lruCache.get key).isSome <;> simp
  · refine .inr ⟨alive, ?_⟩
    apply attempts_stores (fun _ => usable.jump_lt _ _ _) _ alive
    rw [← begun, begins]
    split
    · split
      · exact firstInside
      · omega
    · exact firstInside

theorem Usable.select_stores (usable : s.Usable) (eq : s.select env call = .ok (s', proxy)) :
    s' = s ∨ ∃ last < (s.outbounds (ofName call.net)).length,
      s' = s.add (env.key call.metadata) last := by
  obtain ⟨idx, _, ⟨proxy', there, _, eq'⟩ | ⟨_, last, proxy', below, _, eq'⟩⟩ :=
    usable.select_cases (Eq.refl (env.key call.metadata)) rfl
  · grind
  · rw [eq] at eq'
    cases eq'
    exact .inr ⟨last, below, rfl⟩

theorem begins_inRange (stored : s.lruCache.get key = some idx)
    (below : idx < (s.outbounds net).length) (first : Nat) : s.begins key net first = idx := by
  rw [begins, stored]
  exact if_neg (by omega)

theorem InRange.select (inRange : s.InRange key net) (usable : s.Usable)
    (harmless : Harmless env key net (s.Longest net) call)
    (eq : s.select env call = .ok (s', proxy)) : s'.InRange key net := by
  obtain rfl | ⟨last, below, rfl⟩ := usable.select_stores eq
  · exact inRange
  · intro idx stored
    by_cases mine : key = env.key call.metadata
    · have same : idx = last := by simpa [add, mine] using stored.symm
      rw [same]
      obtain ofNet | longest := harmless mine.symm
      · rw [ofNet] at below
        exact below
      · exact Nat.lt_of_lt_of_le below (longest _)
    · exact inRange idx (by simpa [add, mine] using stored)

/-- The first `Select` that returns an alive outbound leaves its index stored. -/
theorem InRange.settled (inRange : s.InRange key net) (usable : s.Usable)
    (ofKey : env.key call.metadata = key) (ofNet : ofName call.net = net)
    (eq : s.select env call = .ok (s', proxy)) (alive : s.alive proxy net = true) :
    ∃ idx, s'.Settled key net proxy idx := by
  obtain ⟨idx, begun, ⟨proxy', there, _, eq'⟩ | ⟨_, last, proxy', _, there, eq'⟩⟩ :=
    usable.select_cases ofKey ofNet
  · rw [eq] at eq'
    cases eq'
    refine ⟨idx, ?_⟩
    cases stored : s.lruCache.get key with
    | some old =>
      rw [begins_inRange stored (inRange old stored)] at begun
      rw [begun] at there ⊢
      exact ⟨stored, there, alive⟩
    | none => exact ⟨by simp [add], there, alive⟩
  · rw [eq] at eq'
    cases eq'
    exact ⟨last, by simp [add], there, alive⟩

/-- A harmless call that finds the index of an alive outbound leaves it. -/
theorem Settled.select (settled : s.Settled key net proxy idx) (usable : s.Usable) {out : Outbound}
    (harmless : Harmless env key net (s.Agrees net) call)
    (eq : s.select env call = .ok (s', out)) : s'.Settled key net proxy idx := by
  by_cases mine : env.key call.metadata = key
  · have alive : s.aliveAt (ofName call.net) idx := by
      obtain ofNet | agrees := harmless mine
      · rw [ofNet]
        exact ⟨proxy, settled.there, settled.alive⟩
      · exact agrees _ idx ⟨proxy, settled.there, settled.alive⟩
    have below : idx < (s.outbounds (ofName call.net)).length := by
      obtain ⟨_, there, _⟩ := alive
      exact (List.getElem?_eq_some_iff.mp there).1
    obtain ⟨begun, same, ⟨_, _, _, eq'⟩ | ⟨dead, _⟩⟩ := usable.select_cases mine rfl
    · rw [eq, settled.stored] at eq'
      cases eq'
      exact settled
    · rw [same, begins_inRange settled.stored below] at dead
      exact absurd alive dead
  · obtain rfl | ⟨last, _, rfl⟩ := usable.select_stores eq
    · exact settled
    · refine ⟨?_, settled.there, settled.alive⟩
      simpa [add, Ne.symm mine] using settled.stored

theorem Settled.returns (settled : s.Settled key net proxy idx) (usable : s.Usable)
    (ofKey : env.key call.metadata = key) (ofNet : ofName call.net = net) :
    ∃ s', s.select env call = .ok (s', proxy) := by
  have below := (List.getElem?_eq_some_iff.mp settled.there).1
  obtain ⟨begun, same, ⟨out, there, _, eq⟩ | ⟨dead, _⟩⟩ := usable.select_cases ofKey ofNet
  · rw [same, begins_inRange settled.stored below, settled.there] at there
    cases there
    exact ⟨_, eq⟩
  · rw [same, begins_inRange settled.stored below] at dead
    exact absurd ⟨proxy, settled.there, settled.alive⟩ dead

theorem run_cons {s'' : StickySession} (h : s.run env (call :: calls) = .ok s'') :
    ∃ s' proxy, s.select env call = .ok (s', proxy) ∧ s'.run env calls = .ok s'' := by
  rw [run] at h
  cases selected : s.select env call with
  | ok pair =>
    rw [selected] at h
    exact ⟨pair.1, pair.2, rfl, h⟩
  | err e | panicked => rw [selected] at h; cases h

/-- What the `Select`s of a run keep: a balancer that is usable stays so, the outbounds and their
delays stay, and `Inv` stays if every call keeps it. -/
theorem Usable.run (usable : s.Usable) (Inv : StickySession → Prop) (start : Inv s)
    (keep : ∀ t t' call proxy, call ∈ calls → t.Usable → t.outbounds = s.outbounds →
      t.table = s.table → Inv t → t.select env call = .ok (t', proxy) → Inv t')
    (h : s.run env calls = .ok s') :
    s'.Usable ∧ s'.outbounds = s.outbounds ∧ s'.table = s.table ∧ Inv s' := by
  induction calls generalizing s with
  | nil =>
    cases h
    exact ⟨usable, rfl, rfl, start⟩
  | cons call calls ih =>
    obtain ⟨t, proxy, eq, rest⟩ := run_cons h
    have kept := keep s t call proxy mem_cons_self usable rfl rfl start eq
    obtain rfl | ⟨last, _, rfl⟩ := usable.select_stores eq
    · exact ih usable kept (fun t t' c _ mem => keep t t' c _ (.tail _ mem)) rest
    · have ran := ih (usable.add _ last) kept (fun t t' c _ mem => keep t t' c _ (.tail _ mem)) rest
      exact ran

theorem nonempty_of_select (eq : s.select env call = .ok (s', proxy)) :
    s.outbounds (ofName call.net) ≠ [] := by
  intro none
  have panics (has : Bool) (i : Nat) (pick : Nat → Nat) (left nowIdx : Nat) :
      s.attempts (env.key call.metadata) (ofName call.net) has i pick left nowIdx = .panicked := by
    cases left <;> rw [attempts, none] <;> rfl
  rw [select, selectOn, panics] at eq
  cases eq

variable {outbounds : List Outbound}

theorem usable_of_select (made : s.outbounds = convertOutbounds outbounds)
    (retry : 2 ≤ s.maxRetry) {s₁ : StickySession} (ran : s.run env calls = .ok s₁)
    (eq : s₁.select env call = .ok (s', proxy)) : s.Usable := by
  have some : ∃ name, s.outbounds name ≠ [] := by
    cases calls with
    | nil =>
      cases ran
      exact ⟨_, nonempty_of_select eq⟩
    | cons call calls =>
      obtain ⟨_, _, first, _⟩ := run_cons ran
      exact ⟨_, nonempty_of_select first⟩
  refine ⟨fun net => ?_, retry⟩
  obtain ⟨name, there⟩ := some
  rw [made] at there ⊢
  apply filterOutbounds_ne_nil
  rintro rfl
  exact there rfl

theorem convertOutbounds_both
    (both : ∀ out ∈ outbounds, ∀ net : Net, out.network.contains net.name = true) (net : Net) :
    convertOutbounds outbounds net = outbounds := by
  have all : outbounds.filter (fun out => out.network.contains net.name) = outbounds :=
    filter_eq_self.mpr fun out member => both out member net
  simp only [convertOutbounds, filterOutbounds, all]
  split <;> rfl

/-- Where every member is for both networks, these agree after every update. -/
theorem agrees_of_both (outbounds : List Outbound) (maxRetry : Int) (ratio : ℚ) (history : History)
    (both : ∀ out ∈ outbounds, ∀ net : Net, out.network.contains net.name = true) :
    let s := (newStickySession outbounds maxRetry ratio).updateOutboundsInfo history
    s.Longest net ∧ s.Agrees net := by
  have same := convertOutbounds_both both
  constructor
  · intro other
    simp [updateOutboundsInfo, newStickySession, same]
  · intro other idx
    simp [aliveAt, alive, Delays.alive, updateOutboundsInfo, newStickySession, Delays.update,
      getMinDelay, same]

/-- If before no other list is longer, and in between the other network has an alive outbound
wherever this one has, or if the key is used for this network only, the next `Select` returns the
same outbound. -/
theorem select_sticks {outbounds : List Outbound} (made : s.outbounds = convertOutbounds outbounds)
    (retry : 2 ≤ s.maxRetry) (fresh : s.InRange key net) {before between : List Call}
    (early : ∀ call ∈ before, Harmless env key net (s.Longest net) call)
    (late : ∀ call ∈ between, Harmless env key net (s.Agrees net) call) {first again : Call}
    (keys : env.key first.metadata = key ∧ env.key again.metadata = key)
    (nets : ofName first.net = net ∧ ofName again.net = net) {s₁ s₂ s₃ : StickySession}
    (ranBefore : s.run env before = .ok s₁) (selected : s₁.select env first = .ok (s₂, proxy))
    (alive : s₁.alive proxy net = true) (ranBetween : s₂.run env between = .ok s₃) :
    ∃ s₄, s₃.select env again = .ok (s₄, proxy) := by
  have usable := usable_of_select made retry ranBefore selected
  obtain ⟨usable₁, outs₁, table₁, inRange⟩ := usable.run (·.InRange key net) fresh
    (fun t _ call _ mem usable outs _ inRange eq =>
      inRange.select usable (by simpa only [Longest, outs] using early call mem) eq) ranBefore
  obtain ⟨idx, settled⟩ := inRange.settled usable₁ keys.1 nets.1 selected alive
  have ⟨usable₂, outs₂, table₂⟩ : s₂.Usable ∧ s₂.outbounds = s.outbounds ∧ s₂.table = s.table := by
    obtain rfl | ⟨last, _, rfl⟩ := usable₁.select_stores selected
    · exact ⟨usable₁, outs₁, table₁⟩
    · exact ⟨usable₁.add _ _, outs₁, table₁⟩
  obtain ⟨usable₃, _, _, settled₃⟩ := usable₂.run (·.Settled key net proxy idx) settled
    (fun t _ call _ mem usable outs table settled eq => settled.select usable
      (by simpa only [Agrees, aliveAt, StickySession.alive, outs, outs₂, table, table₂]
        using late call mem) eq) ranBetween
  exact settled₃.returns usable₃ keys.2 nets.2

end

/-- Every connection has the hash 0. -/
def oneKey : Env where
  scaling := .exact
  names := ⟨fun _ => false, fun _ => false, fun _ => none, fun _ => ""⟩
  hash _ := 0

/-- A `Select` at a time, the clock standing still. -/
def callAt (net : String) (now : UInt64) : Call :=
  ⟨⟨.zero, "", .zero, "", []⟩, net, ⟨now, fun _ => now⟩⟩

def twoMembers : StickySession :=
  (newStickySession [⟨"a", ["tcp", "udp"]⟩, ⟨"b", ["tcp", "udp"]⟩] 2 1).updateOutboundsInfo
    ((Map.empty.set "a" (some ⟨50, false⟩)).set "b" (some ⟨50, false⟩))

theorem select_sticks_both :
    twoMembers.Agrees .udp ∧
      twoMembers.select oneKey (callAt "udp" 4) = .ok (twoMembers.add 0 1, ⟨"b", ["tcp", "udp"]⟩) ∧
      ∃ s₄, (twoMembers.add 0 1).select oneKey (callAt "udp" 1) =
        .ok (s₄, ⟨"b", ["tcp", "udp"]⟩) := by
  have ⟨_, agrees⟩ : twoMembers.Longest .udp ∧ twoMembers.Agrees .udp := by
    apply agrees_of_both
    intro out member net
    cases net <;> revert out <;> decide
  have selected : twoMembers.select oneKey (callAt "udp" 4) =
      .ok (twoMembers.add 0 1, ⟨"b", ["tcp", "udp"]⟩) := by with_unfolding_all rfl
  refine ⟨agrees, selected, ?_⟩
  have keys : oneKey.key (callAt "udp" 4).metadata = 0 ∧ oneKey.key (callAt "udp" 1).metadata = 0 :=
    ⟨rfl, rfl⟩
  have nets : ofName (callAt "udp" 4).net = .udp ∧ ofName (callAt "udp" 1).net = .udp :=
    ⟨rfl, rfl⟩
  have before : twoMembers.run oneKey [] = .ok twoMembers := rfl
  have between : (twoMembers.add 0 1).run oneKey [callAt "tcp" 1] = .ok (twoMembers.add 0 1) := by
    with_unfolding_all rfl
  exact select_sticks rfl (by decide) (fun _ stored => by cases stored) (forall_mem_nil _)
    (fun _ _ _ => .inr agrees) keys nets before selected (by decide +kernel) between

def threeMembers : StickySession :=
  (newStickySession
    [⟨"a", ["tcp", "udp"]⟩, ⟨"b", ["tcp", "udp"]⟩, ⟨"c", ["tcp"]⟩] 2 1).updateOutboundsInfo
    (((Map.empty.set "a" (some ⟨50, false⟩)).set "b" (some ⟨50, false⟩)).set "c" (some ⟨50, false⟩))

/-- The index stored for TCP is out of the list of UDP, and what `Select` picks for UDP is not
stored: two `Select`s in a row return different outbounds, both alive. -/
theorem select_moves :
    threeMembers.run oneKey [callAt "tcp" 3] = .ok (threeMembers.add 0 2) ∧
      (threeMembers.add 0 2).select oneKey (callAt "udp" 7) =
        .ok (threeMembers.add 0 2, ⟨"a", ["tcp", "udp"]⟩) ∧
      threeMembers.alive ⟨"a", ["tcp", "udp"]⟩ .udp = true ∧
      (threeMembers.add 0 2).select oneKey (callAt "udp" 10) =
        .ok (threeMembers.add 0 2, ⟨"b", ["tcp", "udp"]⟩) :=
  ⟨by with_unfolding_all rfl, by with_unfolding_all rfl, by decide +kernel,
    by with_unfolding_all rfl⟩

end StickySession

end AiboosterEngine.Balancer
