import AiboosterEngine.Balancer.Common
import Mathlib.Data.List.Rotate

/-!
# Round robin

`protocol/group/balancer/roundrobin.go`. An index goes round in the acceptable
part of the sorted outbounds of each network, and stays where it is when an
update sorts them again.
-/

namespace AiboosterEngine.Balancer

open GoSem List Net

structure RoundRobin where
  outbounds : Net → List Outbound
  sortedOutbounds : Net → List Outbound
  maxAcceptableIndex : Net → Int
  idx : Net → Int
  delayAcceptableRatio : ℚ

def newRoundRobin (outbounds : List Outbound) (ratio : ℚ) : RoundRobin where
  outbounds := convertOutbounds outbounds
  sortedOutbounds := convertOutbounds outbounds
  maxAcceptableIndex net := (convertOutbounds outbounds net).length - 1
  idx _ := 0
  delayAcceptableRatio := ratio

namespace RoundRobin

variable (s : RoundRobin)

def updateOutboundsInfo (history : History) : Outcome Unit (RoundRobin × Bool) := do
  let sortedOutbounds := sortOutboundsByDelay s.outbounds history
  let acceptableIndex ← getAcceptableIndex sortedOutbounds history s.delayAcceptableRatio
  let changed := acceptableIndex .tcp != s.maxAcceptableIndex .tcp ||
    acceptableIndex .udp != s.maxAcceptableIndex .udp
  return ({ s with sortedOutbounds := sortedOutbounds, maxAcceptableIndex := acceptableIndex },
    changed)

variable (net : Net)

/-- `s.idx[net] = id`. -/
def touchIdx (id : Int) : RoundRobin :=
  { s with idx := fun n => if n = net then id else s.idx n }

/-- `Select` on one of the two networks; the outbound is nil when there is none. -/
def selectOn (touch : Bool) : Outcome Unit (RoundRobin × Option Outbound) :=
  let length := s.maxAcceptableIndex net + 1
  if length = 0 then .ok (s, none)
  else do
    let id := (s.idx net + 1).tmod length
    let proxy ← indexAt (s.sortedOutbounds net) id
    return (if touch then s.touchIdx net id else s, some proxy)

def select (net : String) (touch : Bool) : Outcome Unit (RoundRobin × Option Outbound) :=
  s.selectOn (ofName net) touch

inductive Op where
  | update (history : History)
  | select (net : String) (touch : Bool)

/-- A `Select` of a run and what it returned. -/
structure Selected where
  net : Net
  touch : Bool
  proxy : Option Outbound

def run : RoundRobin → List Op → Outcome Unit (RoundRobin × List Selected)
  | s, [] => .ok (s, [])
  | s, .update history :: ops => do
    let updated ← s.updateOutboundsInfo history
    run updated.1 ops
  | s, .select net touch :: ops => do
    let selected ← s.select net touch
    let rest ← run selected.1 ops
    return (rest.1, ⟨ofName net, touch, selected.2⟩ :: rest.2)

/-- The outbounds up to `maxAcceptableIndex`. -/
def acceptable : List Outbound :=
  (s.sortedOutbounds net).take (s.maxAcceptableIndex net + 1).toNat

def turns (log : List Selected) : List (Option Outbound) :=
  (log.filter fun entry => entry.touch && entry.net == net).map (·.proxy)

/-- The acceptable outbounds are a part of the sorted ones that is not empty, and the index is
not negative. It may be out of the acceptable part: `Select` takes it modulo its length. -/
structure Valid (outbounds : List Outbound) (s : RoundRobin) : Prop where
  outbounds_eq : s.outbounds = convertOutbounds outbounds
  sorted : ∀ net, (s.sortedOutbounds net).Perm (convertOutbounds outbounds net)
  nonneg : ∀ net, 0 ≤ s.maxAcceptableIndex net
  inside : ∀ net, s.maxAcceptableIndex net < (s.sortedOutbounds net).length
  idx : ∀ net, 0 ≤ s.idx net

section
variable {outbounds : List Outbound} {s s' : RoundRobin} {net : Net}

theorem newRoundRobin_valid (nonempty : outbounds ≠ []) (ratio : ℚ) :
    Valid outbounds (newRoundRobin outbounds ratio) where
  outbounds_eq := rfl
  sorted _ := List.Perm.refl _
  nonneg net := by
    have some := length_pos_iff.mpr (filterOutbounds_ne_nil nonempty net.name)
    simp only [newRoundRobin, convertOutbounds]
    omega
  inside net := by
    simp only [newRoundRobin]
    omega
  idx _ := Int.le_refl _

theorem Valid.acceptable_subset (valid : Valid outbounds s) {out : Outbound}
    (h : out ∈ s.acceptable net) : out ∈ convertOutbounds outbounds net :=
  (valid.sorted net).mem_iff.mp (mem_of_mem_take h)

theorem Valid.acceptable_length (valid : Valid outbounds s) (net : Net) :
    ((s.acceptable net).length : Int) = s.maxAcceptableIndex net + 1 := by
  have nonneg := valid.nonneg net
  have inside := valid.inside net
  rw [acceptable, length_take]
  omega

theorem acceptableIndex_inside {outs : List Outbound} (nonempty : outs ≠ []) (history : History)
    (ratio : ℚ) : ∃ last, acceptableIndex outs history ratio = .ok last ∧ last < outs.length := by
  cases outs with
  | nil => exact absurd rfl nonempty
  | cons first outs => exact ⟨_, rfl, maxAvailableIndex_inside nonempty⟩

theorem getAcceptableIndex_inside {sorted : Net → List Outbound} (nonempty : ∀ net, sorted net ≠ [])
    (history : History) (ratio : ℚ) :
    ∃ index, getAcceptableIndex sorted history ratio = .ok index ∧
      ∀ net, ∃ last : Nat, index net = last ∧
        acceptableIndex (sorted net) history ratio = .ok last ∧
        last < (sorted net).length := by
  obtain ⟨tcp, eqTcp, insideTcp⟩ := acceptableIndex_inside (nonempty .tcp) history ratio
  obtain ⟨udp, eqUdp, insideUdp⟩ := acceptableIndex_inside (nonempty .udp) history ratio
  refine ⟨_, by rw [getAcceptableIndex, eqTcp, eqUdp]; rfl, ?_⟩
  intro net
  cases net with
  | tcp => exact ⟨tcp, rfl, eqTcp, insideTcp⟩
  | udp => exact ⟨udp, rfl, eqUdp, insideUdp⟩

/-- An update sorts the lists again, and takes the last acceptable index of each. -/
theorem updateOutboundsInfo_ok (made : s.outbounds = convertOutbounds outbounds)
    (nonempty : outbounds ≠ []) (history : History) :
    ∃ s' changed, s.updateOutboundsInfo history = .ok (s', changed) ∧
      s'.outbounds = s.outbounds ∧ s'.idx = s.idx ∧
      s'.sortedOutbounds = sortOutboundsByDelay (convertOutbounds outbounds) history ∧
      ∀ net, ∃ last : Nat, s'.maxAcceptableIndex net = last ∧
        acceptableIndex (s'.sortedOutbounds net) history s.delayAcceptableRatio = .ok last ∧
        last < (s'.sortedOutbounds net).length := by
  have some : ∀ net, sortOutboundsByDelay (convertOutbounds outbounds) history net ≠ [] := by
    intro net none
    have empty := sortOutboundsByDelay_perm (convertOutbounds outbounds) history net
    rw [none] at empty
    exact filterOutbounds_ne_nil nonempty net.name empty.nil_eq.symm
  obtain ⟨index, eq, inside⟩ := getAcceptableIndex_inside some history s.delayAcceptableRatio
  refine ⟨_, _, by rw [RoundRobin.updateOutboundsInfo, made, eq]; rfl, ?_⟩
  exact ⟨made.symm, rfl, rfl, inside⟩

theorem Valid.updateOutboundsInfo (valid : Valid outbounds s) (nonempty : outbounds ≠ [])
    (history : History) :
    ∃ s' changed, s.updateOutboundsInfo history = .ok (s', changed) ∧ Valid outbounds s' := by
  obtain ⟨s', changed, eq, same, idx, sorted, last⟩ :=
    updateOutboundsInfo_ok valid.outbounds_eq nonempty history
  refine ⟨s', changed, eq, ?_⟩
  constructor
  · rw [same, valid.outbounds_eq]
  · intro net
    rw [sorted]
    exact sortOutboundsByDelay_perm _ history net
  · intro net
    obtain ⟨last, eq, _⟩ := last net
    omega
  · intro net
    obtain ⟨last, eq, _, below⟩ := last net
    omega
  · rw [idx]
    exact valid.idx

theorem sorted_of_acceptable {i : Nat} {out : Outbound} (h : (s.acceptable net)[i]? = some out) :
    indexAt (s.sortedOutbounds net) i = .ok out := by
  rw [acceptable, getElem?_take] at h
  split at h
  · exact indexAt_ok.mpr h
  · cases h

theorem run_select {name : String} {touch : Bool} {ops : List Op} {s'' : RoundRobin}
    {proxy : Option Outbound} {log : List Selected} (first : s.select name touch = .ok (s', proxy))
    (rest : s'.run ops = .ok (s'', log)) :
    s.run (.select name touch :: ops) = .ok (s'', ⟨ofName name, touch, proxy⟩ :: log) := by
  rw [run, first, Outcome.ok_bind, rest]
  rfl

/-- The index after this one in the acceptable part, which goes round. -/
def next (s : RoundRobin) (net : Net) : Nat := ((s.idx net).toNat + 1) % (s.acceptable net).length

section
variable (valid : Valid outbounds s)
include valid

theorem Valid.next_eq : (s.idx net + 1).tmod (s.maxAcceptableIndex net + 1) = s.next net := by
  have idx := valid.idx net
  rw [next, Int.tmod_eq_emod_of_nonneg (by omega), Int.natCast_emod, valid.acceptable_length]
  congr 1
  omega

/-- One `Select` returns the outbound at the next index and moves there if it touches. -/
theorem Valid.selectOn (net : Net) (touch : Bool) :
    ∃ proxy ∈ s.acceptable net, (s.acceptable net)[s.next net]? = some proxy ∧
      s.selectOn net touch =
        .ok (if touch then s.touchIdx net (s.next net) else s, some proxy) := by
  have length := valid.acceptable_length net
  have nonneg := valid.nonneg net
  have below : s.next net < (s.acceptable net).length := Nat.mod_lt _ (by omega)
  have there := getElem?_eq_getElem below
  refine ⟨_, getElem_mem below, there, ?_⟩
  have some : ¬ s.maxAcceptableIndex net + 1 = 0 := by omega
  simp only [RoundRobin.selectOn, if_neg some, valid.next_eq, sorted_of_acceptable there]
  rfl

theorem Valid.touchIdx (net : Net) (id : Nat) : Valid outbounds (s.touchIdx net id) := by
  refine { valid with idx := fun n => ?_ }
  simp only [RoundRobin.touchIdx]
  split
  · exact Int.natCast_nonneg id
  · exact valid.idx n

theorem Valid.select (net : String) (touch : Bool) :
    ∃ s' proxy, s.select net touch = .ok (s', some proxy) ∧ Valid outbounds s' ∧
      proxy ∈ s.acceptable (ofName net) := by
  obtain ⟨proxy, member, _, eq⟩ := valid.selectOn (ofName net) touch
  refine ⟨_, proxy, eq, ?_, member⟩
  split
  · exact valid.touchIdx _ _
  · exact valid

theorem Valid.run (nonempty : outbounds ≠ []) (ops : List Op) :
    ∃ s' log, s.run ops = .ok (s', log) ∧ Valid outbounds s' := by
  induction ops generalizing s with
  | nil => exact ⟨s, [], rfl, valid⟩
  | cons op ops ih =>
    cases op with
    | update history =>
      obtain ⟨updated, changed, eq, valid'⟩ := valid.updateOutboundsInfo nonempty history
      obtain ⟨s', log, rest, valid''⟩ := ih valid'
      exact ⟨s', log, by rw [RoundRobin.run, eq]; exact rest, valid''⟩
    | select net touch =>
      obtain ⟨selected, proxy, eq, valid', _⟩ := valid.select net touch
      obtain ⟨s', log, rest, valid''⟩ := ih valid'
      exact ⟨s', _, run_select eq rest, valid''⟩

end

variable (outs : List Outbound)

/-- `m` turns from index `i` on. -/
def cycle (i m : Nat) : List (Option Outbound) :=
  (range m).map fun j => outs[(i + 1 + j) % outs.length]?

theorem cycle_succ (i m : Nat) :
    cycle outs i (m + 1) =
      outs[(i + 1) % outs.length]? :: cycle outs ((i + 1) % outs.length) m := by
  rw [cycle, cycle, range_succ_eq_map, map_cons, map_map]
  congr 1
  apply map_congr_left
  intro j _
  have shifted : ((i + 1) % outs.length + 1 + j) % outs.length =
    (i + 1 + (j + 1)) % outs.length := by
    rw [Nat.add_assoc, Nat.mod_add_mod, Nat.add_comm 1 j]
  rw [shifted]
  rfl

theorem cycle_length (i : Nat) : cycle outs i outs.length = (outs.rotate (i + 1)).map some := by
  apply ext_getElem?
  intro j
  simp only [cycle, getElem?_map]
  by_cases below : j < outs.length
  · rw [getElem?_range below, getElem?_rotate below, Nat.add_comm j]
    have inside := Nat.mod_lt (i + 1 + j) (Nat.lt_of_le_of_lt (Nat.zero_le j) below)
    rw [Option.map_some, getElem?_eq_getElem inside, Option.map_some]
  · rw [getElem?_eq_none (by simpa using below), getElem?_eq_none (by simpa using below)]
    rfl

/-- `Select`s only, one after another. -/
def stretch (selects : List (String × Bool)) : List Op := selects.map fun a => .select a.1 a.2

theorem turns_cons (net : Net) (entry : Selected) (log : List Selected) :
    turns net (entry :: log) =
      if entry.touch && entry.net == net then entry.proxy :: turns net log else turns net log := by
  rw [turns, filter_cons]
  split <;> rfl

/-- In a stretch without updates the touching `Select`s of a network go round from its index
on, whatever the others do. -/
theorem Valid.stretch (valid : Valid outbounds s) (net : Net) (selects : List (String × Bool)) :
    ∃ s' log, s.run (stretch selects) = .ok (s', log) ∧
      turns net log = cycle (s.acceptable net) (s.idx net).toNat (turns net log).length := by
  induction selects generalizing s with
  | nil => exact ⟨s, [], rfl, rfl⟩
  | cons first selects ih =>
    obtain ⟨name, touch⟩ := first
    obtain ⟨proxy, _, there, eq⟩ := valid.selectOn (ofName name) touch
    cases touch with
    | false =>
      obtain ⟨s', log, rest, turned⟩ := ih valid
      exact ⟨s', _, run_select eq rest, turned⟩
    | true =>
      obtain ⟨s', log, rest, turned⟩ := ih (valid.touchIdx (ofName name) (s.next (ofName name)))
      refine ⟨s', _, run_select eq rest, ?_⟩
      rw [turns_cons]
      by_cases mine : ofName name = net
      · rw [mine] at there turned
        have moved : ((s.touchIdx net (s.next net)).idx net).toNat = s.next net := by
          simp [RoundRobin.touchIdx]
        simp only [mine, BEq.rfl, Bool.and_true, if_true, length_cons, cycle_succ]
        rw [moved] at turned
        exact cons_eq_cons.mpr ⟨there.symm, turned⟩
      · have kept : (s.touchIdx (ofName name) (s.next (ofName name))).idx net = s.idx net := by
          simp [RoundRobin.touchIdx, Ne.symm mine]
        rw [kept] at turned
        simp only [beq_eq_false_iff_ne.mpr mine, Bool.and_false]
        exact turned

end

/-- What a user of the balancer sees. `inRange`: a `Select` does not index out of range, and
returns an acceptable outbound of its network. `turn`: as many touching `Select`s of a network as
it has acceptable outbounds return each of them once. -/
structure Fair (outbounds : List Outbound) (s : RoundRobin) : Prop where
  inRange : ∀ name touch, ∃ s' proxy, s.select name touch = .ok (s', some proxy) ∧
    proxy ∈ s.acceptable (ofName name) ∧ proxy ∈ convertOutbounds outbounds (ofName name)
  turn : ∀ (net : Net) (selects : List (String × Bool)),
    ∃ s' log, s.run (stretch selects) = .ok (s', log) ∧
      ((turns net log).length = (s.acceptable net).length →
        (turns net log).Perm ((s.acceptable net).map some))

theorem Valid.fair {outbounds : List Outbound} {s : RoundRobin} (valid : Valid outbounds s) :
    Fair outbounds s where
  inRange name touch := by
    obtain ⟨s', proxy, selected, _, member⟩ := valid.select name touch
    exact ⟨s', proxy, selected, member, valid.acceptable_subset member⟩
  turn net selects := by
    obtain ⟨s', log, selected, turned⟩ := valid.stretch net selects
    refine ⟨s', log, selected, fun all => ?_⟩
    rw [turned, all, cycle_length]
    exact (rotate_perm _ _).map _

/-- No run of updates and selects panics, and every state it comes to is fair. -/
theorem round_robin_fair (outbounds : List Outbound) (nonempty : outbounds ≠ []) (ratio : ℚ)
    (ops : List Op) :
    ∃ s log, (newRoundRobin outbounds ratio).run ops = .ok (s, log) ∧ Fair outbounds s := by
  obtain ⟨s, log, eq, valid⟩ := (newRoundRobin_valid nonempty ratio).run nonempty ops
  exact ⟨s, log, eq, valid.fair⟩

/-- The first of two outbounds is the only acceptable one after the first update, and the second
after the second. -/
theorem round_robin_fair_pair :
    [Outbound.mk "a" ["tcp"], ⟨"b", ["tcp", "udp"]⟩] ≠ [] ∧
      ∃ s log, (newRoundRobin [⟨"a", ["tcp"]⟩, ⟨"b", ["tcp", "udp"]⟩] 2).run
        [.update (Map.empty.set "a" (some ⟨100, false⟩)), .select "tcp" true,
          .update (Map.empty.set "b" (some ⟨80, true⟩)), .select "icmp" true] = .ok (s, log) ∧
        Fair [⟨"a", ["tcp"]⟩, ⟨"b", ["tcp", "udp"]⟩] s :=
  ⟨by decide, round_robin_fair _ (by decide) 2 _⟩

end RoundRobin

end AiboosterEngine.Balancer
