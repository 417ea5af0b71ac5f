import AiboosterEngine.GoSem.Map
import Mathlib.Algebra.Group.Nat.Defs

/-!
# The URL test group

`URLTestGroup.Select` of `protocol/group/urltest.go`. Delays are of 16 bits, and so is
the sum of a delay and the tolerance.
-/

namespace AiboosterEngine.UrlTest

open GoSem List

/-- What the group reads of an outbound: `Network()` and `RealTag`. -/
structure Outbound where
  network : List String
  realTag : String
  deriving DecidableEq

/-- `history` has the delays of the history storage. -/
structure URLTestGroup where
  outbounds : List Outbound
  tolerance : UInt16
  history : Map String UInt16
  selectedOutboundTCP : Option Outbound
  selectedOutboundUDP : Option Outbound

namespace URLTestGroup
variable (g : URLTestGroup) (network : String)

/-- An outbound that has a history, with its delay. -/
def tested (o : Outbound) : Option (Outbound × UInt16) := (g.history.get o.realTag).map (o, ·)

def selected : Option Outbound :=
  if network = "tcp" then g.selectedOutboundTCP
  else if network = "udp" then g.selectedOutboundUDP
  else none

/-- The outbounds that the loop does not pass over. -/
def candidates : List (Outbound × UInt16) :=
  (g.outbounds.filter (·.network.contains network)).filterMap g.tested

def consider (best : Option Outbound × UInt16) (c : Outbound × UInt16) : Option Outbound × UInt16 :=
  if best.2 = 0 ∨ best.2 > c.2 + g.tolerance then (some c.1, c.2) else best

/-- `minOutbound` and `minDelay` before the loop. -/
def start : Option Outbound × UInt16 :=
  match (g.selected network).bind g.tested with
  | none => (none, 0)
  | some (o, delay) => (some o, delay)

def select : Option Outbound × Bool :=
  match ((g.candidates network).foldl g.consider (g.start network)).1 with
  | none => (g.outbounds.find? (·.network.contains network), false)
  | some o => (some o, true)

/-- Behind some candidate of the least delay no delay comes to 2^16 with the tolerance; and if the
least delay is 0, those behind it are within the tolerance. -/
def Settled (cs : List (Outbound × UInt16)) : Prop :=
  cs = [] ∨ ∃ before least after, cs = before ++ least :: after ∧ (∀ c ∈ cs, least.2 ≤ c.2) ∧
    (∀ c ∈ after, c.2.toNat + g.tolerance.toNat < 2 ^ 16) ∧
    (least.2 ≠ 0 ∨ ∀ c ∈ after, c.2 ≤ g.tolerance)

variable {g network}

theorem foldl_cases (best : Option Outbound × UInt16) (cs : List (Outbound × UInt16)) :
    cs.foldl g.consider best = best ∨ ∃ c ∈ cs, cs.foldl g.consider best = (some c.1, c.2) := by
  induction cs generalizing best with
  | nil => exact .inl rfl
  | cons c cs ih =>
    rw [foldl_cons]
    obtain same | ⟨later, member, same⟩ := ih (g.consider best c)
    · rw [same, consider]
      split
      · exact .inr ⟨c, mem_cons_self, rfl⟩
      · exact .inl rfl
    · exact .inr ⟨later, mem_cons_of_mem c member, same⟩

/-- The sum that is compared may be too small, never too large. -/
theorem sum_le (d : UInt16) : (d + g.tolerance).toNat ≤ d.toNat + g.tolerance.toNat := by
  rw [UInt16.toNat_add]
  exact Nat.mod_le _ _

/-- A candidate leaves a delay within its own and the tolerance. -/
theorem consider_le (best : Option Outbound × UInt16) (c : Outbound × UInt16) :
    (g.consider best c).2.toNat ≤ c.2.toNat + g.tolerance.toNat ∧
      ((g.consider best c).2 = 0 → c.2 = 0) := by
  rw [consider]
  split
  · exact ⟨Nat.le_add_right _ _, id⟩
  · next kept =>
    obtain ⟨old, short⟩ := not_or.mp kept
    have most := UInt16.le_iff_toNat_le.mp (UInt16.not_lt.mp short)
    exact ⟨Nat.le_trans most (sum_le c.2), fun zero => absurd zero old⟩

/-- A delay that is near the least one stays: a larger sum does not replace it, and one that is
taken for no delay yet is replaced by another near one. -/
theorem foldl_near {least : Nat} {best : Option Outbound × UInt16} {cs : List (Outbound × UInt16)}
    (more : ∀ c ∈ cs, least ≤ c.2.toNat)
    (fits : ∀ c ∈ cs, c.2.toNat + g.tolerance.toNat < 2 ^ 16)
    (near : best.2.toNat ≤ least + g.tolerance.toNat)
    (zero : best.2 ≠ 0 ∨ ∀ c ∈ cs, c.2 ≤ g.tolerance) :
    (cs.foldl g.consider best).2.toNat ≤ least + g.tolerance.toNat := by
  induction cs generalizing best with
  | nil => exact near
  | cons c cs ih =>
    obtain ⟨least_le, more⟩ := forall_mem_cons.mp more
    obtain ⟨fit, fits⟩ := forall_mem_cons.mp fits
    rw [foldl_cons]
    by_cases old : best.2 = 0
    · obtain ⟨short, shorts⟩ := forall_mem_cons.mp (zero.resolve_left (not_not_intro old))
      have taken : g.consider best c = (some c.1, c.2) := if_pos (.inl old)
      have short := UInt16.le_iff_toNat_le.mp short
      rw [taken]
      exact ih more fits (Nat.le_add_left_of_le short) (.inr shorts)
    · have sum : (c.2 + g.tolerance).toNat = c.2.toNat + g.tolerance.toNat := by
        rw [UInt16.toNat_add, Nat.mod_eq_of_lt fit]
      have kept : g.consider best c = best := by
        refine if_neg (not_or.mpr ⟨old, UInt16.not_lt.mpr (UInt16.le_iff_toNat_le.mpr ?_)⟩)
        omega
      rw [kept]
      exact ih more fits near (.inl old)

/-- The candidate of the least delay puts the loop right, whatever came before it. -/
theorem settled_near (best : Option Outbound × UInt16) {cs : List (Outbound × UInt16)}
    (settled : g.Settled cs) :
    ∀ c ∈ cs, (cs.foldl g.consider best).2.toNat ≤ c.2.toNat + g.tolerance.toNat := by
  obtain rfl | ⟨before, least, after, rfl, minimal, fits, zero⟩ := settled
  · nofun
  · intro c member
    have minimal := fun c member => UInt16.le_iff_toNat_le.mp (minimal c member)
    have here := consider_le (g := g) (before.foldl g.consider best) least
    have near := foldl_near (g := g) (fun c member => minimal c (by simp [member])) fits here.1
      (zero.imp_left fun nonzero none => nonzero (here.2 none))
    rw [foldl_append, foldl_cons]
    exact Nat.le_trans near (Nat.add_le_add_right (minimal c member) _)

theorem tested_eq_some {o : Outbound} {c : Outbound × UInt16} (h : g.tested o = some c) :
    c.1 = o ∧ g.history.get c.1.realTag = some c.2 := by
  obtain ⟨delay, found, rfl⟩ := Option.map_eq_some_iff.mp h
  exact ⟨rfl, found⟩

/-- `Select` returns an outbound for the network or the selected one, and one that is within the
tolerance of every other if the delays are settled. -/
theorem select_near (g : URLTestGroup) (network : String) {o : Outbound}
    (h : g.select network = (some o, true)) :
    (o ∈ g.outbounds ∧ o.network.contains network = true ∨ g.selected network = some o) ∧
      (g.Settled (g.candidates network) → ∃ delay, g.history.get o.realTag = some delay ∧
        ∀ d ∈ g.candidates network, delay.toNat ≤ d.2.toNat + g.tolerance.toNat) := by
  have near := @settled_near g (g.start network) (g.candidates network)
  have cases_ := foldl_cases (g := g) (g.start network) (g.candidates network)
  unfold select at h
  generalize (g.candidates network).foldl g.consider (g.start network) = best at h near cases_
  obtain ⟨minOutbound, delay⟩ := best
  obtain rfl : minOutbound = some o := by
    cases minOutbound <;> simp_all
  suffices found : (o ∈ g.outbounds ∧ o.network.contains network = true ∨
      g.selected network = some o) ∧ g.history.get o.realTag = some delay from
    ⟨found.1, fun settled => ⟨delay, found.2, near settled⟩⟩
  obtain begun | ⟨c, member, same⟩ := cases_
  · cases now : (g.selected network).bind g.tested with
    | none =>
      rw [start, now] at begun
      cases begun
    | some c =>
      rw [start, now] at begun
      cases begun
      obtain ⟨o', chosen, test⟩ := Option.bind_eq_some_iff.mp now
      obtain ⟨rfl, found⟩ := tested_eq_some test
      exact ⟨.inr chosen, found⟩
  · cases same
    obtain ⟨o', supports, test⟩ := mem_filterMap.mp member
    obtain ⟨rfl, found⟩ := tested_eq_some test
    exact ⟨.inl (mem_filter.mp supports), found⟩

end URLTestGroup

def pair (first second : UInt16) : URLTestGroup :=
  ⟨[⟨["tcp"], "a"⟩, ⟨["tcp"], "b"⟩], 50, (Map.empty.set "a" first).set "b" second, none, none⟩

/-- The first outbound has failed. -/
theorem select_near_pair : ∃ delay : UInt16, (pair 65535 100).history.get "b" = some delay ∧
    ∀ d ∈ (pair 65535 100).candidates "tcp", delay.toNat ≤ d.2.toNat + 50 :=
  (URLTestGroup.select_near (pair 65535 100) "tcp" (o := ⟨["tcp"], "b"⟩) rfl).2
    (.inr ⟨[(⟨["tcp"], "a"⟩, 65535)], (⟨["tcp"], "b"⟩, 100), [], by decide, by decide, by decide,
      .inl (by decide)⟩)

/-- The test of `b` has failed, and it is selected. So is one of 500 after one of 0. -/
theorem failed_selected :
    (pair 100 65535).select "tcp" = (some ⟨["tcp"], "b"⟩, true) ∧
      (∃ d ∈ (pair 100 65535).candidates "tcp",
        ((pair 100 65535).history.get "b").any fun delay => d.2.toNat + 50 < delay.toNat) ∧
      (pair 0 500).select "tcp" = (some ⟨["tcp"], "b"⟩, true) ∧
      ∃ d ∈ (pair 0 500).candidates "tcp",
        ((pair 0 500).history.get "b").any fun delay => d.2.toNat + 50 < delay.toNat := by
  decide

end AiboosterEngine.UrlTest
