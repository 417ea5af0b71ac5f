import AiboosterEngine.GoSem.Counting
import AiboosterEngine.GoSem.Map
import Mathlib.Algebra.BigOperators.Group.Finset.Piecewise
import Mathlib.Algebra.Order.Group.Int

/-!
# The traffic of the outbounds

`PushUploaded`, `PushDownloaded`, `Total` and `OutboundUsage` of
`experimental/clashapi/trafficontrol/manager.go`. A push is three steps: the addition to the
total, `LoadOrStore` of the counter of the outbound, and the addition to it. Nothing is
deleted without a reset, so the counter is the one of the map.
-/

namespace AiboosterEngine.Traffic
open GoSem Threads Int64 Finset

/-- The total and the counters of the outbounds in one direction. -/
structure Usage (Tag : Type) where
  total : Int64 := 0
  outbounds : Map Tag Int64 := .empty

structure Manager (Tag : Type) where
  upload : Usage Tag := {}
  download : Usage Tag := {}

/-- The step that comes next. -/
inductive Place where
  | total | load | count | returned
  deriving DecidableEq, Repr

inductive Direction where
  | uploaded | downloaded
  deriving DecidableEq, Repr

structure Push (Tag : Type) where
  direction : Direction
  outbound : Tag
  size : Int64
  deriving DecidableEq, Repr

section
variable {Tag : Type} [DecidableEq Tag]

/-- `LoadOrStore(outbound, &atomic.Int64{})`. -/
def loadOrStore (m : Map Tag Int64) (outbound : Tag) : Map Tag Int64 :=
  match m.get outbound with
  | some _ => m
  | none => m.set outbound 0

def Usage.of (usage : Usage Tag) (outbound : Tag) : Int64 := (usage.outbounds.get outbound).getD 0

/-- A push that adds `size` to the total and `counted` to the counter of the outbound. -/
def Usage.push (outbound : Tag) (size counted : Int64) (usage : Usage Tag) :
    Place → Option (Usage Tag × Place)
  | .total => some ({ usage with total := usage.total + size }, .load)
  | .load => some ({ usage with outbounds := loadOrStore usage.outbounds outbound }, .count)
  | .count =>
      some ({ usage with outbounds := usage.outbounds.set outbound (usage.of outbound + counted) },
      .returned)
  | .returned => none

def pushUploaded (outbound : Tag) (size : Int64) : Usage Tag → Place → Option (Usage Tag × Place) :=
  Usage.push outbound size size

def pushDownloaded (outbound : Tag) (size : Int64) :
    Usage Tag → Place → Option (Usage Tag × Place) :=
  Usage.push outbound size 100

def Manager.total (m : Manager Tag) : Int64 × Int64 := (m.upload.total, m.download.total)

def Manager.outboundUsage (m : Manager Tag) (outbound : Tag) : Int64 × Int64 :=
  (m.upload.of outbound, m.download.of outbound)

/-- One step of the push of a thread. -/
def act {τ : Type} (call : τ → Push Tag) (t : τ) (m : Manager Tag) (p : Place) (_ : Unit) :
    Option (Manager Tag × Place) :=
  match (call t).direction with
  | .uploaded =>
    (pushUploaded (call t).outbound (call t).size m.upload p).map fun next =>
      ({ m with upload := next.1 }, next.2)
  | .downloaded =>
    (pushDownloaded (call t).outbound (call t).size m.download p).map fun next =>
      ({ m with download := next.1 }, next.2)

def init {τ : Type} : Threads τ (Manager Tag) Place := { shared := {}, pc := fun _ => .total }

def Manager.usage (m : Manager Tag) : Direction → Usage Tag
  | .uploaded => m.upload
  | .downloaded => m.download

variable (push : Push Tag)

def Push.counted : Int64 :=
  match push.direction with
  | .uploaded => push.size
  | .downloaded => 100

/-- What a push has added to the total of a direction when it is at a place. -/
def Push.added (d : Direction) (p : Place) : Int :=
  if push.direction = d ∧ p ≠ .total then push.size.toInt else 0

def Push.addedTo (d : Direction) (outbound : Tag) (p : Place) : Int :=
  if push.direction = d ∧ push.outbound = outbound ∧ p = .returned then push.counted.toInt else 0

theorem loadOrStore_getD (m : Map Tag Int64) (outbound o : Tag) :
    ((loadOrStore m outbound).get o).getD 0 = (m.get o).getD 0 := by
  unfold loadOrStore
  cases stored : m.get outbound with
  | some => rfl
  | none =>
    by_cases same : o = outbound
    · simp [same, stored]
    · simp [same]

theorem push_cases {usage usage' : Usage Tag} {outbound : Tag} {size counted : Int64} {p p' : Place}
    (h : usage.push outbound size counted p = some (usage', p')) :
    (p = .total ∧ p' = .load ∧ usage'.total = usage.total + size ∧ ∀ o, usage'.of o = usage.of o) ∨
    (p = .load ∧ p' = .count ∧ usage'.total = usage.total ∧ ∀ o, usage'.of o = usage.of o) ∨
    (p = .count ∧ p' = .returned ∧ usage'.total = usage.total ∧
      ∀ o, usage'.of o = if o = outbound then usage.of o + counted else usage.of o) := by
  cases p with
  | total =>
    cases h
    exact .inl ⟨rfl, rfl, rfl, fun _ => rfl⟩
  | load =>
    cases h
    exact .inr (.inl ⟨rfl, rfl, rfl, loadOrStore_getD usage.outbounds outbound⟩)
  | count =>
    cases h
    have counters : ∀ o,
      ((usage.outbounds.set outbound (usage.of outbound + counted)).get o).getD 0 =
        if o = outbound then usage.of o + counted else usage.of o := by
      intro o
      by_cases same : o = outbound
      · simp [same]
      · simp [same, Usage.of]
    exact .inr (.inr ⟨rfl, rfl, rfl, counters⟩)
  | returned => cases h

variable {τ : Type} {call : τ → Push Tag} {t : τ} {m m' : Manager Tag} {p p' : Place}

theorem act_push (acted : act call t m p () = some (m', p')) :
    (m.usage (call t).direction).push (call t).outbound (call t).size (call t).counted p =
        some (m'.usage (call t).direction, p') ∧
      ∀ d, d ≠ (call t).direction → m'.usage d = m.usage d := by
  unfold act at acted
  unfold Push.counted
  split at acted <;> next direction =>
    obtain ⟨next, pushed, same⟩ := Option.map_eq_some_iff.mp acted
    cases same
    rw [direction]
    refine ⟨pushed, fun d other => ?_⟩
    cases d <;> first | rfl | exact absurd rfl other

/-- The counters of a direction change by what the push adds to them in its step. -/
theorem act_usage (acted : act call t m p () = some (m', p')) (d : Direction) :
    (m'.usage d).total = (m.usage d).total + ofInt ((call t).added d p' - (call t).added d p) ∧
      ∀ o, (m'.usage d).of o =
        (m.usage d).of o + ofInt ((call t).addedTo d o p' - (call t).addedTo d o p) := by
  obtain ⟨pushed, untouched⟩ := act_push acted
  by_cases mine : (call t).direction = d
  · subst mine
    obtain ⟨rfl, rfl, total, counters⟩ | ⟨rfl, rfl, total, counters⟩ | ⟨rfl, rfl,
      total, counters⟩ :=
      push_cases pushed
    · simp [Push.added, Push.addedTo, total, counters]
    · simp [Push.added, Push.addedTo, total, counters]
    · constructor
      · simp [Push.added, total]
      · intro o
        rw [counters o]
        by_cases here : o = (call t).outbound
        · simp [Push.addedTo, here]
        · simp [Push.addedTo, here, Ne.symm here]
  · simp [Push.added, Push.addedTo, mine, untouched d (Ne.symm mine)]

variable [Fintype τ] {s s' : Threads τ (Manager Tag) Place}

/-- The counters are what the pushes have added so far. -/
structure Inv (call : τ → Push Tag) (s : Threads τ (Manager Tag) Place) : Prop where
  total : ∀ d, (s.shared.usage d).total = ofInt (∑ t, (call t).added d (s.pc t))
  of : ∀ d o, (s.shared.usage d).of o = ofInt (∑ t, (call t).addedTo d o (s.pc t))

theorem init_inv : Inv call (init : Threads τ (Manager Tag) Place) := by
  constructor
  · intro d
    cases d <;> simp [init, Push.added, Manager.usage]
  · intro d o
    cases d <;> simp [init, Push.addedTo, Manager.usage, Usage.of]

theorem Inv.step [DecidableEq τ] (inv : Inv call s) (taken : step (act call) s (t, ()) = some s') :
    Inv call s' := by
  obtain ⟨acted, others⟩ := step_cases taken
  constructor
  · intro d
    have sums := sum_places (g := fun u => (call u).added d) others
    rw [(act_usage acted d).1, inv.total d, ← ofInt_add]
    congr 1
    omega
  · intro d o
    have sums := sum_places (g := fun u => (call u).addedTo d o) others
    rw [(act_usage acted d).2 o, inv.of d o, ← ofInt_add]
    congr 1
    omega

/-- The sizes pushed in a direction. -/
def pushed (call : τ → Push Tag) (d : Direction) : Int :=
  ∑ t, if (call t).direction = d then (call t).size.toInt else 0

/-- The sizes pushed for an outbound. -/
def pushedTo (call : τ → Push Tag) (d : Direction) (outbound : Tag) : Int :=
  ∑ t, if (call t).direction = d ∧ (call t).outbound = outbound then (call t).size.toInt else 0

/-- How often an outbound was pushed to. -/
def pushes (call : τ → Push Tag) (d : Direction) (outbound : Tag) : Nat :=
  (univ.filter fun t => (call t).direction = d ∧ (call t).outbound = outbound).card

/-- The total is the sum over the outbounds, and each of them has what was pushed for it. -/
structure Balanced (call : τ → Push Tag) (d : Direction) (total : Int64)
    (of : Tag → Int64) : Prop where
  total : ∀ outbounds : Finset Tag, (∀ t, (call t).outbound ∈ outbounds) →
    total.toInt = ∑ o ∈ outbounds, (of o).toInt
  of : ∀ o, (of o).toInt = pushedTo call d o

theorem sum_pushedTo (call : τ → Push Tag) (d : Direction) {outbounds : Finset Tag}
    (all : ∀ t, (call t).outbound ∈ outbounds) :
      ∑ o ∈ outbounds, pushedTo call d o = pushed call d := by
  unfold pushedTo pushed
  rw [sum_comm]
  apply sum_congr rfl
  intro t _
  by_cases mine : (call t).direction = d
  · simp [mine, all t]
  · simp [mine]

section
variable (sizes : ∀ t, 0 ≤ (call t).size.toInt)
include sizes

theorem pushedTo_nonneg (d : Direction) (o : Tag) : 0 ≤ pushedTo call d o := by
  apply sum_nonneg
  intro t _
  split
  · exact sizes t
  · exact Int.le_refl 0

theorem pushedTo_le (d : Direction) (o : Tag) : pushedTo call d o ≤ pushed call d := by
  apply sum_le_sum
  intro t _
  by_cases mine : (call t).direction = d
  · by_cases here : (call t).outbound = o
    · simp [mine, here]
    · simpa [mine, here] using sizes t
  · simp [mine]

/-- A total that counts all sizes balances where it is exact and the counters are. -/
theorem balanced_total_iff (d : Direction) (of : Tag → Int64) :
    Balanced call d (ofInt (pushed call d)) of ↔
      pushed call d < 2 ^ 63 ∧ ∀ o, (of o).toInt = pushedTo call d o := by
  constructor
  · intro balanced
    refine ⟨?_, balanced.of⟩
    have all : ∀ t, (call t).outbound ∈ univ.image fun t => (call t).outbound := fun t =>
      mem_image_of_mem (fun t => (call t).outbound) (mem_univ t)
    have sum := balanced.total _ all
    rw [sum_congr rfl fun o _ => balanced.of o, sum_pushedTo call d all] at sum
    rw [← sum]
    exact toInt_lt _
  · rintro ⟨fits, of⟩
    refine ⟨fun outbounds all => ?_, of⟩
    have nonneg : 0 ≤ pushed call d := by
      rw [← sum_pushedTo call d all]
      exact sum_nonneg fun o _ => pushedTo_nonneg sizes d o
    rw [sum_congr rfl fun o _ => of o, sum_pushedTo call d all]
    exact toInt_ofInt_of_le (by omega) fits

end

theorem toInt_ofInt_iff {n a : Int} (nonneg : 0 ≤ a) (fits : a < 2 ^ 63) :
    (ofInt n).toInt = a ↔ n % 2 ^ 64 = a := by
  rw [toInt_ofInt, Int.bmod_def]
  simp only [size]
  split <;> omega

theorem Inv.returned {s : Threads τ (Manager Tag) Place} (inv : Inv call s)
    (all : ∀ t, s.pc t = .returned) (d : Direction) :
    (s.shared.usage d).total = ofInt (pushed call d) ∧
      ∀ o, (s.shared.usage d).of o = ofInt
        (∑ t, if (call t).direction = d ∧
          (call t).outbound = o then (call t).counted.toInt else 0) := by
  constructor
  · simp [inv.total d, all, Push.added, pushed]
  · intro o
    simp [inv.of d o, all, Push.addedTo]

theorem sum_counted_uploaded (call : τ → Push Tag) (o : Tag) :
    (∑ t, if (call t).direction = .uploaded ∧
      (call t).outbound = o then (call t).counted.toInt else 0) = pushedTo call .uploaded o := by
  apply sum_congr rfl
  intro t _
  split
  · next mine => simp [Push.counted, mine.1]
  · rfl

theorem sum_counted_downloaded (call : τ → Push Tag) (o : Tag) :
    (∑ t, if (call t).direction = .downloaded ∧
      (call t).outbound = o then (call t).counted.toInt else 0) =
      100 * pushes call .downloaded o := by
  have same : ∀ t, (if (call t).direction = .downloaded ∧
    (call t).outbound = o then (call t).counted.toInt else 0) =
      if (call t).direction = .downloaded ∧ (call t).outbound = o then 100 else 0 := by
    intro t
    split
    · next mine => simp [Push.counted, mine.1]
    · rfl
  rw [sum_congr rfl fun t _ => same t, ← sum_filter, sum_const, pushes]
  simp [Int.mul_comm]

/-- When every push of any sizes has returned, in whatever order they came. What was uploaded adds
up unless it is too much for a counter. What was downloaded adds up if, besides, each outbound was
pushed to as often as makes a hundred for each time what was pushed. -/
theorem balanced_iff [DecidableEq τ] (call : τ → Push Tag) (sizes : ∀ t, 0 ≤ (call t).size.toInt)
    {s : Threads τ (Manager Tag) Place} (reached : Reachable (step (act call)) init s)
    (all : ∀ t, s.pc t = .returned) :
    (Balanced call .uploaded s.shared.total.1 (fun o => (s.shared.outboundUsage o).1) ↔
      pushed call .uploaded < 2 ^ 63) ∧
    (Balanced call .downloaded s.shared.total.2 (fun o => (s.shared.outboundUsage o).2) ↔
      pushed call .downloaded < 2 ^ 63 ∧
        ∀ o, 100 * pushes call .downloaded o % 2 ^ 64 = pushedTo call .downloaded o) := by
  have inv : Inv call s := reached.invariant init_inv fun _ _ _ inv _ taken => inv.step taken
  constructor
  · obtain ⟨total, of⟩ := inv.returned all .uploaded
    have usage : (fun o => (s.shared.outboundUsage o).1) = fun o =>
      ofInt (pushedTo call .uploaded o) := by
      funext o
      rw [← sum_counted_uploaded, ← of o]
      rfl
    have exact_ : s.shared.total.1 = ofInt (pushed call .uploaded) := total
    rw [usage, exact_, balanced_total_iff sizes]
    apply and_iff_left_of_imp
    intro fits o
    have nonneg := pushedTo_nonneg sizes .uploaded o
    have le := pushedTo_le sizes .uploaded o
    exact toInt_ofInt_of_le (by omega) (by omega)
  · obtain ⟨total, of⟩ := inv.returned all .downloaded
    have usage : (fun o => (s.shared.outboundUsage o).2) =
        fun o => ofInt (100 * pushes call .downloaded o) := by
      funext o
      rw [← sum_counted_downloaded, ← of o]
      rfl
    have exact_ : s.shared.total.2 = ofInt (pushed call .downloaded) := total
    rw [usage, exact_, balanced_total_iff sizes]
    apply and_congr_right
    intro fits
    apply forall_congr'
    intro o
    have nonneg := pushedTo_nonneg sizes .downloaded o
    have le := pushedTo_le sizes .downloaded o
    exact toInt_ofInt_iff nonneg (by omega)

end

/-- One download. -/
def download (size : Int64) : Unit → Push String := fun _ => ⟨.downloaded, "proxy", size⟩

theorem download_returns (size : Int64) :
    ∃ s, exec (step (act (download size))) init [((), ()), ((), ()), ((), ())] = some s ∧
      (∀ t, s.pc t = .returned) ∧ s.shared.total = (0, 0 + size) ∧
      s.shared.outboundUsage "proxy" = (0, 0 + 100) :=
  ⟨_, rfl, fun _ => rfl, rfl, rfl⟩

/-- A download of a hundred bytes is counted as it is. -/
theorem hundred_balanced :
    ∃ s, Reachable (step (act (download 100))) init s ∧ (∀ t, s.pc t = .returned) ∧
      Balanced (download 100) .downloaded s.shared.total.2
        (fun o => (s.shared.outboundUsage o).2) := by
  obtain ⟨s, ran, all, _⟩ := download_returns 100
  have reached := exec_reachable ran
  have sizes : ∀ t, 0 ≤ (download 100 t).size.toInt := by decide
  refine ⟨s, reached, all, (balanced_iff (download 100) sizes reached all).2.mpr ⟨by decide, ?_⟩⟩
  intro o
  by_cases proxy : "proxy" = o
  · simp [pushes, pushedTo, download, proxy]
  · simp [pushes, pushedTo, download, proxy]

/-- One byte is counted as a hundred. -/
theorem byte_unbalanced :
    ∃ s, exec (step (act (download 1))) init [((), ()), ((), ()), ((), ())] = some s ∧
      (∀ t, s.pc t = .returned) ∧ s.shared.total = (0, 1) ∧
        s.shared.outboundUsage "proxy" = (0, 100) :=
  download_returns 1

end AiboosterEngine.Traffic
