import AiboosterEngine.Balancer.RoundRobin
import AiboosterEngine.Balancer.StickySession

/-!
# Acceptable outbounds

Which outbounds the strategies accept after an update, against what they are
meant to accept: those whose effective delay is at most the ratio times the
smallest one, which counts as 100 at least.
-/

namespace AiboosterEngine.Balancer

open GoSem List UInt16

variable (history : History)

/-- The smallest effective delay in the list. -/
def smallest (outs : List Outbound) : Nat :=
  ((outs.map fun out => (getTagDelay out.tag history).toNat).min?).getD 0

def threshold (ratio : ℚ) (outs : List Outbound) : ℚ :=
  ratio * max 100 (smallest history outs : ℚ)

/-- The outbound is meant to be accepted. -/
def Within (ratio : ℚ) (outs : List Outbound) (out : Outbound) : Prop :=
  ((getTagDelay out.tag history).toNat : ℚ) ≤ threshold history ratio outs

instance (history : History) (ratio : ℚ) (outs : List Outbound) (out : Outbound) :
    Decidable (Within history ratio outs out) :=
  inferInstanceAs (Decidable (_ ≤ _))

section
variable {history : History} {ratio : ℚ} {outs : List Outbound} {out : Outbound}

/-- A delay that is below all of them, and one of them or the longest there is. -/
theorem eq_smallest (nonempty : outs ≠ []) {delay : UInt16}
    (found : delay = timeoutDelay ∨ ∃ out ∈ outs, delay = getTagDelay out.tag history)
    (least : ∀ out ∈ outs, delay ≤ getTagDelay out.tag history) :
      delay.toNat = smallest history outs := by
  have small : (outs.map fun out => (getTagDelay out.tag history).toNat).min? =
    some (smallest history outs) := by
    cases outs with
    | nil => exact absurd rfl nonempty
    | cons first outs => rfl
  obtain ⟨smallest, below⟩ := min?_eq_some_iff.mp small
  obtain ⟨best, there, same⟩ := mem_map.mp smallest
  have atMost := le_iff_toNat_le.mp (least best there)
  obtain rfl | ⟨out, member, rfl⟩ := found
  · have short := (getTagDelay best.tag history).toNat_lt
    have long : timeoutDelay.toNat = 65535 := rfl
    omega
  · have atLeast := below _ (mem_map_of_mem member)
    omega

variable (delay : UInt16)

theorem threshold_eq (same : delay.toNat = smallest history outs) :
    maxAcceptable delay ratio = threshold history ratio outs := by
  rw [maxAcceptable, threshold, same, mul_comm]

theorem minDelayLoop_spec (minOut : Option Outbound) (minDelay : UInt16) :
    let found := (minDelayLoop history minOut minDelay outs).2
    (found = minDelay ∨ ∃ out ∈ outs, found = getTagDelay out.tag history) ∧
      found ≤ minDelay ∧ ∀ out ∈ outs, found ≤ getTagDelay out.tag history := by
  induction outs generalizing minOut minDelay with
  | nil => exact ⟨.inl rfl, UInt16.le_refl _, fun _ member => nomatch member⟩
  | cons first outs ih =>
    simp only [minDelayLoop]
    split
    · grind
    · grind

variable {outbounds : Net → List Outbound} {net : Net} {limit : ℚ}

theorem getMinDelay_eq (nonempty : outbounds net ≠ []) :
    ((getMinDelay outbounds history).2 net).toNat = smallest history (outbounds net) := by
  obtain ⟨found, _, least⟩ := minDelayLoop_spec none timeoutDelay
  exact eq_smallest nonempty found least

theorem toUint16_toNat (x : ℚ) : (toUint16 x).toNat = ⌊x⌋₊ % 2 ^ 16 := by
  rw [toUint16, toNat_ofNat']

theorem le_toUint16_iff {x : ℚ} (nonneg : 0 ≤ x) (fits : x < 2 ^ 16) :
    delay ≤ toUint16 x ↔ (delay.toNat : ℚ) ≤ x := by
  have small : ⌊x⌋₊ < 2 ^ 16 := by
    rw [Nat.floor_lt nonneg]
    exact_mod_cast fits
  rw [le_iff_toNat_le, toUint16_toNat, Nat.mod_eq_of_lt small, Nat.le_floor_iff nonneg]

theorem delay_le_of_large {x : ℚ} (large : 2 ^ 16 ≤ x) : (delay.toNat : ℚ) ≤ x := by
  have below : ((delay.toNat : ℕ) : ℚ) ≤ ((2 ^ 16 : ℕ) : ℚ) :=
    Nat.cast_le.mpr (Nat.le_of_lt delay.toNat_lt)
  exact le_trans below (by exact_mod_cast large)

/-- A list by increasing delay: first those that are accepted, then the others. -/
theorem sorted_split (limit : UInt16)
    (sorted : outs.Pairwise fun a b => getTagDelay a.tag history ≤ getTagDelay b.tag history) :
    ∃ fast slow, outs = fast ++ slow ∧ (∀ out ∈ fast, getTagDelay out.tag history ≤ limit) ∧
      ∀ out ∈ slow, ¬ getTagDelay out.tag history ≤ limit := by
  induction outs with
  | nil => exact ⟨[], [], rfl, by simp, by simp⟩
  | cons first outs ih =>
    obtain ⟨above, sorted⟩ := pairwise_cons.mp sorted
    by_cases accepted : getTagDelay first.tag history ≤ limit
    · obtain ⟨fast, slow, rfl, fasts, slows⟩ := ih sorted
      exact ⟨first :: fast, slow, rfl, forall_mem_cons.mpr ⟨accepted, fasts⟩, slows⟩
    · refine ⟨[], first :: outs, rfl, by simp, forall_mem_cons.mpr ⟨accepted, ?_⟩⟩
      intro out member small
      exact accepted (UInt16.le_trans (above out member) small)

def upTo (history : History) (limit : UInt16) (first : Outbound) (outs : List Outbound) :
    List Outbound :=
  if getTagDelay first.tag history ≤ limit then
    outs.filter fun o => getTagDelay o.tag history ≤ limit
  else [first]

theorem take_eq_upTo {first : Outbound} {limit : UInt16}
    (sorted : (first :: outs).Pairwise fun a b =>
      getTagDelay a.tag history ≤ getTagDelay b.tag history) :
    (first :: outs).take
      (maxAvailableIndex (fun o => getTagDelay o.tag history ≤ limit) 0 0 (first :: outs) + 1) =
      upTo history limit first (first :: outs) := by
  obtain ⟨fast, slow, same, fasts, slows⟩ := sorted_split limit sorted
  have refused : ∀ o ∈ slow, decide (getTagDelay o.tag history ≤ limit) = false := by
    simpa using slows
  cases fast with
  | nil =>
    rw [nil_append] at same
    subst same
    rw [maxAvailableIndex_none refused, upTo, if_neg (slows first mem_cons_self)]
    rfl
  | cons head fast =>
    rw [cons_append] at same
    obtain ⟨rfl, rfl⟩ := cons_eq_cons.mp same
    have accepted : ∀ o ∈ first :: fast, decide (getTagDelay o.tag history ≤ limit) = true := by
      simpa using fasts
    rw [← cons_append, maxAvailableIndex_append accepted refused, Nat.zero_add,
      take_left' (by simp),
      upTo, if_pos (fasts first mem_cons_self), filter_append, filter_eq_self.mpr accepted,
      filter_eq_nil_iff.mpr (by simpa using slows), append_nil]

/-- What round robin accepts after an update: the outbounds up to the threshold, as it is after the
conversion, or one of smallest delay if there is none. -/
theorem acceptable_perm {outbounds : List Outbound} (nonempty : outbounds ≠ []) {s : RoundRobin}
    (made : s.outbounds = convertOutbounds outbounds) (net : Net) :
    ∃ s' changed first, s.updateOutboundsInfo history = .ok (s', changed) ∧
      first ∈ convertOutbounds outbounds net ∧
      (getTagDelay first.tag history).toNat = smallest history (convertOutbounds outbounds net) ∧
      (s'.acceptable net).Perm (upTo history
        (toUint16 (threshold history s.delayAcceptableRatio (convertOutbounds outbounds net))) first
        (convertOutbounds outbounds net)) := by
  obtain ⟨s', changed, eq, _, _, sortedEq, index⟩ :=
    RoundRobin.updateOutboundsInfo_ok made nonempty history
  obtain ⟨last, indexEq, lastEq, below⟩ := index net
  have perm := sortOutboundsByDelay_perm (convertOutbounds outbounds) history net
  have sorted := sortOutboundsByDelay_sorted (convertOutbounds outbounds) history net
  rw [← sortedEq] at perm sorted
  cases list : s'.sortedOutbounds net with
  | nil => rw [list] at below; cases below
  | cons first rest =>
    rw [list] at perm sorted lastEq
    have member := perm.mem_iff.mp mem_cons_self
    have least : ∀ o ∈ convertOutbounds outbounds net,
        getTagDelay first.tag history ≤ getTagDelay o.tag history := by
      grind [mem_cons.mp, pairwise_cons.mp]
    have small := eq_smallest (ne_nil_of_mem member) (.inr ⟨first, member, rfl⟩) least
    refine ⟨s', changed, first, eq, member, small, ?_⟩
    cases lastEq
    rw [← threshold_eq _ small, RoundRobin.acceptable, list, indexEq]
    refine (List.Perm.of_eq (take_eq_upTo sorted)).trans ?_
    unfold upTo
    split
    · exact perm.filter _
    · exact .refl _

/-- What is known of an outbound says the same of it as its effective delay, at this threshold.
One without an entry is refused, one with a delay of 0 accepted, and one from the cache compared
by 20000 less than its effective delay. -/
def Told (limit : ℚ) : Option (Option URLTestHistory) → Prop
  | none => limit < 65535
  | some none => limit < 2 ^ 16 ∨ timeoutDelay ≤ toUint16 limit
  | some (some his) =>
    if his.delay = 0 then 65535 ≤ limit
    else if his.isFromCache ∧ his.delay < 20000 then
      (limit < 2 ^ 16 ∧ ¬ (his.delay.toNat ≤ limit ∧ limit < his.delay.toNat + 20000)) ∨
        (2 ^ 16 ≤ limit ∧ his.delay ≤ toUint16 limit)
    else limit < 2 ^ 16 ∨ his.delay ≤ toUint16 limit

instance (limit : ℚ) (entry : Option (Option URLTestHistory)) : Decidable (Told limit entry) := by
  unfold Told
  split <;> infer_instance

theorem plain_told (nonneg : 0 ≤ limit) :
    (delay ≤ toUint16 limit ↔ (delay.toNat : ℚ) ≤ limit) ↔
      (limit < 2 ^ 16 ∨ delay ≤ toUint16 limit) := by
  by_cases fits : limit < 2 ^ 16
  · simp [fits, le_toUint16_iff delay nonneg fits]
  · have below := delay_le_of_large delay (not_lt.mp fits)
    simp [fits, below]

theorem cached_told (delay later : UInt16) (nonneg : 0 ≤ limit)
    (longer : later.toNat = delay.toNat + 20000) :
    (delay ≤ toUint16 limit ↔ (later.toNat : ℚ) ≤ limit) ↔
      (limit < 2 ^ 16 ∧ ¬ (delay.toNat ≤ limit ∧ limit < delay.toNat + 20000)) ∨
        (2 ^ 16 ≤ limit ∧ delay ≤ toUint16 limit) := by
  by_cases fits : limit < 2 ^ 16
  · have order : (delay.toNat : ℚ) + 20000 ≤ limit → (delay.toNat : ℚ) ≤ limit := by
      intro h
      linarith
    rw [le_toUint16_iff delay nonneg fits, longer, Nat.cast_add]
    simp only [fits, true_and, not_le.mpr fits, false_and, or_false, not_and, not_lt,
      Nat.cast_ofNat]
    exact ⟨fun h => h.mp, fun h => ⟨h, order⟩⟩
  · have below := delay_le_of_large later (not_lt.mp fits)
    simp [fits, not_lt.mp fits, below]

theorem told_iff (nonneg : 0 ≤ limit) (tag : String) :
    ((∃ delay, (getDelayMap history).get tag = some delay ∧ delay ≤ toUint16 limit) ↔
      ((getTagDelay tag history).toNat : ℚ) ≤ limit) ↔ Told limit (history.get tag) := by
  have longest : (timeoutDelay.toNat : ℚ) = 65535 := rfl
  cases entry : history.get tag with
  | none => simp [getDelayMap, getTagDelay, entry, Told, longest]
  | some known =>
    cases known with
    | none => grind [getDelayMap, getTagDelay, Told, Option.some.injEq, plain_told]
    | some his =>
      simp only [getDelayMap, getTagDelay, entry, Told, Option.map_some, Option.some.injEq,
        exists_eq_left', getModifiedDelay]
      by_cases untested : his.delay = 0
      · have notShort : ¬ timeoutDelay < 20000 := by decide
        simp [untested, notShort, longest]
      · simp only [untested, if_false]
        split
        · next cached =>
          have short := lt_iff_toNat_lt.mp cached.2
          apply cached_told _ _ nonneg
          have small : (20000 : UInt16).toNat = 20000 := rfl
          rw [UInt16.toNat_add, small]
          omega
        · exact plain_told _ nonneg

theorem alive_iff (nonempty : outbounds net ≠ []) :
    (Delays.update outbounds ratio history).alive out net = true ↔
      ∃ delay, (getDelayMap history).get out.tag = some delay ∧
        delay ≤ toUint16 (threshold history ratio (outbounds net)) := by
  have limit : (Delays.update outbounds ratio history).maxAcceptableDelay net =
      toUint16 (threshold history ratio (outbounds net)) := by
    rw [← threshold_eq _ (getMinDelay_eq nonempty)]
    rfl
  unfold Delays.alive
  rw [limit]
  cases found : (Delays.update outbounds ratio history).delays.get out.tag with
  | none => simp [show (getDelayMap history).get out.tag = none from found]
  | some delay => simp [show (getDelayMap history).get out.tag = some delay from found]

theorem threshold_nonneg (history : History) (atLeast : 1 ≤ ratio) (outs : List Outbound) :
    0 ≤ threshold history ratio outs := by
  have hundred : (100 : ℚ) ≤ max 100 (smallest history outs : ℚ) := le_max_left _ _
  unfold threshold
  nlinarith

theorem smallest_within (atLeast : 1 ≤ ratio) :
    (smallest history outs : ℚ) ≤ threshold history ratio outs := by
  have larger : (smallest history outs : ℚ) ≤ max 100 (smallest history outs : ℚ) :=
    le_max_right _ _
  have hundred : (100 : ℚ) ≤ max 100 (smallest history outs : ℚ) := le_max_left _ _
  unfold threshold
  nlinarith

/-- The delay table accepts the meant outbounds exactly when each of them is told right. -/
theorem alive_within_iff (history : History) (nonempty : outbounds net ≠ []) (atLeast : 1 ≤ ratio) :
    (∀ out ∈ outbounds net, (Delays.update outbounds ratio history).alive out net = true ↔
        Within history ratio (outbounds net) out) ↔
      ∀ out ∈ outbounds net, Told (threshold history ratio (outbounds net))
      (history.get out.tag) := by
  have nonneg := threshold_nonneg history atLeast (outbounds net)
  constructor
  · intro same out member
    have this := same out member
    rw [alive_iff nonempty] at this
    exact (told_iff nonneg out.tag).mp this
  · intro told out member
    rw [alive_iff nonempty]
    exact (told_iff nonneg out.tag).mpr (told out member)

/-- The threshold fits, or what the conversion leaves of it accepts all of them, or they are one. -/
def Fits (history : History) (limit : ℚ) (outs : List Outbound) : Prop :=
  limit < 2 ^ 16 ∨ (∀ out ∈ outs, getTagDelay out.tag history ≤ toUint16 limit) ∨
    ∀ out ∈ outs, ∀ other ∈ outs, out = other

theorem fits_iff {first : Outbound} (nonneg : 0 ≤ limit) (member : first ∈ outs)
    (least : (getTagDelay first.tag history).toNat = smallest history outs)
    (within : (smallest history outs : ℚ) ≤ limit) :
    (∀ out, out ∈ upTo history (toUint16 limit) first outs ↔
      out ∈ outs ∧ ((getTagDelay out.tag history).toNat : ℚ) ≤ limit) ↔
      Fits history limit outs := by
  by_cases fits : limit < 2 ^ 16
  · have firstFits :=
      (le_toUint16_iff (getTagDelay first.tag history) nonneg fits).mpr (by rwa [least])
    refine iff_of_true (fun out => ?_) (.inl fits)
    simp [upTo, firstFits, le_toUint16_iff _ nonneg fits]
  · -- all outbounds are meant, so the question is whether all are accepted
    have all : ∀ out : Outbound, ((getTagDelay out.tag history).toNat : ℚ) ≤ limit :=
      fun out => delay_le_of_large _ (not_lt.mp fits)
    simp only [Fits, fits, false_or, all, and_true, upTo]
    split
    · simp only [mem_filter, decide_eq_true_eq]
      grind
    · simp only [mem_singleton]
      grind

end

/-- Some member has been tested with success. -/
def Tested (outbounds : List Outbound) : Prop :=
  ∃ out ∈ outbounds, ∃ his, history.get out.tag = some (some his) ∧ his.delay ≠ 0

/-- After an update, round robin accepts the meant outbounds of a network exactly when the threshold
fits into 16 bits or nothing is lost by the conversion; consistent hashing and sticky sessions
exactly when every outbound of the network is told right by the delay that was measured. -/
theorem acceptable_iff (outbounds : List Outbound) (history : History)
    (tested : Tested history outbounds) (ratio : ℚ) (atLeast : 1 ≤ ratio) (net : Net) :
    let outs := convertOutbounds outbounds net
    let limit := threshold history ratio outs
    (∀ s : RoundRobin, s.outbounds = convertOutbounds outbounds → s.delayAcceptableRatio = ratio →
      ∃ s' changed, s.updateOutboundsInfo history = .ok (s', changed) ∧
        ((∀ out, out ∈ s'.acceptable net ↔ out ∈ outs ∧ Within history ratio outs out) ↔
          Fits history limit outs)) ∧
    (∀ s : ConsistentHashing, s.outbounds = convertOutbounds outbounds →
      s.delayAcceptableRatio = ratio →
      ((∀ out ∈ outs, (s.updateOutboundsInfo history).alive out net = true ↔
        Within history ratio outs out) ↔
        ∀ out ∈ outs, Told limit (history.get out.tag))) ∧
    (∀ s : StickySession, s.outbounds = convertOutbounds outbounds →
      s.delayAcceptableRatio = ratio →
      ((∀ out ∈ outs, (s.updateOutboundsInfo history).alive out net = true ↔
        Within history ratio outs out) ↔
        ∀ out ∈ outs, Told limit (history.get out.tag))) := by
  obtain ⟨member, there, _⟩ := tested
  have nonempty := ne_nil_of_mem there
  have some : convertOutbounds outbounds net ≠ [] := filterOutbounds_ne_nil nonempty net.name
  refine ⟨?_, ?_, ?_⟩
  · rintro s made rfl
    obtain ⟨s', changed, first, eq, first_mem, least, accepted⟩ := acceptable_perm nonempty made net
    refine ⟨s', changed, eq, ?_⟩
    simp only [accepted.mem_iff]
    exact fits_iff (threshold_nonneg history atLeast _) first_mem least (smallest_within atLeast)
  · rintro s made rfl
    have told := alive_within_iff history some atLeast
    rw [← made] at told ⊢
    exact told
  · rintro s made rfl
    have told := alive_within_iff history some atLeast
    rw [← made] at told ⊢
    exact told

def pair : List Outbound := [⟨"a", ["tcp"]⟩, ⟨"b", ["tcp"]⟩]

def freshPair : History := (Map.empty.set "a" (some ⟨100, false⟩)).set "b" (some ⟨300, false⟩)

theorem acceptable_fresh :
    Tested freshPair pair ∧ ∀ out ∈ convertOutbounds pair .tcp,
      ((newConsistentHashing pair 3 2).updateOutboundsInfo freshPair).alive out .tcp = true ↔
        Within freshPair 2 (convertOutbounds pair .tcp) out := by
  have tested : Tested freshPair pair :=
    ⟨⟨"a", ["tcp"]⟩, mem_cons_self, ⟨100, false⟩, rfl, by decide⟩
  refine ⟨tested, ?_⟩
  exact ((acceptable_iff pair freshPair tested 2 (by norm_num) .tcp).2.1 _ rfl rfl).mpr
    (by decide +kernel)

def cachedPair : History := (Map.empty.set "a" (some ⟨100, false⟩)).set "b" (some ⟨150, true⟩)

/-- The effective delay of `b` is 20150 and the threshold 200, but it is alive. With a delay of
40000 the threshold is 80000, which is 14464 after the conversion, and the fastest outbound is not
alive. -/
theorem cached_accepted :
    (((newConsistentHashing pair 3 2).updateOutboundsInfo cachedPair).alive ⟨"b",
      ["tcp"]⟩ .tcp = true ∧
      ¬ Within cachedPair 2 (convertOutbounds pair .tcp) ⟨"b", ["tcp"]⟩) ∧
    (((newStickySession pair 3 2).updateOutboundsInfo
        (Map.empty.set "a" (some ⟨40000, false⟩))).alive ⟨"a", ["tcp"]⟩ .tcp = false ∧
      Within (Map.empty.set "a" (some ⟨40000, false⟩)) 2
        (convertOutbounds pair .tcp) ⟨"a", ["tcp"]⟩) := by
  decide +kernel

end AiboosterEngine.Balancer
