import AiboosterEngine.Ray2sing.Chain
import Mathlib.Logic.Relation

/-!
# Tags of a subscription

Every entry `GenerateConfigLite` appends gets a number of its own behind its
name, and a detour only to an entry appended before it.
-/

namespace AiboosterEngine.Ray2sing
open GoSem Singbox List

def TagBefore (a b : String) : Prop :=
  ∃ s t m n, a = numbered s m ∧ b = numbered t n ∧ m < n

variable {a : String} {e : Emitted} {emitted : List Emitted} {p : Parsers} {options : Options}

theorem TagBefore.trans {b c : String} (ab : TagBefore a b) (bc : TagBefore b c) :
    TagBefore a c := by
  obtain ⟨s, t, m, n, rfl, rfl, first⟩ := ab
  obtain ⟨t', u, n', k, same, rfl, second⟩ := bc
  have := numbered_inj same
  exact ⟨s, u, m, k, rfl, rfl, by omega⟩

theorem TagBefore.irrefl : ¬ TagBefore a a := by
  rintro ⟨s, t, m, n, rfl, same, less⟩
  have := numbered_inj same
  omega

/-- The entries have numbers from `lo` on and below `hi`, and they grow. -/
structure Numbered (lo hi : Nat) (emitted : List Emitted) : Prop where
  le : lo ≤ hi
  bounds : ∀ e ∈ emitted, ∃ tag n, e.tag = numbered tag n ∧ lo ≤ n ∧ n < hi
  grow : emitted.Pairwise fun a b => TagBefore a.tag b.tag

theorem Numbered.nil (n : Nat) : Numbered n n [] := ⟨.refl, by simp, by simp⟩

theorem Numbered.single {tag : String} {n : Nat} (h : e.tag = numbered tag n) :
    Numbered n (n + 1) [e] := by
  refine ⟨by omega, ?_, by simp⟩
  intro e' mem
  obtain rfl := mem_singleton.mp mem
  exact ⟨tag, n, h, by omega, by omega⟩

theorem Numbered.append {lo mid hi : Nat} {before after : List Emitted}
    (first : Numbered lo mid before)
    (second : Numbered mid hi after) : Numbered lo hi (before ++ after) := by
  have le := first.le
  have le' := second.le
  refine ⟨by omega, ?_, ?_⟩
  · intro e mem
    rcases mem_append.mp mem with mem | mem
    · obtain ⟨tag, n, eq, low, high⟩ := first.bounds e mem
      exact ⟨tag, n, eq, by omega, by omega⟩
    · obtain ⟨tag, n, eq, low, high⟩ := second.bounds e mem
      exact ⟨tag, n, eq, by omega, by omega⟩
  · refine pairwise_append.mpr ⟨first.grow, second.grow, ?_⟩
    intro a ha b hb
    obtain ⟨s, m, eq, _, high⟩ := first.bounds a ha
    obtain ⟨t, n, eq', low, _⟩ := second.bounds b hb
    exact ⟨s, t, m, n, eq, eq', by omega⟩

theorem Numbered.distinct {lo hi : Nat} (h : Numbered lo hi emitted) :
    (emitted.map Emitted.tag).Nodup := by
  apply pairwise_map.mpr
  apply h.grow.imp
  intro a b before same
  rw [same] at before
  exact before.irrefl

def inOrder (emits : List (Option Emitted)) : List Emitted := emits.reverse.filterMap id

/-- The tag that is carried on is that of an entry, and so is every detour, of an entry appended
before. -/
structure LineInv (start : Nat) (s : ChainState) : Prop where
  numbers : Numbered start s.counter (inOrder s.emits)
  carried : s.detourTag = "" ∨ ∃ e ∈ inOrder s.emits, e.tag = s.detourTag
  back : ∀ e ∈ inOrder s.emits, ∀ d, e.dialer? = some d → d.detour ≠ "" →
    ∃ e', [e', e].Sublist (inOrder s.emits) ∧ e'.tag = d.detour

theorem inOrder_none (emits : List (Option Emitted)) : inOrder (none :: emits) = inOrder emits := by
  simp [inOrder]

theorem inOrder_some (e : Emitted) (emits : List (Option Emitted)) :
    inOrder (some e :: emits) = inOrder emits ++ [e] := by
  simp [inOrder]

theorem lineInv_step {hop : Bytes} {start : Nat} {s : ChainState} (inv : LineInv start s) :
    LineInv start (chainStep p hop s) := by
  obtain ⟨numbers, carried, back⟩ := inv
  rcases chainStep_cases p hop s with ⟨_, step⟩ | ⟨outend, e, _, he, step⟩
  · rw [step]
    refine ⟨?_, ?_, ?_⟩ <;> simp only [inOrder_none] <;> assumption
  · obtain ⟨⟨tag, htag⟩, dialer⟩ := emit_spec he
    rw [step]
    refine ⟨?_, ?_, ?_⟩ <;> simp only [inOrder_some]
    · exact numbers.append (.single htag)
    · exact .inr ⟨e, by simp, rfl⟩
    · intro e' mem d hd set
      rcases mem_append.mp mem with mem | mem
      · obtain ⟨e'', before, same⟩ := back e' mem d hd set
        exact ⟨e'', before.trans (sublist_append_left _ _), same⟩
      · -- the entry is the new one, and its detour the tag carried to it
        obtain rfl := mem_singleton.mp mem
        rw [hd] at dialer
        obtain ⟨d₀, _, rfl⟩ := Option.map_eq_some_iff.mp dialer.symm
        rcases carried with empty | ⟨e'', mem, same⟩
        · exact absurd empty set
        · exact ⟨e'', (singleton_sublist.mpr mem).append (.refl [e']), same⟩

theorem chainLoop_lineInv (p : Parsers) (start : Nat) (hops : List Bytes) :
    LineInv start (chainLoop p start hops) := by
  unfold chainLoop
  induction hops with
  | nil =>
    refine ⟨.nil start, .inl rfl, fun e mem => ?_⟩
    cases mem
  | cons hop hops ih => exact lineInv_step ih

theorem lineLoop_numbered (p : Parsers) (counter : Nat) (configs : List Bytes) :
    ∃ hi, Numbered counter hi (emittedInOrder (lineLoop p counter configs)) := by
  induction configs generalizing counter with
  | nil => exact ⟨counter, .nil counter⟩
  | cons config rest ih =>
    unfold lineLoop
    split
    · exact ih counter
    · obtain ⟨hi, later⟩ := ih (chainLoop p counter (hopsOf config)).counter
      exact ⟨hi, (chainLoop_lineInv p counter (hopsOf config)).numbers.append later⟩

/-- The entry with the tag `a` has the detour `b`. -/
def DetourTo (options : Options) (a b : String) : Prop :=
  ∃ e d, InResult options e ∧ e.tag = a ∧ e.dialer? = some d ∧ d.detour ≠ "" ∧ d.detour = b

theorem fullConfig_mem (h : fullConfig emitted = .ok options) (he : InResult options e) :
    e ∈ emitted := by
  rw [fullConfig_eq h] at he
  cases e with
  | outbound | endpoint =>
    obtain ⟨e, mem, same⟩ := mem_filterMap.mp he
    cases e <;> cases same
    exact mem

theorem tags_perm (emitted : List Emitted) :
    ((emitted.filterMap Emitted.outbound?).map (·.tag)
      ++ (emitted.filterMap Emitted.endpoint?).map (·.tag)).Perm (emitted.map Emitted.tag) := by
  induction emitted with
  | nil => exact .nil
  | cons e rest ih =>
    cases e with
    | outbound o => exact ih.cons o.tag
    | endpoint ep => exact perm_middle.trans (ih.cons ep.tag)

theorem TagBefore.of_detours {b : String} (each : ∀ a b, DetourTo options a b → TagBefore b a)
    (path : Relation.TransGen (DetourTo options) a b) : TagBefore b a := by
  induction path with
  | single detour => exact each _ _ detour
  | tail _ detour ih => exact (each _ _ detour).trans ih

theorem emissions_back {input : Bytes} {d : DialerOptions}
    (mem : e ∈ emittedInOrder (emissions p input)) (hd : e.dialer? = some d) (set : d.detour ≠ "") :
    ∃ line ∈ emissions p input, ∃ e', [e', e].Sublist (inOrder line.2) ∧ e'.tag = d.detour ∧
      TagBefore e'.tag e.tag := by
  obtain ⟨line, hline, mem⟩ := mem_flatMap.mp mem
  obtain ⟨start, hemits⟩ := lineLoop_mem hline
  obtain ⟨numbers, _, back⟩ := chainLoop_lineInv p start line.1
  rw [← hemits] at numbers back
  obtain ⟨e', before, same⟩ := back e mem d hd set
  have grow := numbers.grow.sublist before
  exact ⟨line, hline, e', before, same, rel_of_pairwise_cons grow mem_cons_self⟩

/-- For every text that is accepted: the tags of all outbounds and endpoints differ; every
detour is the tag of an entry that the same line gave before; no detour leads round. -/
theorem generateConfigLite_tags {input : Bytes} (h : generateConfigLite p input = .ok options) :
    (options.outbounds.map (·.tag) ++ options.endpoints.map (·.tag)).Nodup ∧
      (∀ e d, InResult options e → e.dialer? = some d → d.detour ≠ "" →
        ∃ line ∈ emissions p input, ∃ e', [e', e].Sublist (inOrder line.2) ∧ InResult options e' ∧
          e'.tag = d.detour) ∧
      ∀ tag, ¬ Relation.TransGen (DetourTo options) tag tag := by
  unfold generateConfigLite at h
  refine ⟨?_, ?_, ?_⟩
  · obtain ⟨hi, numbers⟩ := lineLoop_numbered p 0 (expandDecodedConfig input)
    have all := (tags_perm (emittedInOrder (emissions p input))).nodup_iff.mpr numbers.distinct
    rw [fullConfig_eq h]
    dsimp only
    exact all
  · intro e d he hd set
    obtain ⟨line, hline, e', before, same, _⟩ := emissions_back (fullConfig_mem h he) hd set
    have appended : e' ∈ emittedInOrder (emissions p input) :=
      mem_flatMap.mpr ⟨line, hline, before.subset mem_cons_self⟩
    exact ⟨line, hline, e', before, fullConfig_inResult h appended, same⟩
  · intro tag cycle
    refine TagBefore.irrefl (TagBefore.of_detours ?_ cycle)
    rintro _ _ ⟨e, d, he, rfl, hd, set, rfl⟩
    obtain ⟨_, _, e', _, same, before⟩ := emissions_back (fullConfig_mem h he) hd set
    exact same ▸ before

/-- A chain of two hops. -/
def twoHops : Bytes := utf8 "socks://a:1 -> socks://b:1"

theorem generateConfigLite_tags_twoHops :
    ¬ Relation.TransGen (DetourTo ⟨[socks "socks § 0" "", socks "socks § 1" "socks § 0"], []⟩)
      "socks § 1" "socks § 1" :=
  (generateConfigLite_tags (show generateConfigLite socksOnly twoHops = .ok _ by rfl)).2.2 _

end AiboosterEngine.Ray2sing
