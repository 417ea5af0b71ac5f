import AiboosterEngine.Dns.Message

/-!
# The client subnet of a request

`dns/extension_edns0_subnet.go`. The search for an OPT record goes through the
additional records and forgets the one it has found when another record follows,
unless it has found a subnet option in it.
-/

namespace AiboosterEngine.Dns
open GoSem List EDNS0 Subnet RR

/-- `dns.EDNS0SUBNET`. -/
def edns0Subnet : UInt16 := 8

def EDNS0.isSubnet : EDNS0 → Bool
  | .subnet _ => true
  | .other _ _ => false

/-- The loop `findExists`, from the record with this index on: the index of the OPT record, and in
it that of the subnet option. -/
def findExists : List RR → Nat → Option Nat → Option Nat × Option Nat
  | [], _, optRecord => (optRecord, none)
  | record :: rest, i, _ =>
    match record.data with
    | .opt option =>
      match option.findIdx? isSubnet with
      | some j => (some i, some j)
      | none => findExists rest (i + 1) (some i)
    -- the assertion fails and leaves nil
    | _ => findExists rest (i + 1) none

def Subnet.assign (option : Subnet) (clientSubnet : Prefix) : Subnet :=
  { option with
    family := if clientSubnet.addr.is4 then 1 else 2
    sourceNetmask := clientSubnet.bitsByte
    address := clientSubnet.addr.asSlice }

def EDNS0.assign (clientSubnet : Prefix) : EDNS0 → EDNS0
  | .subnet option => .subnet (option.assign clientSubnet)
  | .other code data => .other code data

variable (clientSubnet : Prefix) (subnetOption : Option Nat)

/-- The options of the OPT record, with the subnet option found or a new one. -/
def assignOption (option : List EDNS0) : List EDNS0 :=
  match subnetOption with
  | none => option ++ [.subnet (assign { code := edns0Subnet } clientSubnet)]
  | some j => option.modify j (assign clientSubnet)

def RR.assign (record : RR) : RR :=
  match record.data with
  | .opt option => { record with data := .opt (assignOption clientSubnet subnetOption option) }
  | _ => record

/-- `&dns.OPT{}` with its header. -/
def newOpt : RR := { name := utf8 ".", rrclass := 0, ttl := 0, data := .opt [] }

/-- `setClientSubnet` with `clone` false: the message it returns, and the argument as it leaves
it. -/
def setClientSubnetInPlace (message : Msg) (clientSubnet : Prefix) : Msg × Msg :=
  match findExists message.extra 0 none with
  | (none, subnetOption) =>
    ({ message with extra := message.extra ++ [newOpt.assign clientSubnet subnetOption] }, message)
  | (some i, subnetOption) =>
    let message :=
      { message with extra := message.extra.modify i (assign clientSubnet subnetOption) }
    (message, message)

/-- `SetClientSubnet`, likewise: where there is an OPT record, it works on a copy. -/
def setClientSubnet (message : Msg) (clientSubnet : Prefix) : Msg × Msg :=
  match findExists message.extra 0 none with
  | (none, subnetOption) =>
    ({ message with extra := message.extra ++ [newOpt.assign clientSubnet subnetOption] }, message)
  | (some _, _) => ((setClientSubnetInPlace message clientSubnet).1, message)

section
variable {before after : List RR} {record : RR} {option : List EDNS0}

theorem findExists_others (h : ∀ r ∈ before, r.isOpt = false) (rest : List RR) (i : Nat)
    (found : Option Nat) :
    findExists (before ++ rest) i found =
      findExists rest (i + before.length) (if before = [] then found else none) := by
  induction before generalizing i found with
  | nil => rfl
  | cons r before ih =>
    have other := h r mem_cons_self
    have step : findExists (r :: before ++ rest) i found =
      findExists (before ++ rest) (i + 1) none := by
      unfold isOpt at other
      rw [cons_append, findExists]
      cases kind : r.data with
      | opt option => rw [kind] at other; cases other
      | _ => rfl
    rw [step, ih (fun r mem => h r (mem_cons_of_mem _ mem)), ite_self, if_neg (cons_ne_nil _ _),
      length_cons]
    congr 1
    omega

theorem findExists_opt (h : ∀ r ∈ before, r.isOpt = false) (h' : ∀ r ∈ after, r.isOpt = false)
    (data : record.data = .opt option) : findExists (before ++ record :: after) 0 none =
      match option.findIdx? isSubnet with
      | some j => (some before.length, some j)
      | none => (if after = [] then some before.length else none, none) := by
  rw [findExists_others h, ite_self, Nat.zero_add, findExists, data]
  dsimp only
  cases option.findIdx? isSubnet with
  | some j => rfl
  | none =>
    have rest := findExists_others h' [] (before.length + 1) (some before.length)
    rw [append_nil] at rest
    rw [rest]
    rfl

end

def RR.options (record : RR) : List EDNS0 :=
  match record.data with
  | .opt option => option
  | _ => []

/-- The options of all OPT records. -/
def optionsOf (records : List RR) : List EDNS0 := records.flatMap options

/-- One OPT record with one subnet option, that of the prefix; all else is as it was, also in the
message handed in. -/
structure SubnetSet (message : Msg) (clientSubnet : Prefix) (returned left : Msg) : Prop where
  oneOpt : returned.extra.countP isOpt = 1
  oneSubnet : (optionsOf returned.extra).countP isSubnet = 1
  values : ∀ option, .subnet option ∈ optionsOf returned.extra →
    option.family = (if clientSubnet.addr.is4 then 1 else 2) ∧
    clientSubnet.bits = some option.sourceNetmask.toNat ∧ option.address = clientSubnet.addr.asSlice
  keptRecords : returned.extra.filter (!·.isOpt) = message.extra.filter (!·.isOpt)
  keptOptions : (optionsOf returned.extra).filter (!·.isSubnet) =
    (optionsOf message.extra).filter (!·.isSubnet)
  rest : { returned with extra := message.extra } = message
  unmodified : left = message

/-- There is no OPT record; or it has one subnet option; or it has none and stands at the end. -/
def Settable (records : List RR) : Prop :=
  (∀ r ∈ records, r.isOpt = false) ∨ (optionsOf records).countP isSubnet = 1 ∨
    ((optionsOf records).countP isSubnet = 0 ∧
      ∃ others last, records = others ++ [last] ∧ last.isOpt = true)

/-- An element found in a list, and the list with another in its place. -/
theorem modify_found {α : Type} {p : α → Bool} {l : List α} {j : Nat} (h : l.findIdx? p = some j) :
    ∃ before x after, l = before ++ x :: after ∧ (∀ y ∈ before, p y = false) ∧ p x = true ∧
      ∀ f, l.modify j f = before ++ f x :: after := by
  induction l generalizing j with
  | nil => cases h
  | cons a l ih =>
    rw [findIdx?_cons] at h
    by_cases here : p a = true
    · rw [if_pos here] at h
      cases h
      exact ⟨[], a, l, rfl, forall_mem_nil _, here, fun _ => rfl⟩
    · rw [if_neg here] at h
      obtain ⟨k, found, rfl⟩ := Option.map_eq_some_iff.mp h
      obtain ⟨before, x, after, rfl, others, holds, modify⟩ := ih found
      refine ⟨a :: before, x, after, rfl, ?_, holds, fun f => ?_⟩
      · exact forall_mem_cons.mpr ⟨by simpa using here, others⟩
      · rw [modify_succ_cons, modify]
        rfl

theorem modify_length {α : Type} (before : List α) (x : α) (after : List α) (f : α → α) :
    (before ++ x :: after).modify before.length f = before ++ f x :: after := by
  induction before with
  | nil => rfl
  | cons a before ih => rw [cons_append, length_cons, modify_succ_cons, ih]; rfl

theorem countP_modify {α : Type} {p : α → Bool} {f : α → α} (kept : ∀ x, p (f x) = p x)
    (l : List α) (j : Nat) :
    (l.modify j f).countP p = l.countP p := by
  induction l generalizing j with
  | nil => rw [modify_nil]
  | cons x l ih => grind

theorem EDNS0.isSubnet_assign (option : EDNS0) :
    (option.assign clientSubnet).isSubnet = option.isSubnet := by
  cases option with
  | subnet option => rfl
  | other code data => rfl

theorem RR.isOpt_assign (record : RR) :
    (record.assign clientSubnet subnetOption).isOpt = record.isOpt := by
  unfold assign
  split
  · rename_i data
    rw [isOpt, isOpt, data]
  · rfl

theorem single_opt {records : List RR} (h : records.countP isOpt ≤ 1) :
    (∀ r ∈ records, r.isOpt = false) ∨
    ∃ before record after option, records = before ++ record :: after ∧ record.data = .opt option ∧
      (∀ r ∈ before, r.isOpt = false) ∧ ∀ r ∈ after, r.isOpt = false := by
  cases found : records.find? isOpt with
  | none =>
    left
    intro r mem
    simpa using find?_eq_none.mp found r mem
  | some record =>
    right
    obtain ⟨isOpt, before, after, rfl, others⟩ := find?_eq_some_iff_append.mp found
    have rest : after.countP RR.isOpt = 0 := by grind
    obtain ⟨option, data⟩ : ∃ option, record.data = .opt option := by grind [isOpt]
    refine ⟨before, record, after, option, rfl, data, fun r mem => by simpa using others r mem, ?_⟩
    intro r mem
    simpa using countP_eq_zero.mp rest r mem

section
variable {before after : List RR} {record : RR} {option : List EDNS0} {clientSubnet : Prefix}
  {message : Msg}

theorem optionsOf_others (h : ∀ r ∈ before, r.isOpt = false) : optionsOf before = [] := by
  rw [optionsOf, flatMap_eq_nil_iff]
  intro r mem
  have other := h r mem
  unfold isOpt at other
  unfold options
  cases kind : r.data with
  | opt option => rw [kind] at other; cases other
  | _ => rfl

theorem around_opt (h : ∀ r ∈ before, r.isOpt = false) (h' : ∀ r ∈ after, r.isOpt = false)
    (data : record.data = .opt option) :
    (before ++ record :: after).countP isOpt = 1 ∧ optionsOf (before ++ record :: after) = option ∧
      (before ++ record :: after).filter (!·.isOpt) = before ++ after := by
  have isOpt : record.isOpt = true := by rw [isOpt, data]
  have options : record.options = option := by rw [options, data]
  have none : before.countP RR.isOpt = 0 := countP_eq_zero.mpr (by simpa using h)
  have none' : after.countP RR.isOpt = 0 := countP_eq_zero.mpr (by simpa using h')
  refine ⟨?_, ?_, ?_⟩
  · rw [countP_append, countP_cons_of_pos isOpt, none, none']
  · have first := optionsOf_others h
    have last := optionsOf_others h'
    unfold optionsOf at *
    rw [flatMap_append, flatMap_cons, first, last, options, nil_append, append_nil]
  · grind [filter_cons_of_neg, filter_eq_self.mpr]

theorem assign_values (valid : clientSubnet.isValid = true) (option : Subnet) :
    (option.assign clientSubnet).family = (if clientSubnet.addr.is4 then 1 else 2) ∧
    clientSubnet.bits = some (option.assign clientSubnet).sourceNetmask.toNat ∧
    (option.assign clientSubnet).address = clientSubnet.addr.asSlice := by
  refine ⟨rfl, ?_, rfl⟩
  obtain ⟨n, bits⟩ := Option.isSome_iff_exists.mp valid
  have small := (clientSubnet.inRange n bits).2
  have most := Prefix.bitLen_le clientSubnet.addr
  have byte : (UInt8.ofNat n).toNat = n := by rw [UInt8.toNat_ofNat']; omega
  rw [Subnet.assign, Prefix.bitsByte, bits]
  exact congrArg some byte.symm

variable {subnetOption : Option Nat}

/-- Where the search has found an OPT record, that record is assigned in a copy. -/
theorem setClientSubnet_found (same : message.extra = before ++ record :: after)
    (found : findExists message.extra 0 none = (some before.length, subnetOption)) :
    setClientSubnet message clientSubnet =
      ({ message with extra := before ++ record.assign clientSubnet subnetOption :: after },
        message) := by
  rw [setClientSubnet, found]
  dsimp only
  rw [setClientSubnetInPlace, found]
  dsimp only
  rw [same, modify_length]

/-- Around an OPT record whose options the function has assigned, the request is as it should be. -/
theorem subnetSet_of_assigned (valid : clientSubnet.isValid = true)
    (h : ∀ r ∈ before, r.isOpt = false) (h' : ∀ r ∈ after, r.isOpt = false)
    (data : record.data = .opt option) (records : message.extra.filter (!·.isOpt) = before ++ after)
    (options : (optionsOf message.extra).filter (!·.isSubnet) = option.filter (!·.isSubnet))
    (assigned : ∃ front subnet back, assignOption clientSubnet subnetOption option =
      front ++ .subnet (assign subnet clientSubnet) :: back ∧
      (∀ o ∈ front ++ back, o.isSubnet = false) ∧ front ++ back = option.filter (!·.isSubnet)) :
    SubnetSet message clientSubnet
      { message with
        extra := before ++ record.assign clientSubnet subnetOption :: after } message := by
  obtain ⟨front, subnet, back, same, others, kept⟩ := assigned
  have data' : (record.assign clientSubnet subnetOption).data =
      .opt (front ++ .subnet (assign subnet clientSubnet) :: back) := by
    rw [RR.assign, data, ← same]
  obtain ⟨one, inside, outside⟩ := around_opt h h' data'
  have none := fun o mem => others o (mem_append_left _ mem)
  have none' := fun o mem => others o (mem_append_right _ mem)
  refine ⟨one, ?_, ?_, outside.trans records.symm, ?_, rfl, rfl⟩
  · show (optionsOf (before ++ _ :: after)).countP _ = 1
    rw [inside, countP_append, countP_cons_of_pos rfl,
      countP_eq_zero.mpr (by simpa using none), countP_eq_zero.mpr (by simpa using none')]
  · intro other mem
    have mem : .subnet other ∈ optionsOf (before ++
      record.assign clientSubnet subnetOption :: after) := mem
    rw [inside, mem_append, mem_cons] at mem
    rcases mem with early | here | late
    · exact absurd (none _ early) (by simp [isSubnet])
    · cases here
      exact assign_values valid subnet
    · exact absurd (none' _ late) (by simp [isSubnet])
  · show (optionsOf (before ++ _ :: after)).filter _ = _
    rw [inside, options, ← kept, filter_append, filter_cons_of_neg (by simp [isSubnet]),
      ← filter_append]
    exact filter_eq_self.mpr (by simpa using others)

theorem assigned_new (none : ∀ o ∈ option, o.isSubnet = false) :
    ∃ front subnet back, assignOption clientSubnet Option.none option =
      front ++ .subnet (assign subnet clientSubnet) :: back ∧
      (∀ o ∈ front ++ back, o.isSubnet = false) ∧ front ++ back = option.filter (!·.isSubnet) := by
  refine ⟨option, { code := edns0Subnet }, [], rfl, ?_, ?_⟩
  · rw [append_nil]
    exact none
  · rw [append_nil]
    exact (filter_eq_self.mpr (by simpa using none)).symm

theorem assigned_found {j : Nat} (found : option.findIdx? isSubnet = some j)
    (one : option.countP isSubnet = 1) :
    ∃ front subnet back, assignOption clientSubnet (some j) option =
      front ++ .subnet (assign subnet clientSubnet) :: back ∧
      (∀ o ∈ front ++ back, o.isSubnet = false) ∧ front ++ back = option.filter (!·.isSubnet) := by
  obtain ⟨front, x, back, rfl, none, isSubnet, modify⟩ := modify_found found
  cases x with
  | other code data => cases isSubnet
  | subnet subnet =>
    have none' : ∀ o ∈ back, o.isSubnet = false := by
      grind [countP_cons_of_pos, isSubnet, countP_eq_zero.mp]
    have others : ∀ o ∈ front ++ back, o.isSubnet = false := by grind
    refine ⟨front, subnet, back, modify _, others, ?_⟩
    rw [filter_append, filter_cons_of_neg (by simp [isSubnet]), ← filter_append]
    exact (filter_eq_self.mpr (by simpa using others)).symm

/-- The last record is an OPT record exactly when nothing stands behind the only one. -/
theorem last_opt_iff (h' : ∀ r ∈ after, r.isOpt = false) (data : record.data = .opt option) :
    (∃ others last, before ++ record :: after = others ++ [last] ∧ last.isOpt = true) ↔
      after = [] := by
  constructor
  · rintro ⟨others, last, same, isOpt⟩
    rcases eq_nil_or_concat after with empty | ⟨front, x, rfl⟩
    · exact empty
    · grind [append_cons, append_assoc, append_inj', singleton_inj.mp]
  · rintro rfl
    exact ⟨before, record, rfl, by rw [isOpt, data]⟩

theorem subnetSet_new (valid : clientSubnet.isValid = true)
    (none : ∀ r ∈ message.extra, r.isOpt = false) :
    SubnetSet message clientSubnet (setClientSubnet message clientSubnet).1
      (setClientSubnet message clientSubnet).2 := by
  have found : findExists message.extra 0 Option.none = (Option.none, Option.none) := by
    have others := findExists_others none [] 0 Option.none
    rwa [append_nil, ite_self] at others
  rw [setClientSubnet, found]
  refine subnetSet_of_assigned valid none (forall_mem_nil _) rfl ?_ ?_
    (assigned_new (forall_mem_nil _))
  · rw [append_nil]
    exact filter_eq_self.mpr (by simpa using none)
  · rw [optionsOf_others none]

section
variable (valid : clientSubnet.isValid = true) (same : message.extra = before ++ record :: after)
  (data : record.data = .opt option) (h : ∀ r ∈ before, r.isOpt = false)
  (h' : ∀ r ∈ after, r.isOpt = false)
include valid same data h h'

/-- The only OPT record has a subnet option: the first one is assigned. -/
theorem subnetSet_found_iff {j : Nat} (first : option.findIdx? isSubnet = some j) :
    SubnetSet message clientSubnet (setClientSubnet message clientSubnet).1
      (setClientSubnet message clientSubnet).2 ↔ option.countP isSubnet = 1 := by
  obtain ⟨_, inside, outside⟩ := around_opt h h' data
  have found := findExists_opt h h' data
  rw [← same] at inside outside found
  rw [first] at found
  rw [setClientSubnet_found same found]
  constructor
  · intro set
    have data' : (record.assign clientSubnet (some j)).data =
      .opt (assignOption clientSubnet (some j) option) := by
      rw [RR.assign, data]
    have oneSubnet := set.oneSubnet
    rwa [(around_opt h h' data').2.1, assignOption, countP_modify (isSubnet_assign _)] at oneSubnet
  · intro one
    exact subnetSet_of_assigned valid h h' data outside (by rw [inside]) (assigned_found first one)

/-- The only OPT record has no subnet option: it is forgotten when another record comes behind
it. -/
theorem subnetSet_absent_iff (first : option.findIdx? isSubnet = none) :
    SubnetSet message clientSubnet (setClientSubnet message clientSubnet).1
      (setClientSubnet message clientSubnet).2 ↔ after = [] := by
  obtain ⟨one, inside, outside⟩ := around_opt h h' data
  have found := findExists_opt h h' data
  rw [← same] at one inside outside found
  rw [first] at found
  have absent : ∀ o ∈ option, o.isSubnet = false := findIdx?_eq_none_iff.mp first
  by_cases atEnd : after = []
  · refine ⟨fun _ => atEnd, fun _ => ?_⟩
    rw [if_pos atEnd] at found
    rw [setClientSubnet_found same found]
    exact subnetSet_of_assigned valid h h' data outside (by rw [inside]) (assigned_new absent)
  · refine ⟨fun set => ?_, fun empty => absurd empty atEnd⟩
    rw [if_neg atEnd] at found
    -- a second OPT record comes behind
    have two := set.oneOpt
    rw [setClientSubnet, found] at two
    dsimp only at two
    rw [countP_append, one] at two
    cases two

end

end

/-- **One client subnet.** For a message with at most one OPT record, the function sets the subnet
as it should exactly when there is no OPT record, or it has one subnet option, or it has none and is
the last additional record. -/
theorem setClientSubnet_iff (message : Msg) (clientSubnet : Prefix)
    (atMostOne : message.extra.countP isOpt ≤ 1) (valid : clientSubnet.isValid = true) :
    SubnetSet message clientSubnet (setClientSubnet message clientSubnet).1
      (setClientSubnet message clientSubnet).2 ↔ Settable message.extra := by
  rcases single_opt atMostOne with none | ⟨before, record, after, option, same, data, h, h'⟩
  · exact iff_of_true (subnetSet_new valid none) (.inl none)
  · have there : ¬ ∀ r ∈ message.extra, r.isOpt = false := by
      intro none
      have other := none record (by rw [same]; simp)
      rw [isOpt, data] at other
      cases other
    unfold Settable
    rw [or_iff_right there, same, (around_opt h h' data).2.1, last_opt_iff h' data]
    cases first : option.findIdx? isSubnet with
    | some j =>
      have present : option.countP isSubnet ≠ 0 := by
        obtain ⟨front, x, back, rfl, _, isSubnet, _⟩ := modify_found first
        rw [countP_append, countP_cons_of_pos isSubnet]
        omega
      rw [subnetSet_found_iff valid same data h h' first, or_iff_left fun none => present none.1]
    | none =>
      have absent : ∀ o ∈ option, o.isSubnet = false := findIdx?_eq_none_iff.mp first
      have zero : option.countP isSubnet = 0 := countP_eq_zero.mpr (by simpa using absent)
      rw [subnetSet_absent_iff valid same data h h' first, zero, or_iff_right (by decide),
        and_iff_right rfl]

/-- A record of another type. -/
def plainRecord : RR := { name := utf8 ".", rrclass := 1, ttl := 0, data := .a [192, 0, 2, 1] }

/-- The prefix 10.0.0.0/8. -/
def tenSlash8 : Prefix := .prefixFrom (.v4 ⟨[10, 0, 0, 0], rfl⟩) 8

theorem setClientSubnet_lastOpt :
    SubnetSet { extra := [plainRecord, newOpt] } tenSlash8
      (setClientSubnet { extra := [plainRecord, newOpt] } tenSlash8).1
      (setClientSubnet { extra := [plainRecord, newOpt] } tenSlash8).2 :=
  (setClientSubnet_iff { extra := [plainRecord, newOpt] } tenSlash8 (by decide) rfl).mpr
    (.inr (.inr ⟨by decide, [plainRecord], newOpt, rfl, rfl⟩))

/-- Behind the OPT record comes another record: the request gets a second OPT record. -/
theorem setClientSubnet_two_opts :
    (setClientSubnet { extra := [newOpt, plainRecord] } tenSlash8).1.extra.countP isOpt = 2 ∧
    ¬ SubnetSet { extra := [newOpt, plainRecord] } tenSlash8
      (setClientSubnet { extra := [newOpt, plainRecord] } tenSlash8).1
      (setClientSubnet { extra := [newOpt, plainRecord] } tenSlash8).2 := by
  refine ⟨by decide, fun set => ?_⟩
  exact absurd set.oneOpt (by decide)

end AiboosterEngine.Dns
