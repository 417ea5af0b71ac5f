import AiboosterEngine.Adapters.Registry
import AiboosterEngine.GoSem.Steps

/-!
# The DNS server manager

`Create`, `Remove` and `Start` of `TransportManager`, which keeps a default server
and at most one FakeIP server beside the list, the map by tag and the dependent tags.
-/

namespace AiboosterEngine.Adapters

open GoSem List

/-- `C.DNSTypeFakeIP`. -/
def dnsTypeFakeIP : String := "fakeip"

structure TransportManager where
  defaultTag : String
  started : Bool := false
  stage : StartStage := .stateInitialize
  transports : List Adapter := []
  transportByTag : Map String Adapter := .empty
  dependByTag : Map String (List String) := .empty
  defaultTransport : Option Adapter := none
  fakeIPTransport : Option Adapter := none

open TransportManager

namespace TransportManager

variable (m : TransportManager)

def wantsDefault (tag : String) : Bool :=
  tag = m.defaultTag || (m.defaultTag = "" && m.defaultTransport = none)

/-- The end of `Create`: the transport is entered everywhere, then asked for its type. -/
def enter (transport : Adapter) : Outcome String Unit × TransportManager :=
  let m := { m with
    transports := m.transports ++ [transport]
    transportByTag := m.transportByTag.set transport.tag transport
    dependByTag := addDependBy transport.tag transport.dependencies m.dependByTag }
  if m.wantsDefault transport.tag && transport.type = dnsTypeFakeIP then
    (.err "default server cannot be fakeip", m)
  else
    let m := if m.wantsDefault transport.tag
      then { m with defaultTransport := some transport } else m
    if transport.type = dnsTypeFakeIP then
      if m.fakeIPTransport ≠ none then (.err "multiple fakeip server are not supported", m)
      else (.ok (), { m with fakeIPTransport := some transport })
    else (.ok (), m)

/-- `Create`, with what the constructor makes, how the stages of the new transport start and how the
old one closes. -/
def create (tag : String) (made : Except String Made)
    (starts : StartStage → Except String Unit) (close : Except String Unit) :
    Outcome String Unit × TransportManager :=
  if tag = "" then (.err errInvalid, m)
  else
    match made with
    | .error e => (.err e, m)
    | .ok made =>
      match if m.started then startStages serverWording (made.named tag) starts listStartStages
        else .ok () with
      | .error e => (.err e, m)
      | .ok () =>
        match m.transportByTag.get tag with
        | none => m.enter (made.named tag)
        | some existsTransport =>
          match if m.started then close else .ok () with
          | .error e => (.err ("close " ++ existsTransport.path serverWording ++ ": " ++ e), m)
          | .ok () =>
            match takeOut m.transports existsTransport with
            | none => (.panicked, m)
            | some transports => { m with transports }.enter (made.named tag)

/-- The end of `Remove`: the dependent tags. How the transport closes is not looked at. -/
def release (transport : Adapter) : Outcome String Unit × TransportManager :=
  if dependBy m.dependByTag transport.tag ≠ [] then
    (.err ("server[" ++ transport.tag ++ "] is depended by " ++
      ", ".intercalate (dependBy m.dependByTag transport.tag)), m)
  else
    (.ok (),
      { m with dependByTag := dropDependBy transport.tag transport.dependencies m.dependByTag })

def remove (tag : String) : Outcome String Unit × TransportManager :=
  match m.transportByTag.get tag with
  | none => (.err errInvalid, m)
  | some transport =>
    let m := { m with transportByTag := m.transportByTag.delete tag }
    match takeOut m.transports transport with
    | none => (.panicked, m)
    | some transports =>
      let m := { m with transports }
      if m.defaultTransport = some transport then
        match m.transports with
        | nextTransport :: _ =>
          -- the test is the wrong way round
          if nextTransport.type ≠ dnsTypeFakeIP then (.err "default server cannot be fakeip", m)
          else { m with defaultTransport := some nextTransport }.release transport
        | [] => { m with defaultTransport := none }.release transport
      else m.release transport

def chooseDefault (fallback : Except String Adapter) : Except String TransportManager :=
  match m.defaultTransport with
  | some _ => .ok m
  | none =>
    if m.defaultTag ≠ "" then .error ("default DNS server not found: " ++ m.defaultTag)
    else
      match fallback with
      | .error e => .error ("default DNS server fallback: " ++ e)
      | .ok defaultTransport => .ok
        { m with
          transports := m.transports ++ [defaultTransport]
          transportByTag := m.transportByTag.set defaultTransport.tag defaultTransport
          defaultTransport := some defaultTransport }

/-- `Start`, with what the fallback makes and how the transports start. -/
def start (stage : StartStage) (fallback : Except String Adapter)
    (starts : StartStage → Adapter → Except String Unit) : Partial String Unit × TransportManager :=
  if m.started ∧ stage.toNat ≤ m.stage.toNat then (some .panicked, m)
  else
    let m := { m with started := true, stage }
    if stage = .stateStart then
      match m.chooseDefault fallback with
      | .error e => (some (.err e), m)
      | .ok m =>
        (startResult serverWording
          (startTransports (starts .stateStart) m.transportByTag m.transports
          (m.transports.length + 1)), m)
    else
      match startEach serverWording stage starts m.transports with
      | .error e => (some (.err e), m)
      | .ok () => (some (.ok ()), m)

end TransportManager

/-- A call, with what the code outside the manager answers. -/
inductive TransportCall where
  | create (tag : String) (made : Except String Made) (starts : StartStage → Except String Unit)
      (close : Except String Unit)
  | remove (tag : String)
  | start (stage : StartStage) (fallback : Except String Adapter)
      (starts : StartStage → Adapter → Except String Unit)

def TransportManager.step (m : TransportManager) : TransportCall → Option TransportManager
  | .create tag made starts close =>
    let (result, m) := m.create tag made starts close
    after (some result) m
  | .remove tag =>
    let (result, m) := m.remove tag
    after (some result) m
  | .start stage fallback starts =>
    let (result, m) := m.start stage fallback starts
    after result m

namespace TransportManager
variable {m m' : TransportManager} {tag : String} {made : Except String Made}
  {starts : StartStage → Except String Unit} {close : Except String Unit}

/-- `Create` comes to enter the transport: the constructor makes it, its stages start, and the
transport that has the tag closes. -/
structure Enters (m : TransportManager) (tag : String) (made : Except String Made)
    (starts : StartStage → Except String Unit) (close : Except String Unit)
    (transport : Adapter) : Prop where
  tag_ne : tag ≠ ""
  tag_eq : transport.tag = tag
  constructed : ∃ object : Made, made = .ok object ∧ transport = object.named tag
  starts : m.started = true → startStages serverWording transport starts listStartStages = .ok ()
  closes : m.started = true → m.transportByTag.get tag ≠ none → close = .ok ()

theorem create_cases (agrees : Agrees m.transports m.transportByTag) :
    (∃ e, m.create tag made starts close = (.err e, m)) ∨
    ∃ transport, m.Enters tag made starts close transport ∧
      ((m.transportByTag.get tag = none ∧ m.create tag made starts close = m.enter transport) ∨
        ∃ old, m.transportByTag.get tag = some old ∧ m.create tag made starts close =
          { m with transports := m.transports.erase old }.enter transport) := by
  unfold create
  by_cases empty : tag = ""
  · rw [if_pos empty]
    exact .inl ⟨_, rfl⟩
  rw [if_neg empty]
  cases made with
  | error e => exact .inl ⟨_, rfl⟩
  | ok object =>
    dsimp only
    obtain ⟨e, failed⟩ | ⟨began, startsOk⟩ := ifStarted_cases m.started
      (startStages serverWording (object.named tag) starts listStartStages)
    · rw [failed]
      exact .inl ⟨_, rfl⟩
    · rw [began]
      cases there : m.transportByTag.get tag with
      | none =>
        refine .inr ⟨object.named tag, ⟨empty, rfl, ⟨object, rfl, rfl⟩, startsOk, ?_⟩,
          .inl ⟨rfl, rfl⟩⟩
        intro _ taken
        exact absurd there taken
      | some old =>
        dsimp only
        obtain ⟨e, failed⟩ | ⟨ended, closes⟩ := ifStarted_cases m.started close
        · rw [failed]
          exact .inl ⟨_, rfl⟩
        · rw [ended, agrees.takeOut there]
          exact .inr ⟨object.named tag,
            ⟨empty, rfl, ⟨object, rfl, rfl⟩, startsOk, fun started _ => closes started⟩,
            .inr ⟨old, rfl, rfl⟩⟩

variable {transport : Adapter} {fallback : Except String Adapter}

/-- A transport that is not refused is entered as the default and as the FakeIP transport. -/
theorem enter_accepted (accepted : transport.type = dnsTypeFakeIP →
      m.wantsDefault transport.tag = false ∧ m.fakeIPTransport = none) :
    m.enter transport = (.ok (),
      { m with
        transports := m.transports ++ [transport]
        transportByTag := m.transportByTag.set transport.tag transport
        dependByTag := addDependBy transport.tag transport.dependencies m.dependByTag
        defaultTransport :=
          if m.wantsDefault transport.tag then some transport else m.defaultTransport
        fakeIPTransport :=
          if transport.type = dnsTypeFakeIP then some transport else m.fakeIPTransport }) := by
  have wants : ∀ transports transportByTag dependByTag,
      { m with transports, transportByTag, dependByTag }.wantsDefault transport.tag =
        m.wantsDefault transport.tag := fun _ _ _ => rfl
  unfold enter
  dsimp only
  rw [wants]
  by_cases fake : transport.type = dnsTypeFakeIP
  · obtain ⟨other, first⟩ := accepted fake
    simp [fake, other, first]
  · cases m.wantsDefault transport.tag <;> simp [fake]

/-- A transport that nothing depends on, and that is the default only as the last one, is
removed. -/
theorem remove_accepted (agrees : Agrees m.transports m.transportByTag)
    (found : m.transportByTag.get tag = some transport)
    (last : m.defaultTransport = some transport → m.transports = [transport])
    (unneeded : dependBy m.dependByTag tag = []) :
    m.remove tag = (.ok (),
      { m with
        transports := m.transports.erase transport
        transportByTag := m.transportByTag.delete tag
        dependByTag := dropDependBy tag transport.dependencies m.dependByTag
        defaultTransport :=
          if m.defaultTransport = some transport then none else m.defaultTransport }) := by
  obtain ⟨_, rfl⟩ := (agrees.byTag tag transport).mp found
  unfold remove
  rw [found]
  dsimp only
  rw [agrees.takeOut found]
  dsimp only
  by_cases default : m.defaultTransport = some transport
  · rw [if_pos default, last default]
    simp [release, unneeded, default]
  · rw [if_neg default]
    simp [release, unneeded, default]

/-- What `Start` makes of the structures. -/
inductive Begun (m : TransportManager) (stage : StartStage) (fallback : Except String Adapter) :
    TransportManager → Prop
  | same {started : Bool} {stage' : StartStage} :
      Begun m stage fallback { m with started, stage := stage' }
  | fallback {defaultTransport : Adapter} :
      stage = .stateStart → m.defaultTransport = none → m.defaultTag = "" →
        fallback = .ok defaultTransport →
      Begun m stage fallback
        { m with
          started := true
          stage
          transports := m.transports ++ [defaultTransport]
          transportByTag := m.transportByTag.set defaultTransport.tag defaultTransport
          defaultTransport := some defaultTransport }

attribute [local grind intro] Begun

theorem chooseDefault_begun
    (h : { m with started := true, stage := .stateStart }.chooseDefault fallback = .ok m') :
    Begun m .stateStart fallback m' := by
  cases given : m.defaultTransport <;> cases fallback <;> grind [chooseDefault]

theorem start_begun (m : TransportManager) (stage : StartStage) (fallback : Except String Adapter)
    (starts : StartStage → Adapter → Except String Unit) :
    Begun m stage fallback (m.start stage fallback starts).2 := by
  unfold start
  by_cases early : m.started ∧ stage.toNat ≤ m.stage.toNat
  · rw [if_pos early]
    exact .same
  · rw [if_neg early]
    dsimp only
    by_cases first : stage = .stateStart
    · subst first
      rw [if_pos rfl]
      cases chosen : { m with started := true, stage := .stateStart }.chooseDefault fallback with
      | error e => exact .same
      | ok m' => exact chooseDefault_begun chosen
    · rw [if_neg first]
      cases startEach serverWording stage starts m.transports <;> exact .same

/-- The condition on a call. A new FakeIP server neither is to be the default nor comes when there
is one; the FakeIP server is not replaced, nor the default under a tag that is not the default's.
The FakeIP server and a server with dependent tags are not removed, and the default only as the last
one. The fallback is no FakeIP server. -/
def Allowed (m : TransportManager) : TransportCall → Prop
  | .create tag made starts close =>
    ∀ transport, m.Enters tag made starts close transport →
      (transport.type = dnsTypeFakeIP → m.wantsDefault tag = false ∧ m.fakeIPTransport = none) ∧
      ∀ old, m.transportByTag.get tag = some old →
        (m.defaultTransport = some old → tag = m.defaultTag) ∧ m.fakeIPTransport ≠ some old
  | .remove tag =>
    ∀ transport, m.transportByTag.get tag = some transport →
      (m.defaultTransport = some transport → m.transports = [transport]) ∧
      dependBy m.dependByTag tag = [] ∧ m.fakeIPTransport ≠ some transport
  | .start stage fallback _ =>
    stage = .stateStart → m.defaultTag = "" → m.defaultTransport = none →
      ∀ defaultTransport, fallback = .ok defaultTransport → defaultTransport.type ≠ dnsTypeFakeIP

/-- The list and the map agree; the default is in the list and no FakeIP server; the FakeIP server
is in the list; and a manager that is free to choose its default has one, unless there is no
server. -/
structure Kept (m : TransportManager) : Prop where
  agrees : Agrees m.transports m.transportByTag
  defaultTransport : ∀ transport, m.defaultTransport = some transport →
    transport ∈ m.transports ∧ transport.type ≠ dnsTypeFakeIP
  fakeIPTransport : ∀ transport, m.fakeIPTransport = some transport → transport ∈ m.transports
  empty : m.defaultTag = "" → m.defaultTransport = none → m.transports = []

/-- The last part of `Create`, for a manager that has no transport with the tag in its list. -/
theorem kept_enter (accepted : transport.type = dnsTypeFakeIP →
      m.wantsDefault transport.tag = false ∧ m.fakeIPTransport = none)
    (agrees : Agrees (m.transports ++ [transport]) (m.transportByTag.set transport.tag transport))
    (default : ∀ other, m.defaultTransport = some other →
      (transport.tag = m.defaultTag ∨ other ∈ m.transports) ∧ other.type ≠ dnsTypeFakeIP)
    (fakeIP : ∀ other, m.fakeIPTransport = some other → other ∈ m.transports) :
    (m.enter transport).1 = .ok () ∧ (m.enter transport).2.Kept := by
  rw [enter_accepted accepted]
  have last : transport ∈ m.transports ++ [transport] := mem_append_right _ (mem_singleton.mpr rfl)
  refine ⟨rfl, agrees, ?_, ?_, ?_⟩
  · intro other given
    cases wants : m.wantsDefault transport.tag with
    | true => grind
    | false => grind [wantsDefault, Bool.false_eq_true, mem_append_left]
  · grind
  · grind [wantsDefault, Bool.false_eq_true]

theorem kept_create (h : m.Kept) (allowed : m.Allowed (.create tag made starts close)) :
    (∃ e, m.create tag made starts close = (.err e, m)) ∨
      ((m.create tag made starts close).1 = .ok () ∧ (m.create tag made starts close).2.Kept) := by
  obtain failed | ⟨transport, enters, ⟨free, same⟩ | ⟨old, found, same⟩⟩ := create_cases h.agrees
  · exact .inl failed
  · right
    rw [same]
    cases enters.tag_eq
    apply kept_enter (allowed transport enters).1 (h.agrees.append free) _ h.fakeIPTransport
    intro other given
    obtain ⟨mem, type⟩ := h.defaultTransport other given
    exact ⟨.inr mem, type⟩
  · right
    rw [same]
    cases enters.tag_eq
    obtain ⟨accepted, replaced⟩ := allowed transport enters
    obtain ⟨notDefault, notFakeIP⟩ := replaced old found
    apply kept_enter (m := { m with transports := m.transports.erase old }) accepted
      (h.agrees.replace found)
    · intro other given
      obtain ⟨mem, type⟩ := h.defaultTransport other given
      refine ⟨?_, type⟩
      by_cases same : other = old
      · exact .inl (notDefault (same ▸ given))
      · exact .inr ((mem_erase_of_ne same).mpr mem)
    · intro other given
      apply (mem_erase_of_ne _).mpr (h.fakeIPTransport other given)
      rintro rfl
      exact notFakeIP given

theorem kept_remove (h : m.Kept) (allowed : m.Allowed (.remove tag)) :
    (m.transportByTag.get tag = none ∧ m.remove tag = (.err errInvalid, m)) ∨
      ((m.remove tag).1 = .ok () ∧ (m.remove tag).2.Kept) := by
  cases found : m.transportByTag.get tag with
  | none =>
    left
    refine ⟨rfl, ?_⟩
    unfold remove
    rw [found]
  | some transport =>
    right
    obtain ⟨last, unneeded, notFakeIP⟩ := allowed transport found
    rw [remove_accepted h.agrees found last unneeded]
    obtain ⟨agrees, default, fakeIP, empty⟩ := h
    exact ⟨rfl, agrees.erase found, by grind, by grind, by grind⟩

theorem agrees_begun {stage : StartStage} (h : m.Kept) (begun : Begun m stage fallback m') :
    Agrees m'.transports m'.transportByTag := by
  cases begun with
  | same => exact h.agrees
  | @fallback defaultTransport _ none chosen _ =>
    -- there was no server at all
    have nothing := h.empty chosen none
    exact h.agrees.append (h.agrees.get_of_nil nothing defaultTransport.tag)

theorem kept_begun {stage : StartStage}
    {starts : StartStage → Adapter → Except String Unit} (h : m.Kept)
    (allowed : m.Allowed (.start stage fallback starts))
    (begun : Begun m stage fallback m') : m'.Kept := by
  have agrees := agrees_begun h begun
  obtain ⟨_, default, fakeIP, empty⟩ := h
  cases begun with
  | same => exact ⟨agrees, default, fakeIP, empty⟩
  | @fallback defaultTransport first none chosen made =>
    have type := allowed first chosen none defaultTransport made
    exact ⟨agrees, by grind, by grind, nofun⟩

theorem kept_step {c : TransportCall} (h : m.Kept) (allowed : m.Allowed c)
    (taken : m.step c = some m') :
    m'.Kept := by
  cases c with
  | create tag made starts close =>
    have left : m' = (m.create tag made starts close).2 := eq_of_after taken
    grind [kept_create h allowed]
  | remove tag =>
    have left : m' = (m.remove tag).2 := eq_of_after taken
    grind [kept_remove h allowed]
  | start stage fallback starts =>
    have left : m' = (m.start stage fallback starts).2 := eq_of_after taken
    rw [left]
    exact kept_begun h allowed (start_begun _ _ _ _)

theorem kept_of_run {defaultTag : String} (run : Run step Allowed { defaultTag } m) : m.Kept := by
  apply run.invariant
  · exact ⟨agrees_empty, nofun, nofun, fun _ _ => rfl⟩
  · intro s c s' h allowed taken
    exact kept_step h allowed taken

/-- List, map, default and FakeIP transport are as they were. -/
structure Unchanged (m m' : TransportManager) : Prop where
  transports : m'.transports = m.transports
  transportByTag : m'.transportByTag = m.transportByTag
  defaultTransport : m'.defaultTransport = m.defaultTransport
  fakeIPTransport : m'.fakeIPTransport = m.fakeIPTransport

end TransportManager

/-- **Default and FakeIP servers stay registered.** In every run of a new manager whose calls are
allowed the default is in the list and no FakeIP server, and the FakeIP server is in the list; an
allowed `Remove` succeeds, and an allowed call that fails changes nothing. -/
theorem transports_stay {defaultTag : String} {m : TransportManager}
    (run : Run step Allowed { defaultTag } m) :
    (∀ transport, m.defaultTransport = some transport →
      transport ∈ m.transports ∧ transport.type ≠ dnsTypeFakeIP) ∧
    (∀ transport, m.fakeIPTransport = some transport → transport ∈ m.transports) ∧
    (∀ tag, m.Allowed (.remove tag) → m.transportByTag.get tag ≠ none → (m.remove tag).1 = .ok ()) ∧
    (∀ tag made starts close e, m.Allowed (.create tag made starts close) →
      (m.create tag made starts close).1 = .err e →
      m.Unchanged (m.create tag made starts close).2) ∧
    ∀ tag e, m.Allowed (.remove tag) → (m.remove tag).1 = .err e →
      m.Unchanged (m.remove tag).2 := by
  have kept := kept_of_run run
  refine ⟨kept.defaultTransport, kept.fakeIPTransport, ?_, ?_, ?_⟩
  · intro tag allowed registered
    obtain ⟨missing, _⟩ | ⟨ok, _⟩ := kept_remove kept allowed
    · exact absurd missing registered
    · exact ok
  · intro tag made starts close e allowed failed
    obtain ⟨_, same⟩ | ⟨ok, _⟩ := kept_create kept allowed
    · rw [same]
      exact ⟨rfl, rfl, rfl, rfl⟩
    · rw [ok] at failed
      cases failed
  · intro tag e allowed failed
    obtain ⟨_, same⟩ | ⟨ok, _⟩ := kept_remove kept allowed
    · rw [same]
      exact ⟨rfl, rfl, rfl, rfl⟩
    · rw [ok] at failed
      cases failed

/-- A `Create` in which nothing fails. -/
def createsServer (id : Nat) (type tag : String) : TransportCall :=
  .create tag (.ok ⟨id, type, []⟩) (fun _ => .ok ()) (.ok ())

/-- A default, a FakeIP server and a third one, which is removed. -/
theorem servers_stay : ∃ m, Run step Allowed { defaultTag := "" } m ∧
    m.transports = [⟨0, "udp", "a", []⟩, ⟨1, "fakeip", "b", []⟩] ∧
    m.defaultTransport = some ⟨0, "udp", "a", []⟩ ∧
      m.fakeIPTransport = some ⟨1, "fakeip", "b", []⟩ ∧
    (∀ transport, m.fakeIPTransport = some transport → transport ∈ m.transports) := by
  have creates : ∀ (m : TransportManager) id type tag, m.transportByTag.get tag = none →
      (type = dnsTypeFakeIP → m.wantsDefault tag = false ∧ m.fakeIPTransport = none) →
      m.Allowed (createsServer id type tag) := by
    rintro m id type tag free accepted transport ⟨_, _, ⟨object, given, rfl⟩, _, _⟩
    cases given
    exact ⟨accepted, fun old found => by rw [free] at found; cases found⟩
  obtain ⟨m, ran, transports, default, fakeIP⟩ : ∃ m,
      Run step Allowed { defaultTag := "" } m ∧
      m.transports = [⟨0, "udp", "a", []⟩, ⟨1, "fakeip", "b", []⟩] ∧
      m.defaultTransport = some ⟨0, "udp", "a", []⟩ ∧
        m.fakeIPTransport = some ⟨1, "fakeip", "b", []⟩ := by
    refine ⟨_, (((Run.start.next (creates _ 0 "udp" "a" rfl (by decide)) rfl).next
      (creates _ 1 "fakeip" "b" rfl fun _ => ⟨by decide, rfl⟩) rfl).next
      (creates _ 2 "udp" "c" rfl (by decide)) rfl).next (a := .remove "c") ?_ rfl, rfl, rfl, rfl⟩
    intro transport found
    cases found
    exact ⟨by decide, rfl, by decide⟩
  exact ⟨m, ran, transports, default, fakeIP, (transports_stay ran).2.1⟩

/-- With two servers the default cannot be removed, and is out of the list when that is said; before
a FakeIP server it can, and leaves that as the default; and a FakeIP server that is replaced is
kept. -/
theorem servers_lost :
    (∃ m, exec step { defaultTag := "" } [createsServer 0 "udp" "a", createsServer 1 "udp" "b"] =
        some m ∧ (m.remove "a").1 = .err "default server cannot be fakeip" ∧
      (m.remove "a").2.transports = [⟨1, "udp", "b", []⟩] ∧
      (m.remove "a").2.defaultTransport = some ⟨0, "udp", "a", []⟩) ∧
    (∃ m, exec step { defaultTag := "" }
        [createsServer 0 "udp" "a", createsServer 1 "fakeip" "b", .remove "a"] = some m ∧
      m.defaultTransport = some ⟨1, "fakeip", "b", []⟩) ∧
    (∃ m, exec step { defaultTag := "" }
        [createsServer 0 "udp" "a", createsServer 1 "fakeip" "b",
          createsServer 2 "udp" "b"] = some m ∧
      m.transports = [⟨0, "udp", "a", []⟩, ⟨2, "udp", "b", []⟩] ∧
      m.fakeIPTransport = some ⟨1, "fakeip", "b", []⟩) :=
  ⟨⟨_, rfl, rfl, rfl, rfl⟩, ⟨_, rfl, rfl⟩, ⟨_, rfl, rfl, rfl⟩⟩

end AiboosterEngine.Adapters
