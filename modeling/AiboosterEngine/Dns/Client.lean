import AiboosterEngine.Dns.Subnet
import AiboosterEngine.GoSem.Map

/-!
# The DNS client

`dns/client.go`: one query from the cache or from a transport, and what is kept
of the response. Times are milliseconds, the unit the cache keeps expiry in.

The message that is stored and the one that is returned are the same object, so
what happens to it after `storeCache` is in the cache as well. A query that waits
for another one with the same question is not modelled.
-/

namespace AiboosterEngine.Dns
open GoSem

inductive DomainStrategy where
  | asIS
  | preferIPv4
  | preferIPv6
  | ipv4Only
  | ipv6Only
  deriving DecidableEq, Repr

/-- `adapter.DNSQueryOptions`, as far as the client reads it. -/
structure DNSQueryOptions where
  strategy : DomainStrategy := .asIS
  disableCache : Bool := false
  rewriteTTL : Option UInt32 := none
  clientSubnet : Prefix := .zero

def rcodeSuccess : Nat := 0
def rcodeFormatError : Nat := 1
def rcodeNameError : Nat := 3

def svcbIPv4Hint : UInt16 := 4
def svcbIPv6Hint : UInt16 := 6

namespace Msg

def records (message : Msg) : List RR := message.answer ++ message.ns ++ message.extra

def ttls (message : Msg) : List UInt32 := message.records.map RR.ttl

def mapTTL (f : UInt32 → UInt32) (message : Msg) : Msg :=
  { message with
    answer := message.answer.map fun record => { record with ttl := f record.ttl }
    ns := message.ns.map fun record => { record with ttl := f record.ttl }
    extra := message.extra.map fun record => { record with ttl := f record.ttl } }

end Msg

/-- The DO bit of the TTL of an OPT record. -/
def doBit : UInt32 := 0x8000

/-- The DO bit of a word of flags, without the others. -/
def onlyDo (flags : UInt32) : UInt32 := if flags &&& doBit = doBit then doBit else 0

/-- What the client uses of `miekg/dns` for OPT records: the last one, the version that a TTL
spells, and the record `SetEdns0` appends, `Do` being read from a TTL. -/
class OptLib where
  isEdns0 : Msg → Option RR
  version : UInt32 → UInt32
  setEdns0 : UInt16 → UInt32 → RR
  isEdns0_last : ∀ message, isEdns0 message = message.extra.reverse.find? RR.isOpt
  setEdns0_isOpt : ∀ udpSize ttl, (setEdns0 udpSize ttl).isOpt = true
  setEdns0_ttl : ∀ udpSize ttl, (setEdns0 udpSize ttl).ttl = onlyDo ttl

instance : OptLib where
  isEdns0 message := message.extra.reverse.find? RR.isOpt
  version ttl := (ttl &&& 0x00FF0000) >>> 16
  setEdns0 udpSize ttl := ⟨utf8 ".", udpSize, onlyDo ttl, .opt []⟩
  isEdns0_last _ := rfl
  setEdns0_isOpt _ _ := rfl
  setEdns0_ttl _ _ := rfl

open OptLib

def fixedResponseStatus (message : Msg) (rcode : Nat) : Msg :=
  { id := message.id
    response := true
    authoritative := true
    recursionDesired := true
    recursionAvailable := true
    rcode := rcode
    question := message.question }

/-- `extractNegativeTTL`: the first SOA record decides. -/
def extractNegativeTTL (response : Msg) : Option UInt32 :=
  response.ns.findSome? fun record =>
    match record.data with
    | .soa minttl => some (if record.ttl < minttl then record.ttl else minttl)
    | _ => none

/-- One pass of the loops for the TTL of a message. Zero stands for no TTL yet. -/
def lowerTTL (ttl next : UInt32) : UInt32 :=
  if ttl = 0 ∨ 0 < next ∧ next < ttl then next else ttl

def leastTTL (ttls : List UInt32) : UInt32 := ttls.foldl lowerTTL 0

/-- `timeToLive` of a response. -/
def timeToLive (response : Msg) (rewriteTTL : Option UInt32) : UInt32 :=
  let negative := if response.answer = [] then (extractNegativeTTL response).getD 0 else 0
  let least := if negative = 0 then leastTTL response.ttls else negative
  rewriteTTL.getD least

/-- The address hints of the other family are taken out of HTTPS records. -/
def RR.filterHints (strategy : DomainStrategy) (record : RR) : RR :=
  match record.data with
  | .https value =>
    { record with data := .https (value.filter fun it =>
        if strategy = .ipv4Only then it.key != svcbIPv6Hint else it.key != svcbIPv4Hint) }
  | _ => record

def filterHints (question : Question) (strategy : DomainStrategy) (response : Msg) : Msg :=
  if question.qtype = typeHTTPS ∧ (strategy = .ipv4Only ∨ strategy = .ipv6Only) then
    { response with answer := response.answer.map (RR.filterHints strategy) }
  else response

/-- What is done about the OPT records of a response before it is returned. -/
def restrictEDNS [OptLib] (message response : Msg) : Msg :=
  match isEdns0 response with
  | none => response
  | some responseOpt =>
    let others := response.extra.filter (!·.isOpt)
    match isEdns0 message with
    | none => { response with extra := others }
    | some requestOpt =>
      if version requestOpt.ttl < version responseOpt.ttl then
        { response with extra := others ++ [setEdns0 responseOpt.rrclass responseOpt.ttl] }
      else response

section
variable (parseAddr : Bytes → Addr)

/-- `MessageToAddresses`; `M.ParseAddr` is a parameter. -/
def messageToAddresses (response : Msg) : List Addr :=
  if response.rcode ≠ rcodeSuccess then []
  else response.answer.flatMap fun answer =>
    match answer.data with
    | .a address => [Addr.fromSlice address]
    | .aaaa address => [Addr.fromSlice address]
    | .https value =>
      (value.filter fun it => it.key == svcbIPv4Hint || it.key == svcbIPv6Hint).flatMap fun it =>
        (split (utf8 ",") it.text).map parseAddr
    | _ => []

abbrev Checker := List Addr → Bool

/-- `rejected` of a response. -/
def rejects (responseChecker : Option Checker) (response : Msg) : Bool :=
  match responseChecker with
  | none => false
  | some check =>
    if response.rcode ≠ rcodeSuccess ∨ response.answer = [] then true
    else !check (messageToAddresses parseAddr response)

end

/-- What the cache keeps; an entry that was added without a lifetime has no expiry. -/
structure Entry where
  message : Msg
  expireAt : Option Nat
  deriving DecidableEq, Repr

/-- The tag is part of the key of `transportCache` only. -/
abbrev CacheKey := Question × Option Bytes

/-- A rejection in the RDRC store: the transport, the name and the type. -/
abbrev Rejection := Bytes × Bytes × UInt16

structure Client where
  disableCache : Bool := false
  disableExpire : Bool := false
  independentCache : Bool := false
  clientSubnet : Prefix := .zero
  cache : Map CacheKey Entry := .empty
  /-- The rejections in the store that have not expired, if there is a store. -/
  rdrc : Option (List Rejection) := none

/-- How `transport.Exchange` fails. -/
inductive TransportError where
  | rcode (code : Nat)
  | failed
  deriving DecidableEq, Repr

/-- What `Client.Exchange` returns; a rejected response comes with its error. -/
inductive Exchanged where
  | response (message : Msg)
  | rejected (message : Msg)
  | rejectedCached
  | loopback
  | failed
  deriving DecidableEq, Repr

def Exchanged.message : Exchanged → Option Msg
  | .response message => some message
  | .rejected message => some message
  | _ => none

/-- An aged copy of a cached message. -/
def age (message : Msg) (nowTTL : Nat) : Msg :=
  let originTTL := leastTTL message.ttls
  if 0 < originTTL then
    -- the conversion of the duration to `uint32` may wrap as well
    message.mapTTL fun ttl => ttl - (originTTL - UInt32.ofNat nowTTL)
  else message.mapTTL fun _ => UInt32.ofNat nowTTL

def Wraps (message : Msg) (nowTTL : Nat) : Prop :=
  ∃ ttl ∈ message.ttls, nowTTL + ttl.toNat < (leastTTL message.ttls).toNat

namespace Client

variable (c : Client)

def cacheKey (question : Question) (transport : Bytes) : CacheKey :=
  (question, if c.independentCache then some transport else none)

def storeCache (now : Nat) (transport : Bytes) (question : Question) (message : Msg)
    (timeToLive : UInt32) : Client :=
  if timeToLive = 0 then c
  else
    let expireAt := if c.disableExpire then none else some (now + 1000 * timeToLive.toNat)
    { c with cache := c.cache.set (c.cacheKey question transport) ⟨message, expireAt⟩ }

def loadResponse (now : Nat) (question : Question) (transport : Bytes) :
    Client × Option (Msg × Nat) :=
  let key := c.cacheKey question transport
  match c.cache.get key with
  | none => (c, none)
  | some entry =>
    if c.disableExpire then (c, some (entry.message, 0))
    else
      match entry.expireAt with
      | none => ({ c with cache := c.cache.delete key }, none)
      | some expireAt =>
        if expireAt < now then ({ c with cache := c.cache.delete key }, none)
        else
          let nowTTL := (expireAt - now) / 1000
          (c, some (age entry.message nowTTL, nowTTL))

/-- The request as it is sent. -/
def request (message : Msg) (options : DNSQueryOptions) : Msg :=
  let clientSubnet := if options.clientSubnet.isValid then options.clientSubnet else c.clientSubnet
  if clientSubnet.isValid then (setClientSubnet message clientSubnet).1 else message

end Client

def isSimpleOpt (record : RR) : Bool :=
  match record.data with
  | .opt option => 0 < record.rrclass && record.ttl == 0 && option.isEmpty
  | _ => false

def isSimpleRequest (message : Msg) (options : DNSQueryOptions) : Bool :=
  message.question.length == 1 && message.ns.isEmpty &&
    (match message.extra with
    | [] => true
    | [record] => isSimpleOpt record
    | _ => false) &&
    !options.clientSubnet.isValid

/-- The strategy leaves nothing to ask. -/
def strategyRejects (question : Question) (strategy : DomainStrategy) : Bool :=
  (question.qtype == typeA && strategy == .ipv6Only) ||
    (question.qtype == typeAAAA && strategy == .ipv4Only)

namespace Client
variable (parseAddr : Bytes → Addr) (c : Client)

/-- `disableCache` before the response is there. -/
def bypassesCache (message : Msg) (options : DNSQueryOptions) : Bool :=
  !isSimpleRequest (c.request message options) options || c.disableCache || options.disableCache

def loadRDRC (transport : Bytes) (question : Question) : Bool :=
  match c.rdrc with
  | none => false
  | some saved => decide ((transport, question.name, question.qtype) ∈ saved)

def saveRDRC (transport : Bytes) (question : Question) : Client :=
  { c with rdrc := c.rdrc.map ((transport, question.name, question.qtype) :: ·) }

variable (now : Nat)

def respond [OptLib] (transport : Bytes) (question : Question) (message : Msg)
    (disableCache : Bool) (options : DNSQueryOptions) (responseChecker : Option Checker)
    (response : Msg) :
    Client × Exchanged :=
  let disableCache := disableCache ||
    (response.rcode != rcodeSuccess && response.rcode != rcodeNameError)
  if rejects parseAddr responseChecker response then
    (if disableCache then c else c.saveRDRC transport question, .rejected response)
  else
    let response := filterHints question options.strategy response
    let ttl := timeToLive response options.rewriteTTL
    let response := restrictEDNS message { response.mapTTL (fun _ => ttl) with id := message.id }
    (if disableCache then c else c.storeCache now transport question response ttl,
      .response response)

def exchange [OptLib] (transport : Bytes) (contextTransport : Option Bytes) (message : Msg)
    (options : DNSQueryOptions) (responseChecker : Option Checker)
    (upstream : Msg → Except TransportError Msg) : Client × Exchanged :=
  match message.question with
  | [] => (c, .response (fixedResponseStatus message rcodeFormatError))
  | question :: _ =>
    if strategyRejects question options.strategy then
      (c, .response (fixedResponseStatus message rcodeSuccess))
    else
      let sent := c.request message options
      let disableCache := c.bypassesCache message options
      let loaded := if disableCache then (c, none) else c.loadResponse now question transport
      match loaded with
      | (c, some (response, _)) => (c, .response { response with id := sent.id })
      | (c, none) =>
        if contextTransport = some transport then (c, .loopback)
        else if !disableCache && responseChecker.isSome && c.loadRDRC transport question then
          (c, .rejectedCached)
        else
          match upstream sent with
          | .error .failed => (c, .failed)
          | .error (.rcode code) =>
            c.respond parseAddr now transport question sent disableCache options responseChecker
              (fixedResponseStatus sent code)
          | .ok response =>
            c.respond parseAddr now transport question sent disableCache options
              responseChecker response

/-- No entry of the cache answers the question at this time. -/
def Misses (question : Question) (transport : Bytes) : Prop :=
  ∀ entry, c.cache.get (c.cacheKey question transport) = some entry →
    c.disableExpire = false ∧ ∀ expireAt, entry.expireAt = some expireAt → expireAt < now

/-- The query with this first question is sent to the transport. -/
structure Asks (c : Client) (now : Nat) (transport : Bytes) (contextTransport : Option Bytes)
    (message : Msg) (options : DNSQueryOptions) (responseChecker : Option Checker)
    (question : Question) : Prop where
  first : message.question.head? = some question
  strategy : strategyRejects question options.strategy = false
  misses : c.bypassesCache message options = false → c.Misses now question transport
  noLoop : contextTransport ≠ some transport
  notRejected : c.bypassesCache message options = false → responseChecker.isSome = true →
    c.loadRDRC transport question = false

/-- The client after a load that found nothing: an expired entry is gone. -/
def missed (question : Question) (transport : Bytes) : Client :=
  (c.loadResponse now question transport).1

/-- A load that finds nothing leaves nothing under the key and keeps all else. -/
theorem missed_eq {c : Client} {now : Nat} {question : Question} {transport : Bytes}
    (misses : c.Misses now question transport) :
    c.loadResponse now question transport = (c.missed now question transport, none) ∧
    (∃ cache, c.missed now question transport = { c with cache := cache }) ∧
    (c.missed now question transport).cache.get (c.cacheKey question transport) = none := by
  unfold missed loadResponse
  dsimp only
  cases found : c.cache.get (c.cacheKey question transport) with
  | none => exact ⟨rfl, ⟨c.cache, rfl⟩, found⟩
  | some entry =>
    obtain ⟨expires, expired⟩ := misses entry found
    have gone : (c.cache.delete (c.cacheKey question transport)).get
      (c.cacheKey question transport) = none := by
      rw [Map.get_delete, if_pos rfl]
    dsimp only
    rw [expires, if_neg Bool.false_ne_true]
    cases expiry : entry.expireAt with
    | none => exact ⟨rfl, ⟨_, rfl⟩, gone⟩
    | some expireAt =>
      dsimp only
      rw [if_pos (expired expireAt expiry)]
      exact ⟨rfl, ⟨_, rfl⟩, gone⟩

/-- The client when the transport is asked. -/
def asking (transport : Bytes) (message : Msg) (options : DNSQueryOptions)
    (question : Question) : Client :=
  if c.bypassesCache message options then c else c.missed now question transport

section
variable {parseAddr : Bytes → Addr} {c : Client} {now : Nat} {transport : Bytes}
  {contextTransport : Option Bytes} {message : Msg} {options : DNSQueryOptions}
  {responseChecker : Option Checker} {question : Question}

theorem exchange_of_asks [OptLib]
    (asks : c.Asks now transport contextTransport message options responseChecker question)
    {upstream : Msg → Except TransportError Msg} {response : Msg}
    (answered : upstream (c.request message options) = .ok response) :
    c.exchange parseAddr now transport contextTransport message options responseChecker upstream =
      (c.asking now transport message options question).respond parseAddr now transport question
        (c.request message options)
        (c.bypassesCache message options) options responseChecker response := by
  obtain ⟨first, strategy, misses, noLoop, notRejected⟩ := asks
  obtain ⟨rest, questions⟩ : ∃ rest, message.question = question :: rest := by
    cases h : message.question with
    | nil => rw [h] at first; cases first
    | cons q rest => rw [h] at first; cases first; exact ⟨rest, rfl⟩
  unfold exchange asking
  rw [questions]
  simp only [strategy, Bool.false_eq_true, if_false]
  cases bypasses : c.bypassesCache message options with
  | true =>
    simp only [if_true, if_neg noLoop, Bool.not_true, Bool.false_and, Bool.false_eq_true,
      if_false, answered]
  | false =>
    obtain ⟨load, ⟨cache, kept⟩, _⟩ := missed_eq (misses bypasses)
    have same : (c.missed now question transport).loadRDRC transport question =
      c.loadRDRC transport question := by
      rw [kept]
      rfl
    have goesOn : (responseChecker.isSome &&
      (c.missed now question transport).loadRDRC transport question) = false := by
      grind
    simp only [Bool.false_eq_true, if_false, load, if_neg noLoop, Bool.not_false, Bool.true_and,
      goesOn, answered]

theorem asks_of_empty (empty : c.cache = .empty) (noStore : c.rdrc = none)
    (first : message.question.head? = some question)
    (strategy : strategyRejects question options.strategy = false)
    (noLoop : contextTransport ≠ some transport) :
    c.Asks now transport contextTransport message options responseChecker question := by
  refine ⟨first, strategy, fun _ entry there => ?_, noLoop, fun _ _ => ?_⟩
  · rw [empty] at there
    cases there
  · rw [loadRDRC, noStore]

end
end Client

end AiboosterEngine.Dns
