import AiboosterEngine.Dns.Message
import AiboosterEngine.GoSem.Map
import AiboosterEngine.GoSem.Strings

/-!
# The hosts transport

`Exchange` and `getIpOfSslip` of `dns/transport/hosts/hosts.go`, for whatever the
two regular expressions match.
-/

namespace AiboosterEngine.Dns.Hosts
open GoSem

variable {Addr : Type}

/-- A regular expression gives the first group of a match; `parseAddr` is `netip.ParseAddr`. -/
structure Libraries (Addr : Type) where
  canonicalName : Bytes → Bytes
  dot : ∀ name, (canonicalName name).getLast? = some 46
  ipv4Regex : Bytes → Option Bytes
  ipv6Regex : Bytes → Option Bytes
  parseAddr : Bytes → Option Addr

/-- A file is its `Lookup`. -/
structure Transport (Addr : Type) where
  files : List (Bytes → List Addr) := []
  predefined : Map Bytes (List Addr) := .empty

inductive Response (Addr : Type) where
  | fixed (addresses : List Addr)
  | nameError
  deriving DecidableEq, Repr

variable (libs : Libraries Addr)

def getIpOfSslip (sni : Bytes) : List Addr :=
  if !(utf8 ".sslip.io").isSuffixOf sni then []
  else
    let ipstr :=
      match libs.ipv4Regex sni with
      | some ip => replaceByte 45 46 ip
      | none => ((libs.ipv6Regex sni).map (replaceByte 45 58)).getD []
    (libs.parseAddr ipstr).toList

def unlessNone (addresses : List Addr) : Option (List Addr) :=
  if addresses.isEmpty then none else some addresses

variable (t : Transport Addr)

def Transport.listed (domain : Bytes) : Option (List Addr) :=
  (t.predefined.get domain).or (t.files.findSome? fun file => unlessNone (file domain))

def Transport.exchange (question : Question) : Response Addr :=
  let domain := libs.canonicalName question.name
  if question.qtype = typeA ∨ question.qtype = typeAAAA then
    match (t.listed domain).or (unlessNone (getIpOfSslip libs domain)) with
    | some addresses => .fixed addresses
    | none => .nameError
  else .nameError

/-- A canonical name ends in the dot, and never in the suffix that is asked for. -/
theorem getIpOfSslip_canonical (name : Bytes) :
    getIpOfSslip libs (libs.canonicalName name) = [] := by
  have other : (utf8 ".sslip.io").isSuffixOf (libs.canonicalName name) = false := by
    rw [Bool.eq_false_iff]
    intro suffix
    obtain ⟨front, same⟩ := List.isSuffixOf_iff_suffix.mp suffix
    have last : (utf8 ".sslip.io").getLast? = some 111 := by decide
    have dot := libs.dot name
    rw [← same, List.getLast?_append, last] at dot
    cases dot
  simp [getIpOfSslip, other]

/-- A question for an address is answered by what is listed and by nothing else. -/
theorem exchange_iff (question : Question)
    (asks : question.qtype = typeA ∨ question.qtype = typeAAAA) (addresses : List Addr) :
    t.exchange libs question = .fixed addresses ↔
      t.listed (libs.canonicalName question.name) = some addresses := by
  unfold Transport.exchange
  rw [if_pos asks, getIpOfSslip_canonical]
  cases t.listed (libs.canonicalName question.name) <;> simp [unlessNone]

def loopback : Libraries Bytes where
  canonicalName name := if name.getLast? = some 46 then name else name ++ [46]
  dot name := by split <;> simp [*]
  ipv4Regex name := if name = utf8 "127-0-0-1.sslip.io" then some (utf8 "127-0-0-1") else none
  ipv6Regex _ := none
  parseAddr text := if text = utf8 "127.0.0.1" then some [127, 0, 0, 1] else none

theorem exchange_predefined :
    Transport.exchange loopback ⟨[], Map.empty.set (utf8 "a.") [[127, 0, 0, 1]]⟩
      ⟨utf8 "a", typeA, 1⟩ = .fixed [[127, 0, 0, 1]] :=
  (exchange_iff loopback _ _ (.inl rfl) _).mpr rfl

/-- The address is read from the name, but not from the name with the dot. -/
theorem sslip_not_answered :
    getIpOfSslip loopback (utf8 "127-0-0-1.sslip.io") = [[127, 0, 0, 1]] ∧
      Transport.exchange loopback {} ⟨utf8 "127-0-0-1.sslip.io.", typeA, 1⟩ = .nameError := by
  decide

end AiboosterEngine.Dns.Hosts
