import AiboosterEngine.GoSem.AddrRange

/-!
# DNS messages

The messages of `github.com/miekg/dns` as far as the DNS client reads and writes
them. The type of a record is that of its data. The header of an OPT record is
read differently: its class is the size of a UDP packet, and its TTL holds the
extended rcode, the version and the DO bit.
-/

namespace AiboosterEngine.Dns
open GoSem

structure Question where
  name : Bytes
  qtype : UInt16
  qclass : UInt16
  deriving DecidableEq, Repr

def typeA : UInt16 := 1
def typeSOA : UInt16 := 6
def typeAAAA : UInt16 := 28
def typeOPT : UInt16 := 41
def typeHTTPS : UInt16 := 65

def knownTypes : List UInt16 := [typeA, typeSOA, typeAAAA, typeOPT, typeHTTPS]

/-- `EDNS0_SUBNET`. -/
structure Subnet where
  code : UInt16
  family : UInt16 := 0
  sourceNetmask : UInt8 := 0
  sourceScope : UInt8 := 0
  address : Bytes := []
  deriving DecidableEq, Repr

inductive EDNS0 where
  | subnet (option : Subnet)
  | other (code : UInt16) (data : Bytes)
  deriving DecidableEq, Repr

/-- A parameter of an HTTPS record, with its text. -/
structure SVCBKeyValue where
  key : UInt16
  text : Bytes
  deriving DecidableEq, Repr

inductive RData where
  | a (address : Bytes)
  | aaaa (address : Bytes)
  | soa (minttl : UInt32)
  | https (value : List SVCBKeyValue)
  | opt (option : List EDNS0)
  | other (rrtype : { t : UInt16 // t ∉ knownTypes }) (data : Bytes)
  deriving DecidableEq, Repr

structure RR where
  name : Bytes
  rrclass : UInt16
  ttl : UInt32
  data : RData
  deriving DecidableEq, Repr

def RR.isOpt (record : RR) : Bool :=
  match record.data with
  | .opt _ => true
  | _ => false

structure Msg where
  id : UInt16 := 0
  response : Bool := false
  authoritative : Bool := false
  recursionDesired : Bool := false
  recursionAvailable : Bool := false
  rcode : Nat := 0
  question : List Question := []
  answer : List RR := []
  ns : List RR := []
  extra : List RR := []
  deriving DecidableEq, Repr

end AiboosterEngine.Dns
