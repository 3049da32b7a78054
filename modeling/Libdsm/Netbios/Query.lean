import Libdsm.Netbios.Session

/-!
# NetBIOS name queries (`src/netbios_query.c`)

A query packet is a header of six big-endian numbers and a payload of fixed room, which the
appends fill from its start.
-/

namespace Libdsm

/-- `sizeof(netbios_query_packet)`. -/
def queryHeaderSize : Nat := 12

def netbiosFlagQuery : UInt16 := 0x8000
def netbiosFlagRecursive : UInt16 := 0x0100
def netbiosFlagBroadcast : UInt16 := 0x0010

/-- `NETBIOS_OP_NAME_QUERY`. -/
def netbiosOpNameQuery : UInt16 := 0x00

/-- `netbios_query` and the packet it points to. The numbers of the header are kept in host order;
`cursor` is the length of `payload`. -/
structure NetbiosQuery where
  payloadSize : Nat
  trnId : UInt16
  flags : UInt16
  queries : UInt16
  payload : List UInt8

/-- `netbios_query_set_flag`. -/
def netbiosQuerySetFlag (q : NetbiosQuery) (flag : UInt16) (value : Bool) : NetbiosQuery :=
  { q with flags := if value then q.flags ||| flag else q.flags &&& ~~~flag }

/-- `netbios_query_new`. -/
def netbiosQueryNew (payloadSize : Nat) (isQuery : Bool) (opcode : UInt16) : NetbiosQuery :=
  netbiosQuerySetFlag
    { payloadSize, trnId := 0, flags := opcode <<< 11, queries := 0, payload := [] }
    netbiosFlagQuery (!isQuery)

/-- `netbios_query_append`, which refuses data that do not fit and leaves the packet as it is. -/
def netbiosQueryAppend (q : NetbiosQuery) (data : List UInt8) : Int × NetbiosQuery :=
  if q.payloadSize - q.payload.length < data.length then (-1, q)
  else (0, { q with payload := q.payload ++ data })

/-- The packet in memory; nothing sets the three counts after `queries`. -/
def NetbiosQuery.bytes (q : NetbiosQuery) : List UInt8 :=
  htons q.trnId.toNat ++ htons q.flags.toNat ++ htons q.queries.toNat ++ List.replicate 6 0 ++
    q.payload

@[simp] theorem netbiosQuerySetFlag_trnId (q : NetbiosQuery) (flag : UInt16) (value : Bool) :
    (netbiosQuerySetFlag q flag value).trnId = q.trnId := rfl

@[simp] theorem netbiosQueryAppend_trnId (q : NetbiosQuery) (data : List UInt8) :
    (netbiosQueryAppend q data).2.trnId = q.trnId := by
  unfold netbiosQueryAppend
  split <;> rfl

end Libdsm
