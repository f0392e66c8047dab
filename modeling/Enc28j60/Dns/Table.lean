import Enc28j60.App.State
import Enc28j60.Dns.Name
import Enc28j60.Lib.Mem

/-!
# Enc28j60.Dns.Table

The DNS client of `dns.c` as it is configured: four entries, two servers, one UDP
socket, transmission IDs that count up, IPv4 only.

The request of an entry has the entry's index.  What `pbuf_alloc` and `udp_sendto`
answer is an oracle, `net`.  A callback that is found does not call the client.
The last fields of the state are *history*: no function reads them.
-/

namespace Enc28j60.Dns

open App (LwipErr IpAddr)
open Mqtt (Chain pbuf_copy_partial)

def DNS_TABLE_SIZE : Nat := 4
def DNS_MAX_SERVERS : Nat := 2
def DNS_MAX_RETRIES : BitVec 8 := 4
def DNS_MAX_TTL : BitVec 32 := 604800
def SIZEOF_DNS_QUERY : BitVec 16 := 4
def SIZEOF_DNS_ANSWER : BitVec 16 := 10
def DNS_RRTYPE_A : BitVec 16 := 1
def DNS_RRCLASS_IN : BitVec 16 := 1
def DNS_FLAG1_RESPONSE : Byte := 0x80
def DNS_FLAG1_RD : Byte := 0x01
def DNS_FLAG2_ERR_MASK : Byte := 0x0f
def IP_ADDR_ANY : IpAddr := 0

/-! ## the state -/

inductive DnsState where
  | UNUSED
  | NEW
  | ASKING
  | DONE
  deriving DecidableEq

/-- The index of an entry, and of its request. -/
abbrev Idx := Fin DNS_TABLE_SIZE

/-- The index of a server. -/
abbrev Server := Fin DNS_MAX_SERVERS

/-- `struct dns_table_entry`. -/
structure Entry where
  ttl : BitVec 32 := 0
  ipaddr : IpAddr := 0
  txid : BitVec 16 := 0
  state : DnsState := .UNUSED
  server_idx : Server := ⟨0, by decide⟩
  tmr : BitVec 8 := 0
  retries : BitVec 8 := 0
  seqno : BitVec 8 := 0
  name : Nat → Byte := fun _ => 0

/-- `entry->name`, as a string. -/
def Entry.hostname (e : Entry) : List Byte :=
  (Mem.load e.name 0 DNS_MAX_NAME_LENGTH).takeWhile (· ≠ 0)

/-- A request: the callback with its argument, or `NULL`; and, as history, the name and the tick
it was made at. -/
structure Request (κ : Type) where
  found : Option κ
  hostname : List Byte
  asked_at : Nat

/-- Why a request ends. -/
inductive Reason where
  | answered
  /-- The server reports an error, or has no address in its answer. -/
  | refused
  | timeout
  /-- The server's address has been taken away. -/
  | unset
  deriving DecidableEq

/-- The end of a request; if it has a callback, this is what it is called with. -/
structure Found (κ : Type) where
  request : Request κ
  name : List Byte
  ipaddr : Option IpAddr
  reason : Reason
  at_ : Nat

/-- The variables of `dns.c`. -/
structure Resolver (κ : Type) where
  /-- `dns_pcbs[0]` is not `NULL`. -/
  pcb : Bool := false
  dns_txid : BitVec 16 := 0
  dns_seqno : BitVec 8 := 0
  dns_table : Idx → Entry := fun _ => {}
  dns_requests : Idx → Option (Request κ) := fun _ => none
  dns_servers : Server → IpAddr := fun _ => IP_ADDR_ANY
  /-- What `pbuf_alloc` will answer, and `udp_sendto` behind it. -/
  net : Nat → Option LwipErr
  /-- History: the calls of `dns_tmr`. -/
  ticks : Nat := 0
  /-- History: the requests that were queued. -/
  queued : List (Request κ) := []
  /-- History: the ends of requests. -/
  found : List (Found κ) := []
  /-- History: what `udp_sendto` was given, with its destination. -/
  sent : List (IpAddr × List Byte) := []

variable {κ : Type}

/-- The variables are zero at first. -/
def Resolver.zero (net : Nat → Option LwipErr) : Resolver κ := { net := net }

def Resolver.set (i : Idx) (e : Entry) (d : Resolver κ) : Resolver κ :=
  { d with dns_table := Function.update d.dns_table i e }

/-! ## fields of a message -/

/-- A field of 16 bits, in host order. -/
def field16 (bs : List Byte) (i : Nat) : BitVec 16 := bs.getD i 0 ++ bs.getD (i + 1) 0

/-- A field of 32 bits, in host order. -/
def field32 (bs : List Byte) (i : Nat) : BitVec 32 := field16 bs i ++ field16 bs (i + 2)

/-- Four bytes as they are in memory. -/
def inMemory (bs : List Byte) : BitVec 32 := lwip_htonl (field32 bs 0)

/-- A field of 16 bits, in network order. -/
def bytes16 (x : BitVec 16) : List Byte := [x.extractLsb' 8 8, x.extractLsb' 0 8]

/-! ## queries -/

/-- The header and the question of a query. -/
def queryBytes (txid : BitVec 16) (hostname : List Byte) : List Byte :=
  bytes16 txid ++ [DNS_FLAG1_RD, 0] ++ bytes16 1 ++ bytes16 0 ++ bytes16 0 ++ bytes16 0 ++
    encodeName hostname ++ bytes16 DNS_RRTYPE_A ++ bytes16 DNS_RRCLASS_IN

/-- The request of an entry ends. -/
def dns_call_found (idx : Idx) (addr : Option IpAddr) (reason : Reason) (d : Resolver κ) :
    Resolver κ :=
  { d with
    found := d.found ++ (d.dns_requests idx).toList.map fun request =>
      ⟨request, (d.dns_table idx).hostname, addr, reason, d.ticks⟩
    dns_requests := Function.update d.dns_requests idx none }

/-- `dns_call_found(idx, NULL)`, and the entry is flushed. -/
def giveUp (idx : Idx) (reason : Reason) (d : Resolver κ) : Resolver κ :=
  let d := dns_call_found idx none reason d
  d.set idx { d.dns_table idx with state := .UNUSED }

/-- Send a DNS query packet. -/
def dns_send (idx : Idx) (d : Resolver κ) : LwipErr × Resolver κ :=
  let entry := d.dns_table idx
  if d.dns_servers entry.server_idx = IP_ADDR_ANY then (.ERR_OK, giveUp idx .unset d)
  else
    let d' := { d with net := fun n => d.net (n + 1) }
    match d.net 0 with
    | none => (.ERR_MEM, d')
    | some err =>
        (err, { d' with sent := d.sent ++
          [(d.dns_servers entry.server_idx, queryBytes entry.txid entry.hostname)] })

/-- An entry that waits for an answer uses the ID. -/
def txidUsed (d : Resolver κ) (txid : BitVec 16) : Bool :=
  (List.finRange DNS_TABLE_SIZE).any fun i =>
    (d.dns_table i).state = .ASKING ∧ (d.dns_table i).txid = txid

/-- `goto again`: the first ID from `txid` on that is not used, or the one `n` behind it. -/
def createTxid (used : BitVec 16 → Bool) : Nat → BitVec 16 → BitVec 16
  | 0, txid => txid
  | n + 1, txid => if used txid then createTxid used n (txid + 1) else txid

/-- Create a query transmission ID that is unique for all outstanding queries; there are fewer
of them than it tries. -/
def dns_create_txid (d : Resolver κ) : BitVec 16 :=
  createTxid (txidUsed d) DNS_TABLE_SIZE (d.dns_txid + 1)

/-- The server behind the one that is asked, if it is set. -/
def backupServer (entry : Entry) (d : Resolver κ) : Option Server :=
  if h : entry.server_idx + 1 < DNS_MAX_SERVERS then
    if d.dns_servers ⟨entry.server_idx + 1, h⟩ = IP_ADDR_ANY then none
    else some ⟨entry.server_idx + 1, h⟩
  else
    none

/-- Check whether there are other backup DNS servers available to try. -/
def dns_backupserver_available (entry : Entry) (d : Resolver κ) : Bool :=
  (backupServer entry d).isSome

/-- `dns_check_entry`, when the time of a query is up. -/
def retry (i : Idx) (d : Resolver κ) : Resolver κ :=
  let entry := d.dns_table i
  let retries := entry.retries + 1
  if retries = DNS_MAX_RETRIES then
    match backupServer entry d with
    | some server =>
        (dns_send i (d.set i { entry with server_idx := server, tmr := 1, retries := 0 })).2
    | none => giveUp i .timeout (d.set i { entry with retries := retries })
  else
    (dns_send i (d.set i { entry with retries := retries, tmr := retries })).2

/-- Check an entry: send out a query for a new one, retry a pending one, remove a completed one
whose TTL has expired. -/
def dns_check_entry (i : Idx) (d : Resolver κ) : Resolver κ :=
  let entry := d.dns_table i
  match entry.state with
  | .NEW =>
      let txid := dns_create_txid d
      (dns_send i ({ d with dns_txid := txid }.set i { entry with
        txid := txid, state := .ASKING, server_idx := ⟨0, by decide⟩, tmr := 1, retries := 0 })).2
  | .ASKING =>
      let d := d.set i { entry with tmr := entry.tmr - 1 }
      if entry.tmr - 1 = 0 then retry i d else d
  | .DONE =>
      if entry.ttl = 0 then d.set i { entry with state := .UNUSED }
      else if entry.ttl - 1 = 0 then d.set i { entry with ttl := 0, state := .UNUSED }
      else d.set i { entry with ttl := entry.ttl - 1 }
  | .UNUSED => d

/-- Check all entries. -/
def dns_check_entries (d : Resolver κ) : Resolver κ :=
  (List.finRange DNS_TABLE_SIZE).foldl (fun d i => dns_check_entry i d) d

/-- The DNS resolver client timer. -/
def dns_tmr (d : Resolver κ) : Resolver κ := dns_check_entries { d with ticks := d.ticks + 1 }

/-! ## responses -/

/-- Save TTL and call `dns_call_found` for correct response. -/
def dns_correct_response (idx : Idx) (ttl : BitVec 32) (d : Resolver κ) : Resolver κ :=
  let ttl := if DNS_MAX_TTL < ttl then DNS_MAX_TTL else ttl
  let d := d.set idx { d.dns_table idx with state := .DONE, ttl := ttl }
  let d := dns_call_found idx (some (d.dns_table idx).ipaddr) .answered d
  if ttl = 0 ∧ (d.dns_table idx).state = .DONE then
    d.set idx { d.dns_table idx with state := .UNUSED }
  else
    d

/-- What the answers of a response come to. -/
inductive Answer where
  | ignore
  | address (ipaddr : IpAddr) (ttl : BitVec 32)
  | none
  deriving DecidableEq

/-- The loop over the answers, of which `nanswers` are left. -/
def readAnswers (p : Chain) : Nat → BitVec 16 → Answer
  | 0, _ => .none
  | nanswers + 1, res_idx =>
      if p.tot_len ≤ res_idx then .none
      else
        match dns_skip_name p res_idx with
        | .ret res_idx =>
            if res_idx = 0xFFFF then .ignore
            else
              let ans := pbuf_copy_partial p.bufs SIZEOF_DNS_ANSWER.toNat res_idx.toNat
              if ans.length ≠ SIZEOF_DNS_ANSWER.toNat then .ignore
              else if 0xFFFF < res_idx.toNat + SIZEOF_DNS_ANSWER.toNat then .ignore
              else
                let res_idx := res_idx + SIZEOF_DNS_ANSWER
                if field16 ans 2 = DNS_RRCLASS_IN ∧ field16 ans 0 = DNS_RRTYPE_A ∧
                    field16 ans 8 = 4 then
                  let ip4addr := pbuf_copy_partial p.bufs 4 res_idx.toNat
                  if ip4addr.length ≠ 4 then .ignore
                  else .address (inMemory ip4addr) (field32 ans 4)
                else if 0xFFFF < res_idx.toNat + (field16 ans 8).toNat then .ignore
                else readAnswers p nanswers (res_idx + field16 ans 8)
        | _ => .ignore

/-- The rest of a response with the ID of an entry, behind its question. -/
def receiveAnswers (i : Idx) (hdr : List Byte) (p : Chain) (res_idx : BitVec 16) (d : Resolver κ) :
    Resolver κ :=
  let entry := d.dns_table i
  if hdr.getD 3 0 &&& DNS_FLAG2_ERR_MASK ≠ 0 then
    if dns_backupserver_available entry d then
      dns_check_entry i (d.set i { entry with retries := DNS_MAX_RETRIES - 1, tmr := 1 })
    else
      giveUp i .refused d
  else
    match readAnswers p (field16 hdr 6).toNat res_idx with
    | .ignore => d
    | .address ipaddr ttl => dns_correct_response i ttl (d.set i { entry with ipaddr := ipaddr })
    | .none => giveUp i .refused d

/-- A response with the ID of an entry. -/
def receive (i : Idx) (hdr : List Byte) (p : Chain) (addr : IpAddr) (d : Resolver κ) :
    Option (Resolver κ) :=
  let entry := d.dns_table i
  if hdr.getD 2 0 &&& DNS_FLAG1_RESPONSE = 0 then some d
  else if field16 hdr 4 ≠ 1 then some d
  else if addr ≠ d.dns_servers entry.server_idx then some d
  else
    match dns_compare_name entry.name p SIZEOF_DNS_HDR with
    | .ret res_idx =>
        if res_idx = 0xFFFF then some d
        else
          let qry := pbuf_copy_partial p.bufs SIZEOF_DNS_QUERY.toNat res_idx.toNat
          if qry.length ≠ SIZEOF_DNS_QUERY.toNat then some d
          else if field16 qry 2 ≠ DNS_RRCLASS_IN ∨ field16 qry 0 ≠ DNS_RRTYPE_A then some d
          else if 0xFFFF < res_idx.toNat + SIZEOF_DNS_QUERY.toNat then some d
          else some (receiveAnswers i hdr p (res_idx + SIZEOF_DNS_QUERY) d)
    | _ => none

/-- The entry that waits for an answer with this ID. -/
def asking (txid : BitVec 16) (d : Resolver κ) : Option Idx :=
  (List.finRange DNS_TABLE_SIZE).find? fun i =>
    (d.dns_table i).state = .ASKING ∧ (d.dns_table i).txid = txid

/-- Receive input function for DNS response packets; `none` is a read outside `entry->name`. -/
def dns_recv (p : Chain) (addr : IpAddr) (d : Resolver κ) : Option (Resolver κ) :=
  if p.tot_len.toNat < SIZEOF_DNS_HDR.toNat + SIZEOF_DNS_QUERY.toNat then some d
  else
    let hdr := pbuf_copy_partial p.bufs SIZEOF_DNS_HDR.toNat 0
    match asking (field16 hdr 0) d with
    | some i => receive i hdr p addr d
    | none => some d

/-! ## requests -/

/-- `lwip_strnicmp` takes the two characters for different ones. -/
def charsDiffer (c1 c2 : Byte) : Bool :=
  c1 ≠ c2 && !(lwip_islower (c1 ||| 0x20) && (c1 ||| 0x20) = (c2 ||| 0x20))

/-- `lwip_strnicmp` is 0, for `str1` and the string at `j` in `str2`; `len` is a `size_t`. -/
def lwip_strnicmp (str2 : Nat → Byte) : List Byte → Nat → BitVec 32 → Bool
  | [], j, _ => !charsDiffer 0 (str2 j)
  | c1 :: str1, j, len =>
      if charsDiffer c1 (str2 j) then false
      else if len - 1 ≠ 0 ∧ c1 ≠ 0 then lwip_strnicmp str2 str1 (j + 1) (len - 1)
      else true

/-- Look up a hostname in the array of known hostnames. -/
def dns_lookup (name : List Byte) (hostnamelen : Nat) (d : Resolver κ) : Option IpAddr :=
  let namelen := min hostnamelen (DNS_MAX_NAME_LENGTH - 1)
  ((List.finRange DNS_TABLE_SIZE).find? fun i =>
    (d.dns_table i).state = .DONE ∧
      lwip_strnicmp (d.dns_table i).name name 0 (BitVec.ofNat 32 namelen) ∧
      (d.dns_table i).name namelen = 0).map fun i => (d.dns_table i).ipaddr

/-- `lseq` and `lseqi` of `dns_enqueue`: the age of the oldest completed entry, and the entry. -/
def oldestDone (d : Resolver κ) : BitVec 8 × Option Idx :=
  (List.finRange DNS_TABLE_SIZE).foldl (fun oldest i =>
    let age := d.dns_seqno - (d.dns_table i).seqno
    if (d.dns_table i).state = .DONE ∧ oldest.1 < age then (age, some i) else oldest) (0, none)

/-- The entry that `dns_enqueue` uses: an unused one, or the oldest completed one. -/
def freeEntry (d : Resolver κ) : Option Idx :=
  match (List.finRange DNS_TABLE_SIZE).find? fun i => (d.dns_table i).state = .UNUSED with
  | some i => some i
  | none => (oldestDone d).2

/-- Queues a new hostname to resolve and sends out a DNS query for that hostname. -/
def dns_enqueue (name : List Byte) (hostnamelen : Nat) (found : Option κ) (d : Resolver κ) :
    LwipErr × Resolver κ :=
  let namelen := min hostnamelen (DNS_MAX_NAME_LENGTH - 1)
  match freeEntry d with
  | none => (.ERR_MEM, d)
  | some i =>
      let entry := d.dns_table i
      let request : Request κ := ⟨found, name.take namelen, d.ticks⟩
      let d := d.set i { entry with
        state := .NEW
        seqno := d.dns_seqno
        name := Mem.store entry.name 0 (name.take namelen ++ [0]) }
      let d := { d with
        dns_requests := Function.update d.dns_requests i (some request)
        dns_seqno := d.dns_seqno + 1
        queued := d.queued ++ [request] }
      (.ERR_INPROGRESS, dns_check_entry i d)

/-- Resolve a hostname (string) into an IP address: the result, and the address that is stored
with `ERR_OK`. -/
def dns_gethostbyname (hostname : List Byte) (found : Option κ) (d : Resolver κ) :
    (LwipErr × Option IpAddr) × Resolver κ :=
  if hostname = [] then ((.ERR_ARG, none), d)
  else if ¬d.pcb then ((.ERR_ARG, none), d)
  else
    let hostnamelen :=
      if hostname.getLast? = some dot then hostname.length - 1 else hostname.length
    if DNS_MAX_NAME_LENGTH ≤ hostnamelen then ((.ERR_ARG, none), d)
    else
      match ip4addr_aton hostname with
      | some addr => ((.ERR_OK, some addr), d)
      | none =>
          match dns_lookup hostname hostnamelen d with
          | some addr => ((.ERR_OK, some addr), d)
          | none =>
              if d.dns_servers ⟨0, by decide⟩ = IP_ADDR_ANY then ((.ERR_VAL, none), d)
              else
                let res := dns_enqueue hostname hostnamelen found d
                ((res.1, none), res.2)

/-- Initialize the resolver. -/
def dns_init (d : Resolver κ) : Resolver κ := { d with pcb := true }

/-- Initialize one of the DNS servers; `NULL` takes its address away. -/
def dns_setserver (numdns : BitVec 8) (dnsserver : Option IpAddr) (d : Resolver κ) : Resolver κ :=
  if h : numdns.toNat < DNS_MAX_SERVERS then
    { d with dns_servers :=
      Function.update d.dns_servers ⟨numdns.toNat, h⟩ (dnsserver.getD IP_ADDR_ANY) }
  else
    d

end Enc28j60.Dns
