import Enc28j60.Dns.Compare
import Enc28j60.Dns.Table

/-!
# Enc28j60.Dns.Lookups

Every run of the DNS client: calls of the application, of the timer and of the network in
any order.

Each request that was queued ends once or waits (`lookups_balance`).  It ends with its own
name, after fourteen ticks at most, and does not time out before the seventh
(`lookups_end`).  No two entries wait with one transmission ID (`txids_differ`), and an
address from the table was answered less than `DNS_MAX_TTL` ticks ago (`lookup_fresh`).
-/

namespace Enc28j60.Dns

open App (LwipErr IpAddr)
open Mqtt (Chain)

variable {κ : Type} {d d' : Resolver κ} {i : Idx}

/-! ## runs -/

/-- What happens to the client.  A host name is a string. -/
inductive Step : Resolver κ → Resolver κ → Prop
  | init (d : Resolver κ) : Step d (dns_init d)
  | setserver (d : Resolver κ) (numdns : BitVec 8) (dnsserver : Option IpAddr) :
      Step d (dns_setserver numdns dnsserver d)
  | gethostbyname (d : Resolver κ) (hostname : List Byte) (found : Option κ)
      (hstring : ∀ c ∈ hostname, c ≠ 0) : Step d (dns_gethostbyname hostname found d).2
  | tmr (d : Resolver κ) : Step d (dns_tmr d)
  | recv {d d' : Resolver κ} (p : Chain) (addr : IpAddr) (h : dns_recv p addr d = some d') :
      Step d d'
  | net (d : Resolver κ) (net : Nat → Option LwipErr) : Step d { d with net := net }

inductive Reachable : Resolver κ → Prop
  | new (net : Nat → Option LwipErr) : Reachable (.zero net)
  | step {d d' : Resolver κ} (h : Reachable d) (hs : Step d d') : Reachable d'

/-- The requests that have not ended. -/
def waiting (d : Resolver κ) : List (Request κ) :=
  (List.finRange DNS_TABLE_SIZE).filterMap d.dns_requests

/-! ## the time of a request -/

/-- The ticks of the retries that are left. -/
def retryTicks (retries : BitVec 8) : Nat :=
  if retries = 0 then 6 else if retries = 1 then 5 else if retries = 2 then 3 else 0

/-- The ticks until an entry has asked its server in vain. -/
def Entry.patience (e : Entry) : Nat := e.tmr.toNat + retryTicks e.retries

/-- The ticks of the servers behind it. -/
def Entry.backup (e : Entry) : Nat := if e.server_idx.val = 0 then 7 else 0

/-- An entry, with its request, at some tick. -/
inductive Fits (found : List (Found κ)) (now : Nat) : Entry → Option (Request κ) → Prop
  | unused {e : Entry} (hstate : e.state = .UNUSED) : Fits found now e none
  | asking {e : Entry} {r : Request κ} (hstate : e.state = .ASKING)
      (hname : e.hostname = r.hostname) (htmr : 0 < e.tmr.toNat)
      (hretries : e.retries.toNat < 4) (hasked : r.asked_at ≤ now)
      (hmost : now + e.patience + e.backup ≤ r.asked_at + 14)
      (hleast : r.asked_at + 7 ≤ now + e.patience) : Fits found now e (some r)
  | done {e : Entry} (hstate : e.state = .DONE) (httl : 0 < e.ttl.toNat) (f : Found κ)
      (hf : f ∈ found) (haddr : f.ipaddr = some e.ipaddr) (hname : f.name = e.hostname)
      (hfresh : now + e.ttl.toNat ≤ f.at_ + DNS_MAX_TTL.toNat) : Fits found now e none

theorem Fits.mono {found found' : List (Found κ)} {now : Nat} {e : Entry} {r : Option (Request κ)}
    (h : Fits found now e r) (hsub : found ⊆ found') : Fits found' now e r := by
  cases h with
  | unused hstate => exact .unused hstate
  | asking hstate hname htmr hretries hasked hmost hleast =>
      exact .asking hstate hname htmr hretries hasked hmost hleast
  | done hstate httl f hf haddr hname hfresh =>
      exact .done hstate httl f (hsub hf) haddr hname hfresh

/-- The end of a request was in time. -/
structure Found.InTime (f : Found κ) : Prop where
  name : f.name = f.request.hostname
  asked : f.request.asked_at ≤ f.at_
  most : f.at_ ≤ f.request.asked_at + 14
  least : f.reason = .timeout → f.request.asked_at + 7 ≤ f.at_
  answered : f.ipaddr.isSome ↔ f.reason = .answered

/-- Entries that wait have different IDs. -/
def Differ (table : Idx → Entry) : Prop :=
  ∀ i j, (table i).state = .ASKING → (table j).state = .ASKING →
    (table i).txid = (table j).txid → i = j

/-- The invariant, with the tick that each entry has seen. -/
structure InvAt (now : Idx → Nat) (d : Resolver κ) : Prop where
  fits : ∀ i, Fits d.found (now i) (d.dns_table i) (d.dns_requests i)
  unique : Differ d.dns_table
  balance : d.queued.Perm (d.found.map Found.request ++ waiting d)
  ends : ∀ f ∈ d.found, f.InTime

def Inv (d : Resolver κ) : Prop := InvAt (fun _ => d.ticks) d

/-! ## what a function does to an entry -/

/-- It changes an entry, and no request ends. -/
structure Keeps (i : Idx) (e : Entry) (d d' : Resolver κ) : Prop where
  table : d'.dns_table = Function.update d.dns_table i e
  requests : d'.dns_requests = d.dns_requests
  found : d'.found = d.found
  queued : d'.queued = d.queued
  ticks : d'.ticks = d.ticks

/-- It changes an entry, whose request ends. -/
structure Finishes (i : Idx) (e : Entry) (addr : Option IpAddr) (reason : Reason)
    (d d' : Resolver κ) : Prop where
  table : d'.dns_table = Function.update d.dns_table i e
  requests : d'.dns_requests = Function.update d.dns_requests i none
  found : d'.found = d.found ++ (d.dns_requests i).toList.map fun r =>
    ⟨r, e.hostname, addr, reason, d.ticks⟩
  queued : d'.queued = d.queued
  ticks : d'.ticks = d.ticks

/-- The requests are those of an entry and the others. -/
theorem waiting_perm (requests : Idx → Option (Request κ)) (i : Idx) :
    ((List.finRange DNS_TABLE_SIZE).filterMap requests).Perm
      ((requests i).toList ++
        (List.finRange DNS_TABLE_SIZE).filterMap (Function.update requests i none)) := by
  have hmem : i ∈ List.finRange DNS_TABLE_SIZE := List.mem_finRange i
  have hperm := List.perm_cons_erase hmem
  have hnodup := List.nodup_finRange DNS_TABLE_SIZE
  have hrest :
      ((List.finRange DNS_TABLE_SIZE).erase i).filterMap (Function.update requests i none) =
      ((List.finRange DNS_TABLE_SIZE).erase i).filterMap requests := by
    refine List.filterMap_congr fun j hj => ?_
    rw [Function.update_of_ne ((hnodup.mem_erase_iff.mp hj).1)]
  refine (hperm.filterMap requests).trans ?_
  refine List.Perm.trans ?_ ((hperm.filterMap (Function.update requests i none)).symm.append_left _)
  rw [List.filterMap_cons, List.filterMap_cons, Function.update_self, hrest]
  cases requests i <;> simp

theorem Differ.update {table : Idx → Entry} {e : Entry} (h : Differ table)
    (htxid : e.state = .ASKING → ∀ j, j ≠ i → (table j).state = .ASKING → (table j).txid ≠ e.txid) :
    Differ (Function.update table i e) := by
  intro j k
  by_cases hj : j = i <;> by_cases hk : k = i
  · intros
    rw [hj, hk]
  · subst hj
    rw [Function.update_self, Function.update_of_ne hk]
    exact fun hstate hstate' heq => absurd heq.symm (htxid hstate k hk hstate')
  · subst hk
    rw [Function.update_self, Function.update_of_ne hj]
    exact fun hstate hstate' heq => absurd heq (htxid hstate' j hj hstate)
  · rw [Function.update_of_ne hj, Function.update_of_ne hk]
    exact h j k

theorem fits_update {found : List (Found κ)} {now : Idx → Nat} {table : Idx → Entry}
    {requests : Idx → Option (Request κ)} {n : Nat} {e : Entry} {r : Option (Request κ)}
    (h : ∀ j, Fits found (now j) (table j) (requests j)) (hfits : Fits found n e r) (j : Idx) :
    Fits found (Function.update now i n j) (Function.update table i e j)
      (Function.update requests i r j) := by
  by_cases hj : j = i
  · subst hj
    simpa using hfits
  · simpa [Function.update_of_ne hj] using h j

theorem InvAt.keeps {now : Idx → Nat} {e : Entry} (h : InvAt now d) (hk : Keeps i e d d') (n : Nat)
    (hfits : Fits d.found n e (d.dns_requests i))
    (htxid : e.state = .ASKING → ∀ j, j ≠ i → (d.dns_table j).state = .ASKING →
      (d.dns_table j).txid ≠ e.txid) : InvAt (Function.update now i n) d' where
  fits := by
    rw [hk.found, hk.requests, hk.table, ← Function.update_eq_self i d.dns_requests]
    exact fits_update h.fits hfits
  unique := by
    rw [hk.table]
    exact h.unique.update htxid
  balance := by
    rw [hk.queued, hk.found, waiting, hk.requests]
    exact h.balance
  ends := by
    rw [hk.found]
    exact h.ends

theorem InvAt.finishes {now : Idx → Nat} {e : Entry} {addr : Option IpAddr} {reason : Reason}
    (h : InvAt now d) (he : Finishes i e addr reason d d') (n : Nat)
    (hstate : e.state ≠ .ASKING) (hfits : Fits d'.found n e none)
    (hends : ∀ r, d.dns_requests i = some r →
      (⟨r, e.hostname, addr, reason, d.ticks⟩ : Found κ).InTime) :
    InvAt (Function.update now i n) d' where
  fits := by
    have hsub : d.found ⊆ d'.found := by
      rw [he.found]
      exact List.subset_append_left _ _
    rw [he.requests, he.table]
    exact fits_update (fun j => (h.fits j).mono hsub) hfits
  unique := by
    rw [he.table]
    exact h.unique.update fun hasking => absurd hasking hstate
  balance := by
    have hmap : ((d.dns_requests i).toList.map fun r =>
        (⟨r, e.hostname, addr, reason, d.ticks⟩ : Found κ)).map Found.request =
        (d.dns_requests i).toList := by
      rw [List.map_map]
      exact List.map_id _
    rw [he.queued, he.found, List.map_append, hmap, waiting, he.requests, List.append_assoc]
    exact h.balance.trans ((waiting_perm d.dns_requests i).append_left _)
  ends f hf := by
    rw [he.found, List.mem_append] at hf
    rcases hf with hold | hnew
    · exact h.ends f hold
    · obtain ⟨r, hr, rfl⟩ := List.mem_map.mp hnew
      exact hends r (Option.mem_toList.mp hr)

/-- It gives an entry a request. -/
structure Opens (i : Idx) (e : Entry) (r : Request κ) (d d' : Resolver κ) : Prop where
  table : d'.dns_table = Function.update d.dns_table i e
  requests : d'.dns_requests = Function.update d.dns_requests i (some r)
  found : d'.found = d.found
  queued : d'.queued = d.queued ++ [r]
  ticks : d'.ticks = d.ticks

theorem InvAt.opens {now : Idx → Nat} {e : Entry} {r : Request κ} (h : InvAt now d)
    (ho : Opens i e r d d') (n : Nat) (hnone : d.dns_requests i = none)
    (hfits : Fits d.found n e (some r))
    (htxid : ∀ j, j ≠ i → (d.dns_table j).state = .ASKING → (d.dns_table j).txid ≠ e.txid) :
    InvAt (Function.update now i n) d' where
  fits := by
    rw [ho.found, ho.requests, ho.table]
    exact fits_update h.fits hfits
  unique := by
    rw [ho.table]
    exact h.unique.update fun _ => htxid
  balance := by
    have hperm := waiting_perm d'.dns_requests i
    have hrest : Function.update d'.dns_requests i none = d.dns_requests := by
      rw [ho.requests, Function.update_idem, ← hnone, Function.update_eq_self]
    rw [hrest, ho.requests, Function.update_self] at hperm
    rw [ho.queued, ho.found, waiting, ho.requests]
    refine (h.balance.append_right [r]).trans ?_
    rw [List.append_assoc]
    exact (List.perm_append_comm.trans hperm.symm).append_left _
  ends := by
    rw [ho.found]
    exact h.ends

/-! ## sending -/

theorem Keeps.refl (d : Resolver κ) (i : Idx) : Keeps i (d.dns_table i) d d :=
  ⟨(Function.update_eq_self i d.dns_table).symm, rfl, rfl, rfl, rfl⟩

theorem set_keeps (d : Resolver κ) (i : Idx) (e : Entry) : Keeps i e d (d.set i e) :=
  ⟨rfl, rfl, rfl, rfl, rfl⟩

theorem Keeps.entry {e : Entry} (h : Keeps i e d d') : d'.dns_table i = e := by
  rw [h.table, Function.update_self]

theorem Keeps.trans {d₁ : Resolver κ} {e e' : Entry} (h : Keeps i e d d₁) (h' : Keeps i e' d₁ d') :
    Keeps i e' d d' where
  table := by rw [h'.table, h.table, Function.update_idem]
  requests := h'.requests.trans h.requests
  found := h'.found.trans h.found
  queued := h'.queued.trans h.queued
  ticks := h'.ticks.trans h.ticks

theorem Keeps.finishes {d₁ : Resolver κ} {e e' : Entry} {addr : Option IpAddr} {reason : Reason}
    (h : Keeps i e d d₁) (h' : Finishes i e' addr reason d₁ d') :
    Finishes i e' addr reason d d' where
  table := by rw [h'.table, h.table, Function.update_idem]
  requests := by rw [h'.requests, h.requests]
  found := by rw [h'.found, h.found, h.requests, h.ticks]
  queued := h'.queued.trans h.queued
  ticks := h'.ticks.trans h.ticks

theorem giveUp_finishes (i : Idx) (reason : Reason) (d : Resolver κ) :
    Finishes i { d.dns_table i with state := .UNUSED } none reason d (giveUp i reason d) :=
  ⟨rfl, rfl, rfl, rfl, rfl⟩

theorem dns_send_cases (i : Idx) (d : Resolver κ) :
    Keeps i (d.dns_table i) d (dns_send i d).2 ∨
      Finishes i { d.dns_table i with state := .UNUSED } none .unset d (dns_send i d).2 := by
  unfold dns_send
  dsimp only
  split
  · exact Or.inr (giveUp_finishes i .unset d)
  · left
    split <;> exact ⟨(Function.update_eq_self i d.dns_table).symm, rfl, rfl, rfl, rfl⟩

theorem ticks_set (i : Idx) (e : Entry) (d : Resolver κ) : (d.set i e).ticks = d.ticks := rfl

theorem ticks_giveUp (i : Idx) (reason : Reason) (d : Resolver κ) :
    (giveUp i reason d).ticks = d.ticks := rfl

theorem ticks_dns_send (i : Idx) (d : Resolver κ) : (dns_send i d).2.ticks = d.ticks := by
  rcases dns_send_cases i d with h | h <;> exact h.ticks

/-- A query is sent; without a server the request ends. -/
theorem InvAt.send {now : Idx → Nat} {d₁ : Resolver κ} {e : Entry} (h : InvAt now d)
    (hk : Keeps i e d d₁)
    (hfits : Fits d.found d.ticks e (d.dns_requests i))
    (htxid : ∀ j, j ≠ i → (d.dns_table j).state = .ASKING → (d.dns_table j).txid ≠ e.txid) :
    InvAt (Function.update now i d.ticks) (dns_send i d₁).2 := by
  have hcases := dns_send_cases i d₁
  rw [hk.entry] at hcases
  rcases hcases with hkeeps | hfinishes
  · exact h.keeps (hk.trans hkeeps) _ hfits fun _ => htxid
  · refine h.finishes (hk.finishes hfinishes) _ (by simp) (.unused rfl) fun r hr => ?_
    rw [hr] at hfits
    cases hfits with
    | asking _ hname htmr _ hasked hmost _ =>
        exact ⟨hname, hasked, show d.ticks ≤ r.asked_at + 14 by omega, by simp, by simp⟩

/-! ## transmission IDs -/

theorem createTxid_used {used : BitVec 16 → Bool} {n : Nat} {txid : BitVec 16}
    (h : used (createTxid used n txid)) : ∀ k ≤ n, used (txid + BitVec.ofNat 16 k) := by
  induction n generalizing txid with
  | zero =>
      intro k hk
      obtain rfl : k = 0 := by omega
      simpa [createTxid] using h
  | succ n ih =>
      intro k hk
      rw [createTxid] at h
      split at h
      · rename_i hused
        cases k with
        | zero => simpa using hused
        | succ k =>
            have hrest := ih h k (by omega)
            rwa [add_ofNat_succ] at hrest
      · exact absurd h ‹_›

theorem txidUsed_iff {txid : BitVec 16} :
    txidUsed d txid ↔ ∃ i, (d.dns_table i).state = .ASKING ∧ (d.dns_table i).txid = txid := by
  simp [txidUsed]

/-- There are fewer entries than IDs that are tried. -/
theorem dns_create_txid_fresh (d : Resolver κ) : ¬txidUsed d (dns_create_txid d) := by
  intro hused
  have hall (k : Fin (DNS_TABLE_SIZE + 1)) :
      ∃ i, (d.dns_table i).txid = d.dns_txid + 1 + BitVec.ofNat 16 k := by
    obtain ⟨i, -, htxid⟩ := txidUsed_iff.mp (createTxid_used hused k (by omega))
    exact ⟨i, htxid⟩
  choose f hf using hall
  have hinj : Function.Injective f := by
    intro k k' heq
    have hsame := (hf k).symm.trans (heq ▸ hf k')
    have hk := k.isLt
    have hk' := k'.isLt
    unfold DNS_TABLE_SIZE at *
    apply Fin.ext
    bv_omega
  have hcard := Fintype.card_le_of_injective f hinj
  rw [Fintype.card_fin, Fintype.card_fin] at hcard
  omega

/-! ## the timer -/

theorem backupServer_eq {e : Entry} {server : Server} (h : backupServer e d = some server) :
    e.server_idx.val = 0 ∧ server.val ≠ 0 := by
  unfold backupServer at h
  split at h
  · rename_i hlt
    split at h
    · cases h
    · cases h
      unfold DNS_MAX_SERVERS at hlt
      exact ⟨by omega, by simp⟩
  · cases h

/-- The other entries that wait have other IDs. -/
theorem InvAt.differs {now : Idx → Nat} (h : InvAt now d)
    (hasking : (d.dns_table i).state = .ASKING) (j : Idx) (hj : j ≠ i)
    (hstate : (d.dns_table j).state = .ASKING) : (d.dns_table j).txid ≠ (d.dns_table i).txid :=
  fun heq => hj (h.unique j i hstate hasking heq)

/-- Another server is asked, for seven ticks at most. -/
theorem InvAt.change {now : Idx → Nat} {d₁ : Resolver κ} {e : Entry} {r : Request κ}
    {server : Server} (h : InvAt now d) (hasking : (d.dns_table i).state = .ASKING)
    (hk : Keeps i { e with server_idx := server, tmr := 1, retries := 0 } d d₁)
    (hserver : server.val ≠ 0) (hr : d.dns_requests i = some r)
    (hstate : e.state = .ASKING) (htxid : e.txid = (d.dns_table i).txid)
    (hname : e.hostname = r.hostname) (hasked : r.asked_at ≤ d.ticks)
    (hmost : d.ticks + 7 ≤ r.asked_at + 14) :
    InvAt (Function.update now i d.ticks) (dns_send i d₁).2 := by
  refine h.send hk ?_ fun j hj hstate => ?_
  · rw [hr]
    refine .asking hstate hname (by simp) (by simp) hasked ?_ ?_
    · simp only [Entry.patience, Entry.backup, retryTicks, if_neg hserver]
      simpa using hmost
    · simp only [Entry.patience, retryTicks]
      simpa using hasked
  · exact htxid ▸ h.differs hasking j hj hstate

theorem retryTicks_succ {retries : BitVec 8} (h : retries.toNat < 3) :
    (retries + 1).toNat = retries.toNat + 1 ∧
      (retries + 1).toNat + retryTicks (retries + 1) = retryTicks retries := by
  have hcases : retries = 0 ∨ retries = 1 ∨ retries = 2 := by bv_omega
  rcases hcases with rfl | rfl | rfl <;> decide

/-- The timer has come to an entry whose time is up. -/
theorem InvAt.retry {now : Idx → Nat} {d₁ : Resolver κ} {e : Entry} {r : Request κ}
    (h : InvAt now d) (hk : Keeps i e d d₁) (hasking : (d.dns_table i).state = .ASKING)
    (hr : d.dns_requests i = some r) (hstate : e.state = .ASKING)
    (htxid : e.txid = (d.dns_table i).txid) (hname : e.hostname = r.hostname)
    (hretries : e.retries.toNat < 4) (hasked : r.asked_at ≤ d.ticks)
    (hmost : d.ticks + retryTicks e.retries + e.backup ≤ r.asked_at + 14)
    (hleast : r.asked_at + 7 ≤ d.ticks + retryTicks e.retries) :
    InvAt (Function.update now i d.ticks) (retry i d₁) := by
  unfold Dns.retry
  dsimp only
  rw [hk.entry]
  by_cases hmax : e.retries = 3
  · rw [if_pos (by rw [hmax]; rfl)]
    rw [hmax] at hmost hleast
    split
    · rename_i server hsome
      obtain ⟨hfirst, hserver⟩ := backupServer_eq hsome
      refine h.change hasking (hk.trans (set_keeps ..)) hserver hr hstate htxid hname hasked ?_
      rw [Entry.backup, if_pos hfirst] at hmost
      omega
    · have hgive := giveUp_finishes i .timeout (d₁.set i { e with retries := e.retries + 1 })
      rw [(set_keeps ..).entry] at hgive
      refine h.finishes (hk.finishes ((set_keeps ..).finishes hgive)) _ (by simp) (.unused rfl)
        fun r' hr' => ?_
      obtain rfl := Option.some.inj (hr.symm.trans hr')
      exact ⟨hname, hasked, show d.ticks ≤ r.asked_at + 14 by omega,
        fun _ => show r.asked_at + 7 ≤ d.ticks by simpa [retryTicks] using hleast, by simp⟩
  · have hlt : e.retries.toNat < 3 := by bv_omega
    obtain ⟨hsucc, hticks⟩ := retryTicks_succ hlt
    rw [if_neg (by unfold DNS_MAX_RETRIES; bv_omega)]
    refine h.send (hk.trans (set_keeps ..)) ?_ fun j hj hstate => ?_
    · rw [hr]
      refine .asking hstate hname ?_ ?_ hasked ?_ ?_
      · exact hsucc ▸ Nat.succ_pos _
      · show (e.retries + 1).toNat < 4
        omega
      · simp only [Entry.patience, hticks]
        exact hmost
      · simp only [Entry.patience, hticks]
        exact hleast
    · exact htxid ▸ h.differs hasking j hj hstate

/-- One entry of the timer. -/
theorem InvAt.check {now : Idx → Nat} (h : InvAt now d) (hnow : now i + 1 = d.ticks) :
    InvAt (Function.update now i d.ticks) (dns_check_entry i d) := by
  have hfits := h.fits i
  unfold dns_check_entry
  dsimp only
  generalize hr : d.dns_requests i = ro at hfits
  generalize he : d.dns_table i = e at hfits
  cases hfits with
  | unused hstate =>
      rw [hstate]
      refine h.keeps (he ▸ Keeps.refl d i) _ ?_ fun hasking => by simp [hstate] at hasking
      rw [hr]
      exact .unused hstate
  | @asking r hstate hname htmr hretries hasked hmost hleast =>
      rw [hstate]
      dsimp only
      have hsub : (e.tmr - 1).toNat = e.tmr.toNat - 1 := by bv_omega
      have hasking : (d.dns_table i).state = .ASKING := by rw [he, hstate]
      have htxid : e.txid = (d.dns_table i).txid := by rw [he]
      unfold Entry.patience at hmost hleast
      by_cases hup : e.tmr - 1 = 0
      · rw [if_pos hup]
        rw [hup] at hsub
        have hone : e.tmr.toNat = 1 := by
          have : (0 : BitVec 8).toNat = 0 := rfl
          omega
        refine h.retry (set_keeps ..) hasking hr rfl htxid hname hretries (by omega) ?_ ?_
        · show d.ticks + retryTicks e.retries + e.backup ≤ r.asked_at + 14
          omega
        · show r.asked_at + 7 ≤ d.ticks + retryTicks e.retries
          omega
      · rw [if_neg hup]
        have hpos : 0 < (e.tmr - 1).toNat := by bv_omega
        refine h.keeps (set_keeps ..) _ ?_ fun _ j hj hstate =>
          htxid ▸ h.differs hasking j hj hstate
        rw [hr]
        refine .asking rfl hname hpos hretries (by omega) ?_ ?_
        · show d.ticks + ((e.tmr - 1).toNat + retryTicks e.retries) + e.backup ≤ r.asked_at + 14
          omega
        · show r.asked_at + 7 ≤ d.ticks + ((e.tmr - 1).toNat + retryTicks e.retries)
          omega
  | done hstate httl f hf haddr hname hfresh =>
      rw [hstate]
      dsimp only
      rw [if_neg (by bv_omega)]
      have hsub : (e.ttl - 1).toNat = e.ttl.toNat - 1 := by bv_omega
      split
      · refine h.keeps (set_keeps ..) _ ?_ (by simp)
        rw [hr]
        exact .unused rfl
      · rename_i hne
        refine h.keeps (set_keeps ..) _ ?_ (by simp)
        rw [hr]
        refine .done rfl (show 0 < (e.ttl - 1).toNat by bv_omega) f hf haddr hname ?_
        show d.ticks + (e.ttl - 1).toNat ≤ f.at_ + DNS_MAX_TTL.toNat
        omega

theorem ticks_dns_check_entry (i : Idx) (d : Resolver κ) :
    (dns_check_entry i d).ticks = d.ticks := by
  unfold dns_check_entry retry
  dsimp only
  repeat' split
  all_goals simp only [ticks_dns_send, ticks_set, ticks_giveUp]

theorem InvAt.checkAll {now : Idx → Nat} {l : List Idx} (h : InvAt now d) (hl : l.Nodup)
    (hnow : ∀ i ∈ l, now i + 1 = d.ticks) :
    InvAt (fun i => if i ∈ l then d.ticks else now i)
      (l.foldl (fun d i => dns_check_entry i d) d) := by
  induction l generalizing now d with
  | nil => simpa using h
  | cons i l ih =>
      obtain ⟨hi, hl⟩ := List.nodup_cons.mp hl
      have hcheck := h.check (hnow i (by simp))
      have hrest := ih hcheck hl fun j hj => by
        have hne : j ≠ i := by rintro rfl; exact hi hj
        rw [Function.update_of_ne hne, ticks_dns_check_entry]
        exact hnow j (by simp [hj])
      rw [ticks_dns_check_entry] at hrest
      have hseen : (fun j => if j ∈ i :: l then d.ticks else now j) =
          fun j => if j ∈ l then d.ticks else Function.update now i d.ticks j := by
        funext j
        by_cases hj : j = i
        · subst hj
          simp
        · simp [hj]
      rw [hseen]
      exact hrest

theorem Inv.tmr (h : Inv d) : Inv (dns_tmr d) := by
  have htick : InvAt (fun _ => d.ticks) { d with ticks := d.ticks + 1 } :=
    ⟨h.fits, h.unique, h.balance, h.ends⟩
  have hall := htick.checkAll (List.nodup_finRange DNS_TABLE_SIZE) fun _ _ => rfl
  simp only [List.mem_finRange, if_true] at hall
  unfold Inv dns_tmr dns_check_entries
  have hticks (l : List Idx) (d : Resolver κ) :
      (l.foldl (fun d i => dns_check_entry i d) d).ticks = d.ticks := by
    induction l generalizing d with
    | nil => rfl
    | cons i l ih => rw [List.foldl_cons, ih, ticks_dns_check_entry]
  rw [hticks]
  exact hall

/-! ## responses -/

theorem asking_state {txid : BitVec 16} (h : asking txid d = some i) :
    (d.dns_table i).state = .ASKING ∧ (d.dns_table i).txid = txid := by
  simpa using List.find?_some h

/-- The request of an entry that waits. -/
theorem Inv.request (h : Inv d) (hasking : (d.dns_table i).state = .ASKING) :
    ∃ r, d.dns_requests i = some r ∧ (d.dns_table i).hostname = r.hostname ∧
      r.asked_at ≤ d.ticks ∧ d.ticks + 1 + (d.dns_table i).backup ≤ r.asked_at + 14 := by
  have hfits := h.fits i
  generalize hr : d.dns_requests i = ro at hfits
  cases hfits with
  | unused hstate => rw [hstate] at hasking; cases hasking
  | asking _ hname htmr _ hasked hmost _ =>
      refine ⟨_, rfl, hname, hasked, ?_⟩
      unfold Entry.patience at hmost
      omega
  | done hstate => rw [hstate] at hasking; cases hasking

theorem Inv.finishes {e : Entry} {addr : Option IpAddr} {reason : Reason} (h : Inv d)
    (hasking : (d.dns_table i).state = .ASKING) (hfin : Finishes i e addr reason d d')
    (hstate : e.state ≠ .ASKING) (hfits : Fits d'.found d.ticks e none)
    (hname : e.hostname = (d.dns_table i).hostname) (hreason : reason ≠ .timeout)
    (hanswered : addr.isSome ↔ reason = .answered) : Inv d' := by
  obtain ⟨r, hr, hrname, hasked, hmost⟩ := h.request hasking
  have hinv := InvAt.finishes h hfin d.ticks hstate hfits fun r' hr' => ?_
  · rw [Function.update_eq_self] at hinv
    unfold Inv
    rwa [hfin.ticks]
  · obtain rfl := Option.some.inj (hr.symm.trans hr')
    exact ⟨hname.trans hrname, hasked, show d.ticks ≤ r.asked_at + 14 by omega,
      fun htimeout => absurd htimeout hreason, hanswered⟩

theorem Inv.refuse (h : Inv d) (hasking : (d.dns_table i).state = .ASKING) :
    Inv (giveUp i .refused d) :=
  h.finishes hasking (giveUp_finishes i .refused d) (by simp) (.unused rfl) rfl (by simp) (by simp)

theorem DNS_MAX_TTL_le (ttl : BitVec 32) :
    (if DNS_MAX_TTL < ttl then DNS_MAX_TTL else ttl).toNat ≤ DNS_MAX_TTL.toNat := by
  split <;> bv_omega

theorem dns_call_found_finishes (i : Idx) (addr : Option IpAddr) (reason : Reason)
    (d : Resolver κ) :
    Finishes i (d.dns_table i) addr reason d (dns_call_found i addr reason d) :=
  ⟨(Function.update_eq_self i d.dns_table).symm, rfl, rfl, rfl, rfl⟩

theorem Finishes.keeps {d₁ : Resolver κ} {e e' : Entry} {addr : Option IpAddr} {reason : Reason}
    (h : Finishes i e addr reason d d₁) (hk : Keeps i e' d₁ d') (hname : e'.hostname = e.hostname) :
    Finishes i e' addr reason d d' where
  table := by rw [hk.table, h.table, Function.update_idem]
  requests := hk.requests.trans h.requests
  found := by rw [hk.found, h.found, hname]
  queued := hk.queued.trans h.queued
  ticks := hk.ticks.trans h.ticks

/-- The entry is done, and flushed at once if it has no time to live. -/
theorem dns_correct_response_finishes {d₁ : Resolver κ} {e : Entry} (hk : Keeps i e d d₁)
    (ttl : BitVec 32) :
    ∃ state ttl', (state = .UNUSED ∨ state = .DONE ∧ 0 < ttl'.toNat ∧
        ttl'.toNat ≤ DNS_MAX_TTL.toNat) ∧
      Finishes i { e with state := state, ttl := ttl' } (some e.ipaddr) .answered d
        (dns_correct_response i ttl d₁) := by
  have hmax := DNS_MAX_TTL_le ttl
  unfold dns_correct_response
  generalize (if DNS_MAX_TTL < ttl then DNS_MAX_TTL else ttl) = ttl' at hmax ⊢
  dsimp only
  rw [hk.entry, (set_keeps ..).entry]
  have hdone := set_keeps d₁ i { e with state := .DONE, ttl := ttl' }
  have hfound := dns_call_found_finishes i (some e.ipaddr) .answered
    (d₁.set i { e with state := .DONE, ttl := ttl' })
  rw [hdone.entry] at hfound
  have hfin := (hk.trans hdone).finishes hfound
  have hentry : (dns_call_found i (some e.ipaddr) .answered
      (d₁.set i { e with state := .DONE, ttl := ttl' })).dns_table i =
        { e with state := .DONE, ttl := ttl' } := by
    rw [hfin.table, Function.update_self]
  rw [hentry]
  split
  · exact ⟨.UNUSED, ttl', Or.inl rfl, hfin.keeps (set_keeps ..) rfl⟩
  · rename_i hne
    have hzero : ttl' ≠ 0 := fun hzero => hne ⟨hzero, rfl⟩
    exact ⟨.DONE, ttl', Or.inr ⟨rfl, by bv_omega, hmax⟩, hfin⟩

theorem Inv.answer (h : Inv d) (hasking : (d.dns_table i).state = .ASKING) (ipaddr : IpAddr)
    (ttl : BitVec 32) :
    Inv (dns_correct_response i ttl (d.set i { d.dns_table i with ipaddr := ipaddr })) := by
  obtain ⟨r, hr, -⟩ := h.request hasking
  obtain ⟨state, ttl', hstate, hfin⟩ := dns_correct_response_finishes (set_keeps ..) ttl
  refine h.finishes hasking hfin ?_ ?_ rfl (by simp) (by simp)
  · rcases hstate with rfl | ⟨rfl, -⟩ <;> simp
  · rcases hstate with rfl | ⟨rfl, hpos, hmax⟩
    · exact .unused rfl
    · refine .done rfl hpos ⟨r, _, some ipaddr, .answered, d.ticks⟩ ?_ rfl rfl ?_
      · rw [hfin.found, hr]
        exact List.mem_append_right _ (List.mem_singleton_self _)
      · show d.ticks + ttl'.toNat ≤ d.ticks + DNS_MAX_TTL.toNat
        omega

theorem dns_check_entry_up {e : Entry} (he : d.dns_table i = e) (hstate : e.state = .ASKING)
    (htmr : e.tmr - 1 = 0) :
    dns_check_entry i d = retry i (d.set i { e with tmr := e.tmr - 1 }) := by
  unfold dns_check_entry
  dsimp only
  rw [he, hstate]
  dsimp only
  rw [if_pos htmr]

theorem retry_change {e : Entry} {server : Server} (he : d.dns_table i = e)
    (hmax : e.retries + 1 = DNS_MAX_RETRIES) (hserver : backupServer e d = some server) :
    retry i d =
      (dns_send i (d.set i { e with server_idx := server, tmr := 1, retries := 0 })).2 := by
  unfold retry
  dsimp only
  rw [he, if_pos hmax, hserver]

/-- Another server is asked at once. -/
theorem Inv.nextServer {d₁ : Resolver κ} {e : Entry} (h : Inv d) (hk : Keeps i e d d₁)
    (hasking : (d.dns_table i).state = .ASKING) (hstate : e.state = .ASKING)
    (htxid : e.txid = (d.dns_table i).txid) (hname : e.hostname = (d.dns_table i).hostname)
    (hidx : e.server_idx = (d.dns_table i).server_idx) (htmr : e.tmr - 1 = 0)
    (hmax : e.retries + 1 = DNS_MAX_RETRIES) (hbackup : dns_backupserver_available e d₁) :
    Inv (dns_check_entry i d₁) := by
  obtain ⟨r, hr, hrname, hasked, hmost⟩ := h.request hasking
  obtain ⟨server, hserver⟩ := Option.isSome_iff_exists.mp hbackup
  obtain ⟨hfirst, hne⟩ := backupServer_eq hserver
  rw [Entry.backup, if_pos ((congrArg Fin.val hidx).symm.trans hfirst)] at hmost
  have hkeeps := hk.trans (set_keeps d₁ i { e with tmr := e.tmr - 1 })
  rw [dns_check_entry_up hk.entry hstate htmr, retry_change hkeeps.entry hmax hserver]
  have hinv := InvAt.change h hasking (hkeeps.trans (set_keeps ..)) hne hr hstate htxid
    (hname.trans hrname) hasked (by omega)
  rw [Function.update_eq_self] at hinv
  unfold Inv
  rw [ticks_dns_send]
  exact hkeeps.ticks.symm ▸ hinv

theorem Inv.receiveAnswers (h : Inv d) (hasking : (d.dns_table i).state = .ASKING)
    (hdr : List Byte) (p : Chain) (res_idx : BitVec 16) :
    Inv (receiveAnswers i hdr p res_idx d) := by
  unfold Dns.receiveAnswers
  dsimp only
  split
  · split
    · rename_i hbackup
      exact h.nextServer (set_keeps ..) hasking hasking rfl rfl rfl
        (show (1 : BitVec 8) - 1 = 0 by decide)
        (show DNS_MAX_RETRIES - 1 + 1 = DNS_MAX_RETRIES by decide) hbackup
    · exact h.refuse hasking
  · split
    · exact h
    · exact h.answer hasking ..
    · exact h.refuse hasking

/-- A message is ignored unless it comes from the server that the entry has asked, and its
question agrees with the name. -/
theorem receive_cases {hdr : List Byte} {p : Chain} {addr : IpAddr}
    (h : receive i hdr p addr d = some d') :
    d' = d ∨ addr = d.dns_servers (d.dns_table i).server_idx ∧
      ∃ ls bs res_idx, Question (d.dns_table i).name p SIZEOF_DNS_HDR 0 ls bs ∧
        d' = receiveAnswers i hdr p res_idx d := by
  unfold receive at h
  dsimp only at h
  split at h
  · exact Or.inl (Option.some.inj h).symm
  split at h
  · exact Or.inl (Option.some.inj h).symm
  split at h
  · exact Or.inl (Option.some.inj h).symm
  rename_i hserver
  split at h
  · rename_i res_idx hret
    split at h
    · exact Or.inl (Option.some.inj h).symm
    rename_i hne
    obtain ⟨ls, bs, hquestion, -⟩ := question_of_compare hret hne
    repeat' split at h
    all_goals obtain rfl := Option.some.inj h
    all_goals first | exact Or.inl rfl | skip
    exact Or.inr ⟨not_not.mp hserver, ls, bs, _, hquestion, rfl⟩
  · cases h

theorem Inv.recv (h : Inv d) {p : Chain} {addr : IpAddr} (hrecv : dns_recv p addr d = some d') :
    Inv d' := by
  unfold dns_recv at hrecv
  split at hrecv
  · cases hrecv
    exact h
  dsimp only at hrecv
  split at hrecv
  · rename_i i hi
    rcases receive_cases hrecv with rfl | ⟨-, ls, bs, res_idx, -, rfl⟩
    · exact h
    · exact h.receiveAnswers (asking_state hi).1 ..
  · cases hrecv
    exact h

/-! ## requests -/

theorem oldestDone_done (d : Resolver κ) :
    ∀ i, (oldestDone d).2 = some i → (d.dns_table i).state = .DONE := by
  unfold oldestDone
  refine List.foldlRecOn (motive := fun oldest : BitVec 8 × Option Idx =>
    ∀ i, oldest.2 = some i → (d.dns_table i).state = .DONE) _ _ (by simp)
      fun oldest ih j _ i h => ?_
  dsimp only at h
  split at h
  · rename_i hdone
    cases h
    exact hdone.1
  · exact ih i h

theorem freeEntry_none (h : Inv d) (hfree : freeEntry d = some i) : d.dns_requests i = none := by
  have hstate : (d.dns_table i).state ≠ .ASKING := by
    unfold freeEntry at hfree
    split at hfree
    · rename_i j hj
      cases hfree
      have := List.find?_some hj
      simp_all
    · rw [oldestDone_done d i hfree]
      simp
  have hfits := h.fits i
  generalize d.dns_requests i = ro at hfits ⊢
  cases hfits with
  | unused => rfl
  | asking hasking => exact absurd hasking hstate
  | done => rfl

/-- The name that is copied to an entry is the one it has. -/
theorem hostname_store {e : Entry} {name : List Byte} (hlen : name.length < DNS_MAX_NAME_LENGTH)
    (hstring : ∀ c ∈ name, c ≠ 0) :
    Entry.hostname { e with name := Mem.store e.name 0 (name ++ [0]) } = name := by
  have hfront : (Mem.load (Mem.store e.name 0 (name ++ [0])) 0 DNS_MAX_NAME_LENGTH).take
      (name ++ [0]).length = name ++ [0] := by
    conv_rhs => rw [← Mem.load_store e.name 0 (name ++ [0])]
    rw [Mem.load, Mem.load, ← List.map_take, List.take_range, Nat.min_eq_left]
    rw [List.length_append]
    exact hlen
  unfold Entry.hostname
  rw [← List.take_append_drop (name ++ [0]).length (Mem.load _ _ _), hfront, List.append_assoc,
    List.takeWhile_append_of_pos (by simpa using hstring)]
  simp

theorem dns_check_entry_new {e : Entry} (he : d.dns_table i = e) (hstate : e.state = .NEW) :
    dns_check_entry i d =
      (dns_send i ({ d with dns_txid := dns_create_txid d }.set i { e with
        txid := dns_create_txid d, state := .ASKING, server_idx := ⟨0, by decide⟩, tmr := 1,
        retries := 0 })).2 := by
  unfold dns_check_entry
  dsimp only
  rw [he, hstate]

theorem Inv.ask (h : Inv d) (hasking : (d.dns_table i).state = .ASKING) :
    Inv (dns_send i d).2 := by
  have hinv := InvAt.send h (Keeps.refl d i) (h.fits i) (h.differs hasking)
  rw [Function.update_eq_self] at hinv
  unfold Inv
  rwa [ticks_dns_send]

/-- An entry with a new request asks at once. -/
theorem Inv.queue {d₁ : Resolver κ} {e : Entry} {r : Request κ} (h : Inv d)
    (hnone : d.dns_requests i = none) (ho : Opens i e r d d₁) (hstate : e.state = .NEW)
    (hname : e.hostname = r.hostname) (hasked : r.asked_at = d.ticks) :
    Inv (dns_check_entry i d₁) := by
  have hentry : d₁.dns_table i = e := by rw [ho.table, Function.update_self]
  rw [dns_check_entry_new hentry hstate]
  have hfresh (j : Idx) (hj : j ≠ i) (hasking : (d.dns_table j).state = .ASKING) :
      (d.dns_table j).txid ≠ dns_create_txid d₁ := by
    intro heq
    refine dns_create_txid_fresh d₁ (txidUsed_iff.mpr ⟨j, ?_⟩)
    rw [ho.table, Function.update_of_ne hj]
    exact ⟨hasking, heq⟩
  generalize dns_create_txid d₁ = txid at hfresh ⊢
  have hopens : Opens i { e with
      txid := txid, state := .ASKING, server_idx := ⟨0, by decide⟩, tmr := 1, retries := 0 } r d
      ({ d₁ with dns_txid := txid }.set i { e with
        txid := txid, state := .ASKING, server_idx := ⟨0, by decide⟩, tmr := 1, retries := 0 }) :=
    ⟨by rw [Resolver.set, ho.table, Function.update_idem], ho.requests, ho.found, ho.queued,
      ho.ticks⟩
  have hinv := InvAt.opens h hopens d.ticks hnone ?_ hfresh
  · rw [Function.update_eq_self] at hinv
    refine Inv.ask ?_ (by rw [(set_keeps ..).entry])
    unfold Inv
    rwa [hopens.ticks]
  · refine .asking rfl hname (by simp) (by simp) hasked.le ?_ ?_
    · show d.ticks + (1 + 6) + 7 ≤ r.asked_at + 14
      omega
    · show r.asked_at + 7 ≤ d.ticks + (1 + 6)
      omega

theorem Inv.enqueue (h : Inv d) {name : List Byte} (hostnamelen : Nat) (found : Option κ)
    (hstring : ∀ c ∈ name, c ≠ 0) : Inv (dns_enqueue name hostnamelen found d).2 := by
  unfold dns_enqueue
  dsimp only
  split
  · exact h
  · rename_i i hfree
    have hlen : (name.take (min hostnamelen (DNS_MAX_NAME_LENGTH - 1))).length <
        DNS_MAX_NAME_LENGTH := by
      rw [List.length_take]
      unfold DNS_MAX_NAME_LENGTH
      omega
    have hname := hostname_store (e := d.dns_table i) hlen fun c hc =>
      hstring c (List.mem_of_mem_take hc)
    exact h.queue (freeEntry_none h hfree) ⟨rfl, rfl, rfl, rfl, rfl⟩ rfl hname rfl

theorem Inv.gethostbyname (h : Inv d) {hostname : List Byte} (found : Option κ)
    (hstring : ∀ c ∈ hostname, c ≠ 0) : Inv (dns_gethostbyname hostname found d).2 := by
  unfold dns_gethostbyname
  dsimp only
  repeat' split
  all_goals first | exact h | exact h.enqueue _ found hstring

theorem step_inv (h : Inv d) (hs : Step d d') : Inv d' := by
  cases hs with
  | init => exact ⟨h.fits, h.unique, h.balance, h.ends⟩
  | setserver =>
      unfold dns_setserver
      split
      · exact ⟨h.fits, h.unique, h.balance, h.ends⟩
      · exact h
  | gethostbyname hostname found hstring => exact h.gethostbyname found hstring
  | tmr => exact h.tmr
  | recv p addr hrecv => exact h.recv hrecv
  | net => exact ⟨h.fits, h.unique, h.balance, h.ends⟩

theorem Reachable.inv (h : Reachable d) : Inv d := by
  induction h with
  | new net =>
      refine ⟨fun i => .unused rfl, fun i j hi => ?_, ?_, by simp [Resolver.zero]⟩
      · cases hi
      · simp [waiting, Resolver.zero]
  | step _ hs ih => exact step_inv ih hs

/-! ## a run -/

/-- A client with a server, which is asked for "a". -/
def asked : Resolver Unit :=
  (dns_gethostbyname [0x61] none
    (dns_setserver 0 (some 0x0100000a) (dns_init (.zero fun _ => some .ERR_OK)))).2

theorem asked_reachable : Reachable asked :=
  .step (.step (.step (.new _) (.init _)) (.setserver ..)) (.gethostbyname _ _ _ (by decide))

/-- The address is 10.0.0.2, for a minute. -/
def answer : Chain :=
  ⟨[[0, 1, 0x81, 0x80, 0, 1, 0, 1, 0, 0, 0, 0, 1, 0x61, 0, 0, 1, 0, 1,
    0xc0, 0x0c, 0, 1, 0, 1, 0, 0, 0, 60, 0, 4, 10, 0, 0, 2]], by decide⟩

/-- The server has answered. -/
def resolved : Resolver Unit := (dns_recv answer 0x0100000a asked).getD asked

theorem recv_answer : dns_recv answer 0x0100000a asked = some resolved := by
  have hsome : (dns_recv answer 0x0100000a asked).isSome := by decide +kernel
  obtain ⟨d, hd⟩ := Option.isSome_iff_exists.mp hsome
  rw [resolved, hd, Option.getD_some]

theorem resolved_reachable : Reachable resolved := .step asked_reachable (.recv _ _ recv_answer)

/-! ## what holds of every run -/

/-- Each request that was queued has ended or waits, and is exactly one of these. -/
theorem lookups_balance (h : Reachable d) :
    d.queued.Perm (d.found.map Found.request ++ waiting d) :=
  h.inv.balance

theorem lookups_balance_resolved :
    resolved.queued.Perm (resolved.found.map Found.request ++ waiting resolved) :=
  lookups_balance resolved_reachable

/-- No request waits for the fourteenth tick behind it.  One that has ended did so with its own
name, in time, and with an address if and only if there was an answer. -/
theorem lookups_end (h : Reachable d) :
    (∀ r ∈ waiting d, r.asked_at ≤ d.ticks ∧ d.ticks < r.asked_at + 14) ∧
      ∀ f ∈ d.found, f.name = f.request.hostname ∧ f.request.asked_at ≤ f.at_ ∧
        f.at_ ≤ f.request.asked_at + 14 ∧
        (f.reason = .timeout → f.request.asked_at + 7 ≤ f.at_) ∧
        (f.ipaddr.isSome ↔ f.reason = .answered) := by
  refine ⟨fun r hr => ?_, fun f hf => ?_⟩
  · obtain ⟨i, -, hi⟩ := List.mem_filterMap.mp hr
    have hfits := h.inv.fits i
    rw [hi] at hfits
    cases hfits with
    | asking _ _ htmr _ hasked hmost _ =>
        unfold Entry.patience at hmost
        omega
  · obtain ⟨hname, hasked, hmost, hleast, hanswered⟩ := h.inv.ends f hf
    exact ⟨hname, hasked, hmost, hleast, hanswered⟩

theorem lookups_end_resolved :
    (∀ r ∈ waiting resolved, r.asked_at ≤ resolved.ticks ∧ resolved.ticks < r.asked_at + 14) ∧
      ∀ f ∈ resolved.found, f.name = f.request.hostname ∧ f.request.asked_at ≤ f.at_ ∧
        f.at_ ≤ f.request.asked_at + 14 ∧
        (f.reason = .timeout → f.request.asked_at + 7 ≤ f.at_) ∧
        (f.ipaddr.isSome ↔ f.reason = .answered) :=
  lookups_end resolved_reachable

/-- A message with the ID of an entry that waits is for this entry and no other. -/
theorem txids_differ (h : Reachable d) (txid : BitVec 16) (i : Idx) :
    asking txid d = some i ↔ (d.dns_table i).state = .ASKING ∧ (d.dns_table i).txid = txid := by
  refine ⟨asking_state, fun ⟨hstate, htxid⟩ => ?_⟩
  cases hfind : asking txid d with
  | none =>
      have hnone := List.find?_eq_none.mp hfind i (List.mem_finRange i)
      exact absurd (decide_eq_true ⟨hstate, htxid⟩) hnone
  | some j =>
      obtain ⟨hstate', htxid'⟩ := asking_state hfind
      rw [h.inv.unique i j hstate hstate' (htxid.trans htxid'.symm)]

theorem txids_differ_asked : asking 1 asked = some ⟨0, by decide⟩ :=
  (txids_differ asked_reachable 1 ⟨0, by decide⟩).mpr (by decide +kernel)

/-- An address from the table is one that was answered for the name of its entry, less than
`DNS_MAX_TTL` ticks ago. -/
theorem lookup_fresh (h : Reachable d) {name : List Byte} {hostnamelen : Nat} {addr : IpAddr}
    (hlookup : dns_lookup name hostnamelen d = some addr) :
    ∃ i, ∃ f ∈ d.found, (d.dns_table i).hostname = f.name ∧ f.ipaddr = some addr ∧
      lwip_strnicmp (d.dns_table i).name name 0
        (BitVec.ofNat 32 (min hostnamelen (DNS_MAX_NAME_LENGTH - 1))) ∧
      d.ticks < f.at_ + DNS_MAX_TTL.toNat := by
  obtain ⟨i, hfind, rfl⟩ := Option.map_eq_some_iff.mp hlookup
  have hentry := List.find?_some hfind
  simp only [Bool.decide_and, Bool.and_eq_true, decide_eq_true_eq] at hentry
  obtain ⟨hdone, hsame, -⟩ := hentry
  have hfits := h.inv.fits i
  generalize d.dns_requests i = ro at hfits
  cases hfits with
  | unused hstate => rw [hstate] at hdone; cases hdone
  | asking hstate => rw [hstate] at hdone; cases hdone
  | done _ httl f hf haddr hname hfresh =>
      exact ⟨i, f, hf, hname.symm, haddr, hsame, by omega⟩

theorem lookup_fresh_resolved :
    ∃ i, ∃ f ∈ resolved.found, (resolved.dns_table i).hostname = f.name ∧
      f.ipaddr = some 0x0200000a ∧
      lwip_strnicmp (resolved.dns_table i).name [0x61] 0
        (BitVec.ofNat 32 (min 1 (DNS_MAX_NAME_LENGTH - 1))) ∧
      resolved.ticks < f.at_ + DNS_MAX_TTL.toNat :=
  lookup_fresh resolved_reachable (by decide +kernel)

end Enc28j60.Dns
