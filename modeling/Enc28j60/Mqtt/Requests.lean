import Enc28j60.App.State
import Enc28j60.Lib.DeltaList
import Enc28j60.Lib.Linked
import Mathlib.Data.List.TakeWhile

/-!
# Enc28j60.Mqtt.Requests

The pending requests of `mqtt.c`: four request items, of which those in use are
linked in the order they were appended, each with the time from the timeout of
the one before it to its own.  An item that points to itself is not in use.

`pending` is the queue as a list of requests with the time each of them has left.
There is one lemma for each operation, which says what it does to that list.
-/

namespace Enc28j60.Mqtt

open App (LwipErr)

def MQTT_REQ_MAX_IN_FLIGHT : Nat := 4
def MQTT_REQ_TIMEOUT : BitVec 16 := 30

/-- A pointer to an item of `req_list`. -/
abbrev Slot := Fin MQTT_REQ_MAX_IN_FLIGHT

/-- `struct mqtt_request_t`; `cb` is the callback with its argument. -/
structure Request (κ : Type) where
  next : Option Slot := none
  cb : Option κ := none
  pkt_id : BitVec 16 := 0
  timeout_diff : BitVec 16 := 0

/-- The part of a client that the request functions work on. -/
structure Requests (κ : Type) where
  pend_req_queue : Option Slot := none
  req_list : Slot → Request κ := fun _ => {}

/-- A call of a request's callback. -/
abbrev Completion (κ : Type) := κ × LwipErr

namespace Requests

variable {κ : Type}

def next (rq : Requests κ) (i : Slot) : Option Slot := (rq.req_list i).next

def set (rq : Requests κ) (i : Slot) (r : Request κ) : Requests κ :=
  { rq with req_list := Function.update rq.req_list i r }

/-- What a loop over the queue comes across. -/
def queue (rq : Requests κ) : List Slot :=
  Linked.walk rq.next MQTT_REQ_MAX_IN_FLIGHT rq.pend_req_queue

/-- The callback of an item, if it has one. -/
def call (rq : Requests κ) (i : Slot) (err : LwipErr) : List (Completion κ) :=
  (rq.req_list i).cb.toList.map fun cb => (cb, err)

/-! ## the functions -/

/-- Create request item: the first one that is not in use. -/
def mqtt_create_request (pkt_id : BitVec 16) (cb : Option κ) (rq : Requests κ) :
    Option Slot × Requests κ :=
  match (List.finRange MQTT_REQ_MAX_IN_FLIGHT).find? fun n => rq.next n = some n with
  | some n =>
      (some n, rq.set n { rq.req_list n with next := none, cb := cb, pkt_id := pkt_id })
  | none => (none, rq)

/-- Let `r` follow `head`, or be the first one. -/
def chain (head : Option Slot) (r : Option Slot) (rq : Requests κ) : Requests κ :=
  match head with
  | none => { rq with pend_req_queue := r }
  | some head => rq.set head { rq.req_list head with next := r }

/-- Append request to pending request queue. -/
def mqtt_append_request (r : Slot) (rq : Requests κ) : Requests κ :=
  let time_before := (rq.queue.map fun iter => (rq.req_list iter).timeout_diff).sum
  (rq.set r { rq.req_list r with timeout_diff := MQTT_REQ_TIMEOUT - time_before }).chain
    rq.queue.getLast? (some r)

/-- Delete request item. -/
def mqtt_delete_request (r : Slot) (rq : Requests κ) : Requests κ :=
  rq.set r { rq.req_list r with next := some r }

/-- Add the remaining time of `iter` to the request behind it. -/
def passTime (iter : Slot) (rq : Requests κ) : Requests κ :=
  match rq.next iter with
  | none => rq
  | some n =>
      rq.set n { rq.req_list n with
        timeout_diff := (rq.req_list n).timeout_diff + (rq.req_list iter).timeout_diff }

/-- Remove a request item with a specific packet identifier from request queue. -/
def mqtt_take_request (pkt_id : BitVec 16) (rq : Requests κ) : Option Slot × Requests κ :=
  match rq.queue.dropWhile fun iter => (rq.req_list iter).pkt_id ≠ pkt_id with
  | [] => (none, rq)
  | iter :: _ =>
      let before := rq.queue.takeWhile fun iter => (rq.req_list iter).pkt_id ≠ pkt_id
      let taken := (rq.chain before.getLast? (rq.next iter)).passTime iter
      (some iter, taken.set iter { taken.req_list iter with next := none })

/-- The loop of `mqtt_request_time_elapsed`, as far as `n` rounds of it. -/
def timeElapsed : Nat → BitVec 8 → Requests κ → List (Completion κ) × Requests κ
  | n + 1, t, rq =>
      match rq.pend_req_queue with
      | some r =>
          if 0 < t then
            if (rq.req_list r).timeout_diff ≤ t.setWidth 16 then
              let unchained := { rq with pend_req_queue := rq.next r }
              let rest := timeElapsed n (t - (rq.req_list r).timeout_diff.setWidth 8)
                (unchained.mqtt_delete_request r)
              (rq.call r .ERR_TIMEOUT ++ rest.1, rest.2)
            else
              ([], rq.set r { rq.req_list r with
                timeout_diff := (rq.req_list r).timeout_diff - t.setWidth 16 })
          else
            ([], rq)
      | none => ([], rq)
  | 0, _, rq => ([], rq)

/-- Handle requests timeout; each round but the last takes an item off the queue. -/
def mqtt_request_time_elapsed (t : BitVec 8) (rq : Requests κ) :
    List (Completion κ) × Requests κ :=
  timeElapsed (MQTT_REQ_MAX_IN_FLIGHT + 1) t rq

/-- Free all request items. -/
def mqtt_clear_requests (rq : Requests κ) : Requests κ :=
  { rq.queue.foldl (fun rq iter => rq.mqtt_delete_request iter) rq with pend_req_queue := none }

/-- Initialize all request items. -/
def mqtt_init_requests (rq : Requests κ) : Requests κ :=
  { rq with req_list := fun n => { rq.req_list n with next := some n } }

/-! ## the queue as a list -/

section Queue

variable {rq : Requests κ} {l : List Slot} {i n : Slot}

@[simp] theorem next_set (rq : Requests κ) (i : Slot) (r : Request κ) :
    (rq.set i r).next = Function.update rq.next i r.next := by
  funext j
  by_cases h : j = i
  · subst h
    simp [next, set]
  · simp [next, set, h]

@[simp] theorem pend_set (rq : Requests κ) (i : Slot) (r : Request κ) :
    (rq.set i r).pend_req_queue = rq.pend_req_queue := rfl

theorem req_list_set_of_ne {j : Slot} (r : Request κ) (h : j ≠ i) :
    (rq.set i r).req_list j = rq.req_list j := by
  simp [set, h]

@[simp] theorem req_list_set_self (rq : Requests κ) (i : Slot) (r : Request κ) :
    (rq.set i r).req_list i = r := by
  simp [set]

/-- The queue consists of `l`.  Each other item is free or waits to be deleted. -/
structure Queued (rq : Requests κ) (l : List Slot) : Prop where
  path : Linked.Path rq.next rq.pend_req_queue l none
  nodup : l.Nodup
  out : ∀ i ∉ l, rq.next i = some i ∨ rq.next i = none

theorem Queued.queue_eq (h : rq.Queued l) : rq.queue = l := by
  simpa [queue] using Linked.walk_of_nodup h.path h.nodup

/-- A free item is not in the queue. -/
theorem Queued.not_mem (h : rq.Queued l) (hi : rq.next i = some i) : i ∉ l :=
  fun hmem => h.path.next_ne h.nodup hmem hi

/-- Items out of the queue may be given any link that says so. -/
theorem Queued.set_out (h : rq.Queued l) (hi : i ∉ l) {r : Request κ}
    (hr : r.next = some i ∨ r.next = none) : (rq.set i r).Queued l where
  path := by
    rw [next_set, pend_set]
    exact h.path.congr fun j hj => Function.update_of_ne (ne_of_mem_of_not_mem hj hi) _ _
  nodup := h.nodup
  out := fun j hj => by
    rw [next_set]
    by_cases hji : j = i
    · subst hji
      simpa using hr
    · rw [Function.update_of_ne hji]
      exact h.out j hj

/-- A link that stays as it is does not matter. -/
theorem Queued.set_same (h : rq.Queued l) {r : Request κ} (hr : r.next = rq.next i) :
    (rq.set i r).Queued l := by
  have hnext : (rq.set i r).next = rq.next := by
    rw [next_set, hr, Function.update_eq_self]
  exact ⟨by rw [hnext]; exact h.path, h.nodup, by rw [hnext]; exact h.out⟩

end Queue

/-! ## the requests in the queue -/

/-- A request as its caller knows it. -/
structure Asked (κ : Type) where
  pkt_id : BitVec 16
  cb : Option κ

def asked (rq : Requests κ) (i : Slot) : Asked κ where
  pkt_id := (rq.req_list i).pkt_id
  cb := (rq.req_list i).cb

def delta (rq : Requests κ) (i : Slot) : Nat × Asked κ :=
  ((rq.req_list i).timeout_diff.toNat, rq.asked i)

def deltas (rq : Requests κ) : List (Nat × Asked κ) := rq.queue.map rq.delta

/-- The requests in the queue, each with the time it has left. -/
def pending (rq : Requests κ) : List (Nat × Asked κ) := DeltaList.times 0 rq.deltas

/-- The queue is one, and no request has more than the timeout left. -/
structure Inv (rq : Requests κ) : Prop where
  queued : rq.Queued rq.queue
  total : DeltaList.total rq.deltas ≤ 30

/-- Each item is in the queue or free. -/
def Tight (rq : Requests κ) : Prop := ∀ i ∉ rq.queue, rq.next i = some i

variable {rq rq' : Requests κ} {l : List Slot} {n : Slot}

theorem Queued.inv (h : rq.Queued l) (htotal : DeltaList.total (l.map rq.delta) ≤ 30) :
    rq.Inv := by
  refine ⟨?_, ?_⟩
  · rw [h.queue_eq]
    exact h
  · rw [deltas, h.queue_eq]
    exact htotal

theorem delta_set_of_ne {i j : Slot} (r : Request κ) (h : j ≠ i) :
    (rq.set i r).delta j = rq.delta j := by
  simp [delta, asked, req_list_set_of_ne r h]

/-- Items out of the queue do not show. -/
theorem map_delta_set {r : Request κ} (hn : n ∉ l) :
    l.map (rq.set n r).delta = l.map rq.delta :=
  List.map_congr_left fun _ hj => delta_set_of_ne r (ne_of_mem_of_not_mem hj hn)

/-- An item out of the queue may be set to one that is out of it. -/
theorem Inv.set_out (h : rq.Inv) (hn : n ∉ rq.queue) {r : Request κ}
    (hr : r.next = some n ∨ r.next = none) :
    (rq.set n r).Inv ∧ (rq.set n r).queue = rq.queue ∧ (rq.set n r).deltas = rq.deltas := by
  have hqueued := h.queued.set_out hn hr
  have hdeltas : rq.queue.map (rq.set n r).delta = rq.queue.map rq.delta := map_delta_set hn
  refine ⟨hqueued.inv (by rw [hdeltas]; exact h.total), hqueued.queue_eq, ?_⟩
  rw [deltas, hqueued.queue_eq, hdeltas, deltas]

/-! ### create and delete -/

/-- A request item is found as long as one is free. -/
theorem create_eq_none_iff (rq : Requests κ) (pkt_id : BitVec 16) (cb : Option κ) :
    (rq.mqtt_create_request pkt_id cb).1 = none ↔ ∀ i, rq.next i ≠ some i := by
  unfold mqtt_create_request
  split
  · rename_i n hfind
    simpa using ⟨n, by simpa using List.find?_some hfind⟩
  · rename_i hfind
    simpa using hfind

theorem create_eq_self (rq : Requests κ) {pkt_id : BitVec 16} {cb : Option κ}
    (h : (rq.mqtt_create_request pkt_id cb).1 = none) :
    (rq.mqtt_create_request pkt_id cb).2 = rq := by
  unfold mqtt_create_request at h ⊢
  split <;> simp_all

theorem create_spec (h : rq.Inv) {pkt_id : BitVec 16} {cb : Option κ}
    (hn : (rq.mqtt_create_request pkt_id cb).1 = some n) :
    let created := (rq.mqtt_create_request pkt_id cb).2
    rq.next n = some n ∧ n ∉ rq.queue ∧
      created = rq.set n { rq.req_list n with next := none, cb := cb, pkt_id := pkt_id } := by
  unfold mqtt_create_request at hn ⊢
  split at hn
  · rename_i m hfind
    obtain rfl : m = n := by simpa using hn
    have hfree : rq.next m = some m := by simpa using List.find?_some hfind
    simp [hfree, h.queued.not_mem hfree]
  · simp at hn

/-! ### append -/

theorem sum_map_fst {α : Type} (l : List (Nat × α)) : (l.map Prod.fst).sum = DeltaList.total l := by
  induction l with
  | nil => rfl
  | cons e l ih => simp [ih]

theorem toNat_sum (ds : List (BitVec 16)) :
    ds.sum.toNat = (ds.map BitVec.toNat).sum % 2 ^ 16 := by
  induction ds with
  | nil => rfl
  | cons d ds ih => simp [ih]

/-- A change of links does not show in the requests. -/
@[simp] theorem delta_chain (rq : Requests κ) (head r : Option Slot) :
    (rq.chain head r).delta = rq.delta := by
  funext i
  cases head with
  | none => rfl
  | some head =>
      by_cases hi : i = head
      · subst hi
        simp [chain, delta, asked]
      · exact delta_set_of_ne _ hi

/-- Link the end of the cells `l` to something else. -/
theorem path_chain {p r : Option Slot} (hpath : Linked.Path rq.next rq.pend_req_queue l p)
    (hl : l.Nodup) :
    Linked.Path (rq.chain l.getLast? r).next (rq.chain l.getLast? r).pend_req_queue l r := by
  rcases List.eq_nil_or_concat' l with rfl | ⟨before, prev, rfl⟩
  · rfl
  · have hprev : prev ∉ before := fun hmem => by
      simpa using (List.nodup_append.mp hl).2.2 prev hmem prev
    simpa [chain] using hpath.relink hprev

theorem next_chain {i : Slot} {r : Option Slot} (hi : i ∉ l) :
    (rq.chain l.getLast? r).next i = rq.next i := by
  rcases List.eq_nil_or_concat' l with rfl | ⟨before, prev, rfl⟩
  · rfl
  · have hne : i ≠ prev := by simp_all
    simp [chain, hne]

theorem append_spec (h : rq.Inv) (hn : n ∉ rq.queue) (hnext : rq.next n = none) :
    let appended := rq.mqtt_append_request n
    appended.Inv ∧ appended.queue = rq.queue ++ [n] ∧
      appended.pending = rq.pending ++ [(30, rq.asked n)] ∧
      ∀ i ∉ appended.queue, appended.next i = rq.next i := by
  intro appended
  have htotal := h.total
  have htime : (MQTT_REQ_TIMEOUT -
      (rq.queue.map fun iter => (rq.req_list iter).timeout_diff).sum).toNat =
      30 - DeltaList.total rq.deltas := by
    have hsum : (rq.queue.map fun iter => (rq.req_list iter).timeout_diff).sum.toNat =
        DeltaList.total rq.deltas := by
      have hmap : (rq.queue.map fun iter => (rq.req_list iter).timeout_diff).map BitVec.toNat =
          rq.deltas.map Prod.fst := by
        simp [deltas, delta, Function.comp_def]
      rw [toNat_sum, hmap, sum_map_fst]
      exact Nat.mod_eq_of_lt (Nat.lt_of_le_of_lt htotal (by decide))
    rw [BitVec.toNat_sub, hsum, MQTT_REQ_TIMEOUT]
    simp
    omega
  -- first the time of the new request, then its link
  have htimed := h.queued.set_same (i := n)
    (r := { rq.req_list n with timeout_diff := MQTT_REQ_TIMEOUT -
      (rq.queue.map fun iter => (rq.req_list iter).timeout_diff).sum }) rfl
  have hout (i : Slot) (hi : i ∉ rq.queue) : appended.next i = rq.next i := by
    rw [show appended.next i = _ from next_chain hi, next_set]
    exact congrFun (Function.update_eq_self n rq.next) i
  have hqueued : appended.Queued (rq.queue ++ [n]) := by
    refine ⟨Linked.path_append.mpr ⟨some n, path_chain htimed.path h.queued.nodup, rfl, ?_⟩, ?_, ?_⟩
    · rw [Linked.path_nil, hout n hn, hnext]
    · rw [List.nodup_append]
      simpa using ⟨h.queued.nodup, fun i hi heq => hn (heq ▸ hi)⟩
    · intro i hi
      rw [List.mem_append, not_or] at hi
      rw [hout i hi.1]
      exact h.queued.out i hi.1
  have hdelta : (rq.queue ++ [n]).map appended.delta =
      rq.deltas ++ [(30 - DeltaList.total rq.deltas, rq.asked n)] := by
    rw [List.map_append, show appended.delta = _ from delta_chain _ _ _, map_delta_set hn]
    simp [deltas, delta, asked, htime]
  refine ⟨hqueued.inv ?_, hqueued.queue_eq, ?_, fun i hi => hout i ?_⟩
  · rw [hdelta]
    simp
    omega
  · rw [pending, deltas, hqueued.queue_eq, hdelta, DeltaList.times_append_rest htotal, pending]
  · rw [hqueued.queue_eq] at hi
    simp_all

/-! ### take -/

@[simp] theorem next_passTime (rq : Requests κ) (iter : Slot) :
    (rq.passTime iter).next = rq.next := by
  unfold passTime
  split
  · rfl
  · rw [next_set]
    exact Function.update_eq_self _ _

@[simp] theorem pend_passTime (rq : Requests κ) (iter : Slot) :
    (rq.passTime iter).pend_req_queue = rq.pend_req_queue := by
  unfold passTime
  split <;> rfl

/-- What the caller knows is not changed by a change of link or time. -/
theorem asked_set {i : Slot} {r : Request κ} (hid : r.pkt_id = (rq.req_list i).pkt_id)
    (hcb : r.cb = (rq.req_list i).cb) : (rq.set i r).asked = rq.asked := by
  funext j
  by_cases hj : j = i
  · subst hj
    simp [asked, hid, hcb]
  · simp [asked, req_list_set_of_ne r hj]

@[simp] theorem asked_chain (rq : Requests κ) (head r : Option Slot) :
    (rq.chain head r).asked = rq.asked := by
  unfold chain
  split
  · rfl
  · exact asked_set rfl rfl

@[simp] theorem asked_passTime (rq : Requests κ) (iter : Slot) :
    (rq.passTime iter).asked = rq.asked := by
  unfold passTime
  split
  · rfl
  · exact asked_set rfl rfl

/-- The time of `iter` goes to the first of the requests `behind` it. -/
theorem map_delta_passTime {iter : Slot} {before behind : List Slot}
    (hpath : Linked.Path rq.next (rq.next iter) behind none)
    (hnodup : (before ++ iter :: behind).Nodup)
    (htotal : DeltaList.total ((before ++ iter :: behind).map rq.delta) < 2 ^ 16) :
    before.map (rq.passTime iter).delta = before.map rq.delta ∧
      behind.map (rq.passTime iter).delta =
        DeltaList.carry (rq.delta iter).1 (behind.map rq.delta) := by
  cases behind with
  | nil =>
      have hend : rq.next iter = none := hpath
      simp [passTime, hend, DeltaList.carry]
  | cons n behind =>
      have hn : rq.next iter = some n := hpath.1
      have hbefore : n ∉ before := fun hmem => by
        simpa using (List.nodup_append.mp hnodup).2.2 n hmem n
      have hbehind : n ∉ behind :=
        (List.nodup_cons.mp (List.nodup_cons.mp (List.nodup_append.mp hnodup).2.1).2).1
      have hsum : ((rq.req_list n).timeout_diff + (rq.req_list iter).timeout_diff).toNat =
          (rq.delta n).1 + (rq.delta iter).1 := by
        simp only [List.map_append, List.map_cons, DeltaList.total_append,
          DeltaList.total_cons] at htotal
        simp only [delta] at htotal ⊢
        rw [BitVec.toNat_add, Nat.mod_eq_of_lt (by omega)]
      unfold passTime
      rw [hn]
      refine ⟨map_delta_set hbefore, ?_⟩
      rw [List.map_cons, map_delta_set hbehind]
      simp only [List.map_cons, DeltaList.carry, ← hsum]
      simp [delta, asked]

/-- A request found by its identifier, between the others. -/
theorem take_split {pkt_id : BitVec 16} (hn : (rq.mqtt_take_request pkt_id).1 = some n) :
    ∃ before behind, rq.queue = before ++ n :: behind ∧
      (∀ i ∈ before, (rq.asked i).pkt_id ≠ pkt_id) ∧ (rq.asked n).pkt_id = pkt_id ∧
      ∃ taken, taken = (rq.chain before.getLast? (rq.next n)).passTime n ∧
        (rq.mqtt_take_request pkt_id).2 = taken.set n { taken.req_list n with next := none } := by
  unfold mqtt_take_request at hn ⊢
  split at hn
  · simp at hn
  · rename_i iter behind hdrop
    obtain rfl : iter = n := by simpa using hn
    refine ⟨rq.queue.takeWhile fun iter => (rq.req_list iter).pkt_id ≠ pkt_id, behind, ?_,
      fun i hi => ?_, ?_, _, rfl, rfl⟩
    · rw [← hdrop, List.takeWhile_append_dropWhile]
    · simpa [asked] using List.mem_takeWhile_imp hi
    · have hhead := List.head?_dropWhile_not
        (fun iter => (rq.req_list iter).pkt_id ≠ pkt_id) rq.queue
      rw [hdrop] at hhead
      simpa [asked] using hhead

/-- What a successful `mqtt_take_request` does: the first request with the identifier
leaves the queue, and no other one gets more or less time for it. -/
theorem take_spec (h : rq.Inv) {pkt_id : BitVec 16}
    (hn : (rq.mqtt_take_request pkt_id).1 = some n) :
    let taken := (rq.mqtt_take_request pkt_id).2
    taken.Inv ∧ n ∉ taken.queue ∧ taken.asked n = rq.asked n ∧
      (∃ before behind, rq.queue = before ++ n :: behind ∧ taken.queue = before ++ behind) ∧
      (∃ t before behind, rq.pending = before ++ (t, rq.asked n) :: behind ∧
        taken.pending = before ++ behind ∧ (∀ e ∈ before, e.2.pkt_id ≠ pkt_id) ∧
        (rq.asked n).pkt_id = pkt_id) ∧
      ∀ i ∉ rq.queue, taken.next i = rq.next i := by
  obtain ⟨before, behind, hqueue, hbefore, hid, taken, htaken, hresult⟩ := take_split hn
  have hpath := h.queued.path
  have hnodup := h.queued.nodup
  have htotal := h.total
  rw [deltas, hqueue] at htotal
  rw [hqueue] at hpath hnodup
  obtain ⟨p, hpathb, rfl, hpathr⟩ := Linked.path_append.mp hpath
  obtain ⟨hnodupb, hnodupr, hdisj⟩ := List.nodup_append.mp hnodup
  obtain ⟨hnr, hnodupr⟩ := List.nodup_cons.mp hnodupr
  have hnb : n ∉ before := fun hmem => hdisj n hmem n (by simp) rfl
  have hnboth : n ∉ before ++ behind := by simp [hnb, hnr]
  have hnext (i : Slot) (hi : i ∉ before) (hin : i ≠ n) :
      (rq.mqtt_take_request pkt_id).2.next i = rq.next i := by
    rw [hresult, next_set, Function.update_of_ne hin, htaken, next_passTime, next_chain hi]
  have hpath' : Linked.Path (rq.mqtt_take_request pkt_id).2.next
      (rq.mqtt_take_request pkt_id).2.pend_req_queue (before ++ behind) none := by
    refine Linked.path_append.mpr ⟨rq.next n, ?_, hpathr.congr fun i hi => ?_⟩
    · rw [hresult, htaken, pend_set, pend_passTime, next_set, next_passTime]
      refine (path_chain hpathb hnodupb).congr fun i hi => ?_
      exact Function.update_of_ne (ne_of_mem_of_not_mem hi hnb) _ _
    · exact hnext i (fun hmem => hdisj i hmem i (by simp [hi]) rfl) (ne_of_mem_of_not_mem hi hnr)
  have hqueued : (rq.mqtt_take_request pkt_id).2.Queued (before ++ behind) := by
    refine ⟨hpath', List.nodup_append.mpr ⟨hnodupb, hnodupr, fun i hi j hj => ?_⟩, fun i hi => ?_⟩
    · exact hdisj i hi j (by simp [hj])
    · by_cases hin : i = n
      · subst hin
        simp [hresult]
      · rw [hnext i (by simp_all) hin]
        exact h.queued.out i (by simp_all)
  have hdelta : (before ++ behind).map (rq.mqtt_take_request pkt_id).2.delta =
      before.map rq.delta ++ DeltaList.carry (rq.delta n).1 (behind.map rq.delta) := by
    have hpass := @map_delta_passTime κ (rq.chain before.getLast? (rq.next n)) n before behind
    rw [next_chain hnb, delta_chain] at hpass
    obtain ⟨hb, hr⟩ := hpass
      (hpathr.congr fun i hi => next_chain fun hmem => hdisj i hmem i (by simp [hi]) rfl)
      hnodup (by omega)
    rw [hresult, map_delta_set hnboth, List.map_append, htaken, hb, hr]
  have hasked : (rq.mqtt_take_request pkt_id).2.asked n = rq.asked n := by
    have hset : (taken.set n { taken.req_list n with next := none }).asked = taken.asked :=
      asked_set rfl rfl
    rw [hresult, hset, htaken, asked_passTime, asked_chain]
  refine ⟨hqueued.inv ?_, ?_, hasked, ⟨before, behind, hqueue, hqueued.queue_eq⟩,
    ⟨0 + DeltaList.total (before.map rq.delta) + (rq.delta n).1,
      DeltaList.times 0 (before.map rq.delta),
      DeltaList.times (0 + DeltaList.total (before.map rq.delta) + (rq.delta n).1)
        (behind.map rq.delta),
      ?_, ?_, ?_, hid⟩, fun i hi => ?_⟩
  · rw [hdelta]
    have := DeltaList.total_carry_le (rq.delta n).1 (behind.map rq.delta)
    simp at htotal ⊢
    omega
  · rw [hqueued.queue_eq]
    exact hnboth
  · rw [pending, deltas, hqueue, List.map_append, List.map_cons, DeltaList.times_append]
    rfl
  · rw [pending, deltas, hqueued.queue_eq, hdelta, DeltaList.times_append, DeltaList.times_carry]
  · intro e he
    have hmem := List.mem_map_of_mem (f := Prod.snd) he
    rw [DeltaList.map_snd_times, List.map_map] at hmem
    obtain ⟨i, hi, heq⟩ := List.mem_map.mp hmem
    rw [← heq]
    exact hbefore i hi
  · rw [hqueue] at hi
    exact hnext i (by simp_all) (by simp_all)

/-- No request in the queue has the identifier. -/
theorem take_eq_none {pkt_id : BitVec 16} (hn : (rq.mqtt_take_request pkt_id).1 = none) :
    (rq.mqtt_take_request pkt_id).2 = rq ∧ ∀ e ∈ rq.pending, e.2.pkt_id ≠ pkt_id := by
  unfold mqtt_take_request at hn ⊢
  split at hn
  · rename_i hdrop
    refine ⟨rfl, fun e he => ?_⟩
    have hmem := List.mem_map_of_mem (f := Prod.snd) he
    rw [pending, DeltaList.map_snd_times, deltas, List.map_map] at hmem
    obtain ⟨i, hi, heq⟩ := List.mem_map.mp hmem
    rw [List.dropWhile_eq_nil_iff] at hdrop
    rw [← heq]
    simpa [delta, asked] using hdrop i hi
  · simp at hn

/-! ### time -/

/-- The callbacks of requests that have timed out. -/
def timedOut (rs : List (Asked κ)) : List (Completion κ) :=
  rs.flatMap fun r => r.cb.toList.map fun cb => (cb, .ERR_TIMEOUT)

/-- The first request off the queue. -/
theorem Queued.pop (h : rq.Queued (n :: l)) :
    let popped := ({ rq with pend_req_queue := rq.next n } : Requests κ).mqtt_delete_request n
    popped.Queued l ∧ l.map popped.delta = l.map rq.delta ∧ popped.next n = some n ∧
      ∀ i ≠ n, popped.next i = rq.next i := by
  obtain ⟨hn, hl⟩ := List.nodup_cons.mp h.nodup
  intro popped
  have hnext : popped.next = Function.update rq.next n (some n) := next_set _ _ _
  refine ⟨⟨?_, hl, fun i hi => ?_⟩, map_delta_set hn, by simp [hnext], fun i hi => by simp [hnext, hi]⟩
  · rw [hnext]
    exact h.path.2.congr fun i hi => Function.update_of_ne (ne_of_mem_of_not_mem hi hn) _ _
  · by_cases hin : i = n
    · subst hin
      simp [hnext]
    · rw [hnext, Function.update_of_ne hin]
      exact h.out i (by simp [hi, hin])

/-- Each round takes the first request off the queue, or ends the time. -/
theorem timeElapsed_spec {n : Nat} {t : BitVec 8} {rq : Requests κ} {l : List Slot}
    (h : rq.Queued l) (hn : l.length < n) :
    let after := DeltaList.elapse t.toNat (l.map rq.delta)
    ∃ done rest, l = done ++ rest ∧ (timeElapsed n t rq).2.Queued rest ∧
      rest.map (timeElapsed n t rq).2.delta = after.2 ∧
      (timeElapsed n t rq).1 = timedOut after.1 ∧
      (∀ i ∈ done, (timeElapsed n t rq).2.next i = some i) ∧
      ∀ i ∉ l, (timeElapsed n t rq).2.next i = rq.next i := by
  induction n generalizing t rq l with
  | zero => omega
  | succ n ih =>
      cases l with
      | nil =>
          have hpend : rq.pend_req_queue = none := h.path
          rw [timeElapsed, hpend, List.map_nil, DeltaList.elapse_nil]
          exact ⟨[], [], rfl, h, rfl, rfl, by simp, by simp⟩
      | cons r l =>
          have hpend : rq.pend_req_queue = some r := h.path.1
          rw [timeElapsed, hpend]
          dsimp only
          by_cases ht : 0 < t
          swap
          · have hzero : t.toNat = 0 := by simpa [BitVec.lt_def] using ht
            rw [if_neg ht, hzero, DeltaList.elapse_zero]
            exact ⟨[], r :: l, rfl, h, rfl, rfl, by simp, by simp⟩
          have hpos : 0 < t.toNat := by simpa [BitVec.lt_def] using ht
          have hwide : (t.setWidth 16).toNat = t.toNat := by
            rw [BitVec.toNat_setWidth]
            omega
          rw [if_pos ht, List.map_cons]
          by_cases hdue : (rq.req_list r).timeout_diff ≤ t.setWidth 16
          · obtain ⟨hqueued, hdelta, hfree, hnext⟩ := h.pop
            have hle : (rq.delta r).1 ≤ t.toNat := by rwa [BitVec.le_def, hwide] at hdue
            have hsub : (t - (rq.req_list r).timeout_diff.setWidth 8).toNat =
                t.toNat - (rq.delta r).1 := by
              rw [BitVec.toNat_sub, BitVec.toNat_setWidth]
              simp only [delta] at hle ⊢
              omega
            obtain ⟨done, rest, hl, hrest, hdeltas, hcalls, hdone, hout⟩ :=
              ih (t := t - (rq.req_list r).timeout_diff.setWidth 8) hqueued
                (by simpa using hn)
            rw [hsub, hdelta] at hdeltas hcalls
            have hr : r ∉ l := (List.nodup_cons.mp h.nodup).1
            rw [if_pos hdue, show rq.delta r = ((rq.delta r).1, rq.asked r) from rfl,
              DeltaList.elapse_of_le hpos hle]
            refine ⟨r :: done, rest, by rw [hl]; rfl, hrest, hdeltas, ?_, ?_, ?_⟩
            · rw [hcalls]
              rfl
            · intro i hi
              rcases List.mem_cons.mp hi with rfl | hi
              · rw [hout i hr, hfree]
              · exact hdone i hi
            · intro i hi
              rw [hout i (by simp_all), hnext i (by simp_all)]
          · have hlt : t.toNat < (rq.delta r).1 := by
              rw [BitVec.le_def, hwide] at hdue
              exact Nat.lt_of_not_le hdue
            have hr : r ∉ l := (List.nodup_cons.mp h.nodup).1
            have hsub : ((rq.req_list r).timeout_diff - t.setWidth 16).toNat =
                (rq.delta r).1 - t.toNat := by
              rw [BitVec.toNat_sub, hwide]
              simp only [delta] at hlt ⊢
              omega
            rw [if_neg hdue, show rq.delta r = ((rq.delta r).1, rq.asked r) from rfl,
              DeltaList.elapse_of_lt hlt]
            refine ⟨[], r :: l, rfl, h.set_same rfl, ?_, rfl, by simp, fun i _ => ?_⟩
            · rw [List.map_cons, map_delta_set hr, ← hsub]
              simp [delta, asked]
            · rw [next_set]
              exact congrFun (Function.update_eq_self r rq.next) i

/-- `mqtt_request_time_elapsed`: what is due times out, in its order. -/
theorem time_elapsed_spec (h : rq.Inv) {t : BitVec 8} (ht : 0 < t.toNat) :
    let elapsed := rq.mqtt_request_time_elapsed t
    elapsed.2.Inv ∧ elapsed.2.pending = DeltaList.left t.toNat rq.pending ∧
      elapsed.1 = timedOut (DeltaList.due t.toNat rq.pending) ∧ (rq.Tight → elapsed.2.Tight) := by
  intro elapsed
  have hlen : rq.queue.length < MQTT_REQ_MAX_IN_FLIGHT + 1 := by
    simpa using Nat.lt_succ_of_le h.queued.nodup.length_le_card
  obtain ⟨done, rest, hqueue, hrest, hdeltas, hcalls, hdone, hout⟩ :=
    timeElapsed_spec (t := t) h.queued hlen
  obtain ⟨hdue, hleft⟩ := DeltaList.times_elapse 0 t.toNat ht rq.deltas
  rw [Nat.zero_add] at hdue hleft
  have hle := DeltaList.total_elapse_le t.toNat rq.deltas
  have htotal := h.total
  have hrestq : elapsed.2.queue = rest := hrest.queue_eq
  refine ⟨hrest.inv ?_, ?_, ?_, fun htight i hi => ?_⟩
  · rw [hdeltas, ← deltas]
    omega
  · rw [pending, deltas, hrestq]
    exact (congrArg (DeltaList.times 0) hdeltas).trans hleft
  · exact hcalls.trans (congrArg timedOut hdue)
  · rw [hrestq] at hi
    by_cases hmem : i ∈ rq.queue
    · rw [hqueue] at hmem
      exact hdone i (by simp_all)
    · exact (hout i hmem).trans (htight i hmem)

/-! ### clear and initialise -/

theorem foldl_delete (l : List Slot) (rq : Requests κ) :
    let deleted := l.foldl (fun rq iter => rq.mqtt_delete_request iter) rq
    deleted.pend_req_queue = rq.pend_req_queue ∧ (∀ i ∈ l, deleted.next i = some i) ∧
      ∀ i ∉ l, deleted.next i = rq.next i := by
  induction l generalizing rq with
  | nil => simp
  | cons n l ih =>
      obtain ⟨hpend, hin, hout⟩ := ih (rq.mqtt_delete_request n)
      refine ⟨hpend, fun i hi => ?_, fun i hi => ?_⟩
      · by_cases hmem : i ∈ l
        · exact hin i hmem
        · have hn : i = n := by simp_all
          rw [List.foldl_cons, hout i hmem, hn]
          simp [mqtt_delete_request]
      · rw [List.foldl_cons, hout i (by simp_all)]
        have hn : i ≠ n := by simp_all
        simp [mqtt_delete_request, hn]

theorem clear_spec (h : rq.Inv) :
    rq.mqtt_clear_requests.Inv ∧ rq.mqtt_clear_requests.pending = [] ∧
      (rq.Tight → rq.mqtt_clear_requests.Tight) := by
  obtain ⟨-, hin, hout⟩ := foldl_delete rq.queue rq
  have hqueued : rq.mqtt_clear_requests.Queued [] := by
    refine ⟨rfl, List.nodup_nil, fun i _ => ?_⟩
    by_cases hi : i ∈ rq.queue
    · exact Or.inl (hin i hi)
    · exact (show rq.mqtt_clear_requests.next i = rq.next i from hout i hi) ▸ h.queued.out i hi
  refine ⟨hqueued.inv (by simp), by simp [pending, deltas, hqueued.queue_eq, DeltaList.times],
    fun htight i _ => ?_⟩
  by_cases hi : i ∈ rq.queue
  · exact hin i hi
  · exact (hout i hi).trans (htight i hi)

/-- Before a first connection there are no requests either. -/
theorem new_spec (κ : Type) : ({} : Requests κ).Inv ∧ ({} : Requests κ).pending = [] := by
  have hqueued : ({} : Requests κ).Queued [] := ⟨rfl, List.nodup_nil, fun i _ => Or.inr rfl⟩
  refine ⟨hqueued.inv (by simp), ?_⟩
  rw [pending, deltas, hqueued.queue_eq]
  rfl

/-- The requests of a client that has been wiped and initialised. -/
theorem init_spec (hpend : rq.pend_req_queue = none) :
    rq.mqtt_init_requests.Inv ∧ rq.mqtt_init_requests.pending = [] ∧
      rq.mqtt_init_requests.Tight := by
  have hqueued : rq.mqtt_init_requests.Queued [] := ⟨hpend, List.nodup_nil, fun i _ => Or.inl rfl⟩
  exact ⟨hqueued.inv (by simp), by simp [pending, deltas, hqueued.queue_eq, DeltaList.times],
    fun i _ => rfl⟩

/-! ### pairs of calls -/

/-- A request item is found exactly as long as fewer than four requests wait. -/
theorem create_eq_none_iff_full (h : rq.Inv) (htight : rq.Tight) (pkt_id : BitVec 16)
    (cb : Option κ) :
    (rq.mqtt_create_request pkt_id cb).1 = none ↔ rq.pending.length = MQTT_REQ_MAX_IN_FLIGHT := by
  have hlen : rq.pending.length = rq.queue.length := by simp [pending, deltas]
  rw [create_eq_none_iff, hlen]
  constructor
  · intro hall
    have hmem : ∀ i, i ∈ rq.queue := fun i => by
      by_contra hi
      exact hall i (htight i hi)
    have hall : Finset.univ ⊆ rq.queue.toFinset := fun i _ => List.mem_toFinset.mpr (hmem i)
    have hcard := (Finset.card_le_card hall).trans rq.queue.toFinset_card_le
    exact Nat.le_antisymm (by simpa using h.queued.nodup.length_le_card) (by simpa using hcard)
  · intro hfull i
    have hmem : i ∈ rq.queue := by
      by_contra hi
      have := (List.nodup_cons.mpr ⟨hi, h.queued.nodup⟩).length_le_card
      simp at this
      omega
    exact h.queued.path.next_ne h.queued.nodup hmem

/-- An item created and deleted again. -/
theorem create_delete_spec (h : rq.Inv) {pkt_id : BitVec 16} {cb : Option κ}
    (hn : (rq.mqtt_create_request pkt_id cb).1 = some n) :
    let after := (rq.mqtt_create_request pkt_id cb).2.mqtt_delete_request n
    after.Inv ∧ after.pending = rq.pending ∧ (rq.Tight → after.Tight) := by
  obtain ⟨hfree, hmem, hcreated⟩ := create_spec h hn
  intro after
  obtain ⟨hinv, hqueue, hdeltas⟩ := h.set_out (r :=
    { rq.req_list n with next := none, cb := cb, pkt_id := pkt_id }) hmem (Or.inr rfl)
  rw [← hcreated] at hinv hqueue hdeltas
  obtain ⟨hinv', hqueue', hdeltas'⟩ := hinv.set_out (n := n) (r :=
    { (rq.mqtt_create_request pkt_id cb).2.req_list n with next := some n })
    (by rwa [hqueue]) (Or.inl rfl)
  refine ⟨hinv', by rw [pending, pending]; exact congrArg _ (hdeltas'.trans hdeltas),
    fun htight i hi => ?_⟩
  rw [show after.queue = rq.queue from hqueue'.trans hqueue] at hi
  by_cases hin : i = n
  · subst hin
    simp [after, mqtt_delete_request]
  · have : after.next i = rq.next i := by simp [after, mqtt_delete_request, hcreated, hin]
    rw [this, htight i hi]

/-- An item created and appended. -/
theorem create_append_spec (h : rq.Inv) {pkt_id : BitVec 16} {cb : Option κ}
    (hn : (rq.mqtt_create_request pkt_id cb).1 = some n) :
    let after := (rq.mqtt_create_request pkt_id cb).2.mqtt_append_request n
    after.Inv ∧ after.pending = rq.pending ++ [(30, ⟨pkt_id, cb⟩)] ∧ (rq.Tight → after.Tight) := by
  obtain ⟨hfree, hmem, hcreated⟩ := create_spec h hn
  intro after
  obtain ⟨hinv, hqueue, hdeltas⟩ := h.set_out (r :=
    { rq.req_list n with next := none, cb := cb, pkt_id := pkt_id }) hmem (Or.inr rfl)
  rw [← hcreated] at hinv hqueue hdeltas
  have hnext : (rq.mqtt_create_request pkt_id cb).2.next n = none := by simp [hcreated]
  have hasked : (rq.mqtt_create_request pkt_id cb).2.asked n = ⟨pkt_id, cb⟩ := by
    simp [hcreated, asked]
  obtain ⟨hinv', hqueue', hpending, hout⟩ := append_spec hinv (by rwa [hqueue]) hnext
  rw [hasked] at hpending
  refine ⟨hinv', hpending.trans (by rw [pending, hdeltas, ← pending]), fun htight i hi => ?_⟩
  have hi' := hi
  rw [show after.queue = _ from hqueue', hqueue, List.mem_append, List.mem_singleton, not_or] at hi
  rw [hout i hi', hcreated, next_set, Function.update_of_ne hi.2, htight i hi.1]

/-- An item taken and deleted. -/
theorem take_delete_spec (h : rq.Inv) {pkt_id : BitVec 16}
    (hn : (rq.mqtt_take_request pkt_id).1 = some n) :
    let after := (rq.mqtt_take_request pkt_id).2.mqtt_delete_request n
    after.Inv ∧ after.pending = (rq.mqtt_take_request pkt_id).2.pending ∧
      (rq.Tight → after.Tight) := by
  obtain ⟨hinv, hmem, -, ⟨before, behind, hqueue, htaken⟩, -, hout⟩ := take_spec h hn
  intro after
  obtain ⟨hinv', hqueue', hdeltas⟩ := hinv.set_out (n := n) (r :=
    { (rq.mqtt_take_request pkt_id).2.req_list n with next := some n }) hmem (Or.inl rfl)
  refine ⟨hinv', by rw [pending, pending]; exact congrArg _ hdeltas, fun htight i hi => ?_⟩
  by_cases hin : i = n
  · subst hin
    simp [after, mqtt_delete_request]
  · rw [show after.queue = _ from hqueue', htaken] at hi
    have hold : i ∉ rq.queue := by rw [hqueue]; simp_all
    have : after.next i = (rq.mqtt_take_request pkt_id).2.next i := by
      simp [after, mqtt_delete_request, hin]
    rw [this, hout i hold, htight i hold]

end Requests

end Enc28j60.Mqtt
